/-
Module: ClosureVtl.Proofs.Render.ReachedParts
Purpose: What a task reaches through parts of parts, and where the texts go.
Main exports:
  Handler.Passes, Program.CallPart, Program.Part, Program.Reaches, Program.puts_of_part,
  Program.puts_of_reaches, Program.RunsIn
-/
import ClosureVtl.Proofs.Render.PairedHandlers
import ClosureVtl.Proofs.Render.StatementParts

namespace ClosureVtl

/-!
`Program.Reaches` closes the parts of expressions, statements, patterns, JSON texts and
integration calls under parts of parts.  Of the places on the way only the last one counts
that is not in the text around it: a text that is kept in a text goes where that one goes, and
a text that is in a line stays there, whatever happens to the text around.

`Program.puts_of_reaches` finds the run of everything that is reached, and its text in its
place.  The induction is on the way, and each step of it is one level of the walker.
-/

/-- Where a text goes that has its place in a text which goes to another place. -/
def TextPlace.behind (outer : TextPlace) : TextPlace → TextPlace
  | .text => outer
  | place => place

/-- What holds of a text holds of the texts that it keeps, and a place in a line needs no text
around it. -/
theorem TextPlace.Holds.behind {outer place : TextPlace} {text middle part : String}
    {out start stop final : Output} (houter : outer.Holds text middle out final)
    (hstart : out.lines.toList <+: start.lines.toList)
    (hstop : stop.lines.toList <+: final.lines.toList) (h : place.Holds middle part start stop) :
    (outer.behind place).Holds text part out final := by
  cases place with
  | text =>
    cases outer with
    | text => exact List.IsInfix.trans h houter
    | line => exact fun hcall => .of_keeps h (houter (Text.isCallText_of_keeps h hcall))
    | dropped => trivial
  | line => exact fun hcall => (h hcall).widen hstart hstop
  | dropped => trivial

/-- An operand is in the text or in a line. -/
theorem Operand.place_ne_dropped (a : Arena) (operand : Operand) : operand.place a ≠ .dropped := by
  unfold place
  split
  · split <;> simp
  all_goals simp

/-! ### Calls of integrations -/

/-- Whether a handler renders the argument at a position through an entry point, and keeps the
text in the text of the call or in a line. -/
def Handler.Passes (handler : Handler) (position : Nat) (entry : Walker → NodeId → Render String)
    (inText : Bool) : Prop :=
  ∀ ⦃w : Walker⦄ ⦃site arg out text final⦄, w.KeepsBlocks → site.arg? position = some arg →
    (handler w site).runOn out = (.ok text, final) →
    ∃ start value stop, (entry w arg).runOn start = (.ok value, stop) ∧
      out.lines.toList <+: start.lines.toList ∧ stop.lines.toList <+: final.lines.toList ∧
      if inText then Text.Keeps text value else Output.Shows value stop final

namespace Integration

theorem passes_stashRequest (kind : String) :
    Handler.Passes (stashRequest kind) 0 Walker.argument false := by
  intro w site arg out text final hw harg h
  unfold stashRequest CallSite.arg? at *
  cases hargs : site.args with
  | nil =>
    rw [hargs] at harg
    cases harg
  | cons first rest =>
    rw [hargs] at harg h
    cases harg
    obtain ⟨payload, stop, hpayload, hrest⟩ := Render.runOn_bind_eq_ok_iff.mp h
    obtain ⟨_, written, hline, hdone⟩ := Render.runOn_bind_eq_ok_iff.mp hrest
    cases hdone
    refine ⟨out, payload, stop, hpayload, List.prefix_rfl, Render.appends_emit _ hline, ?_⟩
    exact Render.mentions_emit (((Text.keeps_self payload).behind _).front "\x7d)") hline

theorem passes_jsonRequest (kind : String) :
    Handler.Passes (jsonRequest kind) 0 Walker.fragment true := by
  intro w site arg out text final hw harg h
  unfold jsonRequest CallSite.arg? at *
  cases hargs : site.args with
  | nil =>
    rw [hargs] at harg
    cases harg
  | cons first rest =>
    rw [hargs] at harg h
    cases harg
    obtain ⟨payload, stop, hpayload, hdone⟩ := Render.runOn_bind_eq_ok_iff.mp h
    cases hdone
    exact ⟨out, payload, final, hpayload, List.prefix_rfl, List.prefix_rfl,
      ((Text.keeps_self payload).behind _).front "\x7d"⟩

theorem passes_invocation (kind : String) (position : Nat) :
    Handler.Passes (invocation kind) position Walker.argument true := by
  intro w site arg out text final hw harg h
  obtain ⟨texts, last, htexts, hdone⟩ := Render.runOn_bind_eq_ok_iff.mp h
  cases hdone
  obtain ⟨start, value, stop, hrun, hm, hstart, hstop⟩ := Walker.exists_run_of_mapM
    (fun id => (Walker.keeps_argument id).appends hw) (List.mem_of_getElem? harg) htexts
  exact ⟨start, value, stop, hrun, hstart, hstop,
    (Text.keeps_intercalate ", " (List.mem_cons_of_mem _ hm)).wrap _ _⟩

theorem passes_jsonInvocation (kind : String) (position : Nat) :
    Handler.Passes (jsonInvocation kind) position Walker.fragment true := by
  intro w site arg out text final hw harg h
  obtain ⟨texts, last, htexts, hdone⟩ := Render.runOn_bind_eq_ok_iff.mp h
  cases hdone
  obtain ⟨start, value, stop, hrun, hm, hstart, hstop⟩ := Walker.exists_run_of_mapM
    (fun id => (Walker.keeps_fragment id).appends hw) (List.mem_of_getElem? harg) htexts
  exact ⟨start, value, stop, hrun, hstart, hstop,
    ((Text.keeps_intercalate "," hm).behind _).front "]\x7d"⟩

end Integration

namespace Program

variable {p : Program} {dialect : Dialect} {task outer inner : Task} {place : TextPlace}
  {text : String} {out final : Output} {n : Nat}

/-- What the handler of an integration renders of a call, with the place of the text. -/
inductive CallPart (p : Program) (dialect : Dialect) (called : IntegrationId) (id : NodeId) :
    TextPlace → Task → Prop where
  | argument {integration : Integration} {callee arg : NodeId} {args : List NodeId}
      {position : Nat} {inText : Bool} (found : p.integration? called = some integration)
      (node : p.arena.get? id = some (.call callee args)) (given : args[position]? = some arg)
      (passes : (integration.handler dialect).Passes position Walker.argument inText) :
      CallPart p dialect called id
        (if inText then (Operand.argument (p.arena.argumentExpr arg)).place p.arena else .line)
        (.expression (p.arena.argumentExpr (p.arena.argumentExpr arg)))
  | json {integration : Integration} {callee arg : NodeId} {args : List NodeId}
      {position : Nat} {inText : Bool} (found : p.integration? called = some integration)
      (node : p.arena.get? id = some (.call callee args)) (given : args[position]? = some arg)
      (passes : (integration.handler dialect).Passes position Walker.fragment inText) :
      CallPart p dialect called id (if inText then .text else .line)
        (.fragment (p.arena.argumentExpr arg))

/-- What is rendered for a task, with the place of its text. -/
inductive Part (p : Program) (dialect : Dialect) : Task → TextPlace → Task → Prop where
  | expression {id : NodeId} {place : TextPlace} {inner : Task}
      (part : p.arena.ExpressionPart id place inner) : Part p dialect (.expression id) place inner
  | fragment {id : NodeId} {place : TextPlace} {inner : Task}
      (part : p.arena.FragmentPart id place inner) : Part p dialect (.fragment id) place inner
  | statement {id : NodeId} {inCallback : Bool} {place : TextPlace} {inner : Task}
      (part : p.arena.StatementPart dialect id inCallback place inner) :
      Part p dialect (.statement id inCallback) place inner
  | pattern {id : NodeId} {inner : Task} (part : p.arena.BindingPart id inner) :
      Part p dialect (.pattern id) .line inner
  | call {called : IntegrationId} {id : NodeId} {place : TextPlace} {inner : Task}
      (part : p.CallPart dialect called id place inner) : Part p dialect (.call called id) place inner

/-- What is rendered for a task or for a part of it, with the place of its text. -/
inductive Reaches (p : Program) (dialect : Dialect) (whole : Task) : TextPlace → Task → Prop where
  | refl : Reaches p dialect whole .text whole
  | step {outer place : TextPlace} {task inner : Task} (way : Reaches p dialect whole outer task)
      (part : p.Part dialect task place inner) :
      Reaches p dialect whole (outer.behind place) inner

/-! ### Runs -/

/-- The site of a call lists its arguments without wrappers. -/
theorem arg?_of_callSite {call callee arg : NodeId} {args : List NodeId} {site : CallSite}
    {position : Nat} (node : p.arena.get? call = some (.call callee args))
    (given : args[position]? = some arg) (h : CallSite.of p.arena call = .ok site) :
    site.arg? position = some (p.arena.argumentExpr arg) := by
  unfold CallSite.of at h
  rw [Arena.node_eq_ok_iff.mpr node] at h
  cases h
  simp [CallSite.arg?, given]

/-- A dispatch that ends well hands the call to its handler. -/
theorem exists_run_of_dispatch {w : Walker} (harena : w.arena = p.arena) {called : IntegrationId}
    {id : NodeId} (h : (w.dispatch p.integrations called id).runOn out = (.ok text, final)) :
    ∃ integration site start, p.integration? called = some integration ∧
      CallSite.of p.arena id = .ok site ∧
      (integration.handler w.dialect w site).runOn start = (.ok text, final) ∧
      start.lines = out.lines := by
  cases hfound : p.integrations[called.index]? with
  | none =>
    rw [Walker.dispatch_unknown hfound] at h
    exact absurd ⟨out, final, h⟩ Render.not_yields_fault
  | some integration =>
    rw [Walker.runOn_dispatch hfound] at h
    split at h
    · cases h
    · obtain ⟨site, found, hsite, hhandler⟩ := Render.runOn_bind_eq_ok_iff.mp h
      obtain ⟨hok, rfl⟩ := Render.runOn_ofExcept_eq_ok_iff.mp hsite
      rw [harena] at hok
      exact ⟨integration, site, _, hfound, hok, hhandler, rfl⟩

/-- What is kept in a text goes into the line that shows the text. -/
theorem puts_line_of_shows {w : Walker} {value : String} {start stop : Output}
    (hplace : place ≠ .dropped) (hput : w.Puts inner place value start stop)
    (hstart : out.lines.toList <+: start.lines.toList) (hshown : Output.Shows value stop final)
    (hlines : start.lines.toList <+: stop.lines.toList) : w.Puts inner .line text out final := by
  obtain ⟨part, hpart, hholds⟩ := hput
  refine ⟨part, hpart.widen hstart hshown.isPrefix, fun hcall => ?_⟩
  cases place with
  | text => exact .of_keeps hholds (hshown.widen (hstart.trans hlines) List.prefix_rfl)
  | line => exact (hholds hcall).widen hstart hshown.isPrefix
  | dropped => exact absurd rfl hplace

theorem puts_of_dispatch {w : Walker} (hw : w.KeepsBlocks) (harena : w.arena = p.arena)
    {called : IntegrationId} {id : NodeId} (part : p.CallPart w.dialect called id place inner)
    (h : (w.dispatch p.integrations called id).runOn out = (.ok text, final)) :
    w.Puts inner place text out final := by
  obtain ⟨integration, site, start, hfound, hsite, hrun, hlines⟩ := exists_run_of_dispatch harena h
  have hout : out.lines.toList <+: start.lines.toList := by rw [hlines]
  cases part with
  | @argument _ callee arg args position inText found node given passes =>
    rw [hfound] at found
    cases found
    obtain ⟨first, value, last, hvalue, hfirst, hlast, hkept⟩ :=
      passes hw (arg?_of_callSite node given hsite) hrun
    have hput := Walker.puts_argument hw hvalue
    rw [harena] at hput
    cases inText with
    | true => exact hput.embed (hout.trans hfirst) hlast hkept
    | false =>
      exact puts_line_of_shows (Operand.place_ne_dropped p.arena _) hput (hout.trans hfirst) hkept
        ((Walker.keeps_argument _).isPrefix hw hvalue)
  | @json _ callee arg args position inText found node given passes =>
    rw [hfound] at found
    cases found
    obtain ⟨first, value, last, hvalue, hfirst, hlast, hkept⟩ :=
      passes hw (arg?_of_callSite node given hsite) hrun
    have htask : w.Performs (.fragment (p.arena.argumentExpr arg)) first value last := hvalue
    have hput : w.Puts (.fragment (p.arena.argumentExpr arg)) .text value first last :=
      htask.puts_text List.prefix_rfl List.prefix_rfl (Text.keeps_self value)
    cases inText with
    | true => exact hput.embed (hout.trans hfirst) hlast hkept
    | false =>
      exact puts_line_of_shows (by decide) hput (hout.trans hfirst) hkept
        ((Walker.keeps_fragment _).isPrefix hw hvalue)

/-- A part of a task has its run, one level below, in the run of the task, and its text is in
its place. -/
theorem puts_of_part (hw : (p.walkerWithin dialect n).KeepsBlocks)
    (part : p.Part dialect task place inner)
    (h : (p.walkerWithin dialect (n + 1)).Performs task out text final) :
    (p.walkerWithin dialect n).Puts inner place text out final := by
  have harena := p.arena_walkerWithin dialect n
  have hdialect := p.dialect_walkerWithin dialect n
  cases part with
  | expression part =>
    rw [← harena] at part
    exact Walker.puts_of_renderExpression hw part h
  | fragment part =>
    rw [← harena] at part
    exact Walker.puts_of_renderFragment hw part h
  | statement part =>
    obtain ⟨rfl, slot, rfl, hrun⟩ := h
    rw [← hdialect, ← harena] at part
    exact Walker.puts_of_renderStatement hw part hrun
  | pattern part =>
    obtain ⟨rfl, target, hrun⟩ := h
    rw [← harena] at part
    exact (Walker.writesOut_expandPattern hw part target).puts hrun
  | call part =>
    rw [← hdialect] at part
    exact puts_of_dispatch hw harena part h

/-- At the lowest level nothing is carried out. -/
theorem not_performs_zero : ¬ (p.walkerWithin dialect 0).Performs task out text final := by
  intro h
  cases task with
  | expression id | fragment id | call integration id => cases h
  | statement id inCallback =>
    obtain ⟨-, slot, -, hrun⟩ := h
    cases hrun
  | pattern id =>
    obtain ⟨-, target, hrun⟩ := h
    cases hrun

/-- Whatever a task reaches has its run, at some level, in the run of the task, and its text is
in its place. -/
theorem puts_of_reaches (hp : p.BottomUp)
    (ht : ∀ integration ∈ p.integrations, integration.KeepsBlocks)
    (way : p.Reaches dialect task place inner)
    (h : (p.walkerWithin dialect n).Performs task out text final) :
    ∃ m ≤ n, (p.walkerWithin dialect m).Puts inner place text out final := by
  induction way with
  | refl => exact ⟨n, le_rfl, h.puts_text List.prefix_rfl List.prefix_rfl (Text.keeps_self text)⟩
  | step way part ih =>
    obtain ⟨m, hm, middle, ⟨start, stop, hrun, hstart, hstop⟩, houter⟩ := ih
    cases m with
    | zero => exact absurd hrun not_performs_zero
    | succ m =>
      obtain ⟨piece, hpiece, hplace⟩ := puts_of_part (hp.keepsBlocks_walkerWithin ht m) part hrun
      exact ⟨m, by omega, piece, hpiece.widen hstart hstop, houter.behind hstart hstop hplace⟩

end Program

/-! ### Calls that run -/

/-- Whether a call runs where its text is evaluated: that of a method or a function, or of an
integration whose text is no reference. -/
def Program.RunsIn (p : Program) (call : NodeId) (text : String) : Prop :=
  (∃ written, p.arena.Builds call written ∧ written.statement = false) ∨
    (∃ callee args, p.arena.get? call = some (.call callee args) ∧
      (p.arena.resolveIntegration callee).isSome = true) ∧ Text.isCallText text = true

/-- A helper of the globals becomes a call. -/
theorem parentheses_of_globalHelper? {global name : String} {helper : String → String}
    (known : Walker.globalHelper? global name = some helper) (value : String) :
    '(' ∈ (helper value).toList ∧ (helper value).toList.getLast? = some ')' := by
  unfold Walker.globalHelper? at known
  split at known <;> cases known
  all_goals exact ⟨by simp [toString], getLast?_append (by decide) _⟩

/-- The text of a call has parentheses, and the closing one is its last character. -/
theorem Arena.Builds.parentheses {a : Arena} {id : NodeId} {call : CallText}
    (built : a.Builds id call) (inline : call.statement = false) (receiver args : String) :
    '(' ∈ (call.text receiver args).toList ∧
      (call.text receiver args).toList.getLast? = some ')' := by
  cases built with
  | helper node member receiver undeclared known => exact parentheses_of_globalHelper? known args
  | method | function | membership | push | pushAll =>
    exact ⟨by simp [toString], getLast?_append (by decide) _⟩
  | _ => cases inline

theorem Walker.exists_text_of_builds {w : Walker} (hw : w.KeepsBlocks) {id : NodeId}
    {call : CallText} (built : w.arena.Builds id call) (inline : call.statement = false)
    {text : String} {out final : Output}
    (h : (w.renderExpression id).runOn out = (.ok text, final)) :
    ∃ receiver args, text = call.text receiver args := by
  obtain ⟨-, -, parts, -, -, -, receiver, happears⟩ := runsCall_of_builds hw built h
  rw [inline, if_neg Bool.false_ne_true] at happears
  exact ⟨receiver, _, happears⟩

namespace Program

variable {p : Program} {dialect : Dialect} {id : NodeId} {text : String} {out final : Output}
  {n : Nat}

/-- An expression that is rendered is so by its rule, one level below. -/
theorem exists_rule (h : ((p.walkerWithin dialect n).expression id).runOn out = (.ok text, final)) :
    ∃ m, ((p.walkerWithin dialect m).renderExpression id).runOn out = (.ok text, final) := by
  cases n with
  | zero => cases h
  | succ m => exact ⟨m, h⟩

/-- What runs where its text is evaluated has a text that is no part of a reference. -/
theorem isCallText_of_runsIn (hp : p.BottomUp)
    (ht : ∀ integration ∈ p.integrations, integration.KeepsBlocks) (runs : p.RunsIn id text)
    (h : ((p.walkerWithin dialect n).expression id).runOn out = (.ok text, final)) :
    Text.isCallText text = true := by
  rcases runs with ⟨written, built, inline⟩ | ⟨-, hcall⟩
  · obtain ⟨m, hrun⟩ := exists_rule h
    have hbuilt := built
    rw [← p.arena_walkerWithin dialect m] at hbuilt
    obtain ⟨receiver, args, rfl⟩ :=
      Walker.exists_text_of_builds (hp.keepsBlocks_walkerWithin ht m) hbuilt inline hrun
    exact Text.isCallText_of_mem (built.parentheses inline receiver args).1
  · exact hcall

/-- A method of what a member yields runs where its text is evaluated, unless the method is a
list operation or `push`. -/
theorem runsIn_of_memberMethod {callee base inner : NodeId} {args : List NodeId}
    {name field : String} (node : p.arena.get? id = some (.call callee args))
    (member : p.arena.get? (p.arena.unwrapParens callee) = some (.member base name))
    (receiver : p.arena.get? (p.arena.unwrapParens base) = some (.member inner field))
    (operation : Walker.ListOperation.ofName? name = none) (push : name ≠ "push") (text : String) :
    p.RunsIn id text := by
  refine .inl ⟨_, .method node member ⟨operation, push, fun node global hget hname => ?_⟩, rfl⟩
  cases receiver.symm.trans hget
  cases hname

end Program

end ClosureVtl
