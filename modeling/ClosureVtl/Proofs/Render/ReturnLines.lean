/-
Module: ClosureVtl.Proofs.Render.ReturnLines
Purpose: A resolver template returns once for each return in the own body of the closure.
Main exports:
  isReturnLine, Walker.counts_renderStatement, Walker.counts_renderRoot,
  Program.countP_isReturnLine_of_compileResolver
-/
import ClosureVtl.Proofs.Closure.OwnReturns
import ClosureVtl.Proofs.Render.ComputingRules

namespace ClosureVtl

/-!
A resolver template ends where it comes to a line that starts with `#return`.  A return in the
body of a callback must not be such a line, since it would end the template from inside of a
loop; it is an assignment to the slot of the callback.  So the slot has to be handed on through
all statements of the body, and no other step may write a line of this kind.

What remains are the statements that are rendered without a slot.  Their lines are counted
along the parts of the statement, and the count is the number of returns that belong to the
closure.
-/

/-- Whether a line returns from the template. -/
def isReturnLine (line : String) : Bool := "#return".toList.isPrefixOf line.toList

theorem isReturnLine_returned (text : String) : isReturnLine s!"#return({text})" = true := by
  unfold isReturnLine
  simp [toString]

/-- A line that starts otherwise does not return. -/
theorem not_isReturnLine_of_starts {line : String} {first second : Char}
    (h : [first, second] <+: line.toList) (hne : [first, second] ≠ ['#', 'r']) :
    isReturnLine line = false := by
  refine Bool.eq_false_of_not_eq_true fun hreturn => hne ?_
  have hprefix : "#return".toList <+: line.toList := List.isPrefixOf_iff_prefix.mp hreturn
  have hstarts : ['#', 'r'] <+: line.toList := List.IsPrefix.trans (by decide) hprefix
  exact (List.prefix_of_prefix_length_le h hstarts (Nat.le_refl _)).eq_of_length rfl

/-- No computing line returns. -/
theorem ComputingLine.not_isReturnLine {line : String} (h : ComputingLine line) :
    isReturnLine line = false := by
  have hstarts : ∀ first second : Char, [first, second] <+: line.toList →
      [first, second] ≠ ['#', 'r'] → isReturnLine line = false :=
    fun _ _ => not_isReturnLine_of_starts
  cases h with
  | assign target value =>
    refine hstarts '#' 's' ?_ (by decide)
    repeat apply starts_append
    decide
  | discard value =>
    refine hstarts '$' 'u' ?_ (by decide)
    repeat apply starts_append
    decide
  | branch condition =>
    refine hstarts '#' 'i' ?_ (by decide)
    repeat apply starts_append
    decide
  | loop item list =>
    refine hstarts '#' 'f' ?_ (by decide)
    repeat apply starts_append
    decide
  | alternative | close | leave | emptyReduce => decide

/-! ### Statements outside of callbacks -/

namespace Walker

variable {w : Walker} {config : ResolverConfig} {k : Nat}

/-- What computes does not return. -/
theorem Misses.not_returns (hw : w.Misses isReturnLine) {α : Type} {x : Render α}
    (h : w.Computes x) : x.Counts isReturnLine 0 :=
  h.counts ComputingLine.not_isReturnLine hw

theorem counts_returned (hw : w.Misses isReturnLine) (hd : w.dialect = .resolver config)
    (value : Option NodeId) : (w.returned value).Counts isReturnLine 1 := by
  unfold returned
  rw [hd]
  cases value with
  | none => exact .emit "#return"
  | some value =>
    apply Render.Counts.before (hw.expression value)
    intro text _
    have hcount : Render.Counts isReturnLine (Render.emit s!"#return({text})")
        (if isReturnLine s!"#return({text})" then 1 else 0) := .emit _
    rwa [isReturnLine_returned] at hcount

/-- A loop writes what its body writes, whatever it binds. -/
theorem counts_loop (hw : w.Misses isReturnLine) (target : NodeId) (list : String)
    {body : Render Unit} (hbody : body.Counts isReturnLine k) :
    (w.loop target list body).Counts isReturnLine k := by
  have hrest : (do
      body
      Render.close).Counts isReturnLine k :=
    hbody.after fun _ _ => hw.not_returns .close
  have hpattern : (do
      let item ← Render.freshTemp
      Render.openLoop item list
      w.expand target item
      body
      Render.close).Counts isReturnLine k :=
    (Render.Counts.freshTemp).before fun item _ => (hw.not_returns (.openLoop item list)).before
      fun _ _ => (hw.expand target item).before fun _ _ => hrest
  apply Render.Counts.before (hw.not_returns (.requireLoops _))
  intro _ _
  apply Render.Counts.before (hw.not_returns (.node target))
  intro shape _
  cases shape with
  | identifier name =>
    exact (hw.not_returns (.address target)).before fun item _ =>
      (hw.not_returns (.openLoop item list)).before fun _ _ => hrest
  | objectPattern elements => exact hpattern
  | arrayPattern elements => exact hpattern
  | _ => exact Render.Counts.before (.fault _) fun _ _ => hrest

/-- A statement is nothing that a loop can bind. -/
theorem counts_loop_of_statement (hw : w.Misses isReturnLine) {target : NodeId} {shape : Node}
    (hn : w.arena.get? target = some shape) (hstatement : shape.isStatement = true)
    (list : String) (body : Render Unit) : (w.loop target list body).Counts isReturnLine k := by
  have hrefused : ∀ cause, Render.Counts isReturnLine (do
      Render.breach cause
      body
      Render.close) k :=
    fun _ => Render.Counts.bind (m := 0) (.fault _) fun _ h => absurd h Render.not_yields_fault
  apply Render.Counts.before (hw.not_returns (.requireLoops _))
  intro _ _
  rw [node_eq_pure hn]
  cases shape with
  | identifier _ | objectPattern _ | arrayPattern _ => cases hstatement
  | _ => exact hrefused _

section

variable (hw : w.Misses isReturnLine) (hg : w.arena.Grown) (hs : w.arena.StatementsInPlace)
include hw hg hs

/-- What a loop binds is a declaration or no statement, or the loop is not rendered; so it has
no return. -/
theorem counts_loopBinding (binding : NodeId) (list : String) {body : Render Unit}
    (hbody : body.Counts isReturnLine k) :
    (w.loopTarget binding >>= fun target => w.loop target list body).Counts isReturnLine
      (w.arena.returnsIn binding + k) := by
  have hloop : (w.loopTarget binding >>= fun target => w.loop target list body).Counts
      isReturnLine k := by
    have htarget : (w.loopTarget binding).Counts isReturnLine 0 :=
      hw.not_returns (.loopTarget binding)
    exact htarget.before fun target _ => counts_loop hw target list hbody
  cases hbinding : w.arena.isStatement binding with
  | true =>
    obtain ⟨shape, hn, hstatement⟩ := Arena.exists_of_isStatement hbinding
    by_cases hdeclared : ∃ kind name value, shape = .declaration kind name value
    · obtain ⟨kind, name, value, rfl⟩ := hdeclared
      have hnone : w.arena.returnsIn binding = 0 := by
        rw [hs.returnsIn_of_values hg hn (by simp [Arena.isFunction, hn]) rfl]
        simp [Arena.isReturn, hn]
      rwa [hnone, Nat.zero_add]
    · have htarget : w.loopTarget binding = pure binding := by
        unfold loopTarget
        rw [node_eq_pure hn]
        cases shape with
        | declaration kind name value => exact absurd ⟨kind, name, value, rfl⟩ hdeclared
        | _ => rfl
      rw [htarget, pure_bind]
      exact counts_loop_of_statement hw hn hstatement list body
  | false => rwa [hs.returnsIn_eq_zero hg hbinding, Nat.zero_add]

/-- A statement that only computes has no return. -/
theorem counts_of_values {id : NodeId} {shape : Node} (hn : w.arena.get? id = some shape)
    (hstatement : shape.isStatement = true) (hvalues : shape.valueParts = shape.children)
    (hreturn : ∀ value, shape ≠ .returnValue value) {x : Render Unit} (h : w.Computes x) :
    x.Counts isReturnLine (w.arena.returnsIn id) := by
  rw [hs.returnsIn_of_values hg hn (Arena.isFunction_of_isStatement hn hstatement) hvalues,
    Arena.isReturn_of_ne hn hreturn]
  exact hw.not_returns h

variable (hd : w.dialect = .resolver config)
  (hstatement : ∀ id, (w.statement id none).Counts isReturnLine (w.arena.returnsIn id))

section

include hd

theorem counts_returnTo {id : NodeId} {value : Option NodeId}
    (hn : w.arena.get? id = some (.returnValue value)) :
    (w.returnTo value none).Counts isReturnLine (w.arena.returnsIn id) := by
  rw [hs.returnsIn_of_values hg hn (by simp [Arena.isFunction, hn]) rfl]
  simp only [Arena.isReturn, hn, if_true]
  exact counts_returned hw hd value

end

include hstatement

theorem counts_branch {id test yes : NodeId} {no : Option NodeId}
    (hn : w.arena.get? id = some (.branch test yes no)) :
    (w.branch test yes no none).Counts isReturnLine (w.arena.returnsIn id) := by
  have htest : w.arena.returnsIn test = 0 := hs.returnsIn_part hg hn (List.mem_singleton_self _)
  have hsides : w.arena.returnsIn id =
      w.arena.returnsIn yes + (no.toList.map w.arena.returnsIn).sum := by
    rw [hg.returnsIn_eq hn (by simp [Arena.isFunction, hn])]
    simp [Arena.isReturn, hn, Node.children, htest]
  rw [hsides]
  apply Render.Counts.before (hw.expression test)
  intro condition _
  cases no with
  | none => exact .guarded ComputingLine.not_isReturnLine condition (hstatement yes)
  | some no =>
    have hchoice := Render.Counts.choice ComputingLine.not_isReturnLine condition
      (hstatement yes) (hstatement no)
    simpa using hchoice

theorem counts_loopStatement {id binding iterable body : NodeId} {shape : Node}
    (hn : w.arena.get? id = some shape) (hstatementShape : shape.isStatement = true)
    (hreturn : ∀ value, shape ≠ .returnValue value)
    (hparts : shape.children = [binding, iterable, body]) (hvalues : shape.valueParts = [iterable])
    (kind : String) (view : String → String) :
    (w.loopStatement kind view binding iterable body none).Counts isReturnLine
      (w.arena.returnsIn id) := by
  have hiterable : w.arena.returnsIn iterable = 0 :=
    hs.returnsIn_part hg hn (by rw [hvalues]; exact List.mem_singleton_self _)
  have hcount : w.arena.returnsIn id = w.arena.returnsIn binding + w.arena.returnsIn body := by
    rw [hg.returnsIn_eq hn (Arena.isFunction_of_isStatement hn hstatementShape), hparts,
      Arena.isReturn_of_ne hn hreturn]
    simp [hiterable]
  rw [hcount]
  apply Render.Counts.before (hw.not_returns (.requireLoops kind))
  intro _ _
  apply Render.Counts.before (hw.expression iterable)
  intro list _
  exact counts_loopBinding hw hg hs binding (view list) (hstatement body)

include hd

/-- A statement that is rendered without a slot writes one line for each return that belongs to
the closure. -/
theorem counts_renderStatement (id : NodeId) :
    (w.renderStatement id none).Counts isReturnLine (w.arena.returnsIn id) := by
  unfold renderStatement
  rcases hn : w.arena.get? id with _ | shape
  · rw [node_of_dangling hn]
    exact .bind (m := 0) (.fault _) fun _ h => absurd h Render.not_yields_fault
  rw [node_eq_pure hn, pure_bind]
  cases shape with
  | block statements =>
    have hcount : w.arena.returnsIn id = (statements.map w.arena.returnsIn).sum := by
      rw [hg.returnsIn_eq hn (by simp [Arena.isFunction, hn])]
      simp [Arena.isReturn, hn, Node.children]
    rw [hcount]
    exact .forM fun statement _ => hstatement statement
  | exprStatement expr =>
    exact counts_of_values hw hg hs hn rfl rfl (by simp) (.expressionStatement expr)
  | declaration kind name value =>
    exact counts_of_values hw hg hs hn rfl rfl (by simp) (.declare name value)
  | branch test yes no => exact counts_branch hw hg hs hstatement hn
  | forOf binding iterable body =>
    exact counts_loopStatement hw hg hs hstatement hn rfl (by simp) rfl rfl _ _
  | forIn binding iterable body =>
    exact counts_loopStatement hw hg hs hstatement hn rfl (by simp) rfl rfl _ _
  | returnValue value => exact counts_returnTo hw hg hs hd hn
  | breakLoop =>
    exact counts_of_values hw hg hs hn rfl rfl (by simp)
      (.bind (.requireLoops _) fun _ => .emit .leave)
  | _ => exact .fault _

section

omit hstatement

/-- A statement is not rendered where a value is returned. -/
theorem counts_returned_value
    (hrefused : ∀ id, w.arena.isStatement id = true → ∀ text, ¬ (w.expression id).Yields text)
    (id : NodeId) :
    (w.returned (some id)).Counts isReturnLine
      (w.arena.returnsIn id + if w.arena.isStatement id then 0 else 1) := by
  cases hid : w.arena.isStatement id with
  | false =>
    rw [hs.returnsIn_eq_zero hg hid, Nat.zero_add]
    exact counts_returned hw hd (some id)
  | true =>
    unfold returned
    rw [hd]
    exact (hw.expression id).before fun text htext => absurd htext (hrefused id hid text)

end

/-- The body of a function is a block or a value. -/
theorem counts_functionBody
    (hrefused : ∀ id, w.arena.isStatement id = true → ∀ text, ¬ (w.expression id).Yields text)
    {body : NodeId} {shape : Node} (hn : w.arena.get? body = some shape) :
    (if isBlock shape then w.statement body none else w.returned (some body)).Counts isReturnLine
      (w.arena.returnsIn body + if w.arena.isStatement body then 0 else 1) := by
  cases hblock : isBlock shape with
  | true =>
    have hisStatement : w.arena.isStatement body = true := by
      rw [Arena.isStatement_eq hn]
      cases shape <;> first | rfl | cases hblock
    rw [hisStatement]
    exact hstatement body
  | false => exact counts_returned_value hw hg hs hd hrefused body

/-- A root that is no function is itself what is rendered. -/
theorem counts_plainRoot
    (hrefused : ∀ id, w.arena.isStatement id = true → ∀ text, ¬ (w.expression id).Yields text)
    {root : NodeId} {shape : Node} (hn : w.arena.get? root = some shape) :
    (if shape.isStatement then w.statement root none else w.returned (some root)).Counts
      isReturnLine (w.arena.returnsIn root + if w.arena.isStatement root then 0 else 1) := by
  rw [← Arena.isStatement_eq hn]
  cases hshape : w.arena.isStatement root with
  | true => exact hstatement root
  | false =>
    have hreturned := counts_returned_value hw hg hs hd hrefused root
    rwa [hshape] at hreturned

/-- A closure returns once for each of its own returns, and once more if it is an expression or
its body is one. -/
theorem counts_renderRoot
    (hrefused : ∀ id, w.arena.isStatement id = true → ∀ text, ¬ (w.expression id).Yields text)
    (root : NodeId) :
    (w.renderRoot root).Counts isReturnLine
      (w.arena.ownReturns root + if w.arena.returnsValue root then 1 else 0) := by
  have hvalue : ∀ id, (if w.arena.isStatement id then 0 else 1) =
      if (!w.arena.isStatement id) = true then 1 else 0 := by
    intro id
    cases w.arena.isStatement id <;> rfl
  unfold renderRoot
  rcases hn : w.arena.get? root with _ | shape
  · rw [node_of_dangling hn]
    exact .bind (m := 0) (.fault _) fun _ h => absurd h Render.not_yields_fault
  rw [node_eq_pure hn, pure_bind]
  cases hfunction : w.arena.isFunction root with
  | true =>
    obtain ⟨parameters, body, hnode⟩ := Arena.isFunction_iff.mp hfunction
    cases hn.symm.trans hnode
    rw [hs.ownReturns_of_function hg hn, Arena.returnsValue_of_function hn, ← hvalue]
    apply Render.Counts.before (hw.not_returns (.forM .checkRootParameter))
    intro _ _
    rcases hbody : w.arena.get? body with _ | inner
    · rw [node_of_dangling hbody]
      exact .bind (m := 0) (.fault _) fun _ h => absurd h Render.not_yields_fault
    rw [node_eq_pure hbody, pure_bind]
    exact counts_functionBody hw hg hs hd hstatement hrefused hbody
  | false =>
    have hroot := counts_plainRoot hw hg hs hd hstatement hrefused hn
    rw [← Arena.returnsIn_of_not_function hfunction,
      Arena.returnsValue_of_not_function hfunction, ← hvalue]
    cases shape with
    | function parameters body =>
      rw [Arena.isFunction_iff.mpr ⟨parameters, body, hn⟩] at hfunction
      cases hfunction
    | _ => exact hroot

end

end Walker

/-! ### Templates -/

namespace Program

variable {p : Program} {config : ResolverConfig}

/-- No statement is rendered as an expression. -/
theorem not_yields_expression_of_isStatement {dialect : Dialect} {id : NodeId}
    (h : p.arena.isStatement id = true) (n : Nat) (text : String) :
    ¬ ((p.walkerWithin dialect n).expression id).Yields text := by
  obtain ⟨shape, hn, hshape⟩ := Arena.exists_of_isStatement h
  cases n with
  | zero => exact Render.not_yields_fault
  | succ n =>
    show ¬ ((p.walkerWithin dialect n).renderExpression id).Yields text
    unfold Walker.renderExpression
    rw [node_of_get? hn, pure_bind]
    cases shape <;> first | exact Render.not_yields_fault | cases hshape

/-- At every level a statement without a slot returns once for each return that belongs to the
closure. -/
theorem counts_statement (hp : p.BottomUp) (hs : p.arena.StatementsInPlace)
    (hhandlers : p.HandlersMiss (.resolver config) isReturnLine) (n : Nat) (id : NodeId) :
    ((p.walkerWithin (.resolver config) n).statement id none).Counts isReturnLine
      (p.arena.returnsIn id) := by
  induction n generalizing id with
  | zero => exact .fault _
  | succ n ih =>
    have hmiss : (p.walkerWithin (.resolver config) n).Misses isReturnLine :=
      misses_walkerWithin ComputingLine.not_isReturnLine hhandlers n
    have harena := p.arena_walkerWithin (.resolver config) n
    rw [← harena] at ih hs ⊢
    exact Walker.counts_renderStatement hmiss (harena ▸ hp.grown) hs (p.dialect_walkerWithin _ n)
      ih id

/-- So does a whole closure, and once more if its value is returned without a return. -/
theorem counts_renderRoot (hp : p.BottomUp) (hs : p.arena.StatementsInPlace)
    (hhandlers : p.HandlersMiss (.resolver config) isReturnLine) (root : NodeId) :
    ((p.walker (.resolver config)).renderRoot root).Counts isReturnLine
      (p.arena.ownReturns root + if p.arena.returnsValue root then 1 else 0) := by
  have hmiss : (p.walker (.resolver config)).Misses isReturnLine :=
    misses_walkerWithin ComputingLine.not_isReturnLine hhandlers p.depth
  have hstatement := counts_statement hp hs hhandlers p.depth
  have hrefused : ∀ id, p.arena.isStatement id = true → ∀ text,
      ¬ ((p.walker (.resolver config)).expression id).Yields text :=
    fun _ h => not_yields_expression_of_isStatement h p.depth
  have harena : (p.walker (.resolver config)).arena = p.arena := p.arena_walkerWithin _ _
  have hg := hp.grown
  rw [← harena] at hs hg hstatement hrefused ⊢
  exact Walker.counts_renderRoot hmiss hg hs (p.dialect_walkerWithin _ _) hstatement hrefused root

/-- A resolver template returns as often as the closure itself does.  If statements are in their
places and no handler writes a line that starts with `#return`, the number of these lines is the
number of returns of the closure with no further function around them, and one more for a
closure that is an expression or has one as its body.  No such line is written for expressions
and patterns, nor for any statement in the body of a callback, however deep a return is in it. -/
theorem countP_isReturnLine_of_compileResolver (hp : p.BottomUp) (hs : p.arena.StatementsInPlace)
    (hhandlers : p.HandlersMiss (.resolver config) isReturnLine) {root : NodeId}
    {template : ResolverTemplate} (h : p.compileResolver root config = .ok template) :
    (∃ out, p.render (.resolver config) root = .ok out ∧ template.template = out.text ∧
      out.lines.toList.countP isReturnLine =
        p.arena.ownReturns root + if p.arena.returnsValue root then 1 else 0) ∧
      (p.walker (.resolver config)).Misses isReturnLine := by
  refine ⟨?_, misses_walkerWithin ComputingLine.not_isReturnLine hhandlers p.depth⟩
  unfold compileResolver at h
  rcases hrender : p.render (.resolver config) root with fault | out
  · rw [hrender] at h
    cases h
  · rw [hrender] at h
    cases h
    obtain ⟨lines, hlines, hcount⟩ :=
      counts_renderRoot hp hs hhandlers root {} () out (render_eq_ok_iff_runOn.mp hrender)
    exact ⟨out, rfl, rfl, by rw [hlines, List.nil_append, hcount]⟩

/-- The closure `input => { if (input.ok) { return get(input.items.map(x => { return x; })); }
return 1; }`, where `get` is an integration. -/
def guardedReturn : Program :=
  (Builder.of [.ofStyle "table.get" .invoke]
    [.identifier "x", .parameter ⟨0⟩ none, .identifier "x", .returnValue (some ⟨2⟩), .block [⟨3⟩],
      .function [⟨1⟩] ⟨4⟩, .identifier "input", .member ⟨6⟩ "items", .member ⟨7⟩ "map",
      .argument ⟨5⟩ none, .call ⟨8⟩ [⟨9⟩], .reference "get" (some ⟨0⟩), .argument ⟨10⟩ none,
      .call ⟨11⟩ [⟨12⟩], .returnValue (some ⟨13⟩), .block [⟨14⟩], .identifier "input",
      .member ⟨16⟩ "ok", .branch ⟨17⟩ ⟨15⟩ none, .boolean true, .returnValue (some ⟨19⟩),
      .block [⟨18⟩, ⟨20⟩], .identifier "input", .parameter ⟨22⟩ none,
      .function [⟨23⟩] ⟨21⟩]).program

/-- Of three returns two belong to the closure. -/
theorem countP_isReturnLine_guardedReturn :
    ∃ out, guardedReturn.render (.resolver {}) ⟨24⟩ = .ok out ∧
      out.lines.toList.countP isReturnLine = 2 ∧
      guardedReturn.arena.handles.countP guardedReturn.arena.isReturn = 3 := by
  have hbottom : guardedReturn.BottomUp := Builder.bottomUp_of (by decide) (by cbv)
  have hplaces : guardedReturn.arena.StatementsInPlace := by decide +kernel
  have htable : guardedReturn.integrations = #[.ofStyle "table.get" .invoke] := by cbv
  have hhandlers : guardedReturn.HandlersMiss (.resolver {}) isReturnLine := by
    refine handlersMiss_of_computes ComputingLine.not_isReturnLine ?_
    rw [htable]
    intro integration hm
    rw [List.mem_singleton.mp (List.mem_toArray.mp hm)]
    exact Integration.computes_ofStyle _ _
  have hcompiles : (guardedReturn.compileResolver ⟨24⟩ {}).toOption.isSome = true := by
    decide +kernel
  have hcount : guardedReturn.arena.ownReturns ⟨24⟩ +
      (if guardedReturn.arena.returnsValue ⟨24⟩ then 1 else 0) = 2 := by decide +kernel
  rcases h : guardedReturn.compileResolver ⟨24⟩ {} with fault | template
  · rw [h] at hcompiles
    cases hcompiles
  · obtain ⟨⟨out, hrender, -, hlines⟩, -⟩ :=
      countP_isReturnLine_of_compileResolver hbottom hplaces hhandlers h
    exact ⟨out, hrender, hlines.trans hcount, by decide +kernel⟩

end Program

end ClosureVtl
