/-
Module: ClosureVtl.Proofs.Render.Inlining
Purpose: Closures that call integrations by local names compile like those that call them
  directly, or fail where the name is given.
Main exports:
  Output.Widens, Render.Widening, InStep.widening, AlikeAlong.walkers_alongside,
  Arena.capturedName?, Walker.widens_over, aliases_inlined
-/
import ClosureVtl.Proofs.Closure.InlinedNames
import ClosureVtl.Proofs.Render.Levels
import ClosureVtl.Proofs.Render.Termination

namespace ClosureVtl

/-!
A closure and the same one without its aliases are rendered side by side.  The declaration of
an alias is rendered like any other: it writes one line, and what has no line of its own on
the other side is skipped by it.  Everywhere else the rules take the same steps, so the
templates differ by such lines only, and the integrations are called in the same order.

There is one way for the two to part.  The value of a declaration is rendered as an expression,
and a reference has an address only if its name is reserved.  So a declaration that gives a
local name to an integration with a plain name ends the rendering, although a call by that
name would be recognized.
-/

/-! ### Templates with more lines -/

/-- Whether a template in the making has the lines of another one, with lines of its own in
between, and calls the same integrations. -/
structure Output.Widens (out out' : Output) : Prop where
  lines : out'.lines.toList.Sublist out.lines.toList
  temps : out.temps = out'.temps
  integrations : out.integrations = out'.integrations

/-- Nothing has to be added for an output to be wider than itself. -/
theorem Output.Widens.refl (out : Output) : out.Widens out := ⟨.refl _, rfl, rfl⟩

namespace Render

variable {own : Fault → Prop} {α β γ δ : Type} {Q : α → β → Prop} {R : γ → δ → Prop}

/-- Whether a step does what another one does and may write lines besides, unless it fails for
a reason of its own. -/
structure Widening (own : Fault → Prop) (R : α → β → Prop) (x : Render α) (x' : Render β) :
    Prop where
  run : ∀ {out out' : Output}, out.Widens out' →
    (∃ f final, own f ∧ x.runOn out = (.error f, final)) ∨
      SameResult R (x.runOn out).1 (x'.runOn out').1 ∧ (x.runOn out).2.Widens (x'.runOn out').2

namespace Widening

/-- Both sides fail alike. -/
theorem fault (f : Fault) : Widening own Q (Render.fault f) (Render.fault f) :=
  ⟨fun hout => .inr ⟨.error f, hout⟩⟩

theorem pure {value : α} {value' : β} (h : Q value value') :
    Widening own Q (pure value) (pure value') :=
  ⟨fun hout => .inr ⟨.ok h, hout⟩⟩

/-- What is added by the first part stays there. -/
theorem bind {x : Render α} {x' : Render β} {f : α → Render γ} {f' : β → Render δ}
    (first : Widening own Q x x')
    (next : ∀ value value', Q value value' → Widening own R (f value) (f' value')) :
    Widening own R (x >>= f) (x' >>= f') := by
  constructor
  intro out out' hout
  rw [runOn_bind, runOn_bind]
  rcases first.run hout with ⟨fault, final, hown, hrun⟩ | ⟨hresult, hmiddle⟩
  · exact .inl ⟨fault, final, hown, by rw [hrun]⟩
  · revert hresult hmiddle
    generalize x.runOn out = run
    generalize x'.runOn out' = run'
    obtain ⟨result, middle⟩ := run
    obtain ⟨result', middle'⟩ := run'
    rintro (hvalue | f) hmiddle
    · exact (next _ _ hvalue).run hmiddle
    · exact .inr ⟨.error f, hmiddle⟩

end Widening

/-- Whether a step writes a line and nothing else, or fails for a given reason. -/
def WritesLine (own : Fault → Prop) (x : Render Unit) : Prop :=
  ∀ out, (∃ f final, own f ∧ x.runOn out = (.error f, final)) ∨
    ∃ line, x.runOn out = (.ok (), { out with lines := out.lines.push line })

/-- A line more changes nothing. -/
theorem WritesLine.before {x : Render Unit} {y : Render γ} {y' : Render δ}
    (hx : x.WritesLine own) (hy : Widening own R y y') :
    Widening own R (x >>= fun _ => y) y' := by
  constructor
  intro out out' hout
  rw [runOn_bind]
  rcases hx out with ⟨f, final, hown, hrun⟩ | ⟨line, hrun⟩
  · exact .inl ⟨f, final, hown, by rw [hrun]⟩
  · rw [hrun]
    refine hy.run ⟨?_, hout.temps, hout.integrations⟩
    rw [Array.toList_push]
    exact hout.lines.trans (List.sublist_append_left _ _)

/-- Statements that write a line may be left out. -/
theorem Widening.forM_filter {items : List α} (drop : α → Bool) {f f' : α → Render Unit}
    (hdrop : ∀ item ∈ items, drop item = true → (f item).WritesLine own)
    (hkeep : ∀ item ∈ items, drop item = false → Widening own Eq (f item) (f' item)) :
    Widening own Eq (items.forM f) ((items.filter fun item => !drop item).forM f') := by
  induction items with
  | nil => exact .pure rfl
  | cons item rest ih =>
    have hrest := ih (fun other hm => hdrop other (List.mem_cons_of_mem _ hm))
      fun other hm => hkeep other (List.mem_cons_of_mem _ hm)
    show Widening own Eq (f item >>= fun _ => rest.forM f) _
    cases hitem : drop item with
    | true =>
      rw [List.filter_cons_of_neg (by simp [hitem])]
      exact (hdrop item List.mem_cons_self hitem).before hrest
    | false =>
      rw [List.filter_cons_of_pos (by simp [hitem])]
      exact .bind (hkeep item List.mem_cons_self hitem) fun _ _ _ => hrest

end Render

/-- Whether a walker does what another one does wherever both may be called, and may write
lines besides, unless it fails for a reason of its own. -/
structure Walker.Widens (own : Fault → Prop) (w w' : Walker) (c : Correspondence) : Prop where
  expression : ∀ {id id' : NodeId}, c.calls .expression id id' →
    Render.Widening own Eq (w.expression id) (w'.expression id')
  statement : ∀ {id id' : NodeId}, c.calls .statement id id' → ∀ slot : Option String,
    Render.Widening own Eq (w.statement id slot) (w'.statement id' slot)
  expand : ∀ {pattern pattern' : NodeId}, c.calls .expand pattern pattern' → ∀ target : String,
    Render.Widening own Eq (w.expand pattern target) (w'.expand pattern' target)
  fragment : ∀ {id id' : NodeId}, c.calls .fragment id id' →
    Render.Widening own Eq (w.fragment id) (w'.fragment id')
  integrate : ∀ {id id' : IntegrationId}, c.integration id id' → ∀ {call call' : NodeId},
    c.calls .integrate call call' →
      Render.Widening own Eq (w.integrate id call) (w'.integrate id' call')

/-- Runs that go through the same steps widen each other if the walkers do. -/
theorem Walker.InStep.widening {own : Fault → Prop} {w w' : Walker} {c : Correspondence}
    (hw : w.Widens own w' c) {α β : Type} {R : α → β → Prop} {x : Render α} {x' : Render β}
    (h : InStep w w' c R x x') : Render.Widening own R x x' := by
  induction h with
  | pure hvalue => exact .pure hvalue
  | fault f => exact .fault f
  | bind _ _ ihFirst ihNext => exact .bind ihFirst ihNext
  | emit line =>
    refine ⟨fun hout => .inr ⟨.ok rfl, ?_, hout.temps, hout.integrations⟩⟩
    simp only [Render.runOn_emit, Array.toList_push]
    exact hout.lines.append (.refl _)
  | freshTemp =>
    exact ⟨fun hout => .inr ⟨.ok (congrArg (fun temps => Render.tempName (temps + 1)) hout.temps),
      hout.lines, congrArg (· + 1) hout.temps, hout.integrations⟩⟩
  | expression h => exact hw.expression h
  | statement h slot => exact hw.statement h slot
  | expand h target => exact hw.expand h target
  | fragment h => exact hw.fragment h
  | integrate hi h => exact hw.integrate hi h

/-! ### Walkers along known nodes -/

namespace Arena.AlikeAlong

variable {w w' : Walker} {known : NodeId → Prop} {id : NodeId}

/-- Walkers of arenas that look alike along known nodes are alongside each other. -/
theorem walkers_alongside (h : w.arena.AlikeAlong w'.arena known)
    (hdialect : w.dialect = w'.dialect) (n : Nat) :
    w.Alongside w' (.along w.arena w'.arena known n) where
  toAlongside := h.alongside n
  dialect := congrArg Dialect.unlimited hdialect
  dangling := by
    rintro id _ ⟨rfl, -⟩ -
    rfl
  addressed := by
    rintro id _ name name' ⟨rfl, hid, -⟩ hname hname'
    obtain ⟨node, hn, haddressed⟩ := Option.bind_eq_some_iff.mp hname
    have hblock : ∀ statements, w.arena.get? id ≠ some (.block statements) := by
      intro statements hblock
      cases Option.some.inj (hn.symm.trans hblock)
      cases haddressed
    rcases hid with hid | ⟨text, htext, -⟩
    · rw [← h.get? hid hblock, hname] at hname'
      cases hname'
      refine h.classify (h.followed hid hn ?_)
      cases node <;> cases haddressed <;> simp [Node.followed, Node.children]
    · cases Option.some.inj (hn.symm.trans htext)
      cases haddressed
  classify := by
    rintro id _ ⟨rfl, hid, -⟩
    obtain ⟨hinside, hknown⟩ := h.unwrapParens hid
    rw [← hinside, h.classify hknown]
  declared := by
    rintro id _ ⟨rfl, hid, -⟩
    obtain ⟨hinside, hknown⟩ := h.unwrapParens hid
    rw [← hinside, h.lookup hknown]
  calledIntegration := by
    rintro expr _ ⟨rfl, hid, -⟩
    rw [h.calledIntegration hid]
  fusedChain := by
    rintro expr _ ⟨rfl, hid⟩ readsList
    exact h.fusedChain ⟨rfl, hid⟩ readsList
  expression := by
    rintro id _ ⟨rfl, hid, hle⟩
    exact ⟨rfl, hid, by omega, by simp only [EntryPoint.levels]; omega⟩
  fragment := by
    rintro id _ ⟨rfl, hid, hle⟩
    exact ⟨rfl, hid, by omega, hle⟩
  statement := by
    rintro id _ ⟨rfl, hid, hle⟩
    exact ⟨rfl, hid, by omega, by simp only [EntryPoint.levels]; omega⟩
  expand := by
    rintro id _ ⟨rfl, hid, hle⟩
    exact ⟨rfl, hid, by omega, by simp only [EntryPoint.levels]; omega⟩

/-- They see the same of a known node, if it is consumed on both sides or on neither. -/
theorem faces (h : w.arena.AlikeAlong w'.arena known) (hid : known id)
    (hconsumed : Walker.isConsumed w.arena id = Walker.isConsumed w'.arena id) {n : Nat}
    (hle : 3 * w.arena.age id ≤ n + 1) : w.Faces w' (.along w.arena w'.arena known n) id id where
  meets := h.meets hid hle
  dangling _ := rfl
  classify := h.classify hid
  calledIntegration := by rw [h.calledIntegration hid]
  consumed := .inl hconsumed
  jsonPath := h.jsonPath hid
  composite := h.isComposite hid

end Arena.AlikeAlong

/-! ### Declarations of aliases -/

namespace Arena

variable {a : Arena} {aliases : List NodeId} {id declaration : NodeId} {name : String}

/-- The name of the reference that a declaration gives a local name to, unless it is reserved. -/
def capturedName? (a : Arena) (declaration : NodeId) : Option String :=
  match (a.initial? declaration).bind a.get? with
  | some (.reference name _) => if isReservedName name then none else some name
  | _ => none

/-- Whether a fault is that of a declaration which gives a local name to a plain one. -/
def Captures (a : Arena) (dialect : Dialect) (aliases : List NodeId) (f : Fault) : Prop :=
  ∃ declaration ∈ aliases, ∃ name, a.capturedName? declaration = some name ∧
    f = .unsupported (.captured name dialect.subject)

/-- A free name has an address only if the runtime reserves it. -/
theorem addressIn_reference {integration : Option IntegrationId}
    (hn : a.get? id = some (.reference name integration)) (dialect : Dialect) :
    a.addressIn dialect id = if isReservedName name then .ok name
      else .error (.unsupported (.captured name dialect.subject)) := by
  unfold addressIn classify
  rw [node_eq_ok_iff.mpr hn]
  cases hreserved : isReservedName name <;> simp [hreserved, Dialect.addressOf]

/-- A name that is declared with a value has an address. -/
theorem exists_addressIn_of_declared (hn : a.get? id = some (.identifier name)) {kind : DeclKind}
    {target : NodeId} {value : Option NodeId} (hl : a.lookup id = some declaration)
    (hd : a.get? declaration = some (.declaration kind target value)) (dialect : Dialect) :
    ∃ address, a.addressIn dialect id = .ok address := by
  have hindex : a.rootParameterIndex declaration = none := by
    unfold rootParameterIndex
    rw [hd]
  unfold addressIn classify
  rw [node_eq_ok_iff.mpr hn, hl]
  simp only [classifyDeclared, Option.bind_some, hindex]
  cases isReservedName name with
  | true => exact ⟨_, rfl⟩
  | false =>
    cases a.isTopLevelDeclaration declaration with
    | true => cases dialect <;> exact ⟨_, rfl⟩
    | false => exact ⟨_, rfl⟩

/-- The name of an alias and the value of one have addresses, unless the value is a reference
with a plain name. -/
theorem IsAlias.addresses (h : a.IsAlias declaration) (ha : a.Grown) (dialect : Dialect) :
    ∃ kind name value text, a.get? declaration = some (.declaration kind name (some value)) ∧
      a.get? name = some (.identifier text) ∧ (∃ target, a.addressIn dialect name = .ok target) ∧
      (∃ node, a.get? (a.unwrapParens value) = some node ∧
        ((∃ used, node = .identifier used) ∨
          ∃ used integration, node = .reference used integration)) ∧
      ((a.capturedName? declaration = none ∧
          ∃ address, a.addressIn dialect (a.unwrapParens value) = .ok address) ∨
        ∃ captured, a.capturedName? declaration = some captured ∧
          a.addressIn dialect (a.unwrapParens value) =
            .error (.unsupported (.captured captured dialect.subject))) := by
  obtain ⟨kind, name, value, text, hn, hname, hvalue⟩ := h.initial
  have hparent := ha.adopted ⟨_, hn, List.mem_cons_self⟩ (lt_size_of_get? hname)
  have hlookup : a.lookup name = some declaration :=
    Grown.lookup_of_binds ⟨hname, by rw [hn]; rfl, hparent⟩
  refine ⟨kind, name, value, text, hn, hname,
    exists_addressIn_of_declared hname hlookup hn dialect, ?_⟩
  rcases hvalue with ⟨used, integration, hreference⟩ | ⟨used, _, _, _, hused, hl⟩
  · refine ⟨⟨_, hreference, .inr ⟨used, _, rfl⟩⟩, ?_⟩
    rw [addressIn_reference hreference]
    cases hreserved : isReservedName used with
    | true =>
      refine .inl ⟨?_, used, rfl⟩
      simp [capturedName?, initial?, hn, hreference, hreserved]
    | false =>
      refine .inr ⟨used, ?_, rfl⟩
      simp [capturedName?, initial?, hn, hreference, hreserved]
  · obtain ⟨other, hother, hdeclared⟩ := Option.bind_eq_some_iff.mp hl
    refine ⟨⟨_, hused, .inl ⟨used, rfl⟩⟩,
      .inl ⟨?_, exists_addressIn_of_declared hused hother hdeclared dialect⟩⟩
    simp [capturedName?, initial?, hn, hused]

end Arena

namespace Walker

variable {base w w' : Walker} {table : Array Integration} {aliases : List NodeId}
  {id declaration : NodeId} {n : Nat} {own : Fault → Prop}

/-- A name or a reference, in parentheses or not, is rendered to its address if there are
levels enough. -/
theorem expression_over_of_name (table : Array Integration) (ha : base.arena.Grown)
    (hname : ∃ node, base.arena.get? (base.arena.unwrapParens id) = some node ∧
      ((∃ used, node = .identifier used) ∨ ∃ used integration, node = .reference used integration))
    (hle : 3 * base.arena.age id + 1 ≤ n) :
    (base.over table n).expression id =
      Render.ofExcept (base.arena.addressIn base.dialect (base.arena.unwrapParens id)) := by
  induction id using ha.induction_through_parens generalizing n with
  | plain id hplain =>
    obtain ⟨m, rfl⟩ := Nat.exists_eq_add_of_le' hle
    obtain ⟨node, hn, hnode⟩ := hname
    rw [Arena.unwrapParens_of_not_paren hplain] at hn ⊢
    rw [← Nat.add_assoc, over_succ]
    show renderExpression _ id = _
    unfold renderExpression
    rw [node_eq_pure (by rw [arena_over, hn]), pure_bind]
    have haddress : (base.over table (m + 3 * base.arena.age id)).address id =
        Render.ofExcept (base.arena.addressIn base.dialect id) := by
      unfold address
      rw [arena_over, dialect_over]
    rcases hnode with ⟨used, rfl⟩ | ⟨used, integration, rfl⟩
    · exact haddress
    · exact haddress
  | paren id expr hn ih =>
    have hage := ha.age_lt ⟨_, hn, List.mem_singleton.mpr rfl⟩
    obtain ⟨m, rfl⟩ := Nat.exists_eq_add_of_le' hle
    rw [ha.unwrapParens_of_paren hn] at hname ⊢
    rw [← Nat.add_assoc, over_succ]
    show renderExpression _ id = _
    rw [renderExpression_paren (by rw [arena_over, hn])]
    exact ih hname (by omega)

/-- The declaration of an alias is written if there are levels enough, unless its value has no
address. -/
theorem runOn_alias (table : Array Integration) (ha : base.arena.Grown)
    (hisAlias : base.arena.IsAlias declaration) (hle : 3 * base.arena.age declaration ≤ n)
    (slot : Option String) (out : Output) :
    (base.arena.capturedName? declaration = none ∧ ∃ line,
      ((base.over table n).statement declaration slot).runOn out =
        (.ok (), { out with lines := out.lines.push line })) ∨
    ∃ captured, base.arena.capturedName? declaration = some captured ∧
      ((base.over table n).statement declaration slot).runOn out =
        (.error (.unsupported (.captured captured base.dialect.subject)), out) := by
  obtain ⟨kind, name, value, text, hn, hname, ⟨target, htarget⟩, hvalue, haddress⟩ :=
    hisAlias.addresses ha base.dialect
  have hage : base.arena.age value < base.arena.age declaration :=
    ha.age_lt ⟨_, hn, by simp [Node.children]⟩
  obtain ⟨m, rfl⟩ : ∃ m, n = m + 1 := Nat.exists_eq_add_of_le' (by omega)
  have hexpression := expression_over_of_name table ha hvalue (n := m) (by omega)
  -- declaring an alias comes down to two addresses and a line
  have hrule : (base.over table (m + 1)).statement declaration slot = (do
      let target ← Render.ofExcept (base.arena.addressIn base.dialect name)
      let value ← Render.ofExcept
        (base.arena.addressIn base.dialect (base.arena.unwrapParens value))
      Render.assign target value) := by
    rw [over_succ]
    show renderStatement _ declaration slot = _
    unfold renderStatement
    rw [node_eq_pure (by rw [arena_over, hn]), pure_bind]
    show declare _ name (some value) = _
    unfold declare
    rw [node_eq_pure (by rw [arena_over, hname]), pure_bind]
    simp only [assignNode, hexpression, address, arena_over, dialect_over]
  rw [hrule, htarget]
  rcases haddress with ⟨hnone, address, haddress⟩ | ⟨captured, hcaptured, haddress⟩
  · rw [haddress]
    exact .inl ⟨hnone, _, rfl⟩
  · rw [haddress]
    exact .inr ⟨captured, hcaptured, rfl⟩

/-- Declaring an alias writes one line, or fails as its value is captured. -/
theorem writesLine_alias (ha : base.arena.Grown) (hd : declaration ∈ aliases)
    (hisAlias : base.arena.IsAlias declaration) (hle : 3 * base.arena.age declaration ≤ n)
    (slot : Option String) :
    ((base.over table n).statement declaration slot).WritesLine
      (base.arena.Captures base.dialect aliases) := by
  intro out
  rcases runOn_alias table ha hisAlias hle slot out with
    ⟨-, line, hrun⟩ | ⟨captured, hcaptured, hrun⟩
  · exact .inr ⟨line, hrun⟩
  · exact .inl ⟨_, out, ⟨declaration, hd, captured, hcaptured, rfl⟩, hrun⟩

/-! ### One level above -/

section

variable (h : w.arena.OnlyCalled aliases) (ha : w.arena.Grown)
  (hinlined : w'.arena = w.arena.inlined aliases) (hdialect : w.dialect = w'.dialect)
  (hwidens : w.Widens own w' (.along w.arena w'.arena (w.arena.Kept aliases) n))

include h ha hinlined

/-- Inlining changes nothing in what is kept. -/
theorem alikeAlong_inlined : w.arena.AlikeAlong w'.arena (w.arena.Kept aliases) :=
  hinlined ▸ h.alikeAlong ha

/-- A kept node looks alike from both sides. -/
theorem faces_kept (hid : w.arena.Kept aliases id) (hle : 3 * w.arena.age id ≤ n + 1) :
    w.Faces w' (.along w.arena w'.arena (w.arena.Kept aliases) n) id id := by
  refine (alikeAlong_inlined h ha hinlined).faces hid ?_ hle
  rw [hinlined, h.isConsumed_inlined ha hid.outside]

include hwidens

/-- The statements of a block are rendered alike but for the aliases, which write lines. -/
theorem widening_block (hid : w.arena.Kept aliases id) (hle : 3 * w.arena.age id ≤ n + 1)
    {statements : List NodeId} (hn : w.arena.get? id = some (.block statements))
    (halias : ∀ declaration ∈ aliases, 3 * w.arena.age declaration ≤ n → ∀ slot,
      (w.statement declaration slot).WritesLine own) (slot : Option String) :
    Render.Widening own Eq (w.renderStatement id slot) (w'.renderStatement id slot) := by
  have hn' : w'.arena.get? id = some (.block (statements.filter (· ∉ aliases))) := by
    rw [hinlined, Arena.get?_inlined, hn]
    rfl
  have hage : ∀ {statement : NodeId}, statement ∈ statements →
      3 * w.arena.age statement + 2 ≤ n := by
    intro statement hm
    have hlt := ha.age_lt ⟨_, hn, hm⟩
    omega
  unfold renderStatement
  rw [node_eq_pure hn, node_eq_pure hn', pure_bind, pure_bind]
  have hdropped : ∀ statement ∈ statements, decide (statement ∈ aliases) = true →
      (w.statement statement slot).WritesLine own := by
    intro statement hm hd
    have hbound := hage hm
    exact halias statement (of_decide_eq_true hd) (by omega) slot
  have hkept : ∀ statement ∈ statements, decide (statement ∈ aliases) = false →
      Render.Widening own Eq (w.statement statement slot) (w'.statement statement slot) := by
    intro statement hm hd
    have hbound := hage hm
    refine hwidens.statement ⟨rfl, .inl ?_, by omega, ?_⟩ slot
    · exact h.kept_of_statement ha hid hn hm (of_decide_eq_false hd)
    · simp only [EntryPoint.levels]
      omega
  simpa using Render.Widening.forM_filter (fun statement => decide (statement ∈ aliases))
    hdropped hkept

include hdialect

/-- A kept expression is rendered alike, apart from the lines of aliases. -/
theorem widening_renderExpression (hid : w.arena.Kept aliases id)
    (hle : 3 * w.arena.age id ≤ n) :
    Render.Widening own Eq (w.renderExpression id) (w'.renderExpression id) := by
  have halong := alikeAlong_inlined h ha hinlined
  by_cases hnone : w.arena.get? id = none
  · have hsame := halong.get? hid (by simp [hnone])
    rw [renderExpression_dangling hnone, renderExpression_dangling (hsame.symm.trans hnone)]
    exact .fault _
  have hage := Arena.age_pos_of_get? hnone
  refine (inStep_renderExpression (halong.walkers_alongside hdialect n)
    (faces_kept h ha hinlined hid (by omega)) ⟨rfl, hid, by omega, ?_⟩).widening hwidens
  simp only [EntryPoint.levels]
  omega

/-- So is a kept value that is printed. -/
theorem widening_renderFragment (hid : w.arena.Kept aliases id)
    (hle : 3 * w.arena.age id + 1 ≤ n) :
    Render.Widening own Eq (w.renderFragment id) (w'.renderFragment id) := by
  have halong := alikeAlong_inlined h ha hinlined
  by_cases hnone : w.arena.get? id = none
  · have hsame := halong.get? hid (by simp [hnone])
    rw [renderFragment_dangling hnone,
      renderFragment_dangling (hsame.symm.trans hnone)]
    exact .fault _
  have hage := Arena.age_pos_of_get? hnone
  have hinside := ha.age_unwrapParens id
  obtain ⟨hsame, hkept⟩ := halong.unwrapParens hid
  refine (inStep_renderFragment (halong.walkers_alongside hdialect n) ?_ ?_).widening hwidens <;>
    rw [← hsame]
  · exact faces_kept h ha hinlined hkept (by omega)
  · refine ⟨rfl, hkept, by omega, ?_⟩
    simp only [EntryPoint.levels]
    omega

/-- A call reaches its handler on both sides, or is refused on both. -/
theorem widening_dispatch
    (htable : ∀ integration ∈ table, integration.AlikeAlongside integration)
    (integration : IntegrationId) {call : NodeId} (hcall : w.arena.Kept aliases call)
    (hle : 3 * w.arena.age call ≤ n + 1) :
    Render.Widening own Eq (w.dispatch table integration call)
      (w'.dispatch table integration call) := by
  rcases hi : table[integration.index]? with _ | found
  · rw [dispatch_unknown hi, dispatch_unknown hi]
    exact .fault _
  have halike := htable found (Array.mem_of_getElem? hi)
  have halongside := (alikeAlong_inlined h ha hinlined).walkers_alongside hdialect n
  constructor
  intro out out' hout
  rw [runOn_dispatch hi, runOn_dispatch hi, ← hdialect, ← hout.integrations]
  split
  · exact .inr ⟨.error _, hout⟩
  · have hhandler : InStep w w' (.along w.arena w'.arena (w.arena.Kept aliases) n) Eq
        (Render.ofExcept (CallSite.of w.arena call) >>= found.handler w.dialect w)
        (Render.ofExcept (CallSite.of w'.arena call) >>= found.handler w.dialect w') :=
      .bind (inStep_callSite halongside (faces_kept h ha hinlined hcall hle))
        fun _ _ hargs => halike.handler w.dialect halongside hargs
    exact (hhandler.widening hwidens).run ⟨hout.lines, hout.temps, rfl⟩

end

/-- Walkers widen each other on the nodes that their levels suffice for if they do one level
below. -/
theorem Widens.above (h : w.arena.OnlyCalled aliases) (ha : w.arena.Grown)
    (hinlined : w'.arena = w.arena.inlined aliases) (hdialect : w.dialect = w'.dialect)
    (htable : ∀ integration ∈ table, integration.AlikeAlongside integration)
    (halias : ∀ declaration ∈ aliases, 3 * w.arena.age declaration ≤ n → ∀ slot,
      (w.statement declaration slot).WritesLine own)
    (hwidens : w.Widens own w' (.along w.arena w'.arena (w.arena.Kept aliases) n)) :
    (w.above table).Widens own (w'.above table)
      (.along w.arena w'.arena (w.arena.Kept aliases) (n + 1)) := by
  have halongside := (alikeAlong_inlined h ha hinlined).walkers_alongside hdialect n
  constructor
  case expression =>
    rintro id _ ⟨rfl, hid, -, hle⟩
    exact widening_renderExpression h ha hinlined hdialect hwidens hid (Nat.le_of_succ_le_succ hle)
  case statement =>
    rintro id _ ⟨rfl, hid, -, hle⟩ slot
    by_cases hblock : ∃ statements, w.arena.get? id = some (.block statements)
    · obtain ⟨statements, hn⟩ := hblock
      rcases hid with hid | ⟨name, hname, -⟩
      · exact widening_block h ha hinlined hwidens hid hle hn halias slot
      · cases hn.symm.trans hname
    · exact (inStep_renderStatement halongside ⟨rfl, hid, hle⟩
        (fun statements _ hn => absurd ⟨statements, hn⟩ hblock) slot).widening hwidens
  case expand =>
    rintro id _ ⟨rfl, hid, -, hle⟩ target
    exact (inStep_expandPattern halongside ⟨rfl, hid, hle⟩ target).widening hwidens
  case fragment =>
    rintro id _ ⟨rfl, hid, -, hle⟩
    exact widening_renderFragment h ha hinlined hdialect hwidens hid (Nat.le_of_succ_le_succ hle)
  case integrate =>
    rintro integration _ rfl call _ ⟨rfl, hcall, -, hle⟩
    exact widening_dispatch h ha hinlined hdialect hwidens htable integration hcall hle

/-- So they do at every level. -/
theorem widens_over (base base' : Walker) (h : base.arena.OnlyCalled aliases)
    (ha : base.arena.Grown)
    (hinlined : base'.arena = base.arena.inlined aliases) (hdialect : base.dialect = base'.dialect)
    (htable : ∀ integration ∈ table, integration.AlikeAlongside integration) (n : Nat) :
    (base.over table n).Widens (base.arena.Captures base.dialect aliases) (base'.over table n)
      (.along base.arena base'.arena (base.arena.Kept aliases) n) := by
  induction n with
  | zero =>
    constructor
    case integrate =>
      rintro _ _ - _ _ ⟨-, -, hzero, -⟩
      omega
    all_goals
      rintro _ _ ⟨-, -, hzero, -⟩
      omega
  | succ n ih =>
    have harena := arena_over base table n
    have harena' := arena_over base' table n
    rw [over_succ, over_succ, ← harena, ← harena']
    refine Widens.above ?_ ?_ ?_ ?_ htable ?_ ?_
    · rw [harena]
      exact h
    · rw [harena]
      exact ha
    · rw [harena, harena', hinlined]
    · rw [dialect_over, dialect_over, hdialect]
    · intro declaration hd hle slot
      rw [harena] at hle ⊢
      exact writesLine_alias ha hd (h.isAlias hd) hle slot
    · rw [harena, harena']
      exact ih

end Walker

/-! ### Closures -/

/-- A loop fails if one of its items fails whatever the output is. -/
theorem Render.runOn_forM_eq_error {α : Type} {items : List α} {f : α → Render Unit} {item : α}
    (hm : item ∈ items) (hfails : ∀ out, ∃ fault final, (f item).runOn out = (.error fault, final))
    (out : Output) : ∃ fault final, (items.forM f).runOn out = (.error fault, final) := by
  induction items generalizing out with
  | nil => cases hm
  | cons first rest ih =>
    show ∃ fault final, (f first >>= fun _ => rest.forM f).runOn out = (.error fault, final)
    rw [runOn_bind]
    rcases hrun : (f first).runOn out with ⟨fault | value, middle⟩
    · exact ⟨fault, middle, rfl⟩
    · rcases List.mem_cons.mp hm with rfl | hm
      · obtain ⟨fault, final, hfault⟩ := hfails out
        cases hrun.symm.trans hfault
      · exact ih hm middle

namespace Program

variable {p : Program} {aliases : List NodeId} {root declaration : NodeId} {dialect : Dialect}

/-- Inlining keeps the table of integrations and the number of levels. -/
theorem walker_inlined (p : Program) (aliases : List NodeId) (dialect : Dialect) :
    (p.inlined aliases).walker dialect =
      (Walker.exhausted (p.arena.inlined aliases) dialect).over p.integrations p.depth := by
  have hdepth : (p.inlined aliases).depth = p.depth := by
    simp [depth, inlined]
  rw [walker, walkerWithin_eq_over, hdepth]
  rfl

/-- At the depth of a program, what is kept is rendered in the same steps. -/
theorem alongside_inlined (dialect : Dialect) (ha : p.arena.Grown)
    (honly : p.arena.OnlyCalled aliases) :
    (p.walker dialect).Alongside ((p.inlined aliases).walker dialect)
      (.along p.arena (p.arena.inlined aliases) (p.arena.Kept aliases) p.depth) := by
  have harena : (p.walker dialect).arena = p.arena := p.arena_walkerWithin dialect _
  have harena' : ((p.inlined aliases).walker dialect).arena = p.arena.inlined aliases :=
    (p.inlined aliases).arena_walkerWithin dialect _
  have hdialect : (p.walker dialect).dialect = ((p.inlined aliases).walker dialect).dialect :=
    (p.dialect_walkerWithin dialect _).trans
      ((p.inlined aliases).dialect_walkerWithin dialect _).symm
  have halong : (p.walker dialect).arena.AlikeAlong ((p.inlined aliases).walker dialect).arena
      (p.arena.Kept aliases) := by
    rw [harena, harena']
    exact honly.alikeAlong ha
  have hwalkers := halong.walkers_alongside hdialect p.depth
  rwa [harena, harena'] at hwalkers

/-- A closure is rendered like the one without its aliases, or fails where a plain name is
given a local one. -/
theorem render_inlined (dialect : Dialect) (hp : p.BottomUp)
    (htable : ∀ integration ∈ p.integrations, integration.AlikeAlongside integration)
    (honly : p.arena.OnlyCalled aliases)
    (hroot : p.arena.isFunction root = true ∨ p.arena.parent? root = none) :
    (∃ fault, p.arena.Captures dialect aliases fault ∧ p.render dialect root = .error fault) ∨
      Render.SameResult Output.Widens (p.render dialect root)
        ((p.inlined aliases).render dialect root) := by
  have ha := hp.grown
  have hkept := honly.kept_of_root ha hroot
  have hle := p.depth_suffices root
  have hwidens := Walker.widens_over (.exhausted p.arena dialect)
    (.exhausted (p.arena.inlined aliases) dialect) honly ha rfl rfl htable p.depth
  rw [← walker_inlined, ← p.walkerWithin_eq_over dialect p.depth] at hwidens
  have hrun := ((Walker.inStep_renderRoot (alongside_inlined dialect ha honly)
    ⟨rfl, .inl hkept, hle⟩ ⟨rfl, hkept, hle⟩).widening hwidens).run (Output.Widens.refl {})
  rcases hrun with ⟨fault, final, hcaptures, hrun⟩ | ⟨hresult, hwidens⟩
  · refine .inl ⟨fault, hcaptures, ?_⟩
    unfold render
    rw [hrun]
  · exact .inr (sameResult_of_runOn hresult hwidens)

/-- A closure with a plain name that is given a local one among the statements of its body is
not compiled. -/
theorem render_of_captured (hp : p.BottomUp) (hisAlias : p.arena.IsAlias declaration)
    {parameters statements : List NodeId} {body : NodeId} {captured : String}
    (hn : p.arena.get? root = some (.function parameters body))
    (hbody : p.arena.get? body = some (.block statements)) (hm : declaration ∈ statements)
    (hcaptured : p.arena.capturedName? declaration = some captured) :
    ∃ fault, p.render dialect root = .error fault := by
  have ha := hp.grown
  have hle := p.depth_suffices root
  have hbodyAge : p.arena.age body < p.arena.age root :=
    ha.age_lt ⟨_, hn, by simp [Node.children]⟩
  have hage : p.arena.age declaration < p.arena.age body := ha.age_lt ⟨_, hbody, hm⟩
  obtain ⟨n, hdepth⟩ : ∃ n, p.depth = n + 1 := Nat.exists_eq_add_of_le' (by omega)
  have harena : (p.walker dialect).arena = p.arena := p.arena_walkerWithin dialect _
  -- the block gets as far as the alias, if it does not fail before
  have hstatement : ∀ out, ∃ fault final,
      ((p.walker dialect).statement body none).runOn out = (.error fault, final) := by
    intro out
    rw [walker, hdepth]
    show ∃ fault final,
      ((p.walkerWithin dialect n).renderStatement body none).runOn out = (.error fault, final)
    unfold Walker.renderStatement
    rw [Walker.node_eq_pure (by rw [p.arena_walkerWithin, hbody]), pure_bind]
    refine Render.runOn_forM_eq_error hm (fun out => ?_) out
    rw [p.walkerWithin_eq_over]
    have hlevels : 3 * (Walker.exhausted p.arena dialect).arena.age declaration ≤ n := by
      show 3 * p.arena.age declaration ≤ n
      omega
    rcases Walker.runOn_alias p.integrations ha hisAlias hlevels none out with
      ⟨hnone, -⟩ | ⟨_, -, hrun⟩
    · cases hnone.symm.trans hcaptured
    · exact ⟨_, out, hrun⟩
  -- and the closure gets as far as its block
  have hroot : ∀ out, ∃ fault final,
      ((p.walker dialect).renderRoot root).runOn out = (.error fault, final) := by
    intro out
    unfold Walker.renderRoot
    rw [Walker.node_eq_pure (by rw [harena, hn]), pure_bind]
    simp only [Walker.node_eq_pure (w := p.walker dialect) (by rw [harena, hbody]), pure_bind]
    rw [Render.runOn_bind]
    rcases hrun : (parameters.forM (p.walker dialect).checkRootParameter).runOn out with
      ⟨fault | value, middle⟩
    · exact ⟨fault, middle, rfl⟩
    · exact hstatement middle
  obtain ⟨fault, final, hrun⟩ := hroot {}
  refine ⟨fault, ?_⟩
  unfold render
  rw [hrun]

end Program

/-! ### Closures with aliases -/

/-- A closure in which integrations are called by local names, through any chain of aliases,
against the closure that calls them directly and declares no aliases.  If the references that
are given local names are reserved ones, both compile or neither does, for every target, with
the same fault or with the same integrations in the same order; the templates differ by the
lines that declare the aliases.  In general there is one more way to end: a plain reference has
no address, so the declaration that gives it a local name is refused, although calls by that
name are recognized.  It is in any closure that declares such an alias in its body. -/
theorem aliases_inlined {p : Program} (hp : p.BottomUp)
    (htable : ∀ integration ∈ p.integrations, integration.AlikeAlongside integration)
    {aliases : List NodeId} (honly : p.arena.OnlyCalled aliases) {root : NodeId}
    (hroot : p.arena.isFunction root = true ∨ p.arena.parent? root = none) (dialect : Dialect) :
    ((∀ declaration ∈ aliases, p.arena.capturedName? declaration = none) →
      Render.SameResult Output.Widens (p.render dialect root)
        ((p.inlined aliases).render dialect root)) ∧
      ((∃ fault, p.arena.Captures dialect aliases fault ∧ p.render dialect root = .error fault) ∨
        Render.SameResult Output.Widens (p.render dialect root)
          ((p.inlined aliases).render dialect root)) ∧
      ∀ {parameters statements : List NodeId} {body declaration : NodeId} {captured : String},
        p.arena.get? root = some (.function parameters body) →
        p.arena.get? body = some (.block statements) → declaration ∈ statements →
        declaration ∈ aliases → p.arena.capturedName? declaration = some captured →
        ∃ fault, p.render dialect root = .error fault := by
  have hcases := Program.render_inlined dialect hp htable honly hroot
  refine ⟨fun hreserved => hcases.resolve_left ?_, hcases, ?_⟩
  · rintro ⟨fault, ⟨declaration, hd, name, hname, -⟩, -⟩
    cases (hreserved declaration hd).symm.trans hname
  · intro parameters statements body declaration captured hn hbody hm hd hcaptured
    exact Program.render_of_captured hp (honly.isAlias hd) hn hbody hm hcaptured

/-- The closure `input => { const f = (table); const g = f; return g(input); }`, where `table` is
an integration with a name that is given. -/
def Program.aliasedCall (table : String) : Program :=
  (Builder.of [.ofStyle "table.get" .inline]
    [.reference table (some ⟨0⟩), .paren ⟨0⟩, .identifier "f",
      .declaration .const ⟨2⟩ (some ⟨1⟩), .identifier "f", .identifier "g",
      .declaration .const ⟨5⟩ (some ⟨4⟩), .identifier "g", .identifier "input",
      .argument ⟨8⟩ none, .call ⟨7⟩ [⟨9⟩], .returnValue (some ⟨10⟩), .block [⟨3⟩, ⟨6⟩, ⟨11⟩],
      .identifier "input", .parameter ⟨13⟩ none, .function [⟨14⟩] ⟨12⟩]).program

theorem Program.onlyCalled_aliasedCall :
    (Program.aliasedCall "$table").arena.OnlyCalled [⟨3⟩, ⟨6⟩] := by
  refine .of_handles (fun declaration hd => ?_) (by decide +kernel)
  have hblock : (Program.aliasedCall "$table").arena.get? ⟨12⟩ =
      some (.block [⟨3⟩, ⟨6⟩, ⟨11⟩]) := by cbv
  rcases List.mem_pair.mp hd with rfl | rfl
  · exact ⟨⟨.const, ⟨2⟩, ⟨1⟩, "f", by cbv, by cbv, by cbv⟩, ⟨⟨12⟩, _, hblock, by decide⟩⟩
  · exact ⟨⟨.const, ⟨5⟩, ⟨4⟩, "g", by cbv, by cbv, by cbv⟩, ⟨⟨12⟩, _, hblock, by decide⟩⟩

/-- With a reserved name the alias of an alias is called like the reference. -/
theorem aliases_inlined_aliasedCall :
    Render.SameResult Output.Widens ((Program.aliasedCall "$table").render (.resolver {}) ⟨15⟩)
        (((Program.aliasedCall "$table").inlined [⟨3⟩, ⟨6⟩]).render (.resolver {}) ⟨15⟩) ∧
      ((Program.aliasedCall "$table").compileResolver ⟨15⟩ {}).toOption = some
        { template := "#set($context.stash.f = $table)\n#set($context.stash.g = $context.stash.f)\n"
            ++ "#return($util.invoke(\"table.get\", $context.arguments))"
          integrations := ["table.get"] } ∧
      (((Program.aliasedCall "$table").inlined [⟨3⟩, ⟨6⟩]).compileResolver ⟨15⟩ {}).toOption = some
        { template := "#return($util.invoke(\"table.get\", $context.arguments))"
          integrations := ["table.get"] } := by
  have hp : (Program.aliasedCall "$table").BottomUp := Builder.bottomUp_of (by decide) (by cbv)
  have htable : ∀ integration ∈ (Program.aliasedCall "$table").integrations,
      integration.AlikeAlongside integration := by
    have htable : (Program.aliasedCall "$table").integrations =
        #[.ofStyle "table.get" .inline] := by cbv
    rw [htable]
    intro integration hm
    rw [List.mem_singleton.mp (List.mem_toArray.mp hm)]
    exact Integration.alikeAlongside_ofStyle "table.get" .inline
  have hreserved : ∀ declaration ∈ ([⟨3⟩, ⟨6⟩] : List NodeId),
      (Program.aliasedCall "$table").arena.capturedName? declaration = none := by
    intro declaration hd
    rcases List.mem_pair.mp hd with rfl | rfl <;> cbv
  exact ⟨(aliases_inlined hp htable Program.onlyCalled_aliasedCall (.inl (by cbv))
    (.resolver {})).1 hreserved, by decide +kernel, by decide +kernel⟩

/-- With a plain name the call by the alias is recognized and the declarations are the same, but
the closure is refused, and the one that calls the reference directly is compiled. -/
theorem not_inlined_aliasedCall :
    (Program.aliasedCall "table").BottomUp ∧
      (Program.aliasedCall "table").arena.resolveIntegration ⟨7⟩ = some ⟨0⟩ ∧
      (Program.aliasedCall "table").render (.resolver {}) ⟨15⟩ =
        .error (.unsupported (.captured "table" "resolver")) ∧
      (((Program.aliasedCall "table").inlined [⟨3⟩, ⟨6⟩]).compileResolver ⟨15⟩ {}).toOption = some
        { template := "#return($util.invoke(\"table.get\", $context.arguments))"
          integrations := ["table.get"] } :=
  ⟨Builder.bottomUp_of (by decide) (by cbv), by cbv, by decide +kernel, by decide +kernel⟩

end ClosureVtl
