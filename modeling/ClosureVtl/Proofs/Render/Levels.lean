/-
Module: ClosureVtl.Proofs.Render.Levels
Purpose: Rendering one closure, or one in two surroundings, at levels that suffice.
Main exports:
  Walker.over, Arena.AlikeBelow, Correspondence.levels, AlikeBelow.walkers_abreast,
  Walker.Agrees.above, Walker.agrees_over, Render.Agree.runOn_eq
-/
import ClosureVtl.Proofs.Closure.KnownNodes
import ClosureVtl.Proofs.Render.Parentheses

namespace ClosureVtl

/-!
A walker of some level calls the one below it for the parts of a node.  How many levels a
node needs is told from its age: three for each node up to it, and up to two more, as a
value is printed through its expression, and an expression through its integration.  A
walker that has as many levels never asks what is below the last of them.

The nodes that two walkers are called for are known nodes, about which both arenas answer
the same questions.  One question is set apart, whether a value is consumed on the spot, so
that what follows can be used where the answers to it differ.
-/

/-! ### Walkers of some level -/

/-- The walker whose parts are rendered at so many levels above another one. -/
def Walker.over (base : Walker) (table : Array Integration) (n : Nat) : Walker :=
  (fun w : Walker => w.above table)^[n] base

namespace Walker

variable {base : Walker} {table : Array Integration}

/-- The last level is built on the others. -/
theorem over_succ (base : Walker) (table : Array Integration) (n : Nat) :
    base.over table (n + 1) = (base.over table n).above table :=
  Function.iterate_succ_apply' _ n base

/-- Levels can be added in two portions. -/
theorem over_add (base : Walker) (table : Array Integration) (m n : Nat) :
    base.over table (n + m) = (base.over table m).over table n :=
  Function.iterate_add_apply _ n m base

theorem arena_over (base : Walker) (table : Array Integration) (n : Nat) :
    (base.over table n).arena = base.arena := by
  induction n with
  | zero => rfl
  | succ n ih =>
    rw [over_succ]
    exact ih

theorem dialect_over (base : Walker) (table : Array Integration) (n : Nat) :
    (base.over table n).dialect = base.dialect := by
  induction n with
  | zero => rfl
  | succ n ih =>
    rw [over_succ]
    exact ih

end Walker

/-- The walker of a closure is built level by level on one that has none left. -/
theorem Program.walkerWithin_eq_over (p : Program) (dialect : Dialect) (n : Nat) :
    p.walkerWithin dialect n = (Walker.exhausted p.arena dialect).over p.integrations n := by
  induction n with
  | zero => rfl
  | succ n ih =>
    rw [Walker.over_succ, ← ih]
    rfl

/-! ### Nodes that walkers are called for -/

/-- Whether two arenas that are alike on known nodes also agree whether values are consumed on
the spot: for inner nodes always, and for a node that is entered from outside as far as it
matters.  Around such a node there may be parentheses. -/
structure Arena.AlikeBelow (a a' : Arena) (known inner entered : NodeId → Prop) : Prop
    extends a.AlikeOn a' known where
  inner_parts : ∀ {id part}, inner id → a.Lists id part → inner part
  isConsumed : ∀ {id}, inner id → Walker.isConsumed a id = Walker.isConsumed a' id
  entered_of_inner : ∀ {id}, inner id → entered id
  known_of_entered : ∀ {id}, entered id → known id
  inside : ∀ {id expr}, entered id → a.get? id = some (.paren expr) → entered expr
  content : ∀ {id part}, entered id → (∀ expr, a.get? id ≠ some (.paren expr)) →
    a.Lists id part → inner part
  promised : ∀ {id}, entered id → Walker.isConsumed a id = Walker.isConsumed a' id ∨
    ∀ expr, a.get? id = some (.promise expr) → a.calledIntegration expr = none

theorem Arena.AlikeBelow.refl (a : Arena) :
    a.AlikeBelow a (fun _ => True) (fun _ => True) fun _ => True where
  toAlikeOn := .refl a
  inner_parts _ _ := trivial
  isConsumed _ := rfl
  entered_of_inner _ := trivial
  known_of_entered _ := trivial
  inside _ _ := trivial
  content _ _ _ := trivial
  promised _ := .inl rfl

/-- Each node corresponds to itself, as far as `n` levels suffice for it. -/
def Correspondence.levels (a : Arena) (inner entered : NodeId → Prop) (n : Nat) :
    Correspondence where
  own id id' := id = id' ∧ inner id ∧ 3 * a.age id ≤ n + 1
  node id id' := id = id' ∧ inner id ∧ 3 * a.age id + 2 ≤ n
  value id id' := id = id' ∧ inner id ∧ 3 * a.age id + 2 ≤ n
  integration := Eq
  calls entry id id' := id = id' ∧ entry.reached inner entered id ∧ 1 ≤ n ∧
    3 * a.age id + entry.levels ≤ n

namespace Arena

variable {a a' : Arena} {known inner entered : NodeId → Prop} {id : NodeId} {n : Nat}

/-- The stages that share a loop, and what the loop is over, are below the expression that
is looped over. -/
theorem below_of_fusedChain (a : Arena) (expr : NodeId) (readsList : Bool) :
    (∀ stage ∈ (a.fusedChain expr readsList).1, a.Below expr stage.receiver ∧
        (∀ parameter ∈ stage.parameters, a.Below expr parameter) ∧ a.Below expr stage.body) ∧
      a.Below expr (a.fusedChain expr readsList).2 := by
  -- each stage is below the receiver of the one behind it
  have hwithin : ∀ (n : Nat) (expr : NodeId),
      (∀ stage ∈ (a.fusedChainWithin n expr).1, a.Below expr stage.receiver ∧
          (∀ parameter ∈ stage.parameters, a.Below expr parameter) ∧ a.Below expr stage.body) ∧
        a.Below expr (a.fusedChainWithin n expr).2 := by
    intro n
    induction n with
    | zero => exact fun expr => ⟨by simp [fusedChainWithin], .self expr⟩
    | succ n ih =>
      intro expr
      rw [fusedChainWithin]
      split
      · exact ⟨by simp, .self expr⟩
      · next stage hs =>
        split
        · exact ⟨by simp, .self expr⟩
        · obtain ⟨hreceiver, hparameters, hbody⟩ := below_of_mapStage? hs
          obtain ⟨hstages, hsource⟩ := ih stage.receiver
          refine ⟨fun other hm => ?_, hreceiver.below.trans hsource⟩
          rcases List.mem_cons.mp hm with rfl | hm
          · exact ⟨hreceiver.below, fun parameter hp => (hparameters parameter hp).below,
              hbody.below⟩
          · obtain ⟨hr, hp, hb⟩ := hstages other hm
            exact ⟨hreceiver.below.trans hr, fun parameter hm => hreceiver.below.trans
              (hp parameter hm), hreceiver.below.trans hb⟩
  cases readsList with
  | true => exact ⟨by simp [fusedChain], .self expr⟩
  | false => exact hwithin a.size expr

namespace AlikeBelow

theorem known_of_inner (h : a.AlikeBelow a' known inner entered) (hid : inner id) : known id :=
  h.known_of_entered (h.entered_of_inner hid)

/-- Entering a node enters what is inside its parentheses. -/
theorem entered_unwrapParens (h : a.AlikeBelow a' known inner entered) (ha : a.Grown)
    (hid : entered id) : entered (a.unwrapParens id) := by
  induction id using ha.induction_through_parens with
  | plain id hplain => rwa [unwrapParens_of_not_paren hplain]
  | paren id expr hn ih =>
    rw [ha.unwrapParens_of_paren hn]
    exact ih (h.inside hid hn)

/-- An inner node is reached by every entry point. -/
theorem reached_of_inner (h : a.AlikeBelow a' known inner entered) (entry : EntryPoint)
    (hid : inner id) : entry.reached inner entered id := by
  cases entry with
  | expression | fragment | integrate => exact h.entered_of_inner hid
  | statement | expand => exact hid

/-- A node that exists corresponds to itself if its parts are inner ones. -/
theorem lifts (h : a.AlikeBelow a' known inner entered) (ha : a.Grown) (hid : known id)
    (hparts : ∀ {part}, a.Lists id part → inner part) (hle : 3 * a.age id ≤ n + 1) :
    Option.Rel (Node.Lifts (.levels a inner entered n)) (a.get? id) (a'.get? id) := by
  rw [← h.get? hid]
  cases hn : a.get? id with
  | none => exact .none
  | some node =>
    refine .some (Node.Lifts.of_parts (fun part hm => ?_) fun _ => rfl)
    have hl : a.Lists id part := ⟨node, hn, hm⟩
    have hage := ha.age_lt hl
    have hpart : part = part ∧ inner part ∧ 3 * a.age part + 2 ≤ n :=
      ⟨rfl, hparts hl, by omega⟩
    exact ⟨hpart, hpart⟩

/-- Walkers of arenas that are alike are abreast. -/
theorem walkers_abreast (h : a.AlikeBelow a' known inner entered) (ha : a.Grown) (ha' : a'.Grown)
    {w w' : Walker} (hw : w.arena = a) (hw' : w'.arena = a') (hdialect : w.dialect = w'.dialect) :
    w.Abreast w' (.levels a inner entered n) := by
  subst hw hw'
  have halong := h.along ha ha'
  have hvalue : ∀ {id part}, inner id ∧ 3 * w.arena.age id + 2 ≤ n → w.arena.Below id part →
      part = part ∧ inner part ∧ 3 * w.arena.age part + 2 ≤ n := by
    rintro id part ⟨hid, hle⟩ hb
    have hage := ha.age_le_of_below hb
    exact ⟨rfl, hb.hand_on h.inner_parts hid, by omega⟩
  exact {
    own := by
      rintro id _ ⟨rfl, hid, hle⟩
      exact ⟨rfl, hid, by omega⟩
    lifts := by
      rintro id _ ⟨rfl, hid, hle⟩
      exact h.lifts ha (h.known_of_inner hid) (h.inner_parts hid) hle
    value := id
    unwrap := by
      rintro id _ ⟨rfl, hid⟩
      rw [← (halong.unwrapParens (h.known_of_inner hid.1)).1]
      exact hvalue hid (below_unwrapParens _ id)
    plain := .inl
    resolveIntegration := by
      rintro callee _ ⟨rfl, hid, -⟩
      rw [← halong.resolveIntegration (h.known_of_inner hid)]
      exact optionRel_refl (fun _ => rfl) _
    references := by
      rintro body _ parameter _ ⟨rfl, hbody, -⟩ ⟨rfl, -⟩
      exact h.references ha ha' (h.known_of_inner hbody) parameter
    dialect := congrArg Dialect.unlimited hdialect
    dangling := by
      rintro id _ ⟨rfl, -⟩ -
      rfl
    classify := by
      rintro id _ ⟨rfl, hid, -⟩
      exact h.classify (h.known_of_inner hid)
    declared := by
      rintro id _ ⟨rfl, hid, -⟩
      rw [h.lookup (h.known_of_inner hid)]
    calledIntegration := by
      rintro expr _ (⟨rfl, hid, -⟩ | ⟨rfl, hid, -⟩) <;>
        rw [halong.calledIntegration (h.known_of_inner hid)]
    consumed := by
      rintro id _ ⟨rfl, hid, -⟩
      exact h.isConsumed hid
    fusedChain := by
      rintro expr _ ⟨rfl, hid⟩ readsList
      rw [← halong.fusedChain_eq (h.known_of_inner hid.1)]
      obtain ⟨hstages, hsource⟩ := below_of_fusedChain _ expr readsList
      refine ⟨List.forall₂_same.mpr fun stage hm => ?_, hvalue hid hsource⟩
      obtain ⟨hreceiver, hparameters, hbody⟩ := hstages stage hm
      exact ⟨hvalue hid hreceiver, List.forall₂_same.mpr fun parameter hp =>
        hvalue hid (hparameters parameter hp), hvalue hid hbody⟩
    jsonPath := by
      rintro id _ ⟨rfl, hid, -⟩
      exact halong.jsonPath (h.known_of_inner hid)
    composite := by
      rintro id _ ⟨rfl, hid, -⟩
      exact halong.isComposite (h.known_of_inner hid)
    expression := by
      rintro id _ ⟨rfl, hid, hle⟩
      exact ⟨rfl, h.reached_of_inner _ hid, by omega, by simp only [EntryPoint.levels]; omega⟩
    fragment := by
      rintro id _ ⟨rfl, hid, hle⟩
      exact ⟨rfl, h.reached_of_inner _ hid, by omega, hle⟩
    statement := by
      rintro id _ ⟨rfl, hid, hle⟩
      exact ⟨rfl, h.reached_of_inner _ hid, by omega, by simp only [EntryPoint.levels]; omega⟩
    expand := by
      rintro id _ ⟨rfl, hid, hle⟩
      exact ⟨rfl, h.reached_of_inner _ hid, by omega, by simp only [EntryPoint.levels]; omega⟩ }

/-- They see the same of a node that they are called for, if it stands in no parentheses. -/
theorem faces (h : a.AlikeBelow a' known inner entered) (ha : a.Grown) (ha' : a'.Grown)
    {w w' : Walker} (hw : w.arena = a) (hw' : w'.arena = a') (hid : entered id)
    (hparen : ∀ expr, a.get? id ≠ some (.paren expr)) (hle : 3 * a.age id ≤ n + 1) :
    w.Faces w' (.levels a inner entered n) id id := by
  subst hw hw'
  have hknown := h.known_of_entered hid
  have halong := h.along ha ha'
  exact {
    meets := Node.Meets.of_lifts (h.lifts ha hknown (h.content hid hparen) hle)
    dangling := fun _ => rfl
    classify := h.classify hknown
    calledIntegration := by rw [halong.calledIntegration hknown]
    consumed := h.promised hid
    jsonPath := halong.jsonPath hknown
    composite := halong.isComposite hknown }

end AlikeBelow

end Arena

/-! ### Templates in the making -/

/-- Outputs that match without any difference are equal. -/
theorem Output.matches_eq_iff {out out' : Output} : out.Matches Eq out' ↔ out = out' := by
  constructor
  · rintro ⟨hlines, htemps, hintegrations⟩
    have hsame := Array.toList_inj.mp (List.forall₂_eq_eq_eq ▸ hintegrations)
    cases out
    cases out'
    simp_all
  · rintro rfl
    exact ⟨rfl, rfl, List.forall₂_refl _⟩

namespace Render

/-- Steps that agree on equal templates are equal on them. -/
theorem Agree.runOn_eq {α : Type} {x x' : Render α} (h : Agree Eq Eq x x') (out : Output) :
    x.runOn out = x'.runOn out := by
  obtain ⟨hresult, hout⟩ := h.run (Output.matches_eq_iff.mpr rfl)
  refine Prod.ext ?_ (Output.matches_eq_iff.mp hout)
  revert hresult
  generalize (x.runOn out).1 = result
  generalize (x'.runOn out).1 = result'
  rintro (hvalue | f)
  · rw [hvalue]
  · rfl

end Render

/-! ### One level above -/

namespace Walker

variable {w w' : Walker} {a a' : Arena} {known inner entered : NodeId → Prop} {n : Nat}
  {table : Array Integration} {id : NodeId}

/-- Calls that reach their handlers are handled alike. -/
theorem agree_dispatch (habreast : w.Abreast w' (.levels a inner entered n))
    (hdialect : w.dialect = w'.dialect) (hw : w.Agrees w' (.levels a inner entered n))
    (htable : ∀ integration ∈ table, integration.Alike integration) (integration : IntegrationId)
    {call : NodeId} (hsite : InStep w w' (.levels a inner entered n)
      (fun site site' => List.Forall₂ (Correspondence.levels a inner entered n).value
        site.args site'.args)
      (Render.ofExcept (CallSite.of w.arena call))
      (Render.ofExcept (CallSite.of w'.arena call))) :
    Render.Agree Eq Eq (w.dispatch table integration call) (w'.dispatch table integration call) := by
  rcases hi : table[integration.index]? with _ | found
  · rw [dispatch_unknown hi, dispatch_unknown hi]
    exact .fault _
  have halike := htable found (Array.mem_of_getElem? hi)
  constructor
  intro out out' hout
  obtain rfl := Output.matches_eq_iff.mp hout
  rw [runOn_dispatch hi, runOn_dispatch hi, ← hdialect]
  split
  · exact ⟨.error _, hout⟩
  · have hhandler : InStep w w' (.levels a inner entered n) Eq
        (Render.ofExcept (CallSite.of w.arena call) >>= found.handler w.dialect w)
        (Render.ofExcept (CallSite.of w'.arena call) >>= found.handler w.dialect w') := by
      apply InStep.bind hsite
      intro site site' hargs
      cases w.dialect with
      | resolver config => exact halike.resolver habreast hargs
      | mapping direction config => exact halike.mapping habreast hargs
    exact (hhandler.agree hw).run (Output.matches_eq_iff.mpr rfl)

/-- Printing a handle that leads nowhere fails at once. -/
theorem renderFragment_dangling (h : w.arena.get? id = none) :
    w.renderFragment id = Render.fault (.breach (.dangling id)) := by
  have hself : w.arena.unwrapParens id = id := Arena.unwrapParens_of_not_paren (by simp [h])
  have hpath : w.arena.jsonPath id = none := by
    simp [Arena.jsonPath, Arena.jsonPathWithin, hself, h]
  unfold renderFragment
  dsimp only
  rw [hself, hpath, node_of_dangling h]
  rfl

section

variable (h : w.arena.AlikeBelow w'.arena known inner entered) (ha : w.arena.Grown)
  (ha' : w'.arena.Grown) (habreast : w.Abreast w' (.levels w.arena inner entered n))
  (hagrees : w.Agrees w' (.levels w.arena inner entered n))

include h ha ha' habreast hagrees

/-- An expression is rendered alike if its parts are; parentheses are passed through. -/
theorem agree_renderExpression (hid : entered id) (hle : 3 * w.arena.age id ≤ n) :
    Render.Agree Eq Eq (w.renderExpression id) (w'.renderExpression id) := by
  have hsame := h.get? (h.known_of_entered hid)
  by_cases hnone : w.arena.get? id = none
  · rw [renderExpression_dangling hnone, renderExpression_dangling (hsame.symm.trans hnone)]
    exact .fault _
  have hage := Arena.age_pos_of_get? hnone
  by_cases hparen : ∃ expr, w.arena.get? id = some (.paren expr)
  · obtain ⟨expr, hn⟩ := hparen
    have hlt := ha.age_lt ⟨_, hn, List.mem_singleton.mpr rfl⟩
    rw [renderExpression_paren hn, renderExpression_paren (hsame.symm.trans hn)]
    refine hagrees.expression ⟨rfl, h.inside hid hn, by omega, ?_⟩
    simp only [EntryPoint.levels]
    omega
  · have hfaces : w.Faces w' (.levels w.arena inner entered n) id id :=
      h.faces ha ha' rfl rfl hid (not_exists.mp hparen) (by omega)
    refine (inStep_renderExpression habreast.alongside hfaces ⟨rfl, hid, by omega, ?_⟩).agree hagrees
    simp only [EntryPoint.levels]
    omega

/-- So is a value that is printed; it is asked for without its parentheses. -/
theorem agree_renderFragment (hid : entered id) (hle : 3 * w.arena.age id + 1 ≤ n) :
    Render.Agree Eq Eq (w.renderFragment id) (w'.renderFragment id) := by
  have hknown := h.known_of_entered hid
  by_cases hnone : w.arena.get? id = none
  · rw [renderFragment_dangling hnone,
      renderFragment_dangling ((h.get? hknown).symm.trans hnone)]
    exact .fault _
  have hage := Arena.age_pos_of_get? hnone
  have hinside := ha.age_unwrapParens id
  have hentered := h.entered_unwrapParens ha hid
  refine (inStep_renderFragment habreast.alongside ?_ ?_).agree hagrees <;>
    rw [← ((h.along ha ha').unwrapParens hknown).1]
  · exact h.faces ha ha' rfl rfl hentered (ha.get?_unwrapParens_ne_paren id) (by omega)
  · refine ⟨rfl, hentered, by omega, ?_⟩
    simp only [EntryPoint.levels]
    omega

/-- And so is a call that is handed to its integration; in parentheses it is no call. -/
theorem agree_dispatch_entered (hdialect : w.dialect = w'.dialect)
    (htable : ∀ integration ∈ table, integration.Alike integration) (integration : IntegrationId)
    {call : NodeId} (hcall : entered call) (hle : 3 * w.arena.age call ≤ n + 1) :
    Render.Agree Eq Eq (w.dispatch table integration call) (w'.dispatch table integration call) := by
  apply agree_dispatch habreast hdialect hagrees htable integration
  by_cases hparen : ∃ expr, w.arena.get? call = some (.paren expr)
  · obtain ⟨expr, hn⟩ := hparen
    have hn' := (h.get? (h.known_of_entered hcall)).symm.trans hn
    unfold CallSite.of
    rw [Arena.node_eq_ok_iff.mpr hn, Arena.node_eq_ok_iff.mpr hn']
    exact .fault _
  · exact inStep_callSite habreast.alongside (h.faces ha ha' rfl rfl hcall (not_exists.mp hparen) hle)

end

/-- Walkers agree on the nodes that their levels suffice for if they do one level below. -/
theorem Agrees.above (hagrees : w.Agrees w' (.levels a inner entered n))
    (h : a.AlikeBelow a' known inner entered) (ha : a.Grown) (ha' : a'.Grown) (hw : w.arena = a)
    (hw' : w'.arena = a') (hdialect : w.dialect = w'.dialect)
    (htable : ∀ integration ∈ table, integration.Alike integration) :
    (w.above table).Agrees (w'.above table) (.levels a inner entered (n + 1)) := by
  have habreast : w.Abreast w' (.levels a inner entered n) :=
    h.walkers_abreast ha ha' hw hw' hdialect
  subst hw hw'
  constructor
  case expression =>
    rintro id _ ⟨rfl, hid, -, hle⟩
    exact agree_renderExpression h ha ha' habreast hagrees hid (Nat.le_of_succ_le_succ hle)
  case statement =>
    rintro id _ ⟨rfl, hid, -, hle⟩ slot
    have hown : (Correspondence.levels w.arena inner entered n).own id id := ⟨rfl, hid, hle⟩
    exact (inStep_renderStatement habreast.alongside hown (fun _ _ => habreast.statements hown)
      slot).agree hagrees
  case expand =>
    rintro id _ ⟨rfl, hid, -, hle⟩ target
    exact (inStep_expandPattern habreast.alongside ⟨rfl, hid, hle⟩ target).agree hagrees
  case fragment =>
    rintro id _ ⟨rfl, hid, -, hle⟩
    exact agree_renderFragment h ha ha' habreast hagrees hid (Nat.le_of_succ_le_succ hle)
  case integrate =>
    rintro integration _ rfl call _ ⟨rfl, hcall, -, hle⟩
    exact agree_dispatch_entered h ha ha' habreast hagrees hdialect htable integration hcall hle

/-- Walkers above any two walkers of arenas that are alike agree on the nodes that their
levels suffice for. -/
theorem agrees_over (h : a.AlikeBelow a' known inner entered) (ha : a.Grown) (ha' : a'.Grown)
    (htable : ∀ integration ∈ table, integration.Alike integration) {base base' : Walker}
    (hbase : base.arena = a) (hbase' : base'.arena = a') (hdialect : base.dialect = base'.dialect)
    (n : Nat) :
    (base.over table n).Agrees (base'.over table n) (.levels a inner entered n) := by
  induction n with
  | zero =>
    apply Agrees.of_no_calls
    rintro entry id _ ⟨-, -, hzero, -⟩
    omega
  | succ n ih =>
    rw [over_succ, over_succ]
    refine ih.above h ha ha' ?_ ?_ ?_ htable
    · rw [arena_over, hbase]
    · rw [arena_over, hbase']
    · rw [dialect_over, dialect_over, hdialect]

end Walker

end ClosureVtl
