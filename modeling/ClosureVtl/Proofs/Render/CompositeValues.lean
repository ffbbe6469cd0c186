/-
Module: ClosureVtl.Proofs.Render.CompositeValues
Purpose: Which values the printing by type refuses as objects or lists, and which it lets pass.
Main exports:
  Arena.Followed, Arena.Stores, Arena.Composite, Arena.MayBeComposite,
  Arena.isComposite_iff, Arena.FallsBack, Arena.FallsBack.exists_primitive,
  fallback_refuses_composites
-/
import Mathlib.Logic.Relation
import ClosureVtl.Proofs.Closure.Termination
import ClosureVtl.Proofs.Render.StatementParts

namespace ClosureVtl

/-!
A value that is printed by its type must not be an object or a list.  The check for this
follows the value from an expression to the parts that it may come from, and from a name to
the initial value of its declaration.  It does not go on to the right operand of an
assignment, which is its value as well.

All of this is said of any arena, also one whose nodes go round in circles: the check finds
nothing there, and no literal is reached either.
-/

namespace Arena

/-! ### Where a value comes from -/

/-- Whether a node is an object literal or a list literal. -/
def IsCompositeLiteral (a : Arena) (id : NodeId) : Prop :=
  ∃ items, a.get? id = some (.object items) ∨ a.get? id = some (.array items)

/-- Whether the value of an expression may be that of another one, for the steps that the check
follows. -/
inductive Followed (a : Arena) : NodeId → NodeId → Prop where
  | outcome {id part : NodeId} (yields : a.Yields id part) : Followed a id part
  | initial {use declaration name value : NodeId} {kind : DeclKind}
      (lookup : a.lookup use = some declaration)
      (declared : a.get? declaration = some (.declaration kind name (some value))) :
      Followed a use value

/-- Whether an assignment yields the value of another expression. -/
def Stores (a : Arena) (assignment value : NodeId) : Prop :=
  ∃ target, a.get? assignment = some (.binary target .assign value) ∨
    a.get? assignment = some (.binary target .coalesceAssign value)

/-- Whether the value of an expression may be that of another one. -/
def ComesFrom (a : Arena) (id part : NodeId) : Prop := a.Followed id part ∨ a.Stores id part

/-- Whether the check comes from an expression to a literal. -/
def Composite (a : Arena) (expr : NodeId) : Prop :=
  ∃ literal, Relation.ReflTransGen a.Followed expr literal ∧ a.IsCompositeLiteral literal

/-- Whether the value of an expression may be that of a literal. -/
def MayBeComposite (a : Arena) (expr : NodeId) : Prop :=
  ∃ literal, Relation.ReflTransGen a.ComesFrom expr literal ∧ a.IsCompositeLiteral literal

/-- Whether a node is a pair of parentheses around another one. -/
def Parenthesizes (a : Arena) (outer inner : NodeId) : Prop := a.get? outer = some (.paren inner)

variable {a : Arena} {id expr inner last part : NodeId} {node : Node} {n m : Nat}

/-- Going on to a value that is followed is one of the ways a value can come from another. -/
theorem comesFrom_of_followed (h : Relation.ReflTransGen a.Followed id part) :
    Relation.ReflTransGen a.ComesFrom id part :=
  Relation.ReflTransGen.mono (fun _ _ hstep => Or.inl hstep) _ _ h

/-- What the check comes to is a literal that the value may come from. -/
theorem Composite.mayBeComposite (h : a.Composite expr) : a.MayBeComposite expr := by
  obtain ⟨literal, hreach, hliteral⟩ := h
  exact ⟨literal, comesFrom_of_followed hreach, hliteral⟩

/-- A way to a literal has an assignment on it, or the check can go it. -/
theorem mayBeComposite_iff :
    a.MayBeComposite expr ↔ a.Composite expr ∨
      ∃ assignment value, Relation.ReflTransGen a.Followed expr assignment ∧
        a.Stores assignment value ∧ a.MayBeComposite value := by
  constructor
  · rintro ⟨literal, hreach, hliteral⟩
    induction hreach using Relation.ReflTransGen.head_induction_on with
    | refl => exact .inl ⟨literal, .refl, hliteral⟩
    | @head id next hstep hrest ih =>
      rcases hstep with hfollowed | hstores
      · refine ih.imp ?_ ?_
        · rintro ⟨other, hreach, hother⟩
          exact ⟨other, hreach.head hfollowed, hother⟩
        · rintro ⟨assignment, value, hreach, hvalue⟩
          exact ⟨assignment, value, hreach.head hfollowed, hvalue⟩
      · exact .inr ⟨id, next, .refl, hstores, literal, hrest, hliteral⟩
  · rintro (h | ⟨assignment, value, hreach, hstores, literal, hrest, hliteral⟩)
    · exact h.mayBeComposite
    · exact ⟨literal, (comesFrom_of_followed hreach).trans (hrest.head (.inr hstores)), hliteral⟩

/-! ### Through parentheses, in any arena -/

/-- What is left of an expression is inside of its parentheses. -/
theorem parenthesizes_unwrapParensWithin (a : Arena) (n : Nat) (id : NodeId) :
    Relation.ReflTransGen a.Parenthesizes id (a.unwrapParensWithin n id) := by
  induction n generalizing id with
  | zero => exact .refl
  | succ n ih =>
    rw [unwrapParensWithin]
    split
    · next expr hn => exact (ih expr).head hn
    · exact .refl

/-- What is inside at most so many pairs of parentheses, if it is a node and no further pair. -/
private def insideWithin (a : Arena) (n : Nat) (id : NodeId) : Option NodeId :=
  match a.get? (a.unwrapParensWithin n id) with
  | none | some (.paren _) => none
  | some _ => some (a.unwrapParensWithin n id)

/-- The walk reports where it ends only if there is a node, and it is no pair of parentheses. -/
private theorem insideWithin_eq_some_iff :
    a.insideWithin n id = some inner ↔ a.unwrapParensWithin n id = inner ∧
      ∃ node, a.get? inner = some node ∧ ∀ expr, node ≠ .paren expr := by
  unfold insideWithin
  split
  · next hn =>
    simp only [reduceCtorEq, false_iff]
    rintro ⟨rfl, node, hnode, -⟩
    simp [hn] at hnode
  · next expr hn =>
    simp only [reduceCtorEq, false_iff]
    rintro ⟨rfl, node, hnode, hplain⟩
    exact hplain expr (Option.some.inj (hnode.symm.trans hn))
  · next node hplain hn =>
    rw [Option.some.injEq]
    refine ⟨?_, And.left⟩
    rintro rfl
    exact ⟨rfl, node, hn, hplain⟩

/-- One bound more goes through one pair of parentheses. -/
private theorem insideWithin_paren (hn : a.get? id = some (.paren expr)) :
    a.insideWithin (n + 1) id = a.insideWithin n expr := by
  simp only [insideWithin, unwrapParensWithin, hn]

/-- A node without parentheses is inside at every bound, or at none. -/
private theorem insideWithin_of_not_paren {m : Nat} (hn : ∀ expr, a.get? id ≠ some (.paren expr)) :
    a.insideWithin n id = a.insideWithin m id := by
  simp only [insideWithin, unwrapParensWithin_of_not_paren hn]

/-- What is inside at one bound is inside at the next. -/
private theorem insideWithin_succ (h : a.insideWithin n id ≠ none) :
    a.insideWithin (n + 1) id = a.insideWithin n id := by
  induction n generalizing id with
  | zero =>
    apply insideWithin_of_not_paren
    intro expr hn
    exact h (by simp [insideWithin, unwrapParensWithin, hn])
  | succ n ih =>
    by_cases hp : ∃ expr, a.get? id = some (.paren expr)
    · obtain ⟨expr, hn⟩ := hp
      rw [insideWithin_paren hn] at h ⊢
      rw [insideWithin_paren hn, ih h]
    · exact insideWithin_of_not_paren fun expr hn => hp ⟨expr, hn⟩

/-- What is inside a pair of parentheses is in the arena and does not change. -/
private theorem settles_insideWithin (a : Arena) : Settles none a.size a.insideWithin where
  inside n id hid := by
    by_contra hge
    have hnone : a.get? id = none := get?_eq_none_iff.mpr (Nat.le_of_not_lt hge)
    have hself : a.unwrapParensWithin n id = id :=
      unwrapParensWithin_of_not_paren fun expr hn => by simp [hnone] at hn
    exact hid (by simp [insideWithin, hself, hnone])
  keeps n id hid := insideWithin_succ hid
  step n m hnm := by
    funext id
    by_cases hp : ∃ expr, a.get? id = some (.paren expr)
    · obtain ⟨expr, hn⟩ := hp
      rw [insideWithin_paren hn, insideWithin_paren hn, hnm]
    · exact insideWithin_of_not_paren fun expr hn => hp ⟨expr, hn⟩

/-- One pair of parentheses more makes no difference to what is inside, if there is anything. -/
theorem unwrapParens_of_paren (hn : a.get? id = some (.paren expr))
    (hinside : a.get? (a.unwrapParens expr) = some node) (hplain : ∀ inner, node ≠ .paren inner) :
    a.unwrapParens id = a.unwrapParens expr := by
  have hone : a.insideWithin (a.size + 1) id = some (a.unwrapParens expr) := by
    rw [insideWithin_eq_some_iff, unwrapParensWithin, hn]
    exact ⟨rfl, node, hinside, hplain⟩
  -- and within as many pairs as there are nodes, since parentheses end
  have hsize := ((settles_insideWithin a).found le_rfl (by simp [hone])).trans hone
  exact (insideWithin_eq_some_iff.mp hsize).1

/-! ### What the check finds -/

/-- A node that is no name is followed to the parts that its value may come from. -/
theorem followed_iff_mem_outcomes (hn : a.get? id = some node)
    (hname : ∀ text, node ≠ .identifier text) : a.Followed id part ↔ part ∈ node.outcomes := by
  constructor
  · intro h
    cases h with
    | outcome yields =>
      obtain ⟨other, ho, hm⟩ := yields
      rwa [Option.some.inj (hn.symm.trans ho)]
    | initial lookup declared =>
      rw [lookup_of_not_identifier fun text ht => hname text (Option.some.inj (hn.symm.trans ht))]
        at lookup
      cases lookup
  · exact fun hm => .outcome ⟨node, hn, hm⟩

/-- A name is followed to the initial value of its declaration. -/
theorem followed_iff_of_identifier {text : String} (hn : a.get? id = some (.identifier text)) :
    a.Followed id part ↔ ∃ kind name,
      (a.lookup id).bind a.get? = some (.declaration kind name (some part)) := by
  constructor
  · intro h
    cases h with
    | outcome yields =>
      obtain ⟨other, ho, hm⟩ := yields
      rw [← Option.some.inj (hn.symm.trans ho)] at hm
      cases hm
    | initial lookup declared => exact ⟨_, _, by rw [lookup, Option.bind_some, declared]⟩
  · rintro ⟨kind, name, h⟩
    obtain ⟨declaration, hlookup, hdeclared⟩ := Option.bind_eq_some_iff.mp h
    exact .initial hlookup hdeclared

/-- Only an object or an array is a composite literal. -/
theorem not_isCompositeLiteral (hn : a.get? id = some node) (hobject : ∀ items, node ≠ .object items)
    (harray : ∀ items, node ≠ .array items) : ¬ a.IsCompositeLiteral id := by
  rintro ⟨items, h | h⟩
  · exact hobject items (Option.some.inj (hn.symm.trans h))
  · exact harray items (Option.some.inj (hn.symm.trans h))

/-- A node that is neither a composite literal nor a name leads on to its outcomes only. -/
theorem isCompositeLiteral_or_followed_iff {deeper : NodeId → Bool} (hn : a.get? id = some node)
    (hobject : ∀ items, node ≠ .object items) (harray : ∀ items, node ≠ .array items)
    (hname : ∀ text, node ≠ .identifier text) :
    (a.IsCompositeLiteral id ∨ ∃ part, a.Followed id part ∧ deeper part = true) ↔
      ∃ part ∈ node.outcomes, deeper part = true := by
  rw [or_iff_right (not_isCompositeLiteral hn hobject harray)]
  simp only [followed_iff_mem_outcomes hn hname]

/-- The check stops at a literal, or goes on to the parts that a value may come from. -/
theorem isCompositeRound_iff {deeper : NodeId → Bool}
    (hplain : ∀ inner, a.get? (a.unwrapParens expr) ≠ some (.paren inner)) :
    a.isCompositeRound deeper expr = true ↔ a.IsCompositeLiteral (a.unwrapParens expr) ∨
      ∃ part, a.Followed (a.unwrapParens expr) part ∧ deeper part = true := by
  unfold isCompositeRound
  split
  · next items hn => simp [IsCompositeLiteral, hn]
  · next items hn => simp [IsCompositeLiteral, hn]
  · next inner hn => rw [isCompositeLiteral_or_followed_iff hn] <;> simp [Node.outcomes]
  · next inner hn => rw [isCompositeLiteral_or_followed_iff hn] <;> simp [Node.outcomes]
  · next test yes no hn => rw [isCompositeLiteral_or_followed_iff hn] <;> simp [Node.outcomes]
  · next left right hn => rw [isCompositeLiteral_or_followed_iff hn] <;> simp [Node.outcomes]
  · next left right hn => rw [isCompositeLiteral_or_followed_iff hn] <;> simp [Node.outcomes]
  · next left right hn => rw [isCompositeLiteral_or_followed_iff hn] <;> simp [Node.outcomes]
  · next text hn =>
    rw [or_iff_right (not_isCompositeLiteral hn (by simp) (by simp))]
    simp only [followed_iff_of_identifier hn]
    split
    · next kind name value hd => simp [hd]
    · next hnone =>
      simp only [Bool.false_eq_true, false_iff]
      rintro ⟨part, ⟨kind, name, hd⟩, -⟩
      exact hnone kind name part hd
  -- no other node is a literal, has outcomes or can be looked up
  · next hobject harray hawait hpromise hconditional hand hor hcoalesce hname =>
    simp only [Bool.false_eq_true, false_iff]
    rintro (⟨items, h | h⟩ | ⟨part, hfollowed, -⟩)
    · exact hobject items h
    · exact harray items h
    · cases hfollowed with
      | initial lookup declared =>
        rw [lookup_of_not_identifier fun text ht => hname text ht] at lookup
        cases lookup
      | outcome yields =>
        obtain ⟨node, hn, hm⟩ := yields
        unfold Node.outcomes at hm
        split at hm
        · exact hplain _ hn
        · exact hawait _ hn
        · exact hpromise _ hn
        · exact hconditional _ _ _ hn
        · exact hand _ _ hn
        · exact hor _ _ hn
        · exact hcoalesce _ _ hn
        · cases hm

/-- A composite value is a node of the arena. -/
theorem exists_node_of_isCompositeRound {deeper : NodeId → Bool}
    (h : a.isCompositeRound deeper expr = true) :
    ∃ node, a.get? (a.unwrapParens expr) = some node ∧ ∀ inner, node ≠ .paren inner := by
  unfold isCompositeRound at h
  split at h <;> first | exact ⟨_, ‹_›, by simp⟩ | cases h

/-- A round finds more if what is deeper in finds more. -/
theorem isCompositeRound_mono {deeper deeper' : NodeId → Bool}
    (hmore : ∀ part, deeper part = true → deeper' part = true)
    (h : a.isCompositeRound deeper expr = true) : a.isCompositeRound deeper' expr = true := by
  obtain ⟨node, hn, hplain⟩ := exists_node_of_isCompositeRound h
  have hinside : ∀ inner, a.get? (a.unwrapParens expr) ≠ some (.paren inner) := fun inner hp =>
    hplain inner (Option.some.inj (hn.symm.trans hp))
  rw [isCompositeRound_iff hinside] at h ⊢
  refine h.imp_right ?_
  rintro ⟨part, hfollowed, hpart⟩
  exact ⟨part, hfollowed, hmore part hpart⟩

/-- A larger bound loses no composite value. -/
theorem isCompositeWithin_succ (h : a.isCompositeWithin n expr = true) :
    a.isCompositeWithin (n + 1) expr = true := by
  induction n generalizing expr with
  | zero => cases h
  | succ n ih => exact isCompositeRound_mono (fun _ => ih) h

/-- A composite value is in the arena and stays composite. -/
theorem settles_isCompositeWithin (a : Arena) : Settles false a.size a.isCompositeWithin where
  inside n id hid := by
    cases n with
    | zero => exact absurd rfl hid
    | succ n =>
      obtain ⟨node, hn, -⟩ := exists_node_of_isCompositeRound (Bool.eq_true_of_not_eq_false hid)
      exact lt_size_of_unwrapParens (lt_size_of_get? hn)
  keeps n id hid := by
    have htrue := Bool.eq_true_of_not_eq_false hid
    rw [htrue, isCompositeWithin_succ htrue]
  step _ _ hnm := congrArg a.isCompositeRound hnm

/-- What the check finds at all it finds within the bound that it has. -/
theorem isComposite_of_isCompositeWithin (h : a.isCompositeWithin n expr = true) :
    a.isComposite expr = true := by
  have hfound : a.isCompositeWithin n expr ≠ false := by simp [h]
  rw [isComposite, (settles_isCompositeWithin a).found (Nat.le_succ a.size) hfound, h]

theorem followed_unwrapParens (a : Arena) (id : NodeId) :
    Relation.ReflTransGen a.Followed id (a.unwrapParens id) :=
  Relation.ReflTransGen.mono
    (fun _ _ hn => Followed.outcome ⟨_, hn, List.mem_singleton.mpr rfl⟩) _ _
    (a.parenthesizes_unwrapParensWithin a.size id)

/-- The induction is on the bound; each case of a round is one step on the way to a literal. -/
theorem composite_of_isCompositeWithin (h : a.isCompositeWithin n expr = true) :
    a.Composite expr := by
  induction n generalizing expr with
  | zero => cases h
  | succ n ih =>
    have hround : a.isCompositeRound (a.isCompositeWithin n) expr = true := h
    obtain ⟨node, hn, hplain⟩ := exists_node_of_isCompositeRound hround
    rw [isCompositeRound_iff fun inner hp => hplain inner (Option.some.inj (hn.symm.trans hp))]
      at hround
    rcases hround with hliteral | ⟨part, hfollowed, hpart⟩
    · exact ⟨_, a.followed_unwrapParens expr, hliteral⟩
    · obtain ⟨literal, hreach, hliteral⟩ := ih hpart
      exact ⟨literal, ((a.followed_unwrapParens expr).tail hfollowed).trans hreach, hliteral⟩

/-- A way to a literal has a length, and that is a bound at which the walk finds it. -/
theorem exists_isCompositeWithin (h : a.Composite expr) :
    ∃ n, a.isCompositeWithin n expr = true := by
  obtain ⟨literal, hreach, hliteral⟩ := h
  have hround : ∀ {n id}, (∀ inner, a.get? id ≠ some (.paren inner)) →
      (a.IsCompositeLiteral id ∨ ∃ part, a.Followed id part ∧ a.isCompositeWithin n part = true) →
      a.isCompositeWithin (n + 1) id = true := by
    intro n id hplain hid
    have hself : a.unwrapParens id = id := unwrapParensWithin_of_not_paren hplain
    rw [← hself] at hplain hid
    exact (isCompositeRound_iff hplain).mpr hid
  induction hreach using Relation.ReflTransGen.head_induction_on with
  | refl =>
    refine ⟨1, hround (fun inner hn => ?_) (.inl hliteral)⟩
    obtain ⟨items, h | h⟩ := hliteral <;> simp [hn] at h
  | @head id next hstep _ ih =>
    obtain ⟨n, hnext⟩ := ih
    by_cases hp : ∃ inner, a.get? id = some (.paren inner)
    · obtain ⟨inner, hn⟩ := hp
      rw [followed_iff_mem_outcomes hn (by simp), Node.outcomes, List.mem_singleton] at hstep
      subst hstep
      -- the check does not count parentheses, so it sees the same from both sides of a pair
      cases n with
      | zero => cases hnext
      | succ n =>
        obtain ⟨node, hinside, hplain⟩ := exists_node_of_isCompositeRound hnext
        refine ⟨n + 1, ?_⟩
        show a.isCompositeRound _ id = true
        rw [isCompositeRound, unwrapParens_of_paren hn hinside hplain]
        exact hnext
    · exact ⟨n + 1, hround (fun inner hn => hp ⟨inner, hn⟩) (.inr ⟨next, hstep, hnext⟩)⟩

/-- The check finds a literal exactly if one is reached by the steps that it follows. -/
theorem isComposite_iff : a.isComposite expr = true ↔ a.Composite expr := by
  constructor
  · exact composite_of_isCompositeWithin
  · intro h
    obtain ⟨n, hn⟩ := exists_isCompositeWithin h
    exact isComposite_of_isCompositeWithin hn

/-! ### What is printed by its type -/

/-- Whether printing a value ends with printing another one by its type: neither it nor what it
awaits is a path into the payload, a literal or a call of an integration. -/
inductive FallsBack (a : Arena) : NodeId → NodeId → Prop where
  | printed {expr : NodeId} {node : Node} (path : a.jsonPath (a.unwrapParens expr) = none)
      (found : a.get? (a.unwrapParens expr) = some node)
      (prints : a.printsByType (a.unwrapParens expr) node = true) :
      FallsBack a expr (a.unwrapParens expr)
  | awaited {expr inner last : NodeId} (path : a.jsonPath (a.unwrapParens expr) = none)
      (found : a.get? (a.unwrapParens expr) = some (.await inner)) (rest : FallsBack a inner last) :
      FallsBack a expr last
  | promised {expr inner last : NodeId} (path : a.jsonPath (a.unwrapParens expr) = none)
      (found : a.get? (a.unwrapParens expr) = some (.promise inner))
      (plain : a.calledIntegration inner = none) (rest : FallsBack a inner last) :
      FallsBack a expr last

/-- What a value is in the end printed as by its type, through at most so many layers. -/
private def fallbackWithin (a : Arena) : Nat → NodeId → Option NodeId
  | 0, _ => none
  | n + 1, expr =>
    if (a.jsonPath (a.unwrapParens expr)).isSome then none
    else
      match a.get? (a.unwrapParens expr) with
      | none => none
      | some (.await inner) => a.fallbackWithin n inner
      | some (.promise inner) =>
        if (a.calledIntegration inner).isSome then none else a.fallbackWithin n inner
      | some node =>
        if a.printsByType (a.unwrapParens expr) node then some (a.unwrapParens expr) else none

/-- A way to the fallback has a length, and that is a bound at which the walk finds it. -/
private theorem exists_fallbackWithin (h : a.FallsBack expr last) :
    ∃ n, a.fallbackWithin n expr = some last := by
  induction h with
  | @printed expr node path found prints =>
    refine ⟨1, ?_⟩
    unfold fallbackWithin
    rw [path, found, if_neg (by simp)]
    cases node <;> exact if_pos prints
  | awaited path found _ ih =>
    obtain ⟨n, hn⟩ := ih
    refine ⟨n + 1, ?_⟩
    unfold fallbackWithin
    rw [path, found]
    exact hn
  | promised path found plain _ ih =>
    obtain ⟨n, hn⟩ := ih
    refine ⟨n + 1, ?_⟩
    unfold fallbackWithin
    rw [path, found]
    simp only [plain]
    exact hn

/-- A larger bound changes no answer. -/
private theorem fallbackWithin_succ (h : a.fallbackWithin n expr = some last) :
    a.fallbackWithin (n + 1) expr = some last := by
  induction n generalizing expr with
  | zero => cases h
  | succ n ih =>
    unfold fallbackWithin at h ⊢
    split at h
    · cases h
    · next hpath =>
      rw [if_neg hpath]
      split at h
      · cases h
      · exact ih h
      · split at h
        · cases h
        · next hplain =>
          rw [if_neg hplain]
          exact ih h
      · exact h

/-- A value that has a fallback is in the arena, and its fallback does not change. -/
private theorem settles_fallbackWithin (a : Arena) : Settles none a.size a.fallbackWithin where
  inside n id hid := by
    cases n with
    | zero => exact absurd rfl hid
    | succ n =>
      apply lt_size_of_unwrapParens
      by_contra hge
      have hnone : a.get? (a.unwrapParens id) = none :=
        get?_eq_none_iff.mpr (Nat.le_of_not_lt hge)
      exact hid (by simp [fallbackWithin, hnone])
  keeps n id hid := by
    obtain ⟨last, hlast⟩ := Option.ne_none_iff_exists'.mp hid
    rw [hlast, fallbackWithin_succ hlast]
  step n m hnm := by
    funext id
    rw [fallbackWithin, fallbackWithin, hnm]

/-- So the chain is no longer than the arena is large. -/
private theorem fallbackWithin_size (h : a.fallbackWithin n expr = some last) :
    a.fallbackWithin a.size expr = some last :=
  ((settles_fallbackWithin a).found le_rfl (by simp [h])).trans h

/-- A node whose value is that of one part is as composite as the part. -/
theorem composite_iff_of_outcomes (hn : a.get? id = some node) (hparts : node.outcomes = [part]) :
    a.Composite id ↔ a.Composite part := by
  have hstep : ∀ next, a.Followed id next ↔ next = part := fun next => by
    rw [followed_iff_mem_outcomes hn (by rintro text rfl; cases hparts), hparts, List.mem_singleton]
  constructor
  · rintro ⟨literal, hreach, hliteral⟩
    rcases Relation.ReflTransGen.cases_head hreach with rfl | ⟨next, hnext, hrest⟩
    · obtain ⟨items, h | h⟩ := hliteral <;>
        rw [Option.some.inj (hn.symm.trans h)] at hparts <;> cases hparts
    · rw [(hstep next).mp hnext] at hrest
      exact ⟨literal, hrest, hliteral⟩
  · rintro ⟨literal, hreach, hliteral⟩
    exact ⟨literal, hreach.head ((hstep part).mpr rfl), hliteral⟩

/-- Parentheses make no value composite and hide none. -/
theorem composite_unwrapParens_iff : a.Composite (a.unwrapParens id) ↔ a.Composite id := by
  have hinside : ∀ {inner}, Relation.ReflTransGen a.Parenthesizes id inner →
      (a.Composite inner ↔ a.Composite id) := by
    intro inner h
    induction h with
    | refl => rfl
    | tail _ hlast ih => rw [← ih, composite_iff_of_outcomes hlast rfl]
  exact hinside (a.parenthesizes_unwrapParensWithin a.size id)

/-- What is awaited is as composite as the value that is printed in the end. -/
theorem FallsBack.composite_iff (h : a.FallsBack expr last) :
    a.Composite last ↔ a.Composite expr := by
  induction h with
  | printed => exact composite_unwrapParens_iff
  | awaited path found _ ih =>
    rw [ih, ← composite_iff_of_outcomes found rfl, composite_unwrapParens_iff]
  | promised path found plain _ ih =>
    rw [ih, ← composite_iff_of_outcomes found rfl, composite_unwrapParens_iff]

end Arena

/-! ### Runs -/

/-- A value that is printed by its type is rendered as a primitive one. -/
theorem Walker.fragmentOf_of_printsByType {w : Walker} {expr : NodeId} {node : Node}
    (h : w.arena.printsByType expr node = true) : w.fragmentOf expr node = w.primitive expr := by
  cases node with
  | call callee args =>
    have hnone : w.arena.calledIntegration expr = none := Option.isNone_iff_eq_none.mp h
    simp [Walker.fragmentOf, hnone]
  | _ => first | rfl | cases h

/-- Enough levels lead from a value to the one that is printed by its type. -/
private theorem exists_primitive_of_fallbackWithin {p : Program} {dialect : Dialect} {n level : Nat}
    {expr last : NodeId} (h : p.arena.fallbackWithin n expr = some last) (hlevel : n ≤ level) :
    ∃ inner, (p.walkerWithin dialect level).fragment expr =
      (p.walkerWithin dialect inner).primitive last := by
  induction n generalizing level expr with
  | zero => cases h
  | succ n ih =>
    obtain ⟨level, rfl⟩ := Nat.exists_eq_succ_of_ne_zero (n := level) (by omega)
    unfold Arena.fallbackWithin at h
    split at h
    · cases h
    · next hpath =>
      have harena : (p.walkerWithin dialect level).arena = p.arena :=
        p.arena_walkerWithin dialect level
      have hfragment : ∀ node, p.arena.get? (p.arena.unwrapParens expr) = some node →
          (p.walkerWithin dialect (level + 1)).fragment expr =
            (p.walkerWithin dialect level).fragmentOf (p.arena.unwrapParens expr) node := by
        intro node hn
        have hnode : (p.walkerWithin dialect level).node (p.arena.unwrapParens expr) = pure node :=
          Walker.node_eq_pure (by rw [harena]; exact hn)
        show Walker.renderFragment _ expr = _
        unfold Walker.renderFragment
        rw [harena]
        dsimp only
        rw [Option.not_isSome_iff_eq_none.mp hpath]
        dsimp only
        rw [hnode, pure_bind]
      split at h
      · cases h
      · next inner hn =>
        rw [hfragment _ hn]
        exact ih h (by omega)
      · next inner hn =>
        split at h
        · cases h
        · next hplain =>
          rw [hfragment _ hn]
          simp only [Walker.fragmentOf, harena, if_neg hplain]
          exact ih h (by omega)
      · next node _ _ hn =>
        split at h
        · next hprints =>
          cases h
          rw [hfragment _ hn]
          exact ⟨level, Walker.fragmentOf_of_printsByType (harena ▸ hprints)⟩
        · cases h

/-- Whatever is in front of the fallback only passes the value on, one level lower each time. -/
theorem Arena.FallsBack.exists_primitive {p : Program} {expr last : NodeId}
    (h : p.arena.FallsBack expr last) (dialect : Dialect) :
    ∃ level, (p.walker dialect).fragment expr = (p.walkerWithin dialect level).primitive last := by
  obtain ⟨n, hn⟩ := exists_fallbackWithin h
  exact exists_primitive_of_fallbackWithin (fallbackWithin_size hn) (by unfold Program.depth; omega)

/-- Where a value is printed by its type, a literal that the check comes to makes the printing
fail before anything is written.  So a printing that ends well is of a value that may come from
a literal only if it may come from one by an assignment. -/
theorem fallback_refuses_composites {p : Program} {expr last : NodeId}
    (h : p.arena.FallsBack expr last) (direction : Direction) (config : MappingConfig)
    (out : Output) :
    (p.arena.Composite expr →
      ((p.walker (.mapping direction config)).fragment expr).runOn out =
        (.error (.unsupported .composite), out)) ∧
    ∀ text final,
      ((p.walker (.mapping direction config)).fragment expr).runOn out = (.ok text, final) →
        (∃ level value,
          ((p.walkerWithin (.mapping direction config) level).reference last).runOn out =
            (.ok value, final) ∧ text = Text.primitiveDispatch value config.errorStatus) ∧
        ¬ p.arena.Composite expr ∧
        (p.arena.MayBeComposite expr ↔ ∃ assignment value,
          Relation.ReflTransGen p.arena.Followed expr assignment ∧
            p.arena.Stores assignment value ∧ p.arena.MayBeComposite value) := by
  obtain ⟨level, hprimitive⟩ := h.exists_primitive (.mapping direction config)
  rw [hprimitive]
  unfold Walker.primitive
  rw [p.arena_walkerWithin, p.dialect_walkerWithin]
  -- what is passed on in front of the fallback does not matter to the check
  have hcheck : p.arena.isComposite last = true ↔ p.arena.Composite expr :=
    Arena.isComposite_iff.trans h.composite_iff
  by_cases hcomposite : p.arena.Composite expr
  · rw [if_pos (hcheck.mpr hcomposite)]
    exact ⟨fun _ => rfl, fun text final hrun => nomatch hrun⟩
  · rw [if_neg (hcheck.not.mpr hcomposite)]
    refine ⟨fun hc => absurd hc hcomposite, fun text final hrun => ⟨?_, hcomposite, ?_⟩⟩
    · obtain ⟨value, middle, hvalue, hpure⟩ := Render.runOn_bind_eq_ok_iff.mp hrun
      cases hpure
      exact ⟨level, value, hvalue, rfl⟩
    · rw [Arena.mayBeComposite_iff, or_iff_right hcomposite]

/-- The closure `input => { let x; return x = x ?? {}; }`. -/
def Program.storedObject : Program :=
  (Builder.of []
    [.identifier "x", .declaration .let ⟨0⟩ none, .identifier "x", .identifier "x", .object [],
      .binary ⟨3⟩ .coalesce ⟨4⟩, .binary ⟨2⟩ .assign ⟨5⟩, .returnValue (some ⟨6⟩),
      .block [⟨1⟩, ⟨7⟩], .identifier "input", .parameter ⟨9⟩ none, .function [⟨10⟩] ⟨8⟩]).program

theorem Program.storedObject_fallsBack :
    Program.storedObject.arena.FallsBack ⟨5⟩ ⟨5⟩ ∧
      Program.storedObject.arena.FallsBack ⟨6⟩ ⟨6⟩ := by
  have hself : Program.storedObject.arena.unwrapParens ⟨5⟩ = ⟨5⟩ ∧
      Program.storedObject.arena.unwrapParens ⟨6⟩ = ⟨6⟩ := by decide +kernel
  have hchoice := Arena.FallsBack.printed (a := Program.storedObject.arena)
    (by rw [hself.1]; decide +kernel) (by rw [hself.1]; cbv) (by decide +kernel)
  have hstored := Arena.FallsBack.printed (a := Program.storedObject.arena)
    (by rw [hself.2]; decide +kernel) (by rw [hself.2]; cbv) (by decide +kernel)
  exact ⟨hself.1 ▸ hchoice, hself.2 ▸ hstored⟩

/-- The choice is refused, whatever was written before. -/
theorem fallback_refuses_composites_storedObject :
    Program.storedObject.arena.FallsBack ⟨5⟩ ⟨5⟩ ∧ Program.storedObject.arena.Composite ⟨5⟩ ∧
      ∀ out, ((Program.storedObject.walker (.mapping .response {})).fragment ⟨5⟩).runOn out =
        (.error (.unsupported .composite), out) := by
  have hcomposite : Program.storedObject.arena.Composite ⟨5⟩ :=
    Arena.isComposite_iff.mp (by decide +kernel)
  refine ⟨Program.storedObject_fallsBack.1, hcomposite, fun out => ?_⟩
  exact (fallback_refuses_composites Program.storedObject_fallsBack.1 .response {} out).1 hcomposite

/-- The assignment of it is printed by its type, although its value is that of the choice. -/
theorem not_refused_storedObject :
    Program.storedObject.BottomUp ∧ Program.storedObject.arena.FallsBack ⟨6⟩ ⟨6⟩ ∧
      Program.storedObject.arena.MayBeComposite ⟨6⟩ ∧
      (((Program.storedObject.walker (.mapping .response {})).fragment ⟨6⟩).runOn {}).1 =
        .ok (Text.primitiveDispatch "$x" 500) := by
  have hcomposite : Program.storedObject.arena.Composite ⟨5⟩ :=
    Arena.isComposite_iff.mp (by decide +kernel)
  have hstores : Program.storedObject.arena.Stores ⟨6⟩ ⟨5⟩ := ⟨⟨2⟩, .inl (by cbv)⟩
  refine ⟨Builder.bottomUp_of (by decide) (by cbv), Program.storedObject_fallsBack.2, ?_,
    by decide +kernel⟩
  exact Arena.mayBeComposite_iff.mpr (.inr ⟨⟨6⟩, ⟨5⟩, .refl, hstores, hcomposite.mayBeComposite⟩)

end ClosureVtl
