/-
Module: ClosureVtl.Proofs.Closure.Subtree
Purpose: Subtrees, the calls in them, and weights that a node shares out among its parts.
Main exports:
  Arena.subtree, Arena.Grown.subtree_perm, Arena.callCount, Arena.Weighs,
  Arena.Grown.weighs_callCount
-/
import Mathlib.Algebra.BigOperators.Group.List.Basic
import Mathlib.Algebra.Order.BigOperators.Group.List
import Mathlib.Algebra.Order.Ring.Nat
import ClosureVtl.Proofs.Closure.Termination

namespace ClosureVtl

/-!
The subtrees of the parts of a node have nothing in common, since each node hangs below one
node only and is listed there once.  With the node itself they are its subtree, so the calls
that are counted in them add up to those in the subtree of the node.

That is more than is needed to show that a rendering which goes into each part once meets no
call twice.  For this it is put as a property of weights: no node weighs less than its parts
together.
-/

/-- What satisfies one of two conditions is counted at least once if both are counted. -/
theorem countP_or_le {α : Type} (items : List α) (p q : α → Bool) :
    (items.countP fun item => p item || q item) ≤ items.countP p + items.countP q := by
  induction items with
  | nil => exact Nat.le_refl _
  | cons item rest ih =>
    simp only [List.countP_cons]
    cases p item <;> cases q item <;> simp <;> omega

theorem sum_ite_eq_countP {α : Type} (items : List α) (p : α → Bool) :
    (items.map fun item => if p item then 1 else 0).sum = items.countP p := by
  induction items with
  | nil => rfl
  | cons item rest ih =>
    rw [List.map_cons, List.sum_cons, List.countP_cons, ih, Nat.add_comm]

namespace Arena

/-- The handles of all nodes. -/
def handles (a : Arena) : List NodeId := (List.range a.size).map NodeId.mk

/-- Whether a node is another one or hangs below it. -/
def isWithin (a : Arena) (root id : NodeId) : Bool := id == root || (a.ancestors id).contains root

/-- The nodes at and below a node. -/
def subtree (a : Arena) (root : NodeId) : List NodeId := a.handles.filter (a.isWithin root)

/-- Whether a node is a call of an integration. -/
def isCallOf (a : Arena) (called : IntegrationId) (id : NodeId) : Bool :=
  match a.get? id with
  | some (.call callee _) => a.resolveIntegration callee == some called
  | _ => false

/-- The number of calls of an integration at and below a node. -/
def callCount (a : Arena) (called : IntegrationId) (root : NodeId) : Nat :=
  (a.subtree root).countP (a.isCallOf called)

variable {a : Arena} {root id part parent : NodeId} {node : Node}

/-- A call counts for an integration if its callee resolves to it. -/
theorem isCallOf_eq_true_iff {called : IntegrationId} : a.isCallOf called id = true ↔
    ∃ callee args, a.get? id = some (.call callee args) ∧
      a.resolveIntegration callee = some called := by
  unfold isCallOf
  split
  · next hn => simp [hn]
  · next hno => simpa using fun callee args hn => absurd hn (hno callee args)

theorem mem_handles_iff : id ∈ a.handles ↔ id.index < a.size := by
  simp only [handles, List.mem_map, List.mem_range]
  constructor
  · rintro ⟨index, hlt, rfl⟩
    exact hlt
  · exact fun hlt => ⟨id.index, hlt, rfl⟩

theorem nodup_handles (a : Arena) : a.handles.Nodup :=
  List.nodup_range.map fun _ _ h => (NodeId.mk.injEq _ _).mp h

theorem nodup_subtree (a : Arena) (root : NodeId) : (a.subtree root).Nodup :=
  a.nodup_handles.filter _

/-- A subtree has each of its nodes once. -/
theorem count_subtree (hid : id.index < a.size) :
    (a.subtree root).count id = if a.isWithin root id then 1 else 0 := by
  split
  · next hwithin =>
    apply List.count_eq_one_of_mem (a.nodup_subtree root)
    exact List.mem_filter.mpr ⟨mem_handles_iff.mpr hid, hwithin⟩
  · next hwithin =>
    rw [List.count_eq_zero]
    exact fun hm => hwithin (List.mem_filter.mp hm).2

/-! ### Towards the root -/

namespace Grown

/-- A node without parent is within itself only. -/
theorem isWithin_of_orphan (ha : a.Grown) (hp : a.parent? id = none) :
    a.isWithin root id = (id == root) := by
  rw [isWithin, ha.ancestors_of_orphan hp]
  simp

/-- A node is within another one if it is that one, or if its parent is within that one. -/
theorem isWithin_of_parent? (ha : a.Grown) (hp : a.parent? id = some parent) :
    a.isWithin root id = (id == root || a.isWithin root parent) := by
  rw [isWithin, isWithin, ha.ancestors_of_parent? hp, List.contains_cons, BEq.comm (a := root)]

theorem isWithin_self (a : Arena) (id : NodeId) : a.isWithin id id = true := by
  simp [isWithin]

/-- Whatever is within a node is no younger. -/
theorem le_of_isWithin (ha : a.Grown) (h : a.isWithin root id = true) : id.index ≤ root.index := by
  induction id using ha.induction_to_root with
  | root id hp =>
    rw [ha.isWithin_of_orphan hp, beq_iff_eq] at h
    rw [h]
  | step child parent hp ih =>
    rw [ha.isWithin_of_parent? hp, Bool.or_eq_true, beq_iff_eq] at h
    rcases h with rfl | h
    · exact Nat.le_refl _
    · exact (Nat.le_of_lt (ha.lt_parent hp)).trans (ih h)

/-- Nothing is within a handle that leads nowhere, but the handle itself. -/
theorem lt_size_of_isWithin (ha : a.Grown) (h : a.isWithin root id = true) (hid : id.index < a.size) :
    root.index < a.size := by
  induction id using ha.induction_to_root with
  | root id hp =>
    rw [ha.isWithin_of_orphan hp, beq_iff_eq] at h
    rwa [← h]
  | step child parent hp ih =>
    rw [ha.isWithin_of_parent? hp, Bool.or_eq_true, beq_iff_eq] at h
    rcases h with rfl | h
    · exact hid
    · exact ih h (ha.parent_lt_size hp)

/-- There is a way down to whatever is within a node. -/
theorem below_of_isWithin (ha : a.Grown) (h : a.isWithin root id = true) : a.Below root id := by
  induction id using ha.induction_to_root with
  | root id hp =>
    rw [ha.isWithin_of_orphan hp, beq_iff_eq] at h
    rw [h]
    exact .self root
  | step child parent hp ih =>
    rw [ha.isWithin_of_parent? hp, Bool.or_eq_true, beq_iff_eq] at h
    rcases h with rfl | h
    · exact .self child
    · exact (ih h).trans (.part (ha.lists hp) (.self child))

/-- Whoever contains a part contains what is below it. -/
theorem isWithin_of_below (ha : a.Grown) (hbelow : a.Below part id) (hid : id.index < a.size)
    (hpart : a.isWithin root part = true) : a.isWithin root id = true := by
  induction hbelow with
  | self => exact hpart
  | @part part inner id hl hbelow ih =>
    have hinner : inner.index < a.size := by
      cases hbelow with
      | self => exact hid
      | part hl _ => exact hl.lt_size
    apply ih hid
    rw [ha.isWithin_of_parent? (ha.adopted hl hinner), hpart, Bool.or_true]

/-- The nodes at and below a node are those to which there is a way down. -/
theorem mem_subtree_iff (ha : a.Grown) :
    id ∈ a.subtree root ↔ id.index < a.size ∧ a.Below root id := by
  rw [subtree, List.mem_filter, mem_handles_iff]
  exact and_congr_right fun hid =>
    ⟨ha.below_of_isWithin, fun hbelow => ha.isWithin_of_below hbelow hid (isWithin_self a root)⟩

/-- There is nothing at or below a handle that leads nowhere. -/
theorem subtree_of_dangling (ha : a.Grown) (hn : a.get? root = none) : a.subtree root = [] := by
  rw [List.eq_nil_iff_forall_not_mem]
  intro id hm
  obtain ⟨hm, hwithin⟩ := List.mem_filter.mp hm
  have hroot := ha.lt_size_of_isWithin hwithin (mem_handles_iff.mp hm)
  have hsize := get?_eq_none_iff.mp hn
  omega

/-! ### Parts -/

/-- No node is within a part of itself. -/
theorem not_isWithin_part (ha : a.Grown) (hn : a.get? id = some node) (hm : part ∈ node.children) :
    ¬ a.isWithin part id = true := by
  intro hwithin
  have hle := ha.le_of_isWithin hwithin
  have holder := ha.older ⟨node, hn, hm⟩ (ha.lt_size_of_isWithin hwithin (lt_size_of_get? hn))
  omega

/-- Of all nodes only the parent lists a node, and it does once. -/
theorem count_children (ha : a.Grown) (hn : a.get? root = some node) (hid : id.index < a.size) :
    node.children.count id = if a.parent? id = some root then 1 else 0 := by
  split
  · next hp => exact ha.once hn ((ha.lists hp).mem_children hn) hid
  · next hp =>
    rw [List.count_eq_zero]
    exact fun hm => hp (ha.adopted ⟨node, hn, hm⟩ hid)

/-- A node within another one is that one or within one of its parts, and within one only. -/
theorem countP_isWithin_le (ha : a.Grown) (hn : a.get? root = some node) (hid : id.index < a.size) :
    (if id = root then 1 else 0) + node.children.countP (fun part => a.isWithin part id) ≤
      if a.isWithin root id then 1 else 0 := by
  induction id using ha.induction_to_root with
  | root id hp =>
    have hcount := ha.count_children hn hid
    rw [if_neg (by simp [hp]), List.count_eq_countP] at hcount
    simp only [ha.isWithin_of_orphan hp, BEq.comm (a := id), beq_iff_eq, hcount]
    simp [eq_comm]
  | step child parent hp ih =>
    by_cases hchild : child = root
    · subst hchild
      have hnone : node.children.countP (fun part => a.isWithin part child) = 0 :=
        List.countP_eq_zero.mpr fun part hm => ha.not_isWithin_part hn hm
      rw [if_pos rfl, if_pos (isWithin_self a child), hnone]
    · have hup := ih (ha.parent_lt_size hp)
      have hcount := ha.count_children hn hid
      have hsplit := countP_or_le node.children (· == child) fun part => a.isWithin part parent
      have hwithin : a.isWithin root child = a.isWithin root parent := by
        rw [ha.isWithin_of_parent? hp, beq_eq_false_iff_ne.mpr hchild, Bool.false_or]
      rw [hp, List.count_eq_countP] at hcount
      simp only [Option.some.injEq] at hcount
      rw [if_neg hchild, hwithin]
      simp only [ha.isWithin_of_parent? hp, BEq.comm (a := child)]
      omega

/-- A node within another one is that one or within a single one of its parts. -/
theorem countP_isWithin (ha : a.Grown) (hn : a.get? root = some node) (hid : id.index < a.size) :
    (if id = root then 1 else 0) + node.children.countP (fun part => a.isWithin part id) =
      if a.isWithin root id then 1 else 0 := by
  apply Nat.le_antisymm (ha.countP_isWithin_le hn hid)
  split
  · next hwithin =>
    cases ha.below_of_isWithin hwithin with
    | self =>
      rw [if_pos rfl]
      exact Nat.le_add_right _ _
    | part hl hbelow =>
      have hpart := ha.isWithin_of_below hbelow hid (isWithin_self a _)
      have hpos : 0 < node.children.countP fun part => a.isWithin part id :=
        List.countP_pos_iff.mpr ⟨_, hl.mem_children hn, hpart⟩
      omega
  · exact Nat.zero_le _

/-- A subtree is its root and the subtrees of the parts, without overlap. -/
theorem subtree_perm (ha : a.Grown) (hn : a.get? root = some node) :
    (a.subtree root).Perm (root :: node.children.flatMap a.subtree) := by
  rw [List.perm_iff_count]
  intro id
  by_cases hid : id.index < a.size
  · have hparts : (node.children.map (List.count id ∘ a.subtree)).sum =
        node.children.countP fun part => a.isWithin part id := by
      rw [← sum_ite_eq_countP]
      exact congrArg List.sum (List.map_congr_left fun part _ => count_subtree hid)
    rw [List.count_cons, List.count_flatMap, count_subtree hid, hparts, Nat.add_comm,
      ← ha.countP_isWithin hn hid, BEq.comm (a := root)]
    simp only [beq_iff_eq]
  · have hnone : ∀ top, id ∉ a.subtree top := fun top hm => hid (ha.mem_subtree_iff.mp hm).1
    have hroot : id ≠ root := fun h => hid (h ▸ lt_size_of_get? hn)
    rw [List.count_eq_zero.mpr (hnone root), List.count_eq_zero.mpr]
    simp [hnone, hroot]

/-- So the calls at and below a node are the node, if it is one, and those in its parts. -/
theorem callCount_eq (ha : a.Grown) (hn : a.get? root = some node) (called : IntegrationId) :
    a.callCount called root =
      (if a.isCallOf called root then 1 else 0) + (node.children.map (a.callCount called)).sum := by
  rw [callCount, (ha.subtree_perm hn).countP_eq, List.countP_cons, List.countP_flatMap,
    Nat.add_comm]
  rfl

end Grown

/-! ### Weights -/

/-- Whether no node of a grown arena weighs less than its parts together. -/
structure Weighs (a : Arena) (weight : NodeId → Nat) : Prop where
  grown : a.Grown
  parts_le : ∀ {id : NodeId} {node : Node}, a.get? id = some node →
    (node.children.map weight).sum ≤ weight id

/-- The calls of an integration weigh on the nodes around them. -/
theorem Grown.weighs_callCount (ha : a.Grown) (called : IntegrationId) :
    a.Weighs (a.callCount called) where
  grown := ha
  parts_le hn := (Nat.le_add_left _ _).trans_eq (ha.callCount_eq hn called).symm

end Arena

/-- What the callback of a list operation weighs. -/
def ListCall.callbackWeight (weight : NodeId → Nat) (c : ListCall) : Nat :=
  (c.parameters.map weight).sum + weight c.body

/-- What a list operation weighs without its further arguments. -/
def ListCall.totalWeight (weight : NodeId → Nat) (c : ListCall) : Nat :=
  weight c.receiver + c.callbackWeight weight

namespace Arena.Weighs

variable {a : Arena} {weight : NodeId → Nat} {id part expr : NodeId} {args : List NodeId}
  {stage : ListCall}

/-- A node weighs at least as much as each of its parts. -/
theorem part_le (h : a.Weighs weight) (hl : a.Lists id part) : weight part ≤ weight id := by
  obtain ⟨node, hn, hm⟩ := hl
  exact (List.le_sum_of_mem (List.mem_map_of_mem hm)).trans (h.parts_le hn)

/-- By induction it weighs at least as much as all that is below it. -/
theorem below_le (h : a.Weighs weight) (hb : a.Below id part) : weight part ≤ weight id := by
  induction hb with
  | self => exact Nat.le_refl _
  | part hl _ ih => exact ih.trans (h.part_le hl)

/-- What is inside parentheses weighs no more than they do. -/
theorem unwrapParens_le (h : a.Weighs weight) (id : NodeId) :
    weight (a.unwrapParens id) ≤ weight id :=
  h.below_le (below_unwrapParens _ id)

theorem argumentExpr_le (h : a.Weighs weight) (id : NodeId) :
    weight (a.argumentExpr id) ≤ weight id :=
  h.below_le (below_argumentExpr _ id)

/-- Taking arguments for what they stand for makes them no heavier. -/
theorem argumentExprs_le (h : a.Weighs weight) (args : List NodeId) :
    ((args.map a.argumentExpr).map weight).sum ≤ (args.map weight).sum := by
  rw [List.map_map]
  exact List.sum_le_sum fun id _ => h.argumentExpr_le id

/-- A callback weighs no more than the first argument. -/
theorem callback_le (h : a.Weighs weight) {parameters : List NodeId} {body : NodeId}
    (hc : a.callback? args = some (parameters, body)) :
    (parameters.map weight).sum + weight body + (args.tail.map weight).sum ≤
      (args.map weight).sum := by
  unfold callback? at hc
  split at hc
  · cases hc
  · next first rest =>
    split at hc
    · next hn =>
      cases hc
      have hfunction := (h.parts_le hn).trans (h.argumentExpr_le first)
      simp only [Node.children, List.map_append, List.map_cons, List.map_nil, List.sum_append,
        List.sum_cons, List.sum_nil, List.tail_cons] at hfunction ⊢
      omega
    · cases hc

/-- A stage weighs no more than the expression that it is. -/
theorem mapStage_le (h : a.Weighs weight) (hs : a.mapStage? expr = some stage) :
    stage.totalWeight weight ≤ weight expr := by
  have hexpr := h.unwrapParens_le expr
  unfold mapStage? at hs
  split at hs
  · next callee args hn =>
    have hcall := h.parts_le hn
    split at hs
    · cases hs
    · split at hs
      · next receiver parameters body hmember hcallback =>
        cases hs
        have hmember := h.parts_le hmember
        have hcallee := h.unwrapParens_le callee
        have hcallback := h.callback_le hcallback
        simp only [ListCall.totalWeight, ListCall.callbackWeight, Node.children, List.map_cons,
          List.map_nil, List.sum_cons, List.sum_nil] at hcall hmember ⊢
        omega
      · cases hs
  · cases hs

/-- A chain takes an expression apart into callbacks and the source, without overlap. -/
theorem fusedChain_le (h : a.Weighs weight) (expr : NodeId) (readsList : Bool) :
    ((a.fusedChain expr readsList).1.map (ListCall.callbackWeight weight)).sum +
      weight (a.fusedChain expr readsList).2 ≤ weight expr := by
  have hwithin : ∀ n expr, ((a.fusedChainWithin n expr).1.map (ListCall.callbackWeight weight)).sum +
      weight (a.fusedChainWithin n expr).2 ≤ weight expr := by
    intro n
    induction n with
    | zero => simp [fusedChainWithin]
    | succ n ih =>
      intro expr
      rw [fusedChainWithin]
      split
      · simp
      · next stage hs =>
        split
        · simp
        · have hstage := h.mapStage_le hs
          have hinner := ih stage.receiver
          simp only [ListCall.totalWeight] at hstage
          simp only [List.map_cons, List.sum_cons]
          omega
  unfold fusedChain
  split
  · simp
  · exact hwithin a.size expr

end Arena.Weighs

end ClosureVtl
