/-
Module: ClosureVtl.Proofs.Closure.Placement
Purpose: Nodes that stand at the same place in two closures with one tree.
Main exports:
  Program.Paired, Program.Placed, Placed.found, Placed.lifts, Placed.alike, Placed.unique
-/
import ClosureVtl.Proofs.Closure.Erasure
import Mathlib.Data.List.Nodup

namespace ClosureVtl

/-!
If two closures have one tree, every node of the one stands where some node of the other
stands.  `Program.Placed` relates the two, starting at the roots and going from part to
part, through the parentheses on either side.  It is a relation between nodes that are no
parentheses themselves, and it relates each of them to one node only.
-/

namespace Program

/-- Two tidy closures with one tree. -/
structure Paired (p p' : Program) (root root' : NodeId) : Prop where
  left : p.Tidy root
  right : p'.Tidy root'
  tree : p.tree root = p'.tree root'

/-- Whether two nodes stand at the same place. -/
inductive Placed (p p' : Program) (root root' : NodeId) : NodeId → NodeId → Prop where
  | root : Placed p p' root root' root root'
  | part {id id' part part' : NodeId} {node node' : Node} {k : Nat}
      (outer : Placed p p' root root' id id') (hn : p.arena.get? id = some node)
      (hn' : p'.arena.get? id' = some node') (hk : node.children[k]? = some part)
      (hk' : node'.children[k]? = some part') :
      Placed p p' root root' (p.arena.unwrapParens part) (p'.arena.unwrapParens part')

/-- Whether two integrations are of one kind. -/
def SameKind (p p' : Program) (id id' : IntegrationId) : Prop :=
  ∃ kind, p.kind? id = some kind ∧ p'.kind? id' = some kind

variable {p p' : Program} {root root' id id' part part' other : NodeId} {node node' : Node}
  {k : Nat}

theorem Paired.symm (hp : p.Paired p' root root') : p'.Paired p root' root :=
  ⟨hp.right, hp.left, hp.tree.symm⟩

theorem Placed.symm (h : p.Placed p' root root' id id') : p'.Placed p root' root id' id := by
  induction h with
  | root => exact .root
  | part _ hn hn' hk hk' ih => exact .part ih hn' hn hk' hk

/-- The tree of a node that is no pair of parentheses. -/
theorem treeWithin_eq (hn : p.arena.get? id = some node)
    (hplain : ∀ expr, p.arena.get? id ≠ some (.paren expr)) (n : Nat) :
    p.treeWithin (n + 1) id =
      .node node.blank (node.integration?.bind p.kind?) (node.children.map (p.treeWithin n)) := by
  rw [treeWithin, Arena.unwrapParens_of_not_paren hplain, hn]

namespace Tidy

/-! ### Around a part -/

/-- Every part is adopted by the node that lists it. -/
theorem parent?_part (h : p.Tidy root) (hn : p.arena.get? id = some node)
    (hk : node.children[k]? = some part) : p.arena.parent? part = some id :=
  h.bottomUp.grown.adopted ⟨node, hn, List.mem_of_getElem? hk⟩ (h.part_lt_size hn hk)

/-- No node lists a part twice. -/
theorem nodup_children (h : p.Tidy root) (hn : p.arena.get? id = some node) :
    node.children.Nodup := by
  rw [List.nodup_iff_count_eq_one]
  intro child hchild
  exact h.bottomUp.grown.once hn hchild (h.parts ⟨node, hn, hchild⟩)

/-- A node is listed at one position. -/
theorem position_unique (h : p.Tidy root) (hn : p.arena.get? id = some node)
    (hk : node.children[k]? = some part) {j : Nat} (hj : node.children[j]? = some part) :
    k = j := by
  obtain ⟨hlt, -⟩ := List.getElem?_eq_some_iff.mp hk
  exact (List.getElem?_inj hlt (h.nodup_children hn)).mp (hk.trans hj.symm)

/-- What does not change on the way out of parentheses is the same inside all of them. -/
theorem apply_unwrapParens {α : Type} (h : p.Tidy root) {f : NodeId → α}
    (hf : ∀ {id expr : NodeId}, p.arena.get? id = some (.paren expr) → f expr = f id)
    (hid : id.index < p.arena.size) : f (p.arena.unwrapParens id) = f id := by
  have ha := h.bottomUp.grown
  induction id, hid using h.induction_through_parens with
  | plain id _ hplain => rw [Arena.unwrapParens_of_not_paren hplain]
  | paren id _ expr _ hn _ ih => rw [ha.unwrapParens_of_paren hn, ih, hf hn]

/-- Parentheses adopt what is inside. -/
theorem ancestors_inside (h : p.Tidy root) {expr : NodeId}
    (hn : p.arena.get? id = some (.paren expr)) :
    p.arena.ancestors expr = id :: p.arena.ancestors id :=
  h.bottomUp.grown.ancestors_of_parent? (h.parent?_part (k := 0) hn rfl)

/-- The ancestors of a part are the node that lists it and the ancestors of that node. -/
theorem ancestors_part (h : p.Tidy root) (hn : p.arena.get? id = some node)
    (hk : node.children[k]? = some part) :
    p.arena.ancestors part = id :: p.arena.ancestors id :=
  h.bottomUp.grown.ancestors_of_parent? (h.parent?_part hn hk)

/-- Only expressions stand in parentheses. -/
theorem unwrapParens_of_not_operand (h : p.Tidy root)
    (hoperand : (p.arena.get? (p.arena.unwrapParens part)).any Node.isOperand = false) :
    p.arena.unwrapParens part = part := by
  apply Arena.unwrapParens_of_not_paren
  intro expr hparen
  rw [h.isOperand_unwrapParens hparen] at hoperand
  cases hoperand

end Tidy

/-! ### The stem of a node -/

/-- The outermost pair of parentheses around a node, or the node itself. -/
def stem (p : Program) (id : NodeId) : NodeId :=
  ((p.arena.ancestors id).takeWhile (Walker.isParen p.arena)).getLast?.getD id

/-- The parentheses around a node belong to its stem, so entering them does not change it. -/
theorem Tidy.stem_unwrapParens (h : p.Tidy root) (hid : id.index < p.arena.size) :
    p.stem (p.arena.unwrapParens id) = p.stem id := by
  apply h.apply_unwrapParens _ hid
  intro id expr hn
  have hparen : Walker.isParen p.arena id = true := by
    unfold Walker.isParen
    rw [hn]
  unfold stem
  rw [h.ancestors_inside hn, List.takeWhile_cons, if_pos hparen, List.getLast?_cons]
  rfl

/-- A part of a node other than parentheses is a stem. -/
theorem Tidy.stem_part (h : p.Tidy root) (hn : p.arena.get? id = some node)
    (hplain : ∀ expr, p.arena.get? id ≠ some (.paren expr)) (hk : node.children[k]? = some part) :
    p.stem part = part := by
  have hparen : ¬ Walker.isParen p.arena id = true := by
    unfold Walker.isParen
    split
    · next expr he => exact absurd he (hplain expr)
    · exact Bool.false_ne_true
  unfold stem
  rw [h.ancestors_part hn hk, List.takeWhile_cons, if_neg hparen]
  rfl

theorem Tidy.stem_root (h : p.Tidy root) : p.stem root = root := by
  unfold stem
  rw [h.bottomUp.grown.ancestors_eq, h.root_top]
  rfl

namespace Placed

/-! ### What is known of nodes at the same place -/

/-- Nodes at the same place are no parentheses and have one tree. -/
private theorem invariant (hp : p.Paired p' root root') (h : p.Placed p' root root' id id') :
    (id.index < p.arena.size ∧ ∀ expr, p.arena.get? id ≠ some (.paren expr)) ∧
      (id'.index < p'.arena.size ∧ ∀ expr, p'.arena.get? id' ≠ some (.paren expr)) ∧
      ∃ n m, id.index ≤ n ∧ id'.index ≤ m ∧
        p.treeWithin (n + 1) id = p'.treeWithin (m + 1) id' := by
  induction h with
  | root =>
    exact ⟨⟨hp.left.root_lt, hp.left.root_plain⟩, ⟨hp.right.root_lt, hp.right.root_plain⟩,
      _, _, Nat.le_of_lt hp.left.root_lt, Nat.le_of_lt hp.right.root_lt, hp.tree⟩
  | @part id id' part part' node node' k outer hn hn' hk hk' ih =>
    obtain ⟨⟨-, hplain⟩, ⟨-, hplain'⟩, n, m, hle, hle', htree⟩ := ih
    have hpart := hp.left.part_lt_size hn hk
    have hpart' := hp.right.part_lt_size hn' hk'
    refine ⟨⟨hp.left.unwrapParens_lt_size hpart,
        hp.left.bottomUp.grown.get?_unwrapParens_ne_paren part⟩,
      ⟨hp.right.unwrapParens_lt_size hpart',
        hp.right.bottomUp.grown.get?_unwrapParens_ne_paren part'⟩, ?_⟩
    have hlt := hp.left.part_lt hn hk
    have hlt' := hp.right.part_lt hn' hk'
    have hin := hp.left.unwrapParens_le hpart
    have hin' := hp.right.unwrapParens_le hpart'
    obtain ⟨n, rfl⟩ := Nat.exists_eq_succ_of_ne_zero (n := n) (by omega)
    obtain ⟨m, rfl⟩ := Nat.exists_eq_succ_of_ne_zero (n := m) (by omega)
    rw [treeWithin_eq hn hplain, treeWithin_eq hn' hplain',
      Tree.node.injEq] at htree
    have hat := congrArg (fun trees => trees[k]?) htree.2.2
    simp only [List.getElem?_map, hk, hk', Option.map_some, Option.some.injEq] at hat
    refine ⟨n, m, by omega, by omega, ?_⟩
    rw [hp.left.treeWithin_unwrapParens, hp.right.treeWithin_unwrapParens, hat]

/-- A node that has a counterpart is in the arena. -/
theorem lt_size (hp : p.Paired p' root root') (h : p.Placed p' root root' id id') :
    id.index < p.arena.size := (h.invariant hp).1.1

/-- It is no pair of parentheses; those have no counterpart. -/
theorem not_paren (hp : p.Paired p' root root') (h : p.Placed p' root root' id id')
    (expr : NodeId) : p.arena.get? id ≠ some (.paren expr) := (h.invariant hp).1.2 expr

/-- So nothing has to be unwrapped. -/
theorem unwrapParens_eq (hp : p.Paired p' root root') (h : p.Placed p' root root' id id') :
    p.arena.unwrapParens id = id :=
  Arena.unwrapParens_of_not_paren (h.not_paren hp)

/-- Nodes at the same place are of one form and refer to integrations of one kind. -/
theorem found (hp : p.Paired p' root root') (h : p.Placed p' root root' id id') :
    ∃ node node', p.arena.get? id = some node ∧ p'.arena.get? id' = some node' ∧
      node.blank = node'.blank ∧
      ∀ called called', node.integration? = some called → node'.integration? = some called' →
        p.SameKind p' called called' := by
  obtain ⟨⟨hlt, hplain⟩, ⟨hlt', hplain'⟩, n, m, -, -, htree⟩ := h.invariant hp
  obtain ⟨node, hn⟩ := Option.isSome_iff_exists.mp (Arena.get?_isSome_iff.mpr hlt)
  obtain ⟨node', hn'⟩ := Option.isSome_iff_exists.mp (Arena.get?_isSome_iff.mpr hlt')
  rw [treeWithin_eq hn hplain, treeWithin_eq hn' hplain',
    Tree.node.injEq] at htree
  refine ⟨node, node', hn, hn', htree.1, fun called called' hc hc' => ?_⟩
  have hkinds := htree.2.1
  rw [hc, hc', Option.bind_some, Option.bind_some] at hkinds
  obtain ⟨kind, hkind⟩ := Option.isSome_iff_exists.mp (hp.left.integrations hn hc)
  exact ⟨kind, hkind, hkinds ▸ hkind⟩

/-- Nodes at the same place lift if their parts do. -/
theorem lifts (hp : p.Paired p' root root') (h : p.Placed p' root root' id id')
    {c : Correspondence}
    (hvalue : ∀ part part', p.arena.Lists id part → p'.arena.Lists id' part' →
      p.Placed p' root root' (p.arena.unwrapParens part) (p'.arena.unwrapParens part') →
        c.value part part')
    (hnode : ∀ part part', p.arena.Lists id part → p'.arena.Lists id' part' →
      p.Placed p' root root' part part' → c.node part part')
    (hintegration : ∀ called called', p.SameKind p' called called' →
      c.integration called called') :
    ∃ node node', p.arena.get? id = some node ∧ p'.arena.get? id' = some node' ∧
      node.Lifts c node' := by
  obtain ⟨node, node', hn, hn', hblank, hkinds⟩ := h.found hp
  refine ⟨node, node', hn, hn', Node.lifts_of_blank_eq hblank ?_ ?_ ?_⟩
  · intro k part part' hk hk' _
    exact hvalue part part' ⟨node, hn, List.mem_of_getElem? hk⟩
      ⟨node', hn', List.mem_of_getElem? hk'⟩ (.part h hn hn' hk hk')
  · intro k part part' hk hk' hposition
    have hplaced := Placed.part h hn hn' hk hk'
    rw [hp.left.unwrapParens_part hn hk hposition, hp.right.unwrapParens_part hn' hk'
      ((Node.isValueAt_of_blank_eq hblank k).symm.trans hposition)] at hplaced
    exact hnode part part' ⟨node, hn, List.mem_of_getElem? hk⟩
      ⟨node', hn', List.mem_of_getElem? hk'⟩ hplaced
  · exact fun called called' hc hc' => hintegration called called' (hkinds called called' hc hc')

/-- The parts of two nodes, told apart by whether they are values. -/
def parts (p p' : Program) (root root' id id' : NodeId) : Correspondence where
  own := p.Placed p' root root'
  node part part' := p.arena.Lists id part ∧ p'.arena.Lists id' part' ∧
    p.Placed p' root root' part part'
  value part part' := p.arena.Lists id part ∧ p'.arena.Lists id' part' ∧
    p.Placed p' root root' (p.arena.unwrapParens part) (p'.arena.unwrapParens part')
  integration := p.SameKind p'
  calls _ _ _ := False

/-- Nodes at the same place are of one form, with parts at the same places. -/
theorem alike (hp : p.Paired p' root root') (h : p.Placed p' root root' id id') :
    ∃ node node', p.arena.get? id = some node ∧ p'.arena.get? id' = some node' ∧
      node.Lifts (parts p p' root root' id id') node' :=
  h.lifts hp (fun _ _ hl hl' hplaced => ⟨hl, hl', hplaced⟩)
    (fun _ _ hl hl' hplaced => ⟨hl, hl', hplaced⟩) fun _ _ hkind => hkind

/-- Nodes at the same place have parts at the same place, one by one. -/
theorem alike_of_get? (hp : p.Paired p' root root') (h : p.Placed p' root root' id id')
    (hn : p.arena.get? id = some node) (hn' : p'.arena.get? id' = some node') :
    node.Lifts (parts p p' root root' id id') node' := by
  obtain ⟨other, other', hother, hother', hlifts⟩ := h.alike hp
  rwa [Option.some.inj (hn.symm.trans hother), Option.some.inj (hn'.symm.trans hother')]

/-- They also agree on everything that is not a part. -/
theorem blank_eq (hp : p.Paired p' root root') (h : p.Placed p' root root' id id')
    (hn : p.arena.get? id = some node) (hn' : p'.arena.get? id' = some node') :
    node.blank = node'.blank := by
  obtain ⟨other, other', hother, hother', hblank, -⟩ := h.found hp
  rwa [Option.some.inj (hn.symm.trans hother), Option.some.inj (hn'.symm.trans hother')]

/-- A node stands where the root does, or is a part. -/
theorem inversion (h : p.Placed p' root root' id id') :
    (id = root ∧ id' = root') ∨
      ∃ (outer outer' part part' : NodeId) (node node' : Node) (k : Nat),
        p.Placed p' root root' outer outer' ∧
        p.arena.get? outer = some node ∧ p'.arena.get? outer' = some node' ∧
        node.children[k]? = some part ∧ node'.children[k]? = some part' ∧
        id = p.arena.unwrapParens part ∧ id' = p'.arena.unwrapParens part' := by
  cases h with
  | root => exact .inl ⟨rfl, rfl⟩
  | part outer hn hn' hk hk' =>
    exact .inr ⟨_, _, _, _, _, _, _, outer, hn, hn', hk, hk', rfl, rfl⟩

/-- A part that is reached through parentheses has the outermost of them as its stem. -/
private theorem stem_part (hp : p.Paired p' root root') (outer : p.Placed p' root root' id id')
    (hn : p.arena.get? id = some node) (hk : node.children[k]? = some part) :
    p.stem (p.arena.unwrapParens part) = part := by
  rw [hp.left.stem_unwrapParens (hp.left.part_lt_size hn hk),
    hp.left.stem_part hn (outer.not_paren hp) hk]

/-- A part is never the root, with or without its parentheses. -/
private theorem part_ne_root (hp : p.Paired p' root root')
    (outer : p.Placed p' root root' id id') (hn : p.arena.get? id = some node)
    (hk : node.children[k]? = some part) : p.arena.unwrapParens part ≠ root := by
  intro heq
  have hparent := hp.left.parent?_part hn hk
  rw [← outer.stem_part hp hn hk, heq, hp.left.stem_root, hp.left.root_top] at hparent
  cases hparent

/-- A node stands at the place of one node only. -/
theorem unique (hp : p.Paired p' root root') (h : p.Placed p' root root' id id')
    (hother : p.Placed p' root root' id other) : id' = other := by
  induction h generalizing other with
  | root =>
    rcases hother.inversion with ⟨-, rfl⟩ | ⟨_, _, _, _, _, _, _, outer, hn, -, hk, -, heq, -⟩
    · rfl
    · exact absurd heq.symm (outer.part_ne_root hp hn hk)
  | @part id id' part part' node node' k outer hn hn' hk hk' ih =>
    rcases hother.inversion with ⟨heq, -⟩ |
      ⟨id₂, id₂', part₂, part₂', node₂, node₂', k₂, outer₂, hn₂, hn₂', hk₂, hk₂', heq, rfl⟩
    · exact absurd heq (outer.part_ne_root hp hn hk)
    · obtain rfl : part = part₂ := by
        rw [← outer.stem_part hp hn hk, heq, outer₂.stem_part hp hn₂ hk₂]
      obtain rfl : id = id₂ := Option.some.inj
        ((hp.left.parent?_part hn hk).symm.trans (hp.left.parent?_part hn₂ hk₂))
      obtain rfl := ih outer₂
      obtain rfl : node = node₂ := Option.some.inj (hn.symm.trans hn₂)
      obtain rfl : node' = node₂' := Option.some.inj (hn'.symm.trans hn₂')
      obtain rfl := hp.left.position_unique hn hk hk₂
      rw [Option.some.inj (hk'.symm.trans hk₂')]

/-- Whether two nodes are one can be decided on either side. -/
theorem beq_eq (hp : p.Paired p' root root') (h : p.Placed p' root root' id id')
    (hother : p.Placed p' root root' part part') : (id == part) = (id' == part') := by
  rw [Bool.eq_iff_iff, beq_iff_eq, beq_iff_eq]
  constructor
  · rintro rfl
    exact h.unique hp hother
  · rintro rfl
    exact h.symm.unique hp.symm hother.symm

end Placed

end Program

end ClosureVtl
