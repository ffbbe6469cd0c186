/-
Module: ClosureVtl.Proofs.Closure.Forest
Purpose: When the nodes of a finished program form a forest.
Main exports:
  Arena.IsForest, isForest_iff
-/
import Mathlib.Algebra.BigOperators.Fin
import Mathlib.Data.List.Duplicate
import ClosureVtl.Proofs.Closure.Descent

namespace ClosureVtl

/-!
Walks towards the leaves end and walks towards the root find every scope when the
nodes form a forest: each node hangs below one node at most, its parent link says
which, and no node hangs below itself.

Building alone does not promise this.  A node that is listed before it exists is
passed over in silence, and the handle comes to life once enough nodes were added:
its parent link is then missing, or names a second node that lists it, or it lies
below itself.  A finished program is a forest exactly if every child that exists is
older than the nodes that list it.
-/

namespace Arena

/-- The handles that the nodes list, node by node. -/
def listed (a : Arena) : List NodeId :=
  a.entries.toList.flatMap fun entry => entry.node.children

/-- Whether the nodes form a forest, with the parent links as its edges.  Handles that
lead nowhere are no part of it. -/
structure IsForest (a : Arena) : Prop where
  /-- A child knows the node that lists it. -/
  adopted : ∀ {parent child : NodeId}, a.Lists parent child → child.index < a.size →
    a.parent? child = some parent
  /-- A node is listed once at most, all nodes together. -/
  once : ∀ {child : NodeId}, child.index < a.size → a.listed.count child ≤ 1
  /-- No node hangs below itself. -/
  acyclic : ∀ id : NodeId, ¬ Relation.TransGen a.Lists id id

variable {a : Arena} {parent child id : NodeId}

/-- A handle is listed as often as it occurs in the nodes one by one. -/
theorem count_listed (a : Arena) (child : NodeId) :
    a.listed.count child =
      ∑ i : Fin a.entries.toList.length, a.entries.toList[i.val].node.children.count child := by
  rw [listed, List.count_flatMap]
  exact (Fin.sum_univ_fun_getElem a.entries.toList
    fun entry => entry.node.children.count child).symm

/-- A grown arena lists each of its nodes once at most. -/
theorem Grown.count_listed_le (ha : a.Grown) (hlt : child.index < a.size) :
    a.listed.count child ≤ 1 := by
  have hget : ∀ i : Fin a.entries.toList.length,
      a.get? ⟨i.val⟩ = some a.entries.toList[i.val].node := fun i => by
    simp [get?]
  rw [a.count_listed]
  by_cases hparent : ∃ i : Fin a.entries.toList.length,
      child ∈ a.entries.toList[i.val].node.children
  · obtain ⟨i, hi⟩ := hparent
    -- whatever lists the child is its one parent
    have hother : ∀ j ∈ Finset.univ, j ≠ i →
        a.entries.toList[j.val].node.children.count child = 0 := by
      intro j _ hj
      rw [List.count_eq_zero]
      intro hm
      have hpi := ha.adopted ⟨_, hget i, hi⟩ hlt
      have hpj := ha.adopted ⟨_, hget j, hm⟩ hlt
      rw [hpi] at hpj
      exact hj (Fin.ext (congrArg NodeId.index (Option.some.inj hpj)).symm)
    rw [Finset.sum_eq_single i hother fun hi => absurd (Finset.mem_univ i) hi]
    exact Nat.le_of_eq (ha.once (hget i) hi hlt)
  · rw [Finset.sum_eq_zero fun i _ => List.count_eq_zero.mpr fun hm => hparent ⟨i, hm⟩]
    exact Nat.zero_le _

/-- Whatever hangs below a node of a grown arena is older, if it exists. -/
theorem Grown.lt_of_transGen (ha : a.Grown) (h : Relation.TransGen a.Lists parent child)
    (hlt : child.index < a.size) : child.index < parent.index := by
  induction h with
  | single hl => exact ha.older hl hlt
  | tail hbelow hl ih =>
    have hmid := ih hl.lt_size
    exact Nat.lt_trans (ha.older hl hlt) hmid

theorem Grown.isForest (ha : a.Grown) : a.IsForest where
  adopted := ha.adopted
  once := ha.count_listed_le
  acyclic id h := by
    obtain ⟨child, hl, -⟩ := Relation.TransGen.head'_iff.mp h
    exact Nat.lt_irrefl _ (ha.lt_of_transGen h hl.lt_size)

end Arena

/-- A finished program is a forest exactly if each child that exists is older than the
node that lists it. -/
theorem isForest_iff {b : Builder} {p : Program} (made : b.Made) (hf : b.finish = .ok p) :
    p.arena.IsForest ↔ ∀ parent child : NodeId, p.arena.Lists parent child →
      child.index < p.arena.size → child.index < parent.index := by
  constructor
  · intro hforest parent child hl hlt
    have harena : b.arena = p.arena := by
      unfold Builder.finish at hf
      split at hf <;> cases hf
      rfl
    have hparent := hforest.adopted hl hlt
    rw [← harena] at hparent
    exact (made.parent?_eq_some_iff.mp hparent).1
  · intro holder
    have hp : p.BottomUp := ⟨⟨b, made, hf⟩, holder _ _⟩
    exact hp.grown.isForest

/-- The program of `pluck` is a forest. -/
theorem isForest_iff_pluck :
    ∃ b : Builder, b.Made ∧ b.finish = .ok Program.pluck ∧ Program.pluck.arena.IsForest := by
  obtain ⟨b, made, hf⟩ := Program.bottomUp_pluck.finished
  exact ⟨b, made, hf, (isForest_iff made hf).mpr fun _ _ => Program.bottomUp_pluck.older⟩

/-- Two pairs of parentheses around one literal, the first of them older than the
literal: the first is passed over, and the second adopts the literal. -/
def Program.early : Program :=
  (Builder.of [] [.paren ⟨1⟩, .null, .paren ⟨1⟩]).program

/-- The literal is listed twice, and one of the nodes that list it is not its parent. -/
theorem not_isForest_early :
    (Builder.of [] [.paren ⟨1⟩, .null, .paren ⟨1⟩]).finish = .ok Program.early ∧
      Program.early.arena.listed.count ⟨1⟩ = 2 ∧ ¬ Program.early.arena.IsForest := by
  have hcount : Program.early.arena.listed.count ⟨1⟩ = 2 := by decide
  refine ⟨rfl, hcount, fun hforest => ?_⟩
  have hsize : (⟨1⟩ : NodeId).index < Program.early.arena.size := by decide
  have honce := hforest.once hsize
  omega

/-- Parentheses around themselves are passed over as well: building finishes, and they
hang below themselves. -/
example : ∃ p, (Builder.of [] [.paren ⟨0⟩]).finish = .ok p ∧ p.arena.Lists ⟨0⟩ ⟨0⟩ :=
  ⟨_, rfl, _, rfl, List.mem_singleton.mpr rfl⟩

end ClosureVtl
