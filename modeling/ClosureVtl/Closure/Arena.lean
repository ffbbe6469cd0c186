/-
Module: ClosureVtl.Closure.Arena
Purpose: Closure bodies as arenas of nodes with parent links.
Main exports:
  Entry, Arena, Arena.get?, Arena.node, Arena.parent?, Arena.ancestors,
  Arena.unwrapParens, Arena.argumentExpr
-/
import ClosureVtl.Fault

namespace ClosureVtl

/-!
An arena stores its nodes in the order in which they were made.  Each entry also
keeps the node that adopted it, so that names can be resolved outwards.

A handle may dangle.  `get?` says so by `none`; `node` is for places where every
handle is promised to lead somewhere, and reports a breach.

Walks along handles are bounded by the number of nodes: a walk that is longer
visits some node twice and would never end.
-/

/-- A node and the node that adopted it. -/
structure Entry where
  node : Node
  parent : Option NodeId := none
deriving Inhabited

/-- The nodes of a closure body. -/
structure Arena where
  entries : Array Entry := #[]
deriving Inhabited

namespace Arena

/-- The number of nodes. -/
def size (a : Arena) : Nat := a.entries.size

/-- Whether there are no nodes. -/
def isEmpty (a : Arena) : Bool := a.size == 0

/-- The node behind a handle. -/
def get? (a : Arena) (id : NodeId) : Option Node :=
  a.entries[id.index]?.map Entry.node

/-- The node behind a handle that is promised to lead somewhere. -/
def node (a : Arena) (id : NodeId) : Except Fault Node :=
  match a.get? id with
  | some node => .ok node
  | none => .error (.breach (.dangling id))

/-- The node that adopted a node. -/
def parent? (a : Arena) (id : NodeId) : Option NodeId :=
  a.entries[id.index]?.bind Entry.parent

/-- At most `n` parents of a node, innermost first. -/
def ancestorsWithin (a : Arena) : Nat → NodeId → List NodeId
  | 0, _ => []
  | n + 1, id =>
    match a.parent? id with
    | none => []
    | some parent => parent :: a.ancestorsWithin n parent

/-- The parents of a node, innermost first. -/
def ancestors (a : Arena) (id : NodeId) : List NodeId :=
  a.ancestorsWithin a.size id

/-- Skips at most `n` pairs of parentheses. -/
def unwrapParensWithin (a : Arena) : Nat → NodeId → NodeId
  | 0, id => id
  | n + 1, id =>
    match a.get? id with
    | some (.paren expr) => a.unwrapParensWithin n expr
    | _ => id

/-- The expression inside any number of parentheses. -/
def unwrapParens (a : Arena) (id : NodeId) : NodeId :=
  a.unwrapParensWithin a.size id

/-- The expression of a call argument, without its wrapper and parentheses. -/
def argumentExpr (a : Arena) (id : NodeId) : NodeId :=
  match a.get? id with
  | some (.argument expr _) => a.unwrapParens expr
  | _ => a.unwrapParens id

/-- Whether a node is an inline function, the form of a callback. -/
def isFunction (a : Arena) (id : NodeId) : Bool :=
  match a.get? id with
  | some (.function ..) => true
  | _ => false

/-! ### Lookup -/

/-- A handle leads somewhere exactly if it lies inside the arena. -/
theorem get?_isSome_iff {a : Arena} {id : NodeId} :
    (a.get? id).isSome = true ↔ id.index < a.size := by
  simp [get?, size]

/-- Where a handle leads somewhere, both ways to follow it agree. -/
theorem node_eq_ok_iff {a : Arena} {id : NodeId} {node : Node} :
    a.node id = .ok node ↔ a.get? id = some node := by
  unfold Arena.node
  split <;> simp_all

/-- Only existing nodes have a parent. -/
theorem lt_size_of_parent? {a : Arena} {id parent : NodeId}
    (h : a.parent? id = some parent) : id.index < a.size := by
  unfold parent? at h
  obtain ⟨entry, he, -⟩ := Option.bind_eq_some_iff.mp h
  exact (Array.getElem?_eq_some_iff.mp he).choose

end Arena

end ClosureVtl
