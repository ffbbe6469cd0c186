/-
Module: ClosureVtl.Closure.Search
Purpose: Searching the subtree below a node.
Main exports:
  Arena.searchFrom, Arena.search, Arena.anyDescendant
-/
import ClosureVtl.Closure.Arena

namespace ClosureVtl.Arena

/-!
The subtree of a node is searched from the node downwards, the last child first.
The search stops at its first hit; it reports whether there was one and which
nodes it looked at.  Dangling handles are passed over.
-/

/-- Whether a search has hit, and the nodes it looked at, the latest first. -/
structure Sweep where
  found : Bool := false
  visited : List NodeId := []
deriving Inhabited

/-- Searches to a depth of `n` below `root`, carrying on from a sweep that has
not hit yet. -/
def searchFrom (a : Arena) (hit : NodeId → Node → Bool) : Nat → NodeId → Sweep → Sweep
  | 0, _, sweep => sweep
  | n + 1, root, sweep =>
    match a.get? root with
    | none => sweep
    | some node =>
      let visited := root :: sweep.visited
      if hit root node then
        { found := true, visited }
      else
        node.children.foldr
          (fun child sweep => if sweep.found then sweep else a.searchFrom hit n child sweep)
          { found := false, visited }

/-- Searches the subtree of a node; no path in it is longer than the arena. -/
def search (a : Arena) (root : NodeId) (hit : NodeId → Node → Bool) : Sweep :=
  a.searchFrom hit (a.size + 1) root {}

/-- Whether some node of a subtree satisfies a predicate. -/
def anyDescendant (a : Arena) (root : NodeId) (hit : NodeId → Node → Bool) : Bool :=
  (a.search root hit).found

end ClosureVtl.Arena
