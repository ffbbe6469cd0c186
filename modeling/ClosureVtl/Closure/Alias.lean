/-
Module: ClosureVtl.Closure.Alias
Purpose: Recognition of integration calls, through local aliases.
Main exports:
  Arena.resolveIntegration, Arena.calledIntegration, Arena.awaited
-/
import ClosureVtl.Closure.Scope

namespace ClosureVtl.Arena

/-!
A callee refers to an integration if it is a reference that carries one, or a
local name whose initial value does, through any number of names.  Parentheses
make no difference anywhere.
-/

/-- The integration of a callee, through at most `n` names. -/
def resolveIntegrationWithin (a : Arena) : Nat → NodeId → Option IntegrationId
  | 0, _ => none
  | n + 1, callee =>
    let callee := a.unwrapParens callee
    match a.get? callee with
    | some (.reference _ integration) => integration
    | some (.identifier _) =>
      match (a.lookup callee).bind a.get? with
      | some (.declaration _ _ (some value)) => a.resolveIntegrationWithin n value
      | _ => none
    | _ => none

/-- The integration a callee refers to. -/
def resolveIntegration (a : Arena) (callee : NodeId) : Option IntegrationId :=
  a.resolveIntegrationWithin (a.size + 1) callee

/-- The expression below at most `n` layers of awaiting, promises and
parentheses. -/
def awaitedWithin (a : Arena) : Nat → NodeId → NodeId
  | 0, id => id
  | n + 1, id =>
    let id := a.unwrapParens id
    match a.get? id with
    | some (.await expr) | some (.promise expr) => a.awaitedWithin n expr
    | _ => id

/-- The expression whose value is awaited or promised. -/
def awaited (a : Arena) (id : NodeId) : NodeId :=
  a.awaitedWithin (a.size + 1) id

/-- The integration that an expression calls, seen through awaiting, promises
and parentheses. -/
def calledIntegration (a : Arena) (expr : NodeId) : Option IntegrationId :=
  match a.get? (a.awaited expr) with
  | some (.call callee _) => a.resolveIntegration callee
  | _ => none

end ClosureVtl.Arena
