/-
Module: ClosureVtl.Closure.ListCall
Purpose: Calls of list operations with an inline callback, and chains of them.
Main exports:
  ListCall, Arena.callback?, Arena.mapStage?, Arena.parameterUsed,
  Arena.fusedChain
-/
import ClosureVtl.Closure.Alias

namespace ClosureVtl

/-!
A list operation with an inline callback takes a receiver, the parameters of the
callback and its body.  A chain of `map` operations can share the loop of the
operation that consumes it; a stage is left out, and rendered as a list of its
own, when its callback or the callback that follows reads the whole list.
-/

/-- A list operation with an inline callback. -/
structure ListCall where
  receiver : NodeId
  parameters : List NodeId
  body : NodeId
deriving DecidableEq, Repr, Inhabited

/-- Where a callback of `map`, `forEach` and `filter` takes the whole list. -/
def mapListPosition : Nat := 2

/-- Where a callback of `reduce` takes the whole list. -/
def reduceListPosition : Nat := 3

namespace Arena

/-- The parameters and the body of an inline callback, given as first argument. -/
def callback? (a : Arena) (args : List NodeId) : Option (List NodeId × NodeId) :=
  match args with
  | [] => none
  | first :: _ =>
    match a.get? (a.argumentExpr first) with
    | some (.function parameters body) => some (parameters, body)
    | _ => none

/-- The list operation that an expression is, if it is a `map` with an inline
callback. -/
def mapStage? (a : Arena) (expr : NodeId) : Option ListCall :=
  match a.get? (a.unwrapParens expr) with
  | some (.call callee args) =>
    if (a.resolveIntegration callee).isSome then none
    else
      match a.get? (a.unwrapParens callee), a.callback? args with
      | some (.member receiver "map"), some (parameters, body) =>
        some { receiver, parameters, body }
      | _, _ => none
  | _ => none

/-- Whether a callback reads the parameter at a position.  A parameter that is a
pattern counts as read. -/
def parameterUsed (a : Arena) (parameters : List NodeId) (position : Nat) (body : NodeId) :
    Bool :=
  match parameters[position]? with
  | none => false
  | some parameter =>
    match a.get? parameter with
    | some (.parameter name _) =>
      match a.get? name with
      | some (.identifier _) => a.references body parameter
      | _ => true
    | _ => false

/-- The stages, outermost first and at most `n`, that share a loop when an
expression is looped over, and the expression that the loop is over. -/
def fusedChainWithin (a : Arena) : Nat → NodeId → List ListCall × NodeId
  | 0, expr => ([], expr)
  | n + 1, expr =>
    match a.mapStage? expr with
    | none => ([], expr)
    | some stage =>
      if a.parameterUsed stage.parameters mapListPosition stage.body then ([], expr)
      else
        let (stages, source) := a.fusedChainWithin n stage.receiver
        (stage :: stages, source)

/-- The stages that share the loop of a consumer, and the source of the loop.  A
consumer that reads the whole list shares its loop with no stage. -/
def fusedChain (a : Arena) (expr : NodeId) (consumerReadsList : Bool) :
    List ListCall × NodeId :=
  if consumerReadsList then ([], expr) else a.fusedChainWithin a.size expr

end Arena

end ClosureVtl
