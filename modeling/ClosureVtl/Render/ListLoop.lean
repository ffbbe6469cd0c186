/-
Module: ClosureVtl.Render.ListLoop
Purpose: Loops for `map`, `forEach`, `reduce` and `filter`.
Main exports:
  Walker.loopOver, Walker.mapLoop, Walker.forEachLoop, Walker.filterLoop,
  Walker.reduceLoop
-/
import ClosureVtl.Closure.ListCall
import ClosureVtl.Render.Pattern

namespace ClosureVtl.Walker

/-!
A chain of list operations is one loop over the source of the chain.  Each stage
has a variable for its item.  The variables are chosen from the consumer
inwards; then the loop is opened over the source with the variable of the
innermost stage; then the callbacks are rendered from the innermost stage
outwards, each storing its result in the variable of the next.

    xs.map(f).map(g)      #set($v1 = [])
                          #foreach($x in xs)
                            the body of f, stored in $y
                            the body of g, stored in $v2
                            $v1.add($v2)
                          #end
-/

/-- The variable of a loop.  A plain parameter without default is the variable
itself; any other is bound from a temporary inside the loop. -/
def loopVariable (w : Walker) : Option NodeId → Render String
  | none => Render.freshTemp
  | some parameter => do
    match ← w.node parameter with
    | .parameter name none =>
      match ← w.node name with
      | .identifier _ => w.address name
      | _ => Render.freshTemp
    | _ => Render.freshTemp

/-- The position of the current round of the innermost loop. -/
def loopIndex : String := "$foreach.index"

/-- Binds the parameters of a callback that takes an item, its position and the
whole list. -/
def bindItemParameters (w : Walker) (parameters : List NodeId) (item list : String) :
    Render Unit :=
  (parameters.zip [item, loopIndex, list]).forM fun (parameter, source) =>
    w.bindParameter parameter source

/-- Renders the body of a callback and stores its result in a temporary.  A
block stores it where it returns. -/
def callbackBody (w : Walker) (body : NodeId) : Render String := do
  match ← w.node body with
  | .block _ =>
    let slot ← Render.freshTemp
    Render.assign slot Text.nullText
    w.statement body (some slot)
    return slot
  | _ => w.materializeNode body

/-- Opens the loop of a chain and renders its stages, outermost first in the
list.  Afterwards the loop is open and `item` holds the result of the outermost
stage.  Returns the list that the loop is over. -/
def renderStages (w : Walker) (source : NodeId) (header : String → String → Render Unit) :
    List ListCall → String → Render String
  | [], item => do
    let list ← w.reference source
    header item list
    return list
  | stage :: inner, item => do
    let stageItem ← w.loopVariable stage.parameters.head?
    let list ← w.renderStages source header inner stageItem
    w.bindItemParameters stage.parameters stageItem list
    let value ← w.callbackBody stage.body
    Render.assign item value
    return list

/-- Opens the loop for a consumer of a list. -/
def loopOver (w : Walker) (receiver : NodeId) (item : String) (consumerReadsList : Bool)
    (header : String → String → Render Unit) : Render String :=
  let (stages, source) := w.arena.fusedChain receiver consumerReadsList
  w.renderStages source header stages item

/-- Opens the loop for a consumer that takes each item, and binds the parameters
of its callback. -/
def itemLoop (w : Walker) (c : ListCall) : Render String := do
  let item ← w.loopVariable c.parameters.head?
  let readsList := w.arena.parameterUsed c.parameters mapListPosition c.body
  let list ← w.loopOver c.receiver item readsList Render.openLoop
  w.bindItemParameters c.parameters item list
  return item

/-- `map`: collects the results of the callback. -/
def mapLoop (w : Walker) (c : ListCall) : Render String := do
  let out ← Render.freshTemp
  Render.assign out "[]"
  let _ ← w.itemLoop c
  let value ← w.callbackBody c.body
  Render.discard s!"{out}.add({value})"
  Render.close
  return out

/-- `forEach`: runs the callback for its effect. -/
def forEachLoop (w : Walker) (c : ListCall) : Render String := do
  let _ ← w.itemLoop c
  let _ ← w.callbackBody c.body
  Render.close
  return Text.nullText

/-- `filter`: collects the items that the callback accepts. -/
def filterLoop (w : Walker) (c : ListCall) : Render String := do
  let out ← Render.freshTemp
  Render.assign out "[]"
  let item ← w.itemLoop c
  let keep ← w.callbackBody c.body
  Render.guarded keep (Render.discard s!"{out}.add({item})")
  Render.close
  return out

/-! ### Reductions

The accumulator is a temporary of its own and is copied to the parameter of the
callback in each round.  Without an initial value the first item starts the
accumulator, and an empty list is an error when the template runs.
-/

/-- Stops a running template when there is nothing to start a reduction from. -/
def emptyReduceGuard (list : String) : Render Unit :=
  Render.guarded s!"{list}.isEmpty()"
    (Render.emit
      ("$util.error(\"Reduce of empty array with no initial value\", \""
        ++ FaultClass.emptyReduceNoInitial.name ++ "\")"))

/-- One round of a reduction. -/
def reduceStep (w : Walker) (c : ListCall) (acc item list : String) : Render Unit := do
  (c.parameters.zip [acc, item, loopIndex, list]).forM fun (parameter, source) =>
    w.bindParameter parameter source
  let value ← w.callbackBody c.body
  Render.assign acc value

/-- `reduce`: folds the items into an accumulator. -/
def reduceLoop (w : Walker) (c : ListCall) (initial : Option NodeId) : Render String := do
  let acc ← Render.freshTemp
  match initial with
  | some initial => w.assignNode acc initial
  | none => pure ()
  let item ← w.loopVariable c.parameters[1]?
  let readsList := w.arena.parameterUsed c.parameters reduceListPosition c.body
  let header (item list : String) : Render Unit := do
    if initial.isNone then emptyReduceGuard list
    Render.openLoop item list
  let list ← w.loopOver c.receiver item readsList header
  if initial.isNone then
    Render.choice s!"{loopIndex} == 0" (Render.assign acc item) (w.reduceStep c acc item list)
  else
    w.reduceStep c acc item list
  Render.close
  return acc

end ClosureVtl.Walker
