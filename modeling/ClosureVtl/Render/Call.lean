/-
Module: ClosureVtl.Render.Call
Purpose: Calls of integrations, methods and functions.
Main exports:
  Walker.call, Walker.method, Walker.promised
-/
import ClosureVtl.Render.ListLoop

namespace ClosureVtl.Walker

/-!
A call is decided by its callee.  A callee that refers to an integration is
handed to it.  A member is a method: one of the list operations, `push`, one of
the global helpers, or a method of the runtime value, which is called as it
stands.  Of functions only those of the template language can be called.
-/

/-! ### Global helpers -/

/-- What a helper of the globals `JSON` and `Object` becomes. -/
def globalHelper? (name method : String) : Option (String → String) :=
  match name, method with
  | "JSON", "stringify" => some fun value => s!"$util.toJson({value})"
  | "JSON", "parse" => some fun value => s!"$util.parseJson({value})"
  | "Object", "keys" => some fun value => s!"{value}.keySet()"
  | "Object", "values" => some fun value => s!"{value}.values()"
  | _, _ => none

/-- The name of a receiver that is not declared in the closure. -/
def globalName? (a : Arena) (id : NodeId) : Node → Option String
  | .identifier name => if (a.lookup id).isNone then some name else none
  | .reference name none => some name
  | _ => none

/-- A call of a global helper; `none` if the method is none. -/
def helperCall? (w : Walker) (base : NodeId) (method : String) (args : List NodeId) :
    Render (Option String) := do
  let base := w.arena.unwrapParens base
  match globalName? w.arena base (← w.node base) with
  | none => return none
  | some name =>
    match globalHelper? name method with
    | none => return none
    | some helper =>
      match args with
      | [arg] => return some (helper (← w.argument arg))
      | _ => Render.unsupported (.arity s!"{name}.{method}" args.length)

/-! ### Methods -/

/-- The list operations that take a callback. -/
inductive ListOperation where
  | map
  | forEach
  | reduce
  | filter
deriving DecidableEq, Repr

/-- A list operation by the name of its method. -/
def ListOperation.ofName? : String → Option ListOperation
  | "map" => some .map
  | "forEach" => some .forEach
  | "reduce" => some .reduce
  | "filter" => some .filter
  | _ => none

/-- A list operation as a loop. -/
def listOperation (w : Walker) (operation : ListOperation) (c : ListCall)
    (args : List NodeId) : Render String :=
  match operation with
  | .map => w.mapLoop c
  | .forEach => w.forEachLoop c
  | .filter => w.filterLoop c
  | .reduce => w.reduceLoop c (args[1]?.map w.arena.argumentExpr)

/-- `push`: one value, or all values of a spread list. -/
def push (w : Walker) (base : NodeId) : List NodeId → Render String
  | [arg] => do
    let list ← w.expression base
    match ← w.node (w.arena.argumentExpr arg) with
    | .spread expr =>
      let values ← w.expression expr
      return s!"{list}.addAll({values})"
    | _ =>
      let value ← w.argument arg
      return s!"{list}.add({value})"
  | args => Render.unsupported (.arity "push" args.length)

/-- A method of a runtime value, called as it stands. -/
def plainMethod (w : Walker) (base : NodeId) (name : String) (args : List NodeId) :
    Render String := do
  let receiver ← w.expression base
  let args ← w.arguments args
  return s!"{receiver}.{name}({args})"

/-- A call of a member. -/
def method (w : Walker) (base : NodeId) (name : String) (args : List NodeId) :
    Render String := do
  match ListOperation.ofName? name with
  | some operation =>
    match w.arena.callback? args with
    | some (parameters, body) =>
      w.requireLoops s!"`{name}`"
      w.listOperation operation { receiver := base, parameters, body } args
    | none => Render.unsupported (.withoutCallback name)
  | none =>
    if name = "push" then w.push base args
    else
      match ← w.helperCall? base name args with
      | some text => return text
      | none => w.plainMethod base name args

/-! ### Calls -/

/-- A call of a function by its name. -/
def namedFunction (w : Walker) (callee : NodeId) (name : String) (args : List NodeId) :
    Render String := do
  if isReservedName name then
    let function ← w.address callee
    let args ← w.arguments args
    return s!"{function}({args})"
  else
    Render.unsupported (.function name)

/-- A call, by what its callee is. -/
def call (w : Walker) (id callee : NodeId) (args : List NodeId) : Render String := do
  match w.arena.resolveIntegration callee with
  | some integration => w.integrate integration id
  | none =>
    let callee := w.arena.unwrapParens callee
    match ← w.node callee with
    | .member base name => w.method base name args
    | .identifier name | .reference name _ => w.namedFunction callee name args
    | other => Render.unsupported (.callee other.kind)

/-! ### Promises -/

/-- Whether a node is a pair of parentheses. -/
def isParen (a : Arena) (id : NodeId) : Bool :=
  match a.get? id with
  | some (.paren _) => true
  | _ => false

/-- Whether the value of a node is awaited or returned on the spot. -/
def isConsumed (a : Arena) (id : NodeId) : Bool :=
  match ((a.ancestors id).find? fun parent => !isParen a parent).bind a.get? with
  | some (.await _) | some (.returnValue _) => true
  | _ => false

/-- An unresolved asynchronous value.  One that comes from an integration must
be consumed on the spot. -/
def promised (w : Walker) (id expr : NodeId) : Render String :=
  if isConsumed w.arena id = false ∧ (w.arena.calledIntegration expr).isSome then
    Render.fault (.illegalCall .unconsumed)
  else
    w.expression expr

end ClosureVtl.Walker
