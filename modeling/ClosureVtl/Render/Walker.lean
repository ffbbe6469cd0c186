/-
Module: ClosureVtl.Render.Walker
Purpose: The entry points of rendering and the small steps built on them.
Main exports:
  Walker, Walker.node, Walker.reference, Walker.argument, Walker.requireLoops
-/
import ClosureVtl.Closure.Alias
import ClosureVtl.Number.Literal
import ClosureVtl.Render.Output

namespace ClosureVtl

/-!
Rendering an expression may need statements, statements need expressions,
patterns need both, and the handler of an integration may come back for any of
them.  A `Walker` is the bundle of these entry points.  Every rule is written
against a walker and calls it for the parts of a node; the rules themselves do
not recurse.  `ClosureVtl.Render.Program` ties the knot.
-/

/-- The entry points of rendering one arena in one dialect. -/
structure Walker where
  arena : Arena
  dialect : Dialect
  /-- writes what an expression needs and returns the text of its value -/
  expression : NodeId → Render String
  /-- writes a statement; a value that is returned goes to the slot, if any -/
  statement : NodeId → Option String → Render Unit
  /-- binds all names of a pattern from the value of a reference -/
  expand : NodeId → String → Render Unit
  /-- writes what a value needs and returns it as JSON text -/
  fragment : NodeId → Render String
  /-- hands a call to an integration -/
  integrate : IntegrationId → NodeId → Render String

namespace Walker

/-- The node behind a handle. -/
def node (w : Walker) (id : NodeId) : Render Node :=
  Render.ofExcept (w.arena.node id)

/-- Stores the value of an expression. -/
def assignNode (w : Walker) (target : String) (id : NodeId) : Render Unit := do
  let value ← w.expression id
  Render.assign target value

/-- Stores the value of an expression in a fresh temporary. -/
def materializeNode (w : Walker) (id : NodeId) : Render String := do
  let value ← w.expression id
  Render.materialize value

/-- A value that can be read more than once: a rendered reference as it stands,
and any other value through a temporary. -/
def toReference (value : String) : Render String :=
  if Text.isReference value then pure value else Render.materialize value

/-- Renders an expression to a value that can be read more than once. -/
def reference (w : Walker) (id : NodeId) : Render String := do
  let value ← w.expression id
  toReference value

/-- Whether the text of a node is an operator expression, which the template
language does not accept as an argument. -/
def isOperator : Node → Bool
  | .binary _ op _ =>
    match op.form with
    | .inline _ => true
    | _ => false
  | .unary .not _ | .unary .neg _ | .unary .plus _ => true
  | _ => false

/-- Renders a value that is passed to a method or placed in a literal.  Operator
expressions go through a temporary. -/
def argument (w : Walker) (id : NodeId) : Render String := do
  let inner := w.arena.argumentExpr id
  let value ← w.expression inner
  let node ← w.node inner
  if isOperator node then Render.materialize value else return value

/-- Renders arguments in order, separated by commas. -/
def arguments (w : Walker) (ids : List NodeId) : Render String := do
  let rendered ← ids.mapM w.argument
  return ", ".intercalate rendered

/-- Ends the rendering of a loop in a dialect without loops. -/
def requireLoops (w : Walker) (what : String) : Render Unit :=
  if w.dialect.supportsLoops then pure ()
  else Render.unsupported (.loop what w.dialect.name)

/-- The number of a literal as text. -/
def number (value : Binary64) : Render String :=
  Render.ofExcept value.literal

end Walker

end ClosureVtl
