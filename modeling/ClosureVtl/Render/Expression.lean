/-
Module: ClosureVtl.Render.Expression
Purpose: Expressions: the statements they need and the text of their value.
Main exports:
  Walker.renderExpression
-/
import ClosureVtl.Render.Call

namespace ClosureVtl.Walker

/-!
An expression is rendered to text that stands for its value.  Whatever must
happen before the text can be read is written as statements first: assignments,
steps, branches, and the building of literals.
-/

/-! ### Operators -/

/-- A step before the value is read: updates a target and yields it. -/
def stepped (w : Walker) (operand : NodeId) (step : Step) : Render String := do
  let target ← w.expression operand
  Render.assign target s!"{target} {step.symbol} 1"
  return target

/-- A step after the value is read: updates a target and yields what it was. -/
def steppedAfter (w : Walker) (operand : NodeId) (step : Step) : Render String := do
  let target ← w.expression operand
  let before ← Render.materialize target
  Render.assign target s!"{target} {step.symbol} 1"
  return before

/-- A binary operator.  Null coalescing evaluates its right operand inside a
guard; all other operands are evaluated from left to right. -/
def binary (w : Walker) (left : NodeId) (op : BinaryOp) (right : NodeId) : Render String := do
  match op.form with
  | .store =>
    let target ← w.expression left
    w.assignNode target right
    return target
  | .storeIfNull =>
    let target ← w.expression left
    Render.ifNull target (w.assignNode target right)
    return target
  | .coalesce =>
    let result ← w.materializeNode left
    Render.ifNull result (w.assignNode result right)
    return result
  | .membership =>
    let key ← w.argument left
    let object ← w.expression right
    return s!"{object}.containsKey({key})"
  | .update symbol =>
    let target ← w.expression left
    let value ← w.expression right
    Render.assign target s!"{target} {symbol} {value}"
    return target
  | .inline symbol =>
    let left ← w.expression left
    let right ← w.expression right
    return s!"({left} {symbol} {right})"

/-- A unary operator. -/
def unary (w : Walker) (op : UnaryOp) (operand : NodeId) : Render String := do
  match op with
  | .not => return "!" ++ (← w.expression operand)
  | .neg => return "-" ++ (← w.expression operand)
  | .plus => w.expression operand
  | .step direction => w.stepped operand direction

/-- A conditional: both branches store into one temporary. -/
def conditional (w : Walker) (test yes no : NodeId) : Render String := do
  let condition ← w.expression test
  let result ← Render.freshTemp
  Render.choice condition (w.assignNode result yes) (w.assignNode result no)
  return result

/-! ### Literals with parts -/

/-- Whether a node is a spread element. -/
def isSpread (a : Arena) (id : NodeId) : Bool :=
  match a.get? id with
  | some (.spread _) => true
  | _ => false

/-- Adds an item to a list under construction. -/
def addItem (w : Walker) (list : String) (item : NodeId) : Render Unit := do
  match ← w.node item with
  | .spread expr =>
    let value ← w.expression expr
    Render.discard s!"{list}.addAll({value})"
  | _ =>
    let value ← w.argument item
    Render.discard s!"{list}.add({value})"

/-- An array literal: inline, or built item by item if it has a spread. -/
def arrayLiteral (w : Walker) (items : List NodeId) : Render String := do
  if items.any (isSpread w.arena) then
    let list ← Render.freshTemp
    Render.assign list "[]"
    items.forM (w.addItem list)
    return list
  else
    return "[" ++ (← w.arguments items) ++ "]"

/-- The key of a property as a value. -/
def propertyKey (w : Walker) (name : NodeId) : Render String := do
  match ← w.node name with
  | .identifier name | .string name => return Text.quote name
  | .number value => return Text.quote (← number value)
  | .computedKey expr => w.argument expr
  | other => Render.breach (.propertyKey other.kind)

/-- Adds a property to an object under construction. -/
def addProperty (w : Walker) (object : String) (property : NodeId) : Render Unit := do
  match ← w.node property with
  | .property name value =>
    let key ← w.propertyKey name
    let value ← w.argument value
    Render.discard s!"{object}.put({key}, {value})"
  | .spreadProperty expr =>
    let value ← w.expression expr
    Render.discard s!"{object}.putAll({value})"
  | other => Render.breach (.objectMember other.kind)

/-- An object literal, built property by property so that spreads keep their
place. -/
def objectLiteral (w : Walker) (properties : List NodeId) : Render String := do
  let object ← Render.freshTemp
  Render.assign object "\x7b\x7d"
  properties.forM (w.addProperty object)
  return object

/-- Literal text inside an interpolated string.  Text that the engine would
evaluate is read from a temporary. -/
def templateText (text : String) : Render String := do
  if Text.isTemplateSyntax text then
    return Text.interpolation (← Render.materialize (Text.quote text))
  else
    return Text.escape text

/-- An interpolated expression and the literal text after it. -/
def templateSpan (w : Walker) (span : TemplateSpan) : Render String := do
  let value ← w.reference span.expr
  let literal ← templateText span.literal
  return Text.interpolation value ++ literal

/-- A template: one interpolated string. -/
def templateLiteral (w : Walker) (head : String) (spans : List TemplateSpan) :
    Render String := do
  let head ← templateText head
  let spans ← spans.mapM w.templateSpan
  return "\"" ++ head ++ String.join spans ++ "\""

/-! ### Expressions -/

/-- Renders an expression. -/
def renderExpression (w : Walker) (id : NodeId) : Render String := do
  match ← w.node id with
  | .null | .undefined => return Text.nullText
  | .boolean value => return if value then "true" else "false"
  | .number value => number value
  | .string value => return Text.quote value
  | .array items => w.arrayLiteral items
  | .object properties => w.objectLiteral properties
  | .template head spans => w.templateLiteral head spans
  | .identifier _ | .reference .. => w.address id
  | .member base name =>
    let base ← w.expression base
    return s!"{base}.{name}"
  | .element base key =>
    let base ← w.expression base
    let key ← w.argument key
    return s!"{base}[{key}]"
  | .binary left op right => w.binary left op right
  | .unary op operand => w.unary op operand
  | .stepAfter operand step => w.steppedAfter operand step
  | .conditional test yes no => w.conditional test yes no
  | .paren expr | .argument expr _ | .await expr => w.expression expr
  | .promise expr => w.promised id expr
  | .call callee args => w.call id callee args
  | .typeOf _ => Render.unsupported (.construct "typeof")
  | node@(.construct ..) | node@(.function ..) | node@(.spread _) =>
    Render.unsupported (.inExpression node.kind)
  | other => Render.breach (.inExpression other.kind)

end ClosureVtl.Walker
