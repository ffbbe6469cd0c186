/-
Module: ClosureVtl.Render.Fragment
Purpose: Values as JSON text for mapping templates.
Main exports:
  Arena.isComposite, Text.inputJson, Walker.primitive, Walker.renderFragment
-/
import ClosureVtl.Closure.JsonPath
import ClosureVtl.Render.Expression
import ClosureVtl.Text.Json

namespace ClosureVtl

/-!
A value is printed as JSON in one of three ways.  A path into the payload is read
from the payload; a literal is written as literal JSON, its parts printed in
turn; anything else is computed and printed by its type when the template runs.
At that point only null, strings, numbers and booleans can be told apart, so a
value that is certainly an object or a list is refused.
-/

/-! ### Composite values -/

/-- Whether a value is certainly an object or a list, followed through at most
`n` expressions and names. -/
def Arena.isCompositeWithin (a : Arena) : Nat → NodeId → Bool
  | 0, _ => false
  | n + 1, expr =>
    let expr := a.unwrapParens expr
    match a.get? expr with
    | some (.object _) | some (.array _) => true
    | some (.await expr) | some (.promise expr) => a.isCompositeWithin n expr
    | some (.conditional _ yes no) => a.isCompositeWithin n yes || a.isCompositeWithin n no
    | some (.binary left .and right) | some (.binary left .or right)
    | some (.binary left .coalesce right) =>
      a.isCompositeWithin n left || a.isCompositeWithin n right
    | some (.identifier _) =>
      match (a.lookup expr).bind a.get? with
      | some (.declaration _ _ (some value)) => a.isCompositeWithin n value
      | _ => false
    | _ => false

/-- Whether a value is certainly an object or a list. -/
def Arena.isComposite (a : Arena) (expr : NodeId) : Bool :=
  a.isCompositeWithin (a.size + 1) expr

/-! ### Texts -/

namespace Text

/-- Reads a path from the payload.  The path stands in single quotes, so those in
it are doubled. -/
def inputJson (path : String) : String :=
  "$input.json('" ++ doubled '\'' path ++ "')"

/-- A string that is known only when the template runs, printed as JSON. -/
def escapedAtRuntime (value : String) : String :=
  s!"\"$util.escapeJavaScript({value})\""

/-- Prints a reference by the type of its value; any other type than the
primitive ones sets the status of the answer. -/
def primitiveDispatch (value : String) (status : UInt16) : String :=
  let type := s!"{value}.class.name"
  let printsAsIs :=
    " || ".intercalate
      (["Integer", "Long", "Double", "Boolean"].map fun name => s!"{type} == 'java.lang.{name}'")
  s!"#if({value} == $null)null#elseif({type} == 'java.lang.String')"
    ++ escapedAtRuntime value
    ++ s!"#elseif({printsAsIs}){value}"
    ++ s!"#\x7belse\x7d#set($context.responseOverride.status = {status})"
    ++ "\"unsupported value type\"#\x7bend\x7d"

end Text

/-! ### Values -/

/-- The status that mapping templates answer with for unprintable values. -/
def Dialect.errorStatus : Dialect → UInt16
  | .resolver _ => ({} : MappingConfig).errorStatus
  | .mapping _ config => config.errorStatus

namespace Walker

/-- Literal text as a JSON string.  Text that the engine would evaluate is read
from a temporary and escaped when the template runs. -/
def jsonText (text : String) : Render String := do
  if Text.isTemplateSyntax text then
    return Text.escapedAtRuntime (← Render.materialize (Text.quote text))
  else
    return Text.jsonString text

/-- A value computed by the template and printed by its type. -/
def primitive (w : Walker) (expr : NodeId) : Render String := do
  if w.arena.isComposite expr then
    Render.unsupported .composite
  else
    let value ← w.reference expr
    return Text.primitiveDispatch value w.dialect.errorStatus

/-- The key of a property as a JSON string. -/
def jsonKey (w : Walker) (name : NodeId) : Render String := do
  match ← w.node name with
  | .identifier name | .string name => jsonText name
  | .number value => return Text.jsonString (← number value)
  | _ => Render.unsupported .computedKey

/-- A property of an object literal. -/
def jsonField (w : Walker) (property : NodeId) : Render String := do
  match ← w.node property with
  | .property name value =>
    let key ← w.jsonKey name
    let value ← w.fragment value
    return s!"{key}:{value}"
  | _ => Render.unsupported .objectSpread

/-- An item of an array literal. -/
def jsonItem (w : Walker) (item : NodeId) : Render String := do
  match ← w.node item with
  | .spread _ => Render.unsupported .arraySpread
  | _ => w.fragment item

/-- A value that is no path, by the form of its expression. -/
def fragmentOf (w : Walker) (expr : NodeId) : Node → Render String
  | .null | .undefined => return "null"
  | .boolean value => return if value then "true" else "false"
  | .number value => number value
  | .string value => jsonText value
  | .object properties => do
    let fields ← properties.mapM w.jsonField
    return "\x7b" ++ ",".intercalate fields ++ "\x7d"
  | .array items => do
    let values ← items.mapM w.jsonItem
    return "[" ++ ",".intercalate values ++ "]"
  | .template .. => do
    let value ← w.reference expr
    return Text.escapedAtRuntime value
  | .await inner => w.fragment inner
  | .promise inner =>
    if (w.arena.calledIntegration inner).isSome then w.expression expr else w.fragment inner
  | .call .. =>
    if (w.arena.calledIntegration expr).isSome then w.expression expr else w.primitive expr
  | _ => w.primitive expr

/-- Renders a value as JSON text. -/
def renderFragment (w : Walker) (expr : NodeId) : Render String := do
  let expr := w.arena.unwrapParens expr
  match w.arena.jsonPath expr with
  | some path => return Text.inputJson path
  | none => w.fragmentOf expr (← w.node expr)

end Walker

end ClosureVtl
