/-
Module: ClosureVtl.Closure.JsonPath
Purpose: Access chains off the request payload as JSON paths.
Main exports:
  Arena.jsonPath
-/
import ClosureVtl.Closure.Scope
import ClosureVtl.Number.Literal
import ClosureVtl.Text.Literal

namespace ClosureVtl

/-!
A chain of property accesses that starts at the first parameter of the outermost
closure is a path into the request payload.  The root is a dollar sign; a step by
a plain name follows a point, any other key stands in brackets and double quotes,
and a list index in brackets.
-/

namespace Text

/-- A key in brackets. -/
def pathKey (key : String) : String :=
  let escaped := key.toList.flatMap fun c => if c = '\\' ∨ c = '"' then ['\\', c] else [c]
  "[\"" ++ String.ofList escaped ++ "\"]"

/-- A step by a property name. -/
def pathStep (name : String) : String :=
  if isPathSegment name then "." ++ name else pathKey name

end Text

namespace Arena

/-- The step by a literal key: a string, or a whole number from zero on. -/
def pathIndex? (a : Arena) (key : NodeId) : Option String :=
  match a.get? (a.unwrapParens key) with
  | some (.number value) =>
    if value.isIntegral = true ∧ value.isNonnegative = true then
      value.literal.toOption.map fun digits => s!"[{digits}]"
    else none
  | some (.string key) => some (Text.pathKey key)
  | _ => none

/-- Whether a name is the payload, the first parameter of the outermost
closure. -/
def isPayload (a : Arena) (id : NodeId) : Bool :=
  match a.classify id with
  | .ok (.rootParameter 0) => true
  | _ => false

/-- The path of an access chain of at most `n` links. -/
def jsonPathWithin (a : Arena) : Nat → NodeId → Option String
  | 0, _ => none
  | n + 1, expr =>
    let expr := a.unwrapParens expr
    match a.get? expr with
    | some (.identifier _) => if a.isPayload expr then some "$" else none
    | some (.member base name) =>
      (a.jsonPathWithin n base).map fun path => path ++ Text.pathStep name
    | some (.element base key) =>
      (a.jsonPathWithin n base).bind fun path =>
        (a.pathIndex? key).map fun step => path ++ step
    | _ => none

/-- The path of an access chain off the payload. -/
def jsonPath (a : Arena) (expr : NodeId) : Option String :=
  a.jsonPathWithin (a.size + 1) expr

end Arena

end ClosureVtl
