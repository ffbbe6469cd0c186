/-
Module: ClosureVtl.Render.Pattern
Purpose: Destructuring patterns as sequences of assignments.
Main exports:
  Walker.bindElement, Walker.expandPattern, Walker.bindParameter
-/
import ClosureVtl.Render.Address

namespace ClosureVtl.Walker

/-!
A pattern is bound from a reference.  Its fixed elements are bound in source
order, each through its default and, if it is a pattern again, through all names
in it; the rest element is bound last.

A default is rendered inside a guard, so that it is evaluated only when the value
is null.
-/

/-- A value that falls back to a default when it is null. -/
def withDefault (w : Walker) (value : String) : Option NodeId → Render String
  | none => pure value
  | some default => do
    let slot ← Render.materialize value
    Render.ifNull slot (w.assignNode slot default)
    return slot

/-- Binds a value to a name or to the names of a nested pattern. -/
def bindElement (w : Walker) (name : NodeId) (value : String) (default : Option NodeId) :
    Render Unit := do
  let value ← w.withDefault value default
  match ← w.node name with
  | .identifier _ =>
    let target ← w.address name
    Render.assign target value
  | .objectPattern _ | .arrayPattern _ =>
    let source ← toReference value
    w.expand name source
  | other => Render.breach (.bindingName other.kind)

/-! ### Object patterns -/

/-- The accessor of an element by a literal key, and the key as a literal. -/
def literalAccess (target key : String) : String × String :=
  let literal := Text.quote key
  (s!"{target}[{literal}]", literal)

/-- The accessor of an element by a plain name, and the name as a literal. -/
def namedAccess (target name : String) : String × String :=
  (s!"{target}.{name}", Text.quote name)

/-- The accessor of an element of an object pattern, and the text of its key, by
which a rest element leaves it out. -/
def propertyAccess (w : Walker) (target : String) (name : NodeId) :
    Option NodeId → Render (String × String)
  | none => do
    match ← w.node name with
    | .identifier name => return namedAccess target name
    | other => Render.fault (.ambiguousBinding (.withoutKey other.kind))
  | some key => do
    match ← w.node key with
    | .identifier name => return namedAccess target name
    | .string key => return literalAccess target key
    | .number value => return literalAccess target (← number value)
    | .computedKey expr =>
      let key ← w.reference expr
      return (s!"{target}[{key}]", key)
    | other => Render.fault (.ambiguousBinding (.keyKind other.kind))

/-- Copies all keys of a map but the given ones to a new map. -/
def objectRest (source : String) (keys : List String) : Render String := do
  let rest ← Render.freshTemp
  Render.assign rest "\x7b\x7d"
  let key ← Render.freshTemp
  Render.openLoop key s!"{source}.keySet()"
  let copy := Render.discard s!"{rest}.put({key}, {source}.get({key}))"
  match keys with
  | [] => copy
  | _ => Render.guarded (" && ".intercalate (keys.map fun k => s!"{key} != {k}")) copy
  Render.close
  return rest

/-- Binds one element of an object pattern.  The state holds the keys of the
fixed elements so far and the name of the rest element. -/
def bindObjectElement (w : Walker) (target : String)
    (state : List String × Option NodeId) (element : NodeId) :
    Render (List String × Option NodeId) := do
  match ← w.node element with
  | .binding name _ _ true => return (state.1, some name)
  | .binding name key default false =>
    let (accessor, keyText) ← w.propertyAccess target name key
    w.bindElement name accessor default
    return (state.1 ++ [keyText], state.2)
  | other => Render.breach (.objectPatternMember other.kind)

/-- Binds an object pattern. -/
def expandObject (w : Walker) (elements : List NodeId) (target : String) : Render Unit := do
  let (keys, rest) ← elements.foldlM (w.bindObjectElement target) ([], none)
  match rest with
  | none => return
  | some name =>
    let remainder ← objectRest target keys
    w.bindElement name remainder none

/-! ### Array patterns -/

/-- Binds one element of an array pattern by its position.  The state holds the
rest element and its position. -/
def bindArrayElement (w : Walker) (target : String) (rest : Option (Nat × NodeId))
    (element : NodeId × Nat) : Render (Option (Nat × NodeId)) := do
  match ← w.node element.1 with
  | .hole => return rest
  | .binding name _ _ true => return some (element.2, name)
  | .binding name _ default false =>
    w.bindElement name s!"{target}[{element.2}]" default
    return rest
  | other => Render.breach (.arrayPatternMember other.kind)

/-- Binds an array pattern. -/
def expandArray (w : Walker) (elements : List NodeId) (target : String) : Render Unit := do
  let rest ← elements.zipIdx.foldlM (w.bindArrayElement target) none
  match rest with
  | none => return
  | some (start, name) =>
    w.bindElement name s!"{target}.subList({start}, {target}.size())" none

/-- Binds all names of a pattern from the value of a reference. -/
def expandPattern (w : Walker) (pattern : NodeId) (target : String) : Render Unit := do
  match ← w.node pattern with
  | .objectPattern elements => w.expandObject elements target
  | .arrayPattern elements => w.expandArray elements target
  | other => Render.breach (.pattern other.kind)

/-! ### Callback parameters -/

/-- Binds a parameter of a callback from a value of the loop.  A plain name that
is the loop variable itself needs no assignment. -/
def bindParameter (w : Walker) (parameter : NodeId) (source : String) : Render Unit := do
  match ← w.node parameter with
  | .parameter name default =>
    match ← w.node name with
    | .identifier _ =>
      let target ← w.address name
      if target ≠ source then Render.assign target source
      match default with
      | none => return
      | some default => Render.ifNull target (w.assignNode target default)
    | _ => w.bindElement name source default
  | other => Render.breach (.callbackParameter other.kind)

end ClosureVtl.Walker
