/-
Module: ClosureVtl.Render.Address
Purpose: How each dialect addresses names and returns values.
Main exports:
  Dialect.rootParameter?, Dialect.addressOf, Walker.address, Walker.returned
-/
import ClosureVtl.Render.Walker

namespace ClosureVtl

/-!
The address of a name depends on its class and on the dialect alone.  Parameters
of the outermost closure are accessors of the runtime; other names of the
closure are variables, which a resolver keeps in the stash when they are top
level and the stash is in use.  Reserved names stand for themselves.
-/

/-- The accessor of a parameter of the outermost closure. -/
def Dialect.rootParameter? : Dialect → Nat → Option String
  | .resolver _, 0 => some "$context.arguments"
  | .mapping .., 0 => some "$input.path('$')"
  | _, 1 => some "$context"
  | _, _ => none

/-- The address of a name of a class. -/
def Dialect.addressOf (dialect : Dialect) : NameClass → Except Fault String
  | .rootParameter index =>
    match dialect.rootParameter? index with
    | some accessor => .ok accessor
    | none => .error (.unsupported (.rootParameter dialect.subject index))
  | .topLevel name =>
    match dialect with
    | .resolver config =>
      .ok (if config.stashLocals then "$context.stash." ++ name else "$" ++ name)
    | .mapping .. => .ok ("$" ++ name)
  | .local name => .ok ("$" ++ name)
  | .reserved name => .ok name
  | .capture name => .error (.unsupported (.captured name dialect.subject))

/-- The address of a name or reference in an arena. -/
def Arena.addressIn (a : Arena) (dialect : Dialect) (id : NodeId) : Except Fault String :=
  match a.classify id with
  | .ok nameClass => dialect.addressOf nameClass
  | .error fault => .error fault

namespace Walker

/-- The address of a name or reference. -/
def address (w : Walker) (id : NodeId) : Render String :=
  Render.ofExcept (w.arena.addressIn w.dialect id)

/-- Writes what the outermost closure returns: a resolver stops with the value,
a mapping template prints it. -/
def returned (w : Walker) (value : Option NodeId) : Render Unit :=
  match w.dialect, value with
  | .resolver _, some value => do
    let text ← w.expression value
    Render.emit s!"#return({text})"
  | .resolver _, none => Render.emit "#return"
  | .mapping .., some value => do
    let text ← w.fragment value
    Render.emit text
  | .mapping .., none => Render.emit "null"

end Walker

end ClosureVtl
