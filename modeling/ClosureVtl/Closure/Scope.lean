/-
Module: ClosureVtl.Closure.Scope
Purpose: What a name in a closure refers to.
Main exports:
  NameClass, Arena.isBindingName, Arena.findBinding, Arena.declaredIn,
  Arena.lookup, Arena.enclosingFunction, Arena.rootParameterIndex,
  Arena.isTopLevelDeclaration, Arena.classify, Arena.references
-/
import ClosureVtl.Closure.Search

namespace ClosureVtl

/-!
Names are resolved outwards along parent links.  A block declares the variables
of its earlier statements, a function its parameters, and a loop, for its body
only, its binding.  The innermost scope that declares a name wins; within a
block the latest statement, within a parameter list or a pattern the first
element.

A name that stands in binding position is its own declaration.
-/

/-- What a name refers to, as far as its address depends on it. -/
inductive NameClass where
  /-- a parameter of the outermost closure, by position -/
  | rootParameter (index : Nat)
  /-- declared directly in the body of the outermost closure -/
  | topLevel (name : String)
  /-- declared anywhere else in the closure -/
  | local (name : String)
  /-- a name of the template language, marked by a dollar sign -/
  | reserved (name : String)
  /-- not declared in the closure -/
  | capture (name : String)
deriving DecidableEq, Repr, Inhabited

/-- Whether a name is one of the template language. -/
def isReservedName (name : String) : Bool :=
  name.toList.head? == some '$'

namespace Arena

/-! ### Declarations -/

/-- Whether a node is the name that its parent declares. -/
def isBindingName (a : Arena) (id : NodeId) : Bool :=
  match (a.parent? id).bind a.get? with
  | some (.declaration _ name _) => name == id
  | some (.parameter name _) => name == id
  | some (.binding name ..) => name == id
  | _ => false

/-- The declaration of a name within a binding target, patterns opened to a
depth of `n`. -/
def findBindingWithin (a : Arena) (name : String) : Nat → NodeId → Option NodeId
  | 0, _ => none
  | n + 1, target =>
    match a.get? target with
    | some (.identifier declared) => if declared = name then a.parent? target else none
    | some (.objectPattern elements) | some (.arrayPattern elements) =>
      elements.findSome? fun element =>
        match a.get? element with
        | some (.binding inner ..) => a.findBindingWithin name n inner
        | _ => none
    | _ => none

/-- The declaration of a name within a binding target: a name or a pattern. -/
def findBinding (a : Arena) (target : NodeId) (name : String) : Option NodeId :=
  a.findBindingWithin name (a.size + 1) target

/-- The declaration of a name by one variable declaration. -/
def declaredBy (a : Arena) (name : String) (statement : NodeId) : Option NodeId :=
  match a.get? statement with
  | some (.declaration _ target _) => a.findBinding target name
  | _ => none

/-- The declaration of a name by one parameter. -/
def declaredByParameter (a : Arena) (name : String) (parameter : NodeId) : Option NodeId :=
  match a.get? parameter with
  | some (.parameter target _) => a.findBinding target name
  | _ => none

/-- The declaration of a name that a scope offers to its child `inner`. -/
def declaredIn (a : Arena) (scope inner : NodeId) (name : String) : Option NodeId :=
  match a.get? scope with
  | some (.block statements) =>
    ((statements.takeWhile (· != inner)).filterMap (a.declaredBy name)).getLast?
  | some (.function parameters _) => parameters.findSome? (a.declaredByParameter name)
  | some (.forOf target _ body) | some (.forIn target _ body) =>
    if body = inner then a.declaredBy name target else none
  | _ => none

/-! ### Lookup -/

/-- The innermost declaration among enclosing scopes; `inner` is the child
through which the first of them is left. -/
def lookupOutward (a : Arena) (name : String) : NodeId → List NodeId → Option NodeId
  | _, [] => none
  | inner, scope :: outer =>
    match a.declaredIn scope inner name with
    | some declaration => some declaration
    | none => a.lookupOutward name scope outer

/-- The node that declares a name; `none` if the name comes from outside. -/
def lookup (a : Arena) (id : NodeId) : Option NodeId :=
  match a.get? id with
  | some (.identifier name) =>
    if a.isBindingName id then a.parent? id
    else a.lookupOutward name id (a.ancestors id)
  | _ => none

/-! ### Position of a declaration -/

/-- The nearest function around a node. -/
def enclosingFunction (a : Arena) (id : NodeId) : Option NodeId :=
  (a.ancestors id).find? a.isFunction

/-- The position of a declaration among the parameters of the outermost
closure. -/
def rootParameterIndex (a : Arena) (declaration : NodeId) : Option Nat :=
  match a.get? declaration, a.parent? declaration with
  | some (.parameter ..), some function =>
    match a.get? function with
    | some (.function parameters _) =>
      if (a.enclosingFunction function).isSome then none
      else parameters.findIdx? (· == declaration)
    | _ => none
  | _, _ => none

/-- Whether a node is a pattern or an element of one. -/
def isPatternPart : Node → Bool
  | .binding .. | .objectPattern _ | .arrayPattern _ => true
  | _ => false

/-- The innermost node around a pattern part, itself included, that is none,
within `n` steps. -/
def patternOwnerWithin (a : Arena) : Nat → NodeId → Option NodeId
  | 0, id => some id
  | n + 1, id =>
    if (a.get? id).any isPatternPart then
      (a.parent? id).bind (a.patternOwnerWithin n)
    else some id

/-- The innermost node around a pattern part, itself included, that is none. -/
def patternOwner (a : Arena) (id : NodeId) : Option NodeId :=
  a.patternOwnerWithin a.size id

/-- Whether a block is the body of the outermost closure, or stands alone. -/
def isRootBlock (a : Arena) (block : NodeId) : Bool :=
  match a.get? block with
  | some (.block _) =>
    match a.parent? block with
    | none => true
    | some function => a.isFunction function && (a.enclosingFunction function).isNone
  | _ => false

/-- Whether a name is declared directly in the body of the outermost closure.
Names bound by a pattern are declared by the declaration around it. -/
def isTopLevelDeclaration (a : Arena) (declaration : NodeId) : Bool :=
  match a.patternOwner declaration with
  | none => false
  | some owner =>
    match a.get? owner with
    | some (.declaration ..) => (a.parent? owner).any a.isRootBlock
    | _ => false

/-! ### Classes of names -/

/-- The class of a name with a given declaration. -/
def classifyDeclared (a : Arena) (name : String) (declaration : Option NodeId) : NameClass :=
  match declaration.bind a.rootParameterIndex with
  | some index => .rootParameter index
  | none =>
    if isReservedName name then .reserved name
    else
      match declaration with
      | some declaration =>
        if a.isTopLevelDeclaration declaration then .topLevel name else .local name
      | none => .capture name

/-- The class of a name or of a reference to something outside the closure. -/
def classify (a : Arena) (id : NodeId) : Except Fault NameClass :=
  match a.node id with
  | .error fault => .error fault
  | .ok (.reference name _) =>
    .ok (if isReservedName name then .reserved name else .capture name)
  | .ok (.identifier name) => .ok (a.classifyDeclared name (a.lookup id))
  | .ok other => .error (.breach (.addressed other.kind))

/-- Whether a name below `root`, other than one in binding position, refers to a
declaration. -/
def references (a : Arena) (root declaration : NodeId) : Bool :=
  a.anyDescendant root fun id node =>
    match node with
    | .identifier _ => !a.isBindingName id && a.lookup id == some declaration
    | _ => false

/-- A name in binding position is declared by its parent. -/
theorem lookup_of_isBindingName {a : Arena} {id : NodeId} {name : String}
    (h : a.get? id = some (.identifier name)) (hb : a.isBindingName id = true) :
    a.lookup id = a.parent? id := by
  simp [lookup, h, hb]

/-- Only names are declared. -/
theorem lookup_of_not_identifier {a : Arena} {id : NodeId}
    (h : ∀ name, a.get? id ≠ some (.identifier name)) : a.lookup id = none := by
  unfold lookup
  split
  · next name hn => exact absurd hn (h name)
  · rfl

theorem exists_identifier_of_lookup {a : Arena} {id declaration : NodeId}
    (h : a.lookup id = some declaration) : ∃ name, a.get? id = some (.identifier name) := by
  unfold lookup at h
  split at h
  · next name hn => exact ⟨name, hn⟩
  · cases h

end Arena

end ClosureVtl
