/-
Module: ClosureVtl.Closure.Builder
Purpose: Building the nodes of a program from the leaves up.
Main exports:
  Program, Builder, Build, Builder.push, Builder.finish, Build.call,
  Build.method, Build.forOf
-/
import ClosureVtl.Integration

namespace ClosureVtl

/-!
A program is built by adding nodes one at a time, children before parents.  A
new node adopts those of its children that exist: the parent link of a child is
written once, by the first node that lists it.  A child that is listed again
keeps its first parent and spoils the program; the first such mishap is kept and
reported when the program is finished.
-/

/-- Nodes and the integrations that references among them carry. -/
structure Program where
  arena : Arena := {}
  integrations : Array Integration := #[]

/-- A child that was listed by two nodes, or twice by one. -/
structure SharedChild where
  child : NodeId
  first : NodeId
  second : NodeId
deriving DecidableEq, Repr, Inhabited

/-- A program in the making. -/
structure Builder where
  entries : Array Entry := #[]
  integrations : Array Integration := #[]
  shared : Option SharedChild := none

namespace Builder

/-- The handle of the node that is added next. -/
def next (b : Builder) : NodeId := ⟨b.entries.size⟩

/-- Gives a child to a parent. -/
def adopt (parent : NodeId) (b : Builder) (child : NodeId) : Builder :=
  match b.entries[child.index]? with
  | none => b
  | some { node, parent := none } =>
    { b with entries := b.entries.setIfInBounds child.index { node, parent := some parent } }
  | some { node := _, parent := some first } =>
    { b with shared := b.shared.or (some { child, first, second := parent }) }

/-- Adds a node after its children are adopted. -/
def push (b : Builder) (node : Node) : Builder :=
  let adopted := node.children.foldl (adopt b.next) b
  { adopted with entries := adopted.entries.push { node } }

/-- The program, unless some child has been listed twice. -/
def finish (b : Builder) : Except Fault Program :=
  match b.shared with
  | none => .ok { arena := { entries := b.entries }, integrations := b.integrations }
  | some s => .error (.breach (.shared s.child s.first s.second))

/-! ### Adoption -/

@[simp] theorem size_adopt (parent : NodeId) (b : Builder) (child : NodeId) :
    (adopt parent b child).entries.size = b.entries.size := by
  unfold adopt
  split <;> simp

@[simp] theorem size_foldl_adopt (parent : NodeId) (children : List NodeId) (b : Builder) :
    (children.foldl (adopt parent) b).entries.size = b.entries.size := by
  induction children generalizing b with
  | nil => rfl
  | cons child rest ih => simp [ih]

/-- Each node takes the next free handle. -/
theorem size_push (b : Builder) (node : Node) :
    (b.push node).entries.size = b.entries.size + 1 := by
  simp [push]

end Builder

/-- A step of building. -/
abbrev Build (α : Type) := StateM Builder α

namespace Build

/-- Adds a node and returns its handle. -/
def push (node : Node) : Build NodeId := do
  let id := (← get).next
  modify fun b => b.push node
  return id

/-- Registers an integration and adds a reference to it. -/
def integration (name : String) (handler : Integration) : Build NodeId := do
  let id : IntegrationId := ⟨(← get).integrations.size⟩
  modify fun b => { b with integrations := b.integrations.push handler }
  push (.reference name (some id))

/-! ### Composite values -/

/-- A property with a plain name as key. -/
def property (key : String) (value : NodeId) : Build NodeId := do
  let name ← push (.identifier key)
  push (.property name value)

/-- A property with a computed key. -/
def computedProperty (key value : NodeId) : Build NodeId := do
  let name ← push (.computedKey key)
  push (.property name value)

/-! ### Calls and functions -/

/-- A call; each argument is wrapped. -/
def call (callee : NodeId) (args : List NodeId) : Build NodeId := do
  let args ← args.mapM fun expr => push (.argument expr none)
  push (.call callee args)

/-- A call of a method. -/
def method (base : NodeId) (name : String) (args : List NodeId) : Build NodeId := do
  let callee ← push (.member base name)
  call callee args

/-- A parameter with a plain name. -/
def parameter (name : String) : Build NodeId := do
  let name ← push (.identifier name)
  push (.parameter name none)

/-- A function whose parameters are plain names. -/
def arrow (names : List String) (body : NodeId) : Build NodeId := do
  let parameters ← names.mapM parameter
  push (.function parameters body)

/-! ### Declarations and patterns -/

/-- A constant with a plain name. -/
def declareConst (name : String) (value : NodeId) : Build NodeId := do
  let name ← push (.identifier name)
  push (.declaration .const name (some value))

/-- A variable with a plain name. -/
def declareLet (name : String) (value : Option NodeId) : Build NodeId := do
  let name ← push (.identifier name)
  push (.declaration .let name value)

/-- A pattern element that binds the property or item of its own name. -/
def binding (name : String) (rest : Bool) : Build NodeId := do
  let name ← push (.identifier name)
  push (.binding name none none rest)

/-! ### Loops -/

/-- A loop over the items of a list; its binding is a name or a pattern. -/
def forOf (target iterable body : NodeId) : Build NodeId := do
  let target ← push (.declaration .const target none)
  push (.forOf target iterable body)

/-- A loop over the keys of a map; its binding is a name or a pattern. -/
def forIn (target iterable body : NodeId) : Build NodeId := do
  let target ← push (.declaration .const target none)
  push (.forIn target iterable body)

end Build

end ClosureVtl
