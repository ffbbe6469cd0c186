/-
Module: ClosureVtl.Closure.Node
Purpose: The closed set of node kinds a closure body is made of.
Main exports:
  NodeId, IntegrationId, BinaryOp, BinaryOp.Form, UnaryOp, Step, DeclKind,
  TemplateSpan, Node, Node.kind, Node.isStatement, Node.children
-/
import ClosureVtl.Number.Binary64

namespace ClosureVtl

/-!
A closure body is a set of nodes that name their children by handle.  Handles
are positions in an arena (`ClosureVtl.Closure.Arena`); a node by itself does
not say whether its handles lead anywhere.

Three views of a node are fixed here because every later module relies on
them: its `kind` (the word used in messages), whether it `isStatement`, and its
`children` in the order in which the source text lists them.
-/

/-- Handle of a node: its position in the arena. -/
structure NodeId where
  index : Nat
deriving DecidableEq, Repr, Inhabited

/-- A handle is shown as its position behind a hash sign. -/
def NodeId.text (id : NodeId) : String := s!"#{id.index}"

instance : ToString NodeId := ⟨NodeId.text⟩

/-- Handle of an integration: its position in the integration table. -/
structure IntegrationId where
  index : Nat
deriving DecidableEq, Repr, Inhabited

/-! ### Operators -/

/-- Binary operators: arithmetic, comparison, logical, assignment. -/
inductive BinaryOp where
  | add | sub | mul | div | mod
  | eq | strictEq | ne | strictNe | lt | le | gt | ge
  | and | or | coalesce | contains
  | assign
  | addAssign | subAssign | mulAssign | divAssign | modAssign | coalesceAssign
deriving DecidableEq, Repr, Inhabited

namespace BinaryOp

/-- The operator a compound assignment applies before it stores. -/
def compoundBase : BinaryOp → Option BinaryOp
  | addAssign => some add
  | subAssign => some sub
  | mulAssign => some mul
  | divAssign => some div
  | modAssign => some mod
  | coalesceAssign => some coalesce
  | _ => none

/-- Whether the operator stores into its left operand. -/
def isAssignment (op : BinaryOp) : Bool :=
  op == assign || op.compoundBase.isSome

/-- How an operator is lowered.  Template text knows only the operators that
have a symbol; strict and loose comparison share one. -/
inductive Form where
  | inline (symbol : String)
  | membership
  | coalesce
  | store
  | update (symbol : String)
  | storeIfNull
deriving DecidableEq, Repr

/-- The lowering of every operator. -/
def form : BinaryOp → Form
  | add => .inline "+"
  | sub => .inline "-"
  | mul => .inline "*"
  | div => .inline "/"
  | mod => .inline "%"
  | eq | strictEq => .inline "=="
  | ne | strictNe => .inline "!="
  | lt => .inline "<"
  | le => .inline "<="
  | gt => .inline ">"
  | ge => .inline ">="
  | and => .inline "&&"
  | or => .inline "||"
  | coalesce => .coalesce
  | contains => .membership
  | assign => .store
  | addAssign => .update "+"
  | subAssign => .update "-"
  | mulAssign => .update "*"
  | divAssign => .update "/"
  | modAssign => .update "%"
  | coalesceAssign => .storeIfNull

end BinaryOp

/-- One step up or down. -/
inductive Step where
  | increment
  | decrement
deriving DecidableEq, Repr, Inhabited

/-- The arithmetic symbol of a step. -/
def Step.symbol : Step → String
  | .increment => "+"
  | .decrement => "-"

/-- Operators written before their operand. -/
inductive UnaryOp where
  | not
  | neg
  | plus
  | step (direction : Step)
deriving DecidableEq, Repr, Inhabited

/-- The keyword of a variable declaration. -/
inductive DeclKind where
  | const
  | let
  | var
deriving DecidableEq, Repr, Inhabited

/-- One interpolated expression of a template and the literal text after it. -/
structure TemplateSpan where
  expr : NodeId
  literal : String
deriving DecidableEq, Repr, Inhabited

/-! ### Nodes -/

/-- A node of a closure body. -/
inductive Node where
  -- literals
  | null
  | undefined
  | boolean (value : Bool)
  | number (value : Binary64)
  | string (value : String)
  -- composite values
  | array (items : List NodeId)
  | spread (expr : NodeId)
  | object (properties : List NodeId)
  | property (name value : NodeId)
  | spreadProperty (expr : NodeId)
  | computedKey (expr : NodeId)
  | template (head : String) (spans : List TemplateSpan)
  -- references
  | identifier (name : String)
  | member (base : NodeId) (name : String)
  | element (base key : NodeId)
  /-- an opaque value captured from outside the closure -/
  | reference (name : String) (integration : Option IntegrationId)
  -- operators
  | binary (left : NodeId) (op : BinaryOp) (right : NodeId)
  | unary (op : UnaryOp) (operand : NodeId)
  /-- a step that yields the value from before it -/
  | stepAfter (operand : NodeId) (step : Step)
  | conditional (test yes no : NodeId)
  | paren (expr : NodeId)
  | typeOf (expr : NodeId)
  -- control flow
  | branch (test yes : NodeId) (no : Option NodeId)
  | forOf (target iterable body : NodeId)
  | forIn (target iterable body : NodeId)
  | whileLoop (test body : NodeId)
  | doWhile (body test : NodeId)
  | forLoop (start test step : Option NodeId) (body : NodeId)
  | tryCatch (body : NodeId) (handler cleanup : Option NodeId)
  | breakLoop
  | continueLoop
  | block (statements : List NodeId)
  -- calls and functions
  | call (callee : NodeId) (args : List NodeId)
  | construct (callee : NodeId) (args : List NodeId)
  | argument (expr : NodeId) (name : Option String)
  | await (expr : NodeId)
  /-- an unresolved asynchronous result -/
  | promise (expr : NodeId)
  | function (parameters : List NodeId) (body : NodeId)
  | parameter (name : NodeId) (default : Option NodeId)
  -- declarations and patterns
  | declaration (kind : DeclKind) (name : NodeId) (value : Option NodeId)
  | arrayPattern (elements : List NodeId)
  | objectPattern (elements : List NodeId)
  | binding (name : NodeId) (key default : Option NodeId) (rest : Bool)
  /-- a position of an array pattern that binds nothing -/
  | hole
  -- statements
  | returnValue (expr : Option NodeId)
  | exprStatement (expr : NodeId)
  | throw (expr : NodeId)
deriving Inhabited

namespace Node

/-- The word that messages use for a node. -/
def kind : Node → String
  | null => "null literal"
  | undefined => "undefined literal"
  | boolean _ => "boolean literal"
  | number _ => "number literal"
  | string _ => "string literal"
  | array _ => "array literal"
  | spread _ => "spread element"
  | object _ => "object literal"
  | property .. => "property assignment"
  | spreadProperty _ => "spread assignment"
  | computedKey _ => "computed property name"
  | template .. => "template expression"
  | identifier _ => "identifier"
  | member .. => "property access"
  | element .. => "element access"
  | reference .. => "reference"
  | binary .. => "binary expression"
  | unary .. => "unary expression"
  | stepAfter .. => "postfix expression"
  | conditional .. => "conditional expression"
  | paren _ => "parenthesized expression"
  | typeOf _ => "typeof expression"
  | branch .. => "if statement"
  | forOf .. => "for-of loop"
  | forIn .. => "for-in loop"
  | whileLoop .. => "while loop"
  | doWhile .. => "do-while loop"
  | forLoop .. => "for loop"
  | tryCatch .. => "try statement"
  | breakLoop => "break statement"
  | continueLoop => "continue statement"
  | block _ => "block"
  | call .. => "call expression"
  | construct .. => "new expression"
  | argument .. => "argument"
  | await _ => "await expression"
  | promise _ => "promise"
  | function .. => "function"
  | parameter .. => "parameter"
  | declaration .. => "variable declaration"
  | arrayPattern _ => "array binding pattern"
  | objectPattern _ => "object binding pattern"
  | binding .. => "binding element"
  | hole => "omitted element"
  | returnValue _ => "return statement"
  | exprStatement _ => "expression statement"
  | throw _ => "throw statement"

/-- Whether a node may stand where a statement is expected. -/
def isStatement : Node → Bool
  | branch .. | forOf .. | forIn .. | whileLoop .. | doWhile .. | forLoop ..
  | tryCatch .. | breakLoop | continueLoop | block _ | declaration ..
  | returnValue _ | exprStatement _ | throw _ => true
  | _ => false

/-- The direct children of a node in source order. -/
def children : Node → List NodeId
  | null | undefined | boolean _ | number _ | string _ | identifier _
  | reference .. | breakLoop | continueLoop | hole => []
  | array items => items
  | object properties => properties
  | block statements => statements
  | arrayPattern elements | objectPattern elements => elements
  | spread expr | spreadProperty expr | computedKey expr | paren expr
  | typeOf expr | argument expr _ | await expr | promise expr
  | exprStatement expr | throw expr => [expr]
  | property name value => [name, value]
  | template _ spans => spans.map TemplateSpan.expr
  | member base _ => [base]
  | element base key => [base, key]
  | binary left _ right => [left, right]
  | unary _ operand | stepAfter operand _ => [operand]
  | conditional test yes no => [test, yes, no]
  | branch test yes no => test :: yes :: no.toList
  | forOf target iterable body | forIn target iterable body =>
      [target, iterable, body]
  | whileLoop test body => [test, body]
  | doWhile body test => [body, test]
  | forLoop start test step body =>
      start.toList ++ test.toList ++ step.toList ++ [body]
  | tryCatch body handler cleanup => body :: (handler.toList ++ cleanup.toList)
  | call callee args | construct callee args => callee :: args
  | function parameters body => parameters ++ [body]
  | parameter name default => name :: default.toList
  | declaration _ name value => name :: value.toList
  | binding name key default _ => key.toList ++ name :: default.toList
  | returnValue expr => expr.toList

end Node

end ClosureVtl
