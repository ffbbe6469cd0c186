/-
Module: ClosureVtl.Render.Statement
Purpose: Statements and whole closures.
Main exports:
  Walker.loop, Walker.renderStatement, Walker.renderRoot
-/
import ClosureVtl.Render.Expression

namespace ClosureVtl.Walker

/-!
Statements are written in order.  Inside the body of a callback a slot names the
temporary that a returned value goes to; outside of callbacks the dialect says
what becomes of it.
-/

/-- Whether a node is a block. -/
def isBlock : Node → Bool
  | .block _ => true
  | _ => false

/-! ### Loops -/

/-- A loop over a list, each element bound to a name or a pattern. -/
def loop (w : Walker) (target : NodeId) (list : String) (body : Render Unit) : Render Unit := do
  w.requireLoops "loop"
  match ← w.node target with
  | .identifier _ =>
    let item ← w.address target
    Render.openLoop item list
  | .objectPattern _ | .arrayPattern _ =>
    let item ← Render.freshTemp
    Render.openLoop item list
    w.expand target item
  | other => Render.breach (.loopBinding other.kind)
  body
  Render.close

/-- What a loop binds: the target of its declaration, or the node itself. -/
def loopTarget (w : Walker) (binding : NodeId) : Render NodeId := do
  match ← w.node binding with
  | .declaration _ name _ => return name
  | _ => return binding

/-- A loop statement.  The view says what of the iterable is looped over. -/
def loopStatement (w : Walker) (kind : String) (view : String → String)
    (binding iterable body : NodeId) (slot : Option String) : Render Unit := do
  w.requireLoops kind
  let list ← w.expression iterable
  let target ← w.loopTarget binding
  w.loop target (view list) (w.statement body slot)

/-! ### Other statements -/

/-- An expression for its effect.  Calls are rendered as text and run only where
that text is written, so a value that ends in a call is written out. -/
def expressionStatement (w : Walker) (expr : NodeId) : Render Unit := do
  let expr := w.arena.unwrapParens expr
  match ← w.node expr with
  | .stepAfter operand step =>
    let _ ← w.stepped operand step
    return
  | _ =>
    let value ← w.expression expr
    if value.toList.getLast? = some ')' then Render.discard value

/-- A declaration of a name or of all names of a pattern. -/
def declare (w : Walker) (name : NodeId) (value : Option NodeId) : Render Unit := do
  match ← w.node name with
  | .identifier _ =>
    let target ← w.address name
    match value with
    | some value => w.assignNode target value
    | none => Render.assign target Text.nullText
  | .objectPattern _ | .arrayPattern _ =>
    match value with
    | some value =>
      let source ← w.reference value
      w.expand name source
    | none => Render.breach .patternWithoutValue
  | other => Render.breach (.declarationName other.kind)

/-- A branch on a condition. -/
def branch (w : Walker) (test yes : NodeId) (no : Option NodeId) (slot : Option String) :
    Render Unit := do
  let condition ← w.expression test
  match no with
  | some no => Render.choice condition (w.statement yes slot) (w.statement no slot)
  | none => Render.guarded condition (w.statement yes slot)

/-- A return: into the slot of a callback, or out of the closure. -/
def returnTo (w : Walker) (expr : Option NodeId) : Option String → Render Unit
  | none => w.returned expr
  | some slot =>
    match expr with
    | some expr => w.assignNode slot expr
    | none => Render.assign slot Text.nullText

/-- Writes a statement. -/
def renderStatement (w : Walker) (id : NodeId) (slot : Option String) : Render Unit := do
  match ← w.node id with
  | .block statements => statements.forM fun statement => w.statement statement slot
  | .exprStatement expr => w.expressionStatement expr
  | .declaration _ name value => w.declare name value
  | .branch test yes no => w.branch test yes no slot
  | node@(.forOf binding iterable body) =>
    w.loopStatement node.kind (fun list => list) binding iterable body slot
  | node@(.forIn binding iterable body) =>
    w.loopStatement node.kind (fun list => list ++ ".keySet()") binding iterable body slot
  | .returnValue expr => w.returnTo expr slot
  | .breakLoop =>
    w.requireLoops "break"
    Render.emit "#break"
  | .continueLoop => Render.unsupported (.construct "continue")
  | .throw _ => Render.unsupported (.construct "throw")
  | node@(.whileLoop ..) | node@(.doWhile ..) | node@(.forLoop ..) | node@(.tryCatch ..) =>
    Render.unsupported (.construct node.kind)
  | other => Render.breach (.inStatement other.kind)

/-! ### Closures -/

/-- Refuses a parameter of the outermost closure that is a pattern. -/
def checkRootParameter (w : Walker) (parameter : NodeId) : Render Unit := do
  match ← w.node parameter with
  | .parameter name _ =>
    match ← w.node name with
    | .identifier _ => return
    | _ => Render.unsupported .patternParameter
  | _ => return

/-- Writes a closure, or a statement or an expression that stands for one. -/
def renderRoot (w : Walker) (root : NodeId) : Render Unit := do
  match ← w.node root with
  | .function parameters body =>
    parameters.forM w.checkRootParameter
    if isBlock (← w.node body) then w.statement body none
    else w.returned (some body)
  | node =>
    if node.isStatement then w.statement root none
    else w.returned (some root)

end ClosureVtl.Walker
