/-
Module: ClosureVtl.Proofs.Render.Rules
Purpose: The rules for calls, expressions, statements and JSON text keep the blocks
  of a template.
Main exports:
  Walker.keeps_renderExpression, Walker.PrintsPlainly, Walker.keeps_renderStatement,
  Walker.keeps_renderRoot, Walker.keeps_renderFragment, Walker.Operation,
  Walker.keeps_run
-/
import ClosureVtl.Proofs.Render.ListRules
import ClosureVtl.Render.Fragment
import ClosureVtl.Render.Statement

namespace ClosureVtl.Walker

/-!
The remaining rules, one lemma each.  Only one rule writes a line that it has not
built itself: what a mapping template returns is printed as it is.  The lemmas about
statements therefore ask that JSON text is never a line that opens or closes a
block.
-/

variable {w : Walker}

/-! ### Calls -/

/-- A call of a helper renders its one argument and writes nothing besides; any other call is
left to the rule for methods. -/
theorem keeps_helperCall? (base : NodeId) (name : String) (args : List NodeId) :
    w.Keeps (w.helperCall? base name args) := by
  apply Keeps.bind (keeps_node _)
  intro node _
  split
  · exact .pure none
  · split
    · exact .pure none
    · split
      · next arg =>
        apply Keeps.bind (keeps_argument arg)
        intro value _
        exact .pure _
      · exact keeps_unsupported _

/-- Each of the list operations is one loop, opened and closed by its own rule. -/
theorem keeps_listOperation (operation : ListOperation) (c : ListCall) (args : List NodeId) :
    w.Keeps (w.listOperation operation c args) := by
  cases operation with
  | map => exact keeps_mapLoop c
  | forEach => exact keeps_forEachLoop c
  | filter => exact keeps_filterLoop c
  | reduce => exact keeps_reduceLoop c _

/-- A value that is pushed, or the list that is spread, is rendered behind the list that takes
it. -/
theorem keeps_push (base : NodeId) (args : List NodeId) : w.Keeps (w.push base args) := by
  unfold push
  split
  · next arg =>
    apply Keeps.bind (keeps_expression base)
    intro list _
    apply Keeps.bind (keeps_node _)
    intro node _
    split
    · next expr _ =>
      apply Keeps.bind (keeps_expression expr)
      intro values _
      exact .pure _
    · apply Keeps.bind (keeps_argument arg)
      intro value _
      exact .pure _
  · exact keeps_unsupported _

/-- A method renders its receiver and its arguments, and is text itself. -/
theorem keeps_plainMethod (base : NodeId) (name : String) (args : List NodeId) :
    w.Keeps (w.plainMethod base name args) := by
  apply Keeps.bind (keeps_expression base)
  intro receiver _
  apply Keeps.bind (keeps_arguments args)
  intro args _
  exact .pure _

/-- Whatever a method is taken for, a loop, a push, a helper or a plain call, its blocks are
closed. -/
theorem keeps_method (base : NodeId) (name : String) (args : List NodeId) :
    w.Keeps (w.method base name args) := by
  unfold method
  split
  · split
    · apply Keeps.bind (keeps_requireLoops _)
      intro _ _
      exact keeps_listOperation _ _ args
    · exact keeps_unsupported _
  · refine .ite (fun _ => keeps_push base args) fun _ => ?_
    apply Keeps.bind (keeps_helperCall? base name args)
    intro text _
    split
    · exact .pure _
    · exact keeps_plainMethod base name args

/-- A function of the template language is text with the arguments in it; any other is refused.
-/
theorem keeps_namedFunction (callee : NodeId) (name : String) (args : List NodeId) :
    w.Keeps (w.namedFunction callee name args) := by
  refine .ite (fun _ => ?_) fun _ => keeps_unsupported _
  apply Keeps.bind (keeps_address callee)
  intro function _
  apply Keeps.bind (keeps_arguments args)
  intro args _
  exact .pure _

/-- A call is handed to an integration, to a method or to a function, and none of them leaves a
block open. -/
theorem keeps_call (id callee : NodeId) (args : List NodeId) : w.Keeps (w.call id callee args) := by
  unfold call
  split
  · exact fun _ => .integrate _ id
  · apply Keeps.bind (keeps_node _)
    intro node _
    split
    · exact keeps_method _ _ args
    · exact keeps_namedFunction _ _ args
    · exact keeps_namedFunction _ _ args
    · exact keeps_unsupported _

/-- A promise adds nothing to what it promises. -/
theorem keeps_promised (id expr : NodeId) : w.Keeps (w.promised id expr) :=
  .ite (fun _ => .fault _) fun _ => keeps_expression expr

/-! ### Expressions -/

/-- A step is one assignment behind its target. -/
theorem keeps_stepped (operand : NodeId) (step : Step) : w.Keeps (w.stepped operand step) := by
  apply Keeps.bind (keeps_expression operand)
  intro target _
  apply Keeps.bind (.assign target _)
  intro _ _
  exact .pure target

/-- A step after the value is read takes one temporary more. -/
theorem keeps_steppedAfter (operand : NodeId) (step : Step) :
    w.Keeps (w.steppedAfter operand step) := by
  apply Keeps.bind (keeps_expression operand)
  intro target _
  apply Keeps.bind (.materialize target)
  intro before _
  apply Keeps.bind (.assign target _)
  intro _ _
  exact .pure before

/-- Operators that store or fall back write assignments, the latter inside a guard that is closed
again; the others are text. -/
theorem keeps_binary (left : NodeId) (op : BinaryOp) (right : NodeId) :
    w.Keeps (w.binary left op right) := by
  unfold binary
  split
  · apply Keeps.bind (keeps_expression left)
    intro target _
    apply Keeps.bind (keeps_assignNode target right)
    intro _ _
    exact .pure target
  · apply Keeps.bind (keeps_expression left)
    intro target _
    apply Keeps.bind (.ifNull target (keeps_assignNode target right))
    intro _ _
    exact .pure target
  · apply Keeps.bind (keeps_materializeNode left)
    intro result _
    apply Keeps.bind (.ifNull result (keeps_assignNode result right))
    intro _ _
    exact .pure result
  · apply Keeps.bind (keeps_argument left)
    intro key _
    apply Keeps.bind (keeps_expression right)
    intro object _
    exact .pure _
  · apply Keeps.bind (keeps_expression left)
    intro target _
    apply Keeps.bind (keeps_expression right)
    intro value _
    apply Keeps.bind (.assign target _)
    intro _ _
    exact .pure target
  · apply Keeps.bind (keeps_expression left)
    intro left _
    apply Keeps.bind (keeps_expression right)
    intro right _
    exact .pure _

/-- A sign or a negation is text around its operand. -/
theorem keeps_unary (op : UnaryOp) (operand : NodeId) : w.Keeps (w.unary op operand) := by
  cases op with
  | not => exact .bind (keeps_expression operand) fun _ _ => .pure _
  | neg => exact .bind (keeps_expression operand) fun _ _ => .pure _
  | plus => exact keeps_expression operand
  | step direction => exact keeps_stepped operand direction

/-- Both sides of a conditional stand in one branch, which is closed behind the second. -/
theorem keeps_conditional (test yes no : NodeId) : w.Keeps (w.conditional test yes no) := by
  apply Keeps.bind (keeps_expression test)
  intro condition _
  apply Keeps.bind .freshTemp
  intro result _
  have hyes : w.Keeps (w.assignNode result yes) := keeps_assignNode result yes
  have hno : w.Keeps (w.assignNode result no) := keeps_assignNode result no
  apply Keeps.bind (.choice condition hyes hno)
  intro _ _
  exact .pure result

/-- An item is added by one line behind those that its value needs. -/
theorem keeps_addItem (list : String) (item : NodeId) : w.Keeps (w.addItem list item) := by
  apply Keeps.bind (keeps_node item)
  intro node _
  split
  · next expr _ =>
    apply Keeps.bind (keeps_expression expr)
    intro value _
    exact .discard _
  · apply Keeps.bind (keeps_argument item)
    intro value _
    exact .discard _

/-- A list is text, or one line for each item if some item is spread. -/
theorem keeps_arrayLiteral (items : List NodeId) : w.Keeps (w.arrayLiteral items) := by
  refine .ite (fun _ => ?_) fun _ => ?_
  · apply Keeps.bind .freshTemp
    intro list _
    apply Keeps.bind (.assign list _)
    intro _ _
    apply Keeps.bind (.forM fun item _ => keeps_addItem list item)
    intro _ _
    exact .pure list
  · exact .bind (keeps_arguments items) fun _ _ => .pure _

/-- A computed key may need lines of its own; any other key is text. -/
theorem keeps_propertyKey (name : NodeId) : w.Keeps (w.propertyKey name) := by
  apply Keeps.bind (keeps_node name)
  intro node _
  split
  · exact .pure _
  · exact .pure _
  · next value _ => exact .bind (keeps_number value) fun _ _ => .pure _
  · next expr _ => exact keeps_argument expr
  · exact keeps_breach _

/-- A property is added by one line behind those that its key and its value need. -/
theorem keeps_addProperty (object : String) (property : NodeId) :
    w.Keeps (w.addProperty object property) := by
  apply Keeps.bind (keeps_node property)
  intro node _
  split
  · next name value _ =>
    apply Keeps.bind (keeps_propertyKey name)
    intro key _
    apply Keeps.bind (keeps_argument value)
    intro value _
    exact .discard _
  · next expr _ =>
    apply Keeps.bind (keeps_expression expr)
    intro value _
    exact .discard _
  · exact keeps_breach _

/-- An object is a temporary to which its properties are added in turn. -/
theorem keeps_objectLiteral (properties : List NodeId) : w.Keeps (w.objectLiteral properties) := by
  apply Keeps.bind .freshTemp
  intro object _
  apply Keeps.bind (.assign object _)
  intro _ _
  apply Keeps.bind (.forM fun property _ => keeps_addProperty object property)
  intro _ _
  exact .pure object

/-- Text that the engine would evaluate is moved to a temporary by one assignment. -/
theorem keeps_templateText (text : String) : w.Keeps (templateText text) := by
  refine .ite (fun _ => ?_) fun _ => .pure _
  exact .bind (.materialize _) fun _ _ => .pure _

/-- An interpolated expression and the text behind it write what each of them needs. -/
theorem keeps_templateSpan (span : TemplateSpan) : w.Keeps (w.templateSpan span) := by
  apply Keeps.bind (keeps_reference span.expr)
  intro value _
  apply Keeps.bind (keeps_templateText span.literal)
  intro literal _
  exact .pure _

/-- A template writes what its parts need, in source order. -/
theorem keeps_templateLiteral (head : String) (spans : List TemplateSpan) :
    w.Keeps (w.templateLiteral head spans) := by
  apply Keeps.bind (keeps_templateText head)
  intro head _
  apply Keeps.bind (.mapM fun span _ => keeps_templateSpan span)
  intro spans _
  exact .pure _

/-- Every form of expression keeps the blocks, or it is refused. -/
theorem keeps_renderExpression (id : NodeId) : w.Keeps (w.renderExpression id) := by
  apply Keeps.bind (keeps_node id)
  intro node _
  cases node with
  | null | undefined | string _ => exact .pure _
  | boolean value => exact .pure _
  | number value => exact keeps_number value
  | array items => exact keeps_arrayLiteral items
  | object properties => exact keeps_objectLiteral properties
  | template head spans => exact keeps_templateLiteral head spans
  | identifier _ | reference _ _ => exact keeps_address id
  | member base name => exact .bind (keeps_expression base) fun _ _ => .pure _
  | element base key =>
    apply Keeps.bind (keeps_expression base)
    intro base _
    apply Keeps.bind (keeps_argument key)
    intro key _
    exact .pure _
  | binary left op right => exact keeps_binary left op right
  | unary op operand => exact keeps_unary op operand
  | stepAfter operand step => exact keeps_steppedAfter operand step
  | conditional test yes no => exact keeps_conditional test yes no
  | paren expr | argument expr _ | await expr => exact keeps_expression expr
  | promise expr => exact keeps_promised id expr
  | call callee args => exact keeps_call id callee args
  | typeOf _ | construct _ _ | function _ _ | spread _ => exact keeps_unsupported _
  | _ => exact keeps_breach _

/-! ### Statements -/

/-- Whether no JSON text that a walker of mapping templates yields opens or closes a
block when it is printed. -/
def PrintsPlainly (w : Walker) : Prop :=
  ∀ direction config, w.dialect = .mapping direction config →
    ∀ id text, (w.fragment id).Yields text → lineRole text = .plain

/-- A value is returned by one line of a resolver template; in a mapping template it is a line
that opens or closes nothing. -/
theorem keeps_returned (hw : w.PrintsPlainly) (value : Option NodeId) :
    w.Keeps (w.returned value) := by
  unfold returned
  split
  · next config value _ =>
    apply Keeps.bind (keeps_expression value)
    intro text _
    apply Keeps.emit
    have hstarts : ['#', 'r'] <+: (s!"#return({text})").toList := by
      repeat apply starts_append
      decide
    exact lineRole_of_directive hstarts (by decide) (by decide) (by decide)
  · exact .emit (by decide)
  · next direction config value hdialect =>
    apply Keeps.bind (keeps_fragment value)
    intro text htext
    apply Keeps.emit
    exact hw direction config hdialect value text htext
  · exact .emit (by decide)

/-- A loop opens one block and closes it behind its body. -/
theorem keeps_loop (target : NodeId) (list : String) {body : Render Unit} (hbody : w.Keeps body) :
    w.Keeps (w.loop target list body) := by
  apply Keeps.bind (keeps_requireLoops _)
  intro _ _
  apply Keeps.bind (keeps_node target)
  intro node _ stack
  have hrest : w.Writes (do
      body
      Render.close) (.loop :: stack) stack :=
    .bind (hbody _) fun _ _ => .close
  have hpattern : w.Writes (do
      let item ← Render.freshTemp
      Render.openLoop item list
      w.expand target item
      body
      Render.close) stack stack := by
    apply Writes.bind .freshTemp
    intro item _
    apply Writes.bind (.openLoop item list)
    intro _ _
    exact .bind (keeps_expand target item _) fun _ _ => hrest
  cases node with
  | identifier name =>
    apply Writes.bind (keeps_address target _)
    intro item _
    exact .bind (.openLoop item list) fun _ _ => hrest
  | objectPattern elements => exact hpattern
  | arrayPattern elements => exact hpattern
  | _ => exact .bind (.fault _) fun _ _ => hrest

/-- To find out what a loop binds nothing is written. -/
theorem keeps_loopTarget (binding : NodeId) : w.Keeps (w.loopTarget binding) := by
  apply Keeps.bind (keeps_node binding)
  intro node _
  split
  · exact .pure _
  · exact .pure binding

/-- A loop statement writes what its list needs and then a loop. -/
theorem keeps_loopStatement (kind : String) (view : String → String)
    (binding iterable body : NodeId) (slot : Option String) :
    w.Keeps (w.loopStatement kind view binding iterable body slot) := by
  apply Keeps.bind (keeps_requireLoops kind)
  intro _ _
  apply Keeps.bind (keeps_expression iterable)
  intro list _
  apply Keeps.bind (keeps_loopTarget binding)
  intro target _
  exact keeps_loop target _ (keeps_statement body slot)

/-- An expression that stands alone is discarded by one line at most. -/
theorem keeps_expressionStatement (expr : NodeId) : w.Keeps (w.expressionStatement expr) := by
  apply Keeps.bind (keeps_node _)
  intro node _
  split
  · next operand step _ => exact .bind (keeps_stepped operand step) fun _ _ => .pure ()
  · apply Keeps.bind (keeps_expression _)
    intro value _
    exact .ite (fun _ => .discard value) fun _ => .pure ()

/-- A declaration binds one name by an assignment, or all names of a pattern. -/
theorem keeps_declare (name : NodeId) (value : Option NodeId) : w.Keeps (w.declare name value) := by
  have hpattern : ∀ value, w.Keeps (w.reference value >>= w.expand name) :=
    fun value => .bind (keeps_reference value) fun source _ => keeps_expand name source
  apply Keeps.bind (keeps_node name)
  intro node _
  split
  · apply Keeps.bind (keeps_address name)
    intro target _
    cases value with
    | none => exact .assign target _
    | some value => exact keeps_assignNode target value
  · cases value with
    | none => exact keeps_breach _
    | some value => exact hpattern value
  · cases value with
    | none => exact keeps_breach _
    | some value => exact hpattern value
  · exact keeps_breach _

/-- A branch is closed behind the side that is rendered last. -/
theorem keeps_branch (test yes : NodeId) (no : Option NodeId) (slot : Option String) :
    w.Keeps (w.branch test yes no slot) := by
  apply Keeps.bind (keeps_expression test)
  intro condition _
  cases no with
  | none => exact .guarded condition (keeps_statement yes slot)
  | some no => exact .choice condition (keeps_statement yes slot) (keeps_statement no slot)

/-- A return is an assignment to the slot of a callback, or a line that returns from the closure.
-/
theorem keeps_returnTo (hw : w.PrintsPlainly) (expr : Option NodeId) (slot : Option String) :
    w.Keeps (w.returnTo expr slot) := by
  cases slot with
  | none => exact keeps_returned hw expr
  | some slot =>
    cases expr with
    | none => exact .assign slot _
    | some expr => exact keeps_assignNode slot expr

/-- Every form of statement keeps the blocks, or it is refused. -/
theorem keeps_renderStatement (hw : w.PrintsPlainly) (id : NodeId) (slot : Option String) :
    w.Keeps (w.renderStatement id slot) := by
  apply Keeps.bind (keeps_node id)
  intro node _
  cases node with
  | block statements => exact .forM fun statement _ => keeps_statement statement slot
  | exprStatement expr => exact keeps_expressionStatement expr
  | declaration _ name value => exact keeps_declare name value
  | branch test yes no => exact keeps_branch test yes no slot
  | forOf binding iterable body => exact keeps_loopStatement _ _ binding iterable body slot
  | forIn binding iterable body => exact keeps_loopStatement _ _ binding iterable body slot
  | returnValue expr => exact keeps_returnTo hw expr slot
  | breakLoop =>
    apply Keeps.bind (keeps_requireLoops _)
    intro _ _
    exact .emit (by decide)
  | continueLoop | throw _ => exact keeps_unsupported _
  | whileLoop _ _ | doWhile _ _ | forLoop _ _ _ _ | tryCatch _ _ _ => exact keeps_unsupported _
  | _ => exact keeps_breach _

/-! ### Closures -/

/-- Parameters of the closure are looked at, and nothing is written for them. -/
theorem keeps_checkRootParameter (parameter : NodeId) :
    w.Keeps (w.checkRootParameter parameter) := by
  apply Keeps.bind (keeps_node parameter)
  intro node _
  split
  · next name _ _ =>
    apply Keeps.bind (keeps_node name)
    intro node _
    split
    · exact .pure ()
    · exact keeps_unsupported _
  · exact .pure ()

/-- So a closure as a whole keeps the blocks, whether its body is a block or an expression. -/
theorem keeps_renderRoot (hw : w.PrintsPlainly) (root : NodeId) : w.Keeps (w.renderRoot root) := by
  apply Keeps.bind (keeps_node root)
  intro node _
  split
  · next parameters body _ =>
    apply Keeps.bind (.forM fun parameter _ => keeps_checkRootParameter parameter)
    intro _ _
    apply Keeps.bind (keeps_node body)
    intro node _
    exact .ite (fun _ => keeps_statement body none) fun _ => keeps_returned hw _
  · exact .ite (fun _ => keeps_statement root none) fun _ => keeps_returned hw _

/-! ### JSON text -/

/-- Text of a JSON string may have to be moved to a temporary first. -/
theorem keeps_jsonText (text : String) : w.Keeps (jsonText text) := by
  refine .ite (fun _ => ?_) fun _ => .pure _
  exact .bind (.materialize _) fun _ _ => .pure _

/-- What is printed by its type is rendered to a reference first. -/
theorem keeps_primitive (expr : NodeId) : w.Keeps (w.primitive expr) := by
  refine .ite (fun _ => keeps_unsupported _) fun _ => ?_
  exact .bind (keeps_reference expr) fun _ _ => .pure _

/-- A key writes what its text needs; one that is computed is refused. -/
theorem keeps_jsonKey (name : NodeId) : w.Keeps (w.jsonKey name) := by
  apply Keeps.bind (keeps_node name)
  intro node _
  split
  · exact keeps_jsonText _
  · exact keeps_jsonText _
  · next value _ => exact .bind (keeps_number value) fun _ _ => .pure _
  · exact keeps_unsupported _

/-- A field writes what its key and its value need. -/
theorem keeps_jsonField (property : NodeId) : w.Keeps (w.jsonField property) := by
  apply Keeps.bind (keeps_node property)
  intro node _
  split
  · next name value _ =>
    apply Keeps.bind (keeps_jsonKey name)
    intro key _
    apply Keeps.bind (keeps_fragment value)
    intro value _
    exact .pure _
  · exact keeps_unsupported _

/-- An item writes what its value needs; one that is spread is refused. -/
theorem keeps_jsonItem (item : NodeId) : w.Keeps (w.jsonItem item) := by
  apply Keeps.bind (keeps_node item)
  intro node _
  split
  · exact keeps_unsupported _
  · exact keeps_fragment item

/-- Literals write what their parts need; whatever else is no path is printed by its type or is a
call. -/
theorem keeps_fragmentOf (expr : NodeId) (node : Node) : w.Keeps (w.fragmentOf expr node) := by
  cases node with
  | null | undefined | boolean _ => exact .pure _
  | number value => exact keeps_number value
  | string value => exact keeps_jsonText value
  | object properties =>
    exact .bind (.mapM fun property _ => keeps_jsonField property) fun _ _ => .pure _
  | array items => exact .bind (.mapM fun item _ => keeps_jsonItem item) fun _ _ => .pure _
  | template _ _ => exact .bind (keeps_reference expr) fun _ _ => .pure _
  | await inner => exact keeps_fragment inner
  | promise inner => exact .ite (fun _ => keeps_expression expr) fun _ => keeps_fragment inner
  | call _ _ => exact .ite (fun _ => keeps_expression expr) fun _ => keeps_primitive expr
  | _ => exact keeps_primitive expr

/-- A path into the payload writes nothing; anything else is rendered by its form. -/
theorem keeps_renderFragment (expr : NodeId) : w.Keeps (w.renderFragment expr) := by
  unfold renderFragment
  dsimp only
  split
  · exact .pure _
  · apply Keeps.bind (keeps_node _)
    intro node _
    exact keeps_fragmentOf _ node

/-! ### Operations -/

/-- What can be asked of a walker from outside. -/
inductive Operation where
  | root (id : NodeId)
  | statement (id : NodeId) (slot : Option String)
  | expression (id : NodeId)
  | reference (id : NodeId)
  | argument (id : NodeId)
  | expand (pattern : NodeId) (target : String)
  | fragment (id : NodeId)
deriving DecidableEq, Repr

/-- Runs an operation; operations on expressions return text. -/
def run (w : Walker) : Operation → Render (Option String)
  | .root id => do
    w.renderRoot id
    return none
  | .statement id slot => do
    w.statement id slot
    return none
  | .expression id => return some (← w.expression id)
  | .reference id => return some (← w.reference id)
  | .argument id => return some (← w.argument id)
  | .expand pattern target => do
    w.expand pattern target
    return none
  | .fragment id => return some (← w.fragment id)

/-- Every operation of a walker keeps the blocks. -/
theorem keeps_run (hw : w.PrintsPlainly) (operation : Operation) : w.Keeps (w.run operation) := by
  cases operation with
  | root id => exact .bind (keeps_renderRoot hw id) fun _ _ => .pure _
  | statement id slot => exact .bind (keeps_statement id slot) fun _ _ => .pure _
  | expression id => exact .bind (keeps_expression id) fun _ _ => .pure _
  | reference id => exact .bind (keeps_reference id) fun _ _ => .pure _
  | argument id => exact .bind (keeps_argument id) fun _ _ => .pure _
  | expand pattern target => exact .bind (keeps_expand pattern target) fun _ _ => .pure _
  | fragment id => exact .bind (keeps_fragment id) fun _ _ => .pure _

end ClosureVtl.Walker
