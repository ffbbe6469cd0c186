/-
Module: ClosureVtl.Proofs.Render.ComputingRules
Purpose: Expressions, patterns, callbacks and JSON text compute: their rules write computing
  lines and never return from the closure.
Main exports:
  Walker.Computes.expandPattern, Walker.Computes.listOperation, Walker.Computes.call,
  Walker.Computes.renderExpression, Walker.Computes.renderStatement,
  Walker.Computes.renderFragment, Integration.Computes, Program.HandlersMiss,
  Program.misses_walkerWithin
-/
import ClosureVtl.Proofs.Render.LineCount
import ClosureVtl.Proofs.Render.PairedHandlers

namespace ClosureVtl

namespace Walker.Computes

/-!
One lemma for each rule, in the order of the rules.  Of the rules for statements only that for
statements with a slot is here: a return is then an assignment.
-/

variable {w : Walker}

/-! ### Steps built on the entry points -/

/-- Nodes, addresses and numbers are results, and no line is written for them. -/
theorem node (id : NodeId) : w.Computes (w.node id) := ofExcept _

theorem address (id : NodeId) : w.Computes (w.address id) := ofExcept _

theorem number (value : Binary64) : w.Computes (Walker.number value) := ofExcept _

/-- To store a value is to assign it. -/
theorem assignNode (target : String) (id : NodeId) : w.Computes (w.assignNode target id) :=
  bind (.expression id) fun value => assign target value

/-- So it is for a value in a temporary. -/
theorem materializeNode (id : NodeId) : w.Computes (w.materializeNode id) :=
  bind (.expression id) fun value => materialize value

/-- A reference stays as it is; anything else is assigned to a temporary. -/
theorem toReference (value : String) : w.Computes (Walker.toReference value) :=
  ite (.pure value) (materialize value)

theorem reference (id : NodeId) : w.Computes (w.reference id) :=
  bind (.expression id) fun value => toReference value

/-- An argument is assigned to a temporary if it is an operator. -/
theorem argument (id : NodeId) : w.Computes (w.argument id) := by
  apply bind (.expression _)
  intro value
  apply bind (node _)
  intro inner
  exact ite (materialize value) (.pure value)

/-- Arguments compute in a row. -/
theorem arguments (ids : List NodeId) : w.Computes (w.arguments ids) :=
  bind (mapM argument) fun _ => .pure _

/-- A loop that is refused ends the rendering and writes nothing. -/
theorem requireLoops (what : String) : w.Computes (w.requireLoops what) :=
  ite (.pure ()) (.fault _)

/-! ### Patterns -/

/-- A default is assigned in a guard. -/
theorem withDefault (value : String) (default : Option NodeId) :
    w.Computes (w.withDefault value default) := by
  cases default with
  | none => exact .pure value
  | some default =>
    apply bind (materialize value)
    intro slot
    apply bind (ifNull slot (assignNode slot default))
    intro _
    exact .pure slot

/-- A name is assigned, and a pattern is bound by the walker. -/
theorem bindElement (name : NodeId) (value : String) (default : Option NodeId) :
    w.Computes (w.bindElement name value default) := by
  have hpattern : ∀ value, w.Computes (do
      let source ← Walker.toReference value
      w.expand name source) :=
    fun value => bind (toReference value) fun source => .expand name source
  apply bind (withDefault value default)
  intro value
  apply bind (node name)
  intro named
  split
  · exact bind (address name) fun target => assign target value
  · exact hpattern value
  · exact hpattern value
  · exact .fault _

/-- The accessor of a property is text, apart from what a computed key computes. -/
theorem propertyAccess (target : String) (name : NodeId) (key : Option NodeId) :
    w.Computes (w.propertyAccess target name key) := by
  cases key with
  | none =>
    apply bind (node name)
    intro named
    split
    · exact .pure _
    · exact .fault _
  | some key =>
    apply bind (node key)
    intro keyed
    split
    · exact .pure _
    · exact .pure _
    · next value => exact bind (number value) fun _ => .pure _
    · next expr => exact bind (reference expr) fun _ => .pure _
    · exact .fault _

/-- The rest of an object is copied by a loop with a guard in it. -/
theorem objectRest (source : String) (keys : List String) :
    w.Computes (Walker.objectRest source keys) := by
  apply bind .freshTemp
  intro rest
  apply bind (assign rest _)
  intro _
  apply bind .freshTemp
  intro key
  apply bind (openLoop key _)
  intro _
  have hcopy : w.Computes (Render.discard s!"{rest}.put({key}, {source}.get({key}))") := discard _
  have hdone : w.Computes (do
      Render.close
      return rest) :=
    bind close fun _ => .pure rest
  cases keys with
  | nil => exact bind hcopy fun _ => hdone
  | cons first others => exact bind (guarded _ hcopy) fun _ => hdone

/-- An element is bound, or put off until the others are. -/
theorem bindObjectElement (target : String) (state : List String × Option NodeId)
    (element : NodeId) : w.Computes (w.bindObjectElement target state element) := by
  apply bind (node element)
  intro bound
  split
  · exact .pure _
  · next name key default =>
    apply bind (propertyAccess target name key)
    intro access
    exact bind (bindElement name access.1 default) fun _ => .pure _
  · exact .fault _

/-- All elements are bound, and the rest behind them. -/
theorem expandObject (elements : List NodeId) (target : String) :
    w.Computes (w.expandObject elements target) := by
  apply bind (foldlM (bindObjectElement target) ([], none))
  rintro ⟨keys, rest⟩
  cases rest with
  | none => exact .pure ()
  | some name => exact bind (objectRest target keys) fun value => bindElement name value none

/-- The same for an element of an array pattern. -/
theorem bindArrayElement (target : String) (rest : Option (Nat × NodeId))
    (element : NodeId × Nat) : w.Computes (w.bindArrayElement target rest element) := by
  apply bind (node element.1)
  intro bound
  split
  · exact .pure rest
  · exact .pure _
  · next name key default => exact bind (bindElement name _ default) fun _ => .pure rest
  · exact .fault _

/-- And for the whole of one. -/
theorem expandArray (elements : List NodeId) (target : String) :
    w.Computes (w.expandArray elements target) := by
  apply bind (foldlM (bindArrayElement target) none)
  intro rest
  split
  · exact .pure ()
  · next start name => exact bindElement name _ none

/-- So the names of a pattern are bound by computing lines. -/
theorem expandPattern (pattern : NodeId) (target : String) :
    w.Computes (w.expandPattern pattern target) := by
  apply bind (node pattern)
  intro shape
  split
  · exact expandObject _ target
  · exact expandArray _ target
  · exact .fault _

/-- A parameter is assigned from a value of the loop, with its default in a guard. -/
theorem bindParameter (parameter : NodeId) (source : String) :
    w.Computes (w.bindParameter parameter source) := by
  apply bind (node parameter)
  intro shape
  split
  · next name default =>
    apply bind (node name)
    intro named
    split
    · apply bind (address name)
      intro target
      cases default with
      | none => exact ite (bind (assign target source) fun _ => .pure ()) (.pure ())
      | some default =>
        have hdefault : w.Computes (Render.ifNull target (w.assignNode target default)) :=
          ifNull target (assignNode target default)
        exact ite (bind (assign target source) fun _ => hdefault) hdefault
    · exact bindElement name source default
  · exact .fault _

/-! ### Loops of chains -/

/-- The variable of a loop is chosen without a line. -/
theorem loopVariable (parameter : Option NodeId) : w.Computes (w.loopVariable parameter) := by
  cases parameter with
  | none => exact .freshTemp
  | some parameter =>
    apply bind (node parameter)
    intro shape
    split
    · next name =>
      apply bind (node name)
      intro named
      split
      · exact address name
      · exact .freshTemp
    · exact .freshTemp

/-- Parameters are bound one after the other. -/
theorem bindItemParameters (parameters : List NodeId) (item list : String) :
    w.Computes (w.bindItemParameters parameters item list) :=
  forM fun binding => bindParameter binding.1 binding.2

/-- The body of a callback is rendered with a slot of its own. -/
theorem callbackBody (body : NodeId) : w.Computes (w.callbackBody body) := by
  apply bind (node body)
  intro shape
  split
  · apply bind .freshTemp
    intro slot
    apply bind (assign slot _)
    intro _
    exact bind (.statement body slot) fun _ => .pure slot
  · exact materializeNode body

/-- The loop of a chain computes if its header does, by induction on the stages. -/
theorem renderStages {source : NodeId} {header : String → String → Render Unit}
    (hheader : ∀ item list, w.Computes (header item list)) (stages : List ListCall)
    (item : String) : w.Computes (w.renderStages source header stages item) := by
  induction stages generalizing item with
  | nil => exact bind (reference source) fun list => bind (hheader item list) fun _ => .pure list
  | cons stage inner ih =>
    apply bind (loopVariable _)
    intro stageItem
    apply bind (ih stageItem)
    intro list
    apply bind (bindItemParameters _ stageItem list)
    intro _
    apply bind (callbackBody stage.body)
    intro value
    exact bind (assign item value) fun _ => .pure list

/-- So does the loop of a consumer. -/
theorem loopOver {header : String → String → Render Unit}
    (hheader : ∀ item list, w.Computes (header item list)) (receiver : NodeId) (item : String)
    (consumerReadsList : Bool) : w.Computes (w.loopOver receiver item consumerReadsList header) :=
  renderStages hheader _ item

/-- So does that of a consumer that takes each item. -/
theorem itemLoop (c : ListCall) : w.Computes (w.itemLoop c) := by
  apply bind (loopVariable _)
  intro item
  apply bind (loopOver openLoop c.receiver item _)
  intro list
  exact bind (bindItemParameters c.parameters item list) fun _ => .pure item

/-- What is mapped is added by a line that is thrown away. -/
theorem mapLoop (c : ListCall) : w.Computes (w.mapLoop c) := by
  apply bind .freshTemp
  intro out
  apply bind (assign out _)
  intro _
  apply bind (itemLoop c)
  intro _
  apply bind (callbackBody c.body)
  intro value
  exact bind (discard _) fun _ => bind close fun _ => .pure out

/-- A loop for its effect computes. -/
theorem forEachLoop (c : ListCall) : w.Computes (w.forEachLoop c) := by
  apply bind (itemLoop c)
  intro _
  apply bind (callbackBody c.body)
  intro _
  exact bind close fun _ => .pure _

/-- What is kept is added in a guard. -/
theorem filterLoop (c : ListCall) : w.Computes (w.filterLoop c) := by
  apply bind .freshTemp
  intro out
  apply bind (assign out _)
  intro _
  apply bind (itemLoop c)
  intro item
  apply bind (callbackBody c.body)
  intro keep
  exact bind (guarded keep (discard _)) fun _ => bind close fun _ => .pure out

/-- The error of an empty list has a line of its own among the computing ones. -/
theorem emptyReduceGuard (list : String) : w.Computes (Walker.emptyReduceGuard list) :=
  guarded _ (.emit .emptyReduce)

/-- A round of a reduction computes and stores. -/
theorem reduceStep (c : ListCall) (acc item list : String) :
    w.Computes (w.reduceStep c acc item list) := by
  refine bind (forM fun binding => ?_) fun _ => ?_
  · exact bindParameter binding.1 binding.2
  apply bind (callbackBody c.body)
  intro value
  exact assign acc value

/-- A reduction tells its first round by a branch. -/
theorem reduceLoop (c : ListCall) (initial : Option NodeId) :
    w.Computes (w.reduceLoop c initial) := by
  apply bind .freshTemp
  intro acc
  cases initial with
  | none =>
    have hheader : ∀ item list, w.Computes (do
        Walker.emptyReduceGuard list
        Render.openLoop item list) :=
      fun item list => bind (emptyReduceGuard list) fun _ => openLoop item list
    apply bind (loopVariable _)
    intro item
    apply bind (loopOver hheader c.receiver item _)
    intro list
    apply bind (choice _ (assign acc item) (reduceStep c acc item list))
    intro _
    exact bind close fun _ => .pure acc
  | some initial =>
    apply bind (assignNode acc initial)
    intro _
    apply bind (loopVariable _)
    intro item
    apply bind (loopOver openLoop c.receiver item _)
    intro list
    apply bind (reduceStep c acc item list)
    intro _
    exact bind close fun _ => .pure acc

/-- So every list operation computes. -/
theorem listOperation (operation : ListOperation) (c : ListCall) (args : List NodeId) :
    w.Computes (w.listOperation operation c args) := by
  cases operation with
  | map => exact mapLoop c
  | forEach => exact forEachLoop c
  | filter => exact filterLoop c
  | reduce => exact reduceLoop c _

/-! ### Calls -/

/-- A helper computes its argument. -/
theorem helperCall? (base : NodeId) (name : String) (args : List NodeId) :
    w.Computes (w.helperCall? base name args) := by
  apply bind (node _)
  intro receiver
  split
  · exact .pure none
  · split
    · exact .pure none
    · split
      · next arg => exact bind (argument arg) fun _ => .pure _
      · exact .fault _

/-- A push computes the list and the value. -/
theorem push (base : NodeId) (args : List NodeId) : w.Computes (w.push base args) := by
  unfold Walker.push
  split
  · next arg =>
    apply bind (.expression base)
    intro list
    apply bind (node _)
    intro item
    split
    · next expr => exact bind (.expression expr) fun _ => .pure _
    · exact bind (argument arg) fun _ => .pure _
  · exact .fault _

/-- A method computes its receiver and its arguments. -/
theorem plainMethod (base : NodeId) (name : String) (args : List NodeId) :
    w.Computes (w.plainMethod base name args) :=
  bind (.expression base) fun _ => bind (arguments args) fun _ => .pure _

/-- Whatever a method is taken for, it computes. -/
theorem method (base : NodeId) (name : String) (args : List NodeId) :
    w.Computes (w.method base name args) := by
  unfold Walker.method
  split
  · split
    · exact bind (requireLoops _) fun _ => listOperation _ _ args
    · exact .fault _
  · refine ite (push base args) ?_
    apply bind (helperCall? base name args)
    intro text
    split
    · exact .pure _
    · exact plainMethod base name args

/-- A function computes its arguments. -/
theorem namedFunction (callee : NodeId) (name : String) (args : List NodeId) :
    w.Computes (w.namedFunction callee name args) :=
  ite (bind (address callee) fun _ => bind (arguments args) fun _ => .pure _) (.fault _)

/-- A call is handed to an integration, which may write lines of its own through the walker. -/
theorem call (id callee : NodeId) (args : List NodeId) : w.Computes (w.call id callee args) := by
  unfold Walker.call
  split
  · exact .integrate _ id
  · apply bind (node _)
    intro called
    split
    · exact method _ _ args
    · exact namedFunction _ _ args
    · exact namedFunction _ _ args
    · exact .fault _

/-! ### Expressions -/

/-- A step is an assignment. -/
theorem stepped (operand : NodeId) (step : Step) : w.Computes (w.stepped operand step) :=
  bind (.expression operand) fun target => bind (assign target _) fun _ => .pure target

/-- So it is behind the value that is kept. -/
theorem steppedAfter (operand : NodeId) (step : Step) :
    w.Computes (w.steppedAfter operand step) :=
  bind (.expression operand) fun target => bind (materialize target) fun before =>
    bind (assign target _) fun _ => .pure before

/-- An operator assigns or is text; what it falls back to is assigned in a guard. -/
theorem binary (left : NodeId) (op : BinaryOp) (right : NodeId) :
    w.Computes (w.binary left op right) := by
  unfold Walker.binary
  split
  · exact bind (.expression left) fun target => bind (assignNode target right) fun _ => .pure target
  · exact bind (.expression left) fun target =>
      bind (ifNull target (assignNode target right)) fun _ => .pure target
  · exact bind (materializeNode left) fun result =>
      bind (ifNull result (assignNode result right)) fun _ => .pure result
  · exact bind (argument left) fun _ => bind (.expression right) fun _ => .pure _
  · exact bind (.expression left) fun target => bind (.expression right) fun _ =>
      bind (assign target _) fun _ => .pure target
  · exact bind (.expression left) fun _ => bind (.expression right) fun _ => .pure _

/-- A sign is text in front of what its operand computes. -/
theorem unary (op : UnaryOp) (operand : NodeId) : w.Computes (w.unary op operand) := by
  cases op with
  | not => exact bind (.expression operand) fun _ => .pure _
  | neg => exact bind (.expression operand) fun _ => .pure _
  | plus => exact .expression operand
  | step direction => exact stepped operand direction

/-- Both sides of a conditional are assigned in a branch. -/
theorem conditional (test yes no : NodeId) : w.Computes (w.conditional test yes no) := by
  apply bind (.expression test)
  intro condition
  apply bind .freshTemp
  intro result
  apply bind (choice condition (assignNode result yes) (assignNode result no))
  intro _
  exact .pure result

/-- An item is added by a line that is thrown away. -/
theorem addItem (list : String) (item : NodeId) : w.Computes (w.addItem list item) := by
  apply bind (node item)
  intro shape
  split
  · next expr => exact bind (.expression expr) fun _ => discard _
  · exact bind (argument item) fun _ => discard _

/-- So a list computes, inline or not. -/
theorem arrayLiteral (items : List NodeId) : w.Computes (w.arrayLiteral items) := by
  refine ite ?_ (bind (arguments items) fun _ => .pure _)
  apply bind .freshTemp
  intro list
  apply bind (assign list _)
  intro _
  exact bind (forM (addItem list)) fun _ => .pure list

/-- A key computes if it is computed. -/
theorem propertyKey (name : NodeId) : w.Computes (w.propertyKey name) := by
  apply bind (node name)
  intro shape
  split
  · exact .pure _
  · exact .pure _
  · next value => exact bind (number value) fun _ => .pure _
  · next expr => exact argument expr
  · exact .fault _

/-- A property is added by a line that is thrown away. -/
theorem addProperty (object : String) (property : NodeId) :
    w.Computes (w.addProperty object property) := by
  apply bind (node property)
  intro shape
  split
  · next name value =>
    exact bind (propertyKey name) fun _ => bind (argument value) fun _ => discard _
  · next expr => exact bind (.expression expr) fun _ => discard _
  · exact .fault _

/-- So an object computes. -/
theorem objectLiteral (properties : List NodeId) : w.Computes (w.objectLiteral properties) := by
  apply bind .freshTemp
  intro object
  apply bind (assign object _)
  intro _
  exact bind (forM (addProperty object)) fun _ => .pure object

/-- Text is moved to a temporary by an assignment. -/
theorem templateText (text : String) : w.Computes (Walker.templateText text) :=
  ite (bind (materialize _) fun _ => .pure _) (.pure _)

/-- An interpolated value computes. -/
theorem templateSpan (span : TemplateSpan) : w.Computes (w.templateSpan span) :=
  bind (reference span.expr) fun _ => bind (templateText span.literal) fun _ => .pure _

/-- So a template computes. -/
theorem templateLiteral (head : String) (spans : List TemplateSpan) :
    w.Computes (w.templateLiteral head spans) :=
  bind (templateText head) fun _ => bind (mapM templateSpan) fun _ => .pure _

/-- Every expression computes: none of its lines returns from the closure. -/
theorem renderExpression (id : NodeId) : w.Computes (w.renderExpression id) := by
  apply bind (node id)
  intro shape
  cases shape with
  | null | undefined | string _ | boolean _ => exact .pure _
  | number value => exact number value
  | array items => exact arrayLiteral items
  | object properties => exact objectLiteral properties
  | template head spans => exact templateLiteral head spans
  | identifier _ | reference _ _ => exact address id
  | member base name => exact bind (.expression base) fun _ => .pure _
  | element base key => exact bind (.expression base) fun _ => bind (argument key) fun _ => .pure _
  | binary left op right => exact binary left op right
  | unary op operand => exact unary op operand
  | stepAfter operand step => exact steppedAfter operand step
  | conditional test yes no => exact conditional test yes no
  | paren expr | argument expr _ | await expr => exact .expression expr
  | promise expr => exact ite (.fault _) (.expression expr)
  | call callee args => exact call id callee args
  | _ => exact .fault _

/-! ### Statements -/

/-- An expression that stands alone is thrown away by a line for that. -/
theorem expressionStatement (expr : NodeId) : w.Computes (w.expressionStatement expr) := by
  apply bind (node _)
  intro shape
  split
  · next operand step => exact bind (stepped operand step) fun _ => .pure ()
  · exact bind (.expression _) fun value => ite (discard value) (.pure ())

/-- A declaration assigns one name or those of a pattern. -/
theorem declare (name : NodeId) (value : Option NodeId) : w.Computes (w.declare name value) := by
  have hpattern : ∀ value, w.Computes (w.reference value >>= w.expand name) :=
    fun value => bind (reference value) fun source => .expand name source
  apply bind (node name)
  intro shape
  split
  · apply bind (address name)
    intro target
    cases value with
    | none => exact assign target _
    | some value => exact assignNode target value
  · cases value with
    | none => exact .fault _
    | some value => exact hpattern value
  · cases value with
    | none => exact .fault _
    | some value => exact hpattern value
  · exact .fault _

/-- What a loop binds is found without a line. -/
theorem loopTarget (binding : NodeId) : w.Computes (w.loopTarget binding) := by
  apply bind (node binding)
  intro shape
  split
  · exact .pure _
  · exact .pure binding

/-- A loop computes if its body does. -/
theorem loop (target : NodeId) (list : String) {body : Render Unit} (hbody : w.Computes body) :
    w.Computes (w.loop target list body) := by
  have hrest : w.Computes (do
      body
      Render.close) :=
    bind hbody fun _ => close
  have hpattern : w.Computes (do
      let item ← Render.freshTemp
      Render.openLoop item list
      w.expand target item
      body
      Render.close) :=
    bind .freshTemp fun item => bind (openLoop item list) fun _ =>
      bind (.expand target item) fun _ => hrest
  apply bind (requireLoops _)
  intro _
  apply bind (node target)
  intro shape
  cases shape with
  | identifier name =>
    exact bind (address target) fun item => bind (openLoop item list) fun _ => hrest
  | objectPattern elements => exact hpattern
  | arrayPattern elements => exact hpattern
  | _ => exact bind (.fault _) fun _ => hrest

/-- With a slot the body of a loop statement computes, returns included. -/
theorem loopStatement (kind : String) (view : String → String) (binding iterable body : NodeId)
    (slot : String) :
    w.Computes (w.loopStatement kind view binding iterable body (some slot)) := by
  apply bind (requireLoops kind)
  intro _
  apply bind (.expression iterable)
  intro list
  apply bind (loopTarget binding)
  intro target
  exact loop target _ (.statement body slot)

/-- With a slot so do both sides of a branch. -/
theorem branch (test yes : NodeId) (no : Option NodeId) (slot : String) :
    w.Computes (w.branch test yes no (some slot)) := by
  apply bind (.expression test)
  intro condition
  cases no with
  | none => exact guarded condition (.statement yes slot)
  | some no => exact choice condition (.statement yes slot) (.statement no slot)

/-- A return in the body of a callback is an assignment to the slot. -/
theorem returnTo (expr : Option NodeId) (slot : String) :
    w.Computes (w.returnTo expr (some slot)) := by
  cases expr with
  | none => exact assign slot _
  | some expr => exact assignNode slot expr

/-- With a slot every statement computes, since a return in it is an assignment to the slot. -/
theorem renderStatement (id : NodeId) (slot : String) :
    w.Computes (w.renderStatement id (some slot)) := by
  apply bind (node id)
  intro shape
  cases shape with
  | block statements => exact forM fun statement => .statement statement slot
  | exprStatement expr => exact expressionStatement expr
  | declaration _ name value => exact declare name value
  | branch test yes no => exact branch test yes no slot
  | forOf binding iterable body => exact loopStatement _ _ binding iterable body slot
  | forIn binding iterable body => exact loopStatement _ _ binding iterable body slot
  | returnValue expr => exact returnTo expr slot
  | breakLoop => exact bind (requireLoops _) fun _ => .emit .leave
  | _ => exact .fault _

/-- Parameters of the closure are checked without a line. -/
theorem checkRootParameter (parameter : NodeId) : w.Computes (w.checkRootParameter parameter) := by
  apply bind (node parameter)
  intro shape
  split
  · next name default =>
    apply bind (node name)
    intro named
    split
    · exact .pure ()
    · exact .fault _
  · exact .pure ()

/-! ### JSON text -/

/-- A string computes at most the temporary that it is moved to. -/
theorem jsonText (text : String) : w.Computes (Walker.jsonText text) :=
  ite (bind (materialize _) fun _ => .pure _) (.pure _)

/-- A value that is printed by its type computes its reference. -/
theorem primitive (expr : NodeId) : w.Computes (w.primitive expr) :=
  ite (.fault _) (bind (reference expr) fun _ => .pure _)

/-- A key is refused if it is computed. -/
theorem jsonKey (name : NodeId) : w.Computes (w.jsonKey name) := by
  apply bind (node name)
  intro shape
  split
  · exact jsonText _
  · exact jsonText _
  · next value => exact bind (number value) fun _ => .pure _
  · exact .fault _

/-- A field computes its key and its value. -/
theorem jsonField (property : NodeId) : w.Computes (w.jsonField property) := by
  apply bind (node property)
  intro shape
  split
  · next name value => exact bind (jsonKey name) fun _ => bind (.fragment value) fun _ => .pure _
  · exact .fault _

/-- An item computes its value. -/
theorem jsonItem (item : NodeId) : w.Computes (w.jsonItem item) := by
  apply bind (node item)
  intro shape
  split
  · exact .fault _
  · exact .fragment item

/-- JSON text computes in every form. -/
theorem fragmentOf (expr : NodeId) (shape : Node) : w.Computes (w.fragmentOf expr shape) := by
  cases shape with
  | null | undefined | boolean _ => exact .pure _
  | number value => exact number value
  | string value => exact jsonText value
  | object properties => exact bind (mapM jsonField) fun _ => .pure _
  | array items => exact bind (mapM jsonItem) fun _ => .pure _
  | template _ _ => exact bind (reference expr) fun _ => .pure _
  | await inner => exact .fragment inner
  | promise inner => exact ite (.expression expr) (.fragment inner)
  | call _ _ => exact ite (.expression expr) (primitive expr)
  | _ => exact primitive expr

/-- So does the JSON text of any value. -/
theorem renderFragment (expr : NodeId) : w.Computes (w.renderFragment expr) := by
  unfold Walker.renderFragment
  dsimp only
  split
  · exact .pure _
  · exact bind (node _) fun shape => fragmentOf _ shape

end Walker.Computes

/-! ### Handlers -/

/-- Whether the handlers of an integration compute. -/
def Integration.Computes (integration : Integration) : Prop :=
  ∀ (w : Walker) (dialect : Dialect) (site : CallSite),
    w.Computes (integration.handler dialect w site)

namespace Integration

variable {w : Walker} (kind : String) (site : CallSite)

/-- A request into the stash is one assignment. -/
theorem computes_stashRequest : w.Computes (stashRequest kind w site) := by
  have hline : ∀ payload, ComputingLine ("#set($context.stash.request = \x7b\"function\": \""
      ++ kind ++ "\", \"payload\": " ++ payload ++ "\x7d)") := by
    intro payload
    have hassign := ComputingLine.assign "$context.stash.request"
      ("\x7b\"function\": \"" ++ kind ++ "\", \"payload\": " ++ payload ++ "\x7d")
    have hsame : setLine "$context.stash.request"
        ("\x7b\"function\": \"" ++ kind ++ "\", \"payload\": " ++ payload ++ "\x7d") =
          "#set($context.stash.request = \x7b\"function\": \"" ++ kind ++ "\", \"payload\": "
            ++ payload ++ "\x7d)" := by
      apply String.toList_inj.mp
      simp [setLine, toString]
    rwa [hsame] at hassign
  unfold stashRequest
  split
  · exact .bind (.pure _) fun payload => .bind (.emit (hline payload)) fun _ => .pure _
  · next first _ _ =>
    exact .bind (.argument first) fun payload => .bind (.emit (hline payload)) fun _ => .pure _

/-- A request as JSON computes its payload. -/
theorem computes_jsonRequest : w.Computes (jsonRequest kind w site) := by
  unfold jsonRequest
  split
  · exact .bind (.pure _) fun _ => .pure _
  · exact .bind (.fragment _) fun _ => .pure _

/-- An invocation computes its arguments. -/
theorem computes_invocation : w.Computes (invocation kind w site) :=
  .bind (.mapM .argument) fun _ => .pure _

/-- So does one as JSON. -/
theorem computes_jsonInvocation : w.Computes (jsonInvocation kind w site) :=
  .bind (.mapM .fragment) fun _ => .pure _

/-- The common calling styles compute: a request is left behind by an assignment. -/
theorem computes_ofStyle (kind : String) (style : Style) : (ofStyle kind style).Computes := by
  intro w dialect site
  cases dialect with
  | resolver config =>
    cases style with
    | invoke | appsyncOnly => exact computes_stashRequest kind site
    | inline => exact computes_invocation kind site
    | apigatewayOnly | none => exact .fault _
  | mapping direction config =>
    cases style with
    | invoke | apigatewayOnly => exact computes_jsonRequest kind site
    | inline => exact computes_jsonInvocation kind site
    | appsyncOnly | none => exact .fault _

end Integration

/-! ### Level by level -/

namespace Walker

variable {w : Walker} {table : Array Integration} {hit : String → Bool}

/-- A call writes what its handler writes. -/
theorem counts_dispatch
    (htable : ∀ integration ∈ table, ∀ site,
      (integration.handler w.dialect w site).Counts hit 0)
    (id : IntegrationId) (call : NodeId) : (w.dispatch table id call).Counts hit 0 := by
  rcases hi : table[id.index]? with _ | integration
  · rw [dispatch_unknown hi]
    exact .fault _
  intro out text final hrun
  rw [runOn_dispatch hi] at hrun
  split at hrun
  · cases hrun
  · have hhandler : (Render.ofExcept (CallSite.of w.arena call) >>=
        integration.handler w.dialect w).Counts hit 0 :=
      (Render.Counts.ofExcept _).before fun site _ =>
        htable integration (Array.mem_of_getElem? hi) site
    exact hhandler { out with integrations := out.integrations.push id } text final hrun

/-- A level misses the lines that no computing line is, if the level below and the handlers do.
-/
theorem Misses.above (hhit : ∀ {line}, ComputingLine line → hit line = false) (hw : w.Misses hit)
    (htable : ∀ integration ∈ table, ∀ site,
      (integration.handler w.dialect w site).Counts hit 0) : (w.above table).Misses hit where
  expression id := (Computes.renderExpression id).counts hhit hw
  statement id slot := (Computes.renderStatement id slot).counts hhit hw
  expand pattern target := (Computes.expandPattern pattern target).counts hhit hw
  fragment id := (Computes.renderFragment id).counts hhit hw
  integrate id call := counts_dispatch htable id call

end Walker

namespace Program

variable {p : Program} {dialect : Dialect} {hit : String → Bool}

/-- Whether no handler writes a line of a kind when a closure of a program is rendered. -/
def HandlersMiss (p : Program) (dialect : Dialect) (hit : String → Bool) : Prop :=
  ∀ integration ∈ p.integrations, ∀ (n : Nat) (site : CallSite),
    (integration.handler dialect (p.walkerWithin dialect n) site).Counts hit 0

/-- A walker without levels writes nothing. -/
theorem misses_walkerWithin_zero (p : Program) (dialect : Dialect) (hit : String → Bool) :
    (p.walkerWithin dialect 0).Misses hit :=
  ⟨fun _ => .fault _, fun _ _ => .fault _, fun _ _ => .fault _, fun _ => .fault _,
    fun _ _ => .fault _⟩

/-- Then no line of that kind is written but by the rules that return from the closure, unless
computing lines are of the kind. -/
theorem misses_walkerWithin (hhit : ∀ {line}, ComputingLine line → hit line = false)
    (hp : p.HandlersMiss dialect hit) (n : Nat) : (p.walkerWithin dialect n).Misses hit := by
  induction n with
  | zero => exact misses_walkerWithin_zero p dialect hit
  | succ n ih =>
    refine ih.above hhit fun integration hm site => ?_
    rw [p.dialect_walkerWithin]
    exact hp integration hm n site

/-- Handlers that compute write no such line. -/
theorem handlersMiss_of_computes (hhit : ∀ {line}, ComputingLine line → hit line = false)
    (hp : ∀ integration ∈ p.integrations, integration.Computes) : p.HandlersMiss dialect hit := by
  have hwalkers : ∀ n, (p.walkerWithin dialect n).Misses hit := by
    intro n
    induction n with
    | zero => exact misses_walkerWithin_zero p dialect hit
    | succ n ih =>
      exact ih.above hhit fun integration hm site => (hp integration hm _ _ site).counts hhit ih
  exact fun integration hm n site => (hp integration hm _ _ site).counts hhit (hwalkers n)

end Program

end ClosureVtl
