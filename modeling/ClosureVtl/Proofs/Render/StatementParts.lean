/-
Module: ClosureVtl.Proofs.Render.StatementParts
Purpose: The parts of statements, patterns and JSON texts that are rendered with them, and the
  places of their texts.
Main exports:
  Arena.BindingPart, Arena.StatementPart, Arena.FragmentPart, Walker.writesOut_expandPattern,
  Walker.puts_of_renderStatement, Walker.puts_of_renderFragment
-/
import ClosureVtl.Proofs.Render.ExpressionParts

namespace ClosureVtl

/-!
Statements and patterns have no text, so what they render is in their lines.  The one
exception is an expression statement: its value is written only if it ends like a call, and
`TextPlace.dropped` says no more than that the value is rendered.  A step after the value is
written as a step before it there.  A JSON text keeps the texts of what it is made of; a value
that is printed by its type is read more than once, so it is stored unless it is a reference.
-/

namespace Arena

/-! ### Patterns -/

/-- What is rendered to bind the fixed elements of a pattern. -/
inductive BindingPart (a : Arena) (id : NodeId) : Task → Prop where
  | default {node : Node} {element name default : NodeId} {key : Option NodeId}
      (found : a.get? id = some node) (pattern : node.isPattern = true)
      (among : element ∈ node.children)
      (bound : a.get? element = some (.binding name key (some default) false)) :
      BindingPart a id (.expression default)
  | nested {node target : Node} {element name : NodeId} {key default : Option NodeId}
      (found : a.get? id = some node) (pattern : node.isPattern = true)
      (among : element ∈ node.children)
      (bound : a.get? element = some (.binding name key default false))
      (named : a.get? name = some target) (inner : target.isPattern = true) :
      BindingPart a id (.pattern name)
  | key {elements : List NodeId} {element name key expr : NodeId} {default : Option NodeId}
      (found : a.get? id = some (.objectPattern elements)) (among : element ∈ elements)
      (bound : a.get? element = some (.binding name (some key) default false))
      (computed : a.get? key = some (.computedKey expr)) : BindingPart a id (.expression expr)

/-! ### Statements -/

/-- Whether a node is a loop over a list or over the keys of a map. -/
def IsLoop (a : Arena) (id binding iterable body : NodeId) : Prop :=
  a.get? id = some (.forOf binding iterable body) ∨ a.get? id = some (.forIn binding iterable body)

/-- Whether a loop binds a name or a pattern: that of its declaration, or the binding itself. -/
inductive LoopBinds (a : Arena) : NodeId → NodeId → Prop where
  | declared {binding name : NodeId} {kind : DeclKind} {value : Option NodeId}
      (found : a.get? binding = some (.declaration kind name value)) : LoopBinds a binding name
  | plain {binding : NodeId} {node : Node} (found : a.get? binding = some node)
      (undeclared : ∀ kind name value, node ≠ .declaration kind name value) :
      LoopBinds a binding binding

/-- What is rendered for a statement of a dialect, with the place of its text. -/
inductive StatementPart (a : Arena) (dialect : Dialect) (id : NodeId) (inCallback : Bool) :
    TextPlace → Task → Prop where
  | item {statements : List NodeId} {statement : NodeId}
      (node : a.get? id = some (.block statements)) (among : statement ∈ statements) :
      StatementPart a dialect id inCallback .line (.statement statement inCallback)
  | value {kind : DeclKind} {name value : NodeId}
      (node : a.get? id = some (.declaration kind name (some value))) :
      StatementPart a dialect id inCallback .line (.expression value)
  | names {kind : DeclKind} {name value : NodeId} {target : Node}
      (node : a.get? id = some (.declaration kind name (some value)))
      (named : a.get? name = some target) (pattern : target.isPattern = true) :
      StatementPart a dialect id inCallback .line (.pattern name)
  | test {test yes : NodeId} {no : Option NodeId} (node : a.get? id = some (.branch test yes no)) :
      StatementPart a dialect id inCallback .line (.expression test)
  | yes {test yes : NodeId} {no : Option NodeId} (node : a.get? id = some (.branch test yes no)) :
      StatementPart a dialect id inCallback .line (.statement yes inCallback)
  | no {test yes no : NodeId} (node : a.get? id = some (.branch test yes (some no))) :
      StatementPart a dialect id inCallback .line (.statement no inCallback)
  | iterable {binding iterable body : NodeId} (loop : a.IsLoop id binding iterable body) :
      StatementPart a dialect id inCallback .line (.expression iterable)
  | body {binding iterable body : NodeId} (loop : a.IsLoop id binding iterable body) :
      StatementPart a dialect id inCallback .line (.statement body inCallback)
  | round {binding iterable body name : NodeId} {target : Node}
      (loop : a.IsLoop id binding iterable body) (binds : a.LoopBinds binding name)
      (named : a.get? name = some target) (pattern : target.isPattern = true) :
      StatementPart a dialect id inCallback .line (.pattern name)
  | returned {expr : NodeId} (node : a.get? id = some (.returnValue (some expr)))
      (value : inCallback = true ∨ dialect.supportsLoops = true) :
      StatementPart a dialect id inCallback .line (.expression expr)
  | printed {expr : NodeId} (node : a.get? id = some (.returnValue (some expr)))
      (json : inCallback = false ∧ dialect.supportsLoops = false) :
      StatementPart a dialect id inCallback .line (.fragment expr)
  | step {expr operand : NodeId} {step : Step} (node : a.get? id = some (.exprStatement expr))
      (steps : a.get? (a.unwrapParens expr) = some (.stepAfter operand step)) :
      StatementPart a dialect id inCallback .line (.expression operand)
  | effect {expr : NodeId} (node : a.get? id = some (.exprStatement expr))
      (value : ∀ operand step, a.get? (a.unwrapParens expr) ≠ some (.stepAfter operand step)) :
      StatementPart a dialect id inCallback .dropped (.expression (a.unwrapParens expr))

/-! ### JSON texts -/

/-- Whether a value is computed and printed by its type. -/
def printsByType (a : Arena) (expr : NodeId) : Node → Bool
  | .null | .undefined | .boolean _ | .number _ | .string _ | .object _ | .array _
  | .template .. | .await _ | .promise _ => false
  | .call .. => (a.calledIntegration expr).isNone
  | _ => true

/-- What is rendered for a JSON text.  A path into the payload is read as it is. -/
inductive FragmentPart (a : Arena) (id : NodeId) : TextPlace → Task → Prop where
  | field {properties : List NodeId} {property name value : NodeId}
      (path : a.jsonPath (a.unwrapParens id) = none)
      (node : a.get? (a.unwrapParens id) = some (.object properties))
      (among : property ∈ properties) (member : a.get? property = some (.property name value)) :
      FragmentPart a id .text (.fragment value)
  | item {items : List NodeId} {item : NodeId} (path : a.jsonPath (a.unwrapParens id) = none)
      (node : a.get? (a.unwrapParens id) = some (.array items)) (among : item ∈ items) :
      FragmentPart a id .text (.fragment item)
  | awaited {inner : NodeId} (path : a.jsonPath (a.unwrapParens id) = none)
      (node : a.get? (a.unwrapParens id) = some (.await inner)) :
      FragmentPart a id .text (.fragment inner)
  | promised {inner : NodeId} (path : a.jsonPath (a.unwrapParens id) = none)
      (node : a.get? (a.unwrapParens id) = some (.promise inner))
      (plain : a.calledIntegration inner = none) : FragmentPart a id .text (.fragment inner)
  | promisedCall {inner : NodeId} (path : a.jsonPath (a.unwrapParens id) = none)
      (node : a.get? (a.unwrapParens id) = some (.promise inner))
      (calls : (a.calledIntegration inner).isSome = true) :
      FragmentPart a id .text (.expression (a.unwrapParens id))
  | call {callee : NodeId} {args : List NodeId} (path : a.jsonPath (a.unwrapParens id) = none)
      (node : a.get? (a.unwrapParens id) = some (.call callee args))
      (calls : (a.calledIntegration (a.unwrapParens id)).isSome = true) :
      FragmentPart a id .text (.expression (a.unwrapParens id))
  | template {head : String} {spans : List TemplateSpan}
      (path : a.jsonPath (a.unwrapParens id) = none)
      (node : a.get? (a.unwrapParens id) = some (.template head spans)) :
      FragmentPart a id .line (.expression (a.unwrapParens id))
  | primitive {node : Node} (path : a.jsonPath (a.unwrapParens id) = none)
      (found : a.get? (a.unwrapParens id) = some node)
      (prints : a.printsByType (a.unwrapParens id) node = true) :
      FragmentPart a id .line (.expression (a.unwrapParens id))

end Arena

namespace Walker

variable {w : Walker} {id : NodeId} {task : Task} {place : TextPlace} {text : String}
  {out final : Output} {α β σ : Type}

/-! ### Binding

An element of a pattern is bound in lines: its default is rendered behind a test, a pattern
in its place is expanded from what it takes, and a computed key is rendered in front of
both.
-/

/-- What is rendered for one element of an object pattern, behind the access to its value. -/
theorem writesOut_bindObjectElement (hw : w.KeepsBlocks) {element name : NodeId}
    {key default : Option NodeId}
    (bound : w.arena.get? element = some (.binding name key default false))
    (h : ∀ value, w.WritesOut (w.bindElement name value default) task) (target : String)
    (state : List String × Option NodeId) :
    w.WritesOut (w.bindObjectElement target state element) task :=
  .node bound (.later ((keeps_propertyAccess target name key).appends hw) fun access =>
    (h access.1).first fun _ => Render.appends_pure _)

/-- A computed key is stored unless it is a reference. -/
theorem writesOut_bindObjectElement_key (hw : w.KeepsBlocks) {element name key expr : NodeId}
    {default : Option NodeId}
    (bound : w.arena.get? element = some (.binding name (some key) default false))
    (computed : w.arena.get? key = some (.computedKey expr)) (target : String)
    (state : List String × Option NodeId) :
    w.WritesOut (w.bindObjectElement target state element) (.expression expr) := by
  refine .node bound (WritesOut.first ?_ fun access =>
    ((keeps_bindElement name access.1 default).appends hw).bind fun _ => Render.appends_pure _)
  exact .node computed ((writesOut_reference hw expr).first fun _ => Render.appends_pure _)

/-- An element is bound in the fold over all of them, from whatever state. -/
theorem writesOut_expandObject (hw : w.KeepsBlocks) {elements : List NodeId} {element : NodeId}
    (hm : element ∈ elements) (target : String)
    (h : ∀ state, w.WritesOut (w.bindObjectElement target state element) task) :
    w.WritesOut (w.expandObject elements target) task := by
  refine (WritesOut.foldlM hm (fun state element =>
    (keeps_bindObjectElement target state element).appends hw) h ([], none)).first ?_
  rintro ⟨keys, rest⟩
  cases rest with
  | none => exact Render.appends_pure _
  | some name =>
    exact ((keeps_objectRest target keys).appends hw).bind fun value =>
      (keeps_bindElement name value none).appends hw

/-- The same for an array, where the position of the element is known from the list. -/
theorem writesOut_expandArray (hw : w.KeepsBlocks) {elements : List NodeId}
    {element name : NodeId} {key default : Option NodeId} (hm : element ∈ elements)
    (bound : w.arena.get? element = some (.binding name key default false))
    (h : ∀ value, w.WritesOut (w.bindElement name value default) task) (target : String) :
    w.WritesOut (w.expandArray elements target) task := by
  obtain ⟨i, hi, rfl⟩ := List.getElem_of_mem hm
  have hpair : (elements[i], i) ∈ elements.zipIdx :=
    List.mk_mem_zipIdx_iff_getElem?.mpr (List.getElem?_eq_getElem hi)
  have helement : ∀ rest, w.WritesOut (w.bindArrayElement target rest (elements[i], i)) task :=
    fun rest => .node bound ((h _).first fun _ => Render.appends_pure _)
  refine (WritesOut.foldlM hpair (fun state element =>
    (keeps_bindArrayElement target state element).appends hw) helement none).first ?_
  intro rest
  cases rest with
  | none => exact Render.appends_pure _
  | some last => exact (keeps_bindElement last.2 _ none).appends hw

/-- Every part of a pattern is in the lines that bind its names. -/
theorem writesOut_expandPattern (hw : w.KeepsBlocks) (part : w.arena.BindingPart id task)
    (target : String) : w.WritesOut (w.expandPattern id target) task := by
  have hbind : ∀ {node : Node} {element name : NodeId} {key default : Option NodeId},
      w.arena.get? id = some node → node.isPattern = true → element ∈ node.children →
      w.arena.get? element = some (.binding name key default false) →
      (∀ value, w.WritesOut (w.bindElement name value default) task) →
      w.WritesOut (w.expandPattern id target) task := by
    intro node element name key default found pattern among bound h
    refine .node found ?_
    cases node with
    | objectPattern elements =>
      exact writesOut_expandObject hw among target (writesOut_bindObjectElement hw bound h target)
    | arrayPattern elements => exact writesOut_expandArray hw among bound h target
    | _ => cases pattern
  cases part with
  | default found pattern among bound =>
    exact hbind found pattern among bound fun value =>
      writesOut_bindElement_default hw _ value _
  | nested found pattern among bound named inner =>
    exact hbind found pattern among bound fun value =>
      writesOut_bindElement_pattern hw named inner value _
  | key found among bound computed =>
    exact .node found (writesOut_expandObject hw among target
      (writesOut_bindObjectElement_key hw bound computed target))

/-! ### Loops -/

variable {binding iterable body name target : NodeId} {list : String} {step : Render Unit}

/-- The line that opens a loop has the list in it. -/
theorem mentions_loop (hw : w.KeepsBlocks) (hkept : Text.Keeps list text) (hstep : step.Appends) :
    (w.loop target list step).Mentions text := by
  have hopen : ∀ item, (Render.openLoop item list).Mentions text := fun item =>
    Render.mentions_emit (List.IsInfix.trans hkept (((Text.keeps_self list).behind _).front ")"))
  have hend : (do
      step
      Render.close : Render Unit).Appends := hstep.bind fun _ => Render.appends_close
  have hpattern : (do
      let item ← Render.freshTemp
      Render.openLoop item list
      w.expand target item
      step
      Render.close : Render Unit).Mentions text :=
    .later Render.appends_freshTemp fun item => (hopen item).first fun _ =>
      ((keeps_expand target item).appends hw).bind fun _ => hend
  refine .later ((keeps_requireLoops _).appends hw) fun _ => ?_
  refine .later ((keeps_node target).appends hw) fun node => ?_
  cases node with
  | identifier name =>
    exact .later ((keeps_address target).appends hw) fun item => (hopen item).first fun _ => hend
  | objectPattern elements => exact hpattern
  | arrayPattern elements => exact hpattern
  | _ => exact (Render.mentions_fault _).first fun _ => hend

/-- The body of a loop is inside its lines. -/
theorem writesOut_loop_body (hw : w.KeepsBlocks) (hstep : w.WritesOut step task) :
    w.WritesOut (w.loop target list step) task := by
  have hend : w.WritesOut (do
      step
      Render.close : Render Unit) task := hstep.first fun _ => Render.appends_close
  have hpattern : w.WritesOut (do
      let item ← Render.freshTemp
      Render.openLoop item list
      w.expand target item
      step
      Render.close : Render Unit) task :=
    .later Render.appends_freshTemp fun item => .later (Render.appends_emit _) fun _ =>
      .later ((keeps_expand target item).appends hw) fun _ => hend
  refine .later ((keeps_requireLoops _).appends hw) fun _ => .lookup fun node _ => ?_
  cases node with
  | identifier name =>
    exact .later ((keeps_address target).appends hw) fun item =>
      .later (Render.appends_emit _) fun _ => hend
  | objectPattern elements => exact hpattern
  | arrayPattern elements => exact hpattern
  | _ => exact .later (Render.appends_fault _) fun _ => hend

/-- So are the names of a pattern that it binds. -/
theorem writesOut_loop_pattern (hw : w.KeepsBlocks) {node : Node}
    (named : w.arena.get? target = some node) (pattern : node.isPattern = true)
    (hstep : step.Appends) : w.WritesOut (w.loop target list step) (.pattern target) := by
  have hpattern : w.WritesOut (do
      let item ← Render.freshTemp
      Render.openLoop item list
      w.expand target item
      step
      Render.close : Render Unit) (.pattern target) :=
    .later Render.appends_freshTemp fun item => .later (Render.appends_emit _) fun _ =>
      (writesOut_expand target item).first fun _ => hstep.bind fun _ => Render.appends_close
  refine .later ((keeps_requireLoops _).appends hw) fun _ => .node named ?_
  cases node with
  | objectPattern elements => exact hpattern
  | arrayPattern elements => exact hpattern
  | _ => cases pattern

/-- What a loop binds is found without writing anything. -/
theorem loopTarget_of_binds (binds : w.arena.LoopBinds binding name) :
    w.loopTarget binding = pure name := by
  unfold loopTarget
  cases binds with
  | declared found =>
    rw [node_eq_pure found, pure_bind]
  | @plain node found undeclared =>
    rw [node_eq_pure found, pure_bind]
    cases node with
    | declaration kind name value => exact absurd rfl (undeclared kind name value)
    | _ => rfl

variable {kind : String} {view : String → String} {slot : Option String}

/-- A loop appends its lines if its body does. -/
theorem appends_loop (hw : w.KeepsBlocks) (hstep : w.Keeps step) (target : NodeId) (list : String) :
    (w.loop target list step).Appends := (keeps_loop target list hstep).appends hw

/-- The list is in the header of the loop, and the keys of a map keep the map. -/
theorem writesOut_loopStatement_iterable (hw : w.KeepsBlocks)
    (hview : ∀ list, Text.Keeps (view list) list) :
    w.WritesOut (w.loopStatement kind view binding iterable body slot) (.expression iterable) := by
  refine .later ((keeps_requireLoops kind).appends hw) fun _ => .expression hw (fun list _ => ?_)
    fun list => ?_
  · exact .later ((keeps_loopTarget binding).appends hw) fun target =>
      mentions_loop hw (hview list) ((keeps_statement body slot).appends hw)
  · exact ((keeps_loopTarget binding).appends hw).bind fun target =>
      appends_loop hw (keeps_statement body slot) target _

/-- The body has the slot of the statement. -/
theorem writesOut_loopStatement_body (hw : w.KeepsBlocks) :
    w.WritesOut (w.loopStatement kind view binding iterable body slot)
      (.statement body slot.isSome) :=
  .later ((keeps_requireLoops kind).appends hw) fun _ =>
    .later ((keeps_expression iterable).appends hw) fun _ =>
      .later ((keeps_loopTarget binding).appends hw) fun _ =>
        writesOut_loop_body hw (writesOut_statement body slot)

/-- A pattern is expanded within the loop. -/
theorem writesOut_loopStatement_pattern (hw : w.KeepsBlocks) {node : Node}
    (binds : w.arena.LoopBinds binding name) (named : w.arena.get? name = some node)
    (pattern : node.isPattern = true) :
    w.WritesOut (w.loopStatement kind view binding iterable body slot) (.pattern name) := by
  refine .later ((keeps_requireLoops kind).appends hw) fun _ =>
    .later ((keeps_expression iterable).appends hw) fun list => ?_
  rw [loopTarget_of_binds binds, pure_bind]
  exact writesOut_loop_pattern hw named pattern ((keeps_statement body slot).appends hw)

/-! ### Statements -/

/-- A declared value is assigned, or it is stored unless it is a reference. -/
theorem writesOut_declare_value (hw : w.KeepsBlocks) (name value : NodeId) :
    w.WritesOut (w.declare name (some value)) (.expression value) := by
  have hpattern : w.WritesOut (do
      let source ← w.reference value
      w.expand name source) (.expression value) :=
    (writesOut_reference hw value).first fun source => (keeps_expand name source).appends hw
  refine .lookup fun node _ => ?_
  cases node with
  | identifier declared =>
    exact .later ((keeps_address name).appends hw) fun target => writesOut_assignNode hw target value
  | objectPattern elements => exact hpattern
  | arrayPattern elements => exact hpattern
  | _ => exact .fault _

/-- A declared pattern is expanded from its value. -/
theorem writesOut_declare_pattern (hw : w.KeepsBlocks) {node : Node} {value : NodeId}
    (named : w.arena.get? name = some node) (pattern : node.isPattern = true) :
    w.WritesOut (w.declare name (some value)) (.pattern name) := by
  have hpattern : w.WritesOut (do
      let source ← w.reference value
      w.expand name source) (.pattern name) :=
    .later ((keeps_reference value).appends hw) fun source => writesOut_expand name source
  refine .node named ?_
  cases node with
  | objectPattern elements => exact hpattern
  | arrayPattern elements => exact hpattern
  | _ => cases pattern

/-- The test is in the line that opens the branch. -/
theorem writesOut_branch_test (hw : w.KeepsBlocks) (test yes : NodeId) (no : Option NodeId)
    (slot : Option String) : w.WritesOut (w.branch test yes no slot) (.expression test) := by
  have hstatement : ∀ id, (w.statement id slot).Appends :=
    fun id => (keeps_statement id slot).appends hw
  refine .expression hw (fun condition _ => ?_) fun condition => ?_
  · cases no with
    | none => exact Render.mentions_guarded (hstatement yes)
    | some no => exact Render.mentions_choice (hstatement yes) (hstatement no)
  · cases no with
    | none => exact (Keeps.guarded condition (keeps_statement yes slot)).appends hw
    | some no =>
      exact (Keeps.choice condition (keeps_statement yes slot) (keeps_statement no slot)).appends hw

/-- The first side is rendered behind it. -/
theorem writesOut_branch_yes (hw : w.KeepsBlocks) (test yes : NodeId) (no : Option NodeId)
    (slot : Option String) : w.WritesOut (w.branch test yes no slot) (.statement yes slot.isSome) := by
  refine .later ((keeps_expression test).appends hw) fun condition => ?_
  cases no with
  | none => exact (writesOut_statement yes slot).guarded
  | some no => exact .choice_yes (writesOut_statement yes slot) ((keeps_statement no slot).appends hw)

/-- The second side is rendered behind the line that turns to it. -/
theorem writesOut_branch_no (hw : w.KeepsBlocks) (test yes no : NodeId) (slot : Option String) :
    w.WritesOut (w.branch test yes (some no) slot) (.statement no slot.isSome) :=
  .later ((keeps_expression test).appends hw) fun _ =>
    .choice_no ((keeps_statement yes slot).appends hw) (writesOut_statement no slot)

/-- In a resolver or in a callback a value is returned as an expression. -/
theorem writesOut_returnTo (hw : w.KeepsBlocks) (expr : NodeId)
    (value : slot.isSome = true ∨ w.dialect.supportsLoops = true) :
    w.WritesOut (w.returnTo (some expr) slot) (.expression expr) := by
  cases slot with
  | some slot => exact writesOut_assignNode hw slot expr
  | none =>
    dsimp only [returnTo]
    unfold returned
    cases hd : w.dialect with
    | resolver config =>
      exact .expression hw (fun text _ => Render.mentions_emit
        ((Text.keeps_self text).wrap "#return(" ")")) fun _ => Render.appends_emit _
    | mapping direction config =>
      rw [hd] at value
      rcases value with h | h <;> cases h

/-- In a mapping template it is printed as JSON. -/
theorem writesOut_returnTo_json (expr : NodeId) (hslot : slot = none)
    (hd : w.dialect.supportsLoops = false) (hw : w.KeepsBlocks) :
    w.WritesOut (w.returnTo (some expr) slot) (.fragment expr) := by
  subst hslot
  dsimp only [returnTo]
  unfold returned
  cases hdialect : w.dialect with
  | resolver config =>
    rw [hdialect] at hd
    cases hd
  | mapping direction config =>
    intro out result final hrun
    obtain ⟨text, middle, htext, hrest⟩ := Render.runOn_bind_eq_ok_iff.mp hrun
    have htask : w.Performs (.fragment expr) out text middle := htext
    refine ⟨text, htask.within.widen List.prefix_rfl (Render.appends_emit _ hrest), fun _ => ?_⟩
    exact (Render.mentions_emit (Text.keeps_self text) hrest).widen
      ((keeps_fragment expr).isPrefix hw htext) List.prefix_rfl

/-- A step whose value is not asked for has its target in the line of the update. -/
theorem writesOut_stepped (hw : w.KeepsBlocks) (operand : NodeId) (direction : Step) :
    w.WritesOut (w.stepped operand direction) (.expression operand) :=
  .expression hw (fun text _ => (Render.mentions_emit
    ((((Text.keeps_self text).behind "#set(").front " = ").front _ |>.front ")")).first fun _ =>
      Render.appends_pure _) fun _ => (Render.appends_emit _).bind fun _ => Render.appends_pure _

/-- A step behind its operand is written as one in front, since the value is not used. -/
theorem writesOut_expressionStatement_step (hw : w.KeepsBlocks) {expr operand : NodeId}
    {direction : Step}
    (steps : w.arena.get? (w.arena.unwrapParens expr) = some (.stepAfter operand direction)) :
    w.WritesOut (w.expressionStatement expr) (.expression operand) :=
  .node steps ((writesOut_stepped hw operand direction).first fun _ => Render.appends_pure _)

/-- The value of an expression statement is rendered, whatever becomes of it. -/
theorem puts_of_expressionStatement {expr : NodeId}
    (value : ∀ operand direction,
      w.arena.get? (w.arena.unwrapParens expr) ≠ some (.stepAfter operand direction))
    (h : (w.expressionStatement expr).runOn out = (.ok (), final)) :
    w.Puts (.expression (w.arena.unwrapParens expr)) .dropped text out final := by
  obtain ⟨node, found, hnode, hrest⟩ := Render.runOn_bind_eq_ok_iff.mp h
  obtain ⟨hok, rfl⟩ := Render.runOn_ofExcept_eq_ok_iff.mp hnode
  have hvalue : (do
      let value ← w.expression (w.arena.unwrapParens expr)
      if value.toList.getLast? = some ')' then Render.discard value).runOn found =
        (.ok (), final) := by
    cases node with
    | stepAfter operand direction =>
      exact absurd (Arena.node_eq_ok_iff.mp hok) (value operand direction)
    | _ => exact hrest
  obtain ⟨part, stop, hpart, hdone⟩ := Render.runOn_bind_eq_ok_iff.mp hvalue
  have htask : w.Performs (.expression (w.arena.unwrapParens expr)) found part stop := hpart
  refine ⟨part, htask.within.widen List.prefix_rfl ?_, trivial⟩
  exact Render.Appends.ite (Render.appends_emit _) (Render.appends_pure _) hdone

/-- Whatever is a part of a statement has its run in the run of the statement, and its text is
in its place. -/
theorem puts_of_renderStatement (hw : w.KeepsBlocks)
    (part : w.arena.StatementPart w.dialect id slot.isSome place task)
    (h : (w.renderStatement id slot).runOn out = (.ok (), final)) :
    w.Puts task place text out final := by
  -- both loops are one rule, with another view of the list
  have hloop : ∀ {binding iterable body : NodeId}, w.arena.IsLoop id binding iterable body →
      (∀ (kind : String) (view : String → String), (∀ list, Text.Keeps (view list) list) →
        w.WritesOut (w.loopStatement kind view binding iterable body slot) task) →
      w.Puts task .line text out final := by
    intro binding iterable body loop hx
    unfold renderStatement at h
    rcases loop with node | node
    · rw [node_eq_pure node, pure_bind] at h
      exact (hx _ _ Text.keeps_self).puts h
    · rw [node_eq_pure node, pure_bind] at h
      exact (hx _ _ fun list => (Text.keeps_self list).front _).puts h
  cases part with
  | item node among =>
    unfold renderStatement at h
    rw [node_eq_pure node, pure_bind] at h
    have hwritten := WritesOut.forM among
      (fun statement => (keeps_statement statement slot).appends hw) (writesOut_statement _ slot)
    exact hwritten.puts h
  | value node =>
    unfold renderStatement at h
    rw [node_eq_pure node, pure_bind] at h
    exact (writesOut_declare_value hw _ _).puts h
  | names node named pattern =>
    unfold renderStatement at h
    rw [node_eq_pure node, pure_bind] at h
    exact (writesOut_declare_pattern hw named pattern).puts h
  | test node =>
    unfold renderStatement at h
    rw [node_eq_pure node, pure_bind] at h
    exact (writesOut_branch_test hw _ _ _ slot).puts h
  | yes node =>
    unfold renderStatement at h
    rw [node_eq_pure node, pure_bind] at h
    exact (writesOut_branch_yes hw _ _ _ slot).puts h
  | no node =>
    unfold renderStatement at h
    rw [node_eq_pure node, pure_bind] at h
    exact (writesOut_branch_no hw _ _ _ slot).puts h
  | iterable loop =>
    exact hloop loop fun kind view hview => writesOut_loopStatement_iterable hw hview
  | body loop => exact hloop loop fun kind view _ => writesOut_loopStatement_body hw
  | round loop binds named pattern =>
    exact hloop loop fun kind view _ => writesOut_loopStatement_pattern hw binds named pattern
  | returned node value =>
    unfold renderStatement at h
    rw [node_eq_pure node, pure_bind] at h
    exact (writesOut_returnTo hw _ value).puts h
  | printed node json =>
    unfold renderStatement at h
    rw [node_eq_pure node, pure_bind] at h
    have hslot : slot = none := Option.not_isSome_iff_eq_none.mp (by simp [json.1])
    exact (writesOut_returnTo_json _ hslot json.2 hw).puts h
  | step node steps =>
    unfold renderStatement at h
    rw [node_eq_pure node, pure_bind] at h
    exact (writesOut_expressionStatement_step hw steps).puts h
  | effect node value =>
    unfold renderStatement at h
    rw [node_eq_pure node, pure_bind] at h
    exact puts_of_expressionStatement value h

/-! ### JSON texts -/

/-- A text around a reference has the expression in a line, unless it is no call. -/
theorem writesOut_reference_then (hw : w.KeepsBlocks) {expr : NodeId} {f : String → String} :
    w.WritesOut (do
      let value ← w.reference expr
      return f value : Render String) (.expression expr) :=
  (writesOut_reference hw expr).first fun _ => Render.appends_pure _

/-- Each of some steps in a row has its run, and its value among all of them. -/
theorem exists_run_of_mapM {items : List α} {f : α → Render β} {item : α} {values : List β}
    (hf : ∀ item, (f item).Appends) (hm : item ∈ items)
    (h : (items.mapM f).runOn out = (.ok values, final)) :
    ∃ start value stop, (f item).runOn start = (.ok value, stop) ∧ value ∈ values ∧
      out.lines.toList <+: start.lines.toList ∧ stop.lines.toList <+: final.lines.toList := by
  have hall : ∀ items : List α, (items.mapM f).Appends := by
    intro items
    induction items with
    | nil => exact Render.appends_pure _
    | cons head rest ih =>
      rw [List.mapM_cons]
      exact (hf head).bind fun _ => ih.bind fun _ => Render.appends_pure _
  induction items generalizing out values with
  | nil => cases hm
  | cons head rest ih =>
    rw [List.mapM_cons] at h
    obtain ⟨first, middle, hfirst, hrest⟩ := Render.runOn_bind_eq_ok_iff.mp h
    obtain ⟨others, last, hothers, hdone⟩ := Render.runOn_bind_eq_ok_iff.mp hrest
    rw [Render.runOn_pure] at hdone
    cases hdone
    rcases List.mem_cons.mp hm with rfl | hm
    · exact ⟨out, first, middle, hfirst, List.mem_cons_self, List.prefix_rfl, hall rest hothers⟩
    · obtain ⟨start, value, stop, hrun, hvalue, hstart, hstop⟩ := ih hm hothers
      exact ⟨start, value, stop, hrun, List.mem_cons_of_mem _ hvalue,
        (hf head hfirst).trans hstart, hstop⟩

/-- A field keeps the JSON of its value behind the key. -/
theorem puts_of_jsonField {property name value : NodeId}
    (member : w.arena.get? property = some (.property name value)) (hw : w.KeepsBlocks)
    (h : (w.jsonField property).runOn out = (.ok text, final)) :
    w.Puts (.fragment value) .text text out final := by
  unfold jsonField at h
  rw [node_eq_pure member, pure_bind] at h
  obtain ⟨key, middle, hkey, hrest⟩ := Render.runOn_bind_eq_ok_iff.mp h
  obtain ⟨json, last, hjson, hdone⟩ := Render.runOn_bind_eq_ok_iff.mp hrest
  cases hdone
  have htask : w.Performs (.fragment value) middle json final := hjson
  exact htask.puts_text ((keeps_jsonKey name).isPrefix hw hkey) List.prefix_rfl
    ((Text.keeps_self json).behind _)

/-- An item is the JSON of its value. -/
theorem puts_of_jsonItem {item : NodeId}
    (h : (w.jsonItem item).runOn out = (.ok text, final)) :
    w.Puts (.fragment item) .text text out final := by
  obtain ⟨node, found, hnode, hrest⟩ := Render.runOn_bind_eq_ok_iff.mp h
  obtain ⟨-, rfl⟩ := Render.runOn_ofExcept_eq_ok_iff.mp hnode
  split at hrest
  · exact absurd ⟨found, final, hrest⟩ Render.not_yields_fault
  · have htask : w.Performs (.fragment item) found text final := hrest
    exact htask.puts_text List.prefix_rfl List.prefix_rfl (Text.keeps_self _)

/-- A primitive is read several times, so it is stored unless it is a reference. -/
theorem puts_of_primitive (hw : w.KeepsBlocks) {expr : NodeId}
    (h : (w.primitive expr).runOn out = (.ok text, final)) :
    w.Puts (.expression expr) .line text out final := by
  unfold primitive at h
  split at h
  · exact absurd ⟨out, final, h⟩ Render.not_yields_fault
  · exact (writesOut_reference_then hw).puts h

/-- Whatever is a part of a JSON text has its run in the run for the text, and its text is in
its place. -/
theorem puts_of_renderFragment (hw : w.KeepsBlocks) (part : w.arena.FragmentPart id place task)
    (h : (w.renderFragment id).runOn out = (.ok text, final)) :
    w.Puts task place text out final := by
  -- no part of a payload path is a part of the text, so the node decides
  have hrule : ∀ {node : Node}, w.arena.jsonPath (w.arena.unwrapParens id) = none →
      w.arena.get? (w.arena.unwrapParens id) = some node →
      (w.fragmentOf (w.arena.unwrapParens id) node).runOn out = (.ok text, final) := by
    intro node path found
    unfold renderFragment at h
    dsimp only at h
    rw [path] at h
    dsimp only at h
    rwa [node_eq_pure found, pure_bind] at h
  cases part with
  | field path node among member =>
    obtain ⟨fields, last, hfields, hdone⟩ := Render.runOn_bind_eq_ok_iff.mp (hrule path node)
    cases hdone
    obtain ⟨start, field, stop, hfield, hm, hstart, hstop⟩ :=
      exists_run_of_mapM (fun property => (keeps_jsonField property).appends hw) among hfields
    exact (puts_of_jsonField member hw hfield).embed hstart hstop
      ((Text.keeps_intercalate "," hm).wrap "\x7b" "\x7d")
  | item path node among =>
    obtain ⟨values, last, hvalues, hdone⟩ := Render.runOn_bind_eq_ok_iff.mp (hrule path node)
    cases hdone
    obtain ⟨start, value, stop, hvalue, hm, hstart, hstop⟩ :=
      exists_run_of_mapM (fun item => (keeps_jsonItem item).appends hw) among hvalues
    exact (puts_of_jsonItem hvalue).embed hstart hstop
      ((Text.keeps_intercalate "," hm).wrap "[" "]")
  | @awaited inner path node =>
    have htask : w.Performs (.fragment inner) out text final := hrule path node
    exact htask.puts_text List.prefix_rfl List.prefix_rfl (Text.keeps_self _)
  | @promised inner path node plain =>
    have hrun := hrule path node
    simp only [fragmentOf, plain, Option.isSome_none, Bool.false_eq_true, if_false] at hrun
    have htask : w.Performs (.fragment inner) out text final := hrun
    exact htask.puts_text List.prefix_rfl List.prefix_rfl (Text.keeps_self _)
  | promisedCall path node calls =>
    have hrun := hrule path node
    simp only [fragmentOf, calls, if_true] at hrun
    have htask : w.Performs (.expression (w.arena.unwrapParens id)) out text final := hrun
    exact htask.puts_text List.prefix_rfl List.prefix_rfl (Text.keeps_self _)
  | call path node calls =>
    have hrun := hrule path node
    simp only [fragmentOf, calls, if_true] at hrun
    have htask : w.Performs (.expression (w.arena.unwrapParens id)) out text final := hrun
    exact htask.puts_text List.prefix_rfl List.prefix_rfl (Text.keeps_self _)
  | template path node => exact (writesOut_reference_then hw).puts (hrule path node)
  | @primitive node path found prints =>
    have hrun := hrule path found
    cases node with
    | call callee args =>
      have hplain : ¬ (w.arena.calledIntegration (w.arena.unwrapParens id)).isSome = true := by
        simpa [Arena.printsByType] using prints
      simp only [fragmentOf, if_neg hplain] at hrun
      exact puts_of_primitive hw hrun
    | null | undefined | boolean | number | string | object | array | template | await | promise =>
      cases prints
    | _ => exact puts_of_primitive hw hrun

end Walker

end ClosureVtl
