/-
Module: ClosureVtl.Proofs.Render.ExpressionParts
Purpose: The parts of an expression that are rendered with it, and the places of their texts.
Main exports:
  Operand.place, Arena.CallbackPart, Arena.ListPart, Arena.ExpressionPart,
  Walker.writesOut_listOperation, Walker.puts_of_renderExpression
-/
import ClosureVtl.Proofs.Render.RenderedParts

namespace ClosureVtl

/-!
`Arena.ExpressionPart` lists what the rule for an expression hands to the walker.  A part is
in the text if the rule puts the text that comes back between texts of its own, and in a line
if the rule stores or writes it.  List operations write a loop, so all of their parts are in
lines: the source of the loop, the callbacks of the stages that share it, and the defaults
and patterns among the parameters that a callback is given values for.
-/

/-- Where the text of an operand goes: an operator among arguments is stored, and so is the
value of a span unless it is a reference. -/
def Operand.place (a : Arena) : Operand → TextPlace
  | .argument id => if (a.get? (a.argumentExpr id)).any Walker.isOperator then .line else .text
  | .span _ => .line
  | .value _ | .literal _ => .text

/-- Where the text of the target goes that a node stores to.  A step that yields the value from
before it keeps the target in lines only. -/
def Node.targetPlace : Node → TextPlace
  | .stepAfter .. => .line
  | _ => .text

/-- Whether a node is a pattern of either kind. -/
def Node.isPattern : Node → Bool
  | .objectPattern _ | .arrayPattern _ => true
  | _ => false

namespace Arena

/-! ### List operations -/

/-- What is rendered of a callback that is given so many values: its body, and of the
parameters that take a value the defaults and patterns. -/
inductive CallbackPart (a : Arena) (c : ListCall) (given : Nat) : Task → Prop where
  | block {statements : List NodeId} (body : a.get? c.body = some (.block statements)) :
      CallbackPart a c given (.statement c.body true)
  | value (body : ∀ statements, a.get? c.body ≠ some (.block statements)) :
      CallbackPart a c given (.expression c.body)
  | default {parameter name default : NodeId} (among : parameter ∈ c.parameters.take given)
      (found : a.get? parameter = some (.parameter name (some default))) :
      CallbackPart a c given (.expression default)
  | pattern {parameter name : NodeId} {default : Option NodeId} {target : Node}
      (among : parameter ∈ c.parameters.take given)
      (found : a.get? parameter = some (.parameter name default))
      (named : a.get? name = some target) (pattern : target.isPattern = true) :
      CallbackPart a c given (.pattern name)

/-- Where the callback of a list operation takes the whole list. -/
def listPosition : Walker.ListOperation → Nat
  | .map | .forEach | .filter => mapListPosition
  | .reduce => reduceListPosition

/-- The stages that share the loop of a list operation, and the source of the loop. -/
def loopOf (a : Arena) (operation : Walker.ListOperation) (c : ListCall) : List ListCall × NodeId :=
  a.fusedChain c.receiver (a.parameterUsed c.parameters (listPosition operation) c.body)

/-- What is rendered for a list operation. -/
inductive ListPart (a : Arena) (operation : Walker.ListOperation) (c : ListCall)
    (args : List NodeId) : Task → Prop where
  | source : ListPart a operation c args (.expression (a.loopOf operation c).2)
  | stage {stage : ListCall} {task : Task} (among : stage ∈ (a.loopOf operation c).1)
      (part : a.CallbackPart stage 3 task) : ListPart a operation c args task
  | callback {task : Task} (part : a.CallbackPart c (listPosition operation + 1) task) :
      ListPart a operation c args task
  | initial {arg : NodeId} (reduction : operation = .reduce) (second : args[1]? = some arg) :
      ListPart a operation c args (.expression (a.argumentExpr arg))

/-! ### Expressions -/

/-- What is rendered for an expression, with the place of its text. -/
inductive ExpressionPart (a : Arena) (id : NodeId) : TextPlace → Task → Prop where
  | wrapped {node : Node} {expr : NodeId} (found : a.get? id = some node)
      (wraps : node.wrapped? = some expr) : ExpressionPart a id .text (.expression expr)
  | member {base : NodeId} {name : String} (node : a.get? id = some (.member base name)) :
      ExpressionPart a id .text (.expression base)
  | signed {op : UnaryOp} {operand : NodeId} (node : a.get? id = some (.unary op operand))
      (sign : ∀ step, op ≠ .step step) : ExpressionPart a id .text (.expression operand)
  | operand {operands : List Operand} {operand : Operand} {expr : NodeId}
      (order : a.EvaluatesInOrder id operands) (among : operand ∈ operands)
      (rendered : operand.expr? a = some expr) :
      ExpressionPart a id (operand.place a) (.expression expr)
  | argument {call : CallText} {operand : Operand} {expr : NodeId} (built : a.Builds id call)
      (inline : call.statement = false) (among : operand ∈ call.operands)
      (rendered : operand.expr? a = some expr) :
      ExpressionPart a id (operand.place a) (.expression expr)
  | target {node : Node} {target : NodeId} (found : a.get? id = some node)
      (stores : node.stored? = some target) :
      ExpressionPart a id node.targetPlace (.expression target)
  | stored {target right : NodeId} {op : BinaryOp}
      (node : a.get? id = some (.binary target op right)) (stores : op.form.stores = true) :
      ExpressionPart a id .line (.expression right)
  | preferred {left right : NodeId} {op : BinaryOp}
      (node : a.get? id = some (.binary left op right)) (form : op.form = .coalesce) :
      ExpressionPart a id .line (.expression left)
  | fallback {left right : NodeId} {op : BinaryOp}
      (node : a.get? id = some (.binary left op right)) (form : op.form = .coalesce) :
      ExpressionPart a id .line (.expression right)
  | branch {test yes no part : NodeId} (node : a.get? id = some (.conditional test yes no))
      (among : part ∈ [test, yes, no]) : ExpressionPart a id .line (.expression part)
  | item {items : List NodeId} {item : NodeId} (node : a.get? id = some (.array items))
      (spreads : items.any (Walker.isSpread a) = true) (among : item ∈ items)
      (single : ∀ expr, a.get? item ≠ some (.spread expr)) :
      ExpressionPart a id .line (.expression (a.argumentExpr item))
  | spreadItem {items : List NodeId} {item expr : NodeId} (node : a.get? id = some (.array items))
      (among : item ∈ items) (spread : a.get? item = some (.spread expr)) :
      ExpressionPart a id .line (.expression expr)
  | value {properties : List NodeId} {property name value : NodeId}
      (node : a.get? id = some (.object properties)) (among : property ∈ properties)
      (member : a.get? property = some (.property name value)) :
      ExpressionPart a id .line (.expression (a.argumentExpr value))
  | key {properties : List NodeId} {property name value key : NodeId}
      (node : a.get? id = some (.object properties)) (among : property ∈ properties)
      (member : a.get? property = some (.property name value))
      (computed : a.get? name = some (.computedKey key)) :
      ExpressionPart a id .line (.expression (a.argumentExpr key))
  | spreadProperty {properties : List NodeId} {property expr : NodeId}
      (node : a.get? id = some (.object properties)) (among : property ∈ properties)
      (spread : a.get? property = some (.spreadProperty expr)) :
      ExpressionPart a id .line (.expression expr)
  | list {callee receiver body : NodeId} {args parameters : List NodeId} {name : String}
      {operation : Walker.ListOperation} {task : Task}
      (node : a.get? id = some (.call callee args))
      (member : a.get? (a.unwrapParens callee) = some (.member receiver name))
      (known : Walker.ListOperation.ofName? name = some operation)
      (callback : a.callback? args = some (parameters, body))
      (part : a.ListPart operation { receiver, parameters, body } args task) :
      ExpressionPart a id .line task
  | integration {callee : NodeId} {args : List NodeId} {integration : IntegrationId}
      (node : a.get? id = some (.call callee args))
      (resolved : a.resolveIntegration callee = some integration) :
      ExpressionPart a id .text (.call integration id)

end Arena

namespace Walker

variable {w : Walker} {id base expr : NodeId} {inner task : Task} {place : TextPlace}
  {text kept : String} {args : List NodeId} {operands : List Operand} {operand : Operand}
  {parts : List OperandOutput} {out start stop final : Output} {α β : Type}

/-! ### Parts in texts -/

/-- What a run puts somewhere, a longer run does that keeps its text. -/
theorem Puts.embed (hstart : out.lines.toList <+: start.lines.toList)
    (hstop : stop.lines.toList <+: final.lines.toList) (hkept : Text.Keeps text kept)
    (h : w.Puts inner place kept start stop) : w.Puts inner place text out final := by
  cases place with
  | text =>
    obtain ⟨part, hrun, hpart⟩ := h
    exact ⟨part, hrun.widen hstart hstop, List.IsInfix.trans hpart hkept⟩
  | line => exact h.widen_line hstart hstop
  | dropped =>
    obtain ⟨part, hrun, -⟩ := h
    exact ⟨part, hrun.widen hstart hstop, trivial⟩

/-- An argument that is an operator is stored; any other is passed on. -/
theorem puts_argument (hw : w.KeepsBlocks) (h : (w.argument id).runOn out = (.ok text, final)) :
    w.Puts (.expression (w.arena.argumentExpr id)) ((Operand.argument id).place w.arena) text out
      final := by
  obtain ⟨value, middle, hvalue, hrest⟩ := Render.runOn_bind_eq_ok_iff.mp h
  obtain ⟨node, found, hnode, hdone⟩ := Render.runOn_bind_eq_ok_iff.mp hrest
  obtain ⟨hok, rfl⟩ := Render.runOn_ofExcept_eq_ok_iff.mp hnode
  have htask : w.Performs (.expression (w.arena.argumentExpr id)) out value found := hvalue
  simp only [Operand.place, Arena.node_eq_ok_iff.mp hok, Option.any_some]
  split at hdone
  · next hoperator =>
    rw [if_pos hoperator]
    have hlines := (keeps_expression (w.arena.argumentExpr id)).isPrefix hw hvalue
    refine ⟨value, htask.within.widen List.prefix_rfl
      ((Keeps.materialize value).isPrefix hw hdone), fun _ => ?_⟩
    exact (Render.mentions_materialize value hdone).widen hlines List.prefix_rfl
  · next hplain =>
    rw [if_neg hplain]
    cases hdone
    exact htask.puts_text List.prefix_rfl List.prefix_rfl (Text.keeps_self _)

/-- A value and an argument are kept in the text, a stored argument and a span in a line. -/
theorem puts_operand (hw : w.KeepsBlocks) (hr : operand.expr? w.arena = some expr)
    (h : (w.operand operand).runOn out = (.ok text, final)) :
    w.Puts (.expression expr) (operand.place w.arena) text out final := by
  cases operand with
  | literal text => cases hr
  | value expr =>
    cases hr
    have htask : w.Performs (.expression expr) out text final := h
    exact htask.puts_text List.prefix_rfl List.prefix_rfl (Text.keeps_self _)
  | argument id =>
    cases hr
    exact puts_argument hw h
  | span part =>
    cases hr
    have hspan : w.WritesOut (w.templateSpan part) (.expression part.expr) :=
      (writesOut_reference hw part.expr).first fun _ =>
        ((keeps_templateText part.literal).appends hw).bind fun _ => Render.appends_pure _
    exact hspan.puts h

/-- Each operand has its run and its text among those of all in order. -/
theorem RunsInOrder.exists_part (h : w.RunsInOrder operands out final parts)
    (hm : operand ∈ operands) :
    ∃ part ∈ parts, ∃ start stop, (w.operand operand).runOn start = (.ok part.text, stop) ∧
      out.lines.toList <+: start.lines.toList ∧ stop.lines.toList <+: final.lines.toList := by
  induction h with
  | nil => cases hm
  | cons run written later ih =>
    rcases List.mem_cons.mp hm with rfl | hm
    · exact ⟨_, List.mem_cons_self, _, _, run, List.prefix_rfl, later.isPrefix⟩
    · obtain ⟨part, hpart, start, stop, hrun, hstart, hstop⟩ := ih hm
      exact ⟨part, List.mem_cons_of_mem _ hpart, start, stop, hrun,
        List.IsPrefix.trans ⟨_, written.symm⟩ hstart, hstop⟩

/-- What an operand puts somewhere, an expression does that keeps the texts of all. -/
theorem RunsInOrder.puts (hw : w.KeepsBlocks) (h : w.RunsInOrder operands start stop parts)
    (hm : operand ∈ operands) (hr : operand.expr? w.arena = some expr)
    (hstart : out.lines.toList <+: start.lines.toList)
    (hstop : stop.lines.toList <+: final.lines.toList)
    (hkept : ∀ part ∈ parts, Text.Keeps text part.text) :
    w.Puts (.expression expr) (operand.place w.arena) text out final := by
  obtain ⟨part, hpart, first, last, hrun, hfirst, hlast⟩ := h.exists_part hm
  exact (puts_operand hw hr hrun).embed (hstart.trans hfirst) (hlast.trans hstop) (hkept part hpart)

/-- A call that is a text keeps the texts of its operands. -/
theorem keeps_of_builds {a : Arena} {call : CallText} (hb : a.Builds id call)
    (receiver value : String) : Text.Keeps (call.text receiver value) value := by
  cases hb with
  | helper node member receiver undeclared known =>
    unfold globalHelper? at known
    split at known
    · cases known
      exact (Text.keeps_self value).wrap "$util.toJson(" ")"
    · cases known
      exact (Text.keeps_self value).wrap "$util.parseJson(" ")"
    · cases known
      exact (Text.keeps_self value).front ".keySet()"
    · cases known
      exact (Text.keeps_self value).front ".values()"
    · cases known
  | _ => exact ((Text.keeps_self value).behind _).front ")"

/-- The operands of a call are kept between its commas. -/
theorem puts_of_builds (hw : w.KeepsBlocks) {call : CallText} (hb : w.arena.Builds id call)
    (hi : call.statement = false) (hm : operand ∈ call.operands)
    (hr : operand.expr? w.arena = some expr)
    (h : (w.renderExpression id).runOn out = (.ok text, final)) :
    w.Puts (.expression expr) (operand.place w.arena) text out final := by
  obtain ⟨start, stop, parts, hruns, hstart, hstop, receiver, happears⟩ :=
    runsCall_of_builds hw hb h
  rw [hi, if_neg Bool.false_ne_true] at happears
  refine hruns.puts hw hm hr hstart hstop fun part hpart => ?_
  rw [happears]
  exact List.IsInfix.trans (Text.keeps_intercalate ", " (List.mem_map_of_mem hpart))
    (keeps_of_builds hb receiver _)

/-! ### Arguments and literals with parts -/

/-- An argument whose text is written by the steps behind it. -/
theorem WritesOut.argument (hw : w.KeepsBlocks) {f : String → Render β}
    (h : ∀ text, (f text).Mentions text) (hf : ∀ text, (f text).Appends) :
    w.WritesOut (w.argument id >>= f) (.expression (w.arena.argumentExpr id)) := by
  intro out result final hrun
  obtain ⟨text, middle, htext, hrest⟩ := Render.runOn_bind_eq_ok_iff.mp hrun
  have hlines := (keeps_argument id).isPrefix hw htext
  obtain ⟨part, hpart, hplace⟩ := puts_argument hw htext
  refine ⟨part, hpart.widen List.prefix_rfl (hf text hrest), fun hcall => ?_⟩
  simp only [Operand.place] at hplace
  split at hplace
  · exact (hplace hcall).widen List.prefix_rfl (hf text hrest)
  · exact .of_keeps hplace ((h text hrest).widen hlines List.prefix_rfl)

/-- An item that is not spread is added by a call with it as argument. -/
theorem writesOut_addItem (hw : w.KeepsBlocks) (list : String) {item : NodeId}
    (single : ∀ expr, w.arena.get? item ≠ some (.spread expr)) :
    w.WritesOut (w.addItem list item) (.expression (w.arena.argumentExpr item)) := by
  have hadd : w.WritesOut (do
      let value ← w.argument item
      Render.discard s!"{list}.add({value})") (.expression (w.arena.argumentExpr item)) :=
    .argument hw (fun text => Render.mentions_discardCall list ".add(" text)
      fun _ => Render.appends_emit _
  refine .lookup fun node hn => ?_
  cases node with
  | spread expr => exact absurd hn (single expr)
  | _ => exact hadd

/-- A spread item is added by a call for all of its values. -/
theorem writesOut_addItem_spread (hw : w.KeepsBlocks) (list : String) {item : NodeId}
    (hn : w.arena.get? item = some (.spread expr)) :
    w.WritesOut (w.addItem list item) (.expression expr) :=
  .node hn (.expression hw (fun text _ => Render.mentions_discardCall list ".addAll(" text)
    fun _ => Render.appends_emit _)

/-- The value of a property is in the call that puts it. -/
theorem writesOut_addProperty (hw : w.KeepsBlocks) (object : String)
    {property name value : NodeId} (hn : w.arena.get? property = some (.property name value)) :
    w.WritesOut (w.addProperty object property) (.expression (w.arena.argumentExpr value)) := by
  refine .node hn (.later ((keeps_propertyKey name).appends hw) fun key => ?_)
  exact .argument hw (fun text => Render.mentions_emit
    (((((Text.keeps_self text).behind _).front ")").behind _).front ")"))
    fun _ => Render.appends_emit _

/-- So is a computed key, with the value rendered behind it. -/
theorem writesOut_addProperty_key (hw : w.KeepsBlocks) (object : String)
    {property name value key : NodeId}
    (hn : w.arena.get? property = some (.property name value))
    (hk : w.arena.get? name = some (.computedKey key)) :
    w.WritesOut (w.addProperty object property) (.expression (w.arena.argumentExpr key)) := by
  have hkey : w.propertyKey name = w.argument key := by
    unfold propertyKey
    rw [node_eq_pure hk, pure_bind]
  refine .node hn ?_
  dsimp only
  rw [hkey]
  refine .argument hw (fun text => ?_) fun text => ?_
  · refine .later ((keeps_argument value).appends hw) fun other => Render.mentions_emit ?_
    exact ((((((Text.keeps_self text).behind _).front ", ").front other).front ")").behind _).front
      ")"
  · exact ((keeps_argument value).appends hw).bind fun _ => Render.appends_emit _

/-- So is the object of a spread property. -/
theorem writesOut_addProperty_spread (hw : w.KeepsBlocks) (object : String) {property : NodeId}
    (hn : w.arena.get? property = some (.spreadProperty expr)) :
    w.WritesOut (w.addProperty object property) (.expression expr) :=
  .node hn (.expression hw (fun text _ => Render.mentions_discardCall object ".putAll(" text)
    fun _ => Render.appends_emit _)

/-- A literal that is built step by step contains what one of its steps does. -/
theorem writesOut_steps {items : List NodeId} {item : NodeId} {opening : String}
    {add : String → NodeId → Render PUnit} (hm : item ∈ items)
    (hadd : ∀ literal item, (add literal item).Appends)
    (h : ∀ literal, w.WritesOut (add literal item) task) :
    w.WritesOut (do
      let literal ← Render.freshTemp
      Render.assign literal opening
      items.forM (add literal)
      return literal : Render String) task :=
  .later Render.appends_freshTemp fun literal => .later (Render.appends_emit _) fun _ =>
    (WritesOut.forM hm (hadd literal) (h literal)).first fun _ => Render.appends_pure _

/-- A list with a spread item is built step by step, with all items in lines. -/
theorem writesOut_arrayLiteral (hw : w.KeepsBlocks) {items : List NodeId} {item : NodeId}
    (spreads : items.any (isSpread w.arena) = true) (hm : item ∈ items)
    (h : ∀ list, w.WritesOut (w.addItem list item) task) :
    w.WritesOut (w.arrayLiteral items) task := by
  unfold arrayLiteral
  rw [spreads]
  exact writesOut_steps hm (fun list item => (keeps_addItem list item).appends hw) h

/-- An object is always built that way. -/
theorem writesOut_objectLiteral (hw : w.KeepsBlocks) {properties : List NodeId}
    {property : NodeId} (hm : property ∈ properties)
    (h : ∀ object, w.WritesOut (w.addProperty object property) task) :
    w.WritesOut (w.objectLiteral properties) task :=
  writesOut_steps hm (fun object item => (keeps_addProperty object item).appends hw) h

/-! ### Operators -/

/-- What is stored is in the assignment, whatever the form of the operator is. -/
theorem writesOut_binary_stored (hw : w.KeepsBlocks) {target right : NodeId} {op : BinaryOp}
    (stores : op.form.stores = true) : w.WritesOut (w.binary target op right) (.expression right) := by
  unfold binary
  cases hform : op.form with
  | store =>
    exact .later ((keeps_expression target).appends hw) fun text =>
      (writesOut_assignNode hw text right).first fun _ => Render.appends_pure _
  | storeIfNull =>
    exact .later ((keeps_expression target).appends hw) fun text =>
      (writesOut_assignNode hw text right).guarded.first fun _ => Render.appends_pure _
  | update symbol =>
    refine .later ((keeps_expression target).appends hw) fun text => .expression hw ?_ ?_
    · intro value _
      refine (Render.mentions_emit ?_).first fun _ => Render.appends_pure _
      exact (((Text.keeps_self value).behind _).behind _).front ")"
    · exact fun value => (Render.appends_emit _).bind fun _ => Render.appends_pure _
  | inline symbol | membership | coalesce =>
    rw [hform] at stores
    cases stores

/-- The preferred value is stored in the temporary for the result. -/
theorem writesOut_binary_preferred (hw : w.KeepsBlocks) {left right : NodeId} {op : BinaryOp}
    (form : op.form = .coalesce) : w.WritesOut (w.binary left op right) (.expression left) := by
  unfold binary
  rw [form]
  exact (writesOut_materializeNode hw left).first fun result =>
    ((Keeps.ifNull result (keeps_assignNode result right)).appends hw).bind fun _ =>
      Render.appends_pure _

/-- The other one is stored behind a test for null. -/
theorem writesOut_binary_fallback (hw : w.KeepsBlocks) {left right : NodeId} {op : BinaryOp}
    (form : op.form = .coalesce) : w.WritesOut (w.binary left op right) (.expression right) := by
  unfold binary
  rw [form]
  exact .later ((keeps_materializeNode left).appends hw) fun result =>
    (writesOut_assignNode hw result right).guarded.first fun _ => Render.appends_pure _

/-- The test is in the line that opens the branch, and each branch is stored on its side. -/
theorem writesOut_conditional (hw : w.KeepsBlocks) {test yes no part : NodeId}
    (hm : part ∈ [test, yes, no]) :
    w.WritesOut (w.conditional test yes no) (.expression part) := by
  have hassign : ∀ (result : String) (id : NodeId), (w.assignNode result id).Appends :=
    fun result id => (keeps_assignNode result id).appends hw
  have hrest : ∀ condition result : String, (do
      Render.choice condition (w.assignNode result yes) (w.assignNode result no)
      return result : Render String).Appends := fun condition result =>
    ((Keeps.choice condition (keeps_assignNode result yes)
      (keeps_assignNode result no)).appends hw).bind fun _ => Render.appends_pure _
  simp only [List.mem_cons, List.not_mem_nil, or_false] at hm
  rcases hm with rfl | rfl | rfl
  · refine .expression hw (fun condition _ => .later Render.appends_freshTemp fun result => ?_)
      fun condition => Render.appends_freshTemp.bind (hrest condition)
    exact (Render.mentions_choice (hassign _ _) (hassign _ _)).first fun _ => Render.appends_pure _
  · exact .later ((keeps_expression test).appends hw) fun condition =>
      .later Render.appends_freshTemp fun result =>
        (WritesOut.choice_yes (writesOut_assignNode hw result _) (hassign _ _)).first fun _ =>
          Render.appends_pure _
  · exact .later ((keeps_expression test).appends hw) fun condition =>
      .later Render.appends_freshTemp fun result =>
        (WritesOut.choice_no (hassign _ _) (writesOut_assignNode hw result _)).first fun _ =>
          Render.appends_pure _

/-- The target of a step after the value is in the line that keeps the value. -/
theorem writesOut_steppedAfter (hw : w.KeepsBlocks) (operand : NodeId) (step : Step) :
    w.WritesOut (w.steppedAfter operand step) (.expression operand) := by
  refine .expression hw (fun text _ => ?_) fun text => ?_
  · exact (Render.mentions_materialize text).first fun _ =>
      (Render.appends_emit _).bind fun _ => Render.appends_pure _
  · exact ((Keeps.materialize text).appends hw).bind fun _ =>
      (Render.appends_emit _).bind fun _ => Render.appends_pure _

/-- What a step before the value yields is the text of its target. -/
theorem run_of_stepped {step : Step} {operand : NodeId}
    (h : (w.stepped operand step).runOn out = (.ok text, final)) :
    ∃ stop, (w.expression operand).runOn out = (.ok text, stop) ∧
      stop.lines.toList <+: final.lines.toList := by
  obtain ⟨target, stop, htarget, hrest⟩ := Render.runOn_bind_eq_ok_iff.mp h
  obtain ⟨_, closed, hset, hdone⟩ := Render.runOn_bind_eq_ok_iff.mp hrest
  cases hdone
  exact ⟨stop, htarget, Render.appends_emit _ hset⟩

/-- So is what an operator yields that stores. -/
theorem run_of_binary_target (hw : w.KeepsBlocks) {target right : NodeId} {op : BinaryOp}
    (stores : op.form.stores = true) (h : (w.binary target op right).runOn out = (.ok text, final)) :
    ∃ stop, (w.expression target).runOn out = (.ok text, stop) ∧
      stop.lines.toList <+: final.lines.toList := by
  have hput : ∀ steps : String → Render Unit, (∀ text, (steps text).Appends) →
      (do
        let text ← w.expression target
        steps text
        return text : Render String).runOn out = (.ok text, final) →
      ∃ stop, (w.expression target).runOn out = (.ok text, stop) ∧
        stop.lines.toList <+: final.lines.toList := by
    intro steps hsteps hrun
    obtain ⟨found, stop, hfound, hrest⟩ := Render.runOn_bind_eq_ok_iff.mp hrun
    obtain ⟨_, closed, hdid, hdone⟩ := Render.runOn_bind_eq_ok_iff.mp hrest
    cases hdone
    exact ⟨stop, hfound, hsteps _ hdid⟩
  unfold binary at h
  cases hform : op.form with
  | store =>
    rw [hform] at h
    exact hput _ (fun text => (keeps_assignNode text right).appends hw) h
  | storeIfNull =>
    rw [hform] at h
    exact hput _ (fun text => (Keeps.ifNull text (keeps_assignNode text right)).appends hw) h
  | update symbol =>
    rw [hform] at h
    refine hput (fun text => do
      let value ← w.expression right
      Render.assign text s!"{text} {symbol} {value}") (fun text => ?_) ?_
    · exact ((keeps_expression right).appends hw).bind fun _ => Render.appends_emit _
    · simpa only [bind_assoc] using h
  | inline symbol | membership | coalesce =>
    rw [hform] at stores
    cases stores

/-- Unless it yields the value from before, a node that stores yields the text of its target. -/
theorem run_of_target (hw : w.KeepsBlocks) {node : Node} {target : NodeId}
    (found : w.arena.get? id = some node) (stores : node.stored? = some target)
    (place : node.targetPlace = .text)
    (h : (w.renderExpression id).runOn out = (.ok text, final)) :
    ∃ stop, (w.expression target).runOn out = (.ok text, stop) ∧
      stop.lines.toList <+: final.lines.toList := by
  unfold renderExpression at h
  rw [node_eq_pure found, pure_bind] at h
  cases node with
  | binary left op right =>
    obtain ⟨hstores, heq⟩ := Option.ite_none_right_eq_some.mp stores
    cases heq
    exact run_of_binary_target hw hstores h
  | unary op operand =>
    cases op with
    | step direction =>
      cases stores
      exact run_of_stepped h
    | _ => cases stores
  | stepAfter operand step => cases place
  | _ => cases stores

/-! ### Callbacks

A callback is given values for its first parameters.  Each of them is bound in lines of its
own, by way of its default and its pattern, and the body comes behind them all.
-/

/-- Each of the first parameters is given a value. -/
theorem exists_mem_zip {γ : Type} {parameter : α} {parameters : List α} {values : List γ}
    (h : parameter ∈ parameters.take values.length) :
    ∃ value, (parameter, value) ∈ parameters.zip values := by
  obtain ⟨i, hi, rfl⟩ := List.getElem_of_mem h
  have hlength := List.length_take.symm.trans_gt hi
  have hvalues : i < values.length := (lt_min_iff.mp (List.length_take ▸ hi)).1
  have hparameters : i < parameters.length := (lt_min_iff.mp (List.length_take ▸ hi)).2
  refine ⟨values[i], List.mem_iff_getElem.mpr ⟨i, ?_, ?_⟩⟩
  · rw [List.length_zip]
    omega
  · rw [List.getElem_zip, List.getElem_take]

/-- A default is stored behind a test for null. -/
theorem writesOut_withDefault (hw : w.KeepsBlocks) (value : String) (default : NodeId) :
    w.WritesOut (w.withDefault value (some default)) (.expression default) :=
  .later ((Keeps.materialize value).appends hw) fun slot =>
    (writesOut_assignNode hw slot default).guarded.first fun _ => Render.appends_pure _

/-- What a value is bound to, behind the default for it. -/
theorem appends_bindTo (hw : w.KeepsBlocks) (name : NodeId) (value : String) :
    (do
      match ← w.node name with
      | .identifier _ =>
        let target ← w.address name
        Render.assign target value
      | .objectPattern _ | .arrayPattern _ =>
        let source ← toReference value
        w.expand name source
      | other => Render.breach (.bindingName other.kind) : Render Unit).Appends := by
  have h := (keeps_bindElement name value none).appends hw
  exact h

/-- The default of an element is rendered before the element is bound. -/
theorem writesOut_bindElement_default (hw : w.KeepsBlocks) (name : NodeId) (value : String)
    (default : NodeId) :
    w.WritesOut (w.bindElement name value (some default)) (.expression default) :=
  (writesOut_withDefault hw value default).first fun value => appends_bindTo hw name value

/-- A pattern in the place of a name is expanded from the value. -/
theorem writesOut_bindElement_pattern (hw : w.KeepsBlocks) {name : NodeId} {target : Node}
    (hn : w.arena.get? name = some target) (hp : target.isPattern = true) (value : String)
    (default : Option NodeId) : w.WritesOut (w.bindElement name value default) (.pattern name) := by
  refine .later ((keeps_withDefault value default).appends hw) fun value => .node hn ?_
  have hexpand : w.WritesOut (do
      let source ← toReference value
      w.expand name source) (.pattern name) :=
    .later ((keeps_toReference value).appends hw) fun source => writesOut_expand name source
  cases target with
  | objectPattern elements => exact hexpand
  | arrayPattern elements => exact hexpand
  | _ => cases hp

/-- So is the default of a parameter, whether it is a name or a pattern. -/
theorem writesOut_bindParameter_default (hw : w.KeepsBlocks) {parameter name default : NodeId}
    (hn : w.arena.get? parameter = some (.parameter name (some default))) (source : String) :
    w.WritesOut (w.bindParameter parameter source) (.expression default) := by
  refine .node hn (.lookup fun target _ => ?_)
  cases target with
  | identifier declared =>
    refine .later ((keeps_address name).appends hw) fun address => ?_
    have hguarded : w.WritesOut (Render.ifNull address (w.assignNode address default))
        (.expression default) := (writesOut_assignNode hw address default).guarded
    exact .ite (.later (Render.appends_emit _) fun _ => hguarded) hguarded
  | _ => exact writesOut_bindElement_default hw name source default

/-- A parameter that is a pattern is expanded from the source. -/
theorem writesOut_bindParameter_pattern (hw : w.KeepsBlocks) {parameter name : NodeId}
    {default : Option NodeId} {target : Node}
    (hn : w.arena.get? parameter = some (.parameter name default))
    (ht : w.arena.get? name = some target) (hp : target.isPattern = true) (source : String) :
    w.WritesOut (w.bindParameter parameter source) (.pattern name) := by
  refine .node hn (.node ht ?_)
  cases target with
  | identifier declared => cases hp
  | _ => exact writesOut_bindElement_pattern hw ht hp source default

/-- The parameters of a callback are bound and its body is rendered, behind one another. -/
theorem writesOut_callback (hw : w.KeepsBlocks) {c : ListCall} (values : List String)
    (part : w.arena.CallbackPart c values.length task) {f : String → Render β}
    (hf : ∀ text, (f text).Appends) :
    w.WritesOut (do
      (c.parameters.zip values).forM fun (parameter, source) => w.bindParameter parameter source
      let value ← w.callbackBody c.body
      f value) task := by
  have hbind : ∀ pair : NodeId × String, (w.bindParameter pair.1 pair.2).Appends :=
    fun pair => (keeps_bindParameter pair.1 pair.2).appends hw
  have hrest : (do
      let value ← w.callbackBody c.body
      f value).Appends := ((keeps_callbackBody c.body).appends hw).bind hf
  cases part with
  | block body =>
    refine .later (.forM hbind) fun _ => WritesOut.first (.node body ?_) hf
    exact .later Render.appends_freshTemp fun slot => .later (Render.appends_emit _) fun _ =>
      (writesOut_statement c.body (some slot)).first fun _ => Render.appends_pure _
  | value body =>
    refine .later (.forM hbind) fun _ => WritesOut.first ?_ hf
    refine .lookup fun node hn => ?_
    cases node with
    | block statements => exact absurd hn (body statements)
    | _ => exact writesOut_materializeNode hw c.body
  | default among found =>
    obtain ⟨source, hm⟩ := exists_mem_zip among
    exact (WritesOut.forM hm hbind (writesOut_bindParameter_default hw found source)).first
      fun _ => hrest
  | pattern among found named pattern =>
    obtain ⟨source, hm⟩ := exists_mem_zip among
    exact (WritesOut.forM hm hbind
      (writesOut_bindParameter_pattern hw found named pattern source)).first fun _ => hrest

/-! ### Loops

All list operations open one loop for their chain and render the stages in it.  They differ
in what they do in front of the loop and in each round.
-/

variable {header : String → String → Render Unit} {source : NodeId} {stages : List ListCall}

/-- The stages of a loop append their lines if its header does. -/
theorem appends_renderStages (hw : w.KeepsBlocks) (hheader : ∀ item list, (header item list).Appends)
    (stages : List ListCall) (item : String) : (w.renderStages source header stages item).Appends := by
  induction stages generalizing item with
  | nil =>
    exact ((keeps_reference source).appends hw).bind fun list =>
      (hheader item list).bind fun _ => Render.appends_pure _
  | cons stage inner ih =>
    exact ((keeps_loopVariable _).appends hw).bind fun stageItem => (ih stageItem).bind fun list =>
      ((keeps_bindItemParameters _ stageItem list).appends hw).bind fun _ =>
        ((keeps_callbackBody stage.body).appends hw).bind fun _ =>
          (Render.appends_emit _).bind fun _ => Render.appends_pure _

/-- The source of a chain is rendered inside all of its stages. -/
theorem writesOut_renderStages_source (hw : w.KeepsBlocks)
    (hheader : ∀ item list, (header item list).Appends) (stages : List ListCall) (item : String) :
    w.WritesOut (w.renderStages source header stages item) (.expression source) := by
  induction stages generalizing item with
  | nil =>
    exact (writesOut_reference hw source).first fun list =>
      (hheader item list).bind fun _ => Render.appends_pure _
  | cons stage inner ih =>
    exact .later ((keeps_loopVariable _).appends hw) fun stageItem =>
      (ih stageItem).first fun list =>
        ((keeps_bindItemParameters _ stageItem list).appends hw).bind fun _ =>
          ((keeps_callbackBody stage.body).appends hw).bind fun _ =>
            (Render.appends_emit _).bind fun _ => Render.appends_pure _

/-- A part of a stage is written wherever the stage stands among the others; the induction is on
those around it. -/
theorem writesOut_renderStages_stage (hw : w.KeepsBlocks)
    (hheader : ∀ item list, (header item list).Appends) {stage : ListCall} (hm : stage ∈ stages)
    (part : w.arena.CallbackPart stage 3 task) (item : String) :
    w.WritesOut (w.renderStages source header stages item) task := by
  induction stages generalizing item with
  | nil => cases hm
  | cons outer inner ih =>
    refine .later ((keeps_loopVariable _).appends hw) fun stageItem => ?_
    have hround : ∀ list : String, (do
        w.bindItemParameters outer.parameters stageItem list
        let value ← w.callbackBody outer.body
        Render.assign item value
        return list : Render String).Appends := fun list =>
      ((keeps_bindItemParameters _ stageItem list).appends hw).bind fun _ =>
        ((keeps_callbackBody outer.body).appends hw).bind fun _ =>
          (Render.appends_emit _).bind fun _ => Render.appends_pure _
    rcases List.mem_cons.mp hm with rfl | hm
    · exact .later (appends_renderStages hw hheader inner stageItem) fun list =>
        writesOut_callback hw [stageItem, loopIndex, list] part fun _ =>
          (Render.appends_emit _).bind fun _ => Render.appends_pure _
    · exact (ih hm stageItem).first hround

variable {c : ListCall} {operation : ListOperation}

/-- The loop of a consumer that takes each item, up to the value of its callback. -/
theorem writesOut_itemLoop (hw : w.KeepsBlocks) (hitem : operation ≠ .reduce)
    (part : w.arena.ListPart operation c args task) {f : String → String → Render β}
    (hf : ∀ item value, (f item value).Appends) :
    w.WritesOut (do
      let item ← w.itemLoop c
      let value ← w.callbackBody c.body
      f item value) task := by
  have hposition : Arena.listPosition operation = mapListPosition := by
    cases operation <;> first | rfl | exact absurd rfl hitem
  have hheader : ∀ item list, (Render.openLoop item list).Appends :=
    fun item list => Render.appends_emit _
  have hround : ∀ item list : String, (do
      w.bindItemParameters c.parameters item list
      let value ← w.callbackBody c.body
      f item value).Appends := fun item list =>
    ((keeps_bindItemParameters _ item list).appends hw).bind fun _ =>
      ((keeps_callbackBody c.body).appends hw).bind (hf item)
  unfold itemLoop
  simp only [bind_assoc, pure_bind]
  refine .later ((keeps_loopVariable _).appends hw) fun item => ?_
  unfold loopOver
  rw [← hposition]
  cases part with
  | source => exact (writesOut_renderStages_source hw hheader _ item).first (hround item)
  | stage among part =>
    exact (writesOut_renderStages_stage hw hheader among part item).first (hround item)
  | callback part =>
    rw [hposition] at part
    exact .later (appends_renderStages hw hheader _ item) fun list =>
      writesOut_callback hw [item, loopIndex, list] part (hf item)
  | initial reduction second => exact absurd reduction hitem

/-- A reduction gives its callback four values, so a part of it may be at the fourth parameter.
-/
theorem writesOut_reduceStep (hw : w.KeepsBlocks) (part : w.arena.CallbackPart c 4 task)
    (acc item list : String) : w.WritesOut (w.reduceStep c acc item list) task :=
  writesOut_callback hw [acc, item, loopIndex, list] part fun _ => Render.appends_emit _

/-- The loop of a reduction, behind what starts the accumulator. -/
theorem writesOut_reduction (hw : w.KeepsBlocks) (hheader : ∀ item list, (header item list).Appends)
    {round : String → String → Render Unit} (happends : ∀ item list, (round item list).Appends)
    (hround : w.arena.CallbackPart c 4 task → ∀ item list, w.WritesOut (round item list) task)
    (part : w.arena.ListPart .reduce c [] task) (acc : String) :
    w.WritesOut (do
      let item ← w.loopVariable c.parameters[1]?
      let list ← w.loopOver c.receiver item
        (w.arena.parameterUsed c.parameters reduceListPosition c.body) header
      round item list
      Render.close
      return acc) task := by
  have hend : ∀ item list : String, (do
      round item list
      Render.close
      return acc : Render String).Appends := fun item list =>
    (happends item list).bind fun _ => Render.appends_close.bind fun _ => Render.appends_pure _
  refine .later ((keeps_loopVariable _).appends hw) fun item => ?_
  unfold loopOver
  cases part with
  | source => exact (writesOut_renderStages_source hw hheader _ item).first (hend item)
  | stage among part =>
    exact (writesOut_renderStages_stage hw hheader among part item).first (hend item)
  | callback part =>
    exact .later (appends_renderStages hw hheader _ item) fun list =>
      (hround part item list).first fun _ => Render.appends_close.bind fun _ =>
        Render.appends_pure _
  | initial reduction second => cases second

/-- Each part of a reduction has its step in the loop; the seed is stored in front of it. -/
theorem writesOut_reduceLoop (hw : w.KeepsBlocks) (part : w.arena.ListPart .reduce c args task) :
    w.WritesOut (w.reduceLoop c (args[1]?.map w.arena.argumentExpr)) task := by
  have hopen : ∀ item list, (Render.openLoop item list).Appends :=
    fun item list => Render.appends_emit _
  have hstep : ∀ acc item list, (w.reduceStep c acc item list).Appends :=
    fun acc item list => (keeps_reduceStep c acc item list).appends hw
  have hseeded : ∀ acc, w.arena.ListPart .reduce c [] task → w.WritesOut _ task :=
    fun acc part => writesOut_reduction hw hopen (hstep acc)
      (fun part item list => writesOut_reduceStep hw part acc item list) part acc
  unfold reduceLoop
  refine .later Render.appends_freshTemp fun acc => ?_
  cases hargs : args[1]? with
  -- without a seed the first round takes the item, so the callback is in the second half of a
  -- choice
  | none =>
    simp only [Option.map_none, Option.isNone_none, if_true]
    have hguarded : ∀ item list : String, (do
        emptyReduceGuard list
        Render.openLoop item list : Render Unit).Appends := fun item list =>
      ((keeps_emptyReduceGuard list).appends hw).bind fun _ => hopen item list
    have hassign : ∀ item : String, (Render.assign acc item).Appends :=
      fun item => Render.appends_emit _
    refine writesOut_reduction hw hguarded (fun item list => ?_)
      (fun part item list => .choice_no (hassign item) (writesOut_reduceStep hw part acc item list))
      ?_ acc
    · exact (Render.appends_emit _).bind fun _ => (hassign item).bind fun _ =>
        (Render.appends_emit _).bind fun _ => (hstep acc item list).bind fun _ =>
          Render.appends_close
    · cases part with
      | source => exact .source
      | stage among part => exact .stage among part
      | callback part => exact .callback part
      | initial reduction second =>
        rw [hargs] at second
        cases second
  | some arg =>
    simp only [Option.map_some, Option.isNone_some, Bool.false_eq_true, if_false]
    have hassign := (keeps_assignNode acc (w.arena.argumentExpr arg)).appends hw
    cases part with
    | source => exact .later hassign fun _ => hseeded acc .source
    | stage among part => exact .later hassign fun _ => hseeded acc (.stage among part)
    | callback part => exact .later hassign fun _ => hseeded acc (.callback part)
    | initial reduction second =>
      rw [hargs] at second
      cases second
      refine (writesOut_assignNode hw acc _).first fun _ => ?_
      exact ((keeps_loopVariable _).appends hw).bind fun item =>
        (appends_renderStages hw hopen _ item).bind fun list => (hstep acc item list).bind fun _ =>
          Render.appends_close.bind fun _ => Render.appends_pure _

/-- Every part of a list operation is in a line of its loop. -/
theorem writesOut_listOperation (hw : w.KeepsBlocks)
    (part : w.arena.ListPart operation c args task) :
    w.WritesOut (w.listOperation operation c args) task := by
  cases operation with
  | map =>
    refine .later Render.appends_freshTemp fun result => .later (Render.appends_emit _) fun _ => ?_
    exact writesOut_itemLoop hw (by decide) part fun _ _ =>
      (Render.appends_emit _).bind fun _ => Render.appends_close.bind fun _ => Render.appends_pure _
  | forEach =>
    exact writesOut_itemLoop hw (by decide) part fun _ _ =>
      Render.appends_close.bind fun _ => Render.appends_pure _
  | filter =>
    refine .later Render.appends_freshTemp fun result => .later (Render.appends_emit _) fun _ => ?_
    exact writesOut_itemLoop hw (by decide) part fun item keep =>
      ((Keeps.guarded keep (Keeps.discard _)).appends hw).bind fun _ =>
        Render.appends_close.bind fun _ => Render.appends_pure _
  | reduce => exact writesOut_reduceLoop hw part

/-! ### Expressions -/

/-- What only wraps another expression has its text. -/
theorem puts_of_wrapped {node : Node} (found : w.arena.get? id = some node)
    (wraps : node.wrapped? = some expr) (h : (w.renderExpression id).runOn out = (.ok text, final)) :
    w.Puts (.expression expr) .text text out final := by
  have hpass : (w.expression expr).runOn out = (.ok text, final) →
      w.Puts (.expression expr) .text text out final := by
    intro hrun
    have htask : w.Performs (.expression expr) out text final := hrun
    exact htask.puts_text List.prefix_rfl List.prefix_rfl (Text.keeps_self _)
  unfold renderExpression at h
  rw [node_eq_pure found, pure_bind] at h
  cases node with
  | paren inner | argument inner name | await inner =>
    cases wraps
    exact hpass h
  | promise inner =>
    cases wraps
    dsimp only [promised] at h
    split at h
    · exact absurd ⟨out, final, h⟩ Render.not_yields_fault
    · exact hpass h
  | _ => cases wraps

/-- A member is the text of its base with a name behind it. -/
theorem puts_of_member {name : String} (node : w.arena.get? id = some (.member base name))
    (h : (w.renderExpression id).runOn out = (.ok text, final)) :
    w.Puts (.expression base) .text text out final := by
  unfold renderExpression at h
  rw [node_eq_pure node, pure_bind] at h
  obtain ⟨value, stop, hvalue, hdone⟩ := Render.runOn_bind_eq_ok_iff.mp h
  cases hdone
  have htask : w.Performs (.expression base) out value final := hvalue
  exact htask.puts_text List.prefix_rfl List.prefix_rfl (((Text.keeps_self _).front ".").front name)

/-- A sign stands in front of the text of its operand. -/
theorem exists_run_of_signed {op : UnaryOp} {operand : NodeId}
    (node : w.arena.get? id = some (.unary op operand)) (sign : ∀ step, op ≠ .step step)
    (h : (w.renderExpression id).runOn out = (.ok text, final)) :
    ∃ before value, text = before ++ value ∧
      (w.expression operand).runOn out = (.ok value, final) := by
  unfold renderExpression at h
  rw [node_eq_pure node, pure_bind] at h
  dsimp only [unary] at h
  cases op with
  | not | neg =>
    obtain ⟨value, stop, hvalue, hdone⟩ := Render.runOn_bind_eq_ok_iff.mp h
    cases hdone
    exact ⟨_, value, rfl, hvalue⟩
  | plus => exact ⟨"", text, String.empty_append.symm, h⟩
  | step direction => exact absurd rfl (sign direction)

/-- A sign stands in front of the text of its operand. -/
theorem puts_of_signed {op : UnaryOp} {operand : NodeId}
    (node : w.arena.get? id = some (.unary op operand)) (sign : ∀ step, op ≠ .step step)
    (h : (w.renderExpression id).runOn out = (.ok text, final)) :
    w.Puts (.expression operand) .text text out final := by
  obtain ⟨before, value, rfl, hvalue⟩ := exists_run_of_signed node sign h
  have htask : w.Performs (.expression operand) out value final := hvalue
  exact htask.puts_text List.prefix_rfl List.prefix_rfl ((Text.keeps_self _).behind _)

/-- The target of an assignment is the text of the whole, but for a step behind it, which keeps
the value from before. -/
theorem puts_of_target (hw : w.KeepsBlocks) {node : Node} {target : NodeId}
    (found : w.arena.get? id = some node) (stores : node.stored? = some target)
    (h : (w.renderExpression id).runOn out = (.ok text, final)) :
    w.Puts (.expression target) node.targetPlace text out final := by
  by_cases hafter : ∃ operand step, node = .stepAfter operand step
  · obtain ⟨operand, step, rfl⟩ := hafter
    cases stores
    unfold renderExpression at h
    rw [node_eq_pure found, pure_bind] at h
    exact (writesOut_steppedAfter hw target step).puts h
  · have hplace : node.targetPlace = .text := by
      cases node <;> first | rfl | exact absurd ⟨_, _, rfl⟩ hafter
    obtain ⟨stop, hrun, hstop⟩ := run_of_target hw found stores hplace h
    have htask : w.Performs (.expression target) out text stop := hrun
    rw [hplace]
    exact htask.puts_text List.prefix_rfl hstop (Text.keeps_self _)

/-- A list operation is a loop, so its parts are in lines. -/
theorem puts_of_list (hw : w.KeepsBlocks) {callee receiver body : NodeId} {parameters : List NodeId}
    {name : String} (node : w.arena.get? id = some (.call callee args))
    (member : w.arena.get? (w.arena.unwrapParens callee) = some (.member receiver name))
    (known : ListOperation.ofName? name = some operation)
    (callback : w.arena.callback? args = some (parameters, body))
    (part : w.arena.ListPart operation { receiver, parameters, body } args task)
    (h : (w.renderExpression id).runOn out = (.ok text, final)) :
    w.Puts task .line text out final := by
  unfold renderExpression at h
  rw [node_eq_pure node, pure_bind] at h
  have hmethod := runOn_method_of_call member h
  unfold method at hmethod
  rw [known] at hmethod
  dsimp only at hmethod
  rw [callback] at hmethod
  have hwritten : w.WritesOut (do
      w.requireLoops s!"`{name}`"
      w.listOperation operation { receiver, parameters, body } args : Render String) task :=
    .later ((keeps_requireLoops _).appends hw) fun _ => writesOut_listOperation hw part
  exact hwritten.puts hmethod

/-- A call of an integration has the text that its handler returns. -/
theorem puts_of_integration {callee : NodeId} {integration : IntegrationId}
    (node : w.arena.get? id = some (.call callee args))
    (resolved : w.arena.resolveIntegration callee = some integration)
    (h : (w.renderExpression id).runOn out = (.ok text, final)) :
    w.Puts (.call integration id) .text text out final := by
  unfold renderExpression at h
  rw [node_eq_pure node, pure_bind] at h
  dsimp only [call] at h
  rw [resolved] at h
  have htask : w.Performs (.call integration id) out text final := h
  exact htask.puts_text List.prefix_rfl List.prefix_rfl (Text.keeps_self _)

/-- Whatever is a part of an expression has its run in the run of the expression, and its text
is in its place. -/
theorem puts_of_renderExpression (hw : w.KeepsBlocks) (part : w.arena.ExpressionPart id place task)
    (h : (w.renderExpression id).runOn out = (.ok text, final)) :
    w.Puts task place text out final := by
  cases part with
  | wrapped found wraps => exact puts_of_wrapped found wraps h
  | member node => exact puts_of_member node h
  | signed node sign => exact puts_of_signed node sign h
  | operand order among rendered =>
    obtain ⟨parts, hruns, hkept⟩ := keepsInOrder_of_renderExpression hw order h
    exact hruns.puts hw among rendered List.prefix_rfl List.prefix_rfl hkept
  | argument built inline among rendered => exact puts_of_builds hw built inline among rendered h
  | target found stores => exact puts_of_target hw found stores h
  | stored node stores =>
    unfold renderExpression at h
    rw [node_eq_pure node, pure_bind] at h
    exact (writesOut_binary_stored hw stores).puts h
  | preferred node form =>
    unfold renderExpression at h
    rw [node_eq_pure node, pure_bind] at h
    exact (writesOut_binary_preferred hw form).puts h
  | fallback node form =>
    unfold renderExpression at h
    rw [node_eq_pure node, pure_bind] at h
    exact (writesOut_binary_fallback hw form).puts h
  | branch node among =>
    unfold renderExpression at h
    rw [node_eq_pure node, pure_bind] at h
    exact (writesOut_conditional hw among).puts h
  | @item items item node spreads among single =>
    unfold renderExpression at h
    rw [node_eq_pure node, pure_bind] at h
    exact (writesOut_arrayLiteral hw spreads among fun list =>
      writesOut_addItem hw list single).puts h
  | @spreadItem items item expr node among spread =>
    unfold renderExpression at h
    rw [node_eq_pure node, pure_bind] at h
    have spreads : items.any (isSpread w.arena) = true :=
      List.any_eq_true.mpr ⟨item, among, by simp [isSpread, spread]⟩
    exact (writesOut_arrayLiteral hw spreads among fun list =>
      writesOut_addItem_spread hw list spread).puts h
  | value node among member =>
    unfold renderExpression at h
    rw [node_eq_pure node, pure_bind] at h
    exact (writesOut_objectLiteral hw among fun object =>
      writesOut_addProperty hw object member).puts h
  | key node among member computed =>
    unfold renderExpression at h
    rw [node_eq_pure node, pure_bind] at h
    exact (writesOut_objectLiteral hw among fun object =>
      writesOut_addProperty_key hw object member computed).puts h
  | spreadProperty node among spread =>
    unfold renderExpression at h
    rw [node_eq_pure node, pure_bind] at h
    exact (writesOut_objectLiteral hw among fun object =>
      writesOut_addProperty_spread hw object spread).puts h
  | list node member known callback part => exact puts_of_list hw node member known callback part h
  | integration node resolved => exact puts_of_integration node resolved h

end Walker

end ClosureVtl
