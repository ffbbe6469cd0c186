/-
Module: ClosureVtl.Proofs.Render.SpendingRules
Purpose: The rules for calls, expressions, statements and JSON text stay within the weight
  of their node, and so do the handlers of all common styles.
Main exports:
  Walker.spends_renderExpression, Walker.spends_renderStatement, Walker.spends_renderRoot,
  Walker.spends_renderFragment, Integration.RendersArgumentsOnce,
  Integration.rendersArgumentsOnce_ofStyle
-/
import ClosureVtl.Proofs.Render.Spending
import ClosureVtl.Render.Program

namespace ClosureVtl

/-!
The remaining rules, one lemma each.  Rules that hand on the parts of a node as they are stay
within the weight of these parts, whatever the weights are.  The others look into the parts,
and there a node has to weigh as much as its parts do together.
-/

namespace Walker

variable {w : Walker} {weight : NodeId → Nat} {n : Nat}

/-! ### Rules that hand on the parts of a node -/

/-- A promise is rendered once, or refused. -/
theorem spends_promised (id expr : NodeId) :
    w.Spends weight (w.promised id expr) (weight expr) :=
  .ite (fun _ => .of_free (.fault _)) fun _ => .expression expr

/-- The operand is rendered once, and its text is used twice. -/
theorem spends_stepped (operand : NodeId) (step : Step) :
    w.Spends weight (w.stepped operand step) (weight operand) :=
  .after (.expression operand) fun target _ => .before (.assign target _) fun _ _ => .pure target

/-- So is that of a step behind the operand. -/
theorem spends_steppedAfter (operand : NodeId) (step : Step) :
    w.Spends weight (w.steppedAfter operand step) (weight operand) :=
  .after (.expression operand) fun target _ => .before (.materialize target) fun before _ =>
    .before (.assign target _) fun _ _ => .pure before

/-- An operator with one operand renders it once. -/
theorem spends_unary (op : UnaryOp) (operand : NodeId) :
    w.Spends weight (w.unary op operand) (weight operand) := by
  cases op with
  | not => exact .after (.expression operand) fun _ _ => .pure _
  | neg => exact .after (.expression operand) fun _ _ => .pure _
  | plus => exact .expression operand
  | step direction => exact spends_stepped operand direction

/-- The test and both branches are rendered, whichever of them will run. -/
theorem spends_conditional (test yes no : NodeId) :
    w.Spends weight (w.conditional test yes no) (weight test + (weight yes + weight no)) := by
  refine .bind (.expression test) fun condition _ => .before .freshTemp fun result _ => ?_
  refine .after (.choice condition ?_ ?_) fun _ _ => .pure result
  · exact spends_assignNode result yes
  · exact spends_assignNode result no

/-- A piece of a template is no node. -/
theorem spends_templateText (text : String) : w.Spends weight (templateText text) 0 := by
  refine .ite (fun _ => ?_) fun _ => .pure _
  exact .before (.materialize _) fun _ _ => .pure _

/-- A template costs what its spans weigh together. -/
theorem spends_templateLiteral (head : String) (spans : List TemplateSpan) :
    w.Spends weight (w.templateLiteral head spans)
      (spans.map fun span => weight span.expr).sum := by
  have hspan : ∀ span : TemplateSpan, w.Spends weight (w.templateSpan span) (weight span.expr) :=
    fun span => .after (spends_reference span.expr) fun _ _ =>
      .before (spends_templateText span.literal) fun _ _ => .pure _
  refine .before (spends_templateText head) fun head _ => ?_
  exact .after (.mapM fun span _ => hspan span) fun _ _ => .pure _

/-- The value of a return is rendered once, as an expression or as a fragment. -/
theorem spends_returned (value : Option NodeId) :
    w.Spends weight (w.returned value) (value.toList.map weight).sum := by
  unfold returned
  split
  · next value _ =>
    exact .mono (.after (.expression value) fun _ _ => .emit _) (by simp)
  · exact .emit _
  · next value _ =>
    exact .mono (.after (.fragment value) fun _ _ => .emit _) (by simp)
  · exact .emit _

/-- The target of a loop is bound before its body. -/
theorem spends_loop (target : NodeId) (list : String) {body : Render Unit}
    (hbody : w.Spends weight body n) :
    w.Spends weight (w.loop target list body) (weight target + n) := by
  have hrest : w.Spends weight (do
      body
      Render.close) n :=
    .after hbody fun _ _ => .close
  have hpattern : w.Spends weight (do
      let item ← Render.freshTemp
      Render.openLoop item list
      w.expand target item
      body
      Render.close) (weight target + n) := by
    refine .before .freshTemp fun item _ => .before (.openLoop item list) fun _ _ => ?_
    exact .bind (.expand target item) fun _ _ => hrest
  refine .before (spends_requireLoops _) fun _ _ => spends_node fun node _ => ?_
  cases node with
  | identifier name =>
    refine .mono ?_ (Nat.le_add_left _ _)
    exact .before (spends_address target) fun item _ => .before (.openLoop item list) fun _ _ => hrest
  | objectPattern elements => exact hpattern
  | arrayPattern elements => exact hpattern
  | _ => exact .mono (.before (.fault _) fun _ _ => hrest) (Nat.le_add_left _ _)

/-- A declaration binds its name or its pattern and renders its value. -/
theorem spends_declare (name : NodeId) (value : Option NodeId) :
    w.Spends weight (w.declare name value) (weight name + (value.toList.map weight).sum) := by
  have hpattern : ∀ value, w.Spends weight (w.reference value >>= w.expand name)
      (weight name + ([value].map weight).sum) := fun value =>
    .share (by simp [Nat.add_comm]) (spends_reference value) fun source _ => .expand name source
  refine spends_node fun node _ => ?_
  split
  · refine .mono (.before (spends_address name) fun target _ => ?_) (Nat.le_add_left _ _)
    cases value with
    | none => exact .assign target _
    | some value => exact .mono (spends_assignNode target value) (by simp)
  · cases value with
    | none => exact spends_breach _
    | some value => exact hpattern value
  · cases value with
    | none => exact spends_breach _
    | some value => exact hpattern value
  · exact spends_breach _

/-- A branch renders its test and both of its sides. -/
theorem spends_branch (test yes : NodeId) (no : Option NodeId) (slot : Option String) :
    w.Spends weight (w.branch test yes no slot)
      (weight test + (weight yes + (no.toList.map weight).sum)) := by
  refine .bind (.expression test) fun condition _ => ?_
  cases no with
  | none => exact .guarded condition (.statement yes slot)
  | some no =>
    refine .mono (.choice condition (.statement yes slot) (.statement no slot)) ?_
    simp

/-- A return renders its value, if it has one. -/
theorem spends_returnTo (expr : Option NodeId) (slot : Option String) :
    w.Spends weight (w.returnTo expr slot) (expr.toList.map weight).sum := by
  cases slot with
  | none => exact spends_returned expr
  | some slot =>
    cases expr with
    | none => exact .assign slot _
    | some expr => exact .mono (spends_assignNode slot expr) (by simp)

/-- The parameters of a root are looked at and not rendered. -/
theorem spends_checkRootParameter (parameter : NodeId) :
    w.Spends weight (w.checkRootParameter parameter) 0 := by
  refine spends_node fun node _ => ?_
  split
  · refine spends_node fun node _ => ?_
    split
    · exact .pure ()
    · exact spends_unsupported _
  · exact .pure ()

/-- A JSON string is no node. -/
theorem spends_jsonText (text : String) : w.Spends weight (jsonText text) 0 := by
  refine .ite (fun _ => ?_) fun _ => .pure _
  exact .before (.materialize _) fun _ _ => .pure _

/-- A primitive is rendered once, and its reference is read by the test. -/
theorem spends_primitive (expr : NodeId) :
    w.Spends weight (w.primitive expr) (weight expr) := by
  refine .ite (fun _ => spends_unsupported _) fun _ => ?_
  exact .after (spends_reference expr) fun _ _ => .pure _

/-- An item is rendered as a fragment, or it is refused. -/
theorem spends_jsonItem (item : NodeId) : w.Spends weight (w.jsonItem item) (weight item) := by
  refine spends_node fun node _ => ?_
  split
  · exact spends_unsupported _
  · exact .fragment item

section

variable (h : w.arena.Weighs weight)

include h

/-! ### Calls -/

/-- Behind a call of a global helper, a step that is free if there was one, and that else
renders the call in its own way. -/
theorem spends_helperCall? {base : NodeId} {name : String} {args : List NodeId}
    {last : Option String → Render String} (hsome : ∀ text, w.Spends weight (last (some text)) 0)
    (hnone : w.Spends weight (last none) n) (hle : (args.map weight).sum ≤ n) :
    w.Spends weight (w.helperCall? base name args >>= last) n := by
  unfold helperCall?
  rw [bind_assoc]
  refine spends_node fun node _ => ?_
  split
  · rw [pure_bind]
    exact hnone
  · split
    · rw [pure_bind]
      exact hnone
    · split
      · next arg =>
        rw [bind_assoc]
        refine .mono (.after (spends_argument h arg) fun value _ => ?_) (by simpa using hle)
        rw [pure_bind]
        exact hsome _
      · exact .of_free (.before (.fault _) fun _ hy => absurd hy Render.not_yields_fault)

/-- The callback and the seed of a list operation are among its arguments, and they are different
ones. -/
theorem spends_listOperation (operation : ListOperation) (c : ListCall) {args : List NodeId}
    (hc : w.arena.callback? args = some (c.parameters, c.body)) :
    w.Spends weight (w.listOperation operation c args)
      (weight c.receiver + (args.map weight).sum) := by
  have hcallback := h.callback_le hc
  have htotal : c.totalWeight weight ≤ weight c.receiver + (args.map weight).sum := by
    unfold ListCall.totalWeight ListCall.callbackWeight
    omega
  cases operation with
  | map => exact .mono (spends_mapLoop h c) htotal
  | forEach => exact .mono (spends_forEachLoop h c) htotal
  | filter => exact .mono (spends_filterLoop h c) htotal
  | reduce =>
    have hinitial : ((args[1]?.map w.arena.argumentExpr).toList.map weight).sum ≤
        (args.tail.map weight).sum := by
      rcases args with _ | ⟨first, _ | ⟨second, rest⟩⟩
      · simp
      · simp
      · simpa using Nat.le_add_right_of_le (h.argumentExpr_le second)
    refine .mono (spends_reduceLoop h c _) ?_
    unfold ListCall.totalWeight ListCall.callbackWeight
    omega

/-- The receiver and the one argument are rendered, a spread one from within. -/
theorem spends_push (base : NodeId) (args : List NodeId) :
    w.Spends weight (w.push base args) (weight base + (args.map weight).sum) := by
  unfold push
  split
  · next arg =>
    refine .bind (.expression base) fun list _ => ?_
    refine spends_node fun node hn => ?_
    split
    · next expr =>
      have hexpr := (h.part_le ⟨_, hn, List.mem_singleton.mpr rfl⟩).trans (h.argumentExpr_le arg)
      exact .mono (.after (.expression expr) fun _ _ => .pure _) (by simpa using hexpr)
    · exact .mono (.after (spends_argument h arg) fun _ _ => .pure _) (by simp)
  · exact spends_unsupported _

/-- A method renders its receiver and its arguments. -/
theorem spends_plainMethod (base : NodeId) (name : String) (args : List NodeId) :
    w.Spends weight (w.plainMethod base name args) (weight base + (args.map weight).sum) :=
  .bind (.expression base) fun _ _ => .after (spends_arguments h args) fun _ _ => .pure _

/-- Whatever a method is, its receiver and its arguments share the budget. -/
theorem spends_method (base : NodeId) (name : String) (args : List NodeId) :
    w.Spends weight (w.method base name args) (weight base + (args.map weight).sum) := by
  unfold method
  split
  · next operation _ =>
    split
    · next parameters body hc =>
      refine .before (spends_requireLoops _) fun _ _ => ?_
      exact spends_listOperation h operation { receiver := base, parameters, body } hc
    · exact spends_unsupported _
  · refine .ite (fun _ => spends_push h base args) fun _ => ?_
    exact spends_helperCall? h (fun _ => .pure _) (spends_plainMethod h base name args)
      (Nat.le_add_left _ _)

/-- A function is written with its address, so only the arguments are rendered. -/
theorem spends_namedFunction (callee : NodeId) (name : String) (args : List NodeId) :
    w.Spends weight (w.namedFunction callee name args) (args.map weight).sum := by
  refine .ite (fun _ => ?_) fun _ => spends_unsupported _
  refine .before (spends_address callee) fun _ _ => ?_
  exact .after (spends_arguments h args) fun _ _ => .pure _

/-- A call that no integration takes leaves its callee alone, but for the receiver. -/
theorem spends_call {id callee : NodeId} {args : List NodeId}
    (hn : w.arena.get? id = some (.call callee args)) :
    w.Spends weight (w.call id callee args) (weight id) := by
  have hparts : weight callee + (args.map weight).sum ≤ weight id := by
    simpa [Node.children] using h.parts_le hn
  unfold call
  split
  · next hr => exact .integrate hn hr
  · refine spends_node fun node hcallee => ?_
    split
    · next base name =>
      have hbase := (h.part_le ⟨_, hcallee, List.mem_singleton.mpr rfl⟩).trans
        (h.unwrapParens_le callee)
      exact .mono (spends_method h base name args) (by omega)
    · exact .mono (spends_namedFunction h _ _ args) (by omega)
    · exact .mono (spends_namedFunction h _ _ args) (by omega)
    · exact spends_unsupported _

/-! ### Expressions -/

/-- Each form renders both operands once. -/
theorem spends_binary (left : NodeId) (op : BinaryOp) (right : NodeId) :
    w.Spends weight (w.binary left op right) (weight left + weight right) := by
  unfold binary
  split
  · refine .bind (.expression left) fun target _ => ?_
    exact .after (spends_assignNode target right) fun _ _ => .pure target
  · refine .bind (.expression left) fun target _ => ?_
    exact .after (.ifNull target (spends_assignNode target right)) fun _ _ => .pure target
  · refine .bind (spends_materializeNode left) fun result _ => ?_
    exact .after (.ifNull result (spends_assignNode result right)) fun _ _ => .pure result
  · exact .bind (spends_argument h left) fun _ _ => .after (.expression right) fun _ _ => .pure _
  · refine .bind (.expression left) fun target _ => .after (.expression right) fun _ _ => ?_
    exact .before (.assign target _) fun _ _ => .pure target
  · exact .bind (.expression left) fun _ _ => .after (.expression right) fun _ _ => .pure _

/-- An item is rendered once, a spread one from within. -/
theorem spends_addItem (list : String) (item : NodeId) :
    w.Spends weight (w.addItem list item) (weight item) := by
  refine spends_node fun node hn => ?_
  split
  · next expr =>
    refine .mono (.after (.expression expr) fun _ _ => .discard _) ?_
    exact h.part_le ⟨_, hn, List.mem_singleton.mpr rfl⟩
  · exact .after (spends_argument h item) fun _ _ => .discard _

/-- A list costs what its items weigh together, whichever way it is written. -/
theorem spends_arrayLiteral (items : List NodeId) :
    w.Spends weight (w.arrayLiteral items) (items.map weight).sum := by
  refine .ite (fun _ => ?_) fun _ => .after (spends_arguments h items) fun _ _ => .pure _
  refine .before .freshTemp fun list _ => .before (.assign list _) fun _ _ => ?_
  exact .after (.forM fun item _ => spends_addItem h list item) fun _ _ => .pure list

/-- Only a computed key is rendered. -/
theorem spends_propertyKey (name : NodeId) :
    w.Spends weight (w.propertyKey name) (weight name) := by
  refine spends_node fun node hn => ?_
  split
  · exact .of_free (.pure _)
  · exact .of_free (.pure _)
  · next value => exact .of_free (.before (spends_number value) fun _ _ => .pure _)
  · next expr =>
    exact .mono (spends_argument h expr) (h.part_le ⟨_, hn, List.mem_singleton.mpr rfl⟩)
  · exact spends_breach _

/-- The key and the value share the weight of the property. -/
theorem spends_addProperty (object : String) (property : NodeId) :
    w.Spends weight (w.addProperty object property) (weight property) := by
  refine spends_node fun node hn => ?_
  split
  · next name value =>
    have hparts : weight name + weight value ≤ weight property := by
      simpa [Node.children] using h.parts_le hn
    refine .share hparts (spends_propertyKey h name) fun _ _ => ?_
    exact .after (spends_argument h value) fun _ _ => .discard _
  · next expr =>
    refine .mono (.after (.expression expr) fun _ _ => .discard _) ?_
    exact h.part_le ⟨_, hn, List.mem_singleton.mpr rfl⟩
  · exact spends_breach _

/-- An object costs what its properties weigh together. -/
theorem spends_objectLiteral (properties : List NodeId) :
    w.Spends weight (w.objectLiteral properties) (properties.map weight).sum := by
  refine .before .freshTemp fun object _ => .before (.assign object _) fun _ _ => ?_
  exact .after (.forM fun property _ => spends_addProperty h object property) fun _ _ => .pure object

/-- An expression spends no more than its weight. -/
theorem spends_renderExpression (id : NodeId) :
    w.Spends weight (w.renderExpression id) (weight id) := by
  refine spends_node fun node hn => ?_
  have hparts := h.parts_le hn
  simp only [Node.children] at hparts
  cases node with
  | null | undefined | string _ | boolean _ => exact .of_free (.pure _)
  | number value => exact .of_free (spends_number value)
  | array items => exact .mono (spends_arrayLiteral h items) hparts
  | object properties => exact .mono (spends_objectLiteral h properties) hparts
  | template head spans =>
    rw [List.map_map] at hparts
    exact .mono (spends_templateLiteral head spans) hparts
  | identifier _ | reference _ _ => exact .of_free (spends_address id)
  | member base name =>
    exact .mono (.after (.expression base) fun _ _ => .pure _) (by simpa using hparts)
  | element base key =>
    refine .share (by simpa using hparts) (.expression base) fun _ _ => ?_
    exact .after (spends_argument h key) fun _ _ => .pure _
  | binary left op right => exact .mono (spends_binary h left op right) (by simpa using hparts)
  | unary op operand => exact .mono (spends_unary op operand) (by simpa using hparts)
  | stepAfter operand step =>
    exact .mono (spends_steppedAfter operand step) (by simpa using hparts)
  | conditional test yes no =>
    exact .mono (spends_conditional test yes no) (by simpa using hparts)
  | paren expr | argument expr _ | await expr =>
    exact .mono (.expression expr) (by simpa using hparts)
  | promise expr => exact .mono (spends_promised id expr) (by simpa using hparts)
  | call callee args => exact spends_call h hn
  | typeOf _ | construct _ _ | function _ _ | spread _ => exact spends_unsupported _
  | _ => exact spends_breach _

/-! ### Statements -/

/-- The declared target, the list and the body are parts of the loop, so they share its weight.
-/
theorem spends_loopStatement (kind : String) (view : String → String)
    (binding iterable body : NodeId) (slot : Option String) :
    w.Spends weight (w.loopStatement kind view binding iterable body slot)
      (weight binding + (weight iterable + weight body)) := by
  have hloop : ∀ target list, weight target ≤ weight binding →
      w.Spends weight (w.loop target list (w.statement body slot))
        (weight binding + weight body) := fun target list hle =>
    .mono (spends_loop target list (.statement body slot)) (Nat.add_le_add_right hle _)
  refine .before (spends_requireLoops kind) fun _ _ => ?_
  refine .share (Nat.le_of_eq (Nat.add_left_comm _ _ _)) (.expression iterable) fun list _ => ?_
  unfold loopTarget
  rw [bind_assoc]
  refine spends_node fun node hn => ?_
  split
  · rw [pure_bind]
    exact hloop _ _ (h.part_le ⟨_, hn, List.mem_cons_self⟩)
  · rw [pure_bind]
    exact hloop _ _ (Nat.le_refl _)

/-- The value of an expression statement is what stands within its parentheses. -/
theorem spends_expressionStatement (expr : NodeId) :
    w.Spends weight (w.expressionStatement expr) (weight expr) := by
  refine .mono ?_ (h.unwrapParens_le expr)
  refine spends_node fun node hn => ?_
  split
  · next operand step =>
    refine .mono (.after (spends_stepped operand step) fun _ _ => .pure ()) ?_
    exact h.part_le ⟨_, hn, List.mem_singleton.mpr rfl⟩
  · exact .after (.expression _) fun value _ => .ite (fun _ => .discard value) fun _ => .pure ()

/-- A statement spends no more than its weight. -/
theorem spends_renderStatement (id : NodeId) (slot : Option String) :
    w.Spends weight (w.renderStatement id slot) (weight id) := by
  refine spends_node fun node hn => ?_
  have hparts := h.parts_le hn
  simp only [Node.children] at hparts
  cases node with
  | block statements => exact .mono (.forM fun statement _ => .statement statement slot) hparts
  | exprStatement expr => exact .mono (spends_expressionStatement h expr) (by simpa using hparts)
  | declaration _ name value => exact .mono (spends_declare name value) (by simpa using hparts)
  | branch test yes no => exact .mono (spends_branch test yes no slot) (by simpa using hparts)
  | forOf binding iterable body | forIn binding iterable body =>
    exact .mono (spends_loopStatement h _ _ binding iterable body slot) (by simpa using hparts)
  | returnValue expr => exact .mono (spends_returnTo expr slot) hparts
  | breakLoop => exact .of_free (.before (spends_requireLoops _) fun _ _ => .emit _)
  | continueLoop | throw | whileLoop | doWhile | forLoop | tryCatch =>
    exact spends_unsupported _
  | _ => exact spends_breach _

/-- So does a closure. -/
theorem spends_renderRoot (root : NodeId) :
    w.Spends weight (w.renderRoot root) (weight root) := by
  refine spends_node fun node hn => ?_
  split
  · next parameters body =>
    have hbody : weight body ≤ weight root := h.part_le ⟨_, hn, by simp [Node.children]⟩
    refine .mono ?_ hbody
    have hcheck : w.Spends weight (parameters.forM w.checkRootParameter) 0 :=
      .mono (.forM fun parameter _ => spends_checkRootParameter parameter) (by simp)
    refine .before hcheck fun _ _ => spends_node fun node _ => ?_
    refine .ite (fun _ => .statement body none) fun _ => ?_
    exact .mono (spends_returned (some body)) (by simp)
  · refine .ite (fun _ => .statement root none) fun _ => ?_
    exact .mono (spends_returned (some root)) (by simp)

/-! ### Values as JSON text -/

/-- The key and the value of a field share the weight of the property. -/
theorem spends_jsonField (property : NodeId) :
    w.Spends weight (w.jsonField property) (weight property) := by
  have hkey : ∀ name, w.Spends weight (w.jsonKey name) 0 := by
    intro name
    refine spends_node fun node _ => ?_
    split
    · exact spends_jsonText _
    · exact spends_jsonText _
    · exact .before (spends_number _) fun _ _ => .pure _
    · exact spends_unsupported _
  refine spends_node fun node hn => ?_
  split
  · next name value =>
    refine .before (hkey name) fun _ _ => ?_
    refine .mono (.after (.fragment value) fun _ _ => .pure _) ?_
    exact h.part_le ⟨_, hn, by simp [Node.children]⟩
  · exact spends_unsupported _

/-- A value is handed on as a whole, or in its parts. -/
theorem spends_fragmentOf {expr : NodeId} {node : Node} (hn : w.arena.get? expr = some node) :
    w.Spends weight (w.fragmentOf expr node) (weight expr) := by
  have hparts := h.parts_le hn
  simp only [Node.children] at hparts
  cases node with
  | null | undefined | boolean _ => exact .of_free (.pure _)
  | number value => exact .of_free (spends_number value)
  | string value => exact .of_free (spends_jsonText value)
  | object properties =>
    refine .mono (.after (.mapM fun property _ => spends_jsonField h property) ?_) hparts
    exact fun _ _ => .pure _
  | array items =>
    exact .mono (.after (.mapM fun item _ => spends_jsonItem item) fun _ _ => .pure _) hparts
  | template => exact .after (spends_reference expr) fun _ _ => .pure _
  | await inner => exact .mono (.fragment inner) (by simpa using hparts)
  | promise inner =>
    exact .ite (fun _ => .expression expr) fun _ => .mono (.fragment inner) (by simpa using hparts)
  | call => exact .ite (fun _ => .expression expr) fun _ => spends_primitive expr
  | _ => exact spends_primitive expr

/-- JSON text spends no more than the weight of the value. -/
theorem spends_renderFragment (expr : NodeId) :
    w.Spends weight (w.renderFragment expr) (weight expr) := by
  refine .mono ?_ (h.unwrapParens_le expr)
  unfold renderFragment
  dsimp only
  split
  · exact .of_free (.pure _)
  · exact spends_node fun node hn => spends_fragmentOf h hn

end

end Walker

/-! ### Handlers -/

/-- Whether the handlers of an integration render each argument of a call at most once, as a
whole or in its parts, and nothing else. -/
def Integration.RendersArgumentsOnce (integration : Integration) : Prop :=
  ∀ (w : Walker) (weight : NodeId → Nat) (site : CallSite), w.arena.Weighs weight →
    w.Spends weight (integration.handler w.dialect w site) (site.args.map weight).sum

namespace Integration

variable {w : Walker} {weight : NodeId → Nat}

/-- A request renders its payload, which is the first argument, if there is any. -/
theorem spends_stashRequest (h : w.arena.Weighs weight) (kind : String) (site : CallSite) :
    w.Spends weight (stashRequest kind w site) (site.args.map weight).sum := by
  unfold stashRequest
  split
  · refine .of_free (.before (.pure _) fun _ _ => .before (.emit _) fun _ _ => .pure _)
  · next first rest hargs =>
    refine .share (m := 0) ?_ (Walker.spends_argument h first) fun _ _ =>
      .before (.emit _) fun _ _ => .pure _
    simp [hargs]

/-- So does a request within JSON, as a fragment. -/
theorem spends_jsonRequest (kind : String) (site : CallSite) :
    w.Spends weight (jsonRequest kind w site) (site.args.map weight).sum := by
  unfold jsonRequest
  split
  · exact .of_free (.before (.pure _) fun _ _ => .pure _)
  · next first rest hargs =>
    refine .share (m := 0) ?_ (.fragment first) fun _ _ => .pure _
    simp [hargs]

/-- The common styles render the first argument, or all in order. -/
theorem rendersArgumentsOnce_ofStyle (kind : String) (style : Style) :
    (ofStyle kind style).RendersArgumentsOnce := by
  intro w weight site h
  have hunsupported : ∀ dialect, w.Spends weight (unsupportedIn kind dialect w site)
      (site.args.map weight).sum := fun dialect => Walker.spends_unsupported _
  have hinvocation : w.Spends weight (invocation kind w site) (site.args.map weight).sum :=
    .after (.mapM fun id _ => Walker.spends_argument h id) fun _ _ => .pure _
  have hjson : w.Spends weight (jsonInvocation kind w site) (site.args.map weight).sum :=
    .after (.mapM fun id _ => .fragment id) fun _ _ => .pure _
  unfold handler
  cases style <;> cases w.dialect <;>
    first
      | exact spends_stashRequest h kind site
      | exact spends_jsonRequest kind site
      | exact hinvocation
      | exact hjson
      | exact hunsupported _

end Integration

end ClosureVtl
