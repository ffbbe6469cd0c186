/-
Module: ClosureVtl.Proofs.Render.PairedRules
Purpose: The rules for calls, expressions, statements and JSON text run side by side.
Main exports:
  Walker.inStep_renderExpression, Walker.inStep_renderStatement,
  Walker.inStep_renderRoot, Walker.inStep_renderFragment
-/
import ClosureVtl.Proofs.Render.PairedListRules

namespace ClosureVtl.Walker

/-!
The remaining rules, one lemma each.  Two of them call the walker for the node that
they are about, and not for a part of it: a call is handed to its integration, and a
value that is no literal is printed through its expression.  There the lemma asks that
both walkers may be called for the node.

What such a rule asks about the node itself is listed in `Walker.Faces`.  Whether its value
is consumed matters only if it is a promise of what an integration returns.
-/

variable {w w' : Walker} {c : Correspondence} {id id' : NodeId}

/-- Whether two walkers see the same of two nodes that they are called for. -/
structure Faces (w w' : Walker) (c : Correspondence) (id id' : NodeId) : Prop where
  meets : Option.Rel (Node.Meets w.arena w'.arena c) (w.arena.get? id) (w'.arena.get? id')
  dangling : w.arena.get? id = none → id = id'
  classify : w.arena.classify id = w'.arena.classify id'
  calledIntegration :
    (w.arena.calledIntegration id).isSome = (w'.arena.calledIntegration id').isSome
  consumed : isConsumed w.arena id = isConsumed w'.arena id' ∨
    ∀ expr, w.arena.get? id = some (.promise expr) → w.arena.calledIntegration expr = none
  jsonPath : w.arena.jsonPath id = w'.arena.jsonPath id'
  composite : w.arena.isComposite id = w'.arena.isComposite id'

/-- Walkers that agree on all questions see the same of nodes that correspond on their own. -/
theorem Abreast.faces (h : w.Abreast w' c) (hid : c.own id id') : w.Faces w' c id id' where
  meets := h.alongside.meets hid
  dangling := h.dangling hid
  classify := h.classify hid
  calledIntegration := h.calledIntegration (.inr hid)
  consumed := .inl (h.consumed hid)
  jsonPath := h.jsonPath hid
  composite := h.composite hid

/-- Both walkers find nodes that meet, or nothing. -/
theorem Faces.inStep_node (hid : w.Faces w' c id id') :
    InStep w w' c
      (fun node node' => node.Meets w.arena w'.arena c node' ∧ w.arena.get? id = some node)
      (w.node id) (w'.node id') := by
  unfold Walker.node Arena.node
  have hmeets := hid.meets
  rcases hn : w.arena.get? id with _ | node <;> rcases hn' : w'.arena.get? id' with _ | node' <;>
    rw [hn, hn'] at hmeets <;> cases hmeets
  · rw [hid.dangling hn]
    exact .fault _
  · next hmeets => exact .pure ⟨hmeets, rfl⟩

/-! ### Calls

A call goes by its callee: an integration, a method, a function of the runtime, or nothing
that is known.  Both walkers take the same turn, as they see the same of the callee.
-/

/-- A helper is a global name that both closures leave undeclared, or neither. -/
theorem inStep_helperCall? (h : w.Alongside w' c) {base base' : NodeId} (hb : c.value base base')
    (name : String) {args args' : List NodeId} (ha : List.Forall₂ c.value args args') :
    InStep w w' c Eq (w.helperCall? base name args) (w'.helperCall? base' name args') := by
  refine inStep_node h (h.own (h.unwrap hb)) ?_ (fun _ _ _ _ => .pure rfl) fun _ _ => .pure rfl
  intro node node' _ _ hlifts
  have hglobal : globalName? w.arena (w.arena.unwrapParens base) node =
      globalName? w'.arena (w'.arena.unwrapParens base') node' := by
    cases hlifts with
    | identifier name =>
      simp only [globalName?, h.declared hb]
    | reference name hintegration => cases hintegration <;> rfl
    | _ => rfl
  rw [hglobal]
  split
  · exact .pure rfl
  · split
    · exact .pure rfl
    · cases ha with
      | nil => exact .unsupported _
      | cons hfirst hrest =>
        cases hrest with
        | nil =>
          apply InStep.bindEq (inStep_argument h hfirst)
          intro value
          exact .pure rfl
        | cons hsecond hrest =>
          simp only [List.length_cons, hrest.length_eq]
          exact .unsupported _

/-- A list operation is the same loop on both sides, over calls that correspond. -/
theorem inStep_listOperation (h : w.Alongside w' c) (operation : ListOperation)
    {call call' : ListCall} (hc : call.Lifts c call') {args args' : List NodeId}
    (ha : List.Forall₂ c.value args args') :
    InStep w w' c Eq (w.listOperation operation call args)
      (w'.listOperation operation call' args') := by
  cases operation with
  | map => exact inStep_mapLoop h hc
  | forEach => exact inStep_forEachLoop h hc
  | filter => exact inStep_filterLoop h hc
  | reduce =>
    apply inStep_reduceLoop h hc
    have hsecond := optionRel_getElem? ha 1
    revert hsecond
    generalize args[1]? = second
    generalize args'[1]? = second'
    rintro (hsecond | _)
    · exact .some (h.argumentExpr hsecond).2
    · exact .none

/-- The value that is pushed is spread on both sides or on neither. -/
theorem inStep_push (h : w.Alongside w' c) {base base' : NodeId} (hb : c.value base base')
    {args args' : List NodeId} (ha : List.Forall₂ c.value args args') :
    InStep w w' c Eq (w.push base args) (w'.push base' args') := by
  cases ha with
  | nil => exact .unsupported _
  | @cons arg arg' rest rest' hfirst hrest =>
    cases hrest with
    | nil =>
      apply InStep.bindEq (inStep_expression h hb)
      intro list
      have hadd : InStep w w' c Eq (do
          let value ← w.argument arg
          return s!"{list}.add({value})") (do
          let value ← w'.argument arg'
          return s!"{list}.add({value})") := by
        apply InStep.bindEq (inStep_argument h hfirst)
        intro value
        exact .pure rfl
      refine inStep_node h (h.own (h.argumentExpr hfirst).1) ?_ (fun _ _ _ _ => hadd)
        fun _ _ => hadd
      intro node node' _ _ hlifts
      cases hlifts with
      | spread hexpr =>
        apply InStep.bindEq (inStep_expression h hexpr)
        intro values
        exact .pure rfl
      | _ => exact hadd
    | cons hsecond hrest =>
      simp only [push, List.length_cons, hrest.length_eq]
      exact .unsupported _

/-- A method is called by its name, which is not looked up. -/
theorem inStep_plainMethod (h : w.Alongside w' c) {base base' : NodeId} (hb : c.value base base')
    (name : String) {args args' : List NodeId} (ha : List.Forall₂ c.value args args') :
    InStep w w' c Eq (w.plainMethod base name args) (w'.plainMethod base' name args') := by
  apply InStep.bindEq (inStep_expression h hb)
  intro receiver
  apply InStep.bindEq (inStep_arguments h ha)
  intro args
  exact .pure rfl

/-- Callbacks are inline on both sides or on neither, so a method is taken for the same. -/
theorem inStep_method (h : w.Alongside w' c) {base base' : NodeId} (hb : c.value base base')
    (name : String) {args args' : List NodeId} (ha : List.Forall₂ c.value args args') :
    InStep w w' c Eq (w.method base name args) (w'.method base' name args') := by
  unfold method
  cases ListOperation.ofName? name with
  | some operation =>
    have hcallback := h.callback? ha
    dsimp only
    revert hcallback
    generalize w.arena.callback? args = callback
    generalize w'.arena.callback? args' = callback'
    rintro (⟨hp, hbody⟩ | _)
    · apply InStep.bindEq (inStep_requireLoops h _)
      intro _
      exact inStep_listOperation h operation ⟨hb, hp, hbody⟩ ha
    · exact .unsupported _
  | none =>
    refine .ite Iff.rfl (fun _ => inStep_push h hb ha) fun _ => ?_
    apply InStep.bindEq (inStep_helperCall? h hb name ha)
    intro text
    cases text with
    | some text => exact .pure rfl
    | none => exact inStep_plainMethod h hb name ha

/-- A function is named by what its callee is classed as, the same on both sides. -/
theorem inStep_namedFunction (h : w.Alongside w' c) {callee callee' : NodeId}
    (hc : w.arena.classify callee = w'.arena.classify callee') (name : String)
    {args args' : List NodeId}
    (ha : List.Forall₂ c.value args args') :
    InStep w w' c Eq (w.namedFunction callee name args) (w'.namedFunction callee' name args') := by
  refine .ite Iff.rfl (fun _ => ?_) fun _ => .unsupported _
  apply InStep.bindEq (inStep_address h hc)
  intro function
  apply InStep.bindEq (inStep_arguments h ha)
  intro args
  exact .pure rfl

/-- A call is handed over only if its callee refers to an integration. -/
theorem inStep_call (h : w.Alongside w' c) {callee callee' : NodeId}
    (hid : ∀ called, w.arena.resolveIntegration callee = some called → c.calls .integrate id id')
    (hc : c.value callee callee') {args args' : List NodeId} (ha : List.Forall₂ c.value args args') :
    InStep w w' c Eq (w.call id callee args) (w'.call id' callee' args') := by
  have hintegration := h.resolveIntegration hc
  have hclass := h.classify hc
  unfold call
  revert hintegration
  cases hcalled : w.arena.resolveIntegration callee with
  | some called =>
    generalize w'.arena.resolveIntegration callee' = integration'
    rintro (hintegration | _)
    exact .integrate hintegration (hid called hcalled)
  | none =>
    generalize w'.arena.resolveIntegration callee' = integration'
    rintro (_ | _)
    refine inStep_node h (h.own (h.unwrap hc)) ?_ (fun _ _ _ _ => .unsupported _)
      fun _ _ => .unsupported _
    intro node node' _ _ hlifts
    cases hlifts with
    | member hbase name => exact inStep_method h hbase name ha
    | identifier name => exact inStep_namedFunction h hclass name ha
    | reference name _ => exact inStep_namedFunction h hclass name ha
    | _ => exact .unsupported _

/-- A call that is handed to an integration takes no other step. -/
theorem call_of_resolveIntegration {callee : NodeId} {integration : IntegrationId}
    (h : w.arena.resolveIntegration callee = some integration) (id : NodeId) (args : List NodeId) :
    w.call id callee args = w.integrate integration id := by
  unfold call
  rw [h]

/-- A promise of an integration is consumed on both sides or on neither; of any other promise it
is not asked. -/
theorem inStep_promised (h : w.Alongside w' c) {expr expr' : NodeId}
    (hconsumed : isConsumed w.arena id = isConsumed w'.arena id' ∨
      w.arena.calledIntegration expr = none) (he : c.value expr expr') :
    InStep w w' c Eq (w.promised id expr) (w'.promised id' expr') := by
  have hcalled := h.calledIntegration he
  refine .ite ?_ (fun _ => .fault _) fun _ => inStep_expression h he
  rcases hconsumed with hconsumed | hnone
  · rw [hconsumed, hcalled]
  · rw [hnone] at hcalled
    rw [← hcalled, hnone]
    simp

/-! ### Operators -/

/-- Both walkers step the text of corresponding operands. -/
theorem inStep_stepped (h : w.Alongside w' c) {operand operand' : NodeId}
    (ho : c.value operand operand') (step : Step) :
    InStep w w' c Eq (w.stepped operand step) (w'.stepped operand' step) := by
  apply InStep.bindEq (inStep_expression h ho)
  intro target
  apply InStep.bindEq (.assign target _)
  intro _
  exact .pure rfl

/-- So they do behind the value that is kept. -/
theorem inStep_steppedAfter (h : w.Alongside w' c) {operand operand' : NodeId}
    (ho : c.value operand operand') (step : Step) :
    InStep w w' c Eq (w.steppedAfter operand step) (w'.steppedAfter operand' step) := by
  apply InStep.bindEq (inStep_expression h ho)
  intro target
  apply InStep.bindEq (.materialize target)
  intro before
  apply InStep.bindEq (.assign target _)
  intro _
  exact .pure rfl

/-- The form of an operator decides its rule, and it is one operator on both sides. -/
theorem inStep_binary (h : w.Alongside w' c) {left left' right right' : NodeId}
    (hl : c.value left left') (op : BinaryOp) (hr : c.value right right') :
    InStep w w' c Eq (w.binary left op right) (w'.binary left' op right') := by
  unfold binary
  cases op.form with
  | store =>
    apply InStep.bindEq (inStep_expression h hl)
    intro target
    apply InStep.bindEq (inStep_assignNode h target hr)
    intro _
    exact .pure rfl
  | storeIfNull =>
    apply InStep.bindEq (inStep_expression h hl)
    intro target
    apply InStep.bindEq (.ifNull target (inStep_assignNode h target hr))
    intro _
    exact .pure rfl
  | coalesce =>
    apply InStep.bindEq (inStep_materializeNode h hl)
    intro result
    apply InStep.bindEq (.ifNull result (inStep_assignNode h result hr))
    intro _
    exact .pure rfl
  | membership =>
    apply InStep.bindEq (inStep_argument h hl)
    intro key
    apply InStep.bindEq (inStep_expression h hr)
    intro object
    exact .pure rfl
  | update symbol =>
    apply InStep.bindEq (inStep_expression h hl)
    intro target
    apply InStep.bindEq (inStep_expression h hr)
    intro value
    apply InStep.bindEq (.assign target _)
    intro _
    exact .pure rfl
  | inline symbol =>
    apply InStep.bindEq (inStep_expression h hl)
    intro left
    apply InStep.bindEq (inStep_expression h hr)
    intro right
    exact .pure rfl

/-- So does a unary operator. -/
theorem inStep_unary (h : w.Alongside w' c) (op : UnaryOp) {operand operand' : NodeId}
    (ho : c.value operand operand') :
    InStep w w' c Eq (w.unary op operand) (w'.unary op operand') := by
  cases op with
  | not => exact .bindEq (inStep_expression h ho) fun _ => .pure rfl
  | neg => exact .bindEq (inStep_expression h ho) fun _ => .pure rfl
  | plus => exact inStep_expression h ho
  | step direction => exact inStep_stepped h ho direction

/-- Both sides of a conditional are rendered in step, into one temporary. -/
theorem inStep_conditional (h : w.Alongside w' c) {test test' yes yes' no no' : NodeId}
    (ht : c.value test test') (hy : c.value yes yes') (hn : c.value no no') :
    InStep w w' c Eq (w.conditional test yes no) (w'.conditional test' yes' no') := by
  apply InStep.bindEq (inStep_expression h ht)
  intro condition
  apply InStep.bindEq .freshTemp
  intro result
  apply InStep.bindEq
    (.choice condition (inStep_assignNode h result hy) (inStep_assignNode h result hn))
  intro _
  exact .pure rfl

/-! ### Literals with parts -/

/-- No expression that may stand in parentheses is a spread. -/
theorem isSpread_of_isOperand {a : Arena} (h : (a.get? id).any Node.isOperand = true) :
    isSpread a id = false := by
  obtain ⟨node, hn, hoperand⟩ := (Option.any_eq_true _ _).mp h
  unfold isSpread
  rw [hn]
  cases node <;> first | rfl | cases hoperand

/-- Corresponding items are spread on both sides or on neither. -/
theorem isSpread_eq (h : w.Alongside w' c) (hid : c.value id id') :
    isSpread w.arena id = isSpread w'.arena id' := by
  rcases h.plain hid with hnode | ⟨hleft, hright⟩
  · unfold isSpread
    rcases h.found (h.own hnode) with ⟨hn, hn'⟩ | ⟨node, node', hn, hn', hmeets⟩
    · rw [hn, hn']
    · rw [hn, hn']
      cases hmeets with
      | lifts hlifts => cases hlifts <;> rfl
      | handed _ _ _ _ => rfl
      | block _ _ => rfl
  · rw [isSpread_of_isOperand hleft, isSpread_of_isOperand hright]

/-- An item that is no spread is added by itself. -/
theorem addItem_of_isOperand (list : String) {item : NodeId}
    (h : (w.arena.get? item).any Node.isOperand = true) :
    w.addItem list item = (do
      let value ← w.argument item
      Render.discard s!"{list}.add({value})") := by
  obtain ⟨node, hn, hoperand⟩ := (Option.any_eq_true _ _).mp h
  unfold addItem Walker.node
  rw [Arena.node_eq_ok_iff.mpr hn]
  cases node <;> first | rfl | cases hoperand

/-- An item is added with its parts if it is spread, and as it is otherwise. -/
theorem inStep_addItem (h : w.Alongside w' c) (list : String) {item item' : NodeId}
    (hi : c.value item item') :
    InStep w w' c Eq (w.addItem list item) (w'.addItem list item') := by
  have hadd : InStep w w' c Eq (do
      let value ← w.argument item
      Render.discard s!"{list}.add({value})") (do
      let value ← w'.argument item'
      Render.discard s!"{list}.add({value})") := by
    apply InStep.bindEq (inStep_argument h hi)
    intro value
    exact .discard _
  rcases h.plain hi with hnode | ⟨hleft, hright⟩
  · refine inStep_node h (h.own hnode) ?_ (fun _ _ _ _ => hadd) fun _ _ => hadd
    intro node node' _ _ hlifts
    cases hlifts with
    | spread hexpr =>
      apply InStep.bindEq (inStep_expression h hexpr)
      intro value
      exact .discard _
    | _ => exact hadd
  · rw [addItem_of_isOperand list hleft, addItem_of_isOperand list hright]
    exact hadd

/-- A list is inline on both sides, or it is built on both. -/
theorem inStep_arrayLiteral (h : w.Alongside w' c) {items items' : List NodeId}
    (hi : List.Forall₂ c.value items items') :
    InStep w w' c Eq (w.arrayLiteral items) (w'.arrayLiteral items') := by
  have hspread : items.any (isSpread w.arena) = items'.any (isSpread w'.arena) := by
    induction hi with
    | nil => rfl
    | cons hfirst _ ih => rw [List.any_cons, List.any_cons, isSpread_eq h hfirst, ih]
  refine .ite (by rw [hspread]) (fun _ => ?_) fun _ => ?_
  · apply InStep.bindEq .freshTemp
    intro list
    apply InStep.bindEq (.assign list _)
    intro _
    apply InStep.bindEq (.forM hi fun _ _ hitem => inStep_addItem h list hitem)
    intro _
    exact .pure rfl
  · exact .bindEq (inStep_arguments h hi) fun _ => .pure rfl

/-- Keys that correspond have the same text, unless they are computed. -/
theorem inStep_propertyKey (h : w.Alongside w' c) {name name' : NodeId} (hn : c.node name name') :
    InStep w w' c Eq (w.propertyKey name) (w'.propertyKey name') := by
  refine inStep_node h (h.own hn) ?_ (fun _ _ _ _ => .breach _) fun _ _ => .breach _
  intro node node' _ _ hlifts
  cases hlifts with
  | identifier _ => exact .pure rfl
  | string _ => exact .pure rfl
  | number value => exact .bindEq (.number value) fun _ => .pure rfl
  | computedKey hexpr => exact inStep_argument h hexpr
  | _ => exact .breach _

/-- A property is added under its key, and a spread one with all of its keys. -/
theorem inStep_addProperty (h : w.Alongside w' c) (object : String) {property property' : NodeId}
    (hp : c.node property property') :
    InStep w w' c Eq (w.addProperty object property) (w'.addProperty object property') := by
  refine inStep_node h (h.own hp) ?_ (fun _ _ _ _ => .breach _) fun _ _ => .breach _
  intro node node' _ _ hlifts
  cases hlifts with
  | property hname hvalue =>
    apply InStep.bindEq (inStep_propertyKey h hname)
    intro key
    apply InStep.bindEq (inStep_argument h hvalue)
    intro value
    exact .discard _
  | spreadProperty hexpr =>
    apply InStep.bindEq (inStep_expression h hexpr)
    intro value
    exact .discard _
  | _ => exact .breach _

/-- An object is built property by property on both sides. -/
theorem inStep_objectLiteral (h : w.Alongside w' c) {properties properties' : List NodeId}
    (hp : List.Forall₂ c.node properties properties') :
    InStep w w' c Eq (w.objectLiteral properties) (w'.objectLiteral properties') := by
  apply InStep.bindEq .freshTemp
  intro object
  apply InStep.bindEq (.assign object _)
  intro _
  apply InStep.bindEq (.forM hp fun _ _ hproperty => inStep_addProperty h object hproperty)
  intro _
  exact .pure rfl

/-- The text of a template is the same on both sides, and so is what becomes of it. -/
theorem inStep_templateText (text : String) :
    InStep w w' c Eq (templateText text) (templateText text) := by
  refine .ite Iff.rfl (fun _ => ?_) fun _ => .pure rfl
  exact .bindEq (.materialize _) fun _ => .pure rfl

/-- An interpolated value corresponds to another one, with the same text behind it. -/
theorem inStep_templateSpan (h : w.Alongside w' c) {span span' : TemplateSpan}
    (hs : c.value span.expr span'.expr ∧ span.literal = span'.literal) :
    InStep w w' c Eq (w.templateSpan span) (w'.templateSpan span') := by
  apply InStep.bindEq (inStep_reference h hs.1)
  intro value
  rw [hs.2]
  apply InStep.bindEq (inStep_templateText _)
  intro literal
  exact .pure rfl

/-- A template is put together from parts in step. -/
theorem inStep_templateLiteral (h : w.Alongside w' c) (head : String)
    {spans spans' : List TemplateSpan}
    (hs : List.Forall₂ (fun span span' => c.value span.expr span'.expr ∧
      span.literal = span'.literal) spans spans') :
    InStep w w' c Eq (w.templateLiteral head spans) (w'.templateLiteral head spans') := by
  apply InStep.bindEq (inStep_templateText head)
  intro head
  apply InStep.bindEq (.mapM hs fun _ _ hspan => inStep_templateSpan h hspan)
  intro spans
  exact .pure rfl

/-- The node itself is handed on only if it calls an integration. -/
theorem inStep_renderExpression_of_calls (h : w.Alongside w' c) (hid : w.Faces w' c id id')
    (hself : ∀ callee args called, w.arena.get? id = some (.call callee args) →
      w.arena.resolveIntegration callee = some called → c.calls .integrate id id') :
    InStep w w' c Eq (w.renderExpression id) (w'.renderExpression id') := by
  apply InStep.bind hid.inStep_node
  rintro node node' ⟨hmeets, hn⟩
  cases hmeets with
  | block _ _ => exact .breach _
  | handed hintegration hintegration' hi _ =>
    show InStep w w' c Eq (w.call id _ _) (w'.call id' _ _)
    rw [call_of_resolveIntegration hintegration, call_of_resolveIntegration hintegration']
    exact .integrate hi (hself _ _ _ hn hintegration)
  | lifts hlifts =>
    cases hlifts with
    | null | undefined | string _ => exact .pure rfl
    | boolean value => exact .pure rfl
    | number value => exact .number value
    | array hi => exact inStep_arrayLiteral h hi
    | object hp => exact inStep_objectLiteral h hp
    | template head hs => exact inStep_templateLiteral h head hs
    | identifier _ | reference _ _ => exact inStep_address h hid.classify
    | member hb name => exact .bindEq (inStep_expression h hb) fun _ => .pure rfl
    | element hb hk =>
      apply InStep.bindEq (inStep_expression h hb)
      intro base
      apply InStep.bindEq (inStep_argument h hk)
      intro key
      exact .pure rfl
    | binary hl op hr => exact inStep_binary h hl op hr
    | unary op ho => exact inStep_unary h op ho
    | stepAfter ho step => exact inStep_steppedAfter h ho step
    | conditional ht hy hno => exact inStep_conditional h ht hy hno
    | paren he | argument he _ | await he => exact inStep_expression h he
    | promise he => exact inStep_promised h (hid.consumed.imp_right fun hnone => hnone _ hn) he
    | call hc ha => exact inStep_call h (fun called => hself _ _ called hn) hc ha
    | typeOf _ | construct _ _ | function _ _ | spread _ => exact .unsupported _
    | _ => exact .breach _

/-- Every form of expression is rendered in step, a call by handing over the node itself. -/
theorem inStep_renderExpression (h : w.Alongside w' c) (hid : w.Faces w' c id id')
    (hself : c.calls .integrate id id') :
    InStep w w' c Eq (w.renderExpression id) (w'.renderExpression id') :=
  inStep_renderExpression_of_calls h hid fun _ _ _ _ _ => hself

/-! ### Statements

Statements are rendered for their lines.  The slot that a return of a callback assigns is
the same text on both sides, so it is not compared.
-/

/-- A value is returned as each dialect returns it; the two dialects differ in the calls that
they permit only. -/
theorem inStep_returned (h : w.Alongside w' c) {value value' : Option NodeId}
    (hv : Option.Rel c.value value value') :
    InStep w w' c Eq (w.returned value) (w'.returned value') := by
  have hdialect := h.dialect
  unfold returned
  rcases hd : w.dialect with config | ⟨direction, config⟩ <;>
    rcases hd' : w'.dialect with config' | ⟨direction', config'⟩ <;>
    rw [hd, hd'] at hdialect
  · cases hv with
    | none => exact .emit _
    | some hv => exact .bindEq (inStep_expression h hv) fun _ => .emit _
  · cases hdialect
  · cases hdialect
  · cases hv with
    | none => exact .emit _
    | some hv => exact .bindEq (inStep_fragment h hv) fun _ => .emit _

/-- A loop opens over the same name on both sides, or over patterns that correspond. -/
theorem inStep_loop (h : w.Alongside w' c) {target target' : NodeId}
    (ht : w.SameTarget w' c target target') (list : String) {body body' : Render Unit}
    (hb : InStep w w' c Eq body body') :
    InStep w w' c Eq (w.loop target list body) (w'.loop target' list body') := by
  apply InStep.bindEq (inStep_requireLoops h _)
  intro _
  have hrest : InStep w w' c Eq (do
      body
      Render.close) (do
      body'
      Render.close) := .bindEq hb fun _ => .close
  have hpattern : InStep w w' c Eq (do
      let item ← Render.freshTemp
      Render.openLoop item list
      w.expand target item
      body
      Render.close) (do
      let item ← Render.freshTemp
      Render.openLoop item list
      w'.expand target' item
      body'
      Render.close) := by
    apply InStep.bindEq .freshTemp
    intro item
    apply InStep.bindEq (.openLoop item list)
    intro _
    exact .bindEq (inStep_expand h ht.1 item) fun _ => hrest
  refine inStep_node h (h.own ht.1) ?_ (fun _ _ _ _ => .bindEq (.fault _) fun _ => hrest)
    fun _ _ => .bindEq (.fault _) fun _ => hrest
  intro node node' _ _ hlifts
  cases hlifts with
  | identifier name =>
    apply InStep.bindEq (inStep_address h ht.2)
    intro item
    exact .bindEq (.openLoop item list) fun _ => hrest
  | objectPattern _ => exact hpattern
  | arrayPattern _ => exact hpattern
  | _ => exact .bindEq (.fault _) fun _ => hrest

/-- What a loop binds corresponds, whether it is declared there or not. -/
theorem inStep_loopTarget (h : w.Alongside w' c) {binding binding' : NodeId}
    (hb : w.SameTarget w' c binding binding') :
    InStep w w' c (w.SameTarget w' c) (w.loopTarget binding) (w'.loopTarget binding') := by
  refine inStep_node h (h.own hb.1) ?_ (fun _ _ _ _ => .pure hb) fun _ _ => .pure hb
  intro node node' hn hn' hlifts
  have hclass := h.classify_of_lifts (h.own hb.1) hn hn'
  cases hlifts with
  | declaration _ hname _ => exact .pure ⟨hname, hclass rfl rfl⟩
  | _ => exact .pure hb

/-- A loop statement loops over the same view of corresponding lists. -/
theorem inStep_loopStatement (h : w.Alongside w' c) (kind : String) (view : String → String)
    {binding binding' iterable iterable' body body' : NodeId}
    (ht : w.SameTarget w' c binding binding')
    (hi : c.value iterable iterable') (hb : c.node body body') (slot : Option String) :
    InStep w w' c Eq (w.loopStatement kind view binding iterable body slot)
      (w'.loopStatement kind view binding' iterable' body' slot) := by
  apply InStep.bindEq (inStep_requireLoops h kind)
  intro _
  apply InStep.bindEq (inStep_expression h hi)
  intro list
  apply InStep.bind (inStep_loopTarget h ht)
  intro target target' htarget
  exact inStep_loop h htarget _ (inStep_statement h hb slot)

/-- An expression that stands alone is thrown away on both sides, since its text is the same. -/
theorem inStep_expressionStatement (h : w.Alongside w' c) {expr expr' : NodeId}
    (he : c.value expr expr') :
    InStep w w' c Eq (w.expressionStatement expr) (w'.expressionStatement expr') := by
  have hvalue : InStep w w' c Eq (do
      let value ← w.expression (w.arena.unwrapParens expr)
      if value.toList.getLast? = some ')' then Render.discard value) (do
      let value ← w'.expression (w'.arena.unwrapParens expr')
      if value.toList.getLast? = some ')' then Render.discard value) := by
    apply InStep.bindEq (inStep_expression h (h.inside he))
    intro value
    exact .ite Iff.rfl (fun _ => .discard value) fun _ => .pure rfl
  refine inStep_node h (h.own (h.unwrap he)) ?_ (fun _ _ _ _ => hvalue) fun _ _ => hvalue
  intro node node' _ _ hlifts
  cases hlifts with
  | stepAfter ho step => exact .bindEq (inStep_stepped h ho step) fun _ => .pure rfl
  | _ => exact hvalue

/-- A declaration binds the same name, or patterns that correspond. -/
theorem inStep_declare (h : w.Alongside w' c) {name name' : NodeId}
    (hn : w.SameTarget w' c name name') {value value' : Option NodeId}
    (hv : Option.Rel c.value value value') :
    InStep w w' c Eq (w.declare name value) (w'.declare name' value') := by
  refine inStep_node h (h.own hn.1) ?_ (fun _ _ _ _ => .breach _) fun _ _ => .breach _
  intro node node' _ _ hlifts
  cases hlifts with
  | identifier _ =>
    apply InStep.bindEq (inStep_address h hn.2)
    intro target
    cases hv with
    | none => exact .assign target _
    | some hvalue => exact inStep_assignNode h target hvalue
  | objectPattern _ | arrayPattern _ =>
    cases hv with
    | none => exact .breach _
    | some hvalue =>
      exact .bindEq (inStep_reference h hvalue) fun source => inStep_expand h hn.1 source
  | _ => exact .breach _

/-- A branch has the same condition and corresponding sides. -/
theorem inStep_branch (h : w.Alongside w' c) {test test' yes yes' : NodeId}
    {no no' : Option NodeId} (ht : c.value test test') (hy : c.node yes yes')
    (hn : Option.Rel c.node no no') (slot : Option String) :
    InStep w w' c Eq (w.branch test yes no slot) (w'.branch test' yes' no' slot) := by
  apply InStep.bindEq (inStep_expression h ht)
  intro condition
  cases hn with
  | none => exact .guarded condition (inStep_statement h hy slot)
  | some hno => exact .choice condition (inStep_statement h hy slot) (inStep_statement h hno slot)

/-- A return goes to the same slot on both sides, or out of both closures. -/
theorem inStep_returnTo (h : w.Alongside w' c) {expr expr' : Option NodeId}
    (he : Option.Rel c.value expr expr') (slot : Option String) :
    InStep w w' c Eq (w.returnTo expr slot) (w'.returnTo expr' slot) := by
  cases slot with
  | none => exact inStep_returned h he
  | some slot =>
    cases he with
    | none => exact .assign slot _
    | some hexpr => exact inStep_assignNode h slot hexpr

/-- The statements of blocks are asked for here. -/
theorem inStep_renderStatement (h : w.Alongside w' c) (hid : c.own id id')
    (hblock : ∀ statements statements', w.arena.get? id = some (.block statements) →
      w'.arena.get? id' = some (.block statements') → List.Forall₂ c.node statements statements')
    (slot : Option String) :
    InStep w w' c Eq (w.renderStatement id slot) (w'.renderStatement id' slot) := by
  apply InStep.bind (inStep_meets h hid)
  rintro node node' ⟨hn, hn', hmeets⟩
  cases hmeets with
  | handed _ _ _ _ => exact .breach _
  | block statements statements' =>
    exact .forM (hblock _ _ hn hn') fun _ _ hstatement => inStep_statement h hstatement slot
  | lifts hlifts =>
    have hclass := h.classify_of_lifts hid hn hn'
    cases hlifts with
    | block hs => exact .forM hs fun _ _ hstatement => inStep_statement h hstatement slot
    | exprStatement he => exact inStep_expressionStatement h he
    | declaration _ hname hv => exact inStep_declare h ⟨hname, hclass rfl rfl⟩ hv
    | branch ht hy hno => exact inStep_branch h ht hy hno slot
    | forOf ht hi hb => exact inStep_loopStatement h _ _ ⟨ht, hclass rfl rfl⟩ hi hb slot
    | forIn ht hi hb => exact inStep_loopStatement h _ _ ⟨ht, hclass rfl rfl⟩ hi hb slot
    | returnValue he => exact inStep_returnTo h he slot
    | breakLoop => exact .bindEq (inStep_requireLoops h _) fun _ => .emit _
    | continueLoop | throw _ => exact .unsupported _
    | whileLoop _ _ | doWhile _ _ | forLoop _ _ _ _ | tryCatch _ _ _ => exact .unsupported _
    | _ => exact .breach _

/-! ### Closures -/

/-- A parameter of the closure is a pattern on both sides or on neither. -/
theorem inStep_checkRootParameter (h : w.Alongside w' c) {parameter parameter' : NodeId}
    (hp : c.node parameter parameter') :
    InStep w w' c Eq (w.checkRootParameter parameter) (w'.checkRootParameter parameter') := by
  refine inStep_node h (h.own hp) ?_ (fun _ _ _ _ => .pure rfl) fun _ _ => .pure rfl
  intro node node' _ _ hlifts
  cases hlifts with
  | parameter hname _ =>
    refine inStep_node h (h.own hname) ?_ (fun _ _ _ _ => .unsupported _) fun _ _ => .unsupported _
    intro node node' _ _ hlifts
    cases hlifts with
    | identifier _ => exact .pure rfl
    | _ => exact .unsupported _
  | _ => exact .pure rfl

/-- The body of a closure: statements, or the value that it returns. -/
theorem inStep_rootBody (h : w.Alongside w' c) {body body' : NodeId} (hb : c.value body body') :
    InStep w w' c Eq (do
        if isBlock (← w.node body) then w.statement body none
        else w.returned (some body))
      (do
        if isBlock (← w'.node body') then w'.statement body' none
        else w'.returned (some body')) := by
  have hreturned := inStep_returned h (.some hb)
  rcases h.plain hb with hnode | ⟨hleft, hright⟩
  · have hblock := inStep_statement h hnode none
    refine inStep_node h (h.own hnode) ?_ (fun _ _ _ _ => hreturned) fun _ _ => hblock
    intro node node' _ _ hlifts
    cases hlifts with
    | block _ => exact hblock
    | _ => exact hreturned
  · -- an expression in parentheses is no block, and neither is what is inside
    have hvalue : ∀ {w : Walker} {body : NodeId}, (w.arena.get? body).any Node.isOperand = true →
        (do
          if isBlock (← w.node body) then w.statement body none
          else w.returned (some body)) = w.returned (some body) := by
      intro w body hoperand
      obtain ⟨node, hn, hoperand⟩ := (Option.any_eq_true _ _).mp hoperand
      unfold Walker.node
      rw [Arena.node_eq_ok_iff.mpr hn]
      cases node <;> first | rfl | cases hoperand
    rw [hvalue hleft, hvalue hright]
    exact hreturned

/-- Closures that correspond are rendered in step, a block as a block. -/
theorem inStep_renderRoot (h : w.Alongside w' c) {root root' : NodeId} (hr : c.node root root')
    (hv : c.value root root') : InStep w w' c Eq (w.renderRoot root) (w'.renderRoot root') := by
  have hstatement := inStep_statement h hr none
  have hreturned := inStep_returned h (.some hv)
  refine inStep_node h (h.own hr) ?_ (fun _ _ _ _ => hreturned) fun _ _ => hstatement
  intro node node' _ _ hlifts
  have hother : InStep w w' c Eq
      (if node.isStatement then w.statement root none else w.returned (some root))
      (if node'.isStatement then w'.statement root' none else w'.returned (some root')) := by
    exact .ite (by rw [hlifts.isStatement_eq]) (fun _ => hstatement) fun _ => hreturned
  cases hlifts with
  | function hp hb =>
    apply InStep.bindEq (.forM hp fun _ _ hparameter => inStep_checkRootParameter h hparameter)
    intro _
    exact inStep_rootBody h hb
  | _ => exact hother

/-! ### JSON text -/

/-- The text of a string is the same on both sides, and so is its JSON. -/
theorem inStep_jsonText (text : String) :
    InStep w w' c Eq (jsonText text) (jsonText text) := by
  refine .ite Iff.rfl (fun _ => ?_) fun _ => .pure rfl
  exact .bindEq (.materialize _) fun _ => .pure rfl

/-- A value is certainly composite on both sides or on neither. -/
theorem inStep_primitive (h : w.Alongside w' c) {expr expr' : NodeId} (he : w.Faces w' c expr expr')
    (hself : c.calls .expression expr expr') :
    InStep w w' c Eq (w.primitive expr) (w'.primitive expr') := by
  have hstatus : w.dialect.errorStatus = w'.dialect.errorStatus := by
    rw [← Dialect.errorStatus_unlimited w.dialect, h.dialect, Dialect.errorStatus_unlimited]
  refine .ite (by rw [he.composite]) (fun _ => .unsupported _) fun _ => ?_
  have hreference : InStep w w' c Eq (w.reference expr) (w'.reference expr') :=
    .bindEq (.expression hself) fun value => .toReference value
  rw [hstatus]
  exact .bindEq hreference fun _ => .pure rfl

/-- The same goes for keys, which are refused on both sides if they are computed. -/
theorem inStep_jsonKey (h : w.Alongside w' c) {name name' : NodeId} (hn : c.node name name') :
    InStep w w' c Eq (w.jsonKey name) (w'.jsonKey name') := by
  refine inStep_node h (h.own hn) ?_ (fun _ _ _ _ => .unsupported _) fun _ _ => .unsupported _
  intro node node' _ _ hlifts
  cases hlifts with
  | identifier _ => exact inStep_jsonText _
  | string _ => exact inStep_jsonText _
  | number value => exact .bindEq (.number value) fun _ => .pure rfl
  | _ => exact .unsupported _

/-- A field is refused on both sides, or rendered with its key and its value. -/
theorem inStep_jsonField (h : w.Alongside w' c) {property property' : NodeId}
    (hp : c.node property property') :
    InStep w w' c Eq (w.jsonField property) (w'.jsonField property') := by
  refine inStep_node h (h.own hp) ?_ (fun _ _ _ _ => .unsupported _) fun _ _ => .unsupported _
  intro node node' _ _ hlifts
  cases hlifts with
  | property hname hvalue =>
    apply InStep.bindEq (inStep_jsonKey h hname)
    intro key
    apply InStep.bindEq (inStep_fragment h hvalue)
    intro value
    exact .pure rfl
  | _ => exact .unsupported _

/-- An item that is no spread is printed by itself. -/
theorem jsonItem_of_isOperand {item : NodeId} (h : (w.arena.get? item).any Node.isOperand = true) :
    w.jsonItem item = w.fragment item := by
  obtain ⟨node, hn, hoperand⟩ := (Option.any_eq_true _ _).mp h
  unfold jsonItem Walker.node
  rw [Arena.node_eq_ok_iff.mpr hn]
  cases node <;> first | rfl | cases hoperand

/-- An item is refused on both sides, or rendered as a value. -/
theorem inStep_jsonItem (h : w.Alongside w' c) {item item' : NodeId} (hi : c.value item item') :
    InStep w w' c Eq (w.jsonItem item) (w'.jsonItem item') := by
  have hvalue := inStep_fragment h hi
  rcases h.plain hi with hnode | ⟨hleft, hright⟩
  · refine inStep_node h (h.own hnode) ?_ (fun _ _ _ _ => hvalue) fun _ _ => hvalue
    intro node node' _ _ hlifts
    cases hlifts with
    | spread _ => exact .unsupported _
    | _ => exact hvalue
  · rw [jsonItem_of_isOperand hleft, jsonItem_of_isOperand hright]
    exact hvalue

/-- Every form of JSON text is rendered in step; a call of an integration through the node
itself. -/
theorem inStep_fragmentOf (h : w.Alongside w' c) {expr expr' : NodeId}
    (he : w.Faces w' c expr expr') (hself : c.calls .expression expr expr') {node node' : Node}
    (hmeets : node.Meets w.arena w'.arena c node') :
    InStep w w' c Eq (w.fragmentOf expr node) (w'.fragmentOf expr' node') := by
  have hprimitive := inStep_primitive h he hself
  have hcall : InStep w w' c Eq
      (if (w.arena.calledIntegration expr).isSome then w.expression expr else w.primitive expr)
      (if (w'.arena.calledIntegration expr').isSome then w'.expression expr'
        else w'.primitive expr') :=
    .ite (by rw [he.calledIntegration]) (fun _ => .expression hself) fun _ => hprimitive
  cases hmeets with
  | handed _ _ _ _ => exact hcall
  | block _ _ => exact hprimitive
  | lifts hlifts =>
    cases hlifts with
    | null | undefined | boolean _ => exact .pure rfl
    | number value => exact .number value
    | string value => exact inStep_jsonText value
    | object hp => exact .bindEq (.mapM hp fun _ _ hp => inStep_jsonField h hp) fun _ => .pure rfl
    | array hi => exact .bindEq (.mapM hi fun _ _ hi => inStep_jsonItem h hi) fun _ => .pure rfl
    | template _ _ =>
      have hreference : InStep w w' c Eq (w.reference expr) (w'.reference expr') :=
        .bindEq (.expression hself) fun value => .toReference value
      exact .bindEq hreference fun _ => .pure rfl
    | await hinner => exact inStep_fragment h hinner
    | promise hinner =>
      refine .ite ?_ (fun _ => .expression hself) fun _ => inStep_fragment h hinner
      rw [h.calledIntegration hinner]
    | call _ _ => exact hcall
    | _ => exact hprimitive

/-- A path into the payload is the same path on both sides. -/
theorem inStep_renderFragment (h : w.Alongside w' c) {expr expr' : NodeId}
    (he : w.Faces w' c (w.arena.unwrapParens expr) (w'.arena.unwrapParens expr'))
    (hself : c.calls .expression (w.arena.unwrapParens expr) (w'.arena.unwrapParens expr')) :
    InStep w w' c Eq (w.renderFragment expr) (w'.renderFragment expr') := by
  unfold renderFragment
  dsimp only
  rw [he.jsonPath]
  split
  · exact .pure rfl
  · apply InStep.bind he.inStep_node
    intro node node' hnode
    exact inStep_fragmentOf h he hself hnode.1

end ClosureVtl.Walker
