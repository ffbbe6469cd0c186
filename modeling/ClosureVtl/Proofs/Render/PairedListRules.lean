/-
Module: ClosureVtl.Proofs.Render.PairedListRules
Purpose: What two walkers have to agree on, and the rules for names, patterns and list
  operations run side by side.
Main exports:
  Dialect.unlimited, Walker.Abreast, Walker.Alongside, Walker.inStep_meets,
  Walker.inStep_expandPattern, Walker.inStep_renderStages, Walker.inStep_mapLoop,
  Walker.inStep_forEachLoop, Walker.inStep_filterLoop, Walker.inStep_reduceLoop
-/
import ClosureVtl.Proofs.Closure.Abreast
import ClosureVtl.Proofs.Render.InStep
import ClosureVtl.Render.Fragment
import ClosureVtl.Render.Statement

namespace ClosureVtl

/-!
Besides the nodes themselves the rules ask a few questions about the surroundings of a
node: what a name refers to, which integration a callee is, whether a promise is
consumed, which stages share a loop.  `Walker.Abreast` lists these questions and says
that the two sides get the same answers.  `Walker.Alongside` asks each of them only where a
rule does: names are asked for their class where something is declared, and of values only
what is inside their parentheses is asked about.  Given that, each rule takes the same steps
on both sides; there is one lemma for each rule, in the order of the rules.
-/

/-! ### Dialects up to what they permit -/

/-- A dialect in which any number of integrations may be called. -/
def Dialect.unlimited : Dialect → Dialect
  | .resolver config => .resolver { config with singleIntegration := false }
  | .mapping _ config => .mapping .request { config with singleIntegration := false }

namespace Dialect

variable {d d' : Dialect}

/-- Lifting the limit on calls leaves a dialect its name. -/
@[simp] theorem name_unlimited (d : Dialect) : d.unlimited.name = d.name := by cases d <;> rfl

/-- It still has loops or has none. -/
@[simp] theorem supportsLoops_unlimited (d : Dialect) :
    d.unlimited.supportsLoops = d.supportsLoops := by cases d <;> rfl

/-- It answers with the same status. -/
@[simp] theorem errorStatus_unlimited (d : Dialect) : d.unlimited.errorStatus = d.errorStatus := by
  cases d <;> rfl

/-- It addresses names as before, of whatever class they are. -/
@[simp] theorem addressOf_unlimited (d : Dialect) (nameClass : NameClass) :
    d.unlimited.addressOf nameClass = d.addressOf nameClass := by
  cases d <;> rcases nameClass with (_ | _ | index) | name | name | name | name <;> rfl

/-- There is only one limit to lift. -/
@[simp] theorem unlimited_unlimited (d : Dialect) : d.unlimited.unlimited = d.unlimited := by
  cases d <;> rfl

end Dialect

/-! ### What two walkers agree on -/

/-- Whether two walkers render closures that look alike from corresponding nodes, in
dialects that differ at most in the integrations they permit. -/
structure Walker.Abreast (w w' : Walker) (c : Correspondence) : Prop
    extends Arena.Abreast w.arena w'.arena c where
  dialect : w.dialect.unlimited = w'.dialect.unlimited
  /-- handles that lead nowhere are told apart in messages -/
  dangling : ∀ {id id' : NodeId}, c.own id id' → w.arena.get? id = none → id = id'
  classify : ∀ {id id' : NodeId}, c.own id id' → w.arena.classify id = w'.arena.classify id'
  declared : ∀ {id id' : NodeId}, c.own id id' →
    (w.arena.lookup id).isNone = (w'.arena.lookup id').isNone
  calledIntegration : ∀ {expr expr' : NodeId}, c.value expr expr' ∨ c.own expr expr' →
    (w.arena.calledIntegration expr).isSome = (w'.arena.calledIntegration expr').isSome
  consumed : ∀ {id id' : NodeId}, c.own id id' →
    Walker.isConsumed w.arena id = Walker.isConsumed w'.arena id'
  fusedChain : ∀ {expr expr' : NodeId}, c.value expr expr' → ∀ readsList : Bool,
    List.Forall₂ (ListCall.Lifts c) (w.arena.fusedChain expr readsList).1
        (w'.arena.fusedChain expr' readsList).1 ∧
      c.value (w.arena.fusedChain expr readsList).2 (w'.arena.fusedChain expr' readsList).2
  jsonPath : ∀ {id id' : NodeId}, c.own id id' → w.arena.jsonPath id = w'.arena.jsonPath id'
  composite : ∀ {id id' : NodeId}, c.own id id' →
    w.arena.isComposite id = w'.arena.isComposite id'
  expression : ∀ {id id' : NodeId}, c.value id id' → c.calls .expression id id'
  fragment : ∀ {id id' : NodeId}, c.value id id' → c.calls .fragment id id'
  statement : ∀ {id id' : NodeId}, c.node id id' → c.calls .statement id id'
  expand : ∀ {id id' : NodeId}, c.node id id' → c.calls .expand id id'

/-- The part of a node that its rule takes the address of, if it is a name. -/
def Node.addressed? : Node → Option NodeId
  | .declaration _ name _ | .parameter name _ | .binding name .. => some name
  | .forOf target _ _ | .forIn target _ _ => some target
  | _ => none

/-- Whether two walkers render closures that look alike from corresponding nodes, as far as
rules look, in dialects that differ at most in the integrations they permit. -/
structure Walker.Alongside (w w' : Walker) (c : Correspondence) : Prop
    extends Arena.Alongside w.arena w'.arena c where
  dialect : w.dialect.unlimited = w'.dialect.unlimited
  /-- handles that lead nowhere are told apart in messages -/
  dangling : ∀ {id id' : NodeId}, c.own id id' → w.arena.get? id = none → id = id'
  addressed : ∀ {id id' name name' : NodeId}, c.own id id' →
    (w.arena.get? id).bind Node.addressed? = some name →
      (w'.arena.get? id').bind Node.addressed? = some name' →
        w.arena.classify name = w'.arena.classify name'
  classify : ∀ {id id' : NodeId}, c.value id id' →
    w.arena.classify (w.arena.unwrapParens id) = w'.arena.classify (w'.arena.unwrapParens id')
  declared : ∀ {id id' : NodeId}, c.value id id' →
    (w.arena.lookup (w.arena.unwrapParens id)).isNone =
      (w'.arena.lookup (w'.arena.unwrapParens id')).isNone
  calledIntegration : ∀ {expr expr' : NodeId}, c.value expr expr' →
    (w.arena.calledIntegration expr).isSome = (w'.arena.calledIntegration expr').isSome
  fusedChain : ∀ {expr expr' : NodeId}, c.value expr expr' → ∀ readsList : Bool,
    List.Forall₂ (ListCall.Lifts c) (w.arena.fusedChain expr readsList).1
        (w'.arena.fusedChain expr' readsList).1 ∧
      c.value (w.arena.fusedChain expr readsList).2 (w'.arena.fusedChain expr' readsList).2
  expression : ∀ {id id' : NodeId}, c.value id id' → c.calls .expression id id'
  fragment : ∀ {id id' : NodeId}, c.value id id' → c.calls .fragment id id'
  statement : ∀ {id id' : NodeId}, c.node id id' → c.calls .statement id id'
  expand : ∀ {id id' : NodeId}, c.node id id' → c.calls .expand id id'

namespace Walker

variable {w w' : Walker} {c : Correspondence} {id id' : NodeId}

/-- The parts that are addressed correspond to each other. -/
theorem Node.Lifts.addressed? {node node' : Node} (h : node.Lifts c node') {name name' : NodeId}
    (hn : node.addressed? = some name) (hn' : node'.addressed? = some name') :
    c.node name name' := by
  cases h with
  | parameter hname _ => cases hn; cases hn'; exact hname
  | declaration _ hname _ => cases hn; cases hn'; exact hname
  | binding hname _ _ _ => cases hn; cases hn'; exact hname
  | forOf htarget _ _ => cases hn; cases hn'; exact htarget
  | forIn htarget _ _ => cases hn; cases hn'; exact htarget
  | _ => cases hn

/-- Walkers that agree on all questions agree on those that the rules ask. -/
theorem Abreast.alongside (h : w.Abreast w' c) : w.Alongside w' c where
  toAlongside := h.toAbreast.alongside
  dialect := h.dialect
  dangling := h.dangling
  addressed {id id' name name'} hid hname hname' := by
    obtain ⟨node, hn, haddressed⟩ := Option.bind_eq_some_iff.mp hname
    obtain ⟨node', hn', haddressed'⟩ := Option.bind_eq_some_iff.mp hname'
    have hlifts := h.lifts hid
    rw [hn, hn'] at hlifts
    cases hlifts with
    | some hlifts => exact h.classify (h.own (Node.Lifts.addressed? hlifts haddressed haddressed'))
  classify hid := h.classify (h.own (h.unwrap hid))
  declared hid := h.declared (h.own (h.unwrap hid))
  calledIntegration hexpr := h.calledIntegration (.inl hexpr)
  fusedChain := h.fusedChain
  expression := h.expression
  fragment := h.fragment
  statement := h.statement
  expand := h.expand

namespace Alongside

/-- Both dialects have loops or neither does. -/
theorem supportsLoops (h : w.Alongside w' c) :
    w.dialect.supportsLoops = w'.dialect.supportsLoops := by
  rw [← Dialect.supportsLoops_unlimited w.dialect, h.dialect, Dialect.supportsLoops_unlimited]

/-- The class of the part that a node addresses. -/
theorem classify_of_lifts (h : w.Alongside w' c) (hid : c.own id id') {node node' : Node}
    (hn : w.arena.get? id = some node) (hn' : w'.arena.get? id' = some node')
    ⦃name name' : NodeId⦄ (hname : node.addressed? = some name)
    (hname' : node'.addressed? = some name') : w.arena.classify name = w'.arena.classify name' := by
  refine h.addressed hid ?_ ?_
  · rw [hn, Option.bind_some, hname]
  · rw [hn', Option.bind_some, hname']

/-- Names of one class have one address, in dialects that differ in their limits only. -/
theorem addressIn (h : w.Alongside w' c) (hid : w.arena.classify id = w'.arena.classify id') :
    w.arena.addressIn w.dialect id = w'.arena.addressIn w'.dialect id' := by
  unfold Arena.addressIn
  rw [hid]
  cases w'.arena.classify id' with
  | error fault => rfl
  | ok nameClass =>
    show w.dialect.addressOf nameClass = w'.dialect.addressOf nameClass
    rw [← Dialect.addressOf_unlimited w.dialect, h.dialect, Dialect.addressOf_unlimited]

end Alongside

/-! ### Steps built on the entry points -/

/-- Both walkers find nodes that meet, or nothing. -/
theorem inStep_meets (h : w.Alongside w' c) (hid : c.own id id') :
    InStep w w' c (fun node node' => w.arena.get? id = some node ∧
      w'.arena.get? id' = some node' ∧ node.Meets w.arena w'.arena c node')
      (w.node id) (w'.node id') := by
  unfold Walker.node
  rcases h.found hid with ⟨hn, hn'⟩ | ⟨node, node', hn, hn', hmeets⟩
  · have heq := h.dangling hid hn
    subst heq
    simp only [Arena.node, hn, hn']
    exact .fault _
  · rw [Arena.node_eq_ok_iff.mpr hn, Arena.node_eq_ok_iff.mpr hn']
    exact .pure ⟨hn, hn', hmeets⟩

/-- What follows a look at corresponding nodes is in step if it is for nodes of one form, and
for calls and for blocks whatever their parts are. -/
theorem inStep_node (h : w.Alongside w' c) (hid : c.own id id') {α β : Type} {R : α → β → Prop}
    {f : Node → Render α} {f' : Node → Render β}
    (hlifts : ∀ node node', w.arena.get? id = some node → w'.arena.get? id' = some node' →
      node.Lifts c node' → InStep w w' c R (f node) (f' node'))
    (hcall : ∀ callee callee' args args',
      InStep w w' c R (f (.call callee args)) (f' (.call callee' args')))
    (hblock : ∀ statements statements',
      InStep w w' c R (f (.block statements)) (f' (.block statements'))) :
    InStep w w' c R (w.node id >>= f) (w'.node id' >>= f') := by
  apply InStep.bind (inStep_meets h hid)
  rintro node node' ⟨hn, hn', hmeets⟩
  cases hmeets with
  | lifts h => exact hlifts node node' hn hn' h
  | handed _ _ _ _ => exact hcall _ _ _ _
  | block _ _ => exact hblock _ _

/-- The entry points may be called for corresponding nodes; this lemma and the next three say so.
-/
theorem inStep_expression (h : w.Alongside w' c) (hid : c.value id id') :
    InStep w w' c Eq (w.expression id) (w'.expression id') :=
  .expression (h.expression hid)

theorem inStep_fragment (h : w.Alongside w' c) (hid : c.value id id') :
    InStep w w' c Eq (w.fragment id) (w'.fragment id') :=
  .fragment (h.fragment hid)

theorem inStep_statement (h : w.Alongside w' c) (hid : c.node id id') (slot : Option String) :
    InStep w w' c Eq (w.statement id slot) (w'.statement id' slot) :=
  .statement (h.statement hid) slot

theorem inStep_expand (h : w.Alongside w' c) (hid : c.node id id') (target : String) :
    InStep w w' c Eq (w.expand id target) (w'.expand id' target) :=
  .expand (h.expand hid) target

/-- Names of one class are addressed by the same text. -/
theorem inStep_address (h : w.Alongside w' c) (hid : w.arena.classify id = w'.arena.classify id') :
    InStep w w' c Eq (w.address id) (w'.address id') := by
  unfold address
  rw [h.addressIn hid]
  exact .ofExcept _

/-- The same text is stored in the same target. -/
theorem inStep_assignNode (h : w.Alongside w' c) (target : String) (hid : c.value id id') :
    InStep w w' c Eq (w.assignNode target id) (w'.assignNode target id') := by
  apply InStep.bindEq (inStep_expression h hid)
  intro value
  exact .assign target value

/-- The same text is stored in the same temporary. -/
theorem inStep_materializeNode (h : w.Alongside w' c) (hid : c.value id id') :
    InStep w w' c Eq (w.materializeNode id) (w'.materializeNode id') := by
  apply InStep.bindEq (inStep_expression h hid)
  intro value
  exact .materialize value

/-- The same text is a reference on both sides or on neither. -/
theorem inStep_reference (h : w.Alongside w' c) (hid : c.value id id') :
    InStep w w' c Eq (w.reference id) (w'.reference id') := by
  apply InStep.bindEq (inStep_expression h hid)
  intro value
  exact .toReference value

/-- Lifting does not change whether a node is an operator expression. -/
theorem Node.Lifts.isOperator_eq {node node' : Node} (h : node.Lifts c node') :
    isOperator node = isOperator node' := by
  cases h with
  | unary op _ => cases op <;> rfl
  | _ => rfl

/-- An operator goes through a temporary on both sides. -/
theorem inStep_argument (h : w.Alongside w' c) (hid : c.value id id') :
    InStep w w' c Eq (w.argument id) (w'.argument id') := by
  obtain ⟨hinner, hvalue⟩ := h.argumentExpr hid
  apply InStep.bindEq (inStep_expression h hvalue)
  intro value
  refine inStep_node h (h.own hinner) ?_ (fun _ _ _ _ => .pure rfl) fun _ _ => .pure rfl
  intro node node' _ _ hlifts
  refine .ite (by rw [Node.Lifts.isOperator_eq hlifts]) (fun _ => .materialize value) fun _ => ?_
  exact .pure rfl

/-- Arguments that correspond one by one are rendered in step. -/
theorem inStep_arguments (h : w.Alongside w' c) {ids ids' : List NodeId}
    (hids : List.Forall₂ c.value ids ids') :
    InStep w w' c Eq (w.arguments ids) (w'.arguments ids') := by
  apply InStep.bindEq (.mapM hids fun _ _ hid => inStep_argument h hid)
  intro rendered
  exact .pure rfl

/-- A loop is refused by both dialects, with the same words, or by neither. -/
theorem inStep_requireLoops (h : w.Alongside w' c) (what : String) :
    InStep w w' c Eq (w.requireLoops what) (w'.requireLoops what) := by
  have hname : w.dialect.name = w'.dialect.name := by
    rw [← Dialect.name_unlimited w.dialect, h.dialect, Dialect.name_unlimited]
  unfold requireLoops
  rw [h.supportsLoops, hname]
  exact .ite Iff.rfl (fun _ => .pure rfl) fun _ => .unsupported _

/-! ### Patterns -/

/-- A default is rendered in a guard of the same temporary. -/
theorem inStep_withDefault (h : w.Alongside w' c) (value : String) {default default' : Option NodeId}
    (hd : Option.Rel c.value default default') :
    InStep w w' c Eq (w.withDefault value default) (w'.withDefault value default') := by
  cases hd with
  | none => exact .pure rfl
  | some hdefault =>
    apply InStep.bindEq (.materialize value)
    intro slot
    apply InStep.bindEq (.ifNull slot (inStep_assignNode h slot hdefault))
    intro _
    exact .pure rfl

/-- A name of one class is bound to the same text, and a pattern through the walkers. -/
theorem inStep_bindElement (h : w.Alongside w' c) {name name' : NodeId} (hname : c.node name name')
    (hclass : w.arena.classify name = w'.arena.classify name') (value : String)
    {default default' : Option NodeId} (hd : Option.Rel c.value default default') :
    InStep w w' c Eq (w.bindElement name value default) (w'.bindElement name' value default') := by
  apply InStep.bindEq (inStep_withDefault h value hd)
  intro value
  have hpattern : InStep w w' c Eq (do
      let source ← toReference value
      w.expand name source) (do
      let source ← toReference value
      w'.expand name' source) := by
    apply InStep.bindEq (.toReference value)
    intro source
    exact inStep_expand h hname source
  refine inStep_node h (h.own hname) ?_ (fun _ _ _ _ => .breach _) fun _ _ => .breach _
  intro node node' _ _ hlifts
  cases hlifts with
  | identifier _ =>
    apply InStep.bindEq (inStep_address h hclass)
    intro target
    exact .assign target value
  | objectPattern _ => exact hpattern
  | arrayPattern _ => exact hpattern
  | _ => exact .breach _

/-- The accessor of a property is the same text, unless its key is computed and rendered in step.
-/
theorem inStep_propertyAccess (h : w.Alongside w' c) (target : String) {name name' : NodeId}
    (hname : c.node name name') {key key' : Option NodeId} (hk : Option.Rel c.node key key') :
    InStep w w' c Eq (w.propertyAccess target name key) (w'.propertyAccess target name' key') := by
  cases hk with
  | none =>
    refine inStep_node h (h.own hname) ?_ (fun _ _ _ _ => .fault _) fun _ _ => .fault _
    intro node node' _ _ hlifts
    cases hlifts with
    | identifier _ => exact .pure rfl
    | _ => exact .fault _
  | some hkey =>
    refine inStep_node h (h.own hkey) ?_ (fun _ _ _ _ => .fault _) fun _ _ => .fault _
    intro node node' _ _ hlifts
    cases hlifts with
    | identifier _ => exact .pure rfl
    | string _ => exact .pure rfl
    | number value =>
      apply InStep.bindEq (.number value)
      intro key
      exact .pure rfl
    | computedKey hexpr =>
      apply InStep.bindEq (inStep_reference h hexpr)
      intro key
      exact .pure rfl
    | _ => exact .fault _

/-- The rest of an object is copied in the same lines, whatever the rules around it are. -/
theorem inStep_objectRest (source : String) (keys : List String) :
    InStep w w' c Eq (objectRest source keys) (objectRest source keys) := by
  apply InStep.bindEq .freshTemp
  intro rest
  apply InStep.bindEq (.assign rest _)
  intro _
  apply InStep.bindEq .freshTemp
  intro key
  apply InStep.bindEq (.openLoop key _)
  intro _
  have hcopy : InStep w w' c Eq (Render.discard s!"{rest}.put({key}, {source}.get({key}))")
      (Render.discard s!"{rest}.put({key}, {source}.get({key}))") := .discard _
  have hdone : InStep w w' c Eq (do
      Render.close
      return rest) (do
      Render.close
      return rest) := .bindEq .close fun _ => .pure rfl
  cases keys with
  | nil => exact .bindEq hcopy fun _ => hdone
  | cons first others => exact .bindEq (.guarded _ hcopy) fun _ => hdone

/-- Names of one class, or patterns that correspond to each other. -/
def SameTarget (w w' : Walker) (c : Correspondence) (name name' : NodeId) : Prop :=
  c.node name name' ∧ w.arena.classify name = w'.arena.classify name'

/-- The keys and the rest element so far. -/
def SameState (w w' : Walker) (c : Correspondence) (state state' : List String × Option NodeId) :
    Prop :=
  state.1 = state'.1 ∧ Option.Rel (w.SameTarget w' c) state.2 state'.2

/-- Rest elements are put off on both sides, and the keys that they leave out are the same. -/
theorem inStep_bindObjectElement (h : w.Alongside w' c) (target : String)
    {state state' : List String × Option NodeId} (hstate : w.SameState w' c state state')
    {element element' : NodeId} (helement : c.node element element') :
    InStep w w' c (w.SameState w' c) (w.bindObjectElement target state element)
      (w'.bindObjectElement target state' element') := by
  refine inStep_node h (h.own helement) ?_ (fun _ _ _ _ => .breach _) fun _ _ => .breach _
  intro node node' hn hn' hlifts
  have hclass := h.classify_of_lifts (h.own helement) hn hn'
  cases hlifts with
  | @binding name name' key key' default default' hname hkey hdefault rest =>
    cases rest with
    | true => exact .pure ⟨hstate.1, .some ⟨hname, hclass rfl rfl⟩⟩
    | false =>
      apply InStep.bindEq (inStep_propertyAccess h target hname hkey)
      intro access
      apply InStep.bindEq (inStep_bindElement h hname (hclass rfl rfl) access.1 hdefault)
      intro _
      exact .pure ⟨congrArg (· ++ [access.2]) hstate.1, hstate.2⟩
  | _ => exact .breach _

/-- Elements that correspond one by one are bound in step, and their rest elements behind them.
-/
theorem inStep_expandObject (h : w.Alongside w' c) {elements elements' : List NodeId}
    (helements : List.Forall₂ c.node elements elements') (target : String) :
    InStep w w' c Eq (w.expandObject elements target) (w'.expandObject elements' target) := by
  have hstart : w.SameState w' c ([], none) ([], none) := ⟨rfl, .none⟩
  apply InStep.bind
    (.foldlM helements (fun _ _ _ _ hs he => inStep_bindObjectElement h target hs he) hstart)
  rintro ⟨keys, rest⟩ ⟨keys', rest'⟩ ⟨hkeys, hrest⟩
  cases hkeys
  cases hrest with
  | none => exact .pure rfl
  | some htarget =>
    apply InStep.bindEq (inStep_objectRest target keys)
    intro remainder
    exact inStep_bindElement h htarget.1 htarget.2 remainder .none

/-- The rest element so far and where it starts. -/
def SameRest (w w' : Walker) (c : Correspondence) (rest rest' : Option (Nat × NodeId)) : Prop :=
  Option.Rel (fun found found' => found.1 = found'.1 ∧ w.SameTarget w' c found.2 found'.2)
    rest rest'

/-- An element stands at the same position on both sides. -/
theorem inStep_bindArrayElement (h : w.Alongside w' c) (target : String)
    {rest rest' : Option (Nat × NodeId)} (hrest : w.SameRest w' c rest rest')
    {element element' : NodeId × Nat}
    (helement : c.node element.1 element'.1 ∧ element.2 = element'.2) :
    InStep w w' c (w.SameRest w' c) (w.bindArrayElement target rest element)
      (w'.bindArrayElement target rest' element') := by
  obtain ⟨helement, hposition⟩ := helement
  refine inStep_node h (h.own helement) ?_ (fun _ _ _ _ => .breach _) fun _ _ => .breach _
  intro node node' hn hn' hlifts
  have hclass := h.classify_of_lifts (h.own helement) hn hn'
  cases hlifts with
  | hole => exact .pure hrest
  | @binding name name' key key' default default' hname hkey hdefault last =>
    cases last with
    | true => exact .pure (.some ⟨hposition, hname, hclass rfl rfl⟩)
    | false =>
      rw [← hposition]
      apply InStep.bindEq (inStep_bindElement h hname (hclass rfl rfl) _ hdefault)
      intro _
      exact .pure hrest
  | _ => exact .breach _

/-- So array patterns are bound in step as well. -/
theorem inStep_expandArray (h : w.Alongside w' c) {elements elements' : List NodeId}
    (helements : List.Forall₂ c.node elements elements') (target : String) :
    InStep w w' c Eq (w.expandArray elements target) (w'.expandArray elements' target) := by
  apply InStep.bind
    (.foldlM (forall₂_zipIdx helements 0)
      (fun _ _ _ _ hr he => inStep_bindArrayElement h target hr he) .none)
  intro rest rest' hrest
  cases hrest with
  | none => exact .pure rfl
  | @some found found' hfound =>
    obtain ⟨start, name⟩ := found
    obtain ⟨start', name'⟩ := found'
    obtain ⟨hstart, hname, hclass⟩ := hfound
    cases hstart
    exact inStep_bindElement h hname hclass _ .none

/-- Patterns that correspond on their own are of one kind. -/
theorem inStep_expandPattern (h : w.Alongside w' c) {pattern pattern' : NodeId}
    (hpattern : c.own pattern pattern') (target : String) :
    InStep w w' c Eq (w.expandPattern pattern target) (w'.expandPattern pattern' target) := by
  refine inStep_node h hpattern ?_ (fun _ _ _ _ => .breach _) fun _ _ => .breach _
  intro node node' _ _ hlifts
  cases hlifts with
  | objectPattern helements => exact inStep_expandObject h helements target
  | arrayPattern helements => exact inStep_expandArray h helements target
  | _ => exact .breach _

/-- A parameter is bound from the same source to a name of one class, or to patterns that
correspond. -/
theorem inStep_bindParameter (h : w.Alongside w' c) {parameter parameter' : NodeId}
    (hparameter : c.node parameter parameter') (source : String) :
    InStep w w' c Eq (w.bindParameter parameter source) (w'.bindParameter parameter' source) := by
  refine inStep_node h (h.own hparameter) ?_ (fun _ _ _ _ => .breach _) fun _ _ => .breach _
  intro node node' hn hn' hlifts
  have hclass := h.classify_of_lifts (h.own hparameter) hn hn'
  cases hlifts with
  | @parameter name name' default default' hname hdefault =>
    have helement := inStep_bindElement h hname (hclass rfl rfl) source hdefault
    refine inStep_node h (h.own hname) ?_ (fun _ _ _ _ => helement) fun _ _ => helement
    intro node node' _ _ hlifts
    cases hlifts with
    | identifier _ =>
      apply InStep.bindEq (inStep_address h (hclass rfl rfl))
      intro target
      cases hdefault with
      | none =>
        exact .ite Iff.rfl (fun _ => .bindEq (.assign target source) fun _ => .pure rfl)
          fun _ => .pure rfl
      | some hdefault =>
        have hnull := InStep.ifNull target (inStep_assignNode h target hdefault)
        exact .ite Iff.rfl (fun _ => .bindEq (.assign target source) fun _ => hnull) fun _ => hnull
    | _ => exact helement
  | _ => exact .breach _

/-! ### The loop of a chain -/

/-- Loops have the same variable, a name of one class or a temporary. -/
theorem inStep_loopVariable (h : w.Alongside w' c) {parameter parameter' : Option NodeId}
    (hp : Option.Rel c.node parameter parameter') :
    InStep w w' c Eq (w.loopVariable parameter) (w'.loopVariable parameter') := by
  cases hp with
  | none => exact .freshTemp
  | some hparameter =>
    refine inStep_node h (h.own hparameter) ?_ (fun _ _ _ _ => .freshTemp) fun _ _ => .freshTemp
    intro node node' hn hn' hlifts
    have hclass := h.classify_of_lifts (h.own hparameter) hn hn'
    cases hlifts with
    | parameter hname hdefault =>
      cases hdefault with
      | none =>
        refine inStep_node h (h.own hname) ?_ (fun _ _ _ _ => .freshTemp) fun _ _ => .freshTemp
        intro node node' _ _ hlifts
        cases hlifts with
        | identifier _ => exact inStep_address h (hclass rfl rfl)
        | _ => exact .freshTemp
      | some _ => exact .freshTemp
    | _ => exact .freshTemp

/-- Parameters are bound from the same sources on both sides. -/
theorem inStep_bindParameters (h : w.Alongside w' c) {parameters parameters' : List NodeId}
    (hp : List.Forall₂ c.node parameters parameters') (sources : List String) :
    InStep w w' c Eq
      ((parameters.zip sources).forM fun (parameter, source) => w.bindParameter parameter source)
      ((parameters'.zip sources).forM fun (parameter, source) =>
        w'.bindParameter parameter source) := by
  apply InStep.forM (forall₂_zip hp sources)
  rintro ⟨parameter, source⟩ ⟨parameter', source'⟩ ⟨hparameter, hsource⟩
  cases hsource
  exact inStep_bindParameter h hparameter source

/-- The value of an expression body is stored as it is. -/
theorem callbackBody_of_isOperand {body : NodeId}
    (h : (w.arena.get? body).any Node.isOperand = true) :
    w.callbackBody body = w.materializeNode body := by
  obtain ⟨node, hn, hoperand⟩ := (Option.any_eq_true _ _).mp h
  unfold callbackBody Walker.node
  rw [Arena.node_eq_ok_iff.mpr hn]
  cases node <;> first | rfl | cases hoperand

/-- The body of a callback is a block on both sides, or a value on both. -/
theorem inStep_callbackBody (h : w.Alongside w' c) {body body' : NodeId} (hb : c.value body body') :
    InStep w w' c Eq (w.callbackBody body) (w'.callbackBody body') := by
  have hvalue := inStep_materializeNode h hb
  rcases h.plain hb with hnode | ⟨hleft, hright⟩
  · have hblock : InStep w w' c Eq (do
        let slot ← Render.freshTemp
        Render.assign slot Text.nullText
        w.statement body (some slot)
        return slot) (do
        let slot ← Render.freshTemp
        Render.assign slot Text.nullText
        w'.statement body' (some slot)
        return slot) := by
      apply InStep.bindEq .freshTemp
      intro slot
      apply InStep.bindEq (.assign slot _)
      intro _
      apply InStep.bindEq (inStep_statement h hnode (some slot))
      intro _
      exact .pure rfl
    refine inStep_node h (h.own hnode) ?_ (fun _ _ _ _ => hvalue) fun _ _ => hblock
    intro node node' _ _ hlifts
    cases hlifts with
    | block _ => exact hblock
    | _ => exact hvalue
  · rw [callbackBody_of_isOperand hleft, callbackBody_of_isOperand hright]
    exact hvalue

/-- Stages that correspond one by one are rendered in step, innermost first, by induction on both
chains. -/
theorem inStep_renderStages (h : w.Alongside w' c) {source source' : NodeId}
    (hsource : c.value source source') {header header' : String → String → Render Unit}
    (hheader : ∀ item list, InStep w w' c Eq (header item list) (header' item list))
    {stages stages' : List ListCall} (hstages : List.Forall₂ (ListCall.Lifts c) stages stages')
    (item : String) :
    InStep w w' c Eq (w.renderStages source header stages item)
      (w'.renderStages source' header' stages' item) := by
  induction hstages generalizing item with
  | nil =>
    apply InStep.bindEq (inStep_reference h hsource)
    intro list
    apply InStep.bindEq (hheader item list)
    intro _
    exact .pure rfl
  | cons hstage _ ih =>
    apply InStep.bindEq (inStep_loopVariable h (optionRel_head? hstage.parameters))
    intro stageItem
    apply InStep.bindEq (ih stageItem)
    intro list
    apply InStep.bindEq (inStep_bindParameters h hstage.parameters _)
    intro _
    apply InStep.bindEq (inStep_callbackBody h hstage.body)
    intro value
    apply InStep.bindEq (.assign item value)
    intro _
    exact .pure rfl

/-- A consumer that reads the list breaks the chain on both sides. -/
theorem inStep_loopOver (h : w.Alongside w' c) {receiver receiver' : NodeId}
    (hr : c.value receiver receiver') (item : String) {readsList readsList' : Bool}
    (hreads : readsList = readsList') {header header' : String → String → Render Unit}
    (hheader : ∀ item list, InStep w w' c Eq (header item list) (header' item list)) :
    InStep w w' c Eq (w.loopOver receiver item readsList header)
      (w'.loopOver receiver' item readsList' header') := by
  cases hreads
  obtain ⟨hstages, hsource⟩ := h.fusedChain hr readsList
  exact inStep_renderStages h hsource hheader hstages item

/-- Whether a callback reads the list is asked of parameters and bodies that correspond. -/
theorem inStep_itemLoop (h : w.Alongside w' c) {call call' : ListCall} (hc : call.Lifts c call') :
    InStep w w' c Eq (w.itemLoop call) (w'.itemLoop call') := by
  apply InStep.bindEq (inStep_loopVariable h (optionRel_head? hc.parameters))
  intro item
  have hreads := h.parameterUsed hc.parameters hc.body mapListPosition
  apply InStep.bindEq (inStep_loopOver h hc.receiver item hreads fun _ _ => .openLoop _ _)
  intro list
  apply InStep.bindEq (inStep_bindParameters h hc.parameters _)
  intro _
  exact .pure rfl

/-! ### Consumers -/

/-- What is mapped is collected in the same list. -/
theorem inStep_mapLoop (h : w.Alongside w' c) {call call' : ListCall} (hc : call.Lifts c call') :
    InStep w w' c Eq (w.mapLoop call) (w'.mapLoop call') := by
  apply InStep.bindEq .freshTemp
  intro out
  apply InStep.bindEq (.assign out _)
  intro _
  apply InStep.bindEq (inStep_itemLoop h hc)
  intro _
  apply InStep.bindEq (inStep_callbackBody h hc.body)
  intro value
  apply InStep.bindEq (.discard _)
  intro _
  apply InStep.bindEq .close
  intro _
  exact .pure rfl

/-- A loop for its effect is rendered in step. -/
theorem inStep_forEachLoop (h : w.Alongside w' c) {call call' : ListCall} (hc : call.Lifts c call') :
    InStep w w' c Eq (w.forEachLoop call) (w'.forEachLoop call') := by
  apply InStep.bindEq (inStep_itemLoop h hc)
  intro _
  apply InStep.bindEq (inStep_callbackBody h hc.body)
  intro _
  apply InStep.bindEq .close
  intro _
  exact .pure rfl

/-- An item is kept by the same condition. -/
theorem inStep_filterLoop (h : w.Alongside w' c) {call call' : ListCall} (hc : call.Lifts c call') :
    InStep w w' c Eq (w.filterLoop call) (w'.filterLoop call') := by
  apply InStep.bindEq .freshTemp
  intro out
  apply InStep.bindEq (.assign out _)
  intro _
  apply InStep.bindEq (inStep_itemLoop h hc)
  intro item
  apply InStep.bindEq (inStep_callbackBody h hc.body)
  intro keep
  apply InStep.bindEq (.guarded keep (.discard _))
  intro _
  apply InStep.bindEq .close
  intro _
  exact .pure rfl

/-- The guard against empty lists depends on the text of the list alone. -/
theorem inStep_emptyReduceGuard (list : String) :
    InStep w w' c Eq (emptyReduceGuard list) (emptyReduceGuard list) :=
  .guarded _ (.emit _)

/-- A round of a reduction binds the same texts and stores the same value. -/
theorem inStep_reduceStep (h : w.Alongside w' c) {call call' : ListCall} (hc : call.Lifts c call')
    (acc item list : String) :
    InStep w w' c Eq (w.reduceStep call acc item list) (w'.reduceStep call' acc item list) := by
  apply InStep.bindEq (inStep_bindParameters h hc.parameters _)
  intro _
  apply InStep.bindEq (inStep_callbackBody h hc.body)
  intro value
  exact .assign acc value

/-- A reduction has an initial value on both sides or on neither. -/
theorem inStep_reduceLoop (h : w.Alongside w' c) {call call' : ListCall} (hc : call.Lifts c call')
    {initial initial' : Option NodeId} (hi : Option.Rel c.value initial initial') :
    InStep w w' c Eq (w.reduceLoop call initial) (w'.reduceLoop call' initial') := by
  have hsecond := optionRel_getElem? hc.parameters 1
  have hreads := h.parameterUsed hc.parameters hc.body reduceListPosition
  apply InStep.bindEq .freshTemp
  intro acc
  cases hi with
  | none =>
    apply InStep.bindEq (inStep_loopVariable h hsecond)
    intro item
    have hheader : ∀ item list, InStep w w' c Eq (do
        emptyReduceGuard list
        Render.openLoop item list) (do
        emptyReduceGuard list
        Render.openLoop item list) :=
      fun item list => .bindEq (inStep_emptyReduceGuard list) fun _ => .openLoop item list
    apply InStep.bindEq (inStep_loopOver h hc.receiver item hreads hheader)
    intro list
    apply InStep.bindEq (.choice _ (.assign acc item) (inStep_reduceStep h hc acc item list))
    intro _
    apply InStep.bindEq .close
    intro _
    exact .pure rfl
  | some hinitial =>
    apply InStep.bindEq (inStep_assignNode h acc hinitial)
    intro _
    apply InStep.bindEq (inStep_loopVariable h hsecond)
    intro item
    apply InStep.bindEq (inStep_loopOver h hc.receiver item hreads fun _ _ => .openLoop _ _)
    intro list
    apply InStep.bindEq (inStep_reduceStep h hc acc item list)
    intro _
    apply InStep.bindEq .close
    intro _
    exact .pure rfl

end Walker

end ClosureVtl
