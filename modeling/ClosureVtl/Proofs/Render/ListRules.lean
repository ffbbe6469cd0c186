/-
Module: ClosureVtl.Proofs.Render.ListRules
Purpose: The rules for names, patterns and list operations keep the blocks of a
  template.
Main exports:
  Walker.keeps_expandPattern, Walker.opens_renderStages, Walker.keeps_mapLoop,
  Walker.keeps_forEachLoop, Walker.keeps_filterLoop, Walker.keeps_reduceLoop
-/
import ClosureVtl.Proofs.Render.Writing
import ClosureVtl.Render.ListLoop

namespace ClosureVtl.Walker

/-!
One lemma for each rule, in the order of the rules.  Most rules close what they
open.  The exception are those that open the loop of a chain, from `renderStages` to
`itemLoop`: they leave one loop open, which the consumer of the chain closes.
-/

variable {w : Walker}

/-! ### Steps built on the entry points -/

/-- The entry points keep the blocks by assumption, this one and the next three. -/
theorem keeps_expression (id : NodeId) : w.Keeps (w.expression id) := fun _ => .expression id

theorem keeps_expand (pattern : NodeId) (target : String) : w.Keeps (w.expand pattern target) :=
  fun _ => .expand pattern target

theorem keeps_statement (id : NodeId) (slot : Option String) : w.Keeps (w.statement id slot) :=
  fun _ => .statement id slot

theorem keeps_fragment (id : NodeId) : w.Keeps (w.fragment id) := fun _ => .fragment id

/-- A node is looked up without writing anything. -/
theorem keeps_node (id : NodeId) : w.Keeps (w.node id) := .ofExcept _

/-- So is an address. -/
theorem keeps_address (id : NodeId) : w.Keeps (w.address id) := .ofExcept _

theorem keeps_number (value : Binary64) : w.Keeps (number value) := .ofExcept _

/-- What is refused writes no line any more, so it keeps every block. -/
theorem keeps_unsupported {α : Type} (cause : Unsupported) :
    w.Keeps (Render.unsupported cause : Render α) := .fault _

theorem keeps_breach {α : Type} (cause : Breach) : w.Keeps (Render.breach cause : Render α) :=
  .fault _

/-- A value is stored by one line behind those that it needs. -/
theorem keeps_assignNode (target : String) (id : NodeId) : w.Keeps (w.assignNode target id) := by
  apply Keeps.bind (keeps_expression id)
  intro value _
  exact .assign target value

/-- A value that is moved to a temporary is one line behind those that it needs. -/
theorem keeps_materializeNode (id : NodeId) : w.Keeps (w.materializeNode id) := by
  apply Keeps.bind (keeps_expression id)
  intro value _
  exact .materialize value

/-- Only what is no reference yet is moved to a temporary. -/
theorem keeps_toReference (value : String) : w.Keeps (toReference value) := by
  refine .ite (fun _ => .pure value) fun _ => ?_
  exact .materialize value

/-- A reference is a value that may be moved to a temporary. -/
theorem keeps_reference (id : NodeId) : w.Keeps (w.reference id) := by
  apply Keeps.bind (keeps_expression id)
  intro value _
  exact keeps_toReference value

/-- So is an argument; here it is operators that are moved. -/
theorem keeps_argument (id : NodeId) : w.Keeps (w.argument id) := by
  apply Keeps.bind (keeps_expression _)
  intro value _
  apply Keeps.bind (keeps_node _)
  intro node _
  exact .ite (fun _ => .materialize value) fun _ => .pure value

/-- Arguments are rendered one after the other. -/
theorem keeps_arguments (ids : List NodeId) : w.Keeps (w.arguments ids) := by
  apply Keeps.bind (.mapM fun id _ => keeps_argument id)
  intro rendered _
  exact .pure _

/-- A dialect either has loops or refuses them; nothing is written in either case. -/
theorem keeps_requireLoops (what : String) : w.Keeps (w.requireLoops what) :=
  .ite (fun _ => .pure ()) fun _ => keeps_unsupported _

/-! ### Patterns -/

/-- A default is rendered in a guard, which is closed behind it. -/
theorem keeps_withDefault (value : String) (default : Option NodeId) :
    w.Keeps (w.withDefault value default) := by
  cases default with
  | none => exact .pure value
  | some default =>
    apply Keeps.bind (.materialize value)
    intro slot _
    apply Keeps.bind (.ifNull slot (keeps_assignNode slot default))
    intro _ _
    exact .pure slot

/-- A name is bound by an assignment, and a pattern by those of its parts. -/
theorem keeps_bindElement (name : NodeId) (value : String) (default : Option NodeId) :
    w.Keeps (w.bindElement name value default) := by
  apply Keeps.bind (keeps_withDefault value default)
  intro value _
  apply Keeps.bind (keeps_node name)
  intro node _
  have hpattern : w.Keeps (do
      let source ← toReference value
      w.expand name source) :=
    .bind (keeps_toReference value) fun source _ => keeps_expand name source
  split
  · apply Keeps.bind (keeps_address name)
    intro target _
    exact .assign target value
  · exact hpattern
  · exact hpattern
  · exact keeps_breach _

/-- The accessor of a property is text; only a computed key may need lines. -/
theorem keeps_propertyAccess (target : String) (name : NodeId) (key : Option NodeId) :
    w.Keeps (w.propertyAccess target name key) := by
  cases key with
  | none =>
    apply Keeps.bind (keeps_node name)
    intro node _
    split
    · exact .pure _
    · exact .fault _
  | some key =>
    apply Keeps.bind (keeps_node key)
    intro node _
    split
    · exact .pure _
    · exact .pure _
    · next value _ =>
      apply Keeps.bind (keeps_number value)
      intro key _
      exact .pure _
    · next expr _ =>
      apply Keeps.bind (keeps_reference expr)
      intro key _
      exact .pure _
    · exact .fault _

/-- The rest of an object is copied in a loop, which is closed behind the copy and its guard. -/
theorem keeps_objectRest (source : String) (keys : List String) :
    w.Keeps (objectRest source keys) := by
  intro stack
  apply Writes.bind .freshTemp
  intro rest _
  apply Writes.bind (Keeps.assign rest _ stack)
  intro _ _
  apply Writes.bind .freshTemp
  intro key _
  apply Writes.bind (.openLoop key _)
  intro _ _
  have hcopy : w.Keeps (Render.discard s!"{rest}.put({key}, {source}.get({key}))") := .discard _
  have hdone : w.Writes (do
      Render.close
      return rest) (.loop :: stack) stack :=
    .bind .close fun _ _ => .pure rest
  cases keys with
  | nil => exact .bind (hcopy _) fun _ _ => hdone
  | cons first others => exact .bind (Keeps.guarded _ hcopy _) fun _ _ => hdone

/-- An element of an object pattern is bound at once, a rest element is put off. -/
theorem keeps_bindObjectElement (target : String) (state : List String × Option NodeId)
    (element : NodeId) : w.Keeps (w.bindObjectElement target state element) := by
  apply Keeps.bind (keeps_node element)
  intro node _
  split
  · exact .pure _
  · next name key default _ =>
    apply Keeps.bind (keeps_propertyAccess target name key)
    intro access _
    apply Keeps.bind (keeps_bindElement name access.1 default)
    intro _ _
    exact .pure _
  · exact keeps_breach _

/-- The rest element of an object pattern is bound behind all the others. -/
theorem keeps_expandObject (elements : List NodeId) (target : String) :
    w.Keeps (w.expandObject elements target) := by
  have hfixed : w.Keeps (elements.foldlM (w.bindObjectElement target) ([], none)) :=
    .foldlM (fun state element _ => keeps_bindObjectElement target state element) _
  apply Keeps.bind hfixed
  intro state _
  obtain ⟨keys, rest⟩ := state
  cases rest with
  | none => exact .pure ()
  | some name =>
    apply Keeps.bind (keeps_objectRest target keys)
    intro remainder _
    exact keeps_bindElement name remainder none

/-- An element of an array pattern is bound at once, a rest element is put off. -/
theorem keeps_bindArrayElement (target : String) (rest : Option (Nat × NodeId))
    (element : NodeId × Nat) : w.Keeps (w.bindArrayElement target rest element) := by
  apply Keeps.bind (keeps_node element.1)
  intro node _
  split
  · exact .pure rest
  · exact .pure _
  · next name _ default _ =>
    apply Keeps.bind (keeps_bindElement name _ default)
    intro _ _
    exact .pure rest
  · exact keeps_breach _

/-- The rest element of an array pattern is bound behind all the others. -/
theorem keeps_expandArray (elements : List NodeId) (target : String) :
    w.Keeps (w.expandArray elements target) := by
  have hfixed : w.Keeps (elements.zipIdx.foldlM (w.bindArrayElement target) none) :=
    .foldlM (fun rest element _ => keeps_bindArrayElement target rest element) _
  apply Keeps.bind hfixed
  intro rest _
  split
  · exact .pure ()
  · next start name _ => exact keeps_bindElement name _ none

/-- Both kinds of patterns keep the blocks, and nothing else is a pattern. -/
theorem keeps_expandPattern (pattern : NodeId) (target : String) :
    w.Keeps (w.expandPattern pattern target) := by
  apply Keeps.bind (keeps_node pattern)
  intro node _
  split
  · exact keeps_expandObject _ target
  · exact keeps_expandArray _ target
  · exact keeps_breach _

/-- A parameter takes one assignment at most, and a guard if it has a default. -/
theorem keeps_bindParameter (parameter : NodeId) (source : String) :
    w.Keeps (w.bindParameter parameter source) := by
  apply Keeps.bind (keeps_node parameter)
  intro node _
  split
  · next name default _ =>
    apply Keeps.bind (keeps_node name)
    intro node _
    split
    · apply Keeps.bind (keeps_address name)
      intro target _
      cases default with
      | none =>
        exact .ite (fun _ => .bind (.assign target source) fun _ _ => .pure ()) fun _ => .pure ()
      | some default =>
        have hdefault : w.Keeps (Render.ifNull target (w.assignNode target default)) :=
          .ifNull target (keeps_assignNode target default)
        exact .ite (fun _ => .bind (.assign target source) fun _ _ => hdefault) fun _ => hdefault
    · exact keeps_bindElement name source default
  · exact keeps_breach _

/-! ### The loop of a chain -/

/-- The variable of a loop is a name or a temporary; no line is written to choose it. -/
theorem keeps_loopVariable (parameter : Option NodeId) : w.Keeps (w.loopVariable parameter) := by
  cases parameter with
  | none => exact .freshTemp
  | some parameter =>
    apply Keeps.bind (keeps_node parameter)
    intro node _
    split
    · next name _ =>
      apply Keeps.bind (keeps_node name)
      intro node _
      split
      · exact keeps_address name
      · exact .freshTemp
    · exact .freshTemp

/-- The parameters of a callback are bound one after the other. -/
theorem keeps_bindItemParameters (parameters : List NodeId) (item list : String) :
    w.Keeps (w.bindItemParameters parameters item list) :=
  .forM fun binding _ => keeps_bindParameter binding.1 binding.2

/-- The body of a callback stores its value in a temporary, a block where it returns. -/
theorem keeps_callbackBody (body : NodeId) : w.Keeps (w.callbackBody body) := by
  apply Keeps.bind (keeps_node body)
  intro node _
  split
  · apply Keeps.bind .freshTemp
    intro slot _
    apply Keeps.bind (.assign slot _)
    intro _ _
    apply Keeps.bind (keeps_statement body (some slot))
    intro _ _
    exact .pure slot
  · exact keeps_materializeNode body

/-- The stages of a chain leave the loop open that the header opens. -/
theorem opens_renderStages {source : NodeId} {header : String → String → Render Unit}
    {stack : List OpenBlock}
    (hheader : ∀ item list, w.Writes (header item list) stack (.loop :: stack))
    (stages : List ListCall) (item : String) :
    w.Writes (w.renderStages source header stages item) stack (.loop :: stack) := by
  induction stages generalizing item with
  | nil =>
    apply Writes.bind (keeps_reference source _)
    intro list _
    apply Writes.bind (hheader item list)
    intro _ _
    exact .pure list
  | cons stage inner ih =>
    apply Writes.bind (keeps_loopVariable _ _)
    intro stageItem _
    apply Writes.bind (ih stageItem)
    intro list _
    apply Writes.bind (keeps_bindItemParameters _ stageItem list _)
    intro _ _
    apply Writes.bind (keeps_callbackBody stage.body _)
    intro value _
    apply Writes.bind (Keeps.assign item value _)
    intro _ _
    exact .pure list

/-- The loop of a consumer is the one that its stages open, whether or not they are fused. -/
theorem opens_loopOver {header : String → String → Render Unit} {stack : List OpenBlock}
    (hheader : ∀ item list, w.Writes (header item list) stack (.loop :: stack))
    (receiver : NodeId) (item : String) (consumerReadsList : Bool) :
    w.Writes (w.loopOver receiver item consumerReadsList header) stack (.loop :: stack) :=
  opens_renderStages hheader _ item

/-- Behind the parameters of its callback the loop of an item is still open. -/
theorem opens_itemLoop (c : ListCall) (stack : List OpenBlock) :
    w.Writes (w.itemLoop c) stack (.loop :: stack) := by
  apply Writes.bind (keeps_loopVariable _ _)
  intro item _
  have hheader : ∀ item list, w.Writes (Render.openLoop item list) stack (.loop :: stack) :=
    fun item list => .openLoop item list
  apply Writes.bind (opens_loopOver hheader c.receiver item _)
  intro list _
  apply Writes.bind (keeps_bindItemParameters c.parameters item list _)
  intro _ _
  exact .pure item

/-! ### Consumers -/

/-- What is mapped is added to a list by one line, and the loop is closed behind it. -/
theorem keeps_mapLoop (c : ListCall) : w.Keeps (w.mapLoop c) := by
  intro stack
  apply Writes.bind .freshTemp
  intro out _
  apply Writes.bind (Keeps.assign out _ _)
  intro _ _
  apply Writes.bind (opens_itemLoop c stack)
  intro _ _
  apply Writes.bind (keeps_callbackBody c.body _)
  intro value _
  apply Writes.bind (Keeps.discard _ _)
  intro _ _
  apply Writes.bind .close
  intro _ _
  exact .pure out

/-- The loop of an effect is closed behind the body of its callback. -/
theorem keeps_forEachLoop (c : ListCall) : w.Keeps (w.forEachLoop c) := by
  intro stack
  apply Writes.bind (opens_itemLoop c stack)
  intro _ _
  apply Writes.bind (keeps_callbackBody c.body _)
  intro _ _
  apply Writes.bind .close
  intro _ _
  exact .pure _

/-- An item that is kept is added in a guard, and both the guard and the loop are closed. -/
theorem keeps_filterLoop (c : ListCall) : w.Keeps (w.filterLoop c) := by
  intro stack
  apply Writes.bind .freshTemp
  intro out _
  apply Writes.bind (Keeps.assign out _ _)
  intro _ _
  apply Writes.bind (opens_itemLoop c stack)
  intro item _
  apply Writes.bind (keeps_callbackBody c.body _)
  intro keep _
  apply Writes.bind (Keeps.guarded keep (.discard _) _)
  intro _ _
  apply Writes.bind .close
  intro _ _
  exact .pure out

/-- The guard against empty lists is closed behind the error that it raises. -/
theorem keeps_emptyReduceGuard (list : String) : w.Keeps (emptyReduceGuard list) := by
  apply Keeps.guarded
  apply Keeps.emit
  decide

/-- A round of a reduction stores one value behind the body of its callback. -/
theorem keeps_reduceStep (c : ListCall) (acc item list : String) :
    w.Keeps (w.reduceStep c acc item list) := by
  apply Keeps.bind (.forM fun binding _ => keeps_bindParameter binding.1 binding.2)
  intro _ _
  apply Keeps.bind (keeps_callbackBody c.body)
  intro value _
  exact .assign acc value

/-- The first round without an initial value is a branch in the loop; branch and loop are closed.
-/
theorem keeps_reduceLoop (c : ListCall) (initial : Option NodeId) :
    w.Keeps (w.reduceLoop c initial) := by
  intro stack
  have hopen : ∀ item list, w.Writes (Render.openLoop item list) stack (.loop :: stack) :=
    fun item list => .openLoop item list
  apply Writes.bind .freshTemp
  intro acc _
  cases initial with
  | none =>
    have hheader : ∀ item list, w.Writes (do
        emptyReduceGuard list
        Render.openLoop item list) stack (.loop :: stack) :=
      fun item list => .bind (keeps_emptyReduceGuard list stack) fun _ _ => hopen item list
    apply Writes.bind (keeps_loopVariable _ _)
    intro item _
    apply Writes.bind (opens_loopOver hheader c.receiver item _)
    intro list _
    have hstep : w.Keeps (w.reduceStep c acc item list) := keeps_reduceStep c acc item list
    apply Writes.bind (Keeps.choice _ (.assign acc item) hstep _)
    intro _ _
    apply Writes.bind .close
    intro _ _
    exact .pure acc
  | some initial =>
    apply Writes.bind (keeps_assignNode acc initial _)
    intro _ _
    apply Writes.bind (keeps_loopVariable _ _)
    intro item _
    apply Writes.bind (opens_loopOver hopen c.receiver item _)
    intro list _
    apply Writes.bind (keeps_reduceStep c acc item list _)
    intro _ _
    apply Writes.bind .close
    intro _ _
    exact .pure acc

end ClosureVtl.Walker
