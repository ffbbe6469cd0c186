/-
Module: ClosureVtl.Proofs.Render.FollowedLists
Purpose: The rules for names, patterns and list operations respect every discipline.
Main exports:
  Walker.Follows.address, Walker.Follows.argument, Walker.Follows.expandPattern,
  Walker.Follows.renderStages, Walker.Follows.mapLoop, Walker.Follows.forEachLoop,
  Walker.Follows.filterLoop, Walker.Follows.reduceLoop
-/
import ClosureVtl.Proofs.Render.Discipline
import ClosureVtl.Render.ListLoop

namespace ClosureVtl

/-!
One lemma for each rule, in the order of the rules.  The rules of this module that open
loops are asked for the discipline to be free.

Most names are stored right where they are allocated.  Three are not: the result of a
conditional, which both branches store; the item of an outer stage, which is stored when
the stages inside have been rendered; and the accumulator of a reduction.  They are due
while the rest is rendered, and the lemmas about the rules in between say so.
-/

/-! ### Texts from the arena -/

/-- The class of a name carries the text of its node, if it carries any. -/
theorem Arena.exists_text_of_classify {a : Arena} {id : NodeId} {nameClass : NameClass}
    (h : a.classify id = .ok nameClass) :
    (∃ index, nameClass = .rootParameter index) ∨
      ∃ node name, a.get? id = some node ∧ name ∈ node.texts ∧
        (nameClass = .topLevel name ∨ nameClass = .local name ∨ nameClass = .reserved name ∨
          nameClass = .capture name) := by
  unfold classify at h
  split at h
  · cases h
  · next name integration hnode =>
    cases h
    refine .inr ⟨_, name, Arena.node_eq_ok_iff.mp hnode, List.mem_singleton.mpr rfl, ?_⟩
    split
    · exact .inr (.inr (.inl rfl))
    · exact .inr (.inr (.inr rfl))
  · next name hnode =>
    cases h
    unfold classifyDeclared
    split
    · next index _ => exact .inl ⟨index, rfl⟩
    · refine .inr ⟨_, name, Arena.node_eq_ok_iff.mp hnode, List.mem_singleton.mpr rfl, ?_⟩
      split
      · exact .inr (.inr (.inl rfl))
      · split
        · split
          · exact .inl rfl
          · exact .inr (.inl rfl)
        · exact .inr (.inr (.inr rfl))
  · cases h

/-- An accessor or a text behind a fixed piece is all that an address is made of. -/
theorem Dialect.usesOnly_of_addressOf {allowed : List Char → Prop} {dialect : Dialect}
    {nameClass : NameClass} {address : String}
    (hname : ∀ name, nameClass = .topLevel name ∨ nameClass = .local name ∨
      nameClass = .reserved name ∨ nameClass = .capture name → Text.UsesOnly allowed name)
    (h : dialect.addressOf nameClass = .ok address) : Text.UsesOnly allowed address := by
  cases nameClass with
  | rootParameter index =>
    simp only [addressOf] at h
    split at h
    · next accessor haccessor =>
      cases h
      rcases dialect with config | ⟨direction, config⟩ <;> rcases index with _ | _ | index <;>
        cases haccessor <;> exact Text.usesOnly_tail (by decide)
    · cases h
  | topLevel name =>
    have hname := hname name (.inl rfl)
    cases dialect with
    | resolver config =>
      cases h
      split
      · exact hname.front (by decide)
      · exact hname.front (by decide)
    | mapping direction config =>
      cases h
      exact hname.front (by decide)
  | «local» name =>
    cases h
    exact (hname name (.inr (.inl rfl))).front (by decide)
  | reserved name =>
    have hsame : name = address := Except.ok.inj h
    rw [← hsame]
    exact hname name (.inr (.inr (.inl rfl)))
  | capture name => cases h

namespace Walker.Follows

open Discipline

variable {w : Walker} {D : Discipline} (hw : w.Follows D) {out : Output} {due : Set String}
  {target value : String}
include hw

/-- An address is made of fixed text and the name in its node. -/
theorem address (id : NodeId) (out : Output) : D.Says (w.address id) out := by
  refine says_ofExcept fun text h => ?_
  unfold Arena.addressIn at h
  split at h
  · next nameClass hclass =>
    refine Dialect.usesOnly_of_addressOf ?_ h
    intro name hname
    rcases Arena.exists_text_of_classify hclass with ⟨index, rfl⟩ | ⟨node, text, hnode, htext, hcases⟩
    · rcases hname with h | h | h | h <;> cases h
    · have hsame : name = text := by
        rcases hname with rfl | rfl | rfl | rfl <;>
          rcases hcases with h | h | h | h <;> cases h <;> rfl
      rw [hsame]
      exact hw.texts hnode htext out
  · cases h

omit hw in
/-- A literal for a number has no dollar sign in it. -/
theorem number (value : Binary64) (out : Output) : D.Says (Walker.number value) out :=
  says_ofExcept fun _ h => Text.usesOnly_of_literal h

/-! ### Steps built on the entry points -/

/-- The value is rendered before the line that stores it in the target. -/
theorem assignNode (ht : D.Knows out target) (id : NodeId) : D.Keeps (w.assignNode target id) out := by
  refine (hw.expression id out).then ?_
  intro value middle hmiddle hvalue
  exact keeps_assign (ht.later hmiddle) hvalue

/-- A name that is due is stored with the value of an expression. -/
theorem storeNode (hs : D.Slot out target) (id : NodeId) (hdue : D.Holds (insert target due) out) :
    (w.assignNode target id).Leads out fun _ final => D.Holds due final ∧ D.Knows final target := by
  refine .bind (hw.expression id out _ hdue) ?_
  rintro value middle hmiddle ⟨hholds, hvalue⟩
  exact stores_assign (hs.later hmiddle) hvalue hholds

/-- The value is rendered and stored in a temporary at once. -/
theorem materializeNode (id : NodeId) (out : Output) : D.Says (w.materializeNode id) out := by
  refine (hw.expression id out).bind ?_
  intro value middle _ hvalue
  exact says_materialize hvalue

omit hw in
/-- A reference is returned as it is, anything else goes to a temporary. -/
theorem toReference (h : D.Knows out value) : D.Says (Walker.toReference value) out :=
  says_ite (fun _ => says_pure h) fun _ => says_materialize h

/-- A node is rendered first and made a reference then. -/
theorem reference (id : NodeId) (out : Output) : D.Says (w.reference id) out := by
  refine (hw.expression id out).bind ?_
  intro value middle _ hvalue
  exact toReference hvalue

/-- An argument is the text of its node or a temporary that holds it. -/
theorem argument (id : NodeId) (out : Output) : D.Says (w.argument id) out := by
  refine (hw.expression _ out).bind ?_
  intro value middle _ hvalue
  refine says_node fun node _ => ?_
  exact says_ite (fun _ => says_materialize hvalue) fun _ => says_pure hvalue

/-- The arguments are rendered one by one and joined by commas. -/
theorem arguments (ids : List NodeId) (out : Output) : D.Says (w.arguments ids) out := by
  refine says_mapM (fun id _ middle _ => hw.argument id middle) ?_
  intro rendered middle hrendered
  exact says_pure (.intercalate (by decide) hrendered)

/-- What comes behind the question for loops may count on the discipline to be free. -/
theorem requireLoops {α : Type} {what : String} {next : Unit → Render α}
    {post : α → Output → Prop} (h : D.free → (next ()).Leads out post) :
    (w.requireLoops what >>= next).Leads out post := by
  intro result final hrun
  obtain ⟨_, middle, hasked, hnext⟩ := Render.runOn_bind_eq_ok_iff.mp hrun
  unfold Walker.requireLoops at hasked
  split at hasked
  · next hloops =>
    cases hasked
    exact h (hw.loops hloops) result final hnext
  · exact absurd ⟨out, middle, hasked⟩ Render.not_yields_fault

/-! ### Patterns -/

/-- The slot is stored with the value first, so the default may be assigned to it. -/
theorem withDefault (h : D.Knows out value) (default : Option NodeId) :
    D.Says (w.withDefault value default) out := by
  cases default with
  | none => exact says_pure h
  | some default =>
    refine (says_materialize h).bind ?_
    intro slot middle _ hslot due hdue
    have hguarded : D.Keeps (Render.ifNull slot (w.assignNode slot default)) middle :=
      keeps_ifNull hslot fun later hlater => hw.assignNode (hslot.later hlater) default
    refine .bind (hguarded due hdue) ?_
    intro _ final hfinal hholds
    exact .pure ⟨hholds, hslot.later hfinal⟩

variable (hfree : D.free)
include hfree

/-- A name is assigned, a pattern is expanded from a reference. -/
theorem bindElement (h : D.Knows out value) (name : NodeId) (default : Option NodeId) :
    D.Keeps (w.bindElement name value default) out := by
  refine (hw.withDefault h default).then ?_
  intro value middle _ hvalue
  refine Discipline.keeps_node fun node _ => ?_
  have hpattern : D.Keeps (do
      let source ← Walker.toReference value
      w.expand name source) middle := by
    refine (toReference hvalue).then ?_
    intro source later _ hsource
    exact hw.expand hfree name source later hsource
  split
  · refine (hw.address name middle).then ?_
    intro target later hlater htarget
    exact keeps_assign htarget (hvalue.later hlater)
  · exact hpattern
  · exact hpattern
  · exact keeps_fault _

omit hfree in
/-- The accessor and the key are two texts, and both may be written later. -/
theorem propertyAccess (h : D.Knows out target) (name : NodeId) (key : Option NodeId)
    (hdue : D.Holds due out) :
    (w.propertyAccess target name key).Leads out fun access final =>
      D.Holds due final ∧ D.Knows final access.1 ∧ D.Knows final access.2 := by
  have hnamed : ∀ {id name}, w.arena.get? id = some (.identifier name) →
      D.Knows out (namedAccess target name).1 ∧ D.Knows out (namedAccess target name).2 := by
    intro id name hnode
    have hname := hw.texts hnode (List.mem_singleton.mpr rfl) out
    exact ⟨Text.UsesOnly.between h (by decide) hname, Text.UsesOnly.quote hname⟩
  have hliteral : ∀ {key}, D.Knows out key →
      D.Knows out (literalAccess target key).1 ∧ D.Knows out (literalAccess target key).2 := by
    intro key hkey
    exact ⟨(Text.UsesOnly.between h (by decide) (Text.UsesOnly.quote hkey)).back (by decide),
      Text.UsesOnly.quote hkey⟩
  cases key with
  | none =>
    refine leads_node fun node hnode => ?_
    split
    · exact .pure ⟨hdue, hnamed hnode⟩
    · exact .fault _
  | some key =>
    refine leads_node fun node hnode => ?_
    split
    · exact .pure ⟨hdue, hnamed hnode⟩
    · exact .pure ⟨hdue, hliteral (hw.texts hnode (List.mem_singleton.mpr rfl) out)⟩
    · refine .bindOfExcept fun key hkey => ?_
      exact .pure ⟨hdue, hliteral (Text.usesOnly_of_literal hkey)⟩
    · next expr =>
      refine .bind (hw.reference expr out due hdue) ?_
      rintro key middle hmiddle ⟨hholds, hkey⟩
      have h := h.later hmiddle
      exact .pure ⟨hholds, (Text.UsesOnly.between h (by decide) hkey).back (by decide), hkey⟩
    · exact .fault _

omit hw in
/-- Both temporaries are stored at once: one by an assignment, the other by the loop. -/
theorem objectRest (h : D.Knows out value) {keys : List String} (hkeys : ∀ key ∈ keys, D.Knows out key) :
    D.Says (Walker.objectRest value keys) out := by
  intro due hdue
  refine .bind (leads_freshTemp hdue) ?_
  rintro rest fresh hfresh ⟨hholds, hslot⟩
  refine .bind (stores_assign hslot (knows_tail (by decide)) hholds) ?_
  rintro _ stored hstored ⟨hholds, hrest⟩
  refine .bind (leads_freshTemp hholds) ?_
  rintro key allocated hallocated ⟨hholds, hslot⟩
  have hsource := ((h.later hfresh).later hstored).later hallocated
  refine .bind (stores_openLoop hfree hslot (hsource.back (by decide)) hholds) ?_
  rintro _ opened hopened ⟨hholds, hkey⟩
  have hrest := (hrest.later hallocated).later hopened
  have hsource := hsource.later hopened
  have hput : D.Knows opened s!"{rest}.put({key}, {value}.get({key}))" :=
    (((hrest.between (by decide) hkey).between (by decide) hsource).between (by decide) hkey).back
      (by decide)
  have hdone : ∀ middle, opened.Extends middle → D.Says (do
      Render.close
      return rest) middle := by
    intro middle hmiddle due hdue
    refine .bind (keeps_close due hdue) ?_
    intro _ final hfinal hholds
    exact .pure ⟨hholds, (hrest.later hmiddle).later hfinal⟩
  have hcopy : ∀ middle, opened.Extends middle →
      D.Keeps (Render.discard s!"{rest}.put({key}, {value}.get({key}))") middle :=
    fun middle hmiddle => keeps_discard (hput.later hmiddle)
  cases keys with
  | nil => exact (hcopy opened (.refl opened)).saying (fun _ middle hmiddle => hdone middle hmiddle) due hholds
  | cons first others =>
    have htests : D.Knows opened
        (" && ".intercalate ((first :: others).map fun k => s!"{key} != {k}")) := by
      refine Text.UsesOnly.intercalate (by decide) ?_
      intro text hm
      obtain ⟨k, hk, rfl⟩ := List.mem_map.mp hm
      have hother := (((hkeys k hk).later hfresh).later hstored).later (hallocated.trans hopened)
      exact hkey.between (by decide) hother
    exact (keeps_guarded htests hcopy).saying (fun _ middle hmiddle => hdone middle hmiddle) due hholds

/-- The keys that have been met may be written as long as the rest is rendered. -/
theorem bindObjectElement (h : D.Knows out target) (state : List String × Option NodeId)
    (element : NodeId) (hstate : ∀ key ∈ state.1, D.Knows out key) (hdue : D.Holds due out) :
    (w.bindObjectElement target state element).Leads out fun state final =>
      D.Holds due final ∧ ∀ key ∈ state.1, D.Knows final key := by
  refine leads_node fun node _ => ?_
  split
  · exact .pure ⟨hdue, hstate⟩
  · next name key default _ =>
    refine .bind (hw.propertyAccess h name key hdue) ?_
    rintro access middle hmiddle ⟨hholds, haccessor, hkey⟩
    refine .bind (hw.bindElement hfree haccessor name default due hholds) ?_
    intro _ final hfinal hholds
    refine .pure ⟨hholds, ?_⟩
    intro key hm
    rcases List.mem_append.mp hm with hm | hm
    · exact ((hstate key hm).later hmiddle).later hfinal
    · rw [List.mem_singleton.mp hm]
      exact hkey.later hfinal
  · exact .fault _

/-- The keys of all elements may be written when the remainder is. -/
theorem expandObject (h : D.Knows out target) (elements : List NodeId) :
    D.Keeps (w.expandObject elements target) out := by
  intro due hdue
  have hfixed : (elements.foldlM (w.bindObjectElement target) ([], none)).Leads out
      fun state final => D.Holds due final ∧ ∀ key ∈ state.1, D.Knows final key := by
    refine .foldlM (fun state element _ middle hmiddle hstate => ?_) ⟨hdue, by simp⟩
    exact hw.bindObjectElement hfree (h.later hmiddle) state element hstate.2 hstate.1
  refine .bind hfixed ?_
  rintro ⟨keys, rest⟩ middle hmiddle ⟨hholds, hkeys⟩
  cases rest with
  | none => exact .pure hholds
  | some name =>
    refine Says.then (objectRest hfree (h.later hmiddle) hkeys) ?_ due hholds
    intro remainder final _ hremainder
    exact hw.bindElement hfree hremainder name none

/-- A position is a fixed text, so only the source is mentioned. -/
theorem bindArrayElement (h : D.Knows out target) (rest : Option (Nat × NodeId))
    (element : NodeId × Nat) : D.Keeps (w.bindArrayElement target rest element) out := by
  refine Discipline.keeps_node fun node _ => ?_
  split
  · exact keeps_pure rest
  · exact keeps_pure _
  · next name _ default _ =>
    have hposition : D.Knows out (toString element.2) := Text.usesOnly_toString element.2
    have hitem : D.Knows out s!"{target}[{element.2}]" :=
      (h.between (by decide) hposition).back (by decide)
    refine (hw.bindElement hfree hitem name default).bind ?_
    intro _ _ _
    exact keeps_pure rest
  · exact keeps_fault _

/-- The elements come first and the remainder last; both read the source. -/
theorem expandArray (h : D.Knows out target) (elements : List NodeId) :
    D.Keeps (w.expandArray elements target) out := by
  have hfixed : D.Keeps (elements.zipIdx.foldlM (w.bindArrayElement target) none) out :=
    fun due hdue => .foldlM (fun rest element _ middle hmiddle =>
      hw.bindArrayElement hfree (h.later hmiddle) rest element due) hdue
  refine hfixed.bind ?_
  intro rest middle hmiddle
  split
  · exact keeps_pure ()
  · next start name =>
    have h := h.later hmiddle
    have hstart : D.Knows middle (toString start) := Text.usesOnly_toString start
    have hitems : D.Knows middle s!"{target}.subList({start}, {target}.size())" :=
      ((h.between (by decide) hstart).between (by decide) h).back (by decide)
    exact hw.bindElement hfree hitems name none

/-- The source of a pattern may be written when it is expanded. -/
theorem expandPattern (pattern : NodeId) (h : D.Knows out target) :
    D.Keeps (w.expandPattern pattern target) out := by
  refine Discipline.keeps_node fun node _ => ?_
  split
  · exact hw.expandObject hfree h _
  · exact hw.expandArray hfree h _
  · exact keeps_fault _

/-- A parameter is bound to a text that may be written, and its default is assigned to its
address. -/
theorem bindParameter (parameter : NodeId) (h : D.Knows out value) :
    D.Keeps (w.bindParameter parameter value) out := by
  refine Discipline.keeps_node fun node _ => ?_
  split
  · next name default _ =>
    refine Discipline.keeps_node fun node _ => ?_
    split
    · refine (hw.address name out).then ?_
      intro target middle hmiddle htarget
      have hassign : D.Keeps (Render.assign target value) middle :=
        keeps_assign htarget (h.later hmiddle)
      cases default with
      | none => exact keeps_ite (fun _ => hassign.bind fun _ _ _ => keeps_pure ()) fun _ => keeps_pure ()
      | some default =>
        have hdefault : ∀ later, middle.Extends later →
            D.Keeps (Render.ifNull target (w.assignNode target default)) later :=
          fun later hlater => keeps_ifNull (htarget.later hlater) fun last hlast =>
            hw.assignNode ((htarget.later hlater).later hlast) default
        exact keeps_ite (fun _ => hassign.bind fun _ later hlater => hdefault later hlater)
          fun _ => hdefault middle (.refl middle)
    · exact hw.bindElement hfree h name default
  · exact keeps_fault _

/-! ### The loop of a chain -/

omit hfree in
/-- The variable of a loop is due, unless it is the parameter itself. -/
theorem loopVariable (parameter : Option NodeId) (hdue : D.Holds due out) :
    (w.loopVariable parameter).Leads out fun item final =>
      D.Holds (insert item due) final ∧ D.Slot final item := by
  cases parameter with
  | none => exact leads_freshTemp hdue
  | some parameter =>
    refine leads_node fun node _ => ?_
    split
    · next name _ =>
      refine leads_node fun node _ => ?_
      split
      · refine (hw.address name out due hdue).mono ?_
        rintro item final - ⟨hholds, hitem⟩
        exact ⟨D.weaken hholds hitem, .inl hitem⟩
      · exact leads_freshTemp hdue
    · exact leads_freshTemp hdue

/-- The position of an item is the counter of the loop, which is no temporary. -/
theorem bindItemParameters {item list : String} (parameters : List NodeId)
    (hitem : D.Knows out item) (hlist : D.Knows out list) :
    D.Keeps (w.bindItemParameters parameters item list) out := by
  refine keeps_forM fun binding hm middle hmiddle => ?_
  refine hw.bindParameter hfree binding.1 ?_
  have hsource : binding.2 ∈ [item, loopIndex, list] := (List.of_mem_zip hm).2
  have hall : ∀ source ∈ [item, loopIndex, list], D.Knows out source := by
    simp only [List.forall_mem_cons, List.not_mem_nil, false_imp_iff, implies_true, and_true]
    exact ⟨hitem, knows_tail (by decide), hlist⟩
  exact (hall _ hsource).later hmiddle

/-- The slot is stored with null in front of the body, so that returns may assign to it. -/
theorem callbackBody (body : NodeId) (out : Output) : D.Says (w.callbackBody body) out := by
  refine says_node fun node _ => ?_
  split
  · intro due hdue
    refine .bind (leads_freshTemp hdue) ?_
    rintro slot fresh - ⟨hholds, hslot⟩
    refine .bind (stores_assign hslot (knows_tail (by decide)) hholds) ?_
    rintro _ stored - ⟨hholds, hslot⟩
    have hstatement : D.Keeps (w.statement body (some slot)) stored := by
      refine hw.statement hfree body (some slot) stored ?_
      rintro target ⟨⟩
      exact hslot
    refine .bind (hstatement due hholds) ?_
    intro _ final hfinal hholds
    exact .pure ⟨hholds, hslot.later hfinal⟩
  · exact hw.materializeNode body out

/-- The stages of a chain store the item of their consumer. -/
theorem renderStages {header : String → String → Render Unit} (hheader : D.OpensLoop header)
    (source : NodeId) (stages : List ListCall) {item : String} (hs : D.Slot out item)
    (hdue : D.Holds (insert item due) out) :
    (w.renderStages source header stages item).Leads out fun list final =>
      D.Holds due final ∧ D.Knows final list ∧ D.Knows final item := by
  induction stages generalizing item due out with
  | nil =>
    refine .bind (hw.reference source out _ hdue) ?_
    rintro list middle hmiddle ⟨hholds, hlist⟩
    refine .bind (hheader item list due middle (hs.later hmiddle) hlist hholds) ?_
    rintro _ final hfinal ⟨hholds, hitem⟩
    exact .pure ⟨hholds, hlist.later hfinal, hitem⟩
  | cons stage inner ih =>
    refine .bind (hw.loopVariable _ hdue) ?_
    rintro stageItem fresh hfresh ⟨hholds, hslot⟩
    refine .bind (ih hslot hholds) ?_
    rintro list opened hopened ⟨hholds, hlist, hstage⟩
    refine .bind (hw.bindItemParameters hfree stage.parameters hstage hlist _ hholds) ?_
    intro _ bound hbound hholds
    refine .bind (hw.callbackBody hfree stage.body bound _ hholds) ?_
    rintro value middle hmiddle ⟨hholds, hvalue⟩
    have hs := (((hs.later hfresh).later hopened).later hbound).later hmiddle
    refine .bind (stores_assign hs hvalue hholds) ?_
    rintro _ final hfinal ⟨hholds, hitem⟩
    exact .pure ⟨hholds, ((hlist.later hbound).later hmiddle).later hfinal, hitem⟩

/-- The item is due while the stages inside are rendered, and the header stores it. -/
theorem loopOver {header : String → String → Render Unit} (hheader : D.OpensLoop header)
    (receiver : NodeId) (consumerReadsList : Bool) {item : String} (hs : D.Slot out item)
    (hdue : D.Holds (insert item due) out) :
    (w.loopOver receiver item consumerReadsList header).Leads out fun list final =>
      D.Holds due final ∧ D.Knows final list ∧ D.Knows final item :=
  hw.renderStages hfree hheader _ _ hs hdue

omit hw in
/-- The plain header of a loop stores its item. -/
theorem opensLoop_openLoop : D.OpensLoop Render.openLoop :=
  fun _ _ _ _ hs hlist hdue => stores_openLoop hfree hs hlist hdue

/-- A new loop variable is due from its choice to the header of the loop. -/
theorem itemLoop (c : ListCall) (out : Output) : D.Says (w.itemLoop c) out := by
  intro due hdue
  refine .bind (hw.loopVariable _ hdue) ?_
  rintro item fresh - ⟨hholds, hslot⟩
  refine .bind (hw.loopOver hfree (opensLoop_openLoop hfree) c.receiver _ hslot hholds) ?_
  rintro list opened - ⟨hholds, hlist, hitem⟩
  refine .bind (hw.bindItemParameters hfree c.parameters hitem hlist due hholds) ?_
  intro _ final hfinal hholds
  exact .pure ⟨hholds, hitem.later hfinal⟩

/-! ### Consumers -/

omit hw hfree in
/-- A list under construction is stored before anything is rendered into it. -/
theorem collecting {next : String → Render String}
    (h : ∀ list middle, D.Knows middle list → D.Says (next list) middle) (out : Output) :
    D.Says (do
      let list ← Render.freshTemp
      Render.assign list "[]"
      next list) out := by
  intro due hdue
  refine .bind (leads_freshTemp hdue) ?_
  rintro list fresh - ⟨hholds, hslot⟩
  refine .bind (stores_assign hslot (knows_tail (by decide)) hholds) ?_
  rintro _ stored - ⟨hholds, hlist⟩
  exact h list stored hlist due hholds

/-- The list is stored empty before the loop that adds to it is opened. -/
theorem mapLoop (c : ListCall) (out : Output) : D.Says (w.mapLoop c) out := by
  refine collecting ?_ out
  intro list middle hlist
  refine (hw.itemLoop hfree c middle).bind ?_
  intro _ opened hopened _
  refine (hw.callbackBody hfree c.body opened).bind ?_
  intro value rendered hrendered hvalue
  have hlist := (hlist.later hopened).later hrendered
  have hadd : D.Keeps (Render.discard s!"{list}.add({value})") rendered :=
    keeps_discard ((hlist.between (by decide) hvalue).back (by decide))
  refine hadd.saying ?_
  intro _ added hadded
  refine keeps_close.saying ?_
  intro _ final hfinal
  exact says_pure ((hlist.later hadded).later hfinal)

/-- A loop for effects says the text of null. -/
theorem forEachLoop (c : ListCall) (out : Output) : D.Says (w.forEachLoop c) out := by
  refine (hw.itemLoop hfree c out).bind ?_
  intro _ opened _ _
  refine (hw.callbackBody hfree c.body opened).bind ?_
  intro _ rendered _ _
  refine keeps_close.saying ?_
  intro _ final _
  exact says_pure (knows_tail (by decide))

/-- The list is stored first; the item and the condition may be written within the loop. -/
theorem filterLoop (c : ListCall) (out : Output) : D.Says (w.filterLoop c) out := by
  refine collecting ?_ out
  intro list middle hlist
  refine (hw.itemLoop hfree c middle).bind ?_
  intro item opened hopened hitem
  refine (hw.callbackBody hfree c.body opened).bind ?_
  intro keep rendered hrendered hkeep
  have hlist := (hlist.later hopened).later hrendered
  have hitem := hitem.later hrendered
  have hadd : D.Knows rendered s!"{list}.add({item})" :=
    (hlist.between (by decide) hitem).back (by decide)
  have hguarded : D.Keeps (Render.guarded keep (Render.discard s!"{list}.add({item})")) rendered :=
    keeps_guarded hkeep fun later hlater => keeps_discard (hadd.later hlater)
  refine hguarded.saying ?_
  intro _ added hadded
  refine keeps_close.saying ?_
  intro _ final hfinal
  exact says_pure ((hlist.later hadded).later hfinal)

omit hw in
/-- The test for an empty list mentions the list alone. -/
theorem emptyReduceGuard {list : String} (h : D.Knows out list) :
    D.Keeps (Walker.emptyReduceGuard list) out :=
  keeps_guarded (h.back (by decide)) fun _ _ =>
    keeps_emit (D.permits_of_free hfree _) (knows_tail (by decide))

/-- The accumulator and the item may be written when the callback is rendered, and so may the
accumulator when its value is assigned. -/
theorem reduceStep (c : ListCall) {acc item list : String} (hacc : D.Knows out acc)
    (hitem : D.Knows out item) (hlist : D.Knows out list) :
    D.Keeps (w.reduceStep c acc item list) out := by
  have hsources : ∀ source ∈ [acc, item, loopIndex, list], D.Knows out source := by
    simp only [List.forall_mem_cons, List.not_mem_nil, false_imp_iff, implies_true, and_true]
    exact ⟨hacc, hitem, knows_tail (by decide), hlist⟩
  refine Discipline.Keeps.bind (keeps_forM fun binding hm middle hmiddle =>
    hw.bindParameter hfree binding.1 ((hsources _ (List.of_mem_zip hm).2).later hmiddle)) ?_
  intro _ bound hbound
  refine (hw.callbackBody hfree c.body bound).then ?_
  intro value middle hmiddle hvalue
  exact keeps_assign ((hacc.later hbound).later hmiddle) hvalue

/-- Without a seed the accumulator is stored by both branches within the loop, so it is due while
the loop is opened. -/
theorem reduceLoop (c : ListCall) (initial : Option NodeId) (out : Output) :
    D.Says (w.reduceLoop c initial) out := by
  have hclose : ∀ {acc : String} {middle : Output}, D.Knows middle acc → D.Says (do
      Render.close
      return acc) middle := by
    intro acc middle hacc
    refine keeps_close.saying ?_
    intro _ final hfinal
    exact says_pure (hacc.later hfinal)
  intro due hdue
  refine .bind (leads_freshTemp hdue) ?_
  rintro acc fresh - ⟨hholds, hslot⟩
  cases initial with
  | none =>
    -- the accumulator is due until the first round stores it
    have hheader : D.OpensLoop fun item list =>
        Walker.emptyReduceGuard list >>= fun _ => Render.openLoop item list := by
      intro item list due out hs hlist hdue
      refine .bind (emptyReduceGuard hfree hlist _ hdue) ?_
      intro _ middle hmiddle hholds
      exact stores_openLoop hfree (hs.later hmiddle) (hlist.later hmiddle) hholds
    apply Render.Leads.bind (hw.loopVariable _ hholds)
    rintro item allocated hallocated ⟨hholds, hitem⟩
    apply Render.Leads.bind (hw.loopOver hfree hheader c.receiver _ hitem hholds)
    rintro list opened hopened ⟨hholds, hlist, hitem⟩
    have hslot := (hslot.later hallocated).later hopened
    refine .bind (stores_choice (knows_tail (by decide)) hholds ?_ ?_) ?_
    · intro middle hmiddle hholds
      exact stores_assign (hslot.later hmiddle) (hitem.later hmiddle) hholds
    · intro middle hmiddle hacc
      exact hw.reduceStep hfree c hacc (hitem.later hmiddle) (hlist.later hmiddle)
    · rintro _ final - ⟨hholds, hacc⟩
      exact hclose hacc due hholds
  -- with an initial value the accumulator is stored before the loop is opened
  | some initial =>
    refine .bind (hw.storeNode hslot initial hholds) ?_
    rintro _ stored - ⟨hholds, hacc⟩
    apply Render.Leads.bind (hw.loopVariable _ hholds)
    rintro item allocated hallocated ⟨hholds, hitem⟩
    refine .bind (hw.loopOver hfree (opensLoop_openLoop hfree) c.receiver _ hitem hholds) ?_
    rintro list opened hopened ⟨hholds, hlist, hitem⟩
    have hacc := (hacc.later hallocated).later hopened
    refine .bind (hw.reduceStep hfree c hacc hitem hlist due hholds) ?_
    intro _ final hfinal hholds
    exact hclose (hacc.later hfinal) due hholds

end Walker.Follows

end ClosureVtl
