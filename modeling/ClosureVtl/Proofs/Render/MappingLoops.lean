/-
Module: ClosureVtl.Proofs.Render.MappingLoops
Purpose: Which mapping templates have a loop.
Main exports:
  Arena.lastRest, Arena.CopiesRest, Render.Adds, Walker.Mutes, Program.lines_of_render,
  mapping_loops_iff
-/
import ClosureVtl.Proofs.Render.LoopCount
import ClosureVtl.Proofs.Render.MappingLines

namespace ClosureVtl

/-!
The mapping dialect refuses loop statements, what leaves a loop, and list operations before
they write a line.  A pattern asks nobody: its rest element is the other keys of a map, which
are copied one by one.  So whether a mapping template has a loop can be told from the patterns
in its declarations.
-/

/-! ### Patterns with a rest element -/

namespace Arena

/-- The rest element of a pattern so far, when one more element is read. -/
def restBehind (a : Arena) (rest : Option NodeId) (element : NodeId) : Option NodeId :=
  match a.get? element with
  | some (.binding name _ _ true) => some name
  | _ => rest

/-- The rest element of a pattern: the last of those that are marked so. -/
def lastRest (a : Arena) (elements : List NodeId) : Option NodeId :=
  elements.foldl a.restBehind none

/-- Whether a pattern, or a statement with a pattern in it, copies the rest of a map. -/
inductive CopiesRest (a : Arena) : NodeId → Prop where
  | rest {id : NodeId} {elements : List NodeId} (node : a.get? id = some (.objectPattern elements))
      (found : (a.lastRest elements).isSome = true) : CopiesRest a id
  | inObject {id element name : NodeId} {key default : Option NodeId} {elements : List NodeId}
      (node : a.get? id = some (.objectPattern elements)) (mem : element ∈ elements)
      (binding : a.get? element = some (.binding name key default false))
      (inner : CopiesRest a name) : CopiesRest a id
  | inArray {id element name : NodeId} {key default : Option NodeId} {elements : List NodeId}
      (node : a.get? id = some (.arrayPattern elements)) (mem : element ∈ elements)
      (binding : a.get? element = some (.binding name key default false))
      (inner : CopiesRest a name) : CopiesRest a id
  | inArrayRest {id name : NodeId} {elements : List NodeId}
      (node : a.get? id = some (.arrayPattern elements)) (found : a.lastRest elements = some name)
      (inner : CopiesRest a name) : CopiesRest a id
  | declaration {id name value : NodeId} {kind : DeclKind}
      (node : a.get? id = some (.declaration kind name (some value)))
      (inner : CopiesRest a name) : CopiesRest a id
  | block {id statement : NodeId} {statements : List NodeId}
      (node : a.get? id = some (.block statements)) (mem : statement ∈ statements)
      (inner : CopiesRest a statement) : CopiesRest a id
  | yes {id test yes : NodeId} {no : Option NodeId}
      (node : a.get? id = some (.branch test yes no)) (inner : CopiesRest a yes) : CopiesRest a id
  | no {id test yes no : NodeId} (node : a.get? id = some (.branch test yes (some no)))
      (inner : CopiesRest a no) : CopiesRest a id

/-- Whether an element of a pattern, other than the rest, binds a pattern that does so. -/
def ElementCopies (a : Arena) (element : NodeId) : Prop :=
  ∃ name key default, a.get? element = some (.binding name key default false) ∧ a.CopiesRest name

variable {a : Arena} {id : NodeId}

/-- Other nodes than patterns, declarations, blocks and branches copy nothing. -/
theorem CopiesRest.shape (h : a.CopiesRest id) :
    (∃ elements, a.get? id = some (.objectPattern elements)) ∨
      (∃ elements, a.get? id = some (.arrayPattern elements)) ∨
      (∃ kind name value, a.get? id = some (.declaration kind name (some value))) ∨
      (∃ statements, a.get? id = some (.block statements)) ∨
      ∃ test yes no, a.get? id = some (.branch test yes no) := by
  cases h with
  | rest node | inObject node => exact .inl ⟨_, node⟩
  | inArray node | inArrayRest node => exact .inr (.inl ⟨_, node⟩)
  | declaration node => exact .inr (.inr (.inl ⟨_, _, _, node⟩))
  | block node => exact .inr (.inr (.inr (.inl ⟨_, node⟩)))
  | yes node | no node => exact .inr (.inr (.inr (.inr ⟨_, _, _, node⟩)))

section

variable {elements statements : List NodeId} {test yes name : NodeId} {no value : Option NodeId}
  {kind : DeclKind}

/-- An object pattern copies a rest of its own, or one of its elements does. -/
theorem copiesRest_objectPattern_iff (h : a.get? id = some (.objectPattern elements)) :
    a.CopiesRest id ↔
      (∃ element ∈ elements, a.ElementCopies element) ∨
      (a.lastRest elements).isSome = true := by
  constructor
  · intro hcopies
    cases hcopies with
    | rest node found =>
      cases Option.some.inj (h.symm.trans node)
      exact .inr found
    | inObject node mem binding inner =>
      cases Option.some.inj (h.symm.trans node)
      exact .inl ⟨_, mem, _, _, _, binding, inner⟩
    | inArray node | inArrayRest node | declaration node | block node | yes node | no node =>
      cases h.symm.trans node
  · rintro (⟨element, mem, name, key, default, binding, inner⟩ | found)
    · exact .inObject h mem binding inner
    · exact .rest h found

/-- The rest of an array is read by an index, so it copies only what its own pattern copies. -/
theorem copiesRest_arrayPattern_iff (h : a.get? id = some (.arrayPattern elements)) :
    a.CopiesRest id ↔
      (∃ element ∈ elements, a.ElementCopies element) ∨
      ∃ name ∈ a.lastRest elements, a.CopiesRest name := by
  constructor
  · intro hcopies
    cases hcopies with
    | inArray node mem binding inner =>
      cases Option.some.inj (h.symm.trans node)
      exact .inl ⟨_, mem, _, _, _, binding, inner⟩
    | inArrayRest node found inner =>
      cases Option.some.inj (h.symm.trans node)
      exact .inr ⟨_, found, inner⟩
    | rest node | inObject node | declaration node | block node | yes node | no node =>
      cases h.symm.trans node
  · rintro (⟨element, mem, name, key, default, binding, inner⟩ | ⟨name, found, inner⟩)
    · exact .inArray h mem binding inner
    · exact .inArrayRest h found inner

/-- A declaration without a value expands no pattern. -/
theorem copiesRest_declaration_iff (h : a.get? id = some (.declaration kind name value)) :
    a.CopiesRest id ↔ value.isSome = true ∧ a.CopiesRest name := by
  constructor
  · intro hcopies
    cases hcopies with
    | declaration node inner =>
      cases Option.some.inj (h.symm.trans node)
      exact ⟨rfl, inner⟩
    | rest node | inObject node | inArray node | inArrayRest node | block node | yes node | no node =>
      cases h.symm.trans node
  · rintro ⟨hvalue, inner⟩
    obtain ⟨value, rfl⟩ := Option.isSome_iff_exists.mp hvalue
    exact .declaration h inner

/-- A block copies what its statements copy. -/
theorem copiesRest_block_iff (h : a.get? id = some (.block statements)) :
    a.CopiesRest id ↔ ∃ statement ∈ statements, a.CopiesRest statement := by
  constructor
  · intro hcopies
    cases hcopies with
    | block node mem inner =>
      cases Option.some.inj (h.symm.trans node)
      exact ⟨_, mem, inner⟩
    | rest node | inObject node | inArray node | inArrayRest node | declaration node | yes node
    | no node => cases h.symm.trans node
  · rintro ⟨statement, mem, inner⟩
    exact .block h mem inner

/-- A branch copies what either side copies. -/
theorem copiesRest_branch_iff (h : a.get? id = some (.branch test yes no)) :
    a.CopiesRest id ↔ a.CopiesRest yes ∨ ∃ other ∈ no, a.CopiesRest other := by
  constructor
  · intro hcopies
    cases hcopies with
    | yes node inner =>
      cases Option.some.inj (h.symm.trans node)
      exact .inl inner
    | no node inner =>
      cases Option.some.inj (h.symm.trans node)
      exact .inr ⟨_, rfl, inner⟩
    | rest node | inObject node | inArray node | inArrayRest node | declaration node | block node =>
      cases h.symm.trans node
  · rintro (inner | ⟨other, rfl, inner⟩)
    · exact .yes h inner
    · exact .no h inner

end

end Arena

/-! ### Lines that are added -/

/-- Whether every run of a step that ends well appends lines of a kind, with a loop among them
exactly if told so. -/
def Render.Adds {α : Type} (kind : String → Prop) (loops : Prop) (x : Render α) : Prop :=
  ∀ out value final, x.runOn out = (.ok value, final) →
    ∃ lines, final.lines.toList = out.lines.toList ++ lines ∧ (∀ line ∈ lines, kind line) ∧
      ((∃ line ∈ lines, lineRole line = .loop) ↔ loops)

namespace Render.Adds

variable {α β σ : Type} {kind other : String → Prop} {loops more : Prop} {x : Render α}
  {f : α → Render β} {line : String}

/-- A step that never ends well has no run to speak of. -/
theorem none (h : ∀ value, ¬ x.Yields value) : x.Adds kind loops :=
  fun out value final hrun => absurd ⟨out, final, hrun⟩ (h value)

/-- A fault is such a step. -/
theorem fault (cause : Fault) : (fault cause : Render α).Adds kind loops :=
  none fun _ => not_yields_fault

/-- What decides about the loops may be said in another way. -/
theorem congr (h : x.Adds kind loops) (hiff : loops ↔ more) : x.Adds kind more := by
  intro out value final hrun
  obtain ⟨lines, hlines, hkind, hloops⟩ := h out value final hrun
  exact ⟨lines, hlines, hkind, hloops.trans hiff⟩

/-- Lines of a kind are lines of a wider one. -/
theorem mono (h : x.Adds kind loops) (himp : ∀ line, kind line → other line) :
    x.Adds other loops := by
  intro out value final hrun
  obtain ⟨lines, hlines, hkind, hloops⟩ := h out value final hrun
  exact ⟨lines, hlines, fun line hm => himp line (hkind line hm), hloops⟩

/-- Returning a value adds no line. -/
theorem pure (value : α) : (pure value : Render α).Adds kind False := by
  intro out result final hrun
  rw [runOn_pure] at hrun
  cases hrun
  exact ⟨[], (List.append_nil _).symm, by simp, by simp⟩

/-- Two steps have a loop if one of them has; the second may count on a value that the first
yields. -/
theorem bind (first : x.Adds kind loops) (next : ∀ value, x.Yields value → (f value).Adds kind more) :
    (x >>= f).Adds kind (loops ∨ more) := by
  intro out result final hrun
  obtain ⟨value, middle, hx, hf⟩ := runOn_bind_eq_ok_iff.mp hrun
  obtain ⟨lines, hlines, hkind, hloops⟩ := first out value middle hx
  obtain ⟨behind, hbehind, hkind', hloops'⟩ := next value ⟨out, middle, hx⟩ middle result final hf
  refine ⟨lines ++ behind, ?_, ?_, ?_⟩
  · rw [hbehind, hlines, List.append_assoc]
  · intro line hm
    exact (List.mem_append.mp hm).elim (hkind line) (hkind' line)
  · rw [← hloops, ← hloops']
    constructor
    · rintro ⟨line, hm, hrole⟩
      exact (List.mem_append.mp hm).imp (fun hm => ⟨line, hm, hrole⟩) fun hm => ⟨line, hm, hrole⟩
    · rintro (⟨line, hm, hrole⟩ | ⟨line, hm, hrole⟩)
      · exact ⟨line, List.mem_append_left _ hm, hrole⟩
      · exact ⟨line, List.mem_append_right _ hm, hrole⟩

/-- What comes behind a step without loops decides. -/
theorem behind (first : x.Adds kind False) (next : ∀ value, x.Yields value → (f value).Adds kind loops) :
    (x >>= f).Adds kind loops :=
  (first.bind next).congr (by simp)

/-- An emitted line is a loop if its role is one. -/
theorem emit (h : kind line) : (emit line).Adds kind (lineRole line = .loop) := by
  intro out value final hrun
  rw [runOn_emit_eq_ok_iff.mp hrun]
  exact ⟨[line], Array.toList_push, by simpa using h, by simp⟩

/-- Steps over items have a loop if the step over one of them has. -/
theorem forM {items : List α} {f : α → Render PUnit} {loops : α → Prop}
    (h : ∀ item ∈ items, (f item).Adds kind (loops item)) :
    (items.forM f).Adds kind (∃ item ∈ items, loops item) := by
  induction items with
  | nil => exact (pure _).congr (by simp)
  | cons item rest ih =>
    refine congr (bind (h item List.mem_cons_self) fun _ _ =>
      ih fun item hm => h item (List.mem_cons_of_mem _ hm)) ?_
    simp

/-- Steps that hand a state on, of which a part is known beforehand. -/
theorem foldlM {items : List α} {f : σ → α → Render σ} {loops : α → Prop} (part : σ → β)
    (step : β → α → β)
    (h : ∀ state, ∀ item ∈ items, (f state item).Adds kind (loops item) ∧
      ∀ next, (f state item).Yields next → part next = step (part state) item) (start : σ) :
    (items.foldlM f start).Adds kind (∃ item ∈ items, loops item) ∧
      ∀ last, (items.foldlM f start).Yields last → part last = items.foldl step (part start) := by
  induction items generalizing start with
  | nil =>
    refine ⟨(pure start).congr (by simp), fun last hlast => ?_⟩
    rw [← yields_pure_iff.mp hlast]
    rfl
  | cons item rest ih =>
    obtain ⟨hadds, hpart⟩ := h start item List.mem_cons_self
    have hrest := ih fun state item hm => h state item (List.mem_cons_of_mem _ hm)
    rw [List.foldlM_cons]
    constructor
    · refine congr (bind hadds fun state _ => (hrest state).1) ?_
      simp
    · intro last hlast
      obtain ⟨state, hstate, hlast⟩ := hlast.of_bind
      rw [(hrest state).2 last hlast, hpart state hstate]
      rfl

/-- A step that respects disciplines without loops writes no loop and prints nothing. -/
theorem of_keeps (h : ∀ start out, (Discipline.still start).Keeps x out) : x.Adds Mute False := by
  intro out value final hrun
  have hstart : (Discipline.still out).Holds ∅ out := ⟨[], (List.append_nil _).symm, by simp⟩
  obtain ⟨-, lines, hlines, hall⟩ := h out out ∅ hstart value final hrun
  refine ⟨lines, hlines, fun line hm => (hall line hm).1, ?_⟩
  rw [iff_false]
  rintro ⟨line, hm, hrole⟩
  exact (hall line hm).2 hrole

end Render.Adds

/-! ### Patterns in a mapping template -/

/-- Whether a walker of mapping templates writes lines that print nothing, and loops for the
patterns that copy the rest of a map only. -/
structure Walker.Mutes (w : Walker) : Prop where
  still : ∀ start, w.Follows (.still start)
  expand : ∀ pattern target, (w.expand pattern target).Adds Mute (w.arena.CopiesRest pattern)

namespace Walker.Mutes

open Render Discipline

variable {w : Walker} (hw : w.Mutes)
include hw

/-- A mapping template asks for loops before it opens one, so an expression has none. -/
theorem expression (id : NodeId) : (w.expression id).Adds Mute False :=
  .of_keeps fun start out => ((hw.still start).expression id out).keeps

/-- Neither has a fragment. -/
theorem fragment (id : NodeId) : (w.fragment id).Adds Mute False :=
  .of_keeps fun start out => ((hw.still start).fragment id out).keeps

/-- Neither has a reference. -/
theorem reference (id : NodeId) : (w.reference id).Adds Mute False :=
  .of_keeps fun start out => ((hw.still start).reference id out).keeps

omit hw in
/-- A known result writes nothing. -/
theorem ofExcept {α : Type} (result : Except Fault α) : (Render.ofExcept result).Adds Mute False :=
  .of_keeps fun _ _ => keeps_ofExcept

omit hw in
/-- An assignment is a mute line and no loop. -/
theorem assign (target value : String) : (Render.assign target value).Adds Mute False :=
  (Adds.emit (mute_assign target value)).congr (by simp [lineRole_assign])

omit hw in
/-- A value may be moved to a temporary, without a loop. -/
theorem toReference (value : String) : (Walker.toReference value).Adds Mute False :=
  .of_keeps fun _ _ => (Follows.toReference fun _ _ => trivial).keeps

/-- A bound element has the loops of the pattern in its place. -/
theorem bindElement (name : NodeId) (value : String) (default : Option NodeId) :
    (w.bindElement name value default).Adds Mute (w.arena.CopiesRest name) := by
  have hdefault : (w.withDefault value default).Adds Mute False :=
    .of_keeps fun start _ => ((hw.still start).withDefault (fun _ _ => trivial) default).keeps
  refine hdefault.behind fun value _ => ?_
  refine (ofExcept _).behind fun node hnode => ?_
  have hnode := yields_node_iff.mp hnode
  have hpattern : Adds Mute (w.arena.CopiesRest name) (do
      let source ← Walker.toReference value
      w.expand name source) :=
    (toReference value).behind fun source _ => hw.expand name source
  cases node with
  | identifier text =>
    refine (ofExcept _).behind fun target _ => (assign target value).congr ?_
    rw [false_iff]
    intro hcopies
    rcases hcopies.shape with ⟨_, h⟩ | ⟨_, h⟩ | ⟨_, _, _, h⟩ | ⟨_, h⟩ | ⟨_, _, _, h⟩ <;>
      cases hnode.symm.trans h
  | objectPattern elements => exact hpattern
  | arrayPattern elements => exact hpattern
  | _ => exact .fault _

omit hw in
/-- The rest of a map is copied in a loop. -/
theorem objectRest (source : String) (keys : List String) :
    (Walker.objectRest source keys).Adds Mute True := by
  have hfresh : freshTemp.Adds Mute False := .of_keeps fun _ _ _ hdue => by
    refine (leads_freshTemp hdue).mono ?_
    intro _ _ _ hfinal
    exact hfinal.1
  have hcopy : ∀ value : String, (Render.discard value).Adds Mute False := fun value =>
    (Adds.emit (mute_discard value)).congr (by simp [lineRole_discard])
  have hclose : Render.close.Adds Mute False :=
    (Adds.emit (mute_of_role lineRole_close (by decide))).congr (by simp [lineRole_close])
  refine hfresh.behind fun rest _ => ?_
  refine (assign rest _).behind fun _ _ => ?_
  refine hfresh.behind fun key _ => ?_
  have hopen : (Render.openLoop key s!"{source}.keySet()").Adds Mute True :=
    (Adds.emit (mute_of_role (lineRole_openLoop key _) (by decide))).congr
      (by simp [lineRole_openLoop])
  have hdone : Adds Mute False (do
      Render.close
      return rest) :=
    hclose.behind fun _ _ => .pure rest
  have hguarded : ∀ condition value : String,
      (Render.guarded condition (Render.discard value)).Adds Mute False := fun condition value =>
    .of_keeps fun _ _ => keeps_guarded (fun _ _ => trivial) fun _ _ => keeps_discard fun _ _ => trivial
  cases keys with
  | nil => exact (hopen.bind fun _ _ => (hcopy _).behind fun _ _ => hdone).congr (by simp)
  | cons first others =>
    exact (hopen.bind fun _ _ => (hguarded _ _).behind fun _ _ => hdone).congr (by simp)

/-- A step over the elements has a loop if the element has, and keeps the last rest element. -/
theorem bindObjectElement (target : String) (state : List String × Option NodeId)
    (element : NodeId) :
    (w.bindObjectElement target state element).Adds Mute (w.arena.ElementCopies element) ∧
      ∀ next, (w.bindObjectElement target state element).Yields next →
        next.2 = w.arena.restBehind state.2 element := by
  unfold Arena.restBehind Arena.ElementCopies
  constructor
  · refine (ofExcept _).behind fun node hnode => ?_
    have hnode := yields_node_iff.mp hnode
    split
    · exact (Adds.pure _).congr (by simp [hnode])
    · next name key default _ =>
      have haccess : (w.propertyAccess target name key).Adds Mute False :=
        .of_keeps fun start out due hdue => by
          refine ((hw.still start).propertyAccess (fun _ _ => trivial) name key hdue).mono ?_
          intro _ _ _ hfinal
          exact hfinal.1
      refine haccess.behind fun access _ => ?_
      refine ((hw.bindElement name access.1 default).bind fun _ _ => Adds.pure _).congr ?_
      simp [hnode]
    · exact .fault _
  · intro next hnext
    obtain ⟨node, hnode, hnext⟩ := hnext.of_bind
    have hnode := yields_node_iff.mp hnode
    split at hnext
    · rw [hnode, ← yields_pure_iff.mp hnext]
    · obtain ⟨access, -, hnext⟩ := hnext.of_bind
      obtain ⟨_, -, hnext⟩ := hnext.of_bind
      rw [hnode, ← yields_pure_iff.mp hnext]
    · exact absurd hnext not_yields_fault

/-- The remainder is bound at the end; it is a loop by itself. -/
theorem expandObject (elements : List NodeId) (target : String) :
    (w.expandObject elements target).Adds Mute
      ((∃ element ∈ elements, w.arena.ElementCopies element) ∨
        (w.arena.lastRest elements).isSome = true) := by
  have hsteps : ∀ state, ∀ element ∈ elements,
      (w.bindObjectElement target state element).Adds Mute (w.arena.ElementCopies element) ∧
        ∀ next, (w.bindObjectElement target state element).Yields next →
          Prod.snd next = w.arena.restBehind (Prod.snd state) element :=
    fun state element _ => hw.bindObjectElement target state element
  obtain ⟨hadds, hrest⟩ := Adds.foldlM Prod.snd w.arena.restBehind hsteps ([], none)
  refine hadds.bind fun state hstate => ?_
  have hrest : state.2 = w.arena.lastRest elements := hrest state hstate
  obtain ⟨keys, rest⟩ := state
  rw [← hrest]
  cases rest with
  | none => exact (Adds.pure ()).congr (by simp)
  | some name =>
    refine ((objectRest target keys).bind fun remainder _ => hw.bindElement name remainder none).congr ?_
    simp

/-- An element of an array adds the loops of its pattern and keeps the last rest element. -/
theorem bindArrayElement (target : String) (rest : Option (Nat × NodeId)) (element : NodeId × Nat) :
    (w.bindArrayElement target rest element).Adds Mute (w.arena.ElementCopies element.1) ∧
      ∀ next, (w.bindArrayElement target rest element).Yields next →
        next.map Prod.snd = w.arena.restBehind (rest.map Prod.snd) element.1 := by
  unfold Arena.restBehind Arena.ElementCopies
  constructor
  · refine (ofExcept _).behind fun node hnode => ?_
    have hnode := yields_node_iff.mp hnode
    split
    · exact (Adds.pure _).congr (by simp [hnode])
    · exact (Adds.pure _).congr (by simp [hnode])
    · next name key default _ =>
      refine ((hw.bindElement name _ default).bind fun _ _ => Adds.pure _).congr ?_
      simp [hnode]
    · exact .fault _
  · intro next hnext
    obtain ⟨node, hnode, hnext⟩ := hnext.of_bind
    have hnode := yields_node_iff.mp hnode
    split at hnext
    · rw [hnode, ← yields_pure_iff.mp hnext]
    · rw [hnode, ← yields_pure_iff.mp hnext]
      rfl
    · obtain ⟨_, -, hnext⟩ := hnext.of_bind
      rw [hnode, ← yields_pure_iff.mp hnext]
    · exact absurd hnext not_yields_fault

/-- The remainder of an array has the loops of its pattern only. -/
theorem expandArray (elements : List NodeId) (target : String) :
    (w.expandArray elements target).Adds Mute
      ((∃ element ∈ elements, w.arena.ElementCopies element) ∨
        ∃ name ∈ w.arena.lastRest elements, w.arena.CopiesRest name) := by
  have hsteps : ∀ rest, ∀ element ∈ elements.zipIdx,
      (w.bindArrayElement target rest element).Adds Mute (w.arena.ElementCopies element.1) ∧
        ∀ next, (w.bindArrayElement target rest element).Yields next →
          next.map Prod.snd = w.arena.restBehind (rest.map Prod.snd) element.1 :=
    fun rest element _ => hw.bindArrayElement target rest element
  obtain ⟨hadds, hrest⟩ := Adds.foldlM (Option.map Prod.snd)
    (fun rest (element : NodeId × Nat) => w.arena.restBehind rest element.1) hsteps none
  have hpositions : (∃ element ∈ elements.zipIdx, w.arena.ElementCopies element.1) ↔
      ∃ element ∈ elements, w.arena.ElementCopies element := by
    constructor
    · rintro ⟨element, hm, hcopies⟩
      exact ⟨element.1, List.fst_mem_of_mem_zipIdx hm, hcopies⟩
    · rintro ⟨element, hm, hcopies⟩
      obtain ⟨position, hposition⟩ := List.mem_iff_getElem?.mp hm
      exact ⟨(element, position), List.mk_mem_zipIdx_iff_getElem?.mpr hposition, hcopies⟩
  refine (hadds.congr hpositions).bind fun rest hstate => ?_
  have hrest : rest.map Prod.snd = w.arena.lastRest elements := by
    have hfold := hrest rest hstate
    rw [hfold, Arena.lastRest]
    conv => rhs; rw [← List.zipIdx_map_fst 0 elements, List.foldl_map]
    rfl
  rw [← hrest]
  cases rest with
  | none => exact (Adds.pure ()).congr (by simp)
  | some found =>
    refine (hw.bindElement found.2 _ none).congr ?_
    simp

/-- A pattern has a loop exactly if it copies the rest of a map somewhere. -/
theorem expandPattern (pattern : NodeId) (target : String) :
    (w.expandPattern pattern target).Adds Mute (w.arena.CopiesRest pattern) := by
  refine (ofExcept _).behind fun node hnode => ?_
  have hnode := yields_node_iff.mp hnode
  split
  · exact (hw.expandObject _ target).congr (Arena.copiesRest_objectPattern_iff hnode).symm
  · exact (hw.expandArray _ target).congr (Arena.copiesRest_arrayPattern_iff hnode).symm
  · exact .fault _

end Walker.Mutes

namespace Walker

variable {w : Walker} {table : Array Integration}

/-- One level up, patterns have the loops that are counted, and all else that does not return is
mute. -/
theorem Mutes.above (hw : w.Mutes) (hstill : ∀ start, (w.above table).Follows (.still start)) :
    (w.above table).Mutes where
  still := hstill
  expand := hw.expandPattern

end Walker

/-- At every level the walker of a mapping template writes loops for patterns only. -/
theorem Program.mutes_walkerWithin {p : Program} {direction : Direction} {config : MappingConfig}
    (ht : ∀ integration ∈ p.integrations, integration.Quiet) (n : Nat) :
    (p.walkerWithin (.mapping direction config) n).Mutes := by
  induction n with
  | zero =>
    exact {
      still := fun start => follows_still ht start 0
      expand := fun _ _ => .fault _ }
  | succ n ih => exact ih.above fun start => follows_still ht start (n + 1)

/-! ### Statements of a mapping template -/

namespace Walker

open Render

/-- A line of a mapping template: it prints nothing by itself, or it is printed as it stands. -/
def MappingLine (line : String) : Prop := Mute line ∨ Printed line

/-- Whether a walker writes the statements of mapping templates, with loops for the patterns
that copy the rest of a map only. -/
def Loops (w : Walker) : Prop :=
  ∀ id, (w.statement id none).Adds MappingLine (w.arena.CopiesRest id)

variable {w : Walker} {direction : Direction} {config : MappingConfig} {id : NodeId}

/-- A node of any other kind copies nothing. -/
theorem not_copiesRest_of_node {node : Node} (h : w.arena.get? id = some node)
    (hobject : ∀ elements, node ≠ .objectPattern elements)
    (harray : ∀ elements, node ≠ .arrayPattern elements)
    (hdeclaration : ∀ kind name value, node ≠ .declaration kind name value)
    (hblock : ∀ statements, node ≠ .block statements)
    (hbranch : ∀ test yes no, node ≠ .branch test yes no) : ¬ w.arena.CopiesRest id := by
  intro hcopies
  rcases hcopies.shape with ⟨_, hn⟩ | ⟨_, hn⟩ | ⟨_, _, _, hn⟩ | ⟨_, hn⟩ | ⟨_, _, _, hn⟩ <;>
    cases h.symm.trans hn
  · exact hobject _ rfl
  · exact harray _ rfl
  · exact hdeclaration _ _ _ rfl
  · exact hblock _ rfl
  · exact hbranch _ _ _ rfl

/-- Whatever asks for loops is refused before it writes a line. -/
theorem runOn_requireLoops_of_mapping (hd : w.dialect = .mapping direction config) {α : Type}
    (what : String) (next : Unit → Render α) (out : Output) :
    (w.requireLoops what >>= next).runOn out =
      (.error (.unsupported (.loop what "apigateway")), out) := by
  rw [runOn_bind]
  unfold requireLoops
  rw [hd]
  rfl

/-- A step behind the question for loops is never reached in a mapping template. -/
theorem adds_requireLoops (hd : w.dialect = .mapping direction config) {α : Type} {what : String}
    {next : Unit → Render α} {kind : String → Prop} {loops : Prop} :
    (w.requireLoops what >>= next).Adds kind loops := by
  intro out value final hrun
  rw [runOn_requireLoops_of_mapping hd] at hrun
  cases hrun

namespace Mutes

variable (hw : w.Mutes)
include hw

/-- A declaration has the loops of its pattern. -/
theorem declare (name : NodeId) (value : Option NodeId) :
    (w.declare name value).Adds Mute (value.isSome = true ∧ w.arena.CopiesRest name) := by
  refine (ofExcept _).behind fun node hnode => ?_
  have hnode := yields_node_iff.mp hnode
  have hpattern : ∀ value, Adds Mute (w.arena.CopiesRest name) (do
      let source ← w.reference value
      w.expand name source) := fun value =>
    (hw.reference value).behind fun source _ => hw.expand name source
  cases node with
  | identifier text =>
    have hnone : ¬ w.arena.CopiesRest name :=
      not_copiesRest_of_node hnode nofun nofun nofun nofun nofun
    refine (ofExcept _).behind fun target _ => ?_
    cases value with
    | none => exact (assign target _).congr (by simp)
    | some value =>
      have hassign : (w.assignNode target value).Adds Mute False :=
        (hw.expression value).behind fun value _ => assign target value
      exact hassign.congr (by simp [hnone])
  | objectPattern elements =>
    cases value with
    | none => exact .fault _
    | some value => exact (hpattern value).congr (by simp)
  | arrayPattern elements =>
    cases value with
    | none => exact .fault _
    | some value => exact (hpattern value).congr (by simp)
  | _ => exact .fault _

/-- An expression for its effect is mute and has no loop. -/
theorem expressionStatement (expr : NodeId) : (w.expressionStatement expr).Adds Mute False :=
  .of_keeps fun start out => (hw.still start).expressionStatement expr out

/-- A return is one line, the fragment of the value. -/
theorem returned (hd : w.dialect = .mapping direction config) (hu : w.Utters)
    (value : Option NodeId) : (w.returned value).Adds MappingLine False := by
  have hprinted : ∀ {text : String}, Printed text → (Render.emit text).Adds MappingLine False := by
    intro text h
    exact (Adds.emit (.inr h)).congr (by simp [h.plain])
  unfold Walker.returned
  rw [hd]
  cases value with
  | none => exact hprinted printed_null
  | some expr =>
    refine ((hw.fragment expr).mono fun _ => .inl).behind fun text htext => ?_
    exact hprinted (hu.fragment expr text htext)

end Mutes

/-- A branch has the loops of both sides, between lines that open none. -/
theorem adds_branch {test yes : NodeId} {no : Option NodeId} (hw : w.Mutes) (hl : w.Loops) :
    (w.branch test yes no none).Adds MappingLine
      (w.arena.CopiesRest yes ∨ ∃ other ∈ no, w.arena.CopiesRest other) := by
  have hline : ∀ {line : String} {role : LineRole}, lineRole line = role → role ≠ .plain →
      role ≠ .loop → (Render.emit line).Adds MappingLine False := by
    intro line role hrole hplain hloop
    exact (Adds.emit (.inl (mute_of_role hrole hplain))).congr (by simp [hrole, hloop])
  have hclose : Render.close.Adds MappingLine False :=
    hline lineRole_close (by decide) (by decide)
  refine ((hw.expression test).mono fun _ => .inl).behind fun condition _ => ?_
  have hopen := hline (lineRole_openBranch condition) (by decide) (by decide)
  cases no with
  | none =>
    refine hopen.behind fun _ _ => ?_
    refine ((hl yes).bind fun _ _ => hclose).congr ?_
    simp
  | some no =>
    have hturn := hline lineRole_alternative (by decide) (by decide)
    refine hopen.behind fun _ _ => ?_
    refine ((hl yes).bind fun _ _ => hturn.behind fun _ _ => (hl no).bind fun _ _ => hclose).congr ?_
    simp

/-- By the kind of the statement: loops and jumps are refused, and the rest has the loops of its
patterns. -/
theorem adds_renderStatement (hd : w.dialect = .mapping direction config) (hw : w.Mutes)
    (hu : w.Utters) (hl : w.Loops) (id : NodeId) :
    (w.renderStatement id none).Adds MappingLine (w.arena.CopiesRest id) := by
  refine ((Mutes.ofExcept _).mono fun _ => .inl).behind fun node hnode => ?_
  have hnode := yields_node_iff.mp hnode
  cases node with
  | block statements =>
    refine (Adds.forM fun statement _ => hl statement).congr ?_
    exact (Arena.copiesRest_block_iff hnode).symm
  | exprStatement expr =>
    have hnone : ¬ w.arena.CopiesRest id :=
      not_copiesRest_of_node hnode nofun nofun nofun nofun nofun
    exact ((hw.expressionStatement expr).mono fun _ => .inl).congr (by simp [hnone])
  | declaration kind name value =>
    refine ((hw.declare name value).mono fun _ => .inl).congr ?_
    exact (Arena.copiesRest_declaration_iff hnode).symm
  | branch test yes no =>
    exact (adds_branch hw hl).congr (Arena.copiesRest_branch_iff hnode).symm
  | returnValue expr =>
    have hnone : ¬ w.arena.CopiesRest id :=
      not_copiesRest_of_node hnode nofun nofun nofun nofun nofun
    exact (hw.returned hd hu expr).congr (by simp [hnone])
  | forOf binding iterable body => exact adds_requireLoops hd
  | forIn binding iterable body => exact adds_requireLoops hd
  | breakLoop => exact adds_requireLoops hd
  | _ => exact .fault _

end Walker

/-- At every level the statements of a mapping template have loops for patterns only. -/
theorem Program.loops_walkerWithin {p : Program} {direction : Direction} {config : MappingConfig}
    (ht : ∀ integration ∈ p.integrations, integration.Quiet) (n : Nat) :
    (p.walkerWithin (.mapping direction config) n).Loops := by
  induction n with
  | zero => exact fun _ => .fault _
  | succ n ih =>
    exact Walker.adds_renderStatement (p.dialect_walkerWithin _ n) (mutes_walkerWithin ht n)
      (utters_walkerWithin ht n) ih

/-! ### Whole templates -/

/-- The statement that is written for a closure, if one is: the block of a function, or the
node itself if it is a statement.  Other nodes are returned as values. -/
def Arena.mainStatement? (a : Arena) (root : NodeId) : Option NodeId :=
  match a.get? root with
  | some (.function _ body) => if (a.get? body).any Walker.isBlock then some body else none
  | some node => if node.isStatement then some root else none
  | none => none

/-- Constructs that are written with a loop or leave one, and what messages call them. -/
inductive Node.NeedsLoop : Node → String → Prop where
  | forOf (binding iterable body : NodeId) : NeedsLoop (.forOf binding iterable body) "for-of loop"
  | forIn (binding iterable body : NodeId) : NeedsLoop (.forIn binding iterable body) "for-in loop"
  | breakLoop : NeedsLoop .breakLoop "break"

/-- A closure is written with loops for the patterns in its statements only. -/
theorem Walker.adds_renderRoot {w : Walker} {direction : Direction} {config : MappingConfig}
    (hd : w.dialect = .mapping direction config) (hw : w.Mutes) (hu : w.Utters) (hl : w.Loops)
    (root : NodeId) :
    (w.renderRoot root).Adds MappingLine
      (∃ statement ∈ w.arena.mainStatement? root, w.arena.CopiesRest statement) := by
  refine ((Mutes.ofExcept _).mono fun _ => .inl).behind fun node hnode => ?_
  have hnode := yields_node_iff.mp hnode
  unfold Arena.mainStatement?
  rw [hnode]
  have hother : Render.Adds MappingLine
      (∃ statement ∈ (if node.isStatement then some root else none), w.arena.CopiesRest statement)
      (if node.isStatement then w.statement root none else w.returned (some root)) := by
    cases hstatement : node.isStatement with
    | true => exact (hl root).congr (by simp)
    | false => exact (hw.returned hd hu (some root)).congr (by simp)
  cases node with
  | function parameters body =>
    have hparameters : (parameters.forM w.checkRootParameter).Adds MappingLine False :=
      (Render.Adds.of_keeps fun start out => Discipline.keeps_forM fun parameter _ middle _ =>
        Follows.checkRootParameter parameter middle).mono fun _ => .inl
    refine hparameters.behind fun _ _ => ?_
    refine ((Mutes.ofExcept _).mono fun _ => .inl).behind fun node hnode => ?_
    have hnode := yields_node_iff.mp hnode
    cases hblock : Walker.isBlock node with
    | true => exact (hl body).congr (by simp [hnode, hblock])
    | false => exact (hw.returned hd hu (some body)).congr (by simp [hnode, hblock])
  | _ => exact hother

section

variable {p : Program} {direction : Direction} {config : MappingConfig}

/-- The lines of a mapping template: each is mute or printed, and there is a loop among them
exactly if the statement of the closure has a pattern for it. -/
theorem Program.lines_of_render (ht : ∀ integration ∈ p.integrations, integration.Quiet)
    {root : NodeId} {out : Output} (h : p.render (.mapping direction config) root = .ok out) :
    (∀ line ∈ out.lines.toList, Walker.MappingLine line) ∧
      ((∃ line ∈ out.lines.toList, lineRole line = .loop) ↔
        ∃ statement ∈ p.arena.mainStatement? root, p.arena.CopiesRest statement) := by
  have hadds := Walker.adds_renderRoot (p.dialect_walkerWithin (.mapping direction config) p.depth)
    (mutes_walkerWithin ht p.depth) (utters_walkerWithin ht p.depth) (loops_walkerWithin ht p.depth)
    root
  rw [p.arena_walkerWithin] at hadds
  obtain ⟨lines, hlines, hkind, hloops⟩ := hadds {} () out (Program.render_eq_ok_iff_runOn.mp h)
  have hall : out.lines.toList = lines := hlines
  rw [hall]
  exact ⟨hkind, hloops⟩

/-- A statement that needs loops is refused before a line is written. -/
theorem Program.runOn_statement_needsLoop {n : Nat} {id : NodeId} {node : Node} {what : String}
    (hnode : p.arena.get? id = some node) (h : node.NeedsLoop what) (slot : Option String)
    (out : Output) :
    ((p.walkerWithin (.mapping direction config) (n + 1)).statement id slot).runOn out =
      (.error (.unsupported (.loop what "apigateway")), out) := by
  have hd := p.dialect_walkerWithin (.mapping direction config) n
  show ((p.walkerWithin (.mapping direction config) n).renderStatement id slot).runOn out = _
  rw [Walker.renderStatement, node_of_get? hnode, pure_bind]
  cases h with
  | forOf binding iterable body => exact Walker.runOn_requireLoops_of_mapping hd _ _ out
  | forIn binding iterable body => exact Walker.runOn_requireLoops_of_mapping hd _ _ out
  | breakLoop => exact Walker.runOn_requireLoops_of_mapping hd _ _ out

/-- So is a list operation with a callback. -/
theorem Program.runOn_method_needsLoop {w : Walker} (hd : w.dialect = .mapping direction config)
    {name : String} {args : List NodeId} (hname : (Walker.ListOperation.ofName? name).isSome = true)
    (hcallback : (w.arena.callback? args).isSome = true) (base : NodeId) (out : Output) :
    (w.method base name args).runOn out =
      (.error (.unsupported (.loop s!"`{name}`" "apigateway")), out) := by
  obtain ⟨operation, hoperation⟩ := Option.isSome_iff_exists.mp hname
  obtain ⟨⟨parameters, body⟩, hfound⟩ := Option.isSome_iff_exists.mp hcallback
  simp only [Walker.method, hoperation, hfound]
  exact Walker.runOn_requireLoops_of_mapping hd _ _ out

/-- A mapping template has a loop exactly if the closure takes the rest of a map by a pattern
in one of its declarations.  It never leaves a loop, and loop statements, what leaves a loop,
and list operations are refused. -/
theorem mapping_loops_iff (ht : ∀ integration ∈ p.integrations, integration.Quiet) :
    (∀ root out, p.render (.mapping direction config) root = .ok out →
      ((∃ line ∈ out.lines.toList, "#foreach(".toList <+: line.toList) ↔
        ∃ statement ∈ p.arena.mainStatement? root, p.arena.CopiesRest statement) ∧
      ∀ line ∈ out.lines.toList, line ≠ "#break") ∧
    (∀ n id node what slot out, p.arena.get? id = some node → node.NeedsLoop what →
      ((p.walkerWithin (.mapping direction config) (n + 1)).statement id slot).runOn out =
        (.error (.unsupported (.loop what "apigateway")), out)) ∧
    ∀ n base name args out, (Walker.ListOperation.ofName? name).isSome = true →
      (p.arena.callback? args).isSome = true →
      ((p.walkerWithin (.mapping direction config) n).method base name args).runOn out =
        (.error (.unsupported (.loop s!"`{name}`" "apigateway")), out) := by
  refine ⟨fun root out h => ?_, fun n id node what slot out hnode hneeds => ?_,
    fun n base name args out hname hcallback => ?_⟩
  · obtain ⟨hkind, hloops⟩ := p.lines_of_render ht h
    refine ⟨?_, ?_⟩
    · rw [← hloops]
      refine exists_congr fun line => and_congr_right fun _ => ?_
      rw [← isLoopHeader_iff, isLoopHeader, List.isPrefixOf_iff_prefix]
    · rintro line hm rfl
      have hstays : isExit "#break" = false :=
        (hkind _ hm).elim isExit_of_mute Printed.stays
      exact absurd hstays (by decide)
  · exact Program.runOn_statement_needsLoop hnode hneeds slot out
  · refine Program.runOn_method_needsLoop (p.dialect_walkerWithin _ n) hname ?_ base out
    rw [p.arena_walkerWithin]
    exact hcallback

end

/-- The closure `input => { const { ...rest } = input; return null; }`. -/
def Program.restCopy : Program :=
  (Builder.of []
    [.identifier "rest", .binding ⟨0⟩ none none true, .objectPattern [⟨1⟩], .identifier "input",
      .declaration .const ⟨2⟩ (some ⟨3⟩), .null, .returnValue (some ⟨5⟩), .block [⟨4⟩, ⟨6⟩],
      .identifier "input", .parameter ⟨8⟩ none, .function [⟨9⟩] ⟨7⟩]).program

/-- Its pattern is what the loop of its template is for. -/
theorem mapping_loops_iff_restCopy :
    (∀ integration ∈ Program.restCopy.integrations, integration.Quiet) ∧
      ∃ out, Program.restCopy.render (.mapping .request {}) ⟨10⟩ = .ok out ∧
        ((∃ line ∈ out.lines.toList, "#foreach(".toList <+: line.toList) ↔
          ∃ statement ∈ Program.restCopy.arena.mainStatement? ⟨10⟩,
            Program.restCopy.arena.CopiesRest statement) ∧
        ∃ statement ∈ Program.restCopy.arena.mainStatement? ⟨10⟩,
          Program.restCopy.arena.CopiesRest statement := by
  have ht : ∀ integration ∈ Program.restCopy.integrations, integration.Quiet := by
    have hnone : Program.restCopy.integrations = #[] := by cbv
    rw [hnone]
    simp
  have hok : (Program.restCopy.render (.mapping .request {}) ⟨10⟩).isOk = true := by
    decide +kernel
  have hpattern : Program.restCopy.arena.get? ⟨2⟩ = some (.objectPattern [⟨1⟩]) := by cbv
  have hdeclaration :
      Program.restCopy.arena.get? ⟨4⟩ = some (.declaration .const ⟨2⟩ (some ⟨3⟩)) := by cbv
  have hblock : Program.restCopy.arena.get? ⟨7⟩ = some (.block [⟨4⟩, ⟨6⟩]) := by cbv
  rcases hrender : Program.restCopy.render (.mapping .request {}) ⟨10⟩ with fault | out
  · rw [hrender] at hok
    cases hok
  · refine ⟨ht, out, rfl, ((mapping_loops_iff ht).1 ⟨10⟩ out hrender).1, ⟨7⟩, by cbv, ?_⟩
    exact .block hblock List.mem_cons_self (.declaration hdeclaration (.rest hpattern (by cbv)))

/-- Its template has a loop, although the dialect has none. -/
theorem loop_in_mapping_restCopy :
    Program.restCopy.BottomUp ∧ (Dialect.mapping .request {}).supportsLoops = false ∧
      ∃ out, Program.restCopy.render (.mapping .request {}) ⟨10⟩ = .ok out ∧
        ∃ line ∈ out.lines.toList, "#foreach(".toList <+: line.toList := by
  have hlines : (Program.restCopy.render (.mapping .request {}) ⟨10⟩).toOption.map
      (fun out => out.lines.toList) =
        some ["#set($v1 = $input.path('$'))", "#set($v2 = \x7b\x7d)",
          "#foreach($v3 in $v1.keySet())", "$util.qr($v2.put($v3, $v1.get($v3)))", "#end",
          "#set($rest = $v2)", "null"] := by
    decide +kernel
  refine ⟨Builder.bottomUp_of (by decide) (by cbv), rfl, ?_⟩
  rcases hrender : Program.restCopy.render (.mapping .request {}) ⟨10⟩ with fault | out
  · rw [hrender] at hlines
    cases hlines
  · rw [hrender] at hlines
    refine ⟨out, rfl, "#foreach($v3 in $v1.keySet())", ?_, by decide⟩
    rw [show out.lines.toList = _ from Option.some.inj hlines]
    simp

end ClosureVtl
