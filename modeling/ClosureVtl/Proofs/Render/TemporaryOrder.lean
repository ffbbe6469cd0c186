/-
Module: ClosureVtl.Proofs.Render.TemporaryOrder
Purpose: Every temporary is stored before it is read, and every temporary is stored.
Main exports:
  Render.Defines, Orderly, Discipline.definedFirst, temporary_defined_first
-/
import ClosureVtl.Proofs.Render.FollowedRules

namespace ClosureVtl

/-!
Temporaries are told by their numbers.  If the closure itself has no letter `v` in front of a
digit, every such place in the template is the name of a temporary, and the discipline
`Discipline.definedFirst` keeps track of them: whatever number occurs in a line has been
stored by an earlier line or is stored by the line itself.  A name that is allocated is due
until it is stored, and at the end nothing is due.
-/

/-! ### Lines in order -/

/-- Whether a line gives a temporary its value: by an assignment, or as the item of a loop. -/
def Render.Defines (line : String) (number : Nat) : Prop :=
  ("#set(" ++ tempName number ++ " = ").toList <+: line.toList ∨
    ("#foreach(" ++ tempName number ++ " in ").toList <+: line.toList

/-- Whether some line gives a temporary its value. -/
def Render.Defined (lines : List String) (number : Nat) : Prop :=
  ∃ line ∈ lines, Defines line number

/-- Whether every counter in a line is the number of a temporary that has its value from an
earlier line or from the line itself. -/
def Orderly (lines : List String) : Prop :=
  ∀ before line after, lines = before ++ line :: after →
    ∀ digits ∈ Text.counters line.toList, ∃ number, digits = (toString number).toList ∧
      (Render.Defined before number ∨ Render.Defines line number)

section

variable {lines more : List String} {line value : String} {number : Nat}

theorem toList_toString_injective {first second : Nat}
    (h : (toString first).toList = (toString second).toList) : first = second := by
  apply Render.tempName_injective
  apply String.toList_injective
  rw [Render.toList_tempName, Render.toList_tempName, h]

theorem Render.Defined.mono (h : Defined lines number) (hsub : lines ⊆ more) :
    Defined more number := by
  obtain ⟨line, hm, hdefines⟩ := h
  exact ⟨line, hsub hm, hdefines⟩

theorem Render.Stores.defines (h : Stores number value line) : Defines line number := by
  cases h with
  | assign => exact .inl (starts_append (starts_append List.prefix_rfl _) _)
  | loop => exact .inr (starts_append (starts_append List.prefix_rfl _) _)

/-- A line that gives a temporary its value names it. -/
theorem Render.Defines.mentions (h : Defines line number) : Text.Mentions line number := by
  have hsplit : ∀ front back : String, (front ++ tempName number ++ back).toList <+: line.toList →
      back.toList.head?.any Char.isDigit = false → back.toList ≠ [] → Text.Mentions line number := by
    rintro front back ⟨rest, hline⟩ hback hne
    refine ⟨"$v".toList, List.mem_cons_self, front.toList, back.toList ++ rest, ?_, ?_⟩
    · rw [← hline, String.toList_append, String.toList_append, toList_tempName]
      simp
    · obtain ⟨first, others, heq⟩ := List.exists_cons_of_ne_nil hne
      rw [heq] at hback ⊢
      exact hback
  rcases h with h | h
  · exact hsplit _ _ h (by decide) (by decide)
  · exact hsplit _ _ h (by decide) (by decide)

/-- A line behind lines in order keeps the order if its counters are in order. -/
theorem Orderly.concat (h : Orderly lines)
    (hline : ∀ digits ∈ Text.counters line.toList, ∃ number, digits = (toString number).toList ∧
      (Render.Defined lines number ∨ Render.Defines line number)) : Orderly (lines ++ [line]) := by
  intro before found after heq digits hm
  rcases List.eq_nil_or_concat after with rfl | ⟨others, last, rfl⟩
  · obtain ⟨rfl, hfound⟩ := List.append_inj' heq rfl
    cases hfound
    exact hline digits hm
  · rw [List.concat_eq_append, ← List.cons_append, ← List.append_assoc] at heq
    obtain ⟨hlines, -⟩ := List.append_inj' heq rfl
    exact h before found others hlines digits hm

/-- In lines in order, a temporary that has a value is first named where it gets one. -/
theorem Orderly.exists_first (h : Orderly lines) (hdefined : Render.Defined lines number) :
    ∃ before line after, lines = before ++ line :: after ∧ Text.Mentions line number ∧
      (∀ earlier ∈ before, ¬ Text.Mentions earlier number) ∧ Render.Defines line number := by
  classical
  obtain ⟨stored, hm, hdefines⟩ := hdefined
  have hsome : (lines.find? fun line => Text.Mentions line number).isSome = true :=
    List.find?_isSome.mpr ⟨stored, hm, decide_eq_true hdefines.mentions⟩
  obtain ⟨first, hfind⟩ := Option.isSome_iff_exists.mp hsome
  obtain ⟨hmentions, before, after, hsplit, hnone⟩ := List.find?_eq_some_iff_append.mp hfind
  have hmentions : Text.Mentions first number := of_decide_eq_true hmentions
  have hnone : ∀ earlier ∈ before, ¬ Text.Mentions earlier number := by
    intro earlier hm
    simpa using hnone earlier hm
  refine ⟨before, first, after, hsplit, hmentions, hnone, ?_⟩
  obtain ⟨other, hdigits, hcases⟩ :=
    h before first after hsplit _ (Text.mem_counters_of_mentions hmentions)
  cases toList_toString_injective hdigits
  rcases hcases with ⟨earlier, hm, hdefines⟩ | hdefines
  · exact absurd hdefines.mentions (hnone earlier hm)
  · exact hdefines

end

/-! ### The discipline -/

/-- Lines are in order, every temporary that is not due has its value, and a text may name
the temporaries that have one. -/
def Discipline.definedFirst : Discipline where
  Holds due out := Orderly out.lines.toList ∧ ∀ number, 1 ≤ number → number ≤ out.temps →
    Render.tempName number ∈ due ∨ Render.Defined out.lines.toList number
  Allows out digits := ∃ number, digits = (toString number).toList ∧
    Render.Defined out.lines.toList number
  Permits _ := True
  free := True
  allows_later := by
    rintro out later digits hlater ⟨number, hdigits, hdefined⟩
    exact ⟨number, hdigits, hdefined.mono hlater.lines.subset⟩
  weaken := by
    rintro due out name ⟨horderly, hall⟩ -
    exact ⟨horderly, fun number hpos hle =>
      (hall number hpos hle).imp_left fun hm => Set.mem_insert_of_mem _ hm⟩
  settle := by
    rintro due out name ⟨horderly, hall⟩ hname
    refine ⟨horderly, fun number hpos hle => ?_⟩
    rcases hall number hpos hle with (rfl | hm) | hdefined
    · obtain ⟨other, hdigits, hdefined⟩ := hname (toString number).toList (by
        rw [Text.counters_tempName]
        exact List.mem_singleton.mpr rfl)
      cases toList_toString_injective hdigits
      exact .inr hdefined
    · exact .inl hm
    · exact .inr hdefined
  allocate := by
    rintro due out ⟨horderly, hall⟩
    refine ⟨horderly, fun number hpos hle => ?_⟩
    rcases Nat.eq_or_lt_of_le hle with rfl | hlt
    · exact .inl (Set.mem_insert _ _)
    · exact (hall number hpos (Nat.le_of_lt_succ hlt)).imp_left fun hm => Set.mem_insert_of_mem _ hm
  record _ h := h
  write := by
    rintro due out line - hline ⟨horderly, hall⟩
    refine ⟨?_, fun number hpos hle => ?_⟩
    · rw [Array.toList_push]
      refine horderly.concat fun digits hm => ?_
      obtain ⟨number, hdigits, hdefined⟩ := hline digits hm
      exact ⟨number, hdigits, .inl hdefined⟩
    · rw [Array.toList_push]
      exact (hall number hpos hle).imp_right fun h => h.mono (List.subset_append_left _ _)
  store := by
    rintro due out number value line - hstores hvalue ⟨horderly, hall⟩
    have hdefines := hstores.defines
    have hdefined : Render.Defined (out.lines.toList ++ [line]) number :=
      ⟨line, List.mem_append_right _ (List.mem_singleton.mpr rfl), hdefines⟩
    have hknown : Text.UsesOnly (fun digits => ∃ number, digits = (toString number).toList ∧
        (Render.Defined out.lines.toList number ∨ Render.Defines line number)) value :=
      hvalue.mono fun digits ⟨number, hdigits, h⟩ => ⟨number, hdigits, .inl h⟩
    have htemp : Text.UsesOnly (fun digits => ∃ number, digits = (toString number).toList ∧
        (Render.Defined out.lines.toList number ∨ Render.Defines line number))
        (Render.tempName number) := by
      unfold Text.UsesOnly
      rw [Text.counters_tempName]
      exact List.forall_mem_singleton.mpr ⟨number, rfl, .inr hdefines⟩
    have hline : Text.UsesOnly (fun digits => ∃ number, digits = (toString number).toList ∧
        (Render.Defined out.lines.toList number ∨ Render.Defines line number)) line := by
      cases hstores with
      | assign => exact ((htemp.front (by decide)).between (by decide) hknown).back (by decide)
      | loop => exact ((htemp.front (by decide)).between (by decide) hknown).back (by decide)
    rw [Array.toList_push]
    refine ⟨⟨horderly.concat hline, fun other hpos hle => ?_⟩, number, rfl, hdefined⟩
    rcases hall other hpos hle with (hsame | hm) | hother
    · rw [Render.tempName_injective hsame]
      exact .inr hdefined
    · exact .inl hm
    · exact .inr (hother.mono (List.subset_append_left _ _))
  permits_of_free _ _ := trivial
  permits_assign _ _ := trivial
  permits_discard _ := trivial
  permits_branch _ := trivial
  permits_alternative := trivial
  permits_close := trivial

/-! ### Programs -/

/-- The texts of a closure and the kinds of its integrations, which are of the common styles,
have no letter `v` in front of a digit. -/
structure Program.Unnumbered (p : Program) : Prop where
  texts : ∀ {id node text}, p.arena.get? id = some node → text ∈ node.texts → Text.Unnumbered text
  integrations : ∀ integration ∈ p.integrations, ∃ kind style,
    integration = Integration.ofStyle kind style ∧ Text.Unnumbered kind

/-- Whether no text of an arena has counters is settled by going through the texts. -/
theorem Arena.unnumbered_of_all {a : Arena}
    (hall : a.entries.all (fun entry =>
      entry.node.texts.all fun text => Text.counters text.toList == []) = true)
    {id : NodeId} {node : Node} {text : String} (hnode : a.get? id = some node)
    (hm : text ∈ node.texts) : Text.Unnumbered text := by
  have htexts := holds_of_all
    (fun node => node.texts.all fun text => Text.counters text.toList == []) hall hnode
  exact Text.counters_eq_nil_iff.mp (eq_of_beq (List.all_eq_true.mp htexts text hm))

/-- Every temporary that a compilation allocates occurs in the template, and the first line
that names it gives it its value. -/
theorem temporary_defined_first {p : Program} (hp : p.Unnumbered) {dialect : Dialect}
    {root : NodeId} {out : Output} (h : p.render dialect root = .ok out) {number : Nat}
    (hpos : 1 ≤ number) (hle : number ≤ out.temps) :
    ∃ before line after, out.lines.toList = before ++ line :: after ∧
      Text.Mentions line number ∧ (∀ earlier ∈ before, ¬ Text.Mentions earlier number) ∧
      (("#set(" ++ Render.tempName number ++ " = ").toList <+: line.toList ∨
        ("#foreach(" ++ Render.tempName number ++ " in ").toList <+: line.toList) := by
  have hw : (p.walker dialect).Follows .definedFirst := by
    refine Program.follows_walkerWithin (fun _ => trivial) ?_ ?_ _
    · intro id node text hnode hm out
      exact (hp.texts hnode hm).usesOnly
    · intro integration hm
      obtain ⟨kind, style, rfl, hkind⟩ := hp.integrations integration hm
      exact Integration.admits_ofStyle (fun _ => hkind.usesOnly) style
  have hstart : Discipline.definedFirst.Holds ∅ {} := by
    refine ⟨?_, fun number hpos hle => ?_⟩
    · intro before line after heq
      cases before <;> cases heq
    · have hzero : number ≤ 0 := hle
      omega
  unfold Program.render at h
  split at h
  · next final hrun =>
    cases h
    obtain ⟨-, horderly, hall⟩ := hw.renderRoot trivial root {} ∅ hstart () out hrun
    have hdefined := (hall number hpos hle).resolve_left (Set.notMem_empty _)
    exact horderly.exists_first hdefined
  · cases h

/-- The item of the loop is stored by the header, the list and the result by assignments. -/
theorem temporary_defined_first_pluck :
    ∃ out, Program.pluck.render (.resolver {}) ⟨18⟩ = .ok out ∧ out.temps = 3 ∧
      ∀ number, 1 ≤ number → number ≤ 3 →
        ∃ before line after, out.lines.toList = before ++ line :: after ∧
          Text.Mentions line number ∧ (∀ earlier ∈ before, ¬ Text.Mentions earlier number) ∧
          (("#set(" ++ Render.tempName number ++ " = ").toList <+: line.toList ∨
            ("#foreach(" ++ Render.tempName number ++ " in ").toList <+: line.toList) := by
  have htemps :
      (Program.pluck.render (.resolver {}) ⟨18⟩).toOption.map Output.temps = some 3 := by
    decide +kernel
  have hintegrations : Program.pluck.integrations = #[] := by cbv
  have hall : Program.pluck.arena.entries.all (fun entry =>
      entry.node.texts.all fun text => Text.counters text.toList == []) = true := by
    decide +kernel
  have hp : Program.pluck.Unnumbered := by
    refine ⟨Arena.unnumbered_of_all hall, ?_⟩
    rw [hintegrations]
    intro integration hm
    exact absurd hm (Array.not_mem_empty integration)
  rcases hrender : Program.pluck.render (.resolver {}) ⟨18⟩ with fault | out
  · rw [hrender] at htemps
    cases htemps
  · rw [hrender] at htemps
    have hsize : out.temps = 3 := Option.some.inj htemps
    refine ⟨out, rfl, hsize, fun number hpos hle => ?_⟩
    exact temporary_defined_first hp hrender hpos (by omega)

end ClosureVtl
