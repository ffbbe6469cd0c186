/-
Module: ClosureVtl.Proofs.Closure.Listings
Purpose: What building records about the handles that nodes list: who adopts a node, and
  which listing spoils a program.
Main exports:
  BuildStep, Builder.after, listings, FirstRepeated, Builder.Records, Builder.Records.push,
  Builder.records_after, Builder.Made.pairwise_ancestors, building_records
-/
import ClosureVtl.Proofs.Closure.Descent
import Mathlib.Data.List.Induction
import Mathlib.Data.List.Nodup

namespace ClosureVtl

/-!
Building looks at the handles that a node lists once, when the node is added, and only at
those of nodes that exist by then.  So all that it ever learns is one sequence of listings:
node by node in the order of building, and the children of a node in source order.

`Builder.Records` says what a builder knows of the listings that it has seen.  The parent of
a node is the one that listed it first, and the mishap that is kept is the first listing of a
node that was listed before.  One more listing keeps that true, whether or not it is a mishap;
the rest is induction, over the children of a node and over the steps of building.
-/

/-! ### Sequences of steps -/

/-- A step of building: a node is added, or an integration is registered. -/
inductive BuildStep where
  | add (node : Node)
  | register (integration : Integration)

namespace BuildStep

/-- The node that a step adds. -/
def node? : BuildStep → Option Node
  | add node => some node
  | register _ => none

/-- The nodes that steps add, in order. -/
def added (steps : List BuildStep) : List Node := steps.filterMap node?

end BuildStep

namespace Builder

/-- A builder after one more step. -/
def take (b : Builder) : BuildStep → Builder
  | .add node => b.push node
  | .register integration => { b with integrations := b.integrations.push integration }

/-- The builder that a sequence of steps makes. -/
def after (steps : List BuildStep) : Builder := steps.foldl take {}

/-- The last step is taken on what the others have built. -/
theorem after_concat (steps : List BuildStep) (step : BuildStep) :
    after (steps ++ [step]) = (after steps).take step :=
  List.foldl_append ..

theorem made_after (steps : List BuildStep) : (after steps).Made := by
  induction steps using List.reverseRecOn with
  | nil => exact .empty
  | append_singleton steps step ih =>
    rw [after_concat]
    cases step with
    | add node => exact ih.push node
    | register integration => exact ih.register integration

end Builder

/-! ### Listings -/

/-- A node that lists an older one. -/
structure Listing where
  child : NodeId
  parent : NodeId
deriving DecidableEq, Repr

/-- The listings of nodes that are added one after the other, in the order of building; the
children of a node are listed in source order. -/
def listings (nodes : List Node) : List Listing :=
  nodes.zipIdx.flatMap fun (node, position) =>
    (node.children.filter fun child => child.index < position).map fun child =>
      { child, parent := ⟨position⟩ }

/-- A new node adds the listings of its children that exist already. -/
theorem listings_concat (nodes : List Node) (node : Node) :
    listings (nodes ++ [node]) =
      listings nodes ++ (node.children.filter fun child => child.index < nodes.length).map
        fun child => { child, parent := ⟨nodes.length⟩ } := by
  simp [listings, List.zipIdx_append]

/-- Whether a listing is the first one of a node that was listed before. -/
def FirstRepeated (seen : List Listing) (listing : Listing) : Prop :=
  ∃ before later, seen = before ++ listing :: later ∧ (before.map Listing.child).Nodup ∧
    listing.child ∈ before.map Listing.child

section

variable {seen : List Listing} {listing last : Listing}

/-- A listing that repeats an earlier one makes the children of all listings not distinct. -/
theorem FirstRepeated.not_nodup (h : FirstRepeated seen listing) :
    ¬ (seen.map Listing.child).Nodup := by
  obtain ⟨before, later, rfl, -, hm⟩ := h
  rw [List.map_append, List.map_cons, List.nodup_middle, List.nodup_cons]
  exact fun hnodup => hnodup.1 (List.mem_append_left _ hm)

theorem FirstRepeated.mem (h : FirstRepeated seen listing) :
    listing.child ∈ seen.map Listing.child := by
  obtain ⟨before, later, rfl, -, hm⟩ := h
  rw [List.map_append]
  exact List.mem_append_left _ hm

/-- One more listing is the first repeated one if none was before it, and leaves that one
alone otherwise. -/
theorem firstRepeated_concat_iff :
    FirstRepeated (seen ++ [last]) listing ↔
      FirstRepeated seen listing ∨
        ((seen.map Listing.child).Nodup ∧ last.child ∈ seen.map Listing.child ∧
          listing = last) := by
  constructor
  · rintro ⟨before, later, heq, hnodup, hm⟩
    rcases List.eq_nil_or_concat later with rfl | ⟨later, final, rfl⟩
    · obtain ⟨rfl, hlast⟩ := List.append_inj' heq rfl
      cases hlast
      exact .inr ⟨hnodup, hm, rfl⟩
    · rw [List.concat_eq_append, ← List.cons_append, ← List.append_assoc] at heq
      obtain ⟨rfl, -⟩ := List.append_inj' heq rfl
      exact .inl ⟨before, later, rfl, hnodup, hm⟩
  · rintro (⟨before, later, rfl, hnodup, hm⟩ | ⟨hnodup, hm, rfl⟩)
    · exact ⟨before, later ++ [last], by simp, hnodup, hm⟩
    · exact ⟨seen, [], rfl, hnodup, hm⟩

/-- The listing of a node that was not listed before is no repetition. -/
theorem firstRepeated_concat_of_new (h : last.child ∉ seen.map Listing.child) :
    FirstRepeated (seen ++ [last]) listing ↔ FirstRepeated seen listing := by
  rw [firstRepeated_concat_iff, or_iff_left fun hlast => h hlast.2.1]

/-- Neither is any listing behind the first repeated one. -/
theorem firstRepeated_concat_of_not_nodup (h : ¬ (seen.map Listing.child).Nodup) :
    FirstRepeated (seen ++ [last]) listing ↔ FirstRepeated seen listing := by
  rw [firstRepeated_concat_iff, or_iff_left fun hlast => h hlast.1]

/-- The first listing of a node that was listed before is the first repeated one. -/
theorem firstRepeated_concat_of_nodup (hnodup : (seen.map Listing.child).Nodup)
    (hm : last.child ∈ seen.map Listing.child) :
    FirstRepeated (seen ++ [last]) listing ↔ listing = last := by
  rw [firstRepeated_concat_iff, or_iff_right fun hfirst => hfirst.not_nodup hnodup]
  exact ⟨fun h => h.2.2, fun h => ⟨hnodup, hm, h⟩⟩

/-- Unless all nodes are listed once, some listing is the first repeated one. -/
theorem exists_firstRepeated (h : ¬ (seen.map Listing.child).Nodup) :
    ∃ listing, FirstRepeated seen listing := by
  induction seen using List.reverseRecOn with
  | nil => exact absurd List.nodup_nil h
  | append_singleton seen last ih =>
    by_cases hseen : (seen.map Listing.child).Nodup
    · refine ⟨last, firstRepeated_concat_iff.mpr (.inr ⟨hseen, ?_, rfl⟩)⟩
      by_contra hm
      rw [List.map_append, List.map_singleton, ← List.concat_eq_append, List.nodup_concat] at h
      exact h ⟨hm, hseen⟩
    · obtain ⟨listing, hfirst⟩ := ih hseen
      exact ⟨listing, firstRepeated_concat_iff.mpr (.inl hfirst)⟩

/-- That a node is listed again somewhere says no more than that there is a first such
listing. -/
theorem exists_repeated_iff :
    (∃ before listing later, seen = before ++ listing :: later ∧
        listing.child ∈ before.map Listing.child) ↔
      ¬ (seen.map Listing.child).Nodup := by
  constructor
  · rintro ⟨before, listing, later, rfl, hm⟩ hnodup
    rw [List.map_append, List.map_cons, List.nodup_middle, List.nodup_cons] at hnodup
    exact hnodup.1 (List.mem_append_left _ hm)
  · intro h
    obtain ⟨listing, before, later, heq, -, hm⟩ := exists_firstRepeated h
    exact ⟨before, listing, later, heq, hm⟩

end

/-! ### What a builder knows -/

namespace Builder

variable {b : Builder} {seen : List Listing} {parent child id : NodeId}

/-- Whether a builder knows of some listings what it is to know: the first that lists a node
is its parent, and the first repeated listing is kept, with the parent that the node has. -/
structure Records (b : Builder) (seen : List Listing) : Prop where
  parent?_eq : ∀ child, b.arena.parent? child =
    (seen.find? fun listing => listing.child = child).map Listing.parent
  shared_eq_some_iff : ∀ s, b.shared = some s ↔
    FirstRepeated seen ⟨s.child, s.second⟩ ∧ b.arena.parent? s.child = some s.first

/-- A node without parent has not been listed. -/
theorem Records.parent?_eq_none_iff (h : b.Records seen) :
    b.arena.parent? child = none ↔ child ∉ seen.map Listing.child := by
  rw [h.parent?_eq, Option.map_eq_none_iff, List.find?_eq_none, List.mem_map]
  simp

/-- No mishap is kept exactly as long as no node is listed twice. -/
theorem Records.shared_eq_none_iff (h : b.Records seen) :
    b.shared = none ↔ (seen.map Listing.child).Nodup := by
  constructor
  · intro hnone
    by_contra hnodup
    obtain ⟨⟨child, second⟩, hfirst⟩ := exists_firstRepeated hnodup
    have hlisted : b.arena.parent? child ≠ none := fun horphan =>
      h.parent?_eq_none_iff.mp horphan hfirst.mem
    obtain ⟨first, hparent⟩ := Option.ne_none_iff_exists'.mp hlisted
    have hsome := (h.shared_eq_some_iff ⟨child, first, second⟩).mpr ⟨hfirst, hparent⟩
    rw [hnone] at hsome
    cases hsome
  · intro hnodup
    by_contra hsome
    obtain ⟨s, hs⟩ := Option.ne_none_iff_exists'.mp hsome
    exact ((h.shared_eq_some_iff s).mp hs).1.not_nodup hnodup

/-- A second parent is reported unless there was a mishap before. -/
theorem shared_adopt_of_parent? {first : NodeId} (h : b.arena.parent? child = some first) :
    (adopt parent b child).shared = b.shared.or (some { child, first, second := parent }) := by
  obtain ⟨entry, hentry, hparent⟩ := Option.bind_eq_some_iff.mp h
  have hentry : b.entries[child.index]? = some entry := hentry
  unfold adopt
  rw [hentry]
  cases entry
  cases hparent
  rfl

/-- The first parent is not reported. -/
theorem shared_adopt_of_orphan (h : b.arena.parent? child = none) :
    (adopt parent b child).shared = b.shared := by
  unfold adopt
  split
  · rfl
  · rfl
  · next node first hentry =>
    have hparent : b.arena.parent? child = some first := by
      simp [arena, Arena.parent?, hentry]
    rw [h] at hparent
    cases hparent

/-- An orphan gets the node that adopts it for its parent, any other node keeps the one
it has. -/
theorem parent?_arena_adopt (hlt : child.index < b.entries.size) (parent id : NodeId) :
    (adopt parent b child).arena.parent? id =
      (b.arena.parent? id).or (if id = child then some parent else none) := by
  rw [parent?_adopt]
  by_cases hid : id = child
  · simp [hid, hlt]
  · simp [hid]

/-- Adopting an orphan is the first listing of it and no mishap. -/
theorem Records.shared_adopt_orphan (h : b.Records seen) (hparent : b.arena.parent? child = none)
    (hlt : child.index < b.entries.size) (s : SharedChild) :
    (Builder.adopt parent b child).shared = some s ↔
      FirstRepeated (seen ++ [⟨child, parent⟩]) ⟨s.child, s.second⟩ ∧
        (Builder.adopt parent b child).arena.parent? s.child = some s.first := by
  have hnew : child ∉ seen.map Listing.child := h.parent?_eq_none_iff.mp hparent
  rw [shared_adopt_of_orphan hparent, firstRepeated_concat_of_new hnew, h.shared_eq_some_iff]
  refine and_congr_right fun hfirst => ?_
  have hne : s.child ≠ child := fun heq => hnew (heq ▸ hfirst.mem)
  rw [parent?_arena_adopt hlt, if_neg hne, Option.or_none]

/-- Adopting a node with a parent is a mishap, and kept if it is the first one. -/
theorem Records.shared_adopt_listed {first : NodeId} (h : b.Records seen)
    (hparent : b.arena.parent? child = some first) (hlt : child.index < b.entries.size)
    (s : SharedChild) :
    (Builder.adopt parent b child).shared = some s ↔
      FirstRepeated (seen ++ [⟨child, parent⟩]) ⟨s.child, s.second⟩ ∧
        (Builder.adopt parent b child).arena.parent? s.child = some s.first := by
  have hm : child ∈ seen.map Listing.child := by
    by_contra hm
    rw [h.parent?_eq_none_iff.mpr hm] at hparent
    cases hparent
  have hsame : (Builder.adopt parent b child).arena.parent? s.child = b.arena.parent? s.child := by
    rw [parent?_arena_adopt hlt]
    by_cases hs : s.child = child
    · rw [hs, hparent, Option.some_or]
    · rw [if_neg hs, Option.or_none]
  rw [shared_adopt_of_parent? hparent, hsame]
  -- a mishap that was kept before stays, and then the listing is not the first repeated one
  cases hshared : b.shared with
  | some kept =>
    have hrepeated := ((h.shared_eq_some_iff kept).mp hshared).1.not_nodup
    rw [Option.some_or, ← hshared, h.shared_eq_some_iff,
      firstRepeated_concat_of_not_nodup hrepeated]
  | none =>
    rw [Option.none_or, firstRepeated_concat_of_nodup (h.shared_eq_none_iff.mp hshared) hm]
    constructor
    · intro hs
      cases hs
      exact ⟨rfl, hparent⟩
    · rintro ⟨heq, hs⟩
      obtain ⟨child', first', second⟩ := s
      cases heq
      rw [hparent] at hs
      cases hs
      rfl

/-- Adopting a node is one more listing. -/
theorem Records.adopt (h : b.Records seen) (parent : NodeId) (hlt : child.index < b.entries.size) :
    (Builder.adopt parent b child).Records (seen ++ [⟨child, parent⟩]) where
  parent?_eq id := by
    rw [parent?_arena_adopt hlt, h.parent?_eq, List.find?_append, Option.map_or]
    by_cases hid : id = child
    · simp [hid]
    · simp [hid, Ne.symm hid]
  shared_eq_some_iff s := by
    cases hparent : b.arena.parent? child with
    | none => exact h.shared_adopt_orphan hparent hlt s
    | some first => exact h.shared_adopt_listed hparent hlt s

/-- So is adopting all children of a node, those that exist. -/
theorem Records.foldl_adopt (h : b.Records seen) (parent : NodeId) (children : List NodeId) :
    (children.foldl (Builder.adopt parent) b).Records
      (seen ++ (children.filter fun child => child.index < b.entries.size).map
        fun child => ⟨child, parent⟩) := by
  induction children generalizing b seen with
  | nil => simpa using h
  | cons child rest ih =>
    rw [List.foldl_cons]
    by_cases hlt : child.index < b.entries.size
    · have hrest := ih (h.adopt parent hlt)
      rw [size_adopt] at hrest
      rw [List.filter_cons_of_pos (by simpa using hlt), List.map_cons]
      simpa using hrest
    · have hskip : Builder.adopt parent b child = b := by
        unfold Builder.adopt
        rw [Array.getElem?_eq_none_iff.mpr (Nat.le_of_not_lt hlt)]
      rw [hskip, List.filter_cons_of_neg (by simpa using hlt)]
      exact ih h

/-- The node itself brings no listing of its own. -/
theorem Records.push (h : b.Records seen) (node : Node) :
    (b.push node).Records
      (seen ++ (node.children.filter fun child => child.index < b.entries.size).map
        fun child => ⟨child, b.next⟩) := by
  have hadopted := h.foldl_adopt b.next node.children
  have hparents : ∀ id, (b.push node).arena.parent? id =
      (node.children.foldl (Builder.adopt b.next) b).arena.parent? id := by
    intro id
    rw [parent?_push, parent?_foldl_adopt]
  exact {
    parent?_eq := fun id => (hparents id).trans (hadopted.parent?_eq id)
    shared_eq_some_iff := fun s => by
      rw [hparents]
      exact hadopted.shared_eq_some_iff s }

/-- A builder knows of all listings among the nodes that were added. -/
theorem records_after (steps : List BuildStep) :
    (after steps).entries.size = (BuildStep.added steps).length ∧
      (after steps).Records (listings (BuildStep.added steps)) := by
  induction steps using List.reverseRecOn with
  | nil =>
    refine ⟨rfl, fun child => rfl, fun s => ?_⟩
    constructor
    · intro hs
      cases hs
    · rintro ⟨⟨before, later, heq, -⟩, -⟩
      cases List.append_ne_nil_of_right_ne_nil _ (List.cons_ne_nil _ _) heq.symm
  | append_singleton steps step ih =>
    obtain ⟨hsize, hrecords⟩ := ih
    rw [after_concat, BuildStep.added, List.filterMap_append]
    cases step with
    | register integration =>
      have hnodes : (steps.filterMap BuildStep.node? ++
          [BuildStep.register integration].filterMap BuildStep.node?) = BuildStep.added steps :=
        List.append_nil _
      rw [hnodes]
      exact ⟨hsize, hrecords.1, hrecords.2⟩
    | add node =>
      change (Builder.push _ node).entries.size = (BuildStep.added steps ++ [node]).length ∧
        (Builder.push _ node).Records (listings (BuildStep.added steps ++ [node]))
      refine ⟨?_, ?_⟩
      · rw [size_push, hsize, List.length_append, List.length_singleton]
      · rw [listings_concat, ← hsize]
        exact hrecords.push node

/-- The nodes of a builder are those that were added, in order. -/
theorem get?_after (steps : List BuildStep) (id : NodeId) :
    (after steps).arena.get? id = (BuildStep.added steps)[id.index]? := by
  induction steps using List.reverseRecOn with
  | nil => rfl
  | append_singleton steps step ih =>
    rw [after_concat, BuildStep.added, List.filterMap_append]
    cases step with
    | register integration =>
      exact ih.trans (congrArg (·[id.index]?) (List.append_nil _).symm)
    | add node =>
      have hsize := (records_after steps).1
      change (Builder.push _ node).arena.get? id = (BuildStep.added steps ++ [node])[id.index]?
      rw [get?_push, ih, next, hsize]
      by_cases hid : id = ⟨(BuildStep.added steps).length⟩
      · simp [hid]
      · have hne : id.index ≠ (BuildStep.added steps).length := fun he => hid (by rw [← he])
        rw [if_neg hid]
        rcases Nat.lt_or_gt_of_ne hne with hlt | hgt
        · rw [List.getElem?_append_left hlt]
        · rw [List.getElem?_append_right (Nat.le_of_lt hgt),
            List.getElem?_eq_none_iff.mpr (Nat.le_of_lt hgt), eq_comm, List.getElem?_eq_none_iff,
            List.length_singleton]
          omega

/-- Whatever is built, parents are younger than their children. -/
theorem Made.lt_parent (made : b.Made) (h : b.arena.parent? child = some parent) :
    child.index < parent.index :=
  (made.parent?_eq_some_iff.mp h).1

/-- From a node to its parent, to the parent of that and so on, handles grow. -/
theorem Made.pairwise_ancestors (made : b.Made) (id : NodeId) :
    (id :: b.arena.ancestors id).Pairwise fun lower upper => lower.index < upper.index := by
  induction hk : b.arena.size - id.index using Nat.strongRecOn generalizing id with
  | ind k ih =>
    rw [Arena.ancestors_eq_of_lt made.lt_parent]
    cases hparent : b.arena.parent? id with
    | none => exact List.pairwise_singleton _ _
    | some parent =>
      have hlt := made.lt_parent hparent
      have hsize := Arena.lt_size_of_parent? hparent
      have hrest := ih (b.arena.size - parent.index) (by omega) parent rfl
      refine List.pairwise_cons.mpr ⟨fun above habove => ?_, hrest⟩
      rcases List.mem_cons.mp habove with rfl | habove
      · exact hlt
      · exact Nat.lt_trans hlt (List.rel_of_pairwise_cons hrest habove)

/-- Building fails with the record of the first repeated listing, and with nothing else. -/
theorem finish_eq_error_iff {fault : Fault} :
    b.finish = .error fault ↔
      ∃ s, b.shared = some s ∧ fault = .breach (.shared s.child s.first s.second) := by
  unfold finish
  cases b.shared with
  | none => simp
  | some s => simp [eq_comm]

/-- Without such a record it gives what was built. -/
theorem finish_eq_ok_iff {p : Program} : b.finish = .ok p ↔ b.shared = none ∧ p = b.program := by
  unfold finish
  cases b.shared with
  | none => simp [program, arena, eq_comm]
  | some s => simp

end Builder

/-- What building records, whatever nodes are added: the parent of a node is the first later
node that lists it; from a node to its parent and so on handles grow, up to a node without
parent; and the program is spoiled exactly if some node is listed again by a later node, be it
one that listed it before.  The first listing of that kind is reported: its node, the parent
that the node has, and the node that listed it again. -/
theorem building_records (steps : List BuildStep) :
    let b := Builder.after steps
    let nodes := BuildStep.added steps
    (∀ id, b.arena.get? id = nodes[id.index]?) ∧
    (∀ parent child, b.arena.parent? child = some parent ↔ b.arena.Adopts parent child) ∧
    (∀ id,
      (b.arena.ancestors id = match b.arena.parent? id with
        | none => []
        | some parent => parent :: b.arena.ancestors parent) ∧
      (id :: b.arena.ancestors id).Pairwise fun lower upper => lower.index < upper.index) ∧
    ((∃ fault, b.finish = .error fault) ↔
      ∃ before listing later, listings nodes = before ++ listing :: later ∧
        listing.child ∈ before.map Listing.child) ∧
    (∀ fault, b.finish = .error fault ↔
      ∃ listing first, FirstRepeated (listings nodes) listing ∧
        b.arena.parent? listing.child = some first ∧
        fault = .breach (.shared listing.child first listing.parent)) ∧
    ∀ p, b.finish = .ok p ↔ p = b.program ∧ ((listings nodes).map Listing.child).Nodup := by
  intro b nodes
  have made : b.Made := Builder.made_after steps
  have hrecords : b.Records (listings nodes) := (Builder.records_after steps).2
  have hfails : (∃ fault, b.finish = .error fault) ↔ b.shared ≠ none := by
    simp only [Builder.finish_eq_error_iff, Option.ne_none_iff_exists']
    exact ⟨fun ⟨_, s, hs, _⟩ => ⟨s, hs⟩, fun ⟨s, hs⟩ => ⟨_, s, hs, rfl⟩⟩
  refine ⟨Builder.get?_after steps, fun parent child => made.parent?_eq_some_iff,
    fun id => ⟨Arena.ancestors_eq_of_lt made.lt_parent id, made.pairwise_ancestors id⟩, ?_,
    fun fault => ?_, fun p => ?_⟩
  · rw [hfails, exists_repeated_iff, ne_eq, hrecords.shared_eq_none_iff]
  · rw [Builder.finish_eq_error_iff]
    constructor
    · rintro ⟨s, hs, rfl⟩
      obtain ⟨hfirst, hparent⟩ := (hrecords.shared_eq_some_iff s).mp hs
      exact ⟨⟨s.child, s.second⟩, s.first, hfirst, hparent, rfl⟩
    · rintro ⟨⟨child, second⟩, first, hfirst, hparent, rfl⟩
      exact ⟨⟨child, first, second⟩, (hrecords.shared_eq_some_iff _).mpr ⟨hfirst, hparent⟩, rfl⟩
  · rw [Builder.finish_eq_ok_iff, hrecords.shared_eq_none_iff, and_comm]

end ClosureVtl
