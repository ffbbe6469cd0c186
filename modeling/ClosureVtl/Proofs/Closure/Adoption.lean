/-
Module: ClosureVtl.Proofs.Closure.Adoption
Purpose: What building records: each node is adopted by the first later node
  that lists it, and a finished program has no node that is listed twice.
Main exports:
  Builder.Made, Arena.Lists, Arena.Adopts, Builder.Made.parent?_eq_some_iff,
  Builder.Made.listed_once, Builder.of, Builder.made_of
-/
import ClosureVtl.Closure.Builder

namespace ClosureVtl

/-!
Building is a sequence of steps that add a node or register an integration.  The
invariant of a step speaks about parent links only through the nodes themselves:
the parent of a node is the first later node that has it among its children.  A
link is never overwritten, so the invariant is carried by one case analysis of
`Builder.adopt` and an induction over the children of the node that is added.
-/

/-- Whether a node has another among its children. -/
def Arena.Lists (a : Arena) (parent child : NodeId) : Prop :=
  ∃ node, a.get? parent = some node ∧ child ∈ node.children

/-- Whether a node is the first of the later nodes that list another. -/
def Arena.Adopts (a : Arena) (parent child : NodeId) : Prop :=
  child.index < parent.index ∧ a.Lists parent child ∧
    ∀ other : NodeId, child.index < other.index → other.index < parent.index →
      ¬ a.Lists other child

namespace Builder

/-- The nodes of a builder as an arena. -/
def arena (b : Builder) : Arena := { entries := b.entries }

/-- The builders that a sequence of steps makes. -/
inductive Made : Builder → Prop where
  | empty : Made {}
  | push {b : Builder} (made : Made b) (node : Node) : Made (b.push node)
  | register {b : Builder} (made : Made b) (integration : Integration) :
      Made { b with integrations := b.integrations.push integration }

/-! ### One child -/

variable {b : Builder} {parent child id : NodeId} {children : List NodeId}

/-- Adopting changes parents and no nodes. -/
@[simp] theorem get?_adopt : (adopt parent b child).arena.get? id = b.arena.get? id := by
  unfold adopt
  split
  · rfl
  · next node h =>
    by_cases hid : child.index = id.index
    · rw [hid] at h
      obtain ⟨hlt, he⟩ := Array.getElem?_eq_some_iff.mp h
      simp [arena, Arena.get?, hid, hlt, he]
    · simp [arena, Arena.get?, Array.getElem?_setIfInBounds_ne hid]
  · rfl

/-- A child without parent is given one; nothing else changes. -/
theorem parent?_adopt :
    (adopt parent b child).arena.parent? id =
      (b.arena.parent? id).or
        (if id = child ∧ id.index < b.entries.size then some parent else none) := by
  unfold adopt
  split
  · next h =>
    have hge := Array.getElem?_eq_none_iff.mp h
    have hno : ¬ (id = child ∧ id.index < b.entries.size) := by
      rintro ⟨rfl, hlt⟩
      omega
    simp [hno]
  · next node h =>
    obtain ⟨hlt, he⟩ := Array.getElem?_eq_some_iff.mp h
    by_cases hid : id = child
    · subst hid
      simp [arena, Arena.parent?, hlt, he]
    · have hne : child.index ≠ id.index := fun he => hid (by cases id; cases child; simp_all)
      simp [arena, Arena.parent?, Array.getElem?_setIfInBounds_ne hne, hid]
  · next node first h =>
    by_cases hid : id = child
    · subst hid
      simp [arena, Arena.parent?, h]
    · simp [arena, hid]

/-- Adopting leaves no mishap only if the child is new or leads nowhere. -/
theorem orphan_of_shared_adopt (h : (adopt parent b child).shared = none) :
    b.shared = none ∧ (child.index < b.entries.size → b.arena.parent? child = none) := by
  unfold adopt at h
  split at h
  · next hc =>
    have hge := Array.getElem?_eq_none_iff.mp hc
    exact ⟨h, fun hlt => absurd hlt (by omega)⟩
  · next node hc =>
    exact ⟨h, fun _ => by simp [arena, Arena.parent?, hc]⟩
  · next node first hc =>
    simp at h

/-! ### All children of a node -/

@[simp] theorem get?_foldl_adopt :
    (children.foldl (adopt parent) b).arena.get? id = b.arena.get? id := by
  induction children generalizing b with
  | nil => rfl
  | cons child rest ih => rw [List.foldl_cons, ih, get?_adopt]

/-- The orphans among the children are given the parent. -/
theorem parent?_foldl_adopt :
    (children.foldl (adopt parent) b).arena.parent? id =
      (b.arena.parent? id).or
        (if id ∈ children ∧ id.index < b.entries.size then some parent else none) := by
  induction children generalizing b with
  | nil => simp
  | cons child rest ih =>
    rw [List.foldl_cons, ih, parent?_adopt, size_adopt]
    cases b.arena.parent? id with
    | some first => rfl
    | none =>
      by_cases hlt : id.index < b.entries.size
      · by_cases hid : id = child
        · simp [hid, hid ▸ hlt]
        · simp [hid]
      · simp [hlt]

/-- Adopting all children leaves no mishap only if each that leads somewhere is
an orphan and occurs once. -/
theorem orphans_of_shared_foldl_adopt
    (h : (children.foldl (adopt parent) b).shared = none) :
    b.shared = none ∧ ∀ child ∈ children, child.index < b.entries.size →
      b.arena.parent? child = none ∧ children.count child = 1 := by
  induction children generalizing b with
  | nil => exact ⟨h, by simp⟩
  | cons first rest ih =>
    rw [List.foldl_cons] at h
    obtain ⟨hs, hrest⟩ := ih h
    obtain ⟨hb, horphan⟩ := orphan_of_shared_adopt hs
    refine ⟨hb, fun child hc hlt => ?_⟩
    -- `first` has a parent from now on, so it cannot be an orphan among the rest
    have hnotin : first.index < b.entries.size → first ∉ rest := by
      intro hf hm
      have := (hrest first hm (by simpa using hf)).1
      rw [parent?_adopt] at this
      simp [hf] at this
    rcases List.mem_cons.mp hc with rfl | hm
    · refine ⟨horphan hlt, ?_⟩
      rw [List.count_cons_self, List.count_eq_zero_of_not_mem (hnotin hlt)]
    · obtain ⟨hp, hcount⟩ := hrest child hm (by simpa using hlt)
      rw [parent?_adopt] at hp
      have hne : first ≠ child := fun he => hnotin (he ▸ hlt) (he ▸ hm)
      refine ⟨(Option.or_eq_none_iff.mp hp).1, ?_⟩
      rw [List.count_cons_of_ne hne, hcount]

/-! ### One step -/

variable {node : Node}

/-- A new node is found behind the next handle, and all others where they were. -/
theorem get?_push :
    (b.push node).arena.get? id = if id = b.next then some node else b.arena.get? id := by
  have hsize : (node.children.foldl (adopt b.next) b).entries.size = b.entries.size :=
    size_foldl_adopt b.next node.children b
  have hold : (node.children.foldl (adopt b.next) b).arena.get? id = b.arena.get? id :=
    get?_foldl_adopt
  by_cases hid : id = b.next
  · simp only [push, arena, Arena.get?]
    rw [Array.getElem?_push, hsize, hid]
    simp [next]
  · have hne : id.index ≠ b.entries.size := fun he => hid (by cases id; simp_all [next])
    rw [if_neg hid, ← hold]
    simp [push, arena, Arena.get?, Array.getElem?_push, hsize, hne]

/-- The node that is added becomes the parent of its orphans. -/
theorem parent?_push :
    (b.push node).arena.parent? id =
      (b.arena.parent? id).or
        (if id ∈ node.children ∧ id.index < b.entries.size then some b.next else none) := by
  have hsize : (node.children.foldl (adopt b.next) b).entries.size = b.entries.size :=
    size_foldl_adopt b.next node.children b
  rw [← parent?_foldl_adopt]
  by_cases hid : id.index = b.entries.size
  · simp only [push, arena, Arena.parent?]
    rw [Array.getElem?_push, hsize]
    simp [hid]
  · simp [push, arena, Arena.parent?, Array.getElem?_push, hsize, hid]

@[simp] theorem next_push : (b.push node).next = ⟨b.next.index + 1⟩ :=
  congrArg NodeId.mk (b.size_push node)

@[simp] theorem integrations_push : (b.push node).integrations = b.integrations := by
  have hadopt : ∀ (children : List NodeId) (parent : NodeId) (b : Builder),
      (children.foldl (adopt parent) b).integrations = b.integrations := by
    intro children parent
    induction children with
    | nil => exact fun _ => rfl
    | cons child rest ih =>
      intro b
      rw [List.foldl_cons, ih]
      unfold adopt
      split <;> rfl
  exact hadopt node.children b.next b

/-- Only the new node lists anything that was not listed before. -/
theorem lists_push {parent child : NodeId} :
    (b.push node).arena.Lists parent child ↔
      (parent = b.next ∧ child ∈ node.children) ∨
        (parent ≠ b.next ∧ b.arena.Lists parent child) := by
  by_cases hp : parent = b.next <;> simp [Arena.Lists, get?_push, hp]

end Builder

/-! ### The first of the later nodes -/

namespace Arena

variable {a : Arena} {parent other child : NodeId}

/-- Only nodes that exist list others. -/
theorem Lists.mem_children {node : Node} (h : a.Lists parent child)
    (hn : a.get? parent = some node) : child ∈ node.children := by
  obtain ⟨other, hother, hm⟩ := h
  cases hn.symm.trans hother
  exact hm

/-- A node that lists something is in the arena. -/
theorem Lists.lt_size (h : a.Lists parent child) : parent.index < a.size := by
  obtain ⟨node, hn, -⟩ := h
  exact get?_isSome_iff.mp (by rw [hn]; rfl)

/-- A node is adopted by one node only. -/
theorem Adopts.unique (h : a.Adopts parent child) (h' : a.Adopts other child) :
    parent = other := by
  obtain ⟨hlt, hl, hfirst⟩ := h
  obtain ⟨hlt', hl', hfirst'⟩ := h'
  rcases Nat.lt_trichotomy parent.index other.index with hpo | heq | hop
  · exact absurd hl (hfirst' parent hlt hpo)
  · cases parent
    cases other
    exact congrArg NodeId.mk heq
  · exact absurd hl' (hfirst other hlt' hop)

/-- Of the later nodes that list a node there is a first. -/
theorem exists_adopts (hlt : child.index < parent.index) (h : a.Lists parent child) :
    ∃ first, a.Adopts first child := by
  induction hn : parent.index using Nat.strongRecOn generalizing parent with
  | ind n ih =>
    by_cases hearlier : ∃ other : NodeId,
        child.index < other.index ∧ other.index < parent.index ∧ a.Lists other child
    · obtain ⟨other, hco, hop, hl⟩ := hearlier
      exact ih other.index (hn ▸ hop) hco hl rfl
    · refine ⟨parent, hlt, h, fun other hco hop hl => hearlier ⟨other, hco, hop, hl⟩⟩

end Arena

namespace Builder

variable {b : Builder} {parent child id : NodeId} {node : Node}

/-- The nodes of a builder stay the first to list their children. -/
theorem adopts_push_iff (hp : parent.index < b.entries.size) :
    (b.push node).arena.Adopts parent child ↔ b.arena.Adopts parent child := by
  have hold : ∀ other : NodeId, other.index < b.entries.size →
      ((b.push node).arena.Lists other child ↔ b.arena.Lists other child) := by
    intro other ho
    have hne : other ≠ b.next := by
      rintro rfl
      exact Nat.lt_irrefl _ ho
    rw [lists_push]
    simp [hne]
  unfold Arena.Adopts
  rw [hold parent hp]
  refine and_congr_right fun _ => and_congr_right fun _ => ?_
  refine forall_congr' fun other => forall_congr' fun _ => forall_congr' fun hop => ?_
  rw [hold other (Nat.lt_trans hop hp)]

namespace Made

/-- The parent of a node is the first later node that lists it. -/
theorem parent?_eq_some_iff (made : b.Made) {parent child : NodeId} :
    b.arena.parent? child = some parent ↔ b.arena.Adopts parent child := by
  induction made generalizing parent child with
  | empty =>
    constructor
    · intro h
      simp [arena, Arena.parent?] at h
    · rintro ⟨-, hl, -⟩
      exact absurd hl.lt_size (by simp [arena, Arena.size])
  | register made integration ih => exact ih
  | @push b made node ih =>
    rw [parent?_push]
    cases hq : b.arena.parent? child with
    | some first =>
      have hfirst := ih.mp hq
      have hnew : (b.push node).arena.Adopts first child :=
        (adopts_push_iff hfirst.2.1.lt_size).mpr hfirst
      constructor
      · intro h
        cases h
        exact hnew
      · intro h
        rw [h.unique hnew]
        rfl
    | none =>
      -- no earlier node lists the child, so only the new one can adopt it
      have horphan : ∀ other : NodeId, child.index < other.index → ¬ b.arena.Lists other child := by
        intro other hlt hl
        obtain ⟨first, hf⟩ := Arena.exists_adopts hlt hl
        rw [ih.mpr hf] at hq
        cases hq
      constructor
      · intro h
        rw [Option.none_or] at h
        split at h
        · next hc =>
          cases h
          refine ⟨hc.2, lists_push.mpr (.inl ⟨rfl, hc.1⟩), fun other hco hon hl => ?_⟩
          rcases lists_push.mp hl with ⟨rfl, -⟩ | ⟨-, hl⟩
          · exact Nat.lt_irrefl _ hon
          · exact horphan other hco hl
        · cases h
      · rintro ⟨hlt, hl, -⟩
        rcases lists_push.mp hl with ⟨rfl, hm⟩ | ⟨-, hl⟩
        · rw [Option.none_or, if_pos ⟨hm, hlt⟩]
        · exact absurd hl (horphan parent hlt)

/-- Without mishap, whatever later node lists a node is its parent, and lists it
once. -/
theorem listed_once (made : b.Made) (hs : b.shared = none) {parent child : NodeId} {node : Node}
    (hn : b.arena.get? parent = some node) (hm : child ∈ node.children)
    (hlt : child.index < parent.index) :
    b.arena.parent? child = some parent ∧ node.children.count child = 1 := by
  induction made generalizing parent child node with
  | empty => simp [arena, Arena.get?] at hn
  | register made integration ih => exact ih hs hn hm hlt
  | @push b made added ih =>
    have hadopted : (added.children.foldl (adopt b.next) b).shared = none := hs
    obtain ⟨hb, horphan⟩ := orphans_of_shared_foldl_adopt hadopted
    rw [get?_push] at hn
    rw [parent?_push]
    split at hn
    · next hp =>
      cases hn
      subst hp
      obtain ⟨hnone, hcount⟩ := horphan child hm hlt
      refine ⟨?_, hcount⟩
      rw [hnone, Option.none_or, if_pos ⟨hm, hlt⟩]
    · obtain ⟨hp, hcount⟩ := ih hb hn hm hlt
      refine ⟨?_, hcount⟩
      rw [hp]
      rfl

end Made

/-! ### Given nodes -/

/-- The builder that registers integrations and then adds nodes. -/
def of (integrations : List Integration) (nodes : List Node) : Builder :=
  nodes.foldl push { integrations := integrations.toArray }

/-- Whatever is pushed, the builder is still one that was made by pushing. -/
theorem made_foldl_push (made : b.Made) (nodes : List Node) : (nodes.foldl push b).Made := by
  induction nodes generalizing b with
  | nil => exact made
  | cons node rest ih => exact ih (made.push node)

theorem made_of (integrations : List Integration) (nodes : List Node) :
    (of integrations nodes).Made := by
  have hregister : ∀ (more : List Integration) {b : Builder}, b.Made →
      ({ b with integrations := b.integrations ++ more.toArray } : Builder).Made := by
    intro more
    induction more with
    | nil =>
      intro b made
      simpa using made
    | cons integration rest ih =>
      intro b made
      have hrest := ih (made.register integration)
      simpa using hrest
  have hstart := hregister integrations Made.empty
  apply made_foldl_push
  simpa using hstart

theorem integrations_of {integrations : List Integration} {nodes : List Node} :
    (of integrations nodes).integrations = integrations.toArray := by
  have hpush : ∀ (nodes : List Node) (b : Builder),
      (nodes.foldl push b).integrations = b.integrations := by
    intro nodes
    induction nodes with
    | nil => exact fun _ => rfl
    | cons node rest ih =>
      intro b
      rw [List.foldl_cons, ih, integrations_push]
  exact hpush nodes _

/-- Each node is found under its position. -/
theorem get?_of {integrations : List Integration} {nodes : List Node} :
    (of integrations nodes).arena.get? id = nodes[id.index]? := by
  -- the nodes that are added follow those that are there
  have hfoldl : ∀ (added earlier : List Node) (b : Builder),
      b.entries.size = earlier.length → (∀ id, b.arena.get? id = earlier[id.index]?) →
      ∀ id, (added.foldl push b).arena.get? id = (earlier ++ added)[id.index]? := by
    intro added
    induction added with
    | nil =>
      intro earlier b _ hget id
      rw [List.append_nil]
      exact hget id
    | cons node rest ih =>
      intro earlier b hsize hget id
      have hstep : ∀ id, (b.push node).arena.get? id = (earlier ++ [node])[id.index]? := by
        intro id
        rw [get?_push, hget]
        by_cases hid : id = b.next
        · rw [if_pos hid, hid]
          simp [next, hsize]
        · have hne : id.index ≠ earlier.length := fun he => hid (by cases id; simp_all [next])
          rw [if_neg hid]
          rcases Nat.lt_or_gt_of_ne hne with hlt | hgt
          · rw [List.getElem?_append_left hlt]
          · rw [List.getElem?_eq_none (by omega), List.getElem?_eq_none (by simp; omega)]
      have hrest := ih (earlier ++ [node]) (b.push node) (by simp [size_push, hsize]) hstep id
      simpa using hrest
  have hstart := hfoldl nodes [] { integrations := integrations.toArray } rfl
    (fun id => by simp [arena, Arena.get?]) id
  exact hstart

end Builder

end ClosureVtl
