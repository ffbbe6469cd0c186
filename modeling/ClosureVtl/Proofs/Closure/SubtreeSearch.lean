/-
Module: ClosureVtl.Proofs.Closure.SubtreeSearch
Purpose: The search of a subtree as a loop over a stack of handles: it ends, looks at each node
  once and after its parent, and stops at the first hit.
Main exports:
  Arena.SearchLoop, Arena.Grown.searchLoop_iff, Arena.Searching, Arena.Searched,
  Arena.Grown.anyDescendant_iff, subtree_searched_once
-/
import ClosureVtl.Proofs.Closure.Subtree

namespace ClosureVtl

/-!
A search can be run as a loop: it takes the handle on top of a stack, looks at the node behind
it, and puts the children of the node on the stack instead, the last one on top.  The loop keeps
no account of where it has been.  That it ends, and that it meets no node twice, is due to the
arena alone.

What carries the argument is how a subtree of a grown arena is shared out: it is its root and the
subtrees of the children, and these have nothing in common.  So between two turns each node of the
searched subtree either was looked at or is in the subtree of one handle on the stack, and not in
two of them.  One turn keeps this, and at the end of a search without a hit the stack is empty.

That the loop ends is seen from the search by recursion: whatever a handle puts on the stack is
worked off before anything below it, and just as the recursion does it.
-/

namespace Arena

variable {a : Arena} {root id : NodeId} {node : Node} {hit : NodeId → Node → Bool}
  {stack visited rest : List NodeId} {result : Sweep} {n : Nat}

/-! ### The loop -/

/-- The loop of a search: from the handles on its stack, the top one first, and the nodes that it
looked at, the latest first, to its result.  There is one rule for each way a turn can go. -/
inductive SearchLoop (a : Arena) (hit : NodeId → Node → Bool) :
    List NodeId → List NodeId → Sweep → Prop where
  | emptied (visited : List NodeId) : SearchLoop a hit [] visited { found := false, visited }
  | skipped {id : NodeId} {stack visited : List NodeId} {result : Sweep} (hn : a.get? id = none)
      (further : SearchLoop a hit stack visited result) :
      SearchLoop a hit (id :: stack) visited result
  | stopped {id : NodeId} {node : Node} {stack visited : List NodeId} (hn : a.get? id = some node)
      (hhit : hit id node = true) :
      SearchLoop a hit (id :: stack) visited { found := true, visited := id :: visited }
  | descended {id : NodeId} {node : Node} {stack visited : List NodeId} {result : Sweep}
      (hn : a.get? id = some node) (hmiss : hit id node = false)
      (further : SearchLoop a hit (node.children.reverse ++ stack) (id :: visited) result) :
      SearchLoop a hit (id :: stack) visited result

/-- No two rules apply to one turn. -/
theorem SearchLoop.unique {other : Sweep} (h : a.SearchLoop hit stack visited result)
    (h' : a.SearchLoop hit stack visited other) : result = other := by
  induction h with
  | emptied =>
    cases h'
    rfl
  | skipped hn _ ih =>
    cases h' with
    | skipped _ further => exact ih further
    | stopped hn' _ => cases hn.symm.trans hn'
    | descended hn' _ _ => cases hn.symm.trans hn'
  | stopped hn hhit =>
    cases h' with
    | skipped hn' _ => cases hn.symm.trans hn'
    | stopped _ _ => rfl
    | descended hn' hmiss _ =>
      cases hn.symm.trans hn'
      cases hhit.symm.trans hmiss
  | descended hn hmiss _ ih =>
    cases h' with
    | skipped hn' _ => cases hn.symm.trans hn'
    | stopped hn' hhit =>
      cases hn.symm.trans hn'
      cases hhit.symm.trans hmiss
    | descended hn' _ further =>
      cases hn.symm.trans hn'
      exact ih further

/-! ### The loop and the recursion -/

/-- Whether the loop comes to a result with these handles left on its stack, after the search of
what was above them. -/
def Resumes (a : Arena) (hit : NodeId → Node → Bool) (stack : List NodeId) (reached result : Sweep) :
    Prop :=
  if reached.found then result = reached else a.SearchLoop hit stack reached.visited result

/-- Handles that are each worked off as a search says are worked off one after the other. -/
theorem resumes_append {search : NodeId → Sweep → Sweep} {parts : List NodeId}
    (hparts : ∀ part ∈ parts, ∀ stack visited, a.Resumes hit stack (search part { visited }) result →
      a.SearchLoop hit (part :: stack) visited result) {reached : Sweep}
    (h : a.Resumes hit stack (parts.foldl (fun reached part =>
      if reached.found then reached else search part reached) reached) result) :
    a.Resumes hit (parts ++ stack) reached result := by
  induction parts generalizing reached with
  | nil => exact h
  | cons part rest ih =>
    have hrest := ih (fun other hm => hparts other (List.mem_cons_of_mem _ hm)) h
    obtain ⟨found, visited⟩ := reached
    cases found with
    | false => exact hparts part List.mem_cons_self (rest ++ stack) visited hrest
    | true => exact hrest

namespace Grown

/-- The loop works off a handle as the recursion does. -/
theorem searchLoop_cons (ha : a.Grown) (hid : a.age id ≤ n)
    (h : a.Resumes hit stack (a.searchFrom hit n id { visited }) result) :
    a.SearchLoop hit (id :: stack) visited result := by
  induction n generalizing id stack visited with
  | zero => exact .skipped (get?_eq_none_of_age (Nat.le_zero.mp hid)) h
  | succ n ih =>
    rw [searchFrom] at h
    cases hn : a.get? id with
    | none =>
      rw [hn] at h
      exact .skipped hn h
    | some node =>
      rw [hn] at h
      cases hhit : hit id node with
      | true =>
        simp only [hhit, if_true] at h
        have hresult : result = { found := true, visited := id :: visited } := h
        rw [hresult]
        exact .stopped hn hhit
      | false =>
        simp only [hhit, Bool.false_eq_true, if_false] at h
        rw [← List.foldl_reverse] at h
        refine .descended hn hhit (resumes_append (fun part hm stack visited hpart => ?_) h)
        have hlt := ha.age_lt ⟨node, hn, List.mem_reverse.mp hm⟩
        exact ih (by omega) hpart

/-- So the loop ends, and with what the recursion gives. -/
theorem searchLoop_iff (ha : a.Grown) :
    a.SearchLoop hit [root] [] result ↔ result = a.search root hit := by
  have hends : a.SearchLoop hit [root] [] (a.search root hit) := by
    apply ha.searchLoop_cons (age_le_succ_size a root)
    show a.Resumes hit [] (a.search root hit) (a.search root hit)
    obtain ⟨found, visited⟩ := a.search root hit
    cases found with
    | false => exact .emptied visited
    | true => rfl
  exact ⟨fun h => h.unique hends, fun h => h ▸ hends⟩

end Grown

/-! ### Between two turns -/

/-- Whether each of the visited nodes, the latest first, comes after its parent; only the root of
the search need not. -/
def ParentsFirst (a : Arena) (root : NodeId) (visited : List NodeId) : Prop :=
  ∀ later id earlier, visited = later ++ id :: earlier →
    id = root ∨ ∃ parent ∈ earlier, a.parent? id = some parent

/-- A node is visited after its parent. -/
theorem ParentsFirst.cons (h : a.ParentsFirst root visited)
    (hid : id = root ∨ ∃ parent ∈ visited, a.parent? id = some parent) :
    a.ParentsFirst root (id :: visited) := by
  intro later other earlier hsplit
  cases later with
  | nil =>
    cases hsplit
    exact hid
  | cons latest later =>
    cases hsplit
    exact h later other earlier rfl

/-- What a search from a root has come to between two turns of its loop. -/
structure Searching (a : Arena) (root : NodeId) (hit : NodeId → Node → Bool)
    (stack visited : List NodeId) : Prop where
  /-- Each node of the subtree was looked at or is below one handle on the stack. -/
  shares : (visited ++ stack.flatMap a.subtree).Perm (a.subtree root)
  /-- Nothing has hit so far. -/
  missed : ∀ id ∈ visited, ∀ node, a.get? id = some node → hit id node = false
  parentsFirst : a.ParentsFirst root visited
  /-- Whatever is on the stack was put there by a node that was looked at. -/
  listed : ∀ id ∈ stack, id = root ∨ ∃ parent ∈ visited, a.Lists parent id

/-- What a search from a root has done when it has ended. -/
structure Searched (a : Arena) (root : NodeId) (hit : NodeId → Node → Bool) (sweep : Sweep) :
    Prop where
  /-- Only nodes of the subtree are looked at. -/
  within : ∀ id ∈ sweep.visited, id.index < a.size ∧ a.Below root id
  once : sweep.visited.Nodup
  parentsFirst : a.ParentsFirst root sweep.visited
  /-- The first hit is the last node that is looked at. -/
  stops : sweep.found = true → ∃ last node earlier, sweep.visited = last :: earlier ∧
    a.get? last = some node ∧ hit last node = true ∧
      ∀ id ∈ earlier, ∀ node, a.get? id = some node → hit id node = false
  /-- Without a hit all nodes of the subtree are looked at. -/
  exhausts : sweep.found = false →
    ∀ id, id ∈ sweep.visited ↔ id.index < a.size ∧ a.Below root id
  missed : sweep.found = false →
    ∀ id ∈ sweep.visited, ∀ node, a.get? id = some node → hit id node = false

/-- Nodes that make up a subtree together with others are apart. -/
theorem nodup_of_shares (h : (visited ++ rest).Perm (a.subtree root)) : visited.Nodup :=
  (h.nodup_iff.mpr (a.nodup_subtree root)).of_append_left

/-- What has been visited is in the subtree. -/
theorem Grown.within_of_shares (ha : a.Grown) (h : (visited ++ rest).Perm (a.subtree root)) :
    ∀ id ∈ visited, id.index < a.size ∧ a.Below root id := fun _ hm =>
  ha.mem_subtree_iff.mp (h.subset (List.mem_append_left rest hm))

namespace Searching

/-- At first only the root is waiting. -/
theorem start (a : Arena) (root : NodeId) (hit : NodeId → Node → Bool) :
    a.Searching root hit [root] [] where
  shares := by simp
  missed := by simp
  parentsFirst := by simp [ParentsFirst]
  listed := by simp

/-- A handle that leads nowhere has no share in the subtree. -/
theorem skip (h : a.Searching root hit (id :: stack) visited) (ha : a.Grown)
    (hn : a.get? id = none) : a.Searching root hit stack visited where
  shares := by
    have hshares := h.shares
    rwa [List.flatMap_cons, ha.subtree_of_dangling hn, List.nil_append] at hshares
  missed := h.missed
  parentsFirst := h.parentsFirst
  listed other hm := h.listed other (List.mem_cons_of_mem _ hm)

/-- The share of a handle goes to the node behind it and to the children of that. -/
theorem shares_next (h : a.Searching root hit (id :: stack) visited) (ha : a.Grown)
    (hn : a.get? id = some node) :
    (id :: visited ++ (node.children.reverse ++ stack).flatMap a.subtree).Perm (a.subtree root) := by
  have hchildren : (node.children.reverse.flatMap a.subtree).Perm
      (node.children.flatMap a.subtree) :=
    (List.reverse_perm _).flatMap_right _
  calc id :: visited ++ (node.children.reverse ++ stack).flatMap a.subtree
    _ = id :: (visited ++ (node.children.reverse.flatMap a.subtree ++ stack.flatMap a.subtree)) := by
      rw [List.flatMap_append, List.cons_append]
    List.Perm _ (visited ++
        (id :: (node.children.reverse.flatMap a.subtree ++ stack.flatMap a.subtree))) :=
      List.perm_middle.symm
    List.Perm _ (visited ++ (a.subtree id ++ stack.flatMap a.subtree)) :=
      (((hchildren.cons id).trans (ha.subtree_perm hn).symm).append_right _).append_left visited
    List.Perm _ (a.subtree root) := h.shares

/-- The node on top of the stack is the root of the search, or its parent was looked at. -/
theorem parentsFirst_next (h : a.Searching root hit (id :: stack) visited) (ha : a.Grown)
    (hn : a.get? id = some node) : a.ParentsFirst root (id :: visited) := by
  apply h.parentsFirst.cons
  refine (h.listed id List.mem_cons_self).imp_right ?_
  rintro ⟨parent, hm, hl⟩
  exact ⟨parent, hm, ha.adopted hl (lt_size_of_get? hn)⟩

/-- A node that is no hit is replaced by its children, the first of them on top. -/
theorem descend (h : a.Searching root hit (id :: stack) visited) (ha : a.Grown)
    (hn : a.get? id = some node) (hmiss : hit id node = false) :
    a.Searching root hit (node.children.reverse ++ stack) (id :: visited) where
  shares := h.shares_next ha hn
  missed := by
    refine List.forall_mem_cons.mpr ⟨?_, h.missed⟩
    intro other hother
    rwa [← Option.some.inj (hn.symm.trans hother)]
  parentsFirst := h.parentsFirst_next ha hn
  listed := by
    intro other hm
    rcases List.mem_append.mp hm with hm | hm
    · exact .inr ⟨id, List.mem_cons_self, node, hn, List.mem_reverse.mp hm⟩
    · refine (h.listed other (List.mem_cons_of_mem _ hm)).imp_right ?_
      exact fun ⟨parent, hm, hl⟩ => ⟨parent, List.mem_cons_of_mem _ hm, hl⟩

/-- At a hit the search stops, and what is left on the stack is not visited. -/
theorem stop (h : a.Searching root hit (id :: stack) visited) (ha : a.Grown)
    (hn : a.get? id = some node) (hhit : hit id node = true) :
    a.Searched root hit { found := true, visited := id :: visited } where
  within := ha.within_of_shares (h.shares_next ha hn)
  once := nodup_of_shares (h.shares_next ha hn)
  parentsFirst := h.parentsFirst_next ha hn
  stops _ := ⟨id, node, visited, rfl, hn, hhit, h.missed⟩
  exhausts := nofun
  missed := nofun

/-- With an empty stack all of the subtree has been visited. -/
theorem emptied (h : a.Searching root hit [] visited) (ha : a.Grown) :
    a.Searched root hit { found := false, visited } where
  within := ha.within_of_shares h.shares
  once := nodup_of_shares h.shares
  parentsFirst := h.parentsFirst
  stops := nofun
  exhausts _ id := by
    have hall := h.shares
    rw [List.flatMap_nil, List.append_nil] at hall
    rw [← ha.mem_subtree_iff]
    exact hall.mem_iff
  missed _ := h.missed

end Searching

/-- A run of the loop, turn by turn. -/
theorem SearchLoop.searched (h : a.SearchLoop hit stack visited result) (ha : a.Grown)
    (hs : a.Searching root hit stack visited) : a.Searched root hit result := by
  induction h with
  | emptied => exact hs.emptied ha
  | skipped hn _ ih => exact ih (hs.skip ha hn)
  | stopped hn hhit => exact hs.stop ha hn hhit
  | descended hn hmiss _ ih => exact ih (hs.descend ha hn hmiss)

/-- A search reports a hit exactly if a node of the subtree is one. -/
theorem Searched.found_iff {sweep : Sweep} (h : a.Searched root hit sweep) :
    sweep.found = true ↔
      ∃ inner node, a.Below root inner ∧ a.get? inner = some node ∧ hit inner node = true := by
  constructor
  · intro hfound
    obtain ⟨last, node, earlier, hvisited, hn, hhit, -⟩ := h.stops hfound
    have hlast : last ∈ sweep.visited := hvisited ▸ List.mem_cons_self
    exact ⟨last, node, (h.within last hlast).2, hn, hhit⟩
  · rintro ⟨inner, node, hbelow, hn, hhit⟩
    cases hfound : sweep.found with
    | true => rfl
    | false =>
      have hvisited := (h.exhausts hfound inner).mpr ⟨lt_size_of_get? hn, hbelow⟩
      cases (h.missed hfound inner hvisited node hn).symm.trans hhit

namespace Grown

theorem searched_search (ha : a.Grown) : a.Searched root hit (a.search root hit) :=
  SearchLoop.searched (ha.searchLoop_iff.mpr rfl) ha (.start a root hit)

/-- The search answers whether there is a hit anywhere below. -/
theorem anyDescendant_iff (ha : a.Grown) :
    a.anyDescendant root hit = true ↔
      ∃ inner node, a.Below root inner ∧ a.get? inner = some node ∧ hit inner node = true :=
  ha.searched_search.found_iff

end Grown

end Arena

/-- In a program built from the leaves up the loop of a search ends, with one result only; it
reports a hit exactly if a node of the subtree is one, has looked at no node twice and at none
before its parent, at nothing after the first hit, and at the whole subtree if there is none. -/
theorem subtree_searched_once {p : Program} (hp : p.BottomUp) (root : NodeId)
    (hit : NodeId → Node → Bool) :
    (∀ result, p.arena.SearchLoop hit [root] [] result ↔ result = p.arena.search root hit) ∧
      (p.arena.anyDescendant root hit = true ↔
        ∃ id node, p.arena.Below root id ∧ p.arena.get? id = some node ∧ hit id node = true) ∧
      p.arena.Searched root hit (p.arena.search root hit) := by
  have ha := hp.grown
  exact ⟨fun _ => ha.searchLoop_iff, ha.anyDescendant_iff, ha.searched_search⟩

/-- The statement `[list.length, …, null];`, whose second item leads nowhere. -/
def Program.missingItem : Program :=
  (Builder.of []
    [.identifier "list", .member ⟨0⟩ "length", .null, .array [⟨1⟩, ⟨9⟩, ⟨2⟩],
      .exprStatement ⟨3⟩]).program

theorem Program.bottomUp_missingItem : Program.missingItem.BottomUp := by
  have hfinish : ∀ {b : Builder}, b.shared = none → b.finish = .ok b.program := by
    intro b hs
    rw [Builder.finish, hs]
    rfl
  have holder : ∀ parent ∈ Program.missingItem.arena.handles,
      ∀ node ∈ Program.missingItem.arena.get? parent, ∀ child ∈ node.children,
        child.index < Program.missingItem.arena.size → child.index < parent.index := by decide
  refine ⟨⟨_, Builder.made_of _ _, hfinish (by cbv)⟩, fun {parent child} hl => ?_⟩
  have hparent := Arena.mem_handles_iff.mpr hl.lt_size
  obtain ⟨node, hn, hm⟩ := hl
  exact holder parent hparent node hn child hm

/-- A search for an access to a property passes over the missing item, and ends before it comes
to the list. -/
theorem subtree_searched_once_missingItem :
    Program.missingItem.BottomUp ∧
      Program.missingItem.arena.SearchLoop (fun _ node => node matches .member ..) [⟨4⟩] []
        { found := true, visited := [⟨1⟩, ⟨2⟩, ⟨3⟩, ⟨4⟩] } ∧
      Program.missingItem.arena.Searched ⟨4⟩ (fun _ node => node matches .member ..)
        { found := true, visited := [⟨1⟩, ⟨2⟩, ⟨3⟩, ⟨4⟩] } := by
  obtain ⟨hloop, -, hsearched⟩ := subtree_searched_once Program.bottomUp_missingItem ⟨4⟩
    fun _ node => node matches .member ..
  exact ⟨Program.bottomUp_missingItem, (hloop _).mpr rfl, hsearched⟩

/-- Without a hit it comes to the list as well. -/
example : (Program.missingItem.arena.search ⟨4⟩ fun _ _ => false).visited =
    [⟨0⟩, ⟨1⟩, ⟨2⟩, ⟨3⟩, ⟨4⟩] := by
  decide

end ClosureVtl
