/-
Module: ClosureVtl.Proofs.Closure.SourceOrder
Purpose: The order in which the nodes of a closure end in the source text, and the chains
  of names that follow it backwards.
Main exports:
  Arena.sourceEnd, Arena.Grown.sourceEnd_lt_of_parent?, Arena.Grown.sourceEnd_lt_of_lookup,
  Node.outcomes, Arena.AliasChain, Arena.Grown.nodup_of_aliasChain,
  Arena.Grown.length_le_of_aliasChain
-/
import Mathlib.Data.List.Lex
import Mathlib.Data.List.Nodup
import Mathlib.Data.List.Perm.Subperm
import Mathlib.Logic.Relation
import ClosureVtl.Proofs.Closure.Environment
import ClosureVtl.Proofs.Closure.Visibility

namespace ClosureVtl

/-!
Handles say when a node was made, not where it stands: a block may list its statements in
any order of their handles.  Where a node stands is told by the way to it from the root of
its tree, as the places among the children on that way.  A node ends in the source text
behind all of its children, and before whatever stands to the right of it; so the places
where nodes end are compared letter by letter, each way being closed by the number of
children of its node.

A declaration is visible only behind its own end: to the later statements of its block, and
to the body of its loop.  So from a name to its declaration the source text is left
backwards, and from a declaration to its initial value as well.
-/

namespace Arena

/-! ### Where nodes end -/

/-- The place of a node among the children of another. -/
def placeIn (a : Arena) (parent child : NodeId) : Nat :=
  ((a.get? parent).map fun node => node.children.idxOf child).getD 0

/-- The number of children of a node. -/
def width (a : Arena) (id : NodeId) : Nat :=
  ((a.get? id).map fun node => node.children.length).getD 0

/-- The places on the way to a node, given its ancestors. -/
def wayFrom (a : Arena) : NodeId → List NodeId → List Nat
  | _, [] => []
  | id, parent :: outer => a.wayFrom parent outer ++ [a.placeIn parent id]

/-- The places on the way to a node from the root of its tree. -/
def wayTo (a : Arena) (id : NodeId) : List Nat := a.wayFrom id (a.ancestors id)

/-- Where a node ends in the source text: on the way to it, behind its last child. -/
def sourceEnd (a : Arena) (id : NodeId) : List Nat := a.wayTo id ++ [a.width id]

namespace Grown

variable {a : Arena} {id child parent scope other use declaration value part expr : NodeId}
  {name : String} {node : Node}

theorem wayTo_of_parent? (ha : a.Grown) (hp : a.parent? child = some parent) :
    a.wayTo child = a.wayTo parent ++ [a.placeIn parent child] := by
  unfold wayTo
  rw [ha.ancestors_eq child, hp]
  rfl

/-- The way to a node goes by all of its ancestors. -/
theorem wayTo_of_mem_ancestors (ha : a.Grown) (h : other ∈ a.ancestors id) :
    a.wayTo other <+: a.wayTo id := by
  induction h using ha.induction_to_ancestor with
  | child id hp =>
    rw [ha.wayTo_of_parent? hp]
    exact List.prefix_append _ _
  | step id parent hp _ ih =>
    rw [ha.wayTo_of_parent? hp]
    exact ih.trans (List.prefix_append _ _)

theorem placeIn_lt_width (ha : a.Grown) (hp : a.parent? child = some parent) :
    a.placeIn parent child < a.width parent := by
  obtain ⟨node, hn, hm⟩ := ha.lists hp
  simp only [placeIn, width, hn, Option.map_some, Option.getD_some]
  exact List.idxOf_lt_length_iff.mpr hm

/-- A node ends before its parent does. -/
theorem sourceEnd_lt_of_parent? (ha : a.Grown) (hp : a.parent? child = some parent) :
    a.sourceEnd child < a.sourceEnd parent := by
  unfold sourceEnd
  rw [ha.wayTo_of_parent? hp, List.append_assoc]
  exact List.append_left_lt (List.cons_lt_cons_iff.mpr (.inl (ha.placeIn_lt_width hp)))

/-- A node ends before whatever is in a later child of its parent. -/
theorem sourceEnd_lt_of_placeIn_lt (ha : a.Grown) (hp : a.parent? child = some scope)
    (ho : a.parent? other = some scope) (hplace : a.placeIn scope child < a.placeIn scope other)
    (hid : other = id ∨ other ∈ a.ancestors id) : a.sourceEnd child < a.sourceEnd id := by
  have hway : a.wayTo other <+: a.wayTo id := by
    rcases hid with rfl | hid
    · exact List.prefix_refl _
    · exact ha.wayTo_of_mem_ancestors hid
  obtain ⟨rest, hrest⟩ := hway
  unfold sourceEnd
  rw [← hrest, ha.wayTo_of_parent? hp, ha.wayTo_of_parent? ho]
  simp only [List.append_assoc]
  exact List.append_left_lt (List.cons_lt_cons_iff.mpr (.inl hplace))

/-! ### From a name back to its declaration -/

/-- What is found outwards is declared in a scope around the node, for the child through
which the scope is left. -/
theorem exists_declaredIn (ha : a.Grown)
    (h : a.lookupOutward name id (a.ancestors id) = some declaration) :
    ∃ scope inner, a.parent? inner = some scope ∧ (inner = id ∨ inner ∈ a.ancestors id) ∧
      a.declaredIn scope inner name = some declaration := by
  induction id using ha.induction_to_root with
  | root id hp =>
    rw [ha.ancestors_of_orphan hp] at h
    cases h
  | step child parent hp ih =>
    rw [ha.ancestors_of_parent? hp] at h ⊢
    rw [lookupOutward] at h
    split at h
    · next found hf =>
      cases h
      exact ⟨parent, child, hp, .inl rfl, hf⟩
    · obtain ⟨scope, inner, hs, hinner, hd⟩ := ih h
      refine ⟨scope, inner, hs, .inr ?_, hd⟩
      rcases hinner with rfl | hinner
      · exact List.mem_cons_self
      · exact List.mem_cons_of_mem _ hinner

private theorem idxOf_lt_of_mem_takeWhile {ids : List NodeId}
    (h : child ∈ ids.takeWhile (· != other)) : ids.idxOf child < ids.idxOf other := by
  induction ids with
  | nil => cases h
  | cons first rest ih =>
    rw [List.takeWhile_cons] at h
    split at h
    · next hne =>
      have hne : first ≠ other := by simpa using hne
      rw [List.idxOf_cons_ne rest hne]
      rcases List.mem_cons.mp h with rfl | h
      · rw [List.idxOf_cons_self]
        exact Nat.succ_pos _
      · have hlt := ih h
        by_cases hfirst : first = child
        · rw [hfirst, List.idxOf_cons_self]
          exact Nat.succ_pos _
        · rw [List.idxOf_cons_ne rest hfirst]
          exact Nat.succ_lt_succ hlt
    · cases h

/-- The first child of a node stands before the others. -/
theorem placeIn_first_lt (ha : a.Grown) {node : Node} {first : NodeId} {rest : List NodeId}
    (hn : a.get? scope = some node) (hchildren : node.children = first :: rest)
    (hm : other ∈ rest) (hfirst : first.index < a.size) :
    a.placeIn scope first < a.placeIn scope other := by
  have hne : first ≠ other := by
    rintro rfl
    have honce := ha.once hn (hchildren ▸ List.mem_cons_self) hfirst
    have hcount := List.count_pos_iff.mpr hm
    rw [hchildren, List.count_cons_self] at honce
    omega
  simp only [placeIn, hn, Option.map_some, Option.getD_some, hchildren, List.idxOf_cons_self,
    List.idxOf_cons_ne _ hne]
  exact Nat.succ_pos _

/-- A variable declaration that a scope offers to one of its children stands before it. -/
theorem placeIn_lt_of_declaredIn (ha : a.Grown) (hs : a.parent? other = some scope)
    (hd : a.declaredIn scope other name = some declaration)
    (hn : ∃ kind name value, a.get? declaration = some (.declaration kind name value)) :
    a.parent? declaration = some scope ∧
      a.placeIn scope declaration < a.placeIn scope other := by
  obtain ⟨kind, bound, value, hn⟩ := hn
  have hself : a.patternOwner declaration = some declaration := ha.patternOwner_self hn rfl
  have hsame : ∀ {statement : NodeId}, a.declaredBy name statement = some declaration →
      declaration = statement := fun h =>
    Option.some.inj (hself.symm.trans (ha.patternOwner_of_declaredBy h))
  -- the body of a loop is its last child, the declaration its first
  have hloop : ∀ {target iterable body : NodeId} {node : Node}, a.get? scope = some node →
      node.children = [target, iterable, body] →
      (if body = other then a.declaredBy name target else none) = some declaration →
      a.parent? declaration = some scope ∧
        a.placeIn scope declaration < a.placeIn scope other := by
    intro target iterable body node hnode hchildren hfound
    split at hfound
    · next hbody =>
      subst hbody
      obtain rfl : declaration = target := hsame hfound
      have hlists : a.Lists scope declaration := ⟨node, hnode, by simp [hchildren]⟩
      have hsize := lt_size_of_get? hn
      exact ⟨ha.adopted hlists hsize, ha.placeIn_first_lt hnode hchildren (by simp) hsize⟩
    · cases hfound
  unfold declaredIn at hd
  split at hd
  · next statements hnode =>
    obtain ⟨statement, hm, hd⟩ := List.mem_filterMap.mp (List.mem_of_getLast? hd)
    obtain rfl := hsame hd
    have hlists : a.Lists scope declaration := ⟨_, hnode, List.takeWhile_subset _ hm⟩
    refine ⟨ha.adopted hlists (lt_size_of_get? hn), ?_⟩
    simp only [placeIn, hnode, Option.map_some, Option.getD_some]
    exact idxOf_lt_of_mem_takeWhile hm
  · next parameters body hnode =>
    -- what a parameter declares belongs to the parameter
    obtain ⟨parameter, -, hd⟩ := List.exists_of_findSome?_eq_some hd
    have howner := ha.patternOwner_of_declaredByParameter hd
    rw [hself] at howner
    cases howner
    simp only [declaredByParameter, hn] at hd
    cases hd
  · next target iterable body hnode => exact hloop hnode rfl hd
  · next target iterable body hnode => exact hloop hnode rfl hd
  · cases hd

/-- A name that stands elsewhere than in binding position ends behind the variable
declaration that it refers to. -/
theorem sourceEnd_lt_of_lookup (ha : a.Grown) (hb : a.isBindingName use = false)
    (hl : a.lookup use = some declaration)
    (hn : ∃ kind name value, a.get? declaration = some (.declaration kind name value)) :
    a.sourceEnd declaration < a.sourceEnd use := by
  unfold lookup at hl
  split at hl
  · rw [if_neg (by simp [hb])] at hl
    obtain ⟨scope, inner, hs, hinner, hd⟩ := ha.exists_declaredIn hl
    obtain ⟨hp, hplace⟩ := ha.placeIn_lt_of_declaredIn hs hd hn
    exact ha.sourceEnd_lt_of_placeIn_lt hp hs hplace hinner
  · cases hl

end Grown

/-! ### Chains of aliases -/

end Arena

/-- The parts whose value may be the value of a node as it is. -/
def Node.outcomes : Node → List NodeId
  | .paren expr | .await expr | .promise expr => [expr]
  | .conditional _ yes no => [yes, no]
  | .binary left .and right | .binary left .or right | .binary left .coalesce right =>
    [left, right]
  | _ => []

theorem Node.mem_children_of_mem_outcomes {node : Node} {part : NodeId}
    (h : part ∈ node.outcomes) : part ∈ node.children := by
  unfold outcomes at h
  split at h <;> simp_all [children]

namespace Arena

/-- Whether the value of a node may be that of a part of it. -/
def Yields (a : Arena) (id part : NodeId) : Prop :=
  ∃ node, a.get? id = some node ∧ part ∈ node.outcomes

/-- The declarations that are visited, one after the other, when the value of an expression
is followed through names: down in the expression to a name, from there to what the name
refers to, and, if that is a variable declaration with an initial value, on from this. -/
inductive AliasChain (a : Arena) : NodeId → List NodeId → Prop where
  | stop (expr : NodeId) : AliasChain a expr []
  | last {expr use declaration : NodeId} (hdown : Relation.ReflTransGen a.Yields expr use)
      (hlookup : a.lookup use = some declaration) : AliasChain a expr [declaration]
  | jump {expr use declaration name value : NodeId} {kind : DeclKind} {rest : List NodeId}
      (hdown : Relation.ReflTransGen a.Yields expr use)
      (hlookup : a.lookup use = some declaration)
      (hvalue : a.get? declaration = some (.declaration kind name (some value)))
      (hrest : AliasChain a value rest) : AliasChain a expr (declaration :: rest)

namespace Grown

variable {a : Arena} {id use declaration name value part expr : NodeId} {kind : DeclKind}
  {chain : List NodeId}

theorem lists_of_yields (h : a.Yields id part) : a.Lists id part := by
  obtain ⟨node, hn, hm⟩ := h
  exact ⟨node, hn, Node.mem_children_of_mem_outcomes hm⟩

/-- What a name refers to exists. -/
theorem lt_size_of_lookup (ha : a.Grown) (h : a.lookup id = some declaration) :
    declaration.index < a.size := by
  obtain ⟨_, node, -, hbinds⟩ := ha.binds_of_lookup h
  exact ha.parent_lt_size hbinds.parent

/-- The parts that a value comes from are not in binding position. -/
theorem isBindingName_of_yields (ha : a.Grown) (h : a.Yields id part) :
    a.isBindingName part = false := by
  rw [Bool.eq_false_iff, ne_eq, isBindingName_iff]
  rintro ⟨declaration, hp, hbound⟩
  obtain ⟨node, hn, hm⟩ := h
  have hown := ha.adopted (lists_of_yields ⟨node, hn, hm⟩) (lt_size_of_parent? hp)
  rw [hp] at hown
  cases hown
  rw [hn, Option.bind_some] at hbound
  cases node <;> cases hbound <;> cases hm

/-- Neither is an initial value. -/
theorem isBindingName_of_initial (ha : a.Grown)
    (hn : a.get? declaration = some (.declaration kind name (some value))) :
    a.isBindingName value = false := by
  rw [Bool.eq_false_iff, ne_eq, isBindingName_iff]
  rintro ⟨parent, hp, hbound⟩
  have hlists : a.Lists declaration value := ⟨_, hn, by simp [Node.children]⟩
  have hsize := lt_size_of_parent? hp
  rw [ha.adopted hlists hsize] at hp
  cases hp
  rw [hn] at hbound
  obtain rfl : name = value := Option.some.inj hbound
  have honce := ha.once hn List.mem_cons_self hsize
  rw [Node.children, Option.toList_some, List.count_cons_self, List.count_singleton_self] at honce
  omega

/-- The parts that a value comes from end no later than the value. -/
theorem sourceEnd_le_of_yields (ha : a.Grown) (h : Relation.ReflTransGen a.Yields expr use)
    (hsize : use.index < a.size) : a.sourceEnd use ≤ a.sourceEnd expr := by
  induction h with
  | refl => exact le_refl _
  | tail _ hlast ih =>
    have hlists := lists_of_yields hlast
    have hlt := ha.sourceEnd_lt_of_parent? (ha.adopted hlists hsize)
    exact le_trans hlt.le (ih hlists.lt_size)

/-- The value of a declaration does not come from names in binding position. -/
theorem isBindingName_of_yields_initial (ha : a.Grown)
    (hn : a.get? declaration = some (.declaration kind name (some value)))
    (h : Relation.ReflTransGen a.Yields value use) : a.isBindingName use = false := by
  rcases Relation.ReflTransGen.cases_tail h with rfl | ⟨before, -, hlast⟩
  · exact ha.isBindingName_of_initial hn
  · exact ha.isBindingName_of_yields hlast

/-- From the initial value of a declaration on, a chain visits variable declarations that
end before that declaration. -/
theorem sourceEnd_lt_of_aliasChain (ha : a.Grown) (hchain : a.AliasChain value chain)
    (hn : a.get? declaration = some (.declaration kind name (some value))) :
    ∀ visited ∈ chain,
      (∃ kind name value, a.get? visited = some (.declaration kind name value)) →
        a.sourceEnd visited < a.sourceEnd declaration := by
  -- a single jump out of the initial value
  have hjump : ∀ {declaration name value use next : NodeId} {kind : DeclKind},
      a.get? declaration = some (.declaration kind name (some value)) →
      Relation.ReflTransGen a.Yields value use → a.lookup use = some next →
      (∃ kind name value, a.get? next = some (.declaration kind name value)) →
        a.sourceEnd next < a.sourceEnd declaration := by
    intro declaration name value use next kind hn hdown hlookup hnext
    have hbinding := ha.isBindingName_of_yields_initial hn hdown
    have huse : use.index < a.size := by
      obtain ⟨_, _, hu, -⟩ := ha.binds_of_lookup hlookup
      exact lt_size_of_get? hu
    have hvalue : value.index < a.size := by
      rcases Relation.ReflTransGen.cases_head hdown with rfl | ⟨_, hfirst, -⟩
      · exact huse
      · exact (lists_of_yields hfirst).lt_size
    have hlists : a.Lists declaration value := ⟨_, hn, by simp [Node.children]⟩
    calc a.sourceEnd next
        < a.sourceEnd use := ha.sourceEnd_lt_of_lookup hbinding hlookup hnext
      _ ≤ a.sourceEnd value := ha.sourceEnd_le_of_yields hdown huse
      _ < a.sourceEnd declaration := ha.sourceEnd_lt_of_parent? (ha.adopted hlists hvalue)
  induction hchain generalizing declaration name kind with
  | stop expr => simp
  | last hdown hlookup =>
    intro visited hm hvisited
    rw [List.mem_singleton.mp hm] at hvisited ⊢
    exact hjump hn hdown hlookup hvisited
  | jump hdown hlookup hvalue hrest ih =>
    have hfirst := hjump hn hdown hlookup ⟨_, _, _, hvalue⟩
    intro visited hm hvisited
    rcases List.mem_cons.mp hm with rfl | hm
    · exact hfirst
    · exact lt_trans (ih hvalue visited hm hvisited) hfirst

/-- Along a chain of aliases no declaration is visited twice. -/
theorem nodup_of_aliasChain (ha : a.Grown) (hchain : a.AliasChain expr chain) : chain.Nodup := by
  induction hchain with
  | stop expr => exact List.nodup_nil
  | last hdown hlookup => exact List.nodup_singleton _
  | jump hdown hlookup hvalue hrest ih =>
    refine List.nodup_cons.mpr ⟨fun hm => ?_, ih⟩
    exact lt_irrefl _ (ha.sourceEnd_lt_of_aliasChain hrest hvalue _ hm ⟨_, _, _, hvalue⟩)

theorem lt_size_of_aliasChain (ha : a.Grown) (hchain : a.AliasChain expr chain) :
    ∀ visited ∈ chain, visited.index < a.size := by
  induction hchain with
  | stop expr => simp
  | last hdown hlookup =>
    intro visited hm
    rw [List.mem_singleton.mp hm]
    exact ha.lt_size_of_lookup hlookup
  | jump hdown hlookup hvalue hrest ih =>
    intro visited hm
    rcases List.mem_cons.mp hm with rfl | hm
    · exact ha.lt_size_of_lookup hlookup
    · exact ih visited hm

/-- So a chain of aliases has at most as many jumps as there are nodes. -/
theorem length_le_of_aliasChain (ha : a.Grown) (hchain : a.AliasChain expr chain) :
    chain.length ≤ a.size := by
  have hindex : Function.Injective NodeId.index := by
    rintro ⟨i⟩ ⟨j⟩ h
    exact congrArg NodeId.mk h
  have hnodup := (ha.nodup_of_aliasChain hchain).map hindex
  have hsubset : chain.map NodeId.index ⊆ List.range a.size := by
    intro i hi
    obtain ⟨visited, hm, rfl⟩ := List.mem_map.mp hi
    exact List.mem_range.mpr (ha.lt_size_of_aliasChain hchain visited hm)
  have hle := (hnodup.subperm hsubset).length_le
  rwa [List.length_map, List.length_range] at hle

end Grown

end Arena

end ClosureVtl
