/-
Module: ClosureVtl.Proofs.Closure.PatternNames
Purpose: What the names in the defaults and computed keys of a pattern refer to.
Main exports:
  Node.isScope, Arena.readParts, Arena.UsesIn, Arena.BoundBefore, Arena.SeesEarlier,
  Arena.Grown.lookup_of_usesIn, Arena.Grown.lookup_eq_some_iff_of_usesIn, seesEarlier_iff
-/
import Mathlib.Data.List.TakeWhile
import ClosureVtl.Proofs.Closure.CallbackNames
import ClosureVtl.Proofs.Closure.SourceOrder

namespace ClosureVtl

/-!
An element of a pattern is bound behind the elements before it, and its default and its
computed key are evaluated then.  Which names they see is a matter of scopes only: no part
of a pattern is one, so a name in it is searched for from the node that owns the pattern.
A parameter is left into its function, which offers all of its parameters, those of the
same pattern included.  A declaration is left into a block, which offers the statements
before the declaration, or into a loop, which offers the declaration to its body alone.
-/

/-- Whether a node offers declarations to its children. -/
def Node.isScope : Node → Bool
  | .block _ | .function .. | .forOf .. | .forIn .. => true
  | _ => false

namespace Arena

/-! ### Uses inside a pattern -/

/-- The expression of a computed key. -/
def keyExpr? (a : Arena) (key : NodeId) : Option NodeId :=
  match a.get? key with
  | some (.computedKey expr) => some expr
  | _ => none

/-- The expressions that are evaluated when a pattern element is bound: its default and that
of its computed key. -/
def readParts (a : Arena) (element : NodeId) : List NodeId :=
  match a.get? element with
  | some (.binding _ key default _) => default.toList ++ (key.bind a.keyExpr?).toList
  | _ => []

/-- Whether a name is used in the default or the computed key of a pattern element, and no
scope between the two declares it. -/
structure UsesIn (a : Arena) (element use : NodeId) (name : String) : Prop where
  name_eq : a.get? use = some (.identifier name)
  not_bound : a.isBindingName use = false
  inside : ∃ part ∈ a.readParts element, a.Below part use
  free : a.lookupOutward name use ((a.ancestors use).takeWhile (· != element)) = none

/-- Whether a declaration is an element that binds a name, and belongs to a part of the same
pattern before the one that a given element belongs to. -/
structure BoundBefore (a : Arena) (element : NodeId) (name : String) (earlier : NodeId) :
    Prop where
  binds : ∃ node, a.Binds earlier node name
  owner : a.patternOwner earlier = a.patternOwner element
  before : ∃ pattern before here behind,
    (a.get? pattern = some (.objectPattern (before ++ here :: behind)) ∨
      a.get? pattern = some (.arrayPattern (before ++ here :: behind))) ∧
    a.Below here element ∧ ∃ sibling ∈ before, a.Below sibling earlier

/-- Whether a name used in a pattern element refers to an earlier element that binds it,
provided that there is one. -/
def SeesEarlier (a : Arena) (element use : NodeId) (name : String) : Prop :=
  (∃ earlier, a.BoundBefore element name earlier) →
    ∃ earlier, a.BoundBefore element name earlier ∧ a.lookup use = some earlier

variable {a : Arena} {id element use owner declaration scope inner other part : NodeId}
  {name : String} {node : Node}

theorem declaredIn_of_not_isScope (hn : a.get? scope = some node) (hs : node.isScope = false) :
    a.declaredIn scope inner name = none := by
  unfold declaredIn
  rw [hn]
  cases node <;> first | rfl | cases hs

theorem lookup_of_not_isBindingName (hn : a.get? id = some (.identifier name))
    (hb : a.isBindingName id = false) :
    a.lookup id = a.lookupOutward name id (a.ancestors id) := by
  simp [lookup, hn, hb]

theorem exists_binding_of_mem_readParts (h : part ∈ a.readParts element) :
    ∃ target key default rest, a.get? element = some (.binding target key default rest) ∧
      ∃ child ∈ key.toList ++ default.toList, a.Below child part := by
  unfold readParts at h
  split at h
  · next target key default rest hn =>
    refine ⟨target, key, default, rest, hn, ?_⟩
    rcases List.mem_append.mp h with hdefault | hkey
    · exact ⟨part, List.mem_append_right _ hdefault, .self part⟩
    · obtain ⟨child, hchild, hexpr⟩ := Option.bind_eq_some_iff.mp (Option.mem_toList.mp hkey)
      refine ⟨child, List.mem_append_left _ (Option.mem_toList.mpr hchild), ?_⟩
      unfold keyExpr? at hexpr
      split at hexpr
      · next expr hc =>
        cases hexpr
        exact .part ⟨_, hc, List.mem_singleton_self _⟩ (.self _)
      · cases hexpr
  · cases h

/-- A use in a pattern element is strictly below it, and the element declares nothing. -/
theorem UsesIn.below (h : a.UsesIn element use name) :
    ∃ node, a.get? element = some node ∧ node.isScope = false ∧ a.StrictlyBelow element use := by
  obtain ⟨part, hm, hbelow⟩ := h.inside
  obtain ⟨target, key, default, rest, hn, child, hchild, hpart⟩ :=
    exists_binding_of_mem_readParts hm
  have hlists : a.Lists element child := by
    refine ⟨_, hn, ?_⟩
    rw [Node.children, List.mem_append, List.mem_cons]
    exact (List.mem_append.mp hchild).imp_right .inr
  exact ⟨_, hn, rfl, child, hlists, hpart.trans hbelow⟩

namespace Grown

/-! ### The search passes through a pattern -/

/-- A search that finds nothing on the way to a node that is no scope goes on from there. -/
theorem lookupOutward_of_free (ha : a.Grown) (hn : a.get? element = some node)
    (hs : node.isScope = false) (hm : element ∈ a.ancestors id)
    (hfree : a.lookupOutward name id ((a.ancestors id).takeWhile (· != element)) = none) :
    a.lookupOutward name id (a.ancestors id) =
      a.lookupOutward name element (a.ancestors element) := by
  induction hm using ha.induction_to_ancestor with
  | child id hp =>
    rw [ha.ancestors_of_parent? hp, lookupOutward, declaredIn_of_not_isScope hn hs]
  | step id parent hp hm ih =>
    have hself : parent ≠ element := by
      rintro rfl
      exact lt_irrefl _ (ha.lt_of_mem_ancestors hm)
    rw [ha.ancestors_of_parent? hp] at hfree ⊢
    rw [List.takeWhile_cons_of_pos (by simpa using hself), lookupOutward] at hfree
    rw [lookupOutward]
    cases hd : a.declaredIn parent id name with
    | some found =>
      rw [hd] at hfree
      cases hfree
    | none =>
      rw [hd] at hfree
      exact ih hfree

/-- From a part of a pattern the search goes on to the owner of the pattern. -/
theorem lookupOutward_of_patternOwner (ha : a.Grown) (howner : a.patternOwner id = some owner)
    (hn : a.get? owner = some node) (hs : node.isScope = false) :
    a.lookupOutward name id (a.ancestors id) =
      a.lookupOutward name owner (a.ancestors owner) := by
  induction id using ha.induction_to_root with
  | root id hp =>
    rw [ha.patternOwner_eq, hp] at howner
    split at howner
    · cases howner
    · cases howner
      rfl
  | step child parent hp ih =>
    rw [ha.patternOwner_eq, hp] at howner
    split at howner
    · -- the parent is the owner or itself a part of the pattern, so no scope in either case
      have hparent : ∃ node, a.get? parent = some node ∧ node.isScope = false := by
        obtain ⟨around, hp', -⟩ := ha.lists hp
        refine ⟨around, hp', ?_⟩
        rw [Option.bind_some, ha.patternOwner_eq, hp', Option.any_some] at howner
        split at howner
        · next hpart => cases around <;> first | rfl | cases hpart
        · cases howner
          rw [hn] at hp'
          cases hp'
          exact hs
      obtain ⟨around, hp', hscope⟩ := hparent
      rw [ha.ancestors_of_parent? hp, lookupOutward, declaredIn_of_not_isScope hp' hscope]
      exact ih howner
    · cases howner
      rfl

/-- A name used in a pattern is searched for from the owner of the pattern. -/
theorem lookup_of_usesIn (ha : a.Grown) (howner : a.patternOwner element = some owner)
    (huse : a.UsesIn element use name) (hn : a.get? owner = some node)
    (hs : node.isScope = false) :
    a.lookup use = a.lookupOutward name owner (a.ancestors owner) := by
  obtain ⟨_, he, hscope, hbelow⟩ := huse.below
  have hm := (ha.mem_ancestors_iff (lt_size_of_get? huse.name_eq)).mpr hbelow
  rw [lookup_of_not_isBindingName huse.name_eq huse.not_bound,
    ha.lookupOutward_of_free he hscope hm huse.free,
    ha.lookupOutward_of_patternOwner howner hn hs]

/-! ### Who is offered a pattern -/

/-- Of the nodes around another one, itself included, at most one has a given parent. -/
theorem eq_of_same_parent (ha : a.Grown) (hinner : a.isWithin inner id = true)
    (hother : a.isWithin other id = true) (hpi : a.parent? inner = some scope)
    (hpo : a.parent? other = some scope) : inner = other := by
  -- a child of the parent of a node is not around that parent
  have hnot : ∀ {child parent sibling : NodeId}, a.parent? child = some parent →
      a.parent? child = some scope → a.parent? sibling = some scope →
      a.isWithin sibling parent = true → False := by
    intro child parent sibling hp hc hsibling hwithin
    have hsame : parent = scope := Option.some.inj (hp.symm.trans hc)
    have hlt := ha.lt_parent hsibling
    have hle := ha.le_of_isWithin hwithin
    rw [hsame] at hle
    omega
  induction id using ha.induction_to_root with
  | root id hp =>
    rw [ha.isWithin_of_orphan hp, beq_iff_eq] at hinner hother
    exact hinner.symm.trans hother
  | step child parent hp ih =>
    rw [ha.isWithin_of_parent? hp, Bool.or_eq_true, beq_iff_eq] at hinner hother
    rcases hinner with rfl | hinner <;> rcases hother with rfl | hother
    · rfl
    · exact (hnot hp hpi hpo hother).elim
    · exact (hnot hp hpo hpi hinner).elim
    · exact ih hinner hother

/-- A scope offers a pattern to what is in it only if that is the pattern of a parameter: a
block offers a declaration to the statements behind it, and a loop to its body. -/
theorem isParameter_of_declaredIn (ha : a.Grown) (hid : id.index < a.size)
    (hp : a.parent? inner = some scope) (hinner : a.isWithin inner id = true)
    (howner : a.isWithin owner id = true) (hx : a.patternOwner declaration = some owner)
    (hd : a.declaredIn scope inner name = some declaration) :
    ∃ parameters body, a.get? scope = some (.function parameters body) ∧ owner ∈ parameters ∧
      parameters.findSome? (a.declaredByParameter name) = some declaration := by
  have hsize := ha.lt_size_of_isWithin howner hid
  -- a statement that declares the name is the owner, and the child that is left
  have hstatement : ∀ {statement : NodeId}, a.declaredBy name statement = some declaration →
      a.Lists scope statement → statement = inner := by
    intro statement hdeclared hlists
    have hsame := (ha.patternOwner_of_declaredBy hdeclared).symm.trans hx
    cases hsame
    exact ha.eq_of_same_parent howner hinner (ha.adopted hlists hsize) hp
  -- a loop offers nothing to its own target
  have hloop : ∀ {target iterable body : NodeId} {node : Node}, a.get? scope = some node →
      node.children = [target, iterable, body] →
      (if body = inner then a.declaredBy name target else none) ≠ some declaration := by
    intro target iterable body node hn hchildren hfound
    split at hfound
    · next hbody =>
      subst hbody
      obtain rfl := hstatement hfound ⟨node, hn, by simp [hchildren]⟩
      have honce := ha.once hn (hchildren ▸ List.mem_cons_self) (lt_size_of_parent? hp)
      rw [hchildren, List.count_cons_self] at honce
      have hagain : 0 < List.count target [iterable, target] := List.count_pos_iff.mpr (by simp)
      omega
    · cases hfound
  unfold declaredIn at hd
  split at hd
  · next statements hn =>
    obtain ⟨statement, hm, hdeclared⟩ := List.mem_filterMap.mp (List.mem_of_getLast? hd)
    obtain rfl := hstatement hdeclared ⟨_, hn, List.takeWhile_subset _ hm⟩
    simpa using List.mem_takeWhile_imp hm
  · next parameters body hn =>
    obtain ⟨parameter, hm, hdeclared⟩ := List.exists_of_findSome?_eq_some hd
    have hsame := (ha.patternOwner_of_declaredByParameter hdeclared).symm.trans hx
    cases hsame
    exact ⟨parameters, body, hn, hm, hd⟩
  · next target iterable body hn => exact absurd hd (hloop hn rfl)
  · next target iterable body hn => exact absurd hd (hloop hn rfl)
  · cases hd

/-- A name used in a pattern refers to a declaration of that pattern exactly if this is the
pattern of a parameter, and the first of all parameters to declare the name is the one. -/
theorem lookup_eq_some_iff_of_usesIn (ha : a.Grown)
    (howner : a.patternOwner element = some owner) (huse : a.UsesIn element use name)
    (hx : a.patternOwner declaration = some owner) :
    a.lookup use = some declaration ↔
      ∃ function parameters body, a.get? function = some (.function parameters body) ∧
        owner ∈ parameters ∧
        parameters.findSome? (a.declaredByParameter name) = some declaration := by
  have hsize := lt_size_of_get? huse.name_eq
  obtain ⟨_, -, -, hbelow⟩ := huse.below
  have hm := (ha.mem_ancestors_iff hsize).mpr hbelow
  have hwithin : ∀ {around : NodeId}, (around = use ∨ around ∈ a.ancestors use) →
      a.isWithin around use = true := by
    intro around h
    rw [isWithin, Bool.or_eq_true, beq_iff_eq, List.contains_iff_mem]
    exact h.imp_left Eq.symm
  constructor
  · intro hl
    rw [lookup_of_not_isBindingName huse.name_eq huse.not_bound] at hl
    -- the scope that offers the declaration is around the whole pattern
    obtain ⟨scope, inner, hp, hinner, hd⟩ := ha.exists_declaredIn hl
    have hinside : owner ∈ a.ancestors use := by
      rcases ha.patternOwner_around howner with rfl | hm'
      · exact hm
      · exact ha.mem_ancestors_trans hm hm'
    obtain ⟨parameters, body, hf, hparameter⟩ := ha.isParameter_of_declaredIn hsize hp
      (hwithin hinner) (hwithin (.inr hinside)) hx hd
    exact ⟨scope, parameters, body, hf, hparameter⟩
  · rintro ⟨function, parameters, body, hf, hparameter, hfound⟩
    obtain ⟨other, -, hdeclared⟩ := List.exists_of_findSome?_eq_some hfound
    have hsame := (ha.patternOwner_of_declaredByParameter hdeclared).symm.trans hx
    cases hsame
    unfold declaredByParameter at hdeclared
    split at hdeclared
    · next target default hn =>
      have hparent : a.parent? owner = some function :=
        ha.adopted ⟨_, hf, List.mem_append_left _ hparameter⟩ (lt_size_of_get? hn)
      have hoffered : a.declaredIn function owner name = some declaration := by
        simpa only [declaredIn, hf] using hfound
      rw [ha.lookup_of_usesIn howner huse hn rfl, ha.ancestors_of_parent? hparent, lookupOutward,
        hoffered]
    · cases hdeclared

end Grown

end Arena

/-! ### Elements that come later -/

/-- The names in the defaults and computed keys of a pattern, at any depth.  Such a name refers
to an element of the pattern only if the pattern belongs to a parameter.  In a declaration it
has the meaning and the class that it has at the declaration, whatever the pattern binds; so an
earlier element of the pattern is seen only if none of them binds the name. -/
theorem seesEarlier_iff {p : Program} (hp : p.BottomUp) {owner element use : NodeId}
    {name : String} (howner : p.arena.patternOwner element = some owner)
    (huse : p.arena.UsesIn element use name) :
    (∀ {declaration : NodeId}, p.arena.patternOwner declaration = some owner →
      (p.arena.lookup use = some declaration ↔
        ∃ function parameters body, p.arena.get? function = some (.function parameters body) ∧
          owner ∈ parameters ∧
          parameters.findSome? (p.arena.declaredByParameter name) = some declaration)) ∧
      ∀ {kind : DeclKind} {target : NodeId} {value : Option NodeId},
        p.arena.get? owner = some (.declaration kind target value) →
        p.arena.lookup use = p.arena.lookupOutward name owner (p.arena.ancestors owner) ∧
          p.arena.classify use = .ok (p.arena.classifyDeclared name
            (p.arena.lookupOutward name owner (p.arena.ancestors owner))) ∧
          (p.arena.SeesEarlier element use name ↔
            ∀ earlier, ¬ p.arena.BoundBefore element name earlier) := by
  have ha := hp.grown
  refine ⟨fun hx => ha.lookup_eq_some_iff_of_usesIn howner huse hx,
    fun {kind target value} hn => ?_⟩
  have hlookup := ha.lookup_of_usesIn howner huse hn rfl
  refine ⟨hlookup, ?_, ?_⟩
  · unfold Arena.classify
    rw [Arena.node_eq_ok_iff.mpr huse.name_eq, ← hlookup]
  · constructor
    · intro hsees earlier hbefore
      obtain ⟨found, hfound, hl⟩ := hsees ⟨earlier, hbefore⟩
      have hx : p.arena.patternOwner found = some owner := hfound.owner.trans howner
      obtain ⟨function, parameters, body, -, -, hf⟩ :=
        (ha.lookup_eq_some_iff_of_usesIn howner huse hx).mp hl
      -- the owner would be a parameter
      obtain ⟨parameter, -, hdeclared⟩ := List.exists_of_findSome?_eq_some hf
      have hsame := (ha.patternOwner_of_declaredByParameter hdeclared).symm.trans hx
      cases hsame
      simp [Arena.declaredByParameter, hn] at hdeclared
    · rintro hnone ⟨earlier, hbefore⟩
      exact absurd hbefore (hnone earlier)

/-- The closure `input => { const { a, b = a } = input; return b }`. -/
def Program.laterDefault : Program :=
  (Builder.of []
    [.identifier "a", .binding ⟨0⟩ none none false, .identifier "b", .identifier "a",
      .binding ⟨2⟩ none (some ⟨3⟩) false, .objectPattern [⟨1⟩, ⟨4⟩], .identifier "input",
      .declaration .const ⟨5⟩ (some ⟨6⟩), .identifier "b", .returnValue (some ⟨8⟩),
      .block [⟨7⟩, ⟨9⟩], .identifier "input", .parameter ⟨11⟩ none,
      .function [⟨12⟩] ⟨10⟩]).program

theorem Program.bottomUp_laterDefault : Program.laterDefault.BottomUp :=
  Builder.bottomUp_of (by decide) (by cbv)

theorem Program.usesIn_laterDefault : Program.laterDefault.arena.UsesIn ⟨4⟩ ⟨3⟩ "a" where
  name_eq := by cbv
  not_bound := by cbv
  inside := ⟨⟨3⟩, by decide +kernel, .self _⟩
  free := by cbv

theorem Program.boundBefore_laterDefault :
    Program.laterDefault.arena.BoundBefore ⟨4⟩ "a" ⟨1⟩ where
  binds := ⟨⟨0⟩, by cbv, by cbv, by cbv⟩
  owner := by cbv
  before := ⟨⟨5⟩, [⟨1⟩], ⟨4⟩, [], .inl (by cbv), .self _, ⟨1⟩, by decide, .self _⟩

/-- The default of `b` is taken for a name from outside the closure. -/
theorem seesEarlier_iff_laterDefault :
    Program.laterDefault.arena.patternOwner ⟨4⟩ = some ⟨7⟩ ∧
      Program.laterDefault.arena.classify ⟨3⟩ = .ok (.capture "a") := by
  have howner : Program.laterDefault.arena.patternOwner ⟨4⟩ = some ⟨7⟩ := by cbv
  have hn : Program.laterDefault.arena.get? ⟨7⟩ = some (.declaration .const ⟨5⟩ (some ⟨6⟩)) := by
    cbv
  obtain ⟨-, hlaw⟩ := seesEarlier_iff Program.bottomUp_laterDefault howner
    Program.usesIn_laterDefault
  obtain ⟨-, hclass, -⟩ := hlaw hn
  refine ⟨howner, ?_⟩
  rw [hclass]
  cbv

/-- The declaration is a statement of the body, the element before binds the name, and yet the
name refers to nothing, so that the closure is refused. -/
theorem not_seesEarlier_laterDefault :
    Program.laterDefault.BottomUp ∧
      Program.laterDefault.arena.get? ⟨10⟩ = some (.block [⟨7⟩, ⟨9⟩]) ∧
      Program.laterDefault.arena.patternOwner ⟨4⟩ = some ⟨7⟩ ∧
      Program.laterDefault.arena.UsesIn ⟨4⟩ ⟨3⟩ "a" ∧
      Program.laterDefault.arena.BoundBefore ⟨4⟩ "a" ⟨1⟩ ∧
      Program.laterDefault.arena.lookup ⟨3⟩ = none ∧
      ¬ Program.laterDefault.arena.SeesEarlier ⟨4⟩ ⟨3⟩ "a" ∧
      Program.laterDefault.compileResolver ⟨13⟩ {} =
        .error (.unsupported (.captured "a" "resolver")) := by
  have hlookup : Program.laterDefault.arena.lookup ⟨3⟩ = none := by cbv
  refine ⟨Program.bottomUp_laterDefault, by cbv, by cbv, Program.usesIn_laterDefault,
    Program.boundBefore_laterDefault, hlookup, fun hsees => ?_, by decide +kernel⟩
  obtain ⟨earlier, -, hfound⟩ := hsees ⟨⟨1⟩, Program.boundBefore_laterDefault⟩
  rw [hlookup] at hfound
  cases hfound

end ClosureVtl
