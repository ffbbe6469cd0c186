/-
Module: ClosureVtl.Proofs.Closure.Visibility
Purpose: The region of a closure in which a declaration is visible.
Main exports:
  Arena.offers, Arena.isVisibleAt, Arena.region, Arena.Grown.patternOwner_eq,
  Arena.Grown.isVisibleAt_of_lookup
-/
import ClosureVtl.Proofs.Closure.Binding

namespace ClosureVtl

/-!
A declaration is visible wherever a scope around a node offers it, whether or not
another declaration of its name is nearer.  The region is laid out like the search of
`Arena.lookup`, so a name refers only to declarations that are visible where it
stands.  Names bound by a pattern are offered together with the declaration or
parameter that the pattern belongs to.
-/

namespace Arena

/-! ### Regions -/

/-- Whether a scope offers a declaration to its child `inner`. -/
def offers (a : Arena) (scope inner declaration : NodeId) : Bool :=
  match a.get? scope with
  | some (.block statements) =>
    (statements.takeWhile (· != inner)).any fun statement =>
      a.patternOwner declaration == some statement
  | some (.function parameters _) =>
    parameters.any fun parameter => a.patternOwner declaration == some parameter
  | some (.forOf target _ body) | some (.forIn target _ body) =>
    body == inner && a.patternOwner declaration == some target
  | _ => false

/-- Whether one of the enclosing scopes offers a declaration; `inner` is the child
through which the first of them is left. -/
def isOfferedOutward (a : Arena) (declaration : NodeId) : NodeId → List NodeId → Bool
  | _, [] => false
  | inner, scope :: outer =>
    a.offers scope inner declaration || a.isOfferedOutward declaration scope outer

/-- Whether a declaration is visible at a node. -/
def isVisibleAt (a : Arena) (declaration id : NodeId) : Bool :=
  a.isOfferedOutward declaration id (a.ancestors id)

/-- The nodes at which a declaration is visible. -/
def region (a : Arena) (declaration : NodeId) : List NodeId :=
  ((List.range a.size).map NodeId.mk).filter (a.isVisibleAt declaration)

variable {a : Arena} {id declaration scope inner target : NodeId} {name : String} {n m : Nat}

/-- The region of a declaration is where it is visible. -/
theorem isVisibleAt_of_mem_region (h : id ∈ a.region declaration) :
    a.isVisibleAt declaration id = true :=
  (List.mem_filter.mp h).2

theorem mem_region_of_isVisibleAt (hid : id.index < a.size)
    (h : a.isVisibleAt declaration id = true) : id ∈ a.region declaration := by
  refine List.mem_filter.mpr ⟨List.mem_map.mpr ⟨id.index, List.mem_range.mpr hid, rfl⟩, h⟩

/-- Only some scope around a node makes a declaration visible there. -/
theorem exists_offers_of_isOfferedOutward {scopes : List NodeId}
    (h : a.isOfferedOutward declaration inner scopes = true) :
    ∃ scope ∈ scopes, ∃ child, a.offers scope child declaration = true := by
  induction scopes generalizing inner with
  | nil => cases h
  | cons scope outer ih =>
    rw [isOfferedOutward, Bool.or_eq_true] at h
    rcases h with hoffers | houter
    · exact ⟨scope, List.mem_cons_self, inner, hoffers⟩
    · obtain ⟨other, hm, hoffers⟩ := ih houter
      exact ⟨other, List.mem_cons_of_mem _ hm, hoffers⟩

/-- Whatever a scope offers belongs to one of its children. -/
theorem exists_owner_of_offers (h : a.offers scope inner declaration = true) :
    ∃ owner, a.patternOwner declaration = some owner ∧ a.Lists scope owner := by
  unfold offers at h
  split at h
  · next statements hs =>
    obtain ⟨statement, hm, heq⟩ := List.any_eq_true.mp h
    exact ⟨statement, eq_of_beq heq, _, hs, List.takeWhile_subset _ hm⟩
  · next parameters body hs =>
    obtain ⟨parameter, hm, heq⟩ := List.any_eq_true.mp h
    exact ⟨parameter, eq_of_beq heq, _, hs, List.mem_append_left _ hm⟩
  · next target iterable body hs =>
    rw [Bool.and_eq_true] at h
    exact ⟨target, eq_of_beq h.2, _, hs, List.mem_cons_self⟩
  · next target iterable body hs =>
    rw [Bool.and_eq_true] at h
    exact ⟨target, eq_of_beq h.2, _, hs, List.mem_cons_self⟩
  · cases h

namespace Grown

/-! ### Owners of patterns -/

/-- The walk goes up in the arena, so two bounds that reach its end give the same owner. -/
private theorem patternOwnerWithin_eq (ha : a.Grown) (hn : a.size ≤ id.index + n)
    (hm : a.size ≤ id.index + m) : a.patternOwnerWithin n id = a.patternOwnerWithin m id := by
  -- behind the last node there is no pattern to walk out of
  have hlast : ∀ {id : NodeId} (k : Nat), a.size ≤ id.index →
      a.patternOwnerWithin k id = some id := by
    intro id k hk
    cases k with
    | zero => rfl
    | succ k => simp [patternOwnerWithin, get?_eq_none_iff.mpr hk]
  induction n generalizing m id with
  | zero => rw [hlast 0 (by omega), hlast m (by omega)]
  | succ n ih =>
    cases m with
    | zero => rw [hlast 0 (by omega), hlast (n + 1) (by omega)]
    | succ m =>
      simp only [patternOwnerWithin]
      cases hp : a.parent? id with
      | none => rfl
      | some parent =>
        have hlt := ha.lt_parent hp
        have hrest : a.patternOwnerWithin n parent = a.patternOwnerWithin m parent :=
          ih (by omega) (by omega)
        simp only [Option.bind_some, hrest]

/-- The owner of a pattern part is that of its parent; any other node owns itself. -/
theorem patternOwner_eq (ha : a.Grown) (id : NodeId) :
    a.patternOwner id =
      if (a.get? id).any isPatternPart then (a.parent? id).bind a.patternOwner else some id := by
  have hone : a.patternOwner id = a.patternOwnerWithin (a.size + 1) id :=
    ha.patternOwnerWithin_eq (by omega) (by omega)
  rw [hone, patternOwnerWithin]
  rfl

/-- A part of a pattern belongs to whatever the pattern belongs to. -/
theorem patternOwner_of_parent? (ha : a.Grown) {node : Node} (hn : a.get? id = some node)
    (hpart : isPatternPart node = true) (hp : a.parent? id = some scope) :
    a.patternOwner id = a.patternOwner scope := by
  rw [ha.patternOwner_eq id, hn, hp]
  simp [hpart]

/-- Anything else belongs to itself. -/
theorem patternOwner_self (ha : a.Grown) {node : Node} (hn : a.get? id = some node)
    (hpart : isPatternPart node = false) : a.patternOwner id = some id := by
  rw [ha.patternOwner_eq id, hn]
  simp [hpart]

/-- A declaration is at the top if the block around it is; a part of a pattern is if what is
around it is. -/
theorem isTopLevelDeclaration_eq (ha : a.Grown) (id : NodeId) :
    a.isTopLevelDeclaration id =
      match a.get? id with
      | some (.declaration ..) => (a.parent? id).any a.isRootBlock
      | some node => isPatternPart node && (a.parent? id).any a.isTopLevelDeclaration
      | none => false := by
  unfold isTopLevelDeclaration
  rw [ha.patternOwner_eq]
  cases hn : a.get? id with
  | none => simp [hn]
  | some node =>
    cases node with
    | binding | objectPattern | arrayPattern =>
      simp only [Option.any_some, isPatternPart, if_true]
      cases a.parent? id <;> rfl
    | _ => simp [hn, isPatternPart]

/-- What is found in the target of a declaration belongs to the declaration. -/
theorem patternOwner_of_findBindingWithin (ha : a.Grown)
    (hb : (a.get? scope).bind Node.bound? = some target)
    (h : a.findBindingWithin name n target = some declaration) :
    a.patternOwner declaration = a.patternOwner scope := by
  induction n generalizing scope target with
  | zero => cases h
  | succ n ih =>
    have hparent : target.index < a.size → a.parent? target = some scope := ha.parent?_of_bound hb
    -- an element belongs to its pattern, and the pattern to what binds it
    have hpattern : ∀ {node : Node} {elements : List NodeId}, a.get? target = some node →
        isPatternPart node = true → node.children = elements →
        elements.findSome? (a.declaredByElement name n) = some declaration →
        a.patternOwner declaration = a.patternOwner scope := by
      intro node elements hn hpart hchildren hf
      obtain ⟨element, hm, hs⟩ := List.exists_of_findSome?_eq_some hf
      unfold declaredByElement at hs
      split at hs
      · next inner key default rest he =>
        have hbound : (a.get? element).bind Node.bound? = some inner := by
          rw [he]
          rfl
        have helement : a.parent? element = some target :=
          ha.adopted ⟨node, hn, hchildren ▸ hm⟩ (lt_size_of_get? he)
        calc a.patternOwner declaration
            = a.patternOwner element := ih hbound hs
          _ = a.patternOwner target := ha.patternOwner_of_parent? he rfl helement
          _ = a.patternOwner scope :=
            ha.patternOwner_of_parent? hn hpart (hparent (lt_size_of_get? hn))
      · cases hs
    rw [findBindingWithin] at h
    split at h
    · next declared ht =>
      split at h
      · rw [hparent (lt_size_of_get? ht)] at h
        cases h
        rfl
      · cases h
    · next elements ht => exact hpattern ht rfl rfl h
    · next elements ht => exact hpattern ht rfl rfl h
    · cases h

/-- What a scope declares belongs to that scope. -/
theorem patternOwner_of_declaredBy (ha : a.Grown)
    (h : a.declaredBy name scope = some declaration) :
    a.patternOwner declaration = some scope := by
  unfold declaredBy at h
  split at h
  · next kind target value hs =>
    have hbound : (a.get? scope).bind Node.bound? = some target := by
      rw [hs]
      rfl
    rw [ha.patternOwner_of_findBindingWithin hbound h, ha.patternOwner_self hs rfl]
  · cases h

/-- So does a parameter. -/
theorem patternOwner_of_declaredByParameter (ha : a.Grown)
    (h : a.declaredByParameter name scope = some declaration) :
    a.patternOwner declaration = some scope := by
  unfold declaredByParameter at h
  split at h
  · next target default hs =>
    have hbound : (a.get? scope).bind Node.bound? = some target := by
      rw [hs]
      rfl
    rw [ha.patternOwner_of_findBindingWithin hbound h, ha.patternOwner_self hs rfl]
  · cases h

/-! ### Names refer to what is visible -/

/-- A declaration that is found in a scope is offered by it. -/
theorem offers_of_declaredIn (ha : a.Grown)
    (h : a.declaredIn scope inner name = some declaration) :
    a.offers scope inner declaration = true := by
  have hloop : ∀ {target body : NodeId},
      (if body = inner then a.declaredBy name target else none) = some declaration →
      (body == inner && a.patternOwner declaration == some target) = true := by
    intro target body h
    split at h
    · next hbody => simp [hbody, ha.patternOwner_of_declaredBy h]
    · cases h
  unfold declaredIn at h
  unfold offers
  cases hs : a.get? scope with
  | none =>
    rw [hs] at h
    cases h
  | some node =>
    rw [hs] at h
    cases node with
    | block statements =>
      obtain ⟨statement, hm, hd⟩ := List.mem_filterMap.mp (List.mem_of_getLast? h)
      exact List.any_eq_true.mpr ⟨statement, hm, by simp [ha.patternOwner_of_declaredBy hd]⟩
    | function parameters body =>
      obtain ⟨parameter, hm, hd⟩ := List.exists_of_findSome?_eq_some h
      exact List.any_eq_true.mpr
        ⟨parameter, hm, by simp [ha.patternOwner_of_declaredByParameter hd]⟩
    | forOf target iterable body => exact hloop h
    | forIn target iterable body => exact hloop h
    | _ => cases h

/-- The scope in which the name is found offers the declaration. -/
theorem isOfferedOutward_of_lookupOutward (ha : a.Grown) {scopes : List NodeId}
    (h : a.lookupOutward name inner scopes = some declaration) :
    a.isOfferedOutward declaration inner scopes = true := by
  induction scopes generalizing inner with
  | nil => cases h
  | cons scope outer ih =>
    rw [lookupOutward] at h
    rw [isOfferedOutward, Bool.or_eq_true]
    split at h
    · next found hf =>
      cases h
      exact .inl (ha.offers_of_declaredIn hf)
    · exact .inr (ih h)

/-- A name that is not itself a declared one refers to a declaration that is visible
where the name stands. -/
theorem isVisibleAt_of_lookup (ha : a.Grown) (hb : a.isBindingName id = false)
    (h : a.lookup id = some declaration) : a.isVisibleAt declaration id = true := by
  unfold lookup at h
  split at h
  · rw [if_neg (by simp [hb])] at h
    exact ha.isOfferedOutward_of_lookupOutward h
  · cases h

end Grown

end Arena

end ClosureVtl
