/-
Module: ClosureVtl.Proofs.Closure.Binding
Purpose: A name and the declaration it refers to have the same address.
Main exports:
  Node.bound?, Arena.Binds, Arena.Grown.binds_of_lookup,
  Arena.Grown.classify_eq_of_binds, address_eq_of_lookup
-/
import ClosureVtl.Proofs.Closure.Descent
import ClosureVtl.Render.Program

namespace ClosureVtl

/-!
A name is read through the search of `Arena.lookup`, while the declaration it
refers to is written through the name in binding position.  Both ways lead to one
address because the search ends at a name that its own declaration binds: that is
what a binding target is looked through for, at whatever depth of patterns, and
each scope offers nothing but binding targets.
-/

/-- The name or pattern that a declaration, a parameter or a pattern element
binds. -/
def Node.bound? : Node → Option NodeId
  | .declaration _ name _ | .parameter name _ | .binding name .. => some name
  | _ => none

theorem Node.mem_children_of_bound? {node : Node} {target : NodeId}
    (h : node.bound? = some target) : target ∈ node.children := by
  unfold bound? at h
  split at h <;> cases h <;> simp [children]

namespace Arena

/-- Whether a declaration binds the name that stands at a node. -/
structure Binds (a : Arena) (declaration node : NodeId) (name : String) : Prop where
  name_eq : a.get? node = some (.identifier name)
  bound : (a.get? declaration).bind Node.bound? = some node
  parent : a.parent? node = some declaration

/-- The declaration of a name by one element of a pattern, patterns opened to a depth of
`n`. -/
def declaredByElement (a : Arena) (name : String) (n : Nat) (element : NodeId) : Option NodeId :=
  match a.get? element with
  | some (.binding inner ..) => a.findBindingWithin name n inner
  | _ => none

namespace Grown

variable {a : Arena} {declaration scope inner target id : NodeId} {name : String}

/-! ### What a search ends at -/

/-- A node that exists and is bound has its declaration as parent. -/
theorem parent?_of_bound (ha : a.Grown) (hb : (a.get? declaration).bind Node.bound? = some target)
    (ht : target.index < a.size) : a.parent? target = some declaration := by
  obtain ⟨node, hn, hbound⟩ := Option.bind_eq_some_iff.mp hb
  exact ha.adopted ⟨node, hn, Node.mem_children_of_bound? hbound⟩ ht

/-- Looking through a binding target, at whatever depth, ends at a declaration
that binds the name. -/
theorem binds_of_findBindingWithin (ha : a.Grown) {n : Nat}
    (hb : (a.get? scope).bind Node.bound? = some target)
    (h : a.findBindingWithin name n target = some declaration) :
    ∃ node, a.Binds declaration node name := by
  induction n generalizing scope target with
  | zero => cases h
  | succ n ih =>
    rw [findBindingWithin] at h
    -- the elements of either kind of pattern are themselves declarations
    have hpattern : ∀ {elements : List NodeId},
        elements.findSome? (a.declaredByElement name n) = some declaration →
          ∃ node, a.Binds declaration node name := by
      intro elements hf
      obtain ⟨element, -, hs⟩ := List.exists_of_findSome?_eq_some hf
      unfold declaredByElement at hs
      split at hs
      · next inner key default rest he =>
        have hbound : (a.get? element).bind Node.bound? = some inner := by
          rw [he]
          rfl
        exact ih hbound hs
      · cases hs
    split at h
    · next declared ht =>
      split at h
      · next hname =>
        subst hname
        have hp := ha.parent?_of_bound hb (lt_size_of_get? ht)
        rw [hp] at h
        cases h
        exact ⟨target, ht, hb, hp⟩
      · cases h
    · exact hpattern h
    · exact hpattern h
    · cases h

theorem binds_of_declaredBy (ha : a.Grown) (h : a.declaredBy name scope = some declaration) :
    ∃ node, a.Binds declaration node name := by
  unfold declaredBy at h
  split at h
  · next kind target value hs =>
    have hbound : (a.get? scope).bind Node.bound? = some target := by
      rw [hs]
      rfl
    exact ha.binds_of_findBindingWithin hbound h
  · cases h

theorem binds_of_declaredByParameter (ha : a.Grown)
    (h : a.declaredByParameter name scope = some declaration) :
    ∃ node, a.Binds declaration node name := by
  unfold declaredByParameter at h
  split at h
  · next target default hs =>
    have hbound : (a.get? scope).bind Node.bound? = some target := by
      rw [hs]
      rfl
    exact ha.binds_of_findBindingWithin hbound h
  · cases h

/-- What a scope offers binds the name. -/
theorem binds_of_declaredIn (ha : a.Grown) (h : a.declaredIn scope inner name = some declaration) :
    ∃ node, a.Binds declaration node name := by
  unfold declaredIn at h
  split at h
  · next statements hs =>
    obtain ⟨statement, -, hd⟩ := List.mem_filterMap.mp (List.mem_of_getLast? h)
    exact ha.binds_of_declaredBy hd
  · next parameters body hs =>
    obtain ⟨parameter, -, hd⟩ := List.exists_of_findSome?_eq_some h
    exact ha.binds_of_declaredByParameter hd
  · split at h
    · exact ha.binds_of_declaredBy h
    · cases h
  · split at h
    · exact ha.binds_of_declaredBy h
    · cases h
  · cases h

theorem binds_of_lookupOutward (ha : a.Grown) {scopes : List NodeId}
    (h : a.lookupOutward name inner scopes = some declaration) :
    ∃ node, a.Binds declaration node name := by
  induction scopes generalizing inner with
  | nil => cases h
  | cons scope outer ih =>
    rw [lookupOutward] at h
    split at h
    · next found hf =>
      cases h
      exact ha.binds_of_declaredIn hf
    · exact ih h

/-! ### Names in binding position -/

theorem isBindingName_iff :
    a.isBindingName id = true ↔
      ∃ declaration, a.parent? id = some declaration ∧
        (a.get? declaration).bind Node.bound? = some id := by
  unfold isBindingName
  cases hp : a.parent? id with
  | none => simp
  | some declaration =>
    cases hn : a.get? declaration with
    | none => simp [hn]
    | some node => cases node <;> simp [hn, Node.bound?]

theorem isBindingName_of_binds (h : a.Binds declaration id name) : a.isBindingName id = true :=
  isBindingName_iff.mpr ⟨declaration, h.parent, h.bound⟩

/-- A name refers to a declaration that binds it. -/
theorem binds_of_lookup (ha : a.Grown) (h : a.lookup id = some declaration) :
    ∃ name node, a.get? id = some (.identifier name) ∧ a.Binds declaration node name := by
  unfold lookup at h
  split at h
  · next name hn =>
    refine ⟨name, ?_⟩
    split at h
    · next hb =>
      obtain ⟨parent, hp, hbound⟩ := isBindingName_iff.mp hb
      rw [hp] at h
      cases h
      exact ⟨id, hn, hn, hbound, hp⟩
    · obtain ⟨node, hbinds⟩ := ha.binds_of_lookupOutward h
      exact ⟨node, hn, hbinds⟩
  · cases h

/-- A name in binding position refers to its own declaration. -/
theorem lookup_of_binds (h : a.Binds declaration id name) : a.lookup id = some declaration := by
  rw [lookup_of_isBindingName h.name_eq (isBindingName_of_binds h), h.parent]

/-- The class of a name depends on the name and its declaration alone. -/
theorem classify_eq_of_binds {use node : NodeId} (hu : a.get? use = some (.identifier name))
    (hl : a.lookup use = some declaration) (h : a.Binds declaration node name) :
    a.classify use = a.classify node := by
  unfold classify
  rw [node_eq_ok_iff.mpr hu, node_eq_ok_iff.mpr h.name_eq, hl, lookup_of_binds h]

end Grown

end Arena

/-! ### Addresses -/

theorem Program.arena_walkerWithin (p : Program) (dialect : Dialect) (n : Nat) :
    (p.walkerWithin dialect n).arena = p.arena := by
  induction n with
  | zero => rfl
  | succ n ih => exact ih

theorem Program.dialect_walkerWithin (p : Program) (dialect : Dialect) (n : Nat) :
    (p.walkerWithin dialect n).dialect = dialect := by
  induction n with
  | zero => rfl
  | succ n ih => exact ih

/-- Wherever a name refers to a declaration, reading the name and writing the
declaration go to the same address, or fail for the same reason.  The name that is
written is the one that the declaration, the parameter or the pattern element
binds. -/
theorem address_eq_of_lookup {p : Program} (hp : p.BottomUp) (dialect : Dialect)
    {use declaration : NodeId} (h : p.arena.lookup use = some declaration) :
    ∃ node name, p.arena.Binds declaration node name ∧
      p.arena.addressIn dialect use = p.arena.addressIn dialect node ∧
      (p.walker dialect).address use = (p.walker dialect).address node := by
  obtain ⟨name, node, hu, hbinds⟩ := hp.grown.binds_of_lookup h
  have haddress : p.arena.addressIn dialect use = p.arena.addressIn dialect node := by
    unfold Arena.addressIn
    rw [Arena.Grown.classify_eq_of_binds hu h hbinds]
  refine ⟨node, name, hbinds, haddress, ?_⟩
  unfold Walker.address Program.walker
  rw [p.arena_walkerWithin, p.dialect_walkerWithin, haddress]

/-- The name that the callback returns is read where the inner pattern writes. -/
theorem address_eq_of_lookup_pluck :
    Program.pluck.arena.lookup ⟨7⟩ = some ⟨1⟩ ∧
      ∃ node name, Program.pluck.arena.Binds ⟨1⟩ node name ∧
        Program.pluck.arena.addressIn (.resolver {}) ⟨7⟩ =
          Program.pluck.arena.addressIn (.resolver {}) node ∧
        (Program.pluck.walker (.resolver {})).address ⟨7⟩ =
          (Program.pluck.walker (.resolver {})).address node := by
  have hlookup : Program.pluck.arena.lookup ⟨7⟩ = some ⟨1⟩ := by cbv
  exact ⟨hlookup, address_eq_of_lookup Program.bottomUp_pluck (.resolver {}) hlookup⟩

end ClosureVtl
