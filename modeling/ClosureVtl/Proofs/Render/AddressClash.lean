/-
Module: ClosureVtl.Proofs.Render.AddressClash
Purpose: Which names of a closure share an address, with a temporary or with each
  other.
Main exports:
  Storage, Arena.storage, Arena.addressIn_of_lookup, Storage.address?_eq_tempName_iff,
  Storage.share_address_iff, nested_clash_iff
-/
import ClosureVtl.Proofs.Closure.Visibility
import Mathlib

namespace ClosureVtl

/-!
The address of a declared name keeps two things only: where the name is stored and,
except for accessors, how it is spelled.  Neither a temporary nor an inner scope is
looked at, so two names that are stored alike and spelled alike share an address
however their declarations lie.  What rules a clash out is always one of the two:
the numbering of temporaries, or that different kinds of storage are spelled apart.
-/

/-- Where a declared name is stored. -/
inductive Storage where
  /-- a parameter of the outermost closure, read through an accessor -/
  | accessor (index : Nat)
  /-- a field of the stash -/
  | stash
  /-- a variable of the template -/
  | plain
  /-- a name of the template language, which stands for itself -/
  | reserved
deriving DecidableEq, Repr

/-- Whether a dialect keeps top-level names in the stash. -/
def Dialect.stashes : Dialect → Bool
  | .resolver config => config.stashLocals
  | .mapping .. => false

/-- Where a name with a given declaration is stored. -/
def Arena.storage (a : Arena) (dialect : Dialect) (name : String) (declaration : NodeId) :
    Storage :=
  match a.rootParameterIndex declaration with
  | some index => .accessor index
  | none =>
    if isReservedName name then .reserved
    else if dialect.stashes && a.isTopLevelDeclaration declaration then .stash
    else .plain

/-- The address of a name in its storage; accessors exist for the first parameters
only. -/
def Storage.address? (dialect : Dialect) (name : String) : Storage → Option String
  | accessor index => dialect.rootParameter? index
  | stash => some ("$context.stash." ++ name)
  | plain => some ("$" ++ name)
  | reserved => some name

variable {dialect : Dialect} {name : String} {storage : Storage} {number : Nat}

/-- A name that refers to a declaration is addressed by its storage. -/
theorem Arena.addressIn_of_lookup {a : Arena} {use declaration : NodeId}
    (hu : a.get? use = some (.identifier name)) (hl : a.lookup use = some declaration) :
    (a.addressIn dialect use).toOption =
      (a.storage dialect name declaration).address? dialect name := by
  have hclass : a.classify use = .ok (a.classifyDeclared name (some declaration)) := by
    rw [classify, node_eq_ok_iff.mpr hu, hl]
  rw [addressIn, hclass]
  unfold classifyDeclared storage
  rw [Option.bind_some]
  cases a.rootParameterIndex declaration with
  | some index =>
    simp only [Dialect.addressOf, Storage.address?]
    cases dialect.rootParameter? index <;> rfl
  | none =>
    by_cases hreserved : isReservedName name = true
    · simp [hreserved, Dialect.addressOf, Storage.address?, Except.toOption]
    · by_cases htop : a.isTopLevelDeclaration declaration = true
      · rcases dialect with config | ⟨direction, config⟩
        · cases hs : config.stashLocals <;>
            simp [hreserved, htop, hs, Dialect.addressOf, Dialect.stashes, Storage.address?,
              Except.toOption]
        · simp [hreserved, htop, Dialect.addressOf, Dialect.stashes, Storage.address?,
            Except.toOption]
      · simp [hreserved, htop, Dialect.addressOf, Storage.address?, Except.toOption]

theorem Arena.addressIn_eq_ok_iff {a : Arena} {use declaration : NodeId} {address : String}
    (hu : a.get? use = some (.identifier name)) (hl : a.lookup use = some declaration) :
    a.addressIn dialect use = .ok address ↔
      (a.storage dialect name declaration).address? dialect name = some address := by
  rw [← addressIn_of_lookup hu hl]
  cases a.addressIn dialect use <;> simp [Except.toOption]

/-- Only parameters of the outermost closure are read through accessors. -/
theorem Arena.rootParameterIndex_of_storage {a : Arena} {declaration : NodeId} {index : Nat}
    (h : a.storage dialect name declaration = .accessor index) :
    a.rootParameterIndex declaration = some index := by
  unfold storage at h
  split at h
  · next found hfound =>
    cases h
    exact hfound
  · split at h
    · cases h
    · split at h <;> cases h

/-- Only reserved names stand for themselves. -/
theorem Arena.storage_ne_reserved {a : Arena} {declaration : NodeId}
    (h : isReservedName name = false) : a.storage dialect name declaration ≠ .reserved := by
  unfold storage
  split
  · exact Storage.noConfusion
  · rw [h, if_neg Bool.false_ne_true]
    split <;> exact Storage.noConfusion

/-! ### Temporaries -/

theorem Render.toList_tempName (number : Nat) :
    (tempName number).toList = '$' :: 'v' :: (toString number).toList :=
  String.toList_append

/-- No two temporaries have the same name. -/
theorem Render.tempName_injective : Function.Injective Render.tempName := by
  intro first second h
  have hdigits : (toString first).toList = (toString second).toList := by
    have hlists := congrArg String.toList h
    rw [toList_tempName, toList_tempName] at hlists
    exact List.tail_eq_of_cons_eq (List.tail_eq_of_cons_eq hlists)
  have hparsed := congrArg (fun digits => Nat.ofDigitChars 10 digits 0) hdigits
  simpa using hparsed

/-- Accessors and fields of the stash are spelled unlike any temporary. -/
theorem Storage.address?_eq_tempName_iff :
    storage.address? dialect name = some (Render.tempName number) ↔
      (storage = .plain ∧ name = "v" ++ toString number) ∨
        (storage = .reserved ∧ name = "$v" ++ toString number) := by
  -- temporaries begin with a dollar sign and a letter that no accessor has there
  have hspelled : ∀ {text : String}, text = Render.tempName number →
      ['$', 'v'] <+: text.toList := by
    rintro text rfl
    exact ⟨(toString number).toList, (Render.toList_tempName number).symm⟩
  cases storage with
  | accessor index =>
    simp only [reduceCtorEq, false_and, or_self, iff_false]
    intro h
    simp only [address?] at h
    rcases dialect with config | ⟨direction, config⟩ <;> rcases index with _ | _ | index <;>
      simp only [Dialect.rootParameter?, reduceCtorEq, Option.some.injEq] at h <;>
      exact absurd (hspelled h) (by decide)
  | stash =>
    simp only [address?, reduceCtorEq, false_and, or_self, iff_false, Option.some.injEq]
    intro h
    have := hspelled h
    simp at this
  | plain =>
    simp only [address?, reduceCtorEq, true_and, false_and, or_false, Option.some.injEq]
    constructor
    · intro h
      have hlists := congrArg String.toList h
      rw [Render.toList_tempName, String.toList_append] at hlists
      apply String.toList_injective
      rw [String.toList_append]
      exact List.tail_eq_of_cons_eq hlists
    · rintro rfl
      apply String.toList_injective
      rw [Render.toList_tempName, String.toList_append, String.toList_append]
      rfl
  | reserved =>
    simp only [address?, reduceCtorEq, true_and, false_and, false_or, Option.some.injEq]
    exact Iff.rfl

/-- Whether no temporary of a compilation has the address of a declared name. -/
def Program.TemporariesApart (p : Program) (dialect : Dialect) (root : NodeId) : Prop :=
  ∀ out, p.render dialect root = .ok out → ∀ use declaration number,
    p.arena.lookup use = some declaration → 1 ≤ number → number ≤ out.temps →
      p.arena.addressIn dialect use ≠ .ok (Render.tempName number)

/-- The names that must not be declared are those that spell a temporary of the
compilation: with the dollar sign as reserved names, and without it as names that
are stored in a variable. -/
theorem temporariesApart_iff {p : Program} {root : NodeId} :
    p.TemporariesApart dialect root ↔
      ∀ out, p.render dialect root = .ok out → ∀ use declaration name number,
        p.arena.get? use = some (.identifier name) → p.arena.lookup use = some declaration →
        1 ≤ number → number ≤ out.temps →
          (p.arena.storage dialect name declaration = .plain → name ≠ "v" ++ toString number) ∧
          (p.arena.storage dialect name declaration = .reserved → name ≠ "$v" ++ toString number) := by
  have hclash : ∀ {use declaration : NodeId} {name : String} {number : Nat},
      p.arena.get? use = some (.identifier name) → p.arena.lookup use = some declaration →
      (p.arena.addressIn dialect use ≠ .ok (Render.tempName number) ↔
        (p.arena.storage dialect name declaration = .plain → name ≠ "v" ++ toString number) ∧
        (p.arena.storage dialect name declaration = .reserved →
          name ≠ "$v" ++ toString number)) := by
    intro use declaration name number hu hl
    rw [ne_eq, Arena.addressIn_eq_ok_iff hu hl, Storage.address?_eq_tempName_iff, not_or,
      not_and, not_and]
  constructor
  · intro h out hout use declaration name number hu hl hpos hle
    exact (hclash hu hl).mp (h out hout use declaration number hl hpos hle)
  · intro h out hout use declaration number hl hpos hle
    obtain ⟨name, hu⟩ := Arena.exists_identifier_of_lookup hl
    exact (hclash hu hl).mpr (h out hout use declaration name number hu hl hpos hle)

/-- The closure `input => { return input.items.map(v1 => v1) }`, whose list is built
in the first temporary. -/
def Program.collect : Program :=
  (Builder.of []
    [.identifier "v1", .identifier "v1", .parameter ⟨1⟩ none, .function [⟨2⟩] ⟨0⟩,
      .identifier "input", .parameter ⟨4⟩ none, .identifier "input", .member ⟨6⟩ "items",
      .member ⟨7⟩ "map", .argument ⟨3⟩ none, .call ⟨8⟩ [⟨9⟩], .returnValue (some ⟨10⟩),
      .block [⟨11⟩], .function [⟨5⟩] ⟨12⟩]).program

/-- Each round of the loop overwrites the list with the item. -/
theorem not_temporariesApart_collect : ¬ Program.collect.TemporariesApart (.resolver {}) ⟨13⟩ := by
  intro h
  have htemps :
      (Program.collect.render (.resolver {}) ⟨13⟩).toOption.map Output.temps = some 2 := by
    decide +kernel
  have hlookup : Program.collect.arena.lookup ⟨0⟩ = some ⟨2⟩ := by cbv
  have haddress : Program.collect.arena.addressIn (.resolver {}) ⟨0⟩ = .ok "$v1" := by cbv
  rcases hrender : Program.collect.render (.resolver {}) ⟨13⟩ with fault | out
  · rw [hrender] at htemps
    cases htemps
  · rw [hrender] at htemps
    have hsize : out.temps = 2 := Option.some.inj htemps
    exact h out hrender ⟨0⟩ ⟨2⟩ 1 hlookup (Nat.le_refl 1) (by omega) haddress

/-! ### Nested declarations -/

namespace Arena.Grown

variable {a : Arena} {declaration outer inner : NodeId} {index : Nat}

/-- A parameter that has an accessor belongs to a function that no other is around. -/
theorem function_of_rootParameterIndex
    (h : a.rootParameterIndex declaration = some index) :
    ∃ function parameters body target default,
      a.get? declaration = some (.parameter target default) ∧
      a.parent? declaration = some function ∧
      a.get? function = some (.function parameters body) ∧
      a.enclosingFunction function = none ∧
      parameters[index]? = some declaration := by
  unfold rootParameterIndex at h
  split at h
  · next target default function hn hp =>
    split at h
    · next parameters body hf =>
      split at h
      · cases h
      · next hnone =>
        refine ⟨function, parameters, body, target, default, hn, hp, hf, ?_, ?_⟩
        · simpa using hnone
        · obtain ⟨hlt, heq, -⟩ := List.findIdx?_eq_some_iff_getElem.mp h
          rw [List.getElem?_eq_getElem hlt, eq_of_beq heq]
    · cases h
  · cases h

/-- A parameter is visible to its siblings and to itself. -/
theorem isVisibleAt_self_of_rootParameterIndex (ha : a.Grown)
    (h : a.rootParameterIndex declaration = some index) :
    a.isVisibleAt declaration declaration = true := by
  obtain ⟨function, parameters, body, target, default, hn, hp, hf, -, hindex⟩ :=
    function_of_rootParameterIndex h
  have howner : a.patternOwner declaration = some declaration := ha.patternOwner_self hn rfl
  rw [isVisibleAt, ha.ancestors_eq, hp]
  simp only [isOfferedOutward, offers, hf, Bool.or_eq_true]
  exact .inl (List.any_eq_true.mpr ⟨declaration, List.mem_of_getElem? hindex, by simp [howner]⟩)

/-- Two parameters with the same accessor are one, if the region of one lies in that
of the other. -/
theorem eq_of_rootParameterIndex (ha : a.Grown) (ho : a.rootParameterIndex outer = some index)
    (hi : a.rootParameterIndex inner = some index) (hregion : a.region inner ⊆ a.region outer) :
    outer = inner := by
  obtain ⟨outerFunction, outerParameters, _, _, _, hno, hpo, hfo, -, hatOuter⟩ :=
    function_of_rootParameterIndex ho
  obtain ⟨innerFunction, innerParameters, _, _, _, hni, hpi, hfi, hnone, hatInner⟩ :=
    function_of_rootParameterIndex hi
  have hvisible : a.isVisibleAt outer inner = true :=
    isVisibleAt_of_mem_region (hregion (mem_region_of_isVisibleAt (lt_size_of_get? hni)
      (ha.isVisibleAt_self_of_rootParameterIndex hi)))
  obtain ⟨scope, hscope, child, hoffers⟩ := exists_offers_of_isOfferedOutward hvisible
  obtain ⟨owner, howner, hlists⟩ := exists_owner_of_offers hoffers
  rw [ha.patternOwner_self hno rfl] at howner
  cases howner
  have hsame : scope = outerFunction := by
    have := ha.adopted hlists (lt_size_of_get? hno)
    rw [hpo] at this
    exact (Option.some.inj this).symm
  subst hsame
  rw [ha.ancestors_eq, hpi, List.mem_cons] at hscope
  rcases hscope with rfl | houter
  · -- both belong to one function, so the position decides
    rw [hfo] at hfi
    cases hfi
    rw [hatOuter] at hatInner
    exact Option.some.inj hatInner
  · -- no function is around that of the inner parameter
    have hno := List.find?_eq_none.mp hnone scope houter
    simp [isFunction, hfo] at hno

end Arena.Grown

/-- Accessors are told apart by their position. -/
theorem Dialect.rootParameter?_injective {first second : Nat} {address : String}
    (h : dialect.rootParameter? first = some address)
    (h' : dialect.rootParameter? second = some address) : first = second := by
  rcases dialect with config | ⟨direction, config⟩ <;>
    rcases first with _ | _ | first <;> rcases second with _ | _ | second <;>
    simp only [rootParameter?, reduceCtorEq, Option.some.injEq] at h h' <;>
    first
    | rfl
    | exact absurd (h.trans h'.symm) (by decide)

/-- No accessor is spelled like a field of the stash. -/
theorem Dialect.rootParameter?_ne_stash {index : Nat} :
    dialect.rootParameter? index ≠ some ("$context.stash." ++ name) := by
  intro h
  have hstarts : ∀ {text : String}, some text = some ("$context.stash." ++ name) →
      "$context.stash.".toList <+: text.toList := by
    intro text h
    rw [Option.some.inj h, String.toList_append]
    exact List.prefix_append _ _
  rcases dialect with config | ⟨direction, config⟩ <;> rcases index with _ | _ | index <;>
    simp only [rootParameter?, reduceCtorEq] at h <;>
    exact absurd (hstarts h) (by decide)

/-- Storage of one kind tells names apart; accessors, fields of the stash and variables
meet only where a variable is spelled like the other. -/
theorem Storage.share_address_iff {first second : Storage} {firstName secondName : String}
    (hf : first ≠ .reserved) (hs : second ≠ .reserved)
    (haccessor : ∀ index, first = .accessor index → second ≠ .accessor index) :
    (∃ address, first.address? dialect firstName = some address ∧
        second.address? dialect secondName = some address) ↔
      (first = second ∧ firstName = secondName) ∨
        (second = .plain ∧ first ≠ .plain ∧
          first.address? dialect firstName = some ("$" ++ secondName)) ∨
        (first = .plain ∧ second ≠ .plain ∧
          second.address? dialect secondName = some ("$" ++ firstName)) := by
  -- accessors and fields of the stash are never spelled alike, so only a variable can be spelled
  -- like another kind
  cases first with
  | reserved => exact absurd rfl hf
  | accessor index =>
    cases second with
    | reserved => exact absurd rfl hs
    | accessor other =>
      have hne : index ≠ other := by
        rintro rfl
        exact haccessor index rfl rfl
      simp only [reduceCtorEq, accessor.injEq, hne, false_and, or_self, iff_false]
      rintro ⟨address, hfirst, hsecond⟩
      exact hne (Dialect.rootParameter?_injective hfirst hsecond)
    | stash =>
      simp only [reduceCtorEq, false_and, or_self, iff_false]
      rintro ⟨address, hfirst, hsecond⟩
      cases hsecond
      exact Dialect.rootParameter?_ne_stash hfirst
    | plain => simp [address?]
  | stash =>
    cases second with
    | reserved => exact absurd rfl hs
    | accessor other =>
      simp only [reduceCtorEq, false_and, or_self, iff_false]
      rintro ⟨address, hfirst, hsecond⟩
      cases hfirst
      exact Dialect.rootParameter?_ne_stash hsecond
    | stash => simp [address?, eq_comm]
    | plain => simp [address?, eq_comm]
  | plain =>
    cases second with
    | reserved => exact absurd rfl hs
    | accessor other => simp [address?]
    | stash => simp [address?]
    | plain => simp [address?, eq_comm]

/-- Two declarations of which one is visible only where the other is share an address
exactly if they are stored alike, other than through accessors, and spelled alike, or
if a variable is spelled like the accessor or the field of the stash that the other
one has. -/
theorem nested_clash_iff {p : Program} (hp : p.BottomUp)
    {outer inner outerNode innerNode : NodeId} {outerName innerName : String}
    (houter : p.arena.Binds outer outerNode outerName)
    (hinner : p.arena.Binds inner innerNode innerName) (hne : outer ≠ inner)
    (houterName : isReservedName outerName = false)
    (hinnerName : isReservedName innerName = false)
    (hregion : p.arena.region inner ⊆ p.arena.region outer) :
    (∃ address, p.arena.addressIn dialect outerNode = .ok address ∧
        p.arena.addressIn dialect innerNode = .ok address) ↔
      let outerStorage := p.arena.storage dialect outerName outer
      let innerStorage := p.arena.storage dialect innerName inner
      (outerStorage = innerStorage ∧ outerName = innerName) ∨
        (innerStorage = .plain ∧ outerStorage ≠ .plain ∧
          outerStorage.address? dialect outerName = some ("$" ++ innerName)) ∨
        (outerStorage = .plain ∧ innerStorage ≠ .plain ∧
          innerStorage.address? dialect innerName = some ("$" ++ outerName)) := by
  simp only [Arena.addressIn_eq_ok_iff houter.name_eq (Arena.Grown.lookup_of_binds houter),
    Arena.addressIn_eq_ok_iff hinner.name_eq (Arena.Grown.lookup_of_binds hinner)]
  have haccessor : ∀ index, p.arena.storage dialect outerName outer = .accessor index →
      p.arena.storage dialect innerName inner ≠ .accessor index := by
    intro index ho hi
    exact hne (hp.grown.eq_of_rootParameterIndex (Arena.rootParameterIndex_of_storage ho)
      (Arena.rootParameterIndex_of_storage hi) hregion)
  exact Storage.share_address_iff (Arena.storage_ne_reserved houterName)
    (Arena.storage_ne_reserved hinnerName) haccessor

/-- The closure `input => { { const x = true; { const x = false; $util.log(x); } return x; } }`,
whose two variables differ in their block only. -/
def Program.shadow : Program :=
  (Builder.of []
    [.boolean true, .identifier "x", .declaration .const ⟨1⟩ (some ⟨0⟩),
      .boolean false, .identifier "x", .declaration .const ⟨4⟩ (some ⟨3⟩),
      .reference "$util" none, .identifier "x", .member ⟨6⟩ "log", .argument ⟨7⟩ none,
      .call ⟨8⟩ [⟨9⟩], .exprStatement ⟨10⟩, .block [⟨5⟩, ⟨11⟩], .identifier "x",
      .returnValue (some ⟨13⟩), .block [⟨2⟩, ⟨12⟩, ⟨14⟩], .block [⟨15⟩],
      .identifier "input", .parameter ⟨17⟩ none, .function [⟨18⟩] ⟨16⟩]).program

theorem Program.bottomUp_shadow : Program.shadow.BottomUp :=
  Builder.bottomUp_of (by decide) (by cbv)

theorem Program.binds_shadow_outer : Program.shadow.arena.Binds ⟨2⟩ ⟨1⟩ "x" :=
  ⟨by cbv, by cbv, by cbv⟩

/-- The parameter and the outer variable are stored apart. -/
theorem nested_clash_iff_shadow :
    Program.shadow.arena.region ⟨2⟩ ⊆ Program.shadow.arena.region ⟨18⟩ ∧
      ¬ ∃ address, Program.shadow.arena.addressIn (.resolver {}) ⟨17⟩ = .ok address ∧
        Program.shadow.arena.addressIn (.resolver {}) ⟨1⟩ = .ok address := by
  have hparameter : Program.shadow.arena.Binds ⟨18⟩ ⟨17⟩ "input" := ⟨by cbv, by cbv, by cbv⟩
  have hregion : Program.shadow.arena.region ⟨2⟩ ⊆ Program.shadow.arena.region ⟨18⟩ := by
    decide +kernel
  have haccessor : Program.shadow.arena.storage (.resolver {}) "input" ⟨18⟩ = .accessor 0 := by cbv
  have hplain : Program.shadow.arena.storage (.resolver {}) "x" ⟨2⟩ = .plain := by cbv
  refine ⟨hregion, ?_⟩
  rw [nested_clash_iff Program.bottomUp_shadow hparameter Program.binds_shadow_outer (by decide)
    (by decide) (by decide) hregion, haccessor, hplain]
  decide

/-- The inner variable is visible in a part of the region of the outer one only, and
both are the variable `$x`. -/
theorem shared_address_shadow :
    Program.shadow.BottomUp ∧ Program.shadow.arena.Binds ⟨2⟩ ⟨1⟩ "x" ∧
      Program.shadow.arena.Binds ⟨5⟩ ⟨4⟩ "x" ∧
      Program.shadow.arena.region ⟨5⟩ ⊆ Program.shadow.arena.region ⟨2⟩ ∧
      ¬ Program.shadow.arena.region ⟨2⟩ ⊆ Program.shadow.arena.region ⟨5⟩ ∧
      Program.shadow.arena.addressIn (.resolver {}) ⟨1⟩ = .ok "$x" ∧
      Program.shadow.arena.addressIn (.resolver {}) ⟨4⟩ = .ok "$x" := by
  refine ⟨Program.bottomUp_shadow, Program.binds_shadow_outer, ⟨by cbv, by cbv, by cbv⟩, ?_, ?_,
    by cbv, by cbv⟩
  · decide +kernel
  · decide +kernel

end ClosureVtl
