/-
Module: ClosureVtl.Proofs.Closure.CallbackNames
Purpose: The classes of the names declared inside the callback of a list operation.
Main exports:
  Arena.IsCallback, Arena.KeepsNamesInner, Arena.NamesAtRoot, Arena.classInside,
  Arena.Grown.classify_inside, callbackNames_iff
-/
import ClosureVtl.Proofs.Closure.Subtree
import ClosureVtl.Proofs.Closure.Visibility

namespace ClosureVtl

/-!
The class of a name depends on the functions around its declaration, and on nothing
else above it: not on the node that is compiled.  A function with another one around it
has inner names only.  A function without one is taken for the outermost closure, so
that its parameters become accessors of the runtime and the declarations of its body
are kept in the stash, even if it is a callback below a statement or an expression that
is compiled on its own.
-/

/-- The class of a declared name that does not belong to the outermost closure. -/
def innerClass (name : String) : NameClass :=
  if isReservedName name then .reserved name else .local name

theorem innerClass_ne_rootParameter (name : String) (index : Nat) :
    innerClass name ≠ .rootParameter index := by
  unfold innerClass
  split <;> simp

namespace Arena

/-! ### Callbacks -/

/-- Whether a call is a list operation with a given inline callback. -/
structure IsCallback (a : Arena) (call callback : NodeId) : Prop where
  called : ∃ callee receiver method first rest,
    a.get? call = some (.call callee (first :: rest)) ∧ a.resolveIntegration callee = none ∧
      a.get? (a.unwrapParens callee) = some (.member receiver method) ∧
      (Walker.ListOperation.ofName? method).isSome = true ∧ a.argumentExpr first = callback
  inline : a.isFunction callback = true

/-- Whether every name declared inside a function, where it is declared and wherever it is
used, has the class of an inner name. -/
def KeepsNamesInner (a : Arena) (function : NodeId) : Prop :=
  ∀ {id declaration : NodeId} {name : String}, a.get? id = some (.identifier name) →
    a.lookup id = some declaration → a.StrictlyBelow function declaration →
    a.classify id = .ok (innerClass name)

/-- The position of a declaration among the parameters of a function. -/
def parameterIndex? (a : Arena) (function declaration : NodeId) : Option Nat :=
  match a.get? declaration, a.get? function with
  | some (.parameter ..), some (.function parameters _) =>
    parameters.findIdx? (· == declaration)
  | _, _ => none

/-- Whether a node is a block that a function lists, as a rule its body. -/
def isBlockOf (a : Arena) (function block : NodeId) : Bool :=
  match a.get? block with
  | some (.block _) => a.parent? block == some function
  | _ => false

/-- Whether a name is declared directly in the body of a function.  Names bound by a pattern
are declared by the declaration around it. -/
def isBodyDeclaration (a : Arena) (function declaration : NodeId) : Bool :=
  match a.patternOwner declaration with
  | none => false
  | some owner =>
    match a.get? owner with
    | some (.declaration ..) => (a.parent? owner).any (a.isBlockOf function)
    | _ => false

/-- Whether a function has a parameter with a plain name, or declares a name without dollar
sign directly in its body: the names that the outermost closure has for its own. -/
def NamesAtRoot (a : Arena) (function : NodeId) : Prop :=
  ∃ declaration node name, a.Binds declaration node name ∧
    ((a.parameterIndex? function declaration).isSome = true ∨
      a.isBodyDeclaration function declaration = true ∧ isReservedName name = false)

/-- The class of a name declared inside a function. -/
def classInside (a : Arena) (function declaration : NodeId) (name : String) : NameClass :=
  if (a.enclosingFunction function).isSome then innerClass name
  else
    match a.parameterIndex? function declaration with
    | some index => .rootParameter index
    | none =>
      if a.isBodyDeclaration function declaration && !isReservedName name then .topLevel name
      else innerClass name

theorem isFunction_iff {a : Arena} {id : NodeId} :
    a.isFunction id = true ↔ ∃ parameters body, a.get? id = some (.function parameters body) := by
  unfold isFunction
  constructor
  · intro h
    split at h
    · next parameters body hf => exact ⟨parameters, body, hf⟩
    · cases h
  · rintro ⟨parameters, body, hf⟩
    rw [hf]

theorem isSome_enclosingFunction {a : Arena} {id : NodeId} :
    (a.enclosingFunction id).isSome = true ↔
      ∃ function ∈ a.ancestors id, a.isFunction function = true := by
  rw [enclosingFunction, List.find?_isSome]

theorem isBodyDeclaration_iff {a : Arena} {function declaration : NodeId} :
    a.isBodyDeclaration function declaration = true ↔
      ∃ owner block kind target value statements, a.patternOwner declaration = some owner ∧
        a.get? owner = some (.declaration kind target value) ∧ a.parent? owner = some block ∧
        a.get? block = some (.block statements) ∧ a.parent? block = some function := by
  unfold isBodyDeclaration
  constructor
  · intro h
    split at h
    · cases h
    · next owner howner =>
      split at h
      · next kind target value hn =>
        obtain ⟨block, hp, hblock⟩ := (Option.any_eq_true _ _).mp h
        unfold isBlockOf at hblock
        split at hblock
        · next statements hb =>
          exact ⟨owner, block, kind, target, value, statements, howner, hn, hp, hb,
            eq_of_beq hblock⟩
        · cases hblock
      · cases h
  · rintro ⟨owner, block, kind, target, value, statements, howner, hn, hp, hb, hf⟩
    rw [howner]
    simp only [hn, hp, Option.any_some, isBlockOf, hb, hf, beq_self_eq_true]

namespace Grown

variable {a : Arena} {id declaration function inner outer parent : NodeId} {name : String}

/-! ### Around a node -/

/-- Whatever is around an ancestor of a node is around the node. -/
theorem mem_ancestors_trans (ha : a.Grown) (h : inner ∈ a.ancestors id)
    (houter : outer ∈ a.ancestors inner) : outer ∈ a.ancestors id := by
  induction h using ha.induction_to_ancestor with
  | child id hp => exact ha.mem_ancestors_of_parent? hp houter
  | step id parent hp _ ih => exact ha.mem_ancestors_of_parent? hp ih

/-- Ancestors are younger. -/
theorem lt_of_mem_ancestors (ha : a.Grown) (h : outer ∈ a.ancestors id) :
    id.index < outer.index := by
  induction h using ha.induction_to_ancestor with
  | child id hp => exact ha.lt_parent hp
  | step id parent hp _ ih => exact (ha.lt_parent hp).trans ih

/-- The ancestors of a node are the nodes that it is strictly below. -/
theorem mem_ancestors_iff (ha : a.Grown) (hid : id.index < a.size) :
    outer ∈ a.ancestors id ↔ a.StrictlyBelow outer id := by
  constructor
  · intro h
    cases hp : a.parent? id with
    | none =>
      rw [ha.ancestors_of_orphan hp] at h
      cases h
    | some parent =>
      have hwithin : a.isWithin outer parent = true := by
        rw [ha.ancestors_of_parent? hp, List.mem_cons] at h
        rw [isWithin, Bool.or_eq_true, beq_iff_eq, List.contains_iff_mem]
        exact h.imp_left Eq.symm
      exact (ha.below_of_isWithin hwithin).trans_strictly ⟨id, ha.lists hp, .self id⟩
  · rintro ⟨part, hl, hbelow⟩
    have hwithin := ha.isWithin_of_below hbelow hid (isWithin_self a part)
    have hpart := ha.parent_mem_ancestors (ha.adopted hl (ha.lt_size_of_isWithin hwithin hid))
    rw [isWithin, Bool.or_eq_true, beq_iff_eq, List.contains_iff_mem] at hwithin
    rcases hwithin with rfl | hm
    · exact hpart
    · exact ha.mem_ancestors_trans hm hpart

/-! ### Parameters -/

theorem lists_of_parameterIndex? {index : Nat}
    (h : a.parameterIndex? function declaration = some index) : a.Lists function declaration := by
  unfold parameterIndex? at h
  split at h
  · next parameters body hd hf =>
    obtain ⟨hlt, heq, -⟩ := List.findIdx?_eq_some_iff_getElem.mp h
    exact ⟨_, hf, List.mem_append_left _ (eq_of_beq heq ▸ List.getElem_mem hlt)⟩
  · cases h

/-- Inside a function only its own parameters can have a position that counts, and only if
no function is around it. -/
theorem rootParameterIndex_inside (ha : a.Grown) (hfunction : a.isFunction function = true)
    (hinside : function ∈ a.ancestors declaration) :
    a.rootParameterIndex declaration =
      if (a.enclosingFunction function).isSome then none
      else a.parameterIndex? function declaration := by
  obtain ⟨parameters, body, hf⟩ := isFunction_iff.mp hfunction
  cases hp : a.parent? declaration with
  | none =>
    rw [ha.ancestors_of_orphan hp] at hinside
    cases hinside
  | some parent =>
    rw [ha.ancestors_of_parent? hp, List.mem_cons] at hinside
    unfold rootParameterIndex
    rcases hinside with rfl | hm
    · unfold parameterIndex?
      cases a.get? declaration with
      | none => simp
      | some node => cases node <;> simp [hp, hf]
    · -- a parameter of another function is not among those of this one
      have hindex : a.parameterIndex? function declaration = none := by
        rw [Option.eq_none_iff_forall_ne_some]
        intro index hindex
        have hsame := ha.adopted (lists_of_parameterIndex? hindex) (lt_size_of_parent? hp)
        rw [hp] at hsame
        cases hsame
        exact absurd (ha.lt_of_mem_ancestors hm) (Nat.lt_irrefl _)
      have hsome : (a.enclosingFunction parent).isSome = true :=
        isSome_enclosingFunction.mpr ⟨function, hm, hfunction⟩
      rw [hp, hindex, ite_self]
      split
      · next target default other hd heq =>
        cases heq
        simp only [hsome, if_true]
        split <;> rfl
      · rfl

/-! ### Declarations -/

/-- The owner of a pattern part is the part itself or around it. -/
theorem patternOwner_around (ha : a.Grown) {owner : NodeId}
    (h : a.patternOwner declaration = some owner) :
    owner = declaration ∨ owner ∈ a.ancestors declaration := by
  induction declaration using ha.induction_to_root with
  | root id hp =>
    rw [ha.patternOwner_eq, hp] at h
    split at h
    · cases h
    · exact .inl (Option.some.inj h).symm
  | step child parent hp ih =>
    rw [ha.patternOwner_eq] at h
    split at h
    · rw [hp] at h
      rcases ih h with rfl | hm
      · exact .inr (ha.parent_mem_ancestors hp)
      · exact .inr (ha.mem_ancestors_of_parent? hp hm)
    · exact .inl (Option.some.inj h).symm

/-- The owner of a pattern part inside a function is inside the function, unless it is the
function itself. -/
theorem patternOwner_inside (ha : a.Grown) (hfunction : a.isFunction function = true)
    (hinside : function ∈ a.ancestors declaration) {owner : NodeId}
    (h : a.patternOwner declaration = some owner) :
    owner = function ∨ function ∈ a.ancestors owner := by
  obtain ⟨parameters, body, hf⟩ := isFunction_iff.mp hfunction
  induction hinside using ha.induction_to_ancestor with
  | child id hp =>
    rw [ha.patternOwner_eq] at h
    split at h
    · rw [hp, Option.bind_some, ha.patternOwner_self hf rfl] at h
      exact .inl (Option.some.inj h).symm
    · cases h
      exact .inr (ha.parent_mem_ancestors hp)
  | step id parent hp hm ih =>
    rw [ha.patternOwner_eq] at h
    split at h
    · rw [hp, Option.bind_some] at h
      exact ih h
    · cases h
      exact .inr (ha.mem_ancestors_of_parent? hp hm)

/-- What is declared in the body of a function is inside the function. -/
theorem mem_ancestors_of_isBodyDeclaration (ha : a.Grown)
    (h : a.isBodyDeclaration function declaration = true) :
    function ∈ a.ancestors declaration := by
  obtain ⟨owner, block, _, _, _, _, howner, -, hp, -, hf⟩ := isBodyDeclaration_iff.mp h
  have hm : function ∈ a.ancestors owner :=
    ha.mem_ancestors_trans (ha.parent_mem_ancestors hp) (ha.parent_mem_ancestors hf)
  rcases ha.patternOwner_around howner with rfl | haround
  · exact hm
  · exact ha.mem_ancestors_trans haround hm

/-- Inside a function only the declarations of its own body can be at the top, and only if no
function is around it. -/
theorem isTopLevelDeclaration_inside (ha : a.Grown) (hfunction : a.isFunction function = true)
    (hinside : function ∈ a.ancestors declaration) :
    a.isTopLevelDeclaration declaration = true ↔
      a.enclosingFunction function = none ∧ a.isBodyDeclaration function declaration = true := by
  obtain ⟨parameters, body, hf⟩ := isFunction_iff.mp hfunction
  rw [isBodyDeclaration_iff]
  unfold isTopLevelDeclaration
  constructor
  · intro h
    split at h
    · cases h
    · next owner howner =>
      split at h
      · next kind target value hn =>
        obtain ⟨block, hp, hblock⟩ := (Option.any_eq_true _ _).mp h
        unfold isRootBlock at hblock
        split at hblock
        · next statements hb =>
          -- the root block is inside the function too, so the function is around it and is the
          -- one whose body it is
          have hm : function ∈ a.ancestors block := by
            rcases ha.patternOwner_inside hfunction hinside howner with rfl | hm
            · rw [hf] at hn
              cases hn
            · rw [ha.ancestors_of_parent? hp, List.mem_cons] at hm
              rcases hm with rfl | hm
              · rw [hf] at hb
                cases hb
              · exact hm
          split at hblock
          · next horphan =>
            rw [ha.ancestors_of_orphan horphan] at hm
            cases hm
          · next parent hparent =>
            rw [Bool.and_eq_true, Option.isNone_iff_eq_none] at hblock
            rw [ha.ancestors_of_parent? hparent, List.mem_cons] at hm
            rcases hm with rfl | hm
            · exact ⟨hblock.2, owner, block, kind, target, value, statements, howner, hn, hp, hb,
                hparent⟩
            · have hsome : (a.enclosingFunction parent).isSome = true :=
                isSome_enclosingFunction.mpr ⟨function, hm, hfunction⟩
              rw [hblock.2] at hsome
              cases hsome
        · cases hblock
      · cases h
  · rintro ⟨hnone, owner, block, kind, target, value, statements, howner, hn, hp, hb, hparent⟩
    simp [howner, hn, hp, isRootBlock, hb, hparent, hfunction, hnone]

/-! ### Classes -/

/-- The class of a name declared inside a function, at its declaration and at any use. -/
theorem classify_inside (ha : a.Grown) (hfunction : a.isFunction function = true)
    (hn : a.get? id = some (.identifier name)) (hl : a.lookup id = some declaration)
    (hinside : function ∈ a.ancestors declaration) :
    a.classify id = .ok (a.classInside function declaration name) := by
  have htop := ha.isTopLevelDeclaration_inside hfunction hinside
  unfold classify classifyDeclared classInside innerClass
  rw [node_eq_ok_iff.mpr hn]
  simp only [hl, Option.bind_some, ha.rootParameterIndex_inside hfunction hinside]
  cases hfun : a.enclosingFunction function with
  | some outer =>
    have htop : a.isTopLevelDeclaration declaration = false := by
      rw [Bool.eq_false_iff, ne_eq, htop, hfun]
      simp
    simp [htop]
  | none =>
    simp only [hfun, true_and] at htop
    cases a.parameterIndex? function declaration with
    | some index => rfl
    | none =>
      cases isReservedName name <;> cases hbody : a.isBodyDeclaration function declaration <;>
        simp_all

/-- The names inside a function are inner ones exactly if another function is around it, or if
it has no name that the outermost closure would have for its own. -/
theorem keepsNamesInner_iff (ha : a.Grown) (hfunction : a.isFunction function = true) :
    a.KeepsNamesInner function ↔
      (a.enclosingFunction function).isSome = true ∨ ¬ a.NamesAtRoot function := by
  constructor
  · intro h
    rw [or_iff_not_imp_left]
    rintro hnone ⟨declaration, node, name, hbinds, hroot⟩
    have hinside : function ∈ a.ancestors declaration := by
      rcases hroot with hindex | ⟨hbody, -⟩
      · obtain ⟨index, hindex⟩ := Option.isSome_iff_exists.mp hindex
        obtain ⟨_, hd, -⟩ := Option.bind_eq_some_iff.mp hbinds.bound
        exact ha.parent_mem_ancestors
          (ha.adopted (lists_of_parameterIndex? hindex) (lt_size_of_get? hd))
      · exact ha.mem_ancestors_of_isBodyDeclaration hbody
    have hlookup := lookup_of_binds hbinds
    obtain ⟨_, hd, -⟩ := Option.bind_eq_some_iff.mp hbinds.bound
    -- the declaration is a use of its own name, and its class tells it apart from an inner one
    have hinner := h hbinds.name_eq hlookup
      ((ha.mem_ancestors_iff (lt_size_of_get? hd)).mp hinside)
    rw [ha.classify_inside hfunction hbinds.name_eq hlookup hinside] at hinner
    have hclass : a.classInside function declaration name = innerClass name :=
      Except.ok.inj hinner
    unfold classInside at hclass
    rw [if_neg hnone] at hclass
    cases hindex : a.parameterIndex? function declaration with
    | some index =>
      rw [hindex] at hclass
      exact innerClass_ne_rootParameter name index hclass.symm
    | none =>
      rw [hindex] at hroot hclass
      rcases hroot with hindex | ⟨hbody, hname⟩
      · cases hindex
      · simp [hbody, hname, innerClass] at hclass
  · intro h id declaration name hn hl hbelow
    obtain ⟨name', node, hn', hbinds⟩ := ha.binds_of_lookup hl
    rw [hn] at hn'
    cases hn'
    obtain ⟨_, hd, -⟩ := Option.bind_eq_some_iff.mp hbinds.bound
    have hinside := (ha.mem_ancestors_iff (lt_size_of_get? hd)).mpr hbelow
    rw [ha.classify_inside hfunction hn hl hinside, classInside]
    rcases h with hsome | hroot
    · rw [if_pos hsome]
    · have hnot : ¬ ((a.parameterIndex? function declaration).isSome = true ∨
          a.isBodyDeclaration function declaration = true ∧ isReservedName name = false) :=
        fun hr => hroot ⟨declaration, node, name, hbinds, hr⟩
      rw [not_or] at hnot
      rw [Option.not_isSome_iff_eq_none.mp hnot.1]
      have hplain : (a.isBodyDeclaration function declaration && !isReservedName name) = false := by
        simpa using hnot.2
      simp [hplain]

end Grown

end Arena

/-! ### Callbacks below a root -/

/-- The names inside the callback of a list operation, whatever is compiled.  They are inner
ones whenever the callback is below a function, so always if the root is one.  In a callback
below a bare statement or expression they are not as soon as the callback has a parameter
with a plain name or declares a name in its body: that parameter is taken for a parameter of
the outermost closure, and that name for one at its top. -/
theorem callbackNames_iff {p : Program} (hp : p.BottomUp) {root call callback : NodeId}
    (hbelow : p.arena.Below root call) (hcallback : p.arena.IsCallback call callback) :
    (p.arena.isFunction root = true → p.arena.KeepsNamesInner callback) ∧
      (p.arena.KeepsNamesInner callback ↔
        (∃ function, p.arena.isFunction function = true ∧
          p.arena.StrictlyBelow function callback) ∨ ¬ p.arena.NamesAtRoot callback) ∧
      ∀ {id declaration : NodeId} {name : String}, p.arena.get? id = some (.identifier name) →
        p.arena.lookup id = some declaration → p.arena.StrictlyBelow callback declaration →
        p.arena.classify id = .ok (p.arena.classInside callback declaration name) := by
  have ha := hp.grown
  have hfunction := hcallback.inline
  obtain ⟨parameters, body, hf⟩ := Arena.isFunction_iff.mp hfunction
  have hsize := Arena.lt_size_of_get? hf
  have hiff : (p.arena.enclosingFunction callback).isSome = true ↔
      ∃ function, p.arena.isFunction function = true ∧ p.arena.StrictlyBelow function callback := by
    rw [Arena.isSome_enclosingFunction]
    exact exists_congr fun function => by rw [ha.mem_ancestors_iff hsize, and_comm]
  have hlaw := ha.keepsNamesInner_iff hfunction
  rw [hiff] at hlaw
  refine ⟨fun hroot => hlaw.mpr (.inl ⟨root, hroot, ?_⟩), hlaw, ?_⟩
  · obtain ⟨callee, receiver, method, first, rest, hc, -, -, -, hfirst⟩ := hcallback.called
    have hlists : p.arena.Lists call first :=
      ⟨_, hc, List.mem_cons_of_mem _ List.mem_cons_self⟩
    exact hbelow.trans_strictly ⟨first, hlists, hfirst ▸ Arena.below_argumentExpr _ first⟩
  · intro id declaration name hn hl hinside
    obtain ⟨_, _, -, hbinds⟩ := ha.binds_of_lookup hl
    obtain ⟨_, hd, -⟩ := Option.bind_eq_some_iff.mp hbinds.bound
    exact ha.classify_inside hfunction hn hl
      ((ha.mem_ancestors_iff (Arena.lt_size_of_get? hd)).mpr hinside)

/-- The expression `$xs.map(x => { const y = x; return y })`, compiled without a closure
around it. -/
def Program.bareMap : Program :=
  (Builder.of []
    [.reference "$xs" none, .identifier "x", .identifier "y", .declaration .const ⟨2⟩ (some ⟨1⟩),
      .identifier "y", .returnValue (some ⟨4⟩), .block [⟨3⟩, ⟨5⟩], .identifier "x",
      .parameter ⟨7⟩ none, .function [⟨8⟩] ⟨6⟩, .member ⟨0⟩ "map", .argument ⟨9⟩ none,
      .call ⟨10⟩ [⟨11⟩]]).program

theorem isCallback_bareMap : Program.bareMap.arena.IsCallback ⟨12⟩ ⟨9⟩ where
  called := ⟨⟨10⟩, ⟨0⟩, "map", ⟨11⟩, [], by cbv, by cbv, by cbv, by decide, by cbv⟩
  inline := by cbv

/-- The parameter that the callback returns is given the accessor of the arguments. -/
theorem callbackNames_iff_bareMap :
    Program.bareMap.arena.IsCallback ⟨12⟩ ⟨9⟩ ∧
      Program.bareMap.arena.classify ⟨1⟩ = .ok (.rootParameter 0) ∧
      Program.bareMap.arena.classify ⟨4⟩ = .ok (.topLevel "y") := by
  have hbottom : Program.bareMap.BottomUp := Builder.bottomUp_of (by decide) (by cbv)
  have hx : Program.bareMap.arena.get? ⟨1⟩ = some (.identifier "x") := by cbv
  have hy : Program.bareMap.arena.get? ⟨4⟩ = some (.identifier "y") := by cbv
  have hlookupX : Program.bareMap.arena.lookup ⟨1⟩ = some ⟨8⟩ := by cbv
  have hlookupY : Program.bareMap.arena.lookup ⟨4⟩ = some ⟨3⟩ := by cbv
  have hf : Program.bareMap.arena.get? ⟨9⟩ = some (.function [⟨8⟩] ⟨6⟩) := by cbv
  have hb : Program.bareMap.arena.get? ⟨6⟩ = some (.block [⟨3⟩, ⟨5⟩]) := by cbv
  have hparameter : Program.bareMap.arena.StrictlyBelow ⟨9⟩ ⟨8⟩ :=
    ⟨⟨8⟩, ⟨_, hf, by decide⟩, .self _⟩
  have hdeclaration : Program.bareMap.arena.StrictlyBelow ⟨9⟩ ⟨3⟩ :=
    ⟨⟨6⟩, ⟨_, hf, by decide⟩, .part ⟨_, hb, by decide⟩ (.self _)⟩
  obtain ⟨-, -, hclass⟩ :=
    callbackNames_iff hbottom (.self ⟨12⟩) isCallback_bareMap
  refine ⟨isCallback_bareMap, ?_, ?_⟩
  · rw [hclass hx hlookupX hparameter]
    cbv
  · rw [hclass hy hlookupY hdeclaration]
    cbv

/-- The root is an expression, the operation is the root itself, and yet neither the parameter
nor the constant of its callback is local: the loop is over items in the accessor of the
arguments, and the constant is kept in the stash. -/
theorem not_keepsNamesInner_bareMap :
    Program.bareMap.BottomUp ∧ Program.bareMap.arena.IsCallback ⟨12⟩ ⟨9⟩ ∧
      ¬ Program.bareMap.arena.KeepsNamesInner ⟨9⟩ ∧
      (Program.bareMap.compileResolver ⟨12⟩ {}).toOption = some
        { template := "#set($v1 = [])\n#foreach($context.arguments in $xs)\n#set($v2 = $null)\n"
            ++ "#set($context.stash.y = $context.arguments)\n#set($v2 = $context.stash.y)\n"
            ++ "$util.qr($v1.add($v2))\n#end\n#return($v1)"
          integrations := [] } := by
  have hbottom : Program.bareMap.BottomUp := Builder.bottomUp_of (by decide) (by cbv)
  refine ⟨hbottom, isCallback_bareMap, fun hkeeps => ?_, by decide +kernel⟩
  have hname : Program.bareMap.arena.get? ⟨1⟩ = some (.identifier "x") := by cbv
  have hlookup : Program.bareMap.arena.lookup ⟨1⟩ = some ⟨8⟩ := by cbv
  have hf : Program.bareMap.arena.get? ⟨9⟩ = some (.function [⟨8⟩] ⟨6⟩) := by cbv
  have hclass := hkeeps hname hlookup ⟨⟨8⟩, ⟨_, hf, by decide⟩, .self _⟩
  have hroot : Program.bareMap.arena.classify ⟨1⟩ = .ok (.rootParameter 0) := by cbv
  rw [hroot] at hclass
  exact innerClass_ne_rootParameter "x" 0 (Except.ok.inj hclass).symm

end ClosureVtl
