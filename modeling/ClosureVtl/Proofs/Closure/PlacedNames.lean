/-
Module: ClosureVtl.Proofs.Closure.PlacedNames
Purpose: Names at the same place refer to declarations at the same place.
Main exports:
  Placed.lookup, Placed.classify, Placed.isConsumed, Placed.isFunction
-/
import ClosureVtl.Proofs.Closure.Environment
import ClosureVtl.Proofs.Closure.Placement
import ClosureVtl.Proofs.Closure.Visibility

namespace ClosureVtl

/-!
What a name refers to is found by walking from scope to scope.  Parentheses are no
scopes, so the walk passes through the same scopes in both closures, and each of them
offers declarations at the same place.  The position of a declaration, on which its
address depends, is then the same as well.
-/

/-! ### Bound positions -/

namespace Node

/-- The bound part of a node is the child at the bound position. -/
theorem bound?_eq (node : Node) :
    node.bound? = node.boundAt?.bind fun position => node.children[position]? := by
  cases node with
  | binding name key default rest => cases key <;> rfl
  | _ => rfl

/-- What a node binds is no value. -/
theorem isValueAt_of_boundAt? {node : Node} {position : Nat}
    (h : node.boundAt? = some position) : node.isValueAt position = false := by
  cases node <;> simp_all [boundAt?, isValueAt] <;> omega

end Node

namespace Program

variable {p p' : Program} {root root' id id' part part' : NodeId} {node node' : Node} {k : Nat}
  {name : String}

namespace Tidy

/-! ### Through the parentheses around a part -/

/-- What is inside parentheses is adopted by a pair of them. -/
theorem unwrapParens_cases (h : p.Tidy root) (hid : id.index < p.arena.size) :
    p.arena.unwrapParens id = id ∨
      ∃ paren, p.arena.get? paren = some (.paren (p.arena.unwrapParens id)) := by
  have ha := h.bottomUp.grown
  induction id, hid using h.induction_through_parens with
  | plain id _ hplain => exact .inl (Arena.unwrapParens_of_not_paren hplain)
  | paren id _ expr _ hn _ ih =>
    rw [ha.unwrapParens_of_paren hn]
    rcases ih with heq | hparen
    · exact .inr ⟨id, heq.symm ▸ hn⟩
    · exact .inr hparen

/-- A part is in binding position exactly if its position is the one that is bound. -/
theorem binder?_unwrapParens (h : p.Tidy root) (hn : p.arena.get? id = some node)
    (hk : node.children[k]? = some part) :
    p.arena.binder? (p.arena.unwrapParens part) =
      if node.boundAt? = some k then some id else none := by
  by_cases hbound : node.boundAt? = some k
  · rw [h.unwrapParens_part hn hk (Node.isValueAt_of_boundAt? hbound),
      Arena.Grown.binder?_of_parent? (h.parent?_part hn hk) hn, Node.bound?_eq, hbound]
    simp [hk]
  · rw [if_neg hbound]
    rcases h.unwrapParens_cases (h.part_lt_size hn hk) with heq | ⟨paren, hparen⟩
    · rw [heq, Arena.Grown.binder?_of_parent? (h.parent?_part hn hk) hn, Node.bound?_eq, if_neg]
      intro hpart
      obtain ⟨j, hj, hat⟩ := Option.bind_eq_some_iff.mp hpart
      rw [h.position_unique hn hat hk] at hj
      exact hbound hj
    · rw [Arena.Grown.binder?_of_parent? (h.parent?_part (k := 0) hparen rfl) hparen]
      rfl

/-- The declaration of a name among the scopes around a node. -/
def outward (p : Program) (name : String) (id : NodeId) : Option NodeId :=
  p.arena.lookupOutward name id (p.arena.ancestors id)

/-- Around a part there are the scope of its node and those around the node. -/
theorem outward_unwrapParens (h : p.Tidy root) (hn : p.arena.get? id = some node)
    (hk : node.children[k]? = some part) :
    outward p name (p.arena.unwrapParens part) =
      (p.arena.declaredIn id part name).or (outward p name id) := by
  have hinside : outward p name (p.arena.unwrapParens part) = outward p name part := by
    apply h.apply_unwrapParens _ (h.part_lt_size hn hk)
    intro id expr hparen
    have hoffers : p.arena.declaredIn id expr name = none := by
      unfold Arena.declaredIn
      rw [hparen]
    unfold outward
    rw [h.ancestors_inside hparen, Arena.lookupOutward, hoffers]
  rw [hinside, outward, h.ancestors_part hn hk, Arena.lookupOutward]
  cases p.arena.declaredIn id part name <;> rfl

/-- Around the root there are no scopes. -/
theorem outward_root (h : p.Tidy root) : outward p name root = none := by
  unfold outward
  rw [h.bottomUp.grown.ancestors_eq, h.root_top]
  rfl

/-- Parentheses are no functions, so the walk outward passes through them. -/
theorem enclosingFunction_unwrapParens (h : p.Tidy root) (hn : p.arena.get? id = some node)
    (hk : node.children[k]? = some part) :
    p.arena.enclosingFunction (p.arena.unwrapParens part) =
      if p.arena.isFunction id then some id else p.arena.enclosingFunction id := by
  have hinside : p.arena.enclosingFunction (p.arena.unwrapParens part) =
      p.arena.enclosingFunction part := by
    apply h.apply_unwrapParens _ (h.part_lt_size hn hk)
    intro id expr hparen
    have hfunction : ¬ p.arena.isFunction id = true := by simp [Arena.isFunction, hparen]
    unfold Arena.enclosingFunction
    rw [h.ancestors_inside hparen, List.find?_cons_of_neg hfunction]
  rw [hinside, Arena.enclosingFunction, h.ancestors_part hn hk, List.find?_cons]
  cases p.arena.isFunction id <;> rfl

/-- The nearest node around a part other than parentheses is the one that has it. -/
theorem find?_ancestors_unwrapParens (h : p.Tidy root) (hn : p.arena.get? id = some node)
    (hplain : ∀ expr, p.arena.get? id ≠ some (.paren expr)) (hk : node.children[k]? = some part) :
    (p.arena.ancestors (p.arena.unwrapParens part)).find?
      (fun parent => !Walker.isParen p.arena parent) = some id := by
  have hinside : (p.arena.ancestors (p.arena.unwrapParens part)).find?
      (fun parent => !Walker.isParen p.arena parent) =
        (p.arena.ancestors part).find? (fun parent => !Walker.isParen p.arena parent) := by
    apply h.apply_unwrapParens (f := fun id => (p.arena.ancestors id).find?
      (fun parent => !Walker.isParen p.arena parent)) _ (h.part_lt_size hn hk)
    intro id expr hparen
    have hskip : (!Walker.isParen p.arena id) = false := by simp [Walker.isParen, hparen]
    rw [h.ancestors_inside hparen, List.find?_cons, hskip]
  have hstop : (!Walker.isParen p.arena id) = true := by
    unfold Walker.isParen
    split
    · next expr he => exact absurd he (hplain expr)
    · rfl
  rw [hinside, h.ancestors_part hn hk, List.find?_cons, hstop]

end Tidy

namespace Placed

variable {scope scope' target target' : NodeId} {n m : Nat}

/-! ### What scopes offer -/

/-- Names in binding position belong to declarations at the same place. -/
theorem binder? (hp : p.Paired p' root root') (h : p.Placed p' root root' id id') :
    Option.Rel (p.Placed p' root root') (p.arena.binder? id) (p'.arena.binder? id') := by
  rcases h.inversion with ⟨rfl, rfl⟩ |
    ⟨_, _, _, _, node, node', k, outer, hn, hn', hk, hk', rfl, rfl⟩
  · rw [Arena.Grown.binder?_of_root hp.left.root_top, Arena.Grown.binder?_of_root hp.right.root_top]
    exact .none
  · rw [hp.left.binder?_unwrapParens hn hk, hp.right.binder?_unwrapParens hn' hk',
      Node.boundAt?_of_blank_eq (outer.blank_eq hp hn hn')]
    split
    · exact .some outer
    · exact .none

/-- In targets at the same place a name has declarations at the same place. -/
theorem findBindingWithin (hp : p.Paired p' root root') (h : p.Placed p' root root' target target')
    (hscope : p.Placed p' root root' scope scope')
    (hb : (p.arena.get? scope).bind Node.bound? = some target)
    (hb' : (p'.arena.get? scope').bind Node.bound? = some target') (hn : target.index < n)
    (hm : target'.index < m) :
    Option.Rel (p.Placed p' root root') (p.arena.findBindingWithin name n target)
      (p'.arena.findBindingWithin name m target') := by
  induction n generalizing m scope scope' target target' with
  | zero => exact absurd hn (Nat.not_lt_zero _)
  | succ n ih =>
    obtain ⟨m, rfl⟩ := Nat.exists_eq_succ_of_ne_zero (n := m) (by omega)
    -- the first element that declares the name is at the same position on both sides
    have hpattern : ∀ {elements elements' : List NodeId},
        List.Forall₂ (parts p p' root root' target target').node elements elements' →
        Option.Rel (p.Placed p' root root')
          (elements.findSome? (p.arena.declaredByElement name n))
          (elements'.findSome? (p'.arena.declaredByElement name m)) := by
      intro elements elements' helements
      apply optionRel_findSome? helements
      rintro element element' ⟨hl, hl', helement⟩
      obtain ⟨node, node', he, he', hlifts⟩ := helement.alike hp
      unfold Arena.declaredByElement
      rw [he, he']
      cases hlifts with
      | binding hinner _ _ _ =>
        obtain ⟨hin, hin', hinner⟩ := hinner
        have hlt := hp.left.lists_lt hl
        have hlt' := hp.right.lists_lt hl'
        have hltin := hp.left.lists_lt hin
        have hltin' := hp.right.lists_lt hin'
        exact ih hinner helement (by rw [he]; rfl) (by rw [he']; rfl) (by omega) (by omega)
      | _ => exact .none
    obtain ⟨node, node', ht, ht', hlifts⟩ := h.alike hp
    rw [Arena.findBindingWithin, Arena.findBindingWithin, ht, ht']
    cases hlifts with
    | identifier declared =>
      simp only [hp.left.bottomUp.grown.parent?_of_bound hb (h.lt_size hp),
        hp.right.bottomUp.grown.parent?_of_bound hb' (h.symm.lt_size hp.symm)]
      split
      · exact .some hscope
      · exact .none
    | objectPattern helements => exact hpattern helements
    | arrayPattern helements => exact hpattern helements
    | _ => exact .none

/-- A scope offers declarations at the same place under each name. -/
theorem declaredBy (hp : p.Paired p' root root') (h : p.Placed p' root root' id id') :
    Option.Rel (p.Placed p' root root') (p.arena.declaredBy name id)
      (p'.arena.declaredBy name id') := by
  obtain ⟨node, node', hn, hn', hlifts⟩ := h.alike hp
  unfold Arena.declaredBy
  rw [hn, hn']
  cases hlifts with
  | declaration kind htarget _ =>
    obtain ⟨-, -, htarget⟩ := htarget
    exact htarget.findBindingWithin hp h (by rw [hn]; rfl) (by rw [hn']; rfl)
      (Nat.lt_succ_of_lt (htarget.lt_size hp)) (Nat.lt_succ_of_lt (htarget.symm.lt_size hp.symm))
  | _ => exact .none

/-- So do the parameters of a function. -/
theorem declaredByParameter (hp : p.Paired p' root root') (h : p.Placed p' root root' id id') :
    Option.Rel (p.Placed p' root root') (p.arena.declaredByParameter name id)
      (p'.arena.declaredByParameter name id') := by
  obtain ⟨node, node', hn, hn', hlifts⟩ := h.alike hp
  unfold Arena.declaredByParameter
  rw [hn, hn']
  cases hlifts with
  | parameter htarget _ =>
    obtain ⟨-, -, htarget⟩ := htarget
    exact htarget.findBindingWithin hp h (by rw [hn]; rfl) (by rw [hn']; rfl)
      (Nat.lt_succ_of_lt (htarget.lt_size hp)) (Nat.lt_succ_of_lt (htarget.symm.lt_size hp.symm))
  | _ => exact .none

/-- Scopes at the same place offer parts at the same place declarations at the same
place. -/
theorem declaredIn (hp : p.Paired p' root root') (h : p.Placed p' root root' id id')
    (hn : p.arena.get? id = some node) (hn' : p'.arena.get? id' = some node')
    (hk : node.children[k]? = some part) (hk' : node'.children[k]? = some part') :
    Option.Rel (p.Placed p' root root') (p.arena.declaredIn id part name)
      (p'.arena.declaredIn id' part' name) := by
  have hlifts := h.alike_of_get? hp hn hn'
  -- the body of a loop is told apart by its position
  have hloop : ∀ {target iterable body target' iterable' body' : NodeId},
      node.children = [target, iterable, body] → node'.children = [target', iterable', body'] →
      p.Placed p' root root' target target' →
      Option.Rel (p.Placed p' root root')
        (if body = part then p.arena.declaredBy name target else none)
        (if body' = part' then p'.arena.declaredBy name target' else none) := by
    intro target iterable body target' iterable' body' hchildren hchildren' htarget
    have hbody : body = part ↔ k = 2 := by
      constructor
      · rintro rfl
        exact hp.left.position_unique hn hk (by rw [hchildren]; rfl)
      · rintro rfl
        rw [hchildren] at hk
        exact Option.some.inj hk
    have hbody' : body' = part' ↔ k = 2 := by
      constructor
      · rintro rfl
        exact hp.right.position_unique hn' hk' (by rw [hchildren']; rfl)
      · rintro rfl
        rw [hchildren'] at hk'
        exact Option.some.inj hk'
    simp only [hbody, hbody']
    split
    · exact htarget.declaredBy hp
    · exact .none
  have hplaced := Placed.part h hn hn' hk hk'
  unfold Arena.declaredIn
  rw [hn, hn']
  cases hlifts with
  | block hstatements =>
    rw [hp.left.unwrapParens_part hn hk rfl, hp.right.unwrapParens_part hn' hk' rfl] at hplaced
    apply optionRel_getLast?
    apply List.rel_filterMap (R := (parts p p' root root' id id').node)
    · rintro statement statement' ⟨-, -, hstatement⟩
      exact hstatement.declaredBy hp
    · apply forall₂_takeWhile hstatements
      rintro statement statement' ⟨-, -, hstatement⟩
      rw [bne, bne, hstatement.beq_eq hp hplaced]
  | function hparameters _ =>
    apply optionRel_findSome? hparameters
    rintro parameter parameter' ⟨-, -, hparameter⟩
    exact hparameter.declaredByParameter hp
  | forOf htarget _ _ => exact hloop rfl rfl htarget.2.2
  | forIn htarget _ _ => exact hloop rfl rfl htarget.2.2
  | _ => exact .none

/-! ### Names -/

/-- The walk outward goes through the same scopes and stops in the same one. -/
theorem outward (hp : p.Paired p' root root') (h : p.Placed p' root root' id id') :
    Option.Rel (p.Placed p' root root') (Tidy.outward p name id) (Tidy.outward p' name id') := by
  induction h with
  | root =>
    rw [hp.left.outward_root, hp.right.outward_root]
    exact .none
  | part outer hn hn' hk hk' ih =>
    rw [hp.left.outward_unwrapParens hn hk, hp.right.outward_unwrapParens hn' hk']
    exact optionRel_or (outer.declaredIn hp hn hn' hk hk') ih

/-- A name refers to declarations at the same place, or to none on either side. -/
theorem lookup (hp : p.Paired p' root root') (h : p.Placed p' root root' id id') :
    Option.Rel (p.Placed p' root root') (p.arena.lookup id) (p'.arena.lookup id') := by
  obtain ⟨node, node', hn, hn', hlifts⟩ := h.alike hp
  have hnone : ∀ {a : Arena} {id : NodeId} {node : Node}, a.get? id = some node →
      (∀ name, node ≠ .identifier name) → a.lookup id = none := by
    intro a id node hn hname
    apply Arena.lookup_of_not_identifier
    intro name heq
    exact hname name (Option.some.inj (hn.symm.trans heq))
  cases hlifts with
  | identifier name =>
    rw [Arena.Grown.lookup_eq_or hn, Arena.Grown.lookup_eq_or hn']
    exact optionRel_or (h.binder? hp) (h.outward hp)
  | _ =>
    rw [hnone hn (by simp), hnone hn' (by simp)]
    exact .none

/-! ### Positions of declarations -/

theorem isFunction (hp : p.Paired p' root root') (h : p.Placed p' root root' id id') :
    p.arena.isFunction id = p'.arena.isFunction id' := by
  obtain ⟨node, node', hn, hn', hlifts⟩ := h.alike hp
  unfold Arena.isFunction
  rw [hn, hn']
  cases hlifts <;> rfl

/-- Either both nodes are inside a function or none is. -/
theorem isSome_enclosingFunction (hp : p.Paired p' root root')
    (h : p.Placed p' root root' id id') :
    (p.arena.enclosingFunction id).isSome = (p'.arena.enclosingFunction id').isSome := by
  induction h with
  | root =>
    simp only [Arena.enclosingFunction, hp.left.bottomUp.grown.ancestors_eq,
      hp.right.bottomUp.grown.ancestors_eq, hp.left.root_top, hp.right.root_top]
    rfl
  | part outer hn hn' hk hk' ih =>
    rw [hp.left.enclosingFunction_unwrapParens hn hk,
      hp.right.enclosingFunction_unwrapParens hn' hk', outer.isFunction hp]
    split
    · rfl
    · exact ih

/-- The parents of nodes that are no expressions are at the same place. -/
theorem parent? (hp : p.Paired p' root root') (h : p.Placed p' root root' id id')
    (hn : p.arena.get? id = some node) (hoperand : node.isOperand = false) :
    Option.Rel (p.Placed p' root root') (p.arena.parent? id) (p'.arena.parent? id') := by
  obtain ⟨_, node', -, hn', -⟩ := h.found hp
  have hself : (p.arena.get? id).any Node.isOperand = false := by
    rw [hn]
    exact hoperand
  have hself' : (p'.arena.get? id').any Node.isOperand = false := by
    rw [hn', ← hoperand, (h.alike_of_get? hp hn hn').isOperand_eq]
    rfl
  clear hn hn'
  rcases h.inversion with ⟨rfl, rfl⟩ |
    ⟨_, _, _, _, _, _, k, outer, hn, hn', hk, hk', rfl, rfl⟩
  · rw [hp.left.root_top, hp.right.root_top]
    exact .none
  · rw [hp.left.unwrapParens_of_not_operand hself, hp.right.unwrapParens_of_not_operand hself',
      hp.left.parent?_part hn hk, hp.right.parent?_part hn' hk']
    exact .some outer

/-- Parameters of the outermost closures have the same positions. -/
theorem rootParameterIndex (hp : p.Paired p' root root') (h : p.Placed p' root root' id id') :
    p.arena.rootParameterIndex id = p'.arena.rootParameterIndex id' := by
  obtain ⟨node, node', hn, hn', hlifts⟩ := h.alike hp
  unfold Arena.rootParameterIndex
  rw [hn, hn']
  cases hlifts with
  | parameter hname hdefault =>
    match p.arena.parent? id, p'.arena.parent? id', h.parent? hp hn rfl with
    | none, none, .none => rfl
    | some _, some _, .some hfunction =>
      obtain ⟨outer, outer', ho, ho', hlifts⟩ := hfunction.alike hp
      simp only [ho, ho']
      cases hlifts with
      | function hparameters _ =>
        simp only [hfunction.isSome_enclosingFunction hp]
        split
        · rfl
        · apply findIdx?_eq hparameters
          rintro parameter parameter' ⟨-, -, hparameter⟩
          exact hparameter.beq_eq hp h
      | _ => rfl
  | _ => rfl

theorem any_isPatternPart (hp : p.Paired p' root root') (h : p.Placed p' root root' id id') :
    (p.arena.get? id).any Arena.isPatternPart = (p'.arena.get? id').any Arena.isPatternPart := by
  obtain ⟨node, node', hn, hn', hlifts⟩ := h.alike hp
  rw [hn, hn']
  cases hlifts <;> rfl

/-- The declarations around pattern parts are at the same place. -/
theorem patternOwner (hp : p.Paired p' root root') (h : p.Placed p' root root' id id') :
    Option.Rel (p.Placed p' root root') (p.arena.patternOwner id) (p'.arena.patternOwner id') := by
  have hoperand : ∀ {a : Arena} {id : NodeId}, (a.get? id).any Arena.isPatternPart = true →
      (a.get? id).any Node.isOperand = false := by
    intro a id hpart
    obtain ⟨node, hn, hpart⟩ := (Option.any_eq_true _ _).mp hpart
    rw [hn]
    cases node <;> first | rfl | cases hpart
  induction h with
  | root =>
    rw [hp.left.bottomUp.grown.patternOwner_eq, hp.right.bottomUp.grown.patternOwner_eq,
      hp.left.root_top, hp.right.root_top, any_isPatternPart hp .root]
    split
    · exact .none
    · exact .some .root
  | part outer hn hn' hk hk' ih =>
    have hplaced := Placed.part outer hn hn' hk hk'
    have hsame := hplaced.any_isPatternPart hp
    rw [hp.left.bottomUp.grown.patternOwner_eq, hp.right.bottomUp.grown.patternOwner_eq, hsame]
    split
    · next hpart' =>
      have hpart := hsame.trans hpart'
      rw [hp.left.unwrapParens_of_not_operand (hoperand hpart),
        hp.right.unwrapParens_of_not_operand (hoperand hpart'), hp.left.parent?_part hn hk,
        hp.right.parent?_part hn' hk']
      exact ih
    · exact .some hplaced

/-- Blocks that are the body of the outermost closure are at the same place. -/
theorem isRootBlock (hp : p.Paired p' root root') (h : p.Placed p' root root' id id') :
    p.arena.isRootBlock id = p'.arena.isRootBlock id' := by
  obtain ⟨node, node', hn, hn', hlifts⟩ := h.alike hp
  unfold Arena.isRootBlock
  rw [hn, hn']
  cases hlifts with
  | block _ =>
    match p.arena.parent? id, p'.arena.parent? id', h.parent? hp hn rfl with
    | none, none, .none => rfl
    | some _, some _, .some hfunction =>
      simp only [hfunction.isFunction hp, ← Option.not_isSome,
        hfunction.isSome_enclosingFunction hp]
  | _ => rfl

/-- Declarations of its body are, too. -/
theorem isTopLevelDeclaration (hp : p.Paired p' root root')
    (h : p.Placed p' root root' id id') :
    p.arena.isTopLevelDeclaration id = p'.arena.isTopLevelDeclaration id' := by
  unfold Arena.isTopLevelDeclaration
  match p.arena.patternOwner id, p'.arena.patternOwner id', h.patternOwner hp with
  | none, none, .none => rfl
  | some owner, some owner', .some howner =>
    obtain ⟨node, node', hn, hn', hlifts⟩ := howner.alike hp
    simp only [hn, hn']
    cases hlifts with
    | declaration kind _ _ =>
      match p.arena.parent? owner, p'.arena.parent? owner', howner.parent? hp hn rfl with
      | none, none, .none => rfl
      | some _, some _, .some hblock => exact hblock.isRootBlock hp
    | _ => rfl

/-! ### Classes of names -/

/-- So the same kind of storage holds their values. -/
theorem classify (hp : p.Paired p' root root') (h : p.Placed p' root root' id id') :
    p.arena.classify id = p'.arena.classify id' := by
  obtain ⟨node, node', hn, hn', hlifts⟩ := h.alike hp
  unfold Arena.classify
  rw [Arena.node_eq_ok_iff.mpr hn, Arena.node_eq_ok_iff.mpr hn']
  cases hlifts with
  | identifier name =>
    match p.arena.lookup id, p'.arena.lookup id', h.lookup hp with
    | none, none, .none => rfl
    | some _, some _, .some hdeclaration =>
      simp only [Arena.classifyDeclared, Option.bind_some, hdeclaration.rootParameterIndex hp,
        hdeclaration.isTopLevelDeclaration hp]
  | _ => rfl

/-- The payload is the first parameter of the outermost closure, and that has one place. -/
theorem isPayload (hp : p.Paired p' root root') (h : p.Placed p' root root' id id') :
    p.arena.isPayload id = p'.arena.isPayload id' := by
  unfold Arena.isPayload
  rw [h.classify hp]

/-- Values at the same place are consumed on the spot on both sides or on neither. -/
theorem isConsumed (hp : p.Paired p' root root') (h : p.Placed p' root root' id id') :
    Walker.isConsumed p.arena id = Walker.isConsumed p'.arena id' := by
  rcases h.inversion with ⟨rfl, rfl⟩ |
    ⟨_, _, _, _, node, node', k, outer, hn, hn', hk, hk', rfl, rfl⟩
  · simp only [Walker.isConsumed, hp.left.bottomUp.grown.ancestors_eq,
      hp.right.bottomUp.grown.ancestors_eq, hp.left.root_top, hp.right.root_top]
    rfl
  · unfold Walker.isConsumed
    rw [hp.left.find?_ancestors_unwrapParens hn (outer.not_paren hp) hk,
      hp.right.find?_ancestors_unwrapParens hn' (outer.symm.not_paren hp.symm) hk',
      Option.bind_some, Option.bind_some, hn, hn']
    cases outer.alike_of_get? hp hn hn' <;> rfl

end Placed

end Program

end ClosureVtl
