/-
Module: ClosureVtl.Proofs.Closure.BodyForms
Purpose: A closure with an expression as body, and the same closure with a block that
  returns the expression, give the names in it the same meaning.
Main exports:
  Builder.expressionForm, Builder.blockForm, Arena.BodyForms, BodyForms.alikeOn
-/
import ClosureVtl.Proofs.Closure.Binding
import ClosureVtl.Proofs.Closure.KnownNodes
import ClosureVtl.Proofs.Closure.Visibility

namespace ClosureVtl

/-!
The two forms of a closure have all nodes in common but a few at the top: the closure itself
and, in the second form, the block and the return in it.  Walks towards the root tell them
apart.  From the expression such a walk leaves the common nodes through the closure in the
one form and through the return in the other; from a parameter it meets the closure at once.

No scope on the way declares anything but the parameters, so every name means the same in
both forms.  Only the nearest consumer of the expression is another.
-/

/-- Searches through one list for what both find alike. -/
theorem findSome?_congr {α β : Type} {f g : α → Option β} {items : List α}
    (h : ∀ item ∈ items, f item = g item) : items.findSome? f = items.findSome? g := by
  induction items with
  | nil => rfl
  | cons item rest ih =>
    rw [List.findSome?_cons, List.findSome?_cons, h item List.mem_cons_self,
      ih fun other hm => h other (List.mem_cons_of_mem _ hm)]

namespace Builder

/-- Adds the closure `(parameters) => body`. -/
def expressionForm (b : Builder) (parameters : List NodeId) (body : NodeId) : Builder :=
  b.push (.function parameters body)

/-- Adds the closure `(parameters) => { return body; }`. -/
def blockForm (b : Builder) (parameters : List NodeId) (body : NodeId) : Builder :=
  ((b.push (.returnValue (some body))).push (.block [b.next])).push
    (.function parameters ⟨b.next.index + 1⟩)

end Builder

namespace Arena

/-- Whether two arenas have all nodes in common, but for a closure with an expression as body
in the one, and in the other the return of that expression, its block and the closure. -/
structure BodyForms (a a' : Arena) (parameters : List NodeId) (body root block root' : NodeId) :
    Prop where
  grown : a.Grown
  grown' : a'.Grown
  expressionForm : a.get? root = some (.function parameters body)
  returned : a'.get? root = some (.returnValue (some body))
  statements : a'.get? block = some (.block [root])
  blockForm : a'.get? root' = some (.function parameters block)
  no_block : a.get? block = none
  no_root' : a.get? root' = none
  common : ∀ {id}, id ≠ root → id ≠ block → id ≠ root' → a.get? id = a'.get? id
  top : a.parent? root = none
  top' : a'.parent? root' = none

namespace BodyForms

variable {a a' : Arena} {parameters : List NodeId} {body root block root' id part parent : NodeId}

/-- Whether a handle belongs to both forms. -/
def Common (root block root' id : NodeId) : Prop := id ≠ root ∧ id ≠ block ∧ id ≠ root'

/-- Where a common node hangs: below another one, nowhere, or below the closure. -/
inductive Hangs (a a' : Arena) (parameters : List NodeId) (body root block root' : NodeId) :
    NodeId → Prop where
  | inside {id parent : NodeId} (hparent : Common root block root' parent)
      (hp : a.parent? id = some parent) (hp' : a'.parent? id = some parent) :
      Hangs a a' parameters body root block root' id
  | alone {id : NodeId} (hp : a.parent? id = none) (hp' : a'.parent? id = none) :
      Hangs a a' parameters body root block root' id
  | body (hp : a.parent? body = some root) (hp' : a'.parent? body = some root) :
      Hangs a a' parameters body root block root' body
  | parameter {id : NodeId} (hp : a.parent? id = some root) (hp' : a'.parent? id = some root') :
      Hangs a a' parameters body root block root' id

section

variable (h : a.BodyForms a' parameters body root block root')

include h

/-- A common node is the same in both forms. -/
theorem get? (hid : Common root block root' id) : a.get? id = a'.get? id :=
  h.common hid.1 hid.2.1 hid.2.2

/-- So it lists the same parts. -/
theorem lists_iff (hparent : Common root block root' parent) :
    a.Lists parent part ↔ a'.Lists parent part := by
  unfold Arena.Lists
  rw [h.get? hparent]

/-- And it exists in both or in neither. -/
theorem exists_iff (hid : Common root block root' id) : id.index < a.size ↔ id.index < a'.size := by
  rw [← get?_isSome_iff, ← get?_isSome_iff, h.get? hid]

/-- The block hangs below the closure. -/
theorem parent?_block : a'.parent? block = some root' :=
  h.grown'.adopted ⟨_, h.blockForm, by simp [Node.children]⟩ (lt_size_of_get? h.statements)

/-- The return hangs below the block. -/
theorem parent?_return : a'.parent? root = some block :=
  h.grown'.adopted ⟨_, h.statements, List.mem_singleton.mpr rfl⟩ (lt_size_of_get? h.returned)

/-- The nodes at the top have parents of their own, so they are no parts of common nodes. -/
theorem common_part (hid : Common root block root' id) (hl : a.Lists id part) :
    Common root block root' part := by
  have hl' := (h.lists_iff hid).mp hl
  refine ⟨?_, ?_, ?_⟩
  · rintro rfl
    have hp := h.grown.adopted hl (lt_size_of_get? h.expressionForm)
    rw [h.top] at hp
    cases hp
  · rintro rfl
    have hp := h.grown'.adopted hl' (lt_size_of_get? h.statements)
    rw [h.parent?_block] at hp
    exact hid.2.2 (Option.some.inj hp).symm
  · rintro rfl
    have hp := h.grown'.adopted hl' (lt_size_of_get? h.blockForm)
    rw [h.top'] at hp
    cases hp

/-- The expression is a common node: it is older than the closure, and the other two hang
elsewhere or nowhere. -/
theorem common_body : Common root block root' body := by
  have hl : a.Lists root body := ⟨_, h.expressionForm, by simp [Node.children]⟩
  have hl' : a'.Lists root body := ⟨_, h.returned, by simp [Node.children]⟩
  refine ⟨?_, ?_, ?_⟩
  · rintro rfl
    exact lt_irrefl _ (h.grown.older hl (lt_size_of_get? h.expressionForm))
  · rintro rfl
    have hp := h.grown'.adopted hl' (lt_size_of_get? h.statements)
    rw [h.parent?_block] at hp
    obtain rfl := Option.some.inj hp
    have hn := h.returned.symm.trans h.blockForm
    cases hn
  · rintro rfl
    have hp := h.grown'.adopted hl' (lt_size_of_get? h.blockForm)
    rw [h.top'] at hp
    cases hp

/-- So is a parameter; it is no block, because the closure lists its block only once. -/
theorem common_parameter (hm : id ∈ parameters) : Common root block root' id := by
  have hl : a.Lists root id := ⟨_, h.expressionForm, by simp [Node.children, hm]⟩
  have hl' : a'.Lists root' id := ⟨_, h.blockForm, by simp [Node.children, hm]⟩
  refine ⟨?_, ?_, ?_⟩
  · rintro rfl
    exact lt_irrefl _ (h.grown.older hl (lt_size_of_get? h.expressionForm))
  · rintro rfl
    -- the closure lists its block once, as its body
    have honce := h.grown'.once h.blockForm (by simp [Node.children])
      (lt_size_of_get? h.statements)
    have hcount := List.count_pos_iff.mpr hm
    simp only [Node.children, List.count_append, List.count_singleton_self] at honce
    omega
  · rintro rfl
    exact lt_irrefl _ (h.grown'.older hl' (lt_size_of_get? h.blockForm))

/-- A common node without parent has none in the other form either. -/
theorem orphan (hid : Common root block root' id) (hp : a.parent? id = none) :
    a'.parent? id = none := by
  by_contra hne
  obtain ⟨parent, hp'⟩ := Option.ne_none_iff_exists'.mp hne
  have hsize := (h.exists_iff hid).mpr (lt_size_of_parent? hp')
  have hl' := h.grown'.lists hp'
  have hnot : ∀ {parent}, ¬ a.Lists parent id := by
    intro parent hl
    cases hp.symm.trans (h.grown.adopted hl hsize)
  by_cases hparent : Common root block root' parent
  · exact hnot ((h.lists_iff hparent).mpr hl')
  -- what the nodes at the top of the other form list is a part of the closure in this one
  have hclosure : ¬ (id = body ∨ id ∈ parameters) := by
    intro hpart
    refine hnot ⟨_, h.expressionForm, ?_⟩
    simp only [Node.children, List.mem_append, List.mem_singleton]
    exact hpart.symm
  have hcases : parent = root ∨ parent = block ∨ parent = root' := by
    unfold Common at hparent
    tauto
  rcases hcases with rfl | rfl | rfl
  · exact hclosure (.inl (List.mem_singleton.mp (hl'.mem_children h.returned)))
  · exact hid.1 (List.mem_singleton.mp (hl'.mem_children h.statements))
  · rcases List.mem_append.mp (hl'.mem_children h.blockForm) with hm | hm
    · exact hclosure (.inr hm)
    · exact hid.2.1 (List.mem_singleton.mp hm)

/-- A common node hangs in one of four ways, by what its parent is. -/
theorem hangs (hid : Common root block root' id) :
    Hangs a a' parameters body root block root' id := by
  cases hp : a.parent? id with
  | none => exact .alone hp (h.orphan hid hp)
  | some parent =>
    have hsize := (h.exists_iff hid).mp (lt_size_of_parent? hp)
    have hl := h.grown.lists hp
    have hexists := get?_isSome_iff.mpr (h.grown.parent_lt_size hp)
    by_cases hroot : parent = root
    · subst hroot
      rcases List.mem_append.mp (hl.mem_children h.expressionForm) with hm | hm
      · refine .parameter hp (h.grown'.adopted ⟨_, h.blockForm, ?_⟩ hsize)
        simp [Node.children, hm]
      · obtain rfl := List.mem_singleton.mp hm
        exact .body hp (h.grown'.adopted ⟨_, h.returned, by simp [Node.children]⟩ hsize)
    · have hparent : Common root block root' parent := by
        refine ⟨hroot, ?_, ?_⟩
        · rintro rfl
          exact absurd hexists (by simp [h.no_block])
        · rintro rfl
          exact absurd hexists (by simp [h.no_root'])
      exact .inside hparent hp (h.grown'.adopted ((h.lists_iff hparent).mp hl) hsize)

/-- What holds where common nodes hang and is handed on to parts holds of all common nodes. -/
@[elab_as_elim]
theorem induction_outward {motive : (id : NodeId) → Common root block root' id → Prop}
    (inside : ∀ {id parent} (hid : Common root block root' id)
      (hparent : Common root block root' parent), a.parent? id = some parent →
        a'.parent? id = some parent → motive parent hparent → motive id hid)
    (alone : ∀ {id} (hid : Common root block root' id), a.parent? id = none →
      a'.parent? id = none → motive id hid)
    (body : a.parent? body = some root → a'.parent? body = some root →
      motive body h.common_body)
    (parameter : ∀ {id} (hid : Common root block root' id), a.parent? id = some root →
      a'.parent? id = some root' → motive id hid)
    {id : NodeId} (hid : Common root block root' id) : motive id hid := by
  induction hk : a.youth id using Nat.strongRecOn generalizing id with
  | ind k ih =>
    cases h.hangs hid with
    | inside hparent hp hp' =>
      exact inside hid hparent hp hp' (ih _ (hk ▸ h.grown.youth_lt hp) hparent rfl)
    | alone hp hp' => exact alone hid hp hp'
    | body hp hp' => exact body hp hp'
    | parameter hp hp' => exact parameter hid hp hp'

/-! ### Declarations -/

/-- A declared name is bound alike, since its pattern has common parts only. -/
theorem findBinding (hparent : Common root block root' parent) (hl : a.Lists parent part)
    (name : String) : a.findBinding part name = a'.findBinding part name := by
  have hwithin : ∀ (n : Nat) {parent target : NodeId}, Common root block root' parent →
      a.Lists parent target →
        a.findBindingWithin name n target = a'.findBindingWithin name n target := by
    intro n
    induction n with
    | zero => exact fun _ _ => rfl
    | succ n ih =>
      intro parent target hparent hl
      have htarget := h.common_part hparent hl
      rw [findBindingWithin, findBindingWithin, ← h.get? htarget]
      split
      · next hn =>
        have hsize := lt_size_of_get? hn
        rw [h.grown.adopted hl hsize,
          h.grown'.adopted ((h.lists_iff hparent).mp hl) ((h.exists_iff htarget).mp hsize)]
      -- the elements of a pattern of either kind
      case h_2 elements hn | h_3 elements hn =>
        apply findSome?_congr
        intro element hm
        have helement := h.common_part htarget ⟨_, hn, hm⟩
        rw [← h.get? helement]
        split
        · next hn => exact ih helement ⟨_, hn, by simp [Node.children]⟩
        · rfl
      · rfl
  exact (h.grown.findBinding_descends name).congr (h.grown'.findBinding_descends name)
    (age_le_succ_size _ part) (age_le_succ_size _ part) fun n => hwithin n hparent hl

/-- So a statement declares a name alike. -/
theorem declaredBy (hid : Common root block root' id) (name : String) :
    a.declaredBy name id = a'.declaredBy name id := by
  unfold Arena.declaredBy
  rw [← h.get? hid]
  split
  · next hn => exact h.findBinding hid ⟨_, hn, by simp [Node.children]⟩ name
  · rfl

/-- And so does a parameter. -/
theorem declaredByParameter (hid : Common root block root' id) (name : String) :
    a.declaredByParameter name id = a'.declaredByParameter name id := by
  unfold Arena.declaredByParameter
  rw [← h.get? hid]
  split
  · next hn => exact h.findBinding hid ⟨_, hn, by simp [Node.children]⟩ name
  · rfl

/-- A scope declares alike what can be seen from inside; all statements in front of a part are
common. -/
theorem declaredIn (hid : Common root block root' id) (inner : NodeId) (name : String) :
    a.declaredIn id inner name = a'.declaredIn id inner name := by
  have hpart : ∀ {node : Node} {part : NodeId}, a.get? id = some node → part ∈ node.children →
      Common root block root' part := fun hn hm => h.common_part hid ⟨_, hn, hm⟩
  unfold Arena.declaredIn
  rw [← h.get? hid]
  split
  · next statements hn =>
    refine congrArg List.getLast? (List.filterMap_congr fun statement hm => ?_)
    exact h.declaredBy (hpart hn (List.takeWhile_subset _ hm)) name
  · next parameters body hn =>
    apply findSome?_congr
    intro parameter hm
    exact h.declaredByParameter (hpart hn (by simp [Node.children, hm])) name
  · next hn => rw [h.declaredBy (hpart hn (by simp [Node.children])) name]
  · next hn => rw [h.declaredBy (hpart hn (by simp [Node.children])) name]
  · rfl

/-- Both forms of the closure declare its parameters. -/
theorem declaredIn_root (inner inner' : NodeId) (name : String) :
    a.declaredIn root inner name = a'.declaredIn root' inner' name := by
  simp only [Arena.declaredIn, h.expressionForm, h.blockForm]
  apply findSome?_congr
  intro parameter hm
  exact h.declaredByParameter (h.common_parameter hm) name

/-! ### Towards the root -/

/-- The closure with the expression has nothing around it. -/
theorem ancestors_root : a.ancestors root = [] := h.grown.ancestors_of_orphan h.top

/-- Neither has the closure with the block. -/
theorem ancestors_root' : a'.ancestors root' = [] := h.grown'.ancestors_of_orphan h.top'

/-- From the return it is two steps to the top. -/
theorem ancestors_return : a'.ancestors root = [block, root'] := by
  rw [h.grown'.ancestors_of_parent? h.parent?_return, h.grown'.ancestors_of_parent? h.parent?_block,
    h.ancestors_root']

/-- A name is found alike; on the way from the expression nothing is declared but the parameters.
-/
theorem lookupOutward (hid : Common root block root' id) (name : String) :
    a.lookupOutward name id (a.ancestors id) = a'.lookupOutward name id (a'.ancestors id) := by
  induction hid using h.induction_outward with
  | inside hid hparent hp hp' ih =>
    rw [h.grown.ancestors_of_parent? hp, h.grown'.ancestors_of_parent? hp']
    simp only [Arena.lookupOutward, h.declaredIn hparent, ih]
  | alone hid hp hp' =>
    rw [h.grown.ancestors_of_orphan hp, h.grown'.ancestors_of_orphan hp']
    rfl
  | body hp hp' =>
    -- between the expression and the closure nothing is declared
    have hreturn : a'.declaredIn root body name = none := by
      simp [Arena.declaredIn, h.returned]
    have hblock : a'.declaredIn block root name = none := by
      simp [Arena.declaredIn, h.statements]
    rw [h.grown.ancestors_of_parent? hp, h.grown'.ancestors_of_parent? hp']
    simp only [h.ancestors_root, h.ancestors_return, Arena.lookupOutward, hreturn, hblock,
      h.declaredIn_root body block name]
  | parameter hid hp hp' =>
    rw [h.grown.ancestors_of_parent? hp, h.grown'.ancestors_of_parent? hp']
    simp only [h.ancestors_root, h.ancestors_root', Arena.lookupOutward]
    rw [h.declaredIn_root]

/-- Neither a return nor a closure binds a name, so names are binding alike. -/
theorem isBindingName (hid : Common root block root' id) :
    a.isBindingName id = a'.isBindingName id := by
  unfold Arena.isBindingName
  cases h.hangs hid with
  | inside hparent hp hp' => rw [hp, hp', Option.bind_some, Option.bind_some, h.get? hparent]
  | alone hp hp' =>
    rw [hp, hp']
    rfl
  | body hp hp' =>
    rw [hp, hp', Option.bind_some, Option.bind_some, h.expressionForm, h.returned]
  | parameter hp hp' =>
    rw [hp, hp', Option.bind_some, Option.bind_some, h.expressionForm, h.blockForm]

/-- A binding name declares what is around it, any other is looked up. -/
theorem lookup (hid : Common root block root' id) : a.lookup id = a'.lookup id := by
  unfold Arena.lookup
  rw [← h.get? hid, ← h.isBindingName hid]
  split
  · next name hn =>
    rw [h.lookupOutward hid name]
    split
    · next hb =>
      cases h.hangs hid with
      | inside _ hp hp' => rw [hp, hp']
      | alone hp hp' => rw [hp, hp']
      | body hp _ => simp [Arena.isBindingName, hp, h.expressionForm] at hb
      | parameter hp _ => simp [Arena.isBindingName, hp, h.expressionForm] at hb
    · rfl
  · rfl

/-- What a name is declared by is no node of the top. -/
theorem declared {declaration : NodeId} (hl : a.lookup id = some declaration) :
    Common root block root' declaration := by
  obtain ⟨name, node, -, hbinds⟩ := h.grown.binds_of_lookup hl
  have hbound := hbinds.bound
  refine ⟨?_, ?_, ?_⟩
  · rintro rfl
    rw [h.expressionForm] at hbound
    cases hbound
  · rintro rfl
    rw [h.no_block] at hbound
    cases hbound
  · rintro rfl
    rw [h.no_root'] at hbound
    cases hbound

/-! ### Classes of names -/

/-- Both forms have the same closures among the common nodes. -/
theorem isFunction (hid : Common root block root' id) : a.isFunction id = a'.isFunction id := by
  unfold Arena.isFunction
  rw [h.get? hid]

/-- There is a closure around a common node in one form exactly if there is one in the other. -/
theorem isSome_enclosingFunction (hid : Common root block root' id) :
    (a.enclosingFunction id).isSome = (a'.enclosingFunction id).isSome := by
  unfold Arena.enclosingFunction
  induction hid using h.induction_outward with
  | inside hid hparent hp hp' ih =>
    rw [h.grown.ancestors_of_parent? hp, h.grown'.ancestors_of_parent? hp']
    simp only [List.find?_cons, ← h.isFunction hparent]
    split
    · rfl
    · exact ih
  | alone hid hp hp' =>
    rw [h.grown.ancestors_of_orphan hp, h.grown'.ancestors_of_orphan hp']
    rfl
  | body hp hp' =>
    rw [h.grown.ancestors_of_parent? hp, h.grown'.ancestors_of_parent? hp']
    simp [Arena.isFunction, h.ancestors_return, h.expressionForm, h.returned, h.statements,
      h.blockForm]
  | parameter hid hp hp' =>
    rw [h.grown.ancestors_of_parent? hp, h.grown'.ancestors_of_parent? hp']
    simp [Arena.isFunction, h.expressionForm, h.blockForm]

/-- The closure itself is not within another one. -/
theorem enclosingFunction_root : a.enclosingFunction root = none := by
  rw [Arena.enclosingFunction, h.ancestors_root]
  rfl

/-- The same for the form with a block. -/
theorem enclosingFunction_root' : a'.enclosingFunction root' = none := by
  rw [Arena.enclosingFunction, h.ancestors_root']
  rfl

/-- The parameters have the same positions in both forms, and the expression is none of them. -/
theorem rootParameterIndex (hid : Common root block root' id) :
    a.rootParameterIndex id = a'.rootParameterIndex id := by
  have hother : ∀ {a : Arena}, (∀ name default, a.get? id ≠ some (.parameter name default)) →
      a.rootParameterIndex id = none := by
    intro a hno
    unfold Arena.rootParameterIndex
    split
    · next hn _ => exact absurd hn (hno _ _)
    · rfl
  by_cases hparameter : ∃ name default, a.get? id = some (.parameter name default)
  · obtain ⟨name, default, hn⟩ := hparameter
    have hn' := (h.get? hid).symm.trans hn
    unfold Arena.rootParameterIndex
    cases h.hangs hid with
    | inside hparent hp hp' =>
      simp only [hn, hn', hp, hp', h.get? hparent, h.isSome_enclosingFunction hparent]
    | alone hp hp' => simp only [hn, hn', hp, hp']
    | body hp hp' =>
      -- the expression is no parameter, whatever it is
      have hnot : body ∉ parameters := by
        intro hm
        have honce := h.grown.once h.expressionForm (by simp [Node.children])
          (lt_size_of_parent? hp)
        have hcount := List.count_pos_iff.mpr hm
        simp only [Node.children, List.count_append, List.count_singleton_self] at honce
        omega
      have hindex : parameters.findIdx? (· == body) = none := by
        rw [List.findIdx?_eq_none_iff]
        intro parameter hm
        exact beq_eq_false_iff_ne.mpr fun heq => hnot (heq ▸ hm)
      simp only [hn, hn', hp, hp', h.expressionForm, h.returned, hindex, ite_self]
    | parameter hp hp' =>
      simp only [hn, hn', hp, hp', h.expressionForm, h.blockForm, h.enclosingFunction_root,
        h.enclosingFunction_root']
  · have hno : ∀ name default, a.get? id ≠ some (.parameter name default) :=
      fun name default hn => hparameter ⟨name, default, hn⟩
    rw [hother hno, hother (h.get? hid ▸ hno)]

/-- A block is the outermost one in both forms, as the expression is none by assumption. -/
theorem isRootBlock (hbody : ∀ statements, a.get? body ≠ some (.block statements))
    (hid : Common root block root' id) : a.isRootBlock id = a'.isRootBlock id := by
  unfold Arena.isRootBlock
  rw [← h.get? hid]
  split
  · next statements hn =>
    cases h.hangs hid with
    | inside hparent hp hp' =>
      simp only [hp, hp', h.isFunction hparent, ← Option.not_isSome,
        h.isSome_enclosingFunction hparent]
    | alone hp hp' => rw [hp, hp']
    | body _ _ => exact absurd hn (hbody statements)
    | parameter hp hp' =>
      simp only [hp, hp', h.enclosingFunction_root, h.enclosingFunction_root', Arena.isFunction,
        h.expressionForm, h.blockForm]
  · rfl

/-- Questions about the node around a common one are answered alike if they are for common
nodes and for those at the top. -/
theorem any_parent? (hid : Common root block root' id) {f f' : NodeId → Bool}
    (hinside : ∀ {parent}, Common root block root' parent → a.parent? id = some parent →
      f parent = f' parent) (hreturn : f root = f' root) (hroot : f root = f' root') :
    (a.parent? id).any f = (a'.parent? id).any f' := by
  cases h.hangs hid with
  | inside hparent hp hp' => rw [hp, hp', Option.any_some, Option.any_some, hinside hparent hp]
  | alone hp hp' =>
    rw [hp, hp']
    rfl
  | body hp hp' => rw [hp, hp', Option.any_some, Option.any_some, hreturn]
  | parameter hp hp' => rw [hp, hp', Option.any_some, Option.any_some, hroot]

/-- A declaration stands at the top if its block does, or if the pattern around it does. -/
theorem isTopLevelDeclaration (hbody : ∀ statements, a.get? body ≠ some (.block statements))
    (hid : Common root block root' id) :
    a.isTopLevelDeclaration id = a'.isTopLevelDeclaration id := by
  induction hk : a.youth id using Nat.strongRecOn generalizing id with
  | ind k ih =>
    have hblock : (a.parent? id).any a.isRootBlock = (a'.parent? id).any a'.isRootBlock := by
      apply h.any_parent? hid fun hparent _ => h.isRootBlock hbody hparent
      · simp [Arena.isRootBlock, h.expressionForm, h.returned]
      · simp [Arena.isRootBlock, h.expressionForm, h.blockForm]
    have hpattern : (a.parent? id).any a.isTopLevelDeclaration =
        (a'.parent? id).any a'.isTopLevelDeclaration := by
      apply h.any_parent? hid fun hparent hp => ih _ (hk ▸ h.grown.youth_lt hp) hparent rfl
      · simp [h.grown.isTopLevelDeclaration_eq, h.grown'.isTopLevelDeclaration_eq,
          h.expressionForm, h.returned, isPatternPart]
      · simp [h.grown.isTopLevelDeclaration_eq, h.grown'.isTopLevelDeclaration_eq,
          h.expressionForm, h.blockForm, isPatternPart]
    rw [h.grown.isTopLevelDeclaration_eq, h.grown'.isTopLevelDeclaration_eq, hblock, hpattern,
      h.get? hid]

/-- A name has the class of its declaration. -/
theorem classify (hbody : ∀ statements, a.get? body ≠ some (.block statements))
    (hid : Common root block root' id) : a.classify id = a'.classify id := by
  unfold Arena.classify Arena.node
  rw [← h.get? hid, ← h.lookup hid]
  cases a.get? id with
  | none => rfl
  | some node =>
    cases node with
    | identifier name =>
      refine congrArg Except.ok ?_
      unfold classifyDeclared
      cases hl : a.lookup id with
      | none => rfl
      | some declaration =>
        have hdeclaration := h.declared hl
        simp only [Option.bind_some, h.rootParameterIndex hdeclaration,
          h.isTopLevelDeclaration hbody hdeclaration]
    | _ => rfl

/-- The names in both forms mean the same. -/
theorem alikeOn (hbody : ∀ statements, a.get? body ≠ some (.block statements)) :
    a.AlikeOn a' (Common root block root') where
  get? := h.get?
  parts := h.common_part
  isBindingName := h.isBindingName
  lookup := h.lookup
  declared _ := h.declared
  classify := h.classify hbody

end

end BodyForms

end Arena

namespace Builder

variable {b : Builder} {parameters : List NodeId} {body : NodeId}

/-- The expression form adds one node. -/
theorem get?_expressionForm {id : NodeId} :
    (b.expressionForm parameters body).arena.get? id =
      if id = b.next then some (.function parameters body) else b.arena.get? id :=
  get?_push

/-- The block form adds three. -/
theorem get?_blockForm {id : NodeId} :
    (b.blockForm parameters body).arena.get? id =
      if id = ⟨b.next.index + 2⟩ then some (.function parameters ⟨b.next.index + 1⟩)
      else if id = ⟨b.next.index + 1⟩ then some (.block [b.next])
      else if id = b.next then some (.returnValue (some body)) else b.arena.get? id := by
  unfold blockForm
  rw [get?_push, get?_push, get?_push]
  simp only [next_push]

/-- The size of the expression form. -/
theorem size_expressionForm :
    (b.expressionForm parameters body).arena.size = b.next.index + 1 :=
  b.size_push _

/-- The size of the block form. -/
theorem size_blockForm : (b.blockForm parameters body).arena.size = b.next.index + 3 := by
  unfold blockForm
  show (push _ _).entries.size = _
  rw [size_push, size_push, size_push]
  rfl

/-- The two forms of a closure differ as said, if they are built from the leaves up. -/
theorem bodyForms (hp : (b.expressionForm parameters body).program.BottomUp)
    (hp' : (b.blockForm parameters body).program.BottomUp) :
    (b.expressionForm parameters body).arena.BodyForms (b.blockForm parameters body).arena
      parameters body b.next ⟨b.next.index + 1⟩ ⟨b.next.index + 2⟩ := by
  have hne : b.next ≠ ⟨b.next.index + 1⟩ ∧ b.next ≠ ⟨b.next.index + 2⟩ :=
    ⟨fun h => absurd (congrArg NodeId.index h) (by simp),
      fun h => absurd (congrArg NodeId.index h) (by simp)⟩
  have hnone : ∀ {k : Nat}, b.arena.get? ⟨b.next.index + k⟩ = none :=
    Arena.get?_eq_none_iff.mpr (Nat.le_add_right _ _)
  have htop : ∀ {a : Arena} {id : NodeId}, a.Grown → a.size = id.index + 1 →
      a.parent? id = none := by
    intro a id ha hsize
    by_contra hparent
    obtain ⟨parent, hparent⟩ := Option.ne_none_iff_exists'.mp hparent
    have hlt := ha.lt_parent hparent
    have hlast := ha.parent_lt_size hparent
    omega
  exact {
    grown := hp.grown
    grown' := hp'.grown
    expressionForm := by simp [get?_expressionForm]
    returned := by simp [get?_blockForm, hne]
    statements := by simp [get?_blockForm]
    blockForm := by simp [get?_blockForm]
    no_block := by simp [get?_expressionForm, hne.1.symm, hnone]
    no_root' := by simp [get?_expressionForm, hne.2.symm, hnone]
    common := fun hroot hblock hroot' => by
      simp [get?_expressionForm, get?_blockForm, hroot, hblock, hroot']
    top := htop hp.grown size_expressionForm
    top' := htop hp'.grown size_blockForm }

end Builder

end ClosureVtl
