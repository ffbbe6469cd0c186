/-
Module: ClosureVtl.Proofs.Closure.Environment
Purpose: Names resolved from the root down, with an environment, and the proof
  that the search along parent links finds the same declarations.
Main exports:
  Environment, Arena.boundNames, Arena.childScopes, Arena.resolutions,
  Arena.Grown.carries_of_mem_childScopes, mem_resolutions_iff_lookup
-/
import ClosureVtl.Proofs.Closure.Binding

namespace ClosureVtl

/-!
Names can be resolved by one pass over the tree: from the root down, each node
hands its children the names in scope.  `Arena.lookup` goes the other way, from a
name outwards along the parent links.

Both agree because an environment is a summary of the scopes around a node.  The
invariant `Arena.Carries` says so for one node: what the environment holds for a
name is what the outward search would find from there.  Each rule of scope keeps
it, for the children that the rule hands its names to; so it holds for every node
that the pass reaches.
-/

/-- The names in scope with their declarations, innermost first. -/
abbrev Environment := List (String × NodeId)

namespace Arena

/-! ### Resolution from the root down -/

/-- The names of a binding target in source order, patterns opened to a depth of
`n`.  The target is that of a declaration, a parameter or a pattern element. -/
def boundNamesWithin (a : Arena) : Nat → NodeId → NodeId → Environment
  | 0, _, _ => []
  | n + 1, declaration, target =>
    match a.get? target with
    | some (.identifier name) => [(name, declaration)]
    | some (.objectPattern elements) | some (.arrayPattern elements) =>
      elements.flatMap fun element =>
        match a.get? element with
        | some (.binding inner ..) => a.boundNamesWithin n element inner
        | _ => []
    | _ => []

/-- The names that a node binds through its target. -/
def boundNames (a : Arena) (declaration target : NodeId) : Environment :=
  a.boundNamesWithin (a.size + 1) declaration target

/-- The names of a variable declaration; other statements have none. -/
def declaredNames (a : Arena) (statement : NodeId) : Environment :=
  match a.get? statement with
  | some (.declaration _ target _) => a.boundNames statement target
  | _ => []

/-- The names of a parameter. -/
def parameterNames (a : Arena) (parameter : NodeId) : Environment :=
  match a.get? parameter with
  | some (.parameter target _) => a.boundNames parameter target
  | _ => []

/-- The statements of a block, each with the names of those before it. -/
def blockScopes (a : Arena) (env : Environment) : List NodeId → List (NodeId × Environment)
  | [] => []
  | statement :: rest => (statement, env) :: a.blockScopes (a.declaredNames statement ++ env) rest

/-- The children of a node, each with the names in scope there. -/
def childScopes (a : Arena) (env : Environment) : Node → List (NodeId × Environment)
  | .function parameters body =>
    (parameters ++ [body]).map fun child => (child, parameters.flatMap a.parameterNames ++ env)
  | .block statements => a.blockScopes env statements
  | .forOf target iterable body | .forIn target iterable body =>
    [(target, env), (iterable, env), (body, a.declaredNames target ++ env)]
  | node => node.children.map fun child => (child, env)

/-- The names below a node, each with what it refers to, to a depth of `n`.  A
name that is the target of a declaration refers to that. -/
def resolveWithin (a : Arena) :
    Nat → Environment → Option NodeId → NodeId → List (NodeId × Option NodeId)
  | 0, _, _, _ => []
  | n + 1, env, declaration, id =>
    match a.get? id with
    | none => []
    | some (.identifier name) => [(id, declaration.or (env.lookup name))]
    | some node =>
      (a.childScopes env node).flatMap fun (child, inner) =>
        a.resolveWithin n inner (if node.bound? = some child then some id else none) child

/-- The names below a root, each with what it refers to. -/
def resolutions (a : Arena) (root : NodeId) : List (NodeId × Option NodeId) :=
  a.resolveWithin (a.size + 1) [] none root

/-- The outermost node around a node; the node itself if it has no parent. -/
def rootOf (a : Arena) (id : NodeId) : NodeId := (a.ancestors id).getLast?.getD id

/-! ### What an environment carries -/

/-- Whether an environment holds what the outward search finds from a node. -/
def Carries (a : Arena) (env : Environment) (id : NodeId) : Prop :=
  ∀ name, env.lookup name = a.lookupOutward name id (a.ancestors id)

/-- The declaration whose target a node is. -/
def binder? (a : Arena) (id : NodeId) : Option NodeId :=
  if a.isBindingName id then a.parent? id else none

namespace Grown

variable {a : Arena} {id child parent scope target root use : NodeId} {name : String}
  {node : Node} {env inner : Environment} {statements : List NodeId} {n : Nat}

/-- The names of several nodes are looked up from the first to the last. -/
private theorem lookup_flatMap {nodes : List NodeId} {names : NodeId → Environment} :
    (nodes.flatMap names).lookup name = nodes.findSome? fun node => (names node).lookup name := by
  induction nodes with
  | nil => rfl
  | cons node rest ih =>
    rw [List.flatMap_cons, List.lookup_append, List.findSome?_cons, ih]
    cases (names node).lookup name <;> rfl

/-- The names of a target hold what the search within the target finds. -/
theorem lookup_boundNamesWithin (ha : a.Grown)
    (hb : (a.get? scope).bind Node.bound? = some target) :
    (a.boundNamesWithin n scope target).lookup name = a.findBindingWithin name n target := by
  induction n generalizing scope target with
  | zero => rfl
  | succ n ih =>
    -- names are listed in the order in which the elements are searched
    have hpattern : ∀ elements : List NodeId,
        (elements.flatMap fun element =>
          match a.get? element with
          | some (.binding inner ..) => a.boundNamesWithin n element inner
          | _ => []).lookup name =
        elements.findSome? (a.declaredByElement name n) := by
      intro elements
      rw [lookup_flatMap]
      congr 1
      funext element
      unfold declaredByElement
      cases he : a.get? element with
      | none => rfl
      | some node =>
        cases node with
        | binding inner key default rest =>
          have hinner : (a.get? element).bind Node.bound? = some inner := by
            rw [he]
            rfl
          exact ih hinner
        | _ => rfl
    rw [boundNamesWithin, findBindingWithin]
    cases ht : a.get? target with
    | none => rfl
    | some node =>
      cases node with
      | identifier declared =>
        have hparent := ha.parent?_of_bound hb (lt_size_of_get? ht)
        simp only [hparent]
        by_cases hname : declared = name
        · simp [hname]
        · simp [hname, Ne.symm hname]
      | objectPattern elements => exact hpattern elements
      | arrayPattern elements => exact hpattern elements
      | _ => rfl

/-- The names of a scope give the declaration that the scope offers. -/
theorem lookup_declaredNames (ha : a.Grown) :
    (a.declaredNames scope).lookup name = a.declaredBy name scope := by
  unfold declaredNames declaredBy
  cases hs : a.get? scope with
  | none => rfl
  | some node =>
    cases node with
    | declaration kind target value =>
      apply ha.lookup_boundNamesWithin
      rw [hs]
      rfl
    | _ => rfl

/-- The parameters of a function give what they offer. -/
theorem lookup_parameterNames (ha : a.Grown) :
    (a.parameterNames scope).lookup name = a.declaredByParameter name scope := by
  unfold parameterNames declaredByParameter
  cases hs : a.get? scope with
  | none => rfl
  | some node =>
    cases node with
    | parameter target default =>
      apply ha.lookup_boundNamesWithin
      rw [hs]
      rfl
    | _ => rfl

/-! ### One step down -/

/-- Every statement gets an environment, in order. -/
theorem map_fst_blockScopes (a : Arena) (env : Environment) (statements : List NodeId) :
    (a.blockScopes env statements).map Prod.fst = statements := by
  induction statements generalizing env with
  | nil => rfl
  | cons statement rest ih => simp [blockScopes, ih]

/-- Every child is handed an environment, and nothing else is. -/
theorem map_fst_childScopes (a : Arena) (env : Environment) (node : Node) :
    (a.childScopes env node).map Prod.fst = node.children := by
  unfold childScopes
  split
  · simp [Node.children, Function.comp_def]
  · exact map_fst_blockScopes a env _
  · rfl
  · rfl
  · simp [Function.comp_def]

/-- Environments are handed to children only. -/
theorem mem_children_of_mem_childScopes (h : (child, inner) ∈ a.childScopes env node) :
    child ∈ node.children := by
  rw [← map_fst_childScopes a env node]
  exact List.mem_map_of_mem h

/-- A statement that occurs once is handed the names declared before it, later
ones first. -/
theorem lookup_of_mem_blockScopes (ha : a.Grown) (h : (child, inner) ∈ a.blockScopes env statements)
    (honce : statements.count child = 1) :
    inner.lookup name =
      (((statements.takeWhile (· != child)).filterMap (a.declaredBy name)).getLast?).or
        (env.lookup name) := by
  induction statements generalizing env with
  | nil => cases h
  | cons statement rest ih =>
    rw [blockScopes, List.mem_cons] at h
    rcases h with heq | hrest
    · cases heq
      simp
    · have hmem : child ∈ rest := by
        rw [← map_fst_blockScopes a (a.declaredNames statement ++ env) rest]
        exact List.mem_map_of_mem hrest
      -- the statement occurs once, so those in front of it are others
      have hne : statement ≠ child := by
        rintro rfl
        have hpos := List.count_pos_iff.mpr hmem
        rw [List.count_cons_self] at honce
        omega
      rw [List.count_cons_of_ne hne] at honce
      have htake : (statement :: rest).takeWhile (· != child) =
          statement :: rest.takeWhile (· != child) := by
        rw [List.takeWhile_cons]
        simp [hne]
      rw [ih hrest honce, htake, List.filterMap_cons, List.lookup_append, ha.lookup_declaredNames]
      cases a.declaredBy name statement with
      | none => rfl
      | some declaration =>
        rw [List.getLast?_cons]
        cases ((rest.takeWhile (· != child)).filterMap (a.declaredBy name)).getLast? <;> rfl

/-- A child is handed what its parent declares for it, in front of the names that
the parent was handed. -/
theorem lookup_of_mem_childScopes (ha : a.Grown) (hn : a.get? id = some node)
    (h : (child, inner) ∈ a.childScopes env node) (hc : child.index < a.size) :
    inner.lookup name = (a.declaredIn id child name).or (env.lookup name) := by
  have honce := ha.once hn (mem_children_of_mem_childScopes h) hc
  -- only the body of a loop is handed the names of its target
  have hloop : ∀ {target iterable body : NodeId},
      [target, iterable, body].count child = 1 →
      (child, inner) ∈ [(target, env), (iterable, env), (body, a.declaredNames target ++ env)] →
      inner.lookup name =
        (if body = child then a.declaredBy name target else none).or (env.lookup name) := by
    intro target iterable body hcount hin
    have hbody : child = target ∨ child = iterable → body ≠ child := by
      intro hother heq
      subst heq
      rcases hother with rfl | rfl
      · simp [List.count_cons] at hcount
      · simp only [List.count_cons, beq_self_eq_true, if_true, List.count_nil] at hcount
        omega
    simp only [List.mem_cons, Prod.mk.injEq, List.not_mem_nil, or_false] at hin
    rcases hin with ⟨hchild, rfl⟩ | ⟨hchild, rfl⟩ | ⟨rfl, rfl⟩
    · rw [if_neg (hbody (.inl hchild)), Option.none_or]
    · rw [if_neg (hbody (.inr hchild)), Option.none_or]
    · rw [if_pos rfl, List.lookup_append, ha.lookup_declaredNames]
  unfold declaredIn
  rw [hn]
  unfold childScopes at h
  split at h
  · next parameters body =>
    obtain ⟨_, -, heq⟩ := List.mem_map.mp h
    cases heq
    rw [List.lookup_append, lookup_flatMap]
    simp only [ha.lookup_parameterNames]
  · exact ha.lookup_of_mem_blockScopes h honce
  · exact hloop honce h
  · exact hloop honce h
  · next hfun hblock hof hin =>
    obtain ⟨_, -, heq⟩ := List.mem_map.mp h
    cases heq
    split
    · next heq => exact absurd (Option.some.inj heq) (hblock _)
    · next heq => exact absurd (Option.some.inj heq) (hfun _ _)
    · next heq => exact absurd (Option.some.inj heq) (hof _ _ _)
    · next heq => exact absurd (Option.some.inj heq) (hin _ _ _)
    · rfl

/-- Each rule of scope keeps the invariant. -/
theorem carries_of_mem_childScopes (ha : a.Grown) (hn : a.get? id = some node)
    (hcarries : a.Carries env id) (h : (child, inner) ∈ a.childScopes env node)
    (hc : child.index < a.size) : a.Carries inner child := by
  intro name
  have hmem := mem_children_of_mem_childScopes h
  have hparent : a.parent? child = some id := ha.adopted ⟨node, hn, hmem⟩ hc
  rw [ha.lookup_of_mem_childScopes hn h hc, ha.ancestors_of_parent? hparent, lookupOutward,
    hcarries name]
  cases a.declaredIn id child name <;> rfl

/-- In front of the root no name is known, and none is offered from around it. -/
theorem carries_nil (ha : a.Grown) (h : a.parent? id = none) : a.Carries [] id := by
  intro name
  rw [ha.ancestors_of_orphan h]
  rfl

/-! ### Names in binding position -/

/-- A node is the target of its parent exactly if the parent binds it. -/
theorem binder?_of_parent? (hp : a.parent? child = some parent) (hn : a.get? parent = some node) :
    a.binder? child = if node.bound? = some child then some parent else none := by
  have hiff : a.isBindingName child = true ↔ node.bound? = some child := by
    rw [isBindingName_iff, hp]
    constructor
    · rintro ⟨declaration, heq, hbound⟩
      cases heq
      rw [hn] at hbound
      exact hbound
    · intro hbound
      refine ⟨parent, rfl, ?_⟩
      rw [hn]
      exact hbound
  unfold binder?
  by_cases hbound : node.bound? = some child
  · rw [if_pos hbound, if_pos (hiff.mpr hbound), hp]
  · rw [if_neg hbound, if_neg (mt hiff.mp hbound)]

/-- The root is in no binding position. -/
theorem binder?_of_root (h : a.parent? id = none) : a.binder? id = none := by
  unfold binder?
  rw [h]
  split <;> rfl

/-- A name refers to the declaration whose target it is, or else to what the
outward search finds. -/
theorem lookup_eq_or (hn : a.get? id = some (.identifier name)) :
    a.lookup id = (a.binder? id).or (a.lookupOutward name id (a.ancestors id)) := by
  unfold lookup binder?
  rw [hn]
  by_cases hb : a.isBindingName id = true
  · obtain ⟨declaration, hp, -⟩ := isBindingName_iff.mp hb
    simp [hb, hp]
  · simp [hb]

/-! ### The whole pass -/

/-- Where the environment is carried, whatever the pass reports is what lookup
finds. -/
theorem lookup_of_mem_resolveWithin (ha : a.Grown) {found : Option NodeId}
    (hcarries : a.Carries env id)
    (h : (use, found) ∈ a.resolveWithin n env (a.binder? id) id) : a.lookup use = found := by
  induction n generalizing env id with
  | zero => cases h
  | succ n ih =>
    rw [resolveWithin] at h
    split at h
    · cases h
    · next name hn =>
      cases List.mem_singleton.mp h
      rw [lookup_eq_or hn, hcarries name]
    · next node hname hn =>
      obtain ⟨⟨child, inner⟩, hchild, hrest⟩ := List.mem_flatMap.mp h
      have hrest : (use, found) ∈ a.resolveWithin n inner
          (if node.bound? = some child then some id else none) child := hrest
      rcases Nat.lt_or_ge child.index a.size with hlt | hge
      · have hmem := mem_children_of_mem_childScopes hchild
        have hparent := ha.adopted ⟨node, hn, hmem⟩ hlt
        have hinner := ha.carries_of_mem_childScopes hn hcarries hchild hlt
        rw [← binder?_of_parent? hparent hn] at hrest
        exact ih hinner hrest
      · -- below a handle that leads nowhere there are no names
        cases n with
        | zero => cases hrest
        | succ n =>
          simp only [resolveWithin, get?_eq_none_iff.mpr hge] at hrest
          cases hrest

/-- Whether the pass, started at a node with an environment that is carried, gets
to a name. -/
def Reaches (a : Arena) (use id : NodeId) : Prop :=
  ∀ (n : Nat) (env : Environment), id.index < n → a.Carries env id →
    (use, a.lookup use) ∈ a.resolveWithin n env (a.binder? id) id

theorem reaches_self (hn : a.get? use = some (.identifier name)) : Reaches a use use := by
  intro n env hlt hcarries
  cases n with
  | zero => exact absurd hlt (Nat.not_lt_zero _)
  | succ n =>
    rw [resolveWithin, hn, lookup_eq_or hn, ← hcarries name]
    exact List.mem_singleton.mpr rfl

/-- What is reached from a node is reached from its parent. -/
theorem reaches_parent (ha : a.Grown) (hp : a.parent? id = some parent) (h : Reaches a use id) :
    Reaches a use parent := by
  intro n env hlt hcarries
  obtain ⟨node, hn, hmem⟩ := ha.lists hp
  have hid := lt_size_of_parent? hp
  have hlower := ha.lt_parent hp
  cases n with
  | zero => exact absurd hlt (Nat.not_lt_zero _)
  | succ n =>
    rw [← map_fst_childScopes a env node] at hmem
    obtain ⟨⟨child, inner⟩, hchild, rfl⟩ := List.mem_map.mp hmem
    have hinner := ha.carries_of_mem_childScopes hn hcarries hchild hid
    have hfound := h n inner (by omega) hinner
    rw [binder?_of_parent? hp hn] at hfound
    have hnode : ∀ name, node ≠ .identifier name := by
      rintro name rfl
      simp [childScopes, Node.children] at hchild
    rw [resolveWithin, hn]
    split
    · next heq => cases heq
    · next name heq => exact absurd (Option.some.inj heq) (hnode name)
    · next heq =>
      cases heq
      exact List.mem_flatMap.mpr ⟨(child, inner), hchild, hfound⟩

/-- Going from parent to parent ends at a node without parent. -/
theorem induction_to_root (ha : a.Grown) {motive : NodeId → Prop}
    (root : ∀ id, a.parent? id = none → motive id)
    (step : ∀ child parent, a.parent? child = some parent → motive parent → motive child)
    (id : NodeId) : motive id := by
  induction hk : a.size - id.index using Nat.strongRecOn generalizing id with
  | ind k ih =>
    cases hp : a.parent? id with
    | none => exact root id hp
    | some parent =>
      have hlt := ha.lt_parent hp
      have hsize := ha.parent_lt_size hp
      exact step id parent hp (ih (a.size - parent.index) (by omega) parent rfl)

/-- Going from parent to parent, one comes by every ancestor. -/
@[elab_as_elim]
theorem induction_to_ancestor (ha : a.Grown) {outer : NodeId}
    {motive : (id : NodeId) → outer ∈ a.ancestors id → Prop}
    (child : ∀ id (hp : a.parent? id = some outer), motive id (ha.parent_mem_ancestors hp))
    (step : ∀ id parent (hp : a.parent? id = some parent) (hm : outer ∈ a.ancestors parent),
      motive parent hm → motive id (ha.mem_ancestors_of_parent? hp hm))
    {id : NodeId} (h : outer ∈ a.ancestors id) : motive id h := by
  induction id using ha.induction_to_root with
  | root id hp =>
    rw [ha.ancestors_of_orphan hp] at h
    cases h
  | step id parent hp ih =>
    have hm := h
    rw [ha.ancestors_of_parent? hp] at hm
    rcases List.mem_cons.mp hm with rfl | hm
    · exact child id hp
    · exact step id parent hp hm (ih hm)

/-- A node without parent is its own root. -/
theorem rootOf_of_root (ha : a.Grown) (h : a.parent? id = none) : a.rootOf id = id := by
  unfold rootOf
  rw [ha.ancestors_of_orphan h]
  rfl

/-- A node has the root of its parent. -/
theorem rootOf_of_parent? (ha : a.Grown) (h : a.parent? id = some parent) :
    a.rootOf id = a.rootOf parent := by
  unfold rootOf
  rw [ha.ancestors_of_parent? h]
  simp [List.getLast?_cons]

/-- The root of a node is in the arena. -/
theorem rootOf_lt_size (ha : a.Grown) (h : id.index < a.size) : (a.rootOf id).index < a.size := by
  induction id using ha.induction_to_root with
  | root id hp =>
    rw [ha.rootOf_of_root hp]
    exact h
  | step child parent hp ih =>
    rw [ha.rootOf_of_parent? hp]
    exact ih (ha.parent_lt_size hp)

/-- Nothing is around a root; the induction is on the way up. -/
theorem parent?_rootOf (ha : a.Grown) (id : NodeId) : a.parent? (a.rootOf id) = none := by
  induction id using ha.induction_to_root with
  | root id h => rw [ha.rootOf_of_root h, h]
  | step child parent h ih => rw [ha.rootOf_of_parent? h, ih]

/-- The pass from the root comes to every name that the pass from an inner node comes to. -/
theorem reaches_rootOf (ha : a.Grown) (h : Reaches a use id) : Reaches a use (a.rootOf id) := by
  induction id using ha.induction_to_root with
  | root id hp =>
    rw [ha.rootOf_of_root hp]
    exact h
  | step child parent hp ih =>
    rw [ha.rootOf_of_parent? hp]
    exact ih (ha.reaches_parent hp h)

end Grown

end Arena

/-- The search along parent links refines resolution from the root down: above each
name there is a node without parent, and the pass that starts there reports for
the name exactly what the search finds, be it a declaration or none. -/
theorem mem_resolutions_iff_lookup {p : Program} (hp : p.BottomUp) {use : NodeId} {name : String}
    (hu : p.arena.get? use = some (.identifier name)) :
    p.arena.parent? (p.arena.rootOf use) = none ∧
      ∀ found, (use, found) ∈ p.arena.resolutions (p.arena.rootOf use) ↔
        p.arena.lookup use = found := by
  have ha := hp.grown
  have hroot := ha.parent?_rootOf use
  have hcarries := ha.carries_nil hroot
  have hbinder := Arena.Grown.binder?_of_root hroot
  refine ⟨hroot, fun found => ⟨fun h => ?_, ?_⟩⟩
  · unfold Arena.resolutions at h
    rw [← hbinder] at h
    exact ha.lookup_of_mem_resolveWithin hcarries h
  · rintro rfl
    have hlt := ha.rootOf_lt_size (Arena.lt_size_of_get? hu)
    have hreach := ha.reaches_rootOf (Arena.Grown.reaches_self hu)
    have hfound := hreach (p.arena.size + 1) [] (by omega) hcarries
    rw [hbinder] at hfound
    exact hfound

/-- The pass reports the pattern element for the name that the callback returns. -/
theorem mem_resolutions_pluck :
    Program.pluck.arena.get? ⟨7⟩ = some (.identifier "x") ∧
      (⟨7⟩, some ⟨1⟩) ∈
        Program.pluck.arena.resolutions (Program.pluck.arena.rootOf ⟨7⟩) := by
  have hname : Program.pluck.arena.get? ⟨7⟩ = some (.identifier "x") := by cbv
  have hlookup : Program.pluck.arena.lookup ⟨7⟩ = some ⟨1⟩ := by cbv
  obtain ⟨-, hiff⟩ := mem_resolutions_iff_lookup Program.bottomUp_pluck hname
  exact ⟨hname, (hiff (some ⟨1⟩)).mpr hlookup⟩

end ClosureVtl
