/-
Module: ClosureVtl.Proofs.Closure.KnownNodes
Purpose: Two arenas with some nodes in common answer the same questions about them.
Main exports:
  Arena.AlikeOn, Node.followed, Arena.AlikeAlong, AlikeOn.along, Correspondence.along,
  AlikeAlong.alongside, AlikeAlong.fusedChain, AlikeAlong.jsonPath, AlikeAlong.isComposite
-/
import ClosureVtl.Proofs.Closure.Abreast
import ClosureVtl.Proofs.Closure.Termination

namespace ClosureVtl

/-!
Two arenas can have nodes in common and still differ in what is around them.  Here the
common nodes are called known.  If the arenas agree on what the names among them refer to,
they agree on all walks through them: each walk goes on to nodes that are known again.

The walks do not go on to all parts.  Statements of blocks are not walked through, a callee
is looked at only to find out which integration it is, and keys only for their text.
`Arena.AlikeAlong` leaves such parts open, and is what the walks need.

The bounds of the two walks differ, as the arenas have different sizes, but none of them is
met; so both are compared at a bound that suffices for both.
-/

/-- Whether two arenas have the same nodes behind known handles, and give the names there
the same meaning. -/
structure Arena.AlikeOn (a a' : Arena) (known : NodeId → Prop) : Prop where
  get? : ∀ {id}, known id → a.get? id = a'.get? id
  parts : ∀ {id part}, known id → a.Lists id part → known part
  isBindingName : ∀ {id}, known id → a.isBindingName id = a'.isBindingName id
  lookup : ∀ {id}, known id → a.lookup id = a'.lookup id
  declared : ∀ {id declaration}, known id → a.lookup id = some declaration → known declaration
  classify : ∀ {id}, known id → a.classify id = a'.classify id

/-- An arena agrees with itself on all nodes. -/
theorem Arena.AlikeOn.refl (a : Arena) : a.AlikeOn a fun _ => True := by
  constructor <;> intros <;> trivial

namespace Arena.AlikeOn

variable {a a' : Arena} {known : NodeId → Prop} {id : NodeId}

/-- A search sees only known nodes, and both arenas have the same ones. -/
theorem search (h : a.AlikeOn a' known) (ha : a.Grown) (ha' : a'.Grown)
    {hit hit' : NodeId → Node → Bool} (hhit : ∀ id node, known id → hit id node = hit' id node)
    (hid : known id) : a.search id hit = a'.search id hit' := by
  have hwithin : ∀ (n : Nat) {id : NodeId} (sweep : Sweep), known id →
      a.searchFrom hit n id sweep = a'.searchFrom hit' n id sweep := by
    intro n
    induction n with
    | zero => exact fun _ _ => rfl
    | succ n ih =>
      intro id sweep hid
      rw [searchFrom, searchFrom, ← h.get? hid]
      split
      · rfl
      · next node hn =>
        simp only [hhit id node hid]
        split
        · rfl
        · apply List.foldr_ext
          intro child hm sweep
          rw [ih sweep (h.parts hid ⟨node, hn, hm⟩)]
  exact congrFun ((ha.search_descends _).congr (ha'.search_descends _) (age_le_succ_size _ id)
    (age_le_succ_size _ id) fun n => funext fun sweep => hwithin n sweep hid) {}

/-- Whether a callback uses its parameter is found by such a search. -/
theorem references (h : a.AlikeOn a' known) (ha : a.Grown) (ha' : a'.Grown) {body : NodeId}
    (hb : known body) (parameter : NodeId) :
    a.references body parameter = a'.references body parameter := by
  refine congrArg Sweep.found (h.search ha ha' (fun id node hid => ?_) hb)
  split
  · rw [h.isBindingName hid, h.lookup hid]
  · rfl

end Arena.AlikeOn

/-! ### Parts that walks go on to -/

namespace Node

/-- The key of a property or of a pattern element. -/
def key? : Node → Option NodeId
  | .property name _ => some name
  | .binding _ key _ _ => key
  | _ => none

/-- The parts of a node without statements of a block, the callee of a call, and keys. -/
def followed : Node → List NodeId
  | .block _ => []
  | .call _ args => args
  | .property _ value => [value]
  | .binding name _ default _ => name :: default.toList
  | node => node.children

/-- A walk goes on to parts only. -/
theorem followed_subset_children (node : Node) : node.followed ⊆ node.children := by
  intro part hm
  cases node with
  | block statements => cases hm
  | call callee args => exact List.mem_cons_of_mem _ hm
  | property name value => exact List.mem_cons_of_mem _ hm
  | binding name key default rest => exact List.mem_append_right _ hm
  | _ => exact hm

/-- A computed key is a part. -/
theorem mem_children_of_key? {node : Node} {key : NodeId} (h : node.key? = some key) :
    key ∈ node.children := by
  unfold key? at h
  split at h
  · cases h
    exact List.mem_cons_self
  · subst h
    exact List.mem_append_left _ (List.mem_singleton.mpr rfl)
  · cases h

end Node

/-- Whether two arenas look alike along the parts of known nodes that walks go on to. -/
structure Arena.AlikeAlong (a a' : Arena) (known : NodeId → Prop) : Prop where
  grown : a.Grown
  grown' : a'.Grown
  get? : ∀ {id}, known id → (∀ statements, a.get? id ≠ some (.block statements)) →
    a.get? id = a'.get? id
  block : ∀ {id statements}, known id → a.get? id = some (.block statements) →
    ∃ statements', a'.get? id = some (.block statements')
  followed : ∀ {id node part}, known id → a.get? id = some node → part ∈ node.followed → known part
  callee : ∀ {id callee args}, known id → a.get? id = some (.call callee args) →
    known callee ∨ ∃ integration, a.resolveIntegration callee = some integration ∧
      a'.resolveIntegration callee = some integration
  key : ∀ {id node key}, known id → a.get? id = some node → node.key? = some key →
    known key ∨ ∃ name, a.get? key = some (.identifier name) ∧
      a'.get? key = some (.identifier name)
  lookup : ∀ {id}, known id → a.lookup id = a'.lookup id
  declared : ∀ {id declaration}, known id → a.lookup id = some declaration → known declaration
  classify : ∀ {id}, known id → a.classify id = a'.classify id
  references : ∀ {body parameter name default}, known body →
    a.get? parameter = some (.parameter name default) →
      a.references body parameter = a'.references body parameter

/-- Arenas that agree on all parts agree along the walks, which go on to some of them. -/
theorem Arena.AlikeOn.along {a a' : Arena} {known : NodeId → Prop} (h : a.AlikeOn a' known)
    (ha : a.Grown) (ha' : a'.Grown) : a.AlikeAlong a' known where
  grown := ha
  grown' := ha'
  get? hid _ := h.get? hid
  block hid hn := ⟨_, (h.get? hid).symm.trans hn⟩
  followed hid hn hm := h.parts hid ⟨_, hn, Node.followed_subset_children _ hm⟩
  callee hid hn := .inl (h.parts hid ⟨_, hn, List.mem_cons_self⟩)
  key hid hn hk := .inl (h.parts hid ⟨_, hn, Node.mem_children_of_key? hk⟩)
  lookup := h.lookup
  declared := h.declared
  classify := h.classify
  references hb _ := h.references ha ha' hb _

namespace Arena.AlikeAlong

variable {a a' : Arena} {known : NodeId → Prop} {id : NodeId} {n : Nat}

/-- Both arenas have a block behind a known handle, or the same. -/
theorem found (h : a.AlikeAlong a' known) (hid : known id) :
    (∃ statements statements', a.get? id = some (.block statements) ∧
      a'.get? id = some (.block statements')) ∨ a.get? id = a'.get? id := by
  by_cases hblock : ∃ statements, a.get? id = some (.block statements)
  · obtain ⟨statements, hn⟩ := hblock
    obtain ⟨statements', hn'⟩ := h.block hid hn
    exact .inl ⟨statements, statements', hn, hn'⟩
  · exact .inr (h.get? hid (not_exists.mp hblock))

/-! ### Towards the leaves -/

/-- Both walks stop at the same node, and it is known. -/
theorem unwrapParens (h : a.AlikeAlong a' known) (hid : known id) :
    a.unwrapParens id = a'.unwrapParens id ∧ known (a.unwrapParens id) := by
  induction id using h.grown.induction_through_parens with
  | plain id hplain =>
    have hplain' : ∀ expr, a'.get? id ≠ some (.paren expr) := by
      rcases h.found hid with ⟨statements, statements', hn, hn'⟩ | hsame
      · simp [hn']
      · exact hsame ▸ hplain
    rw [unwrapParens_of_not_paren hplain, unwrapParens_of_not_paren hplain']
    exact ⟨rfl, hid⟩
  | paren id expr hn ih =>
    have hn' := (h.get? hid (by simp [hn])).symm.trans hn
    rw [h.grown.unwrapParens_of_paren hn, h.grown'.unwrapParens_of_paren hn']
    exact ih (h.followed hid hn (List.mem_singleton.mpr rfl))

/-- Both walks end at the same value, and it is known. -/
theorem awaited (h : a.AlikeAlong a' known) (hid : known id) :
    a.awaited id = a'.awaited id ∧ known (a.awaited id) := by
  induction hk : a.age id using Nat.strongRecOn generalizing id with
  | ind k ih =>
    rw [h.grown.awaited_eq, h.grown'.awaited_eq]
    have hsame : (a.get? id).bind Grown.passedOn = (a'.get? id).bind Grown.passedOn := by
      rcases h.found hid with ⟨statements, statements', hn, hn'⟩ | hsame
      · rw [hn, hn']
        rfl
      · rw [hsame]
    rw [← hsame]
    cases hpassed : (a.get? id).bind Grown.passedOn with
    | none => exact ⟨rfl, hid⟩
    | some expr =>
      obtain ⟨node, hn, hexpr⟩ := Option.bind_eq_some_iff.mp hpassed
      have hm : expr ∈ node.followed := by
        unfold Grown.passedOn at hexpr
        split at hexpr <;> cases hexpr <;> exact List.mem_singleton.mpr rfl
      have hl : a.Lists id expr := ⟨node, hn, node.followed_subset_children hm⟩
      exact ih (a.age expr) (hk ▸ h.grown.age_lt hl) (h.followed hid hn hm) rfl

/-! ### Through names -/

/-- The declaration of a known name is the same on both sides, and no block. -/
theorem bind_lookup (h : a.AlikeAlong a' known) (hid : known id) :
    (a.lookup id).bind a.get? = (a'.lookup id).bind a'.get? := by
  rw [← h.lookup hid]
  cases hl : a.lookup id with
  | none => rfl
  | some declaration =>
    obtain ⟨name, node, -, hbinds⟩ := h.grown.binds_of_lookup hl
    refine h.get? (h.declared hid hl) fun statements hn => ?_
    have hbound := hbinds.bound
    rw [hn] at hbound
    cases hbound

/-- A walk from a known name goes on to a known value. -/
theorem known_value (h : a.AlikeAlong a' known) (hid : known id) {kind : DeclKind}
    {name value : NodeId}
    (hl : (a.lookup id).bind a.get? = some (.declaration kind name (some value))) :
    known value := by
  obtain ⟨declaration, hdeclaration, hn⟩ := Option.bind_eq_some_iff.mp hl
  exact h.followed (h.declared hid hdeclaration) hn
    (List.mem_cons_of_mem _ (List.mem_singleton.mpr rfl))

/-- Aliases are followed through declarations, and those of known names are known. -/
theorem resolveIntegration (h : a.AlikeAlong a' known) (hid : known id) :
    a.resolveIntegration id = a'.resolveIntegration id := by
  have hwithin : ∀ (n : Nat) {callee : NodeId}, known callee →
      a.resolveIntegrationWithin n callee = a'.resolveIntegrationWithin n callee := by
    intro n
    induction n with
    | zero => exact fun _ => rfl
    | succ n ih =>
      intro callee hcallee
      obtain ⟨hinside, hknown⟩ := h.unwrapParens hcallee
      simp only [resolveIntegrationWithin]
      rw [← hinside]
      rcases h.found hknown with ⟨statements, statements', hn, hn'⟩ | hsame
      · rw [hn, hn']
      rw [← hsame, ← h.bind_lookup hknown]
      split
      · rfl
      · split
        · next hl => exact ih (h.known_value hknown hl)
        · rfl
      · rfl
  exact h.grown.resolveIntegration_descends.congr h.grown'.resolveIntegration_descends
    (aliasRank_le_succ_size _ id) (aliasRank_le_succ_size _ id) fun n => hwithin n hid

/-- A callee that is known or handed over is one integration on both sides, or none. -/
theorem resolveIntegration_callee (h : a.AlikeAlong a' known) (hid : known id) {callee : NodeId}
    {args : List NodeId} (hn : a.get? id = some (.call callee args)) :
    a.resolveIntegration callee = a'.resolveIntegration callee := by
  rcases h.callee hid hn with hcallee | ⟨integration, hi, hi'⟩
  · exact h.resolveIntegration hcallee
  · rw [hi, hi']

theorem calledIntegration (h : a.AlikeAlong a' known) (hid : known id) :
    a.calledIntegration id = a'.calledIntegration id := by
  obtain ⟨hsame, hknown⟩ := h.awaited hid
  unfold Arena.calledIntegration
  rw [← hsame]
  rcases h.found hknown with ⟨statements, statements', hn, hn'⟩ | hget
  · rw [hn, hn']
  rw [← hget]
  split
  · next callee args hn => exact h.resolveIntegration_callee hknown hn
  · rfl

/-- The rounds are compared at one bound that suffices for both arenas. -/
theorem isComposite (h : a.AlikeAlong a' known) (hid : known id) :
    a.isComposite id = a'.isComposite id := by
  have hwithin : ∀ (n : Nat) {expr : NodeId}, known expr →
      a.isCompositeWithin n expr = a'.isCompositeWithin n expr := by
    intro n
    induction n with
    | zero => exact fun _ => rfl
    | succ n ih =>
      intro expr hexpr
      obtain ⟨hinside, hknown⟩ := h.unwrapParens hexpr
      -- each part that the check goes on to is followed, and so known
      have hpart : ∀ {node : Node} {part : NodeId}, a.get? (a.unwrapParens expr) = some node →
          part ∈ node.followed → a.isCompositeWithin n part = a'.isCompositeWithin n part :=
        fun hn hm => ih (h.followed hknown hn hm)
      simp only [isCompositeWithin]
      rw [← hinside]
      rcases h.found hknown with ⟨statements, statements', hn, hn'⟩ | hsame
      · rw [hn, hn']
      rw [← hsame, ← h.bind_lookup hknown]
      split
      · rfl
      · rfl
      · next hn => exact hpart hn (by simp [Node.followed, Node.children])
      · next hn => exact hpart hn (by simp [Node.followed, Node.children])
      · next hn =>
        rw [hpart hn (by simp [Node.followed, Node.children]),
          hpart hn (by simp [Node.followed, Node.children])]
      · next hn =>
        rw [hpart hn (by simp [Node.followed, Node.children]),
          hpart hn (by simp [Node.followed, Node.children])]
      · next hn =>
        rw [hpart hn (by simp [Node.followed, Node.children]),
          hpart hn (by simp [Node.followed, Node.children])]
      · next hn =>
        rw [hpart hn (by simp [Node.followed, Node.children]),
          hpart hn (by simp [Node.followed, Node.children])]
      · split
        · next hl => exact ih (h.known_value hknown hl)
        · rfl
      · rfl
  exact h.grown.isComposite_descends.congr h.grown'.isComposite_descends
    (aliasRank_le_succ_size _ id) (aliasRank_le_succ_size _ id) fun n => hwithin n hid

/-! ### Paths -/

theorem pathIndex? (h : a.AlikeAlong a' known) (hid : known id) :
    a.pathIndex? id = a'.pathIndex? id := by
  obtain ⟨hinside, hknown⟩ := h.unwrapParens hid
  unfold Arena.pathIndex?
  rw [← hinside]
  rcases h.found hknown with ⟨statements, statements', hn, hn'⟩ | hsame
  · rw [hn, hn']
  · rw [hsame]

theorem jsonPath (h : a.AlikeAlong a' known) (hid : known id) : a.jsonPath id = a'.jsonPath id := by
  have hwithin : ∀ (n : Nat) {expr : NodeId}, known expr →
      a.jsonPathWithin n expr = a'.jsonPathWithin n expr := by
    intro n
    induction n with
    | zero => exact fun _ => rfl
    | succ n ih =>
      intro expr hexpr
      obtain ⟨hinside, hknown⟩ := h.unwrapParens hexpr
      simp only [jsonPathWithin]
      rw [← hinside]
      rcases h.found hknown with ⟨statements, statements', hn, hn'⟩ | hsame
      · rw [hn, hn']
      rw [← hsame]
      split
      · unfold isPayload
        rw [h.classify hknown]
      · next base name hn => rw [ih (h.followed hknown hn List.mem_cons_self)]
      · next base key hn =>
        have hkey : known key := h.followed hknown hn (by simp [Node.followed, Node.children])
        rw [ih (h.followed hknown hn List.mem_cons_self), h.pathIndex? hkey]
      · rfl
  exact h.grown.jsonPath_descends.congr h.grown'.jsonPath_descends (age_le_succ_size _ id)
    (age_le_succ_size _ id) fun n => hwithin n hid

end Arena.AlikeAlong

/-! ### Known nodes abreast -/

/-- Whether a node is known, or is a name that stands as a key. -/
def Arena.Listed (a a' : Arena) (known : NodeId → Prop) (id : NodeId) : Prop :=
  known id ∨ ∃ name, a.get? id = some (.identifier name) ∧ a'.get? id = some (.identifier name)

/-- Each known node corresponds to itself, as far as `n` levels suffice for it. -/
def Correspondence.along (a a' : Arena) (known : NodeId → Prop) (n : Nat) : Correspondence where
  own id id' := id = id' ∧ a.Listed a' known id ∧ 3 * a.age id ≤ n + 1
  node id id' := id = id' ∧ a.Listed a' known id ∧ 3 * a.age id + 2 ≤ n
  value id id' := id = id' ∧ known id ∧ 3 * a.age id + 2 ≤ n
  integration := Eq
  calls entry id id' := id = id' ∧ entry.reached (a.Listed a' known) known id ∧ 1 ≤ n ∧
    3 * a.age id + entry.levels ≤ n

namespace Arena.AlikeAlong

variable {a a' : Arena} {known : NodeId → Prop} {id : NodeId} {n : Nat}

/-- Nodes behind a known handle meet. -/
theorem meets (h : a.AlikeAlong a' known) (hid : known id) (hle : 3 * a.age id ≤ n + 1) :
    Option.Rel (Node.Meets a a' (.along a a' known n)) (a.get? id) (a'.get? id) := by
  rcases h.found hid with ⟨statements, statements', hn, hn'⟩ | hsame
  · rw [hn, hn']
    exact .some (.block statements statements')
  rw [← hsame]
  cases hn : a.get? id with
  | none => exact .none
  | some node =>
    have hage : ∀ {part : NodeId}, part ∈ node.children → 3 * a.age part + 2 ≤ n := by
      intro part hm
      have hlt := h.grown.age_lt ⟨node, hn, hm⟩
      omega
    have hvalue : ∀ {part : NodeId}, part ∈ node.followed →
        (Correspondence.along a a' known n).value part part := fun hm =>
      ⟨rfl, h.followed hid hn hm, hage (node.followed_subset_children hm)⟩
    have hnode : ∀ {part : NodeId}, part ∈ node.followed →
        (Correspondence.along a a' known n).node part part := fun hm =>
      ⟨rfl, .inl (h.followed hid hn hm), hage (node.followed_subset_children hm)⟩
    have hkey : ∀ {key : NodeId}, node.key? = some key →
        (Correspondence.along a a' known n).node key key := fun hk =>
      ⟨rfl, h.key hid hn hk, hage (Node.mem_children_of_key? hk)⟩
    have hparts : node.followed = node.children →
        node.Lifts (.along a a' known n) node := fun heq =>
      .of_parts (fun part hm => ⟨hnode (heq ▸ hm), hvalue (heq ▸ hm)⟩) fun _ => rfl
    refine .some ?_
    cases node with
    | block statements => exact .block statements statements
    | call callee args =>
      have hargs : List.Forall₂ (Correspondence.along a a' known n).value args args :=
        List.forall₂_same.mpr fun arg hm => hvalue hm
      -- a callee is known, or is only looked at for its integration
      rcases h.callee hid hn with hcallee | ⟨integration, hi, hi'⟩
      · exact .lifts (.call ⟨rfl, hcallee, hage List.mem_cons_self⟩ hargs)
      · exact .handed hi hi' rfl hargs
    | property name value =>
      exact .lifts (.property (hkey rfl) (hvalue (List.mem_singleton.mpr rfl)))
    | binding name key default rest =>
      refine .lifts (.binding (hnode List.mem_cons_self) ?_ ?_ rest)
      · cases key with
        | none => exact .none
        | some key => exact .some (hkey rfl)
      · cases default with
        | none => exact .none
        | some default =>
          exact .some (hvalue (List.mem_cons_of_mem _ (List.mem_singleton.mpr rfl)))
    | _ => exact .lifts (hparts rfl)

/-- Along known nodes the arenas look alike. -/
theorem alongside (h : a.AlikeAlong a' known) (n : Nat) :
    a.Alongside a' (.along a a' known n) where
  own := by
    rintro id _ ⟨rfl, hid, hle⟩
    exact ⟨rfl, hid, by omega⟩
  meets := by
    rintro id _ ⟨rfl, hid | ⟨name, hn, hn'⟩, hle⟩
    · exact h.meets hid hle
    · rw [hn, hn']
      exact .some (.lifts (.identifier name))
  unwrap := by
    rintro id _ ⟨rfl, hid, hle⟩
    obtain ⟨hinside, hknown⟩ := h.unwrapParens hid
    have hage := h.grown.age_unwrapParens id
    exact ⟨hinside, .inl hknown, by omega⟩
  inside := by
    rintro id _ ⟨rfl, hid, hle⟩
    obtain ⟨hinside, hknown⟩ := h.unwrapParens hid
    have hage := h.grown.age_unwrapParens id
    exact ⟨hinside, hknown, by omega⟩
  plain := by
    rintro id _ ⟨rfl, hid, hle⟩
    exact .inl ⟨rfl, .inl hid, hle⟩
  resolveIntegration := by
    rintro callee _ ⟨rfl, hcallee, -⟩
    rw [h.resolveIntegration hcallee]
    exact optionRel_refl (fun _ => rfl) _
  references := by
    rintro body _ parameter _ name default ⟨rfl, hbody, -⟩ ⟨rfl, -⟩ hn
    exact h.references hbody hn

/-- Stages that share a loop correspond to themselves, and so does what the loop is over. -/
theorem fusedChain (h : a.AlikeAlong a' known)
    (hid : (Correspondence.along a a' known n).value id id) (readsList : Bool) :
    List.Forall₂ (ListCall.Lifts (.along a a' known n)) (a.fusedChain id readsList).1
        (a'.fusedChain id readsList).1 ∧
      (Correspondence.along a a' known n).value (a.fusedChain id readsList).2
        (a'.fusedChain id readsList).2 := by
  have halongside := h.alongside n
  have hwithin : ∀ (m : Nat) {expr expr' : NodeId},
      (Correspondence.along a a' known n).value expr expr' →
      List.Forall₂ (ListCall.Lifts (.along a a' known n)) (a.fusedChainWithin m expr).1
          (a'.fusedChainWithin m expr').1 ∧
        (Correspondence.along a a' known n).value (a.fusedChainWithin m expr).2
          (a'.fusedChainWithin m expr').2 := by
    intro m
    induction m with
    | zero => exact fun hexpr => ⟨.nil, hexpr⟩
    | succ m ih =>
      intro expr expr' hexpr
      have hstage := halongside.mapStage? hexpr
      rw [fusedChainWithin, fusedChainWithin]
      generalize a.mapStage? expr = stage?, a'.mapStage? expr' = stage?' at hstage ⊢
      cases hstage with
      | none => exact ⟨.nil, hexpr⟩
      | some hlifts =>
        simp only [halongside.parameterUsed hlifts.parameters hlifts.body]
        split
        · exact ⟨.nil, hexpr⟩
        · obtain ⟨hstages, hsource⟩ := ih hlifts.receiver
          exact ⟨.cons hlifts hstages, hsource⟩
  cases readsList with
  | true => exact ⟨.nil, hid⟩
  | false =>
    -- neither bound is met, so both walks are those at the sum of the bounds
    have hbound := h.grown.fusedChain_descends.within_eq (a.age_le_size id)
      ((a.age_le_size id).trans (Nat.le_add_right a.size a'.size))
    have hbound' := h.grown'.fusedChain_descends.within_eq (a'.age_le_size id)
      ((a'.age_le_size id).trans (Nat.le_add_left a'.size a.size))
    show List.Forall₂ _ (a.fusedChainWithin a.size id).1 (a'.fusedChainWithin a'.size id).1 ∧
      (Correspondence.along a a' known n).value (a.fusedChainWithin a.size id).2
        (a'.fusedChainWithin a'.size id).2
    rw [hbound, hbound']
    exact hwithin (a.size + a'.size) hid

/-- Handles that correspond to themselves are the same, in lists as well. -/
theorem eq_of_forall₂ {R : NodeId → Prop} {ids ids' : List NodeId}
    (h : List.Forall₂ (fun id id' => id = id' ∧ R id) ids ids') : ids = ids' :=
  List.forall₂_eq_eq_eq ▸ h.imp fun _ _ hid => hid.1

/-- A chain has the same stages and the same source in both arenas. -/
theorem fusedChain_eq (h : a.AlikeAlong a' known) (hid : known id) (readsList : Bool) :
    a.fusedChain id readsList = a'.fusedChain id readsList := by
  obtain ⟨hstages, hsource⟩ :=
    h.fusedChain (n := 3 * a.age id + 2) ⟨rfl, hid, le_rfl⟩ readsList
  refine Prod.ext (List.forall₂_eq_eq_eq ▸ hstages.imp fun call call' hlifts => ?_) hsource.1
  have hreceiver := hlifts.receiver.1
  have hparameters := eq_of_forall₂ hlifts.parameters
  have hbody := hlifts.body.1
  cases call
  cases call'
  simp_all

end Arena.AlikeAlong

end ClosureVtl
