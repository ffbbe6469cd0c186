/-
Module: ClosureVtl.Proofs.Closure.Inlining
Purpose: Closures without the local names that stand for integrations.
Main exports:
  Arena.origin, Arena.inlined, Program.inlined, Arena.IsAlias, Arena.OnlyCalled, Arena.Kept,
  OnlyCalled.position, OnlyCalled.grown_inlined, OnlyCalled.called_inlined
-/
import ClosureVtl.Proofs.Closure.KnownNodes
import ClosureVtl.Proofs.Closure.Subtree

namespace ClosureVtl

/-!
An alias is a declaration that gives a local name to an integration, at first hand or by the
name of another alias.  `Arena.inlined` takes aliases away: their declarations leave the
blocks that list them, and where the name of one is called, the reference that it stands for
is called.  All other nodes keep their handles.

The names of the aliases that are taken away must be called and nothing else, or give further
aliases their values.  As keys of objects and patterns such names may stand too, since the text
of a key is all that counts; only, a key that changed over to a parameter would count as a use
of it.  `OnlyCalled.position` turns this into what it means for the nodes outside of aliases.
-/

namespace Node

/-- The part of a node that tells what is called or where a value belongs, and is no value
itself: the callee of a call, or a key. -/
def aside? : Node → Option NodeId
  | .call callee _ => some callee
  | node => node.key?

/-- The part aside comes first among the parts, and the others follow. -/
theorem children_of_aside? {node : Node} {part : NodeId} (h : node.aside? = some part) :
    node.children = part :: node.followed := by
  cases node with
  | call callee args | property name value =>
    cases h
    rfl
  | binding name key default rest =>
    cases key with
    | none => cases h
    | some key =>
      cases h
      rfl
  | _ => cases h

/-- Whether a node is neither a block, whose statements are taken away, nor a name, which is
replaced by a reference. -/
def isLasting : Node → Bool
  | .block _ | .identifier _ | .reference .. => false
  | _ => true

end Node

namespace Arena

/-! ### Taking aliases away -/

/-- The expression that a name stands for, through at most `n` names. -/
def originWithin (a : Arena) : Nat → NodeId → NodeId
  | 0, expr => expr
  | n + 1, expr =>
    let expr := a.unwrapParens expr
    match (a.lookup expr).bind a.get? with
    | some (.declaration _ _ (some value)) => a.originWithin n value
    | _ => expr

/-- The expression that a name stands for, through any number of names. -/
def origin (a : Arena) (expr : NodeId) : NodeId := a.originWithin (a.size + 1) expr

/-- Whether an expression, maybe in parentheses, is the callee of a call. -/
def isCallee (a : Arena) (id : NodeId) : Bool :=
  a.entries.any fun entry =>
    match entry.node with
    | .call callee _ => a.unwrapParens callee == id
    | _ => false

/-- Whether a node is the key of a property or of a pattern element. -/
def isKey (a : Arena) (id : NodeId) : Bool :=
  a.entries.any fun entry => entry.node.key? == some id

/-- Whether a name refers to one of some declarations. -/
def refersTo (a : Arena) (declarations : List NodeId) (id : NodeId) : Bool :=
  (a.lookup id).any (· ∈ declarations)

/-- Whether a name refers to a parameter. -/
def namesParameter (a : Arena) (id : NodeId) : Bool :=
  match (a.lookup id).bind a.get? with
  | some (.parameter ..) => true
  | _ => false

/-- A node without aliases. -/
def inlinedNode (a : Arena) (aliases : List NodeId) (id : NodeId) : Node → Node
  | .block statements => .block (statements.filter (· ∉ aliases))
  | .identifier name =>
    if a.isCallee id && a.refersTo aliases id then
      match a.get? (a.origin id) with
      | some (.reference name integration) => .reference name integration
      | _ => .identifier name
    else .identifier name
  | node => node

/-- An arena without aliases: no block lists them, and instead of their names the references
that they stand for are called. -/
def inlined (a : Arena) (aliases : List NodeId) : Arena where
  entries := a.entries.mapIdx fun index entry =>
    { node := a.inlinedNode aliases ⟨index⟩ entry.node
      parent := if ⟨index⟩ ∈ aliases then none else entry.parent }

end Arena

/-- A program without aliases. -/
def Program.inlined (p : Program) (aliases : List NodeId) : Program where
  arena := p.arena.inlined aliases
  integrations := p.integrations

namespace Arena

/-! ### Aliases -/

/-- Whether a statement of a block gives a plain name to an integration. -/
structure IsAlias (a : Arena) (declaration : NodeId) : Prop where
  declares : ∃ kind name value text,
    a.get? declaration = some (.declaration kind name (some value)) ∧
    a.get? name = some (.identifier text) ∧ (a.resolveIntegration value).isSome = true
  listed : ∃ block statements, a.get? block = some (.block statements) ∧ declaration ∈ statements

/-- The initial value of a declaration, without parentheses. -/
def initial? (a : Arena) (declaration : NodeId) : Option NodeId :=
  match a.get? declaration with
  | some (.declaration _ _ value) => value.map a.unwrapParens
  | _ => none

/-- Whether a node is a place where the name of an alias may stand: where it is declared, where
it is called, where it gives a further alias its value, or as a key, which must not change over
to a parameter. -/
def mayName (a : Arena) (aliases : List NodeId) (id : NodeId) : Bool :=
  a.isBindingName id || a.isCallee id || aliases.any (a.initial? · == some id) ||
    (a.isKey id && !(a.inlined aliases).namesParameter id)

/-- Whether some declarations are aliases whose names stand nowhere but in such places. -/
structure OnlyCalled (a : Arena) (aliases : List NodeId) : Prop where
  isAlias : ∀ {declaration}, declaration ∈ aliases → a.IsAlias declaration
  uses : ∀ {id}, a.refersTo aliases id = true → a.mayName aliases id = true

/-- Whether a node stands in no alias. -/
def Outside (a : Arena) (aliases : List NodeId) (id : NodeId) : Prop :=
  ∀ declaration ∈ aliases, a.isWithin declaration id = false

/-- Whether a node stands in no alias and is no name of one. -/
structure Kept (a : Arena) (aliases : List NodeId) (id : NodeId) : Prop where
  outside : a.Outside aliases id
  plain : a.refersTo aliases (a.unwrapParens id) = false

variable {a : Arena} {aliases : List NodeId} {id part parent callee declaration : NodeId}
  {node : Node}

/-- The names of aliases are those that are looked up to one. -/
theorem refersTo_iff : a.refersTo aliases id = true ↔
    ∃ declaration ∈ aliases, a.lookup id = some declaration := by
  unfold refersTo
  rw [Option.any_eq_true]
  constructor
  · rintro ⟨declaration, hl, hm⟩
    exact ⟨declaration, of_decide_eq_true hm, hl⟩
  · rintro ⟨declaration, hm, hl⟩
    exact ⟨declaration, hl, decide_eq_true hm⟩

/-- A callee is found among the calls, parentheses left out. -/
theorem isCallee_iff : a.isCallee id = true ↔
    ∃ call callee args, a.get? call = some (.call callee args) ∧ a.unwrapParens callee = id := by
  unfold isCallee
  rw [Array.any_eq_true]
  constructor
  · rintro ⟨index, hlt, hentry⟩
    split at hentry
    · next callee args hnode =>
      refine ⟨⟨index⟩, callee, args, ?_, beq_iff_eq.mp hentry⟩
      simp [get?, hlt, hnode]
    · cases hentry
  · rintro ⟨call, callee, args, hn, rfl⟩
    obtain ⟨entry, hentry, hnode⟩ := Option.map_eq_some_iff.mp hn
    obtain ⟨hlt, rfl⟩ := Array.getElem?_eq_some_iff.mp hentry
    refine ⟨call.index, hlt, ?_⟩
    simp only [hnode, beq_self_eq_true]

/-- A key is found among the nodes that have one. -/
theorem isKey_iff : a.isKey id = true ↔
    ∃ parent node, a.get? parent = some node ∧ node.key? = some id := by
  unfold isKey
  rw [Array.any_eq_true]
  constructor
  · rintro ⟨index, hlt, hentry⟩
    exact ⟨⟨index⟩, _, by simp [get?, hlt], beq_iff_eq.mp hentry⟩
  · rintro ⟨parent, node, hn, hkey⟩
    obtain ⟨entry, hentry, rfl⟩ := Option.map_eq_some_iff.mp hn
    obtain ⟨hlt, rfl⟩ := Array.getElem?_eq_some_iff.mp hentry
    exact ⟨parent.index, hlt, beq_iff_eq.mpr hkey⟩

/-- The four places in which the name of an alias may stand. -/
theorem mayName_iff : a.mayName aliases id = true ↔
    a.isBindingName id = true ∨ a.isCallee id = true ∨
      (∃ declaration ∈ aliases, a.initial? declaration = some id) ∨
      (a.isKey id = true ∧ (a.inlined aliases).namesParameter id = false) := by
  simp [mayName, or_assoc]

/-! ### The nodes that there are -/

/-- Taking aliases away drops no node. -/
@[simp] theorem size_inlined (a : Arena) (aliases : List NodeId) :
    (a.inlined aliases).size = a.size := by
  simp [size, inlined]

/-- Each handle leads to its node without aliases. -/
theorem get?_inlined (a : Arena) (aliases : List NodeId) (id : NodeId) :
    (a.inlined aliases).get? id = (a.get? id).map (a.inlinedNode aliases id) := by
  simp only [get?, inlined, Array.getElem?_mapIdx, Option.map_map]
  rfl

/-- Only the aliases lose their parent. -/
theorem parent?_inlined (a : Arena) (aliases : List NodeId) (id : NodeId) :
    (a.inlined aliases).parent? id = if id ∈ aliases then none else a.parent? id := by
  simp only [parent?, inlined, Array.getElem?_mapIdx, Option.bind_map]
  cases a.entries[id.index]? with
  | none => simp
  | some entry => rfl

/-- A name that is called stays a name or becomes a reference; other nodes stay what they are
but for the statements of blocks. -/
theorem found_inlined (a : Arena) (aliases : List NodeId) (id : NodeId) :
    (∃ statements, a.get? id = some (.block statements) ∧
      (a.inlined aliases).get? id = some (.block (statements.filter (· ∉ aliases)))) ∨
    (∃ name reference integration, a.get? id = some (.identifier name) ∧
      (a.inlined aliases).get? id = some (.reference reference integration) ∧
      a.isCallee id = true ∧ a.refersTo aliases id = true) ∨
    (a.inlined aliases).get? id = a.get? id := by
  rw [get?_inlined]
  cases hn : a.get? id with
  | none => exact .inr (.inr rfl)
  | some node =>
    cases node with
    | block statements => exact .inl ⟨statements, rfl, rfl⟩
    | identifier name =>
      simp only [Option.map_some, inlinedNode]
      split
      · next hcalled =>
        obtain ⟨hcallee, hrefers⟩ := Bool.and_eq_true_iff.mp hcalled
        split
        · next reference integration _ =>
          exact .inr (.inl ⟨name, reference, integration, rfl, rfl, hcallee, hrefers⟩)
        · exact .inr (.inr rfl)
      · exact .inr (.inr rfl)
    | _ => exact .inr (.inr rfl)

/-- So questions that tell neither statements nor names apart have the same answer. -/
theorem apply_inlined (a : Arena) (aliases : List NodeId) (id : NodeId) {β : Type}
    (f : Option Node → β)
    (hblock : ∀ statements statements',
      f (some (.block statements)) = f (some (.block statements')))
    (hname : ∀ name reference integration,
      f (some (.reference reference integration)) = f (some (.identifier name))) :
    f ((a.inlined aliases).get? id) = f (a.get? id) := by
  rcases a.found_inlined aliases id with ⟨_, hn, hn'⟩ | ⟨_, _, _, hn, hn', -⟩ | hsame
  · rw [hn, hn']
    exact hblock _ _
  · rw [hn, hn']
    exact hname _ _ _
  · rw [hsame]

/-- Nodes of most kinds are the same in both arenas. -/
theorem get?_inlined_iff (h : node.isLasting = true) :
    (a.inlined aliases).get? id = some node ↔ a.get? id = some node := by
  rcases a.found_inlined aliases id with ⟨statements, hn, hn'⟩ | ⟨_, _, _, hn, hn', -⟩ | hsame
  · rw [hn, hn']
    constructor <;> rintro heq <;> cases heq <;> cases h
  · rw [hn, hn']
    constructor <;> rintro heq <;> cases heq <;> cases h
  · rw [hsame]

/-- A node without aliases has the same parts, but for aliases in blocks. -/
theorem mem_children_inlinedNode : part ∈ (a.inlinedNode aliases id node).children ↔
    part ∈ node.children ∧ ((∃ statements, node = .block statements) → part ∉ aliases) := by
  cases node with
  | block statements => simp [inlinedNode, Node.children]
  | identifier name =>
    simp only [inlinedNode]
    split
    · split <;> simp [Node.children]
    · simp [Node.children]
  | _ => simp [inlinedNode]

/-! ### Where names of aliases stand -/

namespace Grown

/-- Inside of parentheses there are no more of them. -/
theorem unwrapParens_idem (ha : a.Grown) (id : NodeId) :
    a.unwrapParens (a.unwrapParens id) = a.unwrapParens id :=
  unwrapParens_of_not_paren (ha.get?_unwrapParens_ne_paren id)

/-- Of two nodes with the same inside their parentheses, the older one stands in parentheses
that the younger one goes through. -/
theorem paren_of_unwrapParens_eq (ha : a.Grown) {outer inner : NodeId}
    (h : a.unwrapParens outer = a.unwrapParens inner)
    (hsize : (a.unwrapParens inner).index < a.size) (hlt : inner.index < outer.index) :
    ∃ around, a.get? around = some (.paren inner) ∧ around.index ≤ outer.index := by
  induction hk : outer.index + inner.index using Nat.strongRecOn generalizing outer inner with
  | ind k ih =>
    by_cases hparen : ∃ expr, a.get? outer = some (.paren expr)
    · obtain ⟨expr, hn⟩ := hparen
      rw [ha.unwrapParens_of_paren hn] at h
      have hexpr : expr.index < a.size := lt_size_of_unwrapParens (h ▸ hsize)
      have hl : a.Lists outer expr := ⟨_, hn, List.mem_singleton.mpr rfl⟩
      have holder := ha.older hl hexpr
      rcases Nat.lt_trichotomy inner.index expr.index with hbelow | hsame | habove
      · obtain ⟨around, haround, hle⟩ := ih _ (by omega) h hsize hbelow rfl
        exact ⟨around, haround, by omega⟩
      · obtain rfl : inner = expr := by cases inner; cases expr; simp_all
        exact ⟨outer, hn, le_rfl⟩
      · -- the parentheses around what is inside the outer ones are the outer ones
        obtain ⟨around, haround, hle⟩ := ih _ (by omega) h.symm (h ▸ hsize) habove rfl
        have hparent := ha.adopted ⟨_, haround, List.mem_singleton.mpr rfl⟩ hexpr
        rw [ha.adopted hl hexpr] at hparent
        cases hparent
        omega
    · rw [unwrapParens_of_not_paren (not_exists.mp hparen)] at h
      have hle := ha.unwrapParens_le hsize
      rw [← h] at hle
      omega

/-- A node stands in parentheses only if they are its parent. -/
theorem not_paren_of_lists (ha : a.Grown) (hn : a.get? parent = some node)
    (hm : part ∈ node.children) (hsize : part.index < a.size) (hnode : ∀ expr, node ≠ .paren expr)
    (around : NodeId) : a.get? around ≠ some (.paren part) := by
  intro haround
  have hparent := ha.adopted ⟨_, haround, List.mem_singleton.mpr rfl⟩ hsize
  rw [ha.adopted ⟨node, hn, hm⟩ hsize] at hparent
  cases hparent
  exact hnode part (Option.some.inj (hn.symm.trans haround))

/-- Two nodes that stand in no parentheses and have the same inside them are one. -/
theorem eq_of_unwrapParens_eq (ha : a.Grown) {first second : NodeId}
    (h : a.unwrapParens first = a.unwrapParens second)
    (hsize : (a.unwrapParens second).index < a.size)
    (hfirst : ∀ around, a.get? around ≠ some (.paren first))
    (hsecond : ∀ around, a.get? around ≠ some (.paren second)) : first = second := by
  rcases Nat.lt_trichotomy first.index second.index with hlt | heq | hlt
  · obtain ⟨around, haround, -⟩ := ha.paren_of_unwrapParens_eq h.symm (h ▸ hsize) hlt
    exact absurd haround (hfirst around)
  · cases first
    cases second
    simp_all
  · obtain ⟨around, haround, -⟩ := ha.paren_of_unwrapParens_eq h hsize hlt
    exact absurd haround (hsecond around)

/-- A part stands within the node that lists it. -/
theorem isWithin_of_lists (ha : a.Grown) (hl : a.Lists parent part) (hsize : part.index < a.size) :
    a.isWithin parent part = true := by
  rw [ha.isWithin_of_parent? (ha.adopted hl hsize), isWithin_self, Bool.or_true]

end Grown

/-- A name of an alias is a node of the arena. -/
theorem lt_size_of_refersTo (h : a.refersTo aliases id = true) : id.index < a.size := by
  obtain ⟨declaration, -, hl⟩ := refersTo_iff.mp h
  by_contra hge
  have hnone := get?_eq_none_iff.mpr (Nat.le_of_not_lt hge)
  simp [lookup, hnone] at hl

namespace OnlyCalled

/-- Only the nodes that there are need to be looked through for names of aliases. -/
theorem of_handles (halias : ∀ declaration ∈ aliases, a.IsAlias declaration)
    (hall : (a.handles.all fun id => !a.refersTo aliases id || a.mayName aliases id) = true) :
    a.OnlyCalled aliases where
  isAlias hd := halias _ hd
  uses {id} hrefers := by
    have hid := List.all_eq_true.mp hall id (mem_handles_iff.mpr (lt_size_of_refersTo hrefers))
    simpa [hrefers] using hid

/-- Outside of aliases a name of one is called, or is a key that does not change over to a
parameter. -/
theorem position (h : a.OnlyCalled aliases) (ha : a.Grown) (hout : a.Outside aliases part)
    (hrefers : a.refersTo aliases (a.unwrapParens part) = true)
    (htop : ∀ around, a.get? around ≠ some (.paren part)) :
    (∃ call args, a.get? call = some (.call part args)) ∨
      ∃ parent node, a.get? parent = some node ∧ node.key? = some part ∧
        a.unwrapParens part = part ∧ (a.inlined aliases).namesParameter part = false := by
  have hsize := lt_size_of_refersTo hrefers
  have hinside := ha.unwrapParens_idem part
  -- whatever else holds the name in parentheses is listed where the name is used
  have heq : ∀ {other parent : NodeId} {node : Node}, a.unwrapParens other = a.unwrapParens part →
      a.get? parent = some node → other ∈ node.children → (∀ expr, node ≠ .paren expr) →
      other = part ∧ a.isWithin parent part = true := by
    intro other parent node hother hn hm hnode
    have hsize' := lt_size_of_unwrapParens (hother ▸ hsize)
    have heq := ha.eq_of_unwrapParens_eq hother hsize
      (ha.not_paren_of_lists hn hm hsize' hnode) htop
    exact ⟨heq, heq ▸ ha.isWithin_of_lists ⟨node, hn, hm⟩ hsize'⟩
  rcases mayName_iff.mp (h.uses hrefers) with
    hbinding | hcallee | ⟨declaration, hd, hinitial⟩ | ⟨hkey, hnames⟩
  · obtain ⟨declaration, hd, hl⟩ := refersTo_iff.mp hrefers
    obtain ⟨parent, hp, hbound⟩ := Grown.isBindingName_iff.mp hbinding
    obtain ⟨name, _, hname, -⟩ := ha.binds_of_lookup hl
    rw [lookup_of_isBindingName hname hbinding, hp] at hl
    cases hl
    obtain ⟨node, hn, hnode⟩ := Option.bind_eq_some_iff.mp hbound
    have hwithin := (heq hinside hn (Node.mem_children_of_bound? hnode)
      (by rintro expr rfl; cases hnode)).2
    rw [hout _ hd] at hwithin
    cases hwithin
  · obtain ⟨call, callee, args, hn, hcallee⟩ := isCallee_iff.mp hcallee
    obtain ⟨rfl, -⟩ := heq hcallee hn List.mem_cons_self (by simp)
    exact .inl ⟨call, args, hn⟩
  · unfold initial? at hinitial
    split at hinitial
    · next kind name value hn =>
      obtain ⟨value, rfl, hvalue⟩ := Option.map_eq_some_iff.mp hinitial
      have hwithin := (heq hvalue hn (by simp [Node.children]) (by simp)).2
      rw [hout _ hd] at hwithin
      cases hwithin
    · cases hinitial
  · obtain ⟨parent, node, hn, hkey⟩ := isKey_iff.mp hkey
    obtain ⟨hsame, -⟩ := heq hinside hn (Node.mem_children_of_key? hkey)
      (by rintro expr rfl; cases hkey)
    rw [hsame] at hkey hnames
    exact .inr ⟨parent, node, hn, hkey, hsame, hnames⟩

/-- Only blocks list aliases. -/
theorem block_of_lists (h : a.OnlyCalled aliases) (ha : a.Grown) (hd : declaration ∈ aliases)
    (hl : a.Lists parent declaration) : ∃ statements, a.get? parent = some (.block statements) := by
  obtain ⟨kind, name, value, text, hn, -⟩ := (h.isAlias hd).declares
  obtain ⟨block, statements, hblock, hm⟩ := (h.isAlias hd).listed
  have hparent := ha.adopted ⟨_, hblock, hm⟩ (lt_size_of_get? hn)
  rw [ha.adopted hl (lt_size_of_get? hn)] at hparent
  cases hparent
  exact ⟨statements, hblock⟩

/-- Lists are the same but for the aliases in blocks. -/
theorem lists_inlined_iff (h : a.OnlyCalled aliases) (ha : a.Grown) :
    (a.inlined aliases).Lists parent part ↔ a.Lists parent part ∧ part ∉ aliases := by
  constructor
  · rintro ⟨node', hn', hm⟩
    rw [get?_inlined] at hn'
    obtain ⟨node, hn, rfl⟩ := Option.map_eq_some_iff.mp hn'
    obtain ⟨hm, hblock⟩ := mem_children_inlinedNode.mp hm
    refine ⟨⟨node, hn, hm⟩, fun hd => ?_⟩
    obtain ⟨statements, hstatements⟩ := h.block_of_lists ha hd ⟨node, hn, hm⟩
    exact hblock ⟨statements, Option.some.inj (hn.symm.trans hstatements)⟩ hd
  · rintro ⟨⟨node, hn, hm⟩, hnot⟩
    have hn' : (a.inlined aliases).get? parent = some (a.inlinedNode aliases parent node) := by
      rw [get?_inlined, hn]
      rfl
    exact ⟨_, hn', mem_children_inlinedNode.mpr ⟨hm, fun _ => hnot⟩⟩

/-- Without the aliases the arena is still one that was built from the leaves up. -/
theorem grown_inlined (h : a.OnlyCalled aliases) (ha : a.Grown) : (a.inlined aliases).Grown where
  older hl hlt := ha.older ((h.lists_inlined_iff ha).mp hl).1 (by simpa using hlt)
  adopted hl hlt := by
    obtain ⟨hl, hnot⟩ := (h.lists_inlined_iff ha).mp hl
    rw [parent?_inlined, if_neg hnot]
    exact ha.adopted hl (by simpa using hlt)
  lists hp := by
    rw [parent?_inlined] at hp
    split at hp
    · cases hp
    · next hnot => exact (h.lists_inlined_iff ha).mpr ⟨ha.lists hp, hnot⟩
  once {parent child node'} hn' hm hlt := by
    have hnot := ((h.lists_inlined_iff ha).mp ⟨node', hn', hm⟩).2
    rw [get?_inlined] at hn'
    obtain ⟨node, hn, rfl⟩ := Option.map_eq_some_iff.mp hn'
    have hmem := (mem_children_inlinedNode.mp hm).1
    have hcount := ha.once hn hmem (by simpa using hlt)
    cases node with
    | block statements =>
      show (statements.filter (· ∉ aliases)).count child = 1
      rw [List.count_filter (by simpa using hnot)]
      exact hcount
    | identifier name => cases hmem
    | _ => exact hcount

/-- An alias is a declaration. -/
theorem not_mem_of_get? (h : a.OnlyCalled aliases) (hn : a.get? id = some node)
    (hnode : ∀ kind name value, node ≠ .declaration kind name value) : id ∉ aliases := by
  intro hd
  obtain ⟨kind, name, value, text, hd, -⟩ := (h.isAlias hd).declares
  exact hnode kind name _ (Option.some.inj (hn.symm.trans hd))

end OnlyCalled

/-! ### Outside of aliases -/

namespace Outside

/-- An alias stands within itself, so it is not outside. -/
theorem not_mem (hid : a.Outside aliases id) : id ∉ aliases := by
  intro hd
  have hself := hid id hd
  rw [Grown.isWithin_self] at hself
  cases hself

/-- Around what is outside there is no alias. -/
theorem of_parent? (ha : a.Grown) (hid : a.Outside aliases id) (hp : a.parent? id = some parent) :
    a.Outside aliases parent := by
  intro declaration hd
  have hwithin := hid declaration hd
  rw [ha.isWithin_of_parent? hp, Bool.or_eq_false_iff] at hwithin
  exact hwithin.2

/-- The parts of a node outside are outside, but for aliases themselves. -/
theorem of_lists (ha : a.Grown) (hid : a.Outside aliases id) (hl : a.Lists id part)
    (hnot : part ∉ aliases) : a.Outside aliases part := by
  intro declaration hd
  have hne : (part == declaration) = false := beq_eq_false_iff_ne.mpr fun heq => hnot (heq ▸ hd)
  by_cases hsize : part.index < a.size
  · rw [ha.isWithin_of_parent? (ha.adopted hl hsize), hne, hid declaration hd]
    rfl
  · have horphan : a.parent? part = none := by
      cases hp : a.parent? part with
      | none => rfl
      | some parent => exact absurd (lt_size_of_parent? hp) hsize
    rw [ha.isWithin_of_orphan horphan, hne]

/-- So is what has a way down to it that goes through no alias. -/
theorem of_below_inlined (h : a.OnlyCalled aliases) (ha : a.Grown) (hid : a.Outside aliases id)
    (hbelow : (a.inlined aliases).Below id part) : a.Outside aliases part ∧ a.Below id part := by
  induction hbelow with
  | self => exact ⟨hid, .self _⟩
  | part hl _ ih =>
    obtain ⟨hl, hnot⟩ := (h.lists_inlined_iff ha).mp hl
    obtain ⟨hout, hbelow⟩ := ih (hid.of_lists ha hl hnot)
    exact ⟨hout, .part hl hbelow⟩

/-- And below a node there is such a way to all that is outside. -/
theorem below_inlined (h : a.OnlyCalled aliases) (ha : a.Grown) (hbelow : a.Below id part)
    (hsize : part.index < a.size) (hpart : a.Outside aliases part) :
    (a.inlined aliases).Below id part := by
  induction hbelow with
  | self => exact .self _
  | @part id inner part hl hbelow ih =>
    refine .part ((h.lists_inlined_iff ha).mpr ⟨hl, fun hd => ?_⟩) (ih hsize hpart)
    have hwithin := ha.isWithin_of_below hbelow hsize (Grown.isWithin_self a inner)
    rw [hpart inner hd] at hwithin
    cases hwithin

end Outside

namespace OnlyCalled

section

variable (h : a.OnlyCalled aliases) (ha : a.Grown)

include h ha

/-- The nodes around one that is outside keep their parents. -/
theorem ancestors_inlined (hid : a.Outside aliases id) :
    (a.inlined aliases).ancestors id = a.ancestors id := by
  have ha' := h.grown_inlined ha
  induction id using ha.induction_to_root with
  | root id hp =>
    have hp' : (a.inlined aliases).parent? id = none := by
      rw [parent?_inlined, hp, ite_self]
    rw [ha.ancestors_of_orphan hp, ha'.ancestors_of_orphan hp']
  | step child parent hp ih =>
    have hp' : (a.inlined aliases).parent? child = some parent := by
      rw [parent?_inlined, if_neg hid.not_mem, hp]
    rw [ha.ancestors_of_parent? hp, ha'.ancestors_of_parent? hp', ih (hid.of_parent? ha hp)]

end

end OnlyCalled

/-! ### Inside of aliases -/

/-- The integration of a callee is that of what is inside its parentheses, or of the initial
value of the declaration it refers to. -/
theorem Grown.resolveIntegration_eq (ha : a.Grown) (callee : NodeId) :
    a.resolveIntegration callee = a.resolveIntegrationRound a.resolveIntegration callee := by
  have hdeeper : a.resolveIntegrationWithin a.size = a.resolveIntegration :=
    funext fun id => ha.resolveIntegration_descends.within_eq (a.sourceRank_le_size _)
      (a.aliasRank_le_succ_size id)
  show a.resolveIntegrationWithin (a.size + 1) callee = _
  rw [ha.resolveIntegration_descends.unfolds, hdeeper]

/-- A callee in parentheses refers to what it refers to without them. -/
theorem Grown.resolveIntegration_unwrapParens (ha : a.Grown) (callee : NodeId) :
    a.resolveIntegration (a.unwrapParens callee) = a.resolveIntegration callee := by
  rw [ha.resolveIntegration_eq, ha.resolveIntegration_eq callee]
  unfold resolveIntegrationRound
  rw [ha.unwrapParens_idem]

/-- At the end of all names there is a reference if there is an integration. -/
theorem exists_reference_origin {integration : IntegrationId}
    (h : a.resolveIntegration callee = some integration) :
    ∃ name, a.get? (a.origin callee) = some (.reference name (some integration)) := by
  have hwithin : ∀ (n : Nat) {callee : NodeId},
      a.resolveIntegrationWithin n callee = some integration →
        ∃ name, a.get? (a.originWithin n callee) = some (.reference name (some integration)) := by
    intro n
    induction n with
    | zero => exact fun h => nomatch h
    | succ n ih =>
      intro callee h
      simp only [resolveIntegrationWithin] at h
      split at h
      · next name found hn =>
        subst h
        have hl : a.lookup (a.unwrapParens callee) = none :=
          lookup_of_not_identifier (by simp [hn])
        have horigin : a.originWithin (n + 1) callee = a.unwrapParens callee := by
          simp only [originWithin, hl, Option.bind_none]
        exact ⟨name, by rw [horigin, hn]⟩
      · split at h
        · next kind name value hl =>
          have horigin : a.originWithin (n + 1) callee = a.originWithin n value := by
            simp only [originWithin, hl]
          rw [horigin]
          exact ih h
        · cases h
      · cases h
  exact hwithin _ h

/-- The value of an alias is a reference with an integration, or a name that is declared with
a value. -/
theorem IsAlias.initial (h : a.IsAlias declaration) :
    ∃ kind name value text, a.get? declaration = some (.declaration kind name (some value)) ∧
      a.get? name = some (.identifier text) ∧
      ((∃ reference integration, a.get? (a.unwrapParens value) =
          some (.reference reference (some integration))) ∨
        ∃ used kind' name' value', a.get? (a.unwrapParens value) = some (.identifier used) ∧
          (a.lookup (a.unwrapParens value)).bind a.get? =
            some (.declaration kind' name' (some value'))) := by
  obtain ⟨kind, name, value, text, hn, hname, hvalue⟩ := h.declares
  refine ⟨kind, name, value, text, hn, hname, ?_⟩
  simp only [resolveIntegration, resolveIntegrationWithin] at hvalue
  split at hvalue
  · next reference integration hreference =>
    cases integration with
    | none => cases hvalue
    | some integration => exact .inl ⟨reference, integration, hreference⟩
  · next used hused =>
    split at hvalue
    · next kind' name' value' hl => exact .inr ⟨used, kind', name', value', hused, hl⟩
    · cases hvalue
  · cases hvalue

/-- Below parentheses around a leaf there is nothing but the leaf and parentheses. -/
theorem Grown.eq_or_paren_of_below (ha : a.Grown) {expr inner : NodeId}
    (hleaf : ∀ part, ¬ a.Lists (a.unwrapParens expr) part) (hbelow : a.Below expr inner) :
    inner = a.unwrapParens expr ∨ ∃ part, a.get? inner = some (.paren part) := by
  induction expr using ha.induction_through_parens with
  | plain expr hplain =>
    rw [unwrapParens_of_not_paren hplain] at hleaf ⊢
    cases hbelow with
    | self => exact .inl rfl
    | part hl _ => exact absurd hl (hleaf _)
  | paren expr content hn ih =>
    rw [ha.unwrapParens_of_paren hn] at hleaf ⊢
    cases hbelow with
    | self => exact .inr ⟨content, hn⟩
    | part hl hbelow =>
      obtain rfl := List.mem_singleton.mp (hl.mem_children hn)
      exact ih hleaf hbelow

/-- What an alias is made of: the declaration itself, its name, parentheses around its value,
and the value, which is a reference or the name of a declaration. -/
theorem IsAlias.within_cases (h : a.IsAlias declaration) (ha : a.Grown)
    (hwithin : a.isWithin declaration id = true) (hn : a.get? id = some node) :
    id = declaration ∨ (∃ expr, node = .paren expr) ∨
      (∃ reference integration, node = .reference reference integration) ∨
      ∃ name, node = .identifier name ∧
        (a.lookup id = some declaration ∨ ∃ kind name value,
          (a.lookup id).bind a.get? = some (.declaration kind name (some value))) := by
  obtain ⟨kind, name, value, text, hd, hname, hvalue⟩ := h.initial
  have hbelow := ha.below_of_isWithin hwithin
  cases hbelow with
  | self => exact .inl rfl
  | @part _ part _ hl hbelow =>
    have hm := hl.mem_children hd
    simp only [Node.children, Option.toList_some, List.mem_cons, List.not_mem_nil, or_false] at hm
    rcases hm with rfl | rfl
    · -- the name has no parts
      obtain rfl : part = id := by
        cases hbelow with
        | self => rfl
        | part hl _ => cases hl.mem_children hname
      cases Option.some.inj (hn.symm.trans hname)
      have hparent := ha.adopted ⟨_, hd, List.mem_cons_self⟩ (lt_size_of_get? hname)
      refine .inr (.inr (.inr ⟨text, rfl, .inl ?_⟩))
      exact Grown.lookup_of_binds ⟨hname, by rw [hd]; rfl, hparent⟩
    -- the value has no parts, so only parentheses are in between
    · have hleaf : ∀ inner, ¬ a.Lists (a.unwrapParens part) inner := by
        rintro inner ⟨node, hnode, hm⟩
        rcases hvalue with ⟨_, _, hreference⟩ | ⟨_, _, _, _, hused, -⟩
        · cases Option.some.inj (hreference.symm.trans hnode)
          cases hm
        · cases Option.some.inj (hused.symm.trans hnode)
          cases hm
      rcases ha.eq_or_paren_of_below hleaf hbelow with rfl | ⟨expr, hparen⟩
      · rcases hvalue with
          ⟨reference, integration, hreference⟩ | ⟨used, kind, name, value, hused, hl⟩
        · exact .inr (.inr (.inl ⟨reference, _, Option.some.inj (hn.symm.trans hreference)⟩))
        · exact .inr (.inr (.inr ⟨used, Option.some.inj (hn.symm.trans hused),
            .inr ⟨kind, name, value, hl⟩⟩))
      · exact .inr (.inl ⟨expr, Option.some.inj (hn.symm.trans hparen)⟩)

namespace OnlyCalled

/-- No other node stands in an alias. -/
theorem outside_of_get? (h : a.OnlyCalled aliases) (ha : a.Grown) (hn : a.get? id = some node)
    (hnot : id ∉ aliases) (hparen : ∀ expr, node ≠ .paren expr)
    (hreference : ∀ reference integration, node ≠ .reference reference integration)
    (hname : ∀ name, node ≠ .identifier name) : a.Outside aliases id := by
  intro declaration hd
  by_contra hwithin
  rcases (h.isAlias hd).within_cases ha (eq_true_of_ne_false hwithin) hn with
    rfl | ⟨_, rfl⟩ | ⟨_, _, rfl⟩ | ⟨_, rfl, -⟩
  · exact hnot hd
  · exact hparen _ rfl
  · exact hreference _ _ rfl
  · exact hname _ rfl

/-- So what binds a name stands outside of aliases, or is one. -/
theorem outside_of_bound (h : a.OnlyCalled aliases) (ha : a.Grown)
    (hbound : (a.get? declaration).bind Node.bound? = some part) (hnot : declaration ∉ aliases) :
    a.Outside aliases declaration := by
  obtain ⟨node, hn, hbound⟩ := Option.bind_eq_some_iff.mp hbound
  apply h.outside_of_get? ha hn hnot <;> intros <;> rintro rfl <;> cases hbound

/-- Where the name of an alias is called, a reference to its integration is called instead. -/
theorem called_inlined (h : a.OnlyCalled aliases) (ha : a.Grown) (hcallee : a.isCallee id = true)
    (hrefers : a.refersTo aliases id = true) :
    ∃ name integration, (a.inlined aliases).get? id = some (.reference name (some integration)) ∧
      a.resolveIntegration id = some integration := by
  obtain ⟨declaration, hd, hl⟩ := refersTo_iff.mp hrefers
  obtain ⟨used, -, hused, -⟩ := ha.binds_of_lookup hl
  obtain ⟨kind, name, value, text, hn, -, hvalue⟩ := (h.isAlias hd).declares
  have hself : a.unwrapParens id = id := unwrapParens_of_not_paren (by simp [hused])
  obtain ⟨integration, hintegration⟩ := Option.isSome_iff_exists.mp hvalue
  have hresolved : a.resolveIntegration id = some integration := by
    rw [ha.resolveIntegration_eq, resolveIntegrationRound, hself, hused, hl]
    simp only [Option.bind_some, hn, hintegration]
  obtain ⟨reference, horigin⟩ := exists_reference_origin hresolved
  refine ⟨reference, integration, ?_, hresolved⟩
  rw [get?_inlined, hused]
  simp only [Option.map_some, inlinedNode, hcallee, hrefers, Bool.and_self, if_true, horigin]

end OnlyCalled

end Arena

end ClosureVtl
