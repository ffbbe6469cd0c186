/-
Module: ClosureVtl.Proofs.Closure.Descent
Purpose: Programs built from the leaves up, and the walks that end in them.
Main exports:
  Program.BottomUp, Arena.Grown, Program.BottomUp.grown, Builder.bottomUp_of,
  Arena.Grown.ancestors_eq, Arena.Grown.unwrapParens_eq, Arena.Grown.awaited_eq
-/
import ClosureVtl.Closure.Alias
import ClosureVtl.Proofs.Closure.Adoption

namespace ClosureVtl

/-!
In a program built from the leaves up every child is older than the node that
lists it.  So a walk towards the leaves goes down in the arena, a walk towards the
root goes up, and the bounds that the definitions of walks carry are never met.
The equations below say so: each walk unfolds into one step and the same walk from
there, with no bound left in sight.
-/

/-- A finished program built from the leaves up: each child is an earlier node,
unless its handle leads nowhere. -/
structure Program.BottomUp (p : Program) : Prop where
  finished : ∃ b : Builder, b.Made ∧ b.finish = .ok p
  older : ∀ {parent child : NodeId}, p.arena.Lists parent child →
    child.index < p.arena.size → child.index < parent.index

/-- An arena whose nodes were made from the leaves up and adopted once. -/
structure Arena.Grown (a : Arena) : Prop where
  older : ∀ {parent child : NodeId}, a.Lists parent child → child.index < a.size →
    child.index < parent.index
  adopted : ∀ {parent child : NodeId}, a.Lists parent child → child.index < a.size →
    a.parent? child = some parent
  lists : ∀ {parent child : NodeId}, a.parent? child = some parent → a.Lists parent child
  once : ∀ {parent child : NodeId} {node : Node}, a.get? parent = some node →
    child ∈ node.children → child.index < a.size → node.children.count child = 1

/-- Building from the leaves up grows an arena. -/
theorem Program.BottomUp.grown {p : Program} (hp : p.BottomUp) : p.arena.Grown := by
  obtain ⟨b, made, hf⟩ := hp.finished
  unfold Builder.finish at hf
  split at hf
  · next hs =>
    cases hf
    have hlisted : ∀ {parent child : NodeId} {node : Node}, b.arena.get? parent = some node →
        child ∈ node.children → child.index < b.arena.size →
        b.arena.parent? child = some parent ∧ node.children.count child = 1 :=
      fun hn hm hlt => made.listed_once hs hn hm (hp.older ⟨_, hn, hm⟩ hlt)
    exact {
      older := hp.older
      adopted := fun ⟨_, hn, hm⟩ hlt => (hlisted hn hm hlt).1
      lists := fun h => (made.parent?_eq_some_iff.mp h).2.1
      once := fun hn hm hlt => (hlisted hn hm hlt).2 }
  · cases hf

namespace Builder

/-- The nodes and integrations of a builder. -/
def program (b : Builder) : Program := { arena := b.arena, integrations := b.integrations }

/-- Whether every node of a list lists earlier nodes only. -/
def descending (nodes : List Node) : Bool :=
  nodes.zipIdx.all fun (node, position) => node.children.all fun child => child.index < position

/-- Nodes that list earlier nodes only, none of them twice, make a program from
the leaves up. -/
theorem bottomUp_of {integrations : List Integration} {nodes : List Node}
    (hd : descending nodes = true) (hs : (of integrations nodes).shared = none) :
    (of integrations nodes).program.BottomUp := by
  constructor
  · refine ⟨of integrations nodes, made_of integrations nodes, ?_⟩
    rw [finish, hs]
    rfl
  · rintro parent child ⟨node, hn, hm⟩ -
    have hget : nodes[parent.index]? = some node := by
      rw [← hn]
      exact get?_of.symm
    have hpair : (node, parent.index) ∈ nodes.zipIdx := List.mk_mem_zipIdx_iff_getElem?.mpr hget
    have hall := List.all_eq_true.mp hd _ hpair
    exact of_decide_eq_true (List.all_eq_true.mp hall child hm)

end Builder

/-- The closure `input => { return input.items.map(({ k: { x } }) => x) }`, which
takes each item apart by a pattern in a pattern. -/
def Program.pluck : Program :=
  (Builder.of []
    [.identifier "x", .binding ⟨0⟩ none none false, .objectPattern [⟨1⟩],
      .identifier "k", .binding ⟨2⟩ (some ⟨3⟩) none false, .objectPattern [⟨4⟩],
      .parameter ⟨5⟩ none, .identifier "x", .function [⟨6⟩] ⟨7⟩,
      .identifier "input", .parameter ⟨9⟩ none, .identifier "input",
      .member ⟨11⟩ "items", .member ⟨12⟩ "map", .argument ⟨8⟩ none, .call ⟨13⟩ [⟨14⟩],
      .returnValue (some ⟨15⟩), .block [⟨16⟩], .function [⟨10⟩] ⟨17⟩]).program

/-- The nodes of the closure are listed with their parts first. -/
theorem Program.bottomUp_pluck : Program.pluck.BottomUp :=
  Builder.bottomUp_of (by decide) (by cbv)

namespace Arena

variable {a : Arena} {id parent child expr : NodeId} {n m : Nat}

/-- A node that is found has a handle within the arena. -/
theorem lt_size_of_get? {node : Node} (h : a.get? id = some node) : id.index < a.size :=
  get?_isSome_iff.mp (by rw [h]; rfl)

/-- A handle leads nowhere exactly if it lies behind the last node. -/
theorem get?_eq_none_iff : a.get? id = none ↔ a.size ≤ id.index := by
  rw [← Nat.not_lt, ← get?_isSome_iff]
  cases a.get? id <;> simp

/-- What holds of all entries holds of every node that a handle leads to. -/
theorem holds_of_all (holds : Node → Bool) {node : Node}
    (hall : a.entries.all (fun entry => holds entry.node) = true) (h : a.get? id = some node) :
    holds node = true := by
  obtain ⟨entry, hentry, rfl⟩ := Option.map_eq_some_iff.mp h
  exact Array.all_eq_true_iff_forall_mem.mp hall entry (Array.mem_of_getElem? hentry)

/-- Whether a bound suffices for walks towards the leaves from a node. -/
def Suffices (a : Arena) (n : Nat) (id : NodeId) : Prop :=
  id.index < n ∨ a.size ≤ id.index

/-- The number of nodes suffices for each of them. -/
theorem suffices_size (a : Arena) (id : NodeId) : a.Suffices a.size id :=
  Nat.lt_or_ge id.index a.size

/-- What suffices does so with any more. -/
theorem Suffices.mono (h : a.Suffices n id) (hnm : n ≤ m) : a.Suffices m id :=
  h.imp_left fun hlt => Nat.lt_of_lt_of_le hlt hnm

/-- A bound that suffices for a node suffices, less one, for its children. -/
theorem Suffices.descend (ha : a.Grown) (h : a.Suffices (n + 1) parent)
    (hl : a.Lists parent child) : a.Suffices n child := by
  have hp := hl.lt_size
  rcases Nat.lt_or_ge child.index a.size with hlt | hge
  · have hc := ha.older hl hlt
    rcases h with h | h
    · exact .inl (by omega)
    · omega
  · exact .inr hge

/-- Whether a node is part of the subtree below another one. -/
inductive Below (a : Arena) : NodeId → NodeId → Prop where
  | self (id : NodeId) : Below a id id
  | part {id part inner : NodeId} (hl : a.Lists id part) (h : Below a part inner) : Below a id inner

/-- A subtree of a subtree is a part of the whole. -/
theorem Below.trans {inner innermost : NodeId} (h : a.Below id inner)
    (hinner : a.Below inner innermost) : a.Below id innermost := by
  induction h with
  | self => exact hinner
  | part hl _ ih => exact .part hl (ih hinner)

/-- What holds of a node and is handed on to parts holds of the whole subtree. -/
theorem Below.hand_on {P : NodeId → Prop} (hparts : ∀ {id part}, P id → a.Lists id part → P part)
    {inner : NodeId} (h : a.Below id inner) (hid : P id) : P inner := by
  induction h with
  | self => exact hid
  | part hl _ ih => exact ih (hparts hid hl)

/-- Whether a node is part of the subtree below another one, and not that one itself. -/
def StrictlyBelow (a : Arena) (id inner : NodeId) : Prop :=
  ∃ part, a.Lists id part ∧ a.Below part inner

/-- What is strictly below a node is below it. -/
theorem StrictlyBelow.below {inner : NodeId} (h : a.StrictlyBelow id inner) : a.Below id inner := by
  obtain ⟨part, hl, hbelow⟩ := h
  exact .part hl hbelow

/-- What is strictly below a part is strictly below the whole. -/
theorem Below.trans_strictly {inner innermost : NodeId} (h : a.Below id inner)
    (hinner : a.StrictlyBelow inner innermost) : a.StrictlyBelow id innermost := by
  cases h with
  | self => exact hinner
  | part hl hbelow => exact ⟨_, hl, hbelow.trans hinner.below⟩

/-- What is in no parentheses is left as it is. -/
theorem unwrapParensWithin_of_not_paren (h : ∀ expr, a.get? id ≠ some (.paren expr)) :
    a.unwrapParensWithin n id = id := by
  cases n with
  | zero => rfl
  | succ n =>
    rw [unwrapParensWithin]
    split
    · next expr hn => exact absurd hn (h expr)
    · rfl

/-- A pair of parentheses is unwrapped to what it holds. -/
theorem unwrapParens_of_not_paren (h : ∀ expr, a.get? id ≠ some (.paren expr)) :
    a.unwrapParens id = id :=
  unwrapParensWithin_of_not_paren h

/-- A handle that leads nowhere is no pair of parentheses, so what is inside it is itself. -/
theorem lt_size_of_unwrapParens (h : (a.unwrapParens id).index < a.size) : id.index < a.size := by
  apply Nat.lt_of_not_le
  intro hge
  rw [unwrapParens_of_not_paren (by simp [get?_eq_none_iff.mpr hge])] at h
  exact Nat.not_lt.mpr hge h

/-- What is inside parentheses is below them. -/
theorem below_unwrapParens (a : Arena) (id : NodeId) : a.Below id (a.unwrapParens id) := by
  have hwithin : ∀ n id, a.Below id (a.unwrapParensWithin n id) := by
    intro n
    induction n with
    | zero => exact fun id => .self id
    | succ n ih =>
      intro id
      rw [unwrapParensWithin]
      split
      · next expr hn => exact .part ⟨_, hn, List.mem_singleton.mpr rfl⟩ (ih expr)
      · exact .self id
  exact hwithin a.size id

/-- So is what an argument stands for. -/
theorem below_argumentExpr (a : Arena) (id : NodeId) : a.Below id (a.argumentExpr id) := by
  unfold argumentExpr
  split
  · next expr name hn =>
    exact .part ⟨_, hn, List.mem_singleton.mpr rfl⟩ (a.below_unwrapParens expr)
  · exact a.below_unwrapParens id

/-! ### Towards the root -/

section

variable (hlt : ∀ {child parent : NodeId}, a.parent? child = some parent →
  child.index < parent.index)

include hlt

/-- The walk goes up in the arena, so two bounds that both reach its end give the same list. -/
private theorem ancestorsWithin_eq (hn : a.size ≤ id.index + n)
    (hm : a.size ≤ id.index + m) : a.ancestorsWithin n id = a.ancestorsWithin m id := by
  -- the bound is met only behind the last node, which has no parent
  have hlast : ∀ {id : NodeId} (k : Nat), a.size ≤ id.index → a.ancestorsWithin k id = [] := by
    intro id k hk
    cases k with
    | zero => rfl
    | succ k =>
      rw [ancestorsWithin]
      cases hp : a.parent? id with
      | none => rfl
      | some parent => exact absurd (lt_size_of_parent? hp) (by omega)
  induction n generalizing m id with
  | zero => rw [hlast 0 (by omega), hlast m (by omega)]
  | succ n ih =>
    cases m with
    | zero => rw [hlast 0 (by omega), hlast (n + 1) (by omega)]
    | succ m =>
      simp only [ancestorsWithin]
      cases hp : a.parent? id with
      | none => rfl
      | some parent =>
        have hlt := hlt hp
        exact congrArg (parent :: ·) (ih (by omega) (by omega))

/-- Where parents are younger than their children, the ancestors of a node are its parent and
the ancestors of that. -/
theorem ancestors_eq_of_lt (id : NodeId) :
    a.ancestors id =
      match a.parent? id with
      | none => []
      | some parent => parent :: a.ancestors parent := by
  have hone : a.ancestors id = a.ancestorsWithin (a.size + 1) id :=
    ancestorsWithin_eq hlt (by omega) (by omega)
  rw [hone, ancestorsWithin]
  rfl

end

namespace Grown

/-- Parents are younger than their children. -/
theorem lt_parent (ha : a.Grown) (h : a.parent? child = some parent) :
    child.index < parent.index :=
  ha.older (ha.lists h) (lt_size_of_parent? h)

theorem parent_lt_size (ha : a.Grown) (h : a.parent? child = some parent) :
    parent.index < a.size :=
  (ha.lists h).lt_size

/-- The ancestors of a node are its parent and the ancestors of that. -/
theorem ancestors_eq (ha : a.Grown) (id : NodeId) :
    a.ancestors id =
      match a.parent? id with
      | none => []
      | some parent => parent :: a.ancestors parent :=
  ancestors_eq_of_lt ha.lt_parent id

theorem ancestors_of_orphan (ha : a.Grown) (h : a.parent? child = none) : a.ancestors child = [] := by
  rw [ha.ancestors_eq, h]

/-- The parent is the nearest of the ancestors. -/
theorem ancestors_of_parent? (ha : a.Grown) (h : a.parent? child = some parent) :
    a.ancestors child = parent :: a.ancestors parent := by
  rw [ha.ancestors_eq child, h]

/-- Around any other there is its parent, and what is around that. -/
theorem parent_mem_ancestors (ha : a.Grown) (hp : a.parent? child = some parent) :
    parent ∈ a.ancestors child := by
  rw [ha.ancestors_of_parent? hp]
  exact List.mem_cons_self

/-- Whatever is around the parent of a node is around the node. -/
theorem mem_ancestors_of_parent? (ha : a.Grown) (hp : a.parent? child = some parent)
    (hm : id ∈ a.ancestors parent) : id ∈ a.ancestors child := by
  rw [ha.ancestors_of_parent? hp]
  exact List.mem_cons_of_mem _ hm

/-! ### Through parentheses -/

/-- Both bounds suffice, so both walks stop at the first node that is no pair of parentheses. -/
private theorem unwrapParensWithin_eq (ha : a.Grown) (hn : a.Suffices n id)
    (hm : a.Suffices m id) : a.unwrapParensWithin n id = a.unwrapParensWithin m id := by
  have hnone : ∀ {id : NodeId} (k : Nat), a.size ≤ id.index → a.unwrapParensWithin k id = id := by
    intro id k hk
    cases k with
    | zero => rfl
    | succ k => rw [unwrapParensWithin, get?_eq_none_iff.mpr hk]
  induction n generalizing m id with
  | zero =>
    have hid : a.size ≤ id.index := hn.resolve_left (Nat.not_lt_zero _)
    rw [hnone 0 hid, hnone m hid]
  | succ n ih =>
    cases m with
    | zero =>
      have hid : a.size ≤ id.index := hm.resolve_left (Nat.not_lt_zero _)
      rw [hnone 0 hid, hnone (n + 1) hid]
    | succ m =>
      simp only [unwrapParensWithin]
      split
      · next expr hp =>
        have hl : a.Lists id expr := ⟨_, hp, List.mem_singleton.mpr rfl⟩
        exact ih (hn.descend ha hl) (hm.descend ha hl)
      · rfl

/-- What stands in parentheses is unwrapped in turn; anything else stays. -/
theorem unwrapParens_eq (ha : a.Grown) (id : NodeId) :
    a.unwrapParens id =
      match a.get? id with
      | some (.paren expr) => a.unwrapParens expr
      | _ => id := by
  have hone : a.unwrapParens id = a.unwrapParensWithin (a.size + 1) id :=
    ha.unwrapParensWithin_eq (a.suffices_size id) ((a.suffices_size id).mono (Nat.le_succ _))
  rw [hone, unwrapParensWithin]
  rfl

theorem unwrapParens_of_paren (ha : a.Grown) (h : a.get? id = some (.paren expr)) :
    a.unwrapParens id = a.unwrapParens expr := by
  rw [ha.unwrapParens_eq, h]

/-- What holds of nodes that are no parentheses and is handed on to parentheses around holds
of all nodes. -/
@[elab_as_elim]
theorem induction_through_parens (ha : a.Grown) {motive : NodeId → Prop}
    (plain : ∀ id, (∀ expr, a.get? id ≠ some (.paren expr)) → motive id)
    (paren : ∀ id expr, a.get? id = some (.paren expr) → motive expr → motive id)
    (id : NodeId) : motive id := by
  induction hk : id.index using Nat.strongRecOn generalizing id with
  | ind k ih =>
    by_cases hparen : ∃ expr, a.get? id = some (.paren expr)
    · obtain ⟨expr, hn⟩ := hparen
      refine paren id expr hn ?_
      rcases Nat.lt_or_ge expr.index a.size with hlt | hge
      · exact ih expr.index (hk ▸ ha.older ⟨_, hn, List.mem_singleton.mpr rfl⟩ hlt) expr rfl
      · exact plain expr fun inner => by simp [get?_eq_none_iff.mpr hge]
    · exact plain id (not_exists.mp hparen)

/-- No parentheses are left. -/
theorem get?_unwrapParens_ne_paren (ha : a.Grown) (id expr : NodeId) :
    a.get? (a.unwrapParens id) ≠ some (.paren expr) := by
  induction id using ha.induction_through_parens with
  | plain id hplain =>
    rw [unwrapParens_of_not_paren hplain]
    exact hplain expr
  | paren id inner hn ih => rwa [ha.unwrapParens_of_paren hn]

/-- What is inside parentheses is no younger than they are, if it exists. -/
theorem unwrapParens_le (ha : a.Grown) (h : (a.unwrapParens id).index < a.size) :
    (a.unwrapParens id).index ≤ id.index := by
  induction id using ha.induction_through_parens with
  | plain id hplain =>
    exact Nat.le_of_eq (congrArg NodeId.index (unwrapParens_of_not_paren hplain))
  | paren id expr hn ih =>
    rw [ha.unwrapParens_of_paren hn] at h ⊢
    rcases Nat.lt_or_ge expr.index a.size with hlt | hge
    · have holder := ha.older ⟨_, hn, List.mem_singleton.mpr rfl⟩ hlt
      have hle := ih h
      omega
    · have hnone := get?_eq_none_iff.mpr hge
      rw [unwrapParens_of_not_paren (by simp [hnone])] at h
      omega

/-- Also without its parentheses a child is older than the node that lists it. -/
theorem unwrapParens_lt (ha : a.Grown) (hl : a.Lists parent child)
    (h : (a.unwrapParens child).index < a.size) :
    (a.unwrapParens child).index < parent.index := by
  have hle := ha.unwrapParens_le h
  rcases Nat.lt_or_ge child.index a.size with hlt | hge
  · have holder := ha.older hl hlt
    omega
  · have hnone := get?_eq_none_iff.mpr hge
    rw [unwrapParens_of_not_paren (by simp [hnone])] at h
    omega

/-! ### Through awaiting and promises -/

/-- The expression that a node passes on as it is: in parentheses, awaited, or
promised. -/
def passedOn : Node → Option NodeId
  | .paren expr | .await expr | .promise expr => some expr
  | _ => none

/-- From a handle that leads nowhere the walk stays where it is. -/
private theorem awaitedWithin_dangling (n : Nat) (h : a.size ≤ id.index) :
    a.awaitedWithin n id = id := by
  cases n with
  | zero => rfl
  | succ n =>
    have hid : a.unwrapParens id = id := by
      unfold unwrapParens
      cases a.size with
      | zero => rfl
      | succ k => rw [unwrapParensWithin, get?_eq_none_iff.mpr h]
    rw [awaitedWithin]
    simp only [hid, get?_eq_none_iff.mpr h]

/-- The induction is on the node; parentheses in front of an awaited value belong to the same
round. -/
private theorem awaitedWithin_eq (ha : a.Grown) (hn : a.Suffices n id) (hm : a.Suffices m id) :
    a.awaitedWithin n id = a.awaitedWithin m id := by
  induction hk : id.index using Nat.strongRecOn generalizing n m id with
  | ind k ih =>
    rcases Nat.lt_or_ge id.index a.size with hlt | hge
    · obtain ⟨n, rfl⟩ := Nat.exists_eq_succ_of_ne_zero (n := n) (by rcases hn with h | h <;> omega)
      obtain ⟨m, rfl⟩ := Nat.exists_eq_succ_of_ne_zero (n := m) (by rcases hm with h | h <;> omega)
      -- behind a part the induction goes on, if there is such a part
      have hstep : ∀ {expr : NodeId} {n m : Nat}, a.Lists id expr → a.Suffices n expr →
          a.Suffices m expr → a.awaitedWithin n expr = a.awaitedWithin m expr := by
        intro expr n m hl hn hm
        rcases Nat.lt_or_ge expr.index a.size with hlt | hge
        · exact ih expr.index (hk ▸ ha.older hl hlt) hn hm rfl
        · rw [awaitedWithin_dangling n hge, awaitedWithin_dangling m hge]
      by_cases hp : ∃ expr, a.get? id = some (.paren expr)
      · obtain ⟨expr, hp⟩ := hp
        have hl : a.Lists id expr := ⟨_, hp, List.mem_singleton.mpr rfl⟩
        have hun := ha.unwrapParens_of_paren hp
        have hwide : ∀ {n : Nat}, a.Suffices n expr → a.Suffices (n + 1) expr :=
          fun h => h.mono (Nat.le_succ _)
        have heq := hstep hl (hwide (hn.descend ha hl)) (hwide (hm.descend ha hl))
        rw [awaitedWithin, awaitedWithin] at heq ⊢
        rw [hun]
        exact heq
      · have hid := unwrapParens_of_not_paren fun expr h => hp ⟨expr, h⟩
        rw [awaitedWithin, awaitedWithin]
        simp only [hid]
        split
        · next expr h =>
          have hl : a.Lists id expr := ⟨_, h, List.mem_singleton.mpr rfl⟩
          exact hstep hl (hn.descend ha hl) (hm.descend ha hl)
        · next expr h =>
          have hl : a.Lists id expr := ⟨_, h, List.mem_singleton.mpr rfl⟩
          exact hstep hl (hn.descend ha hl) (hm.descend ha hl)
        · rfl
    · rw [awaitedWithin_dangling n hge, awaitedWithin_dangling m hge]

/-- What is passed on is awaited in turn; anything else stays. -/
theorem awaited_eq (ha : a.Grown) (id : NodeId) :
    a.awaited id =
      match (a.get? id).bind passedOn with
      | some expr => a.awaited expr
      | none => id := by
  have hbound := a.suffices_size
  have hwide : ∀ id, a.Suffices (a.size + 1) id := fun id => (hbound id).mono (Nat.le_succ _)
  cases hn : a.get? id with
  | none =>
    exact awaitedWithin_dangling (a.size + 1) (get?_eq_none_iff.mp hn)
  | some node =>
    by_cases hp : ∃ expr, node = .paren expr
    · obtain ⟨expr, rfl⟩ := hp
      have hun := ha.unwrapParens_of_paren hn
      show a.awaitedWithin (a.size + 1) id = a.awaitedWithin (a.size + 1) expr
      rw [awaitedWithin, awaitedWithin, hun]
    · have hid : a.unwrapParens id = id :=
        unwrapParens_of_not_paren fun expr h => hp ⟨expr, Option.some.inj (hn.symm.trans h)⟩
      show a.awaitedWithin (a.size + 1) id = _
      rw [awaitedWithin]
      simp only [hid, hn]
      cases node with
      | paren expr => exact absurd ⟨expr, rfl⟩ hp
      | await expr => exact ha.awaitedWithin_eq (hbound expr) (hwide expr)
      | promise expr => exact ha.awaitedWithin_eq (hbound expr) (hwide expr)
      | _ => rfl

/-! ### Called integrations -/

/-- What is passed on calls what its part calls. -/
theorem calledIntegration_of_passedOn (ha : a.Grown) {node : Node} (hn : a.get? id = some node)
    (hp : passedOn node = some expr) : a.calledIntegration id = a.calledIntegration expr := by
  unfold calledIntegration
  rw [ha.awaited_eq id, hn, Option.bind_some, hp]

/-- A node that passes nothing on is what is awaited. -/
private theorem awaited_of_not_passedOn (ha : a.Grown) {node : Node} (hn : a.get? id = some node)
    (hp : passedOn node = none) : a.awaited id = id := by
  rw [ha.awaited_eq id, hn, Option.bind_some, hp]

/-- A call calls what its callee refers to. -/
theorem calledIntegration_of_call (ha : a.Grown) {callee : NodeId} {args : List NodeId}
    (hn : a.get? id = some (.call callee args)) :
    a.calledIntegration id = a.resolveIntegration callee := by
  unfold calledIntegration
  rw [ha.awaited_of_not_passedOn hn rfl, hn]

/-- No other node calls an integration. -/
theorem calledIntegration_eq_none (ha : a.Grown) {node : Node} (hn : a.get? id = some node)
    (hp : passedOn node = none) (hc : ∀ callee args, node ≠ .call callee args) :
    a.calledIntegration id = none := by
  unfold calledIntegration
  rw [ha.awaited_of_not_passedOn hn hp, hn]
  split
  · next callee args heq => exact absurd (Option.some.inj heq) (hc callee args)
  · rfl

end Grown

end Arena

end ClosureVtl
