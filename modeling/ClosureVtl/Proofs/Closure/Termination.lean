/-
Module: ClosureVtl.Proofs.Closure.Termination
Purpose: The walks through a closure end by themselves, not at their bounds.
Main exports:
  Terminates, Descends, Settles, Arena.sourceRank, Arena.WalksEnd, Arena.Grown.walksEnd
-/
import Mathlib.Data.Finset.Card
import Mathlib.Logic.Function.Iterate
import Mathlib.Order.Monotone.Basic
import ClosureVtl.Closure.JsonPath
import ClosureVtl.Closure.ListCall
import ClosureVtl.Proofs.Closure.SourceOrder

namespace ClosureVtl

/-!
Walks carry a bound, so each of them ends.  That a walk would end without its bound is said
here: each walk is a number of rounds, each round asks for the walk from other nodes, and a
number of rounds is enough to give the value of the walk whatever it is that the deepest
round is told.  A walk that went round in circles would tell the difference.

A round asks for nodes of smaller measure.  Towards the root that is the number of younger
nodes, towards the leaves the number of older ones; a walk that jumps from names to their
declarations goes backwards in the source text.
-/

/-- Whether a walk with a bound goes round by round, and ends with its value when it is left
to itself: some number of rounds is enough, whatever further rounds would give. -/
structure Terminates {α β : Type} (round : (α → β) → α → β) (within : Nat → α → β)
    (walk : α → β) : Prop where
  unfolds : ∀ n, within (n + 1) = round (within n)
  ends : ∀ start, ∃ n, ∀ deeper : α → β, round^[n] deeper start = walk start

/-- Whether the rounds of a walk ask only for arguments of smaller measure, and for none where
the measure is zero. -/
structure Descends {α β : Type} (round : (α → β) → α → β) (within : Nat → α → β)
    (measure : α → Nat) : Prop where
  unfolds : ∀ n, within (n + 1) = round (within n)
  asks : ∀ (deeper deeper' : α → β) (start : α),
    (∀ next, measure next < measure start → deeper next = deeper' next) →
      round deeper start = round deeper' start
  last : ∀ (deeper : α → β) (start : α), measure start = 0 → round deeper start = within 0 start

namespace Descends

variable {α β : Type} {round : (α → β) → α → β} {within : Nat → α → β} {measure : α → Nat}
  {n m : Nat}

/-- The induction is on the number of rounds; each round only asks where fewer are needed. -/
theorem iterate_eq (h : Descends round within measure) (deeper : α → β) (start : α)
    (hn : measure start ≤ n) : round^[n + 1] deeper start = within n start := by
  induction n generalizing start with
  | zero => exact h.last _ start (Nat.le_zero.mp hn)
  | succ n ih =>
    rw [Function.iterate_succ_apply', h.unfolds]
    apply h.asks
    intro next hnext
    exact ih next (by omega)

/-- Such a walk ends with its value within any bound that is not smaller than the measure. -/
theorem terminates (h : Descends round within measure) (hn : ∀ start, measure start ≤ n) :
    Terminates round within (within n) :=
  ⟨h.unfolds, fun start => ⟨n + 1, fun deeper => h.iterate_eq deeper start (hn start)⟩⟩

/-- So all these bounds give one value. -/
theorem within_eq (h : Descends round within measure) {start : α} (hn : measure start ≤ n)
    (hm : measure start ≤ m) : within n start = within m start := by
  have hlarger : ∀ {n : Nat}, measure start ≤ n → within n start = within (measure start) start := by
    intro n hn
    obtain ⟨more, rfl⟩ := Nat.exists_eq_add_of_le hn
    rw [← h.iterate_eq (within 0) start hn, ← h.iterate_eq (round^[more] (within 0)) start (le_refl _),
      ← Function.iterate_add_apply, Nat.add_right_comm]
  rw [hlarger hn, hlarger hm]

/-- Two walks that agree within every bound agree, whatever bounds they have that suffice. -/
theorem congr {α' : Type} {round' : (α' → β) → α' → β} {within' : Nat → α' → β}
    {measure' : α' → Nat} (h : Descends round within measure)
    (h' : Descends round' within' measure') {start : α} {start' : α'} (hn : measure start ≤ n)
    (hm : measure' start' ≤ m) (hsame : ∀ k, within k start = within' k start') :
    within n start = within' m start' := by
  rw [h.within_eq hn (hn.trans (Nat.le_max_left n m)), hsame,
    h'.within_eq (hm.trans (Nat.le_max_right n m)) hm]

end Descends

/-- A walk with bounds that keeps what it has found for a node, and whose next round is settled by
the last one. -/
structure Settles {β : Type} (nothing : β) (size : Nat) (walk : Nat → NodeId → β) : Prop where
  inside : ∀ n id, walk n id ≠ nothing → id.index < size
  keeps : ∀ n id, walk n id ≠ nothing → walk (n + 1) id = walk n id
  step : ∀ n m, walk n = walk m → walk (n + 1) = walk (m + 1)

namespace Settles

variable {β : Type} {nothing : β} {size n m : Nat} {walk : Nat → NodeId → β} {id : NodeId}

/-- What is found once is found from then on. -/
theorem eq_of_le (h : Settles nothing size walk) (hnm : n ≤ m) (hid : walk n id ≠ nothing) :
    walk m id = walk n id := by
  induction hnm with
  | refl => rfl
  | @step m _ ih => rw [h.keeps m id (ih ▸ hid), ih]

/-- A walk that finds nothing new with one round more never finds anything new; so, in an
arena with circles as well, all there is to find is found within as many rounds as there are
nodes. -/
theorem eq_of_size_le (h : Settles nothing size walk) (hn : size ≤ n) (hm : size ≤ m) :
    walk n = walk m := by
  classical
  let found (n : Nat) : Finset Nat := (Finset.range size).filter fun i => walk n ⟨i⟩ ≠ nothing
  have hsubset : ∀ {n m : Nat}, n ≤ m → found n ⊆ found m := by
    intro n m hnm i hi
    obtain ⟨hi, hfound⟩ := Finset.mem_filter.mp hi
    exact Finset.mem_filter.mpr ⟨hi, h.eq_of_le hnm hfound ▸ hfound⟩
  -- two walks that find something for equally many nodes find the same
  have heq : ∀ {n m : Nat}, n ≤ m → (found n).card = (found m).card → walk m = walk n := by
    intro n m hnm hcard
    have hall : found n = found m := Finset.eq_of_subset_of_card_le (hsubset hnm) hcard.ge
    funext id
    by_cases hid : walk m id = nothing
    · by_contra hne
      exact hne (h.eq_of_le hnm fun hnothing => hne (hid.trans hnothing.symm))
    · have hmem : id.index ∈ found m :=
        Finset.mem_filter.mpr ⟨Finset.mem_range.mpr (h.inside m id hid), hid⟩
      rw [← hall] at hmem
      exact h.eq_of_le hnm (Finset.mem_filter.mp hmem).2
  have hall : ∀ {n : Nat}, size ≤ n → walk n = walk size := by
    intro n hn
    apply heq hn
    symm
    -- the number of nodes with a finding grows until it stands still for the first time
    apply Nat.stabilises_of_monotone (f := fun n => (found n).card)
    · exact fun n m hnm => Finset.card_le_card (hsubset hnm)
    · exact fun m => (Finset.card_filter_le _ _).trans_eq (Finset.card_range size)
    · intro m hm
      have hnext := h.step _ _ (heq (Nat.le_succ m) hm)
      simp only [found, hnext]
    · exact hn
  rw [hall hn, hall hm]

/-- Whatever is found within some bound is found within one of that size. -/
theorem found (h : Settles nothing size walk) (hm : size ≤ m) (hid : walk n id ≠ nothing) :
    walk m id = walk n id := by
  rw [h.eq_of_size_le hm (hm.trans (Nat.le_max_right n m)), h.eq_of_le (Nat.le_max_left n m) hid]

end Settles

namespace Arena

/-! ### Rounds -/

section Rounds

/-! Each round is the walk of that name, with the walk from the next nodes as a parameter. -/

variable (a : Arena)

def ancestorsRound (deeper : NodeId → List NodeId) (id : NodeId) : List NodeId :=
  match a.parent? id with
  | none => []
  | some parent => parent :: deeper parent

def patternOwnerRound (deeper : NodeId → Option NodeId) (id : NodeId) : Option NodeId :=
  if (a.get? id).any isPatternPart then (a.parent? id).bind deeper else some id

def unwrapParensRound (deeper : NodeId → NodeId) (id : NodeId) : NodeId :=
  match a.get? id with
  | some (.paren expr) => deeper expr
  | _ => id

def awaitedRound (deeper : NodeId → NodeId) (id : NodeId) : NodeId :=
  match a.get? (a.unwrapParens id) with
  | some (.await expr) | some (.promise expr) => deeper expr
  | _ => a.unwrapParens id

def findBindingRound (name : String) (deeper : NodeId → Option NodeId) (target : NodeId) :
    Option NodeId :=
  match a.get? target with
  | some (.identifier declared) => if declared = name then a.parent? target else none
  | some (.objectPattern elements) | some (.arrayPattern elements) =>
    elements.findSome? fun element =>
      match a.get? element with
      | some (.binding inner ..) => deeper inner
      | _ => none
  | _ => none

def searchRound (hit : NodeId → Node → Bool) (deeper : NodeId → Sweep → Sweep) (root : NodeId)
    (sweep : Sweep) : Sweep :=
  match a.get? root with
  | none => sweep
  | some node =>
    if hit root node then { found := true, visited := root :: sweep.visited }
    else
      node.children.foldr (fun child sweep => if sweep.found then sweep else deeper child sweep)
        { found := false, visited := root :: sweep.visited }

def jsonPathRound (deeper : NodeId → Option String) (expr : NodeId) : Option String :=
  match a.get? (a.unwrapParens expr) with
  | some (.identifier _) => if a.isPayload (a.unwrapParens expr) then some "$" else none
  | some (.member base name) => (deeper base).map fun path => path ++ Text.pathStep name
  | some (.element base key) =>
    (deeper base).bind fun path => (a.pathIndex? key).map fun step => path ++ step
  | _ => none

def fusedChainRound (deeper : NodeId → List ListCall × NodeId) (expr : NodeId) :
    List ListCall × NodeId :=
  match a.mapStage? expr with
  | none => ([], expr)
  | some stage =>
    if a.parameterUsed stage.parameters mapListPosition stage.body then ([], expr)
    else (stage :: (deeper stage.receiver).1, (deeper stage.receiver).2)

def resolveIntegrationRound (deeper : NodeId → Option IntegrationId) (callee : NodeId) :
    Option IntegrationId :=
  match a.get? (a.unwrapParens callee) with
  | some (.reference _ integration) => integration
  | some (.identifier _) =>
    match (a.lookup (a.unwrapParens callee)).bind a.get? with
    | some (.declaration _ _ (some value)) => deeper value
    | _ => none
  | _ => none

def isCompositeRound (deeper : NodeId → Bool) (expr : NodeId) : Bool :=
  match a.get? (a.unwrapParens expr) with
  | some (.object _) | some (.array _) => true
  | some (.await expr) | some (.promise expr) => deeper expr
  | some (.conditional _ yes no) => deeper yes || deeper no
  | some (.binary left .and right) | some (.binary left .or right)
  | some (.binary left .coalesce right) => deeper left || deeper right
  | some (.identifier _) =>
    match (a.lookup (a.unwrapParens expr)).bind a.get? with
    | some (.declaration _ _ (some value)) => deeper value
    | _ => false
  | _ => false

end Rounds

/-- Whether the walks that the queries about a closure are made of end.  All other queries
go through lists and through the results of these walks. -/
structure WalksEnd (a : Arena) : Prop where
  ancestors : Terminates a.ancestorsRound a.ancestorsWithin a.ancestors
  patternOwner : Terminates a.patternOwnerRound a.patternOwnerWithin a.patternOwner
  unwrapParens : Terminates a.unwrapParensRound a.unwrapParensWithin a.unwrapParens
  awaited : Terminates a.awaitedRound a.awaitedWithin a.awaited
  findBinding : ∀ name, Terminates (a.findBindingRound name) (a.findBindingWithin name)
    fun target => a.findBinding target name
  search : ∀ hit, Terminates (a.searchRound hit) (a.searchFrom hit)
    (a.searchFrom hit (a.size + 1))
  jsonPath : Terminates a.jsonPathRound a.jsonPathWithin a.jsonPath
  fusedChain : Terminates a.fusedChainRound a.fusedChainWithin
    fun expr => a.fusedChain expr false
  resolveIntegration :
    Terminates a.resolveIntegrationRound a.resolveIntegrationWithin a.resolveIntegration
  isComposite : Terminates a.isCompositeRound a.isCompositeWithin a.isComposite

/-! ### Measures -/

variable {a : Arena} {id child parent part expr callee use declaration name value : NodeId}
  {kind : DeclKind} {node : Node}

/-- The number of nodes up to a node; none if its handle leads nowhere. -/
def age (a : Arena) (id : NodeId) : Nat := if id.index < a.size then id.index + 1 else 0

/-- The number of nodes from a node on. -/
def youth (a : Arena) (id : NodeId) : Nat := a.size - id.index

/-- The number of nodes that end in the source text no later than a node; none if its handle
leads nowhere. -/
def sourceRank (a : Arena) (id : NodeId) : Nat :=
  if id.index < a.size then
    ((Finset.range a.size).filter fun i => a.sourceEnd ⟨i⟩ < a.sourceEnd id).card + 1
  else 0

/-- How far a walk from a node can go back in the source text.  A name in binding position
refers to the declaration around it, and that ends behind it. -/
def aliasRank (a : Arena) (id : NodeId) : Nat := a.sourceRank ((a.binder? id).getD id)

/-- A node without age is not in the arena. -/
theorem get?_eq_none_of_age (h : a.age id = 0) : a.get? id = none := by
  unfold age at h
  split at h
  · omega
  · next hge => exact get?_eq_none_iff.mpr (Nat.le_of_not_lt hge)

/-- A handle that leads nowhere is no pair of parentheses. -/
theorem unwrapParens_of_age (h : a.age id = 0) : a.unwrapParens id = id := by
  apply unwrapParens_of_not_paren
  simp [get?_eq_none_of_age h]

/-- A node that is in the arena has an age. -/
theorem age_pos_of_get? (h : a.get? id ≠ none) : 0 < a.age id :=
  Nat.pos_of_ne_zero fun hage => h (get?_eq_none_of_age hage)

/-- No node is older than the arena is large. -/
theorem age_le_size (a : Arena) (id : NodeId) : a.age id ≤ a.size := by
  unfold age
  split <;> omega

/-- So one more than its size is a bound that suffices. -/
theorem age_le_succ_size (a : Arena) (id : NodeId) : a.age id ≤ a.size + 1 :=
  (a.age_le_size id).trans (Nat.le_succ _)

/-- No more nodes are younger than there are. -/
theorem youth_le_size (a : Arena) (id : NodeId) : a.youth id ≤ a.size := Nat.sub_le _ _

/-- Without younger nodes there is none that could list this one. -/
theorem parent?_eq_none_of_youth (h : a.youth id = 0) : a.parent? id = none := by
  cases hp : a.parent? id with
  | none => rfl
  | some parent =>
    have hlt := lt_size_of_parent? hp
    unfold youth at h
    omega

/-- Exactly the handles that lead nowhere have no rank. -/
theorem sourceRank_eq_zero_iff : a.sourceRank id = 0 ↔ a.size ≤ id.index := by
  unfold sourceRank
  split <;> omega

/-- A node does not end before itself, so the filter leaves out one node at least. -/
theorem sourceRank_le_size (a : Arena) (id : NodeId) : a.sourceRank id ≤ a.size := by
  unfold sourceRank
  split
  · next hlt =>
    have hssub : (Finset.range a.size).filter (fun i => a.sourceEnd ⟨i⟩ < a.sourceEnd id) ⊂
        Finset.range a.size := by
      refine Finset.filter_ssubset.mpr ⟨id.index, Finset.mem_range.mpr hlt, ?_⟩
      exact lt_irrefl _
    have hcard := Finset.card_lt_card hssub
    rwa [Finset.card_range] at hcard
  · exact Nat.zero_le _

/-- So the same bound suffices for walks through names. -/
theorem aliasRank_le_succ_size (a : Arena) (id : NodeId) : a.aliasRank id ≤ a.size + 1 :=
  (a.sourceRank_le_size _).trans (Nat.le_succ _)

/-- Whatever ends before the one node ends before the other too, and the one node itself is one
more. -/
theorem sourceRank_lt (h : a.sourceEnd id < a.sourceEnd part) (hpart : part.index < a.size) :
    a.sourceRank id < a.sourceRank part := by
  unfold sourceRank
  rw [if_pos hpart]
  split
  · next hid =>
    apply Nat.succ_lt_succ
    apply Finset.card_lt_card
    rw [Finset.ssubset_iff_of_subset]
    · refine ⟨id.index, ?_, ?_⟩
      · exact Finset.mem_filter.mpr ⟨Finset.mem_range.mpr hid, h⟩
      · intro hm
        exact lt_irrefl _ (Finset.mem_filter.mp hm).2
    · intro i hi
      obtain ⟨hrange, hi⟩ := Finset.mem_filter.mp hi
      exact Finset.mem_filter.mpr ⟨hrange, lt_trans hi h⟩
  · exact Nat.succ_pos _

/-- The parts of a stage are below the expression that is the stage. -/
theorem below_of_mapStage? {stage : ListCall}
    (hs : a.mapStage? expr = some stage) :
    a.StrictlyBelow expr stage.receiver ∧
      (∀ parameter ∈ stage.parameters, a.StrictlyBelow expr parameter) ∧
        a.StrictlyBelow expr stage.body := by
  have hinside := a.below_unwrapParens expr
  unfold mapStage? at hs
  split at hs
  · next callee args hn =>
    have hcallee : a.Lists (a.unwrapParens expr) callee := ⟨_, hn, List.mem_cons_self⟩
    split at hs
    · cases hs
    · split at hs
      · next receiver parameters body hmember hcallback =>
        cases hs
        have hreceiver : a.Lists (a.unwrapParens callee) receiver :=
          ⟨_, hmember, List.mem_singleton.mpr rfl⟩
        refine ⟨hinside.trans_strictly ⟨callee, hcallee,
          (a.below_unwrapParens callee).trans (.part hreceiver (.self receiver))⟩, ?_⟩
        unfold callback? at hcallback
        split at hcallback
        · cases hcallback
        · next first rest =>
          have hfirst : a.Lists (a.unwrapParens expr) first := ⟨_, hn, by simp [Node.children]⟩
          split at hcallback
          · next hfunction =>
            cases hcallback
            have hpart : ∀ {part : NodeId}, a.Lists (a.argumentExpr first) part →
                a.StrictlyBelow expr part := fun {part} hl =>
              hinside.trans_strictly ⟨first, hfirst,
                (a.below_argumentExpr first).trans (.part hl (.self part))⟩
            exact ⟨fun parameter hm => hpart ⟨_, hfunction, by simp [Node.children, hm]⟩,
              hpart ⟨_, hfunction, by simp [Node.children]⟩⟩
          · cases hcallback
      · cases hs
  · cases hs

namespace Grown

/-- A part of a node is older, if it exists. -/
theorem age_lt (ha : a.Grown) (h : a.Lists parent child) : a.age child < a.age parent := by
  have hp := h.lt_size
  unfold age
  rw [if_pos hp]
  split
  · next hc => exact Nat.succ_lt_succ (ha.older h hc)
  · exact Nat.succ_pos _

/-- Whatever is below a node is no younger. -/
theorem age_le_of_below (ha : a.Grown) (h : a.Below parent child) : a.age child ≤ a.age parent := by
  induction h with
  | self => exact le_refl _
  | part hl _ ih => exact ih.trans (ha.age_lt hl).le

/-- What is strictly below a node is older. -/
theorem age_lt_of_strictlyBelow (ha : a.Grown) (h : a.StrictlyBelow parent child) :
    a.age child < a.age parent := by
  obtain ⟨part, hl, hbelow⟩ := h
  exact (ha.age_le_of_below hbelow).trans_lt (ha.age_lt hl)

/-- What is inside parentheses is no younger than they are. -/
theorem age_unwrapParens (ha : a.Grown) (id : NodeId) : a.age (a.unwrapParens id) ≤ a.age id :=
  ha.age_le_of_below (below_unwrapParens _ id)

/-- So is a part of what is inside parentheses. -/
theorem age_lt_of_unwrapParens (ha : a.Grown) (hl : a.Lists (a.unwrapParens id) part) :
    a.age part < a.age id :=
  Nat.lt_of_lt_of_le (ha.age_lt hl) (ha.age_unwrapParens id)

/-- Towards the root nodes get younger. -/
theorem youth_lt (ha : a.Grown) (h : a.parent? child = some parent) :
    a.youth parent < a.youth child := by
  have hlt := ha.lt_parent h
  have hsize := ha.parent_lt_size h
  unfold youth
  omega

/-- A part ends before the node that lists it. -/
theorem sourceRank_lt_of_lists (ha : a.Grown) (h : a.Lists parent child) :
    a.sourceRank child < a.sourceRank parent := by
  by_cases hc : child.index < a.size
  · exact sourceRank_lt (ha.sourceEnd_lt_of_parent? (ha.adopted h hc)) h.lt_size
  · rw [sourceRank_eq_zero_iff.mpr (Nat.le_of_not_lt hc), Nat.pos_iff_ne_zero, ne_eq,
      sourceRank_eq_zero_iff]
    have hp := h.lt_size
    omega

/-- A name that is used refers backwards from where it stands itself. -/
theorem aliasRank_of_not_binding (h : a.isBindingName id = false) :
    a.aliasRank id = a.sourceRank id := by
  unfold aliasRank binder?
  rw [h]
  rfl

/-- A binding name refers to the declaration around it, which ends behind it. -/
theorem sourceRank_le_aliasRank (ha : a.Grown) (id : NodeId) :
    a.sourceRank id ≤ a.aliasRank id := by
  by_cases hb : a.isBindingName id = true
  · obtain ⟨parent, hp, -⟩ := isBindingName_iff.mp hb
    unfold aliasRank binder?
    rw [if_pos hb, hp]
    exact (ha.sourceRank_lt_of_lists (ha.lists hp)).le
  · rw [aliasRank_of_not_binding (Bool.eq_false_iff.mpr hb)]

/-- A node without rank is not in the arena. -/
theorem get?_eq_none_of_aliasRank (ha : a.Grown) (h : a.aliasRank id = 0) : a.get? id = none := by
  have hle := ha.sourceRank_le_aliasRank id
  rw [h] at hle
  exact get?_eq_none_iff.mpr (sourceRank_eq_zero_iff.mp (Nat.le_zero.mp hle))

/-- The parts that a value comes from end before it. -/
theorem aliasRank_lt_of_yields (ha : a.Grown) (h : a.Yields id part) :
    a.aliasRank part < a.aliasRank id := by
  rw [aliasRank_of_not_binding (ha.isBindingName_of_yields h)]
  exact Nat.lt_of_lt_of_le (ha.sourceRank_lt_of_lists (lists_of_yields h))
    (ha.sourceRank_le_aliasRank id)

/-- The walk through parentheses goes backwards; the induction is on how many there are. -/
theorem aliasRank_unwrapParens (ha : a.Grown) (id : NodeId) :
    a.aliasRank (a.unwrapParens id) ≤ a.aliasRank id := by
  induction id using ha.induction_through_parens with
  | plain id hplain => rw [unwrapParens_of_not_paren hplain]
  | paren id expr hn ih =>
    rw [ha.unwrapParens_of_paren hn]
    exact ih.trans (ha.aliasRank_lt_of_yields ⟨_, hn, List.mem_singleton.mpr rfl⟩).le

/-- So does the initial value of the declaration that a name refers to. -/
theorem aliasRank_lt_of_lookup (ha : a.Grown) (hl : a.lookup use = some declaration)
    (hn : a.get? declaration = some (.declaration kind name (some value))) :
    a.aliasRank value < a.aliasRank use := by
  obtain ⟨_, _, huse, -⟩ := ha.binds_of_lookup hl
  have hlists : a.Lists declaration value := ⟨_, hn, by simp [Node.children]⟩
  rw [aliasRank_of_not_binding (ha.isBindingName_of_initial hn)]
  refine Nat.lt_of_lt_of_le (ha.sourceRank_lt_of_lists hlists) ?_
  by_cases hb : a.isBindingName use = true
  · rw [lookup_of_isBindingName huse hb] at hl
    unfold aliasRank binder?
    rw [if_pos hb, hl]
    exact le_refl _
  · have hb := Bool.eq_false_iff.mpr hb
    rw [aliasRank_of_not_binding hb]
    exact (sourceRank_lt (ha.sourceEnd_lt_of_lookup hb hl ⟨_, _, _, hn⟩) (lt_size_of_get? huse)).le

/-! ### Towards the root and towards the leaves -/

/-- A round of the walk to the root asks for the parent only. -/
theorem ancestors_descends (ha : a.Grown) :
    Descends a.ancestorsRound a.ancestorsWithin a.youth := by
  refine ⟨fun n => rfl, ?_, ?_⟩
  · intro deeper deeper' id h
    unfold ancestorsRound
    cases hp : a.parent? id with
    | none => rfl
    | some parent => exact congrArg (parent :: ·) (h parent (ha.youth_lt hp))
  · intro deeper id h
    unfold ancestorsRound
    rw [parent?_eq_none_of_youth h]
    rfl

/-- The owner of a pattern is looked for among the ancestors. -/
theorem patternOwner_descends (ha : a.Grown) :
    Descends a.patternOwnerRound a.patternOwnerWithin a.youth := by
  refine ⟨fun n => rfl, ?_, ?_⟩
  · intro deeper deeper' id h
    unfold patternOwnerRound
    cases hp : a.parent? id with
    | none => rfl
    | some parent => simp only [Option.bind_some, h parent (ha.youth_lt hp)]
  · intro deeper id h
    have hnone : a.get? id = none := get?_eq_none_iff.mpr (Nat.sub_eq_zero_iff_le.mp h)
    simp [patternOwnerRound, hnone, patternOwnerWithin]

/-- A pair of parentheses asks for the expression within. -/
theorem unwrapParens_descends (ha : a.Grown) :
    Descends a.unwrapParensRound a.unwrapParensWithin a.age := by
  refine ⟨fun n => rfl, ?_, ?_⟩
  · intro deeper deeper' id h
    unfold unwrapParensRound
    split
    · next expr hn => exact h expr (ha.age_lt ⟨_, hn, List.mem_singleton.mpr rfl⟩)
    · rfl
  · intro deeper id h
    simp [unwrapParensRound, get?_eq_none_of_age h, unwrapParensWithin]

/-- An awaited expression is a part of the node, parentheses left out. -/
theorem awaited_descends (ha : a.Grown) :
    Descends a.awaitedRound a.awaitedWithin a.age := by
  refine ⟨fun n => rfl, ?_, ?_⟩
  · intro deeper deeper' id h
    unfold awaitedRound
    split
    · next expr hn =>
      exact h expr (ha.age_lt_of_unwrapParens ⟨_, hn, List.mem_singleton.mpr rfl⟩)
    · next expr hn =>
      exact h expr (ha.age_lt_of_unwrapParens ⟨_, hn, List.mem_singleton.mpr rfl⟩)
    · rfl
  · intro deeper id h
    simp [awaitedRound, unwrapParens_of_age h, get?_eq_none_of_age h, awaitedWithin]

/-- A round of the search for a binding asks for the elements of the pattern. -/
theorem findBinding_descends (ha : a.Grown) (name : String) :
    Descends (a.findBindingRound name) (a.findBindingWithin name) a.age := by
  refine ⟨fun n => rfl, ?_, ?_⟩
  · intro deeper deeper' target h
    have helements : ∀ {elements : List NodeId}, (∀ element ∈ elements, a.Lists target element) →
        (elements.findSome? fun element =>
          match a.get? element with
          | some (.binding inner ..) => deeper inner
          | _ => none) =
        elements.findSome? fun element =>
          match a.get? element with
          | some (.binding inner ..) => deeper' inner
          | _ => none := by
      intro elements hl
      induction elements with
      | nil => rfl
      | cons first rest ih =>
        have hfirst : (match a.get? first with
            | some (.binding inner ..) => deeper inner
            | _ => none) =
          match a.get? first with
            | some (.binding inner ..) => deeper' inner
            | _ => none := by
          split
          · next inner key default rest hn =>
            have hinner : a.Lists first inner := ⟨_, hn, by simp [Node.children]⟩
            exact h inner ((ha.age_lt hinner).trans (ha.age_lt (hl first List.mem_cons_self)))
          · rfl
        rw [List.findSome?_cons, List.findSome?_cons, hfirst,
          ih fun element hm => hl element (List.mem_cons_of_mem _ hm)]
    unfold findBindingRound
    split
    · rfl
    · next elements hn => exact helements fun element hm => ⟨_, hn, hm⟩
    · next elements hn => exact helements fun element hm => ⟨_, hn, hm⟩
    · rfl
  · intro deeper target h
    simp [findBindingRound, get?_eq_none_of_age h, findBindingWithin]

/-- A round of the search asks for the parts of a node, one sweep after the other. -/
theorem search_descends (ha : a.Grown) (hit : NodeId → Node → Bool) :
    Descends (a.searchRound hit) (a.searchFrom hit) a.age := by
  refine ⟨?_, ?_, ?_⟩
  · intro n
    funext root sweep
    rfl
  · intro deeper deeper' root h
    funext sweep
    unfold searchRound
    split
    · rfl
    · next node hn =>
      split
      · rfl
      · apply List.foldr_ext
        intro child hm sweep
        rw [h child (ha.age_lt ⟨node, hn, hm⟩)]
  · intro deeper root h
    funext sweep
    simp [searchRound, get?_eq_none_of_age h, searchFrom]

/-- A path into the payload goes on with the base of the access. -/
theorem jsonPath_descends (ha : a.Grown) :
    Descends a.jsonPathRound a.jsonPathWithin a.age := by
  refine ⟨fun n => rfl, ?_, ?_⟩
  · intro deeper deeper' expr h
    unfold jsonPathRound
    split
    · rfl
    · next base name hn =>
      rw [h base (ha.age_lt_of_unwrapParens ⟨_, hn, List.mem_cons_self⟩)]
    · next base key hn =>
      rw [h base (ha.age_lt_of_unwrapParens ⟨_, hn, List.mem_cons_self⟩)]
    · rfl
  · intro deeper expr h
    simp [jsonPathRound, unwrapParens_of_age h, get?_eq_none_of_age h, jsonPathWithin]

/-- A chain goes on with the receiver of its stage. -/
theorem fusedChain_descends (ha : a.Grown) :
    Descends a.fusedChainRound a.fusedChainWithin a.age := by
  refine ⟨fun n => rfl, ?_, ?_⟩
  · intro deeper deeper' expr h
    unfold fusedChainRound
    split
    · rfl
    · next stage hs =>
      rw [h stage.receiver (ha.age_lt_of_strictlyBelow (below_of_mapStage? hs).1)]
  · intro deeper expr h
    have hnone : a.mapStage? expr = none := by
      simp [mapStage?, unwrapParens_of_age h, get?_eq_none_of_age h]
    simp [fusedChainRound, hnone, fusedChainWithin]

/-! ### Through names -/

/-- A handle that leads nowhere stays as it is. -/
private theorem unwrapParens_of_aliasRank (ha : a.Grown) (h : a.aliasRank id = 0) :
    a.unwrapParens id = id := by
  apply unwrapParens_of_not_paren
  simp [ha.get?_eq_none_of_aliasRank h]

/-- Both walks through names jump to an initial value that ends earlier. -/
private theorem jump_eq (ha : a.Grown) {β : Type} {deeper deeper' : NodeId → β} (nothing : β)
    (h : ∀ next, a.aliasRank next < a.aliasRank id → deeper next = deeper' next) :
    (match (a.lookup (a.unwrapParens id)).bind a.get? with
      | some (.declaration _ _ (some value)) => deeper value
      | _ => nothing) =
    match (a.lookup (a.unwrapParens id)).bind a.get? with
      | some (.declaration _ _ (some value)) => deeper' value
      | _ => nothing := by
  split
  · next kind name value hn =>
    obtain ⟨declaration, hl, hn⟩ := Option.bind_eq_some_iff.mp hn
    exact h value ((ha.aliasRank_lt_of_lookup hl hn).trans_le (ha.aliasRank_unwrapParens id))
  · rfl

/-- A callee that is a name goes on with the initial value of its declaration. -/
theorem resolveIntegration_descends (ha : a.Grown) :
    Descends a.resolveIntegrationRound a.resolveIntegrationWithin a.aliasRank := by
  refine ⟨fun n => rfl, ?_, ?_⟩
  · intro deeper deeper' callee h
    unfold resolveIntegrationRound
    split
    · rfl
    · exact ha.jump_eq none h
    · rfl
  · intro deeper callee h
    simp [resolveIntegrationRound, ha.unwrapParens_of_aliasRank h,
      ha.get?_eq_none_of_aliasRank h, resolveIntegrationWithin]

/-- A value goes on with its parts, or with the initial value of a name. -/
theorem isComposite_descends (ha : a.Grown) :
    Descends a.isCompositeRound a.isCompositeWithin a.aliasRank := by
  refine ⟨fun n => rfl, ?_, ?_⟩
  · intro deeper deeper' expr h
    have hpart : ∀ {node : Node} {part : NodeId}, a.get? (a.unwrapParens expr) = some node →
        part ∈ node.outcomes → deeper part = deeper' part := fun hn hm =>
      h _ ((ha.aliasRank_lt_of_yields ⟨_, hn, hm⟩).trans_le (ha.aliasRank_unwrapParens expr))
    have heither : ∀ {node : Node} {left right : NodeId},
        a.get? (a.unwrapParens expr) = some node → node.outcomes = [left, right] →
          (deeper left || deeper right) = (deeper' left || deeper' right) := by
      intro node left right hn houtcomes
      have hleft : deeper left = deeper' left := hpart hn (by simp [houtcomes])
      have hright : deeper right = deeper' right := hpart hn (by simp [houtcomes])
      rw [hleft, hright]
    unfold isCompositeRound
    split
    · rfl
    · rfl
    · next hn => exact hpart hn (by simp [Node.outcomes])
    · next hn => exact hpart hn (by simp [Node.outcomes])
    · next hn => exact heither hn rfl
    · next hn => exact heither hn rfl
    · next hn => exact heither hn rfl
    · next hn => exact heither hn rfl
    · exact ha.jump_eq false h
    · rfl
  · intro deeper expr h
    simp [isCompositeRound, ha.unwrapParens_of_aliasRank h, ha.get?_eq_none_of_aliasRank h,
      isCompositeWithin]

/-- All walks through a grown arena end. -/
theorem walksEnd (ha : a.Grown) : a.WalksEnd where
  ancestors := ha.ancestors_descends.terminates a.youth_le_size
  patternOwner := ha.patternOwner_descends.terminates a.youth_le_size
  unwrapParens := ha.unwrapParens_descends.terminates a.age_le_size
  awaited := ha.awaited_descends.terminates a.age_le_succ_size
  findBinding name := (ha.findBinding_descends name).terminates a.age_le_succ_size
  search hit := (ha.search_descends hit).terminates a.age_le_succ_size
  jsonPath := ha.jsonPath_descends.terminates a.age_le_succ_size
  fusedChain := ha.fusedChain_descends.terminates a.age_le_size
  resolveIntegration := ha.resolveIntegration_descends.terminates a.aliasRank_le_succ_size
  isComposite := ha.isComposite_descends.terminates a.aliasRank_le_succ_size

end Grown

end Arena

end ClosureVtl
