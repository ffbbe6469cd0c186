/-
Module: ClosureVtl.Proofs.Closure.PlacedWalks
Purpose: Walks through a closure end alike wherever they start at the same place.
Main exports:
  Placed.references, Tidy.resolveIntegrationWithin_eq,
  Placed.resolveIntegration, Placed.calledIntegration, Placed.isComposite,
  Placed.jsonPath, Paired.fusedChain
-/
import ClosureVtl.Proofs.Closure.Abreast
import ClosureVtl.Proofs.Closure.PlacedNames
import ClosureVtl.Proofs.Closure.SubtreeSearch

namespace ClosureVtl

/-!
Walks carry a bound, and the bound is the number of nodes, which parentheses change.  So
it has to be known that a bound of that size is never the reason why a walk ends.  A walk
towards the leaves goes down in the arena.  A walk that follows names does not; but if it
went on for longer than there are nodes it would never come to an end.
-/

namespace Program

variable {p p' : Program} {root root' id id' part expr expr' : NodeId} {node node' : Node}
  {n m k : Nat}

namespace Placed

/-- Whatever is below a node has its place below any node at the same place. -/
theorem exists_below (hp : p.Paired p' root root') {inner : NodeId} (h : p.arena.Below id inner)
    (hinner : ∀ expr, p.arena.get? inner ≠ some (.paren expr))
    (hplaced : p.Placed p' root root' (p.arena.unwrapParens id) (p'.arena.unwrapParens id'))
    (hsize' : id'.index < p'.arena.size) :
    ∃ inner', p'.arena.Below id' inner' ∧ p.Placed p' root root' inner inner' := by
  induction h generalizing id' with
  | self id =>
    rw [Arena.unwrapParens_of_not_paren hinner] at hplaced
    exact ⟨_, Arena.below_unwrapParens _ _, hplaced⟩
  | @part id part inner hl _ ih =>
    obtain ⟨node, hn, hpart⟩ := hl
    by_cases hparen : ∃ expr, node = .paren expr
    · obtain ⟨expr, rfl⟩ := hparen
      obtain rfl := List.mem_singleton.mp hpart
      rw [hp.left.bottomUp.grown.unwrapParens_of_paren hn] at hplaced
      exact ih hinner hplaced hsize'
    -- the part has its counterpart at the same position of the node on the other side
    · have hself : p.arena.unwrapParens id = id :=
        Arena.unwrapParens_of_not_paren fun expr he =>
          hparen ⟨expr, Option.some.inj (hn.symm.trans he)⟩
      rw [hself] at hplaced
      obtain ⟨_, node', -, hn', -⟩ := hplaced.found hp
      have hlength := Node.length_children_of_blank_eq (hplaced.blank_eq hp hn hn')
      obtain ⟨k, hk, hat⟩ := List.getElem_of_mem hpart
      have hk' : k < node'.children.length := hlength ▸ hk
      have hpart := List.getElem?_eq_getElem hk
      have hpart' := List.getElem?_eq_getElem hk'
      rw [hat] at hpart
      obtain ⟨inner', hbelow', hinner'⟩ :=
        ih hinner (.part hplaced hn hn' hpart hpart') (hp.right.part_lt_size hn' hpart')
      have hl' : p'.arena.Lists (p'.arena.unwrapParens id') node'.children[k] :=
        ⟨node', hn', List.getElem_mem hk'⟩
      have hbelow := Arena.below_unwrapParens p'.arena id'
      exact ⟨inner', hbelow.trans (.part hl' hbelow'), hinner'⟩

theorem isBindingName (hp : p.Paired p' root root') (h : p.Placed p' root root' id id') :
    p.arena.isBindingName id = p'.arena.isBindingName id' := by
  have hbinder : ∀ {a : Arena} {id : NodeId}, a.isBindingName id = (a.binder? id).isSome := by
    intro a id
    unfold Arena.binder?
    split
    · next hb =>
      obtain ⟨declaration, hparent, -⟩ := Arena.Grown.isBindingName_iff.mp hb
      rw [hb, hparent]
      rfl
    · next hb => exact eq_false_of_ne_true hb
  rw [hbinder, hbinder]
  exact isSome_eq_of_optionRel (h.binder? hp)

/-- A use is found at the same place; the other direction follows by symmetry. -/
private theorem references_of_references (hp : p.Paired p' root root')
    {body body' parameter parameter' : NodeId}
    (hbody : p.Placed p' root root' (p.arena.unwrapParens body) (p'.arena.unwrapParens body'))
    (hsize' : body'.index < p'.arena.size) (hparameter : p.Placed p' root root' parameter parameter')
    (h : p.arena.references body parameter = true) :
    p'.arena.references body' parameter' = true := by
  obtain ⟨use, node, hbelow, hn, hhit⟩ := hp.left.bottomUp.grown.anyDescendant_iff.mp h
  cases node with
  | identifier name =>
    simp only [Bool.and_eq_true, Bool.not_eq_eq_eq_not, Bool.not_true, beq_iff_eq] at hhit
    obtain ⟨hbinding, hlookup⟩ := hhit
    obtain ⟨use', hbelow', huse⟩ := exists_below hp hbelow (by simp [hn]) hbody hsize'
    obtain ⟨_, node', -, hn', -⟩ := huse.found hp
    have hrelated := huse.lookup hp
    rw [hlookup] at hrelated
    have hlookup' : p'.arena.lookup use' = some parameter' := by
      cases hfound : p'.arena.lookup use' with
      | none =>
        rw [hfound] at hrelated
        cases hrelated
      | some declaration =>
        rw [hfound] at hrelated
        cases hrelated with
        | some hdeclaration => rw [hdeclaration.unique hp hparameter]
    refine hp.right.bottomUp.grown.anyDescendant_iff.mpr ⟨use', node', hbelow', hn', ?_⟩
    have hlifts := huse.alike_of_get? hp hn hn'
    cases hlifts with
    | identifier name => simp [hlookup', ← huse.isBindingName hp, hbinding]
  | _ => cases hhit

/-- Callbacks at the same place use a parameter on both sides or on neither. -/
theorem references (hp : p.Paired p' root root') {body body' parameter parameter' : NodeId}
    (hbody : p.Placed p' root root' (p.arena.unwrapParens body) (p'.arena.unwrapParens body'))
    (hsize : body.index < p.arena.size) (hsize' : body'.index < p'.arena.size)
    (hparameter : p.Placed p' root root' parameter parameter') :
    p.arena.references body parameter = p'.arena.references body' parameter' :=
  Bool.eq_iff_iff.mpr ⟨references_of_references hp hbody hsize' hparameter,
    references_of_references hp.symm hbody.symm hsize hparameter.symm⟩

end Placed

/-! ### Aliases -/

namespace Tidy

theorem calledIntegration_unwrapParens (h : p.Tidy root) (hid : id.index < p.arena.size) :
    p.arena.calledIntegration (p.arena.unwrapParens id) = p.arena.calledIntegration id :=
  h.apply_unwrapParens (fun hn => (h.bottomUp.grown.calledIntegration_of_passedOn hn rfl).symm) hid

/-- Aliases are followed to their end. -/
theorem resolveIntegrationWithin_eq (h : p.Tidy root) (hn : p.arena.size ≤ n) :
    p.arena.resolveIntegrationWithin n = p.arena.resolveIntegration :=
  funext fun _ => h.bottomUp.grown.resolveIntegration_descends.within_eq
    ((p.arena.sourceRank_le_size _).trans hn) (p.arena.aliasRank_le_succ_size _)

/-- So are the expressions and names that a composite value may come from. -/
theorem isCompositeWithin_eq (h : p.Tidy root) (hn : p.arena.size ≤ n) :
    p.arena.isCompositeWithin n = p.arena.isComposite :=
  funext fun _ => h.bottomUp.grown.isComposite_descends.within_eq
    ((p.arena.sourceRank_le_size _).trans hn) (p.arena.aliasRank_le_succ_size _)

end Tidy

namespace Placed

/-- What follows the initial value of a name on both sides. -/
private theorem initial (hp : p.Paired p' root root') (h : p.Placed p' root root' id id')
    {α β : Type} {R : α → β → Prop} {found : NodeId → α} {found' : NodeId → β} {other : α}
    {other' : β} (hfound : ∀ {value value' : NodeId},
      p.Placed p' root root' (p.arena.unwrapParens value) (p'.arena.unwrapParens value') →
        R (found value) (found' value')) (hother : R other other') :
    R (match (p.arena.lookup id).bind p.arena.get? with
        | some (.declaration _ _ (some value)) => found value
        | _ => other)
      (match (p'.arena.lookup id').bind p'.arena.get? with
        | some (.declaration _ _ (some value)) => found' value
        | _ => other') := by
  match p.arena.lookup id, p'.arena.lookup id', h.lookup hp with
  | none, none, .none => exact hother
  | some _, some _, .some hdeclaration =>
    obtain ⟨node, node', hn, hn', hlifts⟩ := hdeclaration.alike hp
    rw [Option.bind_some, Option.bind_some, hn, hn']
    cases hlifts with
    | declaration kind _ hvalue =>
      cases hvalue with
      | none => exact hother
      | some hvalue => exact hfound hvalue.2.2
    | _ => exact hother

/-- Aliases are followed in step, from declarations to declarations at the same place. -/
private theorem resolveIntegrationWithin (hp : p.Paired p' root root')
    (h : p.Placed p' root root' (p.arena.unwrapParens id) (p'.arena.unwrapParens id')) (n : Nat) :
    Option.Rel (p.SameKind p') (p.arena.resolveIntegrationWithin n id)
      (p'.arena.resolveIntegrationWithin n id') := by
  induction n generalizing id id' with
  | zero => exact .none
  | succ n ih =>
    obtain ⟨node, node', hn, hn', hlifts⟩ := h.alike hp
    rw [Arena.resolveIntegrationWithin, Arena.resolveIntegrationWithin]
    simp only [hn, hn']
    cases hlifts with
    | reference name hintegration => exact hintegration
    | identifier name => exact h.initial hp ih .none
    | _ => exact .none

/-- Callees at the same place refer to integrations of one kind, or to none. -/
theorem resolveIntegration (hp : p.Paired p' root root')
    (h : p.Placed p' root root' (p.arena.unwrapParens id) (p'.arena.unwrapParens id')) :
    Option.Rel (p.SameKind p') (p.arena.resolveIntegration id)
      (p'.arena.resolveIntegration id') := by
  rw [← hp.left.resolveIntegrationWithin_eq (Nat.le_max_left p.arena.size p'.arena.size),
    ← hp.right.resolveIntegrationWithin_eq (Nat.le_max_right p.arena.size p'.arena.size)]
  exact h.resolveIntegrationWithin hp _

/-- Expressions at the same place call an integration on both sides or on neither. -/
theorem isSome_calledIntegration (hp : p.Paired p' root root')
    (h : p.Placed p' root root' id id') :
    (p.arena.calledIntegration id).isSome = (p'.arena.calledIntegration id').isSome := by
  induction hk : id.index using Nat.strongRecOn generalizing id id' with
  | ind k ih =>
    obtain ⟨node, node', hn, hn', hlifts⟩ := h.alike hp
    have ha := hp.left.bottomUp.grown
    have ha' := hp.right.bottomUp.grown
    have hpassed : ∀ {expr expr' : NodeId}, Arena.Grown.passedOn node = some expr →
        Arena.Grown.passedOn node' = some expr' →
        (parts p p' root root' id id').value expr expr' →
        (p.arena.calledIntegration id).isSome = (p'.arena.calledIntegration id').isSome := by
      rintro expr expr' hexpr hexpr' ⟨hl, hl', hvalue⟩
      have hle := hp.left.unwrapParens_le (hp.left.parts hl)
      have hlt := hp.left.lists_lt hl
      rw [ha.calledIntegration_of_passedOn hn hexpr, ha'.calledIntegration_of_passedOn hn' hexpr',
        ← hp.left.calledIntegration_unwrapParens (hp.left.parts hl),
        ← hp.right.calledIntegration_unwrapParens (hp.right.parts hl')]
      exact ih _ (by omega) hvalue rfl
    cases hlifts with
    | paren _ => exact absurd hn (h.not_paren hp _)
    | await hexpr => exact hpassed rfl rfl hexpr
    | promise hexpr => exact hpassed rfl rfl hexpr
    | call hcallee _ =>
      rw [ha.calledIntegration_of_call hn, ha'.calledIntegration_of_call hn']
      exact isSome_eq_of_optionRel (hcallee.2.2.resolveIntegration hp)
    | _ =>
      rw [ha.calledIntegration_eq_none hn rfl (by simp),
        ha'.calledIntegration_eq_none hn' rfl (by simp)]

/-- The same value is composite on both sides, at each bound. -/
private theorem isCompositeWithin (hp : p.Paired p' root root')
    (h : p.Placed p' root root' (p.arena.unwrapParens id) (p'.arena.unwrapParens id')) (n : Nat) :
    p.arena.isCompositeWithin n id = p'.arena.isCompositeWithin n id' := by
  induction n generalizing id id' with
  | zero => rfl
  | succ n ih =>
    obtain ⟨node, node', hn, hn', hlifts⟩ := h.alike hp
    rw [Arena.isCompositeWithin, Arena.isCompositeWithin]
    simp only [hn, hn']
    cases hlifts with
    | await hexpr => exact ih hexpr.2.2
    | promise hexpr => exact ih hexpr.2.2
    | conditional _ hyes hno => simp only [ih hyes.2.2, ih hno.2.2]
    | binary hleft op hright => cases op <;> first | rfl | simp only [ih hleft.2.2, ih hright.2.2]
    | identifier name => exact h.initial hp ih rfl
    | _ => rfl

/-- As no bound is met, the walks of different length agree. -/
theorem isComposite (hp : p.Paired p' root root')
    (h : p.Placed p' root root' (p.arena.unwrapParens id) (p'.arena.unwrapParens id')) :
    p.arena.isComposite id = p'.arena.isComposite id' := by
  rw [← hp.left.isCompositeWithin_eq (Nat.le_max_left p.arena.size p'.arena.size),
    ← hp.right.isCompositeWithin_eq (Nat.le_max_right p.arena.size p'.arena.size)]
  exact h.isCompositeWithin hp _

/-! ### Paths and chains -/

/-- An index is a number, and that has no parts to differ in. -/
theorem pathIndex? (hp : p.Paired p' root root')
    (h : p.Placed p' root root' (p.arena.unwrapParens id) (p'.arena.unwrapParens id')) :
    p.arena.pathIndex? id = p'.arena.pathIndex? id' := by
  obtain ⟨node, node', hn, hn', hlifts⟩ := h.alike hp
  unfold Arena.pathIndex?
  rw [hn, hn']
  cases hlifts <;> rfl

/-- The bounds differ, but on either side the walk goes down in the arena. -/
private theorem jsonPathWithin (hp : p.Paired p' root root')
    (h : p.Placed p' root root' (p.arena.unwrapParens id) (p'.arena.unwrapParens id'))
    (hn : (p.arena.unwrapParens id).index < n) (hm : (p'.arena.unwrapParens id').index < m) :
    p.arena.jsonPathWithin n id = p'.arena.jsonPathWithin m id' := by
  induction n generalizing m id id' with
  | zero => exact absurd hn (Nat.not_lt_zero _)
  | succ n ih =>
    obtain ⟨m, rfl⟩ := Nat.exists_eq_succ_of_ne_zero (n := m) (by omega)
    have hbase : ∀ {base base' : NodeId},
        (parts p p' root root' (p.arena.unwrapParens id) (p'.arena.unwrapParens id')).value base
          base' → p.arena.jsonPathWithin n base = p'.arena.jsonPathWithin m base' := by
      rintro base base' ⟨hl, hl', hbase⟩
      have hlt := hp.left.lists_lt hl
      have hlt' := hp.right.lists_lt hl'
      have hle := hp.left.unwrapParens_le (hp.left.parts hl)
      have hle' := hp.right.unwrapParens_le (hp.right.parts hl')
      exact ih hbase (by omega) (by omega)
    obtain ⟨node, node', hn, hn', hlifts⟩ := h.alike hp
    rw [Arena.jsonPathWithin, Arena.jsonPathWithin]
    simp only [hn, hn']
    cases hlifts with
    | identifier name => simp only [h.isPayload hp]
    | member hvalue name => simp only [hbase hvalue]
    | element hvalue hkey => simp only [hbase hvalue, hkey.2.2.pathIndex? hp]
    | _ => rfl

/-- A path to the payload is the same on both sides. -/
theorem jsonPath (hp : p.Paired p' root root') (h : p.Placed p' root root' id id') :
    p.arena.jsonPath id = p'.arena.jsonPath id' := by
  have hself := h.unwrapParens_eq hp
  have hself' := h.symm.unwrapParens_eq hp.symm
  apply jsonPathWithin hp
  · rwa [hself, hself']
  · rw [hself]
    exact Nat.lt_succ_of_lt (h.lt_size hp)
  · rw [hself']
    exact Nat.lt_succ_of_lt (h.symm.lt_size hp.symm)

end Placed

/-- The receiver of a stage is part of it. -/
theorem Tidy.receiver_lt (h : p.Tidy root) {stage : ListCall}
    (hs : p.arena.mapStage? id = some stage) : stage.receiver.index < id.index := by
  unfold Arena.mapStage? at hs
  split at hs
  · next callee args hn =>
    have hcallee : p.arena.Lists (p.arena.unwrapParens id) callee := ⟨_, hn, List.mem_cons_self⟩
    split at hs
    · cases hs
    · split at hs
      · next receiver parameters body hn₂ hc =>
        cases hs
        have hreceiver : p.arena.Lists (p.arena.unwrapParens callee) receiver :=
          ⟨_, hn₂, List.mem_singleton.mpr rfl⟩
        have hle := h.unwrapParens_le (Arena.lt_size_of_unwrapParens (Arena.lt_size_of_get? hn))
        have hlt := h.lists_lt hcallee
        have hle₂ := h.unwrapParens_le (h.parts hcallee)
        have hlt₂ := h.lists_lt hreceiver
        show receiver.index < id.index
        omega
      · cases hs
  · cases hs

section Chains

variable {c : Correspondence}

/-- Stages are taken off one by one until the source is left. -/
private theorem Paired.fusedChainWithin (hp : p.Paired p' root root')
    (h : p.arena.Abreast p'.arena c) (hexpr : c.value id id') (hn : id.index < n)
    (hm : id'.index < m) :
    List.Forall₂ (ListCall.Lifts c) (p.arena.fusedChainWithin n id).1
        (p'.arena.fusedChainWithin m id').1 ∧
      c.value (p.arena.fusedChainWithin n id).2 (p'.arena.fusedChainWithin m id').2 := by
  induction n generalizing m id id' with
  | zero => exact absurd hn (Nat.not_lt_zero _)
  | succ n ih =>
    obtain ⟨m, rfl⟩ := Nat.exists_eq_succ_of_ne_zero (n := m) (by omega)
    have hstage := h.alongside.mapStage? hexpr
    rw [Arena.fusedChainWithin, Arena.fusedChainWithin]
    rcases hs : p.arena.mapStage? id with _ | stage <;>
      rcases hs' : p'.arena.mapStage? id' with _ | stage' <;>
      rw [hs, hs'] at hstage <;> cases hstage
    · exact ⟨.nil, hexpr⟩
    · next hstage =>
      simp only [h.alongside.parameterUsed hstage.parameters hstage.body]
      split
      · exact ⟨.nil, hexpr⟩
      · have hlt := hp.left.receiver_lt hs
        have hlt' := hp.right.receiver_lt hs'
        have hrest := ih hstage.receiver (by omega) (by omega) (m := m)
        exact ⟨.cons hstage hrest.1, hrest.2⟩

/-- Consumers at the same place share their loops with stages at the same places. -/
theorem Paired.fusedChain (hp : p.Paired p' root root') (h : p.arena.Abreast p'.arena c)
    (hexpr : c.value id id') (hsize : id.index < p.arena.size)
    (hsize' : id'.index < p'.arena.size) (readsList : Bool) :
    List.Forall₂ (ListCall.Lifts c) (p.arena.fusedChain id readsList).1
        (p'.arena.fusedChain id' readsList).1 ∧
      c.value (p.arena.fusedChain id readsList).2 (p'.arena.fusedChain id' readsList).2 := by
  cases readsList with
  | true => exact ⟨.nil, hexpr⟩
  | false => exact hp.fusedChainWithin h hexpr hsize hsize'

end Chains

end Program

end ClosureVtl
