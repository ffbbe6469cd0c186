/-
Module: ClosureVtl.Proofs.Render.Parentheses
Purpose: Closures with one tree compile to one template.
Main exports:
  Render.Agree, InStep.agree, Placed.within, Placed.abreast, agrees_walkerWithin,
  compile_eq_of_tree_eq
-/
import ClosureVtl.Proofs.Closure.PlacedWalks
import ClosureVtl.Proofs.Render.Inversion
import ClosureVtl.Proofs.Render.PairedHandlers

namespace ClosureVtl

/-!
Two closures with one tree are rendered side by side.  Where both look at nodes other than
parentheses the rules take the same steps.  Where one looks at a pair of parentheses it
takes a step of its own, to what is inside, and the other waits.  So the two walkers are
not at the same level, and the nodes that each of them may still be called for are told
from its own level: `Placed.within` keeps account of both.
-/

/-! ### Runs that agree -/

/-- Whether two templates in the making have the same text and call related
integrations. -/
structure Output.Matches (S : IntegrationId → IntegrationId → Prop) (out out' : Output) : Prop where
  lines : out.lines = out'.lines
  temps : out.temps = out'.temps
  integrations : List.Forall₂ S out.integrations.toList out'.integrations.toList

namespace Render

variable {α β γ δ : Type} {S : IntegrationId → IntegrationId → Prop} {Q : α → β → Prop}
  {R : γ → δ → Prop}

/-- Whether two runs end in the same fault or in related results. -/
inductive SameResult (R : α → β → Prop) : Except Fault α → Except Fault β → Prop where
  | ok {value : α} {value' : β} (h : R value value') : SameResult R (.ok value) (.ok value')
  | error (f : Fault) : SameResult R (.error f) (.error f)

/-- Whether two steps keep templates matched and have related results. -/
structure Agree (S : IntegrationId → IntegrationId → Prop) (R : α → β → Prop) (x : Render α)
    (x' : Render β) : Prop where
  run : ∀ {out out' : Output}, out.Matches S out' →
    SameResult R (x.runOn out).1 (x'.runOn out').1 ∧ (x.runOn out).2.Matches S (x'.runOn out').2

namespace Agree

/-- Both sides fail alike. -/
theorem fault (f : Fault) : Agree S Q (Render.fault f) (Render.fault f) :=
  ⟨fun hout => ⟨.error f, hout⟩⟩

/-- Parts that agree can be put together. -/
theorem bind {x : Render α} {x' : Render β} {f : α → Render γ} {f' : β → Render δ}
    (first : Agree S Q x x')
    (next : ∀ value value', Q value value' → Agree S R (f value) (f' value')) :
    Agree S R (x >>= f) (x' >>= f') := by
  constructor
  intro out out' hout
  obtain ⟨hresult, hmiddle⟩ := first.run hout
  rw [runOn_bind, runOn_bind]
  revert hresult hmiddle
  generalize x.runOn out = run
  generalize x'.runOn out' = run'
  obtain ⟨result, middle⟩ := run
  obtain ⟨result', middle'⟩ := run'
  rintro (hvalue | f) hmiddle
  · exact (next _ _ hvalue).run hmiddle
  · exact ⟨.error f, hmiddle⟩

end Agree

end Render

/-- Whether two walkers agree wherever both may be called. -/
structure Walker.Agrees (w w' : Walker) (c : Correspondence) : Prop where
  expression : ∀ {id id' : NodeId}, c.calls .expression id id' →
    Render.Agree c.integration Eq (w.expression id) (w'.expression id')
  statement : ∀ {id id' : NodeId}, c.calls .statement id id' → ∀ slot : Option String,
    Render.Agree c.integration Eq (w.statement id slot) (w'.statement id' slot)
  expand : ∀ {pattern pattern' : NodeId}, c.calls .expand pattern pattern' → ∀ target : String,
    Render.Agree c.integration Eq (w.expand pattern target) (w'.expand pattern' target)
  fragment : ∀ {id id' : NodeId}, c.calls .fragment id id' →
    Render.Agree c.integration Eq (w.fragment id) (w'.fragment id')
  integrate : ∀ {id id' : IntegrationId}, c.integration id id' → ∀ {call call' : NodeId},
    c.calls .integrate call call' →
      Render.Agree c.integration Eq (w.integrate id call) (w'.integrate id' call')

/-- Walkers that may not be called agree. -/
theorem Walker.Agrees.of_no_calls {w w' : Walker} {c : Correspondence}
    (h : ∀ {entry id id'}, ¬ c.calls entry id id') : w.Agrees w' c where
  expression hcalled := absurd hcalled h
  statement hcalled := absurd hcalled h
  expand hcalled := absurd hcalled h
  fragment hcalled := absurd hcalled h
  integrate _ _ _ hcalled := absurd hcalled h

/-- Runs that go through the same steps agree if the walkers do. -/
theorem Walker.InStep.agree {w w' : Walker} {c : Correspondence} (hw : w.Agrees w' c) {α β : Type}
    {R : α → β → Prop} {x : Render α} {x' : Render β} (h : InStep w w' c R x x') :
    Render.Agree c.integration R x x' := by
  induction h with
  | pure hvalue => exact ⟨fun hout => ⟨.ok hvalue, hout⟩⟩
  | fault f => exact .fault f
  | bind _ _ ihFirst ihNext => exact .bind ihFirst ihNext
  | emit line =>
    exact ⟨fun hout =>
      ⟨.ok rfl, congrArg (·.push line) hout.lines, hout.temps, hout.integrations⟩⟩
  | freshTemp =>
    exact ⟨fun hout => ⟨.ok (congrArg (fun temps => Render.tempName (temps + 1)) hout.temps),
      hout.lines, congrArg (· + 1) hout.temps, hout.integrations⟩⟩
  | expression h => exact hw.expression h
  | statement h slot => exact hw.statement h slot
  | expand h target => exact hw.expand h target
  | fragment h => exact hw.fragment h
  | integrate hi h => exact hw.integrate hi h

/-! ### Levels -/

namespace Program

variable {p p' : Program} {root root' id id' : NodeId} {n m : Nat} {dialect : Dialect}

/-- Values at the same place, in parentheses or not. -/
structure PlacedValues (p p' : Program) (root root' id id' : NodeId) : Prop where
  placed : p.Placed p' root root' (p.arena.unwrapParens id) (p'.arena.unwrapParens id')
  lt_size : id.index < p.arena.size
  lt_size' : id'.index < p'.arena.size

/-- The nodes that walkers of some levels may be called for, and those that their rules may
look at.  Below each node there are three levels for each of its parts. -/
def within (p p' : Program) (root root' : NodeId) (n m : Nat) : Correspondence where
  own id id' := p.Placed p' root root' id id' ∧ 3 * id.index ≤ n ∧ 3 * id'.index ≤ m
  node id id' := p.Placed p' root root' id id' ∧ 3 * id.index + 3 ≤ n ∧ 3 * id'.index + 3 ≤ m
  value id id' := p.PlacedValues p' root root' id id' ∧
    3 * id.index + 3 ≤ n ∧ 3 * id'.index + 3 ≤ m
  integration := p.SameKind p'
  calls
    | .fragment, id, id' => p.PlacedValues p' root root' id id' ∧
        3 * id.index + 3 ≤ n ∧ 3 * id'.index + 3 ≤ m
    | .expression, id, id' => p.PlacedValues p' root root' id id' ∧
        3 * id.index + 2 ≤ n ∧ 3 * id'.index + 2 ≤ m
    | _, id, id' => p.Placed p' root root' id id' ∧ 3 * id.index + 1 ≤ n ∧ 3 * id'.index + 1 ≤ m

/-- Nodes at the same place are values at the same place. -/
theorem Placed.values (hp : p.Paired p' root root') (h : p.Placed p' root root' id id') :
    p.PlacedValues p' root root' id id' := by
  refine ⟨?_, h.lt_size hp, h.symm.lt_size hp.symm⟩
  rwa [h.unwrapParens_eq hp, h.symm.unwrapParens_eq hp.symm]

namespace PlacedValues

theorem symm (h : p.PlacedValues p' root root' id id') : p'.PlacedValues p root' root id' id :=
  ⟨h.placed.symm, h.lt_size', h.lt_size⟩

/-- On either side the parentheses may be left. -/
theorem inside (hp : p.Paired p' root root') (h : p.PlacedValues p' root root' id id')
    {expr : NodeId} (hn : p.arena.get? id = some (.paren expr)) :
    p.PlacedValues p' root root' expr id' := by
  refine ⟨?_, hp.left.parts ⟨_, hn, List.mem_singleton.mpr rfl⟩, h.lt_size'⟩
  rw [← hp.left.bottomUp.grown.unwrapParens_of_paren hn]
  exact h.placed

/-- Without parentheses on either side the nodes themselves are at the same place. -/
theorem placed_of_not_paren (h : p.PlacedValues p' root root' id id')
    (hplain : ∀ expr, p.arena.get? id ≠ some (.paren expr))
    (hplain' : ∀ expr, p'.arena.get? id' ≠ some (.paren expr)) :
    p.Placed p' root root' id id' := by
  have hplaced := h.placed
  rwa [Arena.unwrapParens_of_not_paren hplain,
    Arena.unwrapParens_of_not_paren hplain'] at hplaced

/-- Where there are parentheses on one side, both sides are expressions. -/
theorem isOperand (hp : p.Paired p' root root') (h : p.PlacedValues p' root root' id id')
    {expr : NodeId} (hn : p.arena.get? id = some (.paren expr)) :
    (p.arena.get? id).any Node.isOperand = true ∧
      (p'.arena.get? id').any Node.isOperand = true := by
  refine ⟨by rw [hn]; rfl, ?_⟩
  by_cases hparen' : ∃ expr', p'.arena.get? id' = some (.paren expr')
  · obtain ⟨expr', hn'⟩ := hparen'
    rw [hn']
    rfl
  · have hself' := Arena.unwrapParens_of_not_paren
      fun expr' he' => hparen' ⟨expr', he'⟩
    have hinside := hp.left.isOperand_unwrapParens hn
    obtain ⟨node, node', ho, ho', hlifts⟩ := h.placed.alike hp
    rw [ho, Option.any_some, hlifts.isOperand_eq] at hinside
    rw [← hself', ho']
    exact hinside

end PlacedValues

/-- Closures with one tree look alike from nodes at the same place. -/
theorem Paired.arenasAbreast (hp : p.Paired p' root root') (n m : Nat) :
    p.arena.Abreast p'.arena (within p p' root root' n m) where
  own := by
    rintro id id' ⟨hplaced, hle, hle'⟩
    exact ⟨hplaced, by omega, by omega⟩
  lifts := by
    rintro id id' ⟨hplaced, hle, hle'⟩
    have hbelow : ∀ {part part' : NodeId}, p.arena.Lists id part → p'.arena.Lists id' part' →
        3 * part.index + 3 ≤ n ∧ 3 * part'.index + 3 ≤ m := by
      intro part part' hl hl'
      have hlt := hp.left.lists_lt hl
      have hlt' := hp.right.lists_lt hl'
      omega
    obtain ⟨node, node', hn, hn', hlifts⟩ := hplaced.lifts hp (c := within p p' root root' n m)
      (fun part part' hl hl' hpart =>
        ⟨⟨hpart, hp.left.parts hl, hp.right.parts hl'⟩, hbelow hl hl'⟩)
      (fun part part' hl hl' hpart => ⟨hpart, hbelow hl hl'⟩) (fun _ _ hkind => hkind)
    rw [hn, hn']
    exact .some hlifts
  value := by
    rintro id id' ⟨hplaced, hle⟩
    exact ⟨hplaced.values hp, hle⟩
  unwrap := by
    rintro id id' ⟨hvalues, hle, hle'⟩
    have hin := hp.left.unwrapParens_le hvalues.lt_size
    have hin' := hp.right.unwrapParens_le hvalues.lt_size'
    exact ⟨hvalues.placed, by omega, by omega⟩
  plain := by
    rintro id id' ⟨hvalues, hle⟩
    by_cases hparen : ∃ expr, p.arena.get? id = some (.paren expr)
    · obtain ⟨expr, hn⟩ := hparen
      exact .inr (hvalues.isOperand hp hn)
    by_cases hparen' : ∃ expr, p'.arena.get? id' = some (.paren expr)
    · obtain ⟨expr, hn'⟩ := hparen'
      exact .inr (hvalues.symm.isOperand hp.symm hn').symm
    · exact .inl ⟨hvalues.placed_of_not_paren (fun expr hn => hparen ⟨expr, hn⟩)
        fun expr hn' => hparen' ⟨expr, hn'⟩, hle⟩
  resolveIntegration := by
    rintro callee callee' ⟨hvalues, -⟩
    exact hvalues.placed.resolveIntegration hp
  references := by
    rintro body body' parameter parameter' ⟨hbody, -⟩ ⟨hparameter, -⟩
    exact Placed.references hp hbody.placed hbody.lt_size hbody.lt_size' hparameter

/-- Walkers of closures with one tree are abreast, each at its own level. -/
theorem Paired.abreast (hp : p.Paired p' root root') (dialect : Dialect) (n m : Nat) :
    (p.walkerWithin dialect n).Abreast (p'.walkerWithin dialect m)
      (within p p' root root' n m) := by
  have harenas := hp.arenasAbreast n m
  have hdialect := p.dialect_walkerWithin dialect n
  have hdialect' := p'.dialect_walkerWithin dialect m
  have harena := p.arena_walkerWithin dialect n
  have harena' := p'.arena_walkerWithin dialect m
  -- nothing depends on the walkers beyond their arenas and dialects
  generalize p.walkerWithin dialect n = w at hdialect harena
  generalize p'.walkerWithin dialect m = w' at hdialect' harena'
  obtain ⟨arena, dialect, expression, statement, expand, fragment, integrate⟩ := w
  obtain ⟨arena', dialect', expression', statement', expand', fragment', integrate'⟩ := w'
  cases harena
  cases harena'
  cases hdialect
  cases hdialect'
  exact {
    toAbreast := harenas
    dialect := rfl
    dangling := by
      rintro id id' ⟨hplaced, -⟩ hnone
      obtain ⟨node, -, hn, -⟩ := hplaced.found hp
      cases hn.symm.trans hnone
    classify := by
      rintro id id' ⟨hplaced, -⟩
      exact hplaced.classify hp
    declared := by
      rintro id id' ⟨hplaced, -⟩
      rw [← Option.not_isSome, ← Option.not_isSome, isSome_eq_of_optionRel (hplaced.lookup hp)]
    calledIntegration := by
      rintro expr expr' (⟨hvalues, -⟩ | ⟨hplaced, -⟩)
      · have hinside := hvalues.placed.isSome_calledIntegration hp
        rwa [hp.left.calledIntegration_unwrapParens hvalues.lt_size,
          hp.right.calledIntegration_unwrapParens hvalues.lt_size'] at hinside
      · exact hplaced.isSome_calledIntegration hp
    consumed := by
      rintro id id' ⟨hplaced, -⟩
      exact hplaced.isConsumed hp
    fusedChain := by
      intro expr expr' hvalue readsList
      exact hp.fusedChain harenas hvalue hvalue.1.lt_size hvalue.1.lt_size' readsList
    jsonPath := by
      rintro id id' ⟨hplaced, -⟩
      exact hplaced.jsonPath hp
    composite := by
      rintro id id' ⟨hplaced, -⟩
      exact (hplaced.values hp).placed.isComposite hp
    expression := by
      rintro id id' ⟨hvalues, hle, hle'⟩
      exact ⟨hvalues, by omega, by omega⟩
    fragment := id
    statement := by
      rintro id id' ⟨hplaced, hle, hle'⟩
      exact ⟨hplaced, by omega, by omega⟩
    expand := by
      rintro id id' ⟨hplaced, hle, hle'⟩
      exact ⟨hplaced, by omega, by omega⟩ }

/-! ### Calls of integrations -/

/-- Whether integrations of one kind cannot be told apart in a template. -/
def AlikeByKind (p p' : Program) : Prop :=
  ∀ integration ∈ p.integrations, ∀ integration' ∈ p'.integrations,
    integration.kind = integration'.kind → integration.Alike integration'

/-- An integration with a known kind is in the table. -/
theorem exists_integration_of_kind? {called : IntegrationId} {kind : String}
    (h : p.kind? called = some kind) :
    ∃ integration, p.integrations[called.index]? = some integration ∧ integration.kind = kind :=
  Option.map_eq_some_iff.mp h

/-- The call is handed to integrations of one kind, and those agree. -/
theorem agree_dispatch (hp : p.Paired p' root root') (halike : p.AlikeByKind p')
    (hw : (p.walkerWithin dialect n).Agrees (p'.walkerWithin dialect m)
      (within p p' root root' n m)) {called called' : IntegrationId}
    (hcalled : p.SameKind p' called called') {call call' : NodeId}
    (hcall : (within p p' root root' n m).own call call') :
    Render.Agree (p.SameKind p') Eq
      ((p.walkerWithin dialect n).dispatch p.integrations called call)
      ((p'.walkerWithin dialect m).dispatch p'.integrations called' call') := by
  have habreast := hp.abreast dialect n m
  obtain ⟨kind, hkind, hkind'⟩ := hcalled
  obtain ⟨integration, hi, rfl⟩ := exists_integration_of_kind? hkind
  obtain ⟨integration', hi', heq⟩ := exists_integration_of_kind? hkind'
  have hsame := halike integration (Array.mem_of_getElem? hi) integration'
    (Array.mem_of_getElem? hi') heq.symm
  constructor
  intro out out' hout
  have hmade : out.integrations.size = out'.integrations.size := by
    simpa only [Array.length_toList] using hout.integrations.length_eq
  rw [Walker.runOn_dispatch hi, Walker.runOn_dispatch hi', p.dialect_walkerWithin,
    p'.dialect_walkerWithin, heq, hmade]
  split
  · exact ⟨.error _, hout⟩
  · have hhandler : Walker.InStep (p.walkerWithin dialect n) (p'.walkerWithin dialect m)
        (within p p' root root' n m) Eq
        (Render.ofExcept (CallSite.of (p.walkerWithin dialect n).arena call) >>=
          integration.handler dialect (p.walkerWithin dialect n))
        (Render.ofExcept (CallSite.of (p'.walkerWithin dialect m).arena call') >>=
          integration'.handler dialect (p'.walkerWithin dialect m)) := by
      apply Walker.InStep.bind (Walker.inStep_callSite habreast.alongside (habreast.faces hcall))
      intro site site' hargs
      cases dialect with
      | resolver config => exact hsame.resolver habreast hargs
      | mapping direction config => exact hsame.mapping habreast hargs
    refine (hhandler.agree hw).run ⟨hout.lines, hout.temps, ?_⟩
    rw [Array.toList_push, Array.toList_push]
    exact List.rel_append hout.integrations (.cons ⟨_, hkind, hkind'⟩ .nil)

/-! ### All levels -/

/-- Parentheses cost one level and do nothing else. -/
theorem expression_paren (p : Program) (dialect : Dialect) (n : Nat) {expr : NodeId}
    (hn : p.arena.get? id = some (.paren expr)) :
    (p.walkerWithin dialect (n + 1)).expression id =
      (p.walkerWithin dialect n).expression expr :=
  Walker.renderExpression_paren (by rw [p.arena_walkerWithin, hn])

/-- A walker that is at no level is called for nothing. -/
theorem agrees_of_zero {w w' : Walker} (h : n = 0 ∨ m = 0) :
    w.Agrees w' (within p p' root root' n m) := by
  apply Walker.Agrees.of_no_calls
  rintro (_ | _ | _ | _ | _) id id' ⟨-, hle, hle'⟩ <;> omega

/-- Walkers agree if they do one level below, on both sides and on either side alone. -/
theorem agrees_above (hp : p.Paired p' root root') (halike : p.AlikeByKind p')
    (hboth : (p.walkerWithin dialect n).Agrees (p'.walkerWithin dialect m)
      (within p p' root root' n m))
    (hleft : (p.walkerWithin dialect n).Agrees (p'.walkerWithin dialect (m + 1))
      (within p p' root root' n (m + 1)))
    (hright : (p.walkerWithin dialect (n + 1)).Agrees (p'.walkerWithin dialect m)
      (within p p' root root' (n + 1) m)) :
    (p.walkerWithin dialect (n + 1)).Agrees (p'.walkerWithin dialect (m + 1))
      (within p p' root root' (n + 1) (m + 1)) where
  expression := by
    rintro id id' ⟨hvalues, hle, hle'⟩
    by_cases hparen : ∃ expr, p.arena.get? id = some (.paren expr)
    · obtain ⟨expr, hn⟩ := hparen
      have hlt := hp.left.lists_lt ⟨_, hn, List.mem_singleton.mpr rfl⟩
      -- only the left side has parentheses here, so only it goes down one level
      rw [p.expression_paren dialect n hn]
      exact hleft.expression ⟨hvalues.inside hp hn, by omega, hle'⟩
    by_cases hparen' : ∃ expr, p'.arena.get? id' = some (.paren expr)
    · obtain ⟨expr, hn'⟩ := hparen'
      have hlt' := hp.right.lists_lt ⟨_, hn', List.mem_singleton.mpr rfl⟩
      -- the same on the right
      rw [p'.expression_paren dialect m hn']
      exact hright.expression ⟨(hvalues.symm.inside hp.symm hn').symm, hle, by omega⟩
    have hplaced := hvalues.placed_of_not_paren (fun expr hn => hparen ⟨expr, hn⟩)
      fun expr hn' => hparen' ⟨expr, hn'⟩
    have habreast := hp.abreast dialect n m
    exact (Walker.inStep_renderExpression habreast.alongside
      (habreast.faces ⟨hplaced, by omega, by omega⟩)
      ⟨hplaced, by omega, by omega⟩).agree hboth
  statement := by
    rintro id id' ⟨hplaced, hle, hle'⟩ slot
    have habreast := hp.abreast dialect n m
    have hown : (within p p' root root' n m).own id id' := ⟨hplaced, by omega, by omega⟩
    exact (Walker.inStep_renderStatement habreast.alongside hown
      (fun _ _ => habreast.statements hown) slot).agree hboth
  expand := by
    rintro pattern pattern' ⟨hplaced, hle, hle'⟩ target
    exact (Walker.inStep_expandPattern (hp.abreast dialect n m).alongside
      ⟨hplaced, by omega, by omega⟩ target).agree hboth
  fragment := by
    rintro id id' ⟨hvalues, hle, hle'⟩
    have hin := hp.left.unwrapParens_le hvalues.lt_size
    have hin' := hp.right.unwrapParens_le hvalues.lt_size'
    have harena := p.arena_walkerWithin dialect n
    have harena' := p'.arena_walkerWithin dialect m
    have habreast := hp.abreast dialect n m
    refine (Walker.inStep_renderFragment habreast.alongside (habreast.faces ?_) ?_).agree hboth <;>
      rw [harena, harena']
    · exact ⟨hvalues.placed, by omega, by omega⟩
    · exact ⟨hvalues.placed.values hp, by omega, by omega⟩
  integrate := by
    rintro called called' hcalled call call' ⟨hplaced, hle, hle'⟩
    exact agree_dispatch hp halike hboth hcalled ⟨hplaced, by omega, by omega⟩

/-- At all levels, walkers of closures with one tree agree. -/
theorem agrees_walkerWithin (hp : p.Paired p' root root') (halike : p.AlikeByKind p')
    (dialect : Dialect) (n m : Nat) :
    (p.walkerWithin dialect n).Agrees (p'.walkerWithin dialect m)
      (within p p' root root' n m) := by
  induction n generalizing m with
  | zero => exact agrees_of_zero (.inl rfl)
  | succ n ihLeft =>
    induction m with
    | zero => exact agrees_of_zero (.inr rfl)
    | succ m ihRight => exact agrees_above hp halike (ihLeft m) (ihLeft (m + 1)) ihRight

/-! ### Templates -/

/-- Programs are rendered to related templates if their roots are, or to the same fault. -/
theorem sameResult_of_runOn {dialect : Dialect} {R : Output → Output → Prop}
    (hresult : Render.SameResult Eq (((p.walker dialect).renderRoot root).runOn {}).1
      (((p'.walker dialect).renderRoot root').runOn {}).1)
    (hout : R (((p.walker dialect).renderRoot root).runOn {}).2
      (((p'.walker dialect).renderRoot root').runOn {}).2) :
    Render.SameResult R (p.render dialect root) (p'.render dialect root') := by
  unfold render
  revert hresult hout
  generalize ((p.walker dialect).renderRoot root).runOn {} = run
  generalize ((p'.walker dialect).renderRoot root').runOn {} = run'
  obtain ⟨result, final⟩ := run
  obtain ⟨result', final'⟩ := run'
  rintro (_ | f) hout
  · exact .ok hout
  · exact .error f

/-- Closures with one tree are rendered to one text, with calls of the same kinds, or to
the same fault. -/
theorem sameResult_render (hp : p.Paired p' root root') (halike : p.AlikeByKind p')
    (dialect : Dialect) :
    Render.SameResult (Output.Matches (p.SameKind p')) (p.render dialect root)
      (p'.render dialect root') := by
  have hlt := hp.left.root_lt
  have hlt' := hp.right.root_lt
  have hroot : Render.Agree (p.SameKind p') Eq ((p.walker dialect).renderRoot root)
      ((p'.walker dialect).renderRoot root') := by
    have habreast := hp.abreast dialect p.depth p'.depth
    have hnode : (within p p' root root' p.depth p'.depth).node root root' := by
      refine ⟨.root, ?_, ?_⟩ <;> unfold depth <;> omega
    exact (Walker.inStep_renderRoot habreast.alongside hnode (habreast.value hnode)).agree
      (agrees_walkerWithin hp halike dialect p.depth p'.depth)
  obtain ⟨hresult, hout⟩ := hroot.run (⟨rfl, rfl, .nil⟩ : Output.Matches (p.SameKind p') {} {})
  exact sameResult_of_runOn hresult hout

/-- Integrations that correspond have the same kinds, in order. -/
theorem kinds_eq {calls calls' : List IntegrationId}
    (h : List.Forall₂ (p.SameKind p') calls calls') :
    calls.filterMap p.kind? = calls'.filterMap p'.kind? := by
  induction h with
  | nil => rfl
  | cons hkind _ ih =>
    obtain ⟨kind, hk, hk'⟩ := hkind
    rw [List.filterMap_cons_some hk, List.filterMap_cons_some hk', ih]

end Program

/-- Neither parentheses nor the numbering of nodes matter.  Two finished closures without
handles that lead nowhere, in which parentheses stand around expressions only and only where
an expression is evaluated, compile to the same template or fail for the same reason in
every target and under every configuration, if they have one tree. -/
theorem compile_eq_of_tree_eq {p p' : Program} {root root' : NodeId} (h : p.Tidy root)
    (h' : p'.Tidy root') (halike : p.AlikeByKind p') (htree : p.tree root = p'.tree root') :
    (∀ config, p.compileResolver root config = p'.compileResolver root' config) ∧
      ∀ direction config,
        p.compileMapping root direction config = p'.compileMapping root' direction config := by
  have hrender := Program.sameResult_render ⟨h, h', htree⟩ halike
  constructor
  · intro config
    have hresult := hrender (.resolver config)
    unfold Program.compileResolver
    revert hresult
    generalize p.render (.resolver config) root = result
    generalize p'.render (.resolver config) root' = result'
    rintro (hout | f)
    · have hkinds := Program.kinds_eq hout.integrations
      simp only [Except.map, Output.text, hout.lines]
      exact congrArg (fun kinds => Except.ok (ResolverTemplate.mk _ kinds)) hkinds
    · rfl
  · intro direction config
    have hresult := hrender (.mapping direction config)
    unfold Program.compileMapping
    revert hresult
    generalize p.render (.mapping direction config) root = result
    generalize p'.render (.mapping direction config) root' = result'
    rintro (hout | f)
    · simp only [Except.map, Output.text, hout.lines]
    · rfl

/-- The closure `input => { return get(input.id); }`, where `get` is an integration. -/
def Program.fetch : Program :=
  (Builder.of [.ofStyle "table.get" .inline]
    [.reference "get" (some ⟨0⟩), .identifier "input", .member ⟨1⟩ "id", .argument ⟨2⟩ none,
      .call ⟨0⟩ [⟨3⟩], .returnValue (some ⟨4⟩), .block [⟨5⟩], .identifier "input",
      .parameter ⟨7⟩ none, .function [⟨8⟩] ⟨6⟩]).program

/-- The closure `input => { return ((get)(((input).id))); }`, built in another order and
next to another integration. -/
def Program.fetchInParens : Program :=
  (Builder.of [.ofStyle "table.put" .invoke, .ofStyle "table.get" .inline]
    [.identifier "input", .parameter ⟨0⟩ none, .identifier "input", .paren ⟨2⟩,
      .member ⟨3⟩ "id", .paren ⟨4⟩, .argument ⟨5⟩ none, .reference "get" (some ⟨1⟩), .paren ⟨7⟩,
      .call ⟨8⟩ [⟨6⟩], .paren ⟨9⟩, .returnValue (some ⟨10⟩), .block [⟨11⟩],
      .function [⟨1⟩] ⟨12⟩]).program

/-- Both spellings compile to one template, with one call. -/
theorem compile_eq_of_tree_eq_fetch :
    Program.fetch.Tidy ⟨9⟩ ∧ Program.fetchInParens.Tidy ⟨13⟩ ∧
      Program.fetch.AlikeByKind Program.fetchInParens ∧
      Program.fetch.tree ⟨9⟩ = Program.fetchInParens.tree ⟨13⟩ ∧
      (Program.fetch.compileResolver ⟨9⟩ {}).toOption.map ResolverTemplate.integrations =
        some ["table.get"] ∧
      Program.fetch.compileResolver ⟨9⟩ {} = Program.fetchInParens.compileResolver ⟨13⟩ {} := by
  have htidy : Program.fetch.Tidy ⟨9⟩ :=
    Builder.tidy_of (by decide) (by cbv) (by decide) (by decide) (by cbv) (by simp)
  have htidy' : Program.fetchInParens.Tidy ⟨13⟩ :=
    Builder.tidy_of (by decide) (by cbv) (by decide) (by decide) (by cbv) (by simp)
  have halike : Program.fetch.AlikeByKind Program.fetchInParens := by
    have htable : Program.fetch.integrations = #[.ofStyle "table.get" .inline] :=
      Builder.integrations_of
    have htable' : Program.fetchInParens.integrations =
        #[.ofStyle "table.put" .invoke, .ofStyle "table.get" .inline] := Builder.integrations_of
    unfold Program.AlikeByKind
    rw [htable, htable']
    intro integration hm integration' hm' hkind
    simp only [List.mem_toArray, List.mem_cons, List.not_mem_nil, or_false] at hm hm'
    subst hm
    rcases hm' with rfl | rfl
    · exact absurd hkind (by decide)
    · exact Integration.alike_ofStyle "table.get" .inline
  have htree : Program.fetch.tree ⟨9⟩ = Program.fetchInParens.tree ⟨13⟩ := by cbv
  exact ⟨htidy, htidy', halike, htree, by decide +kernel,
    (compile_eq_of_tree_eq htidy htidy' halike htree).1 {}⟩

end ClosureVtl
