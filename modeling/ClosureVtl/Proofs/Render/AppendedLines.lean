/-
Module: ClosureVtl.Proofs.Render.AppendedLines
Purpose: Walkers only ever append lines, whatever handlers they call, if the handlers do.
Main exports:
  Walker.Appends, Walker.InStep.appends, Integration.Appends, Integration.appends_ofStyle,
  Program.appends_walkerWithin
-/
import ClosureVtl.Proofs.Render.PairedHandlers
import ClosureVtl.Proofs.Render.RenderedParts

namespace ClosureVtl

/-!
A rule takes elementary steps and calls the walker, and none of these takes a line back.  What is
asked of a handler is no more than that: it may look at all that has been written and at the calls
on record, and it need not do the same twice.
-/

namespace Walker

/-- Whether all entry points of a walker append lines. -/
structure Appends (w : Walker) : Prop where
  expression : ∀ id, (w.expression id).Appends
  statement : ∀ id slot, (w.statement id slot).Appends
  expand : ∀ pattern target, (w.expand pattern target).Appends
  fragment : ∀ id, (w.fragment id).Appends
  integrate : ∀ id call, (w.integrate id call).Appends

variable {w w' : Walker} {table : Array Integration}

/-- What is put together from the entry points of a walker appends lines if they do.  Its results
are those of the run beside it, which is all that a later step counts on. -/
theorem InStep.appends (hw : w.Appends) {α β : Type} {R : α → β → Prop} {x : Render α}
    {x' : Render β} (h : InStep w w' .same R x x') :
    x.Appends ∧
      ∀ {out value final}, x.runOn out = (.ok value, final) → ∃ value', R value value' := by
  induction h with
  | @pure _ _ _ given given' hgiven =>
    refine ⟨Render.appends_pure given, ?_⟩
    intro out value final hrun
    cases (Render.runOn_pure given out).symm.trans hrun
    exact ⟨given', hgiven⟩
  | fault f =>
    refine ⟨Render.appends_fault f, ?_⟩
    intro out value final hrun
    cases (Render.runOn_fault f out).symm.trans hrun
  | bind first next ihFirst ihNext =>
    constructor
    · intro out result final hrun
      obtain ⟨value, middle, hx, hf⟩ := Render.runOn_bind_eq_ok_iff.mp hrun
      obtain ⟨value', hvalue⟩ := ihFirst.2 hx
      exact (ihFirst.1 hx).trans ((ihNext value value' hvalue).1 hf)
    · intro out result final hrun
      obtain ⟨value, middle, hx, hf⟩ := Render.runOn_bind_eq_ok_iff.mp hrun
      obtain ⟨value', hvalue⟩ := ihFirst.2 hx
      exact (ihNext value value' hvalue).2 hf
  | emit line => exact ⟨Render.appends_emit line, fun _ => ⟨_, rfl⟩⟩
  | freshTemp => exact ⟨Render.appends_freshTemp, fun _ => ⟨_, rfl⟩⟩
  | expression _ => exact ⟨hw.expression _, fun _ => ⟨_, rfl⟩⟩
  | statement _ slot => exact ⟨hw.statement _ slot, fun _ => ⟨_, rfl⟩⟩
  | expand _ target => exact ⟨hw.expand _ target, fun _ => ⟨_, rfl⟩⟩
  | fragment _ => exact ⟨hw.fragment _, fun _ => ⟨_, rfl⟩⟩
  | integrate _ _ => exact ⟨hw.integrate _ _, fun _ => ⟨_, rfl⟩⟩

theorem Appends.reference (hw : w.Appends) (id : NodeId) : (w.reference id).Appends :=
  ((inStep_reference (abreast_same rfl rfl : w.Abreast w .same).alongside rfl).appends hw).1

end Walker

/-! ### Handlers -/

/-- Whether the handlers of an integration append lines, under walkers that do. -/
def Integration.Appends (integration : Integration) : Prop :=
  ∀ {w : Walker} (dialect : Dialect) (site : CallSite), w.Appends →
    (integration.handler dialect w site).Appends

/-- A handler that works through the walker appends lines. -/
theorem Integration.ThroughWalker.appends {integration : Integration}
    (h : integration.ThroughWalker) : integration.Appends :=
  fun dialect site hw => ((h dialect site rfl rfl).appends hw).1

theorem Integration.appends_ofStyle (kind : String) (style : Integration.Style) :
    (Integration.ofStyle kind style).Appends :=
  (Integration.alike_ofStyle kind style).throughWalker.appends

namespace Walker

variable {w : Walker} {table : Array Integration}

theorem appends_dispatch (hw : w.Appends) (htable : ∀ integration ∈ table, integration.Appends)
    (id : IntegrationId) (call : NodeId) : (w.dispatch table id call).Appends := by
  rcases hi : table[id.index]? with _ | integration
  · rw [dispatch_unknown hi]
    exact Render.appends_fault _
  intro out text final h
  rw [runOn_dispatch hi] at h
  split at h
  · cases h
  · have hsite : (Render.ofExcept (CallSite.of w.arena call)).Appends := by
      cases CallSite.of w.arena call with
      | error f => exact Render.appends_fault f
      | ok site => exact Render.appends_pure site
    have hhandler := hsite.bind fun site =>
      htable integration (Array.mem_of_getElem? hi) w.dialect site hw
    have hlines := hhandler h
    exact hlines

/-- The rules append lines if the walker does that they call. -/
theorem Appends.above (hw : w.Appends) (htable : ∀ integration ∈ table, integration.Appends) :
    (w.above table).Appends := by
  have hsame : w.Abreast w .same := abreast_same rfl rfl
  constructor
  · intro id
    exact ((inStep_renderExpression hsame.alongside (hsame.faces rfl) rfl).appends hw).1
  · intro id slot
    exact ((inStep_renderStatement hsame.alongside rfl (fun _ _ => hsame.statements rfl)
      slot).appends hw).1
  · intro pattern target
    exact ((inStep_expandPattern hsame.alongside rfl target).appends hw).1
  · intro id
    exact ((inStep_renderFragment hsame.alongside (hsame.faces rfl) rfl).appends hw).1
  · exact appends_dispatch hw htable

end Walker

/-- At every level the walker of a program appends lines. -/
theorem Program.appends_walkerWithin {p : Program}
    (hp : ∀ integration ∈ p.integrations, integration.Appends) (dialect : Dialect) (n : Nat) :
    (p.walkerWithin dialect n).Appends := by
  induction n with
  | zero =>
    exact ⟨fun _ => Render.appends_fault _, fun _ _ => Render.appends_fault _,
      fun _ _ => Render.appends_fault _, fun _ => Render.appends_fault _,
      fun _ _ => Render.appends_fault _⟩
  | succ n ih => exact ih.above hp

end ClosureVtl
