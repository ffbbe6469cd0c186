/-
Module: ClosureVtl.Proofs.Render.CallCount
Purpose: No call of an integration is rendered twice.
Main exports:
  Render.Records, Walker.Records, Walker.Spends.records, Walker.Records.above,
  count_integrations_le
-/
import ClosureVtl.Proofs.Render.SpendingRules

namespace ClosureVtl

/-!
When a node weighs as much as there are calls of an integration at and below it, a rule that
stays within that weight records no more calls than there are, if the walker below does: handing
a call to the integration records one, and what is left of the weight of the call pays for its
arguments.
-/

/-! ### Recorded calls -/

namespace Render

/-- A step that goes on after a fault keeps what was written before it. -/
theorem runOn_tryCatch {α : Type} (x : Render α) (f : Fault → Render α) (out : Output) :
    (tryCatch x f : Render α).runOn out =
      match x.runOn out with
      | (.ok value, out) => (.ok value, out)
      | (.error cause, out) => (f cause).runOn out := by
  simp only [runOn, ExceptT.run_tryCatch]
  rw [StateT.run_bind]
  generalize StateT.run (ExceptT.run x) out = r
  rcases r with ⟨_ | _, _⟩ <;> rfl

/-- Whether every run of a step, however it ends, records a number of calls of an integration
at most. -/
def Records {α : Type} (called : IntegrationId) (x : Render α) (n : Nat) : Prop :=
  ∀ out, (x.runOn out).2.integrations.toList.count called ≤
    out.integrations.toList.count called + n

namespace Records

variable {α β : Type} {called : IntegrationId} {x : Render α} {f : α → Render β} {n m : Nat}

theorem mono (h : x.Records called n) (hle : n ≤ m) : x.Records called m := fun out =>
  (h out).trans (Nat.add_le_add_left hle _)

theorem fault (cause : Fault) : (Render.fault cause : Render α).Records called n := fun _ =>
  Nat.le_add_right _ _

theorem bind (first : x.Records called n)
    (next : ∀ value, x.Yields value → (f value).Records called m) :
    (x >>= f).Records called (n + m) := by
  intro out
  have hfirst := first out
  rw [runOn_bind]
  rcases hx : x.runOn out with ⟨cause | value, middle⟩
  · rw [hx] at hfirst
    exact hfirst.trans (Nat.add_le_add_left (Nat.le_add_right n m) _)
  · rw [hx] at hfirst
    have hnext := next value ⟨out, middle, hx⟩ middle
    dsimp only at hfirst ⊢
    omega

/-- What a step recorded stays recorded when another one goes on after its fault. -/
theorem recover {f : Fault → Render α} (first : x.Records called n)
    (next : ∀ cause, (f cause).Records called m) : (tryCatch x f).Records called (n + m) := by
  intro out
  have hfirst := first out
  rw [runOn_tryCatch]
  rcases hx : x.runOn out with ⟨cause | value, middle⟩
  · rw [hx] at hfirst
    have hnext := next cause middle
    dsimp only at hfirst ⊢
    omega
  · rw [hx] at hfirst
    exact hfirst.trans (Nat.add_le_add_left (Nat.le_add_right n m) _)

theorem get {f : Output → Render α} (next : ∀ out, (f out).Records called n) :
    (MonadState.get >>= f).Records called n := fun out => next out out

theorem record (id : IntegrationId) :
    (recordIntegration id).Records called (if id = called then 1 else 0) := by
  intro out
  rw [runOn_recordIntegration]
  simp [List.count_append, List.count_singleton]

end Records

end Render

namespace Walker

/-- Whether the entry points of a walker record no more calls of an integration than a node
weighs. -/
structure Records (w : Walker) (called : IntegrationId) (weight : NodeId → Nat) : Prop where
  expression : ∀ id, (w.expression id).Records called (weight id)
  statement : ∀ id slot, (w.statement id slot).Records called (weight id)
  expand : ∀ pattern target, (w.expand pattern target).Records called (weight pattern)
  fragment : ∀ id, (w.fragment id).Records called (weight id)
  integrate : ∀ {id : IntegrationId} {call callee : NodeId} {args : List NodeId},
    w.arena.get? call = some (.call callee args) →
    w.arena.resolveIntegration callee = some id →
    (w.integrate id call).Records called (weight call)

variable {w : Walker} {called : IntegrationId} {weight : NodeId → Nat} {n : Nat}

/-- A step that keeps to a budget records no more calls than that. -/
theorem Spends.records (hw : w.Records called weight) {α : Type} {x : Render α}
    (h : w.Spends weight x n) : x.Records called n := by
  induction h with
  | pure value => exact fun out => Nat.le_refl _
  | fault f => exact .fault f
  | bind first next ihFirst ihNext => exact .bind ihFirst ihNext
  | recover first next ihFirst ihNext => exact .recover ihFirst ihNext
  | get next ih => exact .get ih
  | emit line => exact fun out => Nat.le_refl _
  | freshTemp => exact fun out => Nat.le_refl _
  | expression id => exact hw.expression id
  | statement id slot => exact hw.statement id slot
  | expand pattern target => exact hw.expand pattern target
  | fragment id => exact hw.fragment id
  | integrate hn hr => exact hw.integrate hn hr
  | mono h hle ih => exact ih.mono hle

/-- Handing a call to its integration records that call, and those in its arguments. -/
theorem records_dispatch {table : Array Integration} (ha : w.arena.Grown)
    (htable : ∀ integration ∈ table, integration.RendersArgumentsOnce)
    (hw : w.Records called (w.arena.callCount called)) {id : IntegrationId} {call callee : NodeId}
    {args : List NodeId} (hn : w.arena.get? call = some (.call callee args))
    (hr : w.arena.resolveIntegration callee = some id) :
    (w.dispatch table id call).Records called (w.arena.callCount called call) := by
  have hweighs := ha.weighs_callCount called
  have hparts := ha.callCount_eq hn called
  have hargs := hweighs.argumentExprs_le args
  have hcall : w.arena.isCallOf called call = true ↔ id = called := by
    simp [Arena.isCallOf, hn, hr]
  simp only [hcall, Node.children, List.map_cons, List.sum_cons] at hparts
  have hsite : CallSite.of w.arena call = .ok { call, args := args.map w.arena.argumentExpr } := by
    simp only [CallSite.of, Arena.node_eq_ok_iff.mpr hn]
  unfold dispatch
  split
  · exact .fault _
  · next integration hi =>
    have hhandler := htable integration (Array.mem_of_getElem? hi) w (w.arena.callCount called)
      { call, args := args.map w.arena.argumentExpr } hweighs
    have hrecorded : Render.Records called (do
        Render.recordIntegration id
        let site ← Render.ofExcept (CallSite.of w.arena call)
        integration.handler w.dialect w site) (w.arena.callCount called call) := by
      rw [hsite]
      refine .mono (.bind (.record id) fun _ _ => hhandler.records hw) ?_
      dsimp only
      omega
    refine .get fun out => ?_
    split
    · exact .fault _
    · exact hrecorded

/-- Walkers record no more calls than there are if they do not one level below. -/
theorem Records.above {table : Array Integration} (ha : w.arena.Grown)
    (htable : ∀ integration ∈ table, integration.RendersArgumentsOnce)
    (hw : w.Records called (w.arena.callCount called)) :
    (w.above table).Records called (w.arena.callCount called) where
  expression id := (spends_renderExpression (ha.weighs_callCount called) id).records hw
  statement id slot := (spends_renderStatement (ha.weighs_callCount called) id slot).records hw
  expand pattern target :=
    (spends_expandPattern (ha.weighs_callCount called) pattern target).records hw
  fragment id := (spends_renderFragment (ha.weighs_callCount called) id).records hw
  integrate hn hr := records_dispatch ha htable hw hn hr

end Walker

namespace Program

variable {p : Program} {called : IntegrationId}

theorem records_walkerWithin (hp : p.BottomUp)
    (htable : ∀ integration ∈ p.integrations, integration.RendersArgumentsOnce)
    (dialect : Dialect) (called : IntegrationId) (n : Nat) :
    (p.walkerWithin dialect n).Records called (p.arena.callCount called) := by
  induction n with
  | zero =>
    exact ⟨fun _ => .fault _, fun _ _ => .fault _, fun _ _ => .fault _, fun _ => .fault _,
      fun _ _ => .fault _⟩
  | succ n ih =>
    have harena := p.arena_walkerWithin dialect n
    rw [← harena] at ih
    have habove := Walker.Records.above (harena ▸ hp.grown) htable ih
    rw [harena] at habove
    exact habove

end Program

/-- No call is rendered twice.  If no handler renders an argument twice, then rendering a
closure records each integration at most as often as it is called at and below the root,
whether the rendering ends well or not. -/
theorem count_integrations_le {p : Program} (hp : p.BottomUp)
    (htable : ∀ integration ∈ p.integrations, integration.RendersArgumentsOnce)
    (dialect : Dialect) (root : NodeId) (called : IntegrationId) :
    (((p.walker dialect).renderRoot root).runOn {}).2.integrations.toList.count called ≤
      p.arena.callCount called root := by
  have harena := p.arena_walkerWithin dialect p.depth
  have hroot : ((p.walker dialect).renderRoot root).Records called (p.arena.callCount called root) :=
    (Walker.spends_renderRoot (harena ▸ hp.grown.weighs_callCount called) root).records
      (p.records_walkerWithin hp htable dialect called p.depth)
  simpa using hroot {}

/-- The closure `input => { return get(get(input)); }`, where `get` is an integration. -/
def Program.nested : Program :=
  (Builder.of [.ofStyle "table.get" .inline]
    [.reference "get" (some ⟨0⟩), .identifier "input", .argument ⟨1⟩ none, .call ⟨0⟩ [⟨2⟩],
      .reference "get" (some ⟨0⟩), .argument ⟨3⟩ none, .call ⟨4⟩ [⟨5⟩], .returnValue (some ⟨6⟩),
      .block [⟨7⟩], .identifier "input", .parameter ⟨9⟩ none, .function [⟨10⟩] ⟨8⟩]).program

/-- Of nested calls each is recorded once: the bound is met. -/
theorem count_integrations_le_nested :
    (((Program.nested.walker (.resolver {})).renderRoot ⟨11⟩).runOn {}).2.integrations.toList.count
        ⟨0⟩ ≤ Program.nested.arena.callCount ⟨0⟩ ⟨11⟩ ∧
      Program.nested.arena.callCount ⟨0⟩ ⟨11⟩ = 2 ∧
      (((Program.nested.walker (.resolver {})).renderRoot ⟨11⟩).runOn {}).2.integrations =
        #[⟨0⟩, ⟨0⟩] := by
  have hbottom : Program.nested.BottomUp := Builder.bottomUp_of (by decide) (by cbv)
  have htable : ∀ integration ∈ Program.nested.integrations, integration.RendersArgumentsOnce := by
    have hintegrations : Program.nested.integrations = #[.ofStyle "table.get" .inline] :=
      Builder.integrations_of
    rw [hintegrations]
    intro integration hm
    rw [List.mem_singleton.mp (List.mem_toArray.mp hm)]
    exact Integration.rendersArgumentsOnce_ofStyle _ _
  exact ⟨count_integrations_le hbottom htable (.resolver {}) ⟨11⟩ ⟨0⟩, by decide +kernel,
    by decide +kernel⟩

end ClosureVtl
