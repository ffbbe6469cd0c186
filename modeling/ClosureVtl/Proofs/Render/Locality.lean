/-
Module: ClosureVtl.Proofs.Render.Locality
Purpose: What a walker writes does not depend on what was written before it.
Main exports:
  Render.Local, Walker.Local, Walker.InStep.local, Integration.Local,
  Integration.Local.ofStyle, Program.run_alike
-/
import ClosureVtl.Proofs.Closure.Descent
import ClosureVtl.Proofs.Render.Emission
import ClosureVtl.Proofs.Render.PairedHandlers
import ClosureVtl.Proofs.Render.Rules

namespace ClosureVtl

/-!
A template only grows.  Rendering looks at two things that it has left behind, at the number of
temporaries, to name the next one, and at the number of calls, to refuse one too many; it never
looks at a line.  So what an operation does is settled by these two, whether it ends well or
faults halfway: a result, the lines that it appends, the temporaries that it takes and the calls
that it records.  `Render.Local` says so of one step.
-/

namespace Render

variable {α β : Type}

/-- Whether a step does the same to all templates with so many temporaries and these calls: it
ends with one result and appends to each of them. -/
def Local (x : Render α) : Prop :=
  ∀ (temps : Nat) (calls : Array IntegrationId),
    ∃ (result : Except Fault α) (lines : List String) (new : Nat) (more : Array IntegrationId),
      ∀ out : Output, out.temps = temps → out.integrations = calls →
        x.runOn out = (result, out.extend lines new (calls ++ more))

namespace Local

theorem pure (value : α) : Local (Pure.pure value : Render α) := by
  intro temps calls
  refine ⟨.ok value, [], 0, #[], ?_⟩
  rintro out rfl rfl
  simp [runOn_pure, Output.extend]

theorem fault (f : Fault) : Local (Render.fault f : Render α) := by
  intro temps calls
  refine ⟨.error f, [], 0, #[], ?_⟩
  rintro out rfl rfl
  simp [runOn_fault, Output.extend]

theorem emit (line : String) : Local (Render.emit line) := by
  intro temps calls
  refine ⟨.ok (), [line], 0, #[], ?_⟩
  rintro out rfl rfl
  simp [runOn_emit, Output.extend]

theorem freshTemp : Local Render.freshTemp := by
  intro temps calls
  refine ⟨.ok (tempName (temps + 1)), [], 1, #[], ?_⟩
  rintro out rfl rfl
  simp [runOn_freshTemp, Output.extend]

/-- A step that goes on from a template which a local one has extended. -/
theorem bind {x : Render α} {f : α → Render β} (hx : x.Local)
    (hf : ∀ {out value final}, x.runOn out = (.ok value, final) → (f value).Local) :
    (x >>= f).Local := by
  intro temps calls
  obtain ⟨result, lines, new, more, hrun⟩ := hx temps calls
  rcases result with fault | value
  · -- the fault ends the run, and with it what is appended
    refine ⟨.error fault, lines, new, more, ?_⟩
    intro out htemps hcalls
    rw [runOn_bind, hrun out htemps hcalls]
  have hlocal : (f value).Local := hf (hrun ⟨#[], temps, calls⟩ rfl rfl)
  obtain ⟨result, rest, later, others, hnext⟩ := hlocal (temps + new) (calls ++ more)
  refine ⟨result, lines ++ rest, new + later, more ++ others, ?_⟩
  intro out htemps hcalls
  rw [runOn_bind, hrun out htemps hcalls]
  show (f value).runOn (out.extend lines new (calls ++ more)) = _
  rw [hnext _ (by rw [Output.temps_extend, htemps]) (Output.integrations_extend ..),
    Output.extend_extend, Array.append_assoc]

end Local

end Render

namespace Walker

/-- Whether all entry points of a walker are local. -/
structure Local (w : Walker) : Prop where
  expression : ∀ id, (w.expression id).Local
  statement : ∀ id slot, (w.statement id slot).Local
  expand : ∀ pattern target, (w.expand pattern target).Local
  fragment : ∀ id, (w.fragment id).Local
  integrate : ∀ id call, (w.integrate id call).Local

/-- What is put together from the entry points of a local walker is local.  Its results are
those of the run beside it, which is all that a later step counts on. -/
theorem InStep.local {w w' : Walker} (hw : w.Local) {α β : Type} {R : α → β → Prop}
    {x : Render α} {x' : Render β} (h : InStep w w' .same R x x') :
    x.Local ∧ ∀ {out value final}, x.runOn out = (.ok value, final) → ∃ value', R value value' := by
  induction h with
  | @pure _ _ _ given given' hgiven =>
    refine ⟨.pure given, ?_⟩
    intro out value final hrun
    cases (Render.runOn_pure given out).symm.trans hrun
    exact ⟨given', hgiven⟩
  | fault f =>
    refine ⟨.fault f, ?_⟩
    intro out value final hrun
    cases (Render.runOn_fault f out).symm.trans hrun
  | bind first next ihFirst ihNext =>
    refine ⟨ihFirst.1.bind ?_, ?_⟩
    · intro out value final hrun
      obtain ⟨value', hvalue⟩ := ihFirst.2 hrun
      exact (ihNext value value' hvalue).1
    · intro out result final hrun
      obtain ⟨value, middle, hx, hf⟩ := Render.runOn_bind_eq_ok_iff.mp hrun
      obtain ⟨value', hvalue⟩ := ihFirst.2 hx
      exact (ihNext value value' hvalue).2 hf
  | emit line => exact ⟨.emit line, fun _ => ⟨_, rfl⟩⟩
  | freshTemp => exact ⟨.freshTemp, fun _ => ⟨_, rfl⟩⟩
  | expression _ => exact ⟨hw.expression _, fun _ => ⟨_, rfl⟩⟩
  | statement _ slot => exact ⟨hw.statement _ slot, fun _ => ⟨_, rfl⟩⟩
  | expand _ target => exact ⟨hw.expand _ target, fun _ => ⟨_, rfl⟩⟩
  | fragment _ => exact ⟨hw.fragment _, fun _ => ⟨_, rfl⟩⟩
  | integrate _ _ => exact ⟨hw.integrate _ _, fun _ => ⟨_, rfl⟩⟩

end Walker

/-! ### Handlers -/

/-- Whether the handlers of an integration are local, under walkers that are. -/
def Integration.Local (integration : Integration) : Prop :=
  ∀ {w : Walker} (dialect : Dialect) (site : CallSite), w.Local →
    (integration.handler dialect w site).Local

/-- A handler that works through the walker is local. -/
theorem Integration.ThroughWalker.local {integration : Integration}
    (h : integration.ThroughWalker) : integration.Local :=
  fun dialect site hw => ((h dialect site rfl rfl).local hw).1

theorem Integration.Local.ofStyle (kind : String) (style : Integration.Style) :
    (Integration.ofStyle kind style).Local :=
  (Integration.alike_ofStyle kind style).throughWalker.local

namespace Walker

variable {w : Walker} {table : Array Integration}

/-- A call is refused by the number of calls before it, and recorded behind them. -/
theorem local_dispatch (hw : w.Local) (htable : ∀ integration ∈ table, integration.Local)
    (id : IntegrationId) (call : NodeId) : (w.dispatch table id call).Local := by
  rcases hi : table[id.index]? with _ | integration
  · rw [dispatch_unknown hi]
    exact .fault _
  have hhandler : (Render.ofExcept (CallSite.of w.arena call) >>=
      integration.handler w.dialect w).Local := by
    have hsite : InStep w w .same Eq (Render.ofExcept (CallSite.of w.arena call))
        (Render.ofExcept (CallSite.of w.arena call)) := .ofExcept _
    refine .bind (hsite.local hw).1 fun _ => ?_
    exact htable integration (Array.mem_of_getElem? hi) w.dialect _ hw
  intro temps calls
  rcases hrefusal : w.dialect.refusal? integration.kind calls.size with _ | cause
  · obtain ⟨result, lines, new, more, hrun⟩ := hhandler temps (calls.push id)
    refine ⟨result, lines, new, #[id] ++ more, ?_⟩
    intro out htemps hcalls
    rw [runOn_dispatch hi, hcalls, hrefusal]
    refine (hrun { out with integrations := calls.push id } htemps rfl).trans ?_
    rw [← Array.append_assoc, Array.push_eq_append]
    rfl
  · refine ⟨.error (.illegalCall cause), [], 0, #[], ?_⟩
    rintro out rfl rfl
    rw [runOn_dispatch hi, hrefusal]
    simp [Output.extend]

/-- The rules keep a walker local. -/
theorem Local.above (hw : w.Local) (htable : ∀ integration ∈ table, integration.Local) :
    (w.above table).Local := by
  have hsame : w.Abreast w .same := abreast_same rfl rfl
  constructor
  · intro id
    exact ((inStep_renderExpression hsame.alongside (hsame.faces rfl) rfl).local hw).1
  · intro id slot
    exact ((inStep_renderStatement hsame.alongside rfl (fun _ _ => hsame.statements rfl)
      slot).local hw).1
  · intro pattern target
    exact ((inStep_expandPattern hsame.alongside rfl target).local hw).1
  · intro id
    exact ((inStep_renderFragment hsame.alongside (hsame.faces rfl) rfl).local hw).1
  · intro id call
    exact local_dispatch hw htable id call

/-- Operations of a local walker are local. -/
theorem Local.run (hw : w.Local) (operation : Operation) : (w.run operation).Local := by
  have hsame : w.Abreast w .same := abreast_same rfl rfl
  cases operation with
  | root id =>
    exact .bind ((inStep_renderRoot hsame.alongside rfl rfl).local hw).1 fun _ => .pure _
  | statement id slot => exact .bind (hw.statement id slot) fun _ => .pure _
  | expression id => exact .bind (hw.expression id) fun _ => .pure _
  | reference id =>
    exact .bind ((inStep_reference hsame.alongside rfl).local hw).1 fun _ => .pure _
  | argument id =>
    exact .bind ((inStep_argument hsame.alongside rfl).local hw).1 fun _ => .pure _
  | expand pattern target => exact .bind (hw.expand pattern target) fun _ => .pure _
  | fragment id => exact .bind (hw.fragment id) fun _ => .pure _

end Walker

/-! ### Programs -/

namespace Program

variable {p : Program}

theorem local_walkerWithin (hp : ∀ integration ∈ p.integrations, integration.Local)
    (dialect : Dialect) (n : Nat) : (p.walkerWithin dialect n).Local := by
  induction n with
  | zero =>
    exact ⟨fun _ => .fault _, fun _ _ => .fault _, fun _ _ => .fault _, fun _ => .fault _,
      fun _ _ => .fault _⟩
  | succ n ih => exact ih.above hp

/-- Two templates with as many temporaries and the same calls, and any lines, are extended
alike.  An operation ends with one result in both, be it a value or a fault; it appends the
same lines to both, takes as many temporaries beyond those in use and records the same calls
behind those on record. -/
theorem run_alike (hp : ∀ integration ∈ p.integrations, integration.Local) (dialect : Dialect)
    (operation : Walker.Operation) {out out' : Output} (htemps : out.temps = out'.temps)
    (hcalls : out.integrations = out'.integrations) :
    ∃ (result : Except Fault (Option String)) (lines : List String) (new : Nat)
        (calls : Array IntegrationId),
      ((p.walker dialect).run operation).runOn out =
        (result, out.extend lines new (out.integrations ++ calls)) ∧
      ((p.walker dialect).run operation).runOn out' =
        (result, out'.extend lines new (out'.integrations ++ calls)) := by
  have hlocal : ((p.walker dialect).run operation).Local :=
    (local_walkerWithin hp dialect p.depth).run operation
  obtain ⟨result, lines, new, calls, hrun⟩ := hlocal out.temps out.integrations
  refine ⟨result, lines, new, calls, hrun out rfl rfl, ?_⟩
  rw [hrun out' htemps.symm hcalls.symm, hcalls]

/-- The closure `input => { if (input.ok) { get(input); throw input; } }`, where `get` is an
integration. -/
def thrower : Program :=
  (Builder.of [.ofStyle "table.get" .invoke]
    [.identifier "input", .member ⟨0⟩ "ok", .reference "get" (some ⟨0⟩), .identifier "input",
      .argument ⟨3⟩ none, .call ⟨2⟩ [⟨4⟩], .exprStatement ⟨5⟩, .identifier "input", .throw ⟨7⟩,
      .block [⟨6⟩, ⟨8⟩], .branch ⟨1⟩ ⟨9⟩ none, .block [⟨10⟩], .identifier "input",
      .parameter ⟨12⟩ none, .function [⟨13⟩] ⟨11⟩]).program

/-- A fault inside an open branch leaves the same lines behind whatever has been written
before. -/
theorem run_alike_thrower :
    ∃ (lines : List String) (new : Nat) (calls : Array IntegrationId),
      ((thrower.walker (.resolver {})).run (.root ⟨14⟩)).runOn ⟨#["#if($x)", "#else"], 2, #[]⟩ =
        (.error (.unsupported (.construct "throw")),
          ⟨#["#if($x)", "#else"] ++ lines.toArray, 2 + new, calls⟩) ∧
      ((thrower.walker (.resolver {})).run (.root ⟨14⟩)).runOn ⟨#[], 2, #[]⟩ =
        (.error (.unsupported (.construct "throw")), ⟨lines.toArray, 2 + new, calls⟩) ∧
      lines.length = 2 ∧ calls = #[⟨0⟩] := by
  have htable : thrower.integrations = #[.ofStyle "table.get" .invoke] := by cbv
  have hlocal : ∀ integration ∈ thrower.integrations, integration.Local := by
    rw [htable]
    intro integration hm
    rw [List.mem_singleton.mp (List.mem_toArray.mp hm)]
    exact Integration.Local.ofStyle _ _
  have htemps : (⟨#["#if($x)", "#else"], 2, #[]⟩ : Output).temps = (⟨#[], 2, #[]⟩ : Output).temps :=
    rfl
  obtain ⟨result, lines, new, calls, hrun, hrun'⟩ :=
    run_alike hlocal (.resolver {}) (.root ⟨14⟩) htemps rfl
  have hresult : (((thrower.walker (.resolver {})).run (.root ⟨14⟩)).runOn ⟨#[], 2, #[]⟩).1 =
      .error (.unsupported (.construct "throw")) := by decide +kernel
  have hlines : (((thrower.walker (.resolver {})).run (.root ⟨14⟩)).runOn
      ⟨#[], 2, #[]⟩).2.lines.size = 2 := by decide +kernel
  have hcalls : (((thrower.walker (.resolver {})).run (.root ⟨14⟩)).runOn
      ⟨#[], 2, #[]⟩).2.integrations = #[⟨0⟩] := by decide +kernel
  rw [hrun'] at hresult hlines hcalls
  cases hresult
  refine ⟨lines, new, calls, ?_, ?_, ?_, ?_⟩
  · simpa [Output.extend] using hrun
  · simpa [Output.extend] using hrun'
  · simpa [Output.extend] using hlines
  · simpa using hcalls

end Program

end ClosureVtl
