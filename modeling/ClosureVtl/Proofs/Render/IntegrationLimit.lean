/-
Module: ClosureVtl.Proofs.Render.IntegrationLimit
Purpose: Limits on integration calls refuse templates and change none.
Main exports:
  Dialect.limit?, Dialect.Permits, Render.Filtered, InStep.filtered,
  Program.render_eq_ok_iff, compile_eq_ok_iff_unlimited
-/
import ClosureVtl.Proofs.Render.Inversion
import ClosureVtl.Proofs.Render.PairedHandlers

namespace ClosureVtl

/-!
A dialect may permit one call of an integration, or none.  The limit is looked at in
one place, before a call is recorded, and nothing that is recorded is forgotten again.
So a run under the limit is the run without it, as long as the calls that this one
records stay within the limit.  `Render.Filtered` says that of one step, and it is kept
by putting steps together: the calls recorded halfway are among those recorded in the
end.
-/

/-! ### Limits -/

namespace Dialect

/-- How many calls of integrations a template may have. -/
def limit? : Dialect → Option Nat
  | .mapping .response _ => some 0
  | dialect => if dialect.singleIntegration then some 1 else none

/-- Whether a template may have a number of calls. -/
def Permits (dialect : Dialect) (calls : Nat) : Prop :=
  ∀ limit ∈ dialect.limit?, calls ≤ limit

theorem Permits.mono {dialect : Dialect} {calls fewer : Nat} (h : dialect.Permits calls)
    (hle : fewer ≤ calls) : dialect.Permits fewer :=
  fun limit hlimit => Nat.le_trans hle (h limit hlimit)

theorem permits_zero (dialect : Dialect) : dialect.Permits 0 := fun _ _ => Nat.zero_le _

/-- A call is let through exactly if the limit permits one call more. -/
theorem refusal?_eq_none_iff {dialect : Dialect} {kind : String} {made : Nat} :
    dialect.refusal? kind made = none ↔ dialect.Permits (made + 1) := by
  have hsingle : ∀ {single : Bool} {cause : IllegalCall},
      (if single = true ∧ made ≠ 0 then some cause else none) = none ↔
        ∀ limit ∈ (if single = true then some 1 else none : Option Nat), made + 1 ≤ limit := by
    intro single cause
    cases single <;> simp
  rcases dialect with config | ⟨_ | _, config⟩
  · exact hsingle
  · exact hsingle
  · simp [refusal?, Permits, limit?]

/-- Without limits every call is let through. -/
theorem refusal?_unlimited (dialect : Dialect) (kind : String) (made : Nat) :
    dialect.unlimited.refusal? kind made = none := by
  rw [refusal?_eq_none_iff]
  rintro limit hlimit
  cases dialect <;> cases hlimit

end Dialect

/-! ### One step under a limit -/

namespace Render

variable {α β γ δ : Type}

/-- Whether the second step is the first one under a limit: it ends as the first does
where that one records permitted calls only, and in no other way.  All calls that the
first step records are known. -/
structure Filtered (known : IntegrationId → Prop) (permits : Nat → Prop) (R : α → β → Prop)
    (x : Render α) (x' : Render β) : Prop where
  grows : ∀ {out value final}, x.runOn out = (.ok value, final) →
    (∃ value', R value value') ∧
      ∃ more, final.integrations.toList = out.integrations.toList ++ more ∧ ∀ id ∈ more, known id
  passes : ∀ {out value final}, x.runOn out = (.ok value, final) →
    permits final.integrations.size → ∃ value', R value value' ∧ x'.runOn out = (.ok value', final)
  keeps : ∀ {out value' final}, x'.runOn out = (.ok value', final) →
    permits out.integrations.size →
      permits final.integrations.size ∧ ∃ value, R value value' ∧ x.runOn out = (.ok value, final)

namespace Filtered

variable {known : IntegrationId → Prop} {permits : Nat → Prop} {Q : α → β → Prop}
  {R : γ → δ → Prop} {x : Render α} {x' : Render β} {f : α → Render γ} {f' : β → Render δ}

/-- What is recorded halfway is recorded in the end. -/
theorem size_le (h : Filtered known permits Q x x') {out final : Output} {value : α}
    (hrun : x.runOn out = (.ok value, final)) :
    out.integrations.size ≤ final.integrations.size := by
  obtain ⟨-, more, hmore, -⟩ := h.grows hrun
  have hlength := congrArg List.length hmore
  rw [List.length_append, Array.length_toList, Array.length_toList] at hlength
  omega

theorem fault (f : Fault) : Filtered known permits Q (fault f) (Render.fault f) where
  grows h := by
    rw [runOn_fault] at h
    cases h
  passes h := by
    rw [runOn_fault] at h
    cases h
  keeps h := by
    rw [runOn_fault] at h
    cases h

/-- A step that goes on alike in both runs and records no call. -/
theorem of_runOn_eq {value : Output → α} {value' : Output → β} {next : Output → Output}
    (hx : ∀ out, x.runOn out = (.ok (value out), next out))
    (hx' : ∀ out, x'.runOn out = (.ok (value' out), next out))
    (hvalue : ∀ out, Q (value out) (value' out))
    (hnext : ∀ out, (next out).integrations = out.integrations) :
    Filtered known permits Q x x' where
  grows := by
    intro out result final h
    rw [hx] at h
    cases h
    exact ⟨⟨value' out, hvalue out⟩, [], by rw [hnext, List.append_nil], by simp⟩
  passes := by
    intro out result final h hpermits
    rw [hx] at h
    cases h
    exact ⟨value' out, hvalue out, hx' out⟩
  keeps := by
    intro out result final h hpermits
    rw [hx'] at h
    cases h
    exact ⟨by rwa [hnext], value out, hvalue out, hx out⟩

theorem bind (hmono : ∀ {calls fewer}, permits calls → fewer ≤ calls → permits fewer)
    (first : Filtered known permits Q x x')
    (next : ∀ value value', Q value value' → Filtered known permits R (f value) (f' value')) :
    Filtered known permits R (x >>= f) (x' >>= f') where
  grows := by
    intro out result final h
    obtain ⟨value, middle, hx, hf⟩ := runOn_bind_eq_ok_iff.mp h
    obtain ⟨⟨value', hvalue⟩, more, hmore, hknown⟩ := first.grows hx
    obtain ⟨hresult, rest, hrest, hknown'⟩ := (next value value' hvalue).grows hf
    refine ⟨hresult, more ++ rest, ?_, ?_⟩
    · rw [hrest, hmore, List.append_assoc]
    · intro id hid
      rcases List.mem_append.mp hid with hid | hid
      · exact hknown id hid
      · exact hknown' id hid
  passes := by
    intro out result final h hpermits
    obtain ⟨value, middle, hx, hf⟩ := runOn_bind_eq_ok_iff.mp h
    obtain ⟨⟨value', hvalue⟩, -⟩ := first.grows hx
    have hmiddle := hmono hpermits ((next value value' hvalue).size_le hf)
    obtain ⟨value', hvalue, hx'⟩ := first.passes hx hmiddle
    obtain ⟨result', hresult, hf'⟩ := (next value value' hvalue).passes hf hpermits
    exact ⟨result', hresult, runOn_bind_eq_ok_iff.mpr ⟨value', middle, hx', hf'⟩⟩
  keeps := by
    intro out result' final h hpermits
    obtain ⟨value', middle, hx', hf'⟩ := runOn_bind_eq_ok_iff.mp h
    obtain ⟨hmiddle, value, hvalue, hx⟩ := first.keeps hx' hpermits
    obtain ⟨hfinal, result, hresult, hf⟩ := (next value value' hvalue).keeps hf' hmiddle
    exact ⟨hfinal, result, hresult, runOn_bind_eq_ok_iff.mpr ⟨value, middle, hx, hf⟩⟩

end Filtered

end Render

/-! ### All steps under a limit -/

namespace Walker

variable {w w' : Walker} {known : IntegrationId → Prop} {permits : Nat → Prop}

/-- Whether the entry points of the second walker are those of the first under a
limit. -/
structure FilteredBy (w w' : Walker) (known : IntegrationId → Prop) (permits : Nat → Prop) :
    Prop where
  expression : ∀ id, Render.Filtered known permits Eq (w.expression id) (w'.expression id)
  statement : ∀ id slot,
    Render.Filtered known permits Eq (w.statement id slot) (w'.statement id slot)
  expand : ∀ pattern target,
    Render.Filtered known permits Eq (w.expand pattern target) (w'.expand pattern target)
  fragment : ∀ id, Render.Filtered known permits Eq (w.fragment id) (w'.fragment id)
  integrate : ∀ id call,
    Render.Filtered known permits Eq (w.integrate id call) (w'.integrate id call)

/-- What is put together from filtered steps is filtered. -/
theorem InStep.filtered (hw : w.FilteredBy w' known permits)
    (hmono : ∀ {calls fewer}, permits calls → fewer ≤ calls → permits fewer)
    {α β : Type} {R : α → β → Prop} {x : Render α} {x' : Render β}
    (h : InStep w w' .same R x x') : Render.Filtered known permits R x x' := by
  induction h with
  | pure hvalue =>
    exact .of_runOn_eq (Render.runOn_pure _) (Render.runOn_pure _) (fun _ => hvalue) fun _ => rfl
  | fault f => exact .fault f
  | bind _ _ ihFirst ihNext => exact .bind hmono ihFirst ihNext
  | emit line =>
    exact .of_runOn_eq (Render.runOn_emit line) (Render.runOn_emit line) (fun _ => rfl) fun _ => rfl
  | freshTemp =>
    exact .of_runOn_eq Render.runOn_freshTemp Render.runOn_freshTemp (fun _ => rfl) fun _ => rfl
  | expression h =>
    cases h
    exact hw.expression _
  | statement h slot =>
    cases h
    exact hw.statement _ slot
  | expand h target =>
    cases h
    exact hw.expand _ target
  | fragment h =>
    cases h
    exact hw.fragment _
  | integrate hi h =>
    cases hi
    cases h
    exact hw.integrate _ _

variable {d : Dialect} {table : Array Integration}

/-- A call is let through under the limit exactly if it stays within it once it has
been recorded. -/
theorem filtered_dispatch
    (hw : w.FilteredBy w' (fun id => table[id.index]?.isSome = true) d.Permits)
    (ha : w.arena = w'.arena) (hd : w.dialect = d.unlimited) (hd' : w'.dialect = d)
    (htable : ∀ integration ∈ table, integration.ThroughWalker) (id : IntegrationId)
    (call : NodeId) :
    Render.Filtered (fun id => table[id.index]?.isSome = true) d.Permits Eq
      (w.dispatch table id call) (w'.dispatch table id call) := by
  rcases hi : table[id.index]? with _ | integration
  · rw [dispatch_unknown hi, dispatch_unknown hi]
    exact .fault _
  have hhandler : Render.Filtered (fun id => table[id.index]?.isSome = true) d.Permits Eq
      (Render.ofExcept (CallSite.of w.arena call) >>= integration.handler w.dialect w)
      (Render.ofExcept (CallSite.of w'.arena call) >>= integration.handler w'.dialect w') := by
    have hsame : integration.handler w.dialect = integration.handler w'.dialect := by
      rw [hd, hd']
      cases d <;> rfl
    rw [ha, hsame]
    apply InStep.filtered hw Dialect.Permits.mono
    apply InStep.bindEq (.ofExcept _)
    intro site
    refine htable integration (Array.mem_of_getElem? hi) w'.dialect site ha ?_
    rw [hd, hd', Dialect.unlimited_unlimited]
  -- without a limit the call is recorded and handed on in any case
  have hlax : ∀ out, (w.dispatch table id call).runOn out =
      (Render.ofExcept (CallSite.of w.arena call) >>= integration.handler w.dialect w).runOn
        { out with integrations := out.integrations.push id } := by
    intro out
    rw [runOn_dispatch hi, hd, Dialect.refusal?_unlimited]
  refine ⟨?_, ?_, ?_⟩
  · intro out value final h
    rw [hlax] at h
    obtain ⟨hvalue, more, hmore, hknown⟩ := hhandler.grows h
    refine ⟨hvalue, id :: more, ?_, ?_⟩
    · rw [hmore, Array.toList_push, List.append_assoc]
      rfl
    · intro other hother
      rcases List.mem_cons.mp hother with rfl | hother
      · rw [hi]
        rfl
      · exact hknown other hother
  · intro out value final h hpermits
    rw [hlax] at h
    obtain ⟨value', hvalue, h'⟩ := hhandler.passes h hpermits
    -- what is recorded only grows, so a count that is permitted at the end was so at the call
    have hmade := hpermits.mono (hhandler.size_le h)
    rw [Array.size_push] at hmade
    refine ⟨value', hvalue, ?_⟩
    rw [runOn_dispatch hi, hd', Dialect.refusal?_eq_none_iff.mpr hmade]
    rw [hd'] at h'
    exact h'
  · intro out value' final h hpermits
    rw [runOn_dispatch hi] at h
    split at h
    · cases h
    · next hnone =>
      rw [hd'] at hnone
      have hmade := Dialect.refusal?_eq_none_iff.mp hnone
      rw [← Array.size_push id] at hmade
      obtain ⟨hfinal, value, hvalue, hrun⟩ := hhandler.keeps h hmade
      exact ⟨hfinal, value, hvalue, (hlax out).trans hrun⟩

/-- The rules keep the relation between the entry points. -/
theorem FilteredBy.above
    (hw : w.FilteredBy w' (fun id => table[id.index]?.isSome = true) d.Permits)
    (ha : w.arena = w'.arena) (hd : w.dialect = d.unlimited) (hd' : w'.dialect = d)
    (htable : ∀ integration ∈ table, integration.ThroughWalker) :
    (w.above table).FilteredBy (w'.above table) (fun id => table[id.index]?.isSome = true)
      d.Permits := by
  have habreast : w.Abreast w' .same :=
    abreast_same ha (by rw [hd, hd', Dialect.unlimited_unlimited])
  have hunwrap : ∀ id, w.arena.unwrapParens id = w'.arena.unwrapParens id := by
    intro id
    rw [ha]
  constructor
  · intro id
    exact (inStep_renderExpression habreast.alongside (habreast.faces rfl) rfl).filtered hw
      Dialect.Permits.mono
  · intro id slot
    exact (inStep_renderStatement habreast.alongside rfl (fun _ _ => habreast.statements rfl)
      slot).filtered hw Dialect.Permits.mono
  · intro pattern target
    exact (inStep_expandPattern habreast.alongside rfl target).filtered hw Dialect.Permits.mono
  · intro id
    exact (inStep_renderFragment habreast.alongside (habreast.faces (hunwrap id))
      (hunwrap id)).filtered hw Dialect.Permits.mono
  · intro id call
    exact filtered_dispatch hw ha hd hd' htable id call

end Walker

namespace Program

variable {p : Program} {d : Dialect} {root : NodeId}

/-- At every level the walker of a dialect is that of the unlimited dialect, under the
limit. -/
theorem filteredBy_walkerWithin (hp : ∀ integration ∈ p.integrations, integration.ThroughWalker)
    (n : Nat) :
    (p.walkerWithin d.unlimited n).FilteredBy (p.walkerWithin d n)
      (fun id => p.integrations[id.index]?.isSome = true) d.Permits := by
  induction n with
  | zero =>
    exact ⟨fun _ => .fault _, fun _ _ => .fault _, fun _ _ => .fault _, fun _ => .fault _,
      fun _ _ => .fault _⟩
  | succ n ih =>
    refine ih.above ?_ (p.dialect_walkerWithin _ n) (p.dialect_walkerWithin d n) hp
    rw [p.arena_walkerWithin, p.arena_walkerWithin]

/-- So are whole closures. -/
theorem filtered_renderRoot (hp : ∀ integration ∈ p.integrations, integration.ThroughWalker)
    (d : Dialect) (root : NodeId) :
    Render.Filtered (fun id => (p.integration? id).isSome = true) d.Permits Eq
      ((p.walker d.unlimited).renderRoot root) ((p.walker d).renderRoot root) := by
  have hsame : (p.walker d.unlimited).Abreast (p.walker d) .same := by
    apply Walker.abreast_same
    · exact (p.arena_walkerWithin _ _).trans (p.arena_walkerWithin _ _).symm
    · unfold walker
      rw [p.dialect_walkerWithin, p.dialect_walkerWithin, Dialect.unlimited_unlimited]
  have hroot : Walker.InStep (p.walker d.unlimited) (p.walker d) .same Eq
      ((p.walker d.unlimited).renderRoot root) ((p.walker d).renderRoot root) :=
    Walker.inStep_renderRoot hsame.alongside rfl rfl
  exact hroot.filtered (filteredBy_walkerWithin hp p.depth) Dialect.Permits.mono

/-- A closure is rendered under a limit exactly if it is rendered without, to a template
whose calls stay within the limit; and then to that template. -/
theorem render_eq_ok_iff (hp : ∀ integration ∈ p.integrations, integration.ThroughWalker)
    {out : Output} :
    p.render d root = .ok out ↔
      p.render d.unlimited root = .ok out ∧ d.Permits out.integrations.size := by
  rw [render_eq_ok_iff_runOn, render_eq_ok_iff_runOn]
  constructor
  · intro h
    obtain ⟨hpermits, _, -, hlax⟩ := (filtered_renderRoot hp d root).keeps h d.permits_zero
    exact ⟨hlax, hpermits⟩
  · rintro ⟨hlax, hpermits⟩
    obtain ⟨_, -, h⟩ := (filtered_renderRoot hp d root).passes hlax hpermits
    exact h

/-- Every call that a template records is one of an integration of the program. -/
theorem length_kinds_of_render (hp : ∀ integration ∈ p.integrations, integration.ThroughWalker)
    {out : Output} (h : p.render d.unlimited root = .ok out) :
    (out.integrations.toList.filterMap fun id => (p.integration? id).map Integration.kind).length =
      out.integrations.size := by
  obtain ⟨-, more, hmore, hknown⟩ :=
    (filtered_renderRoot hp d root).grows (render_eq_ok_iff_runOn.mp h)
  rw [← Array.length_toList]
  apply List.filterMap_length_eq_length.mpr
  intro id hid
  rw [hmore] at hid
  rw [Option.isSome_map]
  exact hknown id hid

/-! ### Compiled templates -/

/-- Compiling only wraps the outcome of rendering. -/
theorem map_render_eq_ok_iff {α : Type} {f : Output → α} {result : α} :
    (p.render d root).map f = .ok result ↔ ∃ out, p.render d root = .ok out ∧ f out = result := by
  rcases p.render d root with fault | out <;> simp [Except.map]

/-- A resolver template with at most one call is what the closure compiles to without a limit. -/
theorem compileResolver_single_iff
    (hp : ∀ integration ∈ p.integrations, integration.ThroughWalker) (config : ResolverConfig)
    {template : ResolverTemplate} :
    p.compileResolver root { config with singleIntegration := true } = .ok template ↔
      p.compileResolver root { config with singleIntegration := false } = .ok template ∧
        template.integrations.length ≤ 1 := by
  have hrender : ∀ {out : Output},
      p.render (.resolver { config with singleIntegration := true }) root = .ok out ↔
        p.render (.resolver { config with singleIntegration := false }) root = .ok out ∧
          out.integrations.size ≤ 1 := by
    intro out
    refine (render_eq_ok_iff hp).trans (and_congr_right fun _ => ?_)
    simp [Dialect.Permits, Dialect.limit?, Dialect.singleIntegration]
  -- the template lists as many calls as are recorded
  have hlength : ∀ {out : Output},
      p.render (.resolver { config with singleIntegration := false }) root = .ok out →
        (out.integrations.toList.filterMap fun id =>
          (p.integration? id).map Integration.kind).length = out.integrations.size :=
    length_kinds_of_render (d := .resolver config) hp
  unfold compileResolver
  rw [map_render_eq_ok_iff, map_render_eq_ok_iff]
  constructor
  · rintro ⟨out, h, rfl⟩
    obtain ⟨hlax, hsize⟩ := hrender.mp h
    rw [← hlength hlax] at hsize
    exact ⟨⟨out, hlax, rfl⟩, hsize⟩
  · rintro ⟨⟨out, hlax, rfl⟩, hsize⟩
    have hsize : _ ≤ 1 := hsize
    rw [hlength hlax] at hsize
    exact ⟨out, hrender.mpr ⟨hlax, hsize⟩, rfl⟩

/-- So is a request template with at most one call; the calls are those of the rendering, since a
mapping template does not list them. -/
theorem compileRequest_single_iff
    (hp : ∀ integration ∈ p.integrations, integration.ThroughWalker) (config : MappingConfig)
    {template : MappingTemplate} :
    p.compileMapping root .request { config with singleIntegration := true } = .ok template ↔
      p.compileMapping root .request { config with singleIntegration := false } = .ok template ∧
        ∃ out, p.render (.mapping .request { config with singleIntegration := false }) root =
          .ok out ∧ out.integrations.size ≤ 1 := by
  have hrender : ∀ {out : Output},
      p.render (.mapping .request { config with singleIntegration := true }) root = .ok out ↔
        p.render (.mapping .request { config with singleIntegration := false }) root = .ok out ∧
          out.integrations.size ≤ 1 := by
    intro out
    refine (render_eq_ok_iff hp).trans (and_congr_right fun _ => ?_)
    simp [Dialect.Permits, Dialect.limit?, Dialect.singleIntegration]
  unfold compileMapping
  rw [map_render_eq_ok_iff, map_render_eq_ok_iff]
  constructor
  · rintro ⟨out, h, rfl⟩
    obtain ⟨hlax, hsize⟩ := hrender.mp h
    exact ⟨⟨out, hlax, rfl⟩, out, hlax, hsize⟩
  · rintro ⟨⟨out, hlax, rfl⟩, other, hother, hsize⟩
    cases hlax.symm.trans hother
    exact ⟨out, hrender.mpr ⟨hlax, hsize⟩, rfl⟩

/-- A response template is a request template without calls. -/
theorem compileResponse_iff
    (hp : ∀ integration ∈ p.integrations, integration.ThroughWalker) (config : MappingConfig)
    {text : String} :
    p.compileMapping root .response config = .ok ⟨.response, text⟩ ↔
      p.compileMapping root .request { config with singleIntegration := false } =
          .ok ⟨.request, text⟩ ∧
        ∃ out, p.render (.mapping .request { config with singleIntegration := false }) root =
          .ok out ∧ out.integrations = #[] := by
  have hrender : ∀ {out : Output},
      p.render (.mapping .response config) root = .ok out ↔
        p.render (.mapping .request { config with singleIntegration := false }) root = .ok out ∧
          out.integrations = #[] := by
    intro out
    refine (render_eq_ok_iff hp).trans (and_congr_right fun _ => ?_)
    simp [Dialect.Permits, Dialect.limit?]
  unfold compileMapping
  rw [map_render_eq_ok_iff, map_render_eq_ok_iff]
  constructor
  · rintro ⟨out, h, htext⟩
    cases htext
    obtain ⟨hlax, hnone⟩ := hrender.mp h
    exact ⟨⟨out, hlax, rfl⟩, out, hlax, hnone⟩
  · rintro ⟨⟨out, hlax, htext⟩, other, hother, hnone⟩
    cases htext
    cases hlax.symm.trans hother
    exact ⟨out, hrender.mpr ⟨hlax, hnone⟩, rfl⟩

end Program

/-- The limits on integration calls are filters.  A resolver template with at most one
call, a request template with at most one and a response template with none is what the
same closure compiles to without limits; and a closure that compiles without limits
compiles with them if its calls stay within the limit. -/
theorem compile_eq_ok_iff_unlimited {p : Program}
    (hp : ∀ integration ∈ p.integrations, integration.ThroughWalker) (root : NodeId)
    (resolver : ResolverConfig) (mapping : MappingConfig) :
    (∀ template, p.compileResolver root { resolver with singleIntegration := true } = .ok template ↔
      p.compileResolver root { resolver with singleIntegration := false } = .ok template ∧
        template.integrations.length ≤ 1) ∧
    (∀ template,
      p.compileMapping root .request { mapping with singleIntegration := true } = .ok template ↔
        p.compileMapping root .request { mapping with singleIntegration := false } = .ok template ∧
          ∃ out, p.render (.mapping .request { mapping with singleIntegration := false }) root =
            .ok out ∧ out.integrations.size ≤ 1) ∧
    (∀ text, p.compileMapping root .response mapping = .ok ⟨.response, text⟩ ↔
      p.compileMapping root .request { mapping with singleIntegration := false } =
          .ok ⟨.request, text⟩ ∧
        ∃ out, p.render (.mapping .request { mapping with singleIntegration := false }) root =
          .ok out ∧ out.integrations = #[]) :=
  ⟨fun _ => Program.compileResolver_single_iff hp resolver,
    fun _ => Program.compileRequest_single_iff hp mapping,
    fun _ => Program.compileResponse_iff hp mapping⟩

/-- The closure `input => { return [get(input), get(input)]; }`, where `get` is an
integration. -/
def Program.twice : Program :=
  (Builder.of [.ofStyle "table.get" .inline]
    [.reference "get" (some ⟨0⟩), .identifier "input", .argument ⟨1⟩ none, .call ⟨0⟩ [⟨2⟩],
      .reference "get" (some ⟨0⟩), .identifier "input", .argument ⟨5⟩ none, .call ⟨4⟩ [⟨6⟩],
      .array [⟨3⟩, ⟨7⟩], .returnValue (some ⟨8⟩), .block [⟨9⟩], .identifier "input",
      .parameter ⟨11⟩ none, .function [⟨12⟩] ⟨10⟩]).program

/-- Two calls are permitted without a limit only. -/
theorem compile_eq_ok_iff_unlimited_twice :
    (∀ integration ∈ Program.twice.integrations, integration.ThroughWalker) ∧
      (∃ template, Program.twice.compileResolver ⟨13⟩ {} = .ok template ∧
        template.integrations = ["table.get", "table.get"]) ∧
      ∀ template,
        Program.twice.compileResolver ⟨13⟩ { singleIntegration := true } ≠ .ok template := by
  have htable : Program.twice.integrations = #[.ofStyle "table.get" .inline] := by cbv
  have hthrough : ∀ integration ∈ Program.twice.integrations, integration.ThroughWalker := by
    rw [htable]
    intro integration hm
    rw [List.mem_singleton.mp (List.mem_toArray.mp hm)]
    exact (Integration.alike_ofStyle _ _).throughWalker
  have hkinds : (Program.twice.compileResolver ⟨13⟩ {}).toOption.map ResolverTemplate.integrations =
      some ["table.get", "table.get"] := by decide +kernel
  obtain ⟨template, hlax, htwo⟩ : ∃ template, Program.twice.compileResolver ⟨13⟩ {} = .ok template ∧
      template.integrations = ["table.get", "table.get"] := by
    rcases h : Program.twice.compileResolver ⟨13⟩ {} with fault | template
    · rw [h] at hkinds
      cases hkinds
    · rw [h] at hkinds
      exact ⟨template, rfl, Option.some.inj hkinds⟩
  refine ⟨hthrough, ⟨template, hlax, htwo⟩, fun other hother => ?_⟩
  obtain ⟨hsame, hlength⟩ :=
    ((compile_eq_ok_iff_unlimited hthrough ⟨13⟩ {} {}).1 other).mp hother
  cases hlax.symm.trans hsame
  rw [htwo] at hlength
  exact absurd hlength (by decide)

end ClosureVtl
