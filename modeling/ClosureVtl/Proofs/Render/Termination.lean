/-
Module: ClosureVtl.Proofs.Render.Termination
Purpose: All queries about a closure and all renderings of it end.
Main exports:
  Program.EndsFor, Program.RenderingsEnd, walks_and_renderings_end
-/
import ClosureVtl.Proofs.Render.Levels

namespace ClosureVtl

/-!
The walker of a program has a number of levels, and the last of them renders nothing.  That
rendering ends by itself is said by putting any other walker in the place of the last level:
with levels enough no rendering asks for what is below them, so that its run stays the same.
-/

namespace Program

/-- Whether a rendering ends when it is left to itself: with a number of levels its run is
that of the program's walker, whatever is below these levels. -/
def EndsFor (p : Program) (dialect : Dialect) {α : Type} (rendering : Walker → Render α) : Prop :=
  ∃ n, ∀ deeper : Walker, deeper.arena = p.arena → deeper.dialect = dialect → ∀ out,
    (rendering (deeper.over p.integrations n)).runOn out =
      (rendering (p.walker dialect)).runOn out

/-- Whether all that a program can be rendered to in a dialect ends: each node by each entry
point, and whole closures. -/
structure RenderingsEnd (p : Program) (dialect : Dialect) : Prop where
  expression : ∀ id, p.EndsFor dialect fun w => w.expression id
  statement : ∀ id slot, p.EndsFor dialect fun w => w.statement id slot
  expand : ∀ pattern target, p.EndsFor dialect fun w => w.expand pattern target
  fragment : ∀ id, p.EndsFor dialect fun w => w.fragment id
  integrate : ∀ id call, p.EndsFor dialect fun w => w.integrate id call
  closure : ∀ root, p.EndsFor dialect fun w => w.renderRoot root

variable {p : Program} {dialect : Dialect}

/-- The levels of a program suffice for all of its nodes. -/
theorem depth_suffices (p : Program) (id : NodeId) : 3 * p.arena.age id + 2 ≤ p.depth := by
  have hage := p.arena.age_le_size id
  unfold depth
  omega

/-- A rendering that only depends on what walkers agree on ends: any walker below the levels of the
program is as good as none. -/
theorem BottomUp.endsFor {α : Type} {rendering : Walker → Render α} (hp : p.BottomUp)
    (htable : ∀ integration ∈ p.integrations, integration.Alike integration) (dialect : Dialect)
    (hrendering : ∀ {w w' : Walker}, w.arena = p.arena → w'.arena = p.arena →
      w.dialect = w'.dialect →
        w.Agrees w' (.levels p.arena (fun _ => True) (fun _ => True) p.depth) →
          Render.Agree Eq Eq (rendering w) (rendering w')) :
    p.EndsFor dialect rendering := by
  refine ⟨p.depth, fun deeper harena hdialect out => ?_⟩
  have hexhausted : (Walker.exhausted p.arena dialect).arena = p.arena := rfl
  have hsame : deeper.dialect = (Walker.exhausted p.arena dialect).dialect := hdialect
  rw [walker, walkerWithin_eq_over]
  apply Render.Agree.runOn_eq
  apply hrendering
  · rw [Walker.arena_over, harena]
  · rw [Walker.arena_over, hexhausted]
  · rw [Walker.dialect_over, Walker.dialect_over, hsame]
  · exact Walker.agrees_over (.refl p.arena) hp.grown hp.grown htable harena hexhausted hsame
      p.depth

/-- Each entry point is such a rendering, and so is the rendering of a closure. -/
theorem BottomUp.renderingsEnd (hp : p.BottomUp)
    (htable : ∀ integration ∈ p.integrations, integration.Alike integration) (dialect : Dialect) :
    p.RenderingsEnd dialect := by
  have ha := hp.grown
  have hown : ∀ id, (Correspondence.levels p.arena (fun _ => True) (fun _ => True)
      p.depth).node id id := fun id => ⟨rfl, trivial, p.depth_suffices id⟩
  have hcalls : ∀ entry id, (Correspondence.levels p.arena (fun _ => True) (fun _ => True)
      p.depth).calls entry id id := by
    intro entry id
    have hsuffices := p.depth_suffices id
    exact ⟨rfl, (Arena.AlikeBelow.refl p.arena).reached_of_inner entry trivial, by omega,
      by cases entry <;> simp only [EntryPoint.levels] <;> omega⟩
  constructor
  · exact fun id => hp.endsFor htable dialect fun _ _ _ h => h.expression (hcalls _ id)
  · exact fun id slot => hp.endsFor htable dialect fun _ _ _ h => h.statement (hcalls _ id) slot
  · exact fun pattern target => hp.endsFor htable dialect fun _ _ _ h => h.expand (hcalls _ pattern) target
  · exact fun id => hp.endsFor htable dialect fun _ _ _ h => h.fragment (hcalls _ id)
  · exact fun id call => hp.endsFor htable dialect fun _ _ _ h => h.integrate rfl (hcalls _ call)
  · intro root
    apply hp.endsFor htable dialect
    intro w w' hw hw' hdialect h
    have habreast : w.Abreast w' (.levels p.arena (fun _ => True) (fun _ => True) p.depth) :=
      (Arena.AlikeBelow.refl p.arena).walkers_abreast ha ha hw hw' hdialect
    exact (Walker.inStep_renderRoot habreast.alongside (hown root) (hown root)).agree h

end Program

/-- In a program built from the leaves up, with handlers that work through the walker, all
walks that the queries are made of end, and so do all renderings, in both dialects.  A chain
of aliases visits no declaration twice, so it has at most as many jumps as there are nodes. -/
theorem walks_and_renderings_end {p : Program} (hp : p.BottomUp)
    (htable : ∀ integration ∈ p.integrations, integration.Alike integration) :
    p.arena.WalksEnd ∧ (∀ dialect, p.RenderingsEnd dialect) ∧
      ∀ (expr : NodeId) (chain : List NodeId), p.arena.AliasChain expr chain →
        chain.Nodup ∧ chain.length ≤ p.arena.size := by
  have ha := hp.grown
  refine ⟨ha.walksEnd, hp.renderingsEnd htable, fun expr chain hchain => ?_⟩
  exact ⟨ha.nodup_of_aliasChain hchain, ha.length_le_of_aliasChain hchain⟩

/-- The closure `input => { const f = get; const g = f; return g(input); }`, where `get` is
an integration.  The declaration of `g` was made before that of `f`. -/
def Program.aliased : Program :=
  (Builder.of [.ofStyle "table.get" .invoke]
    [.identifier "f", .identifier "g", .declaration .const ⟨1⟩ (some ⟨0⟩),
      .reference "get" (some ⟨0⟩), .identifier "f", .declaration .const ⟨4⟩ (some ⟨3⟩),
      .identifier "g", .identifier "input", .argument ⟨7⟩ none, .call ⟨6⟩ [⟨8⟩],
      .returnValue (some ⟨9⟩), .block [⟨5⟩, ⟨2⟩, ⟨10⟩], .identifier "input", .parameter ⟨12⟩ none,
      .function [⟨13⟩] ⟨11⟩]).program

/-- The alias `g` leads by two jumps to the integration, the second to a younger node. -/
theorem walks_and_renderings_end_aliased :
    Program.aliased.arena.AliasChain ⟨6⟩ [⟨2⟩, ⟨5⟩] ∧
      Program.aliased.arena.resolveIntegration ⟨6⟩ = some ⟨0⟩ ∧
      Program.aliased.arena.WalksEnd ∧ (∀ dialect, Program.aliased.RenderingsEnd dialect) ∧
      ([⟨2⟩, ⟨5⟩] : List NodeId).Nodup := by
  have hp : Program.aliased.BottomUp := Builder.bottomUp_of (by decide) (by cbv)
  have htable : ∀ integration ∈ Program.aliased.integrations, integration.Alike integration := by
    have htable : Program.aliased.integrations = #[.ofStyle "table.get" .invoke] := by cbv
    rw [htable]
    intro integration hm
    rw [List.mem_singleton.mp (List.mem_toArray.mp hm)]
    exact Integration.alike_ofStyle "table.get" .invoke
  have hg : Program.aliased.arena.lookup ⟨6⟩ = some ⟨2⟩ := by cbv
  have hf : Program.aliased.arena.lookup ⟨0⟩ = some ⟨5⟩ := by cbv
  have hnext : Program.aliased.arena.get? ⟨2⟩ = some (.declaration .const ⟨1⟩ (some ⟨0⟩)) := by
    cbv
  have hgot : Program.aliased.arena.get? ⟨5⟩ = some (.declaration .const ⟨4⟩ (some ⟨3⟩)) := by
    cbv
  have hchain : Program.aliased.arena.AliasChain ⟨6⟩ [⟨2⟩, ⟨5⟩] :=
    .jump .refl hg hnext (.jump .refl hf hgot (.stop ⟨3⟩))
  obtain ⟨hwalks, hrenderings, hchains⟩ := walks_and_renderings_end hp htable
  exact ⟨hchain, by cbv, hwalks, hrenderings, (hchains ⟨6⟩ _ hchain).1⟩

end ClosureVtl
