/-
Module: ClosureVtl.Proofs.Render.StashedLocals
Purpose: Whether top-level locals are kept in the stash decides their addresses and nothing else.
Main exports:
  Integration.mirrored_ofStyle, Walker.Mirrored.above, Program.mirrored_walkerWithin,
  Program.resolverRun, stashLocals_addresses_only
-/
import ClosureVtl.Proofs.Render.Discipline
import ClosureVtl.Proofs.Render.MirroredRules
import ClosureVtl.Render.Program

namespace ClosureVtl

/-!
A top-level local is addressed in the stash or by itself.  Both addresses are references if its
name has no other characters than a path, and both are none otherwise; only an empty name has an
address in the stash that is a reference and one by itself that is none.  So the two walkers
mirror each other at every level, and so do the two renderings of a closure.
-/

open Render

/-! ### Handlers -/

/-- Whether a handler, given walkers that mirror each other, takes steps that do. -/
def Handler.Mirrored (handler : Handler) : Prop :=
  ∀ {w w' : Walker}, w.Mirrored w' → ∀ site, Resembles (handler w site) (handler w' site)

namespace Integration

theorem mirrored_stashRequest (kind : String) : Handler.Mirrored (stashRequest kind) := by
  intro w w' h site
  unfold stashRequest
  cases site.args with
  | nil => exact .bindEq (.pure rfl) fun _ => .bindEq (.emit _ _) fun _ => .pure (.refl _)
  | cons first rest =>
    refine .bind (Walker.resembles_argument h first) fun _ _ _ => ?_
    exact .bindEq (.emit _ _) fun _ => .pure (.refl _)

theorem mirrored_invocation (kind : String) : Handler.Mirrored (invocation kind) := by
  intro w w' h site
  refine .bind (.mapM site.args fun arg => Walker.resembles_argument h arg) fun _ _ _ => ?_
  exact .pure (.of_closed (by decide) _ _)

/-- The common calling styles hand on texts of arguments and never look at them. -/
theorem mirrored_ofStyle (kind : String) (style : Style) :
    Handler.Mirrored (ofStyle kind style).resolver := by
  cases style with
  | invoke => exact mirrored_stashRequest kind
  | inline => exact mirrored_invocation kind
  | appsyncOnly => exact mirrored_stashRequest kind
  | apigatewayOnly => exact fun _ _ => .unsupported _
  | none => exact fun _ _ => .unsupported _

end Integration

/-! ### Calls of integrations -/

namespace Walker

variable {w w' : Walker} {table : Array Integration}

/-- As many calls are recorded, so both walkers refuse a call or neither does. -/
theorem Mirrored.refusal? (h : w.Mirrored w') (kind : String) (made : Nat) :
    w.dialect.refusal? kind made = w'.dialect.refusal? kind made := by
  obtain ⟨config, config', hd, hd', hsingle⟩ := h.resolver
  rw [hd, hd']
  show (if config.singleIntegration ∧ made ≠ 0 then _ else _) =
    if config'.singleIntegration ∧ made ≠ 0 then _ else _
  rw [hsingle]
  rfl

theorem resembles_dispatch (h : w.Mirrored w')
    (ht : ∀ integration ∈ table, Handler.Mirrored integration.resolver) (id : IntegrationId)
    (call : NodeId) : Resembles (w.dispatch table id call) (w'.dispatch table id call) := by
  obtain ⟨config, config', hd, hd', -⟩ := h.resolver
  unfold dispatch
  rcases hentry : table[id.index]? with _ | integration
  · exact .breach _
  · have hmade : Mirrors Output.SameTally (get : Render Output) get :=
      fun _ _ hout => ⟨.ok hout, hout⟩
    refine .bind hmade fun out out' hout => ?_
    rw [h.refusal?, hout.integrations]
    cases w'.dialect.refusal? integration.kind out'.integrations.size with
    | some cause => exact .fault _
    | none =>
      refine .bindEq (.recordIntegration id) fun _ => ?_
      rw [h.arena, hd, hd']
      refine .bindEq (.ofExcept _) fun site => ?_
      exact ht integration (Array.mem_of_getElem? hentry) h site

/-! ### Levels -/

/-- Walkers whose parts are rendered by walkers that mirror each other do so themselves. -/
theorem Mirrored.above (h : w.Mirrored w')
    (ht : ∀ integration ∈ table, Handler.Mirrored integration.resolver) :
    (w.above table).Mirrored (w'.above table) where
  arena := h.arena
  resolver := h.resolver
  address := h.address
  expression := resembles_renderExpression h
  statement := mirrors_renderStatement h
  expand id _ _ htarget := mirrors_expandPattern h id htarget
  integrate := resembles_dispatch h ht

end Walker

/-! ### Addresses -/

/-- The address of a name by itself is a reference exactly if its address in the stash is. -/
theorem alike_addressOf {config config' : ResolverConfig} {name : String} (hname : name ≠ "") :
    Text.Alike (if config.stashLocals then "$context.stash." ++ name else "$" ++ name)
      (if config'.stashLocals then "$context.stash." ++ name else "$" ++ name) := by
  split <;> split
  · exact .refl _
  · exact .stashed hname
  · exact (Text.Alike.stashed hname).symm
  · exact .refl _

namespace Arena

variable {a : Arena}

/-- A top-level name that a class holds is the name of an identifier. -/
theorem exists_identifier_of_topLevel {id : NodeId} {name : String}
    (h : a.classify id = .ok (.topLevel name)) : a.get? id = some (.identifier name) := by
  unfold classify at h
  split at h
  · cases h
  · next _ hnode =>
    split at h <;> cases h
  · next found hnode =>
    unfold classifyDeclared at h
    split at h
    · cases h
    · split at h
      · cases h
      · split at h
        · split at h <;> cases h
          exact node_eq_ok_iff.mp hnode
        · cases h
  · cases h

end Arena

namespace Program

variable {p : Program}

/-- Walkers that render nothing mirror each other if their addresses do. -/
theorem resembles_address
    (hnames : ∀ id name, p.arena.get? id = some (.identifier name) → name ≠ "")
    {w w' : Walker} {config config' : ResolverConfig} (ha : w.arena = p.arena)
    (ha' : w'.arena = p.arena) (hd : w.dialect = .resolver config)
    (hd' : w'.dialect = .resolver config') (id : NodeId) :
    Resembles (w.address id) (w'.address id) := by
  unfold Walker.address Arena.addressIn
  rw [ha, ha', hd, hd']
  rcases hclass : p.arena.classify id with fault | nameClass
  · exact .fault _
  · cases nameClass with
    | topLevel name =>
      exact .pure (alike_addressOf (hnames id name (Arena.exists_identifier_of_topLevel hclass)))
    | rootParameter index =>
      rcases index with _ | _ | index
      · exact .pure (.refl _)
      · exact .pure (.refl _)
      · exact .fault _
    | «local» name => exact .pure (.refl _)
    | reserved name => exact .pure (.refl _)
    | capture name => exact .fault _

/-- At every level the walkers of two configurations that differ in the stash mirror each
other. -/
theorem mirrored_walkerWithin
    (hnames : ∀ id name, p.arena.get? id = some (.identifier name) → name ≠ "")
    (hp : ∀ integration ∈ p.integrations, Handler.Mirrored integration.resolver)
    {config config' : ResolverConfig}
    (hsingle : config.singleIntegration = config'.singleIntegration) (n : Nat) :
    (p.walkerWithin (.resolver config) n).Mirrored (p.walkerWithin (.resolver config') n) := by
  induction n with
  | zero =>
    exact {
      arena := rfl
      resolver := ⟨config, config', rfl, rfl, hsingle⟩
      address := resembles_address hnames rfl rfl rfl rfl
      expression := fun _ => .fault _
      statement := fun _ _ => .fault _
      expand := fun _ _ _ _ => .fault _
      integrate := fun _ _ => .fault _ }
  | succ n ih => exact ih.above hp

end Program

/-! ### Whole closures -/

/-- The run that renders a closure to a resolver template: how it ends, and what was written,
taken and recorded by then. -/
def Program.resolverRun (p : Program) (config : ResolverConfig) (root : NodeId) :
    Except Fault Unit × Output :=
  ((p.walker (.resolver config)).renderRoot root).runOn {}

/-- Walkers that mirror each other end with templates that match, or with one fault. -/
theorem sameTally_render {p : Program} {d d' : Dialect} (h : (p.walker d).Mirrored (p.walker d'))
    (root : NodeId) : SameResult Output.SameTally (p.render d root) (p.render d' root) := by
  have hrun := Walker.mirrors_renderRoot h root {} {} ⟨rfl, rfl⟩
  unfold Program.render
  revert hrun
  generalize ((p.walker d).renderRoot root).runOn {} = first
  generalize ((p.walker d').renderRoot root).runOn {} = second
  rcases first with ⟨result, out⟩
  rcases second with ⟨result', out'⟩
  rintro ⟨hresult, hout⟩
  cases hresult with
  | error fault => exact .error fault
  | ok _ => exact .ok hout

/-- Templates that record the same calls name the same integrations. -/
theorem sameIntegrations_compileResolver {p : Program} {config config' : ResolverConfig}
    {root : NodeId}
    (h : SameResult Output.SameTally (p.render (.resolver config) root)
      (p.render (.resolver config') root)) :
    SameResult (fun template template' => template.integrations = template'.integrations)
      (p.compileResolver root config) (p.compileResolver root config') := by
  unfold Program.compileResolver
  revert h
  generalize p.render (.resolver config) root = first
  generalize p.render (.resolver config') root = second
  rintro (hout | fault)
  · refine .ok ?_
    dsimp only
    rw [hout.integrations]
  · exact .error fault

/-- Whether top-level locals are kept in the stash decides only what addresses look like.  With
and without it the run that renders a closure ends well or with the same fault, and at its end,
also where it fails, as many temporaries have been taken and the same calls recorded in the same
order.  So both compilations fail alike, or their templates match in this way. -/
theorem stashLocals_addresses_only {p : Program}
    (hnames : ∀ id name, p.arena.get? id = some (.identifier name) → name ≠ "")
    (hstyles : ∀ integration ∈ p.integrations, ∃ kind style,
      integration = Integration.ofStyle kind style)
    (config : ResolverConfig) (root : NodeId) :
    (SameResult Eq (p.resolverRun { config with stashLocals := true } root).1
        (p.resolverRun { config with stashLocals := false } root).1 ∧
      (p.resolverRun { config with stashLocals := true } root).2.SameTally
        (p.resolverRun { config with stashLocals := false } root).2) ∧
      SameResult Output.SameTally
        (p.render (.resolver { config with stashLocals := true }) root)
        (p.render (.resolver { config with stashLocals := false }) root) ∧
      SameResult (fun template template' => template.integrations = template'.integrations)
        (p.compileResolver root { config with stashLocals := true })
        (p.compileResolver root { config with stashLocals := false }) := by
  have hhandlers : ∀ integration ∈ p.integrations, Handler.Mirrored integration.resolver := by
    intro integration hm
    obtain ⟨kind, style, rfl⟩ := hstyles integration hm
    exact Integration.mirrored_ofStyle kind style
  have hwalker : (p.walker (.resolver { config with stashLocals := true })).Mirrored
      (p.walker (.resolver { config with stashLocals := false })) := by
    refine Program.mirrored_walkerWithin hnames hhandlers ?_ p.depth
    rfl
  have hrender := sameTally_render hwalker root
  -- both runs start from the empty template
  exact ⟨Walker.mirrors_renderRoot hwalker root {} {} ⟨rfl, rfl⟩, hrender,
    sameIntegrations_compileResolver hrender⟩

/-- The closure `input => { const item = get(input); return item ?? input.other; }`, where `get`
is an integration. -/
def Program.fallback : Program :=
  (Builder.of [.ofStyle "table.get" .invoke]
    [.reference "get" (some ⟨0⟩), .identifier "input", .argument ⟨1⟩ none, .call ⟨0⟩ [⟨2⟩],
      .identifier "item", .declaration .const ⟨4⟩ (some ⟨3⟩), .identifier "item",
      .identifier "input", .member ⟨7⟩ "other", .binary ⟨6⟩ .coalesce ⟨8⟩,
      .returnValue (some ⟨9⟩), .block [⟨5⟩, ⟨10⟩], .identifier "input", .parameter ⟨12⟩ none,
      .function [⟨13⟩] ⟨11⟩]).program

/-- The local is read from the stash in one template only; both take one temporary and make one
call. -/
theorem stashLocals_addresses_only_fallback :
    ∃ out out',
      Program.fallback.render (.resolver { stashLocals := true }) ⟨14⟩ = .ok out ∧
      Program.fallback.render (.resolver { stashLocals := false }) ⟨14⟩ = .ok out' ∧
      out.SameTally out' ∧ out.temps = 1 ∧ out.integrations = #[⟨0⟩] ∧
      out.lines[2]? = some "#set($v1 = $context.stash.item)" ∧
      out'.lines[2]? = some "#set($v1 = $item)" := by
  have htable : Program.fallback.integrations = #[.ofStyle "table.get" .invoke] := by cbv
  have hnames : ∀ id name, Program.fallback.arena.get? id = some (.identifier name) →
      name ≠ "" := by
    intro id name hnode hempty
    have htexts := Arena.holds_of_all (fun node => node.texts.all (· != ""))
      (by decide +kernel) hnode
    exact bne_iff_ne.mp (List.all_eq_true.mp htexts name (List.mem_singleton_self name)) hempty
  have hstyles : ∀ integration ∈ Program.fallback.integrations, ∃ kind style,
      integration = Integration.ofStyle kind style := by
    rw [htable]
    intro integration hm
    exact ⟨"table.get", .invoke, List.mem_singleton.mp (List.mem_toArray.mp hm)⟩
  have hstashed : (Program.fallback.render (.resolver { stashLocals := true }) ⟨14⟩).toOption.map
      (fun out => (out.temps, out.integrations, out.lines[2]?)) =
        some (1, #[⟨0⟩], some "#set($v1 = $context.stash.item)") := by
    decide +kernel
  have hplain : (Program.fallback.render (.resolver { stashLocals := false }) ⟨14⟩).toOption.map
      (fun out => out.lines[2]?) = some (some "#set($v1 = $item)") := by
    decide +kernel
  have hsame := (stashLocals_addresses_only hnames hstyles {} ⟨14⟩).2.1
  revert hsame hstashed hplain
  generalize Program.fallback.render (.resolver { stashLocals := false }) ⟨14⟩ = second
  generalize Program.fallback.render (.resolver { stashLocals := true }) ⟨14⟩ = first
  intro hstashed hplain hsame
  cases hsame with
  | error fault => cases hstashed
  | @ok out out' hout =>
    simp only [Except.toOption, Option.map_some, Option.some.injEq, Prod.mk.injEq]
      at hstashed hplain
    exact ⟨out, out', rfl, rfl, hout, hstashed.1, hstashed.2.1, hstashed.2.2, hplain⟩

end ClosureVtl
