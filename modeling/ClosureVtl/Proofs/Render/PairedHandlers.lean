/-
Module: ClosureVtl.Proofs.Render.PairedHandlers
Purpose: Handlers of integrations run side by side, and how a call reaches them.
Main exports:
  Handler.Alike, Integration.Alike, Integration.AlikeAlongside,
  Integration.alikeAlongside_ofStyle, Integration.alike_ofStyle, Walker.abreast_same,
  Handler.ThroughWalker, Walker.runOn_dispatch
-/
import ClosureVtl.Proofs.Render.PairedRules
import ClosureVtl.Render.Program

namespace ClosureVtl

/-!
A handler is given by whoever registers the integration.  What can be said about
templates that call it depends on the handler working through the walker: it renders
arguments, writes lines, and looks neither at the numbering of the nodes nor at the
calls made so far.  `Handler.Alike` and, for one closure under several configurations,
the weaker `Handler.ThroughWalker` say so.  `Handler.AlikeAlongside` says in addition that it
does not look at the callee of the call.  The common calling styles satisfy all of them.
-/

open Walker

/-! ### Handlers that are alike -/

/-- Whether two handlers take the same steps for calls with corresponding arguments. -/
def Handler.Alike (handler handler' : Handler) : Prop :=
  ∀ {w w' : Walker} {c : Correspondence} {site site' : CallSite}, w.Abreast w' c →
    List.Forall₂ c.value site.args site'.args →
      InStep w w' c Eq (handler w site) (handler' w' site')

/-- Whether two integrations cannot be told apart in a template. -/
structure Integration.Alike (integration integration' : Integration) : Prop where
  kind : integration.kind = integration'.kind
  resolver : Handler.Alike integration.resolver integration'.resolver
  mapping : Handler.Alike integration.mapping integration'.mapping

/-- Whether two handlers take the same steps for calls with corresponding arguments, whatever
callees and statements there are elsewhere. -/
def Handler.AlikeAlongside (handler handler' : Handler) : Prop :=
  ∀ {w w' : Walker} {c : Correspondence} {site site' : CallSite}, w.Alongside w' c →
    List.Forall₂ c.value site.args site'.args →
      InStep w w' c Eq (handler w site) (handler' w' site')

/-- Walkers that are abreast are alongside each other. -/
theorem Handler.AlikeAlongside.alike {handler handler' : Handler}
    (h : handler.AlikeAlongside handler') : handler.Alike handler' :=
  fun habreast hargs => h habreast.alongside hargs

/-- Whether two integrations cannot be told apart in a template, whatever they are called
by. -/
structure Integration.AlikeAlongside (integration integration' : Integration) : Prop where
  kind : integration.kind = integration'.kind
  resolver : Handler.AlikeAlongside integration.resolver integration'.resolver
  mapping : Handler.AlikeAlongside integration.mapping integration'.mapping

theorem Integration.AlikeAlongside.alike {integration integration' : Integration}
    (h : integration.AlikeAlongside integration') : integration.Alike integration' where
  kind := h.kind
  resolver := Handler.AlikeAlongside.alike h.resolver
  mapping := Handler.AlikeAlongside.alike h.mapping

/-- The handler for a dialect is one of the two. -/
theorem Integration.AlikeAlongside.handler {integration integration' : Integration}
    (h : integration.AlikeAlongside integration') (dialect : Dialect) :
    Handler.AlikeAlongside (integration.handler dialect) (integration'.handler dialect) := by
  cases dialect with
  | resolver config => exact h.resolver
  | mapping direction config => exact h.mapping

namespace Integration

variable {w w' : Walker} {c : Correspondence} {site site' : CallSite}

/-- A refusal does not look at the call. -/
theorem alikeAlongside_unsupportedIn (kind dialect : String) :
    Handler.AlikeAlongside (unsupportedIn kind dialect) (unsupportedIn kind dialect) :=
  fun _ _ => .unsupported _

/-- The request writes its arguments and stores the result; nothing in that depends on the
closure. -/
theorem alikeAlongside_stashRequest (kind : String) :
    Handler.AlikeAlongside (stashRequest kind) (stashRequest kind) := by
  intro w w' c site site' h hargs
  unfold stashRequest
  revert hargs
  generalize site.args = args
  generalize site'.args = args'
  rintro (_ | ⟨hfirst, _⟩)
  · apply InStep.bindEq (.pure rfl)
    intro payload
    exact .bindEq (.emit _) fun _ => .pure rfl
  · apply InStep.bindEq (inStep_argument h hfirst)
    intro payload
    exact .bindEq (.emit _) fun _ => .pure rfl

/-- Nor does a request that is printed depend on it. -/
theorem alikeAlongside_jsonRequest (kind : String) :
    Handler.AlikeAlongside (jsonRequest kind) (jsonRequest kind) := by
  intro w w' c site site' h hargs
  unfold jsonRequest
  revert hargs
  generalize site.args = args
  generalize site'.args = args'
  rintro (_ | ⟨hfirst, _⟩)
  · exact .pure rfl
  · exact .bindEq (inStep_fragment h hfirst) fun _ => .pure rfl

/-- An invocation hands its arguments on. -/
theorem alikeAlongside_invocation (kind : String) :
    Handler.AlikeAlongside (invocation kind) (invocation kind) := by
  intro w w' c site site' h hargs
  exact .bindEq (.mapM hargs fun _ _ harg => inStep_argument h harg) fun _ => .pure rfl

theorem alikeAlongside_jsonInvocation (kind : String) :
    Handler.AlikeAlongside (jsonInvocation kind) (jsonInvocation kind) := by
  intro w w' c site site' h hargs
  exact .bindEq (.mapM hargs fun _ _ harg => inStep_fragment h harg) fun _ => .pure rfl

/-- The common calling styles work through the walker. -/
theorem alikeAlongside_ofStyle (kind : String) (style : Style) :
    (ofStyle kind style).AlikeAlongside (ofStyle kind style) := by
  cases style with
  | invoke => exact ⟨rfl, alikeAlongside_stashRequest kind, alikeAlongside_jsonRequest kind⟩
  | inline => exact ⟨rfl, alikeAlongside_invocation kind, alikeAlongside_jsonInvocation kind⟩
  | appsyncOnly =>
    exact ⟨rfl, alikeAlongside_stashRequest kind, alikeAlongside_unsupportedIn kind _⟩
  | apigatewayOnly =>
    exact ⟨rfl, alikeAlongside_unsupportedIn kind _, alikeAlongside_jsonRequest kind⟩
  | none => exact ⟨rfl, alikeAlongside_unsupportedIn kind _, alikeAlongside_unsupportedIn kind _⟩

/-- The handlers of the driver are all alike, in every style. -/
theorem alike_ofStyle (kind : String) (style : Style) :
    (ofStyle kind style).Alike (ofStyle kind style) :=
  (alikeAlongside_ofStyle kind style).alike

end Integration

/-! ### One closure -/

/-- Two walkers of one arena are abreast, whatever their dialects permit. -/
theorem Walker.abreast_same {w w' : Walker} (ha : w.arena = w'.arena)
    (hd : w.dialect.unlimited = w'.dialect.unlimited) : w.Abreast w' .same where
  dialect := hd
  lifts := by
    rintro id _ rfl
    rw [ha]
    exact optionRel_refl Node.Lifts.refl _
  dangling h _ := h
  own h := h
  value h := h
  unwrap := by
    rintro id _ rfl
    rw [ha]
    rfl
  plain h := .inl h
  classify := by
    rintro id _ rfl
    rw [ha]
  declared := by
    rintro id _ rfl
    rw [ha]
  resolveIntegration := by
    rintro callee _ rfl
    rw [ha]
    exact optionRel_refl (fun _ => rfl) _
  calledIntegration := by
    rintro expr _ (rfl | rfl) <;> rw [ha]
  consumed := by
    rintro id _ rfl
    rw [ha]
  references := by
    rintro body _ parameter _ rfl rfl
    rw [ha]
  fusedChain := by
    rintro expr _ rfl readsList
    rw [ha]
    refine ⟨List.forall₂_same.mpr fun stage _ => ⟨rfl, ?_, rfl⟩, rfl⟩
    exact List.forall₂_same.mpr fun _ _ => rfl
  jsonPath := by
    rintro id _ rfl
    rw [ha]
  composite := by
    rintro id _ rfl
    rw [ha]
  expression h := h
  fragment h := h
  statement h := h
  expand h := h

/-- Whether a handler takes the same steps under all walkers of one arena, whatever
their dialects permit. -/
def Handler.ThroughWalker (handler : Handler) : Prop :=
  ∀ {w w' : Walker} (site : CallSite), w.arena = w'.arena →
    w.dialect.unlimited = w'.dialect.unlimited →
      InStep w w' .same Eq (handler w site) (handler w' site)

/-- A handler that is like itself reaches the closure through the walker alone. -/
theorem Handler.Alike.throughWalker {handler : Handler} (h : handler.Alike handler) :
    handler.ThroughWalker :=
  fun _ ha hd => h (abreast_same ha hd) (List.forall₂_same.mpr fun _ _ => rfl)

/-- Whether the handlers of an integration work through the walker. -/
def Integration.ThroughWalker (integration : Integration) : Prop :=
  ∀ dialect, Handler.ThroughWalker (integration.handler dialect)

theorem Integration.Alike.throughWalker {integration : Integration}
    (h : integration.Alike integration) : integration.ThroughWalker := by
  intro dialect
  cases dialect with
  | resolver config => exact Handler.Alike.throughWalker h.resolver
  | mapping direction config => exact Handler.Alike.throughWalker h.mapping

/-! ### Reaching a handler -/

/-- A call that is permitted is recorded and handed to the handler; any other faults. -/
theorem Walker.runOn_dispatch {w : Walker} {table : Array Integration} {id : IntegrationId}
    {integration : Integration} (hi : table[id.index]? = some integration) (call : NodeId)
    (out : Output) :
    (w.dispatch table id call).runOn out =
      match w.dialect.refusal? integration.kind out.integrations.size with
      | some cause => (.error (.illegalCall cause), out)
      | none =>
        (Render.ofExcept (CallSite.of w.arena call) >>= integration.handler w.dialect w).runOn
          { out with integrations := out.integrations.push id } := by
  unfold dispatch
  rw [hi]
  show Render.runOn (get >>= fun (out : Output) => _) out = _
  rw [Render.runOn_bind]
  show Render.runOn (match w.dialect.refusal? integration.kind out.integrations.size with
    | some cause => Render.fault (.illegalCall cause)
    | none => _) out = _
  split
  · rfl
  · rw [Render.runOn_bind, Render.runOn_recordIntegration]

/-- Handlers of calls that correspond to each other are given arguments that do. -/
theorem Walker.inStep_callSite {w w' : Walker} {c : Correspondence} (h : w.Alongside w' c)
    {call call' : NodeId} (hcall : w.Faces w' c call call') :
    InStep w w' c (fun site site' => List.Forall₂ c.value site.args site'.args)
      (Render.ofExcept (CallSite.of w.arena call))
      (Render.ofExcept (CallSite.of w'.arena call')) := by
  unfold CallSite.of Arena.node
  have hmeets := hcall.meets
  have hsite : ∀ {args args' : List NodeId}, List.Forall₂ c.value args args' →
      List.Forall₂ c.value (args.map w.arena.argumentExpr) (args'.map w'.arena.argumentExpr) := by
    intro args args' hargs
    rw [List.forall₂_map_left_iff, List.forall₂_map_right_iff]
    exact hargs.imp fun _ _ harg => (h.argumentExpr harg).2
  rcases hn : w.arena.get? call with _ | node <;> rcases hn' : w'.arena.get? call' with _ | node' <;>
    rw [hn, hn'] at hmeets <;> cases hmeets
  · rw [hcall.dangling hn]
    exact .fault _
  · next hmeets =>
    cases hmeets with
    | handed _ _ _ hargs => exact .pure (hsite hargs)
    | block _ _ => exact .fault _
    | lifts hlifts =>
      cases hlifts with
      | call _ hargs => exact .pure (hsite hargs)
      | _ => exact .fault _

/-- A call of an integration that is not in the table faults. -/
theorem Walker.dispatch_unknown {w : Walker} {table : Array Integration} {id : IntegrationId}
    (hi : table[id.index]? = none) (call : NodeId) :
    w.dispatch table id call = Render.breach .integrationHandle := by
  unfold dispatch
  rw [hi]

end ClosureVtl
