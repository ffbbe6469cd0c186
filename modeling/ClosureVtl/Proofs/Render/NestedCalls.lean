/-
Module: ClosureVtl.Proofs.Render.NestedCalls
Purpose: The order in which calls are recorded, and that of the requests they write.
Main exports:
  RenderedCall, CallForest, CallForest.begun, CallForest.ended, CallForest.PlacedIn,
  Walker.Nests, Program.nests_walkerWithin, recorded_when_begun
-/
import Mathlib.Data.List.Forall2
import ClosureVtl.Proofs.Closure.Subtree
import ClosureVtl.Proofs.Render.AppendedLines
import ClosureVtl.Proofs.Render.Levels
import ClosureVtl.Proofs.Text.Prefixes

namespace ClosureVtl

/-!
An integration that is called by a request renders its argument first and writes the request
behind that.  The call is recorded before.  So where a call stands in the argument of another,
the calls are recorded from the outer to the inner one, and the requests are written from the
inner to the outer one.

The calls of a run are a forest: a call has the calls below it that are made while its argument
is rendered.  What is recorded lists the forest with each call before those below it, and the
requests list it with each call behind them.  All of this holds in any arena.
-/

/-! ### Requests -/

/-- The line by which an integration leaves its request in the stash. -/
def requestLine (kind payload : String) : String :=
  "#set($context.stash.request = \x7b\"function\": \"" ++ kind ++ "\", \"payload\": " ++ payload
    ++ "\x7d)"

/-- Whether a line stores a request in the stash. -/
def isRequestLine (line : String) : Bool :=
  "#set($context.stash.request = ".toList.isPrefixOf line.toList

/-- Whether a line is a request to a function. -/
def RequestNames (kind line : String) : Prop := ∃ payload, line = requestLine kind payload

/-- The lines of a template that store a request. -/
def Output.requestLines (out : Output) : List String := out.lines.toList.filter isRequestLine

theorem isRequestLine_requestLine (kind payload : String) :
    isRequestLine (requestLine kind payload) = true := by
  have hstart : "#set($context.stash.request = \x7b\"function\": \"" =
      "#set($context.stash.request = " ++ "\x7b\"function\": \"" := rfl
  unfold requestLine isRequestLine
  rw [hstart, List.isPrefixOf_iff_prefix]
  iterate 5 rw [String.toList_append]
  iterate 4 rw [List.append_assoc]
  exact List.prefix_append _ _

/-- A text without quotes is told from what follows by the quote that stands there. -/
theorem eq_of_append_quote {kind kind' first quote after rest rest' last : String}
    (hkind : '"' ∉ kind.toList) (hkind' : '"' ∉ kind'.toList)
    (hquote : quote.toList = '"' :: after.toList)
    (h : first ++ kind ++ quote ++ rest ++ last = first ++ kind' ++ quote ++ rest' ++ last) :
    kind = kind' := by
  have hlists := congrArg String.toList h
  simp only [String.toList_append, hquote, List.append_assoc, List.cons_append,
    List.append_cancel_left_eq] at hlists
  have hall : ∀ {text : String}, '"' ∉ text.toList → ∀ c ∈ text.toList, (c != '"') = true :=
    fun hnone c hc => bne_iff_ne.mpr (ne_of_mem_of_not_mem hc hnone)
  have hends : ∀ {cs : List Char} (c : Char), ('"' :: cs).head? = some c → (c != '"') = false := by
    rintro cs _ ⟨⟩
    rfl
  exact String.toList_inj.mp (append_inj_of_all (hall hkind) (hall hkind') hends hends hlists).1

/-- A request names one function only, as long as names have no quotes. -/
theorem eq_of_requestNames {kind kind' line : String} (hkind : '"' ∉ kind.toList)
    (hkind' : '"' ∉ kind'.toList) (h : RequestNames kind line) (h' : RequestNames kind' line) :
    kind = kind' := by
  obtain ⟨payload, rfl⟩ := h
  obtain ⟨payload', hsame⟩ := h'
  have hquote : "\", \"payload\": ".toList = '"' :: ", \"payload\": ".toList := rfl
  exact eq_of_append_quote hkind hkind' hquote hsame

/-! ### Forests of calls -/

/-- A call of an integration and what is written for it. -/
structure RenderedCall where
  call : NodeId
  called : IntegrationId
  kind : String
  payload : String

/-- The request that is written for a call. -/
def RenderedCall.line (c : RenderedCall) : String := requestLine c.kind c.payload

/-- Calls in a row, each with those that are made while its argument is rendered. -/
inductive CallForest where
  | nil
  | call (first : RenderedCall) (inside after : CallForest)

namespace CallForest

/-- The calls in the order in which they begin. -/
def begun : CallForest → List RenderedCall
  | nil => []
  | call first inside after => first :: (inside.begun ++ after.begun)

/-- The calls in the order in which they end. -/
def ended : CallForest → List RenderedCall
  | nil => []
  | call first inside after => inside.ended ++ first :: after.ended

/-- Whether no call is made while the argument of another is rendered. -/
def IsFlat : CallForest → Prop
  | nil => True
  | call _ inside after => inside = nil ∧ after.IsFlat

/-- The calls of one forest and then those of another. -/
def append : CallForest → CallForest → CallForest
  | nil, rest => rest
  | call first inside after, rest => call first inside (after.append rest)

/-- Whether a forest is one of calls of integrations below a node, those inside of a call being
below its first argument. -/
def PlacedIn (p : Program) : NodeId → CallForest → Prop
  | _, nil => True
  | root, call first inside after =>
    p.arena.Below root first.call ∧ p.arena.isCallOf first.called first.call = true ∧
      (p.integration? first.called).map Integration.kind = some first.kind ∧
      (∃ callee args, p.arena.get? first.call = some (.call callee args) ∧
        (args = [] → inside = nil) ∧ ∀ arg ∈ args.head?, inside.PlacedIn p arg) ∧
      after.PlacedIn p root

variable {p : Program} {root inner : NodeId} {forest other : CallForest}

/-- The calls of the second forest begin behind those of the first. -/
theorem begun_append (forest other : CallForest) :
    (forest.append other).begun = forest.begun ++ other.begun := by
  induction forest with
  | nil => rfl
  | call first inside after _ ih => simp [append, begun, ih]

/-- They also end behind them. -/
theorem ended_append (forest other : CallForest) :
    (forest.append other).ended = forest.ended ++ other.ended := by
  induction forest with
  | nil => rfl
  | call first inside after _ ih => simp [append, ended, ih]

/-- Both orders list the same calls. -/
theorem ended_perm_begun (forest : CallForest) : forest.ended.Perm forest.begun := by
  induction forest with
  | nil => exact .nil
  | call first inside after ihInside ihAfter =>
    exact List.perm_middle.trans ((ihInside.append ihAfter).cons first)

/-- They are one order if there is nothing inside of a call. -/
theorem ended_eq_begun (h : forest.IsFlat) : forest.ended = forest.begun := by
  induction forest with
  | nil => rfl
  | call first inside after _ ih =>
    obtain ⟨rfl, hafter⟩ := h
    simp [begun, ended, ih hafter]

/-- Forests that belong to one root can be put next to each other. -/
theorem PlacedIn.append (h : forest.PlacedIn p root) (hother : other.PlacedIn p root) :
    (forest.append other).PlacedIn p root := by
  induction forest with
  | nil => exact hother
  | call first inside after _ ih =>
    obtain ⟨hbelow, hcalls, hkind, hinside, hafter⟩ := h
    exact ⟨hbelow, hcalls, hkind, hinside, ih hafter⟩

/-- Calls below a part are below the whole. -/
theorem PlacedIn.mono (hroot : p.arena.Below root inner) (h : forest.PlacedIn p inner) :
    forest.PlacedIn p root := by
  induction forest with
  | nil => trivial
  | call first inside after _ ih =>
    obtain ⟨hbelow, hcalls, hkind, hinside, hafter⟩ := h
    exact ⟨hroot.trans hbelow, hcalls, hkind, hinside, ih hafter⟩

/-- The kinds of the calls are those of the integrations that are recorded for them. -/
theorem PlacedIn.kinds (h : forest.PlacedIn p root) :
    (forest.begun.map RenderedCall.called).filterMap
      (fun id => (p.integration? id).map Integration.kind) =
        forest.begun.map RenderedCall.kind := by
  induction forest generalizing root with
  | nil => rfl
  | call first inside after ihInside ihAfter =>
    obtain ⟨-, -, hkind, ⟨callee, args, -, hnone, hinside⟩, hafter⟩ := h
    have hbelow : (inside.begun.map RenderedCall.called).filterMap
        (fun id => (p.integration? id).map Integration.kind) =
          inside.begun.map RenderedCall.kind := by
      cases args with
      | nil =>
        rw [hnone rfl]
        rfl
      | cons arg rest => exact ihInside (hinside arg rfl)
    simp only [begun, List.map_cons, List.map_append, List.filterMap_cons, List.filterMap_append,
      hkind, hbelow, ihAfter hafter]

end CallForest

/-! ### Runs -/

/-- Whether every run that ends well makes a forest of calls below a node: it records them as
they begin, and writes their requests as they end. -/
def Render.Nests {α : Type} (p : Program) (root : NodeId) (x : Render α) : Prop :=
  ∀ ⦃out value final⦄, x.runOn out = (.ok value, final) →
    ∃ (forest : CallForest) (lines : List String), forest.PlacedIn p root ∧
      final.integrations.toList = out.integrations.toList ++ forest.begun.map RenderedCall.called ∧
      final.lines.toList = out.lines.toList ++ lines ∧
      (forest.ended.map RenderedCall.line).Sublist lines

namespace Render

variable {α β : Type} {p : Program} {root inner : NodeId} {x : Render α} {f : α → Render β}

/-- An answer makes no call. -/
theorem nests_pure (value : α) : (pure value : Render α).Nests p root := by
  intro out _ final h
  cases (runOn_pure value out).symm.trans h
  exact ⟨.nil, [], trivial, by simp [CallForest.begun], by simp, .slnil⟩

/-- Neither does a fault. -/
theorem nests_fault (f : Fault) : (fault f : Render α).Nests p root := by
  intro out _ final h
  cases (runOn_fault f out).symm.trans h

/-- Neither does a line. -/
theorem nests_emit (line : String) : (emit line).Nests p root := by
  intro out _ final h
  cases (runOn_emit line out).symm.trans h
  exact ⟨.nil, [line], trivial, by simp [CallForest.begun], by simp, List.nil_sublist _⟩

/-- Neither does a temporary. -/
theorem nests_freshTemp : freshTemp.Nests p root := by
  intro out _ final h
  cases (runOn_freshTemp out).symm.trans h
  exact ⟨.nil, [], trivial, by simp [CallForest.begun], by simp, .slnil⟩

/-- The calls of two steps in a row stand in a row. -/
theorem Nests.bind (first : x.Nests p root)
    (next : ∀ value, x.Yields value → (f value).Nests p root) : (x >>= f).Nests p root := by
  intro out result final h
  obtain ⟨value, middle, hx, hf⟩ := runOn_bind_eq_ok_iff.mp h
  obtain ⟨forest, lines, hplaced, hcalls, hlines, hrequests⟩ := first hx
  obtain ⟨forest', lines', hplaced', hcalls', hlines', hrequests'⟩ :=
    next value ⟨out, middle, hx⟩ hf
  refine ⟨forest.append forest', lines ++ lines', hplaced.append hplaced', ?_, ?_, ?_⟩
  · rw [hcalls', hcalls, CallForest.begun_append, List.map_append, List.append_assoc]
  · rw [hlines', hlines, List.append_assoc]
  · rw [CallForest.ended_append, List.map_append]
    exact hrequests.append hrequests'

theorem Nests.mono (hroot : p.arena.Below root inner) (h : x.Nests p inner) : x.Nests p root := by
  intro out value final hrun
  obtain ⟨forest, lines, hplaced, hrest⟩ := h hrun
  exact ⟨forest, lines, hplaced.mono hroot, hrest⟩

end Render

/-! ### Nodes below a root -/

/-- Each node at or below a root corresponds to itself. -/
def Correspondence.below (a : Arena) (root : NodeId) : Correspondence where
  own id id' := id = id' ∧ a.Below root id
  node id id' := id = id' ∧ a.Below root id
  value id id' := id = id' ∧ a.Below root id
  integration := Eq
  calls entry id id' := entry ≠ .integrate ∧ id = id' ∧ a.Below root id

namespace Walker

variable {w w' : Walker} {p : Program} {root id : NodeId}

/-- A walker is abreast of itself at and below a root. -/
theorem abreast_below (w : Walker) (root : NodeId) : w.Abreast w (.below w.arena root) where
  dialect := rfl
  lifts := by
    rintro id _ ⟨rfl, hid⟩
    cases hn : w.arena.get? id with
    | none => exact .none
    | some node =>
      refine .some (Node.Lifts.of_parts (fun part hm => ?_) fun _ => rfl)
      have hpart : part = part ∧ w.arena.Below root part :=
        ⟨rfl, hid.trans (.part ⟨node, hn, hm⟩ (.self part))⟩
      exact ⟨hpart, hpart⟩
  dangling h _ := h.1
  own := id
  value := id
  unwrap := by
    rintro id _ ⟨rfl, hid⟩
    exact ⟨rfl, hid.trans (w.arena.below_unwrapParens id)⟩
  plain := .inl
  classify := by
    rintro id _ ⟨rfl, -⟩
    rfl
  declared := by
    rintro id _ ⟨rfl, -⟩
    rfl
  resolveIntegration := by
    rintro callee _ ⟨rfl, -⟩
    exact optionRel_refl (fun _ => rfl) _
  calledIntegration := by
    rintro expr _ (⟨rfl, -⟩ | ⟨rfl, -⟩) <;> rfl
  consumed := by
    rintro id _ ⟨rfl, -⟩
    rfl
  references := by
    rintro body _ parameter _ ⟨rfl, -⟩ ⟨rfl, -⟩
    rfl
  fusedChain := by
    rintro expr _ ⟨rfl, hexpr⟩ readsList
    obtain ⟨hstages, hsource⟩ := w.arena.below_of_fusedChain expr readsList
    refine ⟨List.forall₂_same.mpr fun stage hm => ?_, rfl, hexpr.trans hsource⟩
    obtain ⟨hreceiver, hparameters, hbody⟩ := hstages stage hm
    exact ⟨⟨rfl, hexpr.trans hreceiver⟩, List.forall₂_same.mpr fun parameter hp =>
      ⟨rfl, hexpr.trans (hparameters parameter hp)⟩, rfl, hexpr.trans hbody⟩
  jsonPath := by
    rintro id _ ⟨rfl, -⟩
    rfl
  composite := by
    rintro id _ ⟨rfl, -⟩
    rfl
  expression h := ⟨nofun, h⟩
  fragment h := ⟨nofun, h⟩
  statement h := ⟨nofun, h⟩
  expand h := ⟨nofun, h⟩

/-- Whether the entry points of a walker make forests of calls. -/
structure Nests (w : Walker) (p : Program) : Prop where
  expression : ∀ id, (w.expression id).Nests p id
  statement : ∀ id slot, (w.statement id slot).Nests p id
  expand : ∀ pattern target, (w.expand pattern target).Nests p pattern
  fragment : ∀ id, (w.fragment id).Nests p id
  integrate : ∀ {called call}, p.arena.isCallOf called call = true →
    (w.integrate called call).Nests p call

/-- What is put together from the entry points of a walker makes a forest of calls if they do.
Its results are those of the run beside it, which is all that a later step counts on. -/
theorem InStep.nests (hw : w.Nests p) {α β : Type} {R : α → β → Prop} {x : Render α}
    {x' : Render β} (h : InStep w w' (.below p.arena root) R x x') :
    x.Nests p root ∧ ∀ {value}, x.Yields value → ∃ value', R value value' := by
  induction h with
  | @pure _ _ _ given given' hgiven =>
    refine ⟨Render.nests_pure given, ?_⟩
    rintro value ⟨out, final, hrun⟩
    cases (Render.runOn_pure given out).symm.trans hrun
    exact ⟨given', hgiven⟩
  | fault f =>
    refine ⟨Render.nests_fault f, ?_⟩
    rintro value ⟨out, final, hrun⟩
    cases (Render.runOn_fault f out).symm.trans hrun
  | bind first next ihFirst ihNext =>
    constructor
    · refine ihFirst.1.bind fun value hvalue => ?_
      obtain ⟨value', hrelated⟩ := ihFirst.2 hvalue
      exact (ihNext value value' hrelated).1
    · rintro result ⟨out, final, hrun⟩
      obtain ⟨value, middle, hx, hf⟩ := Render.runOn_bind_eq_ok_iff.mp hrun
      obtain ⟨value', hrelated⟩ := ihFirst.2 ⟨out, middle, hx⟩
      exact (ihNext value value' hrelated).2 ⟨middle, final, hf⟩
  | emit line => exact ⟨Render.nests_emit line, fun _ => ⟨_, rfl⟩⟩
  | freshTemp => exact ⟨Render.nests_freshTemp, fun _ => ⟨_, rfl⟩⟩
  | expression h => exact ⟨(hw.expression _).mono h.2.2, fun _ => ⟨_, rfl⟩⟩
  | statement h slot => exact ⟨(hw.statement _ slot).mono h.2.2, fun _ => ⟨_, rfl⟩⟩
  | expand h target => exact ⟨(hw.expand _ target).mono h.2.2, fun _ => ⟨_, rfl⟩⟩
  | fragment h => exact ⟨(hw.fragment _).mono h.2.2, fun _ => ⟨_, rfl⟩⟩
  | integrate _ h => exact absurd rfl h.1

/-! ### Calls -/

variable {config : ResolverConfig}

/-- The request of the driver in one equation, with its two cases of arguments. -/
theorem stashRequest_eq (kind : String) (w : Walker) (site : CallSite) :
    Integration.stashRequest kind w site =
      ((match site.args with
        | [] => pure Text.nullText
        | first :: _ => w.argument first) >>= fun payload =>
          Render.emit (requestLine kind payload) >>= fun _ => pure "$context.prev.result") := by
  unfold Integration.stashRequest
  cases site.args <;> rfl

/-- The payload of a call makes a forest below the first argument; without one there is nothing
inside of the call. -/
theorem nests_payload (harena : w.arena = p.arena) (hw : w.Nests p) (args : List NodeId)
    {out middle : Output} {payload : String}
    (h : Render.runOn (match args.map w.arena.argumentExpr with
      | [] => pure Text.nullText
      | first :: _ => w.argument first) out = (.ok payload, middle)) :
    ∃ (inside : CallForest) (lines : List String),
      ((args = [] → inside = .nil) ∧ ∀ arg ∈ args.head?, inside.PlacedIn p arg) ∧
      middle.integrations.toList =
        out.integrations.toList ++ inside.begun.map RenderedCall.called ∧
      middle.lines.toList = out.lines.toList ++ lines ∧
      (inside.ended.map RenderedCall.line).Sublist lines := by
  cases args with
  | nil =>
    cases h
    exact ⟨.nil, [], ⟨fun _ => rfl, by simp⟩, by simp [CallForest.begun], by simp, .slnil⟩
  | cons arg rest =>
    have hroot : (Correspondence.below w.arena (w.arena.argumentExpr arg)).value
        (w.arena.argumentExpr arg) (w.arena.argumentExpr arg) := ⟨rfl, .self _⟩
    have hstep := inStep_argument (w.abreast_below (w.arena.argumentExpr arg)).alongside hroot
    rw [harena] at hstep h
    obtain ⟨inside, lines, hplaced, hrest⟩ :=
      ((InStep.nests hw hstep).1.mono (p.arena.below_argumentExpr arg)) h
    refine ⟨inside, lines, ⟨fun hnone => absurd hnone (List.cons_ne_nil _ _), ?_⟩, hrest⟩
    rintro _ ⟨⟩
    exact hplaced

/-- A call is recorded first.  Then its argument is rendered, and behind that stands its
request. -/
theorem nests_dispatch (harena : w.arena = p.arena) (hdialect : w.dialect = .resolver config)
    (hw : w.Nests p)
    (hinvoke : ∀ integration ∈ p.integrations,
      integration.resolver = Integration.stashRequest integration.kind)
    {called : IntegrationId} {call : NodeId} (hcall : p.arena.isCallOf called call = true) :
    (w.dispatch p.integrations called call).Nests p call := by
  rcases hi : p.integrations[called.index]? with _ | integration
  · rw [dispatch_unknown hi]
    exact Render.nests_fault _
  have hkind : (p.integration? called).map Integration.kind = some integration.kind := by
    rw [Program.integration?, hi, Option.map_some]
  obtain ⟨callee, args, hn, -⟩ := Arena.isCallOf_eq_true_iff.mp hcall
  have hsite : CallSite.of w.arena call = .ok { call, args := args.map w.arena.argumentExpr } := by
    rw [harena]
    simp only [CallSite.of, Arena.node_eq_ok_iff.mpr hn]
  have hhandler : integration.handler w.dialect = Integration.stashRequest integration.kind := by
    rw [hdialect]
    exact hinvoke integration (Array.mem_of_getElem? hi)
  intro out value final h
  rw [runOn_dispatch hi] at h
  split at h
  · cases h
  rw [hsite, hhandler] at h
  replace h := (congrArg (fun x => Render.runOn x _) (stashRequest_eq _ w _)).symm.trans h
  obtain ⟨payload, middle, hpayload, hrest⟩ := Render.runOn_bind_eq_ok_iff.mp h
  cases hrest
  obtain ⟨inside, lines, ⟨hnone, hplaced⟩, hcalls, hlines, hrequests⟩ :=
    nests_payload harena hw args hpayload
  -- the recorded call stands in front of the calls in its argument, and its line behind theirs
  let first : RenderedCall := ⟨call, called, integration.kind, payload⟩
  refine ⟨.call first inside .nil, lines ++ [first.line],
    ⟨.self call, hcall, hkind, ⟨callee, args, hn, hnone, hplaced⟩, trivial⟩, ?_, ?_, ?_⟩
  · simp only [hcalls, CallForest.begun, Array.toList_push, List.append_assoc, List.map_cons,
      List.append_nil, List.singleton_append]
    rfl
  · rw [Array.toList_push, hlines, List.append_assoc]
    rfl
  · rw [CallForest.ended, CallForest.ended, List.map_append]
    exact hrequests.append (List.Sublist.refl _)

/-- The rules make forests of calls if the walker does that they call. -/
theorem Nests.above (harena : w.arena = p.arena) (hdialect : w.dialect = .resolver config)
    (hw : w.Nests p)
    (hinvoke : ∀ integration ∈ p.integrations,
      integration.resolver = Integration.stashRequest integration.kind) :
    (w.above p.integrations).Nests p := by
  have habreast : ∀ root, w.Abreast w (.below p.arena root) := fun root =>
    harena ▸ w.abreast_below root
  have hself : ∀ id, (Correspondence.below p.arena id).own id id := fun id => ⟨rfl, .self id⟩
  constructor
  · intro id
    show (w.renderExpression id).Nests p id
    by_cases hcall : ∃ called, p.arena.isCallOf called id = true
    · -- such a call is handed on by itself, and not by way of a part
      obtain ⟨called, hcall⟩ := hcall
      have hhanded := hw.integrate hcall
      obtain ⟨callee, args, hn, hcallee⟩ := Arena.isCallOf_eq_true_iff.mp hcall
      unfold renderExpression Walker.node
      rw [harena, Arena.node_eq_ok_iff.mpr hn]
      show (w.call id callee args).Nests p id
      rwa [call_of_resolveIntegration (harena ▸ hcallee)]
    -- every other expression makes only the calls of its parts
    · refine (InStep.nests hw (inStep_renderExpression_of_calls (habreast id).alongside
        ((habreast id).faces (hself id)) ?_)).1
      intro callee args called hn hr
      rw [harena] at hn hr
      exact absurd ⟨called, Arena.isCallOf_eq_true_iff.mpr ⟨callee, args, hn, hr⟩⟩ hcall
  · intro id slot
    exact (InStep.nests hw (inStep_renderStatement (habreast id).alongside (hself id)
      (fun _ _ => (habreast id).statements (hself id)) slot)).1
  · intro pattern target
    exact (InStep.nests hw (inStep_expandPattern (habreast pattern).alongside (hself pattern)
      target)).1
  · intro id
    have hinside := (habreast id).unwrap (hself id)
    exact (InStep.nests hw (inStep_renderFragment (habreast id).alongside
      ((habreast id).faces hinside) ((habreast id).expression hinside))).1
  · exact fun hcall => nests_dispatch harena hdialect hw hinvoke hcall

end Walker

/-- At every level the walker of a program makes forests of calls. -/
theorem Program.nests_walkerWithin {p : Program} (config : ResolverConfig)
    (hinvoke : ∀ integration ∈ p.integrations,
      integration.resolver = Integration.stashRequest integration.kind) (n : Nat) :
    (p.walkerWithin (.resolver config) n).Nests p := by
  induction n with
  | zero =>
    exact ⟨fun _ => Render.nests_fault _, fun _ _ => Render.nests_fault _,
      fun _ _ => Render.nests_fault _, fun _ => Render.nests_fault _,
      fun _ => Render.nests_fault _⟩
  | succ n ih =>
    exact ih.above (p.arena_walkerWithin _ n) (p.dialect_walkerWithin _ n) hinvoke

/-! ### Templates -/

/-- Whether a call of an integration stands in the first argument of another one, anywhere below
a root. -/
def Arena.NestsCalls (a : Arena) (root : NodeId) : Prop :=
  ∃ (called called' : IntegrationId) (call callee arg inner : NodeId) (rest : List NodeId),
    a.Below root call ∧ a.isCallOf called call = true ∧
      a.get? call = some (.call callee (arg :: rest)) ∧ a.Below arg inner ∧
        a.isCallOf called' inner = true

/-- A forest is flat where no call stands in the argument of another. -/
theorem CallForest.PlacedIn.isFlat {p : Program} {root : NodeId} {forest : CallForest}
    (h : forest.PlacedIn p root) (hroot : ¬ p.arena.NestsCalls root) : forest.IsFlat := by
  induction forest with
  | nil => trivial
  | call first inside after _ ih =>
    obtain ⟨hbelow, hcall, -, ⟨callee, args, hn, hnone, hinside⟩, hafter⟩ := h
    refine ⟨?_, ih hafter⟩
    cases args with
    | nil => exact hnone rfl
    | cons arg rest =>
      cases inside with
      | nil => rfl
      | call inner _ _ =>
        obtain ⟨hinner, hcall', -⟩ := hinside arg rfl
        exact absurd ⟨_, _, _, callee, arg, _, rest, hbelow, hcall, hn, hinner, hcall'⟩ hroot

/-- The requests of calls name their kinds, in this order. -/
theorem forall₂_requestNames (calls : List RenderedCall) :
    List.Forall₂ RequestNames (calls.map RenderedCall.kind) (calls.map RenderedCall.line) := by
  rw [List.forall₂_map_left_iff, List.forall₂_map_right_iff]
  exact List.forall₂_same.mpr fun call _ => ⟨call.payload, rfl⟩

/-- Lines that are the requests of calls, and that name other kinds, name the same kinds. -/
theorem kinds_eq_of_forall₂ {kinds : List String} {calls : List RenderedCall}
    (hkinds : ∀ kind ∈ kinds, '"' ∉ kind.toList) (hcalls : ∀ call ∈ calls, '"' ∉ call.kind.toList)
    (h : List.Forall₂ RequestNames kinds (calls.map RenderedCall.line)) :
    kinds = calls.map RenderedCall.kind := by
  induction calls generalizing kinds with
  | nil =>
    cases h
    rfl
  | cons call calls ih =>
    rw [List.map_cons] at h
    cases h with
    | cons hfirst hrest =>
      obtain ⟨hkind, hkinds⟩ := List.forall_mem_cons.mp hkinds
      obtain ⟨hcall, hcalls⟩ := List.forall_mem_cons.mp hcalls
      rw [List.map_cons, ih hkinds hcalls hrest,
        eq_of_requestNames hkind hcall hfirst ⟨call.payload, rfl⟩]

/-- A template lists the integrations that it calls as their calls begin, each call before those
in its argument.  The requests stand in it as the calls end, each behind those in its argument.
So both lists agree, line by line, if and only if nothing else writes such a line and the calls
end in an order that lists the same kinds; they do where no call stands in the argument of
another. -/
theorem recorded_when_begun {p : Program} {config : ResolverConfig} {root : NodeId} {out : Output}
    (hinvoke : ∀ integration ∈ p.integrations,
      integration.resolver = Integration.stashRequest integration.kind)
    (h : p.render (.resolver config) root = .ok out) :
    ∃ forest : CallForest, forest.PlacedIn p root ∧
      p.compileResolver root config = .ok ⟨out.text, forest.begun.map RenderedCall.kind⟩ ∧
      (forest.ended.map RenderedCall.line).Sublist out.requestLines ∧
      (forest.begun.length = out.requestLines.length ↔
        out.requestLines = forest.ended.map RenderedCall.line) ∧
      ((∀ call ∈ forest.begun, '"' ∉ call.kind.toList) →
        (List.Forall₂ RequestNames (forest.begun.map RenderedCall.kind) out.requestLines ↔
          out.requestLines = forest.ended.map RenderedCall.line ∧
            forest.ended.map RenderedCall.kind = forest.begun.map RenderedCall.kind)) ∧
      (¬ p.arena.NestsCalls root → forest.begun.length = out.requestLines.length →
        List.Forall₂ RequestNames (forest.begun.map RenderedCall.kind) out.requestLines) := by
  have harena : (p.walker (.resolver config)).arena = p.arena := p.arena_walkerWithin _ _
  have habreast : (p.walker (.resolver config)).Abreast (p.walker (.resolver config))
      (.below p.arena root) := harena ▸ (p.walker (.resolver config)).abreast_below root
  have hstep := Walker.inStep_renderRoot habreast.alongside ⟨rfl, .self root⟩ ⟨rfl, .self root⟩
  obtain ⟨forest, lines, hplaced, hcalls, hlines, hsublist⟩ :=
    (Walker.InStep.nests (p.nests_walkerWithin config hinvoke _) hstep).1
      (Program.render_eq_ok_iff_runOn.mp h)
  -- each call of the forest has written its request, in the order in which the calls end
  have hrequests : (forest.ended.map RenderedCall.line).Sublist out.requestLines := by
    have hall : (forest.ended.map RenderedCall.line).filter isRequestLine =
        forest.ended.map RenderedCall.line := by
      rw [List.filter_eq_self]
      rintro line hm
      obtain ⟨call, -, rfl⟩ := List.mem_map.mp hm
      exact isRequestLine_requestLine _ _
    rw [Output.requestLines, hlines, ← hall]
    exact hsublist.filter _
  -- so there is no other line of that kind exactly if the numbers agree
  have hlength : forest.begun.length = out.requestLines.length ↔
      out.requestLines = forest.ended.map RenderedCall.line := by
    rw [← forest.ended_perm_begun.length_eq, ← List.length_map (f := RenderedCall.line)]
    exact ⟨fun hsame => (hrequests.eq_of_length hsame).symm, fun hsame => by rw [hsame]⟩
  refine ⟨forest, hplaced, ?_, hrequests, hlength, fun hquotes => ⟨fun hnames => ?_, ?_⟩,
    fun hflat hsame => ?_⟩
  · have hrecorded : out.integrations.toList = forest.begun.map RenderedCall.called := hcalls
    rw [Program.compileResolver, h, ← hplaced.kinds, ← hrecorded]
    rfl
  · have hlines := hlength.mp (by simpa using hnames.length_eq)
    rw [hlines] at hnames
    refine ⟨hlines, (kinds_eq_of_forall₂ ?_ (fun call hm => ?_) hnames).symm⟩
    · exact List.forall_mem_map.mpr hquotes
    · exact hquotes call (forest.ended_perm_begun.mem_iff.mp hm)
  · rintro ⟨hlines, hkinds⟩
    rw [hlines, ← hkinds]
    exact forall₂_requestNames forest.ended
  · rw [hlength.mp hsame, forest.ended_eq_begun (hplaced.isFlat hflat)]
    exact forall₂_requestNames forest.begun

/-- The closure `input => { return save(load(input)); }`, where both functions are called by
requests. -/
def Program.saveLoaded : Program :=
  (Builder.of [.ofStyle "table.save" .invoke, .ofStyle "table.load" .invoke]
    [.reference "load" (some ⟨1⟩), .identifier "input", .argument ⟨1⟩ none, .call ⟨0⟩ [⟨2⟩],
      .reference "save" (some ⟨0⟩), .argument ⟨3⟩ none, .call ⟨4⟩ [⟨5⟩], .returnValue (some ⟨6⟩),
      .block [⟨7⟩], .identifier "input", .parameter ⟨9⟩ none, .function [⟨10⟩] ⟨8⟩]).program

theorem Program.invokes_saveLoaded : ∀ integration ∈ Program.saveLoaded.integrations,
    integration.resolver = Integration.stashRequest integration.kind := by
  have hintegrations : Program.saveLoaded.integrations =
      #[.ofStyle "table.save" .invoke, .ofStyle "table.load" .invoke] := Builder.integrations_of
  rw [hintegrations]
  intro integration hm
  rcases List.mem_cons.mp (List.mem_toArray.mp hm) with rfl | hm
  · rfl
  · rw [List.mem_singleton.mp hm]
    rfl

/-- What it is rendered to: the call that is recorded first is requested last. -/
def Program.saveLoadedOutput : Output where
  lines := #[requestLine "table.load" "$context.arguments",
    requestLine "table.save" "$context.prev.result", "#return($context.prev.result)"]
  integrations := #[⟨0⟩, ⟨1⟩]

theorem Program.render_saveLoaded :
    Program.saveLoaded.render (.resolver {}) ⟨11⟩ = .ok Program.saveLoadedOutput := by
  decide +kernel

theorem Program.requestLines_saveLoaded : Program.saveLoadedOutput.requestLines =
    [requestLine "table.load" "$context.arguments",
      requestLine "table.save" "$context.prev.result"] := by
  decide +kernel

/-- The calls begin with `save` and end with it. -/
theorem recorded_when_begun_saveLoaded :
    Program.saveLoaded.render (.resolver {}) ⟨11⟩ = .ok Program.saveLoadedOutput ∧
      ∃ forest : CallForest, forest.PlacedIn Program.saveLoaded ⟨11⟩ ∧
        forest.begun.map RenderedCall.kind = ["table.save", "table.load"] ∧
        forest.ended.map RenderedCall.line =
          [requestLine "table.load" "$context.arguments",
            requestLine "table.save" "$context.prev.result"] := by
  obtain ⟨forest, hplaced, hcompiled, -, hlength, -⟩ :=
    recorded_when_begun Program.invokes_saveLoaded Program.render_saveLoaded
  have hcompiles : Program.saveLoaded.compileResolver ⟨11⟩ {} =
      .ok ⟨Program.saveLoadedOutput.text, ["table.save", "table.load"]⟩ := by decide +kernel
  have hkinds : forest.begun.map RenderedCall.kind = ["table.save", "table.load"] := by
    simpa using (hcompiled.symm.trans hcompiles)
  refine ⟨Program.render_saveLoaded, forest, hplaced, hkinds, ?_⟩
  rw [← Program.requestLines_saveLoaded]
  refine (hlength.mp ?_).symm
  rw [← List.length_map (f := RenderedCall.kind), hkinds, Program.requestLines_saveLoaded]
  rfl

/-- The template lists the call of `save` first, but requests that of `load` first. -/
theorem not_requested_in_order_saveLoaded :
    (∀ integration ∈ Program.saveLoaded.integrations,
        integration.resolver = Integration.stashRequest integration.kind) ∧
      Program.saveLoaded.render (.resolver {}) ⟨11⟩ = .ok Program.saveLoadedOutput ∧
      Program.saveLoaded.compileResolver ⟨11⟩ {} =
        .ok ⟨Program.saveLoadedOutput.text, ["table.save", "table.load"]⟩ ∧
      ¬ List.Forall₂ RequestNames ["table.save", "table.load"]
        Program.saveLoadedOutput.requestLines := by
  refine ⟨Program.invokes_saveLoaded, Program.render_saveLoaded, by decide +kernel, ?_⟩
  rw [Program.requestLines_saveLoaded]
  rintro (_ | ⟨hfirst, -⟩)
  exact absurd (eq_of_requestNames (by decide) (by decide) hfirst ⟨_, rfl⟩) (by decide)

end ClosureVtl
