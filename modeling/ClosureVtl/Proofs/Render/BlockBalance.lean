/-
Module: ClosureVtl.Proofs.Render.BlockBalance
Purpose: Whatever a program renders, the lines that are written open and close their
  blocks properly.
Main exports:
  Integration.KeepsBlocks, Integration.keepsBlocks_ofStyle, Walker.SpeaksPlainly,
  Program.BottomUp.keepsBlocks_walkerWithin, Walker.Operation, balanced_of_run
-/
import ClosureVtl.Proofs.Closure.Binding
import ClosureVtl.Proofs.Number.Notation
import ClosureVtl.Proofs.Render.Rules
import ClosureVtl.Render.Program

namespace ClosureVtl

/-!
The walker of a program is made level by level, and the rules at one level keep the
blocks of a template if the walker below does.  The induction carries a second fact:
the texts that a mapping template prints as lines of their own never open or close a
block.  Such a text is JSON, or it comes from an integration; the latter is also
reached through expressions that pass a call on, so the fact is carried for them as
well.
-/

/-! ### Texts that are printed -/

namespace Text

/-- A JSON string starts with a quotation mark, so it is no directive. -/
theorem lineRole_jsonString (text : String) : lineRole (jsonString text) = .plain := by
  have hstarts : ['"'] <+: (jsonString text).toList := by
    unfold jsonString
    repeat apply starts_append
    decide
  exact lineRole_of_starts hstarts (by decide)

/-- A value from the payload starts with a dollar sign. -/
theorem lineRole_inputJson (path : String) : lineRole (inputJson path) = .plain := by
  have hstarts : ['$'] <+: (inputJson path).toList := by
    unfold inputJson
    repeat apply starts_append
    decide
  exact lineRole_of_starts hstarts (by decide)

/-- A string that is escaped when the template runs starts with a quotation mark. -/
theorem lineRole_escapedAtRuntime (value : String) :
    lineRole (escapedAtRuntime value) = .plain := by
  have hstarts : ['"'] <+: (escapedAtRuntime value).toList := by
    unfold escapedAtRuntime
    repeat apply starts_append
    decide
  exact lineRole_of_starts hstarts (by decide)

/-- A dispatch by type opens a branch and closes it in the same line. -/
theorem lineRole_primitiveDispatch (value : String) (status : UInt16) :
    lineRole (primitiveDispatch value status) = .plain := by
  have hstarts : ['#', 'i'] <+: (primitiveDispatch value status).toList := by
    unfold primitiveDispatch
    repeat apply starts_append
    decide
  have hends : (primitiveDispatch value status).toList.getLast? = some '\x7d' := by
    unfold primitiveDispatch
    apply getLast?_append
    decide
  exact lineRole_of_getLast? hstarts hends (by decide)

end Text

/-- A number starts with a digit or a sign. -/
theorem Binary64.lineRole_of_literal {value : Binary64} {text : String}
    (h : value.literal = .ok text) : lineRole text = .plain := by
  obtain ⟨first, rest, htext, hfirst, -⟩ := exists_cons_literal h
  refine lineRole_of_starts ⟨rest, htext.symm⟩ ?_
  rintro rfl
  exact absurd hfirst (by decide)

/-! ### Handlers -/

namespace Integration

/-- What handlers have to respect: they are put together from elementary steps and
from calls of the walker, they close the blocks that they open, and a JSON text that
they yield is no line that opens or closes a block, if those of the walker are none.
A handler that writes no line of a directive with a block and yields such a text is
of this kind. -/
structure KeepsBlocks (integration : Integration) : Prop where
  resolver : ∀ w site, Walker.Keeps w (integration.resolver w site)
  mapping : ∀ w site, Walker.Keeps w (integration.mapping w site)
  plain : ∀ w site text, (∀ id text, (w.fragment id).Yields text → lineRole text = .plain) →
    (integration.mapping w site).Yields text → lineRole text = .plain

/-- A dialect that an integration does not support writes nothing for it. -/
theorem keeps_unsupportedIn (kind dialect : String) (w : Walker) (site : CallSite) :
    w.Keeps (unsupportedIn kind dialect w site) :=
  .fault _

/-- A request into the stash is one assignment behind what its payload needs. -/
theorem keeps_stashRequest (kind : String) (w : Walker) (site : CallSite) :
    w.Keeps (stashRequest kind w site) := by
  have hline : ∀ payload : String, w.Keeps (do
      Render.emit ("#set($context.stash.request = \x7b\"function\": \"" ++ kind
        ++ "\", \"payload\": " ++ payload ++ "\x7d)")
      return "$context.prev.result") := by
    intro payload
    refine .bind (.emit ?_) fun _ _ => .pure _
    have hstarts : ['#', 's'] <+: ("#set($context.stash.request = \x7b\"function\": \"" ++ kind
        ++ "\", \"payload\": " ++ payload ++ "\x7d)").toList := by
      repeat apply starts_append
      decide
    exact lineRole_of_directive hstarts (by decide) (by decide) (by decide)
  unfold stashRequest
  split
  · exact hline _
  · next first _ _ => exact .bind (Walker.keeps_argument first) fun payload _ => hline payload

/-- A request as JSON is text around its payload. -/
theorem keeps_jsonRequest (kind : String) (w : Walker) (site : CallSite) :
    w.Keeps (jsonRequest kind w site) := by
  unfold jsonRequest
  split
  · exact .pure _
  · next first _ _ => exact .bind (Walker.keeps_fragment first) fun _ _ => .pure _

/-- An invocation is text around its arguments. -/
theorem keeps_invocation (kind : String) (w : Walker) (site : CallSite) :
    w.Keeps (invocation kind w site) := by
  apply Walker.Keeps.bind (.mapM fun id _ => Walker.keeps_argument id)
  intro args _
  exact .pure _

/-- So is one as JSON. -/
theorem keeps_jsonInvocation (kind : String) (w : Walker) (site : CallSite) :
    w.Keeps (jsonInvocation kind w site) := by
  apply Walker.Keeps.bind (.mapM fun id _ => Walker.keeps_fragment id)
  intro args _
  exact .pure _

/-- A request as JSON starts with a brace, so it is no directive. -/
theorem plain_of_jsonRequest {kind text : String} {w : Walker} {site : CallSite}
    (h : (jsonRequest kind w site).Yields text) : lineRole text = .plain := by
  have hplain : ∀ payload : String, lineRole ("\x7b\"function\":\"" ++ kind ++ "\",\"payload\":"
      ++ payload ++ "\x7d") = .plain := by
    intro payload
    have hstarts : ['\x7b'] <+: ("\x7b\"function\":\"" ++ kind ++ "\",\"payload\":"
        ++ payload ++ "\x7d").toList := by
      repeat apply starts_append
      decide
    exact lineRole_of_starts hstarts (by decide)
  unfold jsonRequest at h
  split at h
  · rw [← Render.yields_pure_iff.mp h]
    exact hplain _
  · obtain ⟨payload, -, h⟩ := h.of_bind
    rw [← Render.yields_pure_iff.mp h]
    exact hplain payload

/-- So is an invocation as JSON, which starts with a brace as well. -/
theorem plain_of_jsonInvocation {kind text : String} {w : Walker} {site : CallSite}
    (h : (jsonInvocation kind w site).Yields text) : lineRole text = .plain := by
  obtain ⟨args, -, h⟩ := h.of_bind
  rw [← Render.yields_pure_iff.mp h]
  have hstarts : ['\x7b'] <+: ("\x7b\"kind\":\"" ++ kind ++ "\",\"args\":["
      ++ ",".intercalate args ++ "]\x7d").toList := by
    repeat apply starts_append
    decide
  exact lineRole_of_starts hstarts (by decide)

/-- Integrations of all common styles keep the blocks of a template. -/
theorem keepsBlocks_ofStyle (kind : String) (style : Style) : (ofStyle kind style).KeepsBlocks where
  resolver := by
    cases style with
    | invoke | appsyncOnly => exact keeps_stashRequest kind
    | inline => exact keeps_invocation kind
    | apigatewayOnly | none => exact keeps_unsupportedIn kind _
  mapping := by
    cases style with
    | invoke | apigatewayOnly => exact keeps_jsonRequest kind
    | inline => exact keeps_jsonInvocation kind
    | appsyncOnly | none => exact keeps_unsupportedIn kind _
  plain := by
    intro w site text _ h
    cases style with
    | invoke | apigatewayOnly => exact plain_of_jsonRequest h
    | inline => exact plain_of_jsonInvocation h
    | appsyncOnly | none => exact absurd h Render.not_yields_fault

end Integration

/-! ### What a mapping template may print -/

namespace Walker

variable {w : Walker} {table : Array Integration} {id expr : NodeId} {node : Node} {text : String}

/-- Whether the texts that a walker of mapping templates hands on for printing open
and close no block: JSON text, and expressions that pass on the call of an
integration. -/
structure SpeaksPlainly (w : Walker) : Prop where
  fragment : ∀ id text, (w.fragment id).Yields text → lineRole text = .plain
  expression : ∀ id text, (w.arena.calledIntegration id).isSome →
    (w.expression id).Yields text → lineRole text = .plain
  integrate : ∀ id call text, (w.integrate id call).Yields text → lineRole text = .plain

/-- A node is found exactly where the arena has it. -/
theorem yields_node_iff : (w.node id).Yields node ↔ w.arena.get? id = some node :=
  Render.yields_ofExcept_iff.trans Arena.node_eq_ok_iff

/-- What a handler returns in a mapping template is a plain line. -/
theorem plain_of_dispatch (ht : ∀ integration ∈ table, integration.KeepsBlocks)
    (hw : w.SpeaksPlainly) {direction : Direction} {config : MappingConfig}
    (hd : w.dialect = .mapping direction config) {integration : IntegrationId}
    (h : (w.dispatch table integration id).Yields text) : lineRole text = .plain := by
  unfold dispatch at h
  split at h
  · exact absurd h Render.not_yields_fault
  · next found hfound =>
    obtain ⟨out, -, h⟩ := h.of_bind
    split at h
    · exact absurd h Render.not_yields_fault
    · obtain ⟨-, -, h⟩ := h.of_bind
      obtain ⟨site, -, h⟩ := h.of_bind
      rw [hd] at h
      exact (ht found (Array.mem_of_getElem? hfound)).plain w site text hw.fragment h

/-- An expression that calls an integration is passed on until the call is reached. -/
theorem plain_of_renderExpression (ha : w.arena.Grown) (hw : w.SpeaksPlainly)
    (hcalls : (w.arena.calledIntegration id).isSome)
    (h : (w.renderExpression id).Yields text) : lineRole text = .plain := by
  obtain ⟨node, hnode, h⟩ := h.of_bind
  have hn := yields_node_iff.mp hnode
  have hpassed : ∀ {expr : NodeId}, Arena.Grown.passedOn node = some expr →
      (w.expression expr).Yields text → lineRole text = .plain := by
    intro expr hp he
    rw [ha.calledIntegration_of_passedOn hn hp] at hcalls
    exact hw.expression expr text hcalls he
  cases node with
  | paren expr => exact hpassed rfl h
  | await expr => exact hpassed rfl h
  | promise expr =>
    simp only [promised] at h
    split at h
    · exact absurd h Render.not_yields_fault
    · exact hpassed rfl h
  | call callee args =>
    rw [ha.calledIntegration_of_call hn] at hcalls
    obtain ⟨integration, hresolved⟩ := Option.isSome_iff_exists.mp hcalls
    simp only [call, hresolved] at h
    exact hw.integrate integration id text h
  | _ =>
    rw [ha.calledIntegration_eq_none hn rfl (by rintro _ _ ⟨⟩)] at hcalls
    cases hcalls

/-- Text of a JSON string is one, or it is escaped when the template runs. -/
theorem plain_of_jsonText {value : String} (h : (jsonText value).Yields text) :
    lineRole text = .plain := by
  unfold jsonText at h
  split at h
  · obtain ⟨temp, -, h⟩ := h.of_bind
    rw [← Render.yields_pure_iff.mp h]
    exact Text.lineRole_escapedAtRuntime temp
  · rw [← Render.yields_pure_iff.mp h]
    exact Text.lineRole_jsonString value

/-- What is printed by its type is one line, which opens and closes its branches itself. -/
theorem plain_of_primitive (h : (w.primitive expr).Yields text) : lineRole text = .plain := by
  unfold primitive at h
  split at h
  · exact absurd h Render.not_yields_fault
  · obtain ⟨value, -, h⟩ := h.of_bind
    rw [← Render.yields_pure_iff.mp h]
    exact Text.lineRole_primitiveDispatch value _

/-- Every form of JSON text is a plain line. -/
theorem plain_of_fragmentOf (ha : w.arena.Grown) (hw : w.SpeaksPlainly)
    (hn : w.arena.get? expr = some node) (h : (w.fragmentOf expr node).Yields text) :
    lineRole text = .plain := by
  cases node with
  | null | undefined =>
    rw [← Render.yields_pure_iff.mp h]
    decide
  | boolean value =>
    rw [← Render.yields_pure_iff.mp h]
    cases value <;> decide
  | number value => exact Binary64.lineRole_of_literal (Render.yields_ofExcept_iff.mp h)
  | string value => exact plain_of_jsonText h
  | object properties =>
    obtain ⟨fields, -, h⟩ := h.of_bind
    rw [← Render.yields_pure_iff.mp h]
    have hstarts : ['\x7b'] <+: ("\x7b" ++ ",".intercalate fields ++ "\x7d").toList := by
      repeat apply starts_append
      decide
    exact lineRole_of_starts hstarts (by decide)
  | array items =>
    obtain ⟨values, -, h⟩ := h.of_bind
    rw [← Render.yields_pure_iff.mp h]
    have hstarts : ['['] <+: ("[" ++ ",".intercalate values ++ "]").toList := by
      repeat apply starts_append
      decide
    exact lineRole_of_starts hstarts (by decide)
  | template head spans =>
    obtain ⟨value, -, h⟩ := h.of_bind
    rw [← Render.yields_pure_iff.mp h]
    exact Text.lineRole_escapedAtRuntime value
  | await inner => exact hw.fragment inner text h
  | promise inner =>
    simp only [fragmentOf] at h
    split at h
    · next hcalls =>
      rw [← ha.calledIntegration_of_passedOn hn rfl] at hcalls
      exact hw.expression expr text hcalls h
    · exact hw.fragment inner text h
  | call callee args =>
    simp only [fragmentOf] at h
    split at h
    · next hcalls => exact hw.expression expr text hcalls h
    · exact plain_of_primitive h
  | _ => exact plain_of_primitive h

/-- So is JSON text as a whole, since a path is a call of the payload. -/
theorem plain_of_renderFragment (ha : w.arena.Grown) (hw : w.SpeaksPlainly)
    (h : (w.renderFragment expr).Yields text) : lineRole text = .plain := by
  unfold renderFragment at h
  dsimp only at h
  split at h
  · rw [← Render.yields_pure_iff.mp h]
    exact Text.lineRole_inputJson _
  · obtain ⟨node, hnode, h⟩ := h.of_bind
    exact plain_of_fragmentOf ha hw (yields_node_iff.mp hnode) h

/-! ### Level by level -/

/-- A call keeps the blocks if the handlers do. -/
theorem keeps_dispatch (ht : ∀ integration ∈ table, integration.KeepsBlocks)
    (integration : IntegrationId) (call : NodeId) :
    w.Keeps (w.dispatch table integration call) := by
  intro stack
  unfold dispatch
  split
  · exact .fault _
  · next found hfound =>
    have hkeeps := ht found (Array.mem_of_getElem? hfound)
    apply Writes.get
    · intro out out' hsize
      rw [hsize]
    intro out
    split
    · exact .fault _
    · apply Writes.bind (.record integration)
      intro _ _
      apply Writes.bind (Keeps.ofExcept _ _)
      intro site _
      cases w.dialect with
      | resolver config => exact hkeeps.resolver w site _
      | mapping direction config => exact hkeeps.mapping w site _

/-- A walker without levels fails at once. -/
theorem keepsBlocks_exhausted (arena : Arena) (dialect : Dialect) :
    (Walker.exhausted arena dialect).KeepsBlocks := by
  have hbreach : ∀ {α : Type} (stack : List OpenBlock),
      (Render.breach .cyclic : Render α).Turns stack stack := by
    intro α stack out value final h
    exact absurd ⟨out, final, h⟩ Render.not_yields_fault
  exact {
    expression := fun _ stack => hbreach stack
    statement := fun _ _ stack => hbreach stack
    expand := fun _ _ stack => hbreach stack
    fragment := fun _ stack => hbreach stack
    integrate := fun _ _ stack => hbreach stack }

/-- It says nothing either. -/
theorem speaksPlainly_exhausted (arena : Arena) (dialect : Dialect) :
    (Walker.exhausted arena dialect).SpeaksPlainly where
  fragment _ _ h := absurd h Render.not_yields_fault
  expression _ _ _ h := absurd h Render.not_yields_fault
  integrate _ _ _ h := absurd h Render.not_yields_fault

/-- The rules keep blocks if the walker does that they are given. -/
theorem KeepsBlocks.above (hw : w.KeepsBlocks) (hp : w.PrintsPlainly)
    (ht : ∀ integration ∈ table, integration.KeepsBlocks) : (w.above table).KeepsBlocks where
  expression id stack := (keeps_renderExpression id stack).turns hw
  statement id slot stack := (keeps_renderStatement hp id slot stack).turns hw
  expand pattern target stack := (keeps_expandPattern pattern target stack).turns hw
  fragment id stack := (keeps_renderFragment id stack).turns hw
  integrate id call stack := (keeps_dispatch ht id call stack).turns hw

/-- A walker speaks plainly if the walker that renders its parts does. -/
theorem SpeaksPlainly.above (ha : w.arena.Grown) (hw : w.SpeaksPlainly)
    (ht : ∀ integration ∈ table, integration.KeepsBlocks) {direction : Direction}
    {config : MappingConfig} (hd : w.dialect = .mapping direction config) :
    (w.above table).SpeaksPlainly where
  fragment _ _ h := plain_of_renderFragment ha hw h
  expression _ _ hcalls h := plain_of_renderExpression ha hw hcalls h
  integrate _ _ _ h := plain_of_dispatch ht hw hd h

end Walker

namespace Program

variable {p : Program} {dialect : Dialect}

/-- So the walkers of a mapping template speak plainly at every level. -/
theorem BottomUp.speaksPlainly_walkerWithin (hp : p.BottomUp)
    (ht : ∀ integration ∈ p.integrations, integration.KeepsBlocks) {direction : Direction}
    {config : MappingConfig} (n : Nat) :
    (p.walkerWithin (.mapping direction config) n).SpeaksPlainly := by
  induction n with
  | zero => exact Walker.speaksPlainly_exhausted _ _
  | succ n ih =>
    have ha : (p.walkerWithin (.mapping direction config) n).arena.Grown := by
      rw [p.arena_walkerWithin]
      exact hp.grown
    exact ih.above ha ht (p.dialect_walkerWithin _ n)

/-- And so in every dialect what is printed as it stands is a plain line. -/
theorem BottomUp.printsPlainly_walkerWithin (hp : p.BottomUp)
    (ht : ∀ integration ∈ p.integrations, integration.KeepsBlocks) (n : Nat) :
    (p.walkerWithin dialect n).PrintsPlainly := by
  intro direction config hd
  rw [p.dialect_walkerWithin] at hd
  subst hd
  exact (hp.speaksPlainly_walkerWithin ht n).fragment

/-- At every level the walker of a program keeps the blocks of a template. -/
theorem BottomUp.keepsBlocks_walkerWithin (hp : p.BottomUp)
    (ht : ∀ integration ∈ p.integrations, integration.KeepsBlocks) (n : Nat) :
    (p.walkerWithin dialect n).KeepsBlocks := by
  induction n with
  | zero => exact Walker.keepsBlocks_exhausted _ _
  | succ n ih => exact ih.above (hp.printsPlainly_walkerWithin ht n) ht

end Program

/-- Whatever a walker is asked for, if it succeeds, the lines that it has appended
are balanced. -/
theorem balanced_of_run {p : Program} (hp : p.BottomUp)
    (ht : ∀ integration ∈ p.integrations, integration.KeepsBlocks) {dialect : Dialect}
    {operation : Walker.Operation} {result : Option String} {out final : Output}
    (h : ((p.walker dialect).run operation).runOn out = (.ok result, final)) :
    ∃ lines, final.lines.toList = out.lines.toList ++ lines ∧ Balanced lines := by
  have hkeeps : (p.walker dialect).Keeps ((p.walker dialect).run operation) :=
    Walker.keeps_run (hp.printsPlainly_walkerWithin ht p.depth) operation
  have hturns := (hkeeps []).turns (hp.keepsBlocks_walkerWithin ht p.depth)
  obtain ⟨lines, hlines, hscan⟩ := hturns out result final h
  exact ⟨lines, hlines, balanced_iff_scanLines.mpr hscan⟩

/-- The loop over the items is closed. -/
theorem balanced_of_run_pluck :
    ∃ result final,
      ((Program.pluck.walker (.resolver {})).run (.root ⟨18⟩)).runOn {} = (.ok result, final) ∧
        final.lines.size = 7 ∧ Balanced final.lines.toList := by
  have hnone : Program.pluck.integrations = #[] := by cbv
  have hkeeps : ∀ integration ∈ Program.pluck.integrations, integration.KeepsBlocks := by
    rw [hnone]
    simp
  have hok : (((Program.pluck.walker (.resolver {})).run (.root ⟨18⟩)).runOn {}).1.isOk = true := by
    decide +kernel
  have hsize :
      (((Program.pluck.walker (.resolver {})).run (.root ⟨18⟩)).runOn {}).2.lines.size = 7 := by
    decide +kernel
  rcases hrun : ((Program.pluck.walker (.resolver {})).run (.root ⟨18⟩)).runOn {} with
    ⟨fault | result, final⟩
  · rw [hrun] at hok
    cases hok
  · rw [hrun] at hsize
    obtain ⟨lines, hlines, hbalanced⟩ := balanced_of_run Program.bottomUp_pluck hkeeps hrun
    have heq : final.lines.toList = lines := hlines
    exact ⟨result, final, rfl, hsize, heq ▸ hbalanced⟩

end ClosureVtl
