/-
Module: ClosureVtl.Proofs.Render.MappingLines
Purpose: Which lines the parts of a mapping template write, and which texts it prints.
Main exports:
  Arena.PassedTo, Arena.Calls, Discipline.still, Integration.Quiet,
  Integration.quiet_ofStyle, Program.utters_walkerWithin,
  Program.mapping_keepsBlocks_walkerWithin, Program.follows_still
-/
import ClosureVtl.Proofs.Render.BlockBalance
import ClosureVtl.Proofs.Render.FollowedRules
import ClosureVtl.Proofs.Template.Printing

namespace ClosureVtl

/-!
In a mapping template an expression writes assignments, expressions that are evaluated for
their effect, and branches around them; loops are refused before they are opened.  There is
one exception: a pattern with a rest element copies the other keys of a map in a loop of its
own.  What a return yields is printed as it stands.

Nothing here asks how the arena was built.  Where a text is passed on from the call of an
integration, the calls are followed as far as rendering itself does.
-/

/-! ### Texts that are passed on -/

namespace Arena

variable {a : Arena} {id expr last : NodeId} {node : Node}

/-- Whether a node passes its text on from another one. -/
inductive PassedTo (a : Arena) : NodeId → NodeId → Prop where
  | refl (id : NodeId) : PassedTo a id id
  | step {id expr last : NodeId} {node : Node} (found : a.get? id = some node)
      (on : Grown.passedOn node = some expr) (rest : PassedTo a expr last) : PassedTo a id last

/-- Texts are passed on along chains. -/
theorem PassedTo.trans {middle : NodeId} (h : a.PassedTo id middle) (h' : a.PassedTo middle last) :
    a.PassedTo id last := by
  induction h with
  | refl => exact h'
  | step found on _ ih => exact .step found on (ih h')

/-- Parentheses pass their text on. -/
theorem passedTo_unwrapParens (a : Arena) (id : NodeId) : a.PassedTo id (a.unwrapParens id) := by
  unfold unwrapParens
  generalize a.size = n
  induction n generalizing id with
  | zero => exact .refl id
  | succ n ih =>
    rw [unwrapParensWithin]
    split
    · next expr hnode => exact .step hnode rfl (ih expr)
    · exact .refl id

/-- So does waiting for a value. -/
theorem passedTo_awaited (a : Arena) (id : NodeId) : a.PassedTo id (a.awaited id) := by
  unfold awaited
  generalize a.size + 1 = n
  induction n generalizing id with
  | zero => exact .refl id
  | succ n ih =>
    rw [awaitedWithin]
    have hfront := passedTo_unwrapParens a id
    split
    · next expr hnode => exact hfront.trans (.step hnode rfl (ih expr))
    · next expr hnode => exact hfront.trans (.step hnode rfl (ih expr))
    · exact hfront

/-- Whether the text of a node comes from the call of an integration. -/
def Calls (a : Arena) (id : NodeId) : Prop :=
  ∃ call callee args, a.PassedTo id call ∧ a.get? call = some (.call callee args) ∧
    (a.resolveIntegration callee).isSome = true

/-- A call that is recognised as one of an integration is reached by passing on. -/
theorem calls_of_calledIntegration (h : (a.calledIntegration id).isSome = true) : a.Calls id := by
  unfold calledIntegration at h
  split at h
  · next callee args hnode => exact ⟨_, callee, args, a.passedTo_awaited id, hnode, h⟩
  · cases h

/-- The call is the node itself, or the text is passed on. -/
theorem Calls.cases (h : a.Calls id) (hnode : a.get? id = some node) :
    (∃ callee args, node = .call callee args ∧ (a.resolveIntegration callee).isSome = true) ∨
      ∃ expr, Grown.passedOn node = some expr ∧ a.Calls expr := by
  obtain ⟨call, callee, args, hpassed, hcall, hresolved⟩ := h
  cases hpassed with
  | refl =>
    rw [hnode] at hcall
    cases hcall
    exact .inl ⟨callee, args, rfl, hresolved⟩
  | step found on rest =>
    rw [hnode] at found
    cases found
    exact .inr ⟨_, on, call, callee, args, rest, hcall, hresolved⟩

end Arena

/-! ### Texts that are printed -/

namespace Text

/-- A string in quotes begins with a quote, so it is no directive. -/
theorem printed_jsonString (text : String) : Printed (jsonString text) := by
  have hstarts : ['"'] <+: (jsonString text).toList := by
    unfold jsonString
    repeat apply starts_append
    decide
  exact printed_of_starts hstarts (by decide) (by decide)

theorem printed_escapedAtRuntime (value : String) : Printed (escapedAtRuntime value) := by
  have hstarts : ['"'] <+: (escapedAtRuntime value).toList := by
    unfold escapedAtRuntime
    repeat apply starts_append
    decide
  exact printed_of_starts hstarts (by decide) (by decide)

theorem printed_inputJson (path : String) : Printed (inputJson path) := by
  have hstarts : ['$', 'i'] <+: (inputJson path).toList := by
    unfold inputJson
    repeat apply starts_append
    decide
  obtain ⟨rest, hline⟩ := hstarts
  refine ⟨lineRole_inputJson path, ?_, ?_⟩
  · rw [isSilent, ← hline]
    rfl
  · rw [isExit, ← hline]
    rfl

/-- A dispatch by type is a directive in front, and is printed for what is in it. -/
theorem printed_primitiveDispatch (value : String) (status : UInt16) :
    Printed (primitiveDispatch value status) := by
  have hstarts : ['#', 'i'] <+: (primitiveDispatch value status).toList := by
    unfold primitiveDispatch
    repeat apply starts_append
    decide
  obtain ⟨rest, hline⟩ := hstarts
  refine ⟨lineRole_primitiveDispatch value status, ?_, ?_⟩
  · rw [isSilent, ← hline]
    rfl
  · rw [isExit, ← hline]
    rfl

end Text

/-- A number starts with a digit or a sign. -/
theorem Binary64.printed_of_literal {value : Binary64} {text : String}
    (h : value.literal = .ok text) : Printed text := by
  obtain ⟨first, rest, htext, hfirst, -⟩ := exists_cons_literal h
  refine printed_of_starts ⟨rest, htext.symm⟩ ?_ ?_
  · rintro rfl
    exact absurd hfirst (by decide)
  · rintro rfl
    exact absurd hfirst (by decide)

/-! ### Disciplines without loops -/

/-- A line that prints nothing and opens no loop. -/
def Still (line : String) : Prop := Mute line ∧ lineRole line ≠ .loop

/-- Whatever is written behind some point opens no loop and prints nothing. -/
def Discipline.still (start : Output) : Discipline where
  Holds _ out := ∃ new, out.lines.toList = start.lines.toList ++ new ∧ ∀ line ∈ new, Still line
  Allows _ _ := True
  Permits := Still
  free := False
  allows_later _ _ := trivial
  weaken h _ := h
  settle h _ := h
  allocate h := h
  record _ h := h
  write := by
    rintro due out line hline - ⟨new, hnew, hall⟩
    refine ⟨new ++ [line], ?_, ?_⟩
    · rw [Array.toList_push, hnew, List.append_assoc]
    · intro other hm
      rcases List.mem_append.mp hm with hm | hm
      · exact hall other hm
      · rw [List.mem_singleton.mp hm]
        exact hline
  store := by
    rintro due out number value line hline - - ⟨new, hnew, hall⟩
    refine ⟨⟨new ++ [line], ?_, ?_⟩, trivial⟩
    · rw [Array.toList_push, hnew, List.append_assoc]
    · intro other hm
      rcases List.mem_append.mp hm with hm | hm
      · exact hall other hm
      · rw [List.mem_singleton.mp hm]
        exact hline
  permits_of_free h := h.elim
  permits_assign target value := ⟨mute_assign target value, by rw [lineRole_assign]; decide⟩
  permits_discard value := ⟨mute_discard value, by rw [lineRole_discard]; decide⟩
  permits_branch condition :=
    ⟨mute_of_role (lineRole_openBranch condition) (by decide), by rw [lineRole_openBranch]; decide⟩
  permits_alternative := ⟨mute_of_role lineRole_alternative (by decide), by decide⟩
  permits_close := ⟨mute_of_role lineRole_close (by decide), by decide⟩

/-! ### Handlers -/

/-- What handlers of mapping templates have to respect: they close the blocks that they open,
write nothing that is printed and no loop, and yield a text that is printed, if the JSON texts
of the walker are. -/
structure Integration.Quiet (integration : Integration) : Prop where
  blocks : integration.KeepsBlocks
  still : ∀ start, (Discipline.still start).Admits integration
  printed : ∀ w site text, (∀ id text, (w.fragment id).Yields text → Printed text) →
    (integration.mapping w site).Yields text → Printed text

namespace Integration

/-- A request is an object in braces. -/
theorem printed_of_jsonRequest {kind text : String} {w : Walker} {site : CallSite}
    (h : (jsonRequest kind w site).Yields text) : Printed text := by
  have hprinted : ∀ payload : String, Printed ("\x7b\"function\":\"" ++ kind ++ "\",\"payload\":"
      ++ payload ++ "\x7d") := by
    intro payload
    have hstarts : ['\x7b'] <+: ("\x7b\"function\":\"" ++ kind ++ "\",\"payload\":"
        ++ payload ++ "\x7d").toList := by
      repeat apply starts_append
      decide
    exact printed_of_starts hstarts (by decide) (by decide)
  unfold jsonRequest at h
  split at h
  · rw [← Render.yields_pure_iff.mp h]
    exact hprinted _
  · obtain ⟨payload, -, h⟩ := h.of_bind
    rw [← Render.yields_pure_iff.mp h]
    exact hprinted payload

/-- An invocation is one as well. -/
theorem printed_of_jsonInvocation {kind text : String} {w : Walker} {site : CallSite}
    (h : (jsonInvocation kind w site).Yields text) : Printed text := by
  obtain ⟨args, -, h⟩ := h.of_bind
  rw [← Render.yields_pure_iff.mp h]
  have hstarts : ['\x7b'] <+: ("\x7b\"kind\":\"" ++ kind ++ "\",\"args\":["
      ++ ",".intercalate args ++ "]\x7d").toList := by
    repeat apply starts_append
    decide
  exact printed_of_starts hstarts (by decide) (by decide)

/-- Integrations of all common styles are quiet. -/
theorem quiet_ofStyle (kind : String) (style : Style) : (ofStyle kind style).Quiet where
  blocks := keepsBlocks_ofStyle kind style
  still _ := admits_ofStyle (fun _ _ _ => trivial) style
  printed := by
    intro w site text _ h
    cases style with
    | invoke | apigatewayOnly => exact printed_of_jsonRequest h
    | inline => exact printed_of_jsonInvocation h
    | appsyncOnly | none => exact absurd h Render.not_yields_fault

end Integration

namespace Walker

variable {w : Walker} {table : Array Integration} {id expr : NodeId} {node : Node} {text : String}

/-- Whether the texts that a walker of mapping templates hands on for printing are printed as
they stand: JSON text, and the texts that come from the call of an integration. -/
structure Utters (w : Walker) : Prop where
  fragment : ∀ id text, (w.fragment id).Yields text → Printed text
  expression : ∀ id text, w.arena.Calls id → (w.expression id).Yields text → Printed text
  integrate : ∀ id call text, (w.integrate id call).Yields text → Printed text

/-- What a quiet integration yields is printed as it stands, if that is so for its arguments. -/
theorem printed_of_dispatch (ht : ∀ integration ∈ table, integration.Quiet) (hw : w.Utters)
    {direction : Direction} {config : MappingConfig} (hd : w.dialect = .mapping direction config)
    {integration : IntegrationId} (h : (w.dispatch table integration id).Yields text) :
    Printed text := by
  unfold dispatch at h
  split at h
  · exact absurd h Render.not_yields_fault
  · next found hfound =>
    obtain ⟨out, -, h⟩ := h.of_bind
    split at h
    · exact absurd h Render.not_yields_fault
    · obtain ⟨-, -, h⟩ := h.of_bind
      obtain ⟨site, -, h⟩ := h.of_bind
      rw [hd] at h
      exact (ht found (Array.mem_of_getElem? hfound)).printed w site text hw.fragment h

/-- An expression that calls an integration is passed on until the call is reached. -/
theorem printed_of_renderExpression (hw : w.Utters) (hcalls : w.arena.Calls id)
    (h : (w.renderExpression id).Yields text) : Printed text := by
  obtain ⟨node, hnode, h⟩ := h.of_bind
  rcases hcalls.cases (yields_node_iff.mp hnode) with ⟨callee, args, rfl, hresolved⟩ | ⟨expr, hon, hrest⟩
  · obtain ⟨integration, hsome⟩ := Option.isSome_iff_exists.mp hresolved
    simp only [call, hsome] at h
    exact hw.integrate integration id text h
  · cases node with
    | paren inner | await inner =>
      cases hon
      exact hw.expression expr text hrest h
    | promise inner =>
      cases hon
      simp only [promised] at h
      split at h
      · exact absurd h Render.not_yields_fault
      · exact hw.expression expr text hrest h
    | _ => cases hon

theorem printed_of_jsonText {value : String} (h : (jsonText value).Yields text) : Printed text := by
  unfold jsonText at h
  split at h
  · obtain ⟨temp, -, h⟩ := h.of_bind
    rw [← Render.yields_pure_iff.mp h]
    exact Text.printed_escapedAtRuntime temp
  · rw [← Render.yields_pure_iff.mp h]
    exact Text.printed_jsonString value

/-- The dispatch on the type of a value is printed as it stands. -/
theorem printed_of_primitive (h : (w.primitive expr).Yields text) : Printed text := by
  unfold primitive at h
  split at h
  · exact absurd h Render.not_yields_fault
  · obtain ⟨value, -, h⟩ := h.of_bind
    rw [← Render.yields_pure_iff.mp h]
    exact Text.printed_primitiveDispatch value _

theorem printed_null : Printed "null" := ⟨by decide, by decide, by decide⟩

/-- Literals do not begin with a sign of the template language; all else is passed on or is the
dispatch on a type. -/
theorem printed_of_fragmentOf (hw : w.Utters) (hn : w.arena.get? expr = some node)
    (h : (w.fragmentOf expr node).Yields text) : Printed text := by
  cases node with
  | null | undefined =>
    rw [← Render.yields_pure_iff.mp h]
    exact printed_null
  | boolean value =>
    rw [← Render.yields_pure_iff.mp h]
    cases value <;> exact ⟨by decide, by decide, by decide⟩
  | number value => exact Binary64.printed_of_literal (Render.yields_ofExcept_iff.mp h)
  | string value => exact printed_of_jsonText h
  | object properties =>
    obtain ⟨fields, -, h⟩ := h.of_bind
    rw [← Render.yields_pure_iff.mp h]
    have hstarts : ['\x7b'] <+: ("\x7b" ++ ",".intercalate fields ++ "\x7d").toList := by
      repeat apply starts_append
      decide
    exact printed_of_starts hstarts (by decide) (by decide)
  | array items =>
    obtain ⟨values, -, h⟩ := h.of_bind
    rw [← Render.yields_pure_iff.mp h]
    have hstarts : ['['] <+: ("[" ++ ",".intercalate values ++ "]").toList := by
      repeat apply starts_append
      decide
    exact printed_of_starts hstarts (by decide) (by decide)
  | template head spans =>
    obtain ⟨value, -, h⟩ := h.of_bind
    rw [← Render.yields_pure_iff.mp h]
    exact Text.printed_escapedAtRuntime value
  | await inner => exact hw.fragment inner text h
  | promise inner =>
    simp only [fragmentOf] at h
    split at h
    · next hcalls =>
      obtain ⟨call, callee, args, hpassed, hcall, hresolved⟩ :=
        Arena.calls_of_calledIntegration hcalls
      have hcalls : w.arena.Calls expr :=
        ⟨call, callee, args, .step hn rfl hpassed, hcall, hresolved⟩
      exact hw.expression expr text hcalls h
    · exact hw.fragment inner text h
  | call callee args =>
    simp only [fragmentOf] at h
    split at h
    · next hcalls => exact hw.expression expr text (Arena.calls_of_calledIntegration hcalls) h
    · exact printed_of_primitive h
  | _ => exact printed_of_primitive h

/-- What is rendered as a value is printed as it stands. -/
theorem printed_of_renderFragment (hw : w.Utters) (h : (w.renderFragment expr).Yields text) :
    Printed text := by
  unfold renderFragment at h
  dsimp only at h
  split at h
  · rw [← Render.yields_pure_iff.mp h]
    exact Text.printed_inputJson _
  · obtain ⟨node, hnode, h⟩ := h.of_bind
    exact printed_of_fragmentOf hw (yields_node_iff.mp hnode) h

end Walker

namespace Program

variable {p : Program} {direction : Direction} {config : MappingConfig}

/-- At every level, what a mapping template hands on for printing is printed. -/
theorem utters_walkerWithin (ht : ∀ integration ∈ p.integrations, integration.Quiet) (n : Nat) :
    (p.walkerWithin (.mapping direction config) n).Utters := by
  induction n with
  | zero =>
    exact {
      fragment := fun _ _ h => absurd h Render.not_yields_fault
      expression := fun _ _ _ h => absurd h Render.not_yields_fault
      integrate := fun _ _ _ h => absurd h Render.not_yields_fault }
  | succ n ih =>
    exact {
      fragment := fun _ _ h => Walker.printed_of_renderFragment ih h
      expression := fun _ _ hcalls h => Walker.printed_of_renderExpression ih hcalls h
      integrate := fun _ _ _ h =>
        Walker.printed_of_dispatch ht ih (p.dialect_walkerWithin _ n) h }

/-- At every level, and however the arena was built, a mapping template keeps its blocks. -/
theorem mapping_keepsBlocks_walkerWithin (ht : ∀ integration ∈ p.integrations, integration.Quiet)
    (n : Nat) : (p.walkerWithin (.mapping direction config) n).KeepsBlocks := by
  induction n with
  | zero => exact Walker.keepsBlocks_exhausted _ _
  | succ n ih =>
    refine ih.above ?_ fun integration hm => (ht integration hm).blocks
    intro _ _ _ id text h
    exact ((utters_walkerWithin ht n).fragment id text h).plain

/-- At every level a mapping template respects disciplines without loops. -/
theorem follows_still (ht : ∀ integration ∈ p.integrations, integration.Quiet) (start : Output)
    (n : Nat) : (p.walkerWithin (.mapping direction config) n).Follows (.still start) := by
  refine follows_walkerWithin ?_ ?_ ?_ n
  · intro h
    cases h
  · intro _ _ _ _ _ _ _ _
    trivial
  · exact fun integration hm => (ht integration hm).still start

end Program

end ClosureVtl
