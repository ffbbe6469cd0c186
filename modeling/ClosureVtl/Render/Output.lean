/-
Module: ClosureVtl.Render.Output
Purpose: The growing template and the elementary steps that write it.
Main exports:
  Output, Render, Render.emit, Render.freshTemp, Render.assign,
  Render.materialize, Render.discard, Render.guarded, Render.choice, Render.fault
-/
import ClosureVtl.Fault
import ClosureVtl.Text.Literal

namespace ClosureVtl

/-!
Rendering appends lines to a template, allocates temporaries and records the
integrations it calls.  A fault ends it and leaves what was written before.

Values whose evaluation order matters are stored by `#set` lines; everything
else is passed around as text that stands for the value.
-/

/-- A template in the making. -/
structure Output where
  lines : Array String := #[]
  /-- the number of temporaries allocated so far -/
  temps : Nat := 0
  /-- the integrations called so far, in call order -/
  integrations : Array IntegrationId := #[]
deriving Inhabited, Repr, DecidableEq

/-- The text of a template. -/
def Output.text (out : Output) : String := "\n".intercalate out.lines.toList

/-- A step of rendering. -/
abbrev Render (α : Type) := ExceptT Fault (StateM Output) α

namespace Render

/-- Ends the rendering. -/
def fault {α : Type} (f : Fault) : Render α := throw f

/-- Ends the rendering at a construct that has no lowering. -/
def unsupported {α : Type} (cause : Unsupported) : Render α := fault (.unsupported cause)

/-- Ends the rendering at a broken promise. -/
def breach {α : Type} (cause : Breach) : Render α := fault (.breach cause)

/-- A step that writes nothing. -/
def ofExcept {α : Type} : Except Fault α → Render α
  | .ok value => pure value
  | .error f => fault f

/-- Runs a step on a template in the making. -/
def runOn {α : Type} (step : Render α) (out : Output) : Except Fault α × Output :=
  (ExceptT.run step).run out

/-- Appends a line. -/
def emit (line : String) : Render Unit :=
  modify fun out => { out with lines := out.lines.push line }

/-- The name of a temporary; temporaries are numbered from one. -/
def tempName (number : Nat) : String := s!"$v{number}"

/-- Allocates a temporary. -/
def freshTemp : Render String := do
  modify fun out => { out with temps := out.temps + 1 }
  return tempName (← get).temps

/-- Records the call of an integration. -/
def recordIntegration (id : IntegrationId) : Render Unit :=
  modify fun out => { out with integrations := out.integrations.push id }

/-- Stores a value. -/
def assign (target value : String) : Render Unit :=
  emit s!"#set({target} = {value})"

/-- Stores a value in a fresh temporary, which then stands for it. -/
def materialize (value : String) : Render String := do
  let temp ← freshTemp
  assign temp value
  return temp

/-- Evaluates a value for its effect alone. -/
def discard (value : String) : Render Unit :=
  emit s!"$util.qr({value})"

/-- Opens a loop that binds each element of a list. -/
def openLoop (item list : String) : Render Unit :=
  emit s!"#foreach({item} in {list})"

/-- Closes the innermost open block. -/
def close : Render Unit := emit "#end"

/-- Writes lines that run only if a condition holds. -/
def guarded (condition : String) (body : Render Unit) : Render Unit := do
  emit s!"#if({condition})"
  body
  close

/-- Writes lines that run if a condition holds, and others that run if not. -/
def choice (condition : String) (yes no : Render Unit) : Render Unit := do
  emit s!"#if({condition})"
  yes
  emit "#else"
  no
  close

/-- Writes lines that run only if a value is null. -/
def ifNull (value : String) (body : Render Unit) : Render Unit :=
  guarded s!"{value} == {Text.nullText}" body

/-! ### What the elementary steps do to a template -/

theorem runOn_emit (line : String) (out : Output) :
    (emit line).runOn out = (.ok (), { out with lines := out.lines.push line }) := rfl

theorem runOn_freshTemp (out : Output) :
    freshTemp.runOn out =
      (.ok (tempName (out.temps + 1)), { out with temps := out.temps + 1 }) := rfl

theorem runOn_recordIntegration (id : IntegrationId) (out : Output) :
    (recordIntegration id).runOn out =
      (.ok (), { out with integrations := out.integrations.push id }) := rfl

theorem runOn_fault {α : Type} (f : Fault) (out : Output) :
    (fault f : Render α).runOn out = (.error f, out) := rfl

theorem runOn_pure {α : Type} (value : α) (out : Output) :
    (pure value : Render α).runOn out = (.ok value, out) := rfl

/-- A fault in the first step keeps the second from running. -/
theorem runOn_bind {α β : Type} (step : Render α) (next : α → Render β) (out : Output) :
    (step >>= next).runOn out =
      match step.runOn out with
      | (.ok value, out) => (next value).runOn out
      | (.error f, out) => (.error f, out) := by
  simp only [runOn, ExceptT.run_bind]
  rw [StateT.run_bind]
  generalize StateT.run step.run out = r
  rcases r with ⟨_ | _, _⟩ <;> rfl

end Render

end ClosureVtl
