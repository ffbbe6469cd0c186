/-
Module: ClosureVtl.Proofs.Render.Emission
Purpose: Steps of rendering by the lines that they append.
Main exports:
  setLine, discardLine, ifLine, foreachLine, Output.extend, Render.Emits, Emits.runOn_bind,
  Emits.guarded, Emits.choice
-/
import ClosureVtl.Proofs.Render.Writing

namespace ClosureVtl

/-!
Most steps of rendering do the same whatever has been written before: they yield a value and
append some lines.  `Render.Emits` says which lines these are, how many temporaries they take,
and which calls are on record afterwards.  A run of steps in a row is the run of the last one on
a template that was extended by all others, and two extensions are one; so a rule whose parts
are known is evaluated by rewriting.
-/

/-! ### Templates with more lines -/

/-- A template with more lines and temporaries, and with other calls. -/
def Output.extend (out : Output) (lines : List String) (temps : Nat)
    (calls : Array IntegrationId) : Output :=
  { lines := out.lines ++ lines.toArray, temps := out.temps + temps, integrations := calls }

namespace Output

variable (out : Output) (lines more : List String) (temps new : Nat)
  (calls later : Array IntegrationId)

/-- Extending a template counts the new temporaries, whatever lines and calls come with them. -/
@[simp] theorem temps_extend : (out.extend lines temps calls).temps = out.temps + temps := rfl

/-- The calls of an extended template are the given ones. -/
@[simp] theorem integrations_extend : (out.extend lines temps calls).integrations = calls := rfl

/-- Extending a template twice is extending it once, by the lines and temporaries of both. -/
theorem extend_extend :
    (out.extend lines temps calls).extend more new later =
      out.extend (lines ++ more) (temps + new) later := by
  simp [extend, Nat.add_assoc]

end Output

/-- The line of an assignment. -/
def setLine (target value : String) : String := s!"#set({target} = {value})"

/-- The line of a value that is evaluated for its effect. -/
def discardLine (value : String) : String := s!"$util.qr({value})"

/-- The line that opens a branch. -/
def ifLine (condition : String) : String := s!"#if({condition})"

/-- The line that opens a loop. -/
def foreachLine (item list : String) : String := s!"#foreach({item} in {list})"

namespace Render

variable {α β : Type} {x : Render α} {f : α → Render β} {out : Output} {value : α}
  {lines more : List String} {temps new : Nat} {calls later : Array IntegrationId}

/-- Whether a step yields a value, appends exactly these lines, allocates so many temporaries
and leaves these calls. -/
def Emits (x : Render α) (out : Output) (value : α) (lines : List String) (temps : Nat)
    (calls : Array IntegrationId) : Prop :=
  x.runOn out = (.ok value, out.extend lines temps calls)

/-- The rest of a run, behind a step that is known. -/
theorem Emits.runOn_bind (h : x.Emits out value lines temps calls) (f : α → Render β) :
    (x >>= f).runOn out = (f value).runOn (out.extend lines temps calls) := by
  rw [Render.runOn_bind, h]

/-- A line that is written is the only thing that changes. -/
theorem emits_emit (line : String) (out : Output) :
    (emit line).Emits out () [line] 0 out.integrations := by
  simp [Emits, runOn_emit, Output.extend]

/-- An assignment is one line. -/
theorem emits_assign (target value : String) (out : Output) :
    (assign target value).Emits out () [setLine target value] 0 out.integrations :=
  emits_emit _ out

/-- So is a value that is thrown away. -/
theorem emits_discard (value : String) (out : Output) :
    (discard value).Emits out () [discardLine value] 0 out.integrations :=
  emits_emit _ out

/-- So is an end. -/
theorem emits_close (out : Output) : close.Emits out () ["#end"] 0 out.integrations :=
  emits_emit _ out

/-- So is a condition. -/
theorem emits_if (condition : String) (out : Output) :
    (emit s!"#if({condition})").Emits out () [ifLine condition] 0 out.integrations :=
  emits_emit _ out

/-- So is the header of a loop. -/
theorem emits_openLoop (item list : String) (out : Output) :
    (openLoop item list).Emits out () [foreachLine item list] 0 out.integrations :=
  emits_emit _ out

/-- A temporary is numbered from the ones taken before, and no line is written for it. -/
theorem emits_freshTemp (out : Output) :
    freshTemp.Emits out (tempName (out.temps + 1)) [] 1 out.integrations := by
  simp [Emits, runOn_freshTemp, Output.extend]

/-- A value in a temporary is one temporary and one assignment to it. -/
theorem emits_materialize (value : String) (out : Output) :
    (materialize value).Emits out (tempName (out.temps + 1))
      [setLine (tempName (out.temps + 1)) value] 1 out.integrations := by
  unfold Emits materialize
  rw [(emits_freshTemp out).runOn_bind, (emits_assign _ _ _).runOn_bind, runOn_pure,
    Output.extend_extend]
  rfl

/-- A guard puts a condition in front of its body and an end behind it. -/
theorem Emits.guarded {condition : String} {body : Render Unit}
    (h : body.Emits (out.extend [ifLine condition] 0 out.integrations) () lines temps calls) :
    (Render.guarded condition body).Emits out () (ifLine condition :: lines ++ ["#end"]) temps
      calls := by
  unfold Emits Render.guarded
  rw [(emits_if _ _).runOn_bind, h.runOn_bind, emits_close, Output.extend_extend,
    Output.extend_extend]
  simp

/-- A choice puts a condition, a turn and an end around its sides, and the second side goes on
from what the first one has left. -/
theorem Emits.choice {condition : String} {yes no : Render Unit}
    (hyes : yes.Emits (out.extend [ifLine condition] 0 out.integrations) () lines temps calls)
    (hno : no.Emits
      (out.extend (ifLine condition :: lines ++ ["#else"]) temps calls) () more new later) :
    (Render.choice condition yes no).Emits out ()
      (ifLine condition :: lines ++ "#else" :: more ++ ["#end"]) (temps + new) later := by
  unfold Emits Render.choice
  rw [(emits_if _ _).runOn_bind, hyes.runOn_bind, (emits_emit _ _).runOn_bind,
    Output.extend_extend, Output.extend_extend, Nat.add_zero, Nat.zero_add, List.singleton_append,
    ← List.cons_append]
  rw [Output.integrations_extend, hno.runOn_bind, emits_close, Output.extend_extend,
    Output.extend_extend]
  simp

end Render

end ClosureVtl
