/-
Module: ClosureVtl.Proofs.Render.LineCount
Purpose: How many lines of a kind a step of rendering writes, and steps that write computing
  lines only.
Main exports:
  ComputingLine, Render.Counts, Walker.Computes, Walker.Misses, Walker.Computes.counts
-/
import Mathlib.Algebra.Ring.Nat
import ClosureVtl.Proofs.Render.Emission
import ClosureVtl.Proofs.Render.Inversion

namespace ClosureVtl

/-!
Nearly all lines of a template compute: they store a value, evaluate one, open and close loops
and branches.  The lines that do not are those that return from the closure and those that
handlers write.  `Walker.Computes` is the inductive account of the steps that never return from
the closure.  Such a step calls the walker for statements only with a slot that returned values
go to.  So it writes computing lines and what the entry points of the walker write, and lines of
a kind that no computing line is of are counted by the rules for statements outside of callbacks
alone.
-/

/-- The lines that compute. -/
inductive ComputingLine : String → Prop where
  | assign (target value : String) : ComputingLine (setLine target value)
  | discard (value : String) : ComputingLine (discardLine value)
  | branch (condition : String) : ComputingLine (ifLine condition)
  | alternative : ComputingLine "#else"
  | close : ComputingLine "#end"
  | loop (item list : String) : ComputingLine (foreachLine item list)
  | leave : ComputingLine "#break"
  /-- the end of a reduction that has nothing to start from -/
  | emptyReduce : ComputingLine ("$util.error(\"Reduce of empty array with no initial value\", \""
      ++ FaultClass.emptyReduceNoInitial.name ++ "\")")

/-! ### Counting lines -/

namespace Render

variable {α β : Type} {hit : String → Bool} {x : Render α} {f : α → Render β} {k m : Nat}

/-- Whether every run of a step that ends well appends so many lines of a kind. -/
def Counts (hit : String → Bool) (x : Render α) (k : Nat) : Prop :=
  ∀ out value final, x.runOn out = (.ok value, final) →
    ∃ lines, final.lines.toList = out.lines.toList ++ lines ∧ lines.countP hit = k

namespace Counts

/-- Returning a value writes no line. -/
theorem pure (value : α) : Counts hit (Pure.pure value : Render α) 0 := by
  intro out result final h
  rw [runOn_pure] at h
  cases h
  exact ⟨[], (List.append_nil _).symm, rfl⟩

/-- A step that fails never ends well, so any number is right for it. -/
theorem fault (f : Fault) : Counts hit (Render.fault f : Render α) k := by
  intro out result final h
  rw [runOn_fault] at h
  cases h

/-- The counts of two steps in a row add up; the second may depend on what the first one yields.
-/
theorem bind (first : Counts hit x k)
    (next : ∀ value, x.Yields value → Counts hit (f value) m) : Counts hit (x >>= f) (k + m) := by
  intro out result final h
  obtain ⟨value, middle, hx, hf⟩ := runOn_bind_eq_ok_iff.mp h
  obtain ⟨lines, hlines, hcount⟩ := first out value middle hx
  obtain ⟨more, hmore, hcount'⟩ := next value ⟨out, middle, hx⟩ middle result final hf
  refine ⟨lines ++ more, ?_, ?_⟩
  · rw [hmore, hlines, List.append_assoc]
  · rw [List.countP_append, hcount, hcount']

/-- A step that writes no such line in front of one that writes some. -/
theorem before (first : Counts hit x 0)
    (next : ∀ value, x.Yields value → Counts hit (f value) m) : Counts hit (x >>= f) m := by
  have h := first.bind next
  rwa [Nat.zero_add] at h

/-- A step that writes some such lines in front of one that writes none. -/
theorem after (first : Counts hit x k)
    (next : ∀ value, x.Yields value → Counts hit (f value) 0) : Counts hit (x >>= f) k :=
  first.bind next

/-- A result writes no line, or it is a fault. -/
theorem ofExcept (result : Except Fault α) : Counts hit (Render.ofExcept result) 0 := by
  cases result with
  | error f => exact fault f
  | ok value => exact pure value

/-- The counts of the items of a list add up. -/
theorem forM {items : List α} {f : α → Render PUnit} {count : α → Nat}
    (h : ∀ item ∈ items, Counts hit (f item) (count item)) :
    Counts hit (items.forM f) (items.map count).sum := by
  induction items with
  | nil => exact pure _
  | cons item rest ih =>
    refine bind (h item List.mem_cons_self) fun _ _ => ?_
    exact ih fun item hm => h item (List.mem_cons_of_mem _ hm)

/-- A line counts if it is a hit. -/
theorem emit (line : String) : Counts hit (Render.emit line) (if hit line then 1 else 0) := by
  intro out result final hrun
  rw [runOn_emit_eq_ok_iff.mp hrun]
  exact ⟨[line], Array.toList_push, List.countP_singleton⟩

/-- A line that is missed does not count. -/
theorem emit_of_miss {line : String} (h : hit line = false) : Counts hit (Render.emit line) 0 := by
  have hcount : Counts hit (Render.emit line) (if hit line then 1 else 0) := emit line
  rwa [h] at hcount

theorem freshTemp : Counts hit Render.freshTemp 0 := by
  intro out result final h
  rw [runOn_freshTemp] at h
  cases h
  exact ⟨[], (List.append_nil _).symm, rfl⟩

section

variable (hhit : ∀ {line}, ComputingLine line → hit line = false) (condition : String)
  {yes no : Render Unit}
include hhit

/-- Neither line of a guard counts, as long as computing lines are missed. -/
theorem guarded (h : Counts hit yes k) : Counts hit (Render.guarded condition yes) k := by
  apply before (emit_of_miss (hhit (.branch condition)))
  intro _ _
  exact h.after fun _ _ => emit_of_miss (hhit .close)

/-- Both sides of a branch are written, whichever of them runs. -/
theorem choice (hyes : Counts hit yes k) (hno : Counts hit no m) :
    Counts hit (Render.choice condition yes no) (k + m) := by
  apply before (emit_of_miss (hhit (.branch condition)))
  intro _ _
  apply hyes.bind
  intro _ _
  apply before (emit_of_miss (hhit .alternative))
  intro _ _
  exact hno.after fun _ _ => emit_of_miss (hhit .close)

end

end Counts

end Render

/-! ### Steps that compute -/

namespace Walker

/-- Steps put together from elementary ones that write computing lines, and from calls of a
walker that do not return from the closure. -/
inductive Computes (w : Walker) : {α : Type} → Render α → Prop where
  | pure {α : Type} (value : α) : Computes w (pure value)
  | fault {α : Type} (f : Fault) : Computes w (Render.fault f : Render α)
  | bind {α β : Type} {x : Render α} {f : α → Render β} (first : Computes w x)
      (next : ∀ value, Computes w (f value)) : Computes w (x >>= f)
  | emit {line : String} (h : ComputingLine line) : Computes w (Render.emit line)
  | freshTemp : Computes w Render.freshTemp
  | expression (id : NodeId) : Computes w (w.expression id)
  /-- a statement in the body of a callback -/
  | statement (id : NodeId) (slot : String) : Computes w (w.statement id (some slot))
  | expand (pattern : NodeId) (target : String) : Computes w (w.expand pattern target)
  | fragment (id : NodeId) : Computes w (w.fragment id)
  | integrate (id : IntegrationId) (call : NodeId) : Computes w (w.integrate id call)

/-- Whether the entry points of a walker that do not return from the closure write no line of a
kind. -/
structure Misses (w : Walker) (hit : String → Bool) : Prop where
  expression : ∀ id, (w.expression id).Counts hit 0
  statement : ∀ id slot, (w.statement id (some slot)).Counts hit 0
  expand : ∀ pattern target, (w.expand pattern target).Counts hit 0
  fragment : ∀ id, (w.fragment id).Counts hit 0
  integrate : ∀ id call, (w.integrate id call).Counts hit 0

/-- What computes writes no line of a kind that computing lines are not of. -/
theorem Computes.counts {w : Walker} {hit : String → Bool} {α : Type} {x : Render α}
    (hhit : ∀ {line}, ComputingLine line → hit line = false) (hw : w.Misses hit)
    (h : w.Computes x) : x.Counts hit 0 := by
  induction h with
  | pure value => exact .pure value
  | fault f => exact .fault f
  | bind first next ihFirst ihNext => exact ihFirst.before fun value _ => ihNext value
  | emit h => exact .emit_of_miss (hhit h)
  | freshTemp => exact .freshTemp
  | expression id => exact hw.expression id
  | statement id slot => exact hw.statement id slot
  | expand pattern target => exact hw.expand pattern target
  | fragment id => exact hw.fragment id
  | integrate id call => exact hw.integrate id call

namespace Computes

variable {w : Walker} {α β σ : Type}

/-! ### Elementary steps -/

/-- A result computes nothing. -/
theorem ofExcept (result : Except Fault α) : w.Computes (Render.ofExcept result) := by
  cases result with
  | error f => exact .fault f
  | ok value => exact .pure value

/-- Whichever of two alternatives is taken computes. -/
theorem ite {c : Prop} [Decidable c] {yes no : Render α} (hyes : w.Computes yes)
    (hno : w.Computes no) : w.Computes (if c then yes else no) := by
  split
  · exact hyes
  · exact hno

/-- Steps for the items of a list compute if each of them does. -/
theorem forM {items : List α} {f : α → Render PUnit} (h : ∀ item, w.Computes (f item)) :
    w.Computes (items.forM f) := by
  induction items with
  | nil => exact .pure _
  | cons item rest ih => exact .bind (h item) fun _ => ih

/-- So do steps whose values are collected. -/
theorem mapM {items : List α} {f : α → Render β} (h : ∀ item, w.Computes (f item)) :
    w.Computes (items.mapM f) := by
  induction items with
  | nil => exact .pure _
  | cons item rest ih =>
    rw [List.mapM_cons]
    exact .bind (h item) fun _ => .bind ih fun _ => .pure _

/-- So do steps that hand on a state. -/
theorem foldlM {items : List α} {f : σ → α → Render σ} (h : ∀ state item, w.Computes (f state item))
    (start : σ) : w.Computes (items.foldlM f start) := by
  induction items generalizing start with
  | nil => exact .pure _
  | cons item rest ih =>
    rw [List.foldlM_cons]
    exact .bind (h start item) ih

/-- The elementary steps write lines of the kinds that compute. -/
theorem assign (target value : String) : w.Computes (Render.assign target value) :=
  .emit (.assign target value)

theorem discard (value : String) : w.Computes (Render.discard value) := .emit (.discard value)

theorem openLoop (item list : String) : w.Computes (Render.openLoop item list) :=
  .emit (.loop item list)

theorem close : w.Computes Render.close := .emit .close

theorem materialize (value : String) : w.Computes (Render.materialize value) :=
  .bind .freshTemp fun temp => .bind (assign temp value) fun _ => .pure temp

/-- A guard is two computing lines around its body. -/
theorem guarded (condition : String) {body : Render Unit} (h : w.Computes body) :
    w.Computes (Render.guarded condition body) :=
  .bind (.emit (.branch condition)) fun _ => .bind h fun _ => close

/-- So is a guard against null. -/
theorem ifNull (value : String) {body : Render Unit} (h : w.Computes body) :
    w.Computes (Render.ifNull value body) :=
  guarded _ h

/-- A choice is three of them around its sides. -/
theorem choice (condition : String) {yes no : Render Unit} (hyes : w.Computes yes)
    (hno : w.Computes no) : w.Computes (Render.choice condition yes no) :=
  .bind (.emit (.branch condition)) fun _ => .bind hyes fun _ =>
    .bind (.emit .alternative) fun _ => .bind hno fun _ => close

end Computes

end Walker

end ClosureVtl
