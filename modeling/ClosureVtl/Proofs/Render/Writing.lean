/-
Module: ClosureVtl.Proofs.Render.Writing
Purpose: How steps of rendering are put together, and what follows for the blocks
  of the lines that they write.
Main exports:
  Render.Yields, Render.Turns, Walker.Writes, Walker.Keeps, Walker.KeepsBlocks,
  Walker.Writes.turns
-/
import ClosureVtl.Proofs.Template.Blocks
import ClosureVtl.Render.Walker

namespace ClosureVtl

/-!
A rule of rendering is put together from elementary steps and from calls of the
walker.  `Walker.Writes` is the inductive account of that: which steps there are,
how they follow each other, and how the lines that are written move the stack of
open blocks, where a call of the walker leaves the stack alone.  A rule is shown to
be of this form once; what the form implies, such as `Writes.turns`, is then shown
by one induction over it.
-/

namespace Render

variable {α β : Type}

/-- Whether some run of a step ends with a value. -/
def Yields (x : Render α) (value : α) : Prop :=
  ∃ out final, x.runOn out = (.ok value, final)

/-- Whether every run of a step that ends well appends lines that take the open
blocks from one stack to another. -/
def Turns (x : Render α) (before after : List OpenBlock) : Prop :=
  ∀ out value final, x.runOn out = (.ok value, final) →
    ∃ lines, final.lines.toList = out.lines.toList ++ lines ∧ scanLines before lines = some after

/-- A run of two steps in a row is a run of the first and a run of the second. -/
theorem runOn_bind_eq_ok_iff {x : Render α} {f : α → Render β} {out final : Output} {result : β} :
    (x >>= f).runOn out = (.ok result, final) ↔
      ∃ value middle, x.runOn out = (.ok value, middle) ∧
        (f value).runOn middle = (.ok result, final) := by
  rw [runOn_bind]
  rcases x.runOn out with ⟨_ | value, middle⟩
  · simp
  · refine ⟨fun h => ⟨value, middle, rfl, h⟩, ?_⟩
    rintro ⟨_, _, hx, hf⟩
    cases hx
    exact hf

/-- A step that only returns a value yields that one. -/
theorem yields_pure_iff {value result : α} :
    (pure value : Render α).Yields result ↔ value = result := by
  constructor
  · rintro ⟨out, final, h⟩
    rw [runOn_pure] at h
    cases h
    rfl
  · rintro rfl
    exact ⟨{}, {}, rfl⟩

/-- A step that fails yields nothing. -/
theorem not_yields_fault {f : Fault} {value : α} : ¬ (fault f : Render α).Yields value := by
  rintro ⟨out, final, h⟩
  rw [runOn_fault] at h
  cases h

/-- What two steps in a row yield is yielded by the second for a value of the
first. -/
theorem Yields.of_bind {x : Render α} {f : α → Render β} {result : β}
    (h : (x >>= f).Yields result) : ∃ value, x.Yields value ∧ (f value).Yields result := by
  obtain ⟨out, final, h⟩ := h
  obtain ⟨value, middle, hx, hf⟩ := runOn_bind_eq_ok_iff.mp h
  exact ⟨value, ⟨out, middle, hx⟩, ⟨middle, final, hf⟩⟩

/-- A result yields its value if it has one. -/
theorem yields_ofExcept_iff {result : Except Fault α} {value : α} :
    (ofExcept result).Yields value ↔ result = .ok value := by
  cases result with
  | error f =>
    refine ⟨fun h => absurd h not_yields_fault, ?_⟩
    intro h
    cases h
  | ok found =>
    refine yields_pure_iff.trans ⟨?_, ?_⟩
    · rintro rfl
      rfl
    · intro h
      cases h
      rfl

end Render

namespace Walker

/-- Steps put together from elementary ones and from calls of a walker, with the
open blocks before and after.  What follows a step may count on the value being
one that the step yields. -/
inductive Writes (w : Walker) :
    {α : Type} → Render α → List OpenBlock → List OpenBlock → Prop where
  | pure {α : Type} {stack : List OpenBlock} (value : α) : Writes w (pure value) stack stack
  | fault {α : Type} {before after : List OpenBlock} (f : Fault) :
      Writes w (Render.fault f : Render α) before after
  | bind {α β : Type} {x : Render α} {f : α → Render β} {before middle after : List OpenBlock}
      (first : Writes w x before middle)
      (next : ∀ value, x.Yields value → Writes w (f value) middle after) :
      Writes w (x >>= f) before after
  | emit {line : String} {before after : List OpenBlock}
      (h : scanLine before line = some after) : Writes w (Render.emit line) before after
  | freshTemp {stack : List OpenBlock} : Writes w Render.freshTemp stack stack
  | record {stack : List OpenBlock} (id : IntegrationId) :
      Writes w (Render.recordIntegration id) stack stack
  /-- a step that depends on the number of calls made so far -/
  | calls {α : Type} {f : Nat → Render α} {before after : List OpenBlock}
      (next : ∀ made, Writes w (f made) before after) :
      Writes w (get >>= fun out => f out.integrations.size) before after
  | expression {stack : List OpenBlock} (id : NodeId) : Writes w (w.expression id) stack stack
  | statement {stack : List OpenBlock} (id : NodeId) (slot : Option String) :
      Writes w (w.statement id slot) stack stack
  | expand {stack : List OpenBlock} (pattern : NodeId) (target : String) :
      Writes w (w.expand pattern target) stack stack
  | fragment {stack : List OpenBlock} (id : NodeId) : Writes w (w.fragment id) stack stack
  | integrate {stack : List OpenBlock} (id : IntegrationId) (call : NodeId) :
      Writes w (w.integrate id call) stack stack

/-- Whether a step is put together in this way and closes exactly the blocks that
it opens. -/
def Keeps (w : Walker) {α : Type} (x : Render α) : Prop :=
  ∀ stack, w.Writes x stack stack

/-- Whether the entry points of a walker append lines that leave all blocks as they
are. -/
structure KeepsBlocks (w : Walker) : Prop where
  expression : ∀ id stack, (w.expression id).Turns stack stack
  statement : ∀ id slot stack, (w.statement id slot).Turns stack stack
  expand : ∀ pattern target stack, (w.expand pattern target).Turns stack stack
  fragment : ∀ id stack, (w.fragment id).Turns stack stack
  integrate : ∀ id call stack, (w.integrate id call).Turns stack stack

/-- A step that looks at the template, but at no more of it than the number of calls. -/
theorem Writes.get {w : Walker} {α : Type} {f : Output → Render α} {before after : List OpenBlock}
    (hf : ∀ out out' : Output, out.integrations.size = out'.integrations.size → f out = f out')
    (next : ∀ out, w.Writes (f out) before after) :
    w.Writes (MonadState.get >>= f) before after := by
  have hcalls : f = fun out =>
      f { integrations := Array.replicate out.integrations.size ⟨0⟩ } := by
    funext out
    exact hf _ _ Array.size_replicate.symm
  rw [hcalls]
  exact .calls (f := fun made => f { integrations := Array.replicate made ⟨0⟩ }) fun _ => next _

/-- What is put together from steps that move the stack moves the stack. -/
theorem Writes.turns {w : Walker} (hw : w.KeepsBlocks) {α : Type} {x : Render α}
    {before after : List OpenBlock} (h : w.Writes x before after) : x.Turns before after := by
  -- the induction is on how the step is put together; only a line moves the stack
  induction h with
  | pure value =>
    intro out result final hrun
    rw [Render.runOn_pure] at hrun
    cases hrun
    exact ⟨[], (List.append_nil _).symm, rfl⟩
  | fault f =>
    intro out result final hrun
    rw [Render.runOn_fault] at hrun
    cases hrun
  | bind first next ihFirst ihNext =>
    intro out result final hrun
    obtain ⟨value, middle, hx, hf⟩ := Render.runOn_bind_eq_ok_iff.mp hrun
    obtain ⟨lines, hlines, hscan⟩ := ihFirst out value middle hx
    obtain ⟨more, hmore, hscan'⟩ := ihNext value ⟨out, middle, hx⟩ middle result final hf
    refine ⟨lines ++ more, ?_, scanLines_trans hscan hscan'⟩
    rw [hmore, hlines, List.append_assoc]
  | @emit line before after h =>
    intro out result final hrun
    rw [Render.runOn_emit] at hrun
    cases hrun
    refine ⟨[line], Array.toList_push, ?_⟩
    rw [scanLines_cons, h]
    rfl
  | freshTemp =>
    intro out result final hrun
    rw [Render.runOn_freshTemp] at hrun
    cases hrun
    exact ⟨[], (List.append_nil _).symm, rfl⟩
  | record id =>
    intro out result final hrun
    rw [Render.runOn_recordIntegration] at hrun
    cases hrun
    exact ⟨[], (List.append_nil _).symm, rfl⟩
  | calls next ih =>
    intro out result final hrun
    exact ih out.integrations.size out result final hrun
  | expression id => exact hw.expression id _
  | statement id slot => exact hw.statement id slot _
  | expand pattern target => exact hw.expand pattern target _
  | fragment id => exact hw.fragment id _
  | integrate id call => exact hw.integrate id call _

/-! ### Steps in a row -/

namespace Keeps

variable {w : Walker} {α β γ : Type} {x : Render α} {f : α → Render β}

/-- The next lemmas are those of `Writes` for steps that leave the stack of open blocks alone. -/
theorem pure (value : α) : w.Keeps (pure value : Render α) := fun _ => .pure value

theorem fault (f : Fault) : w.Keeps (Render.fault f : Render α) := fun _ => .fault f

/-- What keeps the blocks may be followed by what does, for all values that it yields. -/
theorem bind (first : w.Keeps x) (next : ∀ value, x.Yields value → w.Keeps (f value)) :
    w.Keeps (x >>= f) :=
  fun stack => .bind (first stack) fun value h => next value h stack

/-- A result is a value or a fault, and neither writes a line. -/
theorem ofExcept (result : Except Fault α) : w.Keeps (Render.ofExcept result) := by
  cases result with
  | error f => exact fault f
  | ok value => exact pure value

/-- Of two alternatives only the one that is taken has to keep the blocks. -/
theorem ite {c : Prop} [Decidable c] {yes no : Render α} (hyes : c → w.Keeps yes)
    (hno : ¬ c → w.Keeps no) : w.Keeps (if c then yes else no) := by
  split
  · next h => exact hyes h
  · next h => exact hno h

/-- Steps for the items of a list keep the blocks if each of them does. -/
theorem forM {items : List α} {f : α → Render PUnit} (h : ∀ item ∈ items, w.Keeps (f item)) :
    w.Keeps (items.forM f) := by
  induction items with
  | nil => exact pure _
  | cons item rest ih =>
    apply bind (h item List.mem_cons_self)
    intro _ _
    exact ih fun item hm => h item (List.mem_cons_of_mem _ hm)

/-- So do steps whose values are collected. -/
theorem mapM {items : List α} (h : ∀ item ∈ items, w.Keeps (f item)) : w.Keeps (items.mapM f) := by
  induction items with
  | nil => exact pure _
  | cons item rest ih =>
    rw [List.mapM_cons]
    apply bind (h item List.mem_cons_self)
    intro _ _
    apply bind (ih fun item hm => h item (List.mem_cons_of_mem _ hm))
    intro _ _
    exact pure _

/-- So do steps that hand a state from item to item. -/
theorem foldlM {items : List α} {f : β → α → Render β}
    (h : ∀ state, ∀ item ∈ items, w.Keeps (f state item)) (start : β) :
    w.Keeps (items.foldlM f start) := by
  induction items generalizing start with
  | nil => exact pure _
  | cons item rest ih =>
    rw [List.foldlM_cons]
    apply bind (h start item List.mem_cons_self)
    intro state _
    exact ih (fun state item hm => h state item (List.mem_cons_of_mem _ hm)) state

/-! ### Elementary steps -/

/-- A line keeps the blocks if it neither opens nor closes one. -/
theorem emit {line : String} (h : lineRole line = .plain) : w.Keeps (Render.emit line) := by
  intro stack
  apply Writes.emit
  simp only [scanLine, h]

theorem freshTemp : w.Keeps Render.freshTemp := fun _ => .freshTemp

/-- An assignment is such a line. -/
theorem assign (target value : String) : w.Keeps (Render.assign target value) :=
  emit (lineRole_assign target value)

/-- So is a value that is written out and thrown away. -/
theorem discard (value : String) : w.Keeps (Render.discard value) :=
  emit (lineRole_discard value)

/-- A temporary and the assignment to it keep the blocks. -/
theorem materialize (value : String) : w.Keeps (Render.materialize value) := by
  apply bind freshTemp
  intro temp _
  apply bind (assign temp value)
  intro _ _
  exact pure temp

end Keeps

namespace Writes

variable {w : Walker} {before middle after : List OpenBlock}

/-- The header of a loop puts a loop on the stack. -/
theorem openLoop (item list : String) :
    w.Writes (Render.openLoop item list) before (.loop :: before) := by
  apply emit
  simp only [scanLine, lineRole_openLoop]

/-- An end takes away the block on top of the stack, whatever block that is. -/
theorem close {block : OpenBlock} : w.Writes Render.close (block :: before) before := by
  apply emit
  simp only [scanLine, lineRole_close]

end Writes

namespace Keeps

variable {w : Walker} {body yes no : Render Unit}

/-- The condition of a branch puts a branch on the stack. -/
private theorem openBranch (condition : String) {before : List OpenBlock} :
    w.Writes (Render.emit s!"#if({condition})") before (.branch :: before) := by
  apply Writes.emit
  simp only [scanLine, lineRole_openBranch]

/-- A guard closes what it opens if its body does. -/
theorem guarded (condition : String) (h : w.Keeps body) :
    w.Keeps (Render.guarded condition body) := by
  intro stack
  apply Writes.bind (openBranch condition)
  intro _ _
  apply Writes.bind (h _)
  intro _ _
  exact .close

/-- A guard against null is a guard. -/
theorem ifNull (value : String) (h : w.Keeps body) : w.Keeps (Render.ifNull value body) :=
  guarded _ h

/-- So does a choice if both sides do. -/
theorem choice (condition : String) (hyes : w.Keeps yes) (hno : w.Keeps no) :
    w.Keeps (Render.choice condition yes no) := by
  intro stack
  apply Writes.bind (openBranch condition)
  intro _ _
  apply Writes.bind (hyes _)
  intro _ _
  have hturn : w.Writes (Render.emit "#else") (.branch :: stack) (.alternative :: stack) := by
    apply Writes.emit
    simp only [scanLine, lineRole_alternative]
  apply Writes.bind hturn
  intro _ _
  apply Writes.bind (hno _)
  intro _ _
  exact .close

end Keeps

end Walker

end ClosureVtl
