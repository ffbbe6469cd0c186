/-
Module: ClosureVtl.Proofs.Render.InStep
Purpose: Two runs of rendering that go through the same steps.
Main exports:
  Walker.InStep, InStep.bind, InStep.bindEq, InStep.forM, InStep.mapM, InStep.foldlM
-/
import ClosureVtl.Proofs.Closure.Correspondence
import ClosureVtl.Render.Walker

namespace ClosureVtl

/-!
To compare two renderings, of one closure under two configurations or of two closures
under one, the rules are run side by side.  A rule looks at nodes, writes lines and
calls the walker for parts; so two runs of it are alike if they look at nodes of one
form, write the same lines and call for parts that correspond to each other.
`Walker.InStep` is the inductive account of such a pair of runs.  What follows for the
templates is shown by one induction over it, given what the entry points of the two
walkers have to do with each other.
-/

namespace Walker

/-- Two runs that go through the same steps, with related results.  What follows a
step may count on the results of the step being related. -/
inductive InStep (w w' : Walker) (c : Correspondence) :
    {α β : Type} → (α → β → Prop) → Render α → Render β → Prop where
  | pure {α β : Type} {R : α → β → Prop} {value : α} {value' : β} (h : R value value') :
      InStep w w' c R (pure value) (pure value')
  | fault {α β : Type} {R : α → β → Prop} (f : Fault) :
      InStep w w' c R (Render.fault f) (Render.fault f)
  | bind {α β γ δ : Type} {Q : α → β → Prop} {R : γ → δ → Prop} {x : Render α} {x' : Render β}
      {f : α → Render γ} {f' : β → Render δ} (first : InStep w w' c Q x x')
      (next : ∀ value value', Q value value' → InStep w w' c R (f value) (f' value')) :
      InStep w w' c R (x >>= f) (x' >>= f')
  | emit (line : String) : InStep w w' c Eq (Render.emit line) (Render.emit line)
  | freshTemp : InStep w w' c Eq Render.freshTemp Render.freshTemp
  | expression {id id' : NodeId} (h : c.calls .expression id id') :
      InStep w w' c Eq (w.expression id) (w'.expression id')
  | statement {id id' : NodeId} (h : c.calls .statement id id') (slot : Option String) :
      InStep w w' c Eq (w.statement id slot) (w'.statement id' slot)
  | expand {pattern pattern' : NodeId} (h : c.calls .expand pattern pattern') (target : String) :
      InStep w w' c Eq (w.expand pattern target) (w'.expand pattern' target)
  | fragment {id id' : NodeId} (h : c.calls .fragment id id') :
      InStep w w' c Eq (w.fragment id) (w'.fragment id')
  | integrate {id id' : IntegrationId} {call call' : NodeId} (hi : c.integration id id')
      (h : c.calls .integrate call call') :
      InStep w w' c Eq (w.integrate id call) (w'.integrate id' call')

namespace InStep

variable {w w' : Walker} {c : Correspondence} {α β γ δ : Type}

/-! ### Steps in a row -/

/-- A step with equal results in both runs. -/
theorem bindEq {R : γ → δ → Prop} {x x' : Render α} {f : α → Render γ} {f' : α → Render δ}
    (first : InStep w w' c Eq x x') (next : ∀ value, InStep w w' c R (f value) (f' value)) :
    InStep w w' c R (x >>= f) (x' >>= f') := by
  apply bind first
  rintro value _ rfl
  exact next value

/-- Two alternatives that are taken under the same condition. -/
theorem ite {R : α → β → Prop} {p p' : Prop} [Decidable p] [Decidable p'] {yes no : Render α}
    {yes' no' : Render β} (h : p ↔ p') (hyes : p → InStep w w' c R yes yes')
    (hno : ¬ p → InStep w w' c R no no') :
    InStep w w' c R (if p then yes else no) (if p' then yes' else no') := by
  by_cases hp : p
  · rw [if_pos hp, if_pos (h.mp hp)]
    exact hyes hp
  · rw [if_neg hp, if_neg (mt h.mpr hp)]
    exact hno hp

variable {Q : α → β → Prop} {items : List α} {items' : List β}

/-- Steps for the items of two lists that correspond one by one. -/
theorem forM {f : α → Render PUnit} {f' : β → Render PUnit} (hitems : List.Forall₂ Q items items')
    (h : ∀ item item', Q item item' → InStep w w' c Eq (f item) (f' item')) :
    InStep w w' c Eq (items.forM f) (items'.forM f') := by
  induction hitems with
  | nil => exact .pure rfl
  | cons hitem _ ih =>
    apply bindEq (h _ _ hitem)
    intro _
    exact ih

/-- So are steps whose values are collected, if they are the same values. -/
theorem mapM {f : α → Render γ} {f' : β → Render γ} (hitems : List.Forall₂ Q items items')
    (h : ∀ item item', Q item item' → InStep w w' c Eq (f item) (f' item')) :
    InStep w w' c Eq (items.mapM f) (items'.mapM f') := by
  induction hitems with
  | nil => exact .pure rfl
  | cons hitem _ ih =>
    rw [List.mapM_cons, List.mapM_cons]
    apply bindEq (h _ _ hitem)
    intro first
    apply bindEq ih
    intro rest
    exact .pure rfl

/-- So are steps that hand states from item to item, as long as the states correspond. -/
theorem foldlM {S : γ → δ → Prop} {f : γ → α → Render γ} {f' : δ → β → Render δ}
    (hitems : List.Forall₂ Q items items')
    (h : ∀ state state' item item', S state state' → Q item item' →
      InStep w w' c S (f state item) (f' state' item'))
    {start : γ} {start' : δ} (hstart : S start start') :
    InStep w w' c S (items.foldlM f start) (items'.foldlM f' start') := by
  induction hitems generalizing start start' with
  | nil => exact .pure hstart
  | cons hitem _ ih =>
    rw [List.foldlM_cons, List.foldlM_cons]
    apply bind (h _ _ _ _ hstart hitem)
    intro state state' hstate
    exact ih hstate

/-! ### Elementary steps -/

/-- One result, in both runs. -/
theorem ofExcept (result : Except Fault α) :
    InStep w w' c Eq (Render.ofExcept result) (Render.ofExcept result) := by
  cases result with
  | error f => exact .fault f
  | ok value => exact .pure rfl

/-- One refusal, in both runs. -/
theorem unsupported {R : α → β → Prop} (cause : Unsupported) :
    InStep w w' c R (Render.unsupported cause) (Render.unsupported cause) :=
  .fault _

/-- One breach, in both runs. -/
theorem breach {R : α → β → Prop} (cause : Breach) :
    InStep w w' c R (Render.breach cause) (Render.breach cause) :=
  .fault _

/-- The elementary steps of rendering are the same in both runs; a line is its text. -/
theorem assign (target value : String) :
    InStep w w' c Eq (Render.assign target value) (Render.assign target value) :=
  .emit _

theorem discard (value : String) :
    InStep w w' c Eq (Render.discard value) (Render.discard value) :=
  .emit _

theorem openLoop (item list : String) :
    InStep w w' c Eq (Render.openLoop item list) (Render.openLoop item list) :=
  .emit _

theorem close : InStep w w' c Eq Render.close Render.close := .emit _

theorem materialize (value : String) :
    InStep w w' c Eq (Render.materialize value) (Render.materialize value) := by
  apply bindEq .freshTemp
  intro temp
  apply bindEq (assign temp value)
  intro _
  exact .pure rfl

/-- One text is a reference in both runs or in none. -/
theorem toReference (value : String) :
    InStep w w' c Eq (Walker.toReference value) (Walker.toReference value) := by
  refine ite Iff.rfl (fun _ => .pure rfl) fun _ => ?_
  exact materialize value

/-- One number is written in the same way. -/
theorem number (value : Binary64) :
    InStep w w' c Eq (Walker.number value) (Walker.number value) :=
  ofExcept _

variable {body body' yes yes' no no' : Render Unit}

/-- A guard of one condition around bodies in step. -/
theorem guarded (condition : String) (h : InStep w w' c Eq body body') :
    InStep w w' c Eq (Render.guarded condition body) (Render.guarded condition body') := by
  apply bindEq (.emit _)
  intro _
  apply bindEq h
  intro _
  exact close

/-- The same for a guard against null. -/
theorem ifNull (value : String) (h : InStep w w' c Eq body body') :
    InStep w w' c Eq (Render.ifNull value body) (Render.ifNull value body') :=
  guarded _ h

/-- A choice by one condition between sides in step. -/
theorem choice (condition : String) (hyes : InStep w w' c Eq yes yes')
    (hno : InStep w w' c Eq no no') :
    InStep w w' c Eq (Render.choice condition yes no) (Render.choice condition yes' no') := by
  apply bindEq (.emit _)
  intro _
  apply bindEq hyes
  intro _
  apply bindEq (.emit _)
  intro _
  apply bindEq hno
  intro _
  exact close

end InStep

end Walker

end ClosureVtl
