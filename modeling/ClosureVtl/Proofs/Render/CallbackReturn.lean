/-
Module: ClosureVtl.Proofs.Render.CallbackReturn
Purpose: What the body of a callback leaves in its slot.
Main exports:
  Steps, Steps.trail, Event.firstReturned, Program.Simple, Program.Reads,
  Program.writesSteps_of_statement, callback_slot_iff
-/
import ClosureVtl.Proofs.Render.BlockBalance
import ClosureVtl.Proofs.Render.Inversion
import ClosureVtl.Proofs.Template.Execution
import Mathlib

namespace ClosureVtl

/-!
A return in the body of a callback is written as an assignment to the slot of the
callback, and the statements behind it are written like any others.  So the lines of
a body do not stop at the first return that is reached: later returns on the same
path assign the slot again.

The path through a body is described as the list of its events, under given truth
values and without stopping.  The source means the first return among them; the lines
carry out all of them.  Both agree exactly if nothing behind the first return, or
nothing at all if none is reached, assigns the slot.
-/

/-! ### Bodies -/

/-- The statements of a body with the texts that they are written with. -/
inductive Steps where
  | skip
  /-- a declaration, by its lines -/
  | declare (lines : List String)
  | returns (value : String)
  | seq (first next : Steps)
  | guarded (condition : String) (yes : Steps)
  | choice (condition : String) (yes no : Steps)
deriving DecidableEq, Repr

/-- Something that happens on a path through a body. -/
inductive Event where
  | declared (made : Assignment)
  | returned (value : String)
deriving DecidableEq, Repr

namespace Event

def isReturn : Event → Bool
  | declared _ => false
  | returned _ => true

/-- The assignment that the lines carry out for an event. -/
def assignment (slot : String) : Event → Assignment
  | declared made => made
  | returned value => ⟨slot, value⟩

/-- The value of the first return, declarations before it carried out. -/
def firstReturned {V : Type} (eval : String → Store V → V) : Store V → List Event → Option V
  | _, [] => none
  | store, returned value :: _ => some (eval value store)
  | store, declared made :: rest =>
    firstReturned eval (store.set made.target (eval made.value store)) rest

/-- The events behind the first return; all events if there is none. -/
def afterReturn (events : List Event) : List Event :=
  match events.dropWhile fun event => !event.isReturn with
  | [] => events
  | _ :: rest => rest

end Event

namespace Steps

/-- The lines of a body that returns into a slot. -/
def lines (slot : String) : Steps → List String
  | skip => []
  | declare lines => lines
  | returns value => [s!"#set({slot} = {value})"]
  | seq first next => first.lines slot ++ next.lines slot
  | guarded condition yes => s!"#if({condition})" :: (yes.lines slot ++ ["#end"])
  | choice condition yes no =>
    s!"#if({condition})" :: (yes.lines slot ++ "#else" :: (no.lines slot ++ ["#end"]))

/-- The lines of a callback, which empties the slot first. -/
def bodyLines (slot : String) (steps : Steps) : List String :=
  s!"#set({slot} = {Text.nullText})" :: steps.lines slot

/-- The number of branches of a body. -/
def branches : Steps → Nat
  | skip | returns _ => 0
  | declare lines => ClosureVtl.branches lines
  | seq first next => first.branches + next.branches
  | guarded _ yes => 1 + yes.branches
  | choice _ yes no => 1 + yes.branches + no.branches

/-- The assignments of a declaration whose lines are run. -/
def declared (truth : Nat → Bool) (count : Nat) (lines : List String) : List Assignment :=
  ((execute truth { count } lines).map Prod.snd).getD []

/-- The events on the path through a body, branches numbered from `count` on.  The
path goes on behind a return. -/
def trail (truth : Nat → Bool) : Nat → Steps → List Event
  | _, skip => []
  | count, declare lines => (declared truth count lines).map .declared
  | _, returns value => [.returned value]
  | count, seq first next => first.trail truth count ++ next.trail truth (count + first.branches)
  | count, guarded _ yes => if truth count then yes.trail truth (count + 1) else []
  | count, choice _ yes no =>
    if truth count then yes.trail truth (count + 1)
    else no.trail truth (count + 1 + yes.branches)

/-- Whether the lines of all declarations can be run. -/
def Runnable : Steps → Prop
  | skip | returns _ => True
  | declare lines => Balanced lines ∧ ∀ line ∈ lines, Settable line
  | seq first next => first.Runnable ∧ next.Runnable
  | guarded _ yes => yes.Runnable
  | choice _ yes no => yes.Runnable ∧ no.Runnable

variable {slot : String} {truth : Nat → Bool} {count : Nat} {steps : Steps}

/-- The lines of the steps have one branch for each branch among the steps. -/
theorem branches_lines : ClosureVtl.branches (steps.lines slot) = steps.branches := by
  induction steps with
  | skip => rfl
  | declare lines => rfl
  | returns value => simp [lines, branches, ClosureVtl.branches, lineRole_assign]
  | seq first next ihFirst ihNext =>
    rw [lines, branches, ← ihFirst, ← ihNext]
    exact List.countP_append
  | guarded condition yes ih =>
    rw [lines, branches, ← ih]
    simp [ClosureVtl.branches, List.countP_append, lineRole_openBranch, lineRole_close]
    omega
  | choice condition yes no ihYes ihNo =>
    rw [lines, branches, ← ihYes, ← ihNo]
    simp [ClosureVtl.branches, List.countP_append, lineRole_openBranch, lineRole_close,
      lineRole_alternative]
    omega

/-- The lines of a body carry out all events on the path through it. -/
theorem runs_lines (hslot : ' ' ∉ slot.toList) (h : steps.Runnable) :
    Runs truth count (steps.lines slot)
      ((steps.trail truth count).map (Event.assignment slot)) := by
  induction steps generalizing count with
  | skip => exact .nil
  | declare lines =>
    have hrunnable : ∃ made, Runs truth count lines made := runs_of_balanced h.1 h.2
    obtain ⟨made, hruns⟩ := hrunnable
    have hdeclared : declared truth count lines = made := by
      rw [declared, hruns.active []]
      rfl
    have htrail : ((declare lines).trail truth count).map (Event.assignment slot) = made := by
      simp [trail, hdeclared, Function.comp_def, Event.assignment]
    rw [htrail]
    exact hruns
  | returns value =>
    exact .assignment (lineRole_assign slot value) (assignment?_assign_of_no_blank hslot value)
  | seq first next ihFirst ihNext =>
    -- the numbers of branches in the steps and in their lines agree
    have hnext : Runs truth (count + ClosureVtl.branches (first.lines slot)) (next.lines slot)
        ((next.trail truth (count + first.branches)).map (Event.assignment slot)) := by
      rw [branches_lines]
      exact ihNext h.2
    rw [lines, trail, List.map_append]
    exact (ihFirst h.1).append hnext
  | guarded condition yes ih =>
    have hyes : Runs truth (count + 1) (yes.lines slot)
        ((yes.trail truth (count + 1)).map (Event.assignment slot)) := ih h
    have hblock := Runs.guarded (lineRole_openBranch condition) lineRole_close hyes
    rw [lines, trail]
    cases htruth : truth count with
    | true => simpa [htruth] using hblock
    | false => simpa [htruth] using hblock
  | choice condition yes no ihYes ihNo =>
    have hyes : Runs truth (count + 1) (yes.lines slot)
        ((yes.trail truth (count + 1)).map (Event.assignment slot)) := ihYes h.1
    have hno : Runs truth (count + 1 + ClosureVtl.branches (yes.lines slot)) (no.lines slot)
        ((no.trail truth (count + 1 + yes.branches)).map (Event.assignment slot)) := by
      rw [branches_lines]
      exact ihNo h.2
    have hblock := Runs.alternatives (lineRole_openBranch condition) lineRole_alternative
      lineRole_close hyes hno
    rw [lines, trail]
    cases htruth : truth count with
    | true => simpa [htruth] using hblock
    | false => simpa [htruth] using hblock

/-- So do the lines of a callback. -/
theorem runs_bodyLines (hslot : ' ' ∉ slot.toList) (h : steps.Runnable) :
    Runs truth 0 (steps.bodyLines slot)
      (⟨slot, Text.nullText⟩ :: (steps.trail truth 0).map (Event.assignment slot)) := by
  have hnull : Runs truth 0 [s!"#set({slot} = {Text.nullText})"] [⟨slot, Text.nullText⟩] :=
    .assignment (lineRole_assign slot _) (assignment?_assign_of_no_blank hslot _)
  have hzero : ClosureVtl.branches [s!"#set({slot} = {Text.nullText})"] = 0 := by
    simp [ClosureVtl.branches, lineRole_assign]
  apply hnull.append
  rw [hzero]
  exact runs_lines hslot h

end Steps

/-! ### The first return and what follows it -/

namespace Event

variable {V : Type} {eval : String → Store V → V} {store : Store V} {slot value : String}
  {events before rest : List Event}

/-- Either no return is reached, or there is a first one. -/
theorem exists_first (events : List Event) :
    (∀ event ∈ events, event.isReturn = false) ∨
      ∃ before value rest, events = before ++ returned value :: rest ∧
        ∀ event ∈ before, event.isReturn = false := by
  induction events with
  | nil => exact .inl (by simp)
  | cons event rest ih =>
    cases event with
    | returned value => exact .inr ⟨[], value, rest, rfl, by simp⟩
    | declared made =>
      rcases ih with hnone | ⟨before, value, after, rfl, hbefore⟩
      · exact .inl (List.forall_mem_cons.mpr ⟨rfl, hnone⟩)
      · exact .inr ⟨declared made :: before, value, after, rfl,
          List.forall_mem_cons.mpr ⟨rfl, hbefore⟩⟩

/-- Without a return all events count as what follows. -/
theorem afterReturn_of_no_return (h : ∀ event ∈ events, event.isReturn = false) :
    afterReturn events = events := by
  have hall : events.dropWhile (fun event => !event.isReturn) = [] := by
    rw [← List.append_nil events, List.dropWhile_append_of_pos]
    · rfl
    · intro event hm
      rw [h event hm]
      rfl
  rw [afterReturn, hall]

/-- What is behind the first return is all that follows it. -/
theorem afterReturn_of_first (h : ∀ event ∈ before, event.isReturn = false) :
    afterReturn (before ++ returned value :: rest) = rest := by
  have hdrop : (before ++ returned value :: rest).dropWhile (fun event => !event.isReturn) =
      returned value :: rest := by
    rw [List.dropWhile_append_of_pos]
    · rfl
    · intro event hm
      rw [h event hm]
      rfl
  rw [afterReturn, hdrop]

/-- Without a return nothing is returned. -/
theorem firstReturned_of_no_return (h : ∀ event ∈ events, event.isReturn = false) :
    firstReturned eval store events = none := by
  induction events generalizing store with
  | nil => rfl
  | cons event rest ih =>
    obtain ⟨hevent, hrest⟩ := List.forall_mem_cons.mp h
    cases event with
    | returned value => cases hevent
    | declared made => exact ih hrest

/-- The value is taken where the first return stands, after the assignments in front of it. -/
theorem firstReturned_of_first (slot : String) (h : ∀ event ∈ before, event.isReturn = false) :
    firstReturned eval store (before ++ returned value :: rest) =
      some (eval value (store.after eval (before.map (assignment slot)))) := by
  induction before generalizing store with
  | nil => rfl
  | cons event others ih =>
    obtain ⟨hevent, hothers⟩ := List.forall_mem_cons.mp h
    cases event with
    | returned value => cases hevent
    | declared made => exact ih hothers

/-- Carrying out all events leaves the value of the first return in the slot, and
the value that it starts with if no return is reached, exactly if the slot is not
assigned after that. -/
theorem slot_eq_firstReturned_iff {initial : String} :
    (∀ (V : Type) (eval : String → Store V → V) (store : Store V),
      (store.set slot (eval initial store)).after eval (events.map (assignment slot)) slot =
        (firstReturned eval (store.set slot (eval initial store)) events).getD
          (eval initial store)) ↔
      ∀ event ∈ afterReturn events, (event.assignment slot).target ≠ slot := by
  have htargets : ∀ events : List Event,
      (∀ event ∈ events, (event.assignment slot).target ≠ slot) ↔
        ∀ made ∈ events.map (assignment slot), made.target ≠ slot := by
    intro events
    rw [List.forall_mem_map]
  -- the slot starts with an assignment of its own, which stands for the return if there is none
  rcases exists_first events with hnone | ⟨before, value, rest, rfl, hbefore⟩
  · rw [afterReturn_of_no_return hnone, htargets,
      ← Store.after_append_eq_iff [⟨slot, initial⟩]]
    apply forall_congr'
    intro V
    apply forall_congr'
    intro eval
    apply forall_congr'
    intro store
    rw [firstReturned_of_no_return hnone, Store.after_singleton]
    exact Iff.rfl
  · have hsplit : (before ++ returned value :: rest).map (assignment slot) =
        (before.map (assignment slot) ++ [⟨slot, value⟩]) ++ rest.map (assignment slot) := by
      simp [assignment]
    rw [afterReturn_of_first hbefore, htargets, hsplit,
      ← Store.after_append_eq_iff
        (⟨slot, initial⟩ :: (before.map (assignment slot) ++ [⟨slot, value⟩]))]
    apply forall_congr'
    intro V
    apply forall_congr'
    intro eval
    apply forall_congr'
    intro store
    have hlast : store.after eval
        (⟨slot, initial⟩ :: (before.map (assignment slot) ++ [⟨slot, value⟩])) slot =
          eval value ((store.set slot (eval initial store)).after eval
            (before.map (assignment slot))) := by
      show (store.set slot (eval initial store)).after eval
        (before.map (assignment slot) ++ [⟨slot, value⟩]) slot = _
      rw [Store.after_append, Store.after_singleton]
    rw [firstReturned_of_first slot hbefore, hlast]
    exact Iff.rfl

end Event

/-! ### What a body is made of -/

namespace Program

/-- Whether the value of an expression is rendered without writing a line. -/
def Inline (p : Program) (dialect : Dialect) (expr : NodeId) : Prop :=
  ∀ n out text final, ((p.walkerWithin dialect n).expression expr).runOn out = (.ok text, final) →
    final.lines = out.lines

/-- Whether rendering a statement of a callback can append these lines. -/
def Appends (p : Program) (dialect : Dialect) (slot : String) (id : NodeId)
    (lines : List String) : Prop :=
  ∃ n out final, ((p.walkerWithin dialect n).statement id (some slot)).runOn out =
    (.ok (), final) ∧ final.lines.toList = out.lines.toList ++ lines

/-- Statements made of nested blocks, branches, declarations and returns, where the
conditions and the values that are returned are inline, and declarations are written
as assignments, possibly guarded. -/
inductive Simple (p : Program) (dialect : Dialect) : NodeId → Prop where
  | block {id : NodeId} {statements : List NodeId}
      (node : p.arena.get? id = some (.block statements))
      (inner : ∀ statement ∈ statements, Simple p dialect statement) : Simple p dialect id
  | branch {id test yes : NodeId} {no : Option NodeId}
      (node : p.arena.get? id = some (.branch test yes no)) (condition : p.Inline dialect test)
      (first : Simple p dialect yes) (second : ∀ other ∈ no, Simple p dialect other) :
      Simple p dialect id
  | declaration {id name : NodeId} {kind : DeclKind} {value : Option NodeId}
      (node : p.arena.get? id = some (.declaration kind name value))
      (assigns : ∀ slot lines, p.Appends dialect slot id lines → ∀ line ∈ lines, Settable line) :
      Simple p dialect id
  | returns {id : NodeId} {value : Option NodeId}
      (node : p.arena.get? id = some (.returnValue value))
      (inline : ∀ expr ∈ value, p.Inline dialect expr) : Simple p dialect id

mutual

/-- Whether steps are those of a statement: its structure, the texts that its
conditions and values are rendered to, and the lines that its declarations append. -/
inductive Reads (p : Program) (dialect : Dialect) (slot : String) : NodeId → Steps → Prop where
  | block {id : NodeId} {statements : List NodeId} {steps : Steps}
      (node : p.arena.get? id = some (.block statements))
      (inner : ReadsAll p dialect slot statements steps) : Reads p dialect slot id steps
  | guarded {id test yes : NodeId} {condition : String} {n : Nat} {steps : Steps}
      (node : p.arena.get? id = some (.branch test yes none))
      (text : ((p.walkerWithin dialect n).expression test).Yields condition)
      (first : Reads p dialect slot yes steps) :
      Reads p dialect slot id (.guarded condition steps)
  | choice {id test yes no : NodeId} {condition : String} {n : Nat} {steps others : Steps}
      (node : p.arena.get? id = some (.branch test yes (some no)))
      (text : ((p.walkerWithin dialect n).expression test).Yields condition)
      (first : Reads p dialect slot yes steps) (second : Reads p dialect slot no others) :
      Reads p dialect slot id (.choice condition steps others)
  | declaration {id name : NodeId} {kind : DeclKind} {value : Option NodeId} {lines : List String}
      (node : p.arena.get? id = some (.declaration kind name value))
      (written : p.Appends dialect slot id lines) : Reads p dialect slot id (.declare lines)
  | returnsNothing {id : NodeId} (node : p.arena.get? id = some (.returnValue none)) :
      Reads p dialect slot id (.returns Text.nullText)
  | returns {id expr : NodeId} {value : String} {n : Nat}
      (node : p.arena.get? id = some (.returnValue (some expr)))
      (text : ((p.walkerWithin dialect n).expression expr).Yields value) :
      Reads p dialect slot id (.returns value)

/-- Whether steps are those of a list of statements. -/
inductive ReadsAll (p : Program) (dialect : Dialect) (slot : String) :
    List NodeId → Steps → Prop where
  | nil : ReadsAll p dialect slot [] .skip
  | cons {id : NodeId} {rest : List NodeId} {first next : Steps}
      (head : Reads p dialect slot id first) (tail : ReadsAll p dialect slot rest next) :
      ReadsAll p dialect slot (id :: rest) (.seq first next)

end

end Program

/-! ### What rendering a body writes -/

namespace Program

variable {p : Program} {dialect : Dialect} {slot : String} {id : NodeId} {out final : Output}

/-- Whether the lines that are written between two outputs are those of steps that
can be read from a statement. -/
def WritesSteps (p : Program) (dialect : Dialect) (slot : String) (id : NodeId)
    (out final : Output) : Prop :=
  ∃ steps, p.Reads dialect slot id steps ∧ steps.Runnable ∧
    final.lines.toList = out.lines.toList ++ steps.lines slot

/-- The steps of statements in a row, from those of each. -/
theorem exists_readsAll {step : NodeId → Render Unit} {statements : List NodeId}
    (hstep : ∀ id ∈ statements, ∀ out final, (step id).runOn out = (.ok (), final) →
      p.WritesSteps dialect slot id out final)
    (h : (statements.forM step).runOn out = (.ok (), final)) :
    ∃ steps, p.ReadsAll dialect slot statements steps ∧ steps.Runnable ∧
      final.lines.toList = out.lines.toList ++ steps.lines slot := by
  induction statements generalizing out with
  | nil =>
    cases h
    exact ⟨.skip, .nil, trivial, (List.append_nil _).symm⟩
  | cons id rest ih =>
    obtain ⟨_, middle, hfirst, hrest⟩ := Render.runOn_bind_eq_ok_iff.mp h
    obtain ⟨first, hreads, hrun, hlines⟩ := hstep id List.mem_cons_self out middle hfirst
    obtain ⟨next, hreads', hrun', hlines'⟩ :=
      ih (fun id hm => hstep id (List.mem_cons_of_mem _ hm)) hrest
    refine ⟨.seq first next, .cons hreads hreads', ⟨hrun, hrun'⟩, ?_⟩
    rw [hlines', hlines, Steps.lines, List.append_assoc]

/-- A branch writes the steps of both halves between its directives. -/
theorem writesSteps_of_branch {test yes : NodeId} {no : Option NodeId} {n : Nat}
    (node : p.arena.get? id = some (.branch test yes no)) (condition : p.Inline dialect test)
    (hyes : ∀ out final,
      ((p.walkerWithin dialect n).statement yes (some slot)).runOn out = (.ok (), final) →
        p.WritesSteps dialect slot yes out final)
    (hno : ∀ other ∈ no, ∀ out final,
      ((p.walkerWithin dialect n).statement other (some slot)).runOn out = (.ok (), final) →
        p.WritesSteps dialect slot other out final)
    (h : ((p.walkerWithin dialect n).branch test yes no (some slot)).runOn out =
      (.ok (), final)) : p.WritesSteps dialect slot id out final := by
  obtain ⟨text, middle, htext, h⟩ := Render.runOn_bind_eq_ok_iff.mp h
  have hinline := condition n out text middle htext
  have hyields : ((p.walkerWithin dialect n).expression test).Yields text := ⟨out, middle, htext⟩
  cases no with
  | none =>
    obtain ⟨opened, closed, hbody, hopened, hfinal⟩ := Render.toList_of_guarded h
    obtain ⟨steps, hreads, hrunnable, hlines⟩ := hyes opened closed hbody
    refine ⟨.guarded text steps, .guarded node hyields hreads, hrunnable, ?_⟩
    rw [hfinal, hlines, hopened, hinline]
    simp [Steps.lines]
  | some no =>
    obtain ⟨opened, turned, resumed, closed, hfirst, hsecond, hopened, hresumed, hfinal⟩ :=
      Render.toList_of_choice h
    obtain ⟨steps, hreads, hrunnable, hlines⟩ := hyes opened turned hfirst
    obtain ⟨others, hreads', hrunnable', hlines'⟩ := hno no rfl resumed closed hsecond
    refine ⟨.choice text steps others, .choice node hyields hreads hreads',
      ⟨hrunnable, hrunnable'⟩, ?_⟩
    rw [hfinal, hlines', hresumed, hlines, hopened, hinline]
    simp [Steps.lines]

/-- A return assigns its value to the slot and goes on. -/
theorem writesSteps_of_return {value : Option NodeId} {n : Nat}
    (node : p.arena.get? id = some (.returnValue value))
    (inline : ∀ expr ∈ value, p.Inline dialect expr)
    (h : ((p.walkerWithin dialect n).returnTo value (some slot)).runOn out = (.ok (), final)) :
    p.WritesSteps dialect slot id out final := by
  cases value with
  | none =>
    refine ⟨.returns Text.nullText, .returnsNothing node, trivial, ?_⟩
    rw [Render.runOn_emit_eq_ok_iff.mp h]
    exact Array.toList_push
  | some expr =>
    obtain ⟨text, middle, htext, h⟩ := Render.runOn_bind_eq_ok_iff.mp h
    have hinline := inline expr rfl n out text middle htext
    refine ⟨.returns text, .returns node ⟨out, middle, htext⟩, trivial, ?_⟩
    rw [Render.runOn_emit_eq_ok_iff.mp h, ← hinline]
    exact Array.toList_push

/-- A successful run writes the lines of the steps that it reads from the body. -/
theorem writesSteps_of_statement (hp : p.BottomUp)
    (ht : ∀ integration ∈ p.integrations, integration.KeepsBlocks) {n : Nat}
    (hs : p.Simple dialect id)
    (h : ((p.walkerWithin dialect n).statement id (some slot)).runOn out = (.ok (), final)) :
    p.WritesSteps dialect slot id out final := by
  induction n generalizing id out final with
  | zero => exact absurd ⟨out, final, h⟩ Render.not_yields_fault
  | succ n ih =>
    have hrun : ((p.walkerWithin dialect n).renderStatement id (some slot)).runOn out =
        (.ok (), final) := h
    obtain ⟨found, start, hfound, hrun⟩ := Render.runOn_bind_eq_ok_iff.mp hrun
    obtain ⟨hget, rfl⟩ := get?_of_node hfound
    cases hs with
    | block node inner =>
      cases Option.some.inj (hget.symm.trans node)
      obtain ⟨steps, hreads, hrunnable, hlines⟩ :=
        exists_readsAll (fun id hm out final h => ih (inner id hm) h) hrun
      exact ⟨steps, .block node hreads, hrunnable, hlines⟩
    | branch node condition first second =>
      cases Option.some.inj (hget.symm.trans node)
      exact writesSteps_of_branch node condition (fun out final h => ih first h)
        (fun other hm out final h => ih (second other hm) h) hrun
    | declaration node assigns =>
      have hkeeps : (p.walkerWithin dialect (n + 1)).KeepsBlocks :=
        hp.keepsBlocks_walkerWithin ht (n + 1)
      obtain ⟨lines, hlines, hscan⟩ := hkeeps.statement id (some slot) [] start () final h
      have happends : p.Appends dialect slot id lines := ⟨n + 1, start, final, h, hlines⟩
      exact ⟨.declare lines, .declaration node happends,
        ⟨balanced_iff_scanLines.mpr hscan, assigns slot lines happends⟩, hlines⟩
    | returns node inline =>
      cases Option.some.inj (hget.symm.trans node)
      exact writesSteps_of_return node inline hrun

/-- What is rendered without writing anything is inline. -/
theorem Inline.of_ofExcept {expr : NodeId} (result : Nat → Except Fault String)
    (h : ∀ n, (p.walkerWithin dialect n).renderExpression expr = Render.ofExcept (result n)) :
    p.Inline dialect expr := by
  intro n out text final hrun
  cases n with
  | zero => exact absurd ⟨out, final, hrun⟩ Render.not_yields_fault
  | succ n =>
    have hrun : ((p.walkerWithin dialect n).renderExpression expr).runOn out =
        (.ok text, final) := hrun
    rw [h n] at hrun
    rw [(Render.runOn_ofExcept_eq_ok_iff.mp hrun).2]

/-- Literals of truth values are inline. -/
theorem Inline.boolean {expr : NodeId} {value : Bool}
    (h : p.arena.get? expr = some (.boolean value)) : p.Inline dialect expr := by
  apply Inline.of_ofExcept fun _ => .ok (if value then "true" else "false")
  intro n
  unfold Walker.renderExpression
  rw [node_of_get? h]
  rfl

/-- So are names. -/
theorem Inline.identifier {expr : NodeId} {name : String}
    (h : p.arena.get? expr = some (.identifier name)) : p.Inline dialect expr := by
  apply Inline.of_ofExcept fun _ => p.arena.addressIn dialect expr
  intro n
  unfold Walker.renderExpression
  rw [node_of_get? h]
  show (p.walkerWithin dialect n).address expr = _
  rw [Walker.address, p.arena_walkerWithin, p.dialect_walkerWithin]

/-- A declaration of a name is written as one assignment if its value is inline. -/
theorem Simple.named {name : NodeId} {kind : DeclKind} {value : Option NodeId} {text : String}
    (node : p.arena.get? id = some (.declaration kind name value))
    (hname : p.arena.get? name = some (.identifier text))
    (hvalue : ∀ expr ∈ value, p.Inline dialect expr) : p.Simple dialect id := by
  apply Simple.declaration node
  rintro slot lines ⟨n, out, final, hrun, hlines⟩
  cases n with
  | zero => exact absurd ⟨out, final, hrun⟩ Render.not_yields_fault
  | succ n =>
    have hrun : ((p.walkerWithin dialect n).renderStatement id (some slot)).runOn out =
        (.ok (), final) := hrun
    obtain ⟨found, start, hfound, hdeclare⟩ := Render.runOn_bind_eq_ok_iff.mp hrun
    obtain ⟨hget, rfl⟩ := get?_of_node hfound
    cases Option.some.inj (hget.symm.trans node)
    obtain ⟨bound, start, hbound, hbind⟩ := Render.runOn_bind_eq_ok_iff.mp hdeclare
    obtain ⟨hget, rfl⟩ := get?_of_node hbound
    cases Option.some.inj (hget.symm.trans hname)
    obtain ⟨target, start, htarget, hstore⟩ := Render.runOn_bind_eq_ok_iff.mp hbind
    obtain ⟨-, rfl⟩ := Render.runOn_ofExcept_eq_ok_iff.mp htarget
    have hassign : ∃ assigned : String,
        final.lines.toList = start.lines.toList ++ [s!"#set({target} = {assigned})"] := by
      cases value with
      | none =>
        rw [Render.runOn_emit_eq_ok_iff.mp hstore]
        exact ⟨Text.nullText, Array.toList_push⟩
      | some expr =>
        obtain ⟨assigned, middle, hassigned, hemit⟩ := Render.runOn_bind_eq_ok_iff.mp hstore
        rw [Render.runOn_emit_eq_ok_iff.mp hemit, ← hvalue expr rfl n start assigned middle hassigned]
        exact ⟨assigned, Array.toList_push⟩
    obtain ⟨assigned, hassigned⟩ := hassign
    rw [hlines] at hassigned
    cases List.append_cancel_left hassigned
    intro line hm
    cases List.mem_singleton.mp hm
    exact settable_assign target assigned

end Program

/-- The name of a temporary has no blank in it. -/
theorem Render.no_blank_tempName (number : Nat) : ' ' ∉ (tempName number).toList := by
  intro h
  rw [tempName, String.toList_append, List.mem_append, toList_toString] at h
  rcases h with hfront | hmem
  · revert hfront
    decide
  · exact absurd (isDigit_toDigits number _ hmem) (by decide)

/-! ### A guard clause -/

/-- The closure `input => { return input.items.map(x => { if (x) { return true; }
return false; }) }`, whose callback returns early. -/
def Program.guardClause : Program :=
  (Builder.of []
    [.identifier "x", .boolean true, .returnValue (some ⟨1⟩), .block [⟨2⟩],
      .branch ⟨0⟩ ⟨3⟩ none, .boolean false, .returnValue (some ⟨5⟩), .block [⟨4⟩, ⟨6⟩],
      .identifier "x", .parameter ⟨8⟩ none, .function [⟨9⟩] ⟨7⟩,
      .identifier "input", .parameter ⟨11⟩ none, .identifier "input",
      .member ⟨13⟩ "items", .member ⟨14⟩ "map", .argument ⟨10⟩ none, .call ⟨15⟩ [⟨16⟩],
      .returnValue (some ⟨17⟩), .block [⟨18⟩], .function [⟨12⟩] ⟨19⟩]).program

theorem Program.bottomUp_guardClause : Program.guardClause.BottomUp :=
  Builder.bottomUp_of (by decide) (by cbv)

theorem Program.runOn_guardClause :
    ((Program.guardClause.walkerWithin (.resolver {}) 5).callbackBody ⟨7⟩).runOn {} =
      (.ok "$v1",
        { lines :=
            #["#set($v1 = $null)", "#if($x)", "#set($v1 = true)", "#end", "#set($v1 = false)"]
          temps := 1 }) := by
  cbv

theorem Program.simple_guardClause : Program.guardClause.Simple (.resolver {}) ⟨7⟩ := by
  have htrue : Program.guardClause.arena.get? ⟨1⟩ = some (.boolean true) := by cbv
  have hfalse : Program.guardClause.arena.get? ⟨5⟩ = some (.boolean false) := by cbv
  have htest : Program.guardClause.arena.get? ⟨0⟩ = some (.identifier "x") := by cbv
  have hearly : Program.guardClause.arena.get? ⟨2⟩ = some (.returnValue (some ⟨1⟩)) := by cbv
  have hlate : Program.guardClause.arena.get? ⟨6⟩ = some (.returnValue (some ⟨5⟩)) := by cbv
  have hinner : Program.guardClause.arena.get? ⟨3⟩ = some (.block [⟨2⟩]) := by cbv
  have hbranch : Program.guardClause.arena.get? ⟨4⟩ = some (.branch ⟨0⟩ ⟨3⟩ none) := by cbv
  have hbody : Program.guardClause.arena.get? ⟨7⟩ = some (.block [⟨4⟩, ⟨6⟩]) := by cbv
  apply Simple.block hbody
  intro statement hm
  rcases List.mem_cons.mp hm with rfl | hm
  · apply Simple.branch hbranch (Inline.identifier htest)
    · apply Simple.block hinner
      intro statement hm
      cases List.mem_singleton.mp hm
      apply Simple.returns hearly
      rintro expr ⟨⟩
      exact Inline.boolean htrue
    · rintro other ⟨⟩
  · cases List.mem_singleton.mp hm
    apply Simple.returns hlate
    rintro expr ⟨⟩
    exact Inline.boolean hfalse

/-! ### What a body leaves in its slot -/

/-- The body of a callback leaves the value of the first return that is reached in
its slot, or null if none is reached, exactly for those truth values of its branches
under which nothing that is reached behind that return assigns the slot: no second
return, and no declaration of a variable that has the name of the slot.  Otherwise
the last such assignment decides, and what the texts are worth can tell. -/
theorem callback_slot_iff {p : Program} (hp : p.BottomUp)
    (ht : ∀ integration ∈ p.integrations, integration.KeepsBlocks) {dialect : Dialect} {n : Nat}
    {body : NodeId} {statements : List NodeId}
    (hbody : p.arena.get? body = some (.block statements)) (hs : p.Simple dialect body)
    {slot : String} {out final : Output}
    (h : ((p.walkerWithin dialect n).callbackBody body).runOn out = (.ok slot, final)) :
    ∃ steps, p.Reads dialect slot body steps ∧
      final.lines.toList = out.lines.toList ++ steps.bodyLines slot ∧
      ∀ truth, ∃ last made, execute truth {} (steps.bodyLines slot) = some (last, made) ∧
        made = ⟨slot, Text.nullText⟩ :: (steps.trail truth 0).map (Event.assignment slot) ∧
        ((∀ (V : Type) (eval : String → Store V → V) (store : Store V),
          store.after eval made slot =
            (Event.firstReturned eval (store.set slot (eval Text.nullText store))
              (steps.trail truth 0)).getD (eval Text.nullText store)) ↔
          ∀ event ∈ Event.afterReturn (steps.trail truth 0),
            (event.assignment slot).target ≠ slot) := by
  obtain ⟨found, start, hfound, h⟩ := Render.runOn_bind_eq_ok_iff.mp h
  obtain ⟨hget, rfl⟩ := Program.get?_of_node hfound
  cases Option.some.inj (hget.symm.trans hbody)
  obtain ⟨temp, fresh, hfresh, h⟩ := Render.runOn_bind_eq_ok_iff.mp h
  rw [Render.runOn_freshTemp] at hfresh
  cases hfresh
  obtain ⟨_, opened, hopened, h⟩ := Render.runOn_bind_eq_ok_iff.mp h
  obtain ⟨_, finish, hrun, h⟩ := Render.runOn_bind_eq_ok_iff.mp h
  rw [Render.runOn_pure] at h
  cases h
  obtain ⟨steps, hreads, hrunnable, hlines⟩ := Program.writesSteps_of_statement hp ht hs hrun
  have hslot := Render.no_blank_tempName (start.temps + 1)
  generalize Render.tempName (start.temps + 1) = slot at *
  have hstart : opened.lines.toList =
      start.lines.toList ++ [s!"#set({slot} = {Text.nullText})"] := by
    rw [Render.runOn_emit_eq_ok_iff.mp hopened]
    exact Array.toList_push
  refine ⟨steps, hreads, ?_, ?_⟩
  · rw [hlines, hstart, List.append_assoc]
    rfl
  · intro truth
    exact ⟨_, _, (Steps.runs_bodyLines hslot hrunnable).active [], rfl, Event.slot_eq_firstReturned_iff⟩

theorem callback_slot_iff_guardClause :
    ∃ steps, Program.guardClause.Reads (.resolver {}) "$v1" ⟨7⟩ steps ∧
      ["#set($v1 = $null)", "#if($x)", "#set($v1 = true)", "#end", "#set($v1 = false)"] =
        steps.bodyLines "$v1" ∧
      ∀ truth, ∃ last made, execute truth {} (steps.bodyLines "$v1") = some (last, made) ∧
        made = ⟨"$v1", Text.nullText⟩ :: (steps.trail truth 0).map (Event.assignment "$v1") ∧
        ((∀ (V : Type) (eval : String → Store V → V) (store : Store V),
          store.after eval made "$v1" =
            (Event.firstReturned eval (store.set "$v1" (eval Text.nullText store))
              (steps.trail truth 0)).getD (eval Text.nullText store)) ↔
          ∀ event ∈ Event.afterReturn (steps.trail truth 0),
            (event.assignment "$v1").target ≠ "$v1") := by
  have hintegrations : Program.guardClause.integrations = #[] := by cbv
  have hbody : Program.guardClause.arena.get? ⟨7⟩ = some (.block [⟨4⟩, ⟨6⟩]) := by cbv
  apply callback_slot_iff Program.bottomUp_guardClause ?_ hbody Program.simple_guardClause
    Program.runOn_guardClause
  rw [hintegrations]
  intro integration hm
  exact absurd hm (Array.not_mem_empty integration)

/-- If the condition of the guard clause is true, `true` is returned first, and the
slot ends up as `false`. -/
theorem slot_ne_firstReturned_guardClause :
    ∃ steps final, ((Program.guardClause.walkerWithin (.resolver {}) 5).callbackBody ⟨7⟩).runOn {} =
        (.ok "$v1", final) ∧
      Program.guardClause.Reads (.resolver {}) "$v1" ⟨7⟩ steps ∧
      ∃ last made, execute (fun _ => true) {} final.lines.toList = some (last, made) ∧
        Event.firstReturned (fun text _ => text) (fun _ => Text.nullText)
          (steps.trail (fun _ => true) 0) = some "true" ∧
        Store.after (fun text _ => text) (fun _ => Text.nullText) made "$v1" = "false" := by
  have htest : Program.guardClause.arena.get? ⟨4⟩ = some (.branch ⟨0⟩ ⟨3⟩ none) := by cbv
  have hinner : Program.guardClause.arena.get? ⟨3⟩ = some (.block [⟨2⟩]) := by cbv
  have hearly : Program.guardClause.arena.get? ⟨2⟩ = some (.returnValue (some ⟨1⟩)) := by cbv
  have hlate : Program.guardClause.arena.get? ⟨6⟩ = some (.returnValue (some ⟨5⟩)) := by cbv
  have hbody : Program.guardClause.arena.get? ⟨7⟩ = some (.block [⟨4⟩, ⟨6⟩]) := by cbv
  have hcondition : ((Program.guardClause.walkerWithin (.resolver {}) 1).expression ⟨0⟩).Yields
      "$x" := ⟨{}, {}, by cbv⟩
  have htrue : ((Program.guardClause.walkerWithin (.resolver {}) 1).expression ⟨1⟩).Yields
      "true" := ⟨{}, {}, by cbv⟩
  have hfalse : ((Program.guardClause.walkerWithin (.resolver {}) 1).expression ⟨5⟩).Yields
      "false" := ⟨{}, {}, by cbv⟩
  have hguard : Program.guardClause.Reads (.resolver {}) "$v1" ⟨4⟩
      (.guarded "$x" (.seq (.returns "true") .skip)) :=
    .guarded htest hcondition (.block hinner (.cons (.returns hearly htrue) .nil))
  have hreads : Program.guardClause.Reads (.resolver {}) "$v1" ⟨7⟩
      (.seq (.guarded "$x" (.seq (.returns "true") .skip)) (.seq (.returns "false") .skip)) :=
    .block hbody (.cons hguard (.cons (.returns hlate hfalse) .nil))
  have hslot : ' ' ∉ "$v1".toList := by decide
  have hrunnable : (Steps.seq (.guarded "$x" (.seq (.returns "true") .skip))
      (.seq (.returns "false") .skip)).Runnable := ⟨⟨trivial, trivial⟩, trivial, trivial⟩
  have hruns : Runs (fun _ => true) 0 _ _ := Steps.runs_bodyLines hslot hrunnable
  refine ⟨_, _, Program.runOn_guardClause, hreads, _, _, hruns.active [], ?_, ?_⟩
  · rfl
  · rfl

end ClosureVtl
