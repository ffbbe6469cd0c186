/-
Module: ClosureVtl.Proofs.Template.Printing
Purpose: What the lines of a mapping template print.
Main exports:
  isSilent, Mute, Printed, Pace, Press, print, Prints, Prints.of_balanced
-/
import ClosureVtl.Proofs.Template.Execution

namespace ClosureVtl

/-!
A mapping template prints every line that is neither a directive nor an expression that is
evaluated for its effect.  Which branches are taken is given from outside, one truth value
for each line that opens a branch, counted from the top, as in
`ClosureVtl.Proofs.Template.Execution`.

How often the lines of a loop are run, and which branches are taken in each round, is not
known.  A line that would be printed inside of a loop is therefore refused, and what the
other lines print does not depend on the rounds.  Refused as well are the lines that leave a
loop or the template.
-/

/-- Whether a line has an effect and prints nothing. -/
def isSilent (line : String) : Bool :=
  "#set(".toList.isPrefixOf line.toList || "$util.qr(".toList.isPrefixOf line.toList

/-- Whether a line leaves a loop or the template. -/
def isExit (line : String) : Bool :=
  "#break".toList.isPrefixOf line.toList || "#return".toList.isPrefixOf line.toList

/-- Whether a line prints nothing by itself. -/
def Mute (line : String) : Prop := lineRole line ≠ .plain ∨ isSilent line = true

/-- Whether a line is printed as it stands. -/
structure Printed (line : String) : Prop where
  plain : lineRole line = .plain
  loud : isSilent line = false
  stays : isExit line = false

section

variable {line : String}

/-- An assignment prints nothing. -/
theorem mute_assign (target value : String) : Mute s!"#set({target} = {value})" := by
  refine .inr ?_
  have hstarts : "#set(".toList <+: (s!"#set({target} = {value})").toList := by
    repeat apply starts_append
    decide
  rw [isSilent, List.isPrefixOf_iff_prefix.mpr hstarts, Bool.true_or]

/-- Nor does an expression that is evaluated for its effect. -/
theorem mute_discard (value : String) : Mute s!"$util.qr({value})" := by
  refine .inr ?_
  have hstarts : "$util.qr(".toList <+: (s!"$util.qr({value})").toList := by
    repeat apply starts_append
    decide
  rw [isSilent, List.isPrefixOf_iff_prefix.mpr hstarts, Bool.or_true]

/-- Nor does a line that opens or closes a block. -/
theorem mute_of_role {role : LineRole} (h : lineRole line = role) (hne : role ≠ .plain) :
    Mute line :=
  .inl fun hplain => hne (h.symm.trans hplain)

theorem isExit_of_mute (h : Mute line) : isExit line = false := by
  have hdecided : ∀ front : List Char, front <+: line.toList → 2 ≤ front.length →
      (front.take 2 = ['#', 'b'] ∨ front.take 2 = ['#', 'r']) → lineRole line = .plain ∧
        isSilent line = false := by
    rintro front ⟨rest, hline⟩ hlong hfront
    obtain ⟨more, hmore⟩ : ∃ more, line.toList = front.take 2 ++ more :=
      ⟨front.drop 2 ++ rest, by rw [← List.append_assoc, List.take_append_drop, hline]⟩
    constructor
    · rcases hfront with hfront | hfront <;> rw [hfront] at hmore <;>
        exact lineRole_of_directive ⟨more, hmore.symm⟩ (by decide) (by decide) (by decide)
    · rcases hfront with hfront | hfront <;> rw [hfront] at hmore <;> rw [isSilent, hmore] <;> rfl
  rw [Bool.eq_false_iff]
  intro hexit
  unfold isExit at hexit
  rw [Bool.or_eq_true, List.isPrefixOf_iff_prefix, List.isPrefixOf_iff_prefix] at hexit
  have hboth : lineRole line = .plain ∧ isSilent line = false := by
    rcases hexit with hexit | hexit
    · exact hdecided _ hexit (by decide) (.inl (by decide))
    · exact hdecided _ hexit (by decide) (.inr (by decide))
  rcases h with hrole | hsilent
  · exact hrole hboth.1
  · rw [hboth.2] at hsilent
    cases hsilent

/-- A line that does not start with a sign of the template language is printed. -/
theorem printed_of_starts {first : Char} (h : [first] <+: line.toList) (hhash : first ≠ '#')
    (hdollar : first ≠ '$') : Printed line := by
  obtain ⟨rest, hline⟩ := h
  refine ⟨lineRole_of_starts ⟨rest, hline⟩ hhash, ?_, ?_⟩
  · simp [isSilent, ← hline, List.isPrefixOf, Ne.symm hhash, Ne.symm hdollar]
  · simp [isExit, ← hline, List.isPrefixOf, Ne.symm hhash]

end

/-! ### Printing -/

/-- How often the lines at a place are run: not at all, once, or as often as a loop says. -/
inductive Pace where
  | never
  | once
  | repeated
deriving DecidableEq, Repr

namespace Pace

/-- The pace in a branch.  In a loop its condition may change. -/
def inBranch : Pace → Bool → Pace
  | once, false => never
  | pace, _ => pace

/-- The pace in a loop. -/
def inLoop : Pace → Pace
  | never => never
  | _ => repeated

end Pace

/-- A place in a template that is printed: the number of branches met so far, the pace, and
for each open block the pace around it and its truth value. -/
structure Press where
  count : Nat := 0
  pace : Pace := .once
  outer : List (Pace × Bool) := []
deriving DecidableEq, Repr

/-- Reads one line: where printing goes on, and what is printed. -/
def Press.step (truth : Nat → Bool) (c : Press) (line : String) : Option (Press × List String) :=
  match lineRole line, c.outer with
  | .plain, _ =>
    if isSilent line then some (c, [])
    else if isExit line then none
    else
      match c.pace with
      | .never => some (c, [])
      | .once => some (c, [line])
      | .repeated => none
  | .loop, outer => some ({ c with pace := c.pace.inLoop, outer := (c.pace, true) :: outer }, [])
  | .branch, outer =>
    some ({ count := c.count + 1
            pace := c.pace.inBranch (truth c.count)
            outer := (c.pace, truth c.count) :: outer }, [])
  | .alternative, (around, taken) :: _ => some ({ c with pace := around.inBranch (!taken) }, [])
  | .close, (around, _) :: outer => some ({ c with pace := around, outer }, [])
  | _, _ => none

/-- Prints lines: where printing ends, and what is printed, in order. -/
def print (truth : Nat → Bool) : Press → List String → Option (Press × List String)
  | c, [] => some (c, [])
  | c, line :: rest =>
    (c.step truth line).bind fun (next, printed) =>
      (print truth next rest).map fun (last, more) => (last, printed ++ more)

section

variable {truth : Nat → Bool} {count : Nat} {c next last : Press} {pace around : Pace}
  {taken : Bool} {outer : List (Pace × Bool)} {line : String}
  {lines more printed others : List String}

/-- A silent line is passed over. -/
theorem Press.step_of_silent (role : lineRole line = .plain) (h : isSilent line = true) :
    c.step truth line = some (c, []) := by
  unfold Press.step
  rw [role]
  exact if_pos h

/-- A printed line is printed once at the pace for that. -/
theorem Press.step_of_printed (h : Printed line) (hpace : c.pace = .once) :
    c.step truth line = some (c, [line]) := by
  unfold Press.step
  rw [h.plain]
  dsimp only
  rw [h.loud, h.stays, hpace]
  rfl

/-- A line that is not reached is not printed. -/
theorem Press.step_of_skipped (h : Printed line) (hpace : c.pace = .never) :
    c.step truth line = some (c, []) := by
  unfold Press.step
  rw [h.plain]
  dsimp only
  rw [h.loud, h.stays, hpace]
  rfl

/-- Unless they are not run at all, the lines in a loop are run as often as it says. -/
theorem Press.step_of_loop (role : lineRole line = .loop) :
    Press.step truth ⟨count, pace, outer⟩ line =
      some (⟨count, pace.inLoop, (pace, true) :: outer⟩, []) := by
  unfold Press.step
  rw [role]

/-- A branch takes the next truth value, and outside loops its lines are run only if that is
true. -/
theorem Press.step_of_branch (role : lineRole line = .branch) :
    Press.step truth ⟨count, pace, outer⟩ line =
      some (⟨count + 1, pace.inBranch (truth count), (pace, truth count) :: outer⟩, []) := by
  unfold Press.step
  rw [role]

/-- The second half of a branch has the pace around it, with the opposite truth value. -/
theorem Press.step_of_alternative (role : lineRole line = .alternative) :
    Press.step truth ⟨count, pace, (around, taken) :: outer⟩ line =
      some (⟨count, around.inBranch (!taken), (around, taken) :: outer⟩, []) := by
  unfold Press.step
  rw [role]

/-- Behind the end of a block everything is as it was in front of it. -/
theorem Press.step_of_close (role : lineRole line = .close) :
    Press.step truth ⟨count, pace, (around, taken) :: outer⟩ line =
      some (⟨count, around, outer⟩, []) := by
  unfold Press.step
  rw [role]

/-- What the first line prints stands in front of what the others print. -/
theorem print_cons (h : c.step truth line = some (next, printed))
    (h' : print truth next lines = some (last, others)) :
    print truth c (line :: lines) = some (last, printed ++ others) := by
  simp only [print, h, Option.bind_some, h', Option.map_some]

/-- Printing the end of a block alone brings back the pace around it. -/
theorem print_close (role : lineRole line = .close) :
    print truth ⟨count, pace, (around, taken) :: outer⟩ [line] =
      some (⟨count, around, outer⟩, []) :=
  print_cons (Press.step_of_close role) rfl

/-- Lines printed in two parts print both, one after the other. -/
theorem print_append (h : print truth c lines = some (next, printed))
    (h' : print truth next more = some (last, others)) :
    print truth c (lines ++ more) = some (last, printed ++ others) := by
  induction lines generalizing c printed with
  | nil =>
    cases h
    exact h'
  | cons line rest ih =>
    rw [print] at h
    obtain ⟨⟨middle, first⟩, hstep, hrest⟩ := Option.bind_eq_some_iff.mp h
    obtain ⟨⟨stop, behind⟩, hbehind, heq⟩ := Option.map_eq_some_iff.mp hrest
    cases heq
    rw [List.append_assoc]
    exact print_cons hstep (ih hbehind)

/-- What whole lines print at some pace, wherever they stand. -/
def Prints (truth : Nat → Bool) (count : Nat) (pace : Pace) (lines printed : List String) : Prop :=
  ∀ outer, print truth ⟨count, pace, outer⟩ lines =
    some (⟨count + branches lines, pace, outer⟩, printed)

theorem branches_cons :
    branches (line :: lines) = (if lineRole line = .branch then 1 else 0) + branches lines := by
  rw [branches, List.countP_cons, Nat.add_comm]
  simp [branches]

theorem branches_append : branches (lines ++ more) = branches lines + branches more :=
  List.countP_append

namespace Prints

theorem nil : Prints truth count pace [] [] := fun _ => rfl

/-- The second part takes its truth values where the first one stopped. -/
theorem append (h : Prints truth count pace lines printed)
    (h' : Prints truth (count + branches lines) pace more others) :
    Prints truth count pace (lines ++ more) (printed ++ others) := by
  intro outer
  rw [branches_append, ← Nat.add_assoc]
  exact print_append (h outer) (h' outer)

theorem silent (role : lineRole line = .plain) (h : isSilent line = true) :
    Prints truth count pace [line] [] := by
  intro outer
  rw [branches_cons, role]
  exact print_cons (Press.step_of_silent role h) rfl

/-- A fragment outside all loops is printed as it stands. -/
theorem fragment (h : Printed line) : Prints truth count .once [line] [line] := by
  intro outer
  rw [branches_cons, h.plain]
  exact print_cons (Press.step_of_printed h rfl) rfl

/-- A line that is not reached is not printed. -/
theorem skipped (h : Printed line) : Prints truth count .never [line] [] := by
  intro outer
  rw [branches_cons, h.plain]
  exact print_cons (Press.step_of_skipped h rfl) rfl

/-- A guard prints what its body prints at the pace of the branch. -/
theorem guarded {opener closer : String} (opens : lineRole opener = .branch)
    (closes : lineRole closer = .close)
    (h : Prints truth (count + 1) (pace.inBranch (truth count)) lines printed) :
    Prints truth count pace (opener :: (lines ++ [closer])) printed := by
  intro outer
  have hcount : count + branches (opener :: (lines ++ [closer])) = count + 1 + branches lines := by
    rw [branches_cons, branches_append, branches_cons, opens, closes]
    simp [branches]
    omega
  rw [hcount]
  have hbody := print_append (h ((pace, truth count) :: outer)) (print_close closes)
  rw [List.append_nil] at hbody
  exact print_cons (Press.step_of_branch opens) hbody

/-- Of two alternatives each prints what it does at its pace. -/
theorem alternatives {opener middle closer : String} (opens : lineRole opener = .branch)
    (turns : lineRole middle = .alternative) (closes : lineRole closer = .close)
    (hyes : Prints truth (count + 1) (pace.inBranch (truth count)) lines printed)
    (hno : Prints truth (count + 1 + branches lines) (pace.inBranch (!truth count)) more others) :
    Prints truth count pace (opener :: (lines ++ middle :: (more ++ [closer])))
      (printed ++ others) := by
  intro outer
  have hcount : count + branches (opener :: (lines ++ middle :: (more ++ [closer]))) =
      count + 1 + branches lines + branches more := by
    rw [branches_cons, branches_append, branches_cons, branches_append, branches_cons, opens, turns,
      closes]
    simp [branches]
    omega
  rw [hcount]
  have hbehind := print_append (hno ((pace, truth count) :: outer)) (print_close closes)
  rw [List.append_nil] at hbehind
  have hrest := print_append (hyes ((pace, truth count) :: outer))
    (print_cons (Press.step_of_alternative turns) hbehind)
  rw [List.nil_append] at hrest
  have hblock := print_cons (Press.step_of_branch opens) hrest
  rw [List.nil_append] at hblock
  exact hblock

/-- Loops are run at a pace of their own. -/
theorem loop {opener closer : String} (opens : lineRole opener = .loop)
    (closes : lineRole closer = .close) (h : Prints truth count pace.inLoop lines printed) :
    Prints truth count pace (opener :: (lines ++ [closer])) printed := by
  intro outer
  have hcount : count + branches (opener :: (lines ++ [closer])) = count + branches lines := by
    rw [branches_cons, branches_append, branches_cons, opens, closes]
    simp [branches]
  rw [hcount]
  have hbody := print_append (h ((pace, true) :: outer)) (print_close closes)
  rw [List.append_nil] at hbody
  exact print_cons (Press.step_of_loop opens) hbody

/-- Balanced lines of which each prints nothing print nothing, at whatever pace. -/
theorem of_balanced (h : Balanced lines) (hmute : ∀ line ∈ lines, Mute line) :
    Prints truth count pace lines [] := by
  -- the pace changes at each block, so it has to be general
  induction h generalizing count pace with
  | nil => exact nil
  | @plain line rest role _ ih =>
    obtain ⟨hline, hrest⟩ := List.forall_mem_cons.mp hmute
    have hsilent : isSilent line = true := hline.resolve_left fun hne => hne role
    exact (silent role hsilent).append (ih hrest)
  | @loop opener closer body rest opens _ closes _ ihBody ihRest =>
    have hbody : ∀ line ∈ body, Mute line := fun line hm => hmute line (by simp [hm])
    have hrest : ∀ line ∈ rest, Mute line := fun line hm => hmute line (by simp [hm])
    have hblock : Prints truth count pace (opener :: (body ++ [closer])) [] :=
      loop opens closes (ihBody hbody)
    have hall := hblock.append (ihRest hrest)
    simpa using hall
  | @guarded opener closer body rest opens _ closes _ ihBody ihRest =>
    have hbody : ∀ line ∈ body, Mute line := fun line hm => hmute line (by simp [hm])
    have hrest : ∀ line ∈ rest, Mute line := fun line hm => hmute line (by simp [hm])
    have hblock : Prints truth count pace (opener :: (body ++ [closer])) [] :=
      guarded opens closes (ihBody hbody)
    have hall := hblock.append (ihRest hrest)
    simpa using hall
  | @choice opener middle closer yes no rest opens _ turns _ closes _ ihYes ihNo ihRest =>
    have hyes : ∀ line ∈ yes, Mute line := fun line hm => hmute line (by simp [hm])
    have hno : ∀ line ∈ no, Mute line := fun line hm => hmute line (by simp [hm])
    have hrest : ∀ line ∈ rest, Mute line := fun line hm => hmute line (by simp [hm])
    have hblock : Prints truth count pace (opener :: (yes ++ middle :: (no ++ [closer]))) ([] ++ []) :=
      alternatives opens turns closes (ihYes hyes) (ihNo hno)
    have hall := hblock.append (ihRest hrest)
    simpa using hall

end Prints

end

end ClosureVtl
