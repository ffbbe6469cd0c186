/-
Module: ClosureVtl.Proofs.Template.Execution
Purpose: Running template lines that assign variables and branch.
Main exports:
  Assignment, assignment?, Cursor, execute, branches, Runs, Settable,
  runs_of_balanced, Store, Store.after
-/
import ClosureVtl.Proofs.Template.Blocks

namespace ClosureVtl

/-!
Lines of assignments and branches are run from top to bottom.  Which branches are
taken is given from outside, one truth value for each line that opens a branch,
counted from the top; lines in a branch that is not taken are counted but not run.
So the assignments that a run makes, and their order, do not depend on any value.
What the assignments store is a matter of its own: the value of a text is computed
from the store by an evaluation that is left open.

`Runs` says what a run of whole lines does wherever they stand.  It composes like
the lines do.
-/

/-! ### Assignments -/

/-- An assignment: the text of its target and that of its value. -/
structure Assignment where
  target : String
  value : String
deriving DecidableEq, Repr

/-- The texts before and behind the first assignment sign. -/
def splitAssignment : List Char → Option (List Char × List Char)
  | [] => none
  | ' ' :: '=' :: ' ' :: value => some ([], value)
  | c :: rest => (splitAssignment rest).map fun (target, value) => (c :: target, value)

/-- The assignment that a line makes. -/
def assignment? (line : String) : Option Assignment :=
  if "#set(".toList.isPrefixOf line.toList && line.toList.getLast? == some ')' then
    (splitAssignment (line.toList.drop 5).dropLast).map fun (target, value) =>
      { target := String.ofList target, value := String.ofList value }
  else none

/-- A target without blanks ends at the assignment sign. -/
theorem splitAssignment_of_no_blank {target value : List Char} (h : ' ' ∉ target) :
    splitAssignment (target ++ ' ' :: '=' :: ' ' :: value) = some (target, value) := by
  induction target with
  | nil => rfl
  | cons c rest ih =>
    rw [List.mem_cons, not_or] at h
    rw [List.cons_append, splitAssignment, ih h.2]
    · rfl
    · rintro value' rfl
      exact absurd rfl h.1

/-- Whatever the target is, there is an assignment sign behind it. -/
theorem splitAssignment_isSome (target value : List Char) :
    (splitAssignment (target ++ ' ' :: '=' :: ' ' :: value)).isSome = true := by
  induction target with
  | nil => rfl
  | cons c rest ih =>
    rw [List.cons_append]
    unfold splitAssignment
    split
    · next heq => cases heq
    · rfl
    · next heq =>
      cases heq
      rw [Option.isSome_map]
      exact ih

/-- The line of an assignment is split at the first equals sign between blanks. -/
theorem assignment?_assign (target value : String) :
    assignment? s!"#set({target} = {value})" =
      (splitAssignment (target.toList ++ ' ' :: '=' :: ' ' :: value.toList)).map
        fun (target, value) => { target := String.ofList target, value := String.ofList value } := by
  have htext : (s!"#set({target} = {value})").toList =
      "#set(".toList ++ (target.toList ++ ' ' :: '=' :: ' ' :: value.toList ++ [')']) := by
    simp [toString]
  unfold assignment?
  rw [htext]
  generalize target.toList ++ ' ' :: '=' :: ' ' :: value.toList = inner
  have hstarts : "#set(".toList.isPrefixOf ("#set(".toList ++ (inner ++ [')'])) = true := by simp
  have hends : ("#set(".toList ++ (inner ++ [')'])).getLast? = some ')' := by
    rw [← List.append_assoc, List.getLast?_concat]
  have hinner : (("#set(".toList ++ (inner ++ [')'])).drop 5).dropLast = inner := by
    show (inner ++ [')']).dropLast = inner
    exact List.dropLast_concat
  rw [hstarts, hends, hinner]
  rfl

/-- A target without blanks is found as it was written. -/
theorem assignment?_assign_of_no_blank {target : String} (h : ' ' ∉ target.toList)
    (value : String) : assignment? s!"#set({target} = {value})" = some ⟨target, value⟩ := by
  rw [assignment?_assign, splitAssignment_of_no_blank h]
  simp

/-! ### Running lines -/

/-- A place in a run: the number of branches met so far, whether lines are run here,
and for each open branch whether the lines around it are run and its truth value. -/
structure Cursor where
  count : Nat := 0
  active : Bool := true
  outer : List (Bool × Bool) := []
deriving DecidableEq, Repr

/-- Reads one line: where the run goes on, and the assignment that is made.  Lines
other than assignments and those of branches are not run. -/
def Cursor.step (truth : Nat → Bool) (c : Cursor) (line : String) :
    Option (Cursor × List Assignment) :=
  match lineRole line, c.outer with
  | .plain, _ => (assignment? line).map fun made => (c, if c.active then [made] else [])
  | .branch, outer =>
    some ({ count := c.count + 1
            active := c.active && truth c.count
            outer := (c.active, truth c.count) :: outer }, [])
  | .alternative, (around, taken) :: _ => some ({ c with active := around && !taken }, [])
  | .close, (around, _) :: outer => some ({ c with active := around, outer }, [])
  | _, _ => none

/-- Runs lines: where the run ends, and the assignments that are made, in order. -/
def execute (truth : Nat → Bool) : Cursor → List String → Option (Cursor × List Assignment)
  | c, [] => some (c, [])
  | c, line :: rest =>
    (c.step truth line).bind fun (next, made) =>
      (execute truth next rest).map fun (last, more) => (last, made ++ more)

/-- The number of lines that open a branch. -/
def branches (lines : List String) : Nat := lines.countP fun line => lineRole line == .branch

section

variable {truth : Nat → Bool} {count : Nat} {c next last : Cursor} {line : String}
  {lines more : List String} {made done : List Assignment}

/-- What the first line assigns comes before what the others assign. -/
theorem execute_cons (h : c.step truth line = some (next, made))
    (h' : execute truth next lines = some (last, done)) :
    execute truth c (line :: lines) = some (last, made ++ done) := by
  simp only [execute, h, Option.bind_some, h', Option.map_some]

/-- Lines run in two parts make the assignments of both. -/
theorem execute_append (h : execute truth c lines = some (next, made))
    (h' : execute truth next more = some (last, done)) :
    execute truth c (lines ++ more) = some (last, made ++ done) := by
  induction lines generalizing c made with
  | nil =>
    cases h
    exact h'
  | cons line rest ih =>
    rw [execute] at h
    obtain ⟨⟨middle, first⟩, hstep, hrest⟩ := Option.bind_eq_some_iff.mp h
    obtain ⟨⟨stop, others⟩, hothers, heq⟩ := Option.map_eq_some_iff.mp hrest
    cases heq
    rw [List.append_assoc]
    exact execute_cons hstep (ih hothers)

/-- What whole lines do wherever they stand: run, they make assignments and leave
the open branches as they are; not run, they make none. -/
structure Runs (truth : Nat → Bool) (count : Nat) (lines : List String)
    (made : List Assignment) : Prop where
  active : ∀ outer, execute truth ⟨count, true, outer⟩ lines =
    some (⟨count + branches lines, true, outer⟩, made)
  inactive : ∀ outer, execute truth ⟨count, false, outer⟩ lines =
    some (⟨count + branches lines, false, outer⟩, [])

namespace Runs

theorem nil : Runs truth count [] [] := ⟨fun _ => rfl, fun _ => rfl⟩

/-- The second part takes its truth values where the first one stopped. -/
theorem append (h : Runs truth count lines made)
    (h' : Runs truth (count + branches lines) more done) :
    Runs truth count (lines ++ more) (made ++ done) := by
  have hcount : count + branches (lines ++ more) = count + branches lines + branches more := by
    rw [branches, List.countP_append, ← Nat.add_assoc]
    rfl
  constructor
  · intro outer
    rw [hcount]
    exact execute_append (h.active outer) (h'.active outer)
  · intro outer
    rw [hcount]
    exact execute_append (h.inactive outer) (h'.inactive outer)

/-- A plain line that is an assignment makes it. -/
theorem assignment {made : Assignment} (role : lineRole line = .plain)
    (h : assignment? line = some made) : Runs truth count [line] [made] := by
  have hnone : branches [line] = 0 := by
    simp [branches, role]
  have hstep : ∀ active outer, Cursor.step truth ⟨count, active, outer⟩ line =
      some (⟨count, active, outer⟩, if active then [made] else []) := by
    intro active outer
    simp only [Cursor.step, role, h]
    rfl
  constructor
  · intro outer
    rw [hnone]
    exact execute_cons (hstep true outer) rfl
  · intro outer
    rw [hnone]
    exact execute_cons (hstep false outer) rfl

variable {opener middle closer : String} {body yes no : List String}
  {first second : List Assignment}

/-- Behind the end of a block everything is as it was in front of it. -/
theorem execute_close {around taken active : Bool} {outer : List (Bool × Bool)}
    (closes : lineRole closer = .close) :
    execute truth ⟨count, active, (around, taken) :: outer⟩ [closer] =
      some (⟨count, around, outer⟩, []) := by
  have hstep : Cursor.step truth ⟨count, active, (around, taken) :: outer⟩ closer =
      some (⟨count, around, outer⟩, []) := by
    simp only [Cursor.step, closes]
  exact execute_cons hstep rfl

/-- A branch takes the next truth value; its lines run only if that is true. -/
theorem step_open {active : Bool} {outer : List (Bool × Bool)}
    (opens : lineRole opener = .branch) :
    Cursor.step truth ⟨count, active, outer⟩ opener =
      some (⟨count + 1, active && truth count, (active, truth count) :: outer⟩, []) := by
  simp only [Cursor.step, opens]

/-- A guarded body is run if its condition holds. -/
theorem guarded (opens : lineRole opener = .branch) (closes : lineRole closer = .close)
    (h : Runs truth (count + 1) body made) :
    Runs truth count (opener :: (body ++ [closer])) (if truth count then made else []) := by
  have hcount : count + branches (opener :: (body ++ [closer])) = count + 1 + branches body := by
    simp [branches, List.countP_append, opens, closes]
    omega
  constructor
  · intro outer
    rw [hcount]
    cases hc : truth count with
    | true =>
      have hbody := execute_append (h.active ((true, true) :: outer)) (execute_close closes)
      rw [List.append_nil] at hbody
      apply execute_cons (step_open opens)
      rw [hc]
      exact hbody
    | false =>
      have hbody := execute_append (h.inactive ((true, false) :: outer)) (execute_close closes)
      apply execute_cons (step_open opens)
      rw [hc]
      exact hbody
  · intro outer
    rw [hcount]
    apply execute_cons (step_open opens)
    exact execute_append (h.inactive _) (execute_close closes)

/-- Of two alternatives one is run. -/
theorem alternatives (opens : lineRole opener = .branch) (turns : lineRole middle = .alternative)
    (closes : lineRole closer = .close) (hyes : Runs truth (count + 1) yes first)
    (hno : Runs truth (count + 1 + branches yes) no second) :
    Runs truth count (opener :: (yes ++ middle :: (no ++ [closer])))
      (if truth count then first else second) := by
  have hcount : count + branches (opener :: (yes ++ middle :: (no ++ [closer]))) =
      count + 1 + branches yes + branches no := by
    simp [branches, List.countP_append, opens, turns, closes]
    omega
  have hturn : ∀ {count : Nat} {active around taken : Bool} {outer : List (Bool × Bool)},
      Cursor.step truth ⟨count, active, (around, taken) :: outer⟩ middle =
        some (⟨count, around && !taken, (around, taken) :: outer⟩, []) := by
    intro count active around taken outer
    simp only [Cursor.step, turns]
  constructor
  · intro outer
    rw [hcount]
    cases hc : truth count with
    | true =>
      have hrest := execute_append (hno.inactive ((true, true) :: outer)) (execute_close closes)
      have hbody := execute_append (hyes.active ((true, true) :: outer)) (execute_cons hturn hrest)
      simp only [List.append_nil] at hbody
      apply execute_cons (step_open opens)
      rw [hc]
      exact hbody
    | false =>
      have hrest := execute_append (hno.active ((true, false) :: outer)) (execute_close closes)
      have hbody := execute_append (hyes.inactive ((true, false) :: outer)) (execute_cons hturn hrest)
      rw [List.append_nil] at hbody
      apply execute_cons (step_open opens)
      rw [hc]
      exact hbody
  · intro outer
    rw [hcount]
    apply execute_cons (step_open opens)
    apply execute_append (hyes.inactive _)
    apply execute_cons hturn
    exact execute_append (hno.inactive _) (execute_close closes)

end Runs

/-- Whether a line can be run: an assignment or a line of a branch. -/
def Settable (line : String) : Prop :=
  lineRole line ≠ .loop ∧ (lineRole line = .plain → (assignment? line).isSome)

/-- An assignment can be carried out. -/
theorem settable_assign (target value : String) : Settable s!"#set({target} = {value})" := by
  constructor
  · rw [lineRole_assign]
    decide
  · intro _
    rw [assignment?_assign, Option.isSome_map]
    exact splitAssignment_isSome _ _

/-- Balanced lines that can be run one by one can be run as a whole. -/
theorem runs_of_balanced (h : Balanced lines) (hset : ∀ line ∈ lines, Settable line) :
    ∃ made, Runs truth count lines made := by
  -- the induction is on the nesting; what is behind a block counts the branches in it
  induction h generalizing count with
  | nil => exact ⟨[], .nil⟩
  | @plain line rest role _ ih =>
    obtain ⟨hline, hrest⟩ := List.forall_mem_cons.mp hset
    obtain ⟨assigned, hassigned⟩ := Option.isSome_iff_exists.mp (hline.2 role)
    have hnext : ∃ made, Runs truth (count + branches [line]) rest made := ih hrest
    obtain ⟨made, hruns⟩ := hnext
    exact ⟨[assigned] ++ made, (Runs.assignment role hassigned).append hruns⟩
  | loop opens =>
    exact absurd opens (hset _ List.mem_cons_self).1
  | @guarded opener closer body rest opens _ closes _ ihBody ihRest =>
    have hsplit : opener :: (body ++ closer :: rest) = (opener :: (body ++ [closer])) ++ rest := by
      simp
    have hbody : ∀ line ∈ body, Settable line := fun line hm => hset line (by simp [hm])
    have hrest : ∀ line ∈ rest, Settable line := fun line hm => hset line (by simp [hm])
    have hinner : ∃ made, Runs truth (count + 1) body made := ihBody hbody
    obtain ⟨made, hmade⟩ := hinner
    have hblock := Runs.guarded opens closes hmade
    have hafter : ∃ more,
        Runs truth (count + branches (opener :: (body ++ [closer]))) rest more := ihRest hrest
    obtain ⟨more, hmore⟩ := hafter
    rw [hsplit]
    exact ⟨_, hblock.append hmore⟩
  | @choice opener middle closer yes no rest opens _ turns _ closes _ ihYes ihNo ihRest =>
    have hsplit : opener :: (yes ++ middle :: (no ++ closer :: rest)) =
        (opener :: (yes ++ middle :: (no ++ [closer]))) ++ rest := by
      simp
    have hyes : ∀ line ∈ yes, Settable line := fun line hm => hset line (by simp [hm])
    have hno : ∀ line ∈ no, Settable line := fun line hm => hset line (by simp [hm])
    have hrest : ∀ line ∈ rest, Settable line := fun line hm => hset line (by simp [hm])
    have hinner : ∃ first, Runs truth (count + 1) yes first := ihYes hyes
    obtain ⟨first, hfirst⟩ := hinner
    have hother : ∃ second, Runs truth (count + 1 + branches yes) no second := ihNo hno
    obtain ⟨second, hsecond⟩ := hother
    have hblock := Runs.alternatives opens turns closes hfirst hsecond
    have hafter : ∃ more,
        Runs truth (count + branches (opener :: (yes ++ middle :: (no ++ [closer])))) rest more :=
      ihRest hrest
    obtain ⟨more, hmore⟩ := hafter
    rw [hsplit]
    exact ⟨_, hblock.append hmore⟩

end

/-! ### Stores -/

/-- The values of variables, under the texts that name them. -/
abbrev Store (V : Type) := String → V

namespace Store

variable {V : Type} {eval : String → Store V → V} {store : Store V} {target : String}
  {made more : List Assignment}

/-- Stores one value. -/
def set (store : Store V) (target : String) (value : V) : Store V :=
  fun name => if name = target then value else store name

/-- Carries out assignments in order; the value of a text is computed from the store
as it is then. -/
def after (eval : String → Store V → V) (store : Store V) (made : List Assignment) : Store V :=
  made.foldl (fun store a => store.set a.target (eval a.value store)) store

/-- Assignments are carried out in order. -/
theorem after_append :
    store.after eval (made ++ more) = (store.after eval made).after eval more :=
  List.foldl_append

theorem after_singleton {value : String} :
    store.after eval [⟨target, value⟩] target = eval value store :=
  if_pos rfl

/-- What is not assigned keeps its value. -/
theorem after_of_not_target (h : ∀ a ∈ made, a.target ≠ target) :
    store.after eval made target = store target := by
  induction made generalizing store with
  | nil => rfl
  | cons first rest ih =>
    obtain ⟨hfirst, hrest⟩ := List.forall_mem_cons.mp h
    have hstep : store.after eval (first :: rest) =
        (store.set first.target (eval first.value store)).after eval rest := rfl
    rw [hstep, ih hrest]
    exact if_neg (Ne.symm hfirst)

/-- If every text is worth one more than a variable, the variable counts how often
it is assigned. -/
theorem after_count {store : Store Nat} :
    store.after (fun _ store => store target + 1) made target =
      store target + made.countP fun a => a.target == target := by
  induction made generalizing store with
  | nil => rfl
  | cons first rest ih =>
    have hstep : store.after (fun _ store => store target + 1) (first :: rest) =
        (store.set first.target (store target + 1)).after (fun _ store => store target + 1)
          rest := rfl
    rw [hstep, ih, List.countP_cons]
    by_cases hfirst : first.target = target
    · simp [set, hfirst]
      omega
    · simp [set, hfirst, Ne.symm hfirst]

/-- So it is not assigned if it keeps its value under that evaluation. -/
theorem not_target_of_after_count {store : Store Nat}
    (h : store.after (fun _ store => store target + 1) made target = store target) :
    ∀ a ∈ made, a.target ≠ target := by
  rw [after_count] at h
  have hzero : made.countP (fun a => a.target == target) = 0 := by omega
  intro a hm heq
  exact List.countP_eq_zero.mp hzero a hm (by simp [heq])

/-- Whatever texts are worth, a variable keeps its value exactly if it is not
assigned. -/
theorem after_append_eq_iff (made : List Assignment) :
    (∀ (V : Type) (eval : String → Store V → V) (store : Store V),
      store.after eval (made ++ more) target = store.after eval made target) ↔
      ∀ a ∈ more, a.target ≠ target := by
  constructor
  · intro h
    have hcount := h Nat (fun _ store => store target + 1) fun _ => 0
    rw [after_append] at hcount
    exact not_target_of_after_count hcount
  · intro h V eval store
    rw [after_append]
    exact after_of_not_target h

end Store

end ClosureVtl
