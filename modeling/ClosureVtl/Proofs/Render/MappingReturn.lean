/-
Module: ClosureVtl.Proofs.Render.MappingReturn
Purpose: What a mapping template prints, and when that is the value of its closure.
Main exports:
  Course, Course.fragments, Course.returned, Course.returnsLast, Program.ClosureTakes,
  Program.closureTakes_of_render, mapping_prints_returned_iff
-/
import ClosureVtl.Proofs.Render.MappingLoops

namespace ClosureVtl

/-!
A return of a mapping template appends its JSON text as one more line.  Nothing stops the
template there, so the statements behind a return are printed as well.  The source stops at the
first return that it reaches.

The body of a closure is described by the course that it takes: which statements return, which
branch, and the lines in between.  What the lines print and what the source returns are then
two functions of the course and of the truth values of the branches.  They agree on all truth
values exactly if no statement that may return is followed by another one.
-/

/-! ### Courses -/

/-- The statements of a closure with the texts that they are written with. -/
inductive Course where
  | skip
  /-- a statement that cannot return, by its lines -/
  | quiet (lines : List String)
  /-- a return, by the lines in front of its text -/
  | returns (lines : List String) (fragment : String)
  | seq (first next : Course)
  /-- a branch, by the lines in front of it -/
  | guarded (lines : List String) (condition : String) (yes : Course)
  | choice (lines : List String) (condition : String) (yes no : Course)
deriving DecidableEq, Repr

/-- Lines that print nothing, whatever stands around them. -/
structure Hushed (lines : List String) : Prop where
  balanced : Balanced lines
  mute : ∀ line ∈ lines, Mute line

namespace Course

/-- The lines of a course. -/
def lines : Course → List String
  | skip => []
  | quiet lines => lines
  | returns lines fragment => lines ++ [fragment]
  | seq first next => first.lines ++ next.lines
  | guarded lines condition yes => lines ++ s!"#if({condition})" :: (yes.lines ++ ["#end"])
  | choice lines condition yes no =>
    lines ++ s!"#if({condition})" :: (yes.lines ++ "#else" :: (no.lines ++ ["#end"]))

/-- The texts of all returns on the path through a course, branches numbered from `count` on.
The path goes on behind a return. -/
def fragments (truth : Nat → Bool) : Nat → Course → List String
  | _, skip | _, quiet _ => []
  | _, returns _ fragment => [fragment]
  | count, seq first next =>
    first.fragments truth count ++ next.fragments truth (count + branches first.lines)
  | count, guarded lines _ yes =>
    if truth (count + branches lines) then yes.fragments truth (count + branches lines + 1) else []
  | count, choice lines _ yes no =>
    if truth (count + branches lines) then yes.fragments truth (count + branches lines + 1)
    else no.fragments truth (count + branches lines + 1 + branches yes.lines)

/-- The text of the first return that the source reaches; it stops there. -/
def returned (truth : Nat → Bool) : Nat → Course → Option String
  | _, skip | _, quiet _ => none
  | _, returns _ fragment => some fragment
  | count, seq first next =>
    match first.returned truth count with
    | some fragment => some fragment
    | none => next.returned truth (count + branches first.lines)
  | count, guarded lines _ yes =>
    if truth (count + branches lines) then yes.returned truth (count + branches lines + 1) else none
  | count, choice lines _ yes no =>
    if truth (count + branches lines) then yes.returned truth (count + branches lines + 1)
    else no.returned truth (count + branches lines + 1 + branches yes.lines)

/-- Whether a course has a return at all. -/
def hasReturn : Course → Bool
  | skip | quiet _ => false
  | returns _ _ => true
  | seq first next => first.hasReturn || next.hasReturn
  | guarded _ _ yes => yes.hasReturn
  | choice _ _ yes no => yes.hasReturn || no.hasReturn

/-- Whether no statement that may return is followed by another one. -/
def returnsLast : Course → Bool
  | skip | quiet _ | returns _ _ => true
  | seq first next =>
    first.returnsLast && next.returnsLast && !(first.hasReturn && next.hasReturn)
  | guarded _ _ yes => yes.returnsLast
  | choice _ _ yes no => yes.returnsLast && no.returnsLast

/-- Whether the lines of a course print the texts of its returns and nothing else. -/
def Printable : Course → Prop
  | skip => True
  | quiet lines => Hushed lines
  | returns lines fragment => Hushed lines ∧ Printed fragment
  | seq first next => first.Printable ∧ next.Printable
  | guarded lines _ yes => Hushed lines ∧ yes.Printable
  | choice lines _ yes no => Hushed lines ∧ yes.Printable ∧ no.Printable

attribute [simp] lines fragments returned

variable {course : Course} {truth other : Nat → Bool} {count : Nat}

/-! ### What a course prints -/

/-- Hushed lines print nothing, wherever they stand. -/
theorem prints_hushed {lines : List String} {pace : Pace} (h : Hushed lines) :
    Prints truth count pace lines [] :=
  .of_balanced h.balanced h.mute

/-- Where a course is not reached it prints nothing. -/
theorem prints_never (h : course.Printable) : Prints truth count .never course.lines [] := by
  induction course generalizing count with
  | skip => exact .nil
  | quiet lines => exact prints_hushed h
  | returns lines fragment => exact (prints_hushed h.1).append (.skipped h.2)
  | seq first next ihFirst ihNext => exact (ihFirst h.1).append (ihNext h.2)
  | guarded lines condition yes ih =>
    exact (prints_hushed h.1).append
      (.guarded (lineRole_openBranch condition) lineRole_close (ih h.2))
  | choice lines condition yes no ihYes ihNo =>
    have hblock : Prints truth (count + branches lines) .never
        (s!"#if({condition})" :: (yes.lines ++ "#else" :: (no.lines ++ ["#end"]))) ([] ++ []) :=
      .alternatives (lineRole_openBranch condition) lineRole_alternative lineRole_close
        (ihYes h.2.1) (ihNo h.2.2)
    exact (prints_hushed h.1).append hblock

/-- Where it is reached it prints the texts of all returns on its path. -/
theorem prints_lines (h : course.Printable) :
    Prints truth count .once course.lines (course.fragments truth count) := by
  induction course generalizing count with
  | skip => exact .nil
  | quiet lines => exact prints_hushed h
  | returns lines fragment => exact (prints_hushed h.1).append (.fragment h.2)
  | seq first next ihFirst ihNext => exact (ihFirst h.1).append (ihNext h.2)
  | guarded lines condition yes ih =>
    refine (prints_hushed h.1).append
      (.guarded (lineRole_openBranch condition) lineRole_close ?_)
    cases htruth : truth (count + branches lines) with
    | true => exact ih h.2
    | false => exact prints_never h.2
  | choice lines condition yes no ihYes ihNo =>
    have hblock : ∀ {printed others : List String},
        Prints truth (count + branches lines + 1)
          (Pace.once.inBranch (truth (count + branches lines))) yes.lines printed →
        Prints truth (count + branches lines + 1 + branches yes.lines)
          (Pace.once.inBranch (!truth (count + branches lines))) no.lines others →
        Prints truth count .once (choice lines condition yes no).lines ([] ++ (printed ++ others)) :=
      fun hyes hno => (prints_hushed h.1).append
        (.alternatives (lineRole_openBranch condition) lineRole_alternative lineRole_close hyes hno)
    rw [fragments]
    cases htruth : truth (count + branches lines) with
    | true =>
      rw [htruth] at hblock
      have hprints := hblock (ihYes h.2.1) (prints_never h.2.2)
      rwa [List.append_nil] at hprints
    | false =>
      rw [htruth] at hblock
      exact hblock (prints_never h.2.1) (ihNo h.2.2)

/-! ### What is returned -/

/-- The source returns what is printed first. -/
theorem returned_eq_head? : course.returned truth count = (course.fragments truth count).head? := by
  induction course generalizing count with
  | skip | quiet lines => rfl
  | returns lines fragment => rfl
  | seq first next ihFirst ihNext =>
    rw [returned, fragments, ihFirst, ihNext]
    cases first.fragments truth count <;> rfl
  | guarded lines condition yes ih =>
    rw [returned, fragments, ih]
    split <;> rfl
  | choice lines condition yes no ihYes ihNo =>
    rw [returned, fragments, ihYes, ihNo]
    split <;> rfl

/-- Only the truth values of its own branches matter to a course. -/
theorem fragments_congr
    (h : ∀ number, count ≤ number → number < count + branches course.lines →
      truth number = other number) : course.fragments truth count = course.fragments other count := by
  induction course generalizing count with
  | skip | quiet lines => rfl
  | returns lines fragment => rfl
  | seq first next ihFirst ihNext =>
    rw [lines, branches_append] at h
    rw [fragments, fragments, ihFirst fun number hle hlt => h number hle (by omega),
      ihNext fun number hle hlt => h number (by omega) (by omega)]
  | guarded lines condition yes ih =>
    rw [Course.lines, branches_append, branches_cons, branches_append, lineRole_openBranch] at h
    simp only [if_true] at h
    rw [fragments, fragments, h (count + branches lines) (by omega) (by omega),
      ih fun number hle hlt => h number (by omega) (by omega)]
  | choice lines condition yes no ihYes ihNo =>
    rw [Course.lines, branches_append, branches_cons, branches_append, branches_cons,
      branches_append, lineRole_openBranch] at h
    simp only [if_true] at h
    rw [fragments, fragments, h (count + branches lines) (by omega) (by omega),
      ihYes fun number hle hlt => h number (by omega) (by omega),
      ihNo fun number hle hlt => h number (by omega) (by omega)]

/-- Without a return nothing is printed. -/
theorem fragments_of_no_return (h : course.hasReturn = false) :
    course.fragments truth count = [] := by
  induction course generalizing count with
  | skip | quiet lines => rfl
  | returns lines fragment => cases h
  | seq first next ihFirst ihNext =>
    obtain ⟨hfirst, hnext⟩ := Bool.or_eq_false_iff.mp h
    rw [fragments, ihFirst hfirst, ihNext hnext]
    rfl
  | guarded lines condition yes ih => rw [fragments, ih h, ite_self]
  | choice lines condition yes no ihYes ihNo =>
    obtain ⟨hyes, hno⟩ := Bool.or_eq_false_iff.mp h
    rw [fragments, ihYes hyes, ihNo hno, ite_self]

/-- If the statements that may return are last, at most one text is printed. -/
theorem length_fragments_le (h : course.returnsLast = true) :
    (course.fragments truth count).length ≤ 1 := by
  induction course generalizing count with
  | skip | quiet lines => exact Nat.zero_le 1
  | returns lines fragment => exact Nat.le_refl 1
  | seq first next ihFirst ihNext =>
    simp only [returnsLast, Bool.and_eq_true, Bool.not_eq_true', Bool.and_eq_false_iff] at h
    obtain ⟨⟨hfirst, hnext⟩, hnone | hnone⟩ := h
    · rw [fragments, fragments_of_no_return hnone]
      exact ihNext hnext
    · rw [fragments, fragments_of_no_return hnone, List.append_nil]
      exact ihFirst hfirst
  | guarded lines condition yes ih =>
    rw [fragments]
    split
    · exact ih h
    · exact Nat.zero_le 1
  | choice lines condition yes no ihYes ihNo =>
    obtain ⟨hyes, hno⟩ := Bool.and_eq_true_iff.mp h
    rw [fragments]
    split
    · exact ihYes hyes
    · exact ihNo hno

/-! ### Paths with returns

The truth values of different branches are independent.  So a path can be put together from
paths through the parts of a course.
-/

/-- The truth value of an earlier branch does not matter. -/
theorem fragments_update {place : Nat} (h : place < count) (value : Bool) :
    course.fragments (Function.update truth place value) count = course.fragments truth count :=
  fragments_congr fun number hle _ => Function.update_of_ne (by omega) value truth

/-- Whether at least so many returns are reached on some path. -/
def Reaches (course : Course) (number count : Nat) : Prop :=
  ∃ truth, number ≤ (course.fragments truth count).length

namespace Reaches

variable {front next yes no : Course} {lines : List String} {condition : String}
  {few more number : Nat}

/-- Where no return is asked for, any path will do. -/
theorem zero : course.Reaches 0 count := ⟨fun _ => true, Nat.zero_le _⟩

/-- The second half takes its truth values behind those of the first. -/
theorem seq (h : front.Reaches few count) (h' : next.Reaches more (count + branches front.lines))
    (hle : number ≤ few + more) : (Course.seq front next).Reaches number count := by
  obtain ⟨start, hstart⟩ := h
  obtain ⟨stop, hstop⟩ := h'
  refine ⟨fun place => if place < count + branches front.lines then start place else stop place, ?_⟩
  rw [fragments, fragments_congr fun place _ hlt => if_pos hlt,
    fragments_congr fun place hle _ => if_neg (Nat.not_lt.mpr hle), List.length_append]
  omega

/-- The guarded half is entered where the condition is true. -/
theorem guarded (h : yes.Reaches number (count + branches lines + 1)) :
    (Course.guarded lines condition yes).Reaches number count := by
  obtain ⟨truth, h⟩ := h
  refine ⟨Function.update truth (count + branches lines) true, ?_⟩
  rw [fragments, Function.update_self, if_pos rfl, fragments_update (Nat.lt_succ_self _)]
  exact h

/-- So is the first half of a choice. -/
theorem first (h : yes.Reaches number (count + branches lines + 1)) :
    (Course.choice lines condition yes no).Reaches number count := by
  obtain ⟨truth, h⟩ := h
  refine ⟨Function.update truth (count + branches lines) true, ?_⟩
  rw [fragments, Function.update_self, if_pos rfl, fragments_update (Nat.lt_succ_self _)]
  exact h

/-- The second half is entered where the condition is false; its truth values come behind those
of the first. -/
theorem second (h : no.Reaches number (count + branches lines + 1 + branches yes.lines)) :
    (Course.choice lines condition yes no).Reaches number count := by
  obtain ⟨truth, h⟩ := h
  refine ⟨Function.update truth (count + branches lines) false, ?_⟩
  rw [fragments, Function.update_self, if_neg Bool.false_ne_true, fragments_update (by omega)]
  exact h

end Reaches

/-- A course with a return has a path on which it is reached. -/
theorem reaches_of_hasReturn (h : course.hasReturn = true) (count : Nat) :
    course.Reaches 1 count := by
  induction course generalizing count with
  | skip | quiet lines => cases h
  | returns lines fragment => exact ⟨fun _ => true, Nat.le_refl 1⟩
  | seq first next ihFirst ihNext =>
    rcases Bool.or_eq_true_iff.mp h with h | h
    · exact (ihFirst h count).seq .zero (Nat.le_refl 1)
    · exact Reaches.zero.seq (ihNext h _) (Nat.le_refl 1)
  | guarded lines condition yes ih => exact .guarded (ih h _)
  | choice lines condition yes no ihYes ihNo =>
    rcases Bool.or_eq_true_iff.mp h with h | h
    · exact .first (ihYes h _)
    · exact .second (ihNo h _)

/-- If a statement that may return is followed by another one, both are reached on some path. -/
theorem reaches_of_not_returnsLast (h : course.returnsLast = false) (count : Nat) :
    course.Reaches 2 count := by
  induction course generalizing count with
  | skip | quiet lines => cases h
  | returns lines fragment => cases h
  | seq first next ihFirst ihNext =>
    simp only [returnsLast, Bool.and_eq_false_iff, Bool.not_eq_false', Bool.and_eq_true] at h
    obtain (hfirst | hnext) | ⟨hfirst, hnext⟩ := h
    · exact (ihFirst hfirst count).seq .zero (Nat.le_refl 2)
    · exact Reaches.zero.seq (ihNext hnext _) (Nat.le_refl 2)
    · exact (reaches_of_hasReturn hfirst count).seq (reaches_of_hasReturn hnext _) (Nat.le_refl 2)
  | guarded lines condition yes ih => exact .guarded (ih h _)
  | choice lines condition yes no ihYes ihNo =>
    rcases Bool.and_eq_false_iff.mp h with h | h
    · exact .first (ihYes h _)
    · exact .second (ihNo h _)

/-- What is printed is what the source returns, on every path on which it returns, exactly if
the statements that may return are last. -/
theorem prints_returned_iff :
    (∀ truth fragment, course.returned truth count = some fragment →
      course.fragments truth count = [fragment]) ↔ course.returnsLast = true := by
  constructor
  · intro h
    by_contra hlast
    obtain ⟨truth, hlong⟩ := reaches_of_not_returnsLast (Bool.eq_false_iff.mpr hlast) count
    match hfragments : course.fragments truth count, hlong with
    | fragment :: next :: rest, _ =>
      have hreturned : course.returned truth count = some fragment := by
        rw [returned_eq_head?, hfragments]
        rfl
      have hone := h truth fragment hreturned
      rw [hfragments] at hone
      cases hone
  · intro hlast truth fragment hreturned
    have hshort : (course.fragments truth count).length ≤ 1 := length_fragments_le hlast
    rw [returned_eq_head?] at hreturned
    match hfragments : course.fragments truth count, hshort with
    | [], _ =>
      rw [hfragments] at hreturned
      cases hreturned
    | [only], _ =>
      rw [hfragments] at hreturned
      cases hreturned
      rfl

end Course

/-! ### Courses of closures -/

namespace Program

/-- Whether a step of rendering can yield a value and append these lines. -/
def Writes {α : Type} (p : Program) (dialect : Dialect) (step : Walker → Render α) (value : α)
    (lines : List String) : Prop :=
  ∃ n out final, (step (p.walkerWithin dialect n)).runOn out = (.ok value, final) ∧
    final.lines.toList = out.lines.toList ++ lines

mutual

/-- Whether a statement takes a course: its structure, and the lines and texts that its
conditions, its values and the statements that cannot return are rendered to. -/
inductive Takes (p : Program) (dialect : Dialect) : NodeId → Course → Prop where
  | block {id : NodeId} {statements : List NodeId} {course : Course}
      (node : p.arena.get? id = some (.block statements))
      (inner : TakesAll p dialect statements course) : Takes p dialect id course
  | guarded {id test yes : NodeId} {lines : List String} {condition : String} {course : Course}
      (node : p.arena.get? id = some (.branch test yes none))
      (text : p.Writes dialect (fun w => w.expression test) condition lines)
      (first : Takes p dialect yes course) :
      Takes p dialect id (.guarded lines condition course)
  | choice {id test yes no : NodeId} {lines : List String} {condition : String}
      {course other : Course} (node : p.arena.get? id = some (.branch test yes (some no)))
      (text : p.Writes dialect (fun w => w.expression test) condition lines)
      (first : Takes p dialect yes course) (second : Takes p dialect no other) :
      Takes p dialect id (.choice lines condition course other)
  | declaration {id name : NodeId} {kind : DeclKind} {value : Option NodeId} {lines : List String}
      (node : p.arena.get? id = some (.declaration kind name value))
      (written : p.Writes dialect (fun w => w.statement id none) () lines) :
      Takes p dialect id (.quiet lines)
  | expression {id expr : NodeId} {lines : List String}
      (node : p.arena.get? id = some (.exprStatement expr))
      (written : p.Writes dialect (fun w => w.statement id none) () lines) :
      Takes p dialect id (.quiet lines)
  | returnsNothing {id : NodeId} (node : p.arena.get? id = some (.returnValue none)) :
      Takes p dialect id (.returns [] "null")
  | returns {id expr : NodeId} {lines : List String} {fragment : String}
      (node : p.arena.get? id = some (.returnValue (some expr)))
      (text : p.Writes dialect (fun w => w.fragment expr) fragment lines) :
      Takes p dialect id (.returns lines fragment)

/-- Whether a list of statements takes a course. -/
inductive TakesAll (p : Program) (dialect : Dialect) : List NodeId → Course → Prop where
  | nil : TakesAll p dialect [] .skip
  | cons {id : NodeId} {rest : List NodeId} {first next : Course}
      (head : Takes p dialect id first) (tail : TakesAll p dialect rest next) :
      TakesAll p dialect (id :: rest) (.seq first next)

end

/-- Whether a closure takes a course: that of its block, or the return of its expression. -/
inductive ClosureTakes (p : Program) (dialect : Dialect) : NodeId → Course → Prop where
  | block {root body : NodeId} {parameters statements : List NodeId} {course : Course}
      (closure : p.arena.get? root = some (.function parameters body))
      (node : p.arena.get? body = some (.block statements))
      (inner : p.Takes dialect body course) : ClosureTakes p dialect root course
  | value {root body : NodeId} {parameters : List NodeId} {lines : List String} {fragment : String}
      (closure : p.arena.get? root = some (.function parameters body))
      (node : ∀ statements, p.arena.get? body ≠ some (.block statements))
      (text : p.Writes dialect (fun w => w.fragment body) fragment lines) :
      ClosureTakes p dialect root (.returns lines fragment)

variable {p : Program} {direction : Direction} {config : MappingConfig} {id : NodeId}
  {out final : Output} {n : Nat}

/-! ### What rendering a closure writes -/

/-- Lines that are mute and closed in themselves are hushed.  What tells the one may be a part
of the step that tells the other. -/
theorem hushed_of_adds {α β : Type} {x : Render α} {y : Render β} {loops : Prop} {value : α}
    {result : β} (hadds : x.Adds Mute loops) (hturns : y.Turns [] [])
    (hx : x.runOn out = (.ok value, final)) (hy : y.runOn out = (.ok result, final)) :
    ∃ lines, final.lines.toList = out.lines.toList ++ lines ∧ Hushed lines := by
  obtain ⟨lines, hlines, hmute, -⟩ := hadds out value final hx
  obtain ⟨others, hothers, hscan⟩ := hturns out result final hy
  rw [hlines] at hothers
  cases List.append_cancel_left hothers
  exact ⟨lines, hlines, balanced_iff_scanLines.mpr hscan, hmute⟩

/-- Whether the lines that are written between two outputs are those of a course that a
statement of a mapping template takes. -/
def WritesCourse (p : Program) (direction : Direction) (config : MappingConfig) (id : NodeId)
    (out final : Output) : Prop :=
  ∃ course, p.Takes (.mapping direction config) id course ∧ course.Printable ∧
    final.lines.toList = out.lines.toList ++ course.lines

/-- The course of statements in a row, from those of each. -/
theorem exists_takesAll {step : NodeId → Render Unit} {statements : List NodeId}
    (hstep : ∀ id out final, (step id).runOn out = (.ok (), final) →
      p.WritesCourse direction config id out final)
    (h : (statements.forM step).runOn out = (.ok (), final)) :
    ∃ course, p.TakesAll (.mapping direction config) statements course ∧ course.Printable ∧
      final.lines.toList = out.lines.toList ++ course.lines := by
  induction statements generalizing out with
  | nil =>
    cases h
    exact ⟨.skip, .nil, trivial, (List.append_nil _).symm⟩
  | cons id rest ih =>
    obtain ⟨_, middle, hfirst, hrest⟩ := Render.runOn_bind_eq_ok_iff.mp h
    obtain ⟨first, htakes, hprintable, hlines⟩ := hstep id out middle hfirst
    obtain ⟨next, htakes', hprintable', hlines'⟩ := ih hrest
    refine ⟨.seq first next, .cons htakes htakes', ⟨hprintable, hprintable'⟩, ?_⟩
    rw [hlines', hlines, Course.lines, List.append_assoc]

section

variable (ht : ∀ integration ∈ p.integrations, integration.Quiet)
include ht

/-- The lines of an expression print nothing. -/
theorem hushed_of_expression {text : String}
    (h : ((p.walkerWithin (.mapping direction config) n).expression id).runOn out =
      (.ok text, final)) :
    ∃ lines, final.lines.toList = out.lines.toList ++ lines ∧ Hushed lines :=
  hushed_of_adds ((mutes_walkerWithin ht n).expression id)
    ((mapping_keepsBlocks_walkerWithin ht n).expression id []) h h

/-- Neither do those in front of a fragment. -/
theorem hushed_of_fragment {text : String}
    (h : ((p.walkerWithin (.mapping direction config) n).fragment id).runOn out =
      (.ok text, final)) :
    ∃ lines, final.lines.toList = out.lines.toList ++ lines ∧ Hushed lines :=
  hushed_of_adds ((mutes_walkerWithin ht n).fragment id)
    ((mapping_keepsBlocks_walkerWithin ht n).fragment id []) h h

/-- The text of a value is printed, behind lines that print nothing. -/
theorem writes_of_returned
    (h : ((p.walkerWithin (.mapping direction config) n).returned (some id)).runOn out =
      (.ok (), final)) :
    ∃ lines fragment, p.Writes (.mapping direction config) (fun w => w.fragment id) fragment lines ∧
      (Course.returns lines fragment).Printable ∧
      final.lines.toList = out.lines.toList ++ (Course.returns lines fragment).lines := by
  unfold Walker.returned at h
  rw [p.dialect_walkerWithin] at h
  obtain ⟨fragment, middle, hfragment, h⟩ := Render.runOn_bind_eq_ok_iff.mp h
  obtain ⟨lines, hlines, hhushed⟩ := hushed_of_fragment ht hfragment
  have hprinted : Printed fragment :=
    (utters_walkerWithin ht n).fragment id fragment ⟨out, middle, hfragment⟩
  refine ⟨lines, fragment, ⟨n, out, middle, hfragment, hlines⟩, ⟨hhushed, hprinted⟩, ?_⟩
  rw [Render.runOn_emit_eq_ok_iff.mp h, Array.toList_push, hlines, List.append_assoc]
  rfl

/-- A return prints its fragment behind lines that print nothing. -/
theorem writesCourse_of_return {value : Option NodeId}
    (node : p.arena.get? id = some (.returnValue value))
    (h : ((p.walkerWithin (.mapping direction config) n).returned value).runOn out =
      (.ok (), final)) : p.WritesCourse direction config id out final := by
  cases value with
  | none =>
    unfold Walker.returned at h
    rw [p.dialect_walkerWithin] at h
    refine ⟨.returns [] "null", .returnsNothing node, ⟨⟨.nil, by simp⟩, Walker.printed_null⟩, ?_⟩
    rw [Render.runOn_emit_eq_ok_iff.mp h]
    exact Array.toList_push
  | some expr =>
    obtain ⟨lines, fragment, hwrites, hprintable, hlines⟩ := writes_of_returned ht h
    exact ⟨.returns lines fragment, .returns node hwrites, hprintable, hlines⟩

/-- A branch is a choice between the courses of its two halves. -/
theorem writesCourse_of_branch {test yes : NodeId} {no : Option NodeId}
    (node : p.arena.get? id = some (.branch test yes no))
    (hstatement : ∀ id out final,
      ((p.walkerWithin (.mapping direction config) n).statement id none).runOn out =
        (.ok (), final) → p.WritesCourse direction config id out final)
    (h : ((p.walkerWithin (.mapping direction config) n).branch test yes no none).runOn out =
      (.ok (), final)) : p.WritesCourse direction config id out final := by
  obtain ⟨text, middle, htext, h⟩ := Render.runOn_bind_eq_ok_iff.mp h
  obtain ⟨lines, hfront, hhushed⟩ := hushed_of_expression ht htext
  have hwrites : p.Writes (.mapping direction config) (fun w => w.expression test) text lines :=
    ⟨n, out, middle, htext, hfront⟩
  cases no with
  | none =>
    obtain ⟨opened, closed, hbody, hopened, hfinal⟩ := Render.toList_of_guarded h
    obtain ⟨course, htakes, hprintable, hlines⟩ := hstatement yes opened closed hbody
    refine ⟨.guarded lines text course, .guarded node hwrites htakes, ⟨hhushed, hprintable⟩, ?_⟩
    rw [hfinal, hlines, hopened, hfront]
    simp [Course.lines]
  | some no =>
    obtain ⟨opened, turned, resumed, closed, hfirst, hsecond, hopened, hresumed, hfinal⟩ :=
      Render.toList_of_choice h
    obtain ⟨course, htakes, hprintable, hlines⟩ := hstatement yes opened turned hfirst
    obtain ⟨other, htakes', hprintable', hlines'⟩ := hstatement no resumed closed hsecond
    refine ⟨.choice lines text course other, .choice node hwrites htakes htakes',
      ⟨hhushed, hprintable, hprintable'⟩, ?_⟩
    rw [hfinal, hlines', hresumed, hlines, hopened, hfront]
    simp [Course.lines]

/-- A successful run of a statement writes the lines of a course that it takes. -/
theorem writesCourse_of_statement
    (h : ((p.walkerWithin (.mapping direction config) n).statement id none).runOn out =
      (.ok (), final)) : p.WritesCourse direction config id out final := by
  induction n generalizing id out final with
  | zero => exact absurd ⟨out, final, h⟩ Render.not_yields_fault
  | succ n ih =>
    have hblocks : Render.Turns ((p.walkerWithin (.mapping direction config) (n + 1)).statement
        id none) [] [] := (mapping_keepsBlocks_walkerWithin ht (n + 1)).statement id none []
    have hrun : ((p.walkerWithin (.mapping direction config) n).renderStatement id none).runOn out =
        (.ok (), final) := h
    obtain ⟨node, start, hnode, hrun⟩ := Render.runOn_bind_eq_ok_iff.mp hrun
    obtain ⟨hget, rfl⟩ := get?_of_node hnode
    -- a statement without a return is quiet, whatever its lines are
    have hquiet : ∀ {x : Render Unit} {loops : Prop}, x.Adds Mute loops →
        x.runOn start = (.ok (), final) →
        ∃ lines, p.Writes (.mapping direction config) (fun w => w.statement id none) () lines ∧
          final.lines.toList = start.lines.toList ++ lines ∧ Hushed lines := by
      intro x loops hadds hx
      obtain ⟨lines, hlines, hhushed⟩ := hushed_of_adds hadds hblocks hx h
      exact ⟨lines, ⟨n + 1, start, final, h, hlines⟩, hlines, hhushed⟩
    cases node with
    | block statements =>
      obtain ⟨course, htakes, hprintable, hlines⟩ :=
        exists_takesAll (fun _ _ _ hstatement => ih hstatement) hrun
      exact ⟨course, .block hget htakes, hprintable, hlines⟩
    | exprStatement expr =>
      obtain ⟨lines, hwrites, hlines, hhushed⟩ :=
        hquiet ((mutes_walkerWithin ht n).expressionStatement expr) hrun
      exact ⟨.quiet lines, .expression hget hwrites, hhushed, hlines⟩
    | declaration kind name value =>
      obtain ⟨lines, hwrites, hlines, hhushed⟩ :=
        hquiet ((mutes_walkerWithin ht n).declare name value) hrun
      exact ⟨.quiet lines, .declaration hget hwrites, hhushed, hlines⟩
    | branch test yes no =>
      exact writesCourse_of_branch ht hget (fun _ _ _ hstatement => ih hstatement) hrun
    | returnValue value => exact writesCourse_of_return ht hget hrun
    | forOf binding iterable body | forIn binding iterable body | breakLoop =>
      exact absurd (h.symm.trans (runOn_statement_needsLoop hget (by constructor) none start))
        (by simp)
    | _ => exact absurd ⟨start, final, hrun⟩ Render.not_yields_fault

omit ht in
/-- The parameters of a closure are looked at, and nothing is written for them. -/
theorem eq_of_checkRootParameters {parameters : List NodeId} {w : Walker}
    (h : (parameters.forM w.checkRootParameter).runOn out = (.ok (), final)) : final = out := by
  induction parameters generalizing out with
  | nil =>
    cases h
    rfl
  | cons parameter rest ih =>
    obtain ⟨_, middle, hfirst, hrest⟩ := Render.runOn_bind_eq_ok_iff.mp h
    obtain ⟨node, start, hnode, hchecked⟩ := Render.runOn_bind_eq_ok_iff.mp hfirst
    obtain ⟨-, rfl⟩ := Render.runOn_ofExcept_eq_ok_iff.mp hnode
    have hmiddle : middle = start := by
      split at hchecked
      · obtain ⟨name, start, hname, hnamed⟩ := Render.runOn_bind_eq_ok_iff.mp hchecked
        obtain ⟨-, rfl⟩ := Render.runOn_ofExcept_eq_ok_iff.mp hname
        split at hnamed
        · cases hnamed
          rfl
        · exact absurd ⟨_, _, hnamed⟩ Render.not_yields_fault
      · cases hchecked
        rfl
    rw [ih hrest, hmiddle]

/-- So does a closure. -/
theorem closureTakes_of_render {root body : NodeId} {parameters : List NodeId}
    (closure : p.arena.get? root = some (.function parameters body))
    (h : p.render (.mapping direction config) root = .ok out) :
    ∃ course, p.ClosureTakes (.mapping direction config) root course ∧ course.Printable ∧
      out.lines.toList = course.lines := by
  have hrun := render_eq_ok_iff_runOn.mp h
  obtain ⟨node, start, hnode, hrun⟩ := Render.runOn_bind_eq_ok_iff.mp hrun
  obtain ⟨hget, rfl⟩ := get?_of_node hnode
  cases Option.some.inj (hget.symm.trans closure)
  obtain ⟨_, checked, hchecked, hrun⟩ := Render.runOn_bind_eq_ok_iff.mp hrun
  obtain rfl := eq_of_checkRootParameters hchecked
  obtain ⟨node, start, hnode, hbranch⟩ := Render.runOn_bind_eq_ok_iff.mp hrun
  obtain ⟨hbody, rfl⟩ := get?_of_node hnode
  cases hblock : Walker.isBlock node with
  | true =>
    rw [hblock] at hbranch
    obtain ⟨course, htakes, hprintable, hlines⟩ := writesCourse_of_statement ht hbranch
    cases node with
    | block statements => exact ⟨course, .block closure hbody htakes, hprintable, hlines⟩
    | _ => cases hblock
  | false =>
    rw [hblock] at hbranch
    obtain ⟨lines, fragment, hwrites, hprintable, hlines⟩ := writes_of_returned ht hbranch
    refine ⟨.returns lines fragment, .value closure ?_ hwrites, hprintable, hlines⟩
    intro statements hstatements
    cases Option.some.inj (hbody.symm.trans hstatements)
    cases hblock

end

end Program

/-! ### One value -/

/-- A mapping template prints the texts of all returns on the path through its closure; the
source stops at the first of them.  So it prints exactly what the source returns, whatever the
truth values of its branches are, if and only if no statement that may return is followed by
another one. -/
theorem mapping_prints_returned_iff {p : Program} {direction : Direction} {config : MappingConfig}
    (ht : ∀ integration ∈ p.integrations, integration.Quiet) {root body : NodeId}
    {parameters : List NodeId} (closure : p.arena.get? root = some (.function parameters body))
    {out : Output} (h : p.render (.mapping direction config) root = .ok out) :
    ∃ course, p.ClosureTakes (.mapping direction config) root course ∧
      out.lines.toList = course.lines ∧
      (∀ truth, (print truth {} out.lines.toList).map Prod.snd = some (course.fragments truth 0)) ∧
      ((∀ truth fragment, course.returned truth 0 = some fragment →
          (print truth {} out.lines.toList).map Prod.snd = some [fragment]) ↔
        course.returnsLast = true) := by
  obtain ⟨course, htakes, hprintable, hlines⟩ := Program.closureTakes_of_render ht closure h
  have hprint : ∀ truth, (print truth {} out.lines.toList).map Prod.snd =
      some (course.fragments truth 0) := by
    intro truth
    have hprints : Prints truth 0 .once course.lines (course.fragments truth 0) :=
      Course.prints_lines hprintable
    rw [hlines, hprints []]
    rfl
  refine ⟨course, htakes, hlines, hprint, ?_⟩
  have hiff : (∀ truth fragment, course.returned truth 0 = some fragment →
      course.fragments truth 0 = [fragment]) ↔ course.returnsLast = true :=
    Course.prints_returned_iff
  rw [← hiff]
  simp only [hprint, Option.some.injEq]

/-- The closure `input => { if (input.ok) { return true; } return false; }`. -/
def Program.earlyReturn : Program :=
  (Builder.of []
    [.identifier "input", .member ⟨0⟩ "ok", .boolean true, .returnValue (some ⟨2⟩), .block [⟨3⟩],
      .branch ⟨1⟩ ⟨4⟩ none, .boolean false, .returnValue (some ⟨6⟩), .block [⟨5⟩, ⟨7⟩],
      .identifier "input", .parameter ⟨9⟩ none, .function [⟨10⟩] ⟨8⟩]).program

theorem Program.quiet_earlyReturn :
    ∀ integration ∈ Program.earlyReturn.integrations, integration.Quiet := by
  have hnone : Program.earlyReturn.integrations = #[] := by cbv
  rw [hnone]
  simp

theorem Program.closure_earlyReturn :
    Program.earlyReturn.arena.get? ⟨11⟩ = some (.function [⟨10⟩] ⟨8⟩) := by
  cbv

theorem Program.lines_earlyReturn :
    (Program.earlyReturn.render (.mapping .request {}) ⟨11⟩).toOption.map
      (fun out => out.lines.toList) =
        some ["#if($input.path('$').ok)", "true", "#end", "false"] := by
  decide +kernel

/-- Its course has two returns one after the other. -/
theorem mapping_prints_returned_iff_earlyReturn :
    ∃ out course, Program.earlyReturn.render (.mapping .request {}) ⟨11⟩ = .ok out ∧
      Program.earlyReturn.ClosureTakes (.mapping .request {}) ⟨11⟩ course ∧
      out.lines.toList = course.lines ∧
      (∀ truth, (print truth {} out.lines.toList).map Prod.snd = some (course.fragments truth 0)) ∧
      ((∀ truth fragment, course.returned truth 0 = some fragment →
          (print truth {} out.lines.toList).map Prod.snd = some [fragment]) ↔
        course.returnsLast = true) := by
  have hlines := Program.lines_earlyReturn
  rcases hrender : Program.earlyReturn.render (.mapping .request {}) ⟨11⟩ with fault | out
  · rw [hrender] at hlines
    cases hlines
  · obtain ⟨course, hcourse⟩ := mapping_prints_returned_iff Program.quiet_earlyReturn
      Program.closure_earlyReturn hrender
    exact ⟨out, course, rfl, hcourse⟩

/-- If its condition is true, `true` is returned, and `false` is printed behind it. -/
theorem prints_two_earlyReturn :
    Program.earlyReturn.BottomUp ∧ ∃ out course,
      Program.earlyReturn.render (.mapping .request {}) ⟨11⟩ = .ok out ∧
      Program.earlyReturn.ClosureTakes (.mapping .request {}) ⟨11⟩ course ∧
      out.lines.toList = course.lines ∧
      course.returned (fun _ => true) 0 = some "true" ∧
      (print (fun _ => true) {} out.lines.toList).map Prod.snd = some ["true", "false"] := by
  have hlines := Program.lines_earlyReturn
  have htest : Program.earlyReturn.arena.get? ⟨5⟩ = some (.branch ⟨1⟩ ⟨4⟩ none) := by cbv
  have hinner : Program.earlyReturn.arena.get? ⟨4⟩ = some (.block [⟨3⟩]) := by cbv
  have hearly : Program.earlyReturn.arena.get? ⟨3⟩ = some (.returnValue (some ⟨2⟩)) := by cbv
  have hlate : Program.earlyReturn.arena.get? ⟨7⟩ = some (.returnValue (some ⟨6⟩)) := by cbv
  have hbody : Program.earlyReturn.arena.get? ⟨8⟩ = some (.block [⟨5⟩, ⟨7⟩]) := by cbv
  have hcondition : Program.earlyReturn.Writes (.mapping .request {}) (fun w => w.expression ⟨1⟩)
      "$input.path('$').ok" [] := ⟨2, {}, {}, by cbv, rfl⟩
  have htrue : Program.earlyReturn.Writes (.mapping .request {}) (fun w => w.fragment ⟨2⟩)
      "true" [] := ⟨1, {}, {}, by cbv, rfl⟩
  have hfalse : Program.earlyReturn.Writes (.mapping .request {}) (fun w => w.fragment ⟨6⟩)
      "false" [] := ⟨1, {}, {}, by cbv, rfl⟩
  have hguard : Program.earlyReturn.Takes (.mapping .request {}) ⟨5⟩
      (.guarded [] "$input.path('$').ok" (.seq (.returns [] "true") .skip)) :=
    .guarded htest hcondition (.block hinner (.cons (.returns hearly htrue) .nil))
  have htakes : Program.earlyReturn.Takes (.mapping .request {}) ⟨8⟩
      (.seq (.guarded [] "$input.path('$').ok" (.seq (.returns [] "true") .skip))
        (.seq (.returns [] "false") .skip)) :=
    .block hbody (.cons hguard (.cons (.returns hlate hfalse) .nil))
  rcases hrender : Program.earlyReturn.render (.mapping .request {}) ⟨11⟩ with fault | out
  · rw [hrender] at hlines
    cases hlines
  · rw [hrender] at hlines
    have hall : out.lines.toList = _ := Option.some.inj hlines
    refine ⟨Builder.bottomUp_of (by decide) (by cbv), out, _, rfl,
      .block Program.closure_earlyReturn hbody htakes, ?_, rfl, ?_⟩
    · rw [hall]
      rfl
    · rw [hall]
      decide

end ClosureVtl
