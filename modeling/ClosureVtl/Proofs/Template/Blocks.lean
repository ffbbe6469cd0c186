/-
Module: ClosureVtl.Proofs.Template.Blocks
Purpose: The block structure of template lines: which sequences of lines open and
  close their blocks properly.
Main exports:
  LineRole, lineRole, Balanced, OpenBlock, scanLine, scanLines,
  balanced_iff_scanLines, scanLines_append
-/
import ClosureVtl.Render.Output

namespace ClosureVtl

/-!
A template is a list of lines.  Some of them open a loop or a branch, some close
the innermost open block, and some start the alternative of a branch; a line that
opens and closes blocks within itself counts as any other line.

Two descriptions of well-nested lines are given.  The grammar `Balanced` says what
such a sequence is made of.  The scan reads lines one after the other and keeps
the stack of open blocks; it composes along concatenation, which is how a template
grows.  Both describe the same sequences.
-/

/-- The part that a line plays in the block structure. -/
inductive LineRole where
  | plain
  | loop
  | branch
  | alternative
  | close
deriving DecidableEq, Repr

/-- The role of a line.  A branch is opened by a line that ends with its
condition; one that goes on behind it is complete by itself. -/
def lineRole (line : String) : LineRole :=
  if line.toList = "#end".toList then .close
  else if line.toList = "#else".toList then .alternative
  else if "#foreach(".toList.isPrefixOf line.toList then .loop
  else if "#if(".toList.isPrefixOf line.toList && line.toList.getLast? == some ')' then .branch
  else .plain

/-- Lines in which every block that is opened is closed, blocks are nested, and
each alternative belongs to the innermost branch and is its only one. -/
inductive Balanced : List String → Prop where
  | nil : Balanced []
  | plain {line : String} {rest : List String} (role : lineRole line = .plain)
      (tail : Balanced rest) : Balanced (line :: rest)
  | loop {opener closer : String} {body rest : List String} (opens : lineRole opener = .loop)
      (inner : Balanced body) (closes : lineRole closer = .close) (tail : Balanced rest) :
      Balanced (opener :: (body ++ closer :: rest))
  | guarded {opener closer : String} {body rest : List String}
      (opens : lineRole opener = .branch) (inner : Balanced body)
      (closes : lineRole closer = .close) (tail : Balanced rest) :
      Balanced (opener :: (body ++ closer :: rest))
  | choice {opener middle closer : String} {yes no rest : List String}
      (opens : lineRole opener = .branch) (first : Balanced yes)
      (turns : lineRole middle = .alternative) (second : Balanced no)
      (closes : lineRole closer = .close) (tail : Balanced rest) :
      Balanced (opener :: (yes ++ middle :: (no ++ closer :: rest)))

/-! ### The scan -/

/-- A block that is open: a loop, a branch that may still have an alternative, or
the alternative of a branch. -/
inductive OpenBlock where
  | loop
  | branch
  | alternative
deriving DecidableEq, Repr

/-- Reads one line with the open blocks at hand, innermost first. -/
def scanLine (stack : List OpenBlock) (line : String) : Option (List OpenBlock) :=
  match lineRole line, stack with
  | .plain, stack => some stack
  | .loop, stack => some (.loop :: stack)
  | .branch, stack => some (.branch :: stack)
  | .alternative, .branch :: outer => some (.alternative :: outer)
  | .close, _ :: outer => some outer
  | _, _ => none

/-- Reads lines in order. -/
def scanLines (stack : List OpenBlock) (lines : List String) : Option (List OpenBlock) :=
  lines.foldlM scanLine stack

section

variable {stack before middle after : List OpenBlock} {line : String} {lines more : List String}

theorem scanLines_cons :
    scanLines stack (line :: lines) = (scanLine stack line).bind (scanLines · lines) := rfl

/-- The stack behind the first lines is where the others begin. -/
theorem scanLines_append :
    scanLines stack (lines ++ more) = (scanLines stack lines).bind (scanLines · more) :=
  List.foldlM_append

/-- Scans of consecutive lines compose. -/
theorem scanLines_trans (h : scanLines before lines = some middle)
    (h' : scanLines middle more = some after) : scanLines before (lines ++ more) = some after := by
  rw [scanLines_append, h]
  exact h'

/-! ### Balanced lines leave the stack as it is -/

/-- The induction is on how the lines are nested; each form gives the stack back as it took it.
-/
theorem Balanced.scanLines_eq (h : Balanced lines) : scanLines stack lines = some stack := by
  induction h generalizing stack with
  | nil => rfl
  | plain role _ ih =>
    rw [scanLines_cons]
    simp only [scanLine, role]
    exact ih
  | loop opens _ closes _ ihBody ihRest =>
    rw [scanLines_cons]
    simp only [scanLine, opens, Option.bind_some]
    rw [scanLines_append, ihBody, Option.bind_some, scanLines_cons]
    simp only [scanLine, closes]
    exact ihRest
  | guarded opens _ closes _ ihBody ihRest =>
    rw [scanLines_cons]
    simp only [scanLine, opens, Option.bind_some]
    rw [scanLines_append, ihBody, Option.bind_some, scanLines_cons]
    simp only [scanLine, closes]
    exact ihRest
  | choice opens _ turns _ closes _ ihYes ihNo ihRest =>
    rw [scanLines_cons]
    simp only [scanLine, opens, Option.bind_some]
    rw [scanLines_append, ihYes, Option.bind_some, scanLines_cons]
    simp only [scanLine, turns, Option.bind_some]
    rw [scanLines_append, ihNo, Option.bind_some, scanLines_cons]
    simp only [scanLine, closes]
    exact ihRest

/-! ### A scan without leftovers reads balanced lines -/

/-- What is left to read when the given blocks are open: each is closed in turn,
and a branch may first go over to its alternative. -/
def Closes : List OpenBlock → List String → Prop
  | [], lines => Balanced lines
  | .branch :: outer, lines =>
    (∃ body closer rest, lines = body ++ closer :: rest ∧ Balanced body ∧
      lineRole closer = .close ∧ Closes outer rest) ∨
    ∃ yes middle no closer rest, lines = yes ++ middle :: (no ++ closer :: rest) ∧
      Balanced yes ∧ lineRole middle = .alternative ∧ Balanced no ∧
      lineRole closer = .close ∧ Closes outer rest
  | _ :: outer, lines =>
    ∃ body closer rest, lines = body ++ closer :: rest ∧ Balanced body ∧
      lineRole closer = .close ∧ Closes outer rest

/-- Lines that may stand in front of balanced lines may stand in front of any. -/
theorem Closes.prepend (hfront : ∀ {tail}, Balanced tail → Balanced (lines ++ tail))
    (h : Closes stack more) : Closes stack (lines ++ more) := by
  match stack, h with
  | [], h => exact hfront h
  | .branch :: outer, .inl ⟨body, closer, rest, heq, hbody, hcloser, hrest⟩ =>
    refine .inl ⟨lines ++ body, closer, rest, ?_, hfront hbody, hcloser, hrest⟩
    rw [heq, List.append_assoc]
  | .branch :: outer, .inr ⟨yes, middle, no, closer, rest, heq, hyes, hturn⟩ =>
    refine .inr ⟨lines ++ yes, middle, no, closer, rest, ?_, hfront hyes, hturn⟩
    rw [heq, List.append_assoc]
  | .loop :: outer, ⟨body, closer, rest, heq, hbody, hcloser, hrest⟩ =>
    refine ⟨lines ++ body, closer, rest, ?_, hfront hbody, hcloser, hrest⟩
    rw [heq, List.append_assoc]
  | .alternative :: outer, ⟨body, closer, rest, heq, hbody, hcloser, hrest⟩ =>
    refine ⟨lines ++ body, closer, rest, ?_, hfront hbody, hcloser, hrest⟩
    rw [heq, List.append_assoc]

/-- The induction is on the lines; what a line opens is closed by those behind it. -/
theorem closes_of_scanLines (h : scanLines stack lines = some []) : Closes stack lines := by
  induction lines generalizing stack with
  | nil =>
    cases h
    exact Balanced.nil
  | cons line rest ih =>
    rw [scanLines_cons] at h
    obtain ⟨next, hnext, hrest⟩ := Option.bind_eq_some_iff.mp h
    have hcloses := ih hrest
    unfold scanLine at hnext
    split at hnext
    · next role =>
      cases hnext
      have hfront : ∀ {tail}, Balanced tail → Balanced ([line] ++ tail) :=
        fun htail => Balanced.plain role htail
      exact hcloses.prepend hfront
    · next role =>
      cases hnext
      obtain ⟨body, closer, after, rfl, hbody, hcloser, hafter⟩ := hcloses
      have hfront : ∀ {tail}, Balanced tail → Balanced ((line :: (body ++ [closer])) ++ tail) := by
        intro tail htail
        have hblock := Balanced.loop role hbody hcloser htail
        simpa using hblock
      have hwhole := hafter.prepend hfront
      simpa using hwhole
    · next role =>
      cases hnext
      rcases hcloses with ⟨body, closer, after, rfl, hbody, hcloser, hafter⟩ |
        ⟨yes, middle, no, closer, after, rfl, hyes, hturn, hno, hcloser, hafter⟩
      · have hfront : ∀ {tail}, Balanced tail →
            Balanced ((line :: (body ++ [closer])) ++ tail) := by
          intro tail htail
          have hblock := Balanced.guarded role hbody hcloser htail
          simpa using hblock
        have hwhole := hafter.prepend hfront
        simpa using hwhole
      · have hfront : ∀ {tail}, Balanced tail →
            Balanced ((line :: (yes ++ middle :: (no ++ [closer]))) ++ tail) := by
          intro tail htail
          have hblock := Balanced.choice role hyes hturn hno hcloser htail
          simpa using hblock
        have hwhole := hafter.prepend hfront
        simpa using hwhole
    · next outer role =>
      cases hnext
      obtain ⟨no, closer, after, rfl, hno, hcloser, hafter⟩ := hcloses
      exact .inr ⟨[], line, no, closer, after, rfl, .nil, role, hno, hcloser, hafter⟩
    · next block outer role =>
      cases hnext
      have hempty : ∃ body closer after, line :: rest = body ++ closer :: after ∧ Balanced body ∧
          lineRole closer = .close ∧ Closes next after :=
        ⟨[], line, rest, rfl, .nil, role, hcloses⟩
      cases block with
      | loop => exact hempty
      | branch => exact .inl hempty
      | alternative => exact hempty
    · cases hnext

/-- The grammar and the scan agree. -/
theorem balanced_iff_scanLines : Balanced lines ↔ scanLines [] lines = some [] :=
  ⟨fun h => h.scanLines_eq, closes_of_scanLines⟩

end

/-! ### Roles of lines -/

/-- Text goes on as it starts. -/
theorem starts_append {front : List Char} {text : String} (h : front <+: text.toList)
    (more : String) : front <+: (text ++ more).toList := by
  rw [String.toList_append]
  exact h.trans (List.prefix_append _ _)

/-- What is put in front of a text does not change its end. -/
theorem getLast?_append {text : String} {last : Char} (h : text.toList.getLast? = some last)
    (before : String) : (before ++ text).toList.getLast? = some last := by
  rw [String.toList_append, List.getLast?_append, h]
  rfl

/-- A line that does not start with a hash sign is plain. -/
theorem lineRole_of_head? {line : String} (h : line.toList.head? ≠ some '#') :
    lineRole line = .plain := by
  unfold lineRole
  cases hl : line.toList with
  | nil => rfl
  | cons first rest =>
    have hne : first ≠ '#' := fun he => h (by rw [hl, he]; rfl)
    simp [hne, Ne.symm hne]

/-- It is enough that the line starts with some other character. -/
theorem lineRole_of_starts {line : String} {first : Char} (h : [first] <+: line.toList)
    (hne : first ≠ '#') : lineRole line = .plain := by
  obtain ⟨rest, hline⟩ := h
  apply lineRole_of_head?
  rw [← hline]
  exact fun he => hne (Option.some.inj he)

/-- Nor does a line open or close a block that starts with another directive. -/
theorem lineRole_of_directive {line : String} {second : Char} (h : ['#', second] <+: line.toList)
    (he : second ≠ 'e') (hf : second ≠ 'f') (hi : second ≠ 'i') : lineRole line = .plain := by
  obtain ⟨rest, hline⟩ := h
  unfold lineRole
  rw [← hline]
  simp [he, Ne.symm hf, Ne.symm hi]

/-- A line that goes on behind its condition is plain. -/
theorem lineRole_of_getLast? {line : String} {last : Char} (h : ['#', 'i'] <+: line.toList)
    (hlast : line.toList.getLast? = some last) (hne : last ≠ ')') : lineRole line = .plain := by
  obtain ⟨rest, hline⟩ := h
  unfold lineRole
  rw [hlast, ← hline]
  simp [hne]

theorem lineRole_close : lineRole "#end" = .close := by decide

theorem lineRole_alternative : lineRole "#else" = .alternative := by decide

/-- The other directives are known by how they start, whatever stands in their parentheses. -/
theorem lineRole_openLoop (item list : String) :
    lineRole s!"#foreach({item} in {list})" = .loop := by
  unfold lineRole
  simp [toString]

theorem lineRole_openBranch (condition : String) :
    lineRole s!"#if({condition})" = .branch := by
  unfold lineRole
  simp [toString]
  rw [← List.cons_append, List.getLast?_concat]

theorem lineRole_assign (target value : String) :
    lineRole s!"#set({target} = {value})" = .plain := by
  have hstarts : ['#', 's'] <+: (s!"#set({target} = {value})").toList := by
    repeat apply starts_append
    decide
  exact lineRole_of_directive hstarts (by decide) (by decide) (by decide)

theorem lineRole_discard (value : String) : lineRole s!"$util.qr({value})" = .plain := by
  have hstarts : ['$'] <+: (s!"$util.qr({value})").toList := by
    repeat apply starts_append
    decide
  exact lineRole_of_starts hstarts (by decide)

end ClosureVtl
