/-
Module: ClosureVtl.Proofs.Render.PayloadPath
Purpose: Paths into the payload: which expressions have one, and that its steps can be read
  back through both layers of quoting.
Main exports:
  PathStep, Arena.PathChain, PathAccess, Arena.AccessChain, PathReader.steps, decodePath,
  Arena.Grown.isSome_jsonPath_iff, Arena.spellsOut_of_pathChain,
  Arena.Grown.accessChain_iff_of_jsonPath, jsonPath_decodes
-/
import ClosureVtl.Proofs.Closure.Binding
import ClosureVtl.Proofs.Number.Unsigned
import ClosureVtl.Proofs.Text.StringLiteral
import Mathlib.Data.List.Forall2

namespace ClosureVtl

/-!
A path is read in two layers.  In a template it stands between single quotes, and the
quotes in it are doubled; `Text.readQuoted` reads such a literal up to the quote that ends
it.  The path itself is a dollar sign and a sequence of steps in three spellings;
`decodePath` reads them with a machine that looks at one character after the other, so a
bracket, a quote or a point in a key is told from one that belongs to the path.

What is read is a list of steps, and an index among them is the text of a number.  The digits of
a whole number belong to no other one, so the path also determines the accesses that it stands
for: by which keys, and at which positions.
-/

/-! ### Access chains -/

/-- A step of an access chain: by a key, or by the digits of a list index. -/
inductive PathStep where
  | key (name : String)
  | index (digits : String)
deriving DecidableEq, Repr

/-- Whether an expression is a chain of accesses that starts at the payload, with the steps
in the order in which they are taken.  Parentheses make no difference anywhere. -/
inductive Arena.PathChain (a : Arena) : NodeId → List PathStep → Prop where
  | payload {id : NodeId} {name : String}
      (node : a.get? (a.unwrapParens id) = some (.identifier name))
      (first : a.classify (a.unwrapParens id) = .ok (.rootParameter 0)) : PathChain a id []
  | member {id base : NodeId} {name : String} {steps : List PathStep}
      (node : a.get? (a.unwrapParens id) = some (.member base name))
      (chain : PathChain a base steps) : PathChain a id (steps ++ [.key name])
  | key {id base key : NodeId} {name : String} {steps : List PathStep}
      (node : a.get? (a.unwrapParens id) = some (.element base key))
      (literal : a.get? (a.unwrapParens key) = some (.string name))
      (chain : PathChain a base steps) : PathChain a id (steps ++ [.key name])
  | index {id base key : NodeId} {value : Binary64} {steps : List PathStep}
      (node : a.get? (a.unwrapParens id) = some (.element base key))
      (literal : a.get? (a.unwrapParens key) = some (.number value))
      (integral : value.isIntegral = true) (nonnegative : value.isNonnegative = true)
      (chain : PathChain a base steps) : PathChain a id (steps ++ [.index value.magnitudeText])

/-- An access to a part of the payload: by a key, or at a position of a list. -/
inductive PathAccess where
  | key (name : String)
  | index (position : Nat)
deriving DecidableEq, Repr

/-- Whether an expression is a chain of accesses that starts at the payload, with the positions
that its index literals stand for. -/
inductive Arena.AccessChain (a : Arena) : NodeId → List PathAccess → Prop where
  | payload {id : NodeId} {name : String}
      (node : a.get? (a.unwrapParens id) = some (.identifier name))
      (first : a.classify (a.unwrapParens id) = .ok (.rootParameter 0)) : AccessChain a id []
  | member {id base : NodeId} {name : String} {accesses : List PathAccess}
      (node : a.get? (a.unwrapParens id) = some (.member base name))
      (chain : AccessChain a base accesses) : AccessChain a id (accesses ++ [.key name])
  | key {id base key : NodeId} {name : String} {accesses : List PathAccess}
      (node : a.get? (a.unwrapParens id) = some (.element base key))
      (literal : a.get? (a.unwrapParens key) = some (.string name))
      (chain : AccessChain a base accesses) : AccessChain a id (accesses ++ [.key name])
  | index {id base key : NodeId} {value : Binary64} {position : Nat} {accesses : List PathAccess}
      (node : a.get? (a.unwrapParens id) = some (.element base key))
      (literal : a.get? (a.unwrapParens key) = some (.number value))
      (finite : value.isFinite = true) (counts : value.value = position)
      (chain : AccessChain a base accesses) : AccessChain a id (accesses ++ [.index position])

/-- Whether a step is what is written for an access: its key, or the digits of a number from zero
on that has its position for value. -/
def PathStep.Writes : PathStep → PathAccess → Prop
  | .key name, .key name' => name = name'
  | .index digits, .index position => ∃ value : Binary64,
    value.isNonnegative = true ∧ value.value = position ∧ value.magnitudeText = digits
  | _, _ => False

/-- The spellings of a step: a key behind a point or in brackets and quotes, and an index in
brackets. -/
inductive PathStep.Spelled : PathStep → String → Prop where
  | name {name : String} (segment : Text.isPathSegment name = true) :
      Spelled (.key name) ("." ++ name)
  | key (name : String) : Spelled (.key name) (Text.pathKey name)
  | index (value : Binary64) : Spelled (.index value.magnitudeText) s!"[{value.magnitudeText}]"

/-! ### Reading a path -/

/-- Where the reader of a path stands: between two steps, behind an opening bracket, or in a
step of which it has read some characters. -/
inductive PathReader where
  | between
  | bracket
  | name (read : List Char)
  | key (read : List Char)
  /-- behind a backslash in a key -/
  | escaped (read : List Char)
  /-- behind the quote that ends a key -/
  | closing (read : List Char)
  | digits (read : List Char)
deriving DecidableEq, Repr

namespace PathReader

/-- Reads a character: where the reader stands then, and the step that ends there. -/
def next : PathReader → Char → Option (PathReader × Option PathStep)
  | between, '.' => some (name [], none)
  | between, '[' => some (bracket, none)
  | name read, '.' => some (name [], some (.key (String.ofList read)))
  | name read, '[' => some (bracket, some (.key (String.ofList read)))
  | name read, c => some (name (read ++ [c]), none)
  | bracket, '"' => some (key [], none)
  | bracket, c => some (digits [c], none)
  | key read, '\\' => some (escaped read, none)
  | key read, '"' => some (closing read, none)
  | key read, c => some (key (read ++ [c]), none)
  | escaped read, c => some (key (read ++ [c]), none)
  | closing read, ']' => some (between, some (.key (String.ofList read)))
  | digits read, ']' => some (between, some (.index (String.ofList read)))
  | digits read, c => some (digits (read ++ [c]), none)
  | _, _ => none

/-- The step that ends with the path; none may be left unfinished. -/
def last : PathReader → Option (List PathStep)
  | between => some []
  | name read => some [.key (String.ofList read)]
  | _ => none

/-- Reads the steps of a path. -/
def steps : PathReader → List Char → Option (List PathStep)
  | reader, [] => reader.last
  | reader, c :: rest =>
    match reader.next c with
    | none => none
    | some (reader, none) => reader.steps rest
    | some (reader, some step) => (reader.steps rest).map (step :: ·)

end PathReader

/-- The steps of a path. -/
def decodePath (path : String) : Option (List PathStep) :=
  match path.toList with
  | '$' :: rest => PathReader.between.steps rest
  | _ => none

namespace PathReader

variable {read rest : List Char}

/-- A path goes on with a step, or it ends. -/
def StepFollows (rest : List Char) : Prop :=
  rest.head? = none ∨ rest.head? = some '.' ∨ rest.head? = some '['

/-- A name ends where the next step starts. -/
theorem steps_name_of_stepFollows (h : StepFollows rest) :
    (name read).steps rest = (between.steps rest).map (.key (String.ofList read) :: ·) := by
  cases rest with
  | nil => rfl
  | cons c rest =>
    rcases h with h | h | h <;> cases h <;> rfl

theorem steps_name {cs : List Char} (hpoint : '.' ∉ cs) (hbracket : '[' ∉ cs) :
    (name read).steps (cs ++ rest) = (name (read ++ cs)).steps rest := by
  induction cs generalizing read with
  | nil => rw [List.append_nil, List.nil_append]
  | cons c cs ih =>
    rw [List.mem_cons, not_or] at hpoint hbracket
    have hnext : (name read).next c = some (name (read ++ [c]), none) := by
      unfold next
      split <;> simp_all
    rw [List.cons_append, steps, hnext]
    show (name (read ++ [c])).steps (cs ++ rest) = _
    rw [ih hpoint.2 hbracket.2, List.append_assoc]
    rfl

/-- An escaped key is read character by character. -/
theorem steps_key (cs : List Char) :
    (key read).steps
        ((cs.flatMap fun c => if c = '\\' ∨ c = '"' then ['\\', c] else [c]) ++ rest) =
      (key (read ++ cs)).steps rest := by
  induction cs generalizing read with
  | nil => rw [List.append_nil, List.flatMap_nil, List.nil_append]
  | cons c cs ih =>
    have hstep : ∀ more, (key read).steps
        ((if c = '\\' ∨ c = '"' then ['\\', c] else [c]) ++ more) =
          (key (read ++ [c])).steps more := by
      intro more
      split
      · rfl
      · next hplain =>
        rw [not_or] at hplain
        have hnext : (key read).next c = some (key (read ++ [c]), none) := by
          unfold next
          split <;> simp_all
        rw [List.singleton_append, steps, hnext]
    rw [List.flatMap_cons, List.append_assoc, hstep, ih, List.append_assoc]
    rfl

theorem steps_digits {cs : List Char} (h : ']' ∉ cs) :
    (digits read).steps (cs ++ rest) = (digits (read ++ cs)).steps rest := by
  induction cs generalizing read with
  | nil => rw [List.append_nil, List.nil_append]
  | cons c cs ih =>
    rw [List.mem_cons, not_or] at h
    have hnext : (digits read).next c = some (digits (read ++ [c]), none) := by
      unfold next
      split <;> simp_all
    rw [List.cons_append, steps, hnext]
    show (digits (read ++ [c])).steps (cs ++ rest) = _
    rw [ih h.2, List.append_assoc]
    rfl

end PathReader

/-! ### The characters of a step -/

namespace Text

/-- A segment has no character that belongs to the path. -/
theorem not_mem_of_isPathSegment {name : String} {mark : Char}
    (h : isPathSegment name = true) (hmark : isAlphanumeric mark = false) (hline : mark ≠ '_') :
    mark ∉ name.toList := by
  intro hm
  unfold isPathSegment at h
  split at h
  · cases h
  · next first rest hname =>
    rw [hname] at hm
    simp only [Bool.and_eq_true, Bool.or_eq_true, beq_iff_eq, List.all_eq_true] at h
    rcases List.mem_cons.mp hm with rfl | hm
    · rcases h.1 with hfirst | hfirst
      · simp [isAlphanumeric, hfirst] at hmark
      · exact hline hfirst
    · rcases h.2 mark hm with hrest | hrest
      · rw [hmark] at hrest
        cases hrest
      · exact hline hrest

end Text

namespace Binary64

theorem isFinite_of_isIntegral {value : Binary64} (h : value.isIntegral = true) :
    value.isFinite = true := by
  unfold isIntegral at h
  exact (Bool.and_eq_true_iff.mp h).1

/-- A whole number from zero on is written with digits alone, without a sign. -/
theorem literal_eq_magnitudeText {value : Binary64} (hi : value.isIntegral = true)
    (hn : value.isNonnegative = true) : value.literal = .ok value.magnitudeText := by
  unfold literal
  rw [if_pos (isFinite_of_isIntegral hi), if_neg (not_signed_of_isNonnegative hn), String.empty_append]

/-- The text of an index starts with a digit or point and has nothing else in it. -/
theorem exists_cons_of_magnitudeText (value : Binary64) :
    ∃ first others, value.magnitudeText.toList = first :: others ∧ first ≠ '"' ∧
      ']' ∉ others := by
  obtain ⟨first, others, heq, hfirst, hothers⟩ := value.positional_magnitudeText
  refine ⟨first, others, heq, ?_, ?_⟩
  · rintro rfl
    exact absurd hfirst (by decide)
  · intro hm
    exact absurd (hothers _ hm) (by decide)

end Binary64

namespace PathStep

variable {step : PathStep} {text : String} {rest : List Char}

/-- Every spelling of a step starts like a step. -/
theorem Spelled.stepFollows (h : step.Spelled text) (rest : List Char) :
    PathReader.StepFollows (text.toList ++ rest) := by
  cases h with
  | name segment => exact .inr (.inl (by simp))
  | key name => exact .inr (.inr (by simp [Text.pathKey]))
  | index value => exact .inr (.inr (by simp [toString]))

/-- Every spelling of a step is read as the step. -/
theorem Spelled.steps_append (h : step.Spelled text) (hrest : PathReader.StepFollows rest) :
    PathReader.between.steps (text.toList ++ rest) =
      (PathReader.between.steps rest).map (step :: ·) := by
  cases h with
  | @name name segment =>
    -- a name ends at a point or a bracket, so it must have none of its own
    have hpoint : '.' ∉ name.toList :=
      Text.not_mem_of_isPathSegment segment (by decide) (by decide)
    have hbracket : '[' ∉ name.toList :=
      Text.not_mem_of_isPathSegment segment (by decide) (by decide)
    rw [String.toList_append]
    show (PathReader.name []).steps (name.toList ++ rest) = _
    rw [PathReader.steps_name hpoint hbracket, List.nil_append,
      PathReader.steps_name_of_stepFollows hrest, String.ofList_toList]
  | key name =>
    have htext : (Text.pathKey name).toList ++ rest = '[' :: '"' ::
        ((name.toList.flatMap fun c => if c = '\\' ∨ c = '"' then ['\\', c] else [c])
          ++ '"' :: ']' :: rest) := by
      simp [Text.pathKey]
    rw [htext]
    show (PathReader.key []).steps _ = _
    rw [PathReader.steps_key, List.nil_append]
    show (PathReader.between.steps rest).map _ = _
    rw [String.ofList_toList]
  | index value =>
    -- an index has at least one digit, by which it is told from a quoted key
    obtain ⟨first, others, hdigits, hfirst, hothers⟩ := value.exists_cons_of_magnitudeText
    have htext : (s!"[{value.magnitudeText}]").toList ++ rest =
        '[' :: first :: (others ++ ']' :: rest) := by
      simp [toString, hdigits]
    have hnext : PathReader.bracket.next first = some (.digits [first], none) := by
      unfold PathReader.next
      split <;> simp_all
    rw [htext]
    show PathReader.bracket.steps _ = _
    rw [PathReader.steps, hnext]
    show (PathReader.digits [first]).steps _ = _
    rw [PathReader.steps_digits hothers]
    show (PathReader.between.steps rest).map _ = _
    rw [List.singleton_append, ← hdigits, String.ofList_toList]

/-- So the steps of a path are read back in order. -/
theorem steps_of_spelled {steps : List PathStep} {texts : List String}
    (h : List.Forall₂ Spelled steps texts) :
    PathReader.between.steps (texts.flatMap String.toList) = some steps := by
  induction h with
  | nil => rfl
  | @cons step text steps texts hstep hrest ih =>
    have hfollows : PathReader.StepFollows (texts.flatMap String.toList) := by
      cases hrest with
      | nil => exact .inl rfl
      | cons hnext _ => exact hnext.stepFollows _
    rw [List.flatMap_cons, hstep.steps_append hfollows, ih]
    rfl

/-- A step is written for one access only; an index, since its digits have one value. -/
theorem writes_unique : Relator.RightUnique Writes := by
  rintro (name | digits) (name' | position) (other | other) h h'
  · exact congrArg PathAccess.key (h.symm.trans h')
  · cases h'
  · cases h
  · cases h
  · cases h
  · cases h
  · cases h'
  · obtain ⟨value, hvalue, hcounts, hdigits⟩ := h
    obtain ⟨value', hvalue', hcounts', hdigits'⟩ := h'
    have hsame := Binary64.value_eq_of_magnitudeText_eq hvalue hvalue' (hdigits.trans hdigits'.symm)
    rw [hcounts, hcounts'] at hsame
    exact congrArg PathAccess.index (by exact_mod_cast hsame)

end PathStep

/-! ### Chains and their paths -/

namespace Arena

variable {a : Arena} {id base key : NodeId} {steps : List PathStep} {path : String}

/-- Whether a path is a dollar sign and the steps in their spellings. -/
def SpellsOut (steps : List PathStep) (path : String) : Prop :=
  ∃ texts, List.Forall₂ PathStep.Spelled steps texts ∧
    path.toList = '$' :: texts.flatMap String.toList

theorem SpellsOut.snoc (h : SpellsOut steps path) {step : PathStep} {text : String}
    (hstep : step.Spelled text) : SpellsOut (steps ++ [step]) (path ++ text) := by
  obtain ⟨texts, htexts, hpath⟩ := h
  refine ⟨texts ++ [text], List.rel_append htexts (.cons hstep .nil), ?_⟩
  rw [String.toList_append, hpath, List.flatMap_append]
  simp

theorem SpellsOut.decodePath_eq (h : SpellsOut steps path) : decodePath path = some steps := by
  obtain ⟨texts, htexts, hpath⟩ := h
  rw [decodePath, hpath]
  exact PathStep.steps_of_spelled htexts

theorem spelled_pathStep (name : String) : (PathStep.key name).Spelled (Text.pathStep name) := by
  unfold Text.pathStep
  split
  · next h => exact .name h
  · exact .key name

/-- Whatever has a path is a chain, and the path spells out its steps. -/
theorem exists_pathChain_of_jsonPathWithin {n : Nat} (h : a.jsonPathWithin n id = some path) :
    ∃ steps, a.PathChain id steps ∧ SpellsOut steps path := by
  -- from the outermost access inward; the step is appended to the path of the base
  induction n generalizing id path with
  | zero => cases h
  | succ n ih =>
    rw [jsonPathWithin] at h
    split at h
    · next name hn =>
      split at h
      · next hpayload =>
        cases h
        unfold isPayload at hpayload
        split at hpayload
        · next hclass => exact ⟨[], .payload hn hclass, [], .nil, rfl⟩
        · cases hpayload
      · cases h
    · next base name hn =>
      obtain ⟨front, hbase, rfl⟩ := Option.map_eq_some_iff.mp h
      obtain ⟨steps, hchain, hspells⟩ := ih hbase
      exact ⟨_, .member hn hchain, hspells.snoc (spelled_pathStep name)⟩
    · next base key hn =>
      obtain ⟨front, hbase, h⟩ := Option.bind_eq_some_iff.mp h
      obtain ⟨text, hindex, rfl⟩ := Option.map_eq_some_iff.mp h
      obtain ⟨steps, hchain, hspells⟩ := ih hbase
      unfold pathIndex? at hindex
      split at hindex
      · next value hkey =>
        split at hindex
        · next hvalue =>
          rw [Binary64.literal_eq_magnitudeText hvalue.1 hvalue.2] at hindex
          cases hindex
          exact ⟨_, .index hn hkey hvalue.1 hvalue.2 hchain, hspells.snoc (.index value)⟩
        · cases hindex
      · next name hkey =>
        cases hindex
        exact ⟨_, .key hn hkey hchain, hspells.snoc (.key name)⟩
      · cases hindex
    · cases h

/-- An expression is a chain in one way only. -/
theorem pathChain_unique {others : List PathStep} (h : a.PathChain id steps)
    (h' : a.PathChain id others) : steps = others := by
  -- the node decides the last step; a key and an index differ in the literal between the
  -- brackets
  induction h generalizing others with
  | payload node first =>
    cases h' with
    | payload => rfl
    | member node' => cases node.symm.trans node'
    | key node' => cases node.symm.trans node'
    | index node' => cases node.symm.trans node'
  | member node chain ih =>
    cases h' with
    | payload node' => cases node.symm.trans node'
    | member node' chain' =>
      cases node.symm.trans node'
      rw [ih chain']
    | key node' => cases node.symm.trans node'
    | index node' => cases node.symm.trans node'
  | key node literal chain ih =>
    cases h' with
    | payload node' => cases node.symm.trans node'
    | member node' => cases node.symm.trans node'
    | key node' literal' chain' =>
      cases node.symm.trans node'
      cases literal.symm.trans literal'
      rw [ih chain']
    | index node' literal' =>
      cases node.symm.trans node'
      cases literal.symm.trans literal'
  | index node literal integral nonnegative chain ih =>
    cases h' with
    | payload node' => cases node.symm.trans node'
    | member node' => cases node.symm.trans node'
    | key node' literal' =>
      cases node.symm.trans node'
      cases literal.symm.trans literal'
    | index node' literal' _ _ chain' =>
      cases node.symm.trans node'
      cases literal.symm.trans literal'
      rw [ih chain']

/-- A chain of steps is one of accesses that the steps are written for. -/
theorem exists_accessChain (h : a.PathChain id steps) :
    ∃ accesses, a.AccessChain id accesses ∧ List.Forall₂ PathStep.Writes steps accesses := by
  induction h with
  | payload node first => exact ⟨[], .payload node first, .nil⟩
  | member node chain ih =>
    obtain ⟨accesses, hchain, hwrites⟩ := ih
    exact ⟨_, .member node hchain, List.rel_append hwrites (.cons rfl .nil)⟩
  | key node literal chain ih =>
    obtain ⟨accesses, hchain, hwrites⟩ := ih
    exact ⟨_, .key node literal hchain, List.rel_append hwrites (.cons rfl .nil)⟩
  | @index id base key value steps node literal integral nonnegative chain ih =>
    obtain ⟨accesses, hchain, hwrites⟩ := ih
    have hfinite := Binary64.isFinite_of_isIntegral integral
    obtain ⟨position, hcounts⟩ :=
      (Binary64.exists_value_eq_natCast_iff hfinite).mpr ⟨integral, nonnegative⟩
    have hlast : (PathStep.index value.magnitudeText).Writes (.index position) :=
      ⟨value, nonnegative, hcounts, rfl⟩
    exact ⟨_, .index node literal hfinite hcounts hchain,
      List.rel_append hwrites (.cons hlast .nil)⟩

/-- Also the other way round, for what has a natural number for its value is written without
sign and fraction. -/
theorem exists_pathChain {accesses : List PathAccess} (h : a.AccessChain id accesses) :
    ∃ steps, a.PathChain id steps ∧ List.Forall₂ PathStep.Writes steps accesses := by
  induction h with
  | payload node first => exact ⟨[], .payload node first, .nil⟩
  | member node chain ih =>
    obtain ⟨steps, hchain, hwrites⟩ := ih
    exact ⟨_, .member node hchain, List.rel_append hwrites (.cons rfl .nil)⟩
  | key node literal chain ih =>
    obtain ⟨steps, hchain, hwrites⟩ := ih
    exact ⟨_, .key node literal hchain, List.rel_append hwrites (.cons rfl .nil)⟩
  | @index id base key value position accesses node literal finite counts chain ih =>
    obtain ⟨steps, hchain, hwrites⟩ := ih
    obtain ⟨hintegral, hnonnegative⟩ :=
      (Binary64.exists_value_eq_natCast_iff finite).mp ⟨position, counts⟩
    have hlast : (PathStep.index value.magnitudeText).Writes (.index position) :=
      ⟨value, hnonnegative, counts, rfl⟩
    exact ⟨_, .index node literal hintegral hnonnegative hchain,
      List.rel_append hwrites (.cons hlast .nil)⟩

/-- The path of a chain spells out its steps. -/
theorem spellsOut_of_pathChain (h : a.PathChain id steps)
    (hpath : a.jsonPath id = some path) : SpellsOut steps path := by
  obtain ⟨others, hchain, hspells⟩ := exists_pathChain_of_jsonPathWithin hpath
  rw [pathChain_unique h hchain]
  exact hspells

namespace Grown

theorem lt_size_of_pathChain (h : a.PathChain id steps) : (a.unwrapParens id).index < a.size := by
  cases h with
  | payload node => exact lt_size_of_get? node
  | member node => exact lt_size_of_get? node
  | key node => exact lt_size_of_get? node
  | index node => exact lt_size_of_get? node

/-- A chain has a path; the bound of the walk is never met. -/
theorem jsonPathWithin_isSome_of_pathChain (ha : a.Grown) (h : a.PathChain id steps) {n : Nat}
    (hn : (a.unwrapParens id).index < n) : (a.jsonPathWithin n id).isSome = true := by
  induction h generalizing n with
  | payload node first =>
    obtain ⟨n, rfl⟩ := Nat.exists_eq_succ_of_ne_zero (n := n) (by omega)
    rw [jsonPathWithin]
    simp [node, isPayload, first]
  | @member id base name steps node chain ih =>
    obtain ⟨n, rfl⟩ := Nat.exists_eq_succ_of_ne_zero (n := n) (by omega)
    -- the base is smaller, parentheses around it included
    have hlt := ha.unwrapParens_lt ⟨_, node, List.mem_singleton.mpr rfl⟩
      (lt_size_of_pathChain chain)
    have hbase : (a.jsonPathWithin n base).isSome = true := ih (by omega)
    rw [jsonPathWithin]
    simpa [node] using hbase
  | @key id base key name steps node literal chain ih =>
    obtain ⟨n, rfl⟩ := Nat.exists_eq_succ_of_ne_zero (n := n) (by omega)
    have hlt := ha.unwrapParens_lt ⟨_, node, List.mem_cons_self⟩ (lt_size_of_pathChain chain)
    have hbase : (a.jsonPathWithin n base).isSome = true := ih (by omega)
    obtain ⟨path, hpath⟩ := Option.isSome_iff_exists.mp hbase
    rw [jsonPathWithin]
    simp [node, hpath, pathIndex?, literal]
  | @index id base key value steps node literal integral nonnegative chain ih =>
    obtain ⟨n, rfl⟩ := Nat.exists_eq_succ_of_ne_zero (n := n) (by omega)
    have hlt := ha.unwrapParens_lt ⟨_, node, List.mem_cons_self⟩ (lt_size_of_pathChain chain)
    have hbase : (a.jsonPathWithin n base).isSome = true := ih (by omega)
    obtain ⟨path, hpath⟩ := Option.isSome_iff_exists.mp hbase
    rw [jsonPathWithin]
    simp [node, hpath, pathIndex?, literal, integral, nonnegative,
      Binary64.literal_eq_magnitudeText, Except.toOption]

/-- Exactly the chains have a path. -/
theorem isSome_jsonPath_iff (ha : a.Grown) (id : NodeId) :
    (a.jsonPath id).isSome = true ↔ ∃ steps, a.PathChain id steps := by
  constructor
  · intro h
    obtain ⟨path, hpath⟩ := Option.isSome_iff_exists.mp h
    obtain ⟨steps, hchain, -⟩ := exists_pathChain_of_jsonPathWithin hpath
    exact ⟨steps, hchain⟩
  · rintro ⟨steps, hchain⟩
    exact ha.jsonPathWithin_isSome_of_pathChain hchain
      (Nat.lt_succ_of_lt (lt_size_of_pathChain hchain))

/-- The steps of a chain can be read from its path, so any expression with this path is a chain
of the accesses that these steps are written for, and of no others. -/
theorem accessChain_iff_of_jsonPath (ha : a.Grown) (hsteps : decodePath path = some steps)
    {accesses found : List PathAccess} (hwrites : List.Forall₂ PathStep.Writes steps accesses)
    (hpath : a.jsonPath id = some path) : a.AccessChain id found ↔ found = accesses := by
  have hread : ∀ {others : List PathStep}, a.PathChain id others → others = steps := by
    intro others hchain
    have hothers := (spellsOut_of_pathChain hchain hpath).decodePath_eq
    exact Option.some.inj (hothers.symm.trans hsteps)
  have hsame : ∀ {others : List PathStep} {reached : List PathAccess}, a.PathChain id others →
      List.Forall₂ PathStep.Writes others reached → reached = accesses := by
    intro others reached hchain hreached
    rw [hread hchain] at hreached
    exact List.right_unique_forall₂' PathStep.writes_unique hreached hwrites
  constructor
  · intro h
    obtain ⟨others, hchain, hothers⟩ := exists_pathChain h
    exact hsame hchain hothers
  · rintro rfl
    obtain ⟨others, hchain⟩ := (ha.isSome_jsonPath_iff id).mp (by rw [hpath]; rfl)
    obtain ⟨reached, hreached, hothers⟩ := exists_accessChain hchain
    rwa [← hsame hchain hothers]

/-- Parentheses around a chain do not change its path. -/
theorem jsonPath_unwrapParens (ha : a.Grown) (id : NodeId) :
    a.jsonPath (a.unwrapParens id) = a.jsonPath id := by
  have hself : a.unwrapParens (a.unwrapParens id) = a.unwrapParens id :=
    unwrapParens_of_not_paren (ha.get?_unwrapParens_ne_paren id)
  unfold jsonPath
  rw [jsonPathWithin, jsonPathWithin, hself]

end Grown

end Arena

/-! ### Paths in templates -/

/-- Exactly the chains of accesses that start at the payload have a path.  The steps of a
chain can be read from its path, whatever characters the keys have; and the chain is
rendered as a literal that reads as the path and ends where it should, without any line,
temporary or call.  The digits of an index stand for one position only: whatever has the same
path takes the same accesses, by the same keys and at the same positions. -/
theorem jsonPath_decodes {p : Program} (hp : p.BottomUp) (expr : NodeId) :
    ((p.arena.jsonPath expr).isSome = true ↔ ∃ steps, p.arena.PathChain expr steps) ∧
      ∀ steps, p.arena.PathChain expr steps →
        ∃ path, p.arena.jsonPath expr = some path ∧ decodePath path = some steps ∧
          Text.readQuoted (Text.doubled '\'' path ++ "')").toList = some (path.toList, [')']) ∧
          (∀ direction config out,
            ((p.walker (.mapping direction config)).fragment expr).runOn out =
              (.ok ("$input.json('" ++ Text.doubled '\'' path ++ "')"), out)) ∧
          ∃ accesses, List.Forall₂ PathStep.Writes steps accesses ∧
            ∀ other, p.arena.jsonPath other = some path → ∀ found,
              p.arena.AccessChain other found ↔ found = accesses := by
  have ha := hp.grown
  refine ⟨ha.isSome_jsonPath_iff expr, fun steps hchain => ?_⟩
  obtain ⟨path, hpath⟩ :=
    Option.isSome_iff_exists.mp ((ha.isSome_jsonPath_iff expr).mpr ⟨steps, hchain⟩)
  have hdecode := (Arena.spellsOut_of_pathChain hchain hpath).decodePath_eq
  obtain ⟨accesses, -, hwrites⟩ := Arena.exists_accessChain hchain
  refine ⟨path, hpath, hdecode, ?_, ?_, accesses, hwrites, fun other hother found =>
    ha.accessChain_iff_of_jsonPath hdecode hwrites hother⟩
  · rw [String.toList_append]
    exact Text.readQuoted_doubled path (by decide)
  · intro direction config out
    have hdepth : p.depth = 3 * p.arena.size + 2 + 1 := by
      unfold Program.depth
      omega
    unfold Program.walker
    rw [hdepth]
    show (Walker.renderFragment _ expr).runOn out = _
    unfold Walker.renderFragment
    rw [p.arena_walkerWithin]
    dsimp only
    rw [ha.jsonPath_unwrapParens, hpath]
    rfl

/-- The closure `input => { return input.rows["it's \"]"][0]; }`, with a key that has every
character that could end it too early. -/
def Program.quotedKey : Program :=
  (Builder.of []
    [.identifier "input", .member ⟨0⟩ "rows", .string "it's \"]", .element ⟨1⟩ ⟨2⟩,
      .number ⟨false, ⟨0, by decide⟩, ⟨0, by decide⟩⟩, .element ⟨3⟩ ⟨4⟩,
      .returnValue (some ⟨5⟩), .block [⟨6⟩], .identifier "input", .parameter ⟨8⟩ none,
      .function [⟨9⟩] ⟨7⟩]).program

theorem Program.pathChain_quotedKey :
    Program.quotedKey.arena.PathChain ⟨5⟩ [.key "rows", .key "it's \"]", .index "0"] := by
  have hpayload : Program.quotedKey.arena.PathChain ⟨0⟩ [] := by
    have hn : Program.quotedKey.arena.get? (Program.quotedKey.arena.unwrapParens ⟨0⟩) =
        some (.identifier "input") := by cbv
    have hfirst : Program.quotedKey.arena.classify (Program.quotedKey.arena.unwrapParens ⟨0⟩) =
        .ok (.rootParameter 0) := by cbv
    exact .payload hn hfirst
  have hrows : Program.quotedKey.arena.PathChain ⟨1⟩ [.key "rows"] := by
    have hn : Program.quotedKey.arena.get? (Program.quotedKey.arena.unwrapParens ⟨1⟩) =
        some (.member ⟨0⟩ "rows") := by cbv
    exact .member hn hpayload
  have hkey : Program.quotedKey.arena.PathChain ⟨3⟩ [.key "rows", .key "it's \"]"] := by
    have hn : Program.quotedKey.arena.get? (Program.quotedKey.arena.unwrapParens ⟨3⟩) =
        some (.element ⟨1⟩ ⟨2⟩) := by cbv
    have hstring : Program.quotedKey.arena.get? (Program.quotedKey.arena.unwrapParens ⟨2⟩) =
        some (.string "it's \"]") := by cbv
    exact .key hn hstring hrows
  have hn : Program.quotedKey.arena.get? (Program.quotedKey.arena.unwrapParens ⟨5⟩) =
      some (.element ⟨3⟩ ⟨4⟩) := by cbv
  have hnumber : Program.quotedKey.arena.get? (Program.quotedKey.arena.unwrapParens ⟨4⟩) =
      some (.number ⟨false, ⟨0, by decide⟩, ⟨0, by decide⟩⟩) := by cbv
  have hdigits : Binary64.magnitudeText ⟨false, ⟨0, by decide⟩, ⟨0, by decide⟩⟩ = "0" := by
    decide +kernel
  exact hdigits ▸ .index hn hnumber (by decide +kernel) (by decide +kernel) hkey

/-- The digit of the last index is written for the first position. -/
theorem Program.writes_quotedKey :
    List.Forall₂ PathStep.Writes [.key "rows", .key "it's \"]", .index "0"]
      [.key "rows", .key "it's \"]", .index 0] := by
  have hzero : (PathStep.index "0").Writes (.index 0) :=
    ⟨⟨false, ⟨0, by decide⟩, ⟨0, by decide⟩⟩, by decide +kernel,
      by simp [Binary64.value, Binary64.magnitude, Binary64.significand], by decide +kernel⟩
  exact .cons rfl (.cons rfl (.cons hzero .nil))

/-- Quotes and brackets in a key neither end the key nor the literal, and the path is one of an
access at the first position. -/
theorem jsonPath_decodes_quotedKey :
    Program.quotedKey.BottomUp ∧
      ∃ path, Program.quotedKey.arena.jsonPath ⟨5⟩ = some path ∧
        decodePath path = some [.key "rows", .key "it's \"]", .index "0"] ∧
        Text.readQuoted (Text.doubled '\'' path ++ "')").toList = some (path.toList, [')']) ∧
        Program.quotedKey.arena.AccessChain ⟨5⟩ [.key "rows", .key "it's \"]", .index 0] := by
  have hbottom : Program.quotedKey.BottomUp := Builder.bottomUp_of (by decide) (by cbv)
  obtain ⟨-, hsteps⟩ := jsonPath_decodes hbottom ⟨5⟩
  obtain ⟨path, hpath, hdecode, hquoted, -, accesses, hwrites, hfound⟩ :=
    hsteps _ Program.pathChain_quotedKey
  have hsame := List.right_unique_forall₂' PathStep.writes_unique Program.writes_quotedKey hwrites
  exact ⟨hbottom, path, hpath, hdecode, hquoted, (hfound ⟨5⟩ hpath _).mpr hsame⟩

end ClosureVtl
