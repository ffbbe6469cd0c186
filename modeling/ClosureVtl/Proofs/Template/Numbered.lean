/-
Module: ClosureVtl.Proofs.Template.Numbered
Purpose: The numbered names in a text: which there are, and that the ways in which
  texts are put together make no new ones.
Main exports:
  Text.counters, Text.Unnumbered, Text.counters_eq_nil_iff, Text.UsesOnly,
  Text.isGlue, Text.UsesOnly.between, Text.Mentions, Text.mem_counters_of_mentions
-/
import ClosureVtl.Proofs.Number.Notation
import ClosureVtl.Proofs.Render.AddressClash
import ClosureVtl.Proofs.Template.Blocks
import ClosureVtl.Render.Fragment

namespace ClosureVtl

/-!
The name of a temporary is a dollar sign, the letter `v` and a number.  A text can only
name a temporary where a `v` stands in front of a digit, so all that matters about a text
are the runs of digits behind such letters, its *counters*.

Texts are put together from other texts and from fixed pieces between them.  A fixed piece
that neither starts with a digit nor ends with one or with a `v` keeps what it joins apart:
it makes no counter and prolongs none.
-/

namespace Text

/-! ### Counters -/

/-- The runs of digits that stand right behind a letter `v`. -/
def counters : List Char → List (List Char)
  | [] => []
  | c :: rest =>
    if c = 'v' ∧ rest.takeWhile Char.isDigit ≠ [] then
      rest.takeWhile Char.isDigit :: counters rest
    else counters rest

/-- Whether a text has no letter `v` in front of a digit. -/
def Unnumbered (text : String) : Prop :=
  ∀ front digit back, text.toList = front ++ 'v' :: digit :: back → digit.isDigit = false

/-- Whether no run of digits goes across the border of two texts. -/
def Apart (front back : List Char) : Prop :=
  back.head?.any Char.isDigit = false ∨
    front.getLast?.any (fun c => c == 'v' || c.isDigit) = false

section

variable {front back cs : List Char} {text : String}

/-- The counters of a text, one character at a time. -/
theorem counters_cons (c : Char) (cs : List Char) :
    counters (c :: cs) =
      if c = 'v' ∧ cs.takeWhile Char.isDigit ≠ [] then cs.takeWhile Char.isDigit :: counters cs
      else counters cs := rfl

/-- What stays apart behind more characters does so behind fewer, as long as there are any. -/
theorem Apart.tail {c : Char} (h : Apart (c :: front) back) (hne : front ≠ []) :
    Apart front back := by
  obtain ⟨last, others, rfl⟩ := List.exists_cons_of_ne_nil hne
  rcases h with h | h
  · exact .inl h
  · rw [List.getLast?_cons_cons] at h
    exact .inr h

/-- A run of digits ends where it did before. -/
private theorem takeWhile_append (h : Apart front back) (hne : front ≠ []) :
    (front ++ back).takeWhile Char.isDigit = front.takeWhile Char.isDigit := by
  induction front with
  | nil => exact absurd rfl hne
  | cons c rest ih =>
    rw [List.cons_append, List.takeWhile_cons, List.takeWhile_cons]
    split
    · next hdigit =>
      cases rest with
      | nil =>
        rcases h with h | h
        · cases back with
          | nil => rfl
          | cons d more =>
            have hd : d.isDigit = false := h
            simp [hd]
        · simp [hdigit] at h
      | cons second others =>
        rw [ih (h.tail (List.cons_ne_nil _ _)) (List.cons_ne_nil _ _)]
    · rfl

/-- Texts that stay apart have the counters of each of them. -/
theorem counters_append (h : Apart front back) :
    counters (front ++ back) = counters front ++ counters back := by
  induction front with
  | nil => rfl
  | cons c rest ih =>
    cases rest with
    | nil =>
      have hone : counters [c] = [] := by simp [counters]
      rw [hone, List.nil_append, List.singleton_append, counters, if_neg]
      rintro ⟨rfl, hdigits⟩
      rcases h with h | h
      · cases back with
        | nil => exact hdigits rfl
        | cons d more =>
          have hd : d.isDigit = false := h
          simp [hd] at hdigits
      · revert h
        decide
    | cons second others =>
      have hrest := h.tail (List.cons_ne_nil second others)
      have htake := takeWhile_append hrest (List.cons_ne_nil second others)
      rw [List.cons_append, counters_cons c, counters_cons c, ih hrest, htake]
      by_cases hc : c = 'v' ∧ (second :: others).takeWhile Char.isDigit ≠ []
      · rw [if_pos hc, if_pos hc, List.cons_append]
      · rw [if_neg hc, if_neg hc]

/-- A text without a `v` adds no counter to what follows it. -/
theorem counters_append_of_not_mem (h : 'v' ∉ front) : counters (front ++ back) = counters back := by
  induction front with
  | nil => rfl
  | cons c rest ih =>
    rw [List.mem_cons, not_or] at h
    rw [List.cons_append, counters, if_neg fun hv => h.1 hv.1.symm, ih h.2]

/-- Without the letter there is no counter. -/
theorem counters_of_not_mem (h : 'v' ∉ cs) : counters cs = [] := by
  rw [← List.append_nil cs, counters_append_of_not_mem h]
  rfl

/-- A text has no counter exactly if no letter stands in front of a digit. -/
theorem counters_eq_nil_iff : counters text.toList = [] ↔ Unnumbered text := by
  -- on the list of characters, so that the induction can drop the first
  have key : ∀ cs : List Char, counters cs = [] ↔
      ∀ front digit back, cs = front ++ 'v' :: digit :: back → digit.isDigit = false := by
    intro cs
    induction cs with
    | nil => simp [counters]
    | cons c rest ih =>
      rw [counters]
      constructor
      · intro h front digit back heq
        split at h
        · cases h
        · next hnot =>
          cases front with
          | nil =>
            cases heq
            refine Bool.eq_false_iff.mpr fun hdigit => hnot ⟨rfl, ?_⟩
            simp [hdigit]
          | cons first others =>
            cases heq
            exact ih.mp h others digit back rfl
      · intro h
        rw [if_neg, ih]
        · intro front digit back heq
          exact h (c :: front) digit back (by rw [heq]; rfl)
        · rintro ⟨rfl, hdigits⟩
          cases rest with
          | nil => exact hdigits rfl
          | cons digit back =>
            have hdigit : digit.isDigit = false := h [] digit back rfl
            simp [hdigit] at hdigits
  exact key text.toList

/-- Spelling out each character keeps the counters if digits and `v` stand for themselves,
and no other character is spelled with a `v` or with a digit in front. -/
theorem counters_flatMap {spell : Char → List Char}
    (hsame : ∀ c, c = 'v' ∨ c.isDigit = true → spell c = [c])
    (hother : ∀ c, c ≠ 'v' → c.isDigit = false →
      'v' ∉ spell c ∧ ∃ first rest, spell c = first :: rest ∧ first.isDigit = false) :
    counters (cs.flatMap spell) = counters cs := by
  -- digits in a row stay, and what ends them is still no digit
  have htake : ∀ cs : List Char,
      (cs.flatMap spell).takeWhile Char.isDigit = cs.takeWhile Char.isDigit := by
    intro cs
    induction cs with
    | nil => rfl
    | cons c rest ih =>
      rw [List.flatMap_cons]
      cases hdigit : c.isDigit with
      | true =>
        rw [hsame c (.inr hdigit), List.singleton_append]
        simp [hdigit, ih]
      | false =>
        by_cases hv : c = 'v'
        · rw [hsame c (.inl hv), List.singleton_append]
          simp [hdigit]
        · obtain ⟨-, first, others, hspell, hfirst⟩ := hother c hv hdigit
          rw [hspell, List.cons_append]
          simp [hdigit, hfirst]
  induction cs with
  | nil => rfl
  | cons c rest ih =>
    rw [List.flatMap_cons]
    by_cases hc : c = 'v' ∨ c.isDigit = true
    · rw [hsame c hc, List.singleton_append, counters, counters, htake, ih]
    · rw [not_or, Bool.not_eq_true] at hc
      rw [counters_append_of_not_mem (hother c hc.1 hc.2).1, ih, counters,
        if_neg fun hv => hc.1 hv.1]

end

/-! ### Texts with given counters -/

/-- Whether all counters of a text are allowed. -/
def UsesOnly (allowed : List Char → Prop) (text : String) : Prop :=
  ∀ digits ∈ counters text.toList, allowed digits

/-- Whether a fixed piece of text may stand behind any other. -/
def isTail (text : String) : Bool :=
  counters text.toList == [] && !text.toList.head?.any Char.isDigit

/-- Whether a fixed piece of text keeps apart what it joins. -/
def isGlue (text : String) : Bool :=
  isTail text && !text.toList.isEmpty &&
    !text.toList.getLast?.any (fun c => c == 'v' || c.isDigit)

section

variable {allowed more : List Char → Prop} {text glue before after : String} {texts : List String}
  {front back : List Char}

/-- An unnumbered text uses no counter at all. -/
theorem Unnumbered.usesOnly (h : Unnumbered text) : UsesOnly allowed text := by
  intro digits hm
  rw [counters_eq_nil_iff.mpr h] at hm
  cases hm

/-- Neither does a text without the letter. -/
theorem usesOnly_of_not_mem (h : 'v' ∉ text.toList) : UsesOnly allowed text := by
  intro digits hm
  rw [counters_of_not_mem h] at hm
  cases hm

/-- Counters that are allowed stay so if more are. -/
theorem UsesOnly.mono (h : UsesOnly allowed text) (himp : ∀ digits, allowed digits → more digits) :
    UsesOnly more text :=
  fun digits hm => himp digits (h digits hm)

/-- Texts that stay apart use what both of them use. -/
theorem usesOnly_append (h : Apart before.toList after.toList) :
    UsesOnly allowed (before ++ after) ↔ UsesOnly allowed before ∧ UsesOnly allowed after := by
  unfold UsesOnly
  rw [String.toList_append, counters_append h]
  simp only [List.mem_append, or_imp, forall_and]

/-- A tail prolongs no run of digits in front of it. -/
theorem apart_tail (h : isTail glue = true) : Apart front glue.toList := by
  simp only [isTail, Bool.and_eq_true, Bool.not_eq_true'] at h
  exact .inl h.2

/-- What may stand between two texts may stand behind one. -/
theorem isTail_of_isGlue (h : isGlue glue = true) : isTail glue = true := by
  simp only [isGlue, Bool.and_eq_true] at h
  exact h.1.1

/-- Behind glue no run of digits goes on. -/
theorem apart_glue (h : isGlue glue = true) : Apart (front ++ glue.toList) back := by
  simp only [isGlue, Bool.and_eq_true, Bool.not_eq_true', List.isEmpty_eq_false_iff] at h
  refine .inr ?_
  rw [List.getLast?_append_of_ne_nil _ h.1.2]
  exact h.2

/-- A text that starts with no digit stays apart from what it follows. -/
theorem apart_of_starts {first : Char} (h : [first] <+: back) (hdigit : first.isDigit = false) :
    Apart front back := by
  obtain ⟨rest, rfl⟩ := h
  exact .inl hdigit

/-- A tail has no counter of its own. -/
theorem usesOnly_tail (h : isTail glue = true) : UsesOnly allowed glue := by
  simp only [isTail, Bool.and_eq_true, beq_iff_eq] at h
  exact (counters_eq_nil_iff.mp h.1).usesOnly

end

namespace UsesOnly

variable {allowed : List Char → Prop} {text glue before after : String} {texts : List String}

/-- A fixed piece may stand in front of a text. -/
theorem front (hg : isGlue glue = true) (h : UsesOnly allowed text) :
    UsesOnly allowed (glue ++ text) := by
  have hapart : Apart ([] ++ glue.toList) text.toList := apart_glue hg
  exact (usesOnly_append hapart).mpr ⟨usesOnly_tail (isTail_of_isGlue hg), h⟩

/-- It may stand behind a text. -/
theorem back (h : UsesOnly allowed text) (hg : isTail glue = true) :
    UsesOnly allowed (text ++ glue) :=
  (usesOnly_append (apart_tail hg)).mpr ⟨h, usesOnly_tail hg⟩

/-- And it may stand between two of them. -/
theorem between (h : UsesOnly allowed before) (hg : isGlue glue = true)
    (h' : UsesOnly allowed after) : UsesOnly allowed (before ++ glue ++ after) := by
  have hapart : Apart (before ++ glue).toList after.toList := by
    rw [String.toList_append]
    exact apart_glue hg
  exact (usesOnly_append hapart).mpr ⟨h.back (isTail_of_isGlue hg), h'⟩

/-- A list of texts may be joined by glue; the induction is on the texts. -/
theorem intercalate (hg : isGlue glue = true) (h : ∀ text ∈ texts, UsesOnly allowed text) :
    UsesOnly allowed (glue.intercalate texts) := by
  induction texts with
  | nil => exact usesOnly_of_not_mem (by simp)
  | cons first rest ih =>
    obtain ⟨hfirst, hrest⟩ := List.forall_mem_cons.mp h
    cases rest with
    | nil =>
      have hone : glue.intercalate [first] = first := by
        apply String.toList_injective
        simp
      rw [hone]
      exact hfirst
    | cons second others =>
      have hsplit : glue.intercalate (first :: second :: others) =
          first ++ glue ++ glue.intercalate (second :: others) := by
        apply String.toList_injective
        simp [String.toList_intercalate]
      rw [hsplit]
      exact hfirst.between hg (ih hrest)

end UsesOnly

/-! ### Literals -/

section

variable {allowed : List Char → Prop} {text path value : String} {c : Char}

/-- A character that is kept as it is differs from each of those that are escaped. -/
theorem ne_of_v_or_isDigit {other : Char} (h : c = 'v' ∨ c.isDigit = true) (hv : other ≠ 'v')
    (hdigit : other.isDigit = false) : c ≠ other := by
  rintro rfl
  rcases h with h | h
  · exact hv h
  · rw [hdigit] at h
    cases h

/-- No character is escaped to one with a counter in it. -/
theorem counters_escape (text : String) : counters (escape text).toList = counters text.toList := by
  unfold escape
  rw [String.toList_ofList]
  apply counters_flatMap
  · intro c hc
    unfold escapeChar
    rw [if_neg (ne_of_v_or_isDigit hc (by decide) (by decide)),
      if_neg (ne_of_v_or_isDigit hc (by decide) (by decide)),
      if_neg (ne_of_v_or_isDigit hc (by decide) (by decide)),
      if_neg (ne_of_v_or_isDigit hc (by decide) (by decide)),
      if_neg (ne_of_v_or_isDigit hc (by decide) (by decide))]
  · intro c hv hdigit
    unfold escapeChar
    repeat' split
    all_goals refine ⟨?_, _, _, rfl, ?_⟩ <;> first | decide | simp_all [Ne.symm hv]

/-- Neither is a character doubled that would make or prolong a counter. -/
theorem counters_doubled {mark : Char} (hv : mark ≠ 'v') (hdigit : mark.isDigit = false)
    (text : String) : counters (doubled mark text).toList = counters text.toList := by
  unfold doubled
  rw [String.toList_ofList]
  apply counters_flatMap
  · intro c hc
    rw [if_neg (ne_of_v_or_isDigit hc hv hdigit)]
  · intro c hc hd
    split
    · exact ⟨by simp [Ne.symm hc], c, [c], rfl, hd⟩
    · exact ⟨by simp [Ne.symm hc], c, [], rfl, hd⟩

/-- Digits of base sixteen end at the letter f. -/
theorem hexDigit_ne_v {n : Nat} (h : n < 16) : hexDigit n ≠ 'v' := by
  have key : ∀ n : Fin 16, hexDigit n.val ≠ 'v' := by decide
  exact key ⟨n, h⟩

/-- A JSON string keeps the counters: control characters are spelled with a backslash in front.
-/
theorem counters_jsonString (text : String) :
    counters (String.ofList (text.toList.flatMap jsonChar)).toList = counters text.toList := by
  rw [String.toList_ofList]
  apply counters_flatMap
  · intro c hc
    have hspace : ¬ c.toNat < 32 := by
      rcases hc with rfl | hc
      · decide
      · simp only [Char.isDigit, Bool.and_eq_true, decide_eq_true_eq] at hc
        have hle : '0'.toNat ≤ c.toNat := hc.1
        have hzero : '0'.toNat = 48 := rfl
        omega
    unfold jsonChar
    rw [if_neg (ne_of_v_or_isDigit hc (by decide) (by decide)),
      if_neg (ne_of_v_or_isDigit hc (by decide) (by decide)),
      if_neg (ne_of_v_or_isDigit hc (by decide) (by decide)),
      if_neg (ne_of_v_or_isDigit hc (by decide) (by decide)),
      if_neg (ne_of_v_or_isDigit hc (by decide) (by decide)),
      if_neg (ne_of_v_or_isDigit hc (by decide) (by decide)),
      if_neg (ne_of_v_or_isDigit hc (by decide) (by decide)), if_neg hspace]
  · intro c hv hdigit
    unfold jsonChar
    repeat' split
    all_goals refine ⟨?_, _, _, rfl, ?_⟩ <;> try first | decide | simp_all [Ne.symm hv]
    next hspace =>
      have hhigh : hexDigit (c.toNat / 16) ≠ 'v' := hexDigit_ne_v (by omega)
      have hlow : hexDigit (c.toNat % 16) ≠ 'v' := hexDigit_ne_v (by omega)
      simp [hhigh.symm, hlow.symm]

namespace UsesOnly

/-- A literal uses the counters of its text, in both of its forms. -/
theorem quote (h : UsesOnly allowed text) : UsesOnly allowed (quote text) := by
  unfold Text.quote
  split
  · refine back (front (by decide) ?_) (by decide)
    unfold UsesOnly
    rw [counters_doubled (by decide) (by decide)]
    exact h
  · refine back (front (by decide) ?_) (by decide)
    unfold UsesOnly
    rw [counters_escape]
    exact h

/-- So does a text with escapes. -/
theorem escape (h : UsesOnly allowed text) : UsesOnly allowed (escape text) := by
  unfold UsesOnly
  rw [counters_escape]
  exact h

/-- So does a JSON string with its quotation marks. -/
theorem jsonString (h : UsesOnly allowed text) : UsesOnly allowed (jsonString text) := by
  refine back (front (by decide) ?_) (by decide)
  unfold UsesOnly
  rw [counters_jsonString]
  exact h

/-- So does a path in the call that reads it. -/
theorem inputJson (h : UsesOnly allowed path) : UsesOnly allowed (inputJson path) := by
  refine back (front (by decide) ?_) (by decide)
  unfold UsesOnly
  rw [counters_doubled (by decide) (by decide)]
  exact h

/-- So does an interpolation, with braces around the name or without. -/
theorem interpolation (h : UsesOnly allowed value) : UsesOnly allowed (interpolation value) := by
  have hname : ∀ name : String, UsesOnly allowed name →
      UsesOnly allowed ("$\x7b" ++ name ++ "\x7d") :=
    fun name h => back (front (by decide) h) (by decide)
  unfold Text.interpolation
  dsimp only
  split
  · next name hvalue =>
    apply hname
    unfold UsesOnly at h ⊢
    rw [hvalue, counters_cons, if_neg (by simp)] at h
    rw [String.toList_ofList]
    exact h
  · exact hname value h

/-- So does a value that is escaped when the template runs. -/
theorem escapedAtRuntime (h : UsesOnly allowed value) :
    UsesOnly allowed (escapedAtRuntime value) :=
  back (front (by decide) h) (by decide)

/-- So does a key in brackets. -/
theorem pathKey {key : String} (h : UsesOnly allowed key) : UsesOnly allowed (pathKey key) := by
  refine back (front (by decide) ?_) (by decide)
  unfold UsesOnly
  rw [String.toList_ofList, counters_flatMap]
  · exact h
  · intro c hc
    rw [if_neg]
    rw [not_or]
    exact ⟨ne_of_v_or_isDigit hc (by decide) (by decide),
      ne_of_v_or_isDigit hc (by decide) (by decide)⟩
  · intro c hv hdigit
    split
    · exact ⟨by simp [Ne.symm hv], _, _, rfl, by decide⟩
    · exact ⟨by simp [Ne.symm hv], c, [], rfl, hdigit⟩

/-- So does a step of a path, whether it is a name or a key. -/
theorem pathStep {name : String} (h : UsesOnly allowed name) : UsesOnly allowed (pathStep name) := by
  unfold Text.pathStep
  split
  · exact front (by decide) h
  · exact pathKey h

end UsesOnly

end

/-! ### Numbers -/

section

variable {allowed : List Char → Prop} {text value : String}

/-- The digits of a number are no letters. -/
theorem v_not_mem_toString (n : Nat) : 'v' ∉ (toString n).toList := by
  rw [toList_toString]
  intro hm
  exact absurd (isDigit_toDigits n _ hm) (by decide)

/-- A number by itself uses no counter; it is the letter in front that makes one. -/
theorem usesOnly_toString (n : Nat) : UsesOnly allowed (toString n) :=
  usesOnly_of_not_mem (v_not_mem_toString n)

/-- Numbers are written with digits, a point and a sign. -/
theorem usesOnly_of_literal {number : Binary64} (h : number.literal = .ok text) :
    UsesOnly allowed text :=
  usesOnly_of_not_mem (Binary64.not_mem_literal h (by decide) (by decide) (by decide))

/-- The test for the type of a value mentions the value several times and no temporary besides.
-/
theorem UsesOnly.primitiveDispatch (h : UsesOnly allowed value) (status : UInt16) :
    UsesOnly allowed (primitiveDispatch value status) := by
  have htype : UsesOnly allowed (value ++ ".class.name") := h.back (by decide)
  have htest : ∀ name, UsesOnly allowed name →
      UsesOnly allowed (value ++ ".class.name" ++ " == 'java.lang." ++ name ++ "'") :=
    fun name hname => (htype.between (by decide) hname).back (by decide)
  have hprints : UsesOnly allowed (" || ".intercalate
      (["Integer", "Long", "Double", "Boolean"].map fun name =>
        value ++ ".class.name" ++ " == 'java.lang." ++ name ++ "'")) := by
    refine UsesOnly.intercalate (by decide) ?_
    intro text hm
    obtain ⟨name, hname, rfl⟩ := List.mem_map.mp hm
    apply htest
    fin_cases hname <;> exact usesOnly_tail (by decide)
  have hnull : UsesOnly allowed ("#if(" ++ value ++ " == $null)null#elseif("
      ++ (value ++ ".class.name") ++ " == 'java.lang.String')") :=
    ((h.front (by decide)).between (by decide) htype).back (by decide)
  have hquote : ['"'] <+: (Text.escapedAtRuntime value).toList := by
    unfold Text.escapedAtRuntime
    repeat apply starts_append
    decide
  have hstring := (usesOnly_append (apart_of_starts hquote (by decide))).mpr
    ⟨hnull, h.escapedAtRuntime⟩
  have hasIs := (hprints.front (by decide : isGlue "#elseif(" = true)).between
    (by decide : isGlue ")" = true) h
  have hstatus : UsesOnly allowed ("#\x7belse\x7d#set($context.responseOverride.status = "
      ++ toString status.toNat ++ ")") :=
    ((usesOnly_toString status.toNat).front (by decide)).back (by decide)
  have hbranch : ['#'] <+: ("#elseif(" ++ " || ".intercalate
      (["Integer", "Long", "Double", "Boolean"].map fun name =>
        value ++ ".class.name" ++ " == 'java.lang." ++ name ++ "'") ++ ")" ++ value).toList := by
    repeat apply starts_append
    decide
  have hother : ['#'] <+: ("#\x7belse\x7d#set($context.responseOverride.status = "
      ++ toString status.toNat ++ ")").toList := by
    repeat apply starts_append
    decide
  have hbranches := (usesOnly_append (apart_of_starts hbranch (by decide))).mpr ⟨hstring, hasIs⟩
  have hall := (usesOnly_append (apart_of_starts hother (by decide))).mpr ⟨hbranches, hstatus⟩
  exact hall.back (by decide)

/-! ### Names of temporaries -/

/-- The digits of a number are read up to what follows them. -/
theorem takeWhile_isDigit_toString (n : Nat) (rest : List Char) (h : rest.head?.any Char.isDigit = false) :
    ((toString n).toList ++ rest).takeWhile Char.isDigit = (toString n).toList := by
  rw [List.takeWhile_append_of_pos]
  · cases rest with
    | nil => simp
    | cons c more =>
      have hc : c.isDigit = false := h
      simp [hc]
  · intro c hm
    rw [toList_toString] at hm
    exact isDigit_toDigits _ _ hm

/-- Whether a text names a temporary: a dollar sign, maybe a brace, the letter and exactly the
digits of its number. -/
def Mentions (text : String) (number : Nat) : Prop :=
  ∃ sign ∈ ["$v".toList, "$\x7bv".toList], ∃ front back,
    text.toList = front ++ sign ++ (toString number).toList ++ back ∧
      back.head?.any Char.isDigit = false

/-- A mentioned temporary is a counter of the text. -/
theorem mem_counters_of_mentions {number : Nat} (h : Mentions text number) :
    (toString number).toList ∈ counters text.toList := by
  have hdigits : (toString number).toList ≠ [] := by
    rw [toList_toString]
    exact Nat.toDigits_ne_nil
  have hfound : ∀ front back : List Char, back.head?.any Char.isDigit = false →
      (toString number).toList ∈ counters (front ++ 'v' :: ((toString number).toList ++ back)) := by
    intro front back hback
    induction front with
    | nil =>
      rw [List.nil_append, counters_cons, takeWhile_isDigit_toString number back hback,
        if_pos ⟨rfl, hdigits⟩]
      exact List.mem_cons_self
    | cons c rest ih =>
      rw [List.cons_append, counters_cons]
      split
      · exact List.mem_cons_of_mem _ ih
      · exact ih
  obtain ⟨sign, hsign, front, back, htext, hback⟩ := h
  -- with or without a brace, the letter is next to the number
  have hlast : ∃ start, sign = start ++ ['v'] := by
    fin_cases hsign
    · exact ⟨['$'], rfl⟩
    · exact ⟨['$', '\x7b'], rfl⟩
  obtain ⟨start, rfl⟩ := hlast
  have hsplit : text.toList =
      (front ++ start) ++ 'v' :: ((toString number).toList ++ back) := by
    rw [htext]
    simp
  rw [hsplit]
  exact hfound _ back hback

/-- The name of a temporary has one counter, its number. -/
theorem counters_tempName (number : Nat) :
    counters (Render.tempName number).toList = [(toString number).toList] := by
  have hdigits : (toString number).toList ≠ [] := by
    rw [toList_toString]
    exact Nat.toDigits_ne_nil
  have htake : (toString number).toList.takeWhile Char.isDigit = (toString number).toList := by
    have h := takeWhile_isDigit_toString number [] rfl
    rwa [List.append_nil] at h
  rw [Render.toList_tempName, counters_cons, if_neg (by simp), counters_cons, htake,
    if_pos ⟨rfl, hdigits⟩, counters_of_not_mem (v_not_mem_toString number)]

end

end Text

end ClosureVtl
