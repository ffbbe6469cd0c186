/-
Module: ClosureVtl.Proofs.Text.StringLiteral
Purpose: String literals as a reader of templates sees them: where they end, and which text
  they stand for.
Main exports:
  Text.replacedInTurn, Text.escapes, Text.toList_escape, Text.bareQuotes,
  Text.quotesDoubled, Text.readQuoted, Text.readEscaped, Text.unquote?, Text.quote_decodes
-/
import ClosureVtl.Text.Literal
import Mathlib.Tactic.SplitIfs

namespace ClosureVtl.Text

/-!
The escapes of a literal are made character by character.  They can as well be made one after
the other, each over the whole text, as long as backslashes come first: each later escape
writes a backslash of its own, which must not be taken for one of the text.

A reader goes through a literal once.  Behind the quote that opens it, it meets one spelling
after the other, and each spelling gives back its character; so what is read is shown by
induction on the text, one spelling at a time.
-/

variable {text : String}

/-- Only dollar and number signs begin template syntax. -/
theorem isTemplateSyntax_iff :
    isTemplateSyntax text = true ↔ '$' ∈ text.toList ∨ '#' ∈ text.toList := by
  unfold isTemplateSyntax
  rw [List.any_eq_true]
  constructor
  · rintro ⟨c, hm, hc⟩
    rcases Bool.or_eq_true_iff.mp hc with h | h
    · exact .inl (eq_of_beq h ▸ hm)
    · exact .inr (eq_of_beq h ▸ hm)
  · rintro (hm | hm)
    · exact ⟨'$', hm, rfl⟩
    · exact ⟨'#', hm, rfl⟩

theorem isTemplateSyntax_eq_false_iff :
    isTemplateSyntax text = false ↔ '$' ∉ text.toList ∧ '#' ∉ text.toList := by
  rw [← Bool.not_eq_true, isTemplateSyntax_iff, not_or]

/-! ### One replacement after the other -/

/-- A text in which every occurrence of a character is spelled out. -/
def replaced (mark : Char) (spelling cs : List Char) : List Char :=
  cs.flatMap fun c => if c = mark then spelling else [c]

/-- A text after replacements, each over all that the one before it has left. -/
def replacedInTurn (rules : List (Char × List Char)) (cs : List Char) : List Char :=
  rules.foldl (fun cs rule => replaced rule.1 rule.2 cs) cs

/-- The characters that are escaped between double quotes and their spellings.  The backslash
is the first. -/
def escapes : List (Char × List Char) :=
  [('\\', ['\\', '\\']), ('"', ['\\', '"']), ('\n', ['\\', 'n']), ('\r', ['\\', 'r']),
    ('\t', ['\\', 't'])]

/-- Replacing goes through a text character by character. -/
theorem replacedInTurn_append (rules : List (Char × List Char)) (cs ds : List Char) :
    replacedInTurn rules (cs ++ ds) = replacedInTurn rules cs ++ replacedInTurn rules ds := by
  induction rules generalizing cs ds with
  | nil => rfl
  | cons rule rest ih =>
    have hsplit : replaced rule.1 rule.2 (cs ++ ds) =
        replaced rule.1 rule.2 cs ++ replaced rule.1 rule.2 ds := List.flatMap_append
    show replacedInTurn rest (replaced rule.1 rule.2 (cs ++ ds)) = _
    rw [hsplit]
    exact ih _ _

/-- On a single character the replacements in turn do what the escape of it does. -/
theorem replacedInTurn_singleton (c : Char) : replacedInTurn escapes [c] = escapeChar c := by
  unfold escapeChar
  split_ifs with hslash hquote hnewline hreturn htab
  · rw [hslash]; decide
  · rw [hquote]; decide
  · rw [hnewline]; decide
  · rw [hreturn]; decide
  · rw [htab]; decide
  · simp [replacedInTurn, escapes, replaced, hslash, hquote, hnewline, hreturn, htab]

/-- The escapes in turn spell each character as a single pass does. -/
theorem toList_escape (text : String) :
    (escape text).toList = replacedInTurn escapes text.toList := by
  unfold escape
  rw [String.toList_ofList]
  induction text.toList with
  | nil => rfl
  | cons c cs ih =>
    rw [List.flatMap_cons, ih, ← replacedInTurn_singleton, ← replacedInTurn_append]
    rfl

/-! ### Which characters a literal has -/

/-- Escaping adds backslashes, quotes and the letters of escapes, and nothing else. -/
theorem not_mem_escape {mark : Char} (hmark : mark ∉ ['\\', '"', 'n', 'r', 't'])
    (h : mark ∉ text.toList) : mark ∉ (escape text).toList := by
  unfold escape
  rw [String.toList_ofList, List.mem_flatMap]
  rintro ⟨c, hc, hm⟩
  have hne : mark ≠ c := fun he => h (he ▸ hc)
  unfold escapeChar at hm
  repeat' split at hm
  all_goals simp_all

/-- The places of the double quotes that no backslash escapes, counted from a number on. -/
def bareQuotes : Nat → List Char → List Nat
  | _, [] => []
  | n, '\\' :: _ :: rest => bareQuotes (n + 2) rest
  | n, c :: rest => if c = '"' then n :: bareQuotes (n + 1) rest else bareQuotes (n + 1) rest

/-- An escaped character has no bare quote in it. -/
theorem bareQuotes_escapeChar (n : Nat) (c : Char) (rest : List Char) :
    bareQuotes n (escapeChar c ++ rest) = bareQuotes (n + (escapeChar c).length) rest := by
  unfold escapeChar
  split_ifs with hslash hquote
  · rfl
  · rfl
  · rfl
  · rfl
  · rfl
  · rw [List.singleton_append, bareQuotes, if_neg hquote]
    · rfl
    · intro _ _ he
      exact absurd he hslash

/-- No quote of an escaped text is bare. -/
theorem bareQuotes_escape (n : Nat) (cs rest : List Char) :
    bareQuotes n (cs.flatMap escapeChar ++ rest) =
      bareQuotes (n + (cs.flatMap escapeChar).length) rest := by
  induction cs generalizing n with
  | nil => rfl
  | cons c cs ih =>
    rw [List.flatMap_cons, List.append_assoc, bareQuotes_escapeChar, ih, List.length_append,
      Nat.add_assoc]

/-- Whether single quotes only stand next to each other in pairs. -/
def quotesDoubled : List Char → Bool
  | [] => true
  | '\'' :: '\'' :: rest => quotesDoubled rest
  | '\'' :: _ => false
  | _ :: rest => quotesDoubled rest

/-- Where each quote is doubled, quotes come in pairs. -/
theorem quotesDoubled_doubled (cs : List Char) :
    quotesDoubled (replaced '\'' ['\'', '\''] cs) = true := by
  induction cs with
  | nil => rfl
  | cons c cs ih =>
    rw [replaced, List.flatMap_cons]
    by_cases hc : c = '\''
    · rw [if_pos hc]
      exact ih
    · rw [if_neg hc, List.singleton_append, quotesDoubled]
      · exact ih
      · exact fun _ he _ => hc he
      · exact hc

theorem toList_doubled : (doubled '\'' text).toList = replaced '\'' ['\'', '\''] text.toList := by
  unfold doubled replaced
  rw [String.toList_ofList]
  congr 1
  funext c
  by_cases hc : c = '\''
  · rw [if_pos hc, if_pos hc, hc]
  · rw [if_neg hc, if_neg hc]

/-! ### Single quotes -/

/-- Reads a literal in single quotes from behind the quote that opens it: the text that it
stands for, in which a doubled quote counts as one, and what follows the quote that ends
it. -/
def readQuoted : List Char → Option (List Char × List Char)
  | [] => none
  | '\'' :: '\'' :: rest => (readQuoted rest).map fun (text, after) => ('\'' :: text, after)
  | '\'' :: rest => some ([], rest)
  | c :: rest => (readQuoted rest).map fun (text, after) => (c :: text, after)

/-- A quote that no other follows ends the literal. -/
theorem readQuoted_quote {after : List Char} (h : after.head? ≠ some '\'') :
    readQuoted ('\'' :: after) = some ([], after) := by
  cases after with
  | nil => rfl
  | cons c rest =>
    have hc : c ≠ '\'' := fun he => h (congrArg some he)
    rw [readQuoted]
    rintro rest' he
    exact hc (List.cons.inj he).1

/-- A character that is no quote is read as it is. -/
theorem readQuoted_cons {c : Char} (h : c ≠ '\'') (rest : List Char) :
    readQuoted (c :: rest) = (readQuoted rest).map fun (text, after) => (c :: text, after) := by
  rw [readQuoted]
  · exact fun rest' hc => absurd hc h
  · exact h

/-- A text whose quotes are doubled is read back whole, whatever it contains. -/
theorem readQuoted_doubled (text : String) {after : List Char} (h : after.head? ≠ some '\'') :
    readQuoted ((doubled '\'' text).toList ++ '\'' :: after) = some (text.toList, after) := by
  unfold doubled
  rw [String.toList_ofList]
  induction text.toList with
  | nil => exact readQuoted_quote h
  | cons c cs ih =>
    rw [List.flatMap_cons, List.append_assoc]
    by_cases hc : c = '\''
    · subst hc
      show (readQuoted (_ ++ '\'' :: after)).map _ = _
      rw [ih]
      rfl
    · rw [if_neg hc, List.singleton_append, readQuoted_cons hc, ih]
      rfl

/-! ### Double quotes -/

/-- What a character behind a backslash stands for. -/
def unescaped? : Char → Option Char
  | '\\' => some '\\'
  | '"' => some '"'
  | 'n' => some '\n'
  | 'r' => some '\r'
  | 't' => some '\t'
  | _ => none

/-- Reads a literal in double quotes from behind the quote that opens it: the text that it
stands for, and what follows the quote that ends it. -/
def readEscaped : List Char → Option (List Char × List Char)
  | [] => none
  | '"' :: rest => some ([], rest)
  | '\\' :: [] => none
  | '\\' :: c :: rest =>
    (unescaped? c).bind fun plain =>
      (readEscaped rest).map fun (text, after) => (plain :: text, after)
  | c :: rest => (readEscaped rest).map fun (text, after) => (c :: text, after)

/-- The spelling of a character is read as the character. -/
theorem readEscaped_escapeChar (c : Char) (rest : List Char) :
    readEscaped (escapeChar c ++ rest) =
      (readEscaped rest).map fun (text, after) => (c :: text, after) := by
  unfold escapeChar
  split_ifs with hslash hquote hnewline hreturn htab
  · rw [hslash]; rfl
  · rw [hquote]; rfl
  · rw [hnewline]; rfl
  · rw [hreturn]; rfl
  · rw [htab]; rfl
  · rw [List.singleton_append, readEscaped]
    · exact hquote
    · exact fun he _ => hslash he
    · exact fun _ _ he => absurd he hslash

/-- Reading an escaped text gives the text back and stops at the quote behind it. -/
theorem readEscaped_escape (text : String) (after : List Char) :
    readEscaped ((escape text).toList ++ '"' :: after) = some (text.toList, after) := by
  unfold escape
  rw [String.toList_ofList]
  induction text.toList with
  | nil => rfl
  | cons c cs ih =>
    rw [List.flatMap_cons, List.append_assoc, readEscaped_escapeChar, ih]
    rfl

/-! ### Literals -/

/-- Reads a literal of either kind from the front of a text. -/
def readLiteral : List Char → Option (String × List Char)
  | '"' :: rest => (readEscaped rest).map fun (text, after) => (String.ofList text, after)
  | '\'' :: rest => (readQuoted rest).map fun (text, after) => (String.ofList text, after)
  | _ => none

/-- The text that a literal stands for, if the whole is one literal. -/
def unquote? (literal : String) : Option String :=
  match readLiteral literal.toList with
  | some (text, []) => some text
  | _ => none

/-- Text without template syntax is written in double quotes, with escapes. -/
theorem toList_quote_of_plain (h : isTemplateSyntax text = false) :
    (quote text).toList = '"' :: (escape text).toList ++ ['"'] := by
  unfold quote
  rw [if_neg (by simp [h])]
  simp

/-- Text with template syntax is written in single quotes, which are doubled inside. -/
theorem toList_quote_of_isTemplateSyntax (h : isTemplateSyntax text = true) :
    (quote text).toList = '\'' :: (doubled '\'' text).toList ++ ['\''] := by
  unfold quote
  rw [if_pos h]
  simp

/-- A literal is read to its end and no further.  Only one in single quotes could be prolonged
by what follows it, and only by another single quote. -/
theorem readLiteral_quote {rest : List Char}
    (h : isTemplateSyntax text = false ∨ rest.head? ≠ some '\'') :
    readLiteral ((quote text).toList ++ rest) = some (text, rest) := by
  cases htemplate : isTemplateSyntax text with
  | false =>
    rw [toList_quote_of_plain htemplate, List.append_assoc, List.cons_append, readLiteral,
      List.singleton_append, readEscaped_escape]
    simp
  | true =>
    have hrest : rest.head? ≠ some '\'' := h.resolve_left (by simp [htemplate])
    rw [toList_quote_of_isTemplateSyntax htemplate, List.append_assoc, List.cons_append,
      readLiteral, List.singleton_append, readQuoted_doubled text hrest]
    simp

/-- Either form is read back; which one it is shows in the first character. -/
theorem unquote?_quote (text : String) : unquote? (quote text) = some text := by
  have hread : readLiteral ((quote text).toList ++ []) = some (text, []) :=
    readLiteral_quote (.inr (by simp))
  rw [List.append_nil] at hread
  unfold unquote?
  rw [hread]

/-- The first quote of a literal and the one that ends it are its only bare quotes. -/
theorem bareQuotes_quote (h : isTemplateSyntax text = false) :
    bareQuotes 0 (quote text).toList = [0, (quote text).toList.length - 1] := by
  rw [toList_quote_of_plain h]
  have hbody : bareQuotes 1 ((escape text).toList ++ ['"']) =
      [1 + (escape text).toList.length] := by
    unfold escape
    rw [String.toList_ofList]
    exact bareQuotes_escape 1 text.toList ['"']
  show 0 :: bareQuotes 1 ((escape text).toList ++ ['"']) = _
  rw [hbody]
  simp [Nat.add_comm]

/-- A text without template syntax is written in double quotes, its escapes made in turn; no
part of the literal is evaluated, and its first and its last quote are the only ones that no
backslash escapes.  Any other text is written in single quotes and the single quotes in it
only occur doubled.  Either literal is read to its end and no further, as the text that it was
written from; so different texts have different literals. -/
theorem quote_decodes (text : String) :
    ('$' ∉ text.toList ∧ '#' ∉ text.toList →
      (quote text).toList = '"' :: replacedInTurn escapes text.toList ++ ['"'] ∧
        '$' ∉ (quote text).toList ∧ '#' ∉ (quote text).toList ∧
        bareQuotes 0 (quote text).toList = [0, (quote text).toList.length - 1]) ∧
    ('$' ∈ text.toList ∨ '#' ∈ text.toList →
      ∃ inside, (quote text).toList = '\'' :: inside ++ ['\''] ∧
        inside = replaced '\'' ['\'', '\''] text.toList ∧ quotesDoubled inside = true) ∧
    (∀ rest, '$' ∉ text.toList ∧ '#' ∉ text.toList ∨ rest.head? ≠ some '\'' →
      readLiteral ((quote text).toList ++ rest) = some (text, rest)) ∧
    unquote? (quote text) = some text ∧
    ∀ other, quote other = quote text → other = text := by
  refine ⟨?_, ?_, ?_, unquote?_quote text, ?_⟩
  · intro h
    have hplain := isTemplateSyntax_eq_false_iff.mpr h
    have hinert : ∀ mark, mark ∉ ['\\', '"', 'n', 'r', 't'] → mark ∉ text.toList →
        mark ∉ (quote text).toList := by
      intro mark hmark hm
      rw [toList_quote_of_plain hplain]
      have hquote : mark ≠ '"' := fun he => hmark (by simp [he])
      simp [hquote, not_mem_escape hmark hm]
    refine ⟨?_, hinert '$' (by decide) h.1, hinert '#' (by decide) h.2, bareQuotes_quote hplain⟩
    rw [toList_quote_of_plain hplain, toList_escape]
  · intro h
    refine ⟨_, toList_quote_of_isTemplateSyntax (isTemplateSyntax_iff.mpr h), toList_doubled, ?_⟩
    rw [toList_doubled]
    exact quotesDoubled_doubled text.toList
  · intro rest h
    exact readLiteral_quote (h.imp_left isTemplateSyntax_eq_false_iff.mpr)
  · intro other h
    have hboth : some other = some text := by
      rw [← unquote?_quote other, h, unquote?_quote]
    exact Option.some.inj hboth

/-- Backslashes, quotes and line ends in one text. -/
example : quote "a\\\"\nb" = "\"a\\\\\\\"\\nb\"" ∧ quote "it's #1" = "'it''s #1'" := by decide

end ClosureVtl.Text
