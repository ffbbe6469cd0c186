/-
Module: ClosureVtl.Proofs.Text.JsonReader
Purpose: A reader of JSON text, and how the parts of a text are read.
Main exports:
  Json, Json.number?, Json.string?, JsonScanner.tokens, JsonReader.step, Json.parse,
  Json.Spelled, Json.parse_eq_some_iff, Json.spelled_string, Json.spelled_array,
  Json.spelled_object
-/
import ClosureVtl.Text.Json
import Mathlib

namespace ClosureVtl

/-!
A text is read in two passes.  The scanner looks at one character after the other and cuts the
text into brackets, commas and colons on the one hand and strings, numbers and names on the
other, which are values by themselves.  The reader looks at one token after the other and keeps
the arrays and objects that are open on a stack.

Numbers are read exactly, as rational numbers.  Members of an object keep their order, and a
key may occur more than once.

Both passes are machines, so what a part of a text is read as can be told from the part alone,
wherever it stands: `Json.Spelled` is that statement, and it composes.
-/

/-- A JSON value. -/
inductive Json where
  | null
  | boolean (value : Bool)
  | number (value : ℚ)
  | string (text : String)
  | array (items : List Json)
  | object (members : List (String × Json))

namespace Json

/-! ### Numbers -/

/-- Digits, at least one of them. -/
def digits? (cs : List Char) : Option Nat :=
  if cs ≠ [] ∧ cs.all Char.isDigit = true then some (Nat.ofDigitChars 10 cs 0) else none

/-- The exponent that ends a number, if there is one. -/
def exponent? : List Char → Option Int
  | [] => some 0
  | mark :: cs =>
    if mark = 'e' ∨ mark = 'E' then
      match cs with
      | '+' :: cs => (digits? cs).map Int.ofNat
      | '-' :: cs => (digits? cs).map fun n => -Int.ofNat n
      | cs => (digits? cs).map Int.ofNat
    else none

/-- The digits behind the point, if there is one, and what follows them. -/
def fraction : List Char → Option (List Char) × List Char
  | '.' :: cs => (some (cs.takeWhile Char.isDigit), cs.dropWhile Char.isDigit)
  | cs => (none, cs)

/-- A number without its sign.  It has no leading zeros, and there is a digit on both sides of
a point. -/
def magnitude? (cs : List Char) : Option ℚ :=
  let whole := cs.takeWhile Char.isDigit
  let (digits, rest) := fraction (cs.dropWhile Char.isDigit)
  if whole ≠ [] ∧ (whole.head? = some '0' → whole = ['0']) ∧ digits ≠ some [] then
    (exponent? rest).map fun power : Int =>
      Nat.ofDigitChars 10 (whole ++ digits.getD []) 0 * 10 ^ (power - (digits.getD []).length)
  else none

/-- A number. -/
def number? : List Char → Option ℚ
  | '-' :: cs => (magnitude? cs).map fun value => -value
  | cs => magnitude? cs

/-! ### Strings -/

/-- A part of a string: a character, or a code unit that is given by its number. -/
inductive Piece where
  | char (c : Char)
  | code (n : Nat)

/-- The value of a hexadecimal digit. -/
def hexValue? (c : Char) : Option Nat :=
  if '0' ≤ c ∧ c ≤ '9' then some (c.toNat - '0'.toNat)
  else if 'a' ≤ c ∧ c ≤ 'f' then some (c.toNat - 'a'.toNat + 10)
  else if 'A' ≤ c ∧ c ≤ 'F' then some (c.toNat - 'A'.toNat + 10)
  else none

/-- The character that a letter behind a backslash stands for. -/
def escaped? : Char → Option Char
  | '"' => some '"'
  | '\\' => some '\\'
  | '/' => some '/'
  | 'b' => some '\x08'
  | 'f' => some '\x0c'
  | 'n' => some '\n'
  | 'r' => some '\r'
  | 't' => some '\t'
  | _ => none

/-- The parts of the text between two quotes.  Control characters have to be escaped. -/
def units : List Char → Option (List Piece)
  | [] => some []
  | '\\' :: 'u' :: a :: b :: c :: d :: rest =>
    match hexValue? a, hexValue? b, hexValue? c, hexValue? d with
    | some a, some b, some c, some d =>
      (units rest).map (.code (4096 * a + 256 * b + 16 * c + d) :: ·)
    | _, _, _, _ => none
  | '\\' :: c :: rest => (escaped? c).bind fun c => (units rest).map (.char c :: ·)
  | c :: rest => if c = '\\' ∨ c.toNat < 32 then none else (units rest).map (.char c :: ·)

/-- The first and the second half of a pair of code units. -/
def isHigh (n : Nat) : Bool := 0xd800 ≤ n && n < 0xdc00
def isLow (n : Nat) : Bool := 0xdc00 ≤ n && n < 0xe000

/-- The characters of a string.  Halves of a pair are put together, and none stands alone. -/
def joined : List Piece → Option (List Char)
  | [] => some []
  | .char c :: rest => (joined rest).map (c :: ·)
  | .code first :: rest =>
    if isHigh first then
      match rest with
      | .code second :: rest =>
        if isLow second then
          (joined rest).map
            (Char.ofNat (0x10000 + 0x400 * (first - 0xd800) + (second - 0xdc00)) :: ·)
        else none
      | _ => none
    else if isLow first then none
    else (joined rest).map (Char.ofNat first :: ·)

/-- The string that the text between two quotes stands for. -/
def string? (cs : List Char) : Option String :=
  ((units cs).bind joined).map String.ofList

/-! ### Tokens -/

/-- A number or one of the three names. -/
def word? (cs : List Char) : Option Json :=
  if cs = "null".toList then some .null
  else if cs = "true".toList then some (.boolean true)
  else if cs = "false".toList then some (.boolean false)
  else (number? cs).map .number

end Json

/-- Brackets, braces, commas and colons are marks; anything else is a value by itself. -/
inductive JsonToken where
  | mark (c : Char)
  | value (v : Json)

/-- Where a scanner stands: between tokens, or in one of which it has read some characters. -/
inductive JsonScanner where
  | between
  | word (read : List Char)
  | string (read : List Char)
  /-- behind a backslash in a string -/
  | escape (read : List Char)

namespace JsonScanner

def isMark (c : Char) : Bool :=
  c == '[' || c == ']' || c == '\x7b' || c == '\x7d' || c == ',' || c == ':'

def isBlank (c : Char) : Bool := c == ' ' || c == '\t' || c == '\n' || c == '\r'

/-- Reads a character: where the scanner stands then, and the tokens that end there. -/
def next : JsonScanner → Char → Option (JsonScanner × List JsonToken)
  | between, c =>
    if isMark c then some (between, [.mark c])
    else if isBlank c then some (between, [])
    else if c = '"' then some (string [], [])
    else some (word [c], [])
  | word read, c =>
    if isMark c then (Json.word? read).map fun v => (between, [.value v, .mark c])
    else if isBlank c then (Json.word? read).map fun v => (between, [.value v])
    else some (word (read ++ [c]), [])
  | string read, c =>
    if c = '"' then (Json.string? read).map fun text => (between, [.value (.string text)])
    else if c = '\\' then some (escape read, [])
    else some (string (read ++ [c]), [])
  | escape read, c => some (string (read ++ ['\\', c]), [])

/-- The token that ends with the text; no string may be left open. -/
def last : JsonScanner → Option (List JsonToken)
  | between => some []
  | word read => (Json.word? read).map fun v => [.value v]
  | _ => none

/-- The tokens of a text. -/
def tokens : JsonScanner → List Char → Option (List JsonToken)
  | scanner, [] => scanner.last
  | scanner, c :: rest =>
    (scanner.next c).bind fun (scanner, found) =>
      (scanner.tokens rest).map fun more => found ++ more

end JsonScanner

/-! ### Values -/

/-- An array or an object that is open, with what has been read of it. -/
inductive JsonFrame where
  | array (items : List Json)
  | object (members : List (String × Json)) (key : String)

/-- What a reader expects next. -/
inductive JsonPlace where
  | value
  /-- behind an opening bracket: a value or the end of the array -/
  | firstItem
  /-- behind an opening brace: a key or the end of the object -/
  | firstKey
  | key (members : List (String × Json))
  | colon (members : List (String × Json)) (key : String)
  /-- behind a value: a comma or the end of what is open -/
  | behind (v : Json)

/-- A reader: what it expects, and what is open, innermost first. -/
structure JsonReader where
  place : JsonPlace
  stack : List JsonFrame

namespace JsonReader

/-- Starts a value. -/
def start (stack : List JsonFrame) : JsonToken → Option JsonReader
  | .value v => some ⟨.behind v, stack⟩
  | .mark '[' => some ⟨.firstItem, stack⟩
  | .mark '\x7b' => some ⟨.firstKey, stack⟩
  | .mark _ => none

/-- Reads a token. -/
def step : JsonReader → JsonToken → Option JsonReader
  | ⟨.value, stack⟩, token => start stack token
  | ⟨.firstItem, stack⟩, .mark ']' => some ⟨.behind (.array []), stack⟩
  | ⟨.firstItem, stack⟩, token => start (.array [] :: stack) token
  | ⟨.firstKey, stack⟩, .mark '\x7d' => some ⟨.behind (.object []), stack⟩
  | ⟨.firstKey, stack⟩, .value (.string key) => some ⟨.colon [] key, stack⟩
  | ⟨.key members, stack⟩, .value (.string key) => some ⟨.colon members key, stack⟩
  | ⟨.colon members key, stack⟩, .mark ':' => some ⟨.value, .object members key :: stack⟩
  | ⟨.behind v, .array items :: stack⟩, .mark ',' =>
    some ⟨.value, .array (items ++ [v]) :: stack⟩
  | ⟨.behind v, .array items :: stack⟩, .mark ']' =>
    some ⟨.behind (.array (items ++ [v])), stack⟩
  | ⟨.behind v, .object members key :: stack⟩, .mark ',' =>
    some ⟨.key (members ++ [(key, v)]), stack⟩
  | ⟨.behind v, .object members key :: stack⟩, .mark '\x7d' =>
    some ⟨.behind (.object (members ++ [(key, v)])), stack⟩
  | _, _ => none

end JsonReader

namespace Json

/-- The value of a JSON text. -/
def parse (text : List Char) : Option Json :=
  (JsonScanner.between.tokens text).bind fun tokens =>
    match tokens.foldlM JsonReader.step ⟨.value, []⟩ with
    | some ⟨.behind v, []⟩ => some v
    | _ => none

end Json

/-! ### Parts of a text -/

namespace JsonScanner

variable {scanner : JsonScanner} {text rest : List Char} {found : List JsonToken} {c : Char}

theorem tokens_cons {after : JsonScanner} (h : scanner.next c = some (after, found)) :
    scanner.tokens (c :: rest) = (after.tokens rest).map fun more => found ++ more := by
  rw [tokens, h]
  rfl

/-- A mark ends what has been read so far as the end of the text would. -/
theorem next_of_last (h : scanner.last = some found) (hmark : isMark c = true) :
    scanner.next c = some (between, found ++ [.mark c]) := by
  cases scanner with
  | between =>
    cases h
    simp [next, hmark]
  | word read =>
    obtain ⟨v, hword, rfl⟩ := Option.map_eq_some_iff.mp h
    simp [next, hmark, hword]
  | string read => cases h
  | escape read => cases h

/-- The tokens of a text in front of a mark are those of the text alone. -/
theorem tokens_append_mark (h : scanner.tokens text = some found) (hmark : isMark c = true) :
    scanner.tokens (text ++ c :: rest) =
      (between.tokens rest).map fun more => found ++ .mark c :: more := by
  induction text generalizing scanner found with
  | nil =>
    rw [List.nil_append, tokens_cons (next_of_last h hmark)]
    simp
  | cons first text ih =>
    rw [tokens] at h
    obtain ⟨⟨after, front⟩, hnext, htokens⟩ := Option.bind_eq_some_iff.mp h
    obtain ⟨back, hback, rfl⟩ := Option.map_eq_some_iff.mp htokens
    rw [List.cons_append, tokens_cons hnext, ih hback, Option.map_map]
    simp [Function.comp_def]

end JsonScanner

namespace JsonReader

variable {place next : JsonPlace} {front back stack : List JsonFrame} {token : JsonToken}

theorem start_append (h : start front token = some ⟨next, back⟩) :
    start (front ++ stack) token = some ⟨next, back ++ stack⟩ := by
  unfold start at h ⊢
  split at h <;> cases h <;> rfl

/-- What is open around a value does not matter while the value is read. -/
theorem step_append (h : step ⟨place, front⟩ token = some ⟨next, back⟩) :
    step ⟨place, front ++ stack⟩ token = some ⟨next, back ++ stack⟩ := by
  unfold step at h
  split at h
  case h_1 heq =>
    cases heq
    exact start_append h
  case h_3 heq hother =>
    cases heq
    rw [step]
    · exact start_append h
    · exact hother
  case h_12 => cases h
  all_goals
    next heq =>
    cases heq
    cases h
    rfl

theorem foldlM_append {found : List JsonToken}
    (h : found.foldlM step ⟨place, front⟩ = some ⟨next, back⟩) :
    found.foldlM step ⟨place, front ++ stack⟩ = some ⟨next, back ++ stack⟩ := by
  induction found generalizing place front with
  | nil =>
    cases h
    rfl
  | cons token rest ih =>
    rw [List.foldlM_cons] at h ⊢
    obtain ⟨⟨middle, between⟩, hstep, hrest⟩ := Option.bind_eq_some_iff.mp h
    rw [step_append hstep]
    exact ih hrest

end JsonReader

namespace Json

/-- Whether a text spells out a value: wherever a value is expected, its tokens are read as
that value. -/
def Spelled (text : List Char) (v : Json) : Prop :=
  ∃ found, JsonScanner.between.tokens text = some found ∧
    ∀ stack, found.foldlM JsonReader.step ⟨.value, stack⟩ = some ⟨.behind v, stack⟩

variable {text : List Char} {v : Json}

/-- A whole text is read as the value that it spells out. -/
theorem parse_eq_some_iff : parse text = some v ↔ Spelled text v := by
  constructor
  · intro h
    obtain ⟨found, hfound, h⟩ := Option.bind_eq_some_iff.mp h
    refine ⟨found, hfound, fun stack => ?_⟩
    split at h
    · next w hread =>
      cases h
      exact JsonReader.foldlM_append hread
    · cases h
  · rintro ⟨found, hfound, hread⟩
    rw [parse, hfound, Option.bind_some, hread []]

example :
    parse "\x7b\"a\": [true, \"b\\n\"]\x7d".toList =
      some (.object [("a", .array [.boolean true, .string "b\n"])]) := by cbv

end Json

/-! ### Words -/

namespace JsonScanner

variable {read cs rest : List Char}

/-- Characters that neither end a word nor start another token. -/
def isPlain (c : Char) : Bool := !isMark c && !isBlank c && c != '"'

theorem tokens_word (h : ∀ c ∈ cs, isPlain c = true) :
    (word read).tokens cs = (Json.word? (read ++ cs)).map fun v => [.value v] := by
  induction cs generalizing read with
  | nil => rw [tokens, last, List.append_nil]
  | cons c cs ih =>
    obtain ⟨hc, hcs⟩ := List.forall_mem_cons.mp h
    have hnext : (word read).next c = some (word (read ++ [c]), []) := by
      simp only [isPlain, Bool.and_eq_true, Bool.not_eq_true'] at hc
      simp [next, hc.1.1, hc.1.2]
    rw [tokens_cons hnext, ih hcs, List.append_assoc]
    simp [Function.comp_def]

end JsonScanner

/-- A number or a name is read as what it stands for. -/
theorem Json.spelled_word {cs : List Char} {v : Json} (hne : cs ≠ [])
    (hplain : ∀ c ∈ cs, JsonScanner.isPlain c = true) (h : Json.word? cs = some v) :
    Json.Spelled cs v := by
  obtain ⟨c, rest, rfl⟩ := List.exists_cons_of_ne_nil hne
  obtain ⟨hc, hrest⟩ := List.forall_mem_cons.mp hplain
  have hnext : JsonScanner.between.next c = some (.word [c], []) := by
    simp only [JsonScanner.isPlain, Bool.and_eq_true, Bool.not_eq_true', bne_iff_ne] at hc
    simp [JsonScanner.next, hc.1.1, hc.1.2, hc.2]
  refine ⟨[.value v], ?_, fun stack => rfl⟩
  rw [JsonScanner.tokens_cons hnext, JsonScanner.tokens_word hrest]
  simp [h]

/-! ### Strings -/

namespace Text

/-- A hexadecimal digit neither ends a string nor escapes in it. -/
theorem hexDigit_plain : ∀ n < 16, hexDigit n ≠ '"' ∧ hexDigit n ≠ '\\' := by
  decide

theorem hexValue?_hexDigit : ∀ n < 16, Json.hexValue? (hexDigit n) = some n := by
  decide

end Text

namespace JsonScanner

variable {read rest : List Char} {c : Char}

theorem tokens_string_cons (hquote : c ≠ '"') (hslash : c ≠ '\\') :
    (string read).tokens (c :: rest) = (string (read ++ [c])).tokens rest := by
  have hnext : (string read).next c = some (string (read ++ [c]), []) := by
    simp [next, hquote, hslash]
  rw [tokens_cons hnext]
  simp

theorem tokens_string_escape :
    (string read).tokens ('\\' :: c :: rest) = (string (read ++ ['\\', c])).tokens rest := by
  have hslash : (string read).next '\\' = some (escape read, []) := rfl
  have hnext : (escape read).next c = some (string (read ++ ['\\', c]), []) := rfl
  rw [tokens_cons hslash, tokens_cons hnext]
  simp

/-- An escaped character is a part of the string. -/
theorem tokens_jsonChar (c : Char) :
    (string read).tokens (Text.jsonChar c ++ rest) =
      (string (read ++ Text.jsonChar c)).tokens rest := by
  have hletter : ∀ letter, (string read).tokens (['\\', letter] ++ rest) =
      (string (read ++ ['\\', letter])).tokens rest := fun _ => tokens_string_escape
  unfold Text.jsonChar
  split_ifs with hquote hslash
  all_goals try exact hletter _
  · next hcontrol =>
    have hfirst := Text.hexDigit_plain (c.toNat / 16) (by omega)
    have hsecond := Text.hexDigit_plain (c.toNat % 16) (by omega)
    rw [List.cons_append, List.cons_append, tokens_string_escape, List.cons_append,
      List.cons_append, List.cons_append, List.cons_append, tokens_string_cons (by decide) (by decide),
      tokens_string_cons (by decide) (by decide), tokens_string_cons hfirst.1 hfirst.2,
      tokens_string_cons hsecond.1 hsecond.2, List.nil_append]
    simp
  · exact tokens_string_cons hquote hslash

/-- The scanner reads an escaped text up to the quote that ends it. -/
theorem tokens_flatMap_jsonChar (cs : List Char) :
    (string read).tokens (cs.flatMap Text.jsonChar ++ '"' :: rest) =
      (Json.string? (read ++ cs.flatMap Text.jsonChar)).bind fun text =>
        (between.tokens rest).map fun more => .value (.string text) :: more := by
  induction cs generalizing read with
  | nil =>
    rw [List.flatMap_nil, List.nil_append, List.append_nil, tokens]
    cases hstring : Json.string? read with
    | none => simp [next, hstring]
    | some text => simp [next, hstring]
  | cons c cs ih =>
    rw [List.flatMap_cons, List.append_assoc, tokens_jsonChar, ih, List.append_assoc]

end JsonScanner

namespace Json

/-- An escaped character is read as one piece, which is the character. -/
theorem exists_piece (c : Char) (rest : List Char) :
    ∃ piece, units (Text.jsonChar c ++ rest) = (units rest).map (piece :: ·) ∧
      ∀ pieces, joined (piece :: pieces) = (joined pieces).map (c :: ·) := by
  unfold Text.jsonChar
  split_ifs with hquote hslash hb ht hn hf hr hcontrol
  · exact ⟨.char c, by simp [units, escaped?, hquote], fun _ => by rw [joined]⟩
  · exact ⟨.char c, by simp [units, escaped?, hslash], fun _ => by rw [joined]⟩
  · exact ⟨.char c, by simp [units, escaped?, hb], fun _ => by rw [joined]⟩
  · exact ⟨.char c, by simp [units, escaped?, ht], fun _ => by rw [joined]⟩
  · exact ⟨.char c, by simp [units, escaped?, hn], fun _ => by rw [joined]⟩
  · exact ⟨.char c, by simp [units, escaped?, hf], fun _ => by rw [joined]⟩
  · exact ⟨.char c, by simp [units, escaped?, hr], fun _ => by rw [joined]⟩
  · have hfirst := Text.hexValue?_hexDigit (c.toNat / 16) (by omega)
    have hsecond := Text.hexValue?_hexDigit (c.toNat % 16) (by omega)
    have hzero : hexValue? '0' = some 0 := rfl
    have hcode : 4096 * 0 + 256 * 0 + 16 * (c.toNat / 16) + c.toNat % 16 = c.toNat := by omega
    refine ⟨.code c.toNat, ?_, fun pieces => ?_⟩
    · simp only [List.cons_append, List.nil_append, units, hzero, hfirst, hsecond, hcode]
    · have hhigh : isHigh c.toNat = false := by simp [isHigh]; omega
      have hlow : isLow c.toNat = false := by simp [isLow]; omega
      rw [joined.eq_def]
      simp [hhigh, hlow]
  · refine ⟨.char c, ?_, fun _ => by rw [joined]⟩
    rw [List.singleton_append, units]
    · rw [if_neg (by simp [hslash, hcontrol])]
    · rintro _ _ _ _ _ rfl
      exact absurd rfl hslash
    · rintro _ _ rfl
      exact absurd rfl hslash

/-- What is escaped is read back, whatever characters it has. -/
theorem string?_flatMap_jsonChar (cs : List Char) :
    string? (cs.flatMap Text.jsonChar) = some (String.ofList cs) := by
  have hpieces : ∃ pieces, units (cs.flatMap Text.jsonChar) = some pieces ∧
      joined pieces = some cs := by
    induction cs with
    | nil => exact ⟨[], rfl, rfl⟩
    | cons c cs ih =>
      obtain ⟨pieces, hunits, hjoined⟩ := ih
      obtain ⟨piece, hpiece, hchar⟩ := exists_piece c (cs.flatMap Text.jsonChar)
      refine ⟨piece :: pieces, ?_, ?_⟩
      · rw [List.flatMap_cons, hpiece, hunits]
        rfl
      · rw [hchar, hjoined]
        rfl
  obtain ⟨pieces, hunits, hjoined⟩ := hpieces
  rw [string?, hunits, Option.bind_some, hjoined]
  rfl

/-- The tokens of a string, with whatever follows it. -/
theorem tokens_jsonString (text : String) (rest : List Char) :
    JsonScanner.between.tokens ((Text.jsonString text).toList ++ rest) =
      (JsonScanner.between.tokens rest).map fun more => .value (.string text) :: more := by
  have hquote : JsonScanner.between.next '"' = some (.string [], []) := rfl
  have htext : (Text.jsonString text).toList ++ rest =
      '"' :: (text.toList.flatMap Text.jsonChar ++ '"' :: rest) := by
    simp [Text.jsonString]
  rw [htext, JsonScanner.tokens_cons hquote, JsonScanner.tokens_flatMap_jsonChar, List.nil_append,
    string?_flatMap_jsonChar, String.ofList_toList]
  simp [Function.comp_def]

/-- A string is read back. -/
theorem spelled_string (text : String) : Spelled (Text.jsonString text).toList (.string text) := by
  refine ⟨[.value (.string text)], ?_, fun _ => rfl⟩
  have htokens := tokens_jsonString text []
  rw [List.append_nil] at htokens
  rw [htokens]
  rfl

/-! ### Arrays and objects -/

section

open JsonReader JsonScanner

/-- Behind an opening bracket an item is read as behind a comma. -/
theorem step_firstItem {stack : List JsonFrame} {token : JsonToken} {reader : JsonReader}
    (h : step ⟨.value, .array [] :: stack⟩ token = some reader) :
    step ⟨.firstItem, stack⟩ token = some reader := by
  rw [step]
  · exact h
  · rintro rfl
    cases h

/-- Behind an opening brace a key is read as behind a comma. -/
theorem step_firstKey {stack : List JsonFrame} {token : JsonToken} {reader : JsonReader}
    (h : step ⟨.key [], stack⟩ token = some reader) :
    step ⟨.firstKey, stack⟩ token = some reader := by
  rcases token with c | v
  · cases h
  · cases v with
    | string key => exact h
    | _ => cases h

/-- Tokens are read alike in two places if the first of them is. -/
theorem foldlM_of_step {place first reader : JsonReader} {found : List JsonToken}
    (hstep : ∀ {token next}, step place token = some next → step first token = some next)
    (hne : found ≠ []) (h : found.foldlM step place = some reader) :
    found.foldlM step first = some reader := by
  obtain ⟨token, more, rfl⟩ := List.exists_cons_of_ne_nil hne
  obtain ⟨next, hnext, hmore⟩ := Option.bind_eq_some_iff.mp h
  rw [List.foldlM_cons, hstep hnext]
  exact hmore

/-- Entries separated by commas are read one after the other, up to the mark that closes them.
What is between two commas is read at `place` and leaves the reader behind a value. -/
theorem exists_tokens_of_entries {E : Type} {reads : List Char → E → Prop} (close : Char)
    (place : List E → List JsonFrame → JsonReader)
    (behind : E → List E → List JsonFrame → JsonReader) (result : List E → Json)
    (hclose : isMark close = true)
    (hentry : ∀ text entry, reads text entry → ∃ found, between.tokens text = some found ∧
      ∀ entries stack, found.foldlM step (place entries stack) = some (behind entry entries stack))
    (hcomma : ∀ entry entries stack,
      step (behind entry entries stack) (.mark ',') = some (place (entries ++ [entry]) stack))
    (hend : ∀ entry entries stack, step (behind entry entries stack) (.mark close) =
      some ⟨.behind (result (entries ++ [entry])), stack⟩)
    {texts : List (List Char)} {entries : List E} (h : List.Forall₂ reads texts entries)
    (hne : entries ≠ []) :
    ∃ found, between.tokens ([','].intercalate texts ++ [close]) = some found ∧ found ≠ [] ∧
      ∀ before stack, found.foldlM step (place before stack) =
        some ⟨.behind (result (before ++ entries)), stack⟩ := by
  -- the last entry ends at the closing mark, every other one at a comma
  induction h with
  | nil => exact absurd rfl hne
  | @cons text entry texts entries hfirst hrest ih =>
    obtain ⟨found, htokens, hread⟩ := hentry text entry hfirst
    cases hrest with
    | nil =>
      have hmark : between.tokens (text ++ close :: []) = some (found ++ .mark close :: []) :=
        tokens_append_mark htokens hclose
      refine ⟨found ++ [.mark close], by simpa using hmark, by simp, fun before stack => ?_⟩
      rw [List.foldlM_append, hread]
      show (some (behind entry before stack) >>= _) = _
      simp [hend]
    | @cons next entry' texts entries hnext hothers =>
      obtain ⟨more, hmore, -, hreadMore⟩ := ih (List.cons_ne_nil _ _)
      have hmark : between.tokens (text ++ ',' :: ([','].intercalate (next :: texts) ++ [close])) =
          (between.tokens ([','].intercalate (next :: texts) ++ [close])).map
            fun more => found ++ .mark ',' :: more :=
        tokens_append_mark htokens (by decide)
      rw [hmore] at hmark
      refine ⟨found ++ .mark ',' :: more, ?_, by simp, fun before stack => ?_⟩
      · rw [List.intercalate_cons_cons]
        simpa using hmark
      · rw [List.foldlM_append, hread]
        show (some (behind entry before stack) >>= _) = _
        simp [hcomma, hreadMore]

/-- The items of an array in brackets are read as the array. -/
theorem spelled_array {texts : List (List Char)} {items : List Json}
    (h : List.Forall₂ Spelled texts items) :
    Spelled ('[' :: ([','].intercalate texts ++ [']'])) (.array items) := by
  by_cases hne : items = []
  · subst hne
    cases h
    exact ⟨[.mark '[', .mark ']'], rfl, fun _ => rfl⟩
  · obtain ⟨found, htokens, hfound, hread⟩ := exists_tokens_of_entries ']'
      (fun items stack => ⟨.value, .array items :: stack⟩)
      (fun item items stack => ⟨.behind item, .array items :: stack⟩) .array (by decide)
      (fun _ _ ⟨found, htokens, hread⟩ => ⟨found, htokens, fun _ _ => hread _⟩)
      (fun _ _ _ => rfl) (fun _ _ _ => rfl) h hne
    have hopen : between.next '[' = some (between, [.mark '[']) := rfl
    refine ⟨.mark '[' :: found, ?_, fun stack => ?_⟩
    · rw [tokens_cons hopen, htokens]
      rfl
    · show found.foldlM step ⟨.firstItem, stack⟩ = _
      exact foldlM_of_step step_firstItem hfound (hread [] stack)

/-- Whether a text spells out a member of an object: the key in quotes, a colon and the value. -/
def SpelledMember (text : List Char) (member : String × Json) : Prop :=
  ∃ value, text = (Text.jsonString member.1).toList ++ ':' :: value ∧ Spelled value member.2

/-- The members of an object in braces are read as the object, in order. -/
theorem spelled_object {texts : List (List Char)} {members : List (String × Json)}
    (h : List.Forall₂ SpelledMember texts members) :
    Spelled ('\x7b' :: ([','].intercalate texts ++ ['\x7d'])) (.object members) := by
  by_cases hne : members = []
  · subst hne
    cases h
    exact ⟨[.mark '\x7b', .mark '\x7d'], rfl, fun _ => rfl⟩
  · have hcolon : between.next ':' = some (between, [.mark ':']) := rfl
    have hmember : ∀ text member, SpelledMember text member →
        ∃ found, between.tokens text = some found ∧ ∀ members stack,
          found.foldlM step ⟨.key members, stack⟩ =
            some ⟨.behind member.2, .object members member.1 :: stack⟩ := by
      rintro _ member ⟨value, rfl, found, htokens, hread⟩
      refine ⟨.value (.string member.1) :: .mark ':' :: found, ?_, fun members stack => hread _⟩
      rw [tokens_jsonString, tokens_cons hcolon, htokens]
      rfl
    obtain ⟨found, htokens, hfound, hread⟩ := exists_tokens_of_entries '\x7d'
      (fun members stack => ⟨.key members, stack⟩)
      (fun member members stack => ⟨.behind member.2, .object members member.1 :: stack⟩) .object
      (by decide) hmember (fun _ _ _ => rfl) (fun _ _ _ => rfl) h hne
    have hopen : between.next '\x7b' = some (between, [.mark '\x7b']) := rfl
    refine ⟨.mark '\x7b' :: found, ?_, fun stack => ?_⟩
    · rw [tokens_cons hopen, htokens]
      rfl
    · show found.foldlM step ⟨.firstKey, stack⟩ = _
      exact foldlM_of_step step_firstKey hfound (hread [] stack)

end

end Json

end ClosureVtl
