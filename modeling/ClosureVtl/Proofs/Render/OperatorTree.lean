/-
Module: ClosureVtl.Proofs.Render.OperatorTree
Purpose: Trees of operators, accesses, names and literals, and the text that they are printed as.
Main exports:
  PlainName, InlineOp, OperatorTree, OperatorTree.text, OperatorTree.isGrouped,
  OperatorTree.text_append_inj, OperatorTree.eq_of_text_eq
-/
import ClosureVtl.Proofs.Number.Unsigned

namespace ClosureVtl

/-!
Binary operators are printed with parentheses around them, so an operand ends at a blank or a
parenthesis.  Everything else is printed without: signs stand in front of their operand, and
accesses behind their base.  So a text is read from the left: signs first, then a name, a
literal or a parenthesis, and then as many accesses as there are.  This is the way back to
the tree as long as signs are outside of accesses.

The proof is by induction on one of two trees with the same text, and keeps apart the accesses
that are still to come: what the induction is about is a tree with further accesses behind it.
-/

/-! ### Parts -/

/-- Whether a character may stand in a plain name. -/
def isNameChar (c : Char) : Bool := c.isAlphanum || c == '_'

/-- Whether a name is made of letters, digits and underscores of ASCII and starts with no
digit. -/
def isPlainName (text : String) : Bool :=
  match text.toList with
  | [] => false
  | first :: rest => !first.isDigit && (first :: rest).all isNameChar

/-- A name in ASCII. -/
structure PlainName where
  text : String
  plain : isPlainName text = true
deriving DecidableEq

/-- A plain name starts with no digit, and has no character that could not stand in it. -/
theorem PlainName.exists_cons (name : PlainName) :
    ∃ first rest, name.text.toList = first :: rest ∧ first.isDigit = false ∧
      ∀ c ∈ first :: rest, isNameChar c = true := by
  obtain ⟨text, plain⟩ := name
  unfold isPlainName at plain
  split at plain
  · cases plain
  · next first rest htext =>
    rw [Bool.and_eq_true, Bool.not_eq_true', List.all_eq_true] at plain
    exact ⟨first, rest, htext, plain.1, plain.2⟩

/-- A number whose sign is not set. -/
structure UnsignedNumber where
  value : Binary64
  unsigned : value.negative = false
deriving DecidableEq

/-- The operators that stand as a symbol between their operands; strict comparison is not
distinguished. -/
inductive InlineOp where
  | add | sub | mul | div | mod
  | eq | ne | lt | le | gt | ge
  | and | or
deriving DecidableEq, Repr

def InlineOp.symbol : InlineOp → String
  | add => "+"
  | sub => "-"
  | mul => "*"
  | div => "/"
  | mod => "%"
  | eq => "=="
  | ne => "!="
  | lt => "<"
  | le => "<="
  | gt => ">"
  | ge => ">="
  | and => "&&"
  | or => "||"

namespace OperatorTree

/-- An operator in front of its operand. -/
inductive Sign where
  | not
  | neg
deriving DecidableEq, Repr

def Sign.mark : Sign → Char
  | not => '!'
  | neg => '-'

/-- A value that is written out. -/
inductive Literal where
  | boolean (value : Bool)
  | number (value : UnsignedNumber)
  | string (text : String)
deriving DecidableEq

def Literal.text : Literal → String
  | boolean value => if value then "true" else "false"
  | number value => value.value.magnitudeText
  | string text => Text.quote text

/-- An access to a part of a value. -/
inductive Access where
  | member (name : PlainName)
  | element (key : Literal)
  /-- the call that reads the whole payload; it stands in accessors only -/
  | payload
deriving DecidableEq

def Access.text : Access → String
  | member name => "." ++ name.text
  | element key => "[" ++ key.text ++ "]"
  | payload => "('$')"

/-- What the text of an access starts with. -/
def Access.mark : Access → Char
  | member _ => '.'
  | element _ => '['
  | payload => '('

end OperatorTree

/-- A tree of operators, accesses, names and literals.  Parentheses are no part of it. -/
inductive OperatorTree (ν : Type) where
  | name (name : ν)
  | literal (value : OperatorTree.Literal)
  | access (base : OperatorTree ν) (step : OperatorTree.Access)
  | signed (sign : OperatorTree.Sign) (operand : OperatorTree ν)
  | binary (left : OperatorTree ν) (op : InlineOp) (right : OperatorTree ν)
deriving DecidableEq

namespace OperatorTree

variable {ν : Type}

/-- The text of a tree of variables. -/
def text : OperatorTree PlainName → String
  | name plain => "$" ++ plain.text
  | literal value => value.text
  | access base step => base.text ++ step.text
  | signed sign operand => String.singleton sign.mark ++ operand.text
  | binary left op right => "(" ++ left.text ++ " " ++ op.symbol ++ " " ++ right.text ++ ")"

def isSigned : OperatorTree ν → Bool
  | signed .. => true
  | _ => false

/-- Whether no sign is inside an access. -/
def isGrouped : OperatorTree ν → Bool
  | name _ | literal _ => true
  | access base _ => !base.isSigned && base.isGrouped
  | signed _ operand => operand.isGrouped
  | binary left _ right => left.isGrouped && right.isGrouped

/-- A tree with accesses behind it. -/
def accessed (tree : OperatorTree ν) (steps : List Access) : OperatorTree ν :=
  steps.foldl access tree

/-- What a text starts with. -/
inductive Opening where
  | dollar
  | letter
  | digit
  | quote
  | mark
  | parenthesis
deriving DecidableEq

def Opening.ofChar (c : Char) : Opening :=
  if c = '$' then dollar
  else if c = '(' then parenthesis
  else if c = '!' ∨ c = '-' then mark
  else if c = '"' ∨ c = '\'' then quote
  else if c.isDigit then digit
  else letter

def Literal.opening : Literal → Opening
  | boolean _ => .letter
  | number _ => .digit
  | string _ => .quote

/-- What the text of a tree starts with. -/
def opening : OperatorTree ν → Opening
  | name _ => .dollar
  | literal value => value.opening
  | access base _ => base.opening
  | signed .. => .mark
  | binary .. => .parenthesis

/-! ### What follows a part -/

/-- Whether a text may stand behind a name or a literal. -/
def Follows : List Char → Prop
  | [] => True
  | '.' :: rest => ∀ c, rest.head? = some c → c.isDigit = false
  | c :: _ => c ∈ [' ', ')', ']', '[', '(']

/-- Whether a text ends the operand that is in front of it. -/
def Ends (rest : List Char) : Prop := ∀ c, rest.head? = some c → c = ' ' ∨ c = ')'

variable {rest rest' : List Char} {c : Char} {tree : OperatorTree ν} {steps : List Access}

/-- Only a point, a blank or a bracket of some kind may follow. -/
theorem Follows.head (h : Follows rest) (hc : rest.head? = some c) :
    c ∈ ['.', ' ', ')', ']', '[', '('] := by
  unfold Follows at h
  split at h
  · cases hc
  · cases hc
    exact List.mem_cons_self
  · cases hc
    exact List.mem_cons_of_mem _ h

/-- None of these may stand in a name. -/
theorem Follows.not_isNameChar (h : Follows rest) (hc : rest.head? = some c) :
    isNameChar c = false := by
  have hm := h.head hc
  revert hm
  simp only [List.mem_cons, List.not_mem_nil, or_false]
  rintro (rfl | rfl | rfl | rfl | rfl | rfl) <;> decide

/-- And none is a quote, so a literal ends where its quotation mark is. -/
theorem Follows.not_quote (h : Follows rest) : rest.head? ≠ some '\'' := by
  intro hc
  have hm := h.head hc
  revert hm
  decide

/-- None prolongs a number either; a point is followed by no digit. -/
theorem Follows.endsDigits (h : Follows rest) : Binary64.EndsDigits rest := by
  refine ⟨fun c hc => ?_, fun c more heq => ?_⟩
  · have hname := h.not_isNameChar hc
    simp only [isNameChar, Char.isAlphanum, Bool.or_eq_false_iff] at hname
    exact hname.1.2
  · subst heq
    exact h c rfl

/-- A blank ends a tree. -/
theorem ends_blank (rest : List Char) : Ends (' ' :: rest) := by
  rintro c ⟨⟩
  exact .inl rfl

/-- So does a closing parenthesis. -/
theorem ends_close (rest : List Char) : Ends (')' :: rest) := by
  rintro c ⟨⟩
  exact .inr rfl

/-- The end of an operand may follow whatever the operand ends with. -/
theorem Ends.follows (h : Ends rest) : Follows rest := by
  unfold Follows
  split
  · trivial
  · rcases h _ rfl with hc | hc <;> cases hc
  · rcases h _ rfl with rfl | rfl <;> simp

/-- An access may follow: a name behind a point starts with no digit. -/
theorem follows_access (step : Access) (rest : List Char) :
    Follows (step.text.toList ++ rest) := by
  cases step with
  | member name =>
    obtain ⟨first, chars, htext, hfirst, -⟩ := name.exists_cons
    have hlist : (Access.member name).text.toList ++ rest = '.' :: first :: (chars ++ rest) := by
      simp [Access.text, htext]
    rw [hlist]
    rintro c ⟨⟩
    exact hfirst
  | element key =>
    have hlist : (Access.element key).text.toList ++ rest =
        '[' :: (key.text.toList ++ ']' :: rest) := by
      simp [Access.text]
    rw [hlist]
    show '[' ∈ _
    decide
  | payload =>
    show '(' ∈ _
    decide

/-- An access starts with its mark. -/
theorem Access.head?_text (step : Access) (rest : List Char) :
    (step.text.toList ++ rest).head? = some step.mark := by
  cases step <;> simp [Access.text, Access.mark]

/-- The text of accesses, one behind the other. -/
def accessTexts (steps : List Access) : List Char := steps.flatMap fun step => step.text.toList

/-- Any number of accesses may follow, and then the end of the operand. -/
theorem follows_accessTexts (h : Ends rest) (steps : List Access) :
    Follows (accessTexts steps ++ rest) := by
  cases steps with
  | nil => exact h.follows
  | cons step steps =>
    rw [accessTexts, List.flatMap_cons, List.append_assoc]
    exact follows_access step _

/-! ### Names, literals and accesses -/

/-- A name ends at the first character that may not stand in one. -/
theorem name_append_inj {plain plain' : PlainName} (hrest : Follows rest)
    (hrest' : Follows rest')
    (h : plain.text.toList ++ rest = plain'.text.toList ++ rest') :
    plain = plain' ∧ rest = rest' := by
  obtain ⟨first, chars, htext, -, hchars⟩ := plain.exists_cons
  obtain ⟨first', chars', htext', -, hchars'⟩ := plain'.exists_cons
  rw [htext, htext'] at h
  obtain ⟨hsame, hrests⟩ := append_inj_of_all hchars hchars' (fun _ => hrest.not_isNameChar)
    (fun _ => hrest'.not_isNameChar) h
  have hplain : plain.text = plain'.text := by
    apply String.toList_injective
    rw [htext, htext', hsame]
  obtain ⟨text, plain⟩ := plain
  obtain ⟨text', plain'⟩ := plain'
  cases hplain
  exact ⟨rfl, hrests⟩

/-- Each literal starts with a character of its own kind. -/
theorem Literal.exists_cons (literal : Literal) :
    ∃ first rest, literal.text.toList = first :: rest ∧
      Opening.ofChar first = literal.opening := by
  cases literal with
  | boolean value => cases value <;> exact ⟨_, _, rfl, rfl⟩
  | number value =>
    obtain ⟨whole, fraction, htext, hne, hdigits, -⟩ := value.value.exists_digits
    obtain ⟨first, whole, rfl⟩ := List.exists_cons_of_ne_nil hne
    have hdigit := hdigits first List.mem_cons_self
    have hne : ∀ c, c.isDigit = false → first ≠ c := by
      rintro c hc rfl
      rw [hdigit] at hc
      cases hc
    refine ⟨first, whole ++ fraction, htext, ?_⟩
    simp [Opening.ofChar, Literal.opening, hdigit, hne]
  | string text =>
    show ∃ first rest, (Text.quote text).toList = first :: rest ∧ _
    unfold Text.quote
    split
    · exact ⟨'\'', (Text.doubled '\'' text).toList ++ ['\''], by simp, rfl⟩
    · exact ⟨'"', (Text.escape text).toList ++ ['"'], by simp, rfl⟩

/-- Literals of different types start differently. -/
theorem Literal.opening_eq {literal literal' : Literal}
    (h : literal.text.toList ++ rest = literal'.text.toList ++ rest') :
    literal.opening = literal'.opening := by
  obtain ⟨first, chars, htext, hfirst⟩ := literal.exists_cons
  obtain ⟨first', chars', htext', hfirst'⟩ := literal'.exists_cons
  rw [htext, htext'] at h
  rw [← hfirst, ← hfirst', (List.cons.inj h).1]

/-- Literals of one kind are told apart by reading them to their end. -/
theorem Literal.text_append_inj {literal literal' : Literal} (hrest : Follows rest)
    (hrest' : Follows rest')
    (h : literal.text.toList ++ rest = literal'.text.toList ++ rest') :
    literal = literal' ∧ rest = rest' := by
  have hopening := Literal.opening_eq h
  cases literal <;> cases literal' <;> try cases hopening
  case boolean.boolean value value' =>
    cases value <;> cases value' <;> simp_all [Literal.text]
  case number.number value value' =>
    obtain ⟨hvalue, hrests⟩ := Binary64.magnitudeText_append_inj value.unsigned value'.unsigned
      hrest.endsDigits hrest'.endsDigits h
    obtain ⟨value, unsigned⟩ := value
    cases hvalue
    exact ⟨rfl, hrests⟩
  case string.string text text' =>
    obtain ⟨htext, hrests⟩ := Text.quote_append_inj hrest.not_quote hrest'.not_quote h
    exact ⟨congrArg string htext, hrests⟩

/-- The first character tells the kind of an access, and the rest is read as a name or as a
literal up to the bracket. -/
theorem Access.text_append_inj {step step' : Access} (hrest : Follows rest)
    (hrest' : Follows rest') (h : step.text.toList ++ rest = step'.text.toList ++ rest') :
    step = step' ∧ rest = rest' := by
  cases step <;> cases step' <;>
    simp only [Access.text, String.toList_append, List.append_assoc] at h
  case member.member plain plain' =>
    obtain ⟨rfl, hrests⟩ := name_append_inj hrest hrest' (List.cons.inj h).2
    exact ⟨rfl, hrests⟩
  case element.element key key' =>
    have hbracket : ∀ rest : List Char, Follows (']' :: rest) := by
      intro rest
      show ']' ∈ _
      decide
    obtain ⟨rfl, hrests⟩ := Literal.text_append_inj (hbracket rest) (hbracket rest')
      (List.cons.inj h).2
    exact ⟨rfl, (List.cons.inj hrests).2⟩
  case payload.payload => exact ⟨rfl, List.append_cancel_left h⟩
  all_goals cases (List.cons.inj h).1

/-- Accesses can be told from the end of the operand. -/
theorem accessTexts_append_inj {steps steps' : List Access} (hrest : Ends rest)
    (hrest' : Ends rest') (h : accessTexts steps ++ rest = accessTexts steps' ++ rest') :
    steps = steps' ∧ rest = rest' := by
  have hends : ∀ {step : Access} {more rest : List Char}, Ends rest →
      step.text.toList ++ more ≠ rest := by
    rintro step more rest hrest rfl
    rcases hrest _ (step.head?_text more) with hc | hc <;> cases step <;> cases hc
  induction steps generalizing steps' with
  | nil =>
    cases steps' with
    | nil => exact ⟨rfl, h⟩
    | cons step steps' =>
      rw [accessTexts, accessTexts, List.flatMap_cons, List.append_assoc] at h
      exact absurd h.symm (hends hrest)
  | cons step steps ih =>
    rw [accessTexts, List.flatMap_cons, List.append_assoc] at h
    cases steps' with
    | nil => exact absurd h (hends hrest')
    | cons step' steps' =>
      rw [accessTexts, List.flatMap_cons, List.append_assoc] at h
      obtain ⟨rfl, hmore⟩ := Access.text_append_inj (follows_accessTexts hrest steps)
        (follows_accessTexts hrest' steps') h
      obtain ⟨rfl, hrests⟩ := ih hmore
      exact ⟨rfl, hrests⟩

/-! ### Operators -/

/-- A symbol ends at the blank behind it. -/
theorem InlineOp.symbol_append_inj {op op' : InlineOp}
    (h : op.symbol.toList ++ ' ' :: rest = op'.symbol.toList ++ ' ' :: rest') :
    op = op' ∧ rest = rest' := by
  have hsymbol : ∀ op : InlineOp, ∀ c ∈ op.symbol.toList, (c != ' ') = true := by
    intro op
    cases op <;> simp [InlineOp.symbol]
  have hblank : ∀ (rest : List Char) (c : Char), (' ' :: rest).head? = some c →
      (c != ' ') = false := by
    rintro rest c ⟨⟩
    decide
  obtain ⟨hsame, hrests⟩ :=
    append_inj_of_all (hsymbol op) (hsymbol op') (hblank rest) (hblank rest') h
  refine ⟨?_, (List.cons.inj hrests).2⟩
  cases op <;> cases op' <;> first | rfl | exact absurd hsame (by simp [InlineOp.symbol])

variable {tree' : OperatorTree PlainName}

/-- A tree starts as the leftmost of its parts does. -/
theorem exists_cons (tree : OperatorTree PlainName) :
    ∃ first rest, tree.text.toList = first :: rest ∧ Opening.ofChar first = tree.opening := by
  induction tree with
  | name plain => exact ⟨'$', plain.text.toList, by simp [text], rfl⟩
  | literal value => exact value.exists_cons
  | access base step ih =>
    obtain ⟨first, rest, htext, hfirst⟩ := ih
    exact ⟨first, rest ++ step.text.toList, by simp [text, htext], hfirst⟩
  | signed sign operand ih =>
    refine ⟨sign.mark, operand.text.toList, by simp [text], ?_⟩
    cases sign <;> rfl
  | binary left op right =>
    exact ⟨'(',
      left.text.toList ++ ' ' :: (op.symbol.toList ++ ' ' :: (right.text.toList ++ [')'])),
      by simp [text], rfl⟩

/-- So equal texts begin with trees that start alike. -/
theorem opening_eq {tree : OperatorTree PlainName}
    (h : tree.text.toList ++ rest = tree'.text.toList ++ rest') :
    tree.opening = tree'.opening := by
  obtain ⟨first, chars, htext, hfirst⟩ := tree.exists_cons
  obtain ⟨first', chars', htext', hfirst'⟩ := tree'.exists_cons
  rw [htext, htext'] at h
  rw [← hfirst, ← hfirst', (List.cons.inj h).1]

/-- Only what has a sign outside starts with one. -/
theorem isSigned_of_opening (hgrouped : tree.isGrouped = true) (h : tree.opening = .mark) :
    tree.isSigned = true := by
  induction tree with
  | signed => rfl
  | access base step ih =>
    rw [isGrouped, Bool.and_eq_true] at hgrouped
    rw [ih hgrouped.2 h] at hgrouped
    cases hgrouped.1
  | literal value => cases value <;> cases h
  | name => cases h
  | binary => cases h

/-- A tree without a sign outside is a name, a literal or a binary operator, with accesses behind
it. -/
theorem exists_accessed (hgrouped : tree.isGrouped = true) (h : tree.isSigned = false) :
    ∃ (atom : OperatorTree ν) (steps : List Access), tree = atom.accessed steps ∧
      atom.isGrouped = true ∧ atom.isSigned = false ∧ ∀ base step, atom ≠ access base step := by
  induction tree with
  | access base step ih =>
    rw [isGrouped, Bool.and_eq_true, Bool.not_eq_true'] at hgrouped
    obtain ⟨atom, steps, hbase, hatom⟩ := ih hgrouped.2 hgrouped.1
    refine ⟨atom, steps ++ [step], ?_, hatom⟩
    rw [accessed, List.foldl_append]
    exact congrArg (access · step) hbase
  | signed => cases h
  | name plain => exact ⟨_, [], rfl, rfl, rfl, by simp⟩
  | literal value => exact ⟨_, [], rfl, rfl, rfl, by simp⟩
  | binary left op right => exact ⟨_, [], rfl, hgrouped, rfl, by simp⟩

/-- The text of accesses stands behind that of the tree. -/
theorem text_accessed (tree : OperatorTree PlainName) (steps : List Access) :
    (tree.accessed steps).text.toList = tree.text.toList ++ accessTexts steps := by
  induction steps generalizing tree with
  | nil => simp [accessed, accessTexts]
  | cons step steps ih =>
    show ((tree.access step).accessed steps).text.toList = _
    rw [ih]
    simp [text, accessTexts]

/-- Accesses do not change how a tree starts. -/
theorem opening_accessed (tree : OperatorTree ν) (steps : List Access) :
    (tree.accessed steps).opening = tree.opening := by
  induction steps generalizing tree with
  | nil => rfl
  | cons step steps ih => exact ih _

/-- With the accesses taken off, a tree has no sign inside an access either. -/
theorem isGrouped_of_accessed (h : (tree.accessed steps).isGrouped = true) :
    tree.isGrouped = true := by
  induction steps generalizing tree with
  | nil => exact h
  | cons step steps ih =>
    have hbase : (tree.access step).isGrouped = true := ih h
    rw [isGrouped, Bool.and_eq_true] at hbase
    exact hbase.2

/-- A sign has no access behind it. -/
theorem eq_nil_of_accessed_signed {sign : Sign} {operand : OperatorTree ν}
    (h : ((signed sign operand).accessed steps).isGrouped = true) : steps = [] := by
  cases steps with
  | nil => rfl
  | cons step steps =>
    have hbase : ((signed sign operand).access step).isGrouped = true := isGrouped_of_accessed h
    cases hbase

/-! ### Trees -/

/-- A tree whose text starts like that of another one, which has no sign outside, is what that
starts with, with accesses behind it. -/
theorem exists_atom_of_append_eq {tree : OperatorTree PlainName} {more : List Char}
    (hmark : tree.opening ≠ .mark) (hgrouped : tree'.isGrouped = true)
    (h : tree.text.toList ++ more = tree'.text.toList ++ rest') :
    ∃ (atom : OperatorTree PlainName) (steps : List Access), tree' = atom.accessed steps ∧
      atom.isGrouped = true ∧ (∀ base step, atom ≠ access base step) ∧
      atom.opening = tree.opening ∧
      tree.text.toList ++ more = atom.text.toList ++ (accessTexts steps ++ rest') := by
  have hopening := opening_eq h
  have hsigned : tree'.isSigned = false := by
    cases tree' with
    | signed => exact absurd hopening hmark
    | _ => rfl
  obtain ⟨atom, steps, rfl, hatom, -, haccess⟩ := exists_accessed hgrouped hsigned
  refine ⟨atom, steps, rfl, hatom, haccess, ?_, ?_⟩
  · rw [hopening, opening_accessed]
  · rw [h, text_accessed, List.append_assoc]

/-- A tree with accesses behind it can be told from what follows.  The accesses go with the tree
on the left as the induction gets to the base of one. -/
theorem accessed_eq_of_append_eq (tree : OperatorTree PlainName) :
    ∀ (steps : List Access) (tree' : OperatorTree PlainName) {rest rest' : List Char},
      (tree.accessed steps).isGrouped = true → tree'.isGrouped = true → Ends rest → Ends rest' →
      tree.text.toList ++ (accessTexts steps ++ rest) = tree'.text.toList ++ rest' →
      tree.accessed steps = tree' ∧ rest = rest' := by
  induction tree with
  | access base step ih =>
    intro steps tree' rest rest' hgrouped hgrouped' hrest hrest' h
    -- the access joins those behind the tree, and the base is smaller
    refine ih (step :: steps) tree' hgrouped hgrouped' hrest hrest' ?_
    simpa [text, accessTexts] using h
  | signed sign operand ih =>
    intro steps tree' rest rest' hgrouped hgrouped' hrest hrest' h
    -- a sign is never inside an access, so nothing is behind it
    obtain rfl := eq_nil_of_accessed_signed hgrouped
    have hsigned := isSigned_of_opening hgrouped' (opening_eq h).symm
    cases tree' with
    | signed sign' operand' =>
      have htexts : sign.mark :: (operand.text.toList ++ (accessTexts [] ++ rest)) =
          sign'.mark :: (operand'.text.toList ++ rest') := by
        simpa [text] using h
      obtain ⟨hmark, htext⟩ := List.cons.inj htexts
      obtain ⟨hoperand, hrests⟩ := ih [] operand' hgrouped hgrouped' hrest hrest' htext
      have hsign : sign = sign' := by
        cases sign <;> cases sign' <;> first | rfl | cases hmark
      exact ⟨congrArg₂ signed hsign hoperand, hrests⟩
    | _ => cases hsigned
  | name plain =>
    intro steps tree' rest rest' hgrouped hgrouped' hrest hrest' h
    obtain ⟨atom, steps', rfl, -, haccess, hopening, htext⟩ :=
      exists_atom_of_append_eq (by simp [opening]) hgrouped' h
    cases atom with
    | name plain' =>
      have htexts : plain.text.toList ++ (accessTexts steps ++ rest) =
          plain'.text.toList ++ (accessTexts steps' ++ rest') := by
        simpa [text] using htext
      obtain ⟨rfl, hmore⟩ := name_append_inj (follows_accessTexts hrest steps)
        (follows_accessTexts hrest' steps') htexts
      obtain ⟨rfl, hrests⟩ := accessTexts_append_inj hrest hrest' hmore
      exact ⟨rfl, hrests⟩
    | literal value => cases value <;> cases hopening
    | access base step => exact absurd rfl (haccess base step)
    | _ => cases hopening
  | literal value =>
    intro steps tree' rest rest' hgrouped hgrouped' hrest hrest' h
    obtain ⟨atom, steps', rfl, -, haccess, hopening, htext⟩ :=
      exists_atom_of_append_eq (by cases value <;> simp [opening, Literal.opening]) hgrouped' h
    cases atom with
    | literal value' =>
      obtain ⟨rfl, hmore⟩ := Literal.text_append_inj (follows_accessTexts hrest steps)
        (follows_accessTexts hrest' steps') htext
      obtain ⟨rfl, hrests⟩ := accessTexts_append_inj hrest hrest' hmore
      exact ⟨rfl, hrests⟩
    | access base step => exact absurd rfl (haccess base step)
    | _ => cases value <;> cases hopening
  | binary left op right ihl ihr =>
    intro steps tree' rest rest' hgrouped hgrouped' hrest hrest' h
    obtain ⟨atom, steps', rfl, hatom, haccess, hopening, htext⟩ :=
      exists_atom_of_append_eq (by simp [opening]) hgrouped' h
    cases atom with
    | binary left' op' right' =>
      have hparts := isGrouped_of_accessed hgrouped
      rw [isGrouped, Bool.and_eq_true] at hparts hatom
      -- an operand ends at the blank in front of the operator or at the closing parenthesis
      have htexts : left.text.toList ++ ' ' :: (op.symbol.toList ++ ' ' ::
            (right.text.toList ++ ')' :: (accessTexts steps ++ rest))) =
          left'.text.toList ++ ' ' :: (op'.symbol.toList ++ ' ' ::
            (right'.text.toList ++ ')' :: (accessTexts steps' ++ rest'))) := by
        simpa [text] using htext
      obtain ⟨rfl, hbehind⟩ := ihl [] left' hparts.1 hatom.1 (ends_blank _) (ends_blank _) htexts
      obtain ⟨rfl, hright⟩ := InlineOp.symbol_append_inj (List.cons.inj hbehind).2
      obtain ⟨rfl, hmore⟩ := ihr [] right' hparts.2 hatom.2 (ends_close _) (ends_close _) hright
      obtain ⟨rfl, hrests⟩ := accessTexts_append_inj hrest hrest' (List.cons.inj hmore).2
      exact ⟨rfl, hrests⟩
    | literal value => cases value <;> cases hopening
    | access base step => exact absurd rfl (haccess base step)
    | _ => cases hopening

/-- Trees that are printed alike are the same, if no sign is inside an access. -/
theorem eq_of_text_eq {tree tree' : OperatorTree PlainName} (hgrouped : tree.isGrouped = true)
    (hgrouped' : tree'.isGrouped = true) (h : tree.text = tree'.text) : tree = tree' := by
  have hends : Ends [] := by rintro c ⟨⟩
  have htexts : tree.text.toList ++ (accessTexts [] ++ []) = tree'.text.toList ++ [] := by
    rw [h, accessTexts, List.flatMap_nil, List.nil_append]
  exact (accessed_eq_of_append_eq tree [] tree' hgrouped hgrouped' hends hends htexts).1

end OperatorTree

end ClosureVtl
