/-
Module: ClosureVtl.Toml.Scan
Purpose: Reading text from the front.
Main exports:
  Toml.Scan, Toml.Scan.char, Toml.Scan.takeWhile, Toml.Scan.many, Toml.Scan.run?
-/

namespace ClosureVtl.Toml

/-!
A scanner takes characters from the front of a text and returns a value, or fails
and takes nothing.  Of two alternatives the second is tried where the first one
fails.
-/

/-- A scanner. -/
abbrev Scan := StateT (List Char) Option

namespace Scan

/-- Takes a character that satisfies a predicate. -/
def satisfy (p : Char → Bool) : Scan Char := fun s =>
  match s with
  | [] => none
  | c :: rest => if p c then some (c, rest) else none

/-- Takes one given character. -/
def char (c : Char) : Scan Unit := do
  let _ ← satisfy (· == c)

/-- Takes a given text. -/
def literal (text : String) : Scan Unit := text.toList.forM char

/-- Takes all characters in front that satisfy a predicate. -/
def takeWhile (p : Char → Bool) : Scan (List Char) := fun s =>
  some (s.takeWhile p, s.dropWhile p)

/-- Takes at least one character that satisfies a predicate, and all that follow. -/
def takeWhile1 (p : Char → Bool) : Scan (List Char) := do
  let first ← satisfy p
  let rest ← takeWhile p
  return first :: rest

/-- Takes exactly `n` characters that satisfy a predicate. -/
def exactly (p : Char → Bool) : Nat → Scan (List Char)
  | 0 => pure []
  | n + 1 => do
    let first ← satisfy p
    let rest ← exactly p n
    return first :: rest

/-- Runs a scanner if it can. -/
def option {α : Type} (p : Scan α) : Scan (Option α) :=
  (some <$> p) <|> pure none

/-- Runs a scanner without taking anything. -/
def peek {α : Type} (p : Scan α) : Scan α := fun s =>
  (p s).map fun result => (result.1, s)

/-- Runs a scanner at most `n` times, as long as it can. -/
def manyWithin {α : Type} (p : Scan α) : Nat → Scan (List α)
  | 0 => pure []
  | n + 1 => fun s =>
    match p s with
    | none => some ([], s)
    | some (value, rest) =>
      (manyWithin p n rest).map fun result => (value :: result.1, result.2)

/-- Runs a scanner as often as it can.  One that takes something each time runs at
most once for each character. -/
def many {α : Type} (p : Scan α) : Scan (List α) := fun s => manyWithin p s.length s

/-- Values with a separator between each two; at least one. -/
def separated1 {α : Type} (p : Scan α) (separator : Scan Unit) : Scan (List α) := do
  let first ← p
  let rest ← many (do separator; p)
  return first :: rest

/-- Values with a separator between each two; possibly none. -/
def separated {α : Type} (p : Scan α) (separator : Scan Unit) : Scan (List α) :=
  separated1 p separator <|> pure []

/-- A value that a condition must hold for. -/
def require (condition : Bool) : Scan Unit :=
  if condition then pure () else failure

/-- The end of the text. -/
def eof : Scan Unit := fun s => if s.isEmpty then some ((), s) else none

/-- The value of a text that is scanned to its end. -/
def run? {α : Type} (p : Scan α) (text : String) : Option α :=
  (StateT.run (do let value ← p; eof; return value) text.toList).map Prod.fst

end Scan

end ClosureVtl.Toml
