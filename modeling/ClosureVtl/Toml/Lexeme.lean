/-
Module: ClosureVtl.Toml.Lexeme
Purpose: Blanks, comments, strings and keys of TOML.
Main exports:
  Toml.blank, Toml.newline, Toml.comment, Toml.blankLines, Toml.lineEnd,
  Toml.anyString, Toml.keyPath
-/
import ClosureVtl.Toml.Scan

namespace ClosureVtl.Toml

open Scan

/-!
Text outside ASCII may stand in comments, strings and quoted keys; control
characters other than the tab may not.  A line ends with a line feed, which a
carriage return may precede.
-/

/-! ### Blanks and comments -/

/-- A space or a tab. -/
def isBlank (c : Char) : Bool := c == ' ' || c == '\t'

/-- A character that may stand in any text of one line. -/
def isPrintable (c : Char) : Bool :=
  c == '\t' || (0x20 ≤ c.toNat && c.toNat ≤ 0x7E) || 0x80 ≤ c.toNat

/-- Any number of blanks. -/
def blank : Scan Unit := do
  let _ ← takeWhile isBlank

/-- The end of a line. -/
def newline : Scan Unit := char '\n' <|> literal "\r\n"

/-- The end of a line or of the document. -/
def lineEnd : Scan Unit := newline <|> eof

/-- A comment up to the end of its line. -/
def comment : Scan Unit := do
  char '#'
  let _ ← takeWhile isPrintable

/-- What may follow a statement on its line. -/
def trailing : Scan Unit := do
  blank
  let _ ← option comment
  lineEnd

/-- Blanks, ends of lines and comments, as between the items of an array. -/
def blankLines : Scan Unit := do
  let _ ← many ((do let _ ← takeWhile1 isBlank) <|> newline <|> (do comment; newline))

/-! ### Strings -/

/-- A hexadecimal digit of either case. -/
def isHexDigit (c : Char) : Bool :=
  c.isDigit || ('a' ≤ c && c ≤ 'f') || ('A' ≤ c && c ≤ 'F')

/-- The value of a digit in a base of up to sixteen. -/
def digitValue (c : Char) : Nat :=
  if c.isDigit then c.toNat - 48
  else if 'a' ≤ c ∧ c ≤ 'f' then c.toNat - 87
  else c.toNat - 55

/-- The number that digits write. -/
def ofDigits (base : Nat) (digits : List Char) : Nat :=
  digits.foldl (fun n c => n * base + digitValue c) 0

/-- A character by its code point in hexadecimal digits. -/
def codePoint (digits : Nat) : Scan Char := do
  let n := ofDigits 16 (← exactly isHexDigit digits)
  require (n < 0xD800 || (0xDFFF < n && n < 0x110000))
  return Char.ofNat n

/-- A character behind a backslash. -/
def escape : Scan Char := do
  char '\\'
  match ← satisfy fun _ => true with
  | 'b' => return '\x08'
  | 't' => return '\t'
  | 'n' => return '\n'
  | 'f' => return '\x0c'
  | 'r' => return '\r'
  | '"' => return '"'
  | '\\' => return '\\'
  | 'u' => codePoint 4
  | 'U' => codePoint 8
  | _ => failure

/-- A character of a string in double quotes that stands for itself. -/
def isBasicChar (c : Char) : Bool := isPrintable c && c != '"' && c != '\\'

/-- A character of a string in single quotes. -/
def isLiteralChar (c : Char) : Bool := isPrintable c && c != '\''

/-- A string of one line in double quotes. -/
def basicString : Scan String := do
  char '"'
  let content ← many (satisfy isBasicChar <|> escape)
  char '"'
  return String.ofList content

/-- A string of one line in single quotes. -/
def literalString : Scan String := do
  char '\''
  let content ← takeWhile isLiteralChar
  char '\''
  return String.ofList content

/-- A backslash at the end of a line, with all blanks and line ends behind it. -/
def continuedLine : Scan (List Char) := do
  char '\\'
  blank
  newline
  let _ ← many ((do let _ ← satisfy isBlank) <|> newline)
  return []

/-- An end of a line inside a string. -/
def innerNewline : Scan (List Char) := do
  newline
  return ['\n']

/-- One or two quotes that do not begin the closing three. -/
def innerQuotes (quote : Char) (follows : Scan Unit) : Scan (List Char) :=
  (do char quote; char quote; peek follows; return [quote, quote]) <|>
    (do char quote; peek follows; return [quote])

/-- A string of several lines: content in triple quotes.  A line end directly
behind the opening quotes is dropped.  Up to two quotes may stand anywhere in the
content, also right before the closing ones. -/
def multiLine (quote : Char) (content : Scan (List Char)) : Scan String := do
  let delimiter := literal (String.ofList [quote, quote, quote])
  delimiter
  let _ ← option newline
  let body ← many (content <|> innerQuotes quote (do let _ ← content))
  let final ← option (innerQuotes quote delimiter)
  delimiter
  return String.ofList (body.flatten ++ final.getD [])

/-- A string of several lines in double quotes. -/
def multiLineBasic : Scan String :=
  multiLine '"'
    (takeWhile1 isBasicChar <|> continuedLine <|> (do return [← escape]) <|> innerNewline)

/-- A string of several lines in single quotes. -/
def multiLineLiteral : Scan String :=
  multiLine '\'' (takeWhile1 isLiteralChar <|> innerNewline)

/-- A string of any kind. -/
def anyString : Scan String :=
  multiLineBasic <|> basicString <|> multiLineLiteral <|> literalString

/-! ### Keys -/

/-- A character of a key without quotes. -/
def isBareChar (c : Char) : Bool := c.isAlphanum || c == '-' || c == '_'

/-- A key without quotes. -/
def bareKey : Scan String := do
  return String.ofList (← takeWhile1 isBareChar)

/-- One key of a path. -/
def simpleKey : Scan String := basicString <|> literalString <|> bareKey

/-- Paths and nested values must stay shorter than this. -/
def depthLimit : Nat := 80

/-- Keys separated by points, blanks around each: the path and the last key. -/
def keyPath : Scan (List String × String) := do
  let keys ← separated1 (do blank; let key ← simpleKey; blank; return key) (char '.')
  require (keys.length < depthLimit)
  match keys.getLast? with
  | some key => return (keys.dropLast, key)
  | none => failure

end ClosureVtl.Toml
