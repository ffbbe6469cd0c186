/-
Module: ClosureVtl.Text.Literal
Purpose: String literals, references and interpolations of template text.
Main exports:
  Text.nullText, Text.isTemplateSyntax, Text.quote, Text.isReference,
  Text.interpolation
-/
import ClosureVtl.Text.Letter

namespace ClosureVtl.Text

/-!
The template engine evaluates dollar and hash signs inside double quotes and
takes everything between single quotes as it stands.  A literal is therefore
written in double quotes with backslash escapes unless its text would be
evaluated; then it is written in single quotes, the single quotes in it doubled.
-/

/-- The null value of the template language. -/
def nullText : String := "$null"

/-- Whether the engine would evaluate a part of the text in double quotes. -/
def isTemplateSyntax (text : String) : Bool :=
  text.toList.any fun c => c == '$' || c == '#'

/-- A character inside double quotes. -/
def escapeChar (c : Char) : List Char :=
  if c = '\\' then ['\\', '\\']
  else if c = '"' then ['\\', '"']
  else if c = '\n' then ['\\', 'n']
  else if c = '\r' then ['\\', 'r']
  else if c = '\t' then ['\\', 't']
  else [c]

/-- The text between double quotes. -/
def escape (text : String) : String :=
  String.ofList (text.toList.flatMap escapeChar)

/-- A text in which every occurrence of a character is written twice. -/
def doubled (mark : Char) (text : String) : String :=
  String.ofList (text.toList.flatMap fun c => if c = mark then [c, c] else [c])

/-- A string literal of the template language. -/
def quote (text : String) : String :=
  if isTemplateSyntax text then
    "'" ++ doubled '\'' text ++ "'"
  else
    "\"" ++ escape text ++ "\""

/-- Whether a rendered value is a plain reference such as `$name.path`, which
can be read again without evaluating anything twice. -/
def isReference (value : String) : Bool :=
  match value.toList with
  | '$' :: path =>
    !path.isEmpty && path.all fun c => isAlphanumeric c || c == '_' || c == '.'
  | _ => false

/-- A rendered value inside an interpolated literal.  The braces keep the
literal text that follows apart from the name. -/
def interpolation (value : String) : String :=
  let name :=
    match value.toList with
    | '$' :: name => String.ofList name
    | _ => value
  "$\x7b" ++ name ++ "\x7d"

/-- Whether a name may stand behind a point in a path. -/
def isPathSegment (name : String) : Bool :=
  match name.toList with
  | [] => false
  | first :: rest =>
    (isAlphabetic first || first == '_') &&
      rest.all fun c => isAlphanumeric c || c == '_'

end ClosureVtl.Text
