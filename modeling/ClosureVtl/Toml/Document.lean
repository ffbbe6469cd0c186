/-
Module: ClosureVtl.Toml.Document
Purpose: Whole TOML documents.
Main exports:
  Toml.value, Toml.Statement, Toml.State, Toml.document?
-/
import ClosureVtl.Toml.Scalar

namespace ClosureVtl.Toml

open Scan

/-!
A document is a list of statements: an entry, a header, or a header in double
brackets that starts a further table of the same name.  Statements are first read
from the text and then carried out in order; a document in which one of them
cannot be carried out is malformed.
-/

/-! ### Values -/

/-- An array; a comma may follow its last item. -/
def arrayOf (item : Scan Value) : Scan Value := do
  char '['
  let element : Scan Value := do
    blankLines
    let value ← item
    blankLines
    return value
  let items ←
    (do
      let items ← separated1 element (char ',')
      let _ ← option (char ',')
      return items) <|> pure []
  blankLines
  char ']'
  return .array items

/-- An entry: a path, a key and a value. -/
def entry (item : Scan Value) : Scan (List String × String × Value) := do
  let (path, key) ← keyPath
  char '='
  blank
  let value ← item
  return (path, key, value)

/-- An inline table, written on one line; no comma follows its last entry. -/
def inlineTableOf (item : Scan Value) : Scan Value := do
  char '\x7b'
  let entries ← separated (do let e ← entry item; blank; return e) (char ',')
  blank
  char '\x7d'
  let insert (t : Table) (e : List String × String × Value) : Option Table :=
    Table.insertDotted e.2.1 e.2.2 e.1 t
  match entries.foldlM insert [] with
  | some table => return .table .inline table
  | none => failure

/-- A value whose arrays and inline tables are nested at most `n` deep. -/
def valueWithin : Nat → Scan Value
  | 0 => scalar
  | n + 1 => arrayOf (valueWithin n) <|> inlineTableOf (valueWithin n) <|> scalar

/-- A value. -/
def value : Scan Value := valueWithin (depthLimit - 1)

/-! ### Statements -/

/-- A statement of a document. -/
inductive Statement where
  | entry (path : List String) (key : String) (value : Value)
  | header (path : List String) (key : String)
  | sharedHeader (path : List String) (key : String)
deriving Inhabited

/-- An entry on a line of its own. -/
def entryLine : Scan Statement := do
  let (path, key, value) ← entry value
  trailing
  return .entry path key value

/-- A header in double brackets. -/
def sharedHeaderLine : Scan Statement := do
  literal "[["
  let (path, key) ← keyPath
  literal "]]"
  trailing
  return .sharedHeader path key

/-- A header. -/
def headerLine : Scan Statement := do
  char '['
  let (path, key) ← keyPath
  char ']'
  trailing
  return .header path key

/-- A line, and the statement on it if there is one. -/
def line : Scan (Option Statement) :=
  (do comment; lineEnd; return none) <|>
    (do newline; return none) <|>
    (some <$> sharedHeaderLine) <|> (some <$> headerLine) <|> (some <$> entryLine)

/-- All statements of a document.  A byte order mark in front is ignored. -/
def statements : Scan (List Statement) := do
  let _ ← option (char '\uFEFF')
  blank
  let lines ← many (do let l ← line; blank; return l)
  return lines.filterMap id

/-! ### Documents -/

/-- A document that has been read in part: its entries and the header that the
next entries are written under. -/
structure State where
  root : Table := []
  header : List String := []
deriving Inhabited

/-- Carries out a statement. -/
def State.apply (state : State) : Statement → Option State
  | .entry path key value =>
    (state.root.insertUnder state.header path key value).map fun root => { state with root }
  | .header path key =>
    (state.root.openTable path key).map fun root => { root, header := path ++ [key] }
  | .sharedHeader path key =>
    (state.root.appendTable path key).map fun root => { root, header := path ++ [key] }

/-- The table that a text writes; `none` if it is malformed. -/
def document? (text : String) : Option Table := do
  let statements ← statements.run? text
  let state ← statements.foldlM State.apply {}
  return state.root

end ClosureVtl.Toml
