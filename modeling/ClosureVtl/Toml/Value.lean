/-
Module: ClosureVtl.Toml.Value
Purpose: TOML documents as trees, and the rules by which statements extend them.
Main exports:
  Toml.Value, Toml.Origin, Toml.Table, Toml.Table.insertDotted,
  Toml.Table.openTable, Toml.Table.appendTable, Toml.Table.insertUnder
-/

namespace ClosureVtl.Toml

/-!
A TOML document is a table.  A table lists its entries in the order in which they
were written; keys are unique.  Where a table came from decides how it may still
grow:

* an inline table is complete as it stands;
* a table named by a header takes entries only from the lines below its header,
  and subtables from headers;
* a table that a longer header implied may still get a header of its own;
* a table that a dotted key made may be extended by dotted keys, but never gets a
  header.

Numbers with a fraction and dates are kept by their kind alone: no option has
such a value.
-/

/-- Where a table came from. -/
inductive Origin where
  | inline
  | header
  | implied
  | dotted
deriving DecidableEq, Repr, Inhabited

/-- A value of a document. -/
inductive Value where
  | string (text : String)
  | integer (value : Int)
  | float
  | boolean (value : Bool)
  | datetime
  | array (items : List Value)
  | table (origin : Origin) (entries : List (String × Value))
  /-- tables that share a header in double brackets; there is at least one -/
  | tables (earlier : List (List (String × Value))) (last : List (String × Value))
deriving Inhabited

/-- The entries of a table. -/
abbrev Table := List (String × Value)

namespace Table

/-- The value of a key. -/
def get? (t : Table) (key : String) : Option Value := t.lookup key

/-- Adds an entry. -/
def add (t : Table) (key : String) (value : Value) : Table := t ++ [(key, value)]

/-- Replaces the value of a key in its place. -/
def replace (t : Table) (key : String) (value : Value) : Table :=
  t.map fun entry => if entry.1 == key then (key, value) else entry

/-! ### Entries -/

/-- Adds an entry under a dotted path.  Tables on the path are made as needed.
Those that exist must not have a header; the innermost must itself have been made
by a dotted key. -/
def insertDotted (key : String) (value : Value) : List String → Table → Option Table
  | [], t => if (t.get? key).isSome then none else some (t.add key value)
  | step :: path, t =>
    match t.get? step with
    | none =>
      (insertDotted key value path []).map fun inner => t.add step (.table .dotted inner)
    | some (.table .dotted inner) =>
      (insertDotted key value path inner).map fun inner =>
        t.replace step (.table .dotted inner)
    | some (.table .implied inner) =>
      if path.isEmpty then none
      else
        (insertDotted key value path inner).map fun inner =>
          t.replace step (.table .implied inner)
    | some (.tables earlier last) =>
      if path.isEmpty then none
      else
        (insertDotted key value path last).map fun last =>
          t.replace step (.tables earlier last)
    | some _ => none

/-! ### Headers -/

/-- Changes the table that a path of header keys leads to.  Tables on the path
are implied as needed; of tables that share a header the last one is meant. -/
def atHeader (change : Table → Option Table) : List String → Table → Option Table
  | [], t => change t
  | step :: path, t =>
    match t.get? step with
    | none => (atHeader change path []).map fun inner => t.add step (.table .implied inner)
    | some (.table .inline _) => none
    | some (.table origin inner) =>
      (atHeader change path inner).map fun inner => t.replace step (.table origin inner)
    | some (.tables earlier last) =>
      (atHeader change path last).map fun last => t.replace step (.tables earlier last)
    | some _ => none

/-- Gives a table its header.  A table has at most one. -/
def openTable (path : List String) (key : String) : Table → Option Table :=
  atHeader (fun t =>
    match t.get? key with
    | none => some (t.add key (.table .header []))
    | some (.table .implied inner) => some (t.replace key (.table .header inner))
    | some _ => none) path

/-- Starts a further table under a shared header. -/
def appendTable (path : List String) (key : String) : Table → Option Table :=
  atHeader (fun t =>
    match t.get? key with
    | none => some (t.add key (.tables [] []))
    | some (.tables earlier last) => some (t.replace key (.tables (earlier ++ [last]) []))
    | some _ => none) path

/-- Adds an entry to the table of a header. -/
def insertUnder (header path : List String) (key : String) (value : Value) :
    Table → Option Table :=
  atHeader (insertDotted key value path) header

/-! ### Keys stay unique -/

/-- A plain entry is added only under a new key. -/
theorem insertDotted_nil_eq_some_iff {key : String} {value : Value} {t u : Table} :
    insertDotted key value [] t = some u ↔ t.get? key = none ∧ u = t.add key value := by
  unfold insertDotted
  split
  · next h => simp; intro hn; simp [hn] at h
  · next h => simp at h; simp [h, eq_comm]

end Table

end ClosureVtl.Toml
