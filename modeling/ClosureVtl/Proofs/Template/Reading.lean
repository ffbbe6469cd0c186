/-
Module: ClosureVtl.Proofs.Template.Reading
Purpose: Which references a text reads, and which assignments leave its value alone.
Main exports:
  Text.Quoting, Text.readsFrom, Text.reads, DependsOnReads, Text.KeepsValue, Text.keepsValue_iff
-/
import ClosureVtl.Proofs.Template.Execution

namespace ClosureVtl

/-!
A text that stands for a value is evaluated where the line that it is written in is run.
References are evaluated outside of quotes and between double quotes, where a backslash
takes away the meaning of the character behind it; between single quotes nothing is.  A
reference is a dollar sign and a name, which may stand in braces; it reads every variable
whose name it starts with, up to the end of a word.

What a text is worth is left open but for one thing: it depends on the references that the
text reads and on nothing else in the store.
-/

namespace Text

/-! ### References in a text -/

/-- Where the reader of a text stands with respect to its quotes. -/
inductive Quoting where
  | plain
  | double
  /-- behind a backslash between double quotes -/
  | escaped
  | single
deriving DecidableEq, Repr

/-- Whether a text starts with a name that no letter, digit or underscore prolongs. -/
def startsWithName (name text : List Char) : Bool :=
  name.isPrefixOf text &&
    !(text.drop name.length).head?.any fun c => isAlphanumeric c || c == '_'

/-- Whether what stands behind a dollar sign refers to a name, in braces or without. -/
def refersTo (name : List Char) : List Char → Bool
  | '\x7b' :: rest => startsWithName name rest
  | text => startsWithName name text

/-- Whether a reference to a name is evaluated in a text. -/
def readsFrom (name : List Char) : Quoting → List Char → Bool
  | _, [] => false
  | .plain, '\'' :: rest => readsFrom name .single rest
  | .plain, '"' :: rest => readsFrom name .double rest
  | .double, '"' :: rest => readsFrom name .plain rest
  | .double, '\\' :: rest => readsFrom name .escaped rest
  | .escaped, _ :: rest => readsFrom name .double rest
  | .single, '\'' :: rest => readsFrom name .plain rest
  | .single, _ :: rest => readsFrom name .single rest
  | quoting, '$' :: rest => refersTo name rest || readsFrom name quoting rest
  | quoting, _ :: rest => readsFrom name quoting rest

/-- Whether a text reads the variable that an assignment names. -/
def reads (text target : String) : Bool :=
  match target.toList with
  | '$' :: name => readsFrom name .plain text.toList
  | _ => false

end Text

/-! ### Values that are left alone -/

/-- Whether the value of each text depends on what the text reads, and on nothing else. -/
def DependsOnReads {V : Type} (eval : String → Store V → V) : Prop :=
  ∀ text store store', (∀ target, Text.reads text target = true → store target = store' target) →
    eval text store = eval text store'

/-- Whether assignments leave the value of a text alone, in whatever order and however often
they are made and whatever texts are worth. -/
def Text.KeepsValue (text : String) (made : List Assignment) : Prop :=
  ∀ (V : Type) (eval : String → Store V → V), DependsOnReads eval →
    ∀ run : List Assignment, (∀ a ∈ run, a ∈ made) →
      ∀ store, eval text (store.after eval run) = eval text store

namespace Text

variable {text : String} {made : List Assignment}

theorem keepsValue_of_not_reads (h : ∀ a ∈ made, reads text a.target = false) :
    KeepsValue text made := by
  intro V eval hdepends run hrun store
  apply hdepends
  intro target hreads
  apply Store.after_of_not_target
  intro a hm heq
  have hnot := h a (hrun a hm)
  rw [heq, hreads] at hnot
  cases hnot

/-- If texts that read a variable are worth one more than the variable and all others
nothing, an assignment of that variable is noticed. -/
theorem not_reads_of_keepsValue (h : KeepsValue text made) {a : Assignment} (hm : a ∈ made) :
    reads text a.target = false := by
  have hdepends : DependsOnReads fun text (store : Store Nat) =>
      if reads text a.target then store a.target + 1 else 0 := by
    intro text store store' hagree
    dsimp only
    split
    · next hreads => rw [hagree a.target hreads]
    · rfl
  have hkept := h Nat _ hdepends [a] (by simpa using hm) fun _ => 1
  cases hreads : reads text a.target with
  | false => rfl
  | true =>
    simp only [hreads, if_true, Store.after, List.foldl_cons, List.foldl_nil, Store.set] at hkept
    split at hkept <;> omega

/-- Exactly the assignments of variables that a text does not read leave its value alone. -/
theorem keepsValue_iff : KeepsValue text made ↔ ∀ a ∈ made, reads text a.target = false :=
  ⟨fun h _ hm => not_reads_of_keepsValue h hm, keepsValue_of_not_reads⟩

end Text

end ClosureVtl
