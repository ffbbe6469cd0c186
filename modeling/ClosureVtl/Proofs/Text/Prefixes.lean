/-
Module: ClosureVtl.Proofs.Text.Prefixes
Purpose: Names and string literals can be told from the text that follows them.
Main exports:
  append_inj_of_all, Text.quote_append_inj
-/
import ClosureVtl.Proofs.Text.StringLiteral

namespace ClosureVtl

/-!
A text of several parts can be taken apart again if each part shows where it ends.  A name or
a number ends in front of the first character that it cannot have.  A string literal ends
with its quote; the quotes in it are written so that none of them is taken for this one.
-/

variable {cs cs' rest rest' : List Char}

/-- Where the characters of a class end, the text goes on in one way only. -/
theorem append_inj_of_all {p : Char → Bool} (hcs : ∀ c ∈ cs, p c = true)
    (hcs' : ∀ c ∈ cs', p c = true) (hrest : ∀ c, rest.head? = some c → p c = false)
    (hrest' : ∀ c, rest'.head? = some c → p c = false) (h : cs ++ rest = cs' ++ rest') :
    cs = cs' ∧ rest = rest' := by
  have htake : ∀ {front back : List Char}, (∀ c ∈ front, p c = true) →
      (∀ c, back.head? = some c → p c = false) → (front ++ back).takeWhile p = front := by
    intro front back hfront hback
    rw [List.takeWhile_append_of_pos hfront]
    cases back with
    | nil => simp
    | cons c back => simp [hback c rfl]
  have hsame : cs = cs' := by rw [← htake hcs hrest, h, htake hcs' hrest']
  subst hsame
  exact ⟨rfl, List.append_cancel_left h⟩

namespace Text

/-- A literal is told from what follows by the quote that ends it: whoever reads it stops
there. -/
theorem quote_append_inj {text text' : String} (hrest : rest.head? ≠ some '\'')
    (hrest' : rest'.head? ≠ some '\'')
    (h : (quote text).toList ++ rest = (quote text').toList ++ rest') :
    text = text' ∧ rest = rest' := by
  have hboth : some (text, rest) = some (text', rest') := by
    rw [← readLiteral_quote (.inr hrest), h, readLiteral_quote (.inr hrest')]
  cases hboth
  exact ⟨rfl, rfl⟩

end Text

end ClosureVtl
