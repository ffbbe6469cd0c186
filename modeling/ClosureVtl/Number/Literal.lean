/-
Module: ClosureVtl.Number.Literal
Purpose: Number literals of template text.
Main exports:
  Binary64.literal
-/
import ClosureVtl.Fault
import ClosureVtl.Number.Shortest

namespace ClosureVtl.Binary64

/-!
Whole numbers of up to fifteen digits are written as integers, without a sign on
zero; all other finite numbers are written with the fewest digits that read
back, always in positional notation.  Templates have no token for the infinities
and for NaN.
-/

/-- A number that is not finite, as messages name it. -/
def nonFiniteText (x : Binary64) : String :=
  if x.isNaN then "NaN" else if x.negative then "-inf" else "inf"

/-- Whole numbers from here on are written with the fewest digits that read
back instead of being written in full. -/
def fullDigitsBound : Nat := Nat.pow 10 15

/-- The digits of a finite magnitude. -/
def magnitudeText (x : Binary64) : String :=
  if x.isIntegral = true ∧ x.truncate < fullDigitsBound then toString x.truncate
  else x.shortest.text

/-- A number literal; numbers that are not finite have none. -/
def literal (x : Binary64) : Except Fault String :=
  if x.isFinite then
    .ok ((if x.negative = true ∧ x.isZero = false then "-" else "") ++ x.magnitudeText)
  else
    .error (.unsupported (.number x.nonFiniteText))

/-- Exactly the finite numbers have a literal. -/
theorem literal_isOk (x : Binary64) : x.literal.isOk = x.isFinite := by
  unfold literal
  split <;> simp_all [Except.isOk, Except.toBool]

end ClosureVtl.Binary64
