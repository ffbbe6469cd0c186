/-
Module: ClosureVtl.Number.Binary64
Purpose: Double-precision numbers as exact values.
Main exports:
  Binary64, Binary64.ofBits, Binary64.isFinite, Binary64.significand,
  Binary64.exponent, Binary64.isIntegral, Binary64.truncate
-/

namespace ClosureVtl

/-!
A number literal holds a double-precision number.  It is kept as the three
fields of its encoding, so that each number other than NaN has one
representation, equality is decidable, and the magnitude of a finite number is
the exact value `significand * 2 ^ exponent`.
-/

/-- A double-precision number: sign, eleven bits of exponent and fifty-two bits
of fraction. -/
structure Binary64 where
  negative : Bool
  biased : Fin 2048
  fraction : Fin (Nat.pow 2 52)
deriving DecidableEq, Repr, Inhabited

namespace Binary64

/-- The number encoded by sixty-four bits, the sign first. -/
def ofBits (bits : Nat) : Binary64 where
  negative := bits / Nat.pow 2 63 % 2 == 1
  biased := ⟨bits / Nat.pow 2 52 % 2048, Nat.mod_lt _ (by decide)⟩
  fraction := ⟨bits % Nat.pow 2 52, Nat.mod_lt _ (by decide)⟩

/-- The largest biased exponent is kept for the infinities and NaN. -/
def isFinite (x : Binary64) : Bool := x.biased.val != 2047

/-- Not a number: the largest exponent with a fraction. -/
def isNaN (x : Binary64) : Bool := x.biased.val == 2047 && x.fraction.val != 0

/-- The integer that a finite number scales by a power of two.  All exponents
but the smallest have a leading one. -/
def significand (x : Binary64) : Nat :=
  if x.biased.val = 0 then x.fraction.val else x.fraction.val + Nat.pow 2 52

/-- The power of two that scales the significand of a finite number. -/
def exponent (x : Binary64) : Int := (max x.biased.val 1 : Int) - 1075

/-- Both zeros. -/
def isZero (x : Binary64) : Bool := x.biased.val == 0 && x.fraction.val == 0

/-- The magnitude of a finite number with its fractional part cut off. -/
def truncate (x : Binary64) : Nat :=
  match x.exponent with
  | .ofNat e => x.significand * Nat.pow 2 e
  | .negSucc e => x.significand / Nat.pow 2 (e + 1)

/-- Whether a number is finite and has no fractional part. -/
def isIntegral (x : Binary64) : Bool :=
  x.isFinite &&
    match x.exponent with
    | .ofNat _ => true
    | .negSucc e => x.significand % Nat.pow 2 (e + 1) == 0

/-- Whether a number is at least zero; both zeros are. -/
def isNonnegative (x : Binary64) : Bool :=
  !x.isNaN && (!x.negative || x.isZero)

/-- A number without fractional part is its own truncation. -/
theorem truncate_mul {x : Binary64} {e : Nat} (he : x.exponent = .negSucc e)
    (h : x.isIntegral = true) : x.truncate * Nat.pow 2 (e + 1) = x.significand := by
  simp only [isIntegral, he, Bool.and_eq_true, beq_iff_eq] at h
  simp only [truncate, he]
  exact Nat.div_mul_cancel (Nat.dvd_of_mod_eq_zero h.2)

end Binary64

end ClosureVtl
