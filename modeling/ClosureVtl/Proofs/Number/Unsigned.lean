/-
Module: ClosureVtl.Proofs.Number.Unsigned
Purpose: A number without a sign can be told from the digits that it is written with, also if
  other text follows.
Main exports:
  Binary64.eq_of_magnitude_eq, Binary64.eq_of_magnitudeText_eq, Binary64.EndsDigits,
  Binary64.magnitudeText_append_inj, Binary64.unsigned, Binary64.literal_of_isNonnegative,
  Binary64.exists_value_eq_natCast_iff, Binary64.value_eq_of_magnitudeText_eq
-/
import ClosureVtl.Proofs.Number.Nearest
import ClosureVtl.Proofs.Text.Prefixes

namespace ClosureVtl

/-!
The digits of a number are read as a decimal that no other number is nearer to, so two numbers
with the same digits have the same magnitude; and a magnitude has one encoding only, since all
significands but the smallest have a leading one.

A number ends where its digits end, except that a point and a digit continue it.  A point
that continues it is told from one that starts an access by the character behind it.

The whole numbers from zero on are the ones that count something, and their digits say what.
-/

namespace Binary64

variable {x y : Binary64} {rest rest' : List Char}

/-! ### One encoding for each magnitude -/

/-- The magnitudes with one exponent are below those with a greater one. -/
theorem magnitude_lt_of_exponent_lt (h : x.exponent < y.exponent) :
    x.magnitude < y.magnitude := by
  have hnormal := le_significand (x := y) (by have := x.le_exponent; omega)
  have hbound := x.significand_lt
  calc x.magnitude
      < 2 ^ 53 * 2 ^ x.exponent := by
        rw [magnitude]
        exact mul_lt_mul_of_pos_right (by exact_mod_cast hbound) x.exponent_pos
    _ = 2 ^ 52 * 2 ^ (x.exponent + 1) := by
        rw [zpow_add₀ (by norm_num), zpow_one]
        ring
    _ ≤ y.significand * 2 ^ y.exponent := by
        gcongr
        · exact_mod_cast hnormal
        · norm_num
        · omega
    _ = y.magnitude := rfl

theorem eq_of_magnitude_eq (hsign : x.negative = y.negative) (h : x.magnitude = y.magnitude) :
    x = y := by
  have hexponent : x.exponent = y.exponent := by
    rcases lt_trichotomy x.exponent y.exponent with hlt | heq | hgt
    · exact absurd h (magnitude_lt_of_exponent_lt hlt).ne
    · exact heq
    · exact absurd h (magnitude_lt_of_exponent_lt hgt).ne'
  have hsignificand : x.significand = y.significand := by
    rw [magnitude, magnitude, hexponent] at h
    exact_mod_cast mul_right_cancel₀ y.exponent_pos.ne' h
  obtain ⟨negative, biased, fraction⟩ := x
  obtain ⟨negative', biased', fraction'⟩ := y
  cases hsign
  have hx := fraction.isLt
  have hy := fraction'.isLt
  simp only [Nat.pow_eq] at hx hy
  simp only [exponent] at hexponent
  simp only [significand, Nat.pow_eq] at hsignificand
  -- the smallest biased exponents share a power of two, but only one of them has a leading one
  have hb : biased.val = biased'.val := by
    split at hsignificand <;> split at hsignificand <;> omega
  have hf : fraction.val = fraction'.val := by
    rw [hb] at hsignificand
    split at hsignificand <;> omega
  rw [Fin.ext hb, Fin.ext hf]

/-- Numbers without a sign that are written with the same digits are the same. -/
theorem eq_of_magnitudeText_eq (hx : x.negative = false) (hy : y.negative = false)
    (h : x.magnitudeText = y.magnitudeText) : x = y := by
  have hvalue : ∀ {z : Binary64}, z.negative = false → z.value = z.magnitude := by
    intro z hz
    exact value_eq_magnitude (by simp [hz])
  obtain ⟨d, hd, hrounds⟩ := x.exists_decimal
  obtain ⟨e, he, hrounds'⟩ := y.exists_decimal
  have hread : d.value = e.value := by
    have htext : d.text = e.text := by rw [← hd, h, he]
    have hmagnitude := d.magnitude?_text
    rw [htext, e.magnitude?_text] at hmagnitude
    exact (Option.some.inj hmagnitude).symm
  have hnearest : x.Nearest d.value := by
    rw [Nearest, hvalue hx]
    exact hrounds
  have hnearest' : y.Nearest d.value := by
    rw [Nearest, hvalue hy, hread]
    exact hrounds'
  refine eq_of_magnitude_eq (hx.trans hy.symm) ?_
  rw [← hvalue hx, ← hvalue hy]
  exact hnearest.value_eq hnearest'

/-! ### Where a number ends -/

/-- A number is written with digits, and behind them at most a point and more digits. -/
theorem exists_digits (x : Binary64) :
    ∃ whole fraction, x.magnitudeText.toList = whole ++ fraction ∧ whole ≠ [] ∧
      (∀ c ∈ whole, c.isDigit = true) ∧
      (fraction = [] ∨ ∃ first kept, fraction = '.' :: first :: kept ∧
        ∀ c ∈ first :: kept, c.isDigit = true) := by
  obtain ⟨d, hd, -⟩ := x.exists_decimal
  rw [hd]
  rcases d.text_cases with ⟨n, htext, -⟩ | ⟨whole, kept, htext, hne, hkept, -⟩
  · exact ⟨_, [], by rw [htext, List.append_nil], Nat.toDigits_ne_nil, isDigit_toDigits n, .inl rfl⟩
  · obtain ⟨first, kept, rfl⟩ := List.exists_cons_of_ne_nil hne
    exact ⟨_, _, htext, Nat.toDigits_ne_nil, isDigit_toDigits whole, .inr ⟨first, kept, rfl, hkept⟩⟩

/-- Whether the digits of a number do not go on in a text: neither with a digit nor with a point
and a digit. -/
def EndsDigits (rest : List Char) : Prop :=
  (∀ c, rest.head? = some c → c.isDigit = false) ∧
    ∀ c more, rest = '.' :: c :: more → c.isDigit = false

/-- A number can be told from a text that starts with it. -/
theorem magnitudeText_append_inj (hx : x.negative = false) (hy : y.negative = false)
    (hrest : EndsDigits rest) (hrest' : EndsDigits rest')
    (h : x.magnitudeText.toList ++ rest = y.magnitudeText.toList ++ rest') :
    x = y ∧ rest = rest' := by
  obtain ⟨whole, fraction, htext, -, hwhole, hfraction⟩ := x.exists_digits
  obtain ⟨whole', fraction', htext', -, hwhole', hfraction'⟩ := y.exists_digits
  -- behind the whole part there is a point or the end of the number
  have hends : ∀ {fraction rest : List Char}, EndsDigits rest →
      (fraction = [] ∨ ∃ first kept, fraction = '.' :: first :: kept ∧
        ∀ c ∈ first :: kept, c.isDigit = true) →
      ∀ c, (fraction ++ rest).head? = some c → c.isDigit = false := by
    rintro fraction rest hrest (rfl | ⟨first, kept, rfl, -⟩) c hc
    · exact hrest.1 c hc
    · cases hc
      decide
  rw [htext, htext', List.append_assoc, List.append_assoc] at h
  obtain ⟨rfl, hbehind⟩ := append_inj_of_all hwhole hwhole' (hends hrest hfraction)
    (hends hrest' hfraction') h
  have hsame : fraction = fraction' ∧ rest = rest' := by
    rcases hfraction with rfl | ⟨first, kept, rfl, hdigits⟩ <;>
      rcases hfraction' with rfl | ⟨first', kept', rfl, hdigits'⟩
    · exact ⟨rfl, hbehind⟩
    · have hdigit := hrest.2 first' (kept' ++ rest') hbehind
      rw [hdigits' first' List.mem_cons_self] at hdigit
      cases hdigit
    · have hdigit := hrest'.2 first (kept ++ rest) hbehind.symm
      rw [hdigits first List.mem_cons_self] at hdigit
      cases hdigit
    · obtain ⟨hdigits, hrests⟩ := append_inj_of_all hdigits hdigits' hrest.1 hrest'.1
        (List.cons.inj hbehind).2
      exact ⟨by rw [hdigits], hrests⟩
  refine ⟨eq_of_magnitudeText_eq hx hy (String.toList_injective ?_), hsame.2⟩
  rw [htext, htext', hsame.1]

/-! ### Numbers without their sign -/

/-- A number without its sign. -/
def unsigned (x : Binary64) : Binary64 := { x with negative := false }

/-- Of the numbers from zero on only zero can have a sign. -/
theorem not_signed_of_isNonnegative (h : x.isNonnegative = true) :
    ¬(x.negative = true ∧ x.isZero = false) := by
  rintro ⟨hnegative, hzero⟩
  simp [isNonnegative, hnegative, hzero] at h

/-- Zero is written without its sign. -/
theorem magnitudeText_unsigned (h : x.isNonnegative = true) :
    x.unsigned.magnitudeText = x.magnitudeText := by
  obtain ⟨negative, biased, fraction⟩ := x
  cases negative with
  | false => rfl
  | true =>
    simp only [isNonnegative, isZero, Bool.and_eq_true, Bool.not_true, Bool.false_or,
      beq_iff_eq] at h
    obtain rfl : biased = 0 := Fin.ext h.2.1
    obtain rfl : fraction = ⟨0, by decide⟩ := Fin.ext h.2.2
    decide +kernel

/-- A number from zero on is written without a sign. -/
theorem literal_of_isNonnegative (hfinite : x.isFinite = true)
    (hnonnegative : x.isNonnegative = true) : x.literal = .ok x.unsigned.magnitudeText := by
  rw [magnitudeText_unsigned hnonnegative, literal, if_pos hfinite,
    if_neg (not_signed_of_isNonnegative hnonnegative), String.empty_append]

/-! ### Numbers that count -/

/-- A finite number other than the zeros has a significand. -/
theorem magnitude_pos (h : x.isZero = false) : 0 < x.magnitude := by
  have hsignificand : 0 < x.significand := by
    simp only [isZero, Bool.and_eq_false_iff, beq_eq_false_iff_ne] at h
    unfold significand
    simp only [Nat.pow_eq]
    split <;> omega
  have hscale := x.exponent_pos
  unfold magnitude
  positivity

/-- Exactly the whole numbers from zero on have the value of a natural number. -/
theorem exists_value_eq_natCast_iff (hfinite : x.isFinite = true) :
    (∃ n : ℕ, x.value = n) ↔ x.isIntegral = true ∧ x.isNonnegative = true := by
  constructor
  · rintro ⟨n, hn⟩
    have hmagnitude : x.magnitude = n := by
      rw [← x.abs_value, hn, Nat.abs_cast]
    constructor
    · rw [isIntegral, hfinite, Bool.true_and]
      split
      · rfl
      · next e he =>
        have hsignificand : x.significand = n * 2 ^ (e + 1) := by
          rw [magnitude, he, zpow_negSucc, ← div_eq_mul_inv, div_eq_iff (by positivity)]
            at hmagnitude
          exact_mod_cast hmagnitude
        rw [hsignificand, Nat.pow_eq, Nat.mul_mod_left]
        rfl
    · have hnumber : x.isNaN = false := by
        rw [isFinite, bne_iff_ne] at hfinite
        simp [isNaN, hfinite]
      rw [isNonnegative, hnumber, Bool.not_false, Bool.true_and, Bool.or_eq_true, Bool.not_eq_true']
      -- with a sign in front of a magnitude the value would be below zero
      by_contra hsign
      rw [not_or, Bool.not_eq_false, Bool.not_eq_true] at hsign
      have hpos := magnitude_pos hsign.2
      rw [value, sign, hsign.1, if_pos rfl, hmagnitude] at hn
      rw [hmagnitude] at hpos
      linarith
  · rintro ⟨hintegral, hnonnegative⟩
    refine ⟨x.truncate, ?_⟩
    rw [value_eq_magnitude (not_signed_of_isNonnegative hnonnegative),
      magnitude_truncate hintegral]

/-- Numbers from zero on that are written with the same digits have one value. -/
theorem value_eq_of_magnitudeText_eq (hx : x.isNonnegative = true) (hy : y.isNonnegative = true)
    (h : x.magnitudeText = y.magnitudeText) : x.value = y.value := by
  have hunsigned : ∀ {z : Binary64}, z.isNonnegative = true → z.unsigned.value = z.value := by
    intro z hz
    rw [value_eq_magnitude (not_signed_of_isNonnegative hz)]
    exact value_eq_magnitude (by simp [unsigned])
  have hsame : x.unsigned = y.unsigned := by
    refine eq_of_magnitudeText_eq rfl rfl ?_
    rw [magnitudeText_unsigned hx, magnitudeText_unsigned hy, h]
  rw [← hunsigned hx, ← hunsigned hy, hsame]

end Binary64

end ClosureVtl
