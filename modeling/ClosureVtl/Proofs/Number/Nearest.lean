/-
Module: ClosureVtl.Proofs.Number.Nearest
Purpose: Number literals are read back as the number that they were written for.
Main exports:
  Binary64.value, Binary64.Grid, Binary64.RoundsTo, Binary64.Nearest,
  Binary64.roundsTo_of_reads, Binary64.Nearest.value_eq, Decimal.magnitude?_text,
  Binary64.exists_nearest_of_literal, Binary64.exists_spelled_literal
-/
import ClosureVtl.Proofs.Number.Notation
import ClosureVtl.Proofs.Text.JsonReader

namespace ClosureVtl

/-!
A decimal is read as the number of the format that it is nearest to, and of two that are
equally near as the one with the even significand.  The search for the shortest decimal tests
candidates against an interval; here it is shown that the decimals in the interval are exactly
read as the number that the interval belongs to, since no other number of the format lies
within twice its width.  The notation of a decimal is then read back digit by digit.
-/

/-- The value of a decimal. -/
def Decimal.value (d : Decimal) : ℚ := d.digits * 10 ^ d.power

namespace Binary64

/-- The magnitude of a finite number. -/
def magnitude (x : Binary64) : ℚ := x.significand * 2 ^ x.exponent

def sign (x : Binary64) : ℚ := if x.negative then -1 else 1

/-- The value of a finite number. -/
def value (x : Binary64) : ℚ := x.sign * x.magnitude

/-- The numbers that can be written with a significand of fifty-three bits.  There is no upper
bound for the exponent: what is nearest to a number out of range is not finite. -/
def Grid (g : ℚ) : Prop :=
  ∃ (m e : Int), m.natAbs < 2 ^ 53 ∧ -1074 ≤ e ∧ g = m * 2 ^ e

/-- Whether no number of the format is nearer to `q` than `v` is, and another one is as near only
if `even` holds. -/
structure RoundsTo (q v : ℚ) (even : Prop) : Prop where
  le : ∀ g, Grid g → |v - q| ≤ |g - q|
  tie : ∀ g, Grid g → |v - q| = |g - q| → g = v ∨ even

/-- Whether a finite number is the one that `q` is read as. -/
def Nearest (x : Binary64) (q : ℚ) : Prop := RoundsTo q x.value (x.significand % 2 = 0)

variable {x : Binary64} {d : Decimal} {q v g : ℚ} {even : Prop}

/-- Nothing is nearer to a number than itself. -/
theorem RoundsTo.self (v : ℚ) (even : Prop) : RoundsTo v v even where
  le g _ := by
    rw [sub_self, abs_zero]
    exact abs_nonneg _
  tie g _ h := by
    rw [sub_self, abs_zero] at h
    exact .inl (sub_eq_zero.mp (abs_eq_zero.mp h.symm))

/-- The format is symmetric around zero. -/
theorem Grid.neg (h : Grid g) : Grid (-g) := by
  obtain ⟨m, e, hm, he, rfl⟩ := h
  exact ⟨-m, e, by rwa [Int.natAbs_neg], he, by push_cast; ring⟩

/-- The format is symmetric. -/
theorem RoundsTo.neg (h : RoundsTo q v even) : RoundsTo (-q) (-v) even := by
  have hdistance : ∀ g : ℚ, |g - -q| = |-g - q| := fun g => by
    rw [← abs_neg]
    ring_nf
  refine ⟨fun g hg => ?_, fun g hg heq => ?_⟩
  · rw [hdistance, hdistance, neg_neg]
    exact h.le (-g) hg.neg
  · rw [hdistance, hdistance, neg_neg] at heq
    exact (h.tie (-g) hg.neg heq).imp_left neg_eq_iff_eq_neg.mp

/-! ### The grid around a number -/

/-- A significand has at most fifty-three bits. -/
theorem significand_lt (x : Binary64) : x.significand < 2 ^ 53 := by
  have hfraction := x.fraction.isLt
  unfold significand
  have hpow : Nat.pow 2 52 = 4503599627370496 := by decide
  split <;> omega

/-- No exponent is below that of the numbers without leading bit. -/
theorem le_exponent (x : Binary64) : -1074 ≤ x.exponent := by
  unfold exponent
  omega

/-- The spacing of the numbers around one is positive. -/
theorem exponent_pos (x : Binary64) : (0 : ℚ) < 2 ^ x.exponent := by positivity

/-- The distance to the next lower number in quarters of the spacing, halved. -/
theorem lowerQuarters_cases (x : Binary64) :
    (x.lowerQuarters = 2 ∧ (x.exponent = -1074 ∨ 2 ^ 52 + 1 ≤ x.significand)) ∨
      (x.lowerQuarters = 1 ∧ -1074 < x.exponent ∧ x.significand = 2 ^ 52) := by
  have hpow : Nat.pow 2 52 = 4503599627370496 := by decide
  unfold lowerQuarters exponent significand
  split
  · next h =>
    refine .inr ⟨rfl, ?_, ?_⟩
    · omega
    · rw [if_neg (by omega), h.1, hpow]
      norm_num
  · next h =>
    refine .inl ⟨rfl, ?_⟩
    split
    · exact .inl (by omega)
    · by_cases hone : x.biased.val = 1
      · exact .inl (by omega)
      · exact .inr (by omega)

/-- Four quarters make the spacing. -/
theorem quarter_mul (x : Binary64) : (4 : ℚ) * 2 ^ (x.exponent - 2) = 2 ^ x.exponent := by
  rw [zpow_sub₀ (by norm_num)]
  norm_num
  ring

/-- Numbers with the spacing of a number, or a wider one, are multiples of that spacing. -/
theorem apart_of_le {m e : Int} (he : x.exponent ≤ e) :
    (m * 2 ^ e : ℚ) = x.magnitude ∨ x.magnitude + 2 ^ x.exponent ≤ m * 2 ^ e ∨
      (m * 2 ^ e : ℚ) ≤ x.magnitude - 2 ^ x.exponent := by
  have hpos := x.exponent_pos
  have hscale : (m * 2 ^ e : ℚ) =
      ((m * 2 ^ (e - x.exponent).toNat : Int) : ℚ) * 2 ^ x.exponent := by
    have hexponent : e = ((e - x.exponent).toNat : Int) + x.exponent := by omega
    conv_lhs => rw [hexponent, zpow_add₀ (by norm_num), zpow_natCast]
    push_cast
    ring
  rw [hscale, magnitude]
  generalize m * 2 ^ (e - x.exponent).toNat = k
  rcases lt_trichotomy k x.significand with hlt | rfl | hgt
  · refine .inr (.inr ?_)
    have hle : (k : ℚ) ≤ x.significand - 1 := by exact_mod_cast Int.le_sub_one_of_lt hlt
    nlinarith
  · exact .inl (by push_cast; rfl)
  · refine .inr (.inl ?_)
    have hle : (x.significand : ℚ) + 1 ≤ k := by exact_mod_cast hgt
    nlinarith

/-- Numbers with a narrower spacing lie below. -/
theorem le_of_lt_exponent {m e : Int} (hm : m.natAbs < 2 ^ 53) (he : e < x.exponent) :
    (m * 2 ^ e : ℚ) ≤ (2 ^ 53 - 1) * 2 ^ (x.exponent - 1) := by
  have hmax : (m : ℚ) ≤ 2 ^ 53 - 1 := by
    have hle : m ≤ 2 ^ 53 - 1 := by omega
    exact_mod_cast hle
  calc (m * 2 ^ e : ℚ) ≤ (2 ^ 53 - 1) * 2 ^ e := by gcongr
    _ ≤ (2 ^ 53 - 1) * 2 ^ (x.exponent - 1) := by
      gcongr
      · norm_num
      · omega

/-- Below a number the grid leaves twice the lower part of its interval free, above it twice
the upper part. -/
theorem Grid.apart (hg : Grid g) (x : Binary64) :
    g = x.magnitude ∨ x.magnitude + 4 * 2 ^ (x.exponent - 2) ≤ g ∨
      g ≤ x.magnitude - 2 * x.lowerQuarters * 2 ^ (x.exponent - 2) := by
  obtain ⟨m, e, hm, he, rfl⟩ := hg
  have hpos := x.exponent_pos
  have hquarter := x.quarter_mul
  rcases le_or_gt x.exponent e with hle | hlt
  · rcases apart_of_le hle with heq | habove | hbelow
    · exact .inl heq
    · exact .inr (.inl (by rwa [hquarter]))
    · refine .inr (.inr (hbelow.trans ?_))
      rcases x.lowerQuarters_cases with ⟨hlower, -⟩ | ⟨hlower, -⟩ <;> rw [hlower] <;> push_cast <;>
        linarith
  · have hgap := le_of_lt_exponent hm hlt
    have hhalf : (2 : ℚ) ^ x.exponent = 2 * 2 ^ (x.exponent - 1) := by
      rw [zpow_sub₀ (by norm_num)]
      norm_num
      ring
    refine .inr (.inr (hgap.trans ?_))
    rw [magnitude]
    rcases x.lowerQuarters_cases with ⟨hlower, hnormal⟩ | ⟨hlower, -, hsignificand⟩
    · have hnormal := hnormal.resolve_left (by omega)
      have hbig : (2 ^ 52 + 1 : ℚ) ≤ x.significand := by exact_mod_cast hnormal
      rw [hlower]
      push_cast
      nlinarith
    · rw [hlower, hsignificand]
      push_cast
      nlinarith

/-! ### Decimals in the interval -/

/-- What is in the interval of a number is read as its magnitude. -/
theorem roundsTo_magnitude (hlow : x.magnitude - x.lowerQuarters * 2 ^ (x.exponent - 2) ≤ q)
    (hhigh : q ≤ x.magnitude + 2 * 2 ^ (x.exponent - 2))
    (hinside : x.significand % 2 = 1 →
      x.magnitude - x.lowerQuarters * 2 ^ (x.exponent - 2) < q ∧
        q < x.magnitude + 2 * 2 ^ (x.exponent - 2)) :
    RoundsTo q x.magnitude (x.significand % 2 = 0) := by
  have hpos : (0 : ℚ) < 2 ^ (x.exponent - 2) := by positivity
  have hlower : (1 : ℚ) ≤ x.lowerQuarters ∧ (x.lowerQuarters : ℚ) ≤ 2 := by
    rcases x.lowerQuarters_cases with ⟨h, -⟩ | ⟨h, -⟩ <;> rw [h] <;> norm_num
  have happart : ∀ g, Grid g → _ := fun g hg => hg.apart x
  generalize x.magnitude = v at *
  generalize (2 : ℚ) ^ (x.exponent - 2) = u at *
  generalize (x.lowerQuarters : ℚ) = l at *
  have hpositive : 0 < l * u := mul_pos (by linarith) hpos
  -- Only an end of the interval is as near to another number as to its own.
  have hfar : ∀ g, Grid g → g = v ∨ |v - q| < |g - q| ∨
      |v - q| = |g - q| ∧ (q = v - l * u ∨ q = v + 2 * u) := by
    intro g hg
    have hwide : l * u ≤ 2 * u := by nlinarith
    rcases happart g hg with heq | habove | hbelow
    · exact .inl heq
    · refine .inr ?_
      rw [abs_of_nonneg (show 0 ≤ g - q by linarith)]
      rcases abs_cases (v - q) with ⟨habs, -⟩ | ⟨habs, -⟩ <;> rw [habs]
      · exact .inl (by linarith)
      · rcases hhigh.lt_or_eq with hlt | rfl
        · exact .inl (by linarith)
        · rcases habove.lt_or_eq with hlt | rfl
          · exact .inl (by linarith)
          · exact .inr ⟨by ring, .inr rfl⟩
    · refine .inr ?_
      rw [abs_of_nonpos (show g - q ≤ 0 by linarith)]
      rcases abs_cases (v - q) with ⟨habs, -⟩ | ⟨habs, -⟩ <;> rw [habs]
      · rcases hlow.lt_or_eq with hlt | rfl
        · exact .inl (by linarith)
        · rcases hbelow.lt_or_eq with hlt | rfl
          · exact .inl (by linarith)
          · exact .inr ⟨by ring, .inl rfl⟩
      · exact .inl (by linarith)
  refine ⟨fun g hg => ?_, fun g hg heq => ?_⟩
  · rcases hfar g hg with rfl | hlt | ⟨heq, -⟩
    · exact le_rfl
    · exact hlt.le
    · exact heq.le
  · rcases hfar g hg with rfl | hlt | ⟨-, hend⟩
    · exact .inl rfl
    · exact absurd heq hlt.ne
    -- a tie is at an end of the interval, and an odd number does not own its ends
    · by_contra hneither
      obtain ⟨hlow, hhigh⟩ := hinside (by omega)
      rcases hend with rfl | rfl
      · exact lt_irrefl _ hlow
      · exact lt_irrefl _ hhigh

/-- The magnitude, counted in quarters of the spacing. -/
theorem magnitude_eq (x : Binary64) : x.magnitude = x.quarters * 2 ^ (x.exponent - 2) := by
  rw [magnitude, quarters, ← x.quarter_mul]
  push_cast
  ring

/-- The scale turns quarters into integers. -/
theorem quarterScale_spec (x : Binary64) :
    (0 : ℚ) < x.quarterScale.2 ∧
      (x.quarterScale.1 : ℚ) = 2 ^ (x.exponent - 2) * x.quarterScale.2 := by
  unfold quarterScale
  split
  · next e he =>
    rw [he]
    simp
  · next e he =>
    rw [he]
    refine ⟨by simp, ?_⟩
    rw [zpow_negSucc]
    simp

/-- A comparison on integers is one of the decimal and a count of quarters. -/
theorem exists_sides (x : Binary64) (d : Decimal) :
    ∃ scale : ℚ, 0 < scale ∧ ∀ count : Nat, (x.sides d count).1 = d.value * scale ∧
      (x.sides d count).2 = count * 2 ^ (x.exponent - 2) * scale := by
  obtain ⟨hpos, hscale⟩ := x.quarterScale_spec
  unfold sides Decimal.value
  cases d.power with
  | ofNat p =>
    refine ⟨x.quarterScale.2, hpos, fun count => ⟨?_, ?_⟩⟩
    · simp
    · push_cast
      rw [hscale]
      ring
  | negSucc p =>
    refine ⟨x.quarterScale.2 * 10 ^ (p + 1), by positivity, fun count => ⟨?_, ?_⟩⟩
    · rw [zpow_negSucc]
      push_cast
      field_simp
    · push_cast
      rw [hscale]
      simp
      ring

/-- The two sides compare as the count of quarters and the decimal do. -/
theorem sides_le_iff (x : Binary64) (d : Decimal) (count : Nat) :
    ((x.sides d count).2 ≤ (x.sides d count).1 ↔ count * 2 ^ (x.exponent - 2) ≤ d.value) ∧
      ((x.sides d count).1 ≤ (x.sides d count).2 ↔ d.value ≤ count * 2 ^ (x.exponent - 2)) := by
  obtain ⟨scale, hpos, hsides⟩ := x.exists_sides d
  obtain ⟨hfirst, hsecond⟩ := hsides count
  constructor
  · rw [← mul_le_mul_iff_of_pos_right hpos, ← hfirst, ← hsecond, Nat.cast_le]
  · rw [← mul_le_mul_iff_of_pos_right hpos, ← hfirst, ← hsecond, Nat.cast_le]

/-- A decimal that is tested successfully is read as the magnitude of the number. -/
theorem roundsTo_of_reads (h : x.Reads d) :
    RoundsTo d.value x.magnitude (x.significand % 2 = 0) := by
  have hunit : (0 : ℚ) < 2 ^ (x.exponent - 2) := by positivity
  -- The lower end is cut off at zero, which only widens the test.
  have hlow : x.magnitude - x.lowerQuarters * 2 ^ (x.exponent - 2) ≤
      (x.quarters - x.lowerQuarters : Nat) * 2 ^ (x.exponent - 2) := by
    rw [magnitude_eq, ← sub_mul]
    gcongr
    rw [sub_le_iff_le_add]
    exact_mod_cast le_tsub_add
  have hhigh : ((x.quarters + 2 : Nat) : ℚ) * 2 ^ (x.exponent - 2) =
      x.magnitude + 2 * 2 ^ (x.exponent - 2) := by
    rw [magnitude_eq]
    push_cast
    ring
  obtain ⟨hlowest, hbelow⟩ := x.sides_le_iff d (x.quarters - x.lowerQuarters)
  obtain ⟨habove, hhighest⟩ := x.sides_le_iff d (x.quarters + 2)
  rw [hhigh] at habove hhighest
  simp only [Reads, reads] at h
  split at h
  · next heven =>
    simp only [Bool.and_eq_true, decide_eq_true_eq] at h
    exact roundsTo_magnitude (hlow.trans (hlowest.mp h.1)) (hhighest.mp h.2)
      (fun hodd => by omega)
  · simp only [Bool.and_eq_true, decide_eq_true_eq] at h
    have hfirst := lt_of_not_ge fun hle => h.1.not_ge (hbelow.mpr hle)
    have hsecond := lt_of_not_ge fun hle => h.2.not_ge (habove.mpr hle)
    exact roundsTo_magnitude (hlow.trans hfirst.le) hsecond.le
      (fun _ => ⟨hlow.trans_lt hfirst, hsecond⟩)

/-! ### At most one number is read -/

/-- A finite number is one of the format. -/
theorem grid_value (x : Binary64) : Grid x.value := by
  have hlt := x.significand_lt
  unfold value sign
  split
  · exact ⟨-x.significand, x.exponent, by omega, x.le_exponent, by rw [magnitude]; push_cast; ring⟩
  · exact ⟨x.significand, x.exponent, by omega, x.le_exponent, by rw [magnitude]; push_cast; ring⟩

/-- The magnitude of a number is its absolute value. -/
theorem abs_value (x : Binary64) : |x.value| = x.magnitude := by
  have hpos : 0 ≤ x.magnitude := mul_nonneg (Nat.cast_nonneg _) x.exponent_pos.le
  unfold value sign
  split <;> simp [abs_of_nonneg hpos]

/-- Above the least exponent the leading bit is set. -/
theorem le_significand (h : -1074 < x.exponent) : 2 ^ 52 ≤ x.significand := by
  rcases x.lowerQuarters_cases with ⟨-, hfirst | hle⟩ | ⟨-, -, heq⟩ <;> omega

/-- The number behind one with an even significand. -/
theorem grid_succ (h : x.significand % 2 = 0) : Grid (x.magnitude + 2 ^ x.exponent) := by
  have hlt := x.significand_lt
  refine ⟨x.significand + 1, x.exponent, by omega, x.le_exponent, ?_⟩
  rw [magnitude]
  push_cast
  ring

/-- Of two neighbours one has an odd significand. -/
theorem not_even_of_adjacent {y : Binary64} (hlt : x.magnitude < y.magnitude)
    (hbetween : ∀ g, Grid g → ¬(x.magnitude < g ∧ g < y.magnitude))
    (hx : x.significand % 2 = 0) (hy : y.significand % 2 = 0) : False := by
  have hbound := y.significand_lt
  have hspacing := x.exponent_pos
  have hgrid : Grid y.magnitude :=
    ⟨y.significand, y.exponent, by omega, y.le_exponent, by rw [magnitude]; push_cast; rfl⟩
  -- the upper one is the next number of the grid
  have hnext : (y.significand : ℚ) * 2 ^ y.exponent = (x.significand + 1) * 2 ^ x.exponent := by
    have habove : x.magnitude + 2 ^ x.exponent ≤ y.magnitude := by
      rcases hgrid.apart x with heq | habove | hbelow
      · exact absurd heq hlt.ne'
      · rwa [x.quarter_mul] at habove
      · have : (0 : ℚ) ≤ 2 * x.lowerQuarters * 2 ^ (x.exponent - 2) := by positivity
        linarith
    have hle := not_lt.mp fun h => hbetween _ (grid_succ hx) ⟨by linarith, h⟩
    rw [← magnitude, le_antisymm hle habove, magnitude]
    ring
  -- spacing that does not shrink makes the next significand even; spacing that shrinks makes it
  -- too large
  rcases le_or_gt x.exponent y.exponent with hle | hgt
  · obtain ⟨k, hk⟩ := Int.le.dest hle
    have hnat : y.significand * 2 ^ k = x.significand + 1 := by
      rw [← hk, zpow_add₀ (by norm_num), zpow_natCast, mul_comm (2 ^ x.exponent : ℚ),
        ← mul_assoc] at hnext
      exact_mod_cast mul_right_cancel₀ hspacing.ne' hnext
    have heven : 2 ∣ x.significand + 1 := hnat ▸ (Nat.dvd_of_mod_eq_zero hy).mul_right _
    omega
  · obtain ⟨k, hk⟩ := Int.lt.dest hgt
    have hnat : y.significand = (x.significand + 1) * 2 ^ (k + 1) := by
      rw [← hk, zpow_add₀ (by norm_num), zpow_natCast, mul_comm (2 ^ y.exponent : ℚ),
        ← mul_assoc] at hnext
      exact_mod_cast mul_right_cancel₀ y.exponent_pos.ne' hnext
    have hnormal := le_significand (x := x) (by have := y.le_exponent; omega)
    have htwice : 2 * (x.significand + 1) ≤ y.significand := by
      rw [hnat, pow_succ, mul_comm 2]
      gcongr
      exact Nat.le_mul_of_pos_left _ (by positivity)
    omega

/-- What a number is read as is determined, but for the sign of zero. -/
theorem Nearest.value_eq {y : Binary64} (hx : x.Nearest q) (hy : y.Nearest q) :
    x.value = y.value := by
  by_contra hne
  wlog hlt : x.value < y.value generalizing x y
  · exact this hy hx (Ne.symm hne) (lt_of_le_of_ne (not_lt.mp hlt) (Ne.symm hne))
  have hdistance := le_antisymm (hx.le _ y.grid_value) (hy.le _ x.grid_value)
  have hxeven := (hx.tie _ y.grid_value hdistance).resolve_left (Ne.symm hne)
  have hyeven := (hy.tie _ x.grid_value hdistance.symm).resolve_left hne
  have hmiddle : q - x.value = y.value - q := by
    rcases abs_eq_abs.mp hdistance with heq | heq <;> linarith
  have hbetween : ∀ g, Grid g → ¬(x.value < g ∧ g < y.value) := by
    rintro g hg ⟨hlow, hhigh⟩
    have hle := hx.le g hg
    rw [abs_of_nonpos (by linarith)] at hle
    rcases abs_cases (g - q) with ⟨habs, -⟩ | ⟨habs, -⟩ <;> rw [habs] at hle <;> linarith
  have hzero : Grid 0 := ⟨0, 0, by decide, by decide, by simp⟩
  rcases le_or_gt 0 x.value with hnonneg | hneg
  · have hxv : x.value = x.magnitude := by rw [← x.abs_value, abs_of_nonneg hnonneg]
    have hyv : y.value = y.magnitude := by rw [← y.abs_value, abs_of_nonneg (by linarith)]
    rw [hxv, hyv] at hbetween hlt
    exact not_even_of_adjacent hlt hbetween hxeven hyeven
  · have hypos : y.value ≤ 0 := not_lt.mp fun h => hbetween 0 hzero ⟨hneg, h⟩
    have hxv : x.magnitude = -x.value := by rw [← x.abs_value, abs_of_neg hneg]
    have hyv : y.magnitude = -y.value := by rw [← y.abs_value, abs_of_nonpos hypos]
    refine not_even_of_adjacent (x := y) (y := x) (by linarith) ?_ hyeven hxeven
    rintro g hg ⟨hlow, hhigh⟩
    exact hbetween (-g) hg.neg ⟨by linarith, by linarith⟩

end Binary64

/-! ### Digits -/

/-- Only zero is written with a leading zero. -/
theorem toDigits_of_head_zero (n : Nat) (h : (Nat.toDigits 10 n).head? = some '0') :
    Nat.toDigits 10 n = ['0'] := by
  induction n using Nat.strong_induction_on with
  | _ n ih =>
    rcases Nat.lt_or_ge n 10 with hlt | hge
    · rw [Nat.toDigits_of_lt_base hlt] at h ⊢
      exact congrArg (fun c => [c]) (Option.some.inj h)
    · rw [Nat.toDigits_of_base_le (by decide) hge,
        List.head?_append_of_ne_nil _ Nat.toDigits_ne_nil] at h
      have hfront := ih (n / 10) (by omega) h
      have hzero : Nat.ofDigitChars 10 (Nat.toDigits 10 (n / 10)) 0 = 0 := by
        rw [hfront]
        rfl
      rw [Nat.ofDigitChars_ten_toDigits] at hzero
      omega

namespace Decimal

/-- The last digits are as many as there are places. -/
theorem length_lastDigits {places n : Nat} (h : n < 10 ^ places) (hpos : 0 < places) :
    (lastDigits places n).length = places := by
  have hle : (Nat.toDigits 10 n).length ≤ places :=
    (Nat.length_toDigits_le_iff (by decide) hpos).mpr h
  rw [lastDigits, List.length_append, List.length_replicate]
  omega

/-- Zeros in front do not change what digits are read as. -/
theorem ofDigitChars_lastDigits (places n : Nat) :
    Nat.ofDigitChars 10 (lastDigits places n) 0 = n := by
  rw [lastDigits, Nat.ofDigitChars_append, Nat.ofDigitChars_replicate_zero, Nat.mul_zero,
    Nat.ofDigitChars_ten_toDigits]

/-- Digits without the zeros at their end. -/
theorem exists_stripped (digits : List Char) :
    ∃ zeros, digits =
      (digits.reverse.dropWhile (· == '0')).reverse ++ List.replicate zeros '0' := by
  refine ⟨(digits.reverse.takeWhile (· == '0')).length, ?_⟩
  have hzeros : digits.reverse.takeWhile (· == '0') =
      List.replicate (digits.reverse.takeWhile (· == '0')).length '0' :=
    List.eq_replicate_of_mem fun c hc => by simpa using List.mem_takeWhile_imp hc
  calc digits = digits.reverse.reverse := (List.reverse_reverse _).symm
    _ = (digits.reverse.takeWhile (· == '0') ++ digits.reverse.dropWhile (· == '0')).reverse := by
      rw [List.takeWhile_append_dropWhile]
    _ = (digits.reverse.dropWhile (· == '0')).reverse ++
        (digits.reverse.takeWhile (· == '0')).reverse := List.reverse_append
    _ = _ := congrArg _ ((congrArg List.reverse hzeros).trans List.reverse_replicate)

/-- The digits behind the point, without zeros at their end. -/
def fractionDigits (digits places : Nat) : List Char :=
  ((lastDigits places (digits % 10 ^ places)).reverse.dropWhile (· == '0')).reverse

/-- Only zeros are cut off at the end. -/
theorem exists_fractionDigits (digits places : Nat) :
    ∃ zeros, lastDigits places (digits % 10 ^ places) =
      fractionDigits digits places ++ List.replicate zeros '0' :=
  exists_stripped _

/-- What is left are digits. -/
theorem isDigit_of_mem_fractionDigits {digits places : Nat} {c : Char}
    (h : c ∈ fractionDigits digits places) : c.isDigit = true := by
  obtain ⟨zeros, hzeros⟩ := exists_fractionDigits digits places
  have hmem : c ∈ lastDigits places (digits % 10 ^ places) := by
    rw [hzeros]
    exact List.mem_append_left _ h
  exact isDigit_of_mem_lastDigits hmem

/-- With a negative power there is a point, unless all digits behind it are zeros. -/
theorem text_negSucc (digits p : Nat) :
    (⟨digits, .negSucc p⟩ : Decimal).text =
      if fractionDigits digits (p + 1) = [] then toString (digits / 10 ^ (p + 1))
      else toString (digits / 10 ^ (p + 1)) ++ "." ++
        String.ofList (fractionDigits digits (p + 1)) := by
  unfold text
  dsimp only
  split
  · next hnil => exact (if_pos hnil).symm
  · next hne => exact (if_neg hne).symm

/-- Zeros at the end do not count. -/
theorem value_negSucc (digits p : Nat) :
    (⟨digits, .negSucc p⟩ : Decimal).value = (digits / 10 ^ (p + 1) : Nat) +
      Nat.ofDigitChars 10 (fractionDigits digits (p + 1)) 0 *
        (10 : ℚ) ^ (-((fractionDigits digits (p + 1)).length : Int)) := by
  obtain ⟨zeros, hzeros⟩ := exists_fractionDigits digits (p + 1)
  generalize fractionDigits digits (p + 1) = kept at hzeros
  have hlength : kept.length + zeros = p + 1 := by
    have hplaces := length_lastDigits (Nat.mod_lt digits (Nat.pow_pos (by decide))) p.succ_pos
    rwa [hzeros, List.length_append, List.length_replicate] at hplaces
  have hfraction : 10 ^ zeros * Nat.ofDigitChars 10 kept 0 = digits % 10 ^ (p + 1) := by
    rw [← ofDigitChars_lastDigits (p + 1) (digits % 10 ^ (p + 1)), hzeros,
      Nat.ofDigitChars_append, Nat.ofDigitChars_replicate_zero]
  have hdivision := Nat.div_add_mod digits (10 ^ (p + 1))
  generalize digits / 10 ^ (p + 1) = whole at hdivision
  have hsplit : (digits : ℚ) = 10 ^ (kept.length + zeros) * whole +
      10 ^ zeros * Nat.ofDigitChars 10 kept 0 := by
    rw [← hfraction, ← hlength] at hdivision
    exact_mod_cast hdivision.symm
  rw [value, zpow_negSucc, ← hlength, hsplit, zpow_neg, zpow_natCast]
  field_simp
  ring

/-- A decimal is written with the digits of a natural number, or with those of one in front of
a point and some more behind it. -/
theorem text_cases (d : Decimal) :
    (∃ n : Nat, d.text.toList = Nat.toDigits 10 n ∧ d.value = n) ∨
      ∃ whole kept, d.text.toList = Nat.toDigits 10 whole ++ '.' :: kept ∧ kept ≠ [] ∧
        (∀ c ∈ kept, c.isDigit = true) ∧ d.value =
          Nat.ofDigitChars 10 (Nat.toDigits 10 whole ++ kept) 0 * 10 ^ (-(kept.length : Int)) := by
  obtain ⟨digits, power⟩ := d
  cases power with
  | ofNat zeros =>
    refine .inl ⟨digits * 10 ^ zeros, ?_, ?_⟩
    · exact toList_toString _
    · simp [value]
  | negSucc p =>
    have hmem : ∀ c ∈ fractionDigits digits (p + 1), c.isDigit = true :=
      fun _ => isDigit_of_mem_fractionDigits
    have hvalue := value_negSucc digits p
    have htext := text_negSucc digits p
    generalize fractionDigits digits (p + 1) = kept at hmem hvalue htext
    generalize digits / 10 ^ (p + 1) = whole at hvalue htext
    by_cases hkept : kept = []
    · subst hkept
      refine .inl ⟨whole, ?_, by simpa using hvalue⟩
      rw [htext, if_pos rfl]
      exact toList_toString _
    · refine .inr ⟨whole, kept, ?_, hkept, hmem, ?_⟩
      · rw [htext, if_neg hkept, String.toList_append, String.toList_append, String.toList_ofList,
          toList_toString]
        simp
      · have hshift : Nat.ofDigitChars 10 kept whole =
            10 ^ kept.length * whole + Nat.ofDigitChars 10 kept 0 :=
          Nat.ofDigitChars_eq_ofDigitChars_zero
        rw [hvalue, Nat.ofDigitChars_append, Nat.ofDigitChars_ten_toDigits, hshift, zpow_neg,
          zpow_natCast]
        push_cast
        field_simp

end Decimal

namespace Json

variable {whole digits : List Char}

/-- Digits are read up to the first character that is none. -/
theorem takeWhile_isDigit (rest : List Char) (h : ∀ c ∈ whole, c.isDigit = true)
    (hrest : ∀ c, rest.head? = some c → c.isDigit = false) :
    (whole ++ rest).takeWhile Char.isDigit = whole ∧
      (whole ++ rest).dropWhile Char.isDigit = rest := by
  rw [List.takeWhile_append_of_pos h, List.dropWhile_append_of_pos h]
  cases rest with
  | nil => simp
  | cons c rest => simp [hrest c rfl]

/-- Digits alone are read as a whole number. -/
theorem magnitude?_toDigits (n : Nat) : magnitude? (Nat.toDigits 10 n) = some (n : ℚ) := by
  obtain ⟨htake, hdrop⟩ := takeWhile_isDigit [] (isDigit_toDigits n) (fun _ h => by cases h)
  rw [List.append_nil] at htake hdrop
  unfold magnitude?
  rw [htake, hdrop]
  dsimp only [fraction, exponent?]
  rw [if_pos ⟨Nat.toDigits_ne_nil, toDigits_of_head_zero n, by simp⟩]
  simp [Nat.ofDigitChars_ten_toDigits]

/-- Digits on both sides of a point are read as one number, scaled by how many follow the
point. -/
theorem magnitude?_point {n : Nat} (hne : digits ≠ []) (h : ∀ c ∈ digits, c.isDigit = true) :
    magnitude? (Nat.toDigits 10 n ++ '.' :: digits) =
      some (Nat.ofDigitChars 10 (Nat.toDigits 10 n ++ digits) 0 *
        (10 : ℚ) ^ (-(digits.length : Int))) := by
  obtain ⟨htake, hdrop⟩ := takeWhile_isDigit ('.' :: digits) (isDigit_toDigits n)
    (fun _ h => by cases h; rfl)
  obtain ⟨hdigits, hrest⟩ := takeWhile_isDigit [] h (fun _ h => by cases h)
  rw [List.append_nil] at hdigits hrest
  have hfraction : fraction ('.' :: digits) = (some digits, []) := by
    rw [fraction, hdigits, hrest]
  unfold magnitude?
  rw [htake, hdrop, hfraction]
  dsimp only [exponent?]
  rw [if_pos ⟨Nat.toDigits_ne_nil, toDigits_of_head_zero n, by simpa using hne⟩]
  simp

end Json

/-- A decimal is read back as its value. -/
theorem Decimal.magnitude?_text (d : Decimal) : Json.magnitude? d.text.toList = some d.value := by
  rcases d.text_cases with ⟨n, htext, hvalue⟩ | ⟨whole, kept, htext, hne, hdigits, hvalue⟩
  · rw [htext, hvalue, Json.magnitude?_toDigits]
  · rw [htext, hvalue, Json.magnitude?_point hne hdigits]

namespace Binary64

variable {x : Binary64} {q : ℚ} {text : String}

/-! ### Literals -/

/-- The exact decimal of a number has its magnitude. -/
theorem magnitude_exact (x : Binary64) : x.exact.value = x.magnitude := by
  unfold exact magnitude Decimal.value
  cases x.exponent with
  | ofNat e =>
    push_cast
    simp
  | negSucc e =>
    have hten : (10 : ℚ) ^ (e + 1) = 5 ^ (e + 1) * 2 ^ (e + 1) := by
      rw [← mul_pow]
      norm_num
    simp only [Nat.pow_eq]
    rw [zpow_negSucc, zpow_negSucc, hten]
    push_cast
    field_simp

/-- An integral number is written as a whole number. -/
theorem magnitude_truncate (h : x.isIntegral = true) : (x.truncate : ℚ) = x.magnitude := by
  unfold magnitude
  cases he : x.exponent with
  | ofNat e =>
    rw [truncate, he]
    push_cast
    simp
  | negSucc e =>
    rw [← truncate_mul he h, zpow_negSucc, Nat.pow_eq]
    push_cast
    field_simp

/-- The text of a magnitude is that of a decimal which is read as the magnitude. -/
theorem exists_decimal (x : Binary64) :
    ∃ d : Decimal, x.magnitudeText = d.text ∧
      RoundsTo d.value x.magnitude (x.significand % 2 = 0) := by
  unfold magnitudeText
  split
  · next h =>
    have hvalue : (⟨x.truncate, 0⟩ : Decimal).value = x.magnitude := by
      rw [← magnitude_truncate h.1]
      simp [Decimal.value]
    exact ⟨⟨x.truncate, 0⟩, by simp [Decimal.text], hvalue ▸ .self _ _⟩
  · refine ⟨x.shortest, rfl, ?_⟩
    unfold shortest
    cases hfound : (List.range 17).findSome? fun n => x.onGrid? (n + 1) with
    | none =>
      rw [Option.getD_none, x.magnitude_exact]
      exact .self _ _
    | some d =>
      obtain ⟨n, -, hgrid⟩ := List.exists_of_findSome?_eq_some hfound
      exact roundsTo_of_reads (reads_of_onGrid? hgrid)

/-- Only a number that is not zero is written with a sign. -/
theorem value_eq_magnitude (h : ¬(x.negative = true ∧ x.isZero = false)) :
    x.value = x.magnitude := by
  rw [value, sign]
  split
  · next hnegative =>
    have hzero : x.biased.val = 0 ∧ x.fraction.val = 0 := by
      simpa [hnegative, isZero] using h
    rw [magnitude, significand, if_pos hzero.1, hzero.2]
    simp
  · exact one_mul _

/-- A number literal is read as a decimal of which the number is the nearest. -/
theorem exists_nearest_of_literal (h : x.literal = .ok text) :
    ∃ q, Json.number? text.toList = some q ∧ x.Nearest q := by
  obtain ⟨d, htext, hrounds⟩ := x.exists_decimal
  obtain ⟨first, rest, hchars, hdigit, -⟩ := d.positional_text
  have hread := d.magnitude?_text
  unfold literal at h
  split at h
  · cases h
    rw [htext]
    split
    · next hsign =>
      have hvalue : x.value = -x.magnitude := by
        rw [value, sign, if_pos hsign.1, neg_one_mul]
      refine ⟨-d.value, ?_, ?_⟩
      · rw [String.toList_append]
        show (Json.magnitude? d.text.toList).map _ = _
        rw [hread, Option.map_some]
      · rw [Nearest, hvalue]
        exact hrounds.neg
    · next hsign =>
      refine ⟨d.value, ?_, ?_⟩
      · rw [String.empty_append, Json.number?, hread]
        intro cs hcs
        rw [hchars, List.cons.injEq] at hcs
        rw [hcs.1] at hdigit
        exact absurd hdigit (by decide)
      · rw [Nearest, value_eq_magnitude hsign]
        exact hrounds
  · cases h

/-- A number literal spells out a decimal of which the number is the nearest. -/
theorem exists_spelled_literal (h : x.literal = .ok text) :
    ∃ q, Json.Spelled text.toList (.number q) ∧ x.Nearest q := by
  obtain ⟨q, hread, hnearest⟩ := exists_nearest_of_literal h
  have hplain : ∀ c ∈ text.toList, JsonScanner.isPlain c = true := by
    intro c hc
    by_contra hmark
    have hcases : c ∈ ['[', ']', '\x7b', '\x7d', ',', ':', ' ', '\t', '\n', '\r', '"'] := by
      simp [JsonScanner.isPlain, JsonScanner.isMark, JsonScanner.isBlank] at hmark ⊢
      tauto
    have hchar := mem_literal h hc
    fin_cases hcases <;> revert hchar <;> decide
  have hword : Json.word? text.toList = some (.number q) := by
    unfold Json.word?
    rw [if_neg, if_neg, if_neg, hread, Option.map_some]
    all_goals
      intro hname
      rw [hname] at hread
      cases hread
  have hne : text.toList ≠ [] := by
    intro hnil
    rw [hnil] at hread
    cases hread
  exact ⟨q, Json.spelled_word hne hplain hword, hnearest⟩

end Binary64

end ClosureVtl
