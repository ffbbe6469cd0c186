/-
Module: ClosureVtl.Number.Shortest
Purpose: The shortest decimal that reads back as a given double.
Main exports:
  Decimal, Decimal.text, Binary64.Reads, Binary64.onGrid?, Binary64.shortest,
  Binary64.reads_of_onGrid?
-/
import ClosureVtl.Number.Binary64

namespace ClosureVtl

/-!
A decimal reads as the finite double it is nearest to; a decimal halfway
between two doubles reads as the one with the even significand.  The decimals
that read as a given double are an interval around it, which is described here
in quarters of the spacing of doubles, so that both of its ends are integers.

To find the shortest such decimal, the grids of one, two, three, … significant
digits are tried in turn.  On each grid only the two neighbours of the double
can be nearest; the first grid with a neighbour in the interval wins, the nearer
neighbour if both are, and the upper one if they are equally near.  All
comparisons are exact comparisons of natural numbers.
-/

/-- The number `digits * 10 ^ power`. -/
structure Decimal where
  digits : Nat
  power : Int
deriving DecidableEq, Repr, Inhabited

namespace Decimal

/-- The last `places` decimal digits of `n`, zeros included. -/
def lastDigits (places n : Nat) : List Char :=
  let digits := Nat.toDigits 10 n
  List.replicate (places - digits.length) '0' ++ digits

/-- Positional notation, never an exponent.  A fraction ends in a nonzero digit,
and no point is written in front of an empty one. -/
def text (d : Decimal) : String :=
  match d.power with
  | .ofNat zeros => toString (d.digits * Nat.pow 10 zeros)
  | .negSucc p =>
    let places := p + 1
    let whole := toString (d.digits / Nat.pow 10 places)
    let fraction := lastDigits places (d.digits % Nat.pow 10 places)
    match (fraction.reverse.dropWhile (· == '0')).reverse with
    | [] => whole
    | kept => whole ++ "." ++ String.ofList kept

end Decimal

namespace Binary64

/-! ### The interval of decimals that read as a double -/

/-- A positive magnitude `quarters * 2 ^ (power - 2)` that is compared with
decimals: an integer count of quarter spacings. -/
def quarters (x : Binary64) : Nat := 4 * x.significand

/-- Distance to the lower end of the interval in quarters.  Below a power of two
doubles lie twice as close, unless they are already as close as they get. -/
def lowerQuarters (x : Binary64) : Nat :=
  if x.fraction.val = 0 ∧ 1 < x.biased.val then 1 else 2

/-- The integer by which a count of quarters is multiplied, and the one by which
it is divided, to give a magnitude. -/
def quarterScale (x : Binary64) : Nat × Nat :=
  match x.exponent - 2 with
  | .ofNat e => (Nat.pow 2 e, 1)
  | .negSucc e => (1, Nat.pow 2 (e + 1))

/-- Both sides of a comparison between a decimal and a count of quarters,
brought to a common denominator. -/
def sides (x : Binary64) (d : Decimal) (count : Nat) : Nat × Nat :=
  let (up, down) := x.quarterScale
  match d.power with
  | .ofNat p => (d.digits * Nat.pow 10 p * down, count * up)
  | .negSucc p => (d.digits * down, count * up * Nat.pow 10 (p + 1))

/-- Whether a decimal lies in the interval of a double.  The ends belong to it
exactly when the significand is even. -/
def reads (x : Binary64) (d : Decimal) : Bool :=
  let low := x.sides d (x.quarters - x.lowerQuarters)
  let high := x.sides d (x.quarters + 2)
  if x.significand % 2 = 0 then
    low.2 ≤ low.1 && high.1 ≤ high.2
  else
    low.2 < low.1 && high.1 < high.2

/-- A decimal reads as the magnitude of a double. -/
def Reads (x : Binary64) (d : Decimal) : Prop := x.reads d = true

instance (x : Binary64) (d : Decimal) : Decidable (x.Reads d) :=
  inferInstanceAs (Decidable (_ = true))

/-! ### The search -/

/-- A magnitude as a fraction: numerator and denominator. -/
def ratio (x : Binary64) : Nat × Nat :=
  match x.exponent with
  | .ofNat e => (x.significand * Nat.pow 2 e, 1)
  | .negSucc e => (x.significand, Nat.pow 2 (e + 1))

/-- The power of ten of the leading digit of a positive magnitude. -/
def leadingPower (x : Binary64) : Int :=
  let (num, den) := x.ratio
  if den ≤ num then
    ((Nat.toDigits 10 (num / den)).length : Int) - 1
  else
    -((Nat.toDigits 10 (den / num)).length : Int)

/-- A magnitude in units of a power of ten, as a fraction. -/
def inUnits (x : Binary64) (power : Int) : Nat × Nat :=
  match power with
  | .ofNat p => (x.ratio.1, x.ratio.2 * Nat.pow 10 p)
  | .negSucc p => (x.ratio.1 * Nat.pow 10 (p + 1), x.ratio.2)

/-- Of two decimals the one that reads as the double; of two that do, the lower
one only if it is nearer. -/
def choose? (x : Binary64) (below above : Decimal) (lowerIsNearer : Bool) :
    Option Decimal :=
  if x.reads below = true ∧ (lowerIsNearer = true ∨ x.reads above = false) then
    some below
  else if x.reads above = true then some above
  else none

/-- The decimal on the grid of `places` significant digits that reads as the
double and is nearest to it; the upper of two equally near ones. -/
def onGrid? (x : Binary64) (places : Nat) : Option Decimal :=
  let power := x.leadingPower + 1 - (places : Int)
  let (num, den) := x.inUnits power
  x.choose? ⟨num / den, power⟩ ⟨num / den + 1, power⟩ (decide (2 * (num % den) < den))

/-- A finite magnitude written out in full. -/
def exact (x : Binary64) : Decimal :=
  match x.exponent with
  | .ofNat e => ⟨x.significand * Nat.pow 2 e, 0⟩
  | .negSucc e => ⟨x.significand * Nat.pow 5 (e + 1), .negSucc e⟩

/-- The shortest decimal that reads as the magnitude of a finite double.
Seventeen significant digits are always enough. -/
def shortest (x : Binary64) : Decimal :=
  ((List.range 17).findSome? fun n => x.onGrid? (n + 1)).getD x.exact

/-! ### What the search finds reads back -/

/-- A decimal is tested before it is chosen. -/
theorem reads_of_choose? {x : Binary64} {below above d : Decimal} {nearer : Bool}
    (h : x.choose? below above nearer = some d) : x.Reads d := by
  unfold choose? at h
  split at h
  · next hb => cases h; exact hb.1
  · split at h
    · next ha => cases h; exact ha
    · cases h

/-- Both neighbours on a grid are tested. -/
theorem reads_of_onGrid? {x : Binary64} {places : Nat} {d : Decimal}
    (h : x.onGrid? places = some d) : x.Reads d :=
  reads_of_choose? h

end Binary64

end ClosureVtl
