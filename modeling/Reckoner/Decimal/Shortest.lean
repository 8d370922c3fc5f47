/-!
# The fewest digits that read back

A positive double `m · 2 ^ e` is the nearest double of every real in an interval around it. Among
the decimals `c · 10 ^ k` of that interval the ones with the greatest `k` have the fewest digits,
and `shortest` finds the one of them that is nearest to the number.
-/

namespace Reckoner.Decimal

/-- The decimal number `coefficient · 10 ^ exponent`. -/
structure Digits where
  coefficient : Nat
  exponent : Int
  deriving Repr, DecidableEq

/-- The reals that round to a double, as fractions over one denominator. -/
structure Interval where
  lower : Nat
  value : Nat
  upper : Nat
  denominator : Nat
  /-- Whether the two ends belong to it. -/
  closed : Bool
  deriving Repr

namespace Interval

/-- The interval of `mantissa · 2 ^ exponent`. It reaches half a unit to either side, except that a
power of two is only a quarter of its unit away from the reals that round to the number below. -/
def ofBinary (mantissa : Nat) (exponent : Int) : Interval :=
  let below := if mantissa = Nat.pow 2 52 ∧ exponent ≠ -1074 then 1 else 2
  -- a quarter of the unit is `2 ^ (exponent - 2)`
  let scale := Nat.pow 2 (exponent - 2).toNat
  { lower := (4 * mantissa - below) * scale
    value := 4 * mantissa * scale
    upper := (4 * mantissa + 2) * scale
    denominator := Nat.pow 2 (2 - exponent).toNat
    closed := mantissa % 2 = 0 }

/-- The same interval in units of `10 ^ k`. -/
def inUnits (i : Interval) (k : Int) : Interval :=
  let up := Nat.pow 10 (-k).toNat
  { i with
    lower := i.lower * up
    value := i.value * up
    upper := i.upper * up
    denominator := i.denominator * Nat.pow 10 k.toNat }

/-- Whether the integer `c` lies in the interval. -/
def holds (i : Interval) (c : Nat) : Bool :=
  let x := c * i.denominator
  if i.closed then i.lower ≤ x && x ≤ i.upper else i.lower < x && x < i.upper

/-- The integer of the interval that is nearest to its value. Of the integers it can only be one of
the two neighbours of the value; the greater one wins a tie. -/
def integer? (i : Interval) : Option Nat :=
  let c := i.value / i.denominator
  let r := i.value % i.denominator
  match i.holds c, i.holds (c + 1) with
  | true, true => if 2 * r < i.denominator then some c else some (c + 1)
  | true, false => some c
  | false, true => some (c + 1)
  | false, false => none

end Interval

/-- Tries the grids of `10 ^ k`, `10 ^ (k - 1)`, … in turn, at most as many as given. -/
def search (i : Interval) : Nat → Int → Digits
  | 0, k => ⟨(i.inUnits k).value / (i.inUnits k).denominator, k⟩
  | n + 1, k =>
    match (i.inUnits k).integer? with
    | some c => ⟨c, k⟩
    | none => search i n (k - 1)

/-- The decimal with the fewest digits that reads back as `mantissa · 2 ^ exponent`. The search
starts above the leading digit and seventeen digits always suffice. -/
def shortest (mantissa : Nat) (exponent : Int) : Digits :=
  let leading := (mantissa.log2 + exponent) * 30103 / 100000 + 1
  search (Interval.ofBinary mantissa exponent) 19 leading

end Reckoner.Decimal
