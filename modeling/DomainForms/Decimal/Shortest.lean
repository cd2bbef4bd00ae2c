/-!
# The shortest decimal in an interval

A binary number stands for every real that rounds to it.  Among the decimals in that interval the
ones with the fewest digits are shortest, and of those the nearest to the number is taken, the upper
one of two that are equally near.

Numbers are written over a common denominator, so that everything is exact arithmetic on naturals.

* `Interval.nearest?`: the integer in the interval that is nearest to its point.
* `Interval.shortest`: the shortest decimal, by trying grids with one, two, … digits.
-/

namespace DomainForms

/-- A decimal number: an integer times a power of ten. -/
structure Decimal where
  /-- The digits, as one number. -/
  digits : Nat
  /-- The power of ten. -/
  exponent : Int
deriving DecidableEq, Repr

/-- The decimal without zeros at its end, of at most `fuel` zeros. -/
def Decimal.trim : Nat → Decimal → Decimal
  | 0, d => d
  | fuel + 1, d =>
    if d.digits % 10 = 0 then trim fuel { digits := d.digits / 10, exponent := d.exponent + 1 } else d

/-- A point between two ends, all three over one denominator. -/
structure Decimal.Interval where
  /-- Numerator of the lower end. -/
  low : Nat
  /-- Numerator of the point. -/
  point : Nat
  /-- Numerator of the upper end. -/
  high : Nat
  /-- The denominator. -/
  denominator : Nat
  /-- Whether the ends belong to the interval. -/
  closed : Bool

namespace Decimal.Interval

/-- The interval with all of its numbers multiplied by `up / down`. -/
def scale (i : Interval) (up down : Nat) : Interval :=
  { i with
    low := i.low * up
    point := i.point * up
    high := i.high * up
    denominator := i.denominator * down }

/-- Whether an integer lies in the interval. -/
def holds (i : Interval) (n : Nat) : Bool :=
  let m := n * i.denominator
  if i.closed then i.low ≤ m && m ≤ i.high else i.low < m && m < i.high

/-- The integer in the interval that is nearest to the point, the upper of two that are equally
near.  Only the two neighbours of the point can be it. -/
def nearest? (i : Interval) : Option Nat :=
  let below := i.point / i.denominator
  let above := below + 1
  match i.holds below, i.holds above with
  | true, true =>
    if 2 * (i.point - below * i.denominator) < i.denominator then some below else some above
  | true, false => some below
  | false, true => some above
  | false, false => none

/-- The number of zeros between the decimal point and the first digit of `num / den`, at most
`fuel`, for a fraction below one. -/
def leadingZeros : Nat → Nat → Nat → Nat
  | 0, _, _ => 0
  | fuel + 1, num, den => if num * 10 < den then 1 + leadingZeros fuel (num * 10) den else 0

/-- The exponent `k` for which the point lies between `10 ^ (k - 1)` and `10 ^ k`. -/
def magnitude (i : Interval) : Int :=
  let whole := i.point / i.denominator
  if whole = 0 then
    -Int.ofNat (leadingZeros i.denominator.log2 i.point i.denominator)
  else
    Int.ofNat (Nat.toDigits 10 whole).length

/-- The interval measured in units of `10 ^ unit`. -/
def inUnits (i : Interval) (unit : Int) : Interval :=
  match unit with
  | .ofNat n => i.scale 1 (Nat.pow 10 n)
  | .negSucc n => i.scale (Nat.pow 10 (n + 1)) 1

/-- The shortest decimal in the interval, with at most `limit` digits.  A limit of seventeen is
enough for the interval of any binary number with 53 bits. -/
def shortest (i : Interval) (limit : Nat) : Decimal :=
  let k := i.magnitude
  let found : Option Decimal := (List.range limit).findSome? fun n =>
    let unit := k - (Int.ofNat n + 1)
    (i.inUnits unit).nearest?.map fun digits => { digits, exponent := unit }
  (found.getD { digits := 0, exponent := 0 }).trim limit

end Decimal.Interval

end DomainForms
