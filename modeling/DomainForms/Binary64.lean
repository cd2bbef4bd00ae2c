import DomainForms.Decimal.Shortest

/-!
# Binary floating-point numbers of 64 bits

A number is its bit pattern: a sign bit, eleven bits of exponent and 52 bits of fraction.  Equality
is that of the IEEE standard, where a NaN differs from everything and the two zeros are equal.  The
text of a number is the shortest decimal that reads back as it.

* `Binary64.equal`: IEEE equality on bit patterns.
* `Binary64.describe`: the text of a number.
-/

namespace DomainForms

open Decimal (Interval)

/-- A floating-point number of 64 bits, given by its bit pattern. -/
structure Binary64 where
  /-- The bit pattern. -/
  bits : UInt64
deriving DecidableEq, Repr

namespace Binary64

/-- Whether the sign bit is set. -/
def isNegative (x : Binary64) : Bool := x.bits.toNat / Nat.pow 2 63 == 1

/-- The exponent bits. -/
def exponentBits (x : Binary64) : Nat := x.bits.toNat / Nat.pow 2 52 % Nat.pow 2 11

/-- The fraction bits. -/
def fractionBits (x : Binary64) : Nat := x.bits.toNat % Nat.pow 2 52

/-- Whether the pattern stands for no number. -/
def isNaN (x : Binary64) : Bool := x.exponentBits == 2047 && x.fractionBits != 0

/-- Whether the number is one of the two infinities. -/
def isInfinite (x : Binary64) : Bool := x.exponentBits == 2047 && x.fractionBits == 0

/-- Whether the number is one of the two zeros. -/
def isZero (x : Binary64) : Bool := x.exponentBits == 0 && x.fractionBits == 0

/-- IEEE equality: a NaN differs from everything, the two zeros are equal, and other numbers are
equal when their patterns are. -/
def equal (x y : Binary64) : Bool :=
  !x.isNaN && !y.isNaN && (x.bits == y.bits || (x.isZero && y.isZero))

/-- The reals that round to the absolute value of a finite number other than zero.  The number is
`m * 2 ^ e`, the ends lie half way to its neighbours, and they belong to the interval when `m` is
even.  Below a power of two the neighbour is only half as far away. -/
def interval (x : Binary64) : Interval :=
  let normal := x.exponentBits != 0
  let m := if normal then Nat.pow 2 52 + x.fractionBits else x.fractionBits
  let e : Int := (if normal then Int.ofNat x.exponentBits else 1) - 1077
  let gap := if x.fractionBits == 0 && 1 < x.exponentBits then 1 else 2
  let base : Interval := ⟨4 * m - gap, 4 * m, 4 * m + 2, 1, m % 2 == 0⟩
  match e with
  | .ofNat n => base.scale (Nat.pow 2 n) 1
  | .negSucc n => base.scale 1 (Nat.pow 2 (n + 1))

/-- The text of a decimal in positional form, with at least one digit after the point. -/
def positional (digits : List Char) (point : Int) : List Char :=
  match point with
  | .negSucc n => '0' :: '.' :: List.replicate (n + 1) '0' ++ digits
  | .ofNat 0 => '0' :: '.' :: digits
  | .ofNat n =>
    if digits.length ≤ n then
      digits ++ List.replicate (n - digits.length) '0' ++ ['.', '0']
    else
      digits.take n ++ '.' :: digits.drop n

/-- The text of a decimal with one digit before the point and the power of ten after an `e`. -/
def scientific (digits : List Char) (point : Int) : List Char :=
  let mantissa := match digits with
    | [] => []
    | [only] => [only]
    | first :: rest => first :: '.' :: rest
  let power := point - 1
  mantissa ++ 'e' :: (if power < 0 then ['-'] else []) ++ Nat.toDigits 10 power.natAbs

/-- The text of the absolute value of a finite number: positional from `0.0001` up to below
`10 ^ 16`, scientific outside. -/
def magnitudeText (x : Binary64) : List Char :=
  if x.isZero then
    ['0', '.', '0']
  else
    let d := x.interval.shortest 17
    let digits := Nat.toDigits 10 d.digits
    let point := d.exponent + Int.ofNat digits.length
    if -4 < point ∧ point ≤ 16 then positional digits point else scientific digits point

/-- The text of a number: the shortest decimal that reads back as it. -/
def describe (x : Binary64) : String :=
  if x.isNaN then
    "NaN"
  else
    let magnitude := if x.isInfinite then ['i', 'n', 'f'] else x.magnitudeText
    String.ofList (if x.isNegative then '-' :: magnitude else magnitude)

end Binary64

end DomainForms
