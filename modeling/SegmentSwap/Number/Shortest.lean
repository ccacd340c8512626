import SegmentSwap.Number.Binary64

/-!
# The shortest decimal text of a double

A finite double is written with the fewest digits that read back as the same double, and among
those with the digits nearest to it. `shortestDecimal` searches the decimal grids from coarse to
fine: a grid has a point among the numbers that round to the double exactly if one of the two grid
points around the double is such a number.

`Binary64.text` lays the digits out: positionally from 0.0001 up to below 10^16, with an exponent of
at least two digits otherwise.
-/

namespace SegmentSwap

/-- The number `digits` times ten to the power `exponent`. -/
structure Decimal where
  /-- The digits as one natural number. -/
  digits : Nat
  /-- The power of ten that they count. -/
  exponent : Int
  deriving DecidableEq, Repr

namespace Decimal

/-- Drops zeros at the end of the digits, at most `fuel` of them. -/
def trim (fuel : Nat) (d : Decimal) : Decimal :=
  match fuel with
  | 0 => d
  | fuel + 1 => if d.digits % 10 = 0 then trim fuel ⟨d.digits / 10, d.exponent + 1⟩ else d

end Decimal

/-- The whole number `k` with `10 ^ (k - 1) ≤ num / den < 10 ^ k`, for a positive fraction. -/
def decimalMagnitude (num den : Nat) : Int :=
  let guess := ((num.log2 : Int) - den.log2) * 30103 / 100000 + 1
  let reaches (k : Int) : Bool :=
    let f := scaleFraction 10 num den (-k)
    f.2 ≤ f.1
  if !reaches (guess - 1) then guess - 1
  else if reaches (guess + 1) then guess + 2
  else if reaches guess then guess + 1
  else guess

/-- The numbers that round to one double: from `low / den` to `high / den` around `mid / den`. -/
structure RoundingRange where
  /-- The lower end over the common denominator. -/
  low : Nat
  /-- The double itself over the common denominator. -/
  mid : Nat
  /-- The upper end over the common denominator. -/
  high : Nat
  /-- The common denominator. -/
  den : Nat
  /-- Whether the ends round to the double too. -/
  closed : Bool

namespace RoundingRange

/-- The range of a finite positive double. It is only half as wide below a power of two. -/
def ofDouble (x : Binary64) : RoundingRange :=
  let m := x.significand
  let below := if x.fractionField = 0 && 1 < x.exponentField then 1 else 2
  let f := scaleFraction 2 1 4 x.exponent
  ⟨(4 * m - below) * f.1, 4 * m * f.1, (4 * m + 2) * f.1, f.2, m % 2 == 0⟩

/-- The point of the decimal grid with step `10 ^ k` that lies in the range and is nearest to its
middle, a tie to the even one, if a point of the grid lies in it. -/
def gridPoint? (r : RoundingRange) (k : Int) : Option Nat :=
  let f := scaleFraction 10 1 1 k
  -- `n` steps of the grid are `n * step / unit` over the common denominator
  let step := r.den * f.1
  let unit := f.2
  let lower := r.mid * unit / step
  let inside (n : Nat) : Bool :=
    if r.closed then r.low * unit ≤ n * step && n * step ≤ r.high * unit
    else r.low * unit < n * step && n * step < r.high * unit
  let down := r.mid * unit - lower * step
  let up := (lower + 1) * step - r.mid * unit
  match inside lower, inside (lower + 1) with
  | true, true =>
    if down < up then some lower
    else if up < down then some (lower + 1)
    else if lower % 2 = 0 then some lower else some (lower + 1)
  | true, false => some lower
  | false, true => some (lower + 1)
  | false, false => none

/-- The first hit on the grids with `count`, `count + 1`, ... digits for numbers below
`10 ^ top`. -/
def search (r : RoundingRange) (top : Int) : (fuel count : Nat) → Decimal
  | 0, count => ⟨r.mid / r.den, top - count⟩
  | fuel + 1, count =>
    match r.gridPoint? (top - count) with
    | some n => ⟨n, top - count⟩
    | none => search r top fuel (count + 1)

end RoundingRange

/-- The shortest decimal that reads back as the given finite positive double. -/
def shortestDecimal (x : Binary64) : Decimal :=
  let r := RoundingRange.ofDouble x
  (r.search (decimalMagnitude r.mid r.den) 17 1).trim 17

namespace Binary64

/-- Whether a number is written without an exponent when its decimal point comes `point` places
after the start of its digits. -/
def isPositional (point : Int) : Bool := decide (-4 < point) && decide (point ≤ 16)

/-- The digits with the decimal point after the first `point` of them, or with an exponent where
the point is far from the digits. -/
def layOut (digits : List Char) (point : Int) : List Char :=
  let count := digits.length
  if isPositional point then
    if point ≤ 0 then '0' :: '.' :: List.replicate (-point).toNat '0' ++ digits
    else if count ≤ point.toNat then
      digits ++ List.replicate (point.toNat - count) '0' ++ ['.', '0']
    else digits.take point.toNat ++ '.' :: digits.drop point.toNat
  else
    let power := point - 1
    let shown := Nat.toDigits 10 power.natAbs
    let tail := if shown.length < 2 then '0' :: shown else shown
    digits.take 1 ++ (if count = 1 then [] else '.' :: digits.drop 1) ++
      'e' :: (if power < 0 then '-' else '+') :: tail

/-- The text of the absolute value of a double that is a number. -/
def magnitudeText (x : Binary64) : List Char :=
  if x.isInfinite then ['i', 'n', 'f']
  else if x.significand = 0 then ['0', '.', '0']
  else
    let d := shortestDecimal x
    let digits := Nat.toDigits 10 d.digits
    layOut digits (d.exponent + digits.length)

/-- The shortest text that reads back as this double. -/
def text (x : Binary64) : String :=
  if x.isNaN then "nan"
  else String.ofList (if x.isNegative then '-' :: x.magnitudeText else x.magnitudeText)

end Binary64

end SegmentSwap
