/-!
# Doubles as exact numbers

A double is kept as the sixty-four bits of its encoding, and all arithmetic on it goes through the
exact rational number that it stands for. `Binary64.ofFraction` rounds a fraction to the nearest
double, a tie to the one with an even significand; every way to make a double uses it.
-/

namespace SegmentSwap

/-- A double, given by the bits of its encoding. -/
structure Binary64 where
  /-- Sign, eleven bits of exponent and fifty-two bits of fraction, from the top. -/
  bits : UInt64
  deriving DecidableEq, Repr, Inhabited

/-- The quotient of two natural numbers rounded to the nearest one, a tie to the even one. -/
def roundHalfEven (num den : Nat) : Nat :=
  let q := num / den
  let r := num % den
  if 2 * r < den then q
  else if den < 2 * r then q + 1
  else if q % 2 = 0 then q else q + 1

/-- The fraction `num / den` times `base` to the power `e`, as a numerator and a denominator. -/
def scaleFraction (base : Nat) (num den : Nat) (e : Int) : Nat × Nat :=
  if 0 ≤ e then (num * base.pow e.toNat, den) else (num, den * base.pow (-e).toNat)

namespace Binary64

/-- The exponent field of infinities and NaNs. -/
def topExponent : Nat := 2047

/-- The encoding of positive infinity. -/
def infinityWord : Nat := topExponent * Nat.pow 2 52

/-- The encoding as a natural number. -/
def word (x : Binary64) : Nat := x.bits.toNat

/-- Whether the sign bit is set. -/
def isNegative (x : Binary64) : Bool := decide (Nat.pow 2 63 ≤ x.word)

/-- The eleven bits of the exponent. -/
def exponentField (x : Binary64) : Nat := x.word / Nat.pow 2 52 % Nat.pow 2 11

/-- The fifty-two bits of the fraction. -/
def fractionField (x : Binary64) : Nat := x.word % Nat.pow 2 52

/-- Whether this is not a number. -/
def isNaN (x : Binary64) : Bool :=
  x.exponentField == topExponent && x.fractionField != 0

/-- Whether this is one of the two infinities. -/
def isInfinite (x : Binary64) : Bool :=
  x.exponentField == topExponent && x.fractionField == 0

/-- The whole number that a finite double scales by a power of two. -/
def significand (x : Binary64) : Nat :=
  if x.exponentField = 0 then x.fractionField else Nat.pow 2 52 + x.fractionField

/-- The power of two by which a finite double scales its significand. -/
def exponent (x : Binary64) : Int :=
  if x.exponentField = 0 then -1074 else (x.exponentField : Int) - 1075

/-- The absolute value of a finite double. -/
def magnitude (x : Binary64) : Rat :=
  let f := scaleFraction 2 x.significand 1 x.exponent
  mkRat f.1 f.2

/-- The number that a finite double stands for. -/
def toRat (x : Binary64) : Rat :=
  if x.isNegative then -x.magnitude else x.magnitude

/-- The double with the given sign and the given encoding of its absolute value. -/
def ofWord (negative : Bool) (word : Nat) : Binary64 :=
  ⟨UInt64.ofNat (if negative then Nat.pow 2 63 + word else word)⟩

/-- Positive or negative infinity. -/
def infinity (negative : Bool) : Binary64 := ofWord negative infinityWord

/-- Not a number. -/
def nan : Binary64 := ofWord false (infinityWord + Nat.pow 2 51)

/-- The power of two whose multiples are the doubles around `num / den`. It is chosen so that the
quotient by it has fifty-three binary digits, but is never less than -1074. -/
def gridExponent (num den : Nat) : Int :=
  let l : Int := (num.log2 : Int) - den.log2
  let f := scaleFraction 2 num den (-l)
  max (if f.1 < f.2 then l - 53 else l - 52) (-1074)

/-- The encoding of the double nearest to the fraction `num / den`. A significand that rounds up
to the next power of two carries into the exponent, and what is too large becomes infinity. -/
def nearestWord (num den : Nat) : Nat :=
  let q := gridExponent num den
  let f := scaleFraction 2 num den (-q)
  min (roundHalfEven f.1 f.2 + (q + 1074).toNat * Nat.pow 2 52) infinityWord

/-- The double nearest to the fraction `num / den` with the given sign. -/
def ofFraction (negative : Bool) (num den : Nat) : Binary64 :=
  ofWord negative (if num = 0 then 0 else nearestWord num den)

/-- The double nearest to a rational number. -/
def ofRat (r : Rat) : Binary64 :=
  ofFraction (decide (r < 0)) r.num.natAbs r.den

/-- The double nearest to `digits` times a power of ten. Numbers beyond the range of doubles by a
wide margin are settled without computing the power. -/
def ofDecimal (negative : Bool) (digits : Nat) (exponent : Int) : Binary64 :=
  let size : Int := (Nat.toDigits 10 digits).length + exponent
  if digits = 0 || size < -330 then ofWord negative 0
  else if 310 < size then infinity negative
  else
    let f := scaleFraction 10 digits 1 exponent
    ofFraction negative f.1 f.2

/-- The double nearest to a whole number. -/
def ofInt (n : Int) : Binary64 :=
  ofFraction (decide (n < 0)) n.natAbs 1

end Binary64

end SegmentSwap
