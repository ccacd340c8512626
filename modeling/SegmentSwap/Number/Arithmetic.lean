import SegmentSwap.Number.Quantity

/-!
# Sums and products of quantities

Whole quantities are added and multiplied exactly. As soon as a double takes part the other quantity
is rounded to a double as well, and so is the result; a whole quantity beyond the range of doubles
then has no result.
-/

namespace SegmentSwap

/-- The wording for a whole number that is too large for a double. -/
def doubleLimitMessage : String := "int too large to convert to float"

namespace Binary64

/-- Zero with a sign. -/
def zero (negative : Bool) : Binary64 := ofWord negative 0

/-- Whether this is one of the two zeros. -/
def isZero (x : Binary64) : Bool := !x.isNaN && !x.isInfinite && x.significand == 0

/-- The sum of two doubles. -/
def add (a b : Binary64) : Binary64 :=
  if a.isNaN || b.isNaN then nan
  else if a.isInfinite then
    if b.isInfinite && a.isNegative != b.isNegative then nan else a
  else if b.isInfinite then b
  else
    let sum := a.toRat + b.toRat
    if sum = 0 then zero (a.isNegative && b.isNegative) else ofRat sum

/-- The product of two doubles. -/
def mul (a b : Binary64) : Binary64 :=
  let negative := a.isNegative != b.isNegative
  if a.isNaN || b.isNaN then nan
  else if a.isInfinite || b.isInfinite then
    if a.isZero || b.isZero then nan else infinity negative
  else
    let product := a.magnitude * b.magnitude
    ofFraction negative product.num.natAbs product.den

end Binary64

namespace Quantity

/-- The double nearest to a quantity, unless the quantity is whole and too large for one. -/
def rounded? (q : Quantity) : Option Binary64 :=
  match q with
  | .real x => some x
  | .whole n => if (Binary64.ofInt n).isInfinite then none else some (.ofInt n)

/-- The sum of two quantities. -/
def add? : Quantity → Quantity → Option Quantity
  | .whole a, .whole b => some (.whole (a + b))
  | a, b => do return .real (Binary64.add (← a.rounded?) (← b.rounded?))

/-- The product of two quantities. -/
def mul? : Quantity → Quantity → Option Quantity
  | .whole a, .whole b => some (.whole (a * b))
  | a, b => do return .real (Binary64.mul (← a.rounded?) (← b.rounded?))

/-- The smaller of two quantities; the first one if they cannot be compared. -/
def minOf (a b : Quantity) : Quantity := if b.lt a then b else a

/-- The larger of two quantities; the first one if they cannot be compared. -/
def maxOf (a b : Quantity) : Quantity := if a.lt b then b else a

end Quantity

end SegmentSwap
