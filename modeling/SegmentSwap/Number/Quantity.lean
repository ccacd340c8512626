import SegmentSwap.Number.Shortest

/-!
# Whole and real quantities

Settings hold numbers that may be whole or real. Both kinds compare by value on the line of the
rational numbers with its two infinities; a NaN is neither below, nor above, nor equal to anything.
A quantity is shown the way it was given, `1` or `1.0`.
-/

namespace SegmentSwap

/-- A whole number of any size or a double. -/
inductive Quantity where
  | whole (n : Int)
  | real (x : Binary64)
  deriving DecidableEq, Repr, Inhabited

/-- A rational number or one of the two infinities. -/
inductive Extended where
  | bottom
  | finite (r : Rat)
  | top
  deriving DecidableEq

namespace Extended

/-- The strict order of the extended line. -/
def lt : Extended → Extended → Bool
  | .bottom, .bottom => false
  | .bottom, _ => true
  | .finite a, .finite b => decide (a < b)
  | .finite _, .top => true
  | _, _ => false

end Extended

namespace Quantity

/-- The place of a quantity on the extended line, which a NaN does not have. -/
def value? : Quantity → Option Extended
  | .whole n => some (.finite n)
  | .real x =>
    if x.isNaN then none
    else if x.isInfinite then some (if x.isNegative then .bottom else .top)
    else some (.finite x.toRat)

/-- Whether the first quantity is less than the second. -/
def lt (a b : Quantity) : Bool :=
  match a.value?, b.value? with
  | some u, some v => u.lt v
  | _, _ => false

/-- Whether the first quantity is at most the second. -/
def le (a b : Quantity) : Bool :=
  match a.value?, b.value? with
  | some u, some v => !v.lt u
  | _, _ => false

/-- Whether two quantities have the same value. -/
def same (a b : Quantity) : Bool :=
  match a.value?, b.value? with
  | some u, some v => u == v
  | _, _ => false

/-- The quantity as it was given. -/
def text : Quantity → String
  | .whole n => toString n
  | .real x => x.text

/-- The double nearest to the quantity. -/
def toBinary64 : Quantity → Binary64
  | .whole n => .ofInt n
  | .real x => x

end Quantity

end SegmentSwap
