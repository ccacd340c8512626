import SegmentSwap.Number.Arithmetic

/-!
# The clock of the file store

The age of a lock is told by the time of day, and how long a writer has waited by a clock that counts
from the moment at which it began. Both are doubles on a computer, so that they meet a limit exactly
when the rounded numbers do. An exact clock tells the same times without rounding them.
-/

namespace SegmentSwap

/-- How a store tells the time. -/
inductive Clock where
  /-- In doubles. -/
  | rounded
  /-- Exactly. -/
  | exact
  deriving DecidableEq, Repr

namespace Clock

/-- The steps of a rounded clock in a second. A time of day is a double, and the doubles of our
century lie this close to each other. -/
def steps : Nat := Nat.pow 2 22

/-- A time in milliseconds as a clock tells it in seconds. A rounded one gives the nearest of its
steps. -/
def reading : Clock → Rat → Rat
  | .rounded, ms => ((ms * steps : Rat) / 1000 + 1 / 2).floor / steps
  | .exact, ms => ms / 1000

/-- The place of a time limit among those that a clock can tell. -/
def limit? : Clock → Quantity → Option Extended
  | .rounded, q => (Quantity.real q.toBinary64).value?
  | .exact, q => q.value?

/-- Whether a clock can tell the end of a wait of this length. A rounded one cannot where the limit is
a whole number that is too large for a double. -/
def tells : Clock → Quantity → Bool
  | .rounded, q => q.rounded?.isSome
  | .exact, _ => true

/-- How many seconds have gone by after a number of waits of a hundredth each. -/
def elapsed? : Clock → Nat → Option Extended
  | .rounded, waits =>
    (Quantity.real ((Binary64.ofInt waits).mul (.ofDecimal false 1 (-2)))).value?
  | .exact, waits => some (.finite (waits / 100))

/-- Whether the time that a limit allows is over after a number of waits. -/
def isOver (c : Clock) (waits : Nat) (limit : Quantity) : Bool :=
  match c.limit? limit, c.elapsed? waits with
  | some l, some e => !e.lt l
  | _, _ => false

/-- Whether a time span is no longer than a limit. -/
def isWithin (span : Rat) (limit : Quantity) : Bool :=
  match limit.value? with
  | some l => !l.lt (.finite span)
  | none => false

/-- A number of waits after which the time that a limit allows is over, if it ever is. Four times
as many as there are hundredths of a second make up for what is lost in rounding. -/
def patience (c : Clock) (limit : Quantity) : Nat :=
  match c.limit? limit with
  | some (.finite t) => (t * 400).ceil.toNat + 200
  | _ => 0

end Clock

end SegmentSwap
