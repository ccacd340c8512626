import SegmentSwap.Time.Calendar

/-!
# Instants and spans

An instant is a number of microseconds since the start of 1970 in universal time. Its stamp names
date and time down to the second, then the microseconds if there are any, then the offset `+00:00`.
A span is a difference of instants, at most a little below a thousand million days either way.
-/

namespace SegmentSwap.Time

/-- Microseconds in a second. -/
def microsPerSecond : Int := 1000000

/-- Microseconds in a day. -/
def microsPerDay : Int := 86400 * microsPerSecond

/-- The ordinal of the first of January 1970. -/
def epochOrdinal : Int := 719163

/-- A point of time. -/
structure Instant where
  /-- The number of microseconds since the start of 1970 in universal time. -/
  micros : Int
  deriving DecidableEq, Repr, Inhabited

/-- The decimal digits of a number, filled up with zeros to a width. -/
def padded (width n : Nat) : String :=
  let digits := Nat.toDigits 10 n
  String.ofList (List.replicate (width - digits.length) '0' ++ digits)

namespace Instant

/-- The first instant of year 1. -/
def earliest : Int := (1 - epochOrdinal) * microsPerDay

/-- The first instant after year 9999. -/
def limit : Int := (3652060 - epochOrdinal) * microsPerDay

/-- Whether the instant falls into the years from 1 to 9999. -/
def isRepresentable (t : Instant) : Bool :=
  decide (earliest ≤ t.micros) && decide (t.micros < limit)

/-- The date of the instant in universal time. -/
def date (t : Instant) : Date := .ofOrdinal (t.micros.fdiv microsPerDay + epochOrdinal).toNat

/-- The microseconds since midnight in universal time. -/
def timeOfDay (t : Instant) : Nat := (t.micros.fmod microsPerDay).toNat

/-- The stamp of the instant. -/
def stamp (t : Instant) : String :=
  let d := t.date
  let seconds := t.timeOfDay / 1000000
  let fraction := t.timeOfDay % 1000000
  padded 4 d.year ++ "-" ++ padded 2 d.month ++ "-" ++ padded 2 d.day ++ "T" ++
    padded 2 (seconds / 3600) ++ ":" ++ padded 2 (seconds / 60 % 60) ++ ":" ++
    padded 2 (seconds % 60) ++ (if fraction = 0 then "" else "." ++ padded 6 fraction) ++ "+00:00"

end Instant

/-- A difference of instants. -/
structure Span where
  micros : Int
  deriving DecidableEq, Repr, Inhabited

/-- Why there is no span or no instant. -/
inductive RangeError where
  /-- A span has more days, either way, than a machine word holds. -/
  | wordSize
  /-- A span has too many days, either way. -/
  | magnitude (count : Int)
  /-- An instant lies outside the years from 1 to 9999. -/
  | date
  deriving DecidableEq, Repr

/-- The wording of a range error. -/
def RangeError.message : RangeError → String
  | .wordSize => "Python int too large to convert to C int"
  | .magnitude count => "days=" ++ toString count ++ "; must have magnitude <= 999999999"
  | .date => "date value out of range"

namespace Span

/-- The whole days of a span, rounded down. -/
def days (s : Span) : Int := s.micros.fdiv microsPerDay

/-- The seconds of a span beyond its whole days. -/
def seconds (s : Span) : Int := s.micros.fmod microsPerDay / microsPerSecond

/-- The microseconds of a span beyond its whole seconds. -/
def fraction (s : Span) : Int := s.micros.fmod microsPerSecond

/-- The span of the given parts. -/
def ofParts (days seconds micros : Int) : Except RangeError Span :=
  let s : Span := ⟨days * microsPerDay + seconds * microsPerSecond + micros⟩
  if s.days < -2147483648 ∨ 2147483647 < s.days then .error .wordSize
  else if s.days < -999999999 ∨ 999999999 < s.days then .error (.magnitude s.days)
  else .ok s

/-- The span as messages show it. -/
def shown (s : Span) : String :=
  let part (name : String) (n : Int) : List String := if n = 0 then [] else [name ++ toString n]
  let parts := part "days=" s.days ++ part "seconds=" s.seconds ++ part "microseconds=" s.fraction
  "datetime.timedelta(" ++ (if parts.isEmpty then "0" else ", ".intercalate parts) ++ ")"

end Span

/-- The instant a span before another one. -/
def Instant.before (t : Instant) (s : Span) : Except RangeError Instant :=
  let u : Instant := ⟨t.micros - s.micros⟩
  if u.isRepresentable then .ok u else .error .date

end SegmentSwap.Time
