import SegmentSwap.Time.Stamp
import SegmentSwap.Yaml.Fault

/-!
# Dates and times of YAML

A date has a year, a month and a day between dashes. After a `T` or blanks it may have a time of day
with seconds, and that a fraction, of which six digits count, and an offset from universal time.
-/

namespace SegmentSwap

namespace Yaml

/-- A time of day. -/
structure Clock where
  /-- The hour. -/
  hour : Nat
  /-- The minute. -/
  minute : Nat
  /-- The second. -/
  second : Nat
  /-- The microsecond. -/
  micros : Nat
  /-- The offset from universal time, if there is one. -/
  offset? : Option Time.Span
  deriving DecidableEq, Repr

/-- A date, with a time of day or without. -/
structure Moment where
  /-- The date. -/
  date : Time.Date
  /-- The time of day, if there is one. -/
  clock? : Option Clock
  deriving DecidableEq, Repr

namespace Moment

/-- One digit or two at the front of a text, and what follows. -/
def shortNumber? (cs : List Char) : Option (Nat × List Char) :=
  let digits := (cs.take 2).takeWhile Text.isAsciiDigit
  if digits.isEmpty then none else some (ofDigits digits, cs.drop digits.length)

/-- A number of a given length at the front of a text, and what follows. -/
def number? (length : Nat) (cs : List Char) : Option (Nat × List Char) :=
  let digits := (cs.take length).takeWhile Text.isAsciiDigit
  if digits.length = length then some (ofDigits digits, cs.drop length) else none

/-- The rest of a text after a character. -/
def after? (c : Char) : List Char → Option (List Char)
  | [] => none
  | d :: rest => if d = c then some rest else none

/-- A blank between the parts of a moment. -/
def isGap (c : Char) : Bool := c == ' ' || c == '\t'

/-- The offset at the end of a moment. There is no answer if something else stands there. -/
def offsetAt? (cs : List Char) : Option (Option Time.Span) :=
  match cs.dropWhile isGap with
  | [] => if cs.isEmpty then some none else none
  | ['Z'] => some (some ⟨0⟩)
  | sign :: rest =>
    if sign = '+' ∨ sign = '-' then do
      let (hours, rest) ← shortNumber? rest
      let minutes ← match rest with
        | [] => some 0
        | _ => do
          let (minutes, rest) ← number? 2 (← after? ':' rest)
          if rest.isEmpty then some minutes else none
      let micros : Int := (3600 * hours + 60 * minutes : Nat) * Time.microsPerSecond
      some (some ⟨if sign = '-' then -micros else micros⟩)
    else none

/-- The time of day after a date. -/
def clockAt? (cs : List Char) : Option Clock := do
  let rest ← match cs with
    | 'T' :: rest | 't' :: rest => some rest
    | _ => if isGap (cs.headD 'T') then some (cs.dropWhile isGap) else none
  let (hour, rest) ← shortNumber? rest
  let (minute, rest) ← number? 2 (← after? ':' rest)
  let (second, rest) ← number? 2 (← after? ':' rest)
  let (fraction, rest) := match rest with
    | '.' :: rest => (rest.takeWhile Text.isAsciiDigit, rest.dropWhile Text.isAsciiDigit)
    | _ => ([], rest)
  let offset? ← offsetAt? rest
  some {
    hour, minute, second, offset?
    micros := ofDigits (fraction.take 6) * Nat.pow 10 (6 - (fraction.take 6).length) }

/-- The moment that a text spells, not checked against the calendar and the clock. -/
def ofText? (cs : List Char) : Option Moment := do
  let (year, rest) ← number? 4 cs
  let (month, rest) ← shortNumber? (← after? '-' rest)
  let (day, rest) ← shortNumber? (← after? '-' rest)
  if rest.isEmpty then some ⟨⟨year, month, day⟩, none⟩
  else some ⟨⟨year, month, day⟩, ← clockAt? rest⟩

/-- Whether a plain scalar is a moment. A date that stands alone has ten characters then. -/
def isPlain (cs : List Char) : Bool :=
  match ofText? cs with
  | some m => m.clock?.isSome || cs.length == 10
  | none => false

/-- Whether a moment exists. -/
def check (m : Moment) : Except Time.StampError Unit := do
  if let some o := m.clock?.bind (·.offset?) then
    if o.micros ≤ -Time.microsPerDay ∨ Time.microsPerDay ≤ o.micros then throw (.offset o)
  let d := m.date
  if d.year < 1 ∨ 9999 < d.year then throw (.year d.year)
  if d.month < 1 ∨ 12 < d.month then throw .month
  if d.day < 1 ∨ Time.daysInMonth d.year d.month < d.day then throw .day
  if let some c := m.clock? then
    if 23 < c.hour then throw .hour
    if 59 < c.minute then throw .minute
    if 59 < c.second then throw .second

/-- The moment that a text is called. -/
def read (t : Text) : Except Fault Moment :=
  let cs := t.chars
  match ofText? (if cs.getLast? = some '\n' then cs.dropLast else cs) with
  | none => .error .badStamp
  | some m => match m.check with
    | .ok () => .ok m
    | .error e => .error (.stamp e)

/-- The microseconds from the start of the calendar, in universal time if there is an offset. -/
def micros (m : Moment) : Int :=
  m.date.ordinal * Time.microsPerDay +
    match m.clock? with
    | none => 0
    | some c =>
      (3600 * c.hour + 60 * c.minute + c.second : Nat) * Time.microsPerSecond + c.micros -
        (c.offset?.map (·.micros)).getD 0

/-- Whether two moments are of the same kind and at the same time. -/
def same (a b : Moment) : Bool :=
  a.clock?.isSome == b.clock?.isSome &&
    (a.clock?.bind (·.offset?)).isSome == (b.clock?.bind (·.offset?)).isSome && a.micros == b.micros

/-- The offset of a moment, as messages show it. -/
def shownOffset (o : Time.Span) : String :=
  if o.micros = 0 then "datetime.timezone.utc" else "datetime.timezone(" ++ o.shown ++ ")"

/-- A moment, as messages show it. Seconds and microseconds that are zero are left out from the end.
-/
def shown (m : Moment) : String :=
  let d := m.date
  let call (name : String) (parts : List Nat) (more : List String) : String :=
    "datetime." ++ name ++ "(" ++ ", ".intercalate (parts.map toString ++ more) ++ ")"
  match m.clock? with
  | none => call "date" [d.year, d.month, d.day] []
  | some c =>
    let late :=
      if c.micros ≠ 0 then [c.second, c.micros] else if c.second ≠ 0 then [c.second] else []
    call "datetime" ([d.year, d.month, d.day, c.hour, c.minute] ++ late)
      ((c.offset?.map fun o => "tzinfo=" ++ shownOffset o).toList)

/-- The type of a moment, as messages name it. -/
def typeName (m : Moment) : String := if m.clock?.isSome then "datetime" else "date"

end Moment

end Yaml

end SegmentSwap
