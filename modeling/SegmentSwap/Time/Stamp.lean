import SegmentSwap.Text.Quoted
import SegmentSwap.Text.Utf8
import SegmentSwap.Time.Instant

/-!
# Reading stamps

A stamp gives a date, then any one character, a time of day and an offset from universal time; time
and offset may be left out. A date is a day of a month or of a week, with dashes or without. A time
has two digits each for hours, minutes and seconds, with colons or without, later parts being
optional, and a fraction after a point or a comma. An offset is `Z` or a signed time.

The character after the date may also be half of a surrogate pair; anywhere else no stamp holds one.

Reading is lenient in some places. It looks at the bytes of the stamp, to which a zero byte is added
that ends it. A single byte between a time and its offset is passed over, and so is a broken
fraction there; digits of a fraction beyond the sixth are dropped.
-/

namespace SegmentSwap.Time

/-- A time read from a stamp, not yet checked against the clock. -/
structure ClockReading where
  /-- Hours, minutes, seconds, as many as were given. -/
  parts : List Nat
  /-- The microseconds. -/
  micros : Nat
  /-- Whether nothing is left over. -/
  complete : Bool
  deriving DecidableEq, Repr

/-- What a stamp says. -/
structure Reading where
  /-- The instant that the stamp would name if its offset were zero. -/
  wall : Instant
  /-- The offset from universal time, if there is one. -/
  offset? : Option Span
  deriving DecidableEq, Repr

/-- Why a stamp names no instant. -/
inductive StampError where
  /-- The text is no stamp. -/
  | malformed (text : Text)
  /-- The offset is a day or more. -/
  | offset (given : Span)
  /-- There is no such year. -/
  | year (given : Nat)
  /-- There is no such month. -/
  | month
  /-- The month has no such day. -/
  | day
  /-- The day has no such hour. -/
  | hour
  /-- The hour has no such minute. -/
  | minute
  /-- The minute has no such second. -/
  | second
  deriving DecidableEq, Repr

/-- The wording of a stamp error. -/
def StampError.message : StampError → Text
  | .malformed text => "Invalid isoformat string: " ++ Text.quoted text
  | .offset given =>
    "offset must be a timedelta strictly between -timedelta(hours=24) and " ++
      "timedelta(hours=24), not " ++ given.shown ++ "."
  | .year given => "year " ++ toString given ++ " is out of range"
  | .month => "month must be in 1..12"
  | .day => "day is out of range for month"
  | .hour => "hour must be in 0..23"
  | .minute => "minute must be in 0..59"
  | .second => "second must be in 0..59"

namespace Stamp

/-- The byte of an ASCII character. -/
def byte (c : Char) : UInt8 := UInt8.ofNat c.toNat

/-- Whether a byte is a decimal digit. -/
def isDigit (b : UInt8) : Bool := byte '0' ≤ b && b ≤ byte '9'

/-- The first byte, or the zero byte at the end. -/
def peek (bs : List UInt8) : UInt8 := bs.headD 0

/-- The number spelled by exactly `count` digits, and what follows. -/
def digits? : (count : Nat) → (value : Nat) → List UInt8 → Option (Nat × List UInt8)
  | 0, value, bs => some (value, bs)
  | count + 1, value, b :: rest =>
    if isDigit b then digits? count (10 * value + (b.toNat - 0x30)) rest else none
  | _ + 1, _, [] => none

/-- How many bytes the date takes, as far as its first bytes tell. A date of a week without dashes
takes seven bytes or eight, whichever leaves an even number of digits. There is no answer where the
stamp breaks off. -/
def dateLength? (bs : List UInt8) : Option Nat :=
  let length := bs.length
  let here (i : Nat) : UInt8 := bs.getD i 0
  if length = 7 then some 7
  else if here 4 = byte '-' then
    if here 5 = byte 'W' then
      if length < 8 then none
      else if 8 < length && here 8 == byte '-' then
        if length = 9 then none
        else if 10 < length && isDigit (here 10) then some 8
        else some 10
      else some 8
    else some 10
  else if here 4 = byte 'W' then
    let stop := 7 + ((bs.drop 7).takeWhile isDigit).length
    if stop < 9 then some stop else if stop % 2 = 0 then some 7 else some 8
  else some 8

/-- The rest after a dash, where dashes are in use. -/
def dash? (inUse : Bool) (bs : List UInt8) : Option (List UInt8) :=
  if !inUse then some bs
  else if peek bs = byte '-' then some (bs.drop 1) else none

/-- The date at the front of a stamp; it takes `length?` bytes if that is known. -/
def date? (length? : Option Nat) (bs : List UInt8) : Option Date := do
  let (year, rest) ← digits? 4 0 bs
  let dashes := peek rest == byte '-'
  let rest := if dashes then rest.drop 1 else rest
  if peek rest = byte 'W' then
    let (week, rest) ← digits? 2 0 (rest.drop 1)
    let taken := bs.length - rest.length
    if length?.all (taken < ·) then
      let (day, _) ← digits? 1 0 (← dash? dashes rest)
      Date.ofWeek? year week day
    else Date.ofWeek? year week 1
  else
    let (month, rest) ← digits? 2 0 rest
    let (day, _) ← digits? 2 0 (← dash? dashes rest)
    some ⟨year, month, day⟩

/-- The microseconds that the digits of a fraction spell; `next` is the byte after the time. -/
def fraction? (next : UInt8) (bs : List UInt8) : Option (Nat × Bool) := do
  let count := min 6 bs.length
  let (value, rest) ← digits? count 0 bs
  let left := rest.dropWhile isDigit
  some (value * Nat.pow 10 (6 - count), left.headD next == 0)

/-- The parts of a time that come two digits at a time, at most `left` more of them. `colons` tells
whether colons part them, once that is known, and `next` is the byte after the time. -/
def clock? (next : UInt8) : (left : Nat) → (colons : Option Bool) → List UInt8 →
    Option ClockReading
  | 0, _, bs => (fraction? next bs).map fun f => ⟨[], f.1, f.2⟩
  | left + 1, colons, bs => do
    let (value, rest) ← digits? 2 0 bs
    let c := rest.headD next
    let parted := colons.getD (c == byte ':')
    if rest.length ≤ 1 then some ⟨[value], 0, c == 0⟩
    else if parted && c == byte ':' then
      (clock? next left (some parted) (rest.drop 1)).map fun r =>
        { r with parts := value :: r.parts }
    else if c == byte '.' || c == byte ',' then
      (fraction? next (rest.drop 1)).map fun f => ⟨[value], f.1, f.2⟩
    else if !parted then
      (clock? next left (some parted) rest).map fun r => { r with parts := value :: r.parts }
    else none

/-- Whether an offset starts with this byte. -/
def startsOffset (b : UInt8) : Bool := b == byte '+' || b == byte '-' || b == byte 'Z'

/-- The offset of a stamp from its sign on. -/
def offset? : List UInt8 → Option Span
  | [] => none
  | sign :: rest =>
    if sign = byte 'Z' then if peek rest = 0 then some ⟨0⟩ else none
    else do
      let r ← clock? 0 3 none rest
      if !r.complete then none
      else
        let seconds := r.parts.getD 0 0 * 3600 + r.parts.getD 1 0 * 60 + r.parts.getD 2 0
        -- a fraction alone is no offset
        let micros : Int := if seconds = 0 then 0 else seconds * microsPerSecond + r.micros
        some ⟨if sign = byte '-' then -micros else micros⟩

/-- The time and the offset of a stamp. -/
def time? (bs : List UInt8) : Option (ClockReading × Option Span) := do
  let body := bs.takeWhile fun b => !startsOffset b
  let zone := bs.dropWhile fun b => !startsOffset b
  let r ← clock? (peek zone) 3 none body
  if zone.isEmpty then
    if r.complete then some (r, none) else none
  else
    let offset ← offset? zone
    some (r, some offset)

/-- The bytes of a character that starts with the given byte. -/
def characterLength (b : UInt8) : Nat :=
  if b < 0x80 then 1 else if b < 0xE0 then 2 else if b < 0xF0 then 3 else 4

/-- Date, time and offset as they are spelled. -/
def spelled? (bs : List UInt8) : Option (Date × ClockReading × Option Span) := do
  let length? := dateLength? bs
  let date ← date? length? bs
  let taken := length?.getD 0
  if bs.length ≤ taken then some (date, ⟨[], 0, true⟩, none)
  else
    let rest := bs.drop taken
    let (clock, offset) ← time? (rest.drop (characterLength (peek rest)))
    some (date, clock, offset)

/-- The places where the character after the date may stand. -/
def separatorPlaces : List Nat := [7, 8, 10]

/-- Whether a point of a text is half of a surrogate pair. -/
def isHalf : Point → Bool
  | .half _ => true
  | .char _ => false

/-- The text with the letter `T` for the first half of a surrogate pair in a place of the character
after the date. -/
def withSeparator (text : Text) : Text :=
  match separatorPlaces.find? fun i => text.points[i]?.any isHalf with
  | some i => ⟨text.points.set i (.char 'T')⟩
  | none => text

/-- The bytes of a stamp, which holds no other half of a surrogate pair. -/
def bytes? (text : Text) : Option (List UInt8) :=
  let t := withSeparator text
  if t.points.any isHalf then none else some (Text.Utf8.encode t.toString)

/-- What a stamp says. -/
def read (text : Text) : Except StampError Reading :=
  match (bytes? text).bind spelled? with
  | none => .error (.malformed text)
  | some (date, clock, offset) =>
    let hour := clock.parts.getD 0 0
    let minute := clock.parts.getD 1 0
    let second := clock.parts.getD 2 0
    match offset.filter fun z => microsPerDay ≤ z.micros || z.micros ≤ -microsPerDay with
    | some z => .error (.offset z)
    | none =>
      if date.year < 1 ∨ 9999 < date.year then .error (.year date.year)
      else if date.month < 1 ∨ 12 < date.month then .error .month
      else if date.day < 1 ∨ daysInMonth date.year date.month < date.day then .error .day
      else if 23 < hour then .error .hour
      else if 59 < minute then .error .minute
      else if 59 < second then .error .second
      else
        .ok ⟨⟨((date.ordinal : Int) - epochOrdinal) * microsPerDay +
          (hour * 3600 + minute * 60 + second) * microsPerSecond + clock.micros⟩, offset⟩

end Stamp

/-- The instant that a reading names, if it has an offset. -/
def Reading.instant? (r : Reading) : Option Instant :=
  r.offset?.map fun z => ⟨r.wall.micros - z.micros⟩

end SegmentSwap.Time
