import SegmentSwap.Number.Arithmetic
import SegmentSwap.Number.Numeral
import SegmentSwap.Time.Stamp

/-!
# Faults of YAML texts

Most texts that are not YAML are simply malformed. A few faults are told apart because they concern
a single scalar: a character or a number out of range, a date that does not exist, a word that its
tag does not take.
-/

namespace SegmentSwap

namespace Yaml

/-- Why a text holds no value. -/
inductive Fault where
  /-- The text is not YAML, or it uses what is not supported. -/
  | malformed
  /-- An escape stands for no character. -/
  | noCharacter
  /-- An escape has a number that is too large for a machine word. -/
  | wordSize
  /-- A whole number has digits that its base does not take. -/
  | badInteger (base : Nat) (digits : Text)
  /-- A whole number has too many digits. -/
  | tooManyDigits (count : Nat)
  /-- A whole number cannot be shown, since it has too many digits. -/
  | tooLong
  /-- A part of a number in base sixty stands at a place beyond the range of doubles. -/
  | tooLarge
  /-- A number has no digits at all. -/
  | emptyNumber
  /-- A text is no real number. -/
  | badReal (text : Text)
  /-- A word is no truth value. -/
  | badTruth (word : Text)
  /-- A text is no date. -/
  | badStamp
  /-- A mapping stands in the place of a date. -/
  | mappingStamp
  /-- The text of a node is that of another node, and so on without end. -/
  | endless
  /-- A date or a time does not exist. -/
  | stamp (e : Time.StampError)
  deriving DecidableEq, Repr

/-- The most characters that a message quotes of a text that is no whole number. -/
def maxQuoted : Nat := 200

/-- A text in quotes, cut off where it is longer than messages quote it. -/
def quotedStart (t : Text) : Text := ⟨(Text.quoted t).points.take maxQuoted⟩

/-- The wording of a fault. A malformed text has none. -/
def Fault.message? : Fault → Option Text
  | .malformed => none
  | .noCharacter => some "chr() arg not in range(0x110000)"
  | .wordSize => some "Python int too large to convert to C int"
  | .badInteger base digits =>
    some ("invalid literal for int() with base " ++ toString base ++ ": " ++
      quotedStart digits)
  | .tooManyDigits count => some (digitLimitMessage count)
  | .tooLong => some shownLimitMessage
  | .tooLarge => some doubleLimitMessage
  | .emptyNumber => some "string index out of range"
  | .badReal text => some ("could not convert string to float: " ++ Text.quoted text)
  | .badTruth word => some word
  | .badStamp => some "'NoneType' object has no attribute 'groupdict'"
  | .mappingStamp => some "expected string or bytes-like object, got 'list'"
  | .endless => some "maximum recursion depth exceeded"
  | .stamp e => some e.message

end Yaml

end SegmentSwap
