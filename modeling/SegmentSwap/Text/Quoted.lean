import SegmentSwap.Text.Basic
import SegmentSwap.Text.Printable

/-!
# Quoted texts

Messages show a name in quotes when its exact characters matter. The quotes are single ones, unless
the name holds a single quote and no double quote. The quote in use and the backslash are escaped
by a backslash, line feed, carriage return and tab by their letter, and every other hidden
character, like every half of a surrogate pair, by its number in two, four or eight hexadecimal
digits.
-/

namespace SegmentSwap.Text

/-- The lower-case hexadecimal digit of a number below sixteen. -/
def hexDigit (n : Nat) : Char :=
  if n < 10 then Char.ofNat (0x30 + n) else Char.ofNat (0x57 + n)

/-- The last `width` hexadecimal digits of a number. -/
def hexDigits : (width : Nat) → Nat → List Char
  | 0, _ => []
  | width + 1, n => hexDigits width (n / 16) ++ [hexDigit (n % 16)]

/-- A code point shown by its number, in the shortest of the three forms that holds it. -/
def numberEscape (n : Nat) : List Char :=
  if n < 0x100 then '\\' :: 'x' :: hexDigits 2 n
  else if n < 0x10000 then '\\' :: 'u' :: hexDigits 4 n
  else '\\' :: 'U' :: hexDigits 8 n

/-- The characters that show `p` between two marks `mark`. -/
def escapeQuoted (mark : Char) (p : Point) : List Char :=
  match p with
  | .half _ => numberEscape p.number
  | .char c =>
    if c = mark ∨ c = '\\' then ['\\', c]
    else if c = '\n' then ['\\', 'n']
    else if c = '\r' then ['\\', 'r']
    else if c = '\t' then ['\\', 't']
    else if isPrintable c then [c]
    else numberEscape c.toNat

/-- The quotation mark put around a text. -/
def quoteMark (t : Text) : Char :=
  if t.points.contains (.char '\'') && !t.points.contains (.char '"') then '"' else '\''

/-- The text in quotes, with every code point visible. -/
def quoted (t : Text) : Text :=
  let mark := quoteMark t
  ofChars (mark :: t.points.flatMap (escapeQuoted mark) ++ [mark])

/-- Shown items between square brackets, parted by commas. -/
def bracketed (items : List Text) : Text :=
  "[" ++ joined ", " items ++ "]"

/-- A list of names as messages show it. -/
def quotedList (names : List Text) : Text :=
  bracketed (names.map quoted)

end SegmentSwap.Text
