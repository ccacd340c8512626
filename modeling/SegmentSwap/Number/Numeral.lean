import SegmentSwap.Text.Digit
import SegmentSwap.Number.Binary64

/-!
# Numbers in text

Whole and decimal numbers as settings spell them: ASCII blanks around them are skipped, a sign may
come first, digits of any script count, and single underscores may stand between two digits.
A whole number may have at most 4300 digits.
-/

namespace SegmentSwap

/-- The most digits that a whole number may have in text. -/
def maxIntegerDigits : Nat := 4300

/-- The wording for a whole number beyond the limit; `detail` may tell more about it. -/
def limitMessage (detail : String) : String :=
  "Exceeds the limit (" ++ toString maxIntegerDigits ++ " digits) for integer string conversion" ++
    detail ++ "; use sys.set_int_max_str_digits() to increase the limit"

/-- The wording for a text with more digits. -/
def digitLimitMessage (count : Nat) : String :=
  limitMessage (": value has " ++ toString count ++ " digits")

/-- The wording for a number whose text would have more digits. -/
def shownLimitMessage : String := limitMessage ""

/-- Whether the text of a number stays within the limit. -/
def isShowable (n : Int) : Bool := decide (n.natAbs < Nat.pow 10 maxIntegerDigits)

/-- The number spelled by decimal digits. -/
def ofDigits (digits : List Char) : Nat :=
  digits.foldl (fun n c => 10 * n + (c.toNat - 0x30)) 0

namespace Numeral

/-- A text in ASCII dress without the blanks around it. -/
def trimmed (cs : List Char) : List Char :=
  let cs := (cs.map Text.asciiForm).dropWhile Text.isAsciiBlank
  (cs.reverse.dropWhile Text.isAsciiBlank).reverse

/-- Takes a sign off the front. -/
def splitSign : List Char → Bool × List Char
  | '-' :: rest => (true, rest)
  | '+' :: rest => (false, rest)
  | cs => (false, cs)

/-- Drops single underscores that stand between two digits. There is no result if an underscore
stands elsewhere. `afterDigit` tells whether the character before was a digit and
`afterUnderscore` whether it was an underscore. -/
def dropUnderscores (afterDigit afterUnderscore : Bool) : List Char → Option (List Char)
  | [] => if afterUnderscore then none else some []
  | c :: rest =>
    if c = '_' then
      if afterDigit then dropUnderscores false true rest else none
    else if afterUnderscore && !Text.isAsciiDigit c then none
    else (dropUnderscores (Text.isAsciiDigit c) false rest).map (c :: ·)

/-- A whole number. -/
def integer? (cs : List Char) : Option Int := do
  let (negative, body) := splitSign (trimmed cs)
  let digits ← dropUnderscores false false body
  if digits.isEmpty || !digits.all Text.isAsciiDigit || maxIntegerDigits < digits.length then none
  else if negative then some (-(ofDigits digits : Int)) else some (ofDigits digits)

/-- The exponent part of a decimal number: nothing, or `e`, a sign and digits. -/
def exponent? : List Char → Option Int
  | [] => some 0
  | c :: rest =>
    if c = 'e' || c = 'E' then
      let (negative, digits) := splitSign rest
      if digits.isEmpty || !digits.all Text.isAsciiDigit then none
      else some (if negative then -(ofDigits digits : Int) else ofDigits digits)
    else none

/-- An unsigned decimal number: digits with a point before, among or after them, and an exponent. -/
def decimal? (negative : Bool) (cs : List Char) : Option Binary64 := do
  let whole := cs.takeWhile Text.isAsciiDigit
  let rest := cs.dropWhile Text.isAsciiDigit
  let (fraction, rest) := match rest with
    | '.' :: tail => (tail.takeWhile Text.isAsciiDigit, tail.dropWhile Text.isAsciiDigit)
    | _ => ([], rest)
  if whole.isEmpty && fraction.isEmpty then none
  else
    let e ← exponent? rest
    some (.ofDecimal negative (ofDigits (whole ++ fraction)) (e - fraction.length))

/-- The word for an infinity or for a NaN, in any case. -/
def word? (negative : Bool) (cs : List Char) : Option Binary64 :=
  let w := String.ofList (cs.map Char.toLower)
  if w = "inf" ∨ w = "infinity" then some (.infinity negative)
  else if w = "nan" then some .nan
  else none

/-- A real number. -/
def real? (cs : List Char) : Option Binary64 := do
  let cs ← dropUnderscores false false (trimmed cs)
  let (negative, body) := splitSign cs
  word? negative body <|> decimal? negative body

end Numeral

end SegmentSwap
