import SegmentSwap.Number.Arithmetic
import SegmentSwap.Number.Numeral
import SegmentSwap.Text.Lowercase
import SegmentSwap.Yaml.Fault

/-!
# Numbers of YAML

Whole numbers are written in base two, eight, ten or sixteen, or with parts in base sixty between
colons; real numbers have a point or a word. Underscores may stand anywhere. What a plain scalar has
to look like to be a number is told by `isWhole` and `isReal`; what a number is worth, by `whole`
and `real`, which are more lenient, since a tag can call any text a number.
-/

namespace SegmentSwap

namespace Yaml

namespace Number

/-! ### What numbers look like -/

/-- A decimal digit or an underscore. -/
def isDigitOrGap (c : Char) : Bool := Text.isAsciiDigit c || c == '_'

/-- A text without its sign. -/
def unsigned (cs : List Char) : List Char := (Numeral.splitSign cs).2

/-- The parts of a list between marks. -/
def parts {α : Type} [BEq α] (mark : α) : List α → List (List α)
  | [] => [[]]
  | c :: rest =>
    if c == mark then [] :: parts mark rest
    else match parts mark rest with
      | part :: others => (c :: part) :: others
      | [] => [[c]]

/-- A number below sixty with one digit or two. -/
def isSexagesimal : List Char → Bool
  | [a] => Text.isAsciiDigit a
  | [a, b] => '0' ≤ a && a ≤ '5' && Text.isAsciiDigit b
  | _ => false

/-- One character of a class at least, and no others. -/
def isRun (p : Char → Bool) (cs : List Char) : Bool := !cs.isEmpty && cs.all p

/-- Digits that start with a digit of a class. -/
def isDigits (first : Char → Bool) : List Char → Bool
  | c :: rest => first c && rest.all isDigitOrGap
  | [] => false

/-- A digit other than zero. -/
def isCountDigit (c : Char) : Bool := '1' ≤ c && c ≤ '9'

/-- Whether a text, apart from its sign, looks like a whole number. -/
def isUnsignedWhole (cs : List Char) : Bool :=
  match cs with
  | ['0'] => true
  | '0' :: 'b' :: digits => isRun (fun c => c == '0' || c == '1' || c == '_') digits
  | '0' :: 'x' :: digits =>
    isRun (fun c => isDigitOrGap c || ('a' ≤ c && c ≤ 'f') || ('A' ≤ c && c ≤ 'F')) digits
  | '0' :: digits => isRun (fun c => ('0' ≤ c && c ≤ '7') || c == '_') digits
  | _ =>
    match parts ':' cs with
    | first :: rest => isDigits isCountDigit first && rest.all isSexagesimal
    | [] => false

/-- Whether a text looks like a whole number. -/
def isWhole (cs : List Char) : Bool := isUnsignedWhole (unsigned cs)

/-- What may follow the fraction of a real number. -/
def isExponent : List Char → Bool
  | [] => true
  | e :: sign :: digits =>
    (e == 'e' || e == 'E') && (sign == '-' || sign == '+') && isRun Text.isAsciiDigit digits
  | [_] => false

/-- Whether a text looks like a real number. -/
def isReal (cs : List Char) : Bool :=
  let fraction (cs : List Char) : Bool := isExponent (cs.dropWhile isDigitOrGap)
  let body := unsigned cs
  let whole := body.takeWhile (· != '.')
  let isWord (words : List String) (cs : List Char) : Bool := words.any fun w => w.toList == cs
  match whole, body.drop whole.length with
  | [], '.' :: tail =>
    (body.length == cs.length && isDigits Text.isAsciiDigit (tail.takeWhile isDigitOrGap) &&
        fraction tail) ||
      isWord [".inf", ".Inf", ".INF"] body || isWord [".nan", ".NaN", ".NAN"] cs
  | whole, '.' :: tail =>
    match parts ':' whole with
    | [digits] => isDigits Text.isAsciiDigit digits && fraction tail
    | first :: rest =>
      isDigits Text.isAsciiDigit first && rest.all isSexagesimal && tail.all isDigitOrGap
    | [] => false
  | _, _ => false

/-! ### What numbers are worth -/

/-- The value of a digit in a base up to sixteen. -/
def digit? (base : Nat) (c : Char) : Option Nat :=
  let value? : Option Nat :=
    if Text.isAsciiDigit c then some (c.toNat - 0x30)
    else if 'a' ≤ c ∧ c ≤ 'f' then some (c.toNat - 0x57)
    else if 'A' ≤ c ∧ c ≤ 'F' then some (c.toNat - 0x37)
    else none
  value?.filter (· < base)

/-- The letter that marks a base. -/
def baseLetter? (base : Nat) : Option Char :=
  if base = 2 then some 'b' else if base = 8 then some 'o' else if base = 16 then some 'x' else none

/-- The digits after the mark of their base, which may be left out. -/
def withoutBase (base : Nat) (cs : List Char) : List Char :=
  match cs with
  | '0' :: c :: digits => if baseLetter? base = some c.toLower then digits else cs
  | _ => cs

/-- A whole number in a base. -/
def inBase (base : Nat) (t : Text) : Except Fault Int :=
  let (negative, body) := Numeral.splitSign (Numeral.trimmed t.chars)
  let body := withoutBase base body
  let values := (body.map (digit? base)).takeWhile Option.isSome
  if base = 10 ∧ maxIntegerDigits < values.length then .error (.tooManyDigits values.length)
  else if values.isEmpty ∨ values.length < body.length then .error (.badInteger base t)
  else
    let n : Int := values.foldl (fun n v => base * n + v.getD 0) 0
    .ok (if negative then -n else n)

/-- The points of a text without underscores. -/
def withoutGaps (t : Text) : List Point := t.points.filter (· ≠ .char '_')

/-- Takes a sign off the front of a text. -/
def splitSign : List Point → Bool × List Point
  | .char '-' :: rest => (true, rest)
  | .char '+' :: rest => (false, rest)
  | ps => (false, ps)

/-- The texts between the colons of a text. -/
def partTexts (ps : List Point) : List Text := (parts (.char ':') ps).map Text.mk

/-- The whole number that a text is called. -/
def whole (t : Text) : Except Fault Int := do
  let ps := withoutGaps t
  if ps.isEmpty then .error .emptyNumber
  else
    let (negative, body) := splitSign ps
    let n ← match body with
      | [] => .error .emptyNumber
      | [.char '0'] => pure 0
      | .char '0' :: .char 'b' :: digits => inBase 2 ⟨digits⟩
      | .char '0' :: .char 'x' :: digits => inBase 16 ⟨digits⟩
      | .char '0' :: _ => inBase 8 ⟨body⟩
      | _ =>
        if body.contains (.char ':') then do
          let values ← (partTexts body).mapM (inBase 10)
          pure (values.foldl (fun n v => 60 * n + v) 0)
        else inBase 10 ⟨body⟩
    return if negative then -n else n

/-- A real number in base ten. -/
def decimal (t : Text) : Except Fault Binary64 :=
  match Numeral.real? t.chars with
  | some x => .ok x
  | none => .error (.badReal t)

/-- The sum of parts in base sixty, the last one first. -/
def sexagesimal (sum : Binary64) (base : Nat) : List Binary64 → Except Fault Binary64
  | [] => .ok sum
  | x :: rest =>
    match (Quantity.whole base).rounded? with
    | some factor => sexagesimal (sum.add (x.mul factor)) (60 * base) rest
    | none => .error .tooLarge

/-- The real number that a text is called. -/
def real (t : Text) : Except Fault Binary64 := do
  let ps := (Text.lowercase ⟨withoutGaps t⟩).points
  if ps.isEmpty then .error .emptyNumber
  else
    let (negative, body) := splitSign ps
    let signed (x : Binary64) : Binary64 := x.mul (.ofInt (if negative then -1 else 1))
    if (⟨body⟩ : Text) = ".inf" then return .infinity negative
    else if (⟨body⟩ : Text) = ".nan" then return .nan
    else if body.contains (.char ':') then
      let values ← (partTexts body).mapM decimal
      return signed (← sexagesimal (.zero false) 1 values.reverse)
    else return signed (← decimal ⟨body⟩)

/-- Whether a text that is called a real number uses the one word that always names the same NaN.
-/
def isNaNWord (t : Text) : Bool :=
  (⟨(splitSign (Text.lowercase ⟨withoutGaps t⟩).points).2⟩ : Text) = ".nan"

end Number

end Yaml

end SegmentSwap
