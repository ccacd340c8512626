import SegmentSwap.Json.Value
import SegmentSwap.Number.Numeral

/-!
# Reading JSON

`Json.read` reads one value that fills a text. Beside the standard grammar it takes `NaN`,
`Infinity` and `-Infinity` for numbers; of equal names in an object the last one holds; a whole
number may have at most 4300 digits. The first flaw on the way through the text is reported, with
the number of characters before it. Two escaped halves of a surrogate pair are read as the character
that they encode, and a half without its partner as itself. Lists and objects may be nested 990
deep.
-/

namespace SegmentSwap.Json

/-- What is wrong at some place of a text. -/
inductive Complaint where
  /-- The text starts with a byte order mark. -/
  | byteOrderMark
  /-- A value should stand here. -/
  | value
  /-- A name in quotes should stand here. -/
  | name
  /-- A colon should stand here. -/
  | colon
  /-- A comma should stand here. -/
  | comma
  /-- The value has ended before this place. -/
  | extraData
  /-- The text that starts here never ends. -/
  | openText
  /-- A control character stands inside a text. -/
  | controlCharacter
  /-- A backslash is followed by no known letter. -/
  | escape
  /-- An escape by number lacks its four digits. -/
  | unicodeEscape
  deriving DecidableEq, Repr

/-- The wording of a complaint. -/
def Complaint.message : Complaint → String
  | .byteOrderMark => "Unexpected UTF-8 BOM (decode using utf-8-sig)"
  | .value => "Expecting value"
  | .name => "Expecting property name enclosed in double quotes"
  | .colon => "Expecting ':' delimiter"
  | .comma => "Expecting ',' delimiter"
  | .extraData => "Extra data"
  | .openText => "Unterminated string starting at"
  | .controlCharacter => "Invalid control character at"
  | .escape => "Invalid \\escape"
  | .unicodeEscape => "Invalid \\uXXXX escape"

/-- Why a text is no JSON value. -/
inductive ReadError where
  /-- The text is malformed, and so it is found after `before` characters. -/
  | malformed (complaint : Complaint) (before : Nat)
  /-- A whole number has too many digits. -/
  | tooManyDigits (count : Nat)
  /-- A list or an object, told apart by `isObject`, lies too deep. -/
  | tooDeep (isObject : Bool)
  deriving DecidableEq, Repr

/-- A place in a text as messages give it: its line, its column, both counted from one, and the
number of characters before it. -/
def place (s : String) (before : Nat) : String :=
  let cs := s.toList.take before
  let column := (cs.reverse.takeWhile (· ≠ '\n')).length + 1
  "line " ++ toString (cs.count '\n' + 1) ++ " column " ++ toString column ++ " (char " ++
    toString before ++ ")"

/-- The most lists and objects that may lie inside each other. -/
def maxDepth : Nat := 990

/-- The wording for a list or an object that lies deeper. -/
def depthLimitMessage (isObject : Bool) : String :=
  "maximum recursion depth exceeded while decoding a JSON " ++
    (if isObject then "object" else "array") ++ " from a unicode string"

/-- The wording for a text that is no JSON value. -/
def ReadError.message (e : ReadError) (s : String) : String :=
  match e with
  | .malformed complaint before => complaint.message ++ ": " ++ place s before
  | .tooManyDigits count => digitLimitMessage count
  | .tooDeep isObject => depthLimitMessage isObject

namespace Reader

/-- Why reading stops. A place in the text is given by the number of characters left from it. -/
inductive Flaw where
  /-- The text is malformed with `left` characters to go. -/
  | malformed (complaint : Complaint) (left : Nat)
  /-- A whole number has too many digits. -/
  | tooManyDigits (count : Nat)
  /-- A list or an object lies too deep. -/
  | tooDeep (isObject : Bool)

/-- The four blanks between the parts of a JSON text. -/
def isBlank (c : Char) : Bool := c == ' ' || c == '\t' || c == '\n' || c == '\r'

/-- What is left after blanks. -/
def skip (cs : List Char) : List Char := cs.dropWhile isBlank

/-- The value of a hexadecimal digit. -/
def hexValue? (c : Char) : Option Nat :=
  if Text.isAsciiDigit c then some (c.toNat - 0x30)
  else if 'a' ≤ c ∧ c ≤ 'f' then some (c.toNat - 0x57)
  else if 'A' ≤ c ∧ c ≤ 'F' then some (c.toNat - 0x37)
  else none

/-- The number spelled by four hexadecimal digits. -/
def hexQuad? (a b c d : Char) : Option Nat := do
  return (((← hexValue? a) * 16 + (← hexValue? b)) * 16 + (← hexValue? c)) * 16 + (← hexValue? d)

/-- The code unit that a letter stands for after a backslash. -/
def letterEscape? (c : Char) : Option Nat :=
  if c = '"' ∨ c = '\\' ∨ c = '/' then some c.toNat
  else if c = 'b' then some 8
  else if c = 'f' then some 12
  else if c = 'n' then some 10
  else if c = 'r' then some 13
  else if c = 't' then some 9
  else none

/-- The code units of a text up to its closing quote, and what follows. The text starts with
`start` characters to go. -/
def units (start : Nat) : List Char → Except Flaw (List Nat × List Char)
  | [] => .error (.malformed .openText start)
  | c :: rest =>
    if c = '"' then .ok ([], rest)
    else if c = '\\' then
      match rest with
      | [] => .error (.malformed .openText start)
      | e :: rest =>
        if e = 'u' then
          match rest with
          | h1 :: h2 :: h3 :: h4 :: rest =>
            match hexQuad? h1 h2 h3 h4 with
            | some n =>
              if rest.isEmpty then .error (.malformed .unicodeEscape 5)
              else (units start rest).map fun r => (n :: r.1, r.2)
            | none => .error (.malformed .unicodeEscape (rest.length + 5))
          | _ => .error (.malformed .unicodeEscape (rest.length + 1))
        else match letterEscape? e with
          | some n => (units start rest).map fun r => (n :: r.1, r.2)
          | none => .error (.malformed .escape (rest.length + 2))
    else if c.toNat < 0x20 then .error (.malformed .controlCharacter (rest.length + 1))
    else (units start rest).map fun r => (c.toNat :: r.1, r.2)

/-- Whether a code unit is the first half of a pair. -/
def isHighSurrogate (n : Nat) : Bool := decide (0xD800 ≤ n) && decide (n < 0xDC00)

/-- Whether a code unit is the second half of a pair. -/
def isLowSurrogate (n : Nat) : Bool := decide (0xDC00 ≤ n) && decide (n < 0xE000)

/-- The code points of code units, pairs of surrogates joined. -/
def ofUnits : List Nat → List Point
  | [] => []
  | [n] => [.ofNumber n]
  | n :: m :: rest =>
    if isHighSurrogate n && isLowSurrogate m then
      .ofNumber (0x10000 + (n - 0xD800) * 0x400 + (m - 0xDC00)) :: ofUnits rest
    else .ofNumber n :: ofUnits (m :: rest)

/-- A text after its opening quote. -/
def text (cs : List Char) : Except Flaw (Text × List Char) :=
  (units (cs.length + 1) cs).map fun r => (⟨ofUnits r.1⟩, r.2)

/-- The fraction of a number, if digits follow the point. -/
def fraction (cs : List Char) : List Char × List Char :=
  match cs with
  | '.' :: rest =>
    let digits := rest.takeWhile Text.isAsciiDigit
    if digits.isEmpty then ([], cs) else (digits, rest.dropWhile Text.isAsciiDigit)
  | _ => ([], cs)

/-- The exponent of a number, if digits follow the letter and the sign. -/
def exponent (cs : List Char) : Option Int × List Char :=
  match cs with
  | c :: rest =>
    if c = 'e' ∨ c = 'E' then
      let (negative, rest) := Numeral.splitSign rest
      let digits := rest.takeWhile Text.isAsciiDigit
      if digits.isEmpty then (none, cs)
      else
        (some (if negative then -(ofDigits digits : Int) else ofDigits digits),
          rest.dropWhile Text.isAsciiDigit)
    else (none, cs)
  | [] => (none, [])

/-- The digits before the point: a single zero, or digits that do not start with zero. -/
def wholePart (cs : List Char) : List Char × List Char :=
  match cs with
  | '0' :: rest => (['0'], rest)
  | _ => (cs.takeWhile Text.isAsciiDigit, cs.dropWhile Text.isAsciiDigit)

/-- An unsigned number, which is real if it has a fraction or an exponent. -/
def unsigned (negative : Bool) (start : Nat) (cs : List Char) :
    Except Flaw (Value × List Char) :=
  let (whole, rest) := wholePart cs
  if whole.isEmpty then .error (.malformed .value start)
  else
    let (fractionDigits, rest) := fraction rest
    let (power, rest) := exponent rest
    if fractionDigits.isEmpty && power.isNone then
      if maxIntegerDigits < whole.length then .error (.tooManyDigits whole.length)
      else .ok (.int (if negative then -(ofDigits whole : Int) else ofDigits whole), rest)
    else
      .ok (.real (.ofDecimal negative (ofDigits (whole ++ fractionDigits))
        (power.getD 0 - fractionDigits.length)), rest)

/-- What is left after a word, if the text starts with it. -/
def dropWord? (word : String) (cs : List Char) : Option (List Char) :=
  let w := word.toList
  if w.isPrefixOf cs then some (cs.drop w.length) else none

/-- A value that is neither a text nor a list nor an object. -/
def scalar (cs : List Char) : Except Flaw (Value × List Char) :=
  match dropWord? "null" cs with
  | some rest => .ok (.null, rest)
  | none => match dropWord? "true" cs with
  | some rest => .ok (.bool true, rest)
  | none => match dropWord? "false" cs with
  | some rest => .ok (.bool false, rest)
  | none => match dropWord? "NaN" cs with
  | some rest => .ok (.real .nan, rest)
  | none => match dropWord? "Infinity" cs with
  | some rest => .ok (.real (.infinity false), rest)
  | none => match dropWord? "-Infinity" cs with
  | some rest => .ok (.real (.infinity true), rest)
  | none => match cs with
    | '-' :: rest => unsigned true cs.length rest
    | _ => unsigned false cs.length cs

mutual

/-- A value at the front of a text that is shorter than `fuel`. Inside it, `depth` lists and objects
may lie inside each other. -/
def value : (fuel depth : Nat) → List Char → Except Flaw (Value × List Char)
  | 0, _, cs => .error (.malformed .value cs.length)
  | fuel + 1, depth, cs =>
    match cs with
    | '"' :: rest => (text rest).map fun r => (.str r.1, r.2)
    | '[' :: rest =>
      match depth with
      | 0 => .error (.tooDeep false)
      | depth + 1 =>
        match skip rest with
        | ']' :: rest => .ok (.arr [], rest)
        | rest => (items fuel depth rest).map fun r => (.arr r.1, r.2)
    | '\x7b' :: rest =>
      match depth with
      | 0 => .error (.tooDeep true)
      | depth + 1 =>
        match skip rest with
        | '\x7d' :: rest => .ok (.obj [], rest)
        | rest => (fields fuel depth rest).map fun r => (.obj (collectFields r.1), r.2)
    | cs => scalar cs

/-- The values of a list from its next value to its closing bracket. -/
def items : (fuel depth : Nat) → List Char → Except Flaw (List Value × List Char)
  | 0, _, cs => .error (.malformed .value cs.length)
  | fuel + 1, depth, cs => do
    let (v, rest) ← value fuel depth cs
    match skip rest with
    | ']' :: rest => .ok ([v], rest)
    | ',' :: rest => (items fuel depth (skip rest)).map fun r => (v :: r.1, r.2)
    | rest => .error (.malformed .comma rest.length)

/-- The fields of an object from its next name to its closing brace. -/
def fields : (fuel depth : Nat) → List Char → Except Flaw (List (Text × Value) × List Char)
  | 0, _, cs => .error (.malformed .name cs.length)
  | fuel + 1, depth, cs =>
    match cs with
    | '"' :: rest => do
      let (name, rest) ← text rest
      match skip rest with
      | ':' :: rest => do
        let (v, rest) ← value fuel depth (skip rest)
        match skip rest with
        | '\x7d' :: rest => .ok ([(name, v)], rest)
        | ',' :: rest => (fields fuel depth (skip rest)).map fun r => ((name, v) :: r.1, r.2)
        | rest => .error (.malformed .comma rest.length)
      | rest => .error (.malformed .colon rest.length)
    | cs => .error (.malformed .name cs.length)

end

/-- A value that fills the text, blanks around it apart. -/
def document (cs : List Char) : Except Flaw Value :=
  match cs with
  | '\uFEFF' :: _ => .error (.malformed .byteOrderMark cs.length)
  | cs => do
    let (v, rest) ← value (cs.length + 1) maxDepth (skip cs)
    match skip rest with
    | [] => .ok v
    | rest => .error (.malformed .extraData rest.length)

end Reader

/-- The value that a text holds. -/
def read (s : String) : Except ReadError Value :=
  let cs := s.toList
  match Reader.document cs with
  | .ok v => .ok v
  | .error (.malformed complaint left) => .error (.malformed complaint (cs.length - left))
  | .error (.tooManyDigits count) => .error (.tooManyDigits count)
  | .error (.tooDeep isObject) => .error (.tooDeep isObject)

end SegmentSwap.Json
