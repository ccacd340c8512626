import SegmentSwap.Json.Value

/-!
# Writing JSON

Values are written in ASCII: every other code point is escaped by the code units that encode it. The
compact form puts one space after commas and colons; the laid out form gives every item and field
a line of its own, two blanks further in than the bracket around it.
-/

namespace SegmentSwap.Json

namespace Writer

/-- A code unit escaped by its number. -/
def unitEscape (n : Nat) : List Char := '\\' :: 'u' :: Text.hexDigits 4 n

/-- The characters that write `c` inside a text. -/
def escapeChar (c : Char) : List Char :=
  if c = '"' then ['\\', '"']
  else if c = '\\' then ['\\', '\\']
  else if c = '\n' then ['\\', 'n']
  else if c = '\r' then ['\\', 'r']
  else if c = '\t' then ['\\', 't']
  else if c.toNat = 0x8 then ['\\', 'b']
  else if c.toNat = 0xC then ['\\', 'f']
  else if 0x20 ≤ c.toNat ∧ c.toNat < 0x7F then [c]
  else if c.toNat < 0x10000 then unitEscape c.toNat
  else
    let n := c.toNat - 0x10000
    unitEscape (0xD800 + n / 0x400) ++ unitEscape (0xDC00 + n % 0x400)

/-- The characters that write a code point inside a text. -/
def escape : Point → List Char
  | .char c => escapeChar c
  | .half n => unitEscape (0xD800 + n.val)

/-- A text between quotes. -/
def text (t : Text) : List Char :=
  '"' :: t.points.flatMap escape ++ ['"']

/-- A real number. -/
def real (x : Binary64) : List Char :=
  if x.isNaN then "NaN".toList
  else if x.isInfinite then (if x.isNegative then "-Infinity" else "Infinity").toList
  else x.text.toList

/-- A value without parts. -/
def scalar : Value → List Char
  | .null => "null".toList
  | .bool b => (if b then "true" else "false").toList
  | .int n => (toString n).toList
  | .real x => real x
  | .str t => text t
  | .arr _ => "[]".toList
  | .obj _ => ['\x7b', '\x7d']

/-- A new line indented to a depth. -/
def newline (depth : Nat) : List Char := '\n' :: List.replicate (2 * depth) ' '

mutual

/-- A value on one line. -/
def line : Value → List Char
  | .arr (v :: rest) => '[' :: line v ++ lineItems rest
  | .obj ((name, v) :: rest) => '\x7b' :: text name ++ ':' :: ' ' :: line v ++ lineFields rest
  | v => scalar v

/-- The items of a list after its first one, on one line. -/
def lineItems : List Value → List Char
  | [] => [']']
  | v :: rest => ',' :: ' ' :: line v ++ lineItems rest

/-- The fields of an object after its first one, on one line. -/
def lineFields : List (Text × Value) → List Char
  | [] => ['\x7d']
  | (name, v) :: rest => ',' :: ' ' :: text name ++ ':' :: ' ' :: line v ++ lineFields rest

end

mutual

/-- A value laid out on lines, at a depth. -/
def block (depth : Nat) : Value → List Char
  | .arr (v :: rest) => '[' :: newline (depth + 1) ++ block (depth + 1) v ++ blockItems depth rest
  | .obj ((name, v) :: rest) =>
    '\x7b' :: newline (depth + 1) ++ text name ++ ':' :: ' ' :: block (depth + 1) v ++
      blockFields depth rest
  | v => scalar v

/-- The items of a list after its first one, each on a new line. -/
def blockItems (depth : Nat) : List Value → List Char
  | [] => newline depth ++ [']']
  | v :: rest => ',' :: newline (depth + 1) ++ block (depth + 1) v ++ blockItems depth rest

/-- The fields of an object after its first one, each on a new line. -/
def blockFields (depth : Nat) : List (Text × Value) → List Char
  | [] => newline depth ++ ['\x7d']
  | (name, v) :: rest =>
    ',' :: newline (depth + 1) ++ text name ++ ':' :: ' ' :: block (depth + 1) v ++
      blockFields depth rest

end

end Writer

/-- The value on one line. -/
def Value.compact (v : Value) : String := String.ofList (Writer.line v)

/-- The value laid out on lines. -/
def Value.laidOut (v : Value) : String := String.ofList (Writer.block 0 v)

end SegmentSwap.Json
