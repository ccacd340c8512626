/-!
# Places in a YAML text

A cursor is what is left of a text together with the line and the column it starts at. Columns
decide about nesting, so every character that is passed is counted.
-/

namespace SegmentSwap

namespace Yaml

/-- The end of a text, seen as a character. -/
def endMark : Char := Char.ofNat 0

/-- A character that ends a line. -/
def isBreak (c : Char) : Bool :=
  c == '\n' || c == '\r' || c == '\x85' || c == '\u2028' || c == '\u2029'

/-- The end of a line or of the text. -/
def isLineEnd (c : Char) : Bool := c == endMark || isBreak c

/-- The end of a line or of the text, or a space. -/
def isSpaceOrEnd (c : Char) : Bool := c == ' ' || isLineEnd c

/-- The end of a line or of the text, or a blank. -/
def isBlankOrEnd (c : Char) : Bool := c == '\t' || isSpaceOrEnd c

/-- An ASCII letter or digit, a dash or an underscore. -/
def isWordCharacter (c : Char) : Bool := (c.isAlphanum && c.toNat < 0x80) || c == '-' || c == '_'

/-- A place in a text. -/
structure Cursor where
  /-- The text from here on. -/
  rest : List Char
  /-- The number of characters before. -/
  index : Nat
  /-- The number of lines before. -/
  line : Nat
  /-- The number of characters before on the same line. -/
  column : Nat
  deriving Repr

namespace Cursor

/-- The start of a text. -/
def start (cs : List Char) : Cursor := ⟨cs, 0, 0, 0⟩

/-- The character `n` places on. -/
def peekAt (c : Cursor) (n : Nat) : Char := c.rest.getD n endMark

/-- The next character. -/
def peek (c : Cursor) : Char := c.rest.headD endMark

/-- The place after the next character. -/
def forward (c : Cursor) : Cursor :=
  match c.rest with
  | [] => c
  | ch :: rest =>
    if isBreak ch && !(ch == '\r' && rest.headD endMark == '\n') then
      ⟨rest, c.index + 1, c.line + 1, 0⟩
    else if ch == '\uFEFF' then ⟨rest, c.index + 1, c.line, c.column⟩
    else ⟨rest, c.index + 1, c.line, c.column + 1⟩

/-- The place `n` characters on. -/
def advance (c : Cursor) : (n : Nat) → Cursor
  | 0 => c
  | n + 1 => c.forward.advance n

/-- The characters up to the first one outside a class, and the place of that. -/
def span (c : Cursor) (p : Char → Bool) : List Char × Cursor :=
  let run := c.rest.takeWhile p
  (run, c.advance run.length)

/-- The place of the first character outside a class. -/
def skip (c : Cursor) (p : Char → Bool) : Cursor := (c.span p).2

/-- The place after spaces. -/
def skipSpaces (c : Cursor) : Cursor := c.skip (· == ' ')

/-- The place at the end of the line. -/
def skipLine (c : Cursor) : Cursor := c.skip fun ch => !isBreak ch

/-- The line break at a place, in its normal form, and the place after it. -/
def lineBreak? (c : Cursor) : Option (Char × Cursor) :=
  let ch := c.peek
  if ch == '\r' && c.peekAt 1 == '\n' then some ('\n', c.advance 2)
  else if ch == '\n' || ch == '\r' || ch == '\x85' then some ('\n', c.forward)
  else if isBreak ch then some (ch, c.forward)
  else none

/-- The place after a line break, if there is one. -/
def skipBreak (c : Cursor) : Cursor := (c.lineBreak?.map (·.2)).getD c

/-- Whether one of the two marks between documents stands at a place. -/
def isDocumentMark (c : Cursor) : Bool :=
  let mark := c.rest.take 3
  (mark == ['-', '-', '-'] || mark == ['.', '.', '.']) && isBlankOrEnd (c.peekAt 3)

end Cursor

end Yaml

end SegmentSwap
