import SegmentSwap.Text.Utf8
import SegmentSwap.Yaml.Cursor
import SegmentSwap.Yaml.Fault
import SegmentSwap.Yaml.Token
import SegmentSwap.Yaml.Token.Scalar

/-!
# Names, tags and directives

What may stand before a node or before a document: names of nodes, tags, and directives, which give
the version of YAML or the meaning of a tag handle.
-/

namespace SegmentSwap

namespace Yaml

/-- The end of a text or a line, a blank, or one of the signs that may follow a name. -/
def endsName (c : Char) : Bool := isBlankOrEnd c || "?:,]\x7d%@\x60".contains c

/-- A name after its sign. -/
def nodeName (c : Cursor) : Except Fault (String × Cursor) :=
  let (name, c) := c.span isWordCharacter
  if !name.isEmpty && endsName c.peek then .ok (String.ofList name, c) else .error .malformed

namespace TagText

/-- A character that stands for itself in the tail of a tag, or a percent sign. -/
def isTailCharacter (c : Char) : Bool :=
  isWordCharacter c || ";/?:@&=+$,.!~*'()[]%".contains c

/-- The bytes of a run of escapes. -/
def escapedBytes : (fuel : Nat) → Cursor → Except Fault (List UInt8 × Cursor)
  | 0, c => .ok ([], c)
  | fuel + 1, c =>
    if c.peek == '%' then
      match Scalar.hexValue? (c.peekAt 1), Scalar.hexValue? (c.peekAt 2) with
      | some high, some low => do
        let (rest, after) ← escapedBytes fuel (c.advance 3)
        .ok (UInt8.ofNat (16 * high + low) :: rest, after)
      | _, _ => .error .malformed
    else .ok ([], c)

/-- The tail of a tag, in which bytes may be written by their numbers. It may be empty. -/
def tailFrom : (fuel : Nat) → Cursor → Except Fault (List Char × Cursor)
  | 0, c => .ok ([], c)
  | fuel + 1, c =>
    if c.peek == '%' then do
      let (bytes, after) ← escapedBytes fuel c
      match Text.Utf8.decode bytes with
      | .ok s => do
        let (rest, last) ← tailFrom fuel after
        .ok (s.toList ++ rest, last)
      | .error _ => .error .malformed
    else if isTailCharacter c.peek then do
      let (rest, last) ← tailFrom fuel c.forward
      .ok (c.peek :: rest, last)
    else .ok ([], c)

/-- The tail of a tag, which has one character at least. -/
def tail (c : Cursor) : Except Fault (String × Cursor) := do
  let (cs, after) ← tailFrom (c.rest.length + 1) c
  if after.index = c.index then .error .malformed else .ok (String.ofList cs, after)

/-- A handle: an exclamation mark, or two with a name between them. -/
def handle (c : Cursor) : Except Fault (String × Cursor) :=
  if c.peek != '!' then .error .malformed
  else if c.peekAt 1 == ' ' then .ok ("!", c.forward)
  else
    let (name, c) := c.forward.span isWordCharacter
    if c.peek != '!' then .error .malformed
    else .ok (String.ofList ('!' :: name ++ ['!']), c.forward)

/-- A tag, which ends at a space or at the end of the line. -/
def read (c : Cursor) : Except Fault (TagText × Cursor) := do
  let (tag, c) ←
    if c.peekAt 1 == '<' then do
      let (s, c) ← tail (c.advance 2)
      if c.peek == '>' then pure (TagText.mk none s, c.forward) else .error .malformed
    else if isBlankOrEnd (c.peekAt 1) then pure (TagText.mk none "!", c.forward)
    else do
      let (word, _) := c.forward.span fun ch => !isSpaceOrEnd ch
      let (h, c) ← if word.contains '!' then handle c else pure ("!", c.forward)
      let (s, c) ← tail c
      pure (TagText.mk (some h) s, c)
  if isSpaceOrEnd c.peek then .ok (tag, c) else .error .malformed

end TagText

namespace Directive

/-- One part of a version. -/
def number (c : Cursor) : Except Fault (Nat × Cursor) :=
  let (digits, c) := c.span Text.isAsciiDigit
  if digits.isEmpty then .error .malformed
  else if maxIntegerDigits < digits.length then .error (.tooManyDigits digits.length)
  else .ok (ofDigits digits, c)

/-- The version of YAML. -/
def versionAt (c : Cursor) : Except Fault (Directive × Cursor) := do
  let (major, c) ← number c.skipSpaces
  if c.peek != '.' then .error .malformed
  else
    let (minor, c) ← number c.forward
    if isSpaceOrEnd c.peek then .ok (.version major minor, c) else .error .malformed

/-- The meaning of a tag handle. -/
def tagAt (c : Cursor) : Except Fault (Directive × Cursor) := do
  let (h, c) ← TagText.handle c.skipSpaces
  if c.peek != ' ' then .error .malformed
  else
    let (s, c) ← TagText.tail c.skipSpaces
    if isSpaceOrEnd c.peek then .ok (.tag h s, c) else .error .malformed

/-- A directive, which takes up the rest of its line. -/
def read (c : Cursor) : Except Fault (Directive × Cursor) := do
  let (name, c) := c.forward.span isWordCharacter
  if name.isEmpty || !isSpaceOrEnd c.peek then .error .malformed
  else
    let (d, c) ← match String.ofList name with
      | "YAML" => versionAt c
      | "TAG" => tagAt c
      | _ => .ok (.other, c.skipLine)
    return (d, ← Scalar.emptyLine c)

end Directive

end Yaml

end SegmentSwap
