import SegmentSwap.Text.Utf8
import SegmentSwap.Yaml.Cursor
import SegmentSwap.Yaml.Fault

/-!
# The text of scalars

A scalar is written plainly, between quotes, or as a block of lines behind a bar or an angle
bracket. Line breaks inside the first two kinds and inside blocks behind an angle bracket are
folded: a single one becomes a space, and of several ones the first is dropped.
-/

namespace SegmentSwap

namespace Yaml

namespace Scalar

/-- What is made of a folded run of line breaks. -/
def fold (first : Char) (further : List Char) : List Char :=
  if first != '\n' then first :: further
  else if further.isEmpty then [' '] else further

/-! ### Plain scalars -/

/-- Spaces and line breaks inside a plain scalar. The answer tells the characters that stand for
them, whether a line break was among them, and the place after them; there are no characters where a
mark between documents follows. -/
def plainBreaks : (fuel : Nat) → Cursor → List Char → Option (List Char) × Cursor
  | 0, c, found => (some found, c)
  | fuel + 1, c, found =>
    if c.peek == ' ' then plainBreaks fuel c.forward found
    else match c.lineBreak? with
      | some (b, c) =>
        if c.isDocumentMark then (none, c) else plainBreaks fuel c (found ++ [b])
      | none => (some found, c)

/-- The space between two runs of a plain scalar: what stands for it, whether it has line breaks,
and the place after it. -/
def plainSpace (c : Cursor) : List Char × Bool × Cursor :=
  let (blanks, c) := c.span (· == ' ')
  match c.lineBreak? with
  | none => (blanks, false, c)
  | some (b, c) =>
    if c.isDocumentMark then ([], true, c)
    else match plainBreaks (c.rest.length + 1) c [] with
      | (some further, c) => (fold b further, true, c)
      | (none, c) => ([], true, c)

/-- A comma, a bracket or a brace. -/
def isFlowSign (c : Char) : Bool := ",[]\x7b\x7d".contains c

/-- Whether a plain scalar goes on at a place. -/
def isPlainAt (inFlow : Bool) (c : Cursor) : Bool :=
  let ch := c.peek
  let next := c.peekAt 1
  !(isBlankOrEnd ch || (ch == ':' && (isBlankOrEnd next || (inFlow && isFlowSign next))) ||
    (inFlow && (ch == '?' || isFlowSign ch)))

/-- A run of a plain scalar without blanks. -/
def plainRun (inFlow : Bool) : (fuel : Nat) → Cursor → List Char × Cursor
  | 0, c => ([], c)
  | fuel + 1, c =>
    if isPlainAt inFlow c then
      let (run, after) := plainRun inFlow fuel c.forward
      (c.peek :: run, after)
    else ([], c)

/-- The runs of a plain scalar, with `space` before the next one. The answer tells the text, whether
line breaks follow on it, and the place after it. -/
def plainRuns (inFlow : Bool) (indent : Int) :
    (fuel : Nat) → Cursor → (space text : List Char) → (broken : Bool) → List Char × Bool × Cursor
  | 0, c, _, text, broken => (text, broken, c)
  | fuel + 1, c, space, text, broken =>
    if c.peek == '#' then (text, broken, c)
    else
      let (run, after) := plainRun inFlow (c.rest.length + 1) c
      if run.isEmpty then (text, broken, c)
      else
        let (space', broken, c) := plainSpace after
        let text := text ++ space ++ run
        if space'.isEmpty || c.peek == '#' || (!inFlow && (c.column : Int) < indent) then
          (text, broken, c)
        else plainRuns inFlow indent fuel c space' text broken

/-- A plain scalar. -/
def plain (inFlow : Bool) (indent : Int) (c : Cursor) : List Char × Bool × Cursor :=
  plainRuns inFlow indent (c.rest.length + 1) c [] [] false

/-! ### Quoted scalars -/

/-- The character that a letter stands for after a backslash. -/
def letterEscape? (c : Char) : Option Char :=
  ([('0', '\x00'), ('a', '\x07'), ('b', '\x08'), ('t', '\t'), ('\t', '\t'), ('n', '\n'),
    ('v', '\x0b'), ('f', '\x0c'), ('r', '\r'), ('e', '\x1b'), (' ', ' '), ('"', '"'), ('\\', '\\'),
    ('/', '/'), ('N', '\x85'), ('_', '\xa0'), ('L', '\u2028'), ('P', '\u2029')] :
      List (Char × Char)).lookup c

/-- How many hexadecimal digits follow a letter after a backslash. -/
def numberEscape? (c : Char) : Option Nat :=
  if c = 'x' then some 2 else if c = 'u' then some 4 else if c = 'U' then some 8 else none

/-- The value of a hexadecimal digit. -/
def hexValue? (c : Char) : Option Nat :=
  if '0' ≤ c ∧ c ≤ '9' then some (c.toNat - 0x30)
  else if 'a' ≤ c ∧ c ≤ 'f' then some (c.toNat - 0x57)
  else if 'A' ≤ c ∧ c ≤ 'F' then some (c.toNat - 0x37)
  else none

/-- The number spelled by hexadecimal digits. -/
def hexNumber? (digits : List Char) : Option Nat :=
  digits.foldl (fun n c => do return 16 * (← n) + (← hexValue? c)) (some 0)

/-- The code point of a number. -/
def codePoint (n : Nat) : Except Fault Point :=
  if 0x7FFFFFFF < n then .error .wordSize
  else if 0x10FFFF < n then .error .noCharacter
  else .ok (.ofNumber n)

/-- Line breaks inside a quoted scalar, with the blanks around them. -/
def quotedBreaks : (fuel : Nat) → Cursor → List Char → Except Fault (List Char × Cursor)
  | 0, _, _ => .error .malformed
  | fuel + 1, c, found =>
    if c.isDocumentMark then .error .malformed
    else
      let c := c.skip fun ch => ch == ' ' || ch == '\t'
      match c.lineBreak? with
      | some (b, c) => quotedBreaks fuel c (found ++ [b])
      | none => .ok (found, c)

/-- The blanks and line breaks at a place inside a quoted scalar. -/
def quotedSpace (c : Cursor) : Except Fault (List Char × Cursor) := do
  let (blanks, c) := c.span fun ch => ch == ' ' || ch == '\t'
  if c.rest.isEmpty then .error .malformed
  else match c.lineBreak? with
    | none => .ok (blanks, c)
    | some (b, c) =>
      let (further, c) ← quotedBreaks (c.rest.length + 1) c []
      .ok (fold b further, c)

/-- An escape after its backslash. -/
def escape (c : Cursor) : Except Fault (List Point × Cursor) :=
  let ch := c.peek
  match letterEscape? ch, numberEscape? ch with
  | some e, _ => .ok ([.char e], c.forward)
  | none, some width =>
    let digits := c.forward.rest.take width
    match hexNumber? digits with
    | some n =>
      if digits.length < width then .error .malformed
      else (codePoint n).map fun p => ([p], c.advance (width + 1))
    | none => .error .malformed
  | none, none =>
    match c.lineBreak? with
    | some (_, c) => do
      let (breaks, c) ← quotedBreaks (c.rest.length + 1) c []
      .ok (breaks.map .char, c)
    | none => .error .malformed

/-- A quoted scalar after its opening mark: its text and the place after its closing mark. The points
read so far are in `seen`, the last one first. -/
def quoted (double : Bool) : (fuel : Nat) → Cursor → (seen : List Point) →
    Except Fault (Text × Cursor)
  | 0, _, _ => .error .malformed
  | fuel + 1, c, seen =>
    let ch := c.peek
    if c.rest.isEmpty then .error .malformed
    else if !double && ch == '\'' && c.peekAt 1 == '\'' then
      quoted double fuel (c.advance 2) (.char '\'' :: seen)
    else if ch == (if double then '"' else '\'') then .ok (⟨seen.reverse⟩, c.forward)
    else if double && ch == '\\' then do
      let (e, c) ← escape c.forward
      quoted double fuel c (e.reverse ++ seen)
    else if ch == ' ' || ch == '\t' || isBreak ch then do
      let (space, c) ← quotedSpace c
      quoted double fuel c ((space.map Point.char).reverse ++ seen)
    else quoted double fuel c.forward (.char ch :: seen)

/-! ### Blocks -/

/-- What becomes of the line breaks at the end of a block. -/
inductive Ending where
  | keep
  | clip
  | strip
  deriving DecidableEq, Repr

/-- The sign of an ending. -/
def ending? (c : Char) : Option Ending :=
  if c = '+' then some .keep else if c = '-' then some .strip else none

/-- The digit that tells how far a block is moved in. Zero is no such digit. -/
def increment (c : Cursor) : Except Fault (Option Nat × Cursor) :=
  let ch := c.peek
  if '1' ≤ ch ∧ ch ≤ '9' then .ok (some (ch.toNat - 0x30), c.forward)
  else if ch = '0' then .error .malformed
  else .ok (none, c)

/-- The signs at the head of a block, in either order. -/
def blockHead (c : Cursor) : Except Fault (Ending × Option Nat × Cursor) := do
  let (ending, moved?, c) ← match ending? c.peek with
    | some e => do
      let (moved?, c) ← increment c.forward
      pure (e, moved?, c)
    | none => do
      let (moved?, c) ← increment c
      match moved?, ending? c.peek with
      | some _, some e => pure (e, moved?, c.forward)
      | _, _ => pure (Ending.clip, moved?, c)
  if isSpaceOrEnd c.peek then .ok (ending, moved?, c) else .error .malformed

/-- The rest of a line on which nothing but a comment may stand. -/
def emptyLine (c : Cursor) : Except Fault Cursor :=
  let c := c.skipSpaces
  let c := if c.peek == '#' then c.skipLine else c
  if isLineEnd c.peek then .ok c.skipBreak else .error .malformed

/-- The empty lines at the start of a block, the largest column that spaces on them reach, and the
place after them. -/
def leadingBreaks : (fuel : Nat) → Cursor → (found : List Char) → (widest : Nat) →
    List Char × Nat × Cursor
  | 0, c, found, widest => (found, widest, c)
  | fuel + 1, c, found, widest =>
    if c.peek == ' ' then
      leadingBreaks fuel c.forward found (max widest c.forward.column)
    else match c.lineBreak? with
      | some (b, c) => leadingBreaks fuel c (found ++ [b]) widest
      | none => (found, widest, c)

/-- The place after spaces, but not beyond a column. -/
def skipTo (column : Nat) : (fuel : Nat) → Cursor → Cursor
  | 0, c => c
  | fuel + 1, c =>
    if c.column < column && c.peek == ' ' then skipTo column fuel c.forward else c

/-- Empty lines inside a block whose lines start at a column. -/
def blockBreaks (column : Nat) : (fuel : Nat) → Cursor → List Char → List Char × Cursor
  | 0, c, found => (found, c)
  | fuel + 1, c, found =>
    let c := skipTo column (c.rest.length + 1) c
    match c.lineBreak? with
    | some (b, c) => blockBreaks column fuel c (found ++ [b])
    | none => (found, c)

/-- The lines of a block that start at a column, with the empty lines `breaks` before the next one.
The answer tells the text, the line break that ends it, the empty lines after it and the place after
those. -/
def blockLines (folded : Bool) (column : Nat) : (fuel : Nat) → Cursor → (breaks text : List Char) →
    List Char × List Char × List Char × Cursor
  | 0, c, breaks, text => (text, [], breaks, c)
  | fuel + 1, c, breaks, text =>
    if c.column ≠ column ∨ c.rest.isEmpty then (text, [], breaks, c)
    else
      let isBlank (c : Cursor) : Bool := c.peek == ' ' || c.peek == '\t'
      let startsBlank := isBlank c
      let (line, c) := c.span fun ch => !isBreak ch
      let text := text ++ breaks ++ line
      let (last, c) := match c.lineBreak? with
        | some (b, c) => ([b], c)
        | none => ([], c)
      let (breaks, c) := blockBreaks column (c.rest.length + 1) c []
      if c.column = column ∧ !c.rest.isEmpty then
        if folded && last == ['\n'] && !startsBlank && !isBlank c then
          blockLines folded column fuel c breaks (if breaks.isEmpty then text ++ [' '] else text)
        else blockLines folded column fuel c breaks (text ++ last)
      else (text, last, breaks, c)

/-- A block after its bar or angle bracket, inside a node that is moved in by `indent`. -/
def block (folded : Bool) (indent : Int) (c : Cursor) : Except Fault (List Char × Cursor) := do
  let (ending, moved?, c) ← blockHead c
  let c ← emptyLine c
  let least := (max (indent + 1) 1).toNat
  let fuel := c.rest.length + 1
  let (column, breaks, c) := match moved? with
    | some n =>
      let column := least + n - 1
      let (breaks, c) := blockBreaks column fuel c []
      (column, breaks, c)
    | none =>
      let (breaks, widest, c) := leadingBreaks fuel c [] 0
      (max least widest, breaks, c)
  let (text, last, breaks, c) := blockLines folded column fuel c breaks []
  .ok (match ending with
    | .keep => text ++ last ++ breaks
    | .clip => text ++ last
    | .strip => text, c)

end Scalar

end Yaml

end SegmentSwap
