import SegmentSwap.Yaml.Token
import SegmentSwap.Yaml.Token.Scalar
import SegmentSwap.Yaml.Token.Tag

/-!
# From characters to tokens

Most tokens are told by their first characters. Two things need a memory: how far the blocks around
a place are moved in, and which earlier token may turn out to start a key, because a colon follows
it on the same line. When it does, the token for the key is put in before it.

A text may hold tokens before a place that makes no sense. `Lexed` keeps those of them that no later
character can change.
-/

namespace SegmentSwap

namespace Yaml

/-- The tokens of a text, up to its end or up to a fault. -/
structure Lexed where
  /-- The tokens. -/
  tokens : List Token
  /-- The fault that comes after them, if there is one. -/
  fault? : Option Fault
  deriving DecidableEq, Repr

/-- A token that starts a key if a colon follows it soon. -/
structure KeyStart where
  /-- The number of tokens before. -/
  token : Nat
  /-- Whether a colon has to follow. -/
  required : Bool
  /-- Where the token starts. -/
  place : Cursor
  deriving Repr

/-- A place in a text with what its tokens depend on. -/
structure Lexer where
  /-- The place. -/
  cursor : Cursor
  /-- The number of open brackets and braces. -/
  depth : Int
  /-- The column of the innermost block, −1 outside all blocks. -/
  indent : Int
  /-- The columns of the blocks around, from the inside out. -/
  outer : List Int
  /-- Whether a key may start here. -/
  keyAllowed : Bool
  /-- The tokens that may start a key, with the number of brackets and braces around each. -/
  keys : List (Int × KeyStart)
  /-- The tokens so far. -/
  tokens : List Token

namespace Lexer

/-- The start of a text. -/
def start (cs : List Char) : Lexer := ⟨.start cs, 0, -1, [], true, [], []⟩

/-- Whether no bracket or brace is open. -/
def inBlock (l : Lexer) : Bool := l.depth == 0

/-- Adds a token at the end. -/
def push (l : Lexer) (t : Token) : Lexer := { l with tokens := l.tokens ++ [t] }

/-- Puts a token in at an index. -/
def insert (l : Lexer) (i : Nat) (t : Token) : Lexer :=
  { l with tokens := l.tokens.take i ++ t :: l.tokens.drop i }

/-- Moves on to a place. -/
def moveTo (l : Lexer) (c : Cursor) : Lexer := { l with cursor := c }

/-- Says whether a key may start next. -/
def allowKey (l : Lexer) (allowed : Bool) : Lexer := { l with keyAllowed := allowed }

/-! ### Keys -/

/-- Whether a token is too far away for a colon to make it a key. -/
def isStale (l : Lexer) (k : KeyStart) : Bool :=
  k.place.line != l.cursor.line || k.place.index + 1024 < l.cursor.index

/-- Gives up the tokens that are too far away to start a key. -/
def dropStale (l : Lexer) : Except Fault Lexer :=
  if l.keys.any fun k => l.isStale k.2 && k.2.required then .error .malformed
  else .ok { l with keys := l.keys.filter fun k => !l.isStale k.2 }

/-- Gives up the last token that may start a key at this depth. -/
def dropKey (l : Lexer) : Except Fault Lexer :=
  match l.keys.lookup l.depth with
  | none => .ok l
  | some k =>
    if k.required then .error .malformed
    else .ok { l with keys := l.keys.filter fun k => k.1 != l.depth }

/-- Keeps the next token in mind as one that may start a key. -/
def markKey (l : Lexer) : Except Fault Lexer :=
  if l.keyAllowed then do
    let required := l.inBlock && l.indent == l.cursor.column
    let l ← l.dropKey
    .ok { l with keys := (l.depth, ⟨l.tokens.length, required, l.cursor⟩) :: l.keys }
  else .ok l

/-! ### Blocks -/

/-- Ends the blocks that are moved in further than a column. -/
def unwind (l : Lexer) (column : Int) : Lexer :=
  if l.inBlock then
    let columns := l.indent :: l.outer
    let left := columns.dropWhile (column < ·)
    let ended := columns.length - left.length
    { l with
      indent := left.headD (-1)
      outer := left.tail
      tokens := l.tokens ++ List.replicate ended .blockEnd }
  else l

/-- Starts a block at a column, if it is moved in further than the innermost one. -/
def indentTo? (l : Lexer) (column : Int) : Option Lexer :=
  if l.indent < column then some { l with indent := column, outer := l.indent :: l.outer } else none

/-- Makes sure that a block of some kind is open at the place. -/
def openBlock (l : Lexer) (t : Token) : Except Fault Lexer :=
  if !l.inBlock then .ok l
  else if !l.keyAllowed then .error .malformed
  else .ok (match l.indentTo? l.cursor.column with
    | some l => l.push t
    | none => l)

/-! ### Single tokens -/

/-- Adds the token of a mark of some characters. -/
def mark (l : Lexer) (length : Nat) (t : Token) : Lexer :=
  (l.moveTo (l.cursor.advance length)).push t

/-- An opening bracket or brace. -/
def opening (l : Lexer) (t : Token) : Except Fault Lexer := do
  let l ← l.markKey
  .ok (({ l with depth := l.depth + 1 }.allowKey true).mark 1 t)

/-- A closing bracket or brace. -/
def closing (l : Lexer) (t : Token) : Except Fault Lexer := do
  let l ← l.dropKey
  .ok (({ l with depth := l.depth - 1 }.allowKey false).mark 1 t)

/-- A comma. -/
def comma (l : Lexer) : Except Fault Lexer := do
  let l ← (l.allowKey true).dropKey
  .ok (l.mark 1 .comma)

/-- The dash before an item. -/
def entry (l : Lexer) : Except Fault Lexer := do
  let l ← l.openBlock .blockSequence
  let l ← (l.allowKey true).dropKey
  .ok (l.mark 1 .blockEntry)

/-- The question mark before a key. -/
def key (l : Lexer) : Except Fault Lexer := do
  let l ← l.openBlock .blockMapping
  let l ← (l.allowKey l.inBlock).dropKey
  .ok (l.mark 1 .key)

/-- The colon before a value. If an earlier token may start a key, this is the value of that key. -/
def value (l : Lexer) : Except Fault Lexer :=
  match l.keys.lookup l.depth with
  | some k =>
    let l := { l with keys := l.keys.filter fun k => k.1 != l.depth }.insert k.token .key
    let l := if l.inBlock then
        match l.indentTo? k.place.column with
        | some l => l.insert k.token .blockMapping
        | none => l
      else l
    .ok ((l.allowKey false).mark 1 .value)
  | none => do
    let l ← l.openBlock .blockMapping
    let l ← (l.allowKey l.inBlock).dropKey
    .ok (l.mark 1 .value)

/-- A token that may start a key, with what reads it. -/
def node (l : Lexer) (read : Cursor → Except Fault (Token × Cursor)) : Except Fault Lexer := do
  let l ← l.markKey
  let (t, c) ← read l.cursor
  .ok (((l.allowKey false).moveTo c).push t)

/-- A scalar in quotes. -/
def quoted (double : Bool) (l : Lexer) : Except Fault Lexer :=
  l.node fun c => (Scalar.quoted double (c.rest.length + 1) c.forward []).map fun r =>
    (.scalar r.1 false, r.2)

/-- A plain scalar. A key may start after it if line breaks come between. -/
def plain (l : Lexer) : Except Fault Lexer := do
  let l ← l.markKey
  let (text, broken, c) := Scalar.plain (!l.inBlock) (l.indent + 1) l.cursor
  .ok (((l.allowKey broken).moveTo c).push (.scalar (.ofChars text) true))

/-- A block of lines. -/
def block (folded : Bool) (l : Lexer) : Except Fault Lexer := do
  let l ← (l.allowKey true).dropKey
  let (text, c) ← Scalar.block folded l.indent l.cursor.forward
  .ok ((l.moveTo c).push (.scalar (.ofChars text) false))

/-- Ends all blocks, as the marks between documents do. -/
def leaveBlocks (l : Lexer) : Except Fault Lexer := do
  let l ← (l.unwind (-1)).dropKey
  .ok (l.allowKey false)

/-- A directive. -/
def directive (l : Lexer) : Except Fault Lexer := do
  let l ← l.leaveBlocks
  let (d, c) ← Directive.read l.cursor
  .ok ((l.moveTo c).push (.directive d))

/-! ### The next token -/

/-- The place after blanks, comments and line breaks. -/
def skipGaps : (fuel : Nat) → Lexer → Lexer
  | 0, l => l
  | fuel + 1, l =>
    let c := l.cursor.skipSpaces
    let c := if c.peek == '#' then c.skipLine else c
    match c.lineBreak? with
    | some (_, c) => skipGaps fuel ((l.moveTo c).allowKey (l.keyAllowed || l.inBlock))
    | none => l.moveTo c

/-- The place of the next token. A byte order mark may stand at the start of the text. -/
def toNext (l : Lexer) : Lexer :=
  let l := if l.cursor.index == 0 && l.cursor.peek == '\uFEFF' then l.moveTo l.cursor.forward else l
  skipGaps (l.cursor.rest.length + 1) l

/-- Whether a plain scalar starts at the place. -/
def isPlainStart (l : Lexer) : Bool :=
  let ch := l.cursor.peek
  !(isBlankOrEnd ch || "-?:,[]\x7b\x7d#&*!|>'\"%@\x60".contains ch) ||
    (!isBlankOrEnd (l.cursor.peekAt 1) && (ch == '-' || (l.inBlock && (ch == '?' || ch == ':'))))

/-- Reads the token that starts at the place. -/
def readToken (l : Lexer) : Except Fault Lexer :=
  let c := l.cursor
  let ch := c.peek
  let apart := isBlankOrEnd (c.peekAt 1)
  if ch = '%' ∧ c.column = 0 then l.directive
  else if c.column = 0 ∧ c.isDocumentMark then
    l.leaveBlocks.map (·.mark 3 (if ch = '-' then .documentStart else .documentEnd))
  else match ch with
    | '[' => l.opening .openBracket
    | '\x7b' => l.opening .openBrace
    | ']' => l.closing .closeBracket
    | '\x7d' => l.closing .closeBrace
    | ',' => l.comma
    | '*' => l.node fun c => (nodeName c.forward).map fun r => (.alias r.1, r.2)
    | '&' => l.node fun c => (nodeName c.forward).map fun r => (.anchor r.1, r.2)
    | '!' => l.node fun c => (TagText.read c).map fun r => (.tag r.1, r.2)
    | '\'' => l.quoted false
    | '"' => l.quoted true
    | _ =>
      if ch = '-' ∧ apart then l.entry
      else if ch = '?' ∧ (apart ∨ !l.inBlock) then l.key
      else if ch = ':' ∧ (apart ∨ !l.inBlock) then l.value
      else if ch = '|' ∧ l.inBlock then l.block false
      else if ch = '>' ∧ l.inBlock then l.block true
      else if l.isPlainStart then l.plain
      else .error .malformed

/-- Reads the next token. At the end of the text there is none. -/
def next (l : Lexer) : Except Fault (Lexer × Bool) := do
  let l ← l.toNext.dropStale
  let l := l.unwind l.cursor.column
  if l.cursor.rest.isEmpty then
    let l ← (l.unwind (-1)).dropKey
    .ok (l, true)
  else .ok (← l.readToken, false)

/-- The number of tokens that no later character can change: those before the first one that may
still start a key. -/
def settled (l : Lexer) : Nat :=
  (l.keys.filter fun k => !l.isStale k.2).foldl (fun n k => min n k.2.token) l.tokens.length

/-- Reads all further tokens. Each takes one character at least. -/
def run : (fuel : Nat) → Lexer → Lexed
  | 0, l => ⟨l.tokens, some .malformed⟩
  | fuel + 1, l =>
    match l.next with
    | .ok (l, false) => run fuel l
    | .ok (l, true) => ⟨l.tokens, none⟩
    | .error f => ⟨l.tokens.take l.settled, some f⟩

end Lexer

/-- A character that may occur in a YAML text. -/
def isAdmitted (c : Char) : Bool :=
  let n := c.toNat
  n == 0x9 || n == 0xA || n == 0xD || (0x20 ≤ n && n ≤ 0x7E) || n == 0x85 ||
    (0xA0 ≤ n && n ≤ 0xFFFD) || 0x10000 ≤ n

/-- The tokens of a text. -/
def Lexed.ofText (cs : List Char) : Lexed :=
  if cs.all isAdmitted then Lexer.run (cs.length + 1) (.start cs) else ⟨[], some .malformed⟩

end Yaml

end SegmentSwap
