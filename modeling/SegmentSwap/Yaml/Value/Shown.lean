import SegmentSwap.Text.Quoted
import SegmentSwap.Yaml.Value.Members

/-!
# Showing YAML values

The form in which messages show a value. An object that lies inside itself is shown by three dots
there. A whole number with too many digits cannot be shown, and neither can what holds it.
-/

namespace SegmentSwap

namespace Yaml

/-- A byte between quotation marks. -/
def shownByte (mark : Char) (b : UInt8) : List Char :=
  if 0x7E < b.toNat then '\\' :: 'x' :: Text.hexDigits 2 b.toNat
  else Text.escapeQuoted mark (.char (Char.ofNat b.toNat))

/-- Bytes, as messages show them. -/
def shownBytes (bytes : List UInt8) : Text :=
  let mark := Text.quoteMark (.ofChars (bytes.map fun b => Char.ofNat b.toNat))
  .ofChars ('b' :: mark :: bytes.flatMap (shownByte mark) ++ [mark])

/-- Shown items between braces. -/
def braced (items : List Text) : Text := "\x7b" ++ Text.joined ", " items ++ "\x7d"

namespace Data

/-- A value inside some objects, as messages show it. There are at most `fuel` objects inside each
other. -/
def shownFrom (d : Data) : (fuel : Nat) → (inside : List NodeId) → Value → Except Fault Text
  | _, _, .null => .ok "None"
  | _, _, .truth b => .ok (if b then "True" else "False")
  | _, _, .number (.whole n) => if isShowable n then .ok (toString n) else .error .tooLong
  | _, _, .number (.real x) => .ok x.text
  | _, _, .nan _ => .ok Binary64.nan.text
  | _, _, .text t => .ok (Text.quoted t)
  | _, _, .binary bytes => .ok (shownBytes bytes)
  | _, _, .moment m => .ok m.shown
  | 0, _, .object _ => .ok "..."
  | fuel + 1, inside, .object id =>
    let shown := shownFrom d fuel (id :: inside)
    let shownPair (start middle stop : Text) (p : Value × Value) : Except Fault Text := do
      return start ++ (← shown p.1) ++ middle ++ (← shown p.2) ++ stop
    let around := inside.contains id
    match d.contents? id with
    | none => .ok ""
    | some (.list items) =>
      if around then .ok (Text.bracketed ["..."]) else Text.bracketed <$> items.mapM shown
    | some (.pairs items) =>
      if around then .ok (Text.bracketed ["..."])
      else Text.bracketed <$> items.mapM (shownPair "(" ", " ")")
    | some (.mapping items) =>
      if around then .ok (braced ["..."]) else braced <$> items.mapM (shownPair "" ": " "")
    | some (.set items) =>
      if items.isEmpty then .ok "set()" else braced <$> (Members.listed items).mapM shown

/-- A value, as messages show it. -/
def shown (d : Data) (v : Value) : Except Fault Text := d.shownFrom (d.objects.length + 1) [] v

end Data

end Yaml

end SegmentSwap
