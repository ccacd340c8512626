import SegmentSwap.Yaml.Moment
import SegmentSwap.Yaml.Number

/-!
# Types of nodes

A tag tells the type of a node. A plain scalar without a tag has the type that its text looks like.
-/

namespace SegmentSwap

namespace Yaml

/-- The type of a node. -/
inductive Tag where
  /-- Nothing. -/
  | null
  /-- A truth value. -/
  | truth
  /-- A whole number. -/
  | whole
  /-- A real number. -/
  | real
  /-- A text. -/
  | text
  /-- A date or a time. -/
  | moment
  /-- Bytes. -/
  | binary
  /-- The sign for the merging of mappings. -/
  | merge
  /-- The sign for the default value of a mapping. -/
  | default
  /-- A list. -/
  | list
  /-- A mapping. -/
  | mapping
  /-- A list of pairs. -/
  | pairs
  /-- A set. -/
  | set
  /-- Any other type. -/
  | unknown
  deriving DecidableEq, Repr

namespace Tag

/-- The words for truth values. -/
def truthWords : List String :=
  ["yes", "Yes", "YES", "no", "No", "NO", "true", "True", "TRUE", "false", "False", "FALSE",
    "on", "On", "ON", "off", "Off", "OFF"]

/-- The words for nothing. -/
def nullWords : List String := ["", "~", "null", "Null", "NULL"]

/-- The type of a plain scalar, told by its text. A line break at the end of the text does not
count, unless the text is nothing else. -/
def ofPlain (t : Text) : Tag :=
  let all := t.chars
  let cs := if 1 < all.length ∧ all.getLast? = some '\n' then all.dropLast else all
  let word := String.ofList cs
  if truthWords.contains word then .truth
  else if Number.isReal cs then .real
  else if Number.isWhole cs then .whole
  else if word = "<<" then .merge
  else if nullWords.contains word then .null
  else if Moment.isPlain cs then .moment
  else if word = "=" then .default
  else .text

/-- The type of a full tag. -/
def ofText (tag : String) : Tag :=
  (([("null", .null), ("bool", .truth), ("int", .whole), ("float", .real), ("str", .text),
    ("timestamp", .moment), ("binary", .binary), ("merge", .merge), ("value", .default),
    ("seq", .list), ("map", .mapping), ("omap", .pairs), ("pairs", .pairs), ("set", .set)] :
      List (String × Tag)).find? fun p => "tag:yaml.org,2002:" ++ p.1 == tag).elim .unknown (·.2)

end Tag

end Yaml

end SegmentSwap
