import SegmentSwap.Text.Basic
import SegmentSwap.Text.Digit

/-!
# Table names as file names

The names of the files that belong to a table: its record, its lock, the draft of its next record
and the tombstone of an abandoned lock. Only tables with a harmless name have files: a letter or
digit, then letters, digits, underscores, dots and dashes. A single line feed at the end is
overlooked.
-/

namespace SegmentSwap

namespace TableName

/-- An ASCII letter or digit. -/
def isAlphanumeric (c : Char) : Bool :=
  Text.isAsciiDigit c || (decide ('a' ≤ c) && decide (c ≤ 'z')) ||
    (decide ('A' ≤ c) && decide (c ≤ 'Z'))

/-- A character that may stand anywhere after the first. -/
def isFurther (c : Char) : Bool := isAlphanumeric c || c == '_' || c == '.' || c == '-'

/-- Whether characters are all harmless, but for a line feed at the very end. -/
def isTail : List Point → Bool
  | [] => true
  | .char c :: rest => (c == '\n' && rest.isEmpty) || (isFurther c && isTail rest)
  | .half _ :: _ => false

/-- Whether a table may have files. -/
def isAccepted (table : Text) : Bool :=
  match table.points with
  | .char c :: rest => isAlphanumeric c && isTail rest
  | _ => false

/-- The file that holds the record. -/
def record (table : Text) : String := table.toString ++ ".json"

/-- The file that a writer of the record holds. -/
def lock (table : Text) : String := table.toString ++ ".lock"

/-- The file that the next record is written to. The token keeps the drafts of different writers
apart. -/
def draft (table : Text) (token : String) : String := table.toString ++ "_" ++ token ++ ".tmp"

/-- The name that an abandoned lock is given before it is removed. -/
def tombstone (table : Text) (token : String) : String := lock table ++ "." ++ token ++ ".stale"

end TableName

end SegmentSwap
