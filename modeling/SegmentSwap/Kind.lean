import SegmentSwap.Category
import SegmentSwap.Store.Folder

/-!
# Kinds of failure

A failure is of a declared category, or of one of a few general kinds that callers are not told to
expect.
-/

namespace SegmentSwap

/-- The kind of a failure. -/
inductive Kind where
  /-- A failure that callers are told to expect. -/
  | declared (c : Category)
  /-- Something is looked up under a name that does not exist. -/
  | missingKey
  /-- Something is looked up at a place that does not exist. -/
  | missingIndex
  /-- A value lacks a part that is asked for. -/
  | missingPart
  /-- A value is not acceptable. -/
  | invalidValue
  /-- Values do not fit together. -/
  | invalidType
  /-- A part of the program does not work. -/
  | runtime
  /-- A number or a date is out of range. -/
  | overflow
  /-- Bytes are no text. -/
  | undecodable
  /-- Something goes deeper than it may, or on for ever. -/
  | recursion
  /-- The file system fails. -/
  | system (e : SystemError)
  deriving DecidableEq, Repr

end SegmentSwap
