import SegmentSwap.Lineage.Basic

/-!
# Versions

Every record carries a version, and a writer names the version that it has read. A record from
elsewhere may give its version as a truth value, which counts as one or zero; the first write after
it goes on in numbers.
-/

namespace SegmentSwap

/-- The version of a record. -/
structure Version where
  /-- The number. -/
  count : Int
  /-- Whether the number is given as a truth value. -/
  asTruth : Bool
  deriving DecidableEq, Repr, Inhabited

namespace Version

/-- A version given as a number. -/
def ofCount (n : Int) : Version := ⟨n, false⟩

/-- The version that follows on what a writer has read: zero for a new record. -/
def next : Option Version → Version
  | none => ofCount 0
  | some v => ofCount (v.count + 1)

/-- Whether two readings of a record's version, absence included, agree. -/
def agree (a b : Option Version) : Bool := a.map count == b.map count

end Version

/-- What is read of a table: its lineage, and the version of its record if there is one. -/
structure Versioned where
  /-- The lineage, which is empty without a record. -/
  lineage : Lineage
  /-- The version of the record. -/
  version? : Option Version
  deriving DecidableEq, Repr, Inhabited

end SegmentSwap
