import SegmentSwap.Store.Version

/-!
# Records in memory

A store that keeps one record for each table. A write happens only if the record still has the
version that the writer names, and it raises the version by one.
-/

namespace SegmentSwap

/-- The records in memory, each with its table. -/
structure Memory where
  records : List (Text × Lineage × Version)
  deriving DecidableEq, Repr, Inhabited

namespace Memory

/-- A store without records. -/
def empty : Memory := ⟨[]⟩

/-- The record of a table. -/
def get? (m : Memory) (table : Text) : Option (Lineage × Version) := m.records.lookup table

/-- The lineage and the version of a table. -/
def read (m : Memory) (table : Text) : Versioned :=
  match m.get? table with
  | some (lineage, version) => ⟨lineage, some version⟩
  | none => ⟨.empty table, none⟩

/-- The version of a table's record. -/
def version? (m : Memory) (table : Text) : Option Version := (m.get? table).map (·.2)

/-- The store without the record of a table. -/
def delete (m : Memory) (table : Text) : Memory :=
  ⟨m.records.filter fun r => r.1 != table⟩

/-- The store with a record for a lineage's table. -/
def put (m : Memory) (lineage : Lineage) (version : Version) : Memory :=
  ⟨(lineage.table, lineage, version) :: (m.delete lineage.table).records⟩

/-- Writes a lineage if the record of its table has the expected version. -/
def write (m : Memory) (lineage : Lineage) (expected : Option Version) : Bool × Memory :=
  if Version.agree (m.version? lineage.table) expected then
    (true, m.put lineage (.next expected))
  else (false, m)

end Memory

end SegmentSwap
