import SegmentSwap.Failure
import SegmentSwap.Store.FileStore
import SegmentSwap.Store.Memory

/-!
# Record stores

Records are kept in memory or in files. Both kinds of store are read, written under the condition of
a version, and cleared table by table.
-/

namespace SegmentSwap

/-- A store of records. -/
inductive Store where
  | memory (m : Memory)
  | files (f : FileStore)
  deriving Repr

namespace Store

/-- The lineage and the version of a table. -/
def read (s : Store) (table : Text) : Except Failure Versioned :=
  match s with
  | .memory m => .ok (m.read table)
  | .files f => (f.read table).mapError .store

/-- Writes a lineage if the record of its table has the expected version. -/
def write (s : Store) (l : Lineage) (expected : Option Version) : Except Failure Bool × Store :=
  match s with
  | .memory m =>
    let (written, m) := m.write l expected
    (.ok written, .memory m)
  | .files f =>
    let (r, f) := f.write l expected
    (r.mapError .store, .files f)

/-- Removes the record of a table. -/
def delete (s : Store) (table : Text) : Except Failure Unit × Store :=
  match s with
  | .memory m => (.ok (), .memory (m.delete table))
  | .files f =>
    let (r, f) := f.delete table
    (r.mapError .store, .files f)

/-- The file store behind a store, if there is one. -/
def files? : Store → Option FileStore
  | .memory _ => none
  | .files f => some f

/-- Changes the file store behind a store, if there is one. -/
def mapFiles (g : FileStore → FileStore) : Store → Store
  | .memory m => .memory m
  | .files f => .files (g f)

end Store

end SegmentSwap
