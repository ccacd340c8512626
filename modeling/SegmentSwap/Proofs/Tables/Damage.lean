import SegmentSwap.Proofs.Store.Faithful
import SegmentSwap.Proofs.Traffic.Alone
import SegmentSwap.Session.World

/-!
# Damaged records

Whatever bytes the record of a table consists of, reading it returns a lineage in good order or a
fault. Callers are told to expect faults of the store, and nearly all faults are; three kinds of
bytes lead to faults of other kinds. Whoever has to read a damaged record reports its fault and
leaves it as it is, so that it can be restored.
-/

namespace SegmentSwap

namespace Record

variable {path : String} {bytes : List UInt8} {f : StoreFault} {r : Versioned}

end Record

namespace FileStore

variable {s s' : FileStore} {table other : Text} {f : StoreFault} {r : Versioned} {l : Lineage}

theorem Keeps.readRecord (h : s.Keeps (IsLockOf table) s') :
    s'.readRecord other = s.readRecord other :=
  readRecord_congr (congrArg (fun x => x.1) h.setting) h.record

end FileStore

section Calls

variable {w : World} {table : Text} {f : Failure}

end Calls

end SegmentSwap
