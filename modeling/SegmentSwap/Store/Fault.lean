import SegmentSwap.Json.Reader
import SegmentSwap.Lineage.Document
import SegmentSwap.Number.Arithmetic
import SegmentSwap.Store.Folder
import SegmentSwap.Text.Utf8

/-!
# Faults of the file store

Why a record cannot be read or written.
-/

namespace SegmentSwap

/-- Why the file store fails. -/
inductive StoreFault where
  /-- The table has no harmless name. -/
  | tableName (table : Text)
  /-- The file system does not hand out the record. -/
  | unreadable (path : String) (cause : SystemFault)
  /-- The record is no text. -/
  | undecodable (cause : Text.Utf8.DecodeError)
  /-- The record is not JSON. -/
  | malformed (path : String) (complaint : Json.Complaint)
  /-- The record holds a whole number with too many digits. -/
  | tooManyDigits (count : Nat)
  /-- Lists or objects of the record are nested too deep. -/
  | tooDeep (isObject : Bool)
  /-- The record is no object with a version. -/
  | noVersion (path : String)
  /-- The record holds no lineage. -/
  | document (fault : Document.Fault)
  /-- The file system does not take the record. -/
  | unwritable (path : String) (cause : SystemFault)
  /-- The next version has too many digits. -/
  | versionTooLong
  /-- The time to wait for a lock is a whole number beyond the range of doubles. -/
  | timeoutTooLarge
  /-- The lock stays taken. -/
  | lockTimeout (timeout : Quantity) (path : String)
  /-- The file system fails beside reading and writing records. -/
  | system (cause : SystemFault)
  deriving Repr

/-- The wording of a fault of the file store. -/
def StoreFault.message : StoreFault → Text
  | .tableName table =>
    "Invalid table name " ++ Text.quoted table ++
      " for file lineage store. Use letters, digits, '_', '.' or '-'."
  | .unreadable path cause =>
    "Failed to read lineage record " ++ path ++ ": " ++ cause.message ++ ". Check file permissions."
  | .undecodable cause => cause.message
  | .malformed path complaint =>
    "Failed to parse lineage record at " ++ path ++ ": " ++ complaint.message ++
      ". Restore the record from a backup."
  | .tooManyDigits count => digitLimitMessage count
  | .tooDeep isObject => Json.depthLimitMessage isObject
  | .noVersion path =>
    "Invalid lineage record at " ++ path ++ ": expected object with integer version."
  | .document fault => fault.message
  | .unwritable path cause =>
    "Failed to write lineage record " ++ path ++ ": " ++ cause.message ++
      ". Check disk space and permissions."
  | .versionTooLong => shownLimitMessage
  | .timeoutTooLarge => doubleLimitMessage
  | .lockTimeout timeout path =>
    "Timed out after " ++ timeout.text ++ "s waiting for lineage lock " ++ path ++
      ". Remove the lock file if no writer is running."
  | .system cause => cause.message

end SegmentSwap
