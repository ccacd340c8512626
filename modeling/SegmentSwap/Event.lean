import SegmentSwap.Json.Value
import SegmentSwap.Store.Version

/-!
# Events

What the parts of the program report while they work. Each event has a level and is printed as a
JSON object.
-/

namespace SegmentSwap

/-- Something worth reporting. -/
inductive Event where
  /-- A record was written. -/
  | recordWritten (table : Text) (version : Version) (entryCount : Nat)
  /-- A writer found that its lock is no longer its own. -/
  | lockLost (table : Text) (expected : Option Version)
  /-- An abandoned lock was removed. -/
  | staleLockRemoved (path : Text)
  /-- A lock taken away by mistake could not be put back. -/
  | lockRestoreSkipped (path : Text)
  /-- A write was lost and is tried again. -/
  | conflictRetry (table action : Text) (attempt : Nat) (maxAttempts : Int)
  /-- A replacement was started. -/
  | started (table id : Text) (sources targets : List Text) (force : Bool)
    (revertedIds : List Text)
  /-- A replacement was completed. -/
  | completed (table id : Text) (sources targets revertedIds : List Text)
  /-- A replacement was given up. -/
  | reverted (table id : Text) (force : Bool)
  /-- The lineage of a table was dropped. -/
  | dropped (table : Text)
  /-- Segments were queued for deletion. -/
  | deletionEnqueued (table : Text) (segments : List Text) (reason : Text)
  /-- A segment was deleted. -/
  | segmentDeleted (table segment reason : Text)
  /-- A segment could not be deleted. -/
  | deletionFailed (table segment reason error : Text)
  deriving DecidableEq, Repr

namespace Event

/-- How much an event matters. -/
inductive Level where
  /-- Of interest when something is looked into. -/
  | debug
  /-- The normal course of things. -/
  | info
  /-- Unusual, but dealt with. -/
  | warning
  /-- Something failed. -/
  | error
  deriving DecidableEq, Repr

/-- The name of a level. -/
def Level.text : Level → Text
  | .debug => "debug"
  | .info => "info"
  | .warning => "warning"
  | .error => "error"

/-- The level of an event. -/
def level : Event → Level
  | .recordWritten .. => .debug
  | .lockLost .. | .staleLockRemoved _ | .lockRestoreSkipped _ => .warning
  | .deletionFailed .. => .error
  | _ => .info

/-- The name of an event. -/
def name : Event → Text
  | .recordWritten .. => "lineage_record_written"
  | .lockLost .. => "store_lock_lost"
  | .staleLockRemoved _ => "stale_store_lock_removed"
  | .lockRestoreSkipped _ => "store_lock_restore_skipped"
  | .conflictRetry .. => "lineage_cas_conflict_retry"
  | .started .. => "lineage_entry_started"
  | .completed .. => "lineage_entry_completed"
  | .reverted .. => "lineage_entry_reverted"
  | .dropped _ => "lineage_record_dropped"
  | .deletionEnqueued .. => "segment_deletion_enqueued"
  | .segmentDeleted .. => "segment_deleted"
  | .deletionFailed .. => "segment_deletion_failed"

/-- A list of names as JSON. -/
def names (ns : List Text) : Json.Value := .arr (ns.map .str)

/-- A version as JSON. -/
def version (v : Version) : Json.Value :=
  if v.asTruth then .bool (v.count != 0) else .int v.count

/-- What an event says beside its name and level. -/
def details : Event → List (Text × Json.Value)
  | .recordWritten table v entryCount =>
    [("table_name", .str table), ("version", version v), ("entry_count", .int entryCount)]
  | .lockLost table expected =>
    [("table_name", .str table), ("expected_version", (expected.map version).getD .null)]
  | .staleLockRemoved path => [("lock_path", .str path)]
  | .lockRestoreSkipped path => [("lock_path", .str path)]
  | .conflictRetry table action attempt maxAttempts =>
    [("table_name", .str table), ("action", .str action), ("attempt", .int attempt),
      ("max_attempts", .int maxAttempts)]
  | .started table id sources targets force revertedIds =>
    [("table_name", .str table), ("entry_id", .str id), ("segments_from", names sources),
      ("segments_to", names targets), ("force_cleanup", .bool force),
      ("reverted_entry_ids", names revertedIds)]
  | .completed table id sources targets revertedIds =>
    [("table_name", .str table), ("entry_id", .str id), ("segments_from", names sources),
      ("segments_to", names targets), ("reverted_entry_ids", names revertedIds)]
  | .reverted table id force =>
    [("table_name", .str table), ("entry_id", .str id), ("force_revert", .bool force)]
  | .dropped table => [("table_name", .str table)]
  | .deletionEnqueued table segments reason =>
    [("table_name", .str table), ("segments", names segments), ("reason", .str reason)]
  | .segmentDeleted table segment reason =>
    [("table_name", .str table), ("segment_name", .str segment), ("reason", .str reason)]
  | .deletionFailed table segment reason error =>
    [("table_name", .str table), ("segment_name", .str segment), ("reason", .str reason),
      ("error", .str error)]

/-- An event as a JSON object. -/
def toJson (e : Event) : Json.Value :=
  .obj (e.details ++ [(("event" : Text), .str e.name), (("level" : Text), .str e.level.text)])

end Event

end SegmentSwap
