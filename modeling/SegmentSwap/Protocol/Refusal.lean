import SegmentSwap.Lineage.Basic

/-!
# Refusals

Why the protocol turns down a call on a table: the request is malformed, its segments are taken or
not there, its entry is unknown or already resolved, or uploads stand in the way.
-/

namespace SegmentSwap

/-- A side of a replacement. -/
inductive Side where
  | sources
  | targets
  deriving DecidableEq, Repr

/-- The name of a side in messages. -/
def Side.text : Side → Text
  | .sources => "segments_from"
  | .targets => "segments_to"

/-- Why a call is turned down. -/
inductive Refusal where
  /-- The request names no targets. -/
  | noTargets (table : Text)
  /-- A side of the request repeats names. -/
  | repeated (table : Text) (side : Side) (names : List Text)
  /-- Names stand on both sides of the request. -/
  | onBothSides (table : Text) (names : List Text)
  /-- Targets are produced by a live entry. -/
  | alreadyProduced (table : Text) (names : List Text) (id : Text) (state : State)
  /-- Targets are registered. -/
  | alreadyRegistered (table : Text) (names : List Text)
  /-- Sources are not served. -/
  | notServed (table : Text) (names : List Text)
  /-- Other replacements of the sources are in progress. -/
  | contested (table : Text) (sources : List Text) (ids : List Text)
  /-- There is no such entry. -/
  | unknownEntry (id table : Text)
  /-- The entry cannot be moved. -/
  | transition (fault : TransitionFault)
  /-- Targets are not available yet. -/
  | notUploaded (names : List Text) (id table : Text)
  /-- Targets are available already. -/
  | uploaded (names : List Text) (id table : Text)
  deriving DecidableEq, Repr

namespace Refusal

/-- The wording of a refusal. -/
def message : Refusal → Text
  | .noTargets table =>
    "Cannot replace segments of '" ++ table ++ "': segments_to is empty. " ++
      "Name at least one segment to produce."
  | .repeated table side names =>
    "Cannot replace segments of '" ++ table ++ "': " ++ side.text ++ " repeats " ++
      Text.quotedList names ++ ". List each segment once."
  | .onBothSides table names =>
    "Cannot replace segments of '" ++ table ++ "': " ++ Text.quotedList names ++
      " appear in both segments_from and segments_to. Produce new segment names."
  | .alreadyProduced table names id state =>
    "Segments " ++ Text.quotedList names ++ " of '" ++ table ++
      "' are already produced by lineage entry '" ++ id ++ "' (" ++ state.text ++
      "). Choose new segment names."
  | .alreadyRegistered table names =>
    "Segments " ++ Text.quotedList names ++ " already exist in '" ++ table ++
      "'. Choose segment names that are not registered."
  | .notServed table names =>
    "Segments " ++ Text.quotedList names ++ " are not served by '" ++ table ++
      "'. Replace only segments the table currently serves."
  | .contested table sources ids =>
    "Segments " ++ Text.quotedList sources ++ " of '" ++ table ++
      "' are already being replaced by lineage entries " ++ Text.quotedList ids ++
      ". Finish or revert them, or retry with force_cleanup."
  | .unknownEntry id table =>
    "Lineage entry '" ++ id ++ "' does not exist for '" ++ table ++
      "'. Use the id returned by start_replace_segments."
  | .transition fault => fault.message
  | .notUploaded names id table =>
    "Segments " ++ Text.quotedList names ++ " of lineage entry '" ++ id ++ "' in '" ++ table ++
      "' are not available yet. Finish uploading them and retry."
  | .uploaded names id table =>
    "Segments " ++ Text.quotedList names ++ " of lineage entry '" ++ id ++ "' in '" ++ table ++
      "' are already uploaded. Retry with force_revert to discard them."

/-- The segments that the caller has to deal with first, where waiting or force can help. -/
def blocking? : Refusal → Option (List Text)
  | .notUploaded names _ _ => some names
  | .uploaded names _ _ => some names
  | _ => none

end Refusal

end SegmentSwap
