import SegmentSwap.Lineage.Basic

/-!
# What follows from a lineage

Nothing here is stored. The served segments of a table, the replacements that compete for sources
and the generations of data on disk are computed from the lineage and the segments registered for
the table each time they are asked for.
-/

namespace SegmentSwap

/-- Whether two source lists claim the same segments. Two empty lists do, so that full reloads of
a table come one after the other. -/
def overlaps (left right : List Text) : Bool :=
  (left.isEmpty && right.isEmpty) || left.any right.contains

/-- The given segments that are registered, in order. -/
def registeredSubset (segments registered : List Text) : List Text :=
  segments.filter registered.contains

namespace Lineage

/-- The segments that completed replacements have consumed. -/
def retired (l : Lineage) : List Text := l.completed.flatMap Entry.sources

/-- The segments that completed replacements have produced. -/
def published (l : Lineage) : List Text := l.completed.flatMap Entry.targets

/-- The targets of all replacements that are not completed. -/
def unpublished (l : Lineage) : List Text :=
  (l.entries.filter fun e => decide (e.state ≠ .completed)).flatMap Entry.targets

/-- Whether the lineage lets queries see a segment, once it is registered. -/
def exposes (l : Lineage) (segment : Text) : Bool :=
  !l.retired.contains segment && (!l.unpublished.contains segment || l.published.contains segment)

/-- The registered segments that queries see. Sources of completed replacements are gone; targets of
other replacements are hidden, unless a completed one has produced the same name. -/
def served (l : Lineage) (registered : List Text) : List Text := registered.filter l.exposes

/-- The entries in progress that compete for some sources. -/
def rivals (l : Lineage) (sources : List Text) : List Entry :=
  l.running.filter fun e => overlaps e.sources sources

/-- The other entries in progress that lose a source to a completed entry. -/
def orphans (l : Lineage) (done : Entry) : List Entry :=
  l.running.filter fun e => e.id != done.id && e.sources.any done.sources.contains

/-- The segment lists of the completed entries, the newest entry first, targets before sources. -/
def history (l : Lineage) : List (List Text) :=
  l.completed.reverse.flatMap fun e => [e.targets, e.sources]

/-- The generations among segment lists: of each list what is registered and not claimed by a list
before it, where that is not empty. -/
def generationsAmong (registered : List Text) :
    (claimed : List Text) → List (List Text) → List (List Text)
  | _, [] => []
  | claimed, segments :: rest =>
    let present := segments.filter fun s => registered.contains s && !claimed.contains s
    if present.isEmpty then generationsAmong registered claimed rest
    else present :: generationsAmong registered (claimed ++ present) rest

/-- The generations of data on disk, the newest first. -/
def generations (l : Lineage) (registered : List Text) : List (List Text) :=
  generationsAmong registered [] l.history

/-- How many generations stay while another one is uploaded. At least one does. -/
def retained (limit : Int) : Nat := (max (limit - 1) 1).toNat

/-- The segments of the generations beyond those that stay, the oldest last. -/
def surplus (l : Lineage) (registered : List Text) (limit : Int) : List Text :=
  ((l.generations registered).drop (retained limit)).flatten

end Lineage

end SegmentSwap
