import SegmentSwap.Protocol.Call

/-!
# Queries

What clients may ask beside calls: which segments a table serves, and which replacements have been
in progress for too long. The served segments are found in two steps, between which others may act:
the record is read and then the registry.
-/

namespace SegmentSwap

/-- How far a query for the served segments has come. -/
inductive ServedQuery where
  /-- It waits for the record. -/
  | reading
  /-- It waits for the list of registered segments. -/
  | listing (lineage : Lineage)
  /-- It has returned. -/
  | done (result : Except Failure (List Text))

namespace ServedQuery

variable {σ : Type}

/-- What follows on the record. -/
def afterRead : Except Failure Versioned → ServedQuery
  | .error f => .done (.error f)
  | .ok read => .listing read.lineage

/-- What follows on the list of registered segments. -/
def afterListing (l : Lineage) : Except Failure (List Text) → ServedQuery
  | .error f => .done (.error f)
  | .ok registered => .done (.ok (l.served registered))

/-- One answer of a service and what the query makes of it. -/
def step (svc : Services σ) (table : Text) (q : ServedQuery) (s : σ) : ServedQuery × σ :=
  match q with
  | .reading =>
    let (r, s) := svc.read table s
    (afterRead r, s)
  | .listing l =>
    let (r, s) := svc.registered table s
    (afterListing l r, s)
  | .done r => (.done r, s)

/-- The served segments of a table. -/
def answer (svc : Services σ) (table : Text) (s : σ) : Except Failure (List Text) × σ :=
  match svc.read table s with
  | (.error f, s) => (.error f, s)
  | (.ok read, s) =>
    let (r, s) := svc.registered table s
    (r.map read.lineage.served, s)

end ServedQuery

namespace Lineage

/-- Whether the last change of an entry lies before an instant. -/
def isOlder (cutoff : Time.Instant) (e : Entry) : Except Failure Bool :=
  match Time.Stamp.read e.stamp with
  | .error f => .error (.stamp f)
  | .ok reading =>
    match reading.instant? with
    | none => .error .stampWithoutOffset
    | some t => .ok (decide (t.micros < cutoff.micros))

/-- The entries in progress that were last changed before an instant. -/
def staleAmong (cutoff : Time.Instant) : List Entry → Except Failure (List Entry)
  | [] => .ok []
  | e :: rest => do
    let older ← isOlder cutoff e
    let others ← staleAmong cutoff rest
    return if older then e :: others else others

/-- The entries of a lineage that have been in progress since before an instant. -/
def stale (l : Lineage) (cutoff : Time.Instant) : Except Failure (List Entry) :=
  staleAmong cutoff l.running

end Lineage

end SegmentSwap
