import SegmentSwap.Deletion.Queue
import SegmentSwap.Protocol.Queries
import SegmentSwap.Protocol.Run
import SegmentSwap.Store.Basic

/-!
# The world of a session

A session runs the program in a world of its own: a store, a registry, a deletion queue with the
trigger behind it, a clock that moves by a fixed tick at every reading, and rivals that get in
before writes. The world offers the services that calls ask for.
-/

namespace SegmentSwap

/-- What a rival does right before a write of a call, on the record of the same table. Unless it
makes the write lose, it reads the record first, which may fail. -/
inductive RaceAction where
  /-- The write is lost without being tried. -/
  | lose
  /-- The rival appends an entry. -/
  | append (e : Entry)
  /-- The rival moves an entry to another state. -/
  | move (id : Text) (next : State)
  /-- The rival writes the record as it is. -/
  | touch
  /-- The rival removes the record. -/
  | drop
  /-- The rival lets the write pass. -/
  | yield
  deriving DecidableEq, Repr

/-- The trigger that deletes segments. -/
structure Trigger where
  /-- The segments that it cannot delete. -/
  failing : List Text
  /-- What it has deleted, each segment with its table. -/
  deleted : List (Text × Text)
  deriving DecidableEq, Repr, Inhabited

/-- The world of a session. -/
structure World where
  /-- The numbers that the program is configured with. -/
  limits : Limits
  /-- The modes of tables. -/
  modes : TableModes
  /-- The records. -/
  store : Store
  /-- The segments. -/
  registry : Registry
  /-- Whether the registry lists segments. -/
  isListing : Bool
  /-- The deletion queue. -/
  queue : Deletion.Queue
  /-- The deletion trigger. -/
  trigger : Trigger
  /-- The time. -/
  clock : Time.Instant
  /-- How far the clock moves at each reading, in microseconds. -/
  tick : Int
  /-- How many ids have been minted. -/
  minted : Nat
  /-- What rivals do before the next writes of calls. -/
  races : List RaceAction
  /-- How many writes calls have attempted. -/
  writes : Nat
  /-- What has been reported in the current step. -/
  events : List Event

namespace World

/-- The time at the start of a session: the beginning of 2026. -/
def startOfClock : Time.Instant := ⟨1767225600 * Time.microsPerSecond⟩

/-- A world in which nothing has happened yet. -/
def create (limits : Limits) (modes : TableModes) (store : Store) : World :=
  ⟨limits, modes, store, .empty, true, .empty, ⟨[], []⟩, startOfClock, 0, 0, [], 0, []⟩

/-- Takes note of an event. -/
def note (e : Event) (w : World) : World := { w with events := w.events ++ [e] }

/-- Takes over a store together with what it has reported. -/
def withStore (w : World) (s : Store) : World :=
  match s with
  | .memory _ => { w with store := s }
  | .files f => { w with store := .files { f with events := [] }, events := w.events ++ f.events }

/-- Mints an id: the number of ids so far, in the form of a random id. -/
def mint (w : World) : Text × World :=
  let n := w.minted + 1
  (.ofChars ("00000000-0000-0000-".toList ++ Text.hexDigits 4 (n / Nat.pow 2 48) ++ '-' ::
    Text.hexDigits 12 n), { w with minted := n })

/-- Reads the clock, which then moves on. -/
def readClock (w : World) : Time.Instant × World :=
  (w.clock, { w with clock := ⟨w.clock.micros + w.tick⟩ })

/-- The registered segments of a table, if the registry lists them. -/
def list (w : World) (table : Text) : Except Failure (List Text) :=
  if w.isListing then .ok (w.registry.segments table)
  else .error (.registry .listingUnavailable)

/-- Writes to the store. -/
def writeStore (l : Lineage) (expected : Option Version) (w : World) :
    Except Failure Bool × World :=
  let (r, s) := w.store.write l expected
  (r, w.withStore s)

/-- Removes the record of a table. -/
def deleteRecord (table : Text) (w : World) : Except Failure Unit × World :=
  let (r, s) := w.store.delete table
  (r, w.withStore s)

/-- The stamp of changes that rivals make. -/
def rivalStamp : Text := "2026-02-02T02:02:02+00:00"

/-- The lineage that a rival writes. -/
def raceLineage (a : RaceAction) (l : Lineage) : Except Failure Lineage :=
  match a with
  | .append e => (l.append e).mapError .lineage
  | .move id next => do
    let e ← (Check.known l l.table id).mapError .refusal
    let moved ← (e.moveTo next rivalStamp).mapError fun f => .refusal (.transition f)
    (l.replace [moved]).mapError .lineage
  | _ => .ok l

/-- What a rival does on the record of a table. -/
def race (a : RaceAction) (table : Text) (w : World) : Except Failure Unit × World :=
  match w.store.read table with
  | .error f => (.error f, w)
  | .ok read =>
    match a with
    | .lose | .yield => (.ok (), w)
    | .drop => w.deleteRecord table
    | a =>
      match raceLineage a read.lineage with
      | .error f => (.error f, w)
      | .ok l =>
        let (r, w) := w.writeStore l read.version?
        (r.map fun _ => (), w)

/-- A write of a call, after the rival whose turn it is. -/
def writeContested (l : Lineage) (expected : Option Version) (w : World) :
    Except Failure Bool × World :=
  let w := { w with writes := w.writes + 1 }
  match w.races with
  | [] => w.writeStore l expected
  | a :: rest =>
    let w := { w with races := rest }
    match a with
    | .lose => (.ok false, w)
    | a =>
      match w.race a l.table with
      | (.error f, w) => (.error f, w)
      | (.ok (), w) => w.writeStore l expected

/-- Queues segments for deletion. -/
def enqueue (table : Text) (segments : List Text) (reason : Text) (w : World) : World :=
  let names := Text.distinct segments
  let w := { w with queue := w.queue.enqueue table segments reason }
  if names.isEmpty then w else w.note (.deletionEnqueued table names reason)

/-- Lets the trigger delete a segment. Its failure is reported and has no further effect. -/
def delete (d : Deletion) (w : World) : World :=
  if w.trigger.failing.contains d.segment then
    w.note (.deletionFailed d.table d.segment d.reason ("cannot delete " ++ d.segment))
  else
    { w with
      trigger := { w.trigger with deleted := w.trigger.deleted ++ [(d.table, d.segment)] }
      registry := w.registry.delete d.table d.segment }.note
        (.segmentDeleted d.table d.segment d.reason)

/-- Acts on the queue of the world together with the world itself. -/
def onQueue {α : Type} (act : Deletion.Queue → World → α × Deletion.Queue × World) (w : World) :
    α × World :=
  let (a, q, w) := act w.queue w
  (a, { w with queue := q })

/-- Deletes all that waits and counts it. -/
def drain (w : World) : Nat × World := w.onQueue fun q w => q.drain delete w

/-- Lets the worker that the queue knows of work until there is nothing left to do. -/
def work (w : World) : World :=
  match w.queue.current? with
  | some worker =>
    if w.queue.isRunning then (w.onQueue fun q w => ((), q.work delete worker w)).2 else w
  | none => w

/-- The services that the world offers. Waits between attempts come to their end at once. -/
def services : Services World where
  mint := mint
  mode := fun table w => (.ok (w.modes.of table), w)
  read := fun table w => (w.store.read table, w)
  registered := fun table w => (w.list table, w)
  available := fun table segment w => (.ok (w.registry.isAvailable table segment), w)
  stamp := fun w =>
    let (t, w) := w.readClock
    (t.stamp, w)
  write := writeContested
  enqueue := enqueue
  note := note
  retrying := fun _ => .standard (.loop .drained)
  obstacle? := fun _ => none
  pause := fun _ _ => .elapsed

theorem step_reading (c : Call) (a : Attempt) (w : World) :
    Call.step services c (.reading a) w = (c.afterRead a (w.store.read c.table), w) := by
  have hopened : c.opened services a w (w.store.read c.table) = w.store.read c.table := by
    unfold Call.opened
    split <;> rfl
  show (c.afterRead a (c.opened services a w (w.store.read c.table)), w) = _
  rw [hopened]

/-- Answers a call. -/
def call (table : Text) (request : Request) (w : World) : Except Failure Entry × World :=
  Call.answer services ⟨table, request, w.limits.attempts, w.limits.generations⟩ w

/-- Removes the lineage of a table that has been dropped. -/
def drop (table : Text) (w : World) : Except Failure Unit × World :=
  match w.deleteRecord table with
  | (.error f, w) => (.error f, w)
  | (.ok (), w) => (.ok (), w.note (.dropped table))

/-- The entries of a table that have been in progress for longer than a span. -/
def stale (table : Text) (span : Time.Span) (w : World) : Except Failure (List Entry) × World :=
  let (now, w) := w.readClock
  let entries := do
    let cutoff ← (now.before span).mapError .range
    let read ← w.store.read table
    read.lineage.stale cutoff
  (entries, w)

end World

end SegmentSwap
