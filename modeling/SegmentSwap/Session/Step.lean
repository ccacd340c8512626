import SegmentSwap.Session.World

/-!
# The steps of a session

Each step acts on the world and has an answer. A step that fails leaves behind what it did before it
failed.
-/

namespace SegmentSwap

/-- A step of a session. -/
inductive Step where
  /-- A call on a table. -/
  | call (table : Text) (request : Request)
  /-- The lineage of a table. -/
  | lineage (table : Text)
  /-- The served segments of a table. -/
  | served (table : Text)
  /-- The removal of a table's lineage. -/
  | drop (table : Text)
  /-- The entries of a table that have been in progress for longer than a span. -/
  | stale (table : Text) (days seconds micros : Int)
  /-- All there is to know about a table. -/
  | snapshot (table : Text)
  /-- Segments are registered, and perhaps placed. -/
  | add (table : Text) (segments : List Text) (placed : Bool)
  /-- A segment is placed. -/
  | place (table segment : Text)
  /-- The registry forgets a segment. -/
  | unregister (table segment : Text)
  /-- The registered segments of a table. -/
  | registered (table : Text)
  /-- Whether a segment is available. -/
  | available (table segment : Text)
  /-- The listing of segments goes out of order, or into it again. -/
  | listing (on : Bool)
  /-- The record of a table. -/
  | read (table : Text)
  /-- A write beside the calls, perhaps with a rival at work. -/
  | write (table : Text) (entries : List Entry) (expected : Option Version) (rival : Rival)
  /-- The removal of a record. -/
  | delete (table : Text)
  /-- What rivals will do before the next writes of calls. -/
  | race (actions : List RaceAction)
  /-- The number of writes that calls have attempted. -/
  | writes
  /-- Segments are queued for deletion. -/
  | enqueue (table : Text) (segments : List Text) (reason : Text)
  /-- The number of items in the queue. -/
  | pending
  /-- All that waits in the queue is deleted. -/
  | drain
  /-- The segments that cannot be deleted. -/
  | failing (segments : List Text)
  /-- What has been deleted. -/
  | deleted
  /-- A worker is started. -/
  | startWorker
  /-- The worker is stopped. -/
  | stopWorker
  /-- The session waits until the worker has emptied the queue. -/
  | join
  /-- The worker is asked to stop while it is busy with one segment and others wait, which this
  thread drains. -/
  | stopRace (table blocked : Text) (others : List Text) (reason : Text)
  /-- The clock is set. -/
  | clock (time : Time.Instant) (tick : Int)
  /-- A file appears in the directory of the records. -/
  | putFile (name : String) (bytes : List UInt8)
  /-- The text of a file in the directory of the records. -/
  | getFile (name : String)
  /-- A directory appears in the directory of the records. -/
  | makeDirectory (name : String)
  /-- The names in the directory of the records. -/
  | list
  /-- A lock appears that was last changed some milliseconds ago. -/
  | lock (table : Text) (text : String) (age : Int)
  deriving Repr

/-- All there is to know about a table. -/
structure Snapshot where
  /-- The record. -/
  record : Versioned
  /-- The registered segments. -/
  registered : List Text
  /-- The placed segments. -/
  available : List Text
  /-- The served segments. -/
  served : List Text
  /-- What waits for deletion, of all tables. -/
  pending : List Deletion
  /-- What has been deleted, of all tables. -/
  deleted : List (Text × Text)
  deriving Repr

/-- The outcome of a race between a stop and a drain. -/
structure RaceOutcome where
  /-- How many requests the drain took. -/
  drained : Nat
  /-- How many items were left right after it. -/
  left : Nat
  /-- How many items were left in the end. -/
  leftAfter : Nat
  deriving Repr

/-- What a step has to say. -/
inductive Answer where
  /-- Nothing. -/
  | nothing
  /-- Yes or no. -/
  | flag (b : Bool)
  /-- A number. -/
  | count (n : Nat)
  /-- An id. -/
  | id (s : Text)
  /-- Names or ids. -/
  | names (ns : List Text)
  /-- Segments with their tables. -/
  | segments (ps : List (Text × Text))
  /-- An entry. -/
  | entry (e : Entry)
  /-- A lineage. -/
  | lineage (l : Lineage)
  /-- A record. -/
  | record (r : Versioned)
  /-- A snapshot. -/
  | snapshot (s : Snapshot)
  /-- The outcome of a race. -/
  | race (o : RaceOutcome)
  /-- The text of a file, if there is one. -/
  | text (t : Option String)
  deriving Repr

namespace World

/-- The snapshot of a table. -/
def snapshot (table : Text) (w : World) : Except Failure Snapshot := do
  let read ← w.store.read table
  let registered := Text.sortedSet (w.registry.segments table)
  return {
    record := read
    registered := registered
    available := Text.sortedSet ((w.registry.placed.filter fun p => p.1 == table).map (·.2))
    served := Text.sortedSet (read.lineage.served registered)
    pending := w.queue.pending
    deleted := w.trigger.deleted }

/-- Lets the worker and a stop race with a drain. While the worker is busy with the segment
`blocked`, the others are queued, the stop is asked for and the queue is drained; then the worker
goes on to its end. -/
def stopRace (table blocked : Text) (others : List Text) (reason : Text) (w : World) :
    RaceOutcome × World :=
  let w := { w with queue := w.queue.start }.work
  let worker := w.queue.current?.getD 0
  let w := w.enqueue table [blocked] reason
  let w := match w.queue.take worker with
    | some (_, q) => { w with queue := q }
    | none => w
  let w := w.enqueue table others reason
  let w := { w with queue := w.queue.requestStop.2 }
  let (drained, w) := w.drain
  let left := w.queue.pendingCount
  let w := { w with queue := w.queue.finish worker }.delete ⟨table, blocked, reason⟩
  let w := w.work
  let w := { w with queue := w.queue.forget }
  (⟨drained, left, w.queue.pendingCount⟩, w)

/-- Stops the worker once it has deleted all that waits. -/
def stopWorker (w : World) : World :=
  let w := { w with queue := w.queue.requestStop.2 }.work
  { w with queue := w.queue.forget }

/-- Writes entries as a lineage of a table, with a rival at work. -/
def writeBeside (table : Text) (entries : List Entry) (expected : Option Version) (rival : Rival)
    (w : World) : Except Failure Bool × World :=
  match Lineage.create table entries with
  | .error f => (.error (.lineage f), w)
  | .ok l =>
    { w with store := w.store.mapFiles fun f => { f with rival := rival } }.writeStore l expected

/-- Changes the directory of the records. -/
def mapFolder (g : Folder → Folder) (w : World) : World :=
  { w with store := w.store.mapFiles fun f => { f with folder := g f.folder } }

/-- What a name in the directory of the records stands for. -/
def node? (name : String) (w : World) : Option Node :=
  w.store.files?.bind fun f => f.folder.get? name

/-- The text of a file in the directory of the records, if there is such a file. -/
def fileText (name : String) (w : World) : Except Failure (Option String) :=
  match w.node? name with
  | some (.file bytes _) =>
    ((Text.Utf8.decode bytes).map some).mapError fun e => .store (.undecodable e)
  | _ => .ok none

/-- The answer of something that has no answer. -/
def silent (r : Except Failure Unit × World) : Except Failure Answer × World :=
  (r.1.map fun _ => .nothing, r.2)

/-- Does a step. -/
def perform (step : Step) (w : World) : Except Failure Answer × World :=
  match step with
  | .call table request =>
    let (r, w) := w.call table request
    (r.map fun e => match request with
      | .start .. => .id e.id
      | _ => .entry e, w)
  | .lineage table => ((w.store.read table).map fun r => .lineage r.lineage, w)
  | .served table =>
    let (r, w) := ServedQuery.answer services table w
    (r.map fun names => .names (Text.sortedSet names), w)
  | .drop table => silent (w.drop table)
  | .stale table days seconds micros =>
    match Time.Span.ofParts days seconds micros with
    | .error f => (.error (.range f), w)
    | .ok span =>
      let (r, w) := w.stale table span
      (r.map fun es => .names (es.map Entry.id), w)
  | .snapshot table => ((w.snapshot table).map .snapshot, w)
  | .add table segments placed =>
    (.ok .nothing, { w with registry := w.registry.add table segments placed })
  | .place table segment =>
    match w.registry.place table segment with
    | .error f => (.error (.registry f), w)
    | .ok r => (.ok .nothing, { w with registry := r })
  | .unregister table segment =>
    (.ok .nothing, { w with registry := w.registry.delete table segment })
  | .registered table => ((w.list table).map fun names => .names (Text.sortedSet names), w)
  | .available table segment => (.ok (.flag (w.registry.isAvailable table segment)), w)
  | .listing on => (.ok .nothing, { w with isListing := on })
  | .read table => ((w.store.read table).map .record, w)
  | .write table entries expected rival =>
    let (r, w) := w.writeBeside table entries expected rival
    (r.map .flag, w)
  | .delete table => silent (w.deleteRecord table)
  | .race actions => (.ok .nothing, { w with races := actions })
  | .writes => (.ok (.count w.writes), w)
  | .enqueue table segments reason =>
    (.ok (.count (Text.distinct segments).length), w.enqueue table segments reason)
  | .pending => (.ok (.count w.queue.pendingCount), w)
  | .drain =>
    let (n, w) := w.drain
    (.ok (.count n), w)
  | .failing segments =>
    (.ok .nothing, { w with trigger := { w.trigger with failing := segments } })
  | .deleted => (.ok (.segments w.trigger.deleted), w)
  | .startWorker => (.ok .nothing, { w with queue := w.queue.start })
  | .stopWorker => (.ok .nothing, w.stopWorker)
  | .join => (.ok .nothing, w.work)
  | .stopRace table blocked others reason =>
    let (o, w) := w.stopRace table blocked others reason
    (.ok (.race o), w)
  | .clock time tick => (.ok .nothing, { w with clock := time, tick := tick })
  | .putFile name bytes => (.ok .nothing, w.mapFolder fun f => f.put name (.file bytes 0))
  | .getFile name => ((w.fileText name).map .text, w)
  | .makeDirectory name => (.ok .nothing, w.mapFolder fun f => f.put name .directory)
  | .list =>
    let names := (w.store.files?.map fun f => f.folder.names).getD []
    (.ok (.names (Text.sortedSet (names.map .ofString))), w)
  | .lock table text age =>
    (.ok .nothing, w.mapFolder fun f => f.put (TableName.lock table) (lockFile text (-age)))

end World

end SegmentSwap
