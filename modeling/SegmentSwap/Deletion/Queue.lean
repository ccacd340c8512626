import SegmentSwap.Text.Sorted

/-!
# The deletion queue

Segments that are no longer needed wait in a queue until a worker, or a caller that drains the
queue, deletes them one after the other. A caller that stops the worker puts a marker behind the
requests that are waiting; the worker ends when it takes the marker. A drain leaves the marker to
the worker and puts it back at the end.

The steps of the callers and of the workers are given one by one, so that they can be interleaved;
`drain` and `work` are what a caller and a worker do without interference.
-/

namespace SegmentSwap

/-- A segment to be deleted. -/
structure Deletion where
  /-- The table that owns the segment. -/
  table : Text
  /-- The segment. -/
  segment : Text
  /-- Why the segment is no longer needed. -/
  reason : Text
  deriving DecidableEq, Repr

namespace Deletion

/-- What stands in the queue. -/
inductive Item where
  /-- A segment to be deleted. -/
  | request (d : Deletion)
  /-- The sign for a worker to end. -/
  | stopMarker
  deriving DecidableEq, Repr

/-- What a worker does. -/
inductive Activity where
  /-- It waits for something in the queue. -/
  | idle
  /-- It deletes a segment. -/
  | deleting (d : Deletion)
  /-- It has ended. -/
  | ended
  deriving DecidableEq, Repr

/-- The queue and its workers. -/
structure Queue where
  /-- What waits, the next item first. -/
  items : List Item
  /-- The workers that were ever started, in that order. -/
  workers : List Activity
  /-- The place of the worker that the queue knows of in that list. -/
  current? : Option Nat
  deriving DecidableEq, Repr

namespace Queue

/-- An empty queue without a worker. -/
def empty : Queue := ⟨[], [], none⟩

instance : Inhabited Queue := ⟨empty⟩

/-- The number of items that wait. -/
def pendingCount (q : Queue) : Nat := q.items.length

/-- The requests that wait. -/
def pending (q : Queue) : List Deletion :=
  q.items.filterMap fun
    | .request d => some d
    | .stopMarker => none

/-- Puts one request for each name at the end, in the order of first occurrences. -/
def enqueue (q : Queue) (table : Text) (names : List Text) (reason : Text) : Queue :=
  { q with items := q.items ++ (Text.distinct names).map fun s => .request ⟨table, s, reason⟩ }

/-- Whether a worker has been started and has not ended. -/
def isAlive (q : Queue) (worker : Nat) : Bool :=
  match q.workers[worker]? with
  | some .ended => false
  | some _ => true
  | none => false

/-- Whether the worker that the queue knows of is alive. -/
def isRunning (q : Queue) : Bool := q.current?.any q.isAlive

/-- Starts a worker, unless the one that the queue knows of is alive. -/
def start (q : Queue) : Queue :=
  if q.isRunning then q
  else { q with workers := q.workers ++ [.idle], current? := some q.workers.length }

/-- Puts a stop marker at the end for the worker that the queue knows of, and names that worker. -/
def requestStop (q : Queue) : Option Nat × Queue :=
  match q.current? with
  | none => (none, q)
  | some worker => (some worker, { q with items := q.items ++ [.stopMarker] })

/-- Gives up the worker that the queue knows of, as a stop does when it returns. -/
def forget (q : Queue) : Queue := { q with current? := none }

/-- Records what a worker does. -/
def setActivity (q : Queue) (worker : Nat) (a : Activity) : Queue :=
  { q with workers := q.workers.set worker a }

/-- An idle worker takes the next item. -/
def take (q : Queue) (worker : Nat) : Option (Item × Queue) :=
  match q.workers[worker]?, q.items with
  | some .idle, .request d :: rest =>
    some (.request d, { q with items := rest }.setActivity worker (.deleting d))
  | some .idle, .stopMarker :: rest =>
    some (.stopMarker, { q with items := rest }.setActivity worker .ended)
  | _, _ => none

/-- A worker is done with its segment. -/
def finish (q : Queue) (worker : Nat) : Queue :=
  match q.workers[worker]? with
  | some (.deleting _) => q.setActivity worker .idle
  | _ => q

/-- A caller that drains the queue takes the next request. It takes a stop marker off the front too,
but puts it back at the end and is done then. -/
def takeForDrain (q : Queue) : Option Deletion × Queue :=
  match q.items with
  | [] => (none, q)
  | .stopMarker :: rest => (none, { q with items := rest ++ [.stopMarker] })
  | .request d :: rest => (some d, { q with items := rest })

variable {σ : Type}

/-- Draws items off a list up to its end or a stop marker: the number of requests, what is left and
the effect of acting on each request. -/
def drainItems (act : Deletion → σ → σ) : List Item → σ → Nat × List Item × σ
  | [], s => (0, [], s)
  | .stopMarker :: rest, s => (0, rest ++ [.stopMarker], s)
  | .request d :: rest, s =>
    let (n, left, s) := drainItems act rest (act d s)
    (n + 1, left, s)

/-- Acts on every pending request and counts them. -/
def drain (act : Deletion → σ → σ) (q : Queue) (s : σ) : Nat × Queue × σ :=
  let (n, left, s) := drainItems act q.items s
  (n, { q with items := left }, s)

/-- What a worker leaves behind when nobody interferes: the items after the first stop marker,
whether there was one, and the effect of acting on each request before it. -/
def workItems (act : Deletion → σ → σ) : List Item → σ → Bool × List Item × σ
  | [], s => (false, [], s)
  | .stopMarker :: rest, s => (true, rest, s)
  | .request d :: rest, s => workItems act rest (act d s)

/-- Lets a worker go on until the queue is empty or it has taken a stop marker. -/
def work (act : Deletion → σ → σ) (worker : Nat) (q : Queue) (s : σ) : Queue × σ :=
  let (ended, left, s) := workItems act q.items s
  ({ q with items := left }.setActivity worker (if ended then .ended else .idle), s)

end Queue

end Deletion

end SegmentSwap
