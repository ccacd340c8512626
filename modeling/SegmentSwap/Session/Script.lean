import SegmentSwap.Session.Step

/-!
# Sessions

A session is a list of steps in one world. With each answer it reports how often the store has
waited for a lock, what was reported on the way, and how a table that is watched stands after the
step. While a worker is running, it empties the queue after each step.
-/

namespace SegmentSwap

/-- How a watched table stands. -/
structure Watch where
  /-- The version of its record. -/
  version? : Option Version
  /-- The states of its entries. -/
  states : List State
  /-- The number of items in the deletion queue. -/
  pending : Nat
  deriving Repr

/-- What a session reports on one step. -/
structure StepReport where
  /-- The answer of the step. -/
  answer : Except Failure Answer
  /-- How often the store has waited for a lock. -/
  polls : Nat
  /-- What was reported, unless a worker is running. -/
  events? : Option (List Event)
  /-- How the watched table stands, if there is one. -/
  watch? : Option (Except Failure Watch)

/-- What a session reports. -/
structure SessionReport where
  /-- What it reports on each step. -/
  steps : List StepReport
  /-- How the watched table stands in the end, if there is one. -/
  final? : Option (Except Failure Snapshot)

namespace World

/-- How a table stands. -/
def watch (table : Text) (w : World) : Except Failure Watch :=
  (w.store.read table).map fun r =>
    ⟨r.version?, r.lineage.entries.map Entry.state, w.queue.pendingCount⟩

/-- The world at the start of a step: the clock of the store is set back and nobody is in its way.
-/
def refreshed (w : World) : World :=
  { w with
    store := w.store.mapFiles fun f => { f with polls := 0, rival := .none }
    events := [] }

/-- Does a step and reports on it. -/
def report (watched? : Option Text) (step : Step) (w : World) : StepReport × World :=
  let (answer, w) := w.refreshed.perform step
  let w := w.work
  let polls := (w.store.files?.map FileStore.polls).getD 0
  let events? := if w.queue.isRunning then none else some w.events
  (⟨answer, polls, events?, watched?.map fun table => w.watch table⟩, w)

/-- Does steps one after the other. -/
def play (watched? : Option Text) : List Step → World → List StepReport × World
  | [], w => ([], w)
  | step :: rest, w =>
    let (r, w) := w.report watched? step
    let (rs, w) := play watched? rest w
    (r :: rs, w)

/-- Runs a session. -/
def run (watched? : Option Text) (steps : List Step) (w : World) : SessionReport :=
  let (reports, w) := w.play watched? steps
  ⟨reports, watched?.map fun table => w.snapshot table⟩

end World

end SegmentSwap
