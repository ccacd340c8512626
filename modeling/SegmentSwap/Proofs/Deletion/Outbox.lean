import SegmentSwap.Proofs.Deletion.Undone
import SegmentSwap.Session.World

/-!
# The queue among its callers

Callers that enqueue, drain or stop go on one operation of the queue at a time: they put an item at
its end, take the item at its front or let the trigger delete a segment. Between any two of these
others may act, callers as well as workers. In particular the marker that a draining caller takes
can come back behind requests that are added later.

A caller that stops the worker puts its marker and looks up the worker that it waits for in one
step here. Where these are two, a stop that overlaps the end of another one can find that there is
no worker any more: it then fails, with its marker in the queue.

Beside the world there is a history. It says who has put which request on the queue, what has been
taken from it and handed to the trigger, and which stop markers there are. A marker is told from
the others by the requests that were put on the queue before it was first put there.
-/

namespace SegmentSwap

/-- What a worker does after it has taken an item. -/
def Deletion.Item.activity : Deletion.Item → Deletion.Activity
  | .request d => .deleting d
  | .stopMarker => .ended

namespace Deletion.Queue

/-- Puts an item at the end. -/
def put (q : Queue) (i : Item) : Queue := { q with items := q.items ++ [i] }

/-- Takes the item at the front. -/
def pop (q : Queue) : Option (Item × Queue) :=
  match q.items with
  | [] => none
  | i :: rest => some (i, { q with items := rest })

variable {q q' : Queue} {i : Item} {d : Deletion} {worker : Nat}

/-- A stopping caller without interference puts a marker if it knows of a worker. -/
theorem requestStop_eq_put (q : Queue) :
    q.requestStop = (q.current?, if q.current?.isSome then q.put .stopMarker else q) := by
  obtain ⟨items, workers, current⟩ := q
  cases current <;> rfl

theorem pending_put_request : (q.put (.request d)).pending = q.pending ++ [d] := by
  simp [pending, put, List.filterMap_append]

theorem pending_put_marker : (q.put .stopMarker).pending = q.pending := by
  simp [pending, put, List.filterMap_append]

theorem pop_eq_some (h : q.pop = some (i, q')) :
    q.items = i :: q'.items ∧ q'.workers = q.workers ∧ q'.current? = q.current? := by
  unfold pop at h
  cases hitems : q.items with
  | nil =>
    rw [hitems] at h
    cases h
  | cons j rest =>
    rw [hitems] at h
    cases h
    exact ⟨rfl, rfl, rfl⟩

theorem pending_of_request (h : q.items = .request d :: q'.items) :
    q.pending = d :: q'.pending := by
  unfold pending
  rw [h]
  rfl

theorem pending_of_marker (h : q.items = .stopMarker :: q'.items) : q.pending = q'.pending := by
  unfold pending
  rw [h]
  rfl

/-- A worker takes the item at the front as well, and goes on with it or ends. -/
theorem take_eq_some (h : q.take worker = some (i, q')) :
    q.items = i :: q'.items ∧ q.workers[worker]? = some .idle ∧
      q'.workers = q.workers.set worker i.activity := by
  unfold take at h
  split at h
  · rename_i hworker hitems
    cases h
    exact ⟨hitems, hworker, rfl⟩
  · rename_i hworker hitems
    cases h
    exact ⟨hitems, hworker, rfl⟩
  · cases h

end Deletion.Queue

namespace Outbox

/-- What a caller asks for. -/
inductive Task where
  | enqueue (table : Text) (names : List Text) (reason : Text)
  | drain
  | stop
  deriving DecidableEq

/-- How far a caller has come. -/
inductive Stage where
  /-- It enqueues and has these requests left. -/
  | adding (left : List Deletion)
  /-- It drains and is about to take an item. -/
  | drawing
  /-- It drains and lets the trigger delete a segment. -/
  | deleting (d : Deletion)
  /-- It drains and has to put a stop marker back. -/
  | returning (mark : List Deletion)
  /-- It stops a worker and is about to put its marker. -/
  | stopping
  /-- It has put its marker and waits for the worker. -/
  | joining
  /-- It has returned. -/
  | finished
  deriving DecidableEq

/-- A caller of the queue. -/
structure Caller where
  task : Task
  stage : Stage
  deriving DecidableEq

/-- What has happened to requests and markers. -/
structure History where
  /-- The requests that were put on the queue, each with the caller that put it there. -/
  added : List (Nat × Deletion)
  /-- The requests that were taken from the queue. -/
  taken : List Deletion
  /-- The requests that the trigger was called for. -/
  called : List Deletion
  /-- The markers of stopping callers. -/
  stops : List (List Deletion)
  /-- The markers that stand in the queue, in its order. -/
  marks : List (List Deletion)
  /-- The markers that workers have ended on, each with what had been taken by then. -/
  exits : List (List Deletion × List Deletion)

/-- The requests that a task puts on the queue: one for each name, in the order of first
occurrences. -/
def Task.requests : Task → List Deletion
  | .enqueue table names reason => (Text.distinct names).map (⟨table, ·, reason⟩)
  | _ => []

/-- The requests that a caller has still to put on the queue. -/
def Stage.left : Stage → List Deletion
  | .adding left => left
  | _ => []

/-- The request that a caller acts on. -/
def Stage.requests : Stage → List Deletion
  | .deleting d => [d]
  | _ => []

/-- The marker that a caller has to put back. -/
def Stage.held : Stage → List (List Deletion)
  | .returning mark => [mark]
  | _ => []

/-- The first stage of a task. A stop without a worker returns at once. -/
def Task.begin (q : Deletion.Queue) : Task → Stage
  | .enqueue table names reason => .adding (Task.enqueue table names reason).requests
  | .drain => .drawing
  | .stop => if q.current?.isSome then .stopping else .finished

/-- Something that happens around the queue. -/
inductive Act where
  /-- A client calls. -/
  | call (task : Task)
  /-- A worker is started, unless there is one. -/
  | start
  /-- A caller goes on. A stopping one may have waited long enough at any time. -/
  | proceed (caller : Nat)
  /-- An idle worker takes the next item. -/
  | take (worker : Nat)
  /-- A worker lets the trigger delete the segment that it has taken. -/
  | work (worker : Nat)

end Outbox

/-- A world in which callers are under way, and its history. -/
structure Outbox where
  world : World
  callers : List Outbox.Caller
  history : Outbox.History

namespace Outbox

/-- An empty queue in some world. -/
def opened (w : World) : Outbox :=
  ⟨{ w with queue := .empty }, [], ⟨[], [], [], [], [], []⟩⟩

/-- The queue. -/
def queue (o : Outbox) : Deletion.Queue := o.world.queue

/-- The outbox with another queue. -/
def withQueue (o : Outbox) (q : Deletion.Queue) : Outbox := { o with world.queue := q }

/-- The requests put on the queue so far. -/
def added (o : Outbox) : List Deletion := o.history.added.map (·.2)

/-- A caller reaches a stage. -/
def advance (o : Outbox) (caller : Nat) (c : Caller) (s : Stage) : Outbox :=
  { o with callers := o.callers.set caller { c with stage := s } }

/-- A caller puts a request on the queue. -/
def addRequest (o : Outbox) (caller : Nat) (d : Deletion) : Outbox :=
  { o.withQueue (o.queue.put (.request d)) with
    history.added := o.history.added ++ [(caller, d)] }

/-- A marker is put on the queue. -/
def addMarker (o : Outbox) (mark : List Deletion) : Outbox :=
  { o.withQueue (o.queue.put .stopMarker) with history.marks := o.history.marks ++ [mark] }

/-- A request has been taken, which leaves the queue `q`. -/
def takeRequest (o : Outbox) (d : Deletion) (q : Deletion.Queue) : Outbox :=
  { o.withQueue q with history.taken := o.history.taken ++ [d] }

/-- The first marker has been taken, which leaves the queue `q`. -/
def takeMarker (o : Outbox) (q : Deletion.Queue) : Outbox :=
  { o.withQueue q with history.marks := o.history.marks.tail }

/-- The trigger is called for a request. -/
def handle (o : Outbox) (d : Deletion) : Outbox :=
  { o with world := o.world.delete d, history.called := o.history.called ++ [d] }

/-- The marker that stands first in the queue. -/
def firstMark (o : Outbox) : List Deletion := o.history.marks.headD []

/-- A caller goes on. -/
def proceed (o : Outbox) (caller : Nat) (c : Caller) : Outbox :=
  match c.stage with
  | .adding [] => o.advance caller c .finished
  | .adding (d :: rest) => (o.addRequest caller d).advance caller c (.adding rest)
  | .drawing =>
    match o.queue.pop with
    | none => o.advance caller c .finished
    | some (.request d, q) => (o.takeRequest d q).advance caller c (.deleting d)
    | some (.stopMarker, q) => (o.takeMarker q).advance caller c (.returning o.firstMark)
  | .deleting d => (o.handle d).advance caller c .drawing
  | .returning mark => (o.addMarker mark).advance caller c .finished
  | .stopping =>
    -- From the marker to the wait is one step: no other stop comes to its end in between.
    { o.addMarker o.added with history.stops := o.history.stops ++ [o.added] }.advance
      caller c .joining
  | .joining => (o.withQueue o.queue.forget).advance caller c .finished
  | .finished => o

/-- A worker has ended on the first marker, which leaves the queue `q`. -/
def exit (o : Outbox) (q : Deletion.Queue) : Outbox :=
  { o.takeMarker q with history.exits := o.history.exits ++ [(o.firstMark, o.history.taken)] }

/-- What happens next. -/
def act (o : Outbox) : Act → Outbox
  | .call task => { o with callers := o.callers ++ [⟨task, task.begin o.queue⟩] }
  | .start => o.withQueue o.queue.start
  | .proceed caller =>
    match o.callers[caller]? with
    | some c => o.proceed caller c
    | none => o
  | .take worker =>
    match o.queue.take worker with
    | some (.request d, q) => o.takeRequest d q
    | some (.stopMarker, q) => o.exit q
    | none => o
  | .work worker =>
    match o.queue.workers[worker]? with
    | some (.deleting d) => (o.withQueue (o.queue.finish worker)).handle d
    | _ => o

/-- What happens one after the other. -/
def run (acts : List Act) (o : Outbox) : Outbox := acts.foldl act o

/-- What a caller leaves that nobody interferes with: the items that stand in the queue before and
after, and the requests that it calls the trigger for. A drain ends at a marker, which it puts back
behind everything else. -/
inductive Settles : Stage → List Deletion.Item → List Deletion.Item → List Deletion → Prop where
  | adding (left : List Deletion) (items : List Deletion.Item) :
      Settles (.adding left) items (items ++ left.map .request) []
  | emptied (front : List Deletion) : Settles .drawing (front.map .request) [] front
  | halted (front : List Deletion) (rest : List Deletion.Item) :
      Settles .drawing (front.map .request ++ .stopMarker :: rest) (rest ++ [.stopMarker]) front
  | deleting {items items' : List Deletion.Item} {called : List Deletion} (d : Deletion)
      (h : Settles .drawing items items' called) : Settles (.deleting d) items items' (d :: called)
  | returning (mark : List Deletion) (items : List Deletion.Item) :
      Settles (.returning mark) items (items ++ [.stopMarker]) []
  | stopping (items : List Deletion.Item) : Settles .stopping items (items ++ [.stopMarker]) []
  | joining (items : List Deletion.Item) : Settles .joining items items []
  | finished (items : List Deletion.Item) : Settles .finished items items []

/-- How callers begin. -/
inductive Begins (q : Deletion.Queue) : Task → Stage → Prop where
  | enqueue (table : Text) (names : List Text) (reason : Text) :
      Begins q (.enqueue table names reason) (.adding (Task.enqueue table names reason).requests)
  | drain : Begins q .drain .drawing
  | stop (h : q.current?.isSome = true) : Begins q .stop .stopping
  | unneeded (h : q.current? = none) : Begins q .stop .finished

theorem begins (q : Deletion.Queue) (task : Task) : Begins q task (task.begin q) := by
  cases task with
  | enqueue table names reason => exact .enqueue table names reason
  | drain => exact .drain
  | stop =>
    unfold Task.begin
    dsimp only
    split
    · rename_i h
      exact .stop h
    · rename_i h
      exact .unneeded (Option.not_isSome_iff_eq_none.mp h)

/-- The queue that a session leaves when it carries out a task at once. -/
def Task.leaves (w : World) : Task → Deletion.Queue
  | .enqueue table names reason => (w.enqueue table names reason).queue
  | .drain => w.drain.2.queue
  | .stop => w.queue.requestStop.2.forget

/-- A caller has come to its end without interference. -/
structure Settled (o : Outbox) (i : Nat) (c : Caller) (o' : Outbox) : Prop where
  finished : o'.callers[i]? = some { c with stage := .finished }
  settles : ∃ called, Settles c.stage o.queue.items o'.queue.items called ∧
    o'.history.called = o.history.called ++ called
  atOnce : c.stage = c.task.begin o.queue → o'.queue = c.task.leaves o.world

section Alone

open Deletion (Item Queue)

variable {o : Outbox} {i : Nat} {c : Caller} {task : Task}

/-- A world with another queue. -/
def setQueue (w : World) (q : Deletion.Queue) : World := { w with queue := q }

theorem delete_setQueue (d : Deletion) (w : World) (q : Deletion.Queue) :
    (setQueue w q).delete d = setQueue (w.delete d) q := by
  unfold World.delete World.note setQueue
  dsimp only
  split <;> rfl

theorem queue_delete (d : Deletion) (w : World) : (w.delete d).queue = w.queue := by
  unfold World.delete
  split <;> rfl

theorem getElem?_advance {s : Stage} (hc : o.callers[i]? = some c) :
    (o.advance i c s).callers[i]? = some { c with stage := s } := by
  have hi := (List.getElem?_eq_some_iff.mp hc).1
  exact List.getElem?_set_self hi

theorem run_succ (n : Nat) : o.run (List.replicate (n + 1) (.proceed i)) =
    (o.act (.proceed i)).run (List.replicate n (.proceed i)) := rfl

theorem act_proceed (hc : o.callers[i]? = some c) : o.act (.proceed i) = o.proceed i c := by
  unfold act
  dsimp only
  rw [hc]

theorem run_adding (left : List Deletion) (hc : o.callers[i]? = some ⟨task, .adding left⟩) :
    (o.run (List.replicate (left.length + 1) (.proceed i))).callers[i]? = some ⟨task, .finished⟩ ∧
      (o.run (List.replicate (left.length + 1) (.proceed i))).queue =
        { o.queue with items := o.queue.items ++ left.map .request } ∧
      (o.run (List.replicate (left.length + 1) (.proceed i))).history.called =
        o.history.called := by
  induction left generalizing o with
  | nil =>
    have hrun : o.run (List.replicate 1 (.proceed i)) = o.advance i ⟨task, .adding []⟩ .finished :=
      act_proceed hc
    rw [List.length_nil, hrun]
    exact ⟨getElem?_advance hc, by rw [List.map_nil, List.append_nil]; rfl, rfl⟩
  | cons d left ih =>
    rw [List.length_cons, run_succ, act_proceed hc]
    obtain ⟨hover, hqueue, hcalled⟩ := ih (o := (o.addRequest i d).advance i
      ⟨task, .adding (d :: left)⟩ (.adding left)) (getElem?_advance hc)
    refine ⟨hover, hqueue.trans ?_, hcalled⟩
    show ({ o.queue.put (.request d) with items := o.queue.items ++ [_] ++ _ } : Queue) = _
    rw [List.append_assoc]
    rfl

/-- A caller that enqueues without interference. -/
theorem settled_adding {left : List Deletion} (hc : o.callers[i]? = some ⟨task, .adding left⟩) :
    Settled o i ⟨task, .adding left⟩ (o.run (List.replicate (left.length + 1) (.proceed i))) := by
  obtain ⟨hover, hqueue, hcalled⟩ := run_adding left hc
  refine ⟨hover, ⟨[], ?_, hcalled.trans (List.append_nil _).symm⟩, fun hbegin => ?_⟩
  · rw [hqueue]
    exact .adding left o.queue.items
  · have hbegins := begins o.queue task
    rw [← hbegin] at hbegins
    cases hbegins with
    | enqueue table names reason =>
      have henqueue : (World.enqueue table names reason o.world).queue =
          o.queue.enqueue table names reason := by
        unfold World.enqueue World.note
        dsimp only
        split <;> rfl
      rw [hqueue]
      refine Eq.trans ?_ henqueue.symm
      unfold Task.requests Queue.enqueue
      rw [List.map_map]
      rfl

theorem drainItems_setQueue (items : List Item) (w : World) (q : Deletion.Queue) :
    Queue.drainItems World.delete items (setQueue w q) =
      ((Queue.drainItems World.delete items w).1, (Queue.drainItems World.delete items w).2.1,
        setQueue (Queue.drainItems World.delete items w).2.2 q) := by
  induction items generalizing w with
  | nil => rfl
  | cons item items ih =>
    cases item with
    | stopMarker => rfl
    | request d =>
      unfold Queue.drainItems
      rw [delete_setQueue, ih]

/-- A drain leaves what its last step leaves. -/
theorem drain_eq (w : World) : w.drain.2 =
    setQueue (Queue.drainItems World.delete w.queue.items w).2.2
      { w.queue with items := (Queue.drainItems World.delete w.queue.items w).2.1 } := rfl

theorem drain_of_request {w : World} {d : Deletion} {q : Deletion.Queue}
    (hpop : w.queue.pop = some (.request d, q)) :
    w.drain.2 = ((setQueue w q).delete d).drain.2 := by
  obtain ⟨hitems, hworkers, hcurrent⟩ := Queue.pop_eq_some hpop
  have hstep : Queue.drainItems World.delete (.request d :: q.items) w =
      ((Queue.drainItems World.delete q.items (w.delete d)).1 + 1,
        (Queue.drainItems World.delete q.items (w.delete d)).2) := rfl
  rw [drain_eq, drain_eq, delete_setQueue, drainItems_setQueue, hitems, hstep]
  unfold setQueue
  dsimp only
  rw [hworkers, hcurrent]

theorem drain_of_marker {w : World} {q : Deletion.Queue}
    (hpop : w.queue.pop = some (.stopMarker, q)) : w.drain.2 = setQueue w (q.put .stopMarker) := by
  obtain ⟨hitems, hworkers, hcurrent⟩ := Queue.pop_eq_some hpop
  rw [drain_eq, hitems]
  unfold Queue.drainItems setQueue Queue.put
  dsimp only
  rw [hworkers, hcurrent]

theorem drain_of_empty {w : World} (hpop : w.queue.pop = none) : w.drain.2 = w := by
  have hitems : w.queue.items = [] := by
    unfold Queue.pop at hpop
    cases hitems : w.queue.items with
    | nil => rfl
    | cons item rest =>
      rw [hitems] at hpop
      cases hpop
  rw [drain_eq, hitems]
  unfold Queue.drainItems setQueue
  dsimp only
  rw [← hitems]

theorem Settles.cons {items items' : List Item} {called : List Deletion}
    (h : Settles .drawing items items' called) (d : Deletion) :
    Settles .drawing (.request d :: items) items' (d :: called) := by
  cases h with
  | emptied => exact .emptied (d :: called)
  | halted _ rest => exact .halted (d :: called) rest

/-- A caller that drains the queue without interference. -/
theorem run_drawing (items : List Item) (hc : o.callers[i]? = some ⟨task, .drawing⟩)
    (hitems : o.queue.items = items) :
    ∃ n called, (o.run (List.replicate n (.proceed i))).callers[i]? = some ⟨task, .finished⟩ ∧
      (o.run (List.replicate n (.proceed i))).world = o.world.drain.2 ∧
      Settles .drawing items (o.run (List.replicate n (.proceed i))).queue.items called ∧
      (o.run (List.replicate n (.proceed i))).history.called = o.history.called ++ called := by
  induction items generalizing o with
  | nil =>
    have hpop : o.queue.pop = none := by
      unfold Queue.pop
      rw [hitems]
    have hrun : o.act (.proceed i) = o.advance i ⟨task, .drawing⟩ .finished := by
      rw [act_proceed hc, proceed]
      dsimp only
      rw [hpop]
    refine ⟨1, [], ?_⟩
    rw [run_succ, hrun]
    refine ⟨getElem?_advance hc, (drain_of_empty hpop).symm, ?_, (List.append_nil _).symm⟩
    show Settles .drawing [] o.queue.items []
    rw [hitems]
    exact .emptied []
  | cons item rest ih =>
    have hpop : o.queue.pop = some (item, { o.queue with items := rest }) := by
      unfold Queue.pop
      rw [hitems]
    cases item with
    | stopMarker =>
      have hrun : o.act (.proceed i) = (o.takeMarker { o.queue with items := rest }).advance i
          ⟨task, .drawing⟩ (.returning o.firstMark) := by
        rw [act_proceed hc, proceed]
        dsimp only
        rw [hpop]
      have hreturning := getElem?_advance (o := o.takeMarker { o.queue with items := rest })
        (s := .returning o.firstMark) hc
      refine ⟨2, [], ?_⟩
      rw [run_succ, run_succ, hrun, act_proceed hreturning]
      refine ⟨getElem?_advance hreturning, ?_, .halted [] rest, (List.append_nil _).symm⟩
      rw [drain_of_marker hpop]
      rfl
    | request d =>
      have hrun : o.act (.proceed i) = (o.takeRequest d { o.queue with items := rest }).advance i
          ⟨task, .drawing⟩ (.deleting d) := by
        rw [act_proceed hc, proceed]
        dsimp only
        rw [hpop]
      have hdeleting := getElem?_advance (o := o.takeRequest d { o.queue with items := rest })
        (s := .deleting d) hc
      have hdrawing := getElem?_advance (s := .drawing)
        (o := ((o.takeRequest d { o.queue with items := rest }).advance i ⟨task, .drawing⟩
          (.deleting d)).handle d) hdeleting
      obtain ⟨n, called, hover, hworld, hsettles, hcalled⟩ := ih hdrawing
        (congrArg Queue.items (queue_delete d _))
      refine ⟨n + 2, d :: called, ?_⟩
      rw [run_succ, run_succ, hrun, act_proceed hdeleting]
      refine ⟨hover, hworld.trans ?_, hsettles.cons d, hcalled.trans ?_⟩
      · rw [drain_of_request hpop]
        rfl
      · exact List.append_assoc o.history.called [d] called

/-- Whoever is left alone comes to an end. -/
theorem settled_of_alone (hc : o.callers[i]? = some c) :
    ∃ n, Settled o i c (o.run (List.replicate n (.proceed i))) := by
  obtain ⟨task, stage⟩ := c
  have hbegins := begins o.queue task
  cases stage with
  | adding left => exact ⟨_, settled_adding hc⟩
  | drawing =>
    obtain ⟨n, called, hover, hworld, hsettles, hcalled⟩ := run_drawing _ hc rfl
    refine ⟨n, hover, ⟨called, hsettles, hcalled⟩, fun hbegin => ?_⟩
    rw [← hbegin] at hbegins
    cases hbegins
    exact congrArg World.queue hworld
  | deleting d =>
    have hstep : o.act (.proceed i) = (o.handle d).advance i ⟨task, .deleting d⟩ .drawing :=
      act_proceed hc
    have hdrawing := getElem?_advance (o := o.handle d) (s := .drawing) hc
    obtain ⟨n, called, hover, -, hsettles, hcalled⟩ := run_drawing _ hdrawing
      (congrArg Queue.items (queue_delete d o.world))
    refine ⟨n + 1, ?_⟩
    rw [run_succ, hstep]
    refine ⟨hover, ⟨d :: called, .deleting d hsettles, ?_⟩, fun hbegin => ?_⟩
    · exact hcalled.trans (List.append_assoc o.history.called [d] called)
    · rw [← hbegin] at hbegins
      cases hbegins
  | returning mark =>
    refine ⟨1, ?_⟩
    rw [run_succ, act_proceed hc]
    refine ⟨getElem?_advance hc, ⟨[], .returning mark _, (List.append_nil _).symm⟩, fun hbegin => ?_⟩
    rw [← hbegin] at hbegins
    cases hbegins
  | stopping =>
    have hjoining := getElem?_advance (s := .joining)
      (o := { o.addMarker o.added with history.stops := o.history.stops ++ [o.added] }) hc
    refine ⟨2, ?_⟩
    rw [run_succ, run_succ, act_proceed hc]
    unfold proceed
    dsimp only
    rw [act_proceed hjoining]
    refine ⟨getElem?_advance hjoining, ⟨[], .stopping _, (List.append_nil _).symm⟩, fun hbegin => ?_⟩
    rw [← hbegin] at hbegins
    cases hbegins with
    | stop h =>
      have hleaves : Task.stop.leaves o.world = (o.queue.put .stopMarker).forget := by
        unfold Task.leaves
        dsimp only
        rw [Queue.requestStop_eq_put]
        exact congrArg Queue.forget (if_pos h)
      exact hleaves.symm
  | joining =>
    refine ⟨1, ?_⟩
    rw [run_succ, act_proceed hc]
    refine ⟨getElem?_advance hc, ⟨[], .joining _, (List.append_nil _).symm⟩, fun hbegin => ?_⟩
    rw [← hbegin] at hbegins
    cases hbegins
  | finished =>
    refine ⟨0, hc, ⟨[], .finished _, (List.append_nil _).symm⟩, fun hbegin => ?_⟩
    rw [← hbegin] at hbegins
    cases hbegins with
    | unneeded h =>
      have hleaves : Task.stop.leaves o.world = o.queue.forget := by
        unfold Task.leaves
        dsimp only
        rw [Queue.requestStop_eq_put]
        refine congrArg Queue.forget (if_neg ?_)
        rw [show o.world.queue.current? = none from h]
        decide
      have hforget : o.queue.forget = o.queue := by
        unfold Queue.forget
        rw [← h]
      exact (hleaves.trans hforget).symm

end Alone

end Outbox

end SegmentSwap
