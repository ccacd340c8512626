import SegmentSwap.Deletion.Queue
import SegmentSwap.Protocol.Call
import SegmentSwap.Store.Memory

/-!
# Traffic on a table

Any number of calls on one table are under way at the same time. They share a site: the records, the
registry and the deletion queue. A move either gives one of the calls its next answer or is made by
somebody else: a client begins a call, segments are registered or placed, a request is taken from
the queue or acted on, the table is dropped. A run is a list of moves, so that what holds after
every run holds for every order in which answers can come.
-/

namespace SegmentSwap

/-- What the calls on a table share. -/
structure Site where
  /-- The records. -/
  memory : Memory
  /-- The segments. -/
  registry : Registry
  /-- The modes of tables. -/
  modes : TableModes
  /-- The deletion queue and its workers. -/
  queue : Deletion.Queue
  /-- The requests that callers who drain the queue have taken and not yet acted on. -/
  taken : List Deletion
  /-- What hands out the attempts of calls. -/
  retrying : Retry.Retrying Failure

/-- What an answer depends on beside the site. -/
structure Chance where
  /-- The id that is minted. -/
  id : Text
  /-- The time that the clock shows. -/
  stamp : Text
  /-- How the service fails, if it is out of order. -/
  outage? : Option Failure

/-- The answer of a service that may be out of order. -/
def Chance.answer {α : Type} (chance : Chance) (a : α) : Except Failure α :=
  match chance.outage? with
  | some f => .error f
  | none => .ok a

/-- The wait after a lost attempt. It may fail like a service. -/
def Chance.pause (chance : Chance) : Retry.Pause Failure := chance.outage?.elim .elapsed .unknown

/-- The services of a site. Only writing and queueing change it. -/
def Site.services (chance : Chance) : Services Site where
  mint := fun s => (chance.id, s)
  mode := fun table s => (chance.answer (s.modes.of table), s)
  read := fun table s => (chance.answer (s.memory.read table), s)
  registered := fun table s => (chance.answer (s.registry.segments table), s)
  available := fun table segment s => (chance.answer (s.registry.isAvailable table segment), s)
  stamp := fun s => (chance.stamp, s)
  write := fun l expected s =>
    (.ok (s.memory.write l expected).1, { s with memory := (s.memory.write l expected).2 })
  enqueue := fun table segments reason s =>
    { s with queue := s.queue.enqueue table segments reason }
  note := fun _ s => s
  retrying := Site.retrying
  obstacle? := fun _ => chance.outage?
  pause := fun _ _ => chance.pause

/-- A site and the calls under way. -/
structure Traffic where
  /-- The site. -/
  site : Site
  /-- The calls, those that have returned included. -/
  clients : List Client

/-- Something that happens on a table. -/
inductive Move where
  /-- A client begins a call. -/
  | enter (request : Request) (attempts generations : Int)
  /-- A call gets its next answer. -/
  | proceed (client : Nat) (chance : Chance)
  /-- Segments are registered, and placed if asked to. -/
  | add (segments : List Text) (placed : Bool)
  /-- A segment is placed, if it is registered. -/
  | place (segment : Text)
  /-- The registry changes in any way. -/
  | upset (registry : Registry)
  /-- The record of the table is removed. -/
  | drop
  /-- A worker is started. -/
  | startWorker
  /-- The worker is asked to stop. -/
  | requestStop
  /-- The worker is given up. -/
  | forget
  /-- An idle worker takes the next item off the queue. -/
  | take (worker : Nat)
  /-- A worker acts on the request that it has taken. -/
  | work (worker : Nat) (succeeds : Bool)
  /-- A caller that drains the queue takes the next request. -/
  | draw
  /-- A caller that drains the queue acts on a request that it has taken. -/
  | settle (position : Nat) (succeeds : Bool)

/-- A call gets a number of answers in a row, none of them a failure. -/
def Move.answers (client count : Nat) (id : Text) : List Move :=
  List.replicate count (.proceed client ⟨id, "", none⟩)

/-- Whether a move removes the record. -/
def Move.isDrop : Move → Bool
  | .drop => true
  | _ => false

/-- Whether a move changes the registry at will. -/
def Move.isUpset : Move → Bool
  | .upset _ => true
  | _ => false

namespace Site

/-- A site without records, where some segments of a table are placed. -/
def holding (table : Text) (mode : Mode) (segments : List Text) : Site :=
  ⟨.empty, Registry.empty.add table segments true, ⟨[(table, mode)]⟩, .empty, [],
    .standard (.loop .drained)⟩

/-- Acts on a request: the registry forgets the segment, unless the deletion fails. -/
def delete (d : Deletion) (succeeds : Bool) (s : Site) : Site :=
  if succeeds then { s with registry := s.registry.delete d.table d.segment } else s

/-- A worker acts on the request that it has taken. -/
def work (worker : Nat) (succeeds : Bool) (s : Site) : Site :=
  match s.queue.workers[worker]? with
  | some (.deleting d) => { s with queue := s.queue.finish worker }.delete d succeeds
  | _ => s

/-- A caller that drains the queue takes the next request. -/
def draw (s : Site) : Site :=
  match s.queue.takeForDrain with
  | (some d, q) => { s with queue := q, taken := s.taken ++ [d] }
  | (none, q) => { s with queue := q }

/-- A caller that drains the queue acts on a request that it has taken. -/
def settle (position : Nat) (succeeds : Bool) (s : Site) : Site :=
  match s.taken[position]? with
  | some d => { s with taken := s.taken.eraseIdx position }.delete d succeeds
  | none => s

end Site

namespace Traffic

/-- A site on which no call is under way. -/
def idle (s : Site) : Traffic := ⟨s, []⟩

/-- A call gets its next answer. -/
def proceed (client : Nat) (chance : Chance) (t : Traffic) : Traffic :=
  match t.clients[client]? with
  | none => t
  | some c =>
    let next := Call.step (Site.services chance) c.call c.phase t.site
    ⟨next.2, t.clients.set client ⟨c.call, next.1⟩⟩

/-- What a move on a table leads to. -/
def act (table : Text) (t : Traffic) : Move → Traffic
  | .enter request attempts generations =>
    let c : Call := ⟨table, request, attempts, generations⟩
    { t with clients := t.clients ++ [⟨c, c.begin⟩] }
  | .proceed client chance => t.proceed client chance
  | .add segments placed =>
    { t with site.registry := t.site.registry.add table segments placed }
  | .place segment =>
    match t.site.registry.place table segment with
    | .ok r => { t with site.registry := r }
    | .error _ => t
  | .upset r => { t with site.registry := r }
  | .drop => { t with site.memory := t.site.memory.delete table }
  | .startWorker => { t with site.queue := t.site.queue.start }
  | .requestStop => { t with site.queue := t.site.queue.requestStop.2 }
  | .forget => { t with site.queue := t.site.queue.forget }
  | .take worker =>
    match t.site.queue.take worker with
    | some (_, q) => { t with site.queue := q }
    | none => t
  | .work worker succeeds => { t with site := t.site.work worker succeeds }
  | .draw => { t with site := t.site.draw }
  | .settle position succeeds => { t with site := t.site.settle position succeeds }

/-- What moves one after the other lead to. -/
def run (table : Text) (moves : List Move) (t : Traffic) : Traffic := moves.foldl (act table) t

/-- The lineage of the table. -/
def lineage (table : Text) (t : Traffic) : Lineage := (t.site.memory.read table).lineage

/-- A site without a record of the table has an empty lineage of it. -/
theorem lineage_idle {table : Text} {s : Site} (h : s.memory.get? table = none) :
    (idle s).lineage table = .empty table := by
  simp [lineage, idle, Memory.read, h]

/-- What every allowed move keeps holds after every run of allowed moves. -/
theorem run_induction {table : Text} {Allowed : Move → Prop} {Inv : Traffic → Prop}
    (step : ∀ t m, Allowed m → Inv t → Inv (t.act table m)) :
    ∀ (moves : List Move) (t : Traffic), (∀ m ∈ moves, Allowed m) → Inv t →
      Inv (t.run table moves) := by
  intro moves
  induction moves with
  | nil => intro t _ h; exact h
  | cons m moves ih =>
    intro t hm h
    have hnext : Inv (t.act table m) := step t m (hm m List.mem_cons_self) h
    exact ih _ (fun m' hm' => hm m' (List.mem_cons_of_mem m hm')) hnext

end Traffic

end SegmentSwap
