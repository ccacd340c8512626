import Mathlib.Logic.Function.Basic
import SegmentSwap.Session.World

/-!
# Orders on many tables

One world serves the calls and queries on any number of tables, and they go on one answer at a time
in any order. Beside them the store is read and written, records are removed and the registry
changes. What an order meets by chance is given with it: the time, the ids and tags that come next
and whether the registry lists segments.
-/

namespace SegmentSwap

/-- What is given with an order. -/
structure Circumstance where
  /-- The time of day. -/
  clock : Time.Instant
  /-- How many ids have been minted. -/
  minted : Nat
  /-- How often writers have waited, which is the time for the store. -/
  polls : Nat
  /-- How many tokens and tags of the store have been used up. -/
  used : Nat
  /-- Whether the registry lists segments. -/
  isListing : Bool

/-- The store in given circumstances. -/
def Store.given (c : Circumstance) (s : Store) : Store :=
  s.mapFiles fun f => { f with polls := c.polls, used := c.used }

/-- The world in given circumstances. -/
def World.given (c : Circumstance) (w : World) : World :=
  { w with
    clock := c.clock
    minted := c.minted
    isListing := c.isListing
    store := w.store.given c }

/-- What is asked for. -/
inductive Order where
  /-- The store reads a record. -/
  | read (table : Text)
  /-- The store writes a lineage. -/
  | write (l : Lineage) (expected : Option Version)
  /-- The store removes a record. -/
  | delete (table : Text)
  /-- The lineage of a table is removed. -/
  | drop (table : Text)
  /-- A call on a table begins. -/
  | enter (table : Text) (request : Request)
  /-- A call gets its next answer. -/
  | proceed (table : Text) (call : Nat)
  /-- A query for the served segments of a table begins. -/
  | ask (table : Text)
  /-- A query gets its next answer. -/
  | hear (table : Text) (query : Nat)
  /-- The entries are asked for that have been in progress for longer than a span. -/
  | stale (table : Text) (span : Time.Span)
  /-- Segments are registered, and placed if asked to. -/
  | add (table : Text) (segments : List Text) (placed : Bool)
  /-- A segment is placed. -/
  | place (table segment : Text)
  /-- The registry forgets a segment. -/
  | forget (table segment : Text)

/-- The table that an order is about. -/
def Order.table : Order → Text
  | .read table => table
  | .write l _ => l.table
  | .delete table => table
  | .drop table => table
  | .enter table _ => table
  | .proceed table _ => table
  | .ask table => table
  | .hear table _ => table
  | .stale table _ => table
  | .add table _ _ => table
  | .place table _ => table
  | .forget table _ => table

/-- What an order returns. -/
inductive Reply where
  | found (r : Except Failure Versioned)
  | written (r : Except Failure Bool)
  | removed (r : Except Failure Unit)
  /-- How far a call has come, its result if it has returned. -/
  | reached (phase : Phase)
  /-- How far a query has come, its result if it has returned. -/
  | heard (query : ServedQuery)
  | stale (r : Except Failure (List Entry))
  | registered (r : Except RegistryFault Unit)
  /-- There is no such call or query. -/
  | nobody

/-- A world with the calls and queries that are under way on each table. -/
structure Bureau where
  world : World
  calls : Text → List Client
  queries : Text → List ServedQuery

namespace Bureau

/-- A bureau that has just opened, over records in memory or in a new directory. -/
def opened (limits : Limits) (modes : TableModes) (directory? : Option (String × Quantity)) :
    Bureau where
  world := World.create limits modes
    (match directory? with
      | none => .memory .empty
      | some (root, timeout) => .files (.create root timeout))
  calls _ := []
  queries _ := []

/-- The bureau with other calls on a table. -/
def setCalls (b : Bureau) (table : Text) (cs : List Client) : Bureau :=
  { b with calls := Function.update b.calls table cs }

/-- The bureau with other queries on a table. -/
def setQueries (b : Bureau) (table : Text) (qs : List ServedQuery) : Bureau :=
  { b with queries := Function.update b.queries table qs }

/-- The bureau with another registry. -/
def setRegistry (b : Bureau) (r : Registry) : Bureau := { b with world.registry := r }

/-- Carries out an order. -/
def perform (b : Bureau) : Order → Reply × Bureau
  | .read table => (.found (b.world.store.read table), b)
  | .write l expected =>
    let (r, w) := b.world.writeStore l expected
    (.written r, { b with world := w })
  | .delete table =>
    let (r, w) := b.world.deleteRecord table
    (.removed r, { b with world := w })
  | .drop table =>
    let (r, w) := b.world.drop table
    (.removed r, { b with world := w })
  | .enter table request =>
    let c : Call := ⟨table, request, b.world.limits.attempts, b.world.limits.generations⟩
    (.reached c.begin, b.setCalls table (b.calls table ++ [⟨c, c.begin⟩]))
  | .proceed table call =>
    match (b.calls table)[call]? with
    | none => (.nobody, b)
    | some c =>
      let (phase, w) := Call.step World.services c.call c.phase b.world
      (.reached phase,
        { b with world := w }.setCalls table ((b.calls table).set call ⟨c.call, phase⟩))
  | .ask table => (.heard .reading, b.setQueries table (b.queries table ++ [.reading]))
  | .hear table query =>
    match (b.queries table)[query]? with
    | none => (.nobody, b)
    | some q =>
      let (q, w) := ServedQuery.step World.services table q b.world
      (.heard q, { b with world := w }.setQueries table ((b.queries table).set query q))
  | .stale table span =>
    let (r, w) := b.world.stale table span
    (.stale r, { b with world := w })
  | .add table segments placed =>
    (.registered (.ok ()), b.setRegistry (b.world.registry.add table segments placed))
  | .place table segment =>
    match b.world.registry.place table segment with
    | .ok r => (.registered (.ok ()), b.setRegistry r)
    | .error f => (.registered (.error f), b)
  | .forget table segment =>
    (.registered (.ok ()), b.setRegistry (b.world.registry.delete table segment))

/-- Carries out an order in the circumstances that are given with it. -/
def act (b : Bureau) (o : Circumstance × Order) : Reply × Bureau :=
  { b with world := b.world.given o.1 }.perform o.2

/-- Carries out orders one after the other. -/
def run (orders : List (Circumstance × Order)) (b : Bureau) : Bureau :=
  orders.foldl (fun b o => (b.act o).2) b

/-- What the orders on a table return in a run. -/
def replies (table : Text) : List (Circumstance × Order) → Bureau → List Reply
  | [], _ => []
  | o :: orders, b =>
    if o.2.table = table then (b.act o).1 :: replies table orders (b.act o).2
    else replies table orders (b.act o).2

/-- The orders on a table. -/
def on (table : Text) (orders : List (Circumstance × Order)) : List (Circumstance × Order) :=
  orders.filter fun o => decide (o.2.table = table)

end Bureau

end SegmentSwap
