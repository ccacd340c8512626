import SegmentSwap.Lineage.Entry
import SegmentSwap.Text.Sorted

/-!
# The lineage of a table

A lineage lists the entries of one table in the order in which they were started. No id occurs
twice. A lineage grows at its end by `append`, and `replace` swaps entries for updated copies in
place, which it takes from the pending updates one after the other; the whole value is the unit of
conditional writes.
-/

namespace SegmentSwap

/-- The entries of one table. -/
structure Lineage where
  /-- The table. -/
  table : Text
  /-- The entries, the oldest first. -/
  entries : List Entry
  /-- No two entries have the same id. -/
  distinct : (entries.map Entry.id).Nodup
  deriving DecidableEq, Repr

/-- Why there is no such lineage. -/
inductive LineageFault where
  /-- Two entries share an id. -/
  | duplicateIds (table : Text)
  /-- The id of a new entry is in use. -/
  | idTaken (id table : Text)
  /-- An update changes the segments of an entry. -/
  | listsChanged (id : Text)
  /-- Updates name entries that do not exist. -/
  | unknownIds (ids : List Text)
  deriving DecidableEq, Repr

/-- The wording of a lineage fault. -/
def LineageFault.message : LineageFault → Text
  | .duplicateIds table => "Duplicate lineage entry ids in lineage for '" ++ table ++ "'."
  | .idTaken id table => "Lineage entry '" ++ id ++ "' already exists for '" ++ table ++ "'."
  | .listsChanged id => "Segment lists of lineage entry '" ++ id ++ "' are immutable."
  | .unknownIds ids => "Cannot replace unknown lineage entries: " ++ Text.joined ", " ids ++ "."

/-- Updates that have not been put in the places of entries yet, one for each id. -/
structure Pending where
  /-- The updates. -/
  updates : List Entry
  /-- No two updates have the same id. -/
  distinct : (updates.map Entry.id).Nodup
  deriving DecidableEq, Repr

namespace Pending

/-- No updates. -/
def empty : Pending := ⟨[], List.nodup_nil⟩

/-- The ids that there are updates for. -/
def ids (p : Pending) : List Text := p.updates.map Entry.id

/-- The update for an id. -/
def get? (p : Pending) (id : Text) : Option Entry := p.updates.find? (·.id == id)

/-- The updates without the one for an id. -/
def remove (p : Pending) (id : Text) : Pending :=
  ⟨p.updates.filter (·.id != id), p.distinct.sublist (List.filter_sublist.map Entry.id)⟩

/-- The updates with one more, which takes the place of another one for the same id. -/
def put (p : Pending) (u : Entry) : Pending :=
  ⟨u :: (p.remove u.id).updates, List.nodup_cons.mpr ⟨by simp [remove], (p.remove u.id).distinct⟩⟩

/-- Some updates, each of which takes the place of those for the same id before it. -/
def ofList (updates : List Entry) : Pending := updates.foldl put empty

/-- What becomes of an entry: the update for its id, or the entry itself if there is none. -/
def updated (p : Pending) (e : Entry) : Entry := (p.get? e.id).getD e

/-- What becomes of an entry, and the updates for other ids. -/
def take (p : Pending) (e : Entry) : Entry × Pending := (p.updated e, p.remove e.id)

end Pending

namespace Lineage

/-- The lineage of a table without entries. -/
def empty (table : Text) : Lineage := ⟨table, [], List.nodup_nil⟩

instance : Inhabited Lineage := ⟨empty ""⟩

/-- The lineage with the given entries, if their ids differ. -/
def create (table : Text) (entries : List Entry) : Except LineageFault Lineage :=
  if h : (entries.map Entry.id).Nodup then .ok ⟨table, entries, h⟩
  else .error (.duplicateIds table)

theorem create_eq_ok_iff {l : Lineage} {table : Text} {entries : List Entry} :
    create table entries = .ok l ↔ l.table = table ∧ l.entries = entries := by
  unfold create
  constructor
  · intro h
    split at h
    · cases h
      exact ⟨rfl, rfl⟩
    · cases h
  · rintro ⟨rfl, rfl⟩
    rw [dif_pos l.distinct]

/-- The ids of the entries. -/
def ids (l : Lineage) : List Text := l.entries.map Entry.id

/-- The entry of an id. -/
def get? (l : Lineage) (id : Text) : Option Entry := l.entries.find? (·.id == id)

/-- The entries in one of the given states. -/
def inStates (l : Lineage) (states : List State) : List Entry :=
  l.entries.filter fun e => decide (e.state ∈ states)

/-- The entries in progress. -/
def running (l : Lineage) : List Entry := l.entries.filter fun e => decide (e.state = .inProgress)

/-- The completed entries. -/
def completed (l : Lineage) : List Entry := l.entries.filter fun e => decide (e.state = .completed)

/-- The lineage with a new entry at its end. -/
def append (l : Lineage) (e : Entry) : Except LineageFault Lineage :=
  if h : e.id ∈ l.ids then .error (.idTaken e.id l.table)
  else .ok ⟨l.table, l.entries ++ [e], by
    rw [List.map_append, List.nodup_append]
    refine ⟨l.distinct, by simp, ?_⟩
    intro a ha b hb hab
    simp only [List.map_cons, List.map_nil, List.mem_singleton] at hb
    exact h (by rw [← hb, ← hab]; exact ha)⟩

/-- Entries with the pending updates put in their places, and the updates that are left over then.
It ends at the first entry whose segments an update would change. -/
def exchange : List Entry → Pending → Except LineageFault (List Entry × Pending)
  | [], pending => .ok ([], pending)
  | e :: rest, pending =>
    let (next, left) := pending.take e
    if next.sameLists e then
      (exchange rest left).map fun (entries, left) => (next :: entries, left)
    else .error (.listsChanged e.id)

/-- The lineage with entries swapped for updated copies. Every update names an entry of the lineage
and leaves its segments alone. -/
def replace (l : Lineage) (updates : List Entry) : Except LineageFault Lineage := do
  let (entries, left) ← exchange l.entries (.ofList updates)
  if left.updates.isEmpty then create l.table entries
  else .error (.unknownIds (Text.sortedSet left.ids))

end Lineage

end SegmentSwap
