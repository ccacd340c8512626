import SegmentSwap.Proofs.Tables.Sameness
import SegmentSwap.Proofs.Traffic.Alone

/-!
# Records under other names

A record says which table it is of, and whoever reads it takes its word for that. So a call on a
table whose record names another table writes the record of the table that is named. It leaves all
other files as they are, the record that it has read among them.
-/

namespace SegmentSwap

open TableName (IsOf)

namespace Record

/-- The table that the document of a record names. -/
def named? (bytes : List UInt8) : Option Text :=
  match Text.Utf8.decode bytes with
  | .error _ => none
  | .ok text =>
    match Json.read text with
    | .error _ => none
    | .ok v => (v.field? "lineage").bind fun d => (d.field? "table_name").map Json.Value.plain

theorem named?_of_ofBytes {path : String} {bytes : List UInt8} {r : Versioned}
    (h : ofBytes path bytes = .ok r) : named? bytes = some r.lineage.table := by
  obtain ⟨text, v, hdecode, hread, hrecord⟩ := ofBytes_eq_ok h
  obtain ⟨d, w, hd, hw, htable⟩ := table_of_ofJson hrecord
  unfold named?
  rw [hdecode]
  dsimp only
  rw [hread, htable]
  simp [hd, hw]

end Record

namespace FileStore

/-- The table that the record of a table names: the table itself, if there is no record. -/
def named (s : FileStore) (table : Text) : Text :=
  match s.folder.get? (TableName.record table) with
  | some (.file bytes _) => (Record.named? bytes).getD table
  | _ => table

/-- What a call on a table may have done to a store: nobody else has been at work, no files have
changed but those of the table that the record of its own table names, and that is still the table
of what is read. -/
structure Confined (table : Text) (s s' : FileStore) : Prop where
  rival : s'.rival = .none
  kept : s.folder.Keeps (IsOf (s.named table)) s'.folder
  others : ∀ other name, other ≠ s.named table → IsOf other name →
    s'.folder.get? name = s.folder.get? name
  reads : ∀ r, s'.read table = .ok r → r.lineage.table = s.named table

variable {s s' : FileStore} {table : Text} {l : Lineage}

/-- What is read of a table is a lineage of the table that its record names. -/
theorem named_of_read {r : Versioned} (h : s.read table = .ok r) :
    r.lineage.table = s.named table := by
  obtain ⟨-, ⟨hnone, rfl⟩ | ⟨bytes, modified, hfile, hbytes⟩⟩ := read_eq_ok h
  · unfold named
    rw [hnone]
    rfl
  · unfold named
    rw [hfile]
    dsimp only
    rw [Record.named?_of_ofBytes hbytes]
    rfl

theorem confined_refl (h : s.rival = .none) (table : Text) : s.Confined table s :=
  ⟨h, Folder.Keeps.refl _ _, fun _ _ _ _ => rfl, fun _ => named_of_read⟩

/-- What is read of a table after a write is what has been written or what was read before. -/
theorem table_of_read_write (h : s.rival = .none) (expected : Option Version) {r : Versioned}
    (hread : (s.write l expected).2.read table = .ok r) :
    r.lineage.table = l.table ∨ s.read table = .ok r := by
  have hroot : (s.write l expected).2.root = s.root :=
    congrArg (fun x => x.1) (keeps_write h l expected).setting
  by_cases hne : table = l.table
  · subst hne
    rcases record_write h l expected with hsame | ⟨-, hversion, modified, hrecord⟩
    · rw [read_congr hroot hsame] at hread
      exact .inr hread
    · obtain ⟨haccepted, ⟨hnone, -⟩ | ⟨bytes, modified', hfile, hbytes⟩⟩ := read_eq_ok hread
      · rw [hnone] at hrecord
        cases hrecord
      · rw [hrecord] at hfile
        obtain ⟨rfl, -⟩ := Node.file.inj (Option.some.inj hfile)
        have hwhole := TableName.isWhole_of_isAccepted haccepted
        exact .inl (Record.table_of_bytes hwhole hversion hbytes)
  · have hsame : (s.write l expected).2.folder.get? (TableName.record table) =
        s.folder.get? (TableName.record table) :=
      get?_write_of_ne h hne (TableName.isOf_record table)
    rw [read_congr hroot hsame] at hread
    exact .inr hread

/-- A write of a lineage that has been read of a table is confined. -/
theorem Confined.write (h : s.Confined table s') (hl : l.table = s.named table)
    (expected : Option Version) : s.Confined table (s'.write l expected).2 where
  rival := rival_write h.rival
  kept := by
    have hwritten := (keeps_write h.rival l expected).folder
    rw [hl] at hwritten
    exact h.kept.trans hwritten
  others other name hne hname := by
    rw [← hl] at hne
    rw [get?_write_of_ne h.rival hne hname]
    exact h.others other name (hl ▸ hne) hname
  reads r hread := by
    rcases table_of_read_write h.rival expected hread with htable | hbefore
    · exact htable.trans hl
    · exact h.reads r hbefore

end FileStore

/-- What a call on a table may have done to a world with a file store. -/
def World.Confined (table : Text) (s : FileStore) (w : World) : Prop :=
  w.races = [] ∧ ∃ s', w.store = .files s' ∧ s.Confined table s'

section Calls

variable {s : FileStore} {w : World} {table : Text} {c : Call} {phase : Phase}

theorem World.Confined.writeContested (h : w.Confined table s) {l : Lineage}
    (hl : l.table = s.named table) (expected : Option Version) :
    (w.writeContested l expected).2.Confined table s := by
  obtain ⟨hraces, s', hstore, hconfined⟩ := h
  obtain ⟨hrival, hkept, hothers, hreads⟩ := hconfined.write hl expected
  rw [writeContested_of_quiet hraces]
  unfold World.writeStore
  dsimp only
  rw [hstore]
  exact ⟨hraces, _, rfl, hrival, hkept, hothers, hreads⟩

theorem World.Confined.notes (h : w.Confined table s) (events : List Event) :
    World.Confined table s (events.foldl (fun w e => w.note e) w) := by
  obtain ⟨reported, hnoted⟩ := foldl_note_eq events w
  rw [hnoted]
  exact h

/-- Every answer to a call on a table is confined, and the call keeps to the table that the record
names. -/
theorem World.Confined.step (h : w.Confined table s) (hcall : c.table = table)
    (hbased : phase.Based (fun _ => True) fun _ read => read.lineage.table = s.named table) :
    (Call.step services c phase w).2.Confined table s ∧
      (Call.step services c phase w).1.Based (fun _ => True)
        fun _ read => read.lineage.table = s.named table := by
  constructor
  · cases phase with
    | writing a plan =>
      obtain ⟨read, hread, -, hplan⟩ := hbased
      exact (h.writeContested (hplan.trans hread) plan.expected).notes _
    | queueing entry b rest =>
      show World.Confined table s (w.enqueue c.table b.segments b.reason)
      obtain ⟨reported, hqueued⟩ := enqueue_eq c.table b.segments b.reason w
      rw [hqueued]
      exact h
    | _ => exact h
  · obtain ⟨-, s', hstore, hconfined⟩ := h
    refine hbased.serve _ (fun _ _ read hread => ?_) fun _ _ _ => trivial
    have hfound : s'.read table = .ok read := by
      have hfile : w.store.read c.table = .ok read := hread
      rw [hstore, hcall] at hfile
      exact mapError_eq_ok_iff.mp hfile
    exact hconfined.reads read hfound

theorem World.Confined.call (h : w.Confined table s) (request : Request) :
    (w.call table request).2.Confined table s := by
  let c : Call := ⟨table, request, w.limits.attempts, w.limits.generations⟩
  let P : Phase → World → Prop := fun phase v => v.Confined table s ∧
    phase.Based (fun _ => True) fun _ read => read.lineage.table = s.named table
  have hstep : ∀ phase v, P phase v →
      P (Call.step services c phase v).1 (Call.step services c phase v).2 :=
    fun phase v hv => hv.1.step rfl hv.2
  have hbegin : P c.begin w := ⟨h, Phase.based_begin fun _ => trivial⟩
  exact (Call.run_invariant hstep hbegin).1

end Calls

/-- Whatever the records of a store consist of, a lineage that is read of a table is one of the
table that its record names, and a call on the table changes no files but those of the table that is
named. So it keeps to its own table if there is no record or the record names it. -/
theorem calls_follow_records (s : FileStore) (table : Text) (hrival : s.rival = .none) :
    (∀ r, s.read table = .ok r → r.lineage.table = s.named table) ∧
    (s.folder.get? (TableName.record table) = none → s.named table = table) ∧
    ∀ w : World, w.store = .files s → w.races = [] → ∀ request,
      ∃ s', (w.call table request).2.store = .files s' ∧
        (∀ name, ¬ IsOf (s.named table) name → s'.folder.get? name = s.folder.get? name) ∧
        ∀ other name, other ≠ s.named table → IsOf other name →
          s'.folder.get? name = s.folder.get? name := by
  refine ⟨fun r => FileStore.named_of_read, fun hnone => ?_, fun w hw hraces request => ?_⟩
  · unfold FileStore.named
    rw [hnone]
  · have hbefore : w.Confined table s := ⟨hraces, s, hw, FileStore.confined_refl hrival table⟩
    obtain ⟨-, s', hstore, hconfined⟩ := hbefore.call request
    exact ⟨s', hstore, hconfined.kept, hconfined.others⟩

/-- A lineage of one table. -/
def strayLineage : Lineage := ⟨"u", [], List.nodup_nil⟩

/-- A store in which the record of this table has been put in the place of another one's. -/
def misplacedStore : FileStore :=
  { FileStore.create "lineage" (.whole 1) with
    folder := ⟨[("t.json", .file (Record.bytes strayLineage 0) 0)]⟩ }

theorem misplacedStore_read :
    misplacedStore.read "t" = .ok ⟨strayLineage, some (.ofCount 0)⟩ := by
  have hbytes : Record.ofBytes "lineage/t.json" (Record.bytes strayLineage 0) =
      .ok ⟨strayLineage, some (.ofCount 0)⟩ :=
    Record.ofBytes_of_storable (by decide) (by decide +kernel) _
  have hrecord : misplacedStore.readRecord "t" =
      (Record.ofBytes "lineage/t.json" (Record.bytes strayLineage 0)).map some := rfl
  unfold FileStore.read
  rw [hrecord, hbytes]
  rfl

theorem calls_follow_records_misplaced : misplacedStore.rival = .none ∧
    misplacedStore.named "t" = "u" ∧
    ∃ s', ((World.create .default ⟨[]⟩ (.files misplacedStore)).call "t"
        (.start [] ["x"] false)).2.store = .files s' ∧
      s'.folder.get? "t.json" = some (.file (Record.bytes strayLineage 0) 0) := by
  obtain ⟨hreads, -, hcalls⟩ := calls_follow_records misplacedStore "t" rfl
  have hnamed : "u" = misplacedStore.named "t" := hreads _ misplacedStore_read
  obtain ⟨s', hstore, -, hothers⟩ := hcalls (World.create .default ⟨[]⟩ (.files misplacedStore)) rfl
    rfl (.start [] ["x"] false)
  refine ⟨rfl, hnamed.symm, s', hstore, ?_⟩
  exact hothers "t" _ (by rw [← hnamed]; decide) (TableName.isOf_record "t")

/-- What is read of a table can be a lineage of another one. -/
theorem misplaced_record_accepted : TableName.isAccepted "t" = true ∧
    ¬ ∀ r, misplacedStore.read "t" = .ok r → r.lineage.table = "t" := by
  refine ⟨rfl, fun h => ?_⟩
  have htable : ("u" : Text) = "t" := h _ misplacedStore_read
  exact absurd htable (by decide)

end SegmentSwap
