import SegmentSwap.Proofs.Deletion.Undone
import SegmentSwap.Proofs.Store.Faithful
import SegmentSwap.Proofs.Traffic.Basis
import SegmentSwap.Session.Bureau

/-!
# The same table in two worlds

What a call on a table sees and changes is that table's share of a world: its record or its files,
its segments and its requests. Two worlds in which a table is the same answer a call on it alike and
leave it the same, and a call leaves all other tables the same.

It takes an invariant that every record is one of the table that it is kept under: a call writes the
lineage that it has read, whichever table that lineage names.
-/

namespace SegmentSwap

open TableName (IsOf)

/-- The files of a table are the same in two stores in which nobody else is at work. -/
structure FileStore.Same (table : Text) (s s' : FileStore) : Prop where
  rival : s.rival = .none
  rival' : s'.rival = .none
  root : s'.root = s.root
  timeout : s'.timeout = s.timeout
  trouble : s'.trouble? = s.trouble?
  clock : s'.clock = s.clock
  files : s.folder.AgreeOn (IsOf table) s'.folder

/-- A table has the same record in two stores. -/
def Store.Same (table : Text) : Store → Store → Prop
  | .memory m, .memory m' => m'.get? table = m.get? table
  | .files f, .files f' => f.Same table f'
  | _, _ => False

/-- A table is the same in two worlds in which nobody else is at work. -/
structure World.Same (table : Text) (w w' : World) : Prop where
  store : Store.Same table w.store w'.store
  limits : w'.limits = w.limits
  modes : w'.modes = w.modes
  registry : w.registry.Same table w'.registry
  requests : (w'.queue.pending.filter fun d => d.table == table) =
    w.queue.pending.filter fun d => d.table == table
  races : w.races = []
  races' : w'.races = []

/-- The parts of a world that hold something of tables. -/
def World.holdings (w : World) :
    Store × Limits × TableModes × Registry × Deletion.Queue × List RaceAction :=
  (w.store, w.limits, w.modes, w.registry, w.queue, w.races)

section Stores

variable {s s' s'' : Store} {f f' f'' : FileStore} {table other : Text} {l : Lineage}

theorem FileStore.Same.trans (h : f.Same table f') (h' : f'.Same table f'') :
    f.Same table f'' where
  rival := h.rival
  rival' := h'.rival'
  root := h'.root.trans h.root
  timeout := h'.timeout.trans h.timeout
  trouble := h'.trouble.trans h.trouble
  clock := h'.clock.trans h.clock
  files name hname := (h.files name hname).trans (h'.files name hname)

theorem FileStore.Agree.same (h : f.Agree table f') : f.Same table f' :=
  ⟨h.rival, h.rival', h.root, h.timeout, h.trouble, h.clock, h.files⟩

theorem FileStore.Same.agree (h : f.Same table f') (polls used : Nat) :
    FileStore.Agree table { f with polls := polls, used := used }
      { f' with polls := polls, used := used } :=
  ⟨h.rival, h.rival', h.root, h.timeout, rfl, rfl, h.trouble, h.clock, h.files⟩

/-- Stores in which a table is the same are of one kind. -/
theorem Store.Same.cases (h : s.Same table s') :
    (∃ m m', s = .memory m ∧ s' = .memory m' ∧ m'.get? table = m.get? table) ∨
      ∃ f f', s = .files f ∧ s' = .files f' ∧ f.Same table f' := by
  cases s with
  | memory m =>
    cases s' with
    | memory m' => exact .inl ⟨m, m', rfl, rfl, h⟩
    | files f' => exact h.elim
  | files f =>
    cases s' with
    | memory m' => exact h.elim
    | files f' => exact .inr ⟨f, f', rfl, rfl, h⟩

theorem Store.Same.trans (h : s.Same table s') (h' : s'.Same table s'') : s.Same table s'' := by
  cases s <;> cases s' <;> cases s'' <;> first
    | exact Eq.trans h' h
    | exact FileStore.Same.trans h h'
    | exact h.elim
    | exact h'.elim

theorem Store.Same.given (h : s.Same table s') (c c' : Circumstance) :
    (s.given c).Same table (s'.given c') := by
  obtain ⟨m, m', rfl, rfl, hrecord⟩ | ⟨f, f', rfl, rfl, hfiles⟩ := h.cases
  · exact hrecord
  · exact ⟨hfiles.rival, hfiles.rival', hfiles.root, hfiles.timeout, hfiles.trouble, hfiles.clock,
      hfiles.files⟩

theorem Store.Same.read (h : s.Same table s') (c : Circumstance) :
    (s'.given c).read table = (s.given c).read table := by
  obtain ⟨m, m', rfl, rfl, hrecord⟩ | ⟨f, f', rfl, rfl, hfiles⟩ := h.cases
  · show Except.ok (m'.read table) = .ok (m.read table)
    unfold Memory.read
    rw [hrecord]
  · show (FileStore.read _ table).mapError _ = (FileStore.read _ table).mapError _
    rw [(hfiles.agree c.polls c.used).read]

theorem Store.Same.write (h : s.Same l.table s') (c : Circumstance) (expected : Option Version) :
    ((s'.given c).write l expected).1 = ((s.given c).write l expected).1 ∧
      Store.Same l.table ((s.given c).write l expected).2 ((s'.given c).write l expected).2 := by
  obtain ⟨m, m', rfl, rfl, hrecord⟩ | ⟨f, f', rfl, rfl, hfiles⟩ := h.cases
  · have hversion : m'.version? l.table = m.version? l.table := by
      unfold Memory.version?
      rw [hrecord]
    show Except.ok (m'.write l expected).1 = .ok (m.write l expected).1 ∧
      (m'.write l expected).2.get? l.table = (m.write l expected).2.get? l.table
    unfold Memory.write
    rw [hversion]
    split
    · exact ⟨rfl, Memory.get?_put_self.trans Memory.get?_put_self.symm⟩
    · exact ⟨rfl, hrecord⟩
  · obtain ⟨hresult, hafter⟩ := (hfiles.agree c.polls c.used).write expected
    exact ⟨congrArg (Except.mapError Failure.store) hresult, hafter.same⟩

theorem Store.Same.delete (h : s.Same table s') (c : Circumstance) :
    ((s'.given c).delete table).1 = ((s.given c).delete table).1 ∧
      Store.Same table ((s.given c).delete table).2 ((s'.given c).delete table).2 := by
  obtain ⟨m, m', rfl, rfl, -⟩ | ⟨f, f', rfl, rfl, hfiles⟩ := h.cases
  · exact ⟨rfl, Memory.get?_delete_self.trans Memory.get?_delete_self.symm⟩
  · obtain ⟨hresult, hafter⟩ := (hfiles.agree c.polls c.used).delete
    exact ⟨congrArg (Except.mapError Failure.store) hresult, hafter.same⟩

theorem Store.Faithful.given (h : s.Faithful) (c : Circumstance) : (s.given c).Faithful := by
  cases s with
  | memory m => exact h
  | files f =>
    obtain ⟨hrival, hrecords⟩ : f.Faithful := h
    exact FileStore.Faithful.mk hrival hrecords

theorem Store.Faithful.same (h : s.Faithful) (table : Text) : s.Same table s := by
  cases s with
  | memory m => exact rfl
  | files f =>
    have hrival := FileStore.Faithful.rival h
    exact ⟨hrival, hrival, rfl, rfl, rfl, rfl, fun _ _ => rfl⟩

theorem Store.Faithful.same_given (h : s.Faithful) (table : Text) (c : Circumstance) :
    s.Same table (s.given c) := by
  cases s with
  | memory m => exact rfl
  | files f =>
    have hrival := FileStore.Faithful.rival h
    exact ⟨hrival, hrival, rfl, rfl, rfl, rfl, fun _ _ => rfl⟩

/-- What changes files of other tables only leaves a table as it is. -/
theorem FileStore.Keeps.same {touched : String → Prop} (h : f.Keeps touched f')
    (hrival : f.rival = .none)
    (hfiles : ∀ name, IsOf table name → f'.folder.get? name = f.folder.get? name) :
    f.Same table f' where
  rival := hrival
  rival' := h.rival.trans hrival
  root := congrArg (fun x => x.1) h.setting
  timeout := congrArg (fun x => x.2.1) h.setting
  trouble := congrArg (fun x => x.2.2.2.1) h.setting
  clock := congrArg (fun x => x.2.2.2.2) h.setting
  files name hname := (hfiles name hname).symm

/-- Writing a lineage leaves the other tables as they are. -/
theorem Store.Faithful.same_write (h : s.Faithful) (hne : table ≠ l.table)
    (expected : Option Version) : s.Same table (s.write l expected).2 := by
  cases s with
  | memory m =>
    show (m.write l expected).2.get? table = m.get? table
    unfold Memory.write
    split
    · exact Memory.get?_put_of_ne hne
    · rfl
  | files f =>
    have hrival := FileStore.Faithful.rival h
    exact (FileStore.keeps_write hrival l expected).same hrival fun name hname =>
      FileStore.get?_write_of_ne hrival hne hname

/-- Removing a record leaves the other tables as they are. -/
theorem Store.Faithful.same_delete (h : s.Faithful) (hne : other ≠ table) :
    s.Same other (s.delete table).2 := by
  cases s with
  | memory m => exact Memory.get?_delete_of_ne hne
  | files f =>
    have hrival := FileStore.Faithful.rival h
    exact (FileStore.keeps_delete hrival table).same hrival fun name hname =>
      FileStore.get?_delete_of_ne hrival hne hname

end Stores

section Worlds

variable {w w' w'' v v' : World} {table : Text} {l : Lineage}

theorem World.Same.trans (h : w.Same table w') (h' : w'.Same table w'') : w.Same table w'' where
  store := h.store.trans h'.store
  limits := h'.limits.trans h.limits
  modes := h'.modes.trans h.modes
  registry := h.registry.trans h'.registry
  requests := h'.requests.trans h.requests
  races := h.races
  races' := h'.races'

/-- The clock, the ids, the trigger and all that is reported make no difference. -/
theorem World.Same.congr (h : w.Same table w') (hv : v.holdings = w.holdings)
    (hv' : v'.holdings = w'.holdings) : v.Same table v' := by
  simp only [World.holdings, Prod.mk.injEq] at hv hv'
  obtain ⟨hstore, hlimits, hmodes, hregistry, hqueue, hraces⟩ := hv
  obtain ⟨hstore', hlimits', hmodes', hregistry', hqueue', hraces'⟩ := hv'
  constructor
  · rw [hstore, hstore']
    exact h.store
  · rw [hlimits, hlimits', h.limits]
  · rw [hmodes, hmodes', h.modes]
  · rw [hregistry, hregistry']
    exact h.registry
  · rw [hqueue, hqueue', h.requests]
  · rw [hraces, h.races]
  · rw [hraces', h.races']

/-- The same table in the same circumstances. -/
theorem World.Same.given (h : w.Same table w') (c c' : Circumstance) :
    (w.given c).Same table (w'.given c') :=
  ⟨h.store.given c c', h.limits, h.modes, h.registry, h.requests, h.races, h.races'⟩

theorem World.Same.list (h : w.Same table w') (c : Circumstance) :
    (w'.given c).list table = (w.given c).list table := by
  unfold World.list World.given
  dsimp only
  rw [h.registry.segments_eq]

/-- What a store reports makes no difference. -/
theorem Store.Same.withStore {s s' : Store} (h : w.Same table w') (hs : s.Same table s') :
    (w.withStore s).Same table (w'.withStore s') := by
  obtain ⟨m, m', rfl, rfl, hrecord⟩ | ⟨f, f', rfl, rfl, hfiles⟩ := hs.cases
  · exact ⟨hrecord, h.limits, h.modes, h.registry, h.requests, h.races, h.races'⟩
  · exact ⟨⟨hfiles.rival, hfiles.rival', hfiles.root, hfiles.timeout, hfiles.trouble,
      hfiles.clock, hfiles.files⟩, h.limits, h.modes, h.registry, h.requests, h.races, h.races'⟩

theorem World.Same.writeStore (h : w.Same l.table w') (c : Circumstance)
    (expected : Option Version) :
    ((w'.given c).writeStore l expected).1 = ((w.given c).writeStore l expected).1 ∧
      World.Same l.table ((w.given c).writeStore l expected).2
        ((w'.given c).writeStore l expected).2 := by
  obtain ⟨hresult, hstore⟩ := h.store.write c expected
  exact ⟨hresult, hstore.withStore (h.given c c)⟩

theorem World.Same.deleteRecord (h : w.Same table w') (c : Circumstance) :
    ((w'.given c).deleteRecord table).1 = ((w.given c).deleteRecord table).1 ∧
      World.Same table ((w.given c).deleteRecord table).2
        ((w'.given c).deleteRecord table).2 := by
  obtain ⟨hresult, hstore⟩ := h.store.delete c
  exact ⟨hresult, hstore.withStore (h.given c c)⟩

/-- Without races a write of a call is one of the store. -/
theorem writeContested_of_quiet (h : w.races = []) (l : Lineage) (expected : Option Version) :
    w.writeContested l expected = { w with writes := w.writes + 1 }.writeStore l expected := by
  unfold World.writeContested
  dsimp only
  rw [h]

theorem World.Same.writeContested (h : w.Same l.table w') (c : Circumstance)
    (expected : Option Version) :
    ((w'.given c).writeContested l expected).1 = ((w.given c).writeContested l expected).1 ∧
      World.Same l.table ((w.given c).writeContested l expected).2
        ((w'.given c).writeContested l expected).2 := by
  have hcounted : World.Same l.table { w with writes := w.writes + 1 }
      { w' with writes := w'.writes + 1 } :=
    h.congr rfl rfl
  have hraces : (w.given c).races = [] := h.races
  have hraces' : (w'.given c).races = [] := h.races'
  rw [writeContested_of_quiet hraces, writeContested_of_quiet hraces']
  exact hcounted.writeStore c expected

theorem World.Same.drop (h : w.Same table w') (c : Circumstance) :
    ((w'.given c).drop table).1 = ((w.given c).drop table).1 ∧
      World.Same table ((w.given c).drop table).2 ((w'.given c).drop table).2 := by
  obtain ⟨hresult, hafter⟩ := h.deleteRecord c
  unfold World.drop
  generalize (w.given c).deleteRecord table = x at hresult hafter ⊢
  generalize (w'.given c).deleteRecord table = x' at hresult hafter ⊢
  obtain ⟨r, v⟩ := x
  obtain ⟨r', v'⟩ := x'
  obtain rfl : r' = r := hresult
  cases r' with
  | error f => exact ⟨rfl, hafter⟩
  | ok u =>
    exact ⟨rfl, hafter.congr rfl rfl⟩

theorem World.Same.stale (h : w.Same table w') (c : Circumstance) (span : Time.Span) :
    ((w'.given c).stale table span).1 = ((w.given c).stale table span).1 ∧
      World.Same table ((w.given c).stale table span).2 ((w'.given c).stale table span).2 := by
  have hread : (w'.given c).store.read table = (w.given c).store.read table := h.store.read c
  constructor
  · unfold World.stale World.readClock
    dsimp only
    rw [hread]
    rfl
  · exact (h.given c c).congr rfl rfl

/-- A query gets the same answer in both worlds. -/
theorem World.Same.look (h : w.Same table w') (c : Circumstance) (q : ServedQuery) :
    (ServedQuery.step World.services table q (w'.given c)).1 =
        (ServedQuery.step World.services table q (w.given c)).1 ∧
      World.Same table (ServedQuery.step World.services table q (w.given c)).2
        (ServedQuery.step World.services table q (w'.given c)).2 := by
  cases q with
  | reading =>
    refine ⟨?_, h.given c c⟩
    show ServedQuery.afterRead ((w'.store.given c).read table) = _
    rw [h.store.read]
    rfl
  | listing l =>
    refine ⟨?_, h.given c c⟩
    show ServedQuery.afterListing l ((w'.given c).list table) = _
    rw [h.list]
    rfl
  | done r => exact ⟨rfl, h.given c c⟩

theorem foldl_note_eq (events : List Event) (w : World) :
    ∃ reported, events.foldl (fun w e => w.note e) w = { w with events := reported } := by
  induction events generalizing w with
  | nil => exact ⟨w.events, rfl⟩
  | cons e events ih => exact ih (w.note e)

theorem World.Same.notes (h : w.Same table w') (events events' : List Event) :
    World.Same table (events.foldl (fun w e => w.note e) w)
      (events'.foldl (fun w e => w.note e) w') := by
  obtain ⟨reported, hw⟩ := foldl_note_eq events w
  obtain ⟨reported', hw'⟩ := foldl_note_eq events' w'
  rw [hw, hw']
  exact h.congr rfl rfl

theorem enqueue_eq (table : Text) (segments : List Text) (reason : Text) (w : World) :
    ∃ reported, w.enqueue table segments reason =
      { w with queue := w.queue.enqueue table segments reason, events := reported } := by
  unfold World.enqueue
  dsimp only
  split
  · exact ⟨w.events, rfl⟩
  · exact ⟨_, rfl⟩

theorem World.Same.enqueue (h : w.Same table w') (segments : List Text) (reason : Text) :
    (w.enqueue table segments reason).Same table (w'.enqueue table segments reason) := by
  obtain ⟨reported, hw⟩ := enqueue_eq table segments reason w
  obtain ⟨reported', hw'⟩ := enqueue_eq table segments reason w'
  rw [hw, hw']
  refine ⟨h.store, h.limits, h.modes, h.registry, ?_, h.races, h.races'⟩
  dsimp only
  rw [Deletion.Queue.pending_enqueue, Deletion.Queue.pending_enqueue, List.filter_append,
    List.filter_append, h.requests]

/-- A call gets the same answer in both worlds and leaves its table the same. -/
theorem World.Same.step (h : w.Same table w') (c : Circumstance) {call : Call} {phase : Phase}
    (hcall : call.table = table)
    (hbased : phase.Based (fun _ => True) fun _ read => read.lineage.table = table) :
    (Call.step World.services call phase (w'.given c)).1 =
        (Call.step World.services call phase (w.given c)).1 ∧
      World.Same table (Call.step World.services call phase (w.given c)).2
        (Call.step World.services call phase (w'.given c)).2 := by
  subst hcall
  have hgiven := h.given c c
  cases phase with
  | minting sources targets force =>
    exact ⟨rfl, hgiven.congr rfl rfl⟩
  | configuring id sources targets force =>
    refine ⟨?_, hgiven⟩
    show Call.afterMode id sources targets force (.ok (w'.modes.of call.table)) = _
    rw [h.modes]
    rfl
  | reading a =>
    rw [World.step_reading, World.step_reading]
    refine ⟨?_, hgiven⟩
    show call.afterRead a ((w'.store.given c).read call.table) = _
    rw [h.store.read]
    rfl
  | surveying a ticket sources targets force read =>
    refine ⟨?_, hgiven⟩
    show call.afterSurvey a ticket sources targets force read ((w'.given c).list call.table) = _
    rw [h.list]
    rfl
  | dating a ticket sources targets read registered =>
    exact ⟨rfl, hgiven.congr rfl rfl⟩
  | probing a read entry next rest found =>
    refine ⟨?_, hgiven⟩
    show call.afterProbe a read entry next rest found
      (.ok (w'.registry.isAvailable call.table next)) = _
    rw [h.registry.isAvailable_eq]
    rfl
  | closing a read entry =>
    exact ⟨rfl, hgiven.congr rfl rfl⟩
  | auditing a plan =>
    refine ⟨?_, hgiven⟩
    show Call.afterAudit a plan ((w'.given c).list call.table) = _
    rw [h.list]
    rfl
  | writing a plan =>
    obtain ⟨read, hread, -, hplan⟩ := hbased
    have htable : plan.lineage.table = call.table := hplan.trans hread
    rw [← htable] at h
    obtain ⟨hresult, hafter⟩ := h.writeContested c plan.expected
    rw [htable] at hafter
    constructor
    · show (call.afterWrite a plan ((services.retrying (w'.given c)).after
        (call.policy services (w'.given c)) a.number
        (Call.outcome ((w'.given c).writeContested plan.lineage plan.expected).1))).2 = _
      rw [hresult]
      rfl
    · exact hafter.notes _ _
  | queueing entry b rest => exact ⟨rfl, hgiven.enqueue b.segments b.reason⟩
  | done r => exact ⟨rfl, hgiven⟩

/-- Nobody else is at work, and every record is one of the table that it is kept under. -/
structure World.Faithful (w : World) : Prop where
  store : w.store.Faithful
  races : w.races = []

theorem World.Faithful.given (h : w.Faithful) (c : Circumstance) : (w.given c).Faithful :=
  ⟨h.store.given c, h.races⟩

theorem World.Faithful.same (h : w.Faithful) (table : Text) : w.Same table w :=
  ⟨h.store.same table, rfl, rfl, Registry.Same.refl table _, rfl, h.races, h.races⟩

theorem World.Faithful.same_given (h : w.Faithful) (table : Text) (c : Circumstance) :
    w.Same table (w.given c) :=
  ⟨h.store.same_given table c, rfl, rfl, Registry.Same.refl table _, rfl, h.races, h.races⟩

theorem World.Faithful.same_stale (h : w.Faithful) (table other : Text) (span : Time.Span) :
    w.Same table (w.stale other span).2 :=
  (h.same table).congr rfl rfl

theorem World.Faithful.withStore (h : w.Faithful) {s : Store} (hs : s.Faithful) :
    (w.withStore s).Faithful := by
  cases s with
  | memory m => exact ⟨hs, h.races⟩
  | files f =>
    obtain ⟨hrival, hrecords⟩ : f.Faithful := hs
    exact ⟨FileStore.Faithful.mk hrival hrecords, h.races⟩

theorem World.Faithful.writeStore (h : w.Faithful) (l : Lineage) (expected : Option Version) :
    (w.writeStore l expected).2.Faithful :=
  h.withStore (h.store.write l expected)

theorem World.Faithful.deleteRecord (h : w.Faithful) (table : Text) :
    (w.deleteRecord table).2.Faithful :=
  h.withStore (h.store.delete table)

theorem World.Faithful.notes (h : w.Faithful) (events : List Event) :
    World.Faithful (events.foldl (fun w e => w.note e) w) := by
  obtain ⟨reported, hnoted⟩ := foldl_note_eq events w
  rw [hnoted]
  exact ⟨h.store, h.races⟩

/-- A store that leaves a table as it is does so with all that it reports. -/
theorem World.Faithful.same_withStore (h : w.Faithful) {s : Store} (hs : w.store.Same table s) :
    w.Same table (w.withStore s) := by
  obtain ⟨m, m', hstore, rfl, hrecord⟩ | ⟨f, f', hstore, rfl, hfiles⟩ := hs.cases
  · refine ⟨?_, rfl, rfl, Registry.Same.refl table _, rfl, h.races, h.races⟩
    rw [hstore]
    exact hrecord
  · refine ⟨?_, rfl, rfl, Registry.Same.refl table _, rfl, h.races, h.races⟩
    rw [hstore]
    exact ⟨hfiles.rival, hfiles.rival', hfiles.root, hfiles.timeout, hfiles.trouble, hfiles.clock,
      hfiles.files⟩

theorem World.Faithful.same_writeStore (h : w.Faithful) (hne : table ≠ l.table)
    (expected : Option Version) : w.Same table (w.writeStore l expected).2 :=
  h.same_withStore (h.store.same_write hne expected)

theorem World.Faithful.same_deleteRecord (h : w.Faithful) {other : Text} (hne : other ≠ table) :
    w.Same other (w.deleteRecord table).2 :=
  h.same_withStore (h.store.same_delete hne)

/-- A removal of a lineage does to the world what the removal of its record does, and reports it. -/
theorem drop_eq (table : Text) (w : World) :
    ∃ reported, (w.drop table).2 = { (w.deleteRecord table).2 with events := reported } := by
  unfold World.drop
  generalize w.deleteRecord table = out
  obtain ⟨r, v⟩ := out
  cases r with
  | error f => exact ⟨v.events, rfl⟩
  | ok u => exact ⟨_, rfl⟩

theorem World.Faithful.drop (h : w.Faithful) (table : Text) : (w.drop table).2.Faithful := by
  obtain ⟨reported, hdropped⟩ := drop_eq table w
  rw [hdropped]
  exact ⟨(h.deleteRecord table).store, (h.deleteRecord table).races⟩

theorem World.Faithful.same_drop (h : w.Faithful) {other : Text} (hne : other ≠ table) :
    w.Same other (w.drop table).2 := by
  obtain ⟨reported, hdropped⟩ := drop_eq table w
  have hsame := h.same_deleteRecord hne
  rw [hdropped]
  exact hsame.congr rfl rfl

theorem look_eq (table : Text) (q : ServedQuery) (w : World) :
    (ServedQuery.step World.services table q w).2 = w := by
  cases q <;> rfl

theorem World.Faithful.step (h : w.Faithful) (call : Call) (phase : Phase) :
    (Call.step World.services call phase w).2.Faithful := by
  cases phase with
  | writing a plan =>
    have hcounted : World.Faithful { w with writes := w.writes + 1 } := ⟨h.store, h.races⟩
    have hwritten := hcounted.writeStore plan.lineage plan.expected
    rw [← writeContested_of_quiet h.races] at hwritten
    exact hwritten.notes _
  | queueing entry b rest =>
    show (w.enqueue call.table b.segments b.reason).Faithful
    obtain ⟨reported, henqueued⟩ := enqueue_eq call.table b.segments b.reason w
    rw [henqueued]
    exact ⟨h.store, h.races⟩
  | _ => exact ⟨h.store, h.races⟩

/-- A call leaves all tables but its own as they are. -/
theorem World.Faithful.same_step (h : w.Faithful) {call : Call} {phase : Phase}
    (hne : table ≠ call.table)
    (hbased : phase.Based (fun _ => True) fun _ read => read.lineage.table = call.table) :
    w.Same table (Call.step World.services call phase w).2 := by
  have hsame := h.same table
  cases phase with
  | writing a plan =>
    obtain ⟨read, hread, -, hplan⟩ := hbased
    have hcounted : World.Faithful { w with writes := w.writes + 1 } := ⟨h.store, h.races⟩
    have htable : table ≠ plan.lineage.table := by
      rw [hplan, hread]
      exact hne
    have hwritten := hcounted.same_writeStore htable plan.expected
    rw [← writeContested_of_quiet h.races] at hwritten
    have hall : w.Same table (w.writeContested plan.lineage plan.expected).2 :=
      hwritten.congr rfl rfl
    exact hall.notes [] _
  | queueing entry b rest =>
    show w.Same table (w.enqueue call.table b.segments b.reason)
    obtain ⟨reported, henqueued⟩ := enqueue_eq call.table b.segments b.reason w
    rw [henqueued]
    refine ⟨hsame.store, rfl, rfl, Registry.Same.refl table _, ?_, h.races, h.races⟩
    dsimp only
    rw [Deletion.Queue.pending_enqueue, List.filter_append]
    have hnone : (((Text.distinct b.segments).map
        (⟨call.table, ·, b.reason⟩ : Text → Deletion)).filter fun d => d.table == table) = [] := by
      rw [List.filter_eq_nil_iff]
      intro d hd
      obtain ⟨segment, -, rfl⟩ := List.mem_map.mp hd
      simpa using hne.symm
    rw [hnone, List.append_nil]
  | _ => exact hsame.congr rfl rfl

end Worlds

end SegmentSwap
