import SegmentSwap.Proofs.Tables.Sameness

/-!
# Tables are isolated

An order changes nothing but its own table's share, and what it returns depends on that share alone.
So the orders on all other tables can be left out of a run: those that are left return the same and
leave the same share of their table behind.
-/

namespace SegmentSwap

namespace Bureau

open TableName (IsOf)

/-- All that there is of a table. -/
structure Share where
  /-- Its record and the version of it, if records are kept in memory. -/
  record? : Option (Lineage × Version)
  /-- Its files, if records are kept in files: the record, the lock, drafts and tombstones. -/
  files : TableName.Purpose → Option Node
  /-- Its registered segments. -/
  registered : List (Text × Text)
  /-- Its placed segments. -/
  placed : List (Text × Text)
  /-- The deletions that have been queued for it. -/
  requests : List Deletion
  /-- The calls on it. -/
  calls : List Client
  /-- The queries on it. -/
  queries : List ServedQuery

/-- The record of a table in memory. -/
def recordOf (table : Text) : Store → Option (Lineage × Version)
  | .memory m => m.get? table
  | .files _ => none

/-- The files of a table. -/
def filesOf (table : Text) : Store → TableName.Purpose → Option Node
  | .memory _, _ => none
  | .files f, p => if p.isDrawn then f.folder.get? (p.file table) else none

/-- All that there is of a table in a bureau. -/
def share (table : Text) (b : Bureau) : Share where
  record? := recordOf table b.world.store
  files := filesOf table b.world.store
  registered := b.world.registry.registered.filter fun p => p.1 == table
  placed := b.world.registry.placed.filter fun p => p.1 == table
  requests := b.world.queue.pending.filter fun d => d.table == table
  calls := b.calls table
  queries := b.queries table

/-- A table is the same in two bureaus. -/
structure Same (table : Text) (b b' : Bureau) : Prop where
  world : b.world.Same table b'.world
  calls : b'.calls table = b.calls table
  queries : b'.queries table = b.queries table

/-- A call is one on the table, and so is whatever it has read. -/
def Tied (table : Text) (c : Client) : Prop :=
  c.call.table = table ∧ c.phase.Based (fun _ => True) fun _ read => read.lineage.table = table

/-- Records and calls keep to the tables that they are kept under. -/
structure Sound (b : Bureau) : Prop where
  world : b.world.Faithful
  calls : ∀ table, ∀ c ∈ b.calls table, Tied table c

section Orders

variable {b b' b'' : Bureau} {table : Text} {w : World}

theorem Same.trans (h : b.Same table b') (h' : b'.Same table b'') : b.Same table b'' :=
  ⟨h.world.trans h'.world, h'.calls.trans h.calls, h'.queries.trans h.queries⟩

theorem sound_opened (limits : Limits) (modes : TableModes)
    (directory? : Option (String × Quantity)) : (opened limits modes directory?).Sound := by
  refine ⟨⟨?_, rfl⟩, fun _ _ hc => absurd hc List.not_mem_nil⟩
  cases directory? with
  | none => exact fun _ _ h => absurd h.symm (Option.some_ne_none _)
  | some d => exact FileStore.faithful_create d.1 d.2

/-- A table that is the same has the same share. -/
theorem Same.share (h : b.Same table b') : b'.share table = b.share table := by
  have hstore : recordOf table b'.world.store = recordOf table b.world.store ∧
      filesOf table b'.world.store = filesOf table b.world.store := by
    obtain ⟨m, m', hs, hs', hrecord⟩ | ⟨f, f', hs, hs', hfiles⟩ := h.world.store.cases
    · rw [hs, hs']
      exact ⟨hrecord, rfl⟩
    · rw [hs, hs']
      refine ⟨rfl, funext fun p => ?_⟩
      show (if p.isDrawn then f'.folder.get? (p.file table) else none) =
        if p.isDrawn then f.folder.get? (p.file table) else none
      by_cases hp : p.isDrawn = true
      · rw [if_pos hp, if_pos hp]
        exact (hfiles.files _ ⟨p, hp, rfl⟩).symm
      · rw [if_neg hp, if_neg hp]
  unfold Bureau.share
  rw [hstore.1, hstore.2, h.world.registry.registered, h.world.registry.placed, h.world.requests,
    h.calls, h.queries]

theorem calls_setCalls (b : Bureau) (table : Text) (cs : List Client) :
    (b.setCalls table cs).calls table = cs :=
  Function.update_self ..

theorem queries_setQueries (b : Bureau) (table : Text) (qs : List ServedQuery) :
    (b.setQueries table qs).queries table = qs :=
  Function.update_self ..

theorem Same.setCalls (h : b.Same table b') (cs : List Client) :
    (b.setCalls table cs).Same table (b'.setCalls table cs) :=
  ⟨h.world, (b'.calls_setCalls table cs).trans (b.calls_setCalls table cs).symm, h.queries⟩

theorem Same.setQueries (h : b.Same table b') (qs : List ServedQuery) :
    (b.setQueries table qs).Same table (b'.setQueries table qs) :=
  ⟨h.world, h.calls, (b'.queries_setQueries table qs).trans (b.queries_setQueries table qs).symm⟩

theorem Same.setRegistry (h : b.Same table b') {r r' : Registry} (hr : r.Same table r') :
    (b.setRegistry r).Same table (b'.setRegistry r') :=
  ⟨⟨h.world.store, h.world.limits, h.world.modes, hr, h.world.requests, h.world.races,
    h.world.races'⟩, h.calls, h.queries⟩

/-- An order on a table returns the same and leaves the table the same wherever it is the same. -/
theorem Same.act (h : b.Same table b') (hb : b.Sound) (c : Circumstance) {o : Order}
    (ho : o.table = table) : (b'.act (c, o)).1 = (b.act (c, o)).1 ∧
      (b.act (c, o)).2.Same table (b'.act (c, o)).2 := by
  have hgiven : Same table { b with world := b.world.given c }
      { b' with world := b'.world.given c } := ⟨h.world.given c c, h.calls, h.queries⟩
  -- a world that is the same makes a bureau that is the same
  have hafter : ∀ {v v' : World}, v.Same table v' →
      Same table { b with world := v } { b' with world := v' } :=
    fun hv => ⟨hv, h.calls, h.queries⟩
  have hcalls := h.calls
  have hqueries := h.queries
  unfold Bureau.act
  cases o with
  | read other =>
    obtain rfl : other = table := ho
    exact ⟨congrArg Reply.found (h.world.store.read c), hgiven⟩
  | write l expected =>
    obtain rfl : l.table = table := ho
    obtain ⟨hresult, hworld⟩ := h.world.writeStore c expected
    exact ⟨congrArg Reply.written hresult, hafter hworld⟩
  | delete other =>
    obtain rfl : other = table := ho
    obtain ⟨hresult, hworld⟩ := h.world.deleteRecord c
    exact ⟨congrArg Reply.removed hresult, hafter hworld⟩
  | drop other =>
    obtain rfl : other = table := ho
    obtain ⟨hresult, hworld⟩ := h.world.drop c
    exact ⟨congrArg Reply.removed hresult, hafter hworld⟩
  | enter other request =>
    obtain rfl : other = table := ho
    unfold perform
    dsimp only
    rw [hcalls, hgiven.world.limits]
    exact ⟨rfl, hgiven.setCalls _⟩
  | proceed other call =>
    obtain rfl : other = table := ho
    unfold perform
    dsimp only
    rw [hcalls]
    cases hclient : (b.calls other)[call]? with
    | none => exact ⟨rfl, hgiven⟩
    | some client =>
      obtain ⟨hcall, hbased⟩ := hb.calls other client (List.mem_of_getElem? hclient)
      obtain ⟨hphase, hworld⟩ := h.world.step c hcall hbased
      dsimp only
      rw [hphase]
      exact ⟨rfl, (hafter hworld).setCalls _⟩
  | ask other =>
    obtain rfl : other = table := ho
    unfold perform
    dsimp only
    rw [hqueries]
    exact ⟨rfl, hgiven.setQueries _⟩
  | hear other query =>
    obtain rfl : other = table := ho
    unfold perform
    dsimp only
    rw [hqueries]
    cases (b.queries other)[query]? with
    | none => exact ⟨rfl, hgiven⟩
    | some q =>
      obtain ⟨hheard, hworld⟩ := h.world.look c q
      dsimp only
      rw [hheard]
      exact ⟨rfl, (hafter hworld).setQueries _⟩
  | stale other span =>
    obtain rfl : other = table := ho
    obtain ⟨hresult, hworld⟩ := h.world.stale c span
    exact ⟨congrArg Reply.stale hresult, hafter hworld⟩
  | add other segments placed =>
    obtain rfl : other = table := ho
    exact ⟨rfl, hgiven.setRegistry (h.world.registry.add segments placed)⟩
  | place other segment =>
    obtain rfl : other = table := ho
    have hregistry : (b.world.given c).registry.Same other (b'.world.given c).registry :=
      h.world.registry
    unfold perform
    dsimp only
    rcases hregistry.place segment with ⟨r, r', hr, hr', hplaced⟩ | ⟨f, hf, hf'⟩
    · rw [hr, hr']
      exact ⟨rfl, hgiven.setRegistry hplaced⟩
    · rw [hf, hf']
      exact ⟨rfl, hgiven⟩
  | forget other segment =>
    obtain rfl : other = table := ho
    exact ⟨rfl, hgiven.setRegistry (h.world.registry.delete segment)⟩

theorem Sound.same (h : b.Sound) (table : Text) : b.Same table b := ⟨h.world.same table, rfl, rfl⟩

theorem Same.setCalls_of_ne (h : b.Same table b') {other : Text} (hne : table ≠ other)
    (cs : List Client) : b.Same table (b'.setCalls other cs) :=
  ⟨h.world, (Function.update_of_ne hne ..).trans h.calls, h.queries⟩

theorem Same.setQueries_of_ne (h : b.Same table b') {other : Text} (hne : table ≠ other)
    (qs : List ServedQuery) : b.Same table (b'.setQueries other qs) :=
  ⟨h.world, h.calls, (Function.update_of_ne hne ..).trans h.queries⟩

/-- An order leaves all tables but its own as they are. -/
theorem Sound.same_act (h : b.Sound) (c : Circumstance) {o : Order} (hne : table ≠ o.table) :
    b.Same table (b.act (c, o)).2 := by
  have hw := h.world.given c
  have hafter : ∀ v : World, (b.world.given c).Same table v →
      b.Same table { b with world := v } :=
    fun v hv => ⟨(h.world.same_given table c).trans hv, rfl, rfl⟩
  have hgiven := hafter _ (hw.same table)
  have hregistry : ∀ r : Registry, b.world.registry.Same table r →
      b.Same table (setRegistry { b with world := b.world.given c } r) :=
    fun r hr => ⟨⟨hgiven.world.store, rfl, rfl, hr, rfl, h.world.races, h.world.races⟩, rfl, rfl⟩
  unfold Bureau.act
  cases o with
  | read other => exact hgiven
  | write l expected => exact hafter _ (hw.same_writeStore hne expected)
  | delete other => exact hafter _ (hw.same_deleteRecord hne)
  | drop other => exact hafter _ (hw.same_drop hne)
  | enter other request => exact hgiven.setCalls_of_ne hne _
  | proceed other call =>
    unfold perform
    dsimp only
    cases hclient : (b.calls other)[call]? with
    | none => exact hgiven
    | some client =>
      obtain ⟨hcall, hbased⟩ := h.calls other client (List.mem_of_getElem? hclient)
      rw [← hcall] at hbased
      have hother : table ≠ client.call.table := by
        rw [hcall]
        exact hne
      exact (hafter _ (hw.same_step hother hbased)).setCalls_of_ne hne _
  | ask other => exact hgiven.setQueries_of_ne hne _
  | hear other query =>
    unfold perform
    dsimp only
    cases (b.queries other)[query]? with
    | none => exact hgiven
    | some q =>
      dsimp only
      rw [look_eq]
      exact hgiven.setQueries_of_ne hne _
  | stale other span => exact hafter _ (hw.same_stale table other span)
  | add other segments placed => exact hregistry _ (Registry.same_add hne.symm segments placed)
  | place other segment =>
    unfold perform
    dsimp only
    cases hplace : (b.world.given c).registry.place other segment with
    | ok r => exact hregistry r (Registry.same_place hne.symm hplace)
    | error f => exact hgiven
  | forget other segment => exact hregistry _ (Registry.same_delete hne.symm segment)

theorem Sound.setCalls (h : b.Sound) {cs : List Client} (hcs : ∀ c ∈ cs, Tied table c) :
    (b.setCalls table cs).Sound := by
  refine ⟨h.world, fun other => ?_⟩
  by_cases hother : other = table
  · rw [hother, calls_setCalls]
    exact hcs
  · rw [show (b.setCalls table cs).calls other = b.calls other from Function.update_of_ne hother ..]
    exact h.calls other

theorem Tied.step {c : Client} (h : Tied table c) (hw : w.Faithful) :
    Tied table ⟨c.call, (Call.step World.services c.call c.phase w).1⟩ := by
  obtain ⟨hcall, hbased⟩ := h
  refine ⟨hcall, hbased.serve _ (fun _ _ read hread => ?_) fun _ _ _ => trivial⟩
  rw [← hcall]
  exact hw.store.table_of_read hread

theorem Sound.act (h : b.Sound) (o : Circumstance × Order) : (b.act o).2.Sound := by
  obtain ⟨c, o⟩ := o
  have hw := h.world.given c
  have hafter : ∀ {v : World}, v.Faithful → Sound { b with world := v } := fun hv => ⟨hv, h.calls⟩
  have hgiven := hafter hw
  unfold Bureau.act
  cases o with
  | read table => exact hgiven
  | write l expected => exact hafter (hw.writeStore l expected)
  | delete table => exact hafter (hw.deleteRecord table)
  | drop table => exact hafter (hw.drop table)
  | enter table request =>
    refine hgiven.setCalls fun d hd => ?_
    rcases List.mem_append.mp hd with hd | hd
    · exact h.calls table d hd
    · rw [List.mem_singleton.mp hd]
      exact ⟨rfl, Phase.based_begin fun _ => trivial⟩
  | proceed table call =>
    unfold perform
    dsimp only
    cases hclient : (b.calls table)[call]? with
    | none => exact hgiven
    | some client =>
      have htied := h.calls table client (List.mem_of_getElem? hclient)
      refine (hafter (hw.step client.call client.phase)).setCalls fun d hd => ?_
      rcases List.mem_or_eq_of_mem_set hd with hd | rfl
      · exact h.calls table d hd
      · exact htied.step hw
  | ask table => exact ⟨hw, h.calls⟩
  | hear table query =>
    unfold perform
    dsimp only
    cases (b.queries table)[query]? with
    | none => exact hgiven
    | some q =>
      dsimp only
      rw [look_eq]
      exact ⟨hw, h.calls⟩
  | stale table span => exact ⟨⟨hw.store, hw.races⟩, h.calls⟩
  | add table segments placed => exact ⟨⟨hw.store, hw.races⟩, h.calls⟩
  | place table segment =>
    unfold perform
    dsimp only
    cases (b.world.given c).registry.place table segment with
    | ok r => exact ⟨⟨hw.store, hw.races⟩, h.calls⟩
    | error f => exact hgiven
  | forget table segment => exact ⟨⟨hw.store, hw.races⟩, h.calls⟩

theorem Sound.run (h : b.Sound) (orders : List (Circumstance × Order)) : (b.run orders).Sound := by
  induction orders generalizing b with
  | nil => exact h
  | cons o orders ih => exact ih (h.act o)

/-- The orders on all other tables can be left out of a run. -/
theorem Same.run (h : b'.Same table b) (hb : b.Sound) (hb' : b'.Sound)
    (orders : List (Circumstance × Order)) :
    (b'.run (on table orders)).Same table (b.run orders) ∧
      replies table orders b = replies table (on table orders) b' := by
  induction orders generalizing b b' with
  | nil => exact ⟨h, rfl⟩
  | cons o orders ih =>
    by_cases ho : o.2.table = table
    · have hkept : on table (o :: orders) = o :: on table orders :=
        List.filter_cons_of_pos (decide_eq_true ho)
      obtain ⟨hreply, hafter⟩ := h.act hb' o.1 ho
      obtain ⟨hrun, hreplies⟩ := ih hafter (hb.act o) (hb'.act o)
      rw [hkept, replies, replies, if_pos ho, if_pos ho, hreply, hreplies]
      exact ⟨hrun, rfl⟩
    · have hleft : on table (o :: orders) = on table orders :=
        List.filter_cons_of_neg (by simpa using ho)
      rw [hleft, replies, if_neg ho]
      exact ih (h.trans (hb.same_act o.1 (Ne.symm ho))) (hb.act o) hb'

end Orders

/-- In every run from an empty store on an order leaves all tables but its own as they are, and the
orders on a table return what they return in the run of these orders alone, which leaves the same of
the table behind. What is read for a table is a lineage of that table. No file of a harmless table
is one of another table, and all of them lie in the directory itself. -/
theorem tables_isolated (limits : Limits) (modes : TableModes)
    (directory? : Option (String × Quantity)) (orders : List (Circumstance × Order))
    (table : Text) :
    let b := opened limits modes directory?
    (∀ c o, o.table ≠ table →
      ((b.run orders).act (c, o)).2.share table = (b.run orders).share table) ∧
    replies table orders b = replies table (on table orders) b ∧
    (b.run orders).share table = (b.run (on table orders)).share table ∧
    (∀ read, (b.run orders).world.store.read table = .ok read → read.lineage.table = table) ∧
    ∀ name, TableName.isAccepted table = true → IsOf table name →
      (∀ other, other ≠ table → ¬ IsOf other name) ∧
      '/' ∉ name.toList ∧ '\x00' ∉ name.toList ∧ name ≠ "." ∧ name ≠ ".." := by
  intro b
  have hb : b.Sound := sound_opened limits modes directory?
  have hrun := hb.run orders
  obtain ⟨hsame, hreplies⟩ := (hb.same table).run hb hb orders
  refine ⟨fun c o hne => (hrun.same_act c (Ne.symm hne)).share, hreplies, hsame.share,
    fun read hread => hrun.world.store.table_of_read hread, fun name haccepted hname => ?_⟩
  exact ⟨fun other hne hother => hne (hname.eq haccepted hother), hname.direct haccepted⟩

end Bureau

end SegmentSwap
