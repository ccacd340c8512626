import SegmentSwap.Proofs.Store.Locality
import SegmentSwap.Proofs.Store.Refinement
import SegmentSwap.Proofs.Store.Table

/-!
# Stores whose records name their own tables

In a store that starts empty every record has been written for the table that it is kept under, so
whoever reads a table gets a lineage of that table. A store that has been given records from
elsewhere need not be like that.
-/

namespace SegmentSwap

namespace FileStore

open TableName (IsOf)

section Record

variable {s s' : FileStore} {table other : Text} {l : Lineage} {expected : Option Version}
  {name : String}

/-- Nothing but the record of a table decides what is read of it. -/
theorem readRecord_congr (hroot : s'.root = s.root)
    (hrecord : s'.folder.get? (TableName.record table) = s.folder.get? (TableName.record table)) :
    s'.readRecord table = s.readRecord table := by
  unfold readRecord path
  rw [hroot, hrecord]

theorem read_congr (hroot : s'.root = s.root)
    (hrecord : s'.folder.get? (TableName.record table) = s.folder.get? (TableName.record table)) :
    s'.read table = s.read table := by
  unfold read
  rw [readRecord_congr hroot hrecord]

/-- What is read of a table is that there is no record, or what the bytes of the record give. -/
theorem read_eq_ok {r : Versioned} (h : s.read table = .ok r) :
    TableName.isAccepted table = true ∧
      (s.folder.get? (TableName.record table) = none ∧ r = ⟨.empty table, none⟩ ∨
        ∃ bytes modified, s.folder.get? (TableName.record table) = some (.file bytes modified) ∧
          Record.ofBytes (s.path (TableName.record table)) bytes = .ok r) := by
  unfold read at h
  split at h
  · cases h
  · rename_i haccepted
    refine ⟨by simpa using haccepted, ?_⟩
    unfold readRecord at h
    dsimp only at h
    split at h
    · cases h
    · split at h
      · rename_i hnone
        obtain rfl := Except.ok.inj h
        exact .inl ⟨hnone, rfl⟩
      · cases h
      · rename_i bytes modified hfile
        refine .inr ⟨bytes, modified, hfile, ?_⟩
        cases hbytes : Record.ofBytes (s.path (TableName.record table)) bytes with
        | error f =>
          rw [hbytes] at h
          cases h
        | ok found =>
          rw [hbytes] at h
          obtain rfl := Except.ok.inj h
          rfl

theorem not_isLockOf_record : ¬ IsLockOf table (TableName.record other) := by
  rintro (h | ⟨token, -, h⟩)
  · exact TableName.lock_ne_record table other h.symm
  · refine TableName.ne_of_ending (TableName.getLast?_record other)
      (TableName.getLast?_file table (.tombstone token)) ?_ h
    show 'n' ≠ 'e'
    decide

theorem Keeps.record (h : s.Keeps (IsLockOf table) s') :
    s'.folder.get? (TableName.record other) = s.folder.get? (TableName.record other) :=
  h.folder _ not_isLockOf_record

/-- A record is left as it was or is the one that is published. -/
theorem record_publish (l : Lineage) (version : Version) :
    (s.publish l version).2.folder.get? (TableName.record l.table) =
        s.folder.get? (TableName.record l.table) ∨
      (s.publish l version).1 = .ok () ∧ isShowable version.count = true ∧ ∃ modified,
        (s.publish l version).2.folder.get? (TableName.record l.table) =
          some (.file (Record.bytes l version.count) modified) := by
  have hne := (TableName.draft_ne_record l.table l.table s.nextTag).symm
  unfold publish
  dsimp only
  split
  · exact .inl rfl
  · split
    · exact .inl (Folder.get?_put_of_ne hne)
    · rename_i hshowable
      have hversion : isShowable version.count = true := by
        rw [Bool.not_eq_true, Bool.not_eq_false'] at hshowable
        exact hshowable
      unfold install
      dsimp only
      split
      · left
        show Folder.get? _ _ = _
        rw [Folder.get?_remove_of_ne hne, Folder.get?_put_of_ne hne]
        exact Folder.get?_put_of_ne hne
      · left
        show Folder.get? _ _ = _
        rw [Folder.get?_remove_of_ne hne, Folder.get?_put_of_ne hne]
        exact Folder.get?_put_of_ne hne
      · exact .inr ⟨rfl, hversion, _, Folder.get?_put_self⟩

theorem record_writeLocked (h : s.rival = .none) (l : Lineage) (expected : Option Version)
    (token : String) :
    (s.writeLocked l expected token).2.folder.get? (TableName.record l.table) =
        s.folder.get? (TableName.record l.table) ∨
      (s.writeLocked l expected token).1 = .ok true ∧
        isShowable (Version.next expected).count = true ∧ ∃ modified,
          (s.writeLocked l expected token).2.folder.get? (TableName.record l.table) =
            some (.file (Record.bytes l (Version.next expected).count) modified) := by
  rw [writeLocked_of_quiet h]
  split
  · exact .inl rfl
  · unfold replace
    split
    · exact .inl rfl
    · split
      · exact .inl rfl
      · have hpublish := record_publish (s := s) l (.next expected)
        generalize s.publish l (.next expected) = out at hpublish ⊢
        obtain ⟨result, s'⟩ := out
        cases result with
        | error f => exact hpublish.imp_right fun h => absurd h.1 (by simp)
        | ok u => exact hpublish.imp_right fun h => ⟨rfl, h.2⟩

/-- A write leaves the record as it was or replaces it by the one that it writes. -/
theorem record_write (h : s.rival = .none) (l : Lineage) (expected : Option Version) :
    (s.write l expected).2.folder.get? (TableName.record l.table) =
        s.folder.get? (TableName.record l.table) ∨
      (s.write l expected).1 = .ok true ∧ isShowable (Version.next expected).count = true ∧
        ∃ modified, (s.write l expected).2.folder.get? (TableName.record l.table) =
          some (.file (Record.bytes l (Version.next expected).count) modified) := by
  have hacquire := keeps_acquire h l.table
  unfold write
  split
  · exact .inl rfl
  · generalize s.acquire l.table = out at hacquire ⊢
    obtain ⟨result, s'⟩ := out
    cases result with
    | error f => exact .inl hacquire.record
    | ok token =>
      have hrival : s'.rival = .none := hacquire.rival.trans h
      have hwritten := record_writeLocked hrival l expected token
      rw [show s'.folder.get? (TableName.record l.table) = _ from hacquire.record] at hwritten
      dsimp only
      generalize s'.writeLocked l expected token = out at hwritten ⊢
      obtain ⟨result, s''⟩ := out
      have hreleased : (s''.release l.table token).folder.get? (TableName.record l.table) =
          s''.folder.get? (TableName.record l.table) := (keeps_release l.table token).record
      cases result with
      | error f => exact hwritten.imp hreleased.trans fun h => absurd h.1 (by simp)
      | ok written =>
        cases written with
        | false => exact hwritten.imp hreleased.trans fun h => absurd h.1 (by simp)
        | true =>
          refine hwritten.imp hreleased.trans ?_
          rintro ⟨-, hversion, modified, hrecord⟩
          exact ⟨rfl, hversion, modified, hreleased.trans hrecord⟩

/-- A removal leaves the record as it was or takes it away. -/
theorem record_delete (h : s.rival = .none) (table : Text) :
    (s.delete table).2.folder.get? (TableName.record table) =
        s.folder.get? (TableName.record table) ∨
      (s.delete table).2.folder.get? (TableName.record table) = none := by
  have hacquire := keeps_acquire h table
  unfold delete
  split
  · exact .inl rfl
  · generalize s.acquire table = out at hacquire ⊢
    obtain ⟨result, s'⟩ := out
    cases result with
    | error f => exact .inl hacquire.record
    | ok token =>
      have hreleased : ∀ s'' : FileStore, (s''.release table token).folder.get?
          (TableName.record table) = s''.folder.get? (TableName.record table) :=
        fun s'' => (keeps_release table token).record
      dsimp only
      rw [hreleased]
      unfold deleteLocked
      dsimp only
      split
      · exact .inl hacquire.record
      · exact .inr Folder.get?_remove_self

/-- The files of other tables stay as they are when a lineage is written. -/
theorem get?_write_of_ne (h : s.rival = .none) (hne : table ≠ l.table) (hname : IsOf table name) :
    (s.write l expected).2.folder.get? name = s.folder.get? name := by
  by_cases haccepted : TableName.isAccepted l.table = true
  · exact (keeps_write h l expected).folder name fun hown => hne (hown.eq haccepted hname)
  · unfold write
    rw [if_pos (by rw [Bool.eq_false_iff.mpr haccepted]; rfl)]

/-- The files of other tables stay as they are when a record is removed. -/
theorem get?_delete_of_ne (h : s.rival = .none) (hne : other ≠ table) (hname : IsOf other name) :
    (s.delete table).2.folder.get? name = s.folder.get? name := by
  by_cases haccepted : TableName.isAccepted table = true
  · exact (keeps_delete h table).folder name fun hown => hne (hown.eq haccepted hname)
  · unfold delete
    rw [if_pos (by rw [Bool.eq_false_iff.mpr haccepted]; rfl)]

theorem rival_write (h : s.rival = .none) : (s.write l expected).2.rival = .none :=
  (keeps_write h l expected).rival.trans h

theorem rival_delete (h : s.rival = .none) : (s.delete table).2.rival = .none :=
  (keeps_delete h table).rival.trans h

/-- Nobody else is at work, and the record of each harmless table is one that has been written for
it. -/
structure Faithful (s : FileStore) : Prop where
  rival : s.rival = .none
  records : ∀ table, TableName.isAccepted table = true → ∀ node,
    s.folder.get? (TableName.record table) = some node →
      ∃ (l : Lineage) (version : Int) (modified : Rat),
        node = .file (Record.bytes l version) modified ∧ l.table = table ∧
          isShowable version = true

theorem faithful_create (root : String) (timeout : Quantity) :
    (create root timeout).Faithful :=
  ⟨rfl, fun _ _ _ h => absurd h.symm (Option.some_ne_none _)⟩

theorem Faithful.write (h : s.Faithful) (l : Lineage) (expected : Option Version) :
    (s.write l expected).2.Faithful := by
  refine ⟨rival_write h.rival, fun table haccepted node hnode => ?_⟩
  by_cases hne : table = l.table
  · subst hne
    rcases record_write h.rival l expected with hsame | ⟨-, hversion, modified, hrecord⟩
    · rw [hsame] at hnode
      exact h.records _ haccepted node hnode
    · rw [hrecord] at hnode
      exact ⟨l, _, modified, (Option.some.inj hnode).symm, rfl, hversion⟩
  · rw [get?_write_of_ne h.rival hne (TableName.isOf_record table)] at hnode
    exact h.records table haccepted node hnode

theorem Faithful.delete (h : s.Faithful) (table : Text) : (s.delete table).2.Faithful := by
  refine ⟨rival_delete h.rival, fun other haccepted node hnode => ?_⟩
  by_cases hne : other = table
  · subst hne
    rcases record_delete h.rival other with hsame | hgone
    · rw [hsame] at hnode
      exact h.records _ haccepted node hnode
    · rw [hgone] at hnode
      cases hnode
  · rw [get?_delete_of_ne h.rival hne (TableName.isOf_record other)] at hnode
    exact h.records other haccepted node hnode

/-- What is read of a table is a lineage of that table. -/
theorem Faithful.table_of_read (h : s.Faithful) {r : Versioned} (hread : s.read table = .ok r) :
    r.lineage.table = table := by
  obtain ⟨haccepted, ⟨-, rfl⟩ | ⟨bytes, modified, hnode, hbytes⟩⟩ := read_eq_ok hread
  · rfl
  · obtain ⟨l, version, modified', hfile, htable, hversion⟩ := h.records table haccepted _ hnode
    obtain ⟨hwritten, -⟩ := Node.file.inj hfile
    rw [hwritten] at hbytes
    have hwhole : l.table.isWhole = true := by
      rw [htable]
      exact TableName.isWhole_of_isAccepted haccepted
    exact (Record.table_of_bytes hwhole hversion hbytes).trans htable

end Record

end FileStore

namespace Store

/-- The records of a store are those of the tables that they are kept under. -/
def Faithful : Store → Prop
  | .memory m => ∀ table r, m.get? table = some r → r.1.table = table
  | .files f => f.Faithful

section Faithful

variable {s : Store} {table : Text} {l : Lineage} {expected : Option Version}

theorem Faithful.table_of_read (h : s.Faithful) {r : Versioned} (hread : s.read table = .ok r) :
    r.lineage.table = table := by
  cases s with
  | memory m =>
    obtain rfl : m.read table = r := Except.ok.inj hread
    unfold Memory.read
    split
    · rename_i lineage version hrecord
      exact h table _ hrecord
    · rfl
  | files f => exact FileStore.Faithful.table_of_read h (mapError_eq_ok_iff.mp hread)

theorem Faithful.write (h : s.Faithful) (l : Lineage) (expected : Option Version) :
    (s.write l expected).2.Faithful := by
  cases s with
  | files f => exact FileStore.Faithful.write h l expected
  | memory m =>
    show ∀ table r, (m.write l expected).2.get? table = some r → r.1.table = table
    unfold Memory.write
    split
    · intro table r hr
      by_cases hne : table = l.table
      · rw [hne, Memory.get?_put_self] at hr
        rw [hne, ← Option.some.inj hr]
      · rw [Memory.get?_put_of_ne hne] at hr
        exact h table r hr
    · exact h

theorem Faithful.delete (h : s.Faithful) (table : Text) : (s.delete table).2.Faithful := by
  cases s with
  | files f => exact FileStore.Faithful.delete h table
  | memory m =>
    show ∀ other r, (m.delete table).get? other = some r → r.1.table = other
    intro other r hr
    by_cases hne : other = table
    · rw [hne, Memory.get?_delete_self] at hr
      cases hr
    · rw [Memory.get?_delete_of_ne hne] at hr
      exact h other r hr

end Faithful

end Store

end SegmentSwap
