import SegmentSwap.Proofs.Store.Folder
import SegmentSwap.Proofs.Store.Record
import SegmentSwap.Store.FileStore

/-!
# The file store left to itself

Without a rival and with a sound disk a writer finds the lock of its table free, and at the end of
its work the lock is free again. In between the only file that changes for good is the record of the
table: drafts and locks have names of their own and go away.
-/

namespace SegmentSwap

namespace FileStore

/-- Nobody else is at work, the disk is sound, and the store can tell when it has waited enough. -/
structure Quiet (s : FileStore) : Prop where
  rival : s.rival = .none
  trouble : s.trouble? = none
  timeout : s.clock.tells s.timeout = true

/-- A writer of a table has done its work: the lock is free, the record is what `node` says, and
all other tables have what they had before. -/
structure Settled (s s' : FileStore) (table : Text) (node : Option Node) : Prop where
  quiet : s'.Quiet
  lock : s'.folder.get? (TableName.lock table) = none
  record : s'.folder.get? (TableName.record table) = node
  others : ∀ name, name ≠ TableName.lock table → name ≠ TableName.record table →
    (∀ token, name ≠ TableName.draft table token) → s'.folder.get? name = s.folder.get? name

section Steps

variable {s : FileStore} {table : Text} {l : Lineage} {expected : Option Version}

theorem pass_of_quiet (h : s.rival = .none) (m : Moment) : s.pass table m = s := by
  unfold pass
  rw [h]
  cases m <;> (simp only [Rival.act]; rw [← h])

/-- Nobody gets between the steps of a writer. -/
theorem writeLocked_of_quiet (h : s.rival = .none) (l : Lineage) (expected : Option Version)
    (token : String) :
    s.writeLocked l expected token =
      match s.readRecord l.table with
      | .error f => (.error f, s)
      | .ok current => s.replace l (current.bind (·.version?)) expected token := by
  unfold writeLocked
  cases hread : s.readRecord l.table <;> simp only [pass_of_quiet h, hread]

theorem utf8ByteSize_hexDigits (width n : Nat) :
    (String.ofList (Text.hexDigits width n)).utf8ByteSize = width := by
  have hdigit : ∀ d, d < 16 → (String.singleton (Text.hexDigit d)).utf8ByteSize = 1 := by decide
  induction width generalizing n with
  | zero => rfl
  | succ width ih =>
    have hlast := hdigit (n % 16) (Nat.mod_lt n (by decide))
    rw [Text.hexDigits, String.ofList_append, String.utf8ByteSize_append, ih, ← hlast]
    rfl

/-- A free lock is taken at the first look. -/
theorem wait_of_free (since visits : Nat) (hfree : s.folder.get? (TableName.lock table) = none) :
    wait since (visits + 1) table s = (.ok s.nextToken, (s.seize table).2) := by
  have hvisit : s.visit table = s.seize table := by
    unfold visit
    rw [hfree]
  rw [wait, hvisit]
  rfl

theorem acquire_eq_wait (htimeout : s.clock.tells s.timeout = true)
    (hfits : Folder.fits (TableName.lock table) = true) :
    s.acquire table = wait s.polls s.maxVisits table s := by
  unfold acquire
  simp only [htimeout, hfits]
  rfl

theorem acquire_eq_seize (htimeout : s.clock.tells s.timeout = true)
    (hfits : Folder.fits (TableName.lock table) = true)
    (hfree : s.folder.get? (TableName.lock table) = none) :
    s.acquire table = (.ok s.nextToken, (s.seize table).2) :=
  (acquire_eq_wait htimeout hfits).trans (wait_of_free s.polls _ hfree)

theorem acquire_of_free (hquiet : s.Quiet) (hroom : TableName.hasRoom table = true)
    (hfree : s.folder.get? (TableName.lock table) = none) :
    s.acquire table = (.ok s.nextToken, (s.seize table).2) :=
  acquire_eq_seize hquiet.timeout (TableName.fits_lock hroom) hfree

theorem owns_seize : (s.seize table).2.owns table s.nextToken = true := by
  have hlock : (s.seize table).2.folder.get? (TableName.lock table) =
      some (lockFile s.nextToken s.now) := Folder.get?_put_self
  unfold owns
  rw [hlock]
  exact beq_self_eq_true _

theorem release_of_owns {token : String} (h : s.owns table token = true) :
    s.release table token = { s with folder := s.folder.remove (TableName.lock table) } := by
  unfold release
  rw [if_pos h]

theorem quiet_seize (h : s.Quiet) : (s.seize table).2.Quiet := ⟨h.rival, h.trouble, h.timeout⟩

theorem get?_seize {name : String} (h : name ≠ TableName.lock table) :
    (s.seize table).2.folder.get? name = s.folder.get? name :=
  Folder.get?_put_of_ne h

theorem install_of_quiet (htrouble : s.trouble? = none) {draft : String} {bytes : List UInt8}
    (hplace : s.folder.get? (TableName.record table) ≠ some .directory) :
    s.install table draft bytes = (.ok (), { s with
      folder := (s.folder.remove draft).put (TableName.record table) (.file bytes s.now) }) := by
  unfold install
  simp only [htrouble]

/-- On a sound disk a record is written unless there is a directory in its place. -/
theorem publish_of_quiet (hquiet : s.Quiet) (hroom : TableName.hasRoom l.table = true)
    {version : Version} (hversion : isShowable version.count = true)
    (hplace : s.folder.get? (TableName.record l.table) ≠ some .directory) :
    ∃ s', s.publish l version = (.ok (), s') ∧ s'.Quiet ∧
      s'.folder.get? (TableName.record l.table) =
        some (.file (Record.bytes l version.count) s.now) ∧
      ∀ name, name ≠ TableName.record l.table → (∀ token, name ≠ TableName.draft l.table token) →
        s'.folder.get? name = s.folder.get? name := by
  have hfits : Folder.fits (TableName.draft l.table s.nextTag) = true :=
    TableName.fits_draft hroom (utf8ByteSize_hexDigits 8 _)
  generalize hdraft : TableName.draft l.table s.nextTag = draft at hfits
  have hrecord : TableName.record l.table ≠ draft := by
    rw [← hdraft]
    exact (TableName.draft_ne_record _ _ _).symm
  have hdrafted : ((s.folder.put draft (.file [] s.now)).put draft
      (.file (Record.bytes l version.count) s.now)).get? (TableName.record l.table) =
        s.folder.get? (TableName.record l.table) := by
    rw [Folder.get?_put_of_ne hrecord, Folder.get?_put_of_ne hrecord]
  refine ⟨{ s with
    folder := (((s.folder.put draft (.file [] s.now)).put draft
      (.file (Record.bytes l version.count) s.now)).remove draft).put
        (TableName.record l.table) (.file (Record.bytes l version.count) s.now)
    used := s.used + 1 }, ?_, ⟨hquiet.rival, hquiet.trouble, hquiet.timeout⟩,
    Folder.get?_put_self, ?_⟩
  · unfold publish
    simp only [hdraft, hfits, hversion, Bool.not_true, Bool.false_eq_true, if_false]
    apply install_of_quiet
    · exact hquiet.trouble
    · rw [← hdrafted] at hplace
      exact hplace
  · intro name hname htoken
    have hne : name ≠ draft := by
      rw [← hdraft]
      exact htoken _
    show Folder.get? _ name = _
    rw [Folder.get?_put_of_ne hname, Folder.get?_remove_of_ne hne, Folder.get?_put_of_ne hne,
      Folder.get?_put_of_ne hne]

/-- What a record file holds if the record in memory is `record?`. -/
def Holds (node : Option Node) (record? : Option (Lineage × Version)) : Prop :=
  match record? with
  | none => node = none
  | some (l, v) => l.isStorable = true ∧ isShowable v.count = true ∧ v = .ofCount v.count ∧
    ∃ modified, node = some (.file (Record.bytes l v.count) modified)

theorem Holds.ne_directory {node : Option Node} {record? : Option (Lineage × Version)}
    (h : Holds node record?) : node ≠ some .directory := by
  rintro rfl
  cases record? with
  | none => exact absurd h (Option.some_ne_none _)
  | some r =>
    obtain ⟨-, -, -, modified, hfile⟩ := h
    exact Node.noConfusion (Option.some.inj hfile)

/-- The record file is read as the record. -/
theorem readRecord_of_holds (hroom : TableName.hasRoom table = true)
    {record? : Option (Lineage × Version)}
    (h : Holds (s.folder.get? (TableName.record table)) record?) :
    s.readRecord table = .ok (record?.map fun r => ⟨r.1, some r.2⟩) := by
  unfold readRecord
  simp only [TableName.fits_record hroom, Bool.not_true, Bool.false_eq_true, if_false]
  cases record? with
  | none =>
    have hnode : s.folder.get? (TableName.record table) = none := h
    rw [hnode]
    rfl
  | some r =>
    obtain ⟨hstorable, hshowable, hversion, modified, hfile⟩ := h
    simp only [hfile, Record.ofBytes_of_storable hstorable hshowable, ← hversion]
    rfl

/-- A reader of a harmless table gets the record, or an empty lineage without a version. -/
theorem read_of_holds (haccepted : TableName.isAccepted table = true)
    (hroom : TableName.hasRoom table = true) {record? : Option (Lineage × Version)}
    (h : Holds (s.folder.get? (TableName.record table)) record?) :
    s.read table = .ok ((record?.map fun r => ⟨r.1, some r.2⟩).getD ⟨.empty table, none⟩) := by
  unfold read
  rw [haccepted, readRecord_of_holds hroom h]
  rfl

/-- A writer with another version in mind leaves everything as it was. -/
theorem write_of_not_agree (hquiet : s.Quiet) (haccepted : TableName.isAccepted l.table = true)
    (hroom : TableName.hasRoom l.table = true)
    (hfree : s.folder.get? (TableName.lock l.table) = none) {record? : Option (Lineage × Version)}
    (h : Holds (s.folder.get? (TableName.record l.table)) record?)
    (hversion : Version.agree (record?.map (·.2)) expected = false) :
    ∃ s', s.write l expected = (.ok false, s') ∧
      s.Settled s' l.table (s.folder.get? (TableName.record l.table)) := by
  have hne := (TableName.lock_ne_record l.table l.table).symm
  have hholds : Holds ((s.seize l.table).2.folder.get? (TableName.record l.table)) record? := by
    rw [get?_seize hne]
    exact h
  have hcurrent : (record?.map fun r => (⟨r.1, some r.2⟩ : Versioned)).bind (·.version?) =
      record?.map (·.2) := by
    cases record? <;> rfl
  have hlocked : (s.seize l.table).2.writeLocked l expected s.nextToken =
      (.ok false, (s.seize l.table).2) := by
    rw [writeLocked_of_quiet (quiet_seize hquiet).rival, readRecord_of_holds hroom hholds]
    simp only [replace, hcurrent, hversion]
    rfl
  refine ⟨{ (s.seize l.table).2 with
    folder := (s.seize l.table).2.folder.remove (TableName.lock l.table) }, ?_, ?_⟩
  · unfold write
    rw [haccepted, acquire_of_free hquiet hroom hfree]
    simp only [hlocked, release_of_owns owns_seize]
    rfl
  · refine ⟨⟨hquiet.rival, hquiet.trouble, hquiet.timeout⟩, Folder.get?_remove_self, ?_, ?_⟩
    · show Folder.get? _ _ = _
      rw [Folder.get?_remove_of_ne hne, get?_seize hne]
    · intro name hlock _ _
      show Folder.get? _ _ = _
      rw [Folder.get?_remove_of_ne hlock, get?_seize hlock]

/-- A writer who knows the version of the record replaces it. -/
theorem write_of_agree (hquiet : s.Quiet) (haccepted : TableName.isAccepted l.table = true)
    (hroom : TableName.hasRoom l.table = true)
    (hfree : s.folder.get? (TableName.lock l.table) = none) {record? : Option (Lineage × Version)}
    (h : Holds (s.folder.get? (TableName.record l.table)) record?)
    (hversion : Version.agree (record?.map (·.2)) expected = true)
    (hnext : isShowable (Version.next expected).count = true) :
    ∃ s', s.write l expected = (.ok true, s') ∧ ∃ modified, s.Settled s' l.table
      (some (.file (Record.bytes l (Version.next expected).count) modified)) := by
  have hne := (TableName.lock_ne_record l.table l.table).symm
  have hholds : Holds ((s.seize l.table).2.folder.get? (TableName.record l.table)) record? := by
    rw [get?_seize hne]
    exact h
  have hcurrent : (record?.map fun r => (⟨r.1, some r.2⟩ : Versioned)).bind (·.version?) =
      record?.map (·.2) := by
    cases record? <;> rfl
  obtain ⟨s', hpublish, hquiet', hrecord, hothers⟩ :=
    publish_of_quiet (quiet_seize hquiet) hroom hnext hholds.ne_directory
  have hlocked : (s.seize l.table).2.writeLocked l expected s.nextToken = (.ok true, s') := by
    rw [writeLocked_of_quiet (quiet_seize hquiet).rival, readRecord_of_holds hroom hholds]
    simp only [replace, hcurrent, hversion, owns_seize, hpublish]
    rfl
  have howns : s'.owns l.table s.nextToken = true := by
    rw [← owns_seize]
    unfold owns
    rw [hothers _ (TableName.lock_ne_record _ _) fun token => (TableName.draft_ne_lock _ _ _).symm]
  refine ⟨({ s' with folder := s'.folder.remove (TableName.lock l.table) }).note
    (.recordWritten l.table (.next expected) l.entries.length), ?_, (s.seize l.table).2.now, ?_⟩
  · unfold write
    rw [haccepted, acquire_of_free hquiet hroom hfree]
    simp only [hlocked, release_of_owns howns]
    rfl
  · refine ⟨⟨hquiet'.rival, hquiet'.trouble, hquiet'.timeout⟩, Folder.get?_remove_self, ?_, ?_⟩
    · show (s'.folder.remove _).get? _ = _
      rw [Folder.get?_remove_of_ne hne, hrecord]
    · intro name hlock hname htoken
      show (s'.folder.remove _).get? _ = _
      rw [Folder.get?_remove_of_ne hlock, hothers name hname htoken, get?_seize hlock]

/-- The record of a table is removed, if there is one. -/
theorem delete_of_quiet (hquiet : s.Quiet) (haccepted : TableName.isAccepted table = true)
    (hroom : TableName.hasRoom table = true)
    (hfree : s.folder.get? (TableName.lock table) = none)
    (hplace : s.folder.get? (TableName.record table) ≠ some .directory) :
    ∃ s', s.delete table = (.ok (), s') ∧ s.Settled s' table none := by
  have hne := (TableName.lock_ne_record table table).symm
  have hlocked : (s.seize table).2.deleteLocked table = (.ok (), { (s.seize table).2 with
      folder := (s.seize table).2.folder.remove (TableName.record table) }) := by
    rw [← get?_seize hne] at hplace
    unfold deleteLocked
    dsimp only
    split
    · rename_i heq
      exact absurd heq hplace
    · rfl
  have howns : ({ (s.seize table).2 with
      folder := (s.seize table).2.folder.remove (TableName.record table) }).owns table
        s.nextToken = true := by
    rw [← owns_seize]
    unfold owns
    rw [Folder.get?_remove_of_ne hne.symm]
  refine ⟨{ (s.seize table).2 with folder := ((s.seize table).2.folder.remove
    (TableName.record table)).remove (TableName.lock table) }, ?_, ?_⟩
  · unfold delete
    rw [haccepted, acquire_of_free hquiet hroom hfree]
    simp only [hlocked, release_of_owns howns]
    rfl
  · refine ⟨⟨hquiet.rival, hquiet.trouble, hquiet.timeout⟩, Folder.get?_remove_self, ?_, ?_⟩
    · show Folder.get? _ _ = _
      rw [Folder.get?_remove_of_ne hne, Folder.get?_remove_self]
    · intro name hlock hname _
      show Folder.get? _ _ = _
      rw [Folder.get?_remove_of_ne hlock, Folder.get?_remove_of_ne hname, get?_seize hlock]

end Steps

end FileStore

end SegmentSwap
