import SegmentSwap.Proofs.Store.Files
import SegmentSwap.Proofs.Store.Names

/-!
# The file store works table by table

Whatever lies in the directory, a call of the file store changes no other files than those of its
table and looks at no others. So two directories that agree on the files of a table, and two stores
that agree on the time and on the tags that they draw, give the same answers for that table and
agree on its files afterwards. No other process is at work in between.
-/

namespace SegmentSwap

namespace Folder

/-- At most the names in `touched` have changed. -/
def Keeps (touched : String → Prop) (f f' : Folder) : Prop :=
  ∀ name, ¬ touched name → f'.get? name = f.get? name

/-- Two directories agree on some names. -/
def AgreeOn (names : String → Prop) (f f' : Folder) : Prop :=
  ∀ name, names name → f.get? name = f'.get? name

variable {P Q : String → Prop} {f f' f'' : Folder} {name : String}

theorem Keeps.refl (P : String → Prop) (f : Folder) : f.Keeps P f := fun _ _ => rfl

theorem Keeps.trans (h : f.Keeps P f') (h' : f'.Keeps P f'') : f.Keeps P f'' :=
  fun name hname => (h' name hname).trans (h name hname)

theorem Keeps.mono (h : f.Keeps P f') (hsub : ∀ name, P name → Q name) : f.Keeps Q f' :=
  fun name hname => h name fun hp => hname (hsub name hp)

theorem Keeps.put (h : f.Keeps P f') (hname : P name) (node : Node) :
    f.Keeps P (f'.put name node) := by
  intro other hother
  have hne : other ≠ name := fun heq => hother (heq ▸ hname)
  rw [get?_put_of_ne hne, h other hother]

theorem Keeps.remove (h : f.Keeps P f') (hname : P name) : f.Keeps P (f'.remove name) := by
  intro other hother
  have hne : other ≠ name := fun heq => hother (heq ▸ hname)
  rw [get?_remove_of_ne hne, h other hother]

theorem AgreeOn.put (h : f.AgreeOn P f') (name : String) (node : Node) :
    (f.put name node).AgreeOn P (f'.put name node) := by
  intro other hother
  by_cases heq : other = name
  · rw [heq, get?_put_self, get?_put_self]
  · rw [get?_put_of_ne heq, get?_put_of_ne heq, h other hother]

theorem AgreeOn.remove (h : f.AgreeOn P f') (name : String) :
    (f.remove name).AgreeOn P (f'.remove name) := by
  intro other hother
  by_cases heq : other = name
  · rw [heq, get?_remove_self, get?_remove_self]
  · rw [get?_remove_of_ne heq, get?_remove_of_ne heq, h other hother]

end Folder

namespace FileStore

open TableName (IsOf)

/-- What stays of a store as long as no other process is at work. -/
def setting (s : FileStore) : String × Quantity × Rival × Option SystemError × Clock :=
  (s.root, s.timeout, s.rival, s.trouble?, s.clock)

/-- At most the files in `touched` have changed. -/
structure Keeps (touched : String → Prop) (s s' : FileStore) : Prop where
  setting : s'.setting = s.setting
  folder : s.folder.Keeps touched s'.folder

/-- Whether a name is the lock of a table or a tombstone of it. -/
def IsLockOf (table : Text) (name : String) : Prop :=
  name = TableName.lock table ∨
    ∃ token, TableName.Purpose.isTag 32 token = true ∧ name = TableName.tombstone table token

section Keeps

variable {P Q : String → Prop} {s s' s'' : FileStore} {table : Text} {l : Lineage}
  {expected : Option Version}

theorem Keeps.refl (P : String → Prop) (s : FileStore) : s.Keeps P s :=
  ⟨rfl, Folder.Keeps.refl P _⟩

theorem Keeps.trans (h : s.Keeps P s') (h' : s'.Keeps P s'') : s.Keeps P s'' :=
  ⟨h'.setting.trans h.setting, h.folder.trans h'.folder⟩

theorem Keeps.mono (h : s.Keeps P s') (hsub : ∀ name, P name → Q name) : s.Keeps Q s' :=
  ⟨h.setting, h.folder.mono hsub⟩

theorem Keeps.rival (h : s.Keeps P s') : s'.rival = s.rival :=
  congrArg (fun x => x.2.2.1) h.setting

theorem IsLockOf.isOf {name : String} (h : IsLockOf table name) : IsOf table name := by
  rcases h with rfl | ⟨token, htoken, rfl⟩
  · exact TableName.isOf_lock table
  · exact ⟨.tombstone token, htoken, rfl⟩

theorem isLockOf_lock (table : Text) : IsLockOf table (TableName.lock table) := .inl rfl

theorem isLockOf_tombstone (table : Text) (s : FileStore) :
    IsLockOf table (TableName.tombstone table s.nextToken) :=
  .inr ⟨_, TableName.isTag_hexDigits 32 _, rfl⟩

theorem isOf_draft (table : Text) (s : FileStore) :
    IsOf table (TableName.draft table s.nextTag) :=
  ⟨.draft s.nextTag, TableName.isTag_hexDigits 8 _, rfl⟩

theorem keeps_restore (table : Text) (node : Node) :
    s.Keeps (IsLockOf table) (s.restore table node) := by
  unfold restore
  split
  · exact ⟨rfl, (Folder.Keeps.refl _ _).put (isLockOf_lock table) node⟩
  · exact ⟨rfl, Folder.Keeps.refl _ _⟩

theorem keeps_breakLock (h : s.rival = .none) (table : Text) :
    s.Keeps (IsLockOf table) (s.breakLock table).2 := by
  unfold breakLock
  rw [pass_of_quiet h]
  dsimp only
  split
  · exact Keeps.refl _ _
  · rename_i node hnode
    split
    · exact Keeps.refl _ _
    · have hrival : ({ s with
          folder := (s.folder.remove (TableName.lock table)).put
            (TableName.tombstone table s.nextToken) node }.useToken).rival = .none := h
      rw [pass_of_quiet hrival]
      have hmoved : s.folder.Keeps (IsLockOf table)
          ((s.folder.remove (TableName.lock table)).put
            (TableName.tombstone table s.nextToken) node) :=
        ((Folder.Keeps.refl _ _).remove (isLockOf_lock table)).put (isLockOf_tombstone table s) node
      split
      · exact ⟨rfl, hmoved.remove (isLockOf_tombstone table s)⟩
      · have hrestored := keeps_restore (s := { s with
          folder := (s.folder.remove (TableName.lock table)).put
            (TableName.tombstone table s.nextToken) node }.useToken) table node
        exact ⟨hrestored.setting,
          (hmoved.trans hrestored.folder).remove (isLockOf_tombstone table s)⟩

theorem keeps_visit (h : s.rival = .none) (table : Text) :
    s.Keeps (IsLockOf table) (s.visit table).2 := by
  unfold visit
  split
  · exact ⟨rfl, (Folder.Keeps.refl _ _).put (isLockOf_lock table) _⟩
  · rw [pass_of_quiet h]
    dsimp only
    split
    · exact Keeps.refl _ _
    · split
      · exact keeps_breakLock h table
      · exact Keeps.refl _ _

theorem keeps_wait (h : s.rival = .none) (since visits : Nat) (table : Text) :
    s.Keeps (IsLockOf table) (wait since visits table s).2 := by
  induction visits generalizing s with
  | zero => exact Keeps.refl _ _
  | succ visits ih =>
    have hvisit := keeps_visit h table
    have hrival : (s.visit table).2.rival = .none := hvisit.rival.trans h
    rw [wait]
    split
    · rename_i token s' heq
      rw [heq] at hvisit
      exact hvisit
    · rename_i s' heq
      rw [heq] at hvisit hrival
      exact hvisit.trans (ih hrival)
    · rename_i f s' heq
      rw [heq] at hvisit
      exact hvisit
    · rename_i s' heq
      rw [heq] at hvisit hrival
      split
      · exact hvisit
      · have hpolled : s'.Keeps (IsLockOf table) { s' with polls := s'.polls + 1 } :=
          ⟨rfl, Folder.Keeps.refl _ _⟩
        exact (hvisit.trans hpolled).trans (ih hrival)

theorem keeps_acquire (h : s.rival = .none) (table : Text) :
    s.Keeps (IsLockOf table) (s.acquire table).2 := by
  unfold acquire
  dsimp only
  split
  · exact Keeps.refl _ _
  · split
    · exact Keeps.refl _ _
    · exact keeps_wait h _ _ table

theorem keeps_release (table : Text) (token : String) :
    s.Keeps (IsLockOf table) (s.release table token) := by
  unfold release
  split
  · exact ⟨rfl, (Folder.Keeps.refl _ _).remove (isLockOf_lock table)⟩
  · exact Keeps.refl _ _

theorem keeps_install {draft : String} (hdraft : IsOf table draft) (bytes : List UInt8) :
    s.Keeps (IsOf table) (s.install table draft bytes).2 := by
  have hdropped := (Folder.Keeps.refl (IsOf table) s.folder).remove hdraft
  unfold install
  dsimp only
  split
  · exact ⟨rfl, hdropped⟩
  · exact ⟨rfl, hdropped⟩
  · exact ⟨rfl, hdropped.put (TableName.isOf_record table) _⟩

theorem keeps_publish (l : Lineage) (version : Version) :
    s.Keeps (IsOf l.table) (s.publish l version).2 := by
  have hdraft := isOf_draft l.table s
  have hdrafted := (Folder.Keeps.refl (IsOf l.table) s.folder).put hdraft (.file [] s.now)
  unfold publish
  dsimp only
  split
  · exact Keeps.refl _ _
  · split
    · exact ⟨rfl, hdrafted⟩
    · let filled : FileStore := { s with
        folder := (s.folder.put (TableName.draft l.table s.nextTag) (.file [] s.now)).put
          (TableName.draft l.table s.nextTag) (.file (Record.bytes l version.count) s.now)
        used := s.used + 1 }
      have hinstalled : filled.Keeps (IsOf l.table) (filled.install l.table
          (TableName.draft l.table s.nextTag) (Record.bytes l version.count)).2 :=
        keeps_install hdraft _
      exact ⟨hinstalled.setting, (hdrafted.put hdraft _).trans hinstalled.folder⟩

theorem keeps_writeLocked (h : s.rival = .none) (l : Lineage) (expected : Option Version)
    (token : String) : s.Keeps (IsOf l.table) (s.writeLocked l expected token).2 := by
  rw [writeLocked_of_quiet h]
  split
  · exact Keeps.refl _ _
  · unfold replace
    split
    · exact Keeps.refl _ _
    · split
      · exact ⟨rfl, Folder.Keeps.refl _ _⟩
      · have hpublish := keeps_publish (s := s) l (.next expected)
        split
        · rename_i f s' heq
          rw [heq] at hpublish
          exact hpublish
        · rename_i s' heq
          rw [heq] at hpublish
          exact hpublish

/-- A write changes no files but those of the lineage's table. -/
theorem keeps_write (h : s.rival = .none) (l : Lineage) (expected : Option Version) :
    s.Keeps (IsOf l.table) (s.write l expected).2 := by
  have hacquire := (keeps_acquire h l.table).mono fun _ => IsLockOf.isOf
  unfold write
  split
  · exact Keeps.refl _ _
  · split
    · rename_i f s' heq
      rw [heq] at hacquire
      exact hacquire
    · rename_i token s' heq
      rw [heq] at hacquire
      have hrival : s'.rival = .none := hacquire.rival.trans h
      have hwritten := keeps_writeLocked hrival l expected token
      generalize s'.writeLocked l expected token = out at hwritten ⊢
      obtain ⟨result, s''⟩ := out
      have hreleased := (keeps_release (s := s'') l.table token).mono fun _ => IsLockOf.isOf
      have hall := (hacquire.trans hwritten).trans hreleased
      dsimp only
      cases result with
      | error f => exact hall
      | ok written =>
        cases written with
        | false => exact hall
        | true => exact ⟨hall.setting, hall.folder⟩

/-- A removal changes no files but those of the table. -/
theorem keeps_delete (h : s.rival = .none) (table : Text) :
    s.Keeps (IsOf table) (s.delete table).2 := by
  have hacquire := (keeps_acquire h table).mono fun _ => IsLockOf.isOf
  unfold delete
  split
  · exact Keeps.refl _ _
  · split
    · rename_i f s' heq
      rw [heq] at hacquire
      exact hacquire
    · rename_i token s' heq
      rw [heq] at hacquire
      have hdeleted : s'.Keeps (IsOf table) (s'.deleteLocked table).2 := by
        unfold deleteLocked
        dsimp only
        split
        · exact Keeps.refl _ _
        · exact ⟨rfl, (Folder.Keeps.refl _ _).remove (TableName.isOf_record table)⟩
      have hreleased := (keeps_release (s := (s'.deleteLocked table).2) table token).mono
        fun _ => IsLockOf.isOf
      exact (hacquire.trans hdeleted).trans hreleased

end Keeps

/-- Two stores in which the calls on a table go the same way. They have the same path, the same
clock and the same tags to draw, nobody else is at work in either, and the table has the same files
in both. -/
structure Agree (table : Text) (s s' : FileStore) : Prop where
  rival : s.rival = .none
  rival' : s'.rival = .none
  root : s'.root = s.root
  timeout : s'.timeout = s.timeout
  polls : s'.polls = s.polls
  used : s'.used = s.used
  trouble : s'.trouble? = s.trouble?
  clock : s'.clock = s.clock
  files : s.folder.AgreeOn (IsOf table) s'.folder

/-- Two calls that have the same answer and leave the same files of a table. -/
def Alike {α : Type} (table : Text) (x x' : α × FileStore) : Prop :=
  x'.1 = x.1 ∧ x.2.Agree table x'.2

section Agree

variable {s s' : FileStore} {f f' : Folder} {table : Text} {l : Lineage} {node : Node}
  {expected : Option Version}

theorem Agree.withFolder (h : s.Agree table s') (hf : f.AgreeOn (IsOf table) f') :
    Agree table { s with folder := f } { s' with folder := f' } :=
  ⟨h.rival, h.rival', h.root, h.timeout, h.polls, h.used, h.trouble, h.clock, hf⟩

theorem Agree.useToken (h : s.Agree table s') : s.useToken.Agree table s'.useToken :=
  ⟨h.rival, h.rival', h.root, h.timeout, h.polls, congrArg (· + 1) h.used, h.trouble, h.clock,
    h.files⟩

theorem Agree.poll (h : s.Agree table s') :
    Agree table { s with polls := s.polls + 1 } { s' with polls := s'.polls + 1 } :=
  ⟨h.rival, h.rival', h.root, h.timeout, congrArg (· + 1) h.polls, h.used, h.trouble, h.clock,
    h.files⟩

/-- What a store has reported makes no difference. -/
theorem Agree.note (h : s.Agree table s') (e e' : Event) : (s.note e).Agree table (s'.note e') :=
  ⟨h.rival, h.rival', h.root, h.timeout, h.polls, h.used, h.trouble, h.clock, h.files⟩

theorem Agree.lock (h : s.Agree table s') :
    s'.folder.get? (TableName.lock table) = s.folder.get? (TableName.lock table) :=
  (h.files _ (TableName.isOf_lock table)).symm

theorem Agree.record (h : s.Agree table s') :
    s'.folder.get? (TableName.record table) = s.folder.get? (TableName.record table) :=
  (h.files _ (TableName.isOf_record table)).symm

theorem Agree.path (h : s.Agree table s') (name : String) : s'.path name = s.path name := by
  unfold FileStore.path
  rw [h.root]

theorem Agree.now (h : s.Agree table s') : s'.now = s.now := by
  unfold FileStore.now
  rw [h.polls]

theorem Agree.nextToken (h : s.Agree table s') : s'.nextToken = s.nextToken := by
  unfold FileStore.nextToken
  rw [h.used]

theorem Agree.nextTag (h : s.Agree table s') : s'.nextTag = s.nextTag := by
  unfold FileStore.nextTag
  rw [h.used]

theorem Agree.isAbandoned (h : s.Agree table s') (node : Node) :
    s'.isAbandoned node = s.isAbandoned node := by
  unfold FileStore.isAbandoned
  rw [h.now, h.timeout, h.clock]

theorem Agree.isDeadlineReached (h : s.Agree table s') (since : Nat) :
    s'.isDeadlineReached since = s.isDeadlineReached since := by
  unfold FileStore.isDeadlineReached
  rw [h.timeout, h.polls, h.clock]

theorem Agree.timedOut (h : s.Agree table s') : s'.timedOut table = s.timedOut table := by
  unfold FileStore.timedOut
  rw [h.timeout, h.path]

theorem Agree.maxVisits (h : s.Agree table s') : s'.maxVisits = s.maxVisits := by
  unfold FileStore.maxVisits
  rw [h.timeout, h.clock]

theorem Agree.owns (h : s.Agree table s') (token : String) :
    s'.owns table token = s.owns table token := by
  unfold FileStore.owns
  rw [h.lock]

theorem Agree.restore (h : s.Agree table s') (node : Node) :
    (s.restore table node).Agree table (s'.restore table node) := by
  unfold FileStore.restore
  rw [h.lock]
  split
  · exact h.withFolder (h.files.put _ node)
  · exact h.note _ _

theorem Agree.release (h : s.Agree table s') (token : String) :
    (s.release table token).Agree table (s'.release table token) := by
  unfold FileStore.release
  rw [h.owns]
  split
  · exact h.withFolder (h.files.remove _)
  · exact h

theorem Agree.breakLock (h : s.Agree table s') :
    Alike table (s.breakLock table) (s'.breakLock table) := by
  unfold FileStore.breakLock
  rw [pass_of_quiet h.rival, pass_of_quiet h.rival']
  dsimp only
  rw [h.lock, h.nextToken, h.path, h.path]
  split
  · exact ⟨rfl, h⟩
  · rename_i node hnode
    split
    · exact ⟨rfl, h⟩
    · have hmoved := (h.withFolder ((h.files.remove (TableName.lock table)).put
        (TableName.tombstone table s.nextToken) node)).useToken
      rw [pass_of_quiet hmoved.rival, pass_of_quiet hmoved.rival', hmoved.isAbandoned]
      split
      · exact ⟨rfl, (hmoved.withFolder (hmoved.files.remove _)).note _ _⟩
      · have hrestored := hmoved.restore node
        exact ⟨rfl, hrestored.withFolder (hrestored.files.remove _)⟩

theorem Agree.visit (h : s.Agree table s') : Alike table (s.visit table) (s'.visit table) := by
  unfold FileStore.visit
  rw [h.lock]
  split
  · unfold seize
    rw [h.nextToken, h.now]
    exact ⟨rfl, (h.withFolder (h.files.put _ _)).useToken⟩
  · rw [pass_of_quiet h.rival, pass_of_quiet h.rival']
    dsimp only
    rw [h.lock]
    split
    · exact ⟨rfl, h⟩
    · rw [h.isAbandoned]
      split
      · exact h.breakLock
      · exact ⟨rfl, h⟩

theorem Agree.wait (h : s.Agree table s') (since visits : Nat) :
    Alike table (wait since visits table s) (FileStore.wait since visits table s') := by
  induction visits generalizing s s' with
  | zero =>
    refine ⟨?_, h⟩
    show Except.error (s'.timedOut table) = .error (s.timedOut table)
    rw [h.timedOut]
  | succ visits ih =>
    obtain ⟨hanswer, hafter⟩ := h.visit
    rw [FileStore.wait, FileStore.wait]
    generalize s.visit table = x at hanswer hafter ⊢
    generalize s'.visit table = x' at hanswer hafter ⊢
    obtain ⟨visit, s⟩ := x
    obtain ⟨visit', s'⟩ := x'
    obtain rfl : visit' = visit := hanswer
    cases visit' with
    | acquired token => exact ⟨rfl, hafter⟩
    | again => exact ih hafter
    | stuck f => exact ⟨rfl, hafter⟩
    | held =>
      dsimp only at hafter ⊢
      rw [hafter.isDeadlineReached, hafter.timedOut]
      split
      · exact ⟨rfl, hafter⟩
      · exact ih hafter.poll

theorem Agree.acquire (h : s.Agree table s') :
    Alike table (s.acquire table) (s'.acquire table) := by
  unfold FileStore.acquire
  dsimp only
  rw [h.timeout, h.clock, h.path, h.polls, h.maxVisits]
  split
  · exact ⟨rfl, h⟩
  · split
    · exact ⟨rfl, h⟩
    · exact h.wait _ _

theorem Agree.readRecord (h : s.Agree table s') : s'.readRecord table = s.readRecord table := by
  unfold FileStore.readRecord
  rw [h.path, h.record]

theorem Agree.install (h : s.Agree table s') (draft : String) (bytes : List UInt8) :
    Alike table (s.install table draft bytes) (s'.install table draft bytes) := by
  unfold FileStore.install
  dsimp only
  rw [h.trouble, h.record, h.path, h.path, h.now]
  have hagree : ∀ f f' : Folder, f.AgreeOn (IsOf table) f' →
      Agree table { s with folder := f } { s' with folder := f', trouble? := s.trouble? } :=
    fun f f' hf => ⟨h.rival, h.rival', h.root, h.timeout, h.polls, h.used, rfl, h.clock, hf⟩
  split
  · exact ⟨rfl, hagree _ _ (h.files.remove _)⟩
  · exact ⟨rfl, hagree _ _ (h.files.remove _)⟩
  · exact ⟨rfl, hagree _ _ ((h.files.remove _).put _ _)⟩

theorem Agree.publish (h : s.Agree l.table s') (version : Version) :
    Alike l.table (s.publish l version) (s'.publish l version) := by
  unfold FileStore.publish
  dsimp only
  rw [h.nextTag, h.path, h.now]
  split
  · exact ⟨rfl, h⟩
  · have hdrafted := (h.withFolder (h.files.put (TableName.draft l.table s.nextTag)
      (.file [] s.now))).useToken
    split
    · exact ⟨rfl, hdrafted⟩
    · rw [hdrafted.now]
      exact (hdrafted.withFolder (hdrafted.files.put _ _)).install _ _

theorem Agree.writeLocked (h : s.Agree l.table s') (expected : Option Version) (token : String) :
    Alike l.table (s.writeLocked l expected token) (s'.writeLocked l expected token) := by
  rw [writeLocked_of_quiet h.rival, writeLocked_of_quiet h.rival', h.readRecord]
  split
  · exact ⟨rfl, h⟩
  · unfold replace
    rw [h.owns]
    split
    · exact ⟨rfl, h⟩
    · split
      · exact ⟨rfl, h.note _ _⟩
      · obtain ⟨hanswer, hafter⟩ := h.publish (.next expected)
        generalize s.publish l (.next expected) = x at hanswer hafter ⊢
        generalize s'.publish l (.next expected) = x' at hanswer hafter ⊢
        obtain ⟨result, s⟩ := x
        obtain ⟨result', s'⟩ := x'
        obtain rfl : result' = result := hanswer
        cases result' with
        | error f => exact ⟨rfl, hafter⟩
        | ok u => exact ⟨rfl, hafter⟩

/-- A write has the same answer and leaves the same files of its table. -/
theorem Agree.write (h : s.Agree l.table s') (expected : Option Version) :
    Alike l.table (s.write l expected) (s'.write l expected) := by
  unfold FileStore.write
  split
  · exact ⟨rfl, h⟩
  · obtain ⟨hanswer, hafter⟩ := h.acquire
    generalize s.acquire l.table = x at hanswer hafter ⊢
    generalize s'.acquire l.table = x' at hanswer hafter ⊢
    obtain ⟨result, s⟩ := x
    obtain ⟨result', s'⟩ := x'
    obtain rfl : result' = result := hanswer
    cases result' with
    | error f => exact ⟨rfl, hafter⟩
    | ok token =>
      obtain ⟨hanswer, hafter⟩ := Agree.writeLocked hafter expected token
      dsimp only at hanswer hafter ⊢
      generalize s.writeLocked l expected token = x at hanswer hafter ⊢
      generalize s'.writeLocked l expected token = x' at hanswer hafter ⊢
      obtain ⟨result, s⟩ := x
      obtain ⟨result', s'⟩ := x'
      obtain rfl : result' = result := hanswer
      have hreleased := hafter.release token
      cases result' with
      | error f => exact ⟨rfl, hreleased⟩
      | ok written =>
        cases written with
        | false => exact ⟨rfl, hreleased⟩
        | true => exact ⟨rfl, hreleased.note _ _⟩

theorem Agree.deleteLocked (h : s.Agree table s') :
    Alike table (s.deleteLocked table) (s'.deleteLocked table) := by
  unfold FileStore.deleteLocked
  dsimp only
  rw [h.record, h.path]
  split
  · exact ⟨rfl, h⟩
  · exact ⟨rfl, h.withFolder (h.files.remove _)⟩

/-- A removal has the same answer and leaves the same files of the table. -/
theorem Agree.delete (h : s.Agree table s') :
    Alike table (s.delete table) (s'.delete table) := by
  unfold FileStore.delete
  split
  · exact ⟨rfl, h⟩
  · obtain ⟨hanswer, hafter⟩ := h.acquire
    generalize s.acquire table = x at hanswer hafter ⊢
    generalize s'.acquire table = x' at hanswer hafter ⊢
    obtain ⟨result, s⟩ := x
    obtain ⟨result', s'⟩ := x'
    obtain rfl : result' = result := hanswer
    cases result' with
    | error f => exact ⟨rfl, hafter⟩
    | ok token =>
      obtain ⟨hanswer, hdeleted⟩ := Agree.deleteLocked hafter
      exact ⟨hanswer, hdeleted.release token⟩

/-- A reader gets the same answer. -/
theorem Agree.read (h : s.Agree table s') : s'.read table = s.read table := by
  unfold FileStore.read
  rw [h.readRecord]

end Agree

end FileStore

end SegmentSwap
