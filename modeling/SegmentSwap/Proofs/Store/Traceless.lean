import SegmentSwap.Proofs.Store.Faithful
import SegmentSwap.Proofs.Store.Returned

/-!
# What a conditional write leaves behind

A writer takes the lock of a table, reads the record, compares versions, looks whether the lock is
still its own and publishes. Others may take the lock away from it until then. Wherever it leaves,
the record is replaced as a whole or not at all, the lock goes unless it has become somebody else's,
and the draft goes, with one exception: a version that has too many digits to be written down leaves
an empty draft.
-/

namespace SegmentSwap

namespace Rival

/-- Whether a rival does nothing but overwrite or remove a lock that a writer has taken. -/
def mindsLock : Rival → Bool
  | .none => true
  | .overwriteLock _ => true
  | .removeLock => true
  | .preempt _ next => next.mindsLock
  | _ => false

/-- The text in a lock after what a rival does to it at a moment. -/
def relabel : Moment → Rival → Option String → Option String
  | .lockTaken, .preempt text? _, _ => text?
  | .recordRead, .overwriteLock text, _ => some text
  | .recordRead, .removeLock, _ => Option.none
  | _, _, text? => text?

/-- What a rival has in mind once the writer has the lock. -/
def settled : Rival → Rival
  | .preempt _ next => next
  | r => r

variable {r : Rival} {now : Rat} {lock record name : String} {f : Folder} {m : Moment}

theorem mindsLock_settled (h : r.mindsLock = true) : r.settled.mindsLock = true := by
  cases r <;> exact h

theorem act_lockTaken_snd : (r.act now lock record .lockTaken f).2 = r.settled := by
  cases r with
  | preempt text? next => cases text? <;> rfl
  | _ => rfl

/-- A rival that minds the lock leaves the files alone at a moment, or puts a text into the lock or
removes it. -/
theorem act_cases (h : r.mindsLock = true) :
    ((r.act now lock record m f).1 = f ∧ ∀ text?, r.relabel m text? = text?) ∨
      (∃ text, (r.act now lock record m f).1 = f.put lock (lockFile text now) ∧
        ∀ text?, r.relabel m text? = some text) ∨
      (r.act now lock record m f).1 = f.remove lock ∧ ∀ text?, r.relabel m text? = Option.none := by
  cases r with
  | none => cases m <;> exact .inl ⟨rfl, fun _ => rfl⟩
  | overwriteLock text =>
    cases m with
    | recordRead => exact .inr (.inl ⟨text, rfl, fun _ => rfl⟩)
    | _ => exact .inl ⟨rfl, fun _ => rfl⟩
  | removeLock =>
    cases m with
    | recordRead => exact .inr (.inr ⟨rfl, fun _ => rfl⟩)
    | _ => exact .inl ⟨rfl, fun _ => rfl⟩
  | preempt label? next =>
    cases m with
    | lockTaken =>
      cases label? with
      | none => exact .inr (.inr ⟨rfl, fun _ => rfl⟩)
      | some text => exact .inr (.inl ⟨text, rfl, fun _ => rfl⟩)
    | _ => exact .inl ⟨rfl, fun _ => rfl⟩
  | _ => cases h

theorem get?_act_lock (h : r.mindsLock = true) {text? : Option String}
    (hlock : f.get? lock = text?.map (lockFile · now)) :
    (r.act now lock record m f).1.get? lock = (r.relabel m text?).map (lockFile · now) := by
  rcases act_cases h with ⟨hact, hlabel⟩ | ⟨text, hact, hlabel⟩ | ⟨hact, hlabel⟩
  · rw [hact, hlabel, hlock]
  · rw [hact, hlabel, Folder.get?_put_self]
    rfl
  · rw [hact, hlabel, Folder.get?_remove_self]
    rfl

theorem get?_act_of_ne (h : r.mindsLock = true) (hname : name ≠ lock) :
    (r.act now lock record m f).1.get? name = f.get? name := by
  rcases act_cases h with ⟨hact, -⟩ | ⟨text, hact, -⟩ | ⟨hact, -⟩
  · rw [hact]
  · rw [hact, Folder.get?_put_of_ne hname]
  · rw [hact, Folder.get?_remove_of_ne hname]

end Rival

theorem TableName.draft_inj {table : Text} {tag tag' : String}
    (h : draft table tag = draft table tag') : tag = tag' := by
  unfold draft at h
  exact (String.append_right_inj _).mp (append_ending_inj h)

namespace FileStore

open TableName (lock record draft)

/-- Whether a writer gets the lock of a table if it is free. -/
def locks (s : FileStore) (table : Text) : Bool :=
  TableName.isAccepted table && s.clock.tells s.timeout && Folder.fits (lock table)

theorem locks_iff {s : FileStore} {table : Text} : s.locks table = true ↔
    TableName.isAccepted table = true ∧ s.clock.tells s.timeout = true ∧
      Folder.fits (lock table) = true := by
  simp only [locks, Bool.and_eq_true, and_assoc]

/-- The text in the lock of a table when a writer that has found it free is done. -/
def lockText? (s : FileStore) (table : Text) : Option String :=
  let taken := s.rival.relabel .lockTaken (some s.nextToken)
  match s.readRecord table with
  | .error _ => taken
  | .ok _ => s.rival.settled.relabel .recordRead taken

/-- Without a rival the lock holds the token of the writer. -/
theorem lockText?_of_quiet {s : FileStore} (h : s.rival = .none) (table : Text) :
    s.lockText? table = some s.nextToken := by
  unfold lockText?
  rw [h]
  cases s.readRecord table <;> rfl

/-- A writer of a table goes on to publish: it has found the version that it expects and still owns
the lock. -/
structure Publishes (s : FileStore) (l : Lineage) (expected : Option Version) : Prop where
  locks : s.locks l.table = true
  version : ∃ current, s.readRecord l.table = .ok current ∧
    Version.agree (current.bind (·.version?)) expected = true
  owns : s.lockText? l.table = some s.nextToken
  fits : Folder.fits (draft l.table s.useToken.nextTag) = true

/-- What a conditional write comes to, and what it leaves behind. -/
structure Traceless (s : FileStore) (l : Lineage) (expected : Option Version)
    (out : Except StoreFault Bool × FileStore) : Prop where
  refused : out.1 = .ok false ↔ s.locks l.table = true ∧
    ∃ current, s.readRecord l.table = .ok current ∧
      (Version.agree (current.bind (·.version?)) expected = false ∨
        s.lockText? l.table ≠ some s.nextToken)
  accepted : out.1 = .ok true ↔ s.Publishes l expected ∧
    isShowable (Version.next expected).count = true ∧ s.trouble? = none
  unreadable : s.locks l.table = true → ∀ f, s.readRecord l.table = .error f → out.1 = .error f
  tooLong : s.Publishes l expected → isShowable (Version.next expected).count = false →
    out.1 = .error .versionTooLong
  record : out.1 ≠ .ok true →
    out.2.folder.get? (TableName.record l.table) = s.folder.get? (TableName.record l.table)
  replaced : out.1 = .ok true → ∃ bytes modified,
    out.2.folder.get? (TableName.record l.table) = some (.file bytes modified) ∧
      ∀ path, Record.ofBytes path bytes = .ok ⟨l, some (.next expected)⟩ ↔ l.Returns
  lock : out.2.folder.get? (TableName.lock l.table) =
    if s.locks l.table = true ∧ s.lockText? l.table ≠ some s.nextToken then
      (s.lockText? l.table).map (lockFile · s.now)
    else none
  drafts : ∀ tag, s.folder.get? (draft l.table tag) = none →
    (out.2.folder.get? (draft l.table tag) ≠ none ↔ s.Publishes l expected ∧
      isShowable (Version.next expected).count = false ∧ tag = s.useToken.nextTag)
  others : ∀ name, name ≠ TableName.record l.table → name ≠ TableName.lock l.table →
    (∀ tag, name ≠ draft l.table tag) → out.2.folder.get? name = s.folder.get? name

/-- A writer of a table has taken its lock, which holds a text by now or has been removed. Nothing
else has changed. -/
structure Held (s : FileStore) (table : Text) (text? : Option String) (s' : FileStore) : Prop where
  lock : s'.folder.get? (TableName.lock table) = text?.map (lockFile · s.now)
  others : ∀ name, name ≠ TableName.lock table → s'.folder.get? name = s.folder.get? name
  root : s'.root = s.root
  trouble : s'.trouble? = s.trouble?
  polls : s'.polls = s.polls
  used : s'.used = s.used + 1

section Held

variable {s s' : FileStore} {table : Text} {text? : Option String} {m : Moment}

variable (s table) in
theorem held_seize : s.Held table (some s.nextToken) (s.seize table).2 :=
  ⟨Folder.get?_put_self, fun _ hname => get?_seize hname, rfl, rfl, rfl, rfl⟩

theorem Held.pass (h : s.Held table text? s') (hrival : s'.rival.mindsLock = true) :
    s.Held table (s'.rival.relabel m text?) (s'.pass table m) := by
  have hnow : s'.now = s.now := by
    unfold now
    rw [h.polls]
  refine ⟨?_, fun name hname => ?_, h.root, h.trouble, h.polls, h.used⟩
  · rw [← hnow]
    exact Rival.get?_act_lock hrival (hnow ▸ h.lock)
  · exact (Rival.get?_act_of_ne hrival hname).trans (h.others name hname)

theorem Held.note (h : s.Held table text? s') (e : Event) : s.Held table text? (s'.note e) :=
  ⟨h.lock, h.others, h.root, h.trouble, h.polls, h.used⟩

theorem Held.readRecord (h : s.Held table text? s') : s'.readRecord table = s.readRecord table :=
  readRecord_congr h.root (h.others _ (TableName.lock_ne_record table table).symm)

theorem Held.owns (h : s.Held table text? s') (token : String) :
    s'.owns table token = decide (text? = some token) := by
  unfold FileStore.owns
  rw [h.lock]
  cases text? with
  | none => rfl
  | some text =>
    have hinj : Text.Utf8.encode text = Text.Utf8.encode token ↔ text = token := by
      refine ⟨fun heq => ?_, fun heq => by rw [heq]⟩
      have hdecode := Text.Utf8.decode_encode text
      rw [heq, Text.Utf8.decode_encode] at hdecode
      exact (Except.ok.inj hdecode).symm
    show (Text.Utf8.encode text == Text.Utf8.encode token) = _
    rw [beq_eq_decide, decide_eq_decide, hinj, Option.some.injEq]

theorem get?_release_of_ne {token name : String} (h : name ≠ TableName.lock table) :
    (s.release table token).folder.get? name = s.folder.get? name := by
  unfold release
  split
  · exact Folder.get?_remove_of_ne h
  · rfl

/-- The lock is removed if it still holds the token. -/
theorem get?_release (h : s'.folder.get? (TableName.lock table) = text?.map (lockFile · s.now)) 
    (howns : s'.owns table s.nextToken = decide (text? = some s.nextToken)) :
    (s'.release table s.nextToken).folder.get? (TableName.lock table) =
      if text? ≠ some s.nextToken then text?.map (lockFile · s.now) else none := by
  unfold release
  rw [howns]
  by_cases htext : text? = some s.nextToken
  · rw [if_pos (decide_eq_true htext), if_neg (not_not_intro htext)]
    exact Folder.get?_remove_self
  · rw [decide_eq_false htext, if_pos htext]
    exact h

end Held

/-- The store with the draft of a record, before the draft gets its place. -/
def drafted (s : FileStore) (l : Lineage) (bytes : List UInt8) : FileStore :=
  { s with
    folder := (s.folder.put (draft l.table s.nextTag) (.file [] s.now)).put
      (draft l.table s.nextTag) (.file bytes s.now)
    used := s.used + 1 }

/-- What publishing a record comes to, if there is no directory in its place. -/
structure Published (s : FileStore) (l : Lineage) (version : Version)
    (out : Except StoreFault Unit × FileStore) : Prop where
  success : out.1 = .ok () ↔ Folder.fits (draft l.table s.nextTag) = true ∧
    isShowable version.count = true ∧ s.trouble? = none
  tooLong : Folder.fits (draft l.table s.nextTag) = true → isShowable version.count = false →
    out.1 = .error .versionTooLong
  record : out.1 ≠ .ok () →
    out.2.folder.get? (TableName.record l.table) = s.folder.get? (TableName.record l.table)
  replaced : out.1 = .ok () → ∃ modified, out.2.folder.get? (TableName.record l.table) =
    some (.file (Record.bytes l version.count) modified)
  drafted : s.folder.get? (draft l.table s.nextTag) = none →
    (out.2.folder.get? (draft l.table s.nextTag) ≠ none ↔
      Folder.fits (draft l.table s.nextTag) = true ∧ isShowable version.count = false)
  others : ∀ name, name ≠ TableName.record l.table → name ≠ draft l.table s.nextTag →
    out.2.folder.get? name = s.folder.get? name

section Publish

variable {s : FileStore} {l : Lineage} {version : Version}

theorem get?_drafted {bytes : List UInt8} {name : String} (h : name ≠ draft l.table s.nextTag) :
    (s.drafted l bytes).folder.get? name = s.folder.get? name :=
  (Folder.get?_put_of_ne h).trans (Folder.get?_put_of_ne h)

theorem publish_of_not_fits (h : Folder.fits (draft l.table s.nextTag) = false) :
    s.publish l version =
      (.error (.system ⟨.nameTooLong, [s.path (draft l.table s.nextTag)]⟩), s) := by
  unfold publish
  simp [h]

/-- A version that cannot be written down is noticed when there is a draft already. -/
theorem publish_of_not_showable (hfits : Folder.fits (draft l.table s.nextTag) = true)
    (h : isShowable version.count = false) : s.publish l version = (.error .versionTooLong,
      { s with folder := s.folder.put (draft l.table s.nextTag) (.file [] s.now) }.useToken) := by
  unfold publish
  simp [hfits, h]

theorem publish_of_showable (hfits : Folder.fits (draft l.table s.nextTag) = true)
    (h : isShowable version.count = true) : s.publish l version =
      (s.drafted l (Record.bytes l version.count)).install l.table (draft l.table s.nextTag)
        (Record.bytes l version.count) := by
  unfold publish
  simp only [hfits, h]
  rfl

theorem install_of_trouble (table : Text) (draft : String) (bytes : List UInt8) {e : SystemError}
    (h : s.trouble? = some e) :
    ∃ f, s.install table draft bytes = (.error f, { s with folder := s.folder.remove draft }) := by
  unfold install
  rw [h]
  exact ⟨_, rfl⟩

theorem published (hplace : s.folder.get? (TableName.record l.table) ≠ some .directory) :
    s.Published l version (s.publish l version) := by
  have hrecord := (TableName.draft_ne_record l.table l.table s.nextTag).symm
  cases hfits : Folder.fits (draft l.table s.nextTag) with
  | false =>
    rw [publish_of_not_fits hfits]
    exact ⟨by simp [hfits], by simp [hfits], fun _ => rfl, by simp, by simp [hfits],
      fun _ _ _ => rfl⟩
  | true =>
    cases hshowable : isShowable version.count with
    | false =>
      rw [publish_of_not_showable hfits hshowable]
      refine ⟨by simp [hshowable], fun _ _ => rfl, fun _ => Folder.get?_put_of_ne hrecord, by simp,
        fun _ => ?_, fun name _ hname => Folder.get?_put_of_ne hname⟩
      refine iff_of_true (fun hnone => ?_) ⟨hfits, hshowable⟩
      exact Option.some_ne_none _ (Folder.get?_put_self.symm.trans hnone)
    | true =>
      rw [publish_of_showable hfits hshowable]
      have hlost : ¬ (Folder.fits (draft l.table s.nextTag) = true ∧
          isShowable version.count = false) := fun h => by simp [hshowable] at h
      cases htrouble : s.trouble? with
      | some e =>
        obtain ⟨f, hinstall⟩ := install_of_trouble (s := s.drafted l _) l.table
          (draft l.table s.nextTag) (Record.bytes l version.count) htrouble
        rw [hinstall]
        refine ⟨by simp [htrouble], by simp [hshowable], fun _ => ?_, by simp, fun _ => ?_,
          fun name _ hname => ?_⟩
        · exact (Folder.get?_remove_of_ne hrecord).trans (get?_drafted hrecord)
        · exact iff_of_false (not_not_intro Folder.get?_remove_self) hlost
        · exact (Folder.get?_remove_of_ne hname).trans (get?_drafted hname)
      | none =>
        have hsound : (s.drafted l (Record.bytes l version.count)).trouble? = none := htrouble
        have hfree : (s.drafted l (Record.bytes l version.count)).folder.get?
            (TableName.record l.table) ≠ some .directory := by
          rw [get?_drafted hrecord]
          exact hplace
        rw [install_of_quiet hsound hfree]
        refine ⟨by simp [hfits, hshowable, htrouble], by simp [hshowable], by simp,
          fun _ => ⟨_, Folder.get?_put_self⟩, fun _ => ?_, fun name hname hdraft => ?_⟩
        · refine iff_of_false (not_not_intro ?_) hlost
          exact (Folder.get?_put_of_ne hrecord.symm).trans Folder.get?_remove_self
        · exact ((Folder.get?_put_of_ne hname).trans (Folder.get?_remove_of_ne hdraft)).trans
            (get?_drafted hdraft)

end Publish

section Write

variable {s s' : FileStore} {l : Lineage} {expected : Option Version}

variable (expected) in
/-- Nothing happens unless the lock can be taken. -/
theorem write_of_not_locks (h : s.locks l.table = false) :
    ∃ f, s.write l expected = (.error f, s) := by
  unfold write
  cases haccepted : TableName.isAccepted l.table with
  | false => exact ⟨_, rfl⟩
  | true =>
    have hacquire : ∃ f, s.acquire l.table = (.error f, s) := by
      unfold acquire
      cases htimeout : s.clock.tells s.timeout with
      | false => exact ⟨_, rfl⟩
      | true =>
        cases hfits : Folder.fits (TableName.lock l.table) with
        | false => exact ⟨_, rfl⟩
        | true => simp [locks, haccepted, htimeout, hfits] at h
    obtain ⟨f, hacquire⟩ := hacquire
    exact ⟨f, by rw [hacquire]; rfl⟩

variable (expected) in
/-- A writer that has got the lock releases it at the end. -/
theorem write_of_locks (h : s.locks l.table = true)
    (hfree : s.folder.get? (TableName.lock l.table) = none) :
    (s.write l expected).1 = ((s.seize l.table).2.writeLocked l expected s.nextToken).1 ∧
      (s.write l expected).2.folder = (((s.seize l.table).2.writeLocked l expected
        s.nextToken).2.release l.table s.nextToken).folder := by
  obtain ⟨haccepted, htimeout, hfits⟩ := locks_iff.mp h
  unfold write
  rw [haccepted, acquire_eq_seize htimeout hfits hfree]
  dsimp only
  generalize (s.seize l.table).2.writeLocked l expected s.nextToken = out
  obtain ⟨result, s'⟩ := out
  cases result with
  | error f => exact ⟨rfl, rfl⟩
  | ok written => cases written <;> exact ⟨rfl, rfl⟩

variable (l expected) in
/-- When the writer has read the record, the rival has done what it does to the lock. -/
theorem writeLocked_of_mindsLock (hrival : s.rival.mindsLock = true) :
    ∃ s', s.Held l.table (s.lockText? l.table) s' ∧
      (s.seize l.table).2.writeLocked l expected s.nextToken =
        match s.readRecord l.table with
        | .error f => (.error f, s')
        | .ok current => s'.replace l (current.bind (·.version?)) expected s.nextToken := by
  have hsettled : ((s.seize l.table).2.pass l.table .lockTaken).rival = s.rival.settled :=
    Rival.act_lockTaken_snd
  have htaken := (held_seize s l.table).pass (m := .lockTaken) hrival
  have hread := htaken.pass (m := .recordRead) (by
    rw [hsettled]
    exact Rival.mindsLock_settled hrival)
  rw [hsettled] at hread
  unfold writeLocked lockText?
  dsimp only
  rw [htaken.readRecord]
  cases s.readRecord l.table with
  | error f => exact ⟨_, htaken, rfl⟩
  | ok current => exact ⟨_, hread, rfl⟩

theorem publishes_iff {current : Option Versioned} (hlocks : s.locks l.table = true)
    (hread : s.readRecord l.table = .ok current) : s.Publishes l expected ↔
      Version.agree (current.bind (·.version?)) expected = true ∧
        s.lockText? l.table = some s.nextToken ∧
        Folder.fits (draft l.table s.useToken.nextTag) = true := by
  constructor
  · rintro ⟨-, ⟨found, hfound, hagree⟩, howns, hfits⟩
    obtain rfl := Except.ok.inj (hread.symm.trans hfound)
    exact ⟨hagree, howns, hfits⟩
  · rintro ⟨hagree, howns, hfits⟩
    exact ⟨hlocks, ⟨current, hread, hagree⟩, howns, hfits⟩

/-- A writer that does not get as far as to publish releases the lock and leaves the rest alone. -/
theorem Held.traceless {out : Except StoreFault Bool × FileStore}
    (h : s.Held l.table (s.lockText? l.table) s') (hlocks : s.locks l.table = true)
    (hfolder : out.2.folder = (s'.release l.table s.nextToken).folder)
    (hpublishes : ¬ s.Publishes l expected) (hresult : out.1 ≠ .ok true)
    (hunreadable : ∀ f, s.readRecord l.table = .error f → out.1 = .error f)
    (hrefused : out.1 = .ok false ↔ ∃ current, s.readRecord l.table = .ok current ∧
      (Version.agree (current.bind (·.version?)) expected = false ∨
        s.lockText? l.table ≠ some s.nextToken)) : s.Traceless l expected out := by
  have hothers : ∀ name, name ≠ TableName.lock l.table →
      out.2.folder.get? name = s.folder.get? name := by
    intro name hname
    rw [hfolder, get?_release_of_ne hname, h.others name hname]
  constructor
  case refused => rw [hrefused, and_iff_right hlocks]
  case accepted => exact iff_of_false hresult fun haccepted => hpublishes haccepted.1
  case unreadable => exact fun _ => hunreadable
  case tooLong => exact fun h => absurd h hpublishes
  case record => exact fun _ => hothers _ (TableName.lock_ne_record _ _).symm
  case replaced => exact fun haccepted => absurd haccepted hresult
  case lock =>
    rw [hfolder, get?_release h.lock (h.owns s.nextToken)]
    simp only [hlocks, true_and]
  case drafts =>
    intro tag hunused
    rw [hothers _ (TableName.draft_ne_lock _ _ _)]
    exact iff_of_false (not_not_intro hunused) fun hspoiled => hpublishes hspoiled.1
  case others => exact fun name _ hname _ => hothers name hname

/-- A writer that publishes releases the lock after that. -/
theorem Held.traceless_of_published {out : Except StoreFault Bool × FileStore}
    {published : Except StoreFault Unit × FileStore} {current : Option Versioned}
    (h : s.Held l.table (some s.nextToken) s') (hlocks : s.locks l.table = true)
    (hread : s.readRecord l.table = .ok current)
    (hagree : Version.agree (current.bind (·.version?)) expected = true)
    (howns : s.lockText? l.table = some s.nextToken)
    (hpublished : s'.Published l (.next expected) published)
    (hresult : out.1 = published.1.map fun _ => true)
    (hfolder : out.2.folder = (published.2.release l.table s.nextToken).folder) :
    s.Traceless l expected out := by
  have htag : s'.nextTag = s.useToken.nextTag := by
    unfold nextTag
    rw [h.used]
    rfl
  have hnext : .ofCount (Version.next expected).count = Version.next expected := by
    cases expected <;> rfl
  have hsuccess : out.1 = .ok true ↔ published.1 = .ok () := by
    rw [hresult]
    cases published.1 <;> simp [Except.map]
  obtain ⟨hcompleted, htooLong, hrecord, hreplaced, hdrafted, hothers⟩ := hpublished
  rw [htag] at hcompleted htooLong hdrafted hothers
  have hfits : s.Publishes l expected ↔ Folder.fits (draft l.table s.useToken.nextTag) = true := by
    rw [publishes_iff hlocks hread, and_iff_right hagree, and_iff_right howns]
  have hleft : ∀ name, name ≠ TableName.lock l.table →
      out.2.folder.get? name = published.2.folder.get? name := by
    intro name hname
    rw [hfolder, get?_release_of_ne hname]
  have hne : TableName.record l.table ≠ TableName.lock l.table :=
    (TableName.lock_ne_record _ _).symm
  constructor
  case refused =>
    refine iff_of_false (fun hrefused => ?_) ?_
    · rw [hresult] at hrefused
      cases hout : published.1 <;> rw [hout] at hrefused <;> cases hrefused
    · rintro ⟨-, found, hfound, hlost⟩
      obtain rfl := Except.ok.inj (hread.symm.trans hfound)
      rcases hlost with hdiffer | hlost
      · rw [hagree] at hdiffer
        cases hdiffer
      · exact hlost howns
  case accepted => rw [hsuccess, hcompleted, hfits, h.trouble]
  case unreadable =>
    intro _ f hfault
    rw [hread] at hfault
    cases hfault
  case tooLong =>
    intro hpublishes hshowable
    rw [hresult, htooLong (hfits.mp hpublishes) hshowable]
    rfl
  case record =>
    intro hfailed
    rw [hleft _ hne, hrecord (mt hsuccess.mpr hfailed), h.others _ hne]
  case replaced =>
    intro haccepted
    obtain ⟨modified, hfile⟩ := hreplaced (hsuccess.mp haccepted)
    refine ⟨_, modified, (hleft _ hne).trans hfile, fun path => ?_⟩
    rw [← Record.ofBytes_eq_iff (hcompleted.mp (hsuccess.mp haccepted)).2.1 path, hnext]
  case lock =>
    have hlock : published.2.folder.get? (TableName.lock l.table) =
        s'.folder.get? (TableName.lock l.table) :=
      hothers _ hne.symm (TableName.draft_ne_lock _ _ _).symm
    have howned : published.2.owns l.table s.nextToken = true := by
      have hheld := h.owns s.nextToken
      unfold FileStore.owns at hheld ⊢
      rw [hlock, hheld]
      exact decide_eq_true rfl
    rw [hfolder, release_of_owns howned, if_neg fun hlost => hlost.2 howns]
    exact Folder.get?_remove_self
  case drafts =>
    intro tag hunused
    have hlock := TableName.draft_ne_lock l.table l.table tag
    rw [hleft _ hlock]
    by_cases heq : tag = s.useToken.nextTag
    · subst heq
      rw [hdrafted ((h.others _ hlock).trans hunused), hfits]
      simp
    · have hdraft : draft l.table tag ≠ draft l.table s.useToken.nextTag :=
        fun hsame => heq (TableName.draft_inj hsame)
      rw [hothers _ (TableName.draft_ne_record _ _ _) hdraft, h.others _ hlock]
      exact iff_of_false (not_not_intro hunused) fun hspoiled => heq hspoiled.2.2
  case others =>
    intro name hname hlock hdraft
    rw [hleft _ hlock, hothers _ hname (hdraft _), h.others _ hlock]

/-- Publishing under the lock comes to the result of publishing. -/
theorem replace_of_owns {token : String} {current : Option Version}
    (hagree : Version.agree current expected = true) (howns : s.owns l.table token = true) :
    s.replace l current expected token =
      ((s.publish l (.next expected)).1.map fun _ => true, (s.publish l (.next expected)).2) := by
  unfold replace
  simp only [hagree, howns]
  generalize s.publish l (.next expected) = out
  obtain ⟨result, s'⟩ := out
  cases result <;> rfl

theorem ne_directory_of_readRecord {table : Text} {current : Option Versioned}
    (h : s.readRecord table = .ok current) :
    s.folder.get? (TableName.record table) ≠ some .directory := by
  intro hnode
  unfold readRecord at h
  rw [hnode] at h
  dsimp only at h
  split at h <;> cases h

/-- A writer that has read the record leaves it alone or publishes. -/
theorem Held.traceless_of_replace {out : Except StoreFault Bool × FileStore}
    {current : Option Versioned} (h : s.Held l.table (s.lockText? l.table) s')
    (hlocks : s.locks l.table = true) (hread : s.readRecord l.table = .ok current)
    (hresult : out.1 =
      (s'.replace l (current.bind (·.version?)) expected s.nextToken).1)
    (hfolder : out.2.folder = ((s'.replace l (current.bind (·.version?)) expected
      s.nextToken).2.release l.table s.nextToken).folder) : s.Traceless l expected out := by
  have howns := h.owns s.nextToken
  cases hagree : Version.agree (current.bind (·.version?)) expected with
  | false =>
    have hreplace : s'.replace l (current.bind (·.version?)) expected s.nextToken =
        (.ok false, s') := by
      unfold replace
      simp [hagree]
    rw [hreplace] at hresult hfolder
    refine h.traceless hlocks hfolder ?_ ?_ ?_ ?_
    · simp [publishes_iff hlocks hread, hagree]
    · simp [hresult]
    · simp [hread]
    · simp [hresult, hread, hagree]
  | true =>
    by_cases htext : s.lockText? l.table = some s.nextToken
    · rw [htext] at h howns
      rw [replace_of_owns hagree (howns.trans (decide_eq_true rfl))] at hresult hfolder
      have hplace : s'.folder.get? (TableName.record l.table) ≠ some .directory := by
        rw [h.others _ (TableName.lock_ne_record _ _).symm]
        exact ne_directory_of_readRecord hread
      exact h.traceless_of_published hlocks hread hagree htext (published hplace) hresult hfolder
    · have hreplace : s'.replace l (current.bind (·.version?)) expected s.nextToken =
          (.ok false, s'.note (.lockLost l.table expected)) := by
        unfold replace
        simp [hagree, howns, htext]
      rw [hreplace] at hresult hfolder
      refine (h.note _).traceless hlocks hfolder ?_ ?_ ?_ ?_
      · simp [publishes_iff hlocks hread, htext]
      · simp [hresult]
      · simp [hread]
      · simp [hresult, hread, htext]

theorem traceless_of_locks (hlocks : s.locks l.table = true) (hrival : s.rival.mindsLock = true)
    (hfree : s.folder.get? (TableName.lock l.table) = none) :
    s.Traceless l expected (s.write l expected) := by
  obtain ⟨hresult, hfolder⟩ := write_of_locks expected hlocks hfree
  obtain ⟨s', hheld, hlocked⟩ := writeLocked_of_mindsLock l expected hrival
  rw [hlocked] at hresult hfolder
  cases hread : s.readRecord l.table with
  | error f =>
    simp only [hread] at hresult hfolder
    refine hheld.traceless hlocks hfolder ?_ ?_ ?_ ?_
    · rintro ⟨-, ⟨current, hfound, -⟩, -, -⟩
      rw [hread] at hfound
      cases hfound
    · simp [hresult]
    · simp [hresult, hread]
    · simp [hresult, hread]
  | ok current =>
    simp only [hread] at hresult hfolder
    exact hheld.traceless_of_replace hlocks hread hresult hfolder

/-- A conditional write on a table whose lock is free changes nothing but the record of the table,
and that only if it takes effect. The lock goes, unless the rival has put another text into it, which
stays. A draft stays exactly if the next version is too long to be written down. -/
theorem write_traceless (l : Lineage) (expected : Option Version)
    (hrival : s.rival.mindsLock = true)
    (hfree : s.folder.get? (TableName.lock l.table) = none) :
    s.Traceless l expected (s.write l expected) := by
  cases hlocks : s.locks l.table with
  | true => exact traceless_of_locks hlocks hrival hfree
  | false =>
    obtain ⟨f, hwrite⟩ := write_of_not_locks expected hlocks
    have hpublishes : ¬ s.Publishes l expected := fun h => by
      rw [h.locks] at hlocks
      cases hlocks
    rw [hwrite]
    constructor
    case refused => simp [hlocks]
    case accepted => simp [hpublishes]
    case unreadable => simp [hlocks]
    case tooLong => exact fun h => absurd h hpublishes
    case record => exact fun _ => rfl
    case replaced => exact fun h => nomatch h
    case lock => simp [hlocks, hfree]
    case drafts => simp +contextual [hpublishes]
    case others => exact fun _ _ _ _ => rfl

end Write

/-- A store in which another process takes over the lock of the next writer. -/
def overtakenStore : FileStore :=
  { create "lineage" (.whole 1) with rival := .preempt (some "other") .none }

/-- A writer that loses its lock leaves the lock to its new owner and writes nothing. -/
theorem write_traceless_overtaken :
    overtakenStore.rival.mindsLock = true ∧
      overtakenStore.folder.get? (TableName.lock "t") = none ∧
      (overtakenStore.write (.empty "t") none).1 = .ok false ∧
      (overtakenStore.write (.empty "t") none).2.folder.get? (TableName.record "t") = none ∧
      (overtakenStore.write (.empty "t") none).2.folder.get? (TableName.lock "t") =
        some (lockFile "other" overtakenStore.now) := by
  have htext : overtakenStore.lockText? "t" = some "other" := rfl
  have hlost : overtakenStore.locks "t" = true ∧
      overtakenStore.lockText? "t" ≠ some overtakenStore.nextToken := by decide +kernel
  have hread : overtakenStore.readRecord "t" = .ok none := rfl
  have h := write_traceless (s := overtakenStore) (.empty "t") none rfl rfl
  have hresult := h.refused.mpr ⟨hlost.1, none, hread, .inr hlost.2⟩
  have hlock := h.lock
  rw [if_pos (by exact hlost)] at hlock
  refine ⟨rfl, rfl, hresult, h.record ?_, hlock.trans (congrArg (Option.map _) htext)⟩
  rw [hresult]
  exact fun heq => nomatch heq

/-- The largest version that can be written down. -/
def lastVersion : Int := (Nat.pow 10 maxIntegerDigits : Nat) - 1

/-- A store with a record that has the largest version. -/
def fullStore : FileStore :=
  { create "lineage" (.whole 1) with
    folder := ⟨[(record "t", .file (Record.bytes (.empty "t") lastVersion) 0)]⟩ }

theorem get?_fullStore {name : String} (h : name ≠ record "t") :
    fullStore.folder.get? name = none := by
  show List.lookup name [(record "t", _)] = none
  rw [List.lookup_cons, beq_eq_false_iff_ne.mpr h]
  rfl

theorem isShowable_lastVersion : isShowable lastVersion = true := by decide +kernel

theorem readRecord_fullStore : fullStore.readRecord "t" =
    .ok (some ⟨.empty "t", some (.ofCount lastVersion)⟩) := by
  have hfits : Folder.fits (record "t") = true := by decide +kernel
  have hstorable : (Lineage.empty "t").isStorable = true := by decide
  have hrecord : fullStore.folder.get? (record "t") =
      some (.file (Record.bytes (.empty "t") lastVersion) 0) := by
    show List.lookup (record "t") [(record "t", _)] = _
    rw [List.lookup_cons, beq_self_eq_true]
  unfold readRecord
  simp only [hfits, hrecord, Record.ofBytes_of_storable hstorable isShowable_lastVersion]
  rfl

theorem publishes_fullStore : fullStore.Publishes (.empty "t") (some (.ofCount lastVersion)) := by
  have hlocks : fullStore.locks "t" = true := by decide +kernel
  have hfits : Folder.fits (draft "t" fullStore.useToken.nextTag) = true := by decide +kernel
  exact ⟨hlocks, ⟨_, readRecord_fullStore, Version.agree_iff.mpr rfl⟩,
    lockText?_of_quiet (by decide +kernel) "t", hfits⟩

/-- The version after the largest one leaves a draft. -/
theorem long_version_leaves_draft :
    fullStore.rival.mindsLock = true ∧ fullStore.folder.get? (TableName.lock "t") = none ∧
      (fullStore.write (.empty "t") (some (.ofCount lastVersion))).1 = .error .versionTooLong ∧
      ¬ ∀ tag, fullStore.folder.get? (draft "t" tag) = none →
        (fullStore.write (.empty "t") (some (.ofCount lastVersion))).2.folder.get?
          (draft "t" tag) = none := by
  have hrival : fullStore.rival.mindsLock = true := by decide +kernel
  have hlock := get?_fullStore (TableName.lock_ne_record "t" "t")
  have hnext : isShowable (Version.next (some (.ofCount lastVersion))).count = false := by
    decide +kernel
  have h : fullStore.Traceless (.empty "t") (some (.ofCount lastVersion))
      (fullStore.write (.empty "t") (some (.ofCount lastVersion))) :=
    traceless_of_locks publishes_fullStore.locks hrival hlock
  refine ⟨hrival, hlock, h.tooLong publishes_fullStore hnext, fun hnone => ?_⟩
  have hunused := get?_fullStore (TableName.draft_ne_record "t" "t" fullStore.useToken.nextTag)
  exact (h.drafts _ hunused).mpr ⟨publishes_fullStore, hnext, rfl⟩ (hnone _ hunused)

end FileStore

end SegmentSwap
