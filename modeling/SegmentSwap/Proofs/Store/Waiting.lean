import Mathlib.Data.Nat.Find
import SegmentSwap.Failure
import SegmentSwap.Proofs.Store.Traceless

/-!
# Waiting for a lock

A writer that finds a foreign lock looks at it again and again. At each look the lock is broken if it
is too old, else the writer gives up if it has waited long enough, else it waits. As nobody else is
at work, the lock only grows older. So the first look at which one of the two limits is reached
decides: either the writer goes on as if there had been no lock, or it leaves everything as it was.

A lock is broken by way of a tombstone, so the file system has to take the name of the tombstone. It
is longer than that of the lock. Where it is too long, the writer fails on an abandoned lock with the
fault of the file system, and the lock stays.
-/

namespace SegmentSwap

/-- What has been put somewhere and removed again leaves the name free. -/
theorem Folder.remove_put (f : Folder) (name : String) (node : Node) :
    (f.put name node).remove name = f.remove name := by
  unfold put remove
  simp [List.filter_filter]

namespace TableName

theorem getLast?_tombstone (table : Text) (token : String) :
    (tombstone table token).toList.getLast? = some 'e' :=
  getLast?_file table (.tombstone token)

theorem lock_ne_tombstone (a b : Text) (token : String) : lock a ≠ tombstone b token :=
  ne_of_ending (getLast?_lock a) (getLast?_tombstone b token) (by decide)

theorem tombstone_ne_record (a b : Text) (token : String) : tombstone a token ≠ record b :=
  ne_of_ending (getLast?_tombstone a token) (getLast?_record b) (by decide)

theorem tombstone_ne_draft (a b : Text) (token tag : String) : tombstone a token ≠ draft b tag :=
  ne_of_ending (getLast?_tombstone a token) (getLast?_draft b tag) (by decide)

end TableName

namespace FileStore

open TableName (lock record tombstone lock_ne_tombstone tombstone_ne_record tombstone_ne_draft)

/-- The store after some more waits. -/
def waited (s : FileStore) (waits : Nat) : FileStore := { s with polls := s.polls + waits }

/-- The store in which a lock has been given its tombstone. -/
def renamed (s : FileStore) (table : Text) (node : Node) : FileStore :=
  { s with folder := (s.folder.remove (lock table)).put (tombstone table s.nextToken)
            node }.useToken

/-- The store after an abandoned lock has been removed by way of its tombstone. -/
def cleared (s : FileStore) (table : Text) : FileStore :=
  ({ s with folder := (s.folder.remove (lock table)).remove (tombstone table s.nextToken)
            used := s.used + 1 }).note (.staleLockRemoved (s.path (lock table)))

/-- The fault of a writer that cannot give an abandoned lock its tombstone. -/
def unbreakable (s : FileStore) (table : Text) : StoreFault :=
  .system ⟨.nameTooLong, [s.path (lock table), s.path (tombstone table s.nextToken)]⟩

theorem kind_unbreakable (s : FileStore) (table : Text) :
    (s.unbreakable table).kind = .system .nameTooLong := rfl

section Steps

variable {s : FileStore} {table : Text} {bytes : List UInt8} {modified : Rat} {since visits : Nat}

theorem get?_lock_cleared : (s.cleared table).folder.get? (lock table) = none :=
  (Folder.get?_remove_of_ne (lock_ne_tombstone table table _)).trans Folder.get?_remove_self

theorem visit_of_foreign (hrival : s.rival = .none)
    (hlock : s.folder.get? (lock table) = some (.file bytes modified)) :
    s.visit table = if s.isAbandoned (.file bytes modified) then s.breakLock table
      else (.held, s) := by
  unfold visit
  rw [hlock]
  dsimp only
  rw [pass_of_quiet hrival, hlock]

/-- An abandoned lock is removed. -/
theorem breakLock_of_abandoned (hrival : s.rival = .none)
    (hlock : s.folder.get? (lock table) = some (.file bytes modified))
    (hfits : Folder.fits (tombstone table s.nextToken) = true)
    (h : s.isAbandoned (.file bytes modified) = true) :
    s.breakLock table = (.again, s.cleared table) := by
  have hrenamed : (s.renamed table (.file bytes modified)).rival = .none := hrival
  have hstill : (s.renamed table (.file bytes modified)).isAbandoned (.file bytes modified) =
      true := h
  have hgone : (s.renamed table (.file bytes modified)).folder.remove
      (tombstone table s.nextToken) =
        (s.folder.remove (lock table)).remove (tombstone table s.nextToken) :=
    Folder.remove_put _ _ _
  unfold breakLock
  rw [pass_of_quiet hrival]
  dsimp only
  rw [hlock]
  simp only [hfits, Bool.not_true, Bool.false_eq_true, if_false]
  rw [← renamed, pass_of_quiet hrenamed, if_pos hstill, hgone]
  rfl

theorem breakLock_of_long (hrival : s.rival = .none)
    (hlock : s.folder.get? (lock table) = some (.file bytes modified))
    (hlong : Folder.fits (tombstone table s.nextToken) = false) :
    s.breakLock table = (.stuck (s.unbreakable table), s) := by
  unfold breakLock
  rw [pass_of_quiet hrival]
  dsimp only
  rw [hlock]
  simp only [hlong, Bool.not_false, if_true]
  rfl

theorem wait_of_abandoned (hrival : s.rival = .none)
    (hlock : s.folder.get? (lock table) = some (.file bytes modified))
    (hfits : Folder.fits (tombstone table s.nextToken) = true)
    (h : s.isAbandoned (.file bytes modified) = true) :
    wait since (visits + 1) table s = wait since visits table (s.cleared table) := by
  rw [wait, visit_of_foreign hrival hlock, if_pos h, breakLock_of_abandoned hrival hlock hfits h]

/-- A writer that has waited long enough gives up. -/
theorem wait_of_deadline (hrival : s.rival = .none)
    (hlock : s.folder.get? (lock table) = some (.file bytes modified))
    (h : s.isAbandoned (.file bytes modified) = false) (hover : s.isDeadlineReached since = true) :
    wait since (visits + 1) table s = (.error (s.timedOut table), s) := by
  rw [wait, visit_of_foreign hrival hlock, h, if_neg Bool.false_ne_true]
  dsimp only
  rw [if_pos hover]

theorem wait_of_early (hrival : s.rival = .none)
    (hlock : s.folder.get? (lock table) = some (.file bytes modified))
    (h : s.isAbandoned (.file bytes modified) = false) (hover : s.isDeadlineReached since = false) :
    wait since (visits + 1) table s = wait since visits table (s.waited 1) := by
  rw [wait, visit_of_foreign hrival hlock, h, if_neg Bool.false_ne_true]
  dsimp only
  rw [hover, if_neg Bool.false_ne_true]
  rfl

/-- As long as no limit is reached, the writer waits. -/
theorem wait_of_waits {k : Nat} (hrival : s.rival = .none)
    (hlock : s.folder.get? (lock table) = some (.file bytes modified))
    (h : ∀ i < k, (s.waited i).isAbandoned (.file bytes modified) = false ∧
      (s.waited i).isDeadlineReached since = false) :
    wait since (visits + k) table s = wait since visits table (s.waited k) := by
  induction k generalizing visits with
  | zero => rfl
  | succ k ih =>
    obtain ⟨hheld, hearly⟩ := h k (Nat.lt_succ_self k)
    have hvisits : visits + (k + 1) = visits + 1 + k := by omega
    rw [hvisits, ih fun i hi => h i (Nat.lt_succ_of_lt hi),
      wait_of_early (s := s.waited k) hrival hlock hheld hearly]
    rfl

/-- A writer fails on an abandoned lock that cannot be given its tombstone. -/
theorem wait_of_long (hrival : s.rival = .none)
    (hlock : s.folder.get? (lock table) = some (.file bytes modified))
    (hlong : Folder.fits (tombstone table s.nextToken) = false)
    (h : s.isAbandoned (.file bytes modified) = true) :
    wait since (visits + 1) table s = (.error (s.unbreakable table), s) := by
  rw [wait, visit_of_foreign hrival hlock, if_pos h, breakLock_of_long hrival hlock hlong]

/-- The first limit that is reached decides: the lock is free at once unless its tombstone has too
long a name, or the writer gives up. -/
theorem acquire_of_foreign (hrival : s.rival = .none)
    (htimeout : s.clock.tells s.timeout = true) (hfits : Folder.fits (lock table) = true)
    (hlock : s.folder.get? (lock table) = some (.file bytes modified))
    (hover : (s.waited (s.clock.patience s.timeout)).isDeadlineReached s.polls = true) :
    ∃ k, (∀ i < k, (s.waited i).isAbandoned (.file bytes modified) = false ∧
        (s.waited i).isDeadlineReached s.polls = false) ∧
      ((s.waited k).isAbandoned (.file bytes modified) = true ∧
          Folder.fits (tombstone table s.nextToken) = true ∧
          s.acquire table = ((s.waited k).cleared table).acquire table ∨
        (s.waited k).isAbandoned (.file bytes modified) = true ∧
          Folder.fits (tombstone table s.nextToken) = false ∧
          s.acquire table = (.error (s.unbreakable table), s.waited k) ∨
        (s.waited k).isAbandoned (.file bytes modified) = false ∧
          (s.waited k).isDeadlineReached s.polls = true ∧
          s.acquire table = (.error (s.timedOut table), s.waited k)) := by
  have hends : ∃ k, (s.waited k).isAbandoned (.file bytes modified) = true ∨
      (s.waited k).isDeadlineReached s.polls = true := ⟨_, .inr hover⟩
  obtain ⟨k, hk, hend, hbefore⟩ : ∃ k ≤ s.clock.patience s.timeout,
      ((s.waited k).isAbandoned (.file bytes modified) = true ∨
        (s.waited k).isDeadlineReached s.polls = true) ∧
      ∀ i < k, (s.waited i).isAbandoned (.file bytes modified) = false ∧
        (s.waited i).isDeadlineReached s.polls = false := by
    refine ⟨Nat.find hends, Nat.find_min' hends (.inr hover), Nat.find_spec hends, ?_⟩
    intro i hi
    have hnot := Nat.find_min hends hi
    rw [not_or, Bool.not_eq_true, Bool.not_eq_true] at hnot
    exact hnot
  have hacquire : s.acquire table =
      wait s.polls (s.clock.patience s.timeout - k + 7 + 1) table (s.waited k) := by
    have hvisits : s.maxVisits = s.clock.patience s.timeout - k + 7 + 1 + k := by
      unfold maxVisits
      omega
    rw [acquire_eq_wait htimeout hfits, hvisits, wait_of_waits hrival hlock hbefore]
  refine ⟨k, hbefore, ?_⟩
  cases habandoned : (s.waited k).isAbandoned (.file bytes modified) with
  | true =>
    cases hbreakable : Folder.fits (tombstone table s.nextToken) with
    | true =>
      refine .inl ⟨rfl, rfl, ?_⟩
      rw [hacquire, wait_of_abandoned (s := s.waited k) hrival hlock hbreakable habandoned,
        wait_of_free _ _ get?_lock_cleared]
      exact (acquire_eq_seize (s := (s.waited k).cleared table) htimeout hfits
        get?_lock_cleared).symm
    | false =>
      refine .inr (.inl ⟨rfl, rfl, ?_⟩)
      rw [hacquire, wait_of_long (s := s.waited k) hrival hlock hbreakable habandoned]
      rfl
  | false =>
    have hreached := hend.resolve_left (by rw [habandoned]; exact Bool.false_ne_true)
    refine .inr (.inr ⟨rfl, hreached, ?_⟩)
    rw [hacquire, wait_of_deadline (s := s.waited k) hrival hlock habandoned hreached]
    rfl

end Steps

/-- How many seconds ago a file was changed. -/
def age (s : FileStore) (modified : Rat) : Rat := (s.now - modified) / 1000

/-- A call on a table goes on, after some waits, as if there had been no lock, and leaves neither a
lock nor a tombstone. -/
structure GoesOn {α : Type} (s : FileStore) (table : Text) (waits : Nat)
    (call : FileStore → Except StoreFault α × FileStore) : Prop where
  same : call s = call ((s.waited waits).cleared table)
  lock : (call s).2.folder.get? (TableName.lock table) = none
  tombstones : ∀ token, s.folder.get? (tombstone table token) = none →
    (call s).2.folder.get? (tombstone table token) = none

section Calls

variable {s s' : FileStore} {table : Text} {l : Lineage} {expected : Option Version}
  {bytes : List UInt8} {modified t : Rat} {k : Nat}

theorem tells_of_exact (hclock : s.clock = .exact) : s.clock.tells s.timeout = true := by
  rw [hclock]
  rfl

theorem isAbandoned_iff (hclock : s.clock = .exact)
    (htimeout : s.timeout.value? = some (.finite t)) :
    s.isAbandoned (.file bytes modified) = true ↔ t < s.age modified := by
  have hspan : s.clock.reading s.now - s.clock.reading modified = s.age modified := by
    rw [hclock]
    unfold Clock.reading age
    ring
  unfold isAbandoned Clock.isWithin
  dsimp only
  rw [hspan, htimeout]
  simp [Extended.lt]

theorem isDeadlineReached_iff (hclock : s.clock = .exact)
    (htimeout : s.timeout.value? = some (.finite t)) :
    (s.waited k).isDeadlineReached s.polls = true ↔ t ≤ (k : Rat) / 100 := by
  have hwaits : (s.waited k).polls - s.polls = k := Nat.add_sub_cancel_left _ _
  have hstill : (s.waited k).clock = .exact := hclock
  have hlimit : (s.waited k).timeout.value? = some (.finite t) := htimeout
  unfold isDeadlineReached Clock.isOver Clock.limit? Clock.elapsed?
  rw [hwaits, hstill]
  dsimp only
  rw [hlimit]
  simp [Extended.lt]

/-- A limit is reached as long as it is finite. -/
theorem isDeadlineReached_patience (hclock : s.clock = .exact)
    (htimeout : s.timeout.value? = some (.finite t)) :
    (s.waited (s.clock.patience s.timeout)).isDeadlineReached s.polls = true := by
  rw [isDeadlineReached_iff hclock htimeout, hclock]
  unfold Clock.patience Clock.limit?
  dsimp only
  rw [htimeout]
  have hceil : t * 400 ≤ ((t * 400).ceil.toNat : Rat) :=
    Rat.le_ceil.trans (by exact_mod_cast Int.self_le_toNat (t * 400).ceil)
  have hnonneg : (0 : Rat) ≤ ((t * 400).ceil.toNat : Rat) := Nat.cast_nonneg _
  push_cast
  linarith

theorem write_of_acquire_eq (haccepted : TableName.isAccepted l.table = true)
    (h : s.acquire l.table = s'.acquire l.table) (expected : Option Version) :
    s.write l expected = s'.write l expected := by
  unfold write
  rw [haccepted, h]
  rfl

theorem write_of_acquire_error {f : StoreFault} (haccepted : TableName.isAccepted l.table = true)
    (h : s.acquire l.table = (.error f, s')) (expected : Option Version) :
    s.write l expected = (.error f, s') := by
  unfold write
  rw [haccepted, h]
  rfl

theorem delete_of_acquire_eq (haccepted : TableName.isAccepted table = true)
    (h : s.acquire table = s'.acquire table) : s.delete table = s'.delete table := by
  unfold delete
  rw [haccepted, h]
  rfl

theorem delete_of_acquire_error {f : StoreFault} (haccepted : TableName.isAccepted table = true)
    (h : s.acquire table = (.error f, s')) : s.delete table = (.error f, s') := by
  unfold delete
  rw [haccepted, h]
  rfl

/-- A writer that has found the lock free leaves it free, and makes no tombstones. -/
theorem leaves_write (hlocks : s.locks l.table = true) (hrival : s.rival = .none)
    (hfree : s.folder.get? (lock l.table) = none) (expected : Option Version) :
    (s.write l expected).2.folder.get? (lock l.table) = none ∧
      ∀ token, (s.write l expected).2.folder.get? (tombstone l.table token) =
        s.folder.get? (tombstone l.table token) := by
  have hminds : s.rival.mindsLock = true := by rw [hrival]; rfl
  have h : s.Traceless l expected (s.write l expected) := traceless_of_locks hlocks hminds hfree
  refine ⟨?_, fun token => h.others _ (tombstone_ne_record _ _ _)
    (lock_ne_tombstone _ _ _).symm fun tag => tombstone_ne_draft _ _ _ _⟩
  rw [h.lock, if_neg fun hlost => hlost.2 (lockText?_of_quiet hrival _)]

theorem leaves_delete (hlocks : s.locks table = true)
    (hfree : s.folder.get? (lock table) = none) :
    (s.delete table).2.folder.get? (lock table) = none ∧
      ∀ token, (s.delete table).2.folder.get? (tombstone table token) =
        s.folder.get? (tombstone table token) := by
  obtain ⟨haccepted, htimeout, hfits⟩ := locks_iff.mp hlocks
  have hkept : ∀ name, name ≠ record table →
      ((s.seize table).2.deleteLocked table).2.folder.get? name =
        (s.seize table).2.folder.get? name := by
    intro name hname
    unfold deleteLocked
    dsimp only
    split
    · rfl
    · exact Folder.get?_remove_of_ne hname
  have hlock := TableName.lock_ne_record table table
  have howns : ((s.seize table).2.deleteLocked table).2.owns table s.nextToken = true := by
    rw [← owns_seize]
    unfold owns
    rw [hkept _ hlock]
  have hfolder : (s.delete table).2.folder =
      ((s.seize table).2.deleteLocked table).2.folder.remove (lock table) := by
    unfold delete
    rw [haccepted, acquire_eq_seize htimeout hfits hfree]
    exact congrArg FileStore.folder (release_of_owns howns)
  rw [hfolder]
  refine ⟨Folder.get?_remove_self, fun token => ?_⟩
  have htombstone := (lock_ne_tombstone table table token).symm
  rw [Folder.get?_remove_of_ne htombstone, hkept _ (tombstone_ne_record _ _ _),
    get?_seize htombstone]

theorem get?_cleared_of_free {name : String} (hname : name ≠ lock table)
    (hfree : s.folder.get? name = none) : (s.cleared table).folder.get? name = none := by
  by_cases heq : name = tombstone table s.nextToken
  · rw [heq]
    exact Folder.get?_remove_self
  · exact ((Folder.get?_remove_of_ne heq).trans (Folder.get?_remove_of_ne hname)).trans hfree

theorem goesOn_of_leaves {α : Type} {call : FileStore → Except StoreFault α × FileStore}
    (hsame : call s = call ((s.waited k).cleared table))
    (hleaves : (call ((s.waited k).cleared table)).2.folder.get? (lock table) = none ∧
      ∀ token, (call ((s.waited k).cleared table)).2.folder.get? (tombstone table token) =
        ((s.waited k).cleared table).folder.get? (tombstone table token)) :
    s.GoesOn table k call := by
  refine ⟨hsame, ?_, fun token hunused => ?_⟩
  · rw [hsame]
    exact hleaves.1
  · rw [hsame, hleaves.2 token]
    exact get?_cleared_of_free (lock_ne_tombstone _ _ _).symm hunused

/-- A writer or a remover that finds a lock file looks at it until it is older than the time limit or
until it has waited for that time, whichever comes first. In the second case it gives up and has
changed nothing. In the first one it does what it would have done without the lock if the file system
takes the name of the tombstone, and else it fails with the fault of the file system and has changed
nothing either. -/
theorem foreign_lock_resolved (s : FileStore) (table : Text) (hclock : s.clock = .exact)
    (hrival : s.rival = .none) (haccepted : TableName.isAccepted table = true)
    (hfits : Folder.fits (lock table) = true) (htimeout : s.timeout.value? = some (.finite t))
    (hlock : s.folder.get? (lock table) = some (.file bytes modified)) :
    ∃ k : Nat, (∀ i < k, (s.waited i).age modified ≤ t ∧ (i : Rat) / 100 < t) ∧
      (t < (s.waited k).age modified ∧ Folder.fits (tombstone table s.nextToken) = true ∧
          (∀ l expected, l.table = table → s.GoesOn table k (·.write l expected)) ∧
          s.GoesOn table k (·.delete table) ∨
        t < (s.waited k).age modified ∧ Folder.fits (tombstone table s.nextToken) = false ∧
          (∀ l expected, l.table = table →
            s.write l expected = (.error (s.unbreakable table), s.waited k)) ∧
          s.delete table = (.error (s.unbreakable table), s.waited k) ∨
        (s.waited k).age modified ≤ t ∧ t ≤ (k : Rat) / 100 ∧
          (∀ l expected, l.table = table →
            s.write l expected = (.error (s.timedOut table), s.waited k)) ∧
          s.delete table = (.error (s.timedOut table), s.waited k)) := by
  have hrange := tells_of_exact hclock
  obtain ⟨k, hbefore, hend⟩ := acquire_of_foreign hrival hrange hfits hlock
    (isDeadlineReached_patience hclock htimeout)
  have habandoned : ∀ i, (s.waited i).isAbandoned (.file bytes modified) = true ↔
      t < (s.waited i).age modified := fun i => isAbandoned_iff hclock htimeout
  have hreached : ∀ i, (s.waited i).isDeadlineReached s.polls = true ↔ t ≤ (i : Rat) / 100 :=
    fun i => isDeadlineReached_iff hclock htimeout
  refine ⟨k, fun i hi => ?_, ?_⟩
  · obtain ⟨hyoung, hearly⟩ := hbefore i hi
    rw [← Bool.not_eq_true, habandoned, not_lt] at hyoung
    rw [← Bool.not_eq_true, hreached, not_le] at hearly
    exact ⟨hyoung, hearly⟩
  · rcases hend with ⟨hold, hbreakable, hacquire⟩ | ⟨hold, hlong, hacquire⟩ |
      ⟨hyoung, hover, hacquire⟩
    · have hlocks : ((s.waited k).cleared table).locks table = true :=
        locks_iff.mpr ⟨haccepted, hrange, hfits⟩
      refine .inl ⟨(habandoned k).mp hold, hbreakable, ?_, ?_⟩
      · rintro l expected rfl
        exact goesOn_of_leaves (write_of_acquire_eq haccepted hacquire expected)
          (leaves_write hlocks hrival get?_lock_cleared expected)
      · exact goesOn_of_leaves (delete_of_acquire_eq haccepted hacquire)
          (leaves_delete hlocks get?_lock_cleared)
    · refine .inr (.inl ⟨(habandoned k).mp hold, hlong, ?_,
        delete_of_acquire_error haccepted hacquire⟩)
      rintro l expected rfl
      exact write_of_acquire_error haccepted hacquire expected
    · rw [← Bool.not_eq_true, habandoned, not_lt] at hyoung
      refine .inr (.inr ⟨hyoung, (hreached k).mp hover, ?_,
        delete_of_acquire_error haccepted hacquire⟩)
      rintro l expected rfl
      exact write_of_acquire_error haccepted hacquire expected

end Calls

/-- A store with a lock that will not be abandoned before four seconds have gone by. -/
def heldStore : FileStore :=
  { create "lineage" (.whole 1) with
    clock := .exact
    folder := ⟨[("t.lock", lockFile "other" 3000)]⟩ }

/-- A writer that waits for a second at most makes a hundred waits and gives up. -/
theorem foreign_lock_resolved_held :
    (heldStore.clock = .exact ∧ heldStore.rival = .none ∧ TableName.isAccepted "t" = true ∧
      Folder.fits (lock "t") = true ∧ heldStore.timeout.value? = some (.finite 1) ∧
      heldStore.folder.get? (lock "t") = some (lockFile "other" 3000)) ∧
    heldStore.write (.empty "t") none = (.error (heldStore.timedOut "t"), heldStore.waited 100) := by
  have hfits : Folder.fits (lock "t") = true := by decide +kernel
  have hlock : heldStore.folder.get? (lock "t") = some (lockFile "other" 3000) := rfl
  have htimeout : heldStore.timeout.value? = some (.finite 1) := rfl
  obtain ⟨k, hbefore, hend⟩ :=
    foreign_lock_resolved heldStore "t" rfl rfl rfl hfits htimeout hlock
  have hk : k ≤ 100 := by
    by_contra hlater
    have hover := (hbefore 100 (by omega)).2
    norm_num at hover
  refine ⟨⟨rfl, rfl, rfl, hfits, htimeout, hlock⟩, ?_⟩
  -- a lock from the future is not that old yet
  have hyoung : ¬ 1 < (heldStore.waited k).age 3000 := by
    have hage : (heldStore.waited k).age 3000 = (10 * (k : Rat) - 3000) / 1000 := by
      show (10 * ((0 + k : Nat) : Rat) - 3000) / 1000 = _
      rw [Nat.zero_add]
    have hcast : (k : Rat) ≤ 100 := by exact_mod_cast hk
    rw [hage]
    linarith
  rcases hend with ⟨hold, -⟩ | ⟨hold, -⟩ | ⟨-, hover, hwrite, -⟩
  · exact absurd hold hyoung
  · exact absurd hold hyoung
  · have hreached : (100 : Rat) ≤ k := by linarith
    have hlast : k = 100 := Nat.le_antisymm hk (by exact_mod_cast hreached)
    rw [← hlast]
    exact hwrite (.empty "t") none rfl

/-- The name of a table that is so long that a lock of it can be made and a tombstone cannot. -/
def longName : Text := .ofChars (List.replicate 215 'a')

/-- A store with a lock of that table that was abandoned a minute ago. -/
def stuckStore : FileStore :=
  { create "lineage" (.whole 1) with
    clock := .exact
    folder := ⟨[(lock longName, lockFile "other" (-60000))]⟩ }

/-- A writer and a remover fail on this lock with a fault that none of their callers expects, and leave
it where it is. Without the lock the writer would have written. With a time limit that is finite but
beyond the doubles, a writer whose clock tells doubles fails before it looks at a lock. -/
theorem abandoned_lock_stays :
    (TableName.isAccepted longName = true ∧ Folder.fits (lock longName) = true ∧
        stuckStore.folder.get? (lock longName) = some (lockFile "other" (-60000)) ∧
        stuckStore.timeout.value? = some (.finite 1) ∧ 1 < stuckStore.age (-60000)) ∧
      (stuckStore.write (.empty longName) none =
          (.error (stuckStore.unbreakable longName), stuckStore) ∧
        stuckStore.delete longName = (.error (stuckStore.unbreakable longName), stuckStore) ∧
        (stuckStore.unbreakable longName).kind = .system .nameTooLong) ∧
      (∃ s', { stuckStore with folder := .empty }.write (.empty longName) none = (.ok true, s')) ∧
      ∀ s : FileStore, s.clock = .rounded → s.timeout = .whole (10 ^ 400) →
        s.write (.empty "t") none = (.error .timeoutTooLarge, s) := by
  have haccepted : TableName.isAccepted longName = true := by decide +kernel
  have hfits : Folder.fits (lock longName) = true := by decide +kernel
  have hlong : Folder.fits (tombstone longName stuckStore.nextToken) = false := by decide +kernel
  have hlock : stuckStore.folder.get? (lock longName) = some (lockFile "other" (-60000)) := by
    decide +kernel
  have htimeout : stuckStore.timeout.value? = some (.finite 1) := rfl
  have hold : 1 < stuckStore.age (-60000) := by decide +kernel
  have hvisits : stuckStore.maxVisits = 607 + 1 := by decide +kernel
  have hacquire : stuckStore.acquire longName =
      (.error (stuckStore.unbreakable longName), stuckStore) := by
    rw [acquire_eq_wait (tells_of_exact rfl) hfits, hvisits,
      wait_of_long rfl hlock hlong ((isAbandoned_iff rfl htimeout).mpr hold)]
  refine ⟨⟨haccepted, hfits, hlock, htimeout, hold⟩, ⟨?_, ?_, kind_unbreakable _ _⟩, ?_,
    fun s hclock hlarge => ?_⟩
  · exact write_of_acquire_error (l := .empty longName) haccepted hacquire none
  · exact delete_of_acquire_error haccepted hacquire
  · have hwritten : ({ stuckStore with folder := .empty }.write (.empty longName) none).1.toOption =
        some true := by
      decide +kernel
    generalize ({ stuckStore with folder := .empty }.write (.empty longName) none) = w at hwritten ⊢
    obtain ⟨result, s'⟩ := w
    cases result with
    | error f => cases hwritten
    | ok b =>
      obtain rfl : b = true := Option.some.inj hwritten
      exact ⟨s', rfl⟩
  · have htells : s.clock.tells s.timeout = false := by
      rw [hclock, hlarge]
      decide +kernel
    refine write_of_acquire_error (by decide +kernel) ?_ none
    unfold acquire
    rw [htells]
    rfl

end FileStore

end SegmentSwap
