import SegmentSwap.Proofs.Store.Files
import SegmentSwap.Proofs.Store.Memory
import SegmentSwap.Store.Basic

/-!
# Files do what the memory does

A store of files that is left to itself answers every sequence of calls like a store in memory. The
two are kept side by side: for each table the record file holds the bytes of the record in memory,
or there is neither, and no lock is left over between two calls.

A call is served if the file system takes the names of the table's files and if a record can hold
the lineage. The number of calls bounds all versions; it has to be one that can itself be written.
-/

namespace SegmentSwap

namespace Memory

variable {m : Memory} {l : Lineage} {v : Version} {table other : Text}

theorem get?_delete_self : (m.delete table).get? table = none := lookup_filter_self m.records

theorem get?_delete_of_ne (h : other ≠ table) : (m.delete table).get? other = m.get? other :=
  lookup_filter_of_ne h m.records

theorem get?_put_of_ne (h : other ≠ l.table) : (m.put l v).get? other = m.get? other := by
  have hother : (other == l.table) = false := by simpa using h
  show ((l.table, l, v) :: (m.delete l.table).records).lookup other = m.get? other
  rw [List.lookup_cons, hother, ← get?_delete_of_ne h]
  rfl

theorem read_eq (m : Memory) (table : Text) : m.read table =
    ((m.get? table).map fun r => ⟨r.1, some r.2⟩).getD ⟨.empty table, none⟩ := by
  unfold read
  cases m.get? table <;> rfl

end Memory

namespace Store

/-- A call of a store. -/
inductive Operation where
  /-- Reads the record of a table. -/
  | read (table : Text)
  /-- Writes a lineage on the condition of a version. -/
  | write (l : Lineage) (expected : Option Version)
  /-- Removes the record of a table. -/
  | delete (table : Text)

/-- What a call returns. -/
inductive Outcome where
  /-- The lineage and the version that have been read. -/
  | found (r : Versioned)
  /-- Whether the lineage has been written. -/
  | written (b : Bool)
  /-- The record has been removed. -/
  | removed

namespace Operation

/-- The table that a call is about. -/
def table : Operation → Text
  | .read table => table
  | .write l _ => l.table
  | .delete table => table

/-- Whether files can serve a call. -/
def isServed (o : Operation) : Bool :=
  TableName.isAccepted o.table && TableName.hasRoom o.table &&
    match o with
    | .write l _ => l.isStorable
    | _ => true

end Operation

/-- One call: what it returns and the store after it. -/
def perform (s : Store) : Operation → Except Failure Outcome × Store
  | .read table => ((s.read table).map .found, s)
  | .write l expected => ((s.write l expected).1.map .written, (s.write l expected).2)
  | .delete table => ((s.delete table).1.map fun _ => .removed, (s.delete table).2)

/-- What calls return one after the other. -/
def answers (s : Store) : List Operation → List (Except Failure Outcome)
  | [] => []
  | o :: os => (s.perform o).1 :: (s.perform o).2.answers os

/-- Files mirror a memory whose versions are all below `bound`. -/
structure Mirrors (bound : Nat) (f : FileStore) (m : Memory) : Prop where
  quiet : f.Quiet
  locks : ∀ table, TableName.isAccepted table = true →
    f.folder.get? (TableName.lock table) = none
  records : ∀ table, TableName.isAccepted table = true →
    FileStore.Holds (f.folder.get? (TableName.record table)) (m.get? table)
  versions : ∀ table r, m.get? table = some r → 0 ≤ r.2.count ∧ r.2.count < bound

section Mirrors

variable {bound : Nat} {f f' : FileStore} {m m' : Memory} {table : Text}

theorem mirrors_create (root : String) {timeout : Quantity}
    (h : timeout.rounded?.isSome = true) : Mirrors 0 (.create root timeout) .empty where
  quiet := ⟨rfl, rfl, h⟩
  locks _ _ := rfl
  records _ _ := rfl
  versions _ _ h := absurd h.symm (Option.some_ne_none _)

/-- A writer that has settled keeps the mirror, if memory and files agree on its table. -/
theorem Mirrors.settled (h : Mirrors bound f m) (haccepted : TableName.isAccepted table = true)
    {node : Option Node} (hf : f.Settled f' table node)
    (hm : ∀ other, other ≠ table → m'.get? other = m.get? other)
    (hnode : FileStore.Holds node (m'.get? table))
    (hversion : ∀ r, m'.get? table = some r → 0 ≤ r.2.count ∧ r.2.count < (bound + 1 : Nat)) :
    Mirrors (bound + 1) f' m' := by
  have hothers : ∀ other, TableName.isAccepted other = true → other ≠ table →
      f'.folder.get? (TableName.lock other) = f.folder.get? (TableName.lock other) ∧
        f'.folder.get? (TableName.record other) = f.folder.get? (TableName.record other) := by
    intro other hother hne
    refine ⟨hf.others _ ?_ ?_ ?_, hf.others _ ?_ ?_ ?_⟩
    · exact TableName.lock_ne hother haccepted hne
    · exact TableName.lock_ne_record other table
    · exact fun token => (TableName.draft_ne_lock table other token).symm
    · exact (TableName.lock_ne_record table other).symm
    · exact TableName.record_ne hother haccepted hne
    · exact fun token => (TableName.draft_ne_record table other token).symm
  constructor
  · exact hf.quiet
  · intro other hother
    by_cases hne : other = table
    · rw [hne]
      exact hf.lock
    · rw [(hothers other hother hne).1]
      exact h.locks other hother
  · intro other hother
    by_cases hne : other = table
    · rw [hne, hf.record]
      exact hnode
    · rw [(hothers other hother hne).2, hm other hne]
      exact h.records other hother
  · intro other r hr
    by_cases hne : other = table
    · rw [hne] at hr
      exact hversion r hr
    · rw [hm other hne] at hr
      have hbounds := h.versions other r hr
      omega

theorem Mirrors.succ (h : Mirrors bound f m) : Mirrors (bound + 1) f m := by
  refine ⟨h.quiet, h.locks, h.records, ?_⟩
  intro table r hr
  have hbounds := h.versions table r hr
  omega

theorem isShowable_of_le {n k : Int} (h0 : 0 ≤ n) (hle : n ≤ k) (hk : isShowable k = true) :
    isShowable n = true := by
  have hbound : k.natAbs < Nat.pow 10 maxIntegerDigits := of_decide_eq_true hk
  have habs : n.natAbs ≤ k.natAbs := by omega
  exact decide_eq_true (Nat.lt_of_le_of_lt habs hbound)

/-- The version that follows on one below a bound is within the bound. -/
theorem Mirrors.next_bounds (h : Mirrors bound f m) {expected : Option Version}
    (hagree : Version.agree ((m.get? table).map (·.2)) expected = true) :
    0 ≤ (Version.next expected).count ∧ (Version.next expected).count ≤ bound := by
  rw [Version.agree_iff, Option.map_map] at hagree
  cases expected with
  | none =>
    show (0 : Int) ≤ 0 ∧ (0 : Int) ≤ bound
    omega
  | some v =>
    cases hr : m.get? table with
    | none =>
      rw [hr] at hagree
      exact absurd hagree.symm (Option.some_ne_none _)
    | some r =>
      rw [hr] at hagree
      have hcount : r.2.count = v.count := Option.some.inj hagree
      have hbounds := h.versions table r hr
      show 0 ≤ v.count + 1 ∧ v.count + 1 ≤ bound
      omega

theorem Mirrors.write (h : Mirrors bound f m) {l : Lineage} (expected : Option Version)
    (haccepted : TableName.isAccepted l.table = true) (hroom : TableName.hasRoom l.table = true)
    (hstorable : l.isStorable = true) (hbound : isShowable bound = true) :
    ∃ f', f.write l expected = (.ok (m.write l expected).1, f') ∧
      Mirrors (bound + 1) f' (m.write l expected).2 := by
  have hfree := h.locks l.table haccepted
  have hholds := h.records l.table haccepted
  have hversion : m.version? l.table = (m.get? l.table).map (·.2) := rfl
  cases hagree : Version.agree ((m.get? l.table).map (·.2)) expected with
  | false =>
    have hmemory : m.write l expected = (false, m) := by
      unfold Memory.write
      rw [hversion, hagree]
      rfl
    obtain ⟨f', hwrite, hsettled⟩ :=
      FileStore.write_of_not_agree h.quiet haccepted hroom hfree hholds hagree
    rw [hmemory]
    refine ⟨f', hwrite, h.settled haccepted hsettled (fun _ _ => rfl) hholds ?_⟩
    intro r hr
    have hbounds := h.versions l.table r hr
    omega
  | true =>
    have hbounds := h.next_bounds hagree
    have hnext := isShowable_of_le hbounds.1 hbounds.2 hbound
    have hmemory : m.write l expected = (true, m.put l (.next expected)) := by
      unfold Memory.write
      rw [hversion, hagree]
      rfl
    obtain ⟨f', hwrite, modified, hsettled⟩ :=
      FileStore.write_of_agree h.quiet haccepted hroom hfree hholds hagree hnext
    rw [hmemory]
    have hnumber : Version.next expected = .ofCount (Version.next expected).count := by
      cases expected <;> rfl
    refine ⟨f', hwrite, h.settled haccepted hsettled (fun _ => Memory.get?_put_of_ne) ?_ ?_⟩
    · rw [Memory.get?_put_self]
      exact ⟨hstorable, hnext, hnumber, modified, rfl⟩
    · intro r hr
      rw [Memory.get?_put_self] at hr
      obtain rfl := Option.some.inj hr
      show 0 ≤ (Version.next expected).count ∧ (Version.next expected).count < (bound + 1 : Nat)
      omega

theorem Mirrors.delete (h : Mirrors bound f m) (haccepted : TableName.isAccepted table = true)
    (hroom : TableName.hasRoom table = true) :
    ∃ f', f.delete table = (.ok (), f') ∧ Mirrors (bound + 1) f' (m.delete table) := by
  obtain ⟨f', hdelete, hsettled⟩ := FileStore.delete_of_quiet h.quiet haccepted hroom
    (h.locks table haccepted) (h.records table haccepted).ne_directory
  refine ⟨f', hdelete, h.settled haccepted hsettled (fun _ => Memory.get?_delete_of_ne) ?_ ?_⟩
  · rw [Memory.get?_delete_self]
    rfl
  · intro r hr
    rw [Memory.get?_delete_self] at hr
    exact absurd hr.symm (Option.some_ne_none _)

/-- Files and memory return the same, and the files go on as a mirror of the memory. -/
theorem Mirrors.perform (h : Mirrors bound f m) {o : Operation} (hserved : o.isServed = true)
    (hbound : isShowable bound = true) :
    ((files f).perform o).1 = ((memory m).perform o).1 ∧
      ∃ f' m', ((files f).perform o).2 = files f' ∧ ((memory m).perform o).2 = memory m' ∧
        Mirrors (bound + 1) f' m' := by
  unfold Operation.isServed at hserved
  rw [Bool.and_eq_true, Bool.and_eq_true] at hserved
  obtain ⟨⟨haccepted, hroom⟩, hstorable⟩ := hserved
  cases o with
  | read table =>
    change TableName.isAccepted table = true at haccepted
    change TableName.hasRoom table = true at hroom
    have hread := FileStore.read_of_holds haccepted hroom (h.records table haccepted)
    have hfiles : (files f).perform (.read table) = (.ok (.found (m.read table)), files f) := by
      show (Except.map Outcome.found ((f.read table).mapError Failure.store), files f) = _
      rw [hread, Memory.read_eq]
      rfl
    rw [hfiles]
    exact ⟨rfl, f, m, rfl, rfl, h.succ⟩
  | write l expected =>
    change TableName.isAccepted l.table = true at haccepted
    change TableName.hasRoom l.table = true at hroom
    obtain ⟨f', hwrite, hmirrors⟩ := h.write expected haccepted hroom hstorable hbound
    have hfiles : (files f).perform (.write l expected) =
        (.ok (.written (m.write l expected).1), files f') := by
      show (Except.map Outcome.written ((f.write l expected).1.mapError Failure.store),
        files (f.write l expected).2) = _
      rw [hwrite]
      rfl
    rw [hfiles]
    exact ⟨rfl, f', _, rfl, rfl, hmirrors⟩
  | delete table =>
    change TableName.isAccepted table = true at haccepted
    change TableName.hasRoom table = true at hroom
    obtain ⟨f', hdelete, hmirrors⟩ := h.delete haccepted hroom
    have hfiles : (files f).perform (.delete table) = (.ok .removed, files f') := by
      show (Except.map (fun _ => Outcome.removed) ((f.delete table).1.mapError Failure.store),
        files (f.delete table).2) = _
      rw [hdelete]
      rfl
    rw [hfiles]
    exact ⟨rfl, f', _, rfl, rfl, hmirrors⟩

theorem Mirrors.answers (h : Mirrors bound f m) {os : List Operation}
    (hserved : ∀ o ∈ os, o.isServed = true) (hbound : isShowable (bound + os.length) = true) :
    (files f).answers os = (memory m).answers os := by
  -- each call may raise a version by one, and the bound with it
  induction os generalizing bound f m with
  | nil => rfl
  | cons o os ih =>
    rw [List.length_cons] at hbound
    have hnow : isShowable bound = true := isShowable_of_le (by omega) (by omega) hbound
    obtain ⟨hanswer, f', m', hf, hm, hmirrors⟩ := h.perform (hserved o List.mem_cons_self) hnow
    have hlater := ih hmirrors (fun p hp => hserved p (List.mem_cons_of_mem o hp))
      (isShowable_of_le (by omega) (by omega) hbound)
    rw [Store.answers, Store.answers, hanswer, hf, hm, hlater]

end Mirrors

/-- A store that starts with an empty directory and is left to itself returns at every call what a
store in memory returns, whatever the calls are. -/
theorem answers_files_eq_memory (root : String) {timeout : Quantity}
    (htimeout : timeout.rounded?.isSome = true) {os : List Operation}
    (hserved : ∀ o ∈ os, o.isServed = true) (hlength : isShowable os.length = true) :
    (files (.create root timeout)).answers os = (memory .empty).answers os :=
  (mirrors_create root htimeout).answers hserved (by
    rw [show ((0 : Nat) : Int) + (os.length : Int) = os.length by omega]
    exact hlength)

/-- Calls on two tables: a stale write, a removal and a new record after it. -/
def sampleOperations : List Operation :=
  [.write ⟨"t", [⟨"\"1\"", ["a"], [], .completed, "😀"⟩], by decide⟩ none, .read "t.lock",
    .write (.empty "t") none, .write (.empty "t") (some (.ofCount 0)), .delete "t",
    .write (.empty "t.lock") none, .write (.empty "t") none, .read "t"]

theorem answers_files_eq_memory_sample :
    ((Quantity.whole 10).rounded?.isSome = true ∧
      (∀ o ∈ sampleOperations, o.isServed = true) ∧
      isShowable sampleOperations.length = true) ∧
    (files (.create "/records" (.whole 10))).answers sampleOperations =
      (memory .empty).answers sampleOperations ∧
    (memory .empty).answers sampleOperations =
      [.ok (.written true), .ok (.found ⟨.empty "t.lock", none⟩), .ok (.written false),
        .ok (.written true), .ok .removed, .ok (.written true), .ok (.written true),
        .ok (.found ⟨.empty "t", some (.ofCount 0)⟩)] := by
  have htimeout : (Quantity.whole 10).rounded?.isSome = true := by decide +kernel
  have hserved : ∀ o ∈ sampleOperations, o.isServed = true := by
    intro o ho
    simp only [sampleOperations, List.mem_cons, List.not_mem_nil, or_false] at ho
    rcases ho with rfl | rfl | rfl | rfl | rfl | rfl | rfl | rfl <;> decide +kernel
  have hlength : isShowable sampleOperations.length = true := by decide +kernel
  exact ⟨⟨htimeout, hserved, hlength⟩, answers_files_eq_memory "/records" htimeout hserved hlength,
    rfl⟩

end Store

end SegmentSwap
