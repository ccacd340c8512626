import SegmentSwap.Proofs.Store.Waiting

/-!
# The tables that have files

The store takes a table if its name is safe as the name of a file, or if it is a safe name with one
line feed behind it, which is overlooked. It turns down every other table whatever it is asked for,
before it has looked at anything in its directory. A table that it takes may meet with other faults,
but never with one of its name.
-/

namespace SegmentSwap

namespace TableName

/-- A letter or a digit of ASCII. -/
def Plain (c : Char) : Prop :=
  ('0' ≤ c ∧ c ≤ '9') ∨ ('a' ≤ c ∧ c ≤ 'z') ∨ ('A' ≤ c ∧ c ≤ 'Z')

/-- A safe name is a letter or digit, followed by letters, digits, underscores, dots and dashes and
nothing else. -/
def Safe (table : Text) : Prop :=
  ∃ (first : Char) (rest : List Char), table = .ofChars (first :: rest) ∧ Plain first ∧
    ∀ c ∈ rest, Plain c ∨ c ∈ ['_', '.', '-']

/-- A safe name with a line feed behind it. -/
def SafeLine (table : Text) : Prop := ∃ name, Safe name ∧ table = name ++ Text.ofString "\n"

theorem isAlphanumeric_iff {c : Char} : isAlphanumeric c = true ↔ Plain c := by
  unfold isAlphanumeric Text.isAsciiDigit Plain
  simp only [Bool.or_eq_true, Bool.and_eq_true, decide_eq_true_eq, or_assoc]

theorem isFurther_iff {c : Char} : isFurther c = true ↔ Plain c ∨ c ∈ ['_', '.', '-'] := by
  unfold isFurther
  simp only [Bool.or_eq_true, beq_iff_eq, isAlphanumeric_iff, List.mem_cons, List.not_mem_nil,
    or_false, or_assoc]

/-- The code points that may follow on the first one, with or without a line feed at their end. -/
theorem isTail_iff {ps : List Point} : isTail ps = true ↔
    ∃ cs : List Char, (∀ c ∈ cs, isFurther c = true) ∧
      (ps = cs.map .char ∨ ps = (cs ++ ['\n']).map .char) := by
  induction ps with
  | nil =>
    refine iff_of_true rfl ⟨[], ?_, .inl rfl⟩
    exact fun c hc => absurd hc List.not_mem_nil
  | cons p ps ih =>
    cases p with
    | half n =>
      refine iff_of_false Bool.false_ne_true ?_
      rintro ⟨cs, -, h | h⟩ <;> cases cs <;> simp at h
    | char c =>
      rw [isTail, Bool.or_eq_true, Bool.and_eq_true, Bool.and_eq_true, ih, beq_iff_eq,
        List.isEmpty_iff]
      constructor
      · rintro (⟨rfl, rfl⟩ | ⟨hc, cs, hcs, hps⟩)
        · refine ⟨[], ?_, .inr rfl⟩
          exact fun c hc => absurd hc List.not_mem_nil
        · refine ⟨c :: cs, List.forall_mem_cons.mpr ⟨hc, hcs⟩, ?_⟩
          rcases hps with rfl | rfl
          · exact .inl rfl
          · exact .inr rfl
      · rintro ⟨cs, hcs, hps⟩
        cases cs with
        | nil =>
          rcases hps with hps | hps
          · cases hps
          · obtain ⟨hc, hrest⟩ := List.cons.inj hps
            exact .inl ⟨Point.char.inj hc, hrest⟩
        | cons d cs =>
          obtain ⟨hd, hall⟩ := List.forall_mem_cons.mp hcs
          rcases hps with hps | hps <;> obtain ⟨hc, hrest⟩ := List.cons.inj hps
          · rw [Point.char.inj hc]
            exact .inr ⟨hd, cs, hall, .inl hrest⟩
          · rw [Point.char.inj hc]
            exact .inr ⟨hd, cs, hall, .inr hrest⟩

/-- The store takes safe names and overlooks a line feed at the end. -/
theorem isAccepted_iff {table : Text} : isAccepted table = true ↔ Safe table ∨ SafeLine table := by
  have hsafe : ∀ (c : Char) (cs : List Char), Plain c → (∀ d ∈ cs, isFurther d = true) →
      Safe (.ofChars (c :: cs)) := fun c cs hc hcs =>
    ⟨c, cs, rfl, hc, fun d hd => isFurther_iff.mp (hcs d hd)⟩
  constructor
  · intro h
    obtain ⟨points⟩ := table
    unfold isAccepted at h
    split at h
    · rename_i c rest hpoints
      obtain ⟨hc, htail⟩ := Bool.and_eq_true_iff.mp h
      obtain ⟨cs, hcs, hrest⟩ := isTail_iff.mp htail
      obtain rfl : points = .char c :: rest := hpoints
      have hc := isAlphanumeric_iff.mp hc
      rcases hrest with rfl | rfl
      · exact .inl (hsafe c cs hc hcs)
      · refine .inr ⟨_, hsafe c cs hc hcs, ?_⟩
        rw [List.map_append]
        rfl
    · cases h
  · have haccepted : ∀ (first : Char) (rest : List Char) (ps : List Point), Plain first →
        (∀ c ∈ rest, Plain c ∨ c ∈ ['_', '.', '-']) →
        (ps = rest.map .char ∨ ps = (rest ++ ['\n']).map .char) →
        isAccepted ⟨.char first :: ps⟩ = true := by
      intro first rest ps hfirst hrest hps
      refine Bool.and_eq_true_iff.mpr ⟨isAlphanumeric_iff.mpr hfirst, isTail_iff.mpr ?_⟩
      exact ⟨rest, fun c hc => isFurther_iff.mpr (hrest c hc), hps⟩
    rintro (⟨first, rest, rfl, hfirst, hrest⟩ | ⟨name, ⟨first, rest, rfl, hfirst, hrest⟩, rfl⟩)
    · exact haccepted first rest _ hfirst hrest (.inl rfl)
    · refine haccepted first rest _ hfirst hrest (.inr ?_)
      rw [List.map_append]
      rfl

end TableName

/-- Whether a fault is about the name of a table. -/
def StoreFault.concernsName : StoreFault → Bool
  | .tableName _ => true
  | _ => false

/-! ## Faults of tables that are taken -/

theorem Record.concernsName_of_ofBytes {path : String} {bytes : List UInt8} {f : StoreFault}
    (h : ofBytes path bytes = .error f) : f.concernsName = false := by
  unfold ofBytes at h
  split at h
  · cases h
    rfl
  · unfold ofText at h
    split at h
    · cases h
      rfl
    · cases h
      rfl
    · cases h
      rfl
    · unfold ofJson at h
      split at h
      · cases h
        rfl
      · split at h <;> cases h
        rfl

namespace FileStore

variable {s s' : FileStore} {table : Text} {l : Lineage} {f : StoreFault} {token : String}

theorem concernsName_of_readRecord (h : s.readRecord table = .error f) :
    f.concernsName = false := by
  unfold readRecord at h
  dsimp only at h
  split at h
  · cases h
    rfl
  · split at h
    · cases h
    · cases h
      rfl
    · rename_i bytes _ _
      cases hrecord : Record.ofBytes (s.path (TableName.record table)) bytes with
      | error g =>
        rw [hrecord] at h
        cases h
        exact Record.concernsName_of_ofBytes hrecord
      | ok r =>
        rw [hrecord] at h
        cases h

/-- A lock that cannot be removed is one whose tombstone has too long a name. -/
theorem concernsName_of_visit (h : s.visit table = (.stuck f, s')) : f.concernsName = false := by
  unfold visit at h
  split at h
  · cases h
  · dsimp only at h
    split at h
    · cases h
    · split at h
      · unfold breakLock at h
        dsimp only at h
        split at h
        · cases h
        · split at h
          · cases h
            rfl
          · split at h <;> cases h
      · cases h

theorem concernsName_of_wait {since visits : Nat} (h : (wait since visits table s).1 = .error f) :
    f.concernsName = false := by
  induction visits generalizing s with
  | zero =>
    cases h
    rfl
  | succ visits ih =>
    unfold wait at h
    split at h
    · cases h
    · exact ih h
    · rename_i hvisit
      cases h
      exact concernsName_of_visit hvisit
    · split at h
      · cases h
        rfl
      · exact ih h

theorem concernsName_of_acquire (h : (s.acquire table).1 = .error f) : f.concernsName = false := by
  unfold acquire at h
  dsimp only at h
  split at h
  · cases h
    rfl
  · split at h
    · cases h
      rfl
    · exact concernsName_of_wait h

theorem concernsName_of_publish {version : Version} (h : (s.publish l version).1 = .error f) :
    f.concernsName = false := by
  unfold publish at h
  dsimp only at h
  split at h
  · cases h
    rfl
  · split at h
    · cases h
      rfl
    · unfold install at h
      dsimp only at h
      split at h <;> cases h <;> rfl

theorem concernsName_of_writeLocked {expected : Option Version}
    (h : (s.writeLocked l expected token).1 = .error f) : f.concernsName = false := by
  unfold writeLocked at h
  dsimp only at h
  split at h
  · rename_i hread
    cases h
    exact concernsName_of_readRecord hread
  · unfold replace at h
    split at h
    · cases h
    · split at h
      · cases h
      · split at h
        · rename_i hpublish
          cases h
          exact concernsName_of_publish (congrArg Prod.fst hpublish)
        · cases h

theorem concernsName_of_deleteLocked (h : (s.deleteLocked table).1 = .error f) :
    f.concernsName = false := by
  unfold deleteLocked at h
  dsimp only at h
  split at h <;> cases h
  rfl

/-- A store turns a table down whatever it is asked for: it reports that the table has no harmless
name and stays as it is. -/
structure TurnsDown (s : FileStore) (table : Text) : Prop where
  read : s.read table = .error (.tableName table)
  write : ∀ l expected, l.table = table → s.write l expected = (.error (.tableName table), s)
  delete : s.delete table = (.error (.tableName table), s)
  declared : (StoreFault.tableName table).kind = .declared .store

/-- A store takes a table: whatever goes wrong, it is not for the name of a table. -/
structure Takes (s : FileStore) (table : Text) : Prop where
  read : ∀ f, s.read table = .error f → f.concernsName = false
  write : ∀ l expected f, l.table = table → (s.write l expected).1 = .error f →
    f.concernsName = false
  delete : ∀ f, (s.delete table).1 = .error f → f.concernsName = false

theorem turnsDown_of_not_isAccepted (h : TableName.isAccepted table = false) :
    s.TurnsDown table := by
  refine ⟨?_, ?_, ?_, rfl⟩
  · unfold read
    rw [h]
    rfl
  · rintro l expected rfl
    unfold write
    rw [h]
    rfl
  · unfold delete
    rw [h]
    rfl

theorem takes_of_isAccepted (haccepted : TableName.isAccepted table = true) : s.Takes table := by
  constructor
  case read =>
    intro f h
    unfold read at h
    rw [haccepted] at h
    cases hrecord : s.readRecord table with
    | error g =>
      rw [hrecord] at h
      cases h
      exact concernsName_of_readRecord hrecord
    | ok r =>
      rw [hrecord] at h
      cases h
  case write =>
    rintro l expected f rfl h
    cases hacquire : s.acquire l.table with
    | mk result s' =>
      cases result with
      | error g =>
        rw [write_of_acquire_error haccepted hacquire] at h
        cases h
        exact concernsName_of_acquire (congrArg Prod.fst hacquire)
      | ok token =>
        unfold write at h
        rw [haccepted, hacquire] at h
        dsimp only [Bool.not_true, Bool.false_eq_true, if_false] at h
        cases hlocked : (s'.writeLocked l expected token).1 with
        | error g =>
          rw [hlocked] at h
          cases h
          exact concernsName_of_writeLocked hlocked
        | ok written =>
          rw [hlocked] at h
          cases written <;> cases h
  case delete =>
    intro f h
    cases hacquire : s.acquire table with
    | mk result s' =>
      cases result with
      | error g =>
        rw [delete_of_acquire_error haccepted hacquire] at h
        cases h
        exact concernsName_of_acquire (congrArg Prod.fst hacquire)
      | ok token =>
        unfold delete at h
        rw [haccepted, hacquire] at h
        exact concernsName_of_deleteLocked h

theorem Takes.not_turnsDown (h : s.Takes table) : ¬ s.TurnsDown table := by
  intro hdown
  have hconcerns : (StoreFault.tableName table).concernsName = false := h.read _ hdown.read
  cases hconcerns

/-- A store takes exactly the tables whose name is safe or safe but for one line feed at its end, and
turns down all others. -/
theorem names_accepted (s : FileStore) (table : Text) :
    (s.Takes table ↔ TableName.Safe table ∨ TableName.SafeLine table) ∧
      (s.TurnsDown table ↔ ¬ (TableName.Safe table ∨ TableName.SafeLine table)) := by
  rw [← TableName.isAccepted_iff]
  cases haccepted : TableName.isAccepted table with
  | true =>
    have htakes : s.Takes table := takes_of_isAccepted haccepted
    exact ⟨iff_of_true htakes rfl, iff_of_false htakes.not_turnsDown fun hnot => hnot rfl⟩
  | false =>
    have hdown : s.TurnsDown table := turnsDown_of_not_isAccepted haccepted
    exact ⟨iff_of_false (fun htakes => htakes.not_turnsDown hdown) Bool.false_ne_true,
      iff_of_true hdown Bool.false_ne_true⟩

/-- A name with a line feed at its end is not safe, and yet a record is written for it. -/
theorem newline_name_accepted :
    let s : FileStore := .create "records" (.whole 5)
    let table : Text := "t\n"
    ¬ TableName.Safe table ∧ ¬ s.TurnsDown table ∧
      (s.write (.empty table) none).2.folder.names = ["t\n.json"] := by
  intro s table
  have hnames : (s.write (.empty table) none).2.folder.names = ["t\n.json"] := by decide +kernel
  have hnot : ¬ TableName.Safe table := by
    rintro ⟨first, rest, htable, -, hrest⟩
    have hpoints : [Point.char 't', .char '\n'] = (first :: rest).map .char :=
      congrArg Text.points htable
    obtain ⟨-, hlast⟩ := List.cons.inj hpoints
    have hmem : Point.char '\n' ∈ rest.map .char := by
      rw [← hlast]
      exact List.mem_singleton_self _
    obtain ⟨c, hc, hnewline⟩ := List.mem_map.mp hmem
    obtain rfl := Point.char.inj hnewline
    rcases hrest '\n' hc with hplain | hother
    · rw [← TableName.isAlphanumeric_iff] at hplain
      exact absurd hplain (by decide)
    · exact absurd hother (by decide)
  refine ⟨hnot, fun hdown => ?_, hnames⟩
  rw [hdown.write (.empty table) none rfl] at hnames
  cases hnames

end FileStore

end SegmentSwap
