import SegmentSwap.Proofs.Store.Folder

/-!
# Whose file a name is

Each file of a table is for one thing: it holds the record, it is the lock, it is the draft of a
record or the tombstone of a lock. Harmless tables may contain dots, dashes and underscores and may
themselves look like the name of another table's file. They are told apart all the same: what a
file is for shows in its last character, and drafts and tombstones have tags of fixed lengths.
-/

namespace SegmentSwap

namespace TableName

/-- What a file of a table is for. -/
inductive Purpose where
  | record
  | lock
  | draft (tag : String)
  | tombstone (token : String)

namespace Purpose

/-- The file of a table for a purpose. -/
def file (table : Text) : Purpose → String
  | record => TableName.record table
  | lock => TableName.lock table
  | draft tag => TableName.draft table tag
  | tombstone token => TableName.tombstone table token

/-- Whether a tag has the given width and nothing but letters, digits and underscores. -/
def isTag (width : Nat) (tag : String) : Bool :=
  tag.toList.length == width && tag.toList.all fun c => isAlphanumeric c || c == '_'

/-- Whether the tag of a purpose is one that the store draws. -/
def isDrawn : Purpose → Bool
  | record => true
  | lock => true
  | draft tag => isTag 8 tag
  | tombstone token => isTag 32 token

/-- The last character of the files for a purpose. -/
def last : Purpose → Char
  | record => 'n'
  | lock => 'k'
  | draft _ => 'p'
  | tombstone _ => 'e'

end Purpose

/-- Whether a name is one of the files of a table. -/
def IsOf (table : Text) (name : String) : Prop :=
  ∃ p : Purpose, p.isDrawn = true ∧ name = p.file table

section Names

variable {a b table : Text} {name : String} {p : Purpose}

theorem isOf_record (table : Text) : IsOf table (record table) := ⟨.record, rfl, rfl⟩

theorem isOf_lock (table : Text) : IsOf table (lock table) := ⟨.lock, rfl, rfl⟩

theorem isTag_hexDigits (width n : Nat) :
    Purpose.isTag width (String.ofList (Text.hexDigits width n)) = true := by
  have hdigit : ∀ d, d < 16 →
      (isAlphanumeric (Text.hexDigit d) || Text.hexDigit d == '_') = true := by
    decide
  unfold Purpose.isTag
  rw [String.toList_ofList]
  induction width generalizing n with
  | zero => rfl
  | succ width ih =>
    have hmod := hdigit (n % 16) (Nat.mod_lt n (by decide))
    have hrest := Bool.and_eq_true_iff.mp (ih (n / 16))
    rw [Text.hexDigits, List.length_append, List.all_append, hrest.2, beq_iff_eq.mp hrest.1]
    simp [hmod]

theorem getLast?_file (table : Text) (p : Purpose) :
    (p.file table).toList.getLast? = some p.last := by
  cases p with
  | record => exact getLast?_record table
  | lock => exact getLast?_lock table
  | draft tag => exact getLast?_draft table tag
  | tombstone token => exact getLast?_append_ending _ rfl

/-- The characters of a harmless table. -/
theorem mem_chars_of_isAccepted (h : isAccepted table = true) {c : Char}
    (hc : c ∈ table.toString.toList) : isFurther c = true ∨ c = '\n' := by
  have htail : ∀ ps : List Point, isTail ps = true → ∀ c ∈ ps.map Point.toChar,
      isFurther c = true ∨ c = '\n' := by
    intro ps
    induction ps with
    | nil =>
      intro _ c hc
      exact absurd hc List.not_mem_nil
    | cons p ps ih =>
      intro hps c hc
      cases p with
      | half n => exact absurd hps (by simp [isTail])
      | char d =>
        rw [isTail, Bool.or_eq_true, Bool.and_eq_true, Bool.and_eq_true] at hps
        rcases hps with ⟨hnewline, hempty⟩ | ⟨hfurther, hrest⟩
        · rw [List.isEmpty_iff.mp hempty] at hc
          rw [List.mem_singleton.mp hc]
          exact .inr (beq_iff_eq.mp hnewline)
        · rcases List.mem_cons.mp hc with rfl | hc
          · exact .inl hfurther
          · exact ih hrest c hc
  unfold Text.toString Text.chars at hc
  rw [String.toList_ofList] at hc
  unfold isAccepted at h
  split at h
  · rename_i d rest hpoints
    rw [hpoints] at hc
    have hparts := Bool.and_eq_true_iff.mp h
    rcases List.mem_cons.mp hc with hd | hc
    · have hfirst : isAlphanumeric d = true := hparts.1
      left
      rw [hd]
      show isFurther d = true
      unfold isFurther
      rw [hfirst]
      rfl
    · exact htail rest hparts.2 c hc
  · exact absurd h (by decide)

/-- A harmless table is the only one with its characters. -/
theorem eq_of_toString (ha : isAccepted a = true) (h : b.toString = a.toString) : b = a := by
  have hwhole : b.isWhole = true := by
    unfold Text.isWhole
    rw [List.all_eq_true]
    intro p hp
    cases p with
    | char c => exact decide_eq_true rfl
    | half n =>
      have hc : '\uFFFD' ∈ a.toString.toList := by
        rw [← h]
        unfold Text.toString Text.chars
        rw [String.toList_ofList]
        exact List.mem_map.mpr ⟨.half n, hp, rfl⟩
      rcases mem_chars_of_isAccepted ha hc with hfurther | hnewline
      · exact absurd hfurther (by decide)
      · exact absurd hnewline (by decide)
  rw [← Text.ofString_toString hwhole, h, Text.ofString_toString (isWhole_of_isAccepted ha)]

theorem append_tag_inj {s t tag tag' : String} {width : Nat} (htag : Purpose.isTag width tag = true)
    (htag' : Purpose.isTag width tag' = true) (h : s ++ tag = t ++ tag') : s = t := by
  have hlength : tag.toList.length = tag'.toList.length := by
    rw [beq_iff_eq.mp (Bool.and_eq_true_iff.mp htag).1,
      beq_iff_eq.mp (Bool.and_eq_true_iff.mp htag').1]
  have hchars : s.toList ++ tag.toList = t.toList ++ tag'.toList := by
    rw [← String.toList_append, h, String.toList_append]
  exact String.toList_inj.mp (List.append_inj_left' hchars hlength)

/-- A file belongs to one table, if it belongs to a harmless one. -/
theorem IsOf.eq (ha : isAccepted a = true) (h : IsOf a name) (h' : IsOf b name) : b = a := by
  obtain ⟨p, hp, rfl⟩ := h
  obtain ⟨p', hp', heq⟩ := h'
  have hlast : p.last = p'.last := by
    have hlast := getLast?_file a p
    rw [heq, getLast?_file b p'] at hlast
    exact (Option.some.inj hlast).symm
  refine eq_of_toString ha (Eq.symm ?_)
  cases p with
  | record =>
    cases p' with
    | record => exact append_ending_inj heq
    | _ => exact absurd hlast (by simp [Purpose.last])
  | lock =>
    cases p' with
    | lock => exact append_ending_inj heq
    | _ => exact absurd hlast (by simp [Purpose.last])
  | draft tag =>
    cases p' with
    | draft tag' =>
      exact append_ending_inj (append_tag_inj hp hp' (append_ending_inj heq))
    | _ => exact absurd hlast (by simp [Purpose.last])
  | tombstone token =>
    cases p' with
    | tombstone token' =>
      exact append_ending_inj (append_ending_inj (append_tag_inj hp hp' (append_ending_inj heq)))
    | _ => exact absurd hlast (by simp [Purpose.last])

/-- Beside those of the table there are only letters, digits, underscores and dots in the name of a
file. -/
theorem mem_file (hp : p.isDrawn = true) {c : Char} (hc : c ∈ (p.file table).toList) :
    c ∈ table.toString.toList ∨ (isAlphanumeric c || c == '_' || c == '.') = true := by
  have hending : ∀ ending : String, (ending.toList.all fun c =>
      isAlphanumeric c || c == '_' || c == '.') = true → c ∈ ending.toList →
      (isAlphanumeric c || c == '_' || c == '.') = true :=
    fun ending hall hmem => List.all_eq_true.mp hall c hmem
  have htag : ∀ (width : Nat) (tag : String), Purpose.isTag width tag = true → c ∈ tag.toList →
      (isAlphanumeric c || c == '_' || c == '.') = true := by
    intro width tag htag hmem
    rw [List.all_eq_true.mp (Bool.and_eq_true_iff.mp htag).2 c hmem]
    rfl
  cases p with
  | record =>
    rw [Purpose.file, TableName.record, String.toList_append, List.mem_append] at hc
    exact hc.imp_right (hending _ (by decide))
  | lock =>
    rw [Purpose.file, TableName.lock, String.toList_append, List.mem_append] at hc
    exact hc.imp_right (hending _ (by decide))
  | draft tag =>
    simp only [Purpose.file, TableName.draft, String.toList_append, List.mem_append] at hc
    rcases hc with ((hc | hc) | hc) | hc
    · exact .inl hc
    · exact .inr (hending _ (by decide) hc)
    · exact .inr (htag 8 tag hp hc)
    · exact .inr (hending _ (by decide) hc)
  | tombstone token =>
    simp only [Purpose.file, TableName.tombstone, TableName.lock, String.toList_append,
      List.mem_append] at hc
    rcases hc with (((hc | hc) | hc) | hc) | hc
    · exact .inl hc
    · exact .inr (hending _ (by decide) hc)
    · exact .inr (hending _ (by decide) hc)
    · exact .inr (htag 32 token hp hc)
    · exact .inr (hending _ (by decide) hc)

/-- The files of a harmless table lie in the directory itself. -/
theorem IsOf.direct (ha : isAccepted a = true) (h : IsOf a name) :
    '/' ∉ name.toList ∧ '\x00' ∉ name.toList ∧ name ≠ "." ∧ name ≠ ".." := by
  obtain ⟨p, hp, rfl⟩ := h
  have hfree : ∀ c : Char, isFurther c = false → c ≠ '\n' → c ∉ (p.file a).toList := by
    intro c hfurther hnewline hc
    unfold isFurther at hfurther
    simp only [Bool.or_eq_false_iff] at hfurther
    rcases mem_file hp hc with hstem | hrest
    · rcases mem_chars_of_isAccepted ha hstem with h | h
      · simp [isFurther, hfurther] at h
      · exact hnewline h
    · simp [hfurther] at hrest
  have hdots : ∀ s : String, s.toList.getLast? = some '.' → p.file a ≠ s := by
    intro s hs
    refine ne_of_ending (getLast?_file a p) hs ?_
    cases p <;> simp [Purpose.last]
  exact ⟨hfree _ (by decide) (by decide), hfree _ (by decide) (by decide), hdots _ rfl,
    hdots _ rfl⟩

end Names

end TableName

end SegmentSwap
