import SegmentSwap.Store.Memory

/-!
# What a reader knows of a record

A record is only ever replaced by one with a higher version, as long as it is not removed. What has
been read of a table is therefore either still its record, or the record has been overtaken: its
version will never again be the one that was read. So a conditional write succeeds only for a writer
who knows the record.
-/

namespace SegmentSwap

namespace Version

/-- A later version than the first one is the second one; having none comes before all. -/
def Overtaken : Option Version → Option Version → Prop
  | none, some _ => True
  | some v, some w => v.count < w.count
  | _, none => False

theorem agree_iff {a b : Option Version} : agree a b = true ↔ a.map count = b.map count := by
  simp [agree]

theorem Overtaken.not_agree {a b : Option Version} (h : Overtaken a b) : ¬ agree b a = true := by
  rw [agree_iff]
  cases a with
  | none =>
    cases b with
    | none => exact absurd h id
    | some w => simp
  | some v =>
    cases b with
    | none => exact absurd h id
    | some w =>
      have hlt : v.count < w.count := h
      simp only [Option.map_some, Option.some.injEq]
      omega

theorem overtaken_next {a expected : Option Version} (h : agree a expected = true) :
    Overtaken a (some (next expected)) := by
  rw [agree_iff] at h
  cases a with
  | none => trivial
  | some v =>
    cases expected with
    | none => simp at h
    | some w =>
      have heq : v.count = w.count := by simpa using h
      show v.count < w.count + 1
      omega

theorem Overtaken.trans {a b c : Option Version} (hab : Overtaken a b) (hbc : Overtaken b c) :
    Overtaken a c := by
  cases a with
  | none =>
    cases c with
    | none => cases b <;> exact hbc
    | some w => trivial
  | some v =>
    cases b with
    | none => exact absurd hab id
    | some w =>
      cases c with
      | none => exact hbc
      | some x =>
        have h1 : v.count < w.count := hab
        have h2 : w.count < x.count := hbc
        show v.count < x.count
        omega

end Version

namespace Memory

variable {m : Memory} {l : Lineage} {v : Version} {table : Text}

theorem get?_put_self : (m.put l v).get? l.table = some (l, v) := by
  simp [put, get?]

theorem read_put_self : (m.put l v).read l.table = ⟨l, some v⟩ := by
  simp [read, get?_put_self]

theorem version?_eq (m : Memory) (table : Text) : m.version? table = (m.read table).version? := by
  unfold version? read
  cases m.get? table <;> rfl

theorem read_delete_self (m : Memory) (table : Text) :
    (m.delete table).read table = ⟨.empty table, none⟩ := by
  have hgone : (m.delete table).get? table = none := by
    unfold get? delete
    rw [List.lookup_eq_none_iff]
    intro r hr
    have hne : r.1 ≠ table := by simpa using (List.mem_filter.mp hr).2
    simpa using hne.symm
  unfold read
  rw [hgone]

/-- What has been read of a table is its record, or the record has a later version by now. -/
structure Seen (m : Memory) (table : Text) (read : Versioned) : Prop where
  belongs : read.lineage.table = table
  standing : read = m.read table ∨ Version.Overtaken read.version? (m.version? table)

theorem seen_read (h : (m.read table).lineage.table = table) : m.Seen table (m.read table) :=
  ⟨h, Or.inl rfl⟩

/-- A writer whose version is the one of the record knows the record. -/
theorem Seen.eq_of_agree {read : Versioned} (h : m.Seen table read)
    (ha : Version.agree (m.version? table) read.version? = true) : read = m.read table := by
  rcases h.standing with h | h
  · exact h
  · exact absurd ha h.not_agree

/-- After a write all that has been seen before is overtaken. -/
theorem Seen.overtaken {read : Versioned} (h : m.Seen table read) {expected : Option Version}
    (ha : Version.agree (m.version? table) expected = true) (ht : l.table = table) :
    Version.Overtaken read.version? ((m.put l (.next expected)).version? table) := by
  have hlater :
      Version.Overtaken (m.version? table) ((m.put l (.next expected)).version? table) := by
    rw [version?_eq (m.put l _), ← ht, read_put_self]
    exact Version.overtaken_next (by rw [ht]; exact ha)
  rcases h.standing with h | h
  · rw [h, ← version?_eq]
    exact hlater
  · exact h.trans hlater

theorem Seen.put {read : Versioned} (h : m.Seen table read) {expected : Option Version}
    (ha : Version.agree (m.version? table) expected = true) (ht : l.table = table) :
    (m.put l (.next expected)).Seen table read :=
  ⟨h.belongs, Or.inr (h.overtaken ha ht)⟩

end Memory

end SegmentSwap
