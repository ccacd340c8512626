import SegmentSwap.Registry

/-!
# Changes of the registry

Segments come into the registry in any order and leave it only when they are deleted. A registry is
consistent if all that is placed in it is registered; every change keeps it so.
-/

namespace SegmentSwap

namespace Registry

variable {r r' : Registry} {table other segment s : Text} {segments : List Text} {placed : Bool}
  {p : Text × Text}

/-- All that is placed is registered. -/
def Consistent (r : Registry) : Prop := ∀ p ∈ r.placed, p ∈ r.registered

instance (r : Registry) : Decidable r.Consistent :=
  inferInstanceAs (Decidable (∀ p ∈ r.placed, p ∈ r.registered))

theorem mem_withPair {q : Text × Text} {set : List (Text × Text)} :
    p ∈ withPair q set ↔ p = q ∨ p ∈ set := by
  unfold withPair
  split
  · rename_i h
    exact ⟨Or.inr, fun hp => hp.elim (fun he => he ▸ h) id⟩
  · simp [or_comm]

theorem mem_segments : s ∈ r.segments table ↔ (table, s) ∈ r.registered := by
  simp [segments]

theorem isAvailable_iff : r.isAvailable table s = true ↔ (table, s) ∈ r.placed := by
  simp [isAvailable]

theorem Consistent.mem_segments (h : r.Consistent) (hs : r.isAvailable table s = true) :
    s ∈ r.segments table :=
  Registry.mem_segments.mpr (h _ (isAvailable_iff.mp hs))

theorem mem_registered_addOne (hp : p ∈ r.registered) :
    p ∈ (addOne table placed r segment).registered :=
  mem_withPair.mpr (Or.inr hp)

theorem Consistent.addOne (h : r.Consistent) : (addOne table placed r segment).Consistent := by
  intro p hp
  unfold Registry.addOne at hp ⊢
  dsimp only at hp ⊢
  rw [mem_withPair]
  split at hp
  · rcases mem_withPair.mp hp with hp | hp
    · exact Or.inl hp
    · exact Or.inr (h p hp)
  · exact Or.inr (h p hp)

theorem mem_registered_add (hp : p ∈ r.registered) :
    p ∈ (r.add table segments placed).registered := by
  unfold add
  induction segments generalizing r with
  | nil => exact hp
  | cons x rest ih => exact ih (mem_registered_addOne hp)

theorem Consistent.add (h : r.Consistent) : (r.add table segments placed).Consistent := by
  unfold Registry.add
  induction segments generalizing r with
  | nil => exact h
  | cons x rest ih => exact ih h.addOne

theorem registered_place (h : r.place table segment = .ok r') : r'.registered = r.registered := by
  unfold place at h
  split at h
  · cases h; rfl
  · cases h

theorem Consistent.place (hr : r.Consistent) (h : r.place table segment = .ok r') :
    r'.Consistent := by
  unfold Registry.place at h
  split at h
  · rename_i hreg
    cases h
    intro p hp
    rcases mem_withPair.mp hp with rfl | hp
    · exact List.contains_iff_mem.mp hreg
    · exact hr p hp
  · cases h

theorem mem_segments_delete (hs : s ∈ r.segments table) (hne : s ≠ segment) :
    s ∈ (r.delete other segment).segments table := by
  rw [Registry.mem_segments] at hs ⊢
  unfold delete
  simp [hs, hne]

theorem Consistent.delete (h : r.Consistent) : (r.delete table segment).Consistent := by
  intro p hp
  unfold Registry.delete at hp ⊢
  rw [List.mem_filter] at hp ⊢
  exact ⟨h p hp.1, hp.2⟩

/-! ## The share of a table -/

/-- A table has the same segments in two registries. -/
structure Same (table : Text) (r r' : Registry) : Prop where
  registered : (r'.registered.filter fun p => p.1 == table) =
    r.registered.filter fun p => p.1 == table
  placed : (r'.placed.filter fun p => p.1 == table) = r.placed.filter fun p => p.1 == table

section Same

variable {ps ps' : List (Text × Text)} {r r' r'' : Registry} {table other segment : Text}

theorem Same.refl (table : Text) (r : Registry) : r.Same table r := ⟨rfl, rfl⟩

theorem Same.trans (h : r.Same table r') (h' : r'.Same table r'') : r.Same table r'' :=
  ⟨h'.registered.trans h.registered, h'.placed.trans h.placed⟩

theorem contains_iff_mem_filter : ps.contains (table, segment) = true ↔
    (table, segment) ∈ ps.filter fun p => p.1 == table := by
  rw [List.contains_iff_mem, List.mem_filter]
  simp

theorem contains_congr (segment : Text)
    (h : (ps'.filter fun p => p.1 == table) = ps.filter fun p => p.1 == table) :
    ps'.contains (table, segment) = ps.contains (table, segment) := by
  rw [Bool.eq_iff_iff, contains_iff_mem_filter, contains_iff_mem_filter, h]

theorem filter_withPair (segment : Text)
    (h : (ps'.filter fun p => p.1 == table) = ps.filter fun p => p.1 == table) :
    ((withPair (table, segment) ps').filter fun p => p.1 == table) =
      (withPair (table, segment) ps).filter fun p => p.1 == table := by
  have hmem : (table, segment) ∈ ps' ↔ (table, segment) ∈ ps := by
    rw [← List.contains_iff_mem, ← List.contains_iff_mem, contains_congr segment h]
  unfold withPair
  by_cases hin : (table, segment) ∈ ps
  · rw [if_pos hin, if_pos (hmem.mpr hin), h]
  · rw [if_neg hin, if_neg (mt hmem.mp hin), List.filter_append, List.filter_append, h]

theorem filter_withPair_of_ne (segment : Text) (h : other ≠ table) :
    ((withPair (other, segment) ps).filter fun p => p.1 == table) =
      ps.filter fun p => p.1 == table := by
  unfold withPair
  split
  · rfl
  · have hnone : ([(other, segment)].filter fun p => p.1 == table) = [] := by
      rw [List.filter_eq_nil_iff]
      intro p hp
      rw [List.mem_singleton.mp hp]
      simpa using h
    rw [List.filter_append, hnone, List.append_nil]

theorem Same.segments_eq (h : r.Same table r') : r'.segments table = r.segments table := by
  unfold Registry.segments
  rw [h.registered]

theorem Same.isAvailable_eq (h : r.Same table r') (segment : Text) :
    r'.isAvailable table segment = r.isAvailable table segment :=
  contains_congr segment h.placed

theorem Same.addOne (h : r.Same table r') (placed : Bool) (segment : Text) :
    (addOne table placed r segment).Same table (Registry.addOne table placed r' segment) := by
  unfold Registry.addOne
  cases placed with
  | false => exact ⟨filter_withPair segment h.registered, h.placed⟩
  | true => exact ⟨filter_withPair segment h.registered, filter_withPair segment h.placed⟩

theorem Same.add (h : r.Same table r') (segments : List Text) (placed : Bool) :
    (r.add table segments placed).Same table (r'.add table segments placed) := by
  unfold Registry.add
  induction segments generalizing r r' with
  | nil => exact h
  | cons segment segments ih => exact ih (h.addOne placed segment)

theorem same_add (h : other ≠ table) (segments : List Text) (placed : Bool) :
    r.Same table (r.add other segments placed) := by
  unfold Registry.add
  induction segments generalizing r with
  | nil => exact Same.refl table r
  | cons segment segments ih =>
    have hone : r.Same table (addOne other placed r segment) := by
      unfold Registry.addOne
      cases placed with
      | false => exact ⟨filter_withPair_of_ne segment h, rfl⟩
      | true => exact ⟨filter_withPair_of_ne segment h, filter_withPair_of_ne segment h⟩
    exact hone.trans ih

/-- A segment of the table is placed in both registries or in neither. -/
theorem Same.place (h : r.Same table r') (segment : Text) :
    (∃ q q', r.place table segment = .ok q ∧ r'.place table segment = .ok q' ∧ q.Same table q') ∨
      ∃ f, r.place table segment = .error f ∧ r'.place table segment = .error f := by
  unfold Registry.place
  rw [contains_congr segment h.registered]
  by_cases hin : r.registered.contains (table, segment) = true
  · rw [if_pos hin, if_pos hin]
    exact .inl ⟨_, _, rfl, rfl, h.registered, filter_withPair segment h.placed⟩
  · rw [if_neg hin, if_neg hin]
    exact .inr ⟨_, rfl, rfl⟩

theorem same_place (h : other ≠ table) (hplace : r.place other segment = .ok r') :
    r.Same table r' := by
  unfold Registry.place at hplace
  split at hplace
  · obtain rfl := Except.ok.inj hplace
    exact ⟨rfl, filter_withPair_of_ne segment h⟩
  · cases hplace

theorem Same.delete (h : r.Same table r') (segment : Text) :
    (r.delete table segment).Same table (r'.delete table segment) := by
  have hcomm : ∀ ps : List (Text × Text),
      ((ps.filter (· ≠ (table, segment))).filter fun p => p.1 == table) =
        (ps.filter fun p => p.1 == table).filter (· ≠ (table, segment)) := by
    intro ps
    rw [List.filter_filter, List.filter_filter]
    exact List.filter_congr fun p _ => Bool.and_comm _ _
  constructor
  · rw [Registry.delete, Registry.delete, hcomm, hcomm, h.registered]
  · rw [Registry.delete, Registry.delete, hcomm, hcomm, h.placed]

theorem same_delete (h : other ≠ table) (segment : Text) :
    r.Same table (r.delete other segment) := by
  have hkeep : ∀ ps : List (Text × Text),
      ((ps.filter (· ≠ (other, segment))).filter fun p => p.1 == table) =
        ps.filter fun p => p.1 == table := by
    intro ps
    rw [List.filter_filter]
    refine List.filter_congr fun p _ => ?_
    by_cases hp : p.1 = table
    · have hne : p ≠ (other, segment) := by
        rintro rfl
        exact h hp
      simp [hne]
    · simp [hp]
  exact ⟨hkeep r.registered, hkeep r.placed⟩

end Same

end Registry

end SegmentSwap
