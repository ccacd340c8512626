import SegmentSwap.Proofs.Lineage.Update

/-!
# Which segments a lineage exposes

The served segments are computed from all entries that there have ever been. Here it is said how the
two changes that a lineage undergoes act on them: giving up entries in progress has no effect, a new
entry hides its targets, and the completion of an entry retires its sources and exposes its targets,
those of them that no completed entry has consumed before.
-/

namespace SegmentSwap

theorem overlaps_eq_false_iff {left right : List Text} :
    overlaps left right = false ↔ ¬(left = [] ∧ right = []) ∧ left.Disjoint right := by
  simp only [overlaps, Bool.or_eq_false_iff, Bool.and_eq_false_iff, List.isEmpty_eq_false_iff,
    List.any_eq_false, List.contains_iff_mem, List.Disjoint, ne_eq]
  constructor
  · rintro ⟨hne, hd⟩
    exact ⟨fun h => hne.elim (fun hl => hl h.1) (fun hr => hr h.2), fun a ha hb => hd a ha hb⟩
  · rintro ⟨hne, hd⟩
    refine ⟨?_, fun a ha hb => hd ha hb⟩
    by_cases hl : left = []
    · exact Or.inr fun hr => hne ⟨hl, hr⟩
    · exact Or.inl hl

theorem overlaps_self (sources : List Text) : overlaps sources sources = true := by
  cases sources with
  | nil => rfl
  | cons s rest => simp [overlaps]

theorem overlaps_comm (left right : List Text) : overlaps left right = overlaps right left := by
  have hempty : (left = [] ∧ right = []) ↔ (right = [] ∧ left = []) := and_comm
  rw [Bool.eq_iff_iff, ← Bool.not_eq_false, ← Bool.not_eq_false, overlaps_eq_false_iff,
    overlaps_eq_false_iff, hempty, List.disjoint_comm]

theorem mem_registeredSubset {s : Text} {segments registered : List Text} :
    s ∈ registeredSubset segments registered ↔ s ∈ segments ∧ s ∈ registered := by
  simp [registeredSubset]

theorem registeredSubset_eq_filter (segments registered : List Text) :
    registeredSubset segments registered = segments.filter fun s => decide (s ∈ registered) :=
  List.filter_congr fun _ _ => List.contains_eq_mem _ _

namespace Lineage

variable {l l' : Lineage} {s : Text}

theorem mem_retired : s ∈ l.retired ↔ ∃ e ∈ l.completed, s ∈ e.sources := by
  simp [retired]

theorem mem_published : s ∈ l.published ↔ ∃ e ∈ l.completed, s ∈ e.targets := by
  simp [published]

theorem mem_unpublished :
    s ∈ l.unpublished ↔ ∃ e ∈ l.entries, e.state ≠ .completed ∧ s ∈ e.targets := by
  simp [unpublished, and_assoc]

theorem exposes_iff :
    l.exposes s = true ↔ s ∉ l.retired ∧ (s ∉ l.unpublished ∨ s ∈ l.published) := by
  simp [exposes]

theorem mem_served {registered : List Text} :
    s ∈ l.served registered ↔ s ∈ registered ∧ l.exposes s = true := by
  simp [served]

theorem mem_rivals {e : Entry} {sources : List Text} :
    e ∈ l.rivals sources ↔ e ∈ l.running ∧ overlaps e.sources sources = true := by
  simp [rivals]

theorem mem_orphans {e done : Entry} :
    e ∈ l.orphans done ↔ e ∈ l.running ∧ e.id ≠ done.id ∧ ∃ s ∈ e.sources, s ∈ done.sources := by
  simp [orphans]

theorem exposes_eq_false_iff :
    l.exposes s = false ↔ s ∈ l.retired ∨ (s ∈ l.unpublished ∧ s ∉ l.published) := by
  rw [← Bool.not_eq_true, exposes_iff, not_and_or, not_or, not_not, not_not]

section Moves

variable {xs : List Entry} {next : State} {stamp : Text}

theorem Moves.mem (h : l.Moves xs next stamp l') {e : Entry} :
    e ∈ l'.entries ↔ ∃ x ∈ l.entries, x.movedAmong xs next stamp = e := by
  rw [h.entries, List.mem_map]

theorem Moves.mem_running (h : l.Moves xs next stamp l') (hnext : next ≠ .inProgress) {e : Entry} :
    e ∈ l'.running ↔ e ∈ l.running ∧ e ∉ xs := by
  rw [Lineage.mem_running, h.mem, Lineage.mem_running]
  constructor
  · rintro ⟨⟨x, hx, rfl⟩, hs⟩
    by_cases hmem : x ∈ xs
    · exact absurd (by simpa [Entry.movedAmong, hmem, Entry.moved] using hs) hnext
    · simp only [Entry.movedAmong, hmem, if_false] at hs ⊢
      exact ⟨⟨hx, hs⟩, not_false⟩
  · rintro ⟨⟨he, hs⟩, hmem⟩
    exact ⟨⟨e, he, by simp [Entry.movedAmong, hmem]⟩, hs⟩

theorem Moves.mem_running_of_singleton {e x : Entry} (h : l.Moves [e] next stamp l')
    (hnext : next ≠ .inProgress) : x ∈ l'.running ↔ x ∈ l.running ∧ x ≠ e := by
  rw [h.mem_running hnext, List.mem_singleton]

theorem Moves.mem_completed (h : l.Moves xs .reverted stamp l') {e : Entry} :
    e ∈ l'.completed ↔ e ∈ l.completed := by
  rw [Lineage.mem_completed, h.mem, Lineage.mem_completed]
  constructor
  · rintro ⟨⟨x, hx, rfl⟩, hs⟩
    by_cases hmem : x ∈ xs
    · simp [Entry.movedAmong, hmem, Entry.moved] at hs
    · simp only [Entry.movedAmong, hmem, if_false] at hs ⊢
      exact ⟨hx, hs⟩
  · rintro ⟨he, hs⟩
    have hmem : e ∉ xs := by
      intro hmem
      have := (Lineage.mem_running.mp (h.running e hmem)).2
      simp [hs] at this
    exact ⟨⟨e, he, by simp [Entry.movedAmong, hmem]⟩, hs⟩

/-- Giving up entries in progress leaves hidden what was hidden, and nothing else. -/
theorem Moves.mem_unpublished (h : l.Moves xs .reverted stamp l') :
    s ∈ l'.unpublished ↔ s ∈ l.unpublished := by
  rw [Lineage.mem_unpublished, Lineage.mem_unpublished]
  constructor
  · rintro ⟨e, he, hs, ht⟩
    obtain ⟨x, hx, rfl⟩ := h.mem.mp he
    by_cases hmem : x ∈ xs
    · have hrun := (Lineage.mem_running.mp (h.running x hmem)).2
      refine ⟨x, hx, by simp [hrun], ?_⟩
      simpa [Entry.movedAmong, hmem, Entry.moved] using ht
    · simp only [Entry.movedAmong, hmem, if_false] at hs ht
      exact ⟨x, hx, hs, ht⟩
  · rintro ⟨x, hx, hs, ht⟩
    refine ⟨_, h.mem.mpr ⟨x, hx, rfl⟩, ?_, ?_⟩
    · by_cases hmem : x ∈ xs <;> simp [Entry.movedAmong, hmem, Entry.moved, hs]
    · by_cases hmem : x ∈ xs <;> simp [Entry.movedAmong, hmem, Entry.moved, ht]

/-- Giving up entries in progress does not change what is exposed. -/
theorem Moves.exposes_eq (h : l.Moves xs .reverted stamp l') : l'.exposes s = l.exposes s := by
  rw [Bool.eq_iff_iff, exposes_iff, exposes_iff, mem_retired, mem_retired, mem_published,
    mem_published, h.mem_unpublished]
  simp only [h.mem_completed]

end Moves

section Completion

variable {e : Entry} {stamp : Text}

theorem Moves.mem_completed_of_completion (h : l.Moves [e] .completed stamp l') {x : Entry} :
    x ∈ l'.completed ↔ x ∈ l.completed ∨ x = e.moved .completed stamp := by
  rw [Lineage.mem_completed, h.mem, Lineage.mem_completed]
  constructor
  · rintro ⟨⟨y, hy, rfl⟩, hs⟩
    by_cases hye : y = e
    · exact Or.inr (by simp [Entry.movedAmong, hye])
    · simp only [Entry.movedAmong, List.mem_singleton, hye, if_false] at hs ⊢
      exact Or.inl ⟨hy, hs⟩
  · have hrun := Lineage.mem_running.mp (h.running e (List.mem_singleton_self e))
    rintro (⟨hx, hs⟩ | rfl)
    · have hxe : x ≠ e := by
        rintro rfl
        simp [hs] at hrun
      exact ⟨⟨x, hx, by simp [Entry.movedAmong, hxe]⟩, hs⟩
    · exact ⟨⟨e, hrun.1, by simp [Entry.movedAmong]⟩, rfl⟩

theorem Moves.mem_retired_of_completion (h : l.Moves [e] .completed stamp l') :
    s ∈ l'.retired ↔ s ∈ l.retired ∨ s ∈ e.sources := by
  rw [Lineage.mem_retired, Lineage.mem_retired]
  simp only [h.mem_completed_of_completion, or_and_right, exists_or, exists_eq_left]
  rfl

theorem Moves.mem_published_of_completion (h : l.Moves [e] .completed stamp l') :
    s ∈ l'.published ↔ s ∈ l.published ∨ s ∈ e.targets := by
  rw [Lineage.mem_published, Lineage.mem_published]
  simp only [h.mem_completed_of_completion, or_and_right, exists_or, exists_eq_left]
  rfl

theorem Moves.mem_unpublished_of_completion (h : l.Moves [e] .completed stamp l')
    (hs : s ∉ e.targets) : s ∈ l'.unpublished ↔ s ∈ l.unpublished := by
  rw [Lineage.mem_unpublished, Lineage.mem_unpublished]
  constructor
  · rintro ⟨y, hy, hne, ht⟩
    obtain ⟨x, hx, rfl⟩ := h.mem.mp hy
    by_cases hxe : x = e
    · simp [Entry.movedAmong, hxe, Entry.moved] at hne
    · simp only [Entry.movedAmong, List.mem_singleton, hxe, if_false] at hne ht
      exact ⟨x, hx, hne, ht⟩
  · rintro ⟨x, hx, hne, ht⟩
    have hxe : x ≠ e := by
      rintro rfl
      exact hs ht
    exact ⟨x, h.mem.mpr ⟨x, hx, by simp [Entry.movedAmong, hxe]⟩, hne, ht⟩

/-- A completion retires the sources of its entry; beside its targets it changes nothing else. -/
theorem Moves.exposes_of_completion (h : l.Moves [e] .completed stamp l') (hs : s ∉ e.targets) :
    l'.exposes s = true ↔ l.exposes s = true ∧ s ∉ e.sources := by
  rw [exposes_iff, exposes_iff, h.mem_retired_of_completion, h.mem_published_of_completion,
    h.mem_unpublished_of_completion hs]
  simp only [hs, or_false, not_or]
  exact and_right_comm

/-- A completion exposes a target of its entry, unless a completed entry has ever consumed a segment
of the same name. -/
theorem Moves.exposes_target_of_completion (h : l.Moves [e] .completed stamp l')
    (hs : s ∈ e.targets) : l'.exposes s = true ↔ s ∉ l.retired ∧ s ∉ e.sources := by
  rw [exposes_iff, h.mem_retired_of_completion, h.mem_published_of_completion]
  simp [hs]

end Completion

section Appends

variable {e : Entry}

theorem Appends.mem (h : l.Appends e l') {x : Entry} :
    x ∈ l'.entries ↔ x ∈ l.entries ∨ x = e := by
  rw [h.entries, List.mem_append, List.mem_singleton]

theorem Appends.mem_running (h : l.Appends e l') {x : Entry} :
    x ∈ l'.running ↔ x ∈ l.running ∨ x = e := by
  rw [Lineage.mem_running, h.mem, Lineage.mem_running, or_and_right]
  refine or_congr_right ⟨fun hx => hx.1, fun hx => ⟨hx, ?_⟩⟩
  rw [hx]
  exact h.running

theorem Appends.mem_completed (h : l.Appends e l') {x : Entry} :
    x ∈ l'.completed ↔ x ∈ l.completed := by
  rw [Lineage.mem_completed, h.mem, Lineage.mem_completed]
  constructor
  · rintro ⟨hx | rfl, hs⟩
    · exact ⟨hx, hs⟩
    · simp [h.running] at hs
  · rintro ⟨hx, hs⟩
    exact ⟨Or.inl hx, hs⟩

theorem Appends.mem_unpublished (h : l.Appends e l') :
    s ∈ l'.unpublished ↔ s ∈ l.unpublished ∨ s ∈ e.targets := by
  rw [Lineage.mem_unpublished, Lineage.mem_unpublished]
  simp only [h.mem, or_and_right, exists_or, exists_eq_left]
  simp [h.running]

/-- A new entry hides its targets, as long as no completed entry produces them, and nothing else. -/
theorem Appends.exposes_iff (h : l.Appends e l') (hfree : ∀ t ∈ e.targets, t ∉ l.published) :
    l'.exposes s = true ↔ l.exposes s = true ∧ s ∉ e.targets := by
  rw [Lineage.exposes_iff, Lineage.exposes_iff, mem_retired, mem_retired, mem_published,
    mem_published, h.mem_unpublished]
  simp only [h.mem_completed, ← mem_retired, ← mem_published]
  constructor
  · rintro ⟨hr, hu⟩
    have hs : s ∉ e.targets := fun hs => hu.elim (fun hu => hu (Or.inr hs)) (hfree s hs)
    exact ⟨⟨hr, hu.imp_left fun hu hm => hu (Or.inl hm)⟩, hs⟩
  · rintro ⟨⟨hr, hu⟩, hs⟩
    exact ⟨hr, hu.imp_left fun hu hm => hm.elim hu hs⟩

end Appends

end Lineage

end SegmentSwap
