import Mathlib.Data.List.Basic
import SegmentSwap.Proofs.Lineage.View

/-!
# The generations of a history

The history of a lineage falls into generations, newest first: every registered segment that a
completed entry has named belongs to exactly one, the newest that names it. So what lies beyond the
generations that stay is what does not belong to them.
-/

namespace SegmentSwap

namespace Lineage

variable {l : Lineage} {registered claimed : List Text} {lists : List (List Text)} {s : Text}

/-- What a list adds to the generations, given what lists before it have claimed. -/
def freshSegments (registered claimed segments : List Text) : List Text :=
  segments.filter fun s => registered.contains s && !claimed.contains s

theorem mem_freshSegments {segments : List Text} :
    s ∈ freshSegments registered claimed segments ↔
      s ∈ segments ∧ s ∈ registered ∧ s ∉ claimed := by
  simp [freshSegments]

theorem generationsAmong_of_nil {segments : List Text}
    (h : freshSegments registered claimed segments = []) :
    generationsAmong registered claimed (segments :: lists) =
      generationsAmong registered claimed lists := by
  unfold freshSegments at h
  simp only [generationsAmong, h, List.isEmpty_nil, if_true]

theorem generationsAmong_of_ne_nil {segments : List Text}
    (h : freshSegments registered claimed segments ≠ []) :
    generationsAmong registered claimed (segments :: lists) =
      freshSegments registered claimed segments :: generationsAmong registered
        (claimed ++ freshSegments registered claimed segments) lists := by
  have hne : (freshSegments registered claimed segments).isEmpty = false := by
    rw [← Bool.not_eq_true, List.isEmpty_iff]
    exact h
  unfold freshSegments at hne ⊢
  simp only [generationsAmong, hne, Bool.false_eq_true, if_false]

/-- The generations hold what is registered and has not been claimed. -/
theorem mem_generationsAmong :
    s ∈ (generationsAmong registered claimed lists).flatten ↔
      s ∈ lists.flatten ∧ s ∈ registered ∧ s ∉ claimed := by
  induction lists generalizing claimed with
  | nil => simp [generationsAmong]
  | cons segments rest ih =>
    have hhead : s ∈ segments ∧ s ∈ registered ∧ s ∉ claimed ↔
        s ∈ freshSegments registered claimed segments := mem_freshSegments.symm
    by_cases hnil : freshSegments registered claimed segments = []
    · rw [hnil] at hhead
      rw [generationsAmong_of_nil hnil, ih, List.flatten_cons, List.mem_append, or_and_right, hhead]
      exact (or_iff_right List.not_mem_nil).symm
    · rw [generationsAmong_of_ne_nil hnil, List.flatten_cons, List.flatten_cons, List.mem_append,
        List.mem_append, or_and_right, hhead, ih, List.mem_append, not_or]
      -- what the list adds is claimed for the rest
      refine ⟨Or.imp_right fun h => ⟨h.1, h.2.1, h.2.2.1⟩, fun h => ?_⟩
      by_cases hs : s ∈ freshSegments registered claimed segments
      · exact Or.inl hs
      · exact h.imp_right fun h => ⟨h.1, h.2.1, h.2.2, hs⟩

/-- No segment belongs to two generations. -/
theorem pairwise_generationsAmong :
    (generationsAmong registered claimed lists).Pairwise List.Disjoint := by
  induction lists generalizing claimed with
  | nil => exact List.Pairwise.nil
  | cons segments rest ih =>
    by_cases hnil : freshSegments registered claimed segments = []
    · rw [generationsAmong_of_nil hnil]
      exact ih
    · rw [generationsAmong_of_ne_nil hnil, List.pairwise_cons]
      refine ⟨fun later hlater s hs hslater => ?_, ih⟩
      have hmem := List.mem_flatten.mpr ⟨later, hlater, hslater⟩
      exact (mem_generationsAmong.mp hmem).2.2 (List.mem_append_right _ hs)

theorem nodup_generationsAmong (h : ∀ segments ∈ lists, segments.Nodup) :
    ∀ generation ∈ generationsAmong registered claimed lists, generation.Nodup := by
  induction lists generalizing claimed with
  | nil => exact fun _ hmem => absurd hmem List.not_mem_nil
  | cons segments rest ih =>
    have hrest : ∀ later ∈ rest, later.Nodup := fun later hlater =>
      h later (List.mem_cons_of_mem _ hlater)
    by_cases hnil : freshSegments registered claimed segments = []
    · rw [generationsAmong_of_nil hnil]
      exact ih hrest
    · rw [generationsAmong_of_ne_nil hnil]
      intro generation hmem
      rcases List.mem_cons.mp hmem with rfl | hmem
      · exact (h segments List.mem_cons_self).filter _
      · exact ih hrest generation hmem

theorem mem_history : s ∈ l.history.flatten ↔ s ∈ l.published ∨ s ∈ l.retired := by
  rw [mem_published, mem_retired]
  simp only [history, List.mem_flatten, List.mem_flatMap, List.mem_reverse, List.mem_cons,
    List.not_mem_nil, or_false]
  constructor
  · rintro ⟨segments, ⟨e, he, rfl | rfl⟩, hs⟩
    · exact Or.inl ⟨e, he, hs⟩
    · exact Or.inr ⟨e, he, hs⟩
  · rintro (⟨e, he, hs⟩ | ⟨e, he, hs⟩)
    · exact ⟨_, ⟨e, he, Or.inl rfl⟩, hs⟩
    · exact ⟨_, ⟨e, he, Or.inr rfl⟩, hs⟩

/-- The segments of the generations that stay while another one is uploaded. -/
def staying (l : Lineage) (registered : List Text) (limit : Int) : List Text :=
  ((l.generations registered).take (retained limit)).flatten

/-- Of the registered segments that completed entries have named, those are surplus that belong to
no generation that stays. -/
theorem mem_surplus {limit : Int} :
    s ∈ l.surplus registered limit ↔
      (s ∈ l.published ∨ s ∈ l.retired) ∧ s ∈ registered ∧ s ∉ l.staying registered limit := by
  have hall : s ∈ (l.generations registered).flatten ↔
      (s ∈ l.published ∨ s ∈ l.retired) ∧ s ∈ registered := by
    unfold generations
    rw [mem_generationsAmong, mem_history]
    simp
  have hpairs : ((l.generations registered).take (retained limit) ++
      (l.generations registered).drop (retained limit)).Pairwise List.Disjoint := by
    rw [List.take_append_drop]
    exact pairwise_generationsAmong
  rw [← List.take_append_drop (retained limit) (l.generations registered), List.flatten_append,
    List.mem_append] at hall
  rw [← and_assoc, ← hall]
  unfold surplus staying
  refine ⟨fun hs => ⟨Or.inr hs, fun hstay => ?_⟩, fun h => h.1.resolve_left h.2⟩
  obtain ⟨a, ha, hsa⟩ := List.mem_flatten.mp hstay
  obtain ⟨b, hb, hsb⟩ := List.mem_flatten.mp hs
  exact (List.pairwise_append.mp hpairs).2.2 a ha b hb hsa hsb

/-- No segment is surplus twice. -/
theorem nodup_surplus {limit : Int} (h : ∀ segments ∈ l.history, segments.Nodup) :
    (l.surplus registered limit).Nodup := by
  have hdrop : ((l.generations registered).drop (retained limit)).Sublist
      (l.generations registered) := List.drop_sublist _ _
  refine List.nodup_flatten.mpr ⟨fun generation hmem => ?_, ?_⟩
  · exact nodup_generationsAmong h generation (hdrop.subset hmem)
  · exact pairwise_generationsAmong.sublist hdrop

end Lineage

end SegmentSwap
