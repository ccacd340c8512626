import Mathlib.Data.List.Perm.Basic
import SegmentSwap.Proofs.Lineage.Growth

/-!
# Entries that turn to a state

Two lineages of a table, one later than the other, tell which entries have turned to a state between
them. A change of the lineage turns the entries that it moves and no others. As a lineage grows,
every resolved entry in it has turned to its state once.
-/

namespace SegmentSwap

theorem filter_mem_of_sublist {α : Type} [DecidableEq α] {xs ys : List α} (h : xs.Sublist ys)
    (hnodup : ys.Nodup) : ys.filter (fun y => decide (y ∈ xs)) = xs := by
  induction h with
  | slnil => rfl
  | @cons xs ys y h ih =>
    obtain ⟨hy, hys⟩ := List.nodup_cons.mp hnodup
    have hnot : y ∉ xs := fun hmem => hy (h.subset hmem)
    rw [List.filter_cons_of_neg (by simpa using hnot)]
    exact ih hys
  | @cons_cons xs ys y h ih =>
    obtain ⟨hy, hys⟩ := List.nodup_cons.mp hnodup
    rw [List.filter_cons_of_pos (by simp)]
    congr 1
    rw [← ih hys]
    refine List.filter_congr fun x hx => ?_
    have hne : x ≠ y := by
      rintro rfl
      exact hy hx
    rw [ih hys]
    simp [hne]

namespace Lineage

variable {l l' mid : Lineage} {s : State} {e : Entry} {id : Text}

theorem nodup_entries (l : Lineage) : l.entries.Nodup := List.Nodup.of_map Entry.id l.distinct

theorem get?_eq_some_iff : l.get? id = some e ↔ e ∈ l.entries ∧ e.id = id := by
  unfold get?
  constructor
  · intro h
    exact ⟨List.mem_of_find?_eq_some h, by simpa using List.find?_some h⟩
  · rintro ⟨he, rfl⟩
    cases hf : l.entries.find? (·.id == e.id) with
    | none => exact absurd (List.find?_eq_none.mp hf e he) (by simp)
    | some x =>
      have hid : x.id = e.id := by simpa using List.find?_some hf
      rw [eq_of_id_eq (List.mem_of_find?_eq_some hf) he hid]

/-- The entries of a later lineage that have turned to a state since an earlier one. -/
def turned (l l' : Lineage) (s : State) : List Entry :=
  l'.entries.filter fun e =>
    decide (e.state = s) && (l.get? e.id).any fun old => decide (old.state ≠ s)

theorem mem_turned : e ∈ l.turned l' s ↔
    e ∈ l'.entries ∧ e.state = s ∧ ∃ old ∈ l.entries, old.id = e.id ∧ old.state ≠ s := by
  unfold turned
  simp [Option.any_eq_true, get?_eq_some_iff, and_assoc]

theorem Moves.ids_eq {xs : List Entry} {next : State} {stamp : Text}
    (hm : l.Moves xs next stamp l') : l'.ids = l.ids := by
  unfold ids
  rw [hm.entries, List.map_map]
  refine List.map_congr_left fun x _ => ?_
  rw [Function.comp_apply]
  unfold Entry.movedAmong
  split <;> rfl

/-- Moving entries turns them, in their order in the lineage, and no others. -/
theorem Moves.turned {xs : List Entry} {next : State} {stamp : Text}
    (hm : l.Moves xs next stamp l') (hxs : xs.Sublist l.entries) (hnext : next ≠ .inProgress) :
    l.turned l' s = if s = next then xs.map (Entry.moved next stamp) else [] := by
  have hids : ∀ x, (Entry.movedAmong xs next stamp x).id = x.id := by
    intro x
    unfold Entry.movedAmong
    split <;> rfl
  have hpick : ∀ x ∈ l.entries,
      ((fun e => decide (e.state = s) && (l.get? e.id).any fun old => decide (old.state ≠ s)) ∘
        Entry.movedAmong xs next stamp) x = (decide (s = next) && decide (x ∈ xs)) := by
    intro x hx
    have hold : l.get? x.id = some x := get?_eq_some_iff.mpr ⟨hx, rfl⟩
    rw [Function.comp_apply, hids, hold, Option.any_some, Entry.movedAmong_state]
    by_cases hmem : x ∈ xs
    · have hrun := (Lineage.mem_running.mp (hm.running x hmem)).2
      rw [if_pos hmem, hrun]
      by_cases hs : s = next
      · simp [hs, hmem, hnext.symm]
      · simp [hs, Ne.symm hs]
    · rw [if_neg hmem]
      simp [hmem]
  unfold Lineage.turned
  rw [hm.entries, List.filter_map, List.filter_congr hpick]
  split
  · rename_i hs
    have hpicked : l.entries.filter (fun x => decide (s = next) && decide (x ∈ xs)) = xs := by
      simp only [hs, decide_true, Bool.true_and]
      exact filter_mem_of_sublist hxs l.nodup_entries
    rw [hpicked]
    refine List.map_congr_left fun x hx => ?_
    unfold Entry.movedAmong
    rw [if_pos hx]
  · rename_i hs
    simp [hs]

/-- A new entry has not turned to any state. -/
theorem Appends.turned (ha : mid.Appends e l') (hfresh : e.id ∉ l.ids) :
    l.turned l' s = l.turned mid s := by
  have hnew : ¬ ∃ old ∈ l.entries, old.id = e.id ∧ old.state ≠ s := by
    rintro ⟨old, hold, hid, -⟩
    exact hfresh (mem_ids.mpr ⟨old, hold, hid⟩)
  have hpick : (decide (e.state = s) && (l.get? e.id).any fun old => decide (old.state ≠ s)) =
      false := by
    rw [← Bool.not_eq_true]
    intro hpick
    simp only [Bool.and_eq_true, Option.any_eq_true, get?_eq_some_iff, decide_eq_true_eq] at hpick
    obtain ⟨-, old, ⟨hold, hid⟩, hstate⟩ := hpick
    exact hnew ⟨old, hold, hid, hstate⟩
  unfold Lineage.turned
  rw [ha.entries, List.filter_append, List.filter_cons_of_neg (by rw [hpick]; decide),
    List.filter_nil, List.append_nil]

/-- What stands in a state is what has stood there before and what has turned to it since, as long
as new entries are in progress. -/
theorem Continues.perm_turned (h : l.Continues l') (hs : s ≠ .inProgress)
    (hnew : ∀ e ∈ l'.entries, e.id ∉ l.ids → e.state = .inProgress) :
    (l'.entries.filter fun e => decide (e.state = s)).Perm
      ((l.entries.filter fun e => decide (e.state = s)) ++ l.turned l' s) := by
  have hturned : (l.turned l' s).Nodup := l'.nodup_entries.filter _
  have happend : ((l.entries.filter fun e => decide (e.state = s)) ++ l.turned l' s).Nodup := by
    refine List.nodup_append.mpr ⟨l.nodup_entries.filter _, hturned, fun x hx y hy hxy => ?_⟩
    rw [← hxy] at hy
    obtain ⟨hmem, hstate⟩ := List.mem_filter.mp hx
    obtain ⟨-, -, old, hold, hid, hne⟩ := mem_turned.mp hy
    rw [eq_of_id_eq hold hmem hid] at hne
    exact hne (of_decide_eq_true hstate)
  refine (List.perm_ext_iff_of_nodup (l'.nodup_entries.filter _) happend).mpr fun e => ?_
  rw [List.mem_append, List.mem_filter, List.mem_filter, mem_turned, decide_eq_true_eq]
  constructor
  · rintro ⟨he, hstate⟩
    by_cases hid : e.id ∈ l.ids
    · obtain ⟨old, hold, hbecomes⟩ := h.becomes_of_id he hid
      rcases hbecomes.fate with rfl | ⟨hrun, -⟩
      · exact .inl ⟨hold, hstate⟩
      · have hne : old.state ≠ s := by
          rw [hrun]
          exact hs.symm
        exact .inr ⟨he, hstate, old, hold, hbecomes.id.symm, hne⟩
    · rw [hnew e he hid] at hstate
      exact absurd hstate.symm hs
  · rintro (⟨he, hstate⟩ | ⟨he, hstate, -⟩)
    · exact ⟨h.mem_of_resolved he (by rw [hstate]; exact hs), hstate⟩
    · exact ⟨he, hstate⟩

end Lineage

end SegmentSwap
