import SegmentSwap.Proofs.Lineage.View

/-!
# How a lineage grows

A later lineage of a table continues an earlier one: every entry is where it was, with its id and
its segments; it is the same, or it was in progress and has been resolved since. New entries come
after all others. So what completed entries have produced and consumed only ever grows, and whatever
is exposed differently later on has been touched by a completion or by a new entry.
-/

namespace SegmentSwap

/-- What may become of an entry: nothing, or it is resolved if it was in progress. -/
structure Entry.Becomes (e e' : Entry) : Prop where
  id : e'.id = e.id
  sources : e'.sources = e.sources
  targets : e'.targets = e.targets
  fate : e' = e ∨ e.state = .inProgress ∧ (e'.state = .completed ∨ e'.state = .reverted)

namespace Entry.Becomes

variable {e e' e'' : Entry}

theorem refl (e : Entry) : e.Becomes e := ⟨rfl, rfl, rfl, Or.inl rfl⟩

theorem moved {next : State} (stamp : Text) (h : e.state = .inProgress)
    (hnext : next = .completed ∨ next = .reverted) : e.Becomes (e.moved next stamp) :=
  ⟨rfl, rfl, rfl, Or.inr ⟨h, hnext⟩⟩

/-- A resolved entry stays as it is. -/
theorem eq_of_resolved (h : e.Becomes e') (hstate : e.state ≠ .inProgress) : e' = e := by
  rcases h.fate with heq | ⟨hrun, -⟩
  · exact heq
  · exact absurd hrun hstate

theorem trans (h : e.Becomes e') (h' : e'.Becomes e'') : e.Becomes e'' := by
  refine ⟨h'.id.trans h.id, h'.sources.trans h.sources, h'.targets.trans h.targets, ?_⟩
  rcases h.fate with rfl | ⟨hrun, hresolved⟩
  · exact h'.fate
  · have hstate : e'.state ≠ .inProgress := by
      rcases hresolved with hs | hs <;> rw [hs] <;> decide
    rw [h'.eq_of_resolved hstate]
    exact Or.inr ⟨hrun, hresolved⟩

end Entry.Becomes

namespace Lineage

/-- Every entry of the first lineage is at the same place of the second one, up to its fate. -/
structure Continues (l l' : Lineage) : Prop where
  table : l'.table = l.table
  entries : ∀ (i : Nat) (e : Entry), l.entries[i]? = some e →
    ∃ e', l'.entries[i]? = some e' ∧ e.Becomes e'

/-- The entry of an id is resolved. -/
def Resolved (l : Lineage) (id : Text) : Prop :=
  ∃ e ∈ l.entries, e.id = id ∧ (e.state = .completed ∨ e.state = .reverted)

variable {l l' l'' : Lineage} {s id : Text}

theorem not_resolved_of_running {e : Entry} (he : e ∈ l.running) : ¬ l.Resolved e.id := by
  rintro ⟨x, hx, hid, hstate⟩
  obtain ⟨hmem, hrun⟩ := mem_running.mp he
  obtain rfl := eq_of_id_eq hx hmem hid
  rcases hstate with hs | hs <;> rw [hs] at hrun <;> cases hrun

/-- Moving entries resolves them, and no others. -/
theorem Moves.resolved_iff {xs : List Entry} {next : State} {stamp : Text}
    (hm : l.Moves xs next stamp l') (hnext : next = .completed ∨ next = .reverted) :
    l'.Resolved id ↔ l.Resolved id ∨ ∃ x ∈ xs, x.id = id := by
  constructor
  · rintro ⟨e, he, hid, hstate⟩
    obtain ⟨x, hx, rfl⟩ := hm.mem.mp he
    unfold Entry.movedAmong at hid hstate
    split at hid
    · rename_i hmem
      exact Or.inr ⟨x, hmem, hid⟩
    · rename_i hmem
      rw [if_neg hmem] at hstate
      exact Or.inl ⟨x, hx, hid, hstate⟩
  · rintro (⟨x, hx, hid, hstate⟩ | ⟨x, hmem, rfl⟩)
    · have hnot : x ∉ xs := fun hmem => not_resolved_of_running (hm.running x hmem)
        ⟨x, hx, rfl, hstate⟩
      refine ⟨x, hm.mem.mpr ⟨x, hx, ?_⟩, hid, hstate⟩
      unfold Entry.movedAmong
      rw [if_neg hnot]
    · refine ⟨x.moved next stamp, hm.mem.mpr ⟨x, ?_, ?_⟩, rfl, hnext⟩
      · exact (Lineage.mem_running.mp (hm.running x hmem)).1
      · unfold Entry.movedAmong
        rw [if_pos hmem]

theorem Appends.resolved_iff {e : Entry} (ha : l.Appends e l') :
    l'.Resolved id ↔ l.Resolved id := by
  constructor
  · rintro ⟨x, hx, hid, hstate⟩
    rcases ha.mem.mp hx with hx | rfl
    · exact ⟨x, hx, hid, hstate⟩
    · rw [ha.running] at hstate
      rcases hstate with hs | hs <;> cases hs
  · rintro ⟨x, hx, hid, hstate⟩
    exact ⟨x, ha.mem.mpr (Or.inl hx), hid, hstate⟩

namespace Continues

theorem refl (l : Lineage) : l.Continues l := ⟨rfl, fun _ e he => ⟨e, he, .refl e⟩⟩

theorem trans (h : l.Continues l') (h' : l'.Continues l'') : l.Continues l'' := by
  refine ⟨h'.table.trans h.table, fun i e he => ?_⟩
  obtain ⟨e', he', hbecomes⟩ := h.entries i e he
  obtain ⟨e'', he'', hbecomes'⟩ := h'.entries i e' he'
  exact ⟨e'', he'', hbecomes.trans hbecomes'⟩

theorem mem (h : l.Continues l') {e : Entry} (he : e ∈ l.entries) :
    ∃ e' ∈ l'.entries, e.Becomes e' := by
  obtain ⟨i, hi⟩ := List.getElem?_of_mem he
  obtain ⟨e', he', hbecomes⟩ := h.entries i e hi
  exact ⟨e', List.mem_of_getElem? he', hbecomes⟩

theorem ids_prefix (h : l.Continues l') : l.ids <+: l'.ids := by
  rw [List.prefix_iff_getElem?]
  intro i hi
  have hlt : i < l.entries.length := by simpa [ids] using hi
  obtain ⟨e', he', hbecomes⟩ := h.entries i l.entries[i] (List.getElem?_eq_getElem hlt)
  simp [ids, he', hbecomes.id]

/-- An entry that is found later under an old id is what has become of the old one. -/
theorem becomes_of_id (h : l.Continues l') {e' : Entry} (he' : e' ∈ l'.entries)
    (hid : e'.id ∈ l.ids) : ∃ e ∈ l.entries, e.Becomes e' := by
  obtain ⟨e, he, heid⟩ := mem_ids.mp hid
  obtain ⟨x, hx, hbecomes⟩ := h.mem he
  obtain rfl := eq_of_id_eq hx he' (hbecomes.id.trans heid)
  exact ⟨e, he, hbecomes⟩

theorem mem_of_resolved (h : l.Continues l') {e : Entry} (he : e ∈ l.entries)
    (hstate : e.state ≠ .inProgress) : e ∈ l'.entries := by
  obtain ⟨e', he', hbecomes⟩ := h.mem he
  rw [hbecomes.eq_of_resolved hstate] at he'
  exact he'

theorem resolved (h : l.Continues l') (hr : l.Resolved id) : l'.Resolved id := by
  obtain ⟨e, he, hid, hstate⟩ := hr
  have hne : e.state ≠ .inProgress := by
    rcases hstate with hs | hs <;> rw [hs] <;> decide
  exact ⟨e, h.mem_of_resolved he hne, hid, hstate⟩

theorem completed_subset (h : l.Continues l') : l.completed ⊆ l'.completed := by
  intro e he
  obtain ⟨hmem, hstate⟩ := mem_completed.mp he
  have hne : e.state ≠ .inProgress := by rw [hstate]; decide
  exact mem_completed.mpr ⟨h.mem_of_resolved hmem hne, hstate⟩

theorem moves {xs : List Entry} {next : State} {stamp : Text}
    (hm : l.Moves xs next stamp l') (hnext : next = .completed ∨ next = .reverted) :
    l.Continues l' := by
  refine ⟨hm.table, fun i e he => ⟨e.movedAmong xs next stamp, ?_, ?_⟩⟩
  · rw [hm.entries, List.getElem?_map, he]
    rfl
  · unfold Entry.movedAmong
    split
    · rename_i hmem
      exact .moved stamp (mem_running.mp (hm.running e hmem)).2 hnext
    · exact .refl e

theorem appends {e : Entry} (ha : l.Appends e l') : l.Continues l' := by
  refine ⟨ha.table, fun i x hx => ⟨x, ?_, .refl x⟩⟩
  rw [ha.entries, List.getElem?_append_left (List.getElem?_eq_some_iff.mp hx).1]
  exact hx

/-- What is not exposed any more has been consumed by a completion since, or a new entry claims
it. -/
theorem exposes_lost (h : l.Continues l') (hs : l.exposes s = true) (hs' : l'.exposes s = false) :
    (∃ e ∈ l'.completed, e ∉ l.completed ∧ s ∈ e.sources) ∨
      ∃ e ∈ l'.entries, e.id ∉ l.ids ∧ s ∈ e.targets := by
  obtain ⟨hret, hhidden⟩ := exposes_iff.mp hs
  rcases exposes_eq_false_iff.mp hs' with hret' | ⟨hunpub', hpub'⟩
  · obtain ⟨e, he, hse⟩ := mem_retired.mp hret'
    refine Or.inl ⟨e, he, fun hold => hret ?_, hse⟩
    exact mem_retired.mpr ⟨e, hold, hse⟩
  · obtain ⟨e, he, hstate, hse⟩ := mem_unpublished.mp hunpub'
    refine Or.inr ⟨e, he, fun hid => ?_, hse⟩
    -- an old entry that is not completed has always hidden its targets
    obtain ⟨x, hx, hbecomes⟩ := h.becomes_of_id he hid
    have hxstate : x.state ≠ .completed := by
      intro hdone
      have hne : x.state ≠ .inProgress := by rw [hdone]; decide
      rw [hbecomes.eq_of_resolved hne] at hstate
      exact hstate hdone
    have hunpub : s ∈ l.unpublished :=
      mem_unpublished.mpr ⟨x, hx, hxstate, by rw [← hbecomes.targets]; exact hse⟩
    rcases hhidden with hhidden | hpub
    · exact hhidden hunpub
    · obtain ⟨d, hd, hsd⟩ := mem_published.mp hpub
      exact hpub' (mem_published.mpr ⟨d, h.completed_subset hd, hsd⟩)

/-- What is exposed now and was not before has been produced by a completion since. -/
theorem exposes_gained (h : l.Continues l') (hs : l.exposes s = false)
    (hs' : l'.exposes s = true) : ∃ e ∈ l'.completed, e ∉ l.completed ∧ s ∈ e.targets := by
  obtain ⟨hret', hhidden'⟩ := exposes_iff.mp hs'
  rcases exposes_eq_false_iff.mp hs with hret | ⟨hunpub, hpub⟩
  · obtain ⟨e, he, hse⟩ := mem_retired.mp hret
    exact absurd (mem_retired.mpr ⟨e, h.completed_subset he, hse⟩) hret'
  · have hpub' : s ∈ l'.published := by
      rcases hhidden' with hhidden' | hpub'
      · obtain ⟨x, hx, hxstate, hsx⟩ := mem_unpublished.mp hunpub
        obtain ⟨x', hx', hbecomes⟩ := h.mem hx
        have hsx' : s ∈ x'.targets := by rw [hbecomes.targets]; exact hsx
        have hdone : x'.state = .completed := by
          by_contra hstate
          exact hhidden' (mem_unpublished.mpr ⟨x', hx', hstate, hsx'⟩)
        exact mem_published.mpr ⟨x', mem_completed.mpr ⟨hx', hdone⟩, hsx'⟩
      · exact hpub'
    obtain ⟨e, he, hse⟩ := mem_published.mp hpub'
    exact ⟨e, he, fun hold => hpub (mem_published.mpr ⟨e, hold, hse⟩), hse⟩

/-- As long as nothing is started or completed, the same segments are exposed. -/
theorem exposes_eq (h : l.Continues l') (hids : l'.ids = l.ids)
    (hdone : l'.completed ⊆ l.completed) : l'.exposes = l.exposes := by
  funext s
  cases hs : l.exposes s with
  | true =>
    by_contra hlost
    rw [Bool.not_eq_true] at hlost
    rcases h.exposes_lost hs hlost with ⟨e, he, hnew, -⟩ | ⟨e, he, hnew, -⟩
    · exact hnew (hdone he)
    · rw [← hids] at hnew
      exact hnew (mem_ids.mpr ⟨e, he, rfl⟩)
  | false =>
    by_contra hgained
    rw [Bool.not_eq_false] at hgained
    obtain ⟨e, he, hnew, -⟩ := h.exposes_gained hs hgained
    exact hnew (hdone he)

end Continues

end Lineage

end SegmentSwap
