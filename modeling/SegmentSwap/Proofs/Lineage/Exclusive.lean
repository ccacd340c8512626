import SegmentSwap.Proofs.Lineage.View

/-!
# Exclusive lineages

In an exclusive lineage no two live entries have a source or a target in common, and no two entries
in progress compete. Moving entries in progress to another state keeps a lineage exclusive, whatever
the state; a new entry keeps it exclusive if it has been checked against the live entries.
-/

namespace SegmentSwap

/-- The shape of a replacement: it has targets, names each segment once and none on both sides. -/
structure WellShaped (sources targets : List Text) : Prop where
  targets_ne : targets ≠ []
  sources_nodup : sources.Nodup
  targets_nodup : targets.Nodup
  disjoint : sources.Disjoint targets

theorem State.isLive_iff {s : State} : s.isLive = true ↔ s = .inProgress ∨ s = .completed := by
  simp [isLive]

/-- Live entries share nothing, and entries in progress do not compete. -/
structure Exclusive (l : Lineage) : Prop where
  sources : ∀ a ∈ l.entries, ∀ b ∈ l.entries, a ≠ b → a.state.isLive = true →
    b.state.isLive = true → a.sources.Disjoint b.sources
  targets : ∀ a ∈ l.entries, ∀ b ∈ l.entries, a ≠ b → a.state.isLive = true →
    b.state.isLive = true → a.targets.Disjoint b.targets
  running : ∀ a ∈ l.running, ∀ b ∈ l.running, a ≠ b → overlaps a.sources b.sources = false
  shaped : ∀ e ∈ l.entries, WellShaped e.sources e.targets

namespace Lineage

variable {l l' : Lineage}

theorem isLive_of_mem_running {e : Entry} (h : e ∈ l.running) : e.state.isLive = true :=
  State.isLive_iff.mpr (Or.inl (mem_running.mp h).2)

theorem isLive_of_mem_completed {e : Entry} (h : e ∈ l.completed) : e.state.isLive = true :=
  State.isLive_iff.mpr (Or.inr (mem_completed.mp h).2)

theorem ne_of_running_of_completed {a b : Entry} (ha : a ∈ l.running) (hb : b ∈ l.completed) :
    a ≠ b := by
  rintro rfl
  have hs := (mem_running.mp ha).2
  rw [(mem_completed.mp hb).2] at hs
  exact absurd hs (by decide)

end Lineage

namespace Exclusive

variable {l l' : Lineage}

theorem empty (table : Text) : Exclusive (.empty table) where
  sources := fun _ ha => absurd ha List.not_mem_nil
  targets := fun _ ha => absurd ha List.not_mem_nil
  running := fun _ ha => absurd ha List.not_mem_nil
  shaped := fun _ he => absurd he List.not_mem_nil

section Pairs

variable {a b : Entry}

theorem disjoint_sources (h : Exclusive l) (ha : a ∈ l.running) (hb : b ∈ l.running)
    (hab : a ≠ b) : a.sources.Disjoint b.sources :=
  h.sources a (Lineage.mem_running.mp ha).1 b (Lineage.mem_running.mp hb).1 hab
    (Lineage.isLive_of_mem_running ha) (Lineage.isLive_of_mem_running hb)

theorem disjoint_targets (h : Exclusive l) (ha : a ∈ l.running) (hb : b ∈ l.running)
    (hab : a ≠ b) : a.targets.Disjoint b.targets :=
  h.targets a (Lineage.mem_running.mp ha).1 b (Lineage.mem_running.mp hb).1 hab
    (Lineage.isLive_of_mem_running ha) (Lineage.isLive_of_mem_running hb)

theorem shaped_of_running (h : Exclusive l) (ha : a ∈ l.running) :
    WellShaped a.sources a.targets :=
  h.shaped a (Lineage.mem_running.mp ha).1

end Pairs

theorem not_mem_retired (h : Exclusive l) {e : Entry} (he : e ∈ l.running) {s : Text}
    (hs : s ∈ e.sources) : s ∉ l.retired := by
  intro hr
  obtain ⟨d, hd, hsd⟩ := Lineage.mem_retired.mp hr
  exact h.sources e (Lineage.mem_running.mp he).1 d (Lineage.mem_completed.mp hd).1
    (Lineage.ne_of_running_of_completed he hd) (Lineage.isLive_of_mem_running he)
    (Lineage.isLive_of_mem_completed hd) hs hsd

theorem not_mem_published (h : Exclusive l) {e : Entry} (he : e ∈ l.running) {s : Text}
    (hs : s ∈ e.targets) : s ∉ l.published := by
  intro hp
  obtain ⟨d, hd, hsd⟩ := Lineage.mem_published.mp hp
  exact h.targets e (Lineage.mem_running.mp he).1 d (Lineage.mem_completed.mp hd).1
    (Lineage.ne_of_running_of_completed he hd) (Lineage.isLive_of_mem_running he)
    (Lineage.isLive_of_mem_completed hd) hs hsd

/-- A target of an entry in progress is hidden. -/
theorem exposes_target (h : Exclusive l) {e : Entry} (he : e ∈ l.running) {s : Text}
    (hs : s ∈ e.targets) : l.exposes s = false := by
  have hrun := Lineage.mem_running.mp he
  refine Lineage.exposes_eq_false_iff.mpr (Or.inr ⟨?_, h.not_mem_published he hs⟩)
  exact Lineage.mem_unpublished.mpr ⟨e, hrun.1, by simp [hrun.2], hs⟩

/-- The completion of an entry in progress takes no sources away from others. -/
theorem orphans_eq_nil (h : Exclusive l) {e done : Entry} (he : e ∈ l.running)
    (hid : done.id = e.id) (hsources : done.sources = e.sources) : l.orphans done = [] := by
  refine List.eq_nil_iff_forall_not_mem.mpr fun x hx => ?_
  obtain ⟨hrun, hne, s, hs, hsd⟩ := Lineage.mem_orphans.mp hx
  rw [hid] at hne
  rw [hsources] at hsd
  have hxe : x ≠ e := fun hxe => hne (by rw [hxe])
  exact h.disjoint_sources hrun he hxe hs hsd

section Moves

variable {xs : List Entry} {next : State} {stamp : Text}

theorem isLive_of_movedAmong (hm : l.Moves xs next stamp l') {x : Entry}
    (hlive : (x.movedAmong xs next stamp).state.isLive = true) : x.state.isLive = true := by
  by_cases hmem : x ∈ xs
  · exact Lineage.isLive_of_mem_running (hm.running x hmem)
  · simpa [Entry.movedAmong_state, hmem] using hlive

theorem running_of_movedAmong (hm : l.Moves xs next stamp l') {x : Entry} (hx : x ∈ l.entries)
    (hrun : (x.movedAmong xs next stamp).state = .inProgress) : x ∈ l.running := by
  by_cases hmem : x ∈ xs
  · exact hm.running x hmem
  · refine Lineage.mem_running.mpr ⟨hx, ?_⟩
    simpa [Entry.movedAmong_state, hmem] using hrun

theorem moves (h : Exclusive l) (hm : l.Moves xs next stamp l') : Exclusive l' where
  sources := by
    intro a ha b hb hab hla hlb
    obtain ⟨x, hx, rfl⟩ := hm.mem.mp ha
    obtain ⟨y, hy, rfl⟩ := hm.mem.mp hb
    rw [Entry.movedAmong_sources, Entry.movedAmong_sources]
    exact h.sources x hx y hy (fun hxy => hab (by rw [hxy])) (isLive_of_movedAmong hm hla)
      (isLive_of_movedAmong hm hlb)
  targets := by
    intro a ha b hb hab hla hlb
    obtain ⟨x, hx, rfl⟩ := hm.mem.mp ha
    obtain ⟨y, hy, rfl⟩ := hm.mem.mp hb
    rw [Entry.movedAmong_targets, Entry.movedAmong_targets]
    exact h.targets x hx y hy (fun hxy => hab (by rw [hxy])) (isLive_of_movedAmong hm hla)
      (isLive_of_movedAmong hm hlb)
  running := by
    intro a ha b hb hab
    obtain ⟨ha, hsa⟩ := Lineage.mem_running.mp ha
    obtain ⟨hb, hsb⟩ := Lineage.mem_running.mp hb
    obtain ⟨x, hx, rfl⟩ := hm.mem.mp ha
    obtain ⟨y, hy, rfl⟩ := hm.mem.mp hb
    rw [Entry.movedAmong_sources, Entry.movedAmong_sources]
    exact h.running x (running_of_movedAmong hm hx hsa) y (running_of_movedAmong hm hy hsb)
      (fun hxy => hab (by rw [hxy]))
  shaped := by
    intro e he
    obtain ⟨x, hx, rfl⟩ := hm.mem.mp he
    rw [Entry.movedAmong_sources, Entry.movedAmong_targets]
    exact h.shaped x hx

end Moves

section Appends

variable {e : Entry}

/-- The sources of a new entry are disjoint from those of every live one if they are not retired and
nobody competes for them. -/
theorem sources_disjoint_of_live (hret : ∀ s ∈ e.sources, s ∉ l.retired)
    (hriv : ∀ x ∈ l.running, overlaps x.sources e.sources = false) {x : Entry}
    (hx : x ∈ l.entries) (hlive : x.state.isLive = true) : x.sources.Disjoint e.sources := by
  rcases State.isLive_iff.mp hlive with hs | hs
  · exact (overlaps_eq_false_iff.mp (hriv x (Lineage.mem_running.mpr ⟨hx, hs⟩))).2
  · intro s hsx hse
    exact hret s hse (Lineage.mem_retired.mpr ⟨x, Lineage.mem_completed.mpr ⟨hx, hs⟩, hsx⟩)

/-- A checked new entry keeps a lineage exclusive. -/
theorem appends (h : Exclusive l) (ha : l.Appends e l') (hshape : WellShaped e.sources e.targets)
    (hfree : ∀ x ∈ l.entries, x.state.isLive = true → x.targets.Disjoint e.targets)
    (hret : ∀ s ∈ e.sources, s ∉ l.retired)
    (hriv : ∀ x ∈ l.running, overlaps x.sources e.sources = false) : Exclusive l' where
  sources := by
    intro a hma b hmb hab hla hlb
    rcases ha.mem.mp hma with hma | rfl
    · rcases ha.mem.mp hmb with hmb | rfl
      · exact h.sources a hma b hmb hab hla hlb
      · exact sources_disjoint_of_live hret hriv hma hla
    · rcases ha.mem.mp hmb with hmb | rfl
      · exact List.disjoint_symm (sources_disjoint_of_live hret hriv hmb hlb)
      · exact absurd rfl hab
  targets := by
    intro a hma b hmb hab hla hlb
    rcases ha.mem.mp hma with hma | rfl
    · rcases ha.mem.mp hmb with hmb | rfl
      · exact h.targets a hma b hmb hab hla hlb
      · exact hfree a hma hla
    · rcases ha.mem.mp hmb with hmb | rfl
      · exact List.disjoint_symm (hfree b hmb hlb)
      · exact absurd rfl hab
  running := by
    intro a hma b hmb hab
    rcases ha.mem_running.mp hma with hma | rfl
    · rcases ha.mem_running.mp hmb with hmb | rfl
      · exact h.running a hma b hmb hab
      · exact hriv a hma
    · rcases ha.mem_running.mp hmb with hmb | rfl
      · have hba := overlaps_eq_false_iff.mp (hriv b hmb)
        exact overlaps_eq_false_iff.mpr ⟨fun hn => hba.1 ⟨hn.2, hn.1⟩, List.disjoint_symm hba.2⟩
      · exact absurd rfl hab
  shaped := by
    intro x hx
    rcases ha.mem.mp hx with hx | rfl
    · exact h.shaped x hx
    · exact hshape

end Appends

end Exclusive

end SegmentSwap
