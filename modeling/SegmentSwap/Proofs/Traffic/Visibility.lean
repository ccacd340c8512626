import SegmentSwap.Proofs.Traffic.Sound

/-!
# Targets have one producer

However the calls on a table are interleaved and whatever happens to its segments, no two live
entries share a target. A name that a revert has released may be claimed again, even by the write
that reverts its entry. What an entry in progress has uploaded is not served before the entry is
completed, whichever segments are registered.
-/

namespace SegmentSwap

/-- A segment that has ever been a target is served only if a completed entry has produced it. -/
theorem Lineage.produced_of_served {l : Lineage} {registered : List Text} {s : Text} {e : Entry}
    (hs : s ∈ l.served registered) (he : e ∈ l.entries) (htarget : s ∈ e.targets) :
    ∃ d ∈ l.completed, s ∈ d.targets := by
  obtain ⟨-, hexposed⟩ := mem_served.mp hs
  obtain ⟨-, hshown⟩ := exposes_iff.mp hexposed
  by_cases hstate : e.state = .completed
  · exact ⟨e, mem_completed.mpr ⟨he, hstate⟩, htarget⟩
  · have hhidden : s ∈ l.unpublished := mem_unpublished.mpr ⟨e, he, hstate, htarget⟩
    rcases hshown with hshown | hshown
    · exact absurd hhidden hshown
    · exact mem_published.mp hshown

namespace Traffic

variable {table : Text} {site : Site} {moves : List Move} {t : Traffic}

/-- In every record that calls lead to, live entries share no targets and every entry has the shape
of a replacement. Whatever is registered, no target of an entry in progress is served, and a target
of a reverted entry only if a completed entry has produced a segment of the same name. -/
theorem targets_exclusive (hnew : site.memory.get? table = none)
    (hmoves : ∀ m ∈ moves, m.isDrop = false) (ht : (idle site).run table moves = t) :
    (∀ a ∈ (t.lineage table).entries, ∀ b ∈ (t.lineage table).entries, a ≠ b →
      a.state.isLive = true → b.state.isLive = true → a.targets.Disjoint b.targets) ∧
    (∀ e ∈ (t.lineage table).entries, e.targets ≠ [] ∧ e.sources.Nodup ∧ e.targets.Nodup ∧
      e.sources.Disjoint e.targets) ∧
    (∀ registered, ∀ s ∈ (t.lineage table).served registered,
      (∀ e ∈ (t.lineage table).running, s ∉ e.targets) ∧
      (∀ e ∈ (t.lineage table).entries, e.state = .reverted → s ∈ e.targets →
        ∃ d ∈ (t.lineage table).completed, s ∈ d.targets)) := by
  subst ht
  have hl := (sound_run hnew rfl hmoves).exclusive
  refine ⟨hl.targets, fun e he => ?_, fun registered s hs => ⟨fun e he htarget => ?_, ?_⟩⟩
  · have hshape := hl.shaped e he
    exact ⟨hshape.targets_ne, hshape.sources_nodup, hshape.targets_nodup, hshape.disjoint⟩
  · have hentry := (Lineage.mem_running.mp he).1
    have hpublished := Lineage.mem_published.mpr (Lineage.produced_of_served hs hentry htarget)
    exact hl.not_mem_published he htarget hpublished
  · intro e he _ htarget
    exact Lineage.produced_of_served hs he htarget

/-- A forced start reverts another replacement, whose target is claimed again later on, produced and
about to be replaced itself. -/
def reissued : List Move :=
  [.enter (.start ["a"] ["b"] false) 5 2] ++ Move.answers 0 6 "1" ++
    [.enter (.start ["a"] ["c"] true) 5 2] ++ Move.answers 1 6 "2" ++
    [.add ["c"] true, .enter (.finish "2") 5 2] ++ Move.answers 2 6 "" ++
    [.enter (.start ["c"] ["b"] false) 5 2] ++ Move.answers 3 6 "3" ++
    [.add ["b"] true, .enter (.finish "3") 5 2] ++ Move.answers 4 6 "" ++
    [.enter (.start ["b"] ["d"] false) 5 2] ++ Move.answers 5 6 "4" ++ [.add ["d"] true]

/-- The target of the reverted entry is served, since the completed entry has produced it; that of
the entry in progress is not. -/
theorem targets_exclusive_reissued :
    let l := ((idle (.holding "t" .append ["a"])).run "t" reissued).lineage "t"
    l.entries.map Entry.targets = [[("b" : Text)], ["c"], ["b"], ["d"]] ∧
      l.entries.map Entry.state = [.reverted, .completed, .completed, .inProgress] ∧
      l.served ["a", "b", "c", "d"] = ["b"] ∧
      (∀ a ∈ l.entries, ∀ b ∈ l.entries, a ≠ b → a.state.isLive = true → b.state.isLive = true →
        a.targets.Disjoint b.targets) ∧
      (∀ e ∈ l.running, ("b" : Text) ∉ e.targets) ∧
      ∃ d ∈ l.completed, ("b" : Text) ∈ d.targets := by
  have htargets := targets_exclusive
    (rfl : (Site.holding "t" .append ["a"]).memory.get? "t" = none)
    (by decide : ∀ m ∈ reissued, m.isDrop = false) rfl
  obtain ⟨hrunning, hreverted⟩ := htargets.2.2 ["a", "b", "c", "d"] "b" (by decide +kernel)
  have hproduced := hreverted ⟨"1", ["a"], ["b"], .reverted, ""⟩ (by decide +kernel) rfl
    List.mem_cons_self
  exact ⟨by decide +kernel, by decide +kernel, by decide +kernel, htargets.1, hrunning, hproduced⟩

end Traffic

end SegmentSwap
