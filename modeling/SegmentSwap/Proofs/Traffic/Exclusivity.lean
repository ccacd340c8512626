import SegmentSwap.Proofs.Traffic.Sound

/-!
# Sources have one consumer

However the calls on a table are interleaved and whatever happens to its segments, no two live
entries share a source, no two entries in progress compete, and the completion of an entry never
costs another one its sources. Calls with force are no exception: the entries that they compete with
are reverted by the same write that adds the new one.
-/

namespace SegmentSwap

namespace Traffic

variable {table : Text} {site : Site} {moves : List Move} {t : Traffic}

theorem eq_of_sources_eq_nil {l : Lineage} (h : Exclusive l) {a b : Entry} (ha : a ∈ l.running)
    (hb : b ∈ l.running) (hna : a.sources = []) (hnb : b.sources = []) : a = b := by
  by_contra hab
  have hoverlap := overlaps_eq_false_iff.mp (h.running a ha b hb hab)
  exact hoverlap.1 ⟨hna, hnb⟩

/-- A call that completes an entry never plans to revert another one. -/
theorem Sound.reverted_eq_nil {mode : Mode} (h : t.Sound table mode) {c : Client} {a : Attempt}
    {plan : Plan} {id : Text} (hc : c ∈ t.clients)
    (hphase : c.phase = .auditing a plan ∨ c.phase = .writing a plan) (hjob : a.job = .finish id) :
    plan.reverted = [] := by
  obtain ⟨-, hsound⟩ := h.clients c hc
  rcases hphase with hphase | hphase <;> rw [hphase] at hsound
  · obtain ⟨read, e, stamp, hknown, he, hplan⟩ := hsound
    exact (hplan.moves hknown.exclusive he.running).1
  · obtain ⟨read, hknown, hdraft⟩ := hsound
    cases hdraft with
    | start hj => rw [hjob] at hj; cases hj
    | ending he hplan => exact (hplan.moves hknown.exclusive he.running).1

/-- In every lineage that a run without removals leads to, no segment is a source of two live
entries, entries in progress do not compete, one of them at most has no sources, and no entry in
progress is orphaned by the completion of another one. -/
theorem sources_exclusive (hnew : site.memory.get? table = none)
    (hmoves : ∀ m ∈ moves, m.isDrop = false) (ht : (idle site).run table moves = t) :
    (∀ a ∈ (t.lineage table).entries, ∀ b ∈ (t.lineage table).entries, a ≠ b →
      a.state.isLive = true → b.state.isLive = true → a.sources.Disjoint b.sources) ∧
    (∀ a ∈ (t.lineage table).running, ∀ b ∈ (t.lineage table).running, a ≠ b →
      overlaps a.sources b.sources = false) ∧
    (∀ a ∈ (t.lineage table).running, ∀ b ∈ (t.lineage table).running, a.sources = [] →
      b.sources = [] → a = b) ∧
    (∀ e ∈ (t.lineage table).running, ∀ stamp,
      (t.lineage table).orphans (e.moved .completed stamp) = []) ∧
    (∀ c ∈ t.clients, ∀ a plan id, c.phase = .auditing a plan ∨ c.phase = .writing a plan →
      a.job = .finish id → plan.reverted = []) := by
  subst ht
  have hsound := sound_run hnew rfl hmoves
  have hl := hsound.exclusive
  refine ⟨hl.sources, hl.running, ?_, ?_, ?_⟩
  · intro a ha b hb hna hnb
    exact eq_of_sources_eq_nil hl ha hb hna hnb
  · intro e he stamp
    exact hl.orphans_eq_nil he rfl rfl
  · intro c hc a plan id hphase hjob
    exact hsound.reverted_eq_nil hc hphase hjob

/-- Two calls read the record before either of them writes: one starts a replacement of a segment,
the other one does so with force and loses its first write. -/
def contested : List Move :=
  [.enter (.start ["a"] ["b"] false) 5 2, .enter (.start ["a"] ["c"] true) 5 2] ++
    Move.answers 0 5 "1" ++ Move.answers 1 5 "2" ++ Move.answers 0 1 "1" ++ Move.answers 1 6 "2" ++
    [.enter (.start [] ["d"] false) 5 2] ++ Move.answers 2 6 "3" ++ [.add ["c"] true] ++
    [.enter (.finish "2") 5 2] ++ Move.answers 3 5 ""

/-- The forced start leaves its rival reverted and is completed; of the entries that remain none
shares a source with another one. -/
theorem sources_exclusive_contested :
    let l := ((idle (.holding "t" .append ["a"])).run "t" contested).lineage "t"
    l.entries.map Entry.state = [.reverted, .completed, .inProgress] ∧
      ∀ a ∈ l.entries, ∀ b ∈ l.entries, a ≠ b → a.state.isLive = true → b.state.isLive = true →
        a.sources.Disjoint b.sources :=
  ⟨by decide +kernel, (sources_exclusive rfl (by decide) rfl).1⟩

end Traffic

end SegmentSwap
