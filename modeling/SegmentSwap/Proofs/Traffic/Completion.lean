import SegmentSwap.Proofs.Traffic.Sound

/-!
# What a completion does to the served segments

The completion of an entry takes its sources out of the served segments and puts its registered
targets in, but for those whose names a completed entry has consumed before: the name of a retired
segment is accepted as a target once the segment is deleted, and what is produced under it is never
served.
-/

namespace SegmentSwap

namespace Lineage

variable {l l' : Lineage} {e : Entry} {stamp : Text}

theorem Moves.mem_served_of_completion (h : l.Moves [e] .completed stamp l')
    (hshape : WellShaped e.sources e.targets) (hhidden : ∀ s ∈ e.targets, l.exposes s = false)
    {registered : List Text} {s : Text} :
    s ∈ l'.served registered ↔
      s ∈ l.served registered ∧ s ∉ e.sources ∨
        s ∈ e.targets ∧ s ∈ registered ∧ s ∉ l.retired := by
  rw [mem_served, mem_served]
  by_cases hs : s ∈ e.targets
  · have hsource : s ∉ e.sources := fun hsource => hshape.disjoint hsource hs
    rw [h.exposes_target_of_completion hs, hhidden s hs]
    simp [hs, hsource]
  · rw [h.exposes_of_completion hs]
    simp only [hs, false_and, or_false]
    exact and_assoc.symm

/-- The targets take the place of the sources exactly if none of those that are registered is
retired. -/
theorem Moves.swaps_iff (h : l.Moves [e] .completed stamp l')
    (hshape : WellShaped e.sources e.targets) (hhidden : ∀ s ∈ e.targets, l.exposes s = false)
    {registered : List Text} :
    (∀ s, s ∈ l'.served registered ↔
        s ∈ l.served registered ∧ s ∉ e.sources ∨ s ∈ e.targets ∧ s ∈ registered) ↔
      ∀ s ∈ e.targets, s ∈ registered → s ∉ l.retired := by
  constructor
  · intro hswap s hs hreg
    rcases (h.mem_served_of_completion hshape hhidden).mp ((hswap s).mpr (Or.inr ⟨hs, hreg⟩)) with
      ⟨hserved, -⟩ | ⟨-, -, hret⟩
    · have hexposed := (mem_served.mp hserved).2
      rw [hhidden s hs] at hexposed
      cases hexposed
    · exact hret
  · intro hfresh s
    rw [h.mem_served_of_completion hshape hhidden]
    refine or_congr_right ⟨fun hs => ⟨hs.1, hs.2.1⟩, fun hs => ⟨hs.1, hs.2, hfresh s hs.1 hs.2⟩⟩

end Lineage

namespace Traffic

variable {table : Text} {mode : Mode} {site : Site} {moves : List Move} {t : Traffic} {client : Nat}
  {c : Client} {a : Attempt} {plan : Plan} {id : Text}

/-- A completion that is written moves one entry, which was in progress. -/
theorem Sound.completion (chance : Chance) (h : t.Sound table mode)
    (hc : t.clients[client]? = some c) (hphase : c.phase = .writing a plan)
    (hjob : a.job = .finish id)
    (hagree : Version.agree (t.site.memory.version? table) plan.expected = true) :
    ∃ e ∈ (t.lineage table).running, e.id = id ∧ ∃ stamp,
      (t.lineage table).Moves [e] .completed stamp ((t.proceed client chance).lineage table) := by
  obtain ⟨-, hdraft⟩ := h.read_of_agree (List.mem_of_getElem? hc) hphase hagree
  rw [h.lineage_commit hc hphase hagree]
  cases hdraft with
  | start hj => rw [hjob] at hj; cases hj
  | @ending e stamp _ _ he hplan =>
    have hid := he.id
    rw [hjob] at hid
    have hmoves := (hplan.moves h.exclusive he.running).2
    rw [hjob] at hmoves
    exact ⟨e, he.running, (Option.some.inj hid).symm, stamp, hmoves⟩

/-- When a call completes an entry, its sources are no longer served and its registered targets are,
unless they are retired. So the targets take the place of the sources for exactly those registered
segments among which no target is retired. -/
theorem completion_swaps (chance : Chance) (hnew : site.memory.get? table = none)
    (hmoves : ∀ m ∈ moves, m.isDrop = false) (ht : (idle site).run table moves = t)
    (hc : t.clients[client]? = some c) (hphase : c.phase = .writing a plan)
    (hjob : a.job = .finish id)
    (hagree : Version.agree (t.site.memory.version? table) plan.expected = true) :
    ∃ e ∈ (t.lineage table).running, e.id = id ∧
      (∀ registered s, s ∈ ((t.proceed client chance).lineage table).served registered ↔
        s ∈ (t.lineage table).served registered ∧ s ∉ e.sources ∨
          s ∈ e.targets ∧ s ∈ registered ∧ s ∉ (t.lineage table).retired) ∧
      (∀ registered,
        (∀ s, s ∈ ((t.proceed client chance).lineage table).served registered ↔
          s ∈ (t.lineage table).served registered ∧ s ∉ e.sources ∨
            s ∈ e.targets ∧ s ∈ registered) ↔
        ∀ s ∈ e.targets, s ∈ registered → s ∉ (t.lineage table).retired) := by
  subst ht
  have hsound := sound_run hnew rfl hmoves
  obtain ⟨e, he, hid, stamp, hmoved⟩ := hsound.completion chance hc hphase hjob hagree
  have hshape := hsound.exclusive.shaped_of_running he
  have hhidden : ∀ s ∈ e.targets, (((idle site).run table moves).lineage table).exposes s = false :=
    fun s hs => hsound.exclusive.exposes_target he hs
  refine ⟨e, he, hid, ?_, ?_⟩
  · intro registered s
    exact hmoved.mem_served_of_completion hshape hhidden
  · intro registered
    exact hmoved.swaps_iff hshape hhidden

/-- A segment is replaced and deleted, and its name is given to the target of the next replacement,
which is uploaded. The call that completes this replacement is about to write. -/
def recycled : List Move :=
  [.enter (.start ["a"] ["b"] false) 5 2] ++ Move.answers 0 6 "1" ++ [.add ["b"] true] ++
    [.enter (.finish "1") 5 2] ++ Move.answers 1 6 "" ++ [.draw, .settle 0 true] ++
    [.enter (.start ["b"] ["a"] false) 5 2] ++ Move.answers 2 6 "2" ++ [.add ["a"] true] ++
    [.enter (.finish "2") 5 2] ++ Move.answers 3 4 ""

/-- The first completion of that run serves the target in the place of the source: it has not been
served by then, and no segment is retired. -/
theorem completion_swaps_first :
    let t := (idle (.holding "t" .append ["a"])).run "t" (recycled.take 13)
    let after := (t.proceed 1 ⟨"", "", none⟩).lineage "t"
    ∃ e ∈ (t.lineage "t").running, e.id = "1" ∧
      ∀ x, x ∈ after.served ["a", "b"] ↔
        x ∈ (t.lineage "t").served ["a", "b"] ∧ x ∉ e.sources ∨
          x ∈ e.targets ∧ x ∈ (["a", "b"] : List Text) := by
  intro t after
  obtain ⟨e, he, hid, -, hswap⟩ := completion_swaps ⟨"", "", none⟩
    (rfl : (Site.holding "t" .append ["a"]).memory.get? "t" = none)
    (by decide : ∀ m ∈ recycled.take 13, m.isDrop = false) (rfl : _ = t)
    (rfl : t.clients[1]? = some _) rfl rfl (by decide +kernel)
  have hfresh : (t.lineage "t").retired = [] := by decide +kernel
  refine ⟨e, he, hid, (hswap ["a", "b"]).mpr fun x _ _ => ?_⟩
  rw [hfresh]
  exact List.not_mem_nil

/-- The second completion serves nothing: its source is gone, and its target is registered and
placed, but has the name of a retired segment. -/
theorem completion_hides_recycled :
    let t := (idle (.holding "t" .append ["a"])).run "t" recycled
    let after := t.proceed 3 ⟨"", "", none⟩
    t.site.registry.segments "t" = ["b", "a"] ∧ t.site.registry.isAvailable "t" "a" = true ∧
      (t.lineage "t").running = [⟨"2", ["b"], ["a"], .inProgress, ""⟩] ∧
      (t.lineage "t").served ["b", "a"] = ["b"] ∧
      (after.lineage "t").entries.map Entry.state = [.completed, .completed] ∧
      (after.lineage "t").served ["b", "a"] = [] := by
  decide +kernel

end Traffic

end SegmentSwap
