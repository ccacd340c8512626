import SegmentSwap.Proofs.Deletion.Safety
import SegmentSwap.Proofs.Lineage.Turned
import SegmentSwap.Proofs.Traffic.Alone

/-!
# Abandoned replacements

A client may start a replacement and never come back to it. Its entry then blocks the sources for
others, but it can always be cleared away: the entry is in progress, so that a forced reversal of it
succeeds, and its sources are registered and served for as long as it is, so that another
replacement of them can follow. A forced start does both in one commit.
-/

namespace SegmentSwap

/-- Targets that no start of some sources is turned down for. -/
structure FreshTargets (l : Lineage) (registered sources targets : List Text) : Prop where
  nonempty : targets ≠ []
  nodup : targets.Nodup
  disjoint : targets.Disjoint sources
  unregistered : targets.Disjoint registered
  unproduced : ∀ e ∈ l.entries, e.state.isLive = true → targets.Disjoint e.targets

namespace Lineage

variable {l l' : Lineage} {e new : Entry} {stamp : Text}

/-- An entry is given up, another one is new and alone competes for its sources, and all others are
what they were. -/
structure Supersedes (l : Lineage) (e new : Entry) (stamp : Text) (l' : Lineage) : Prop where
  entries : l'.entries = l.entries.map (Entry.movedAmong [e] .reverted stamp) ++ [new]
  rivals : l'.rivals e.sources = [new]

/-- In an exclusive lineage an entry in progress is the only one that competes for its sources. -/
theorem rivals_of_running (h : Exclusive l) (he : e ∈ l.running) : l.rivals e.sources = [e] := by
  have hnodup : (l.rivals e.sources).Nodup := (l.nodup_entries.filter _).filter _
  have hmem : ∀ x, x ∈ l.rivals e.sources ↔ x ∈ [e] := by
    intro x
    rw [mem_rivals, List.mem_singleton]
    constructor
    · rintro ⟨hrun, hoverlap⟩
      by_contra hne
      rw [h.running x hrun e he hne] at hoverlap
      cases hoverlap
    · rintro rfl
      exact ⟨he, overlaps_self _⟩
  exact List.perm_singleton.mp ((List.perm_ext_iff_of_nodup hnodup (List.nodup_singleton e)).mpr hmem)

theorem Moves.rivals_of_reversal (hm : l.Moves [e] .reverted stamp l') (h : Exclusive l)
    (he : e ∈ l.running) : l'.rivals e.sources = [] := by
  refine List.eq_nil_iff_forall_not_mem.mpr fun x hx => ?_
  obtain ⟨hrun, hoverlap⟩ := mem_rivals.mp hx
  obtain ⟨hrun, hne⟩ := (hm.mem_running_of_singleton (by decide)).mp hrun
  rw [h.running x hrun e he hne] at hoverlap
  cases hoverlap

theorem Moves.entries_of_nil (hm : l.Moves [] .reverted stamp l') : l'.entries = l.entries := by
  rw [hm.entries]
  exact List.map_id'' (fun x => if_neg List.not_mem_nil) _

/-- A new entry without rivals is the only one that competes for its sources. -/
theorem Appends.rivals_eq (ha : l.Appends new l') {sources : List Text}
    (hsources : new.sources = sources) (hnone : l.rivals sources = []) :
    l'.rivals sources = [new] := by
  have hrunning : l'.running = l.running ++ [new] := by
    unfold Lineage.running
    rw [ha.entries, List.filter_append]
    congr 1
    simp [ha.running]
  have hself : overlaps new.sources sources = true := by
    rw [hsources]
    exact overlaps_self _
  unfold rivals at hnone ⊢
  rw [hrunning, List.filter_append, hnone]
  simp [hself]

end Lineage

/-- A start of served sources that nobody competes for, or that is forced, succeeds with any fresh
targets. -/
theorem Call.answer_of_fresh {table : Text} {s : Site} {chance : Chance}
    {sources targets : List Text} {force : Bool} (attempts generations : Int)
    (hup : chance.outage? = none) (hrecord : (s.memory.read table).lineage.table = table)
    (hid : chance.id ∉ (s.memory.read table).lineage.ids) (hnodup : sources.Nodup)
    (hserved : ∀ x ∈ sources, x ∈ s.registry.segments table ∧
      (s.memory.read table).lineage.exposes x = true)
    (hrivals : (s.memory.read table).lineage.rivals sources = [] ∨ force = true)
    (hfresh : FreshTargets (s.memory.read table).lineage (s.registry.segments table) sources
      targets) :
    ∃ s', Call.answer (Site.services chance)
        ⟨table, .start sources targets force, attempts, generations⟩ s =
          (.ok ⟨chance.id, sources, targets, .inProgress, chance.stamp⟩, s') ∧
      ∃ mid, (s.memory.read table).lineage.Moves ((s.memory.read table).lineage.rivals sources)
          .reverted chance.stamp mid ∧
        mid.Appends ⟨chance.id, sources, targets, .inProgress, chance.stamp⟩
          (s'.memory.read table).lineage := by
  let c : Call := ⟨table, .start sources targets force, attempts, generations⟩
  have hshape : WellShaped sources targets :=
    ⟨hfresh.nonempty, hnodup, hfresh.nodup, List.disjoint_symm hfresh.disjoint⟩
  have hcheck : c.checkStart sources targets force (s.memory.read table).lineage
      (s.registry.segments table) = .ok () :=
    Call.checkStart_eq_ok_iff.mpr ⟨⟨hfresh.unproduced, hfresh.unregistered⟩,
      fun x hx => Lineage.mem_served.mpr (hserved x hx), hrivals⟩
  obtain ⟨plan, q, hplan, hanswer⟩ := Call.answer_start (c := c) hup rfl hshape hrecord hcheck hid
  have htable : plan.lineage.table = table := hplan.table.trans hrecord
  obtain ⟨mid, hmoved, happended⟩ := hplan.lineage
  rw [hplan.entry] at hanswer happended
  refine ⟨_, hanswer, mid, hmoved, ?_⟩
  dsimp only
  rw [← htable, Memory.read_put_self]
  exact happended

namespace Traffic

variable {table : Text} {t : Traffic}

/-- Whenever a replacement is in progress on a table that is loaded piece by piece, its entry can be
cleared away by whoever finds the table undisturbed. A forced reversal of it succeeds, and after that
so does a start of the same sources with any fresh targets; and a forced start of the same sources
with any fresh targets succeeds at once. Either way the new entry alone competes for the sources in
the end, and no third entry is changed. -/
theorem abandoned_superseded {s : Site} {moves : List Move} (hnew : s.memory.get? table = none)
    (hmode : s.modes.of table ≠ .refresh) (hqueue : s.queue = .empty) (htaken : s.taken = [])
    (hreg : s.registry.Consistent) (hmoves : ∀ m ∈ moves, m.isDrop = false ∧ m.isUpset = false)
    (ht : (idle s).run table moves = t) {e : Entry} (he : e ∈ (t.lineage table).running) :
    (∀ (chance : Chance) (attempts generations : Int), chance.outage? = none →
      ∃ s₁, Call.answer (Site.services chance) ⟨table, .revert e.id true, attempts, generations⟩
          t.site = (.ok (e.moved .reverted chance.stamp), s₁) ∧
        s₁.registry = t.site.registry ∧
        (s₁.memory.read table).lineage.entries =
          (t.lineage table).entries.map (Entry.movedAmong [e] .reverted chance.stamp) ∧
        ∀ (chance' : Chance) (attempts' generations' : Int) (targets : List Text),
          chance'.outage? = none → chance'.id ∉ (t.lineage table).ids →
          FreshTargets (s₁.memory.read table).lineage (s₁.registry.segments table) e.sources
            targets →
          ∃ s₂, Call.answer (Site.services chance')
              ⟨table, .start e.sources targets false, attempts', generations'⟩ s₁ =
                (.ok ⟨chance'.id, e.sources, targets, .inProgress, chance'.stamp⟩, s₂) ∧
            (t.lineage table).Supersedes e
              ⟨chance'.id, e.sources, targets, .inProgress, chance'.stamp⟩ chance.stamp
              (s₂.memory.read table).lineage) ∧
    (∀ (chance : Chance) (attempts generations : Int) (targets : List Text),
      chance.outage? = none → chance.id ∉ (t.lineage table).ids →
      FreshTargets (t.lineage table) (t.site.registry.segments table) e.sources targets →
      ∃ s₁, Call.answer (Site.services chance)
          ⟨table, .start e.sources targets true, attempts, generations⟩ t.site =
            (.ok ⟨chance.id, e.sources, targets, .inProgress, chance.stamp⟩, s₁) ∧
        (t.lineage table).Supersedes e
          ⟨chance.id, e.sources, targets, .inProgress, chance.stamp⟩ chance.stamp
          (s₁.memory.read table).lineage) := by
  subst ht
  obtain ⟨hsound, hsafe⟩ := safe_run hnew hmode hqueue htaken hreg hmoves
  generalize (idle s).run table moves = t at hsound hsafe he
  have hl := hsound.exclusive
  have hshaped := hl.shaped_of_running he
  have hsources := hsafe.balanced.sources e he
  have hrecord : (t.site.memory.read table).lineage.table = table := hsound.record
  constructor
  · intro chance attempts generations hup
    obtain ⟨plan, q, hplan, hanswer⟩ := Call.answer_revert
      (c := ⟨table, .revert e.id true, attempts, generations⟩) (s := t.site) hup rfl hrecord he
    have hmoved : (t.lineage table).Moves [e] .reverted chance.stamp plan.lineage :=
      (hplan.moves hl he).2
    have htable : plan.lineage.table = table := hplan.table.trans hrecord
    set s₁ : Site := { t.site with
      memory := t.site.memory.put plan.lineage (.next plan.expected), queue := q }
    have hread : (s₁.memory.read table).lineage = plan.lineage := by
      show ((t.site.memory.put plan.lineage _).read table).lineage = _
      rw [← htable, Memory.read_put_self]
    rw [hplan.entry] at hanswer
    refine ⟨s₁, hanswer, rfl, by rw [hread, hmoved.entries], ?_⟩
    intro chance' attempts' generations' targets hup' hid' hfresh
    have hids : plan.lineage.ids = (t.lineage table).ids := hmoved.ids_eq
    -- nobody competes for the sources any more, and they are served as before
    have hnone : (s₁.memory.read table).lineage.rivals e.sources = [] := by
      rw [hread]
      exact hmoved.rivals_of_reversal hl he
    have hserved : ∀ x ∈ e.sources, x ∈ s₁.registry.segments table ∧
        (s₁.memory.read table).lineage.exposes x = true := by
      intro x hx
      rw [hread, hmoved.exposes_eq]
      exact hsources x hx
    obtain ⟨s₂, hanswer', mid, hmid, happended⟩ := Call.answer_of_fresh attempts' generations' hup'
      (by rw [hread]; exact htable) (by rw [hread, hids]; exact hid') hshaped.sources_nodup hserved
      (.inl hnone) hfresh
    rw [hnone] at hmid
    refine ⟨s₂, hanswer', ?_, happended.rivals_eq rfl ?_⟩
    · rw [happended.entries, hmid.entries_of_nil, hread, hmoved.entries]
    · unfold Lineage.rivals Lineage.running at hnone ⊢
      rw [hmid.entries_of_nil]
      exact hnone
  · intro chance attempts generations targets hup hid hfresh
    have hrivals := Lineage.rivals_of_running hl he
    obtain ⟨s₁, hanswer, mid, hmid, happended⟩ := Call.answer_of_fresh attempts generations hup
      hrecord hid hshaped.sources_nodup hsources (.inr rfl) hfresh
    have hmid : (t.lineage table).Moves [e] .reverted chance.stamp mid := by
      rw [← hrivals]
      exact hmid
    refine ⟨s₁, hanswer, ?_, happended.rivals_eq rfl (hmid.rivals_of_reversal hl he)⟩
    rw [happended.entries, hmid.entries]

/-- A replacement has uploaded its target and is not finished; beside it another one has completed,
whose source is still to be deleted. -/
def abandoned : List Move :=
  [.enter (.start ["a"] ["b"] false) 5 2] ++ Move.answers 0 6 "1" ++
    [.add ["b"] true, .enter (.start ["x"] ["y"] false) 5 2] ++ Move.answers 1 6 "2" ++
    [.add ["y"] true, .enter (.finish "2") 5 2] ++ Move.answers 2 6 ""

/-- The source of the first replacement is claimed for another target, after a reversal or by
force. -/
theorem abandoned_superseded_reclaimed :
    let t := (idle (.holding "t" .append ["a", "x"])).run "t" abandoned
    let e : Entry := ⟨"1", ["a"], ["b"], .inProgress, ""⟩
    let new : Entry := ⟨"3", ["a"], ["c"], .inProgress, "5"⟩
    (∃ s₁ s₂, Call.answer (Site.services ⟨"", "4", none⟩) ⟨"t", .revert "1" true, 1, 2⟩ t.site =
        (.ok (e.moved .reverted "4"), s₁) ∧
      Call.answer (Site.services ⟨"3", "5", none⟩) ⟨"t", .start ["a"] ["c"] false, 1, 2⟩ s₁ =
        (.ok new, s₂) ∧ (t.lineage "t").Supersedes e new "4" (s₂.memory.read "t").lineage) ∧
    ∃ s₁, Call.answer (Site.services ⟨"3", "5", none⟩) ⟨"t", .start ["a"] ["c"] true, 1, 2⟩ t.site =
        (.ok new, s₁) ∧ (t.lineage "t").Supersedes e new "5" (s₁.memory.read "t").lineage := by
  intro t e new
  obtain ⟨hreverted, hforced⟩ := abandoned_superseded
    (rfl : (Site.holding "t" .append ["a", "x"]).memory.get? "t" = none) (by decide) rfl rfl
    (by decide) (by decide) (rfl : _ = t) (by decide +kernel : e ∈ (t.lineage "t").running)
  have hfresh : ∀ l : Lineage, (∀ x ∈ l.entries, ("c" : Text) ∉ x.targets) →
      FreshTargets l (t.site.registry.segments "t") ["a"] ["c"] := by
    intro l hl
    have hregistered : ("c" : Text) ∉ t.site.registry.segments "t" := by decide +kernel
    refine ⟨by decide, by decide, List.disjoint_left.mpr (by decide), ?_, fun x hx _ => ?_⟩
    · exact List.singleton_disjoint.mpr hregistered
    · exact List.singleton_disjoint.mpr (hl x hx)
  obtain ⟨s₁, hanswer, hregistry, hentries, hnext⟩ := hreverted ⟨"", "4", none⟩ 1 2 rfl
  obtain ⟨s₂, hanswer', hsupersedes⟩ := hnext ⟨"3", "5", none⟩ 1 2 ["c"] rfl (by decide +kernel) (by
    rw [hregistry]
    refine hfresh _ ?_
    rw [hentries]
    decide +kernel)
  refine ⟨⟨s₁, s₂, hanswer, hanswer', hsupersedes⟩, ?_⟩
  exact hforced ⟨"3", "5", none⟩ 1 2 ["c"] rfl (by decide +kernel) (hfresh _ (by decide +kernel))

end Traffic

end SegmentSwap
