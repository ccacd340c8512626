import SegmentSwap.Proofs.Traffic.Attempt

/-!
# Starts and reversals do not move the view

What queries see is changed by completions alone. A start reverts entries in progress, whose targets
nobody sees, and its own targets are hidden from the moment of its commit on, before or after they
are registered. This holds of every lineage, not only of those that calls lead to.
-/

namespace SegmentSwap

namespace Call

variable {c : Call} {ticket : Ticket} {sources targets registered : List Text} {read : Versioned}
  {stamp : Text} {plan : Plan} {s : Text}

/-- The targets of a start are hidden by its commit, and nothing else changes, whatever entries it
reverts. -/
theorem StartPlan.exposes_iff
    (h : StartPlan c ticket sources targets read registered stamp plan)
    (hfree : ∀ e ∈ read.lineage.entries, e.state.isLive = true → targets.Disjoint e.targets) :
    plan.lineage.exposes s = true ↔ read.lineage.exposes s = true ∧ s ∉ targets := by
  obtain ⟨mid, hmoves, happends⟩ := h.lineage
  have htargets : plan.entry.targets = targets := by rw [h.entry]
  have hpublished : ∀ t ∈ plan.entry.targets, t ∉ mid.published := by
    intro t ht hmem
    obtain ⟨d, hd, htd⟩ := Lineage.mem_published.mp hmem
    obtain ⟨hentry, hstate⟩ := Lineage.mem_completed.mp (hmoves.mem_completed.mp hd)
    have hlive : d.state.isLive = true := by rw [hstate]; rfl
    rw [htargets] at ht
    exact hfree d hentry hlive ht htd
  rw [happends.exposes_iff hpublished, hmoves.exposes_eq, htargets]

theorem StartPlan.served_eq
    (h : StartPlan c ticket sources targets read registered stamp plan)
    (hfree : ∀ e ∈ read.lineage.entries, e.state.isLive = true → targets.Disjoint e.targets)
    (shown : List Text) :
    plan.lineage.served shown = (read.lineage.served shown).filter (· ∉ targets) := by
  unfold Lineage.served
  rw [List.filter_filter]
  refine List.filter_congr fun x _ => ?_
  rw [Bool.eq_iff_iff, h.exposes_iff hfree]
  simp [and_comm]

/-- A reversal changes nothing that is exposed. -/
theorem EndPlan.exposes_of_revert {id : Text} {force : Bool} {e : Entry}
    (h : EndPlan (.revert id force) read e stamp plan) (he : e ∈ read.lineage.running) :
    plan.lineage.exposes s = read.lineage.exposes s := by
  have hmoves : read.lineage.Moves [e] .reverted stamp plan.lineage := by
    refine ⟨h.table, fun x hx => ?_, ?_⟩
    · rw [List.mem_singleton.mp hx]
      exact he
    · rw [h.entries]
      refine List.map_congr_left fun x _ => ?_
      by_cases hxe : x = e <;> simp [Entry.movedAmong, losers, hxe, Job.goal]
  exact hmoves.exposes_eq

end Call

namespace Traffic

variable {table : Text} {t t' : Traffic} {client : Nat} {c : Client} {a : Attempt}
  {chance chance' : Chance} {between : List Move} {plan : Plan}

/-- The record after a commit holds the lineage of its plan. -/
theorem lineage_of_commit {m : Move} {k : Commit} (hk : t.commit? m = some k)
    (htable : k.plan.lineage.table = table) : (t.act table m).lineage table = k.plan.lineage := by
  unfold lineage
  rw [memory_of_commit hk, ← htable, Memory.read_put_self]

/-- An attempt has read the record and commits, with anything happening in between. If it reverts an
entry, the same segments are served as from the record that it has read, whichever are registered.
If it starts a replacement, then what is served is the same but for the new targets, whichever
segments are registered; and for those that were registered when it asked for them it is exactly the
same, even if any of the new targets have been registered since. -/
theorem served_still (hrecord : (t.lineage table).table = table)
    (hc : t.clients[client]? = some c) (htable : c.call.table = table)
    (hphase : c.phase = .reading a) (ht' : (t.proceed client chance).run table between = t')
    (hk : t'.commit? (.proceed client chance') = some ⟨client, a, plan⟩) :
    let old := t.lineage table
    let new := (t'.proceed client chance').lineage table
    (∀ id force, a.job = .revert id force →
      ∀ registered, new.served registered = old.served registered) ∧
    (∀ ticket sources targets force, a.job = .start ticket sources targets force →
      (∀ registered, new.served registered = (old.served registered).filter (· ∉ targets)) ∧
      ∃ earlier later chance₁, between = earlier ++ .proceed client chance₁ :: later ∧
        let asked := (t.proceed client chance).run table earlier
        asked.clients[client]? = some ⟨c.call,
          .surveying a ticket sources targets force (t.site.memory.read table)⟩ ∧
        let listed := asked.site.registry.segments table
        new.served listed = old.served listed ∧
        ∀ registered, listed ⊆ registered → (∀ s ∈ registered, s ∈ listed ∨ s ∈ targets) →
          ∀ s, s ∈ new.served registered ↔ s ∈ old.served listed) := by
  intro old new
  subst ht' htable
  obtain ⟨_, c', heq, hc', hphase', -⟩ := commit?_eq_some hk
  cases heq
  constructor
  · intro id force hjob registered
    obtain ⟨e, stamp, drafted, he, hplan, hlineage⟩ :=
      endPlan_of_writing hc hphase (by rw [hjob]; rfl) hc' hphase'
    have hnew : new = plan.lineage :=
      lineage_of_commit hk (by rw [hlineage, hplan.table]; exact hrecord)
    rw [hjob] at hplan
    rw [hnew, hlineage]
    exact List.filter_congr fun s _ => hplan.exposes_of_revert he.running
  · intro ticket sources targets force hjob
    obtain ⟨earlier, later, chance₁, hbetween, hasked, hcheck, stamp, hplan⟩ :=
      startPlan_of_writing hc hphase hjob hc' hphase'
    have hnew : new = plan.lineage := lineage_of_commit hk (by rw [hplan.table]; exact hrecord)
    obtain ⟨⟨hfree, hunlisted⟩, -, -⟩ := Call.checkStart_eq_ok_iff.mp hcheck
    have hserved : ∀ registered,
        new.served registered = (old.served registered).filter (· ∉ targets) := by
      intro registered
      rw [hnew]
      exact hplan.served_eq hfree registered
    refine ⟨hserved, earlier, later, chance₁, hbetween, hasked, ?_, ?_⟩
    · rw [hserved, List.filter_eq_self]
      intro s hs
      have hlisted := (Lineage.mem_served.mp hs).1
      exact decide_eq_true fun htarget => hunlisted htarget hlisted
    · -- what has been registered since are targets, and these are hidden
      intro registered hsub hall s
      rw [hserved, List.mem_filter, decide_eq_true_iff, Lineage.mem_served, Lineage.mem_served]
      constructor
      · rintro ⟨⟨hs, hexposed⟩, hnot⟩
        exact ⟨(hall s hs).resolve_right hnot, hexposed⟩
      · rintro ⟨hs, hexposed⟩
        exact ⟨⟨hsub hs, hexposed⟩, fun htarget => hunlisted htarget hs⟩

/-- A replacement has uploaded its target, and a forced start of the same source is about to read the
record. -/
def forcing : List Move :=
  [.enter (.start ["a"] ["b"] false) 5 2] ++ Move.answers 0 6 "1" ++ [.add ["b"] true] ++
    [.enter (.start ["a"] ["c"] true) 5 2] ++ Move.answers 1 2 "2"

/-- The forced start comes up to its write, and its target is uploaded before it writes. -/
def uploading : List Move := Move.answers 1 1 "" ++ [.add ["c"] true] ++ Move.answers 1 1 ""

/-- The same replacement, and a forced reversal of it that is about to read the record. -/
def reversing : List Move :=
  [.enter (.start ["a"] ["b"] false) 5 2] ++ Move.answers 0 6 "1" ++ [.add ["b"] true] ++
    [.enter (.revert "1" true) 5 2]

/-- The commit of the start reverts the other replacement, and the same two segments are served from
all four that are registered by then. After the reversal all that is registered is served as before
it, too. -/
theorem served_still_forced :
    let t := (idle (.holding "t" .append ["a", "x"])).run "t" forcing
    let t' := (t.proceed 1 ⟨"", "", none⟩).run "t" uploading
    let new := (t'.proceed 1 ⟨"", "", none⟩).lineage "t"
    let r := (idle (.holding "t" .append ["a", "x"])).run "t" reversing
    let r' := (r.proceed 1 ⟨"", "", none⟩).run "t" (Move.answers 1 3 "")
    let reverted := (r'.proceed 1 ⟨"", "", none⟩).lineage "t"
    (t'.site.registry.segments "t" = ["a", "x", "b", "c"] ∧
      new.entries.map Entry.state = [.reverted, .inProgress] ∧
      (t.lineage "t").served ["a", "x", "b"] = ["a", "x"] ∧
      new.served ["a", "x", "b", "c"] = ["a", "x"]) ∧
    reverted.entries.map Entry.state = [.reverted] ∧
      reverted.served ["a", "x", "b"] = ["a", "x"] := by
  intro t t' new r r' reverted
  constructor
  · have hstill := served_still (rfl : (t.lineage "t").table = "t") (rfl : _ = some _) rfl rfl
      (rfl : _ = t') (rfl : t'.commit? (.proceed 1 ⟨"", "", none⟩) = some ⟨1, _, _⟩)
    obtain ⟨hserved, -⟩ := hstill.2 _ _ _ _ rfl
    have hold : (t.lineage "t").served ["a", "x", "b", "c"] = ["a", "x", "c"] := by decide +kernel
    refine ⟨by decide +kernel, by decide +kernel, by decide +kernel, ?_⟩
    calc new.served ["a", "x", "b", "c"]
        = ((t.lineage "t").served ["a", "x", "b", "c"]).filter (· ∉ [("c" : Text)]) := hserved _
      _ = ["a", "x"] := by rw [hold]; decide
  · have hstill := served_still (rfl : (r.lineage "t").table = "t") (rfl : _ = some _) rfl rfl
      (rfl : _ = r') (rfl : r'.commit? (.proceed 1 ⟨"", "", none⟩) = some ⟨1, _, _⟩)
    refine ⟨by decide +kernel, ?_⟩
    calc reverted.served ["a", "x", "b"]
        = (r.lineage "t").served ["a", "x", "b"] := hstill.1 _ _ rfl _
      _ = ["a", "x"] := by decide +kernel

end Traffic

end SegmentSwap
