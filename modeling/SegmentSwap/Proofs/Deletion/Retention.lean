import SegmentSwap.Proofs.Deletion.Undone
import SegmentSwap.Proofs.Lineage.Generations
import SegmentSwap.Proofs.Traffic.Sound

/-!
# What a reloaded table gives up

A start on a table that is reloaded deletes the generations beyond those that may stay. They are
counted along the history and not by what is served, so a segment that is still served may be among
them, and even one that a replacement in progress is about to consume. Exactly which sources are
safe is said here: those that no completed entry has produced and those in a generation that stays.
-/

namespace SegmentSwap

namespace Call

variable {c : Call} {ticket : Ticket} {sources targets registered : List Text} {read : Versioned}
  {stamp : Text} {plan : Plan}

theorem reason_ne (id : Text) :
    ("force_cleanup_reverted:" ++ id : Text) ≠ "refresh_generation_limit" := by
  intro h
  have hfirst : some (Point.char 'f') = some (Point.char 'r') :=
    congrArg (fun t : Text => t.points.head?) h
  exact absurd hfirst (by decide)

/-- A start on a reloaded table orders exactly the surplus of the history for the depth of it. -/
theorem StartPlan.ordered_surplus
    (h : StartPlan c ticket sources targets read registered stamp plan)
    (table : Text) (hmode : ticket.mode = .refresh) (d : Deletion) :
    d ∈ (Call.queue plan.entry plan.deletions).ordered table ∧
        d.reason = "refresh_generation_limit" ↔
      ∃ s ∈ read.lineage.surplus registered c.generations,
        d = ⟨table, s, "refresh_generation_limit"⟩ := by
  have hsurplus : c.surplusBatches ticket.mode read.lineage registered =
      [⟨read.lineage.surplus registered c.generations, "refresh_generation_limit"⟩] := by
    rw [hmode]
    rfl
  rw [Call.ordered_queue, h.deletions, hsurplus, List.mem_flatMap]
  constructor
  · rintro ⟨⟨b, hb, hd⟩, hreason⟩
    obtain ⟨s, hs, rfl⟩ := List.mem_map.mp hd
    rcases List.mem_append.mp hb with hb | hb
    · obtain ⟨e, -, rfl⟩ := List.mem_map.mp hb
      exact absurd hreason (reason_ne e.id)
    · rw [List.mem_singleton.mp hb] at hs ⊢
      exact ⟨s, Text.mem_distinct.mp hs, rfl⟩
  · rintro ⟨s, hs, rfl⟩
    refine ⟨⟨_, List.mem_append_right _ (List.mem_singleton_self _), ?_⟩, rfl⟩
    exact List.mem_map.mpr ⟨s, Text.mem_distinct.mpr hs, rfl⟩

theorem StartPlan.mem_retired (h : StartPlan c ticket sources targets read registered stamp plan)
    {s : Text} : s ∈ plan.lineage.retired ↔ s ∈ read.lineage.retired := by
  obtain ⟨mid, hmoves, happends⟩ := h.lineage
  rw [Lineage.mem_retired, Lineage.mem_retired]
  simp only [happends.mem_completed, hmoves.mem_completed]

theorem StartPlan.mem_running (h : StartPlan c ticket sources targets read registered stamp plan) :
    plan.entry ∈ plan.lineage.running := by
  obtain ⟨mid, -, happends⟩ := h.lineage
  exact happends.mem_running.mpr (Or.inr rfl)

/-- What a start on a reloaded table orders for the depth of the history spares the sources of
entries in progress exactly if those that are registered and published belong to generations that
stay. -/
theorem StartPlan.spares_iff (h : StartPlan c ticket sources targets read registered stamp plan)
    (table : Text) (hmode : ticket.mode = .refresh) (hl : Exclusive plan.lineage) :
    (∀ d ∈ (Call.queue plan.entry plan.deletions).ordered table,
        d.reason = "refresh_generation_limit" →
        ∀ e ∈ plan.lineage.running, d.segment ∉ e.sources) ↔
      ∀ e ∈ plan.lineage.running, ∀ s ∈ e.sources, s ∈ registered → s ∈ read.lineage.published →
        s ∈ read.lineage.staying registered c.generations := by
  constructor
  · intro hspared e he s hs hreg hpub
    by_contra hstay
    have hsurplus := Lineage.mem_surplus.mpr ⟨Or.inl hpub, hreg, hstay⟩
    obtain ⟨hd, hreason⟩ := (h.ordered_surplus table hmode _).mpr ⟨s, hsurplus, rfl⟩
    exact hspared _ hd hreason e he hs
  · intro hstay d hd hreason e he hsource
    obtain ⟨s, hs, rfl⟩ := (h.ordered_surplus table hmode d).mp ⟨hd, hreason⟩
    obtain ⟨hnamed, hreg, hnot⟩ := Lineage.mem_surplus.mp hs
    -- a source of an entry in progress is not retired, so it has been published
    have hret : s ∉ read.lineage.retired := fun hret =>
      hl.not_mem_retired he hsource (h.mem_retired.mpr hret)
    exact hnot (hstay e he s hsource hreg (hnamed.resolve_right hret))

end Call

namespace Traffic

variable {table : Text} {mode : Mode} {site : Site} {moves : List Move} {t t' : Traffic}
  {client : Nat} {chance : Chance} {c c' : Client} {a : Attempt} {plan : Plan} {ticket : Ticket}
  {sources targets : List Text} {force : Bool}

theorem phase_commit (hc : t.clients[client]? = some c) (hphase : c.phase = .writing a plan)
    (hagree : Version.agree (t.site.memory.version? plan.lineage.table) plan.expected = true)
    (hc' : (t.proceed client chance).clients[client]? = some c') :
    c'.phase = Call.queue plan.entry plan.deletions := by
  rw [proceed_commit hc hphase hagree] at hc'
  dsimp only at hc'
  rw [List.getElem?_set_self (List.getElem?_eq_some_iff.mp hc).1] at hc'
  rw [← Option.some.inj hc']

/-- The plan of a start that is about to take effect has been made from the record as it stands. -/
theorem Sound.start_of_agree (h : t.Sound table mode) (hc : c ∈ t.clients)
    (hphase : c.phase = .writing a plan) (hjob : a.job = .start ticket sources targets force)
    (hagree : Version.agree (t.site.memory.version? table) plan.expected = true) :
    ticket.mode = mode ∧ ∃ registered stamp,
      c.call.planStart ticket sources targets (t.site.memory.read table) registered stamp =
        .ok plan := by
  obtain ⟨-, hdraft⟩ := h.read_of_agree hc hphase hagree
  cases hdraft with
  | ending he =>
    have hid := he.id
    rw [hjob] at hid
    cases hid
  | @start _ _ _ registered _ stamp _ hj hvalid _ hok =>
    rw [hjob] at hj hvalid
    cases hj
    exact ⟨hvalid.1, registered, stamp, hok⟩

/-- When a start on a reloaded table is committed, it orders the deletion of the surplus of the
history for the depth of it. No source of an entry in progress is among that, the new entry
included, exactly if all sources of such entries that are registered and have been published belong
to generations that stay. -/
theorem surplus_spares_sources (hnew : site.memory.get? table = none)
    (hmode : site.modes.of table = .refresh) (hmoves : ∀ m ∈ moves, m.isDrop = false)
    (ht : (idle site).run table moves = t) (hc : t.clients[client]? = some c)
    (hphase : c.phase = .writing a plan) (hjob : a.job = .start ticket sources targets force)
    (hagree : Version.agree (t.site.memory.version? table) plan.expected = true)
    (ht' : t.proceed client chance = t') (hc' : t'.clients[client]? = some c') :
    plan.entry ∈ (t'.lineage table).running ∧ ∃ registered stamp,
      c.call.planStart ticket sources targets (t.site.memory.read table) registered stamp =
        .ok plan ∧
      (∀ d, d ∈ c'.phase.ordered table ∧ d.reason = "refresh_generation_limit" ↔
        ∃ s ∈ (t.lineage table).surplus registered c.call.generations,
          d = ⟨table, s, "refresh_generation_limit"⟩) ∧
      ((∀ d ∈ c'.phase.ordered table, d.reason = "refresh_generation_limit" →
          ∀ e ∈ (t'.lineage table).running, d.segment ∉ e.sources) ↔
        ∀ e ∈ (t'.lineage table).running, ∀ s ∈ e.sources, s ∈ registered →
          s ∈ (t.lineage table).published →
          s ∈ (t.lineage table).staying registered c.call.generations) := by
  have hsound : t.Sound table .refresh := by
    rw [← ht]
    exact sound_run hnew hmode hmoves
  have hmem := List.mem_of_getElem? hc
  have hlineage : t'.lineage table = plan.lineage := by
    rw [← ht']
    exact hsound.lineage_commit hc hphase hagree
  have hphase' : c'.phase = Call.queue plan.entry plan.deletions := by
    rw [← ht'] at hc'
    rw [← hsound.plan_table hmem hphase] at hagree
    exact phase_commit hc hphase hagree hc'
  obtain ⟨-, hdraft⟩ := hsound.read_of_agree hmem hphase hagree
  obtain ⟨hticket, registered, stamp, hok⟩ := hsound.start_of_agree hmem hphase hjob hagree
  have hplan := Call.StartPlan.of_ok hok
  rw [hlineage, hphase']
  refine ⟨hplan.mem_running, registered, stamp, hok, hplan.ordered_surplus table hticket, ?_⟩
  exact hplan.spares_iff table hticket (hdraft.exclusive hsound.exclusive)

/-- A reloaded table is loaded twice without naming sources; then a segment is to be replaced. The
call that starts this is about to write. -/
def loadedTwice (source : Text) : List Move :=
  [.enter (.start [] ["a"] false) 5 2] ++ Move.answers 0 6 "1" ++ [.add ["a"] true] ++
    [.enter (.finish "1") 5 2] ++ Move.answers 1 5 "" ++
    [.enter (.start [] ["b"] false) 5 2] ++ Move.answers 2 6 "2" ++ [.add ["b"] true] ++
    [.enter (.finish "2") 5 2] ++ Move.answers 3 5 "" ++
    [.enter (.start [source] ["c"] false) 5 2] ++ Move.answers 4 5 "3"

/-- A segment of the second load is a safe source: only the first load is given up. -/
theorem surplus_spares_second_load :
    let t := (idle (.holding "t" .refresh [])).run "t" (loadedTwice "b")
    let t' := t.proceed 4 ⟨"", "", none⟩
    ∃ c', t'.clients[4]? = some c' ∧
      c'.phase.ordered "t" = [⟨"t", "a", "refresh_generation_limit"⟩] ∧
      ∃ registered, ∀ e ∈ (t'.lineage "t").running, ∀ s ∈ e.sources, s ∈ registered →
        s ∈ (t.lineage "t").published → s ∈ (t.lineage "t").staying registered 2 := by
  intro t t'
  have hspares := surplus_spares_sources
    (rfl : (Site.holding "t" .refresh []).memory.get? "t" = none) (by decide)
    (by decide : ∀ m ∈ loadedTwice "b", m.isDrop = false) (rfl : _ = t)
    (rfl : t.clients[4]? = some _) rfl rfl (by decide +kernel)
    (rfl : t.proceed 4 ⟨"", "", none⟩ = t') rfl
  obtain ⟨-, registered, stamp, -, -, hiff⟩ := hspares
  refine ⟨_, rfl, by decide +kernel, registered, hiff.mp ?_⟩
  decide +kernel

/-- A segment of the first load is not, though it is served as well: the start that names it as its
source orders its deletion. -/
theorem surplus_hits_first_load :
    let t := (idle (.holding "t" .refresh [])).run "t" (loadedTwice "a")
    let t' := t.proceed 4 ⟨"", "", none⟩
    (t.lineage "t").served (t.site.registry.segments "t") = ["a", "b"] ∧
      (t'.lineage "t").running = [⟨"3", ["a"], ["c"], .inProgress, ""⟩] ∧
      (t'.clients[4]?).map (fun c => c.phase.ordered "t") =
        some [⟨"t", "a", "refresh_generation_limit"⟩] := by
  decide +kernel

end Traffic

end SegmentSwap
