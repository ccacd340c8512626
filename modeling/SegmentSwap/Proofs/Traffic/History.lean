import SegmentSwap.Proofs.Lineage.Growth
import SegmentSwap.Proofs.Traffic.Basis

/-!
# The record is a history

As long as the record of a table is not removed, it only grows: every commit continues the lineage
that the one before has left. An entry that has been resolved is final. So of all the calls that end
an entry, and of all the forced starts that it stands in the way of, one at most gets its way, and
whoever comes later is told that the entry is resolved.
-/

namespace SegmentSwap

/-- Whether a commit resolves the entry of an id: its call ends the entry, or reverts it on the
way. -/
def Commit.resolves (id : Text) (k : Commit) : Bool :=
  k.attempt.job.entry? == some id || k.plan.reverted.any fun e => e.id == id

theorem Commit.resolves_iff {id : Text} {k : Commit} :
    k.resolves id = true ↔
      k.attempt.job.entry? = some id ∨ ∃ e ∈ k.plan.reverted, e.id = id := by
  simp [resolves]

namespace Drafted

variable {mode : Mode} {c : Call} {j : Job} {read : Versioned} {plan : Plan} {id : Text}

/-- What a call writes continues what it has read. -/
theorem continues (h : Drafted mode c j read plan) (hl : Exclusive read.lineage) :
    read.lineage.Continues plan.lineage := by
  cases h with
  | start hj hvalid hcheck hplan =>
    obtain ⟨mid, hmoves, happends⟩ := (Call.StartPlan.of_ok hplan).lineage
    have hmid : read.lineage.Continues mid := .moves hmoves (Or.inr rfl)
    exact hmid.trans (.appends happends)
  | ending he hplan =>
    exact .moves (hplan.moves hl he.running).2 (Job.goal_of_entry? he.id)

/-- What a call writes resolves the entry that the call ends and those that it reverts on the way,
and no others; all of them were in progress before. -/
theorem resolved_iff (h : Drafted mode c j read plan) (hl : Exclusive read.lineage) :
    plan.lineage.Resolved id ↔
      read.lineage.Resolved id ∨ j.entry? = some id ∨ ∃ e ∈ plan.reverted, e.id = id := by
  cases h with
  | start hj hvalid hcheck hplan =>
    have hplan := Call.StartPlan.of_ok hplan
    obtain ⟨mid, hmoves, happends⟩ := hplan.lineage
    rw [happends.resolved_iff, hmoves.resolved_iff (Or.inr rfl), hplan.reverted, hj]
    simp [Job.entry?, Entry.moved]
  | @ending e _ _ _ he hplan =>
    obtain ⟨hnone, hmoves⟩ := hplan.moves hl he.running
    dsimp only
    rw [hmoves.resolved_iff (Job.goal_of_entry? he.id), hnone, he.id]
    simp

theorem not_resolved (h : Drafted mode c j read plan) (hl : Exclusive read.lineage)
    (hid : j.entry? = some id ∨ ∃ e ∈ plan.reverted, e.id = id) : ¬ read.lineage.Resolved id := by
  cases h with
  | start hj hvalid hcheck hplan =>
    rcases hid with hid | ⟨e, he, rfl⟩
    · rw [hj] at hid
      cases hid
    · rw [(Call.StartPlan.of_ok hplan).reverted] at he
      obtain ⟨x, hx, rfl⟩ := List.mem_map.mp he
      show ¬ read.lineage.Resolved x.id
      exact Lineage.not_resolved_of_running (Lineage.mem_rivals.mp hx).1
  | @ending e _ _ _ he hplan =>
    rcases hid with hid | ⟨x, hx, -⟩
    · obtain rfl : e.id = id := Option.some.inj (he.id.symm.trans hid)
      exact Lineage.not_resolved_of_running he.running
    · dsimp only at hx
      rw [(hplan.moves hl he.running).1] at hx
      exact absurd hx List.not_mem_nil

end Drafted

/-- The answer to a call that ends an entry which has been resolved. -/
def Entry.final (e : Entry) (goal : State) : Phase :=
  Call.refuse (.transition (.forbidden e.id e.state goal []))

namespace Call

variable {c : Call} {a : Attempt} {read : Versioned} {e : Entry}

theorem lookUp_resolved (he : e ∈ read.lineage.entries)
    (hstate : e.state = .completed ∨ e.state = .reverted) :
    c.lookUp a read e.id = e.final a.job.goal := by
  have hknown : Check.known read.lineage c.table e.id = .ok e :=
    Check.known_eq_ok_iff.mpr ⟨he, rfl⟩
  have hmovable : Check.movable e a.job.goal =
      .error (.transition (.forbidden e.id e.state a.job.goal [])) := by
    unfold Check.movable State.checkStep
    rcases hstate with hs | hs <;> rw [hs] <;> rfl
  unfold lookUp
  rw [hknown]
  dsimp only
  rw [hmovable]
  rfl

theorem afterRead_resolved (hjob : a.job.entry? = some e.id) (he : e ∈ read.lineage.entries)
    (hstate : e.state = .completed ∨ e.state = .reverted) :
    c.afterRead a (.ok read) = e.final a.job.goal := by
  unfold afterRead
  dsimp only
  split
  · rename_i hj
    rw [hj] at hjob
    cases hjob
  · rename_i id hj
    obtain rfl : id = e.id := by
      rw [hj] at hjob
      exact Option.some.inj hjob
    exact lookUp_resolved he hstate
  · rename_i id _ hj
    obtain rfl : id = e.id := by
      rw [hj] at hjob
      exact Option.some.inj hjob
    exact lookUp_resolved he hstate

end Call

namespace Traffic

variable {table : Text} {mode : Mode} {t : Traffic} {m : Move} {k : Commit} {moves : List Move}
  {id : Text}

/-- A commit is planned from the record as it stands and leaves the lineage that it has planned. -/
theorem Sound.of_commit (h : t.Sound table mode) (hk : t.commit? m = some k) :
    (∃ c, Drafted mode c k.attempt.job (t.site.memory.read table) k.plan) ∧
      (t.act table m).lineage table = k.plan.lineage := by
  obtain ⟨chance, c, rfl, hc, hphase, hagree⟩ := commit?_eq_some hk
  have hmem := List.mem_of_getElem? hc
  rw [h.plan_table hmem hphase] at hagree
  exact ⟨⟨c.call, (h.read_of_agree hmem hphase hagree).2⟩, h.lineage_commit hc hphase hagree⟩

theorem Sound.continues_act (h : t.Sound table mode) (hdrop : m.isDrop = false) :
    (t.lineage table).Continues ((t.act table m).lineage table) := by
  cases hk : t.commit? m with
  | none =>
    unfold lineage
    rw [memory_of_quiet table hk hdrop]
    exact .refl _
  | some k =>
    obtain ⟨⟨c, hdraft⟩, hlineage⟩ := h.of_commit hk
    rw [hlineage]
    exact hdraft.continues h.exclusive

/-- The lineage at any moment of a run continues the one at every earlier moment. -/
theorem Sound.continues_run (h : t.Sound table mode) (hdrop : ∀ m ∈ moves, m.isDrop = false) :
    (t.lineage table).Continues ((t.run table moves).lineage table) := by
  induction moves generalizing t with
  | nil => exact .refl _
  | cons m moves ih =>
    have hm := hdrop m List.mem_cons_self
    have hrest := ih (h.act hm) fun m' hm' => hdrop m' (List.mem_cons_of_mem m hm')
    exact (h.continues_act hm).trans hrest

/-- A commit resolves entries that have not been resolved before, and nothing else does. -/
theorem Sound.resolved_commit (h : t.Sound table mode) (hk : t.commit? m = some k) :
    (((t.act table m).lineage table).Resolved id ↔
      (t.lineage table).Resolved id ∨ k.resolves id = true) ∧
    (k.resolves id = true → ¬ (t.lineage table).Resolved id) := by
  obtain ⟨⟨c, hdraft⟩, hlineage⟩ := h.of_commit hk
  rw [hlineage, Commit.resolves_iff]
  exact ⟨hdraft.resolved_iff h.exclusive, hdraft.not_resolved h.exclusive⟩

/-- An entry is resolved at the end of a run if it was so before or a commit of the run has resolved
it. -/
theorem Sound.resolved_run (h : t.Sound table mode) (hdrop : ∀ m ∈ moves, m.isDrop = false)
    (id : Text) :
    ((t.run table moves).lineage table).Resolved id ↔
      (t.lineage table).Resolved id ∨ ∃ k ∈ commits table moves t, k.resolves id = true := by
  induction moves generalizing t with
  | nil =>
    show (t.lineage table).Resolved id ↔ _ ∨ ∃ k ∈ ([] : List Commit), _
    simp
  | cons m moves ih =>
    have hm := hdrop m List.mem_cons_self
    have hrest := ih (h.act hm) fun m' hm' => hdrop m' (List.mem_cons_of_mem m hm')
    show (((t.act table m).run table moves).lineage table).Resolved id ↔ _ ∨
      ∃ k ∈ (t.commit? m).toList ++ commits table moves (t.act table m), _
    rw [hrest]
    cases hk : t.commit? m with
    | none =>
      have hsame : (t.act table m).lineage table = t.lineage table := by
        unfold lineage
        rw [memory_of_quiet table hk hm]
      rw [hsame]
      rfl
    | some k =>
      rw [(h.resolved_commit hk).1]
      simp [or_assoc]

/-- Once an entry is resolved, no commit resolves it again. -/
theorem Sound.filter_resolves_eq_nil (h : t.Sound table mode)
    (hdrop : ∀ m ∈ moves, m.isDrop = false) (hr : (t.lineage table).Resolved id) :
    (commits table moves t).filter (Commit.resolves id) = [] := by
  induction moves generalizing t with
  | nil => rfl
  | cons m moves ih =>
    have hm := hdrop m List.mem_cons_self
    have hrest := ih (h.act hm) (fun m' hm' => hdrop m' (List.mem_cons_of_mem m hm'))
      ((h.continues_act hm).resolved hr)
    show ((t.commit? m).toList ++ commits table moves (t.act table m)).filter _ = []
    rw [List.filter_append, hrest, List.append_nil]
    cases hk : t.commit? m with
    | none => rfl
    | some k =>
      have hnot : ¬ k.resolves id = true := fun hid => (h.resolved_commit hk).2 hid hr
      show [k].filter _ = []
      rw [List.filter_cons_of_neg hnot]
      rfl

/-- Of all commits of a run one at most resolves an entry. -/
theorem Sound.length_filter_resolves (h : t.Sound table mode)
    (hdrop : ∀ m ∈ moves, m.isDrop = false) (id : Text) :
    ((commits table moves t).filter (Commit.resolves id)).length ≤ 1 := by
  induction moves generalizing t with
  | nil => exact Nat.zero_le 1
  | cons m moves ih =>
    have hm := hdrop m List.mem_cons_self
    have hmoves : ∀ m' ∈ moves, m'.isDrop = false := fun m' hm' =>
      hdrop m' (List.mem_cons_of_mem m hm')
    have hrest := ih (h.act hm) hmoves
    show (((t.commit? m).toList ++ commits table moves (t.act table m)).filter _).length ≤ 1
    cases hk : t.commit? m with
    | none => exact hrest
    | some k =>
      show ((k :: commits table moves (t.act table m)).filter _).length ≤ 1
      by_cases hid : k.resolves id = true
      · have hnext := (h.resolved_commit hk).1.mpr (Or.inr hid)
        rw [List.filter_cons_of_pos hid, (h.act hm).filter_resolves_eq_nil hmoves hnext]
        exact Nat.le_refl 1
      · rw [List.filter_cons_of_neg hid]
        exact hrest

section Refused

variable {client : Nat} {c : Client} {a : Attempt} {e : Entry}

/-- An attempt to end a resolved entry is refused as soon as it has read the record. -/
theorem Sound.phase_of_resolved {chance : Chance} (h : t.Sound table mode) (hmem : c ∈ t.clients)
    (hphase : c.phase = .reading a) (hjob : a.job.entry? = some e.id)
    (he : e ∈ (t.lineage table).entries) (hstate : e.state = .completed ∨ e.state = .reverted)
    (hout : chance.outage? = none) :
    (Call.step (Site.services chance) c.call c.phase t.site).1 = e.final a.job.goal := by
  obtain ⟨htable, -⟩ := h.clients c hmem
  have hanswer : chance.answer (t.site.memory.read c.call.table) =
      .ok (t.site.memory.read table) := by
    unfold Chance.answer
    rw [hout, htable]
  rw [hphase, Site.step_reading, hanswer]
  exact Call.afterRead_resolved hjob he hstate

/-- A call that is about to read the record when its entry has been resolved is refused with its
next answer, whenever that comes. -/
theorem Sound.refused (h : t.Sound table mode) (hdrop : ∀ m ∈ moves, m.isDrop = false)
    (hc : t.clients[client]? = some c)
    (hphase : c.phase = .reading a ∨ c.phase = e.final a.job.goal)
    (hjob : a.job.entry? = some e.id) (he : e ∈ (t.lineage table).entries)
    (hstate : e.state = .completed ∨ e.state = .reverted)
    (hout : ∀ chance, .proceed client chance ∈ moves → chance.outage? = none) :
    ∃ c', (t.run table moves).clients[client]? = some c' ∧ c'.call = c.call ∧
      (c'.phase = e.final a.job.goal ∨ c' = c ∧ ∀ chance, .proceed client chance ∉ moves) := by
  have hne : e.state ≠ .inProgress := by
    rcases hstate with hs | hs <;> rw [hs] <;> decide
  induction moves generalizing t c with
  | nil => exact ⟨c, hc, rfl, Or.inr ⟨rfl, fun _ => List.not_mem_nil⟩⟩
  | cons m moves ih =>
    have hm := hdrop m List.mem_cons_self
    have hsound := h.act hm
    have hentry := (h.continues_act hm).mem_of_resolved he hne
    have hmoves : ∀ m' ∈ moves, m'.isDrop = false := fun m' hm' =>
      hdrop m' (List.mem_cons_of_mem m hm')
    have hanswers : ∀ chance, .proceed client chance ∈ moves → chance.outage? = none :=
      fun chance hmem => hout chance (List.mem_cons_of_mem m hmem)
    by_cases hown : ∃ chance, m = .proceed client chance
    · obtain ⟨chance, rfl⟩ := hown
      have hnext : (Call.step (Site.services chance) c.call c.phase t.site).1 =
          e.final a.job.goal := by
        rcases hphase with hphase | hphase
        · exact h.phase_of_resolved (List.mem_of_getElem? hc) hphase hjob he hstate
            (hout chance List.mem_cons_self)
        · rw [hphase]
          rfl
      obtain ⟨c', hc', hcall, hresult⟩ := ih hsound hmoves (getElem?_proceed_self chance hc)
        (Or.inr hnext) hentry hanswers
      refine ⟨c', hc', hcall, Or.inl ?_⟩
      rcases hresult with hresult | ⟨rfl, -⟩
      · exact hresult
      · exact hnext
    · have hother : ∀ chance, m ≠ .proceed client chance := not_exists.mp hown
      obtain ⟨c', hc', hcall, hresult⟩ := ih hsound hmoves (getElem?_act_of_ne hc hother) hphase
        hentry hanswers
      refine ⟨c', hc', hcall, hresult.imp_right fun ⟨hsame, hnone⟩ => ⟨hsame, fun chance hmem => ?_⟩⟩
      rcases List.mem_cons.mp hmem with heq | hmem
      · exact hother chance heq.symm
      · exact hnone chance hmem

end Refused

variable {site : Site} {before after : List Move} {t' : Traffic}

/-- The record of a table is an append-only history. From any moment of a run to any later one the
ids stay where they are, an entry keeps its segments and changes at most once, from being in
progress to being resolved, and the version counts the commits, from zero on. An entry is resolved
by one commit of the run if it is resolved at all, and a call on an entry that has been resolved is
refused for that reason. -/
theorem history_append_only (hnew : site.memory.get? table = none)
    (hbefore : ∀ m ∈ before, m.isDrop = false) (hafter : ∀ m ∈ after, m.isDrop = false)
    (ht : (idle site).run table before = t) (ht' : t.run table after = t') :
    (t.lineage table).ids <+: (t'.lineage table).ids ∧
    (∀ e ∈ (t.lineage table).entries, ∃ e' ∈ (t'.lineage table).entries,
      e'.id = e.id ∧ e'.sources = e.sources ∧ e'.targets = e.targets ∧
      (e' = e ∨ e.state = .inProgress ∧ (e'.state = .completed ∨ e'.state = .reverted))) ∧
    (t.site.memory.version? table =
        Version.after (commits table before (idle site)).length none ∧
      t'.site.memory.version? table =
        Version.after (commits table after t).length (t.site.memory.version? table)) ∧
    (∀ id, ((commits table (before ++ after) (idle site)).filter
        (Commit.resolves id)).length ≤ 1 ∧
      ((t'.lineage table).Resolved id ↔
        ∃ k ∈ commits table (before ++ after) (idle site), k.resolves id = true)) ∧
    (∀ e ∈ (t.lineage table).entries, e.state = .completed ∨ e.state = .reverted →
      ∀ client c a, t.clients[client]? = some c → c.phase = .reading a →
        a.job.entry? = some e.id → (∃ chance, .proceed client chance ∈ after) →
        (∀ chance, .proceed client chance ∈ after → chance.outage? = none) →
        ∃ c', t'.clients[client]? = some c' ∧ c'.call = c.call ∧
          c'.phase = .done (.error (.refusal
            (.transition (.forbidden e.id e.state a.job.goal []))))) := by
  have hidle : (idle site).Sound table (site.modes.of table) := sound_idle hnew rfl
  have hsound : t.Sound table (site.modes.of table) := by
    rw [← ht]
    exact sound_run hnew rfl hbefore
  have hlocal : t.Local table := by
    rw [← ht]
    exact (local_idle hnew).run before
  subst ht'
  have hcontinues := hsound.continues_run hafter
  refine ⟨hcontinues.ids_prefix, fun e he => ?_, ⟨?_, hlocal.version_run hafter⟩, fun id => ?_, ?_⟩
  · obtain ⟨e', he', hbecomes⟩ := hcontinues.mem he
    exact ⟨e', he', hbecomes.id, hbecomes.sources, hbecomes.targets, hbecomes.fate⟩
  · have hversion := (local_idle hnew).version_run hbefore
    rw [ht, version_idle hnew] at hversion
    exact hversion
  · have hall : ∀ m ∈ before ++ after, m.isDrop = false := fun m hm =>
      (List.mem_append.mp hm).elim (hbefore m) (hafter m)
    have hresolved := hidle.resolved_run hall id
    rw [run_append, ht] at hresolved
    refine ⟨hidle.length_filter_resolves hall id, hresolved.trans (or_iff_right ?_)⟩
    rintro ⟨e, he, -⟩
    rw [lineage_idle hnew] at he
    exact absurd he List.not_mem_nil
  · intro e he hstate client c a hc hphase hjob hanswered hout
    obtain ⟨c', hc', hcall, hresult⟩ :=
      hsound.refused hafter hc (Or.inl hphase) hjob he hstate hout
    obtain ⟨chance, hmem⟩ := hanswered
    rcases hresult with hresult | ⟨-, hnone⟩
    · exact ⟨c', hc', hcall, hresult⟩
    · exact absurd hmem (hnone chance)

/-- Two calls are about to end the same entry, one that completes it and a forced one that reverts
it. The first one gets its write through and the second one loses its own. -/
def raced : List Move :=
  [.enter (.start ["a"] ["b"] false) 5 2] ++ Move.answers 0 6 "1" ++
    [.add ["b"] true, .enter (.finish "1") 5 2, .enter (.revert "1" true) 5 2] ++
    Move.answers 1 4 "" ++ Move.answers 2 4 "" ++ Move.answers 1 1 "" ++ Move.answers 2 1 ""

/-- The second call reads the record again, while another replacement is started. -/
def raceSettled : List Move :=
  [.enter (.start ["b"] ["c"] false) 5 2] ++ Move.answers 3 6 "2" ++ Move.answers 2 1 ""

/-- It is told that the entry is completed, which stays as it is and has been resolved once. -/
theorem history_append_only_raced :
    let t := (idle (.holding "t" .append ["a"])).run "t" raced
    let t' := t.run "t" raceSettled
    (t.lineage "t").entries = [⟨"1", ["a"], ["b"], .completed, ""⟩] ∧
      (t'.lineage "t").entries.map Entry.state = [.completed, .inProgress] ∧
      (t.lineage "t").ids <+: (t'.lineage "t").ids ∧
      ((commits "t" (raced ++ raceSettled) (idle (.holding "t" .append ["a"]))).filter
        (Commit.resolves "1")).length ≤ 1 ∧
      (∃ k ∈ commits "t" (raced ++ raceSettled) (idle (.holding "t" .append ["a"])),
        k.resolves "1" = true) ∧
      ∃ c', t'.clients[2]? = some c' ∧ c'.phase = .done (.error (.refusal
        (.transition (.forbidden "1" .completed .reverted [])))) := by
  have hhistory := history_append_only
    (rfl : (Site.holding "t" .append ["a"]).memory.get? "t" = none)
    (by decide : ∀ m ∈ raced, m.isDrop = false) (by decide : ∀ m ∈ raceSettled, m.isDrop = false)
    (rfl : (idle _).run "t" raced = _) rfl
  obtain ⟨hids, -, -, honce, hrefused⟩ := hhistory
  obtain ⟨c', hc', -, hphase⟩ := hrefused ⟨"1", ["a"], ["b"], .completed, ""⟩ (by decide +kernel)
    (Or.inl rfl) 2 _ ⟨.revert "1" true, 2⟩ (rfl : _ = some _) rfl rfl
    ⟨⟨"", "", none⟩, by simp [raceSettled, Move.answers]⟩ (by simp [raceSettled, Move.answers])
  have hresolved := (honce "1").2.mp
    ⟨⟨"1", ["a"], ["b"], .completed, ""⟩, by decide +kernel, rfl, Or.inl rfl⟩
  exact ⟨by decide +kernel, by decide +kernel, hids, (honce "1").1, hresolved, c', hc', hphase⟩

end Traffic

end SegmentSwap
