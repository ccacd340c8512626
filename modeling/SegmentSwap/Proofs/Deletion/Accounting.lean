import SegmentSwap.Proofs.Lineage.Generations
import SegmentSwap.Proofs.Lineage.Turned
import SegmentSwap.Proofs.Traffic.Atomicity
import SegmentSwap.Proofs.Traffic.Briefing
import SegmentSwap.Proofs.Traffic.History
import SegmentSwap.Protocol.Run

/-!
# The accounts of the deletion queue

A commit is due to request deletions for what it does to the record: for every entry that it turns
to completed, its sources; for every entry that it turns to reverted, the targets that its call was
told to be registered; and if it starts an entry of a table that is reloaded, the surplus of
generations in what its call was told. Over a run with no call left under way, the queue has been
asked for what is due for the commits and for nothing else. All of this is told from the record and
from the answers that the calls have got; what the calls have planned does not come into it.
-/

namespace SegmentSwap

/-- Why a job deletes the targets of an entry that it reverts. -/
def Job.reversal (j : Job) (id : Text) : Text :=
  match j with
  | .start .. => "force_cleanup_reverted:" ++ id
  | .finish done => "sources_replaced_by:" ++ done
  | .revert .. => "reverted:" ++ id

/-- Requests for some segments of a table, all for one reason. -/
def Deletion.each (table reason : Text) (segments : List Text) : List Deletion :=
  segments.map (⟨table, ·, reason⟩)

/-- A commit, with the lineages before and after it and what its call had been told. -/
structure Receipt where
  commit : Commit
  call : Call
  before : Lineage
  after : Lineage
  told : Briefing

namespace Receipt

/-- What is due for the entries that a commit completes. -/
def replaced (table : Text) (r : Receipt) : List Deletion :=
  (r.before.turned r.after .completed).flatMap fun e =>
    Deletion.each table ("replaced_by:" ++ e.id) e.sources

/-- What is due for the entries that a commit reverts: those of their targets that the call was told
to be registered. -/
def reverted (table : Text) (r : Receipt) : List Deletion :=
  (r.before.turned r.after .reverted).flatMap fun e =>
    Deletion.each table (r.commit.attempt.job.reversal e.id)
      (e.targets.filter fun s => decide (s ∈ r.told.registered))

/-- What is due for the entry that a commit starts. -/
def outdated (table : Text) (mode : Mode) (r : Receipt) : List Deletion :=
  match r.commit.attempt.job, mode with
  | .start .., .refresh => Deletion.each table "refresh_generation_limit"
      (r.told.read.lineage.surplus r.told.registered r.call.generations)
  | _, _ => []

/-- The requests that are due for a commit. -/
def due (table : Text) (mode : Mode) (r : Receipt) : List Deletion :=
  r.replaced table ++ r.reverted table ++ r.outdated table mode

/-- The commit has been planned from what its call had been told, which is what it found. -/
structure Genuine (mode : Mode) (r : Receipt) : Prop where
  valid : r.commit.attempt.job.Valid mode
  planned : PlannedFrom r.call r.commit.attempt.job r.told r.commit.plan
  before : r.before = r.told.read.lineage
  after : r.after = r.commit.plan.lineage
  exclusive : Exclusive r.before

end Receipt

theorem Batch.requests_of_nodup {table : Text} {b : Batch} (h : b.segments.Nodup) :
    b.requests table = Deletion.each table b.reason b.segments := by
  unfold Batch.requests
  rw [Text.distinct_of_nodup h]
  rfl

/-- Batches of registered targets come to one request for each of these. -/
theorem Call.requests_batchOf (table : Text) (reason : Text → Text) (registered : List Text)
    {es : List Entry} (h : ∀ e ∈ es, e.targets.Nodup) :
    (es.map fun e => batchOf (reason e.id) registered e).flatMap (Batch.requests table) =
      es.flatMap fun e =>
        Deletion.each table (reason e.id) (e.targets.filter fun s => decide (s ∈ registered)) := by
  rw [List.flatMap_map]
  refine List.flatMap_congr fun e he => ?_
  rw [← registeredSubset_eq_filter]
  exact Batch.requests_of_nodup ((h e he).filter _)

namespace Exclusive

variable {l : Lineage}

theorem nodup_history (hl : Exclusive l) : ∀ segments ∈ l.history, segments.Nodup := by
  intro segments hmem
  obtain ⟨e, he, hsegments⟩ := List.mem_flatMap.mp hmem
  have hshape := hl.shaped e (Lineage.mem_completed.mp (List.mem_reverse.mp he)).1
  rcases List.mem_cons.mp hsegments with rfl | hsegments
  · exact hshape.targets_nodup
  · rw [List.mem_singleton.mp hsegments]
    exact hshape.sources_nodup

/-- The rivals that a start reverts are the entries that it turns to reverted. -/
theorem turned_of_start {c : Call} {ticket : Ticket} {sources targets registered : List Text}
    {read : Versioned} {stamp : Text} {plan : Plan} (s : State)
    (hplan : c.StartPlan ticket sources targets read registered stamp plan) :
    read.lineage.turned plan.lineage s = if s = .reverted then plan.reverted else [] := by
  obtain ⟨mid, hmoves, happends⟩ := hplan.lineage
  have hrivals : (read.lineage.rivals sources).Sublist read.lineage.entries :=
    List.filter_sublist.trans List.filter_sublist
  rw [happends.turned (by rw [← hmoves.ids_eq]; exact happends.fresh),
    hmoves.turned hrivals (by decide), hplan.reverted]

/-- The end of an entry turns this entry alone. -/
theorem turned_of_end {j : Job} {read : Versioned} {e : Entry} {stamp : Text} {plan : Plan}
    (hl : Exclusive read.lineage) (s : State) (he : Ends j read e)
    (hplan : Call.EndPlan j read e stamp plan) :
    read.lineage.turned plan.lineage s = if s = j.goal then [plan.entry] else [] := by
  have hmoves := (hplan.moves hl he.running).2
  have hgoal : j.goal ≠ .inProgress := by
    rcases Job.goal_of_entry? he.id with hgoal | hgoal <;> rw [hgoal] <;> decide
  have hmem : e ∈ read.lineage.entries := (Lineage.mem_running.mp he.running).1
  rw [hmoves.turned (List.singleton_sublist.mpr hmem) hgoal, hplan.entry]
  rfl

end Exclusive

namespace Call

variable {read : Versioned} {stamp : Text} {plan : Plan}

/-- A start asks for the registered targets of the entries that it reverts, beside the surplus. -/
theorem StartPlan.requests_eq {c : Call} {ticket : Ticket} {sources targets registered : List Text}
    (h : c.StartPlan ticket sources targets read registered stamp plan)
    (hl : Exclusive read.lineage) (table : Text) :
    plan.deletions.flatMap (Batch.requests table) =
      (plan.reverted.flatMap fun e => Deletion.each table ("force_cleanup_reverted:" ++ e.id)
        (e.targets.filter fun s => decide (s ∈ registered))) ++
      (c.surplusBatches ticket.mode read.lineage registered).flatMap (Batch.requests table) := by
  have htargets : ∀ e ∈ plan.reverted, e.targets.Nodup := by
    intro e he
    rw [h.reverted] at he
    obtain ⟨x, hx, rfl⟩ := List.mem_map.mp he
    exact (hl.shaped_of_running (Lineage.mem_rivals.mp hx).1).targets_nodup
  rw [h.deletions, List.flatMap_append,
    requests_batchOf table (fun id => "force_cleanup_reverted:" ++ id) _ htargets]

section End

variable {e : Entry} {id : Text} {force : Bool} {registered : List Text}

/-- A completion asks for the sources of its entry. -/
theorem EndPlan.requests_of_finish (h : EndPlan (.finish id) read e stamp plan)
    (he : e ∈ read.lineage.running) (hl : Exclusive read.lineage) (table : Text) :
    (endDeletions (.finish id) plan registered).flatMap (Batch.requests table) =
      Deletion.each table ("replaced_by:" ++ plan.entry.id) plan.entry.sources := by
  have hsources : plan.entry.sources.Nodup := by
    rw [h.entry]
    exact (hl.shaped_of_running he).sources_nodup
  unfold endDeletions
  dsimp only
  rw [(h.moves hl he).1, List.map_nil, List.flatMap_singleton, Batch.requests_of_nodup hsources]
  rfl

/-- A reversal asks for the registered targets of its entry. -/
theorem EndPlan.requests_of_revert (h : EndPlan (.revert id force) read e stamp plan)
    (he : e ∈ read.lineage.running) (hl : Exclusive read.lineage) (table : Text) :
    (endDeletions (.revert id force) plan registered).flatMap (Batch.requests table) =
      Deletion.each table ("reverted:" ++ plan.entry.id)
        (plan.entry.targets.filter fun s => decide (s ∈ registered)) := by
  have htargets : plan.entry.targets.Nodup := by
    rw [h.entry]
    exact (hl.shaped_of_running he).targets_nodup
  unfold endDeletions
  dsimp only
  rw [← registeredSubset_eq_filter, List.flatMap_singleton,
    Batch.requests_of_nodup (htargets.filter _)]
  rfl

end End

end Call

namespace Receipt

variable {table : Text} {mode : Mode} {r : Receipt}

/-- A commit asks the queue for what is due. -/
theorem Genuine.requests_eq (h : r.Genuine mode) (table : Text) :
    r.commit.requests table = r.due table mode := by
  have hl := h.exclusive
  obtain ⟨⟨client, ⟨j, number⟩, plan⟩, c, before, after, told⟩ := r
  obtain ⟨hvalid, hplanned, hbefore, hafter, -⟩ := h
  dsimp only at hvalid hplanned hbefore hafter hl
  subst hbefore hafter
  unfold due replaced reverted outdated Commit.requests
  dsimp only
  cases hplanned with
  | @start ticket sources targets force stamp _ hj hplan =>
    subst hj
    rw [Exclusive.turned_of_start _ hplan, Exclusive.turned_of_start _ hplan,
      if_neg (by decide), if_pos rfl, hplan.requests_eq hl, hvalid.1]
    congr 1
    cases mode with
    | append => rfl
    | refresh =>
      show [_].flatMap (Batch.requests table) = _
      rw [List.flatMap_singleton,
        Batch.requests_of_nodup (Lineage.nodup_surplus hl.nodup_history)]
  | @ending e stamp plan he hplan =>
    rw [hl.turned_of_end _ he hplan, hl.turned_of_end _ he hplan]
    dsimp only
    cases j with
    | start => exact absurd he.id.symm (Option.some_ne_none _)
    | finish id =>
      rw [hplan.requests_of_finish he.running hl]
      show _ = [plan.entry].flatMap
        (fun e => Deletion.each table ("replaced_by:" ++ e.id) e.sources) ++ [] ++ []
      rw [List.append_nil, List.append_nil, List.flatMap_singleton]
    | revert id force =>
      rw [hplan.requests_of_revert he.running hl]
      show _ = [] ++ [plan.entry].flatMap (fun e => Deletion.each table ("reverted:" ++ e.id)
        (e.targets.filter fun s => decide (s ∈ told.registered))) ++ []
      rw [List.append_nil, List.nil_append, List.flatMap_singleton]

end Receipt

theorem Phase.done_of_result? {phase : Phase} (h : phase.result?.isSome = true) :
    ∃ result, phase = .done result := by
  cases phase with
  | done result => exact ⟨result, rfl⟩
  | _ => cases h

/-- A commit adds no entry that is resolved. -/
theorem Drafted.running_of_new {mode : Mode} {c : Call} {j : Job} {read : Versioned} {plan : Plan}
    (h : Drafted mode c j read plan) (hl : Exclusive read.lineage) :
    ∀ e ∈ plan.lineage.entries, e.id ∉ read.lineage.ids → e.state = .inProgress := by
  intro e he hnew
  cases h with
  | start hj hvalid hcheck hplan =>
    obtain ⟨mid, hmoves, happends⟩ := (Call.StartPlan.of_ok hplan).lineage
    rcases happends.mem.mp he with he | rfl
    · rw [← hmoves.ids_eq] at hnew
      exact absurd (Lineage.mem_ids.mpr ⟨e, he, rfl⟩) hnew
    · exact happends.running
  | ending hends hplan =>
    rw [← (hplan.moves hl hends.running).2.ids_eq] at hnew
    exact absurd (Lineage.mem_ids.mpr ⟨e, he, rfl⟩) hnew

namespace Traffic

variable {table : Text} {mode : Mode} {t : Traffic} {m : Move} {told : Nat → Briefing} {r : Receipt}
  {moves : List Move} {s : State}

/-- The receipt for the commit in a move, if there is one. -/
def receipt? (table : Text) (told : Nat → Briefing) (t : Traffic) (m : Move) : Option Receipt := do
  let k ← t.commit? m
  let c ← t.clients[k.client]?
  return ⟨k, c.call, t.lineage table, (t.act table m).lineage table, told k.client⟩

/-- The receipts for the commits of a run, the first one first. -/
def receipts (table : Text) : List Move → (Nat → Briefing) → Traffic → List Receipt
  | [], _, _ => []
  | m :: moves, told, t =>
    (t.receipt? table told m).toList ++ receipts table moves (t.brief m told) (t.act table m)

theorem receipt?_eq_some (h : t.receipt? table told m = some r) :
    ∃ c, t.commit? m = some r.commit ∧ t.clients[r.commit.client]? = some c ∧ r.call = c.call ∧
      r.before = t.lineage table ∧ r.after = (t.act table m).lineage table ∧
      r.told = told r.commit.client := by
  obtain ⟨k, hk, h⟩ := Option.bind_eq_some_iff.mp h
  obtain ⟨c, hc, h⟩ := Option.bind_eq_some_iff.mp h
  obtain rfl := Option.some.inj h
  exact ⟨c, hk, hc, rfl, rfl, rfl, rfl⟩

/-- There is a receipt for every commit. -/
theorem receipt?_commit (table : Text) (told : Nat → Briefing) (t : Traffic) (m : Move) :
    (t.receipt? table told m).map Receipt.commit = t.commit? m := by
  cases hr : t.receipt? table told m with
  | some r =>
    obtain ⟨c, hk, -⟩ := receipt?_eq_some hr
    exact hk.symm
  | none =>
    cases hk : t.commit? m with
    | none => rfl
    | some k =>
      obtain ⟨chance, c, -, hc, -⟩ := commit?_eq_some hk
      unfold receipt? at hr
      rw [hk] at hr
      change (t.clients[k.client]?).bind _ = none at hr
      rw [hc] at hr
      exact absurd hr (Option.some_ne_none _)

theorem receipts_commits (moves : List Move) (told : Nat → Briefing) (t : Traffic) :
    (receipts table moves told t).map Receipt.commit = commits table moves t := by
  induction moves generalizing told t with
  | nil => rfl
  | cons m moves ih =>
    have hfirst : (t.receipt? table told m).toList.map Receipt.commit =
        (t.commit? m).toList := by
      rw [← receipt?_commit table told t m]
      cases t.receipt? table told m <;> rfl
    rw [receipts, commits, List.map_append, hfirst, ih]

theorem Briefed.genuine (h : t.Briefed table mode told)
    (hr : t.receipt? table told m = some r) : r.Genuine mode := by
  obtain ⟨c, hk, hc, hcall, hbefore, hafter, htold⟩ := receipt?_eq_some hr
  obtain ⟨c', hc', hvalid, hplanned, hread⟩ := h.planned hk
  obtain rfl : c = c' := Option.some.inj (hc.symm.trans hc')
  have hlineage : r.before = r.told.read.lineage := by
    rw [hbefore, htold, hread]
    rfl
  refine ⟨hvalid, ?_, hlineage, ?_, ?_⟩
  · rw [hcall, htold]
    exact hplanned
  · rw [hafter]
    exact (h.sound.of_commit hk).2
  · rw [hbefore]
    exact h.sound.exclusive

/-- All receipts of a run are genuine. -/
theorem Briefed.genuine_run (h : t.Briefed table mode told)
    (hdrop : ∀ m ∈ moves, m.isDrop = false) :
    ∀ r ∈ receipts table moves told t, r.Genuine mode := by
  induction moves generalizing told t with
  | nil => exact fun r hr => absurd hr List.not_mem_nil
  | cons m moves ih =>
    have hrest := ih (h.act (hdrop m List.mem_cons_self)) fun m' hm' =>
      hdrop m' (List.mem_cons_of_mem m hm')
    intro r hr
    rcases List.mem_append.mp hr with hr | hr
    · exact h.genuine (Option.mem_toList.mp hr)
    · exact hrest r hr

/-- What a move turns to a state is in the receipt for it. -/
theorem Sound.perm_turned (h : t.Sound table mode) (hdrop : m.isDrop = false)
    (told : Nat → Briefing) (hs : s ≠ .inProgress) :
    (((t.act table m).lineage table).entries.filter fun e => decide (e.state = s)).Perm
      (((t.lineage table).entries.filter fun e => decide (e.state = s)) ++
        (t.receipt? table told m).toList.flatMap fun r => r.before.turned r.after s) := by
  cases hr : t.receipt? table told m with
  | none =>
    have hk : t.commit? m = none := by
      rw [← receipt?_commit table told t m, hr]
      rfl
    unfold lineage
    rw [memory_of_quiet table hk hdrop]
    exact List.Perm.of_eq (List.append_nil _).symm
  | some r =>
    obtain ⟨-, hk, -, -, hbefore, hafter, -⟩ := receipt?_eq_some hr
    obtain ⟨⟨c, hdraft⟩, hlineage⟩ := h.of_commit hk
    have hnew := hdraft.running_of_new h.exclusive
    rw [← hlineage] at hnew
    show List.Perm _ (_ ++ [r].flatMap _)
    rw [List.flatMap_singleton, hbefore, hafter]
    exact (h.continues_act hdrop).perm_turned hs hnew

/-- What stands in a final state at the end of a run is what has stood there before and what the
receipts say has turned to it: all of it, and each entry once. -/
theorem Sound.perm_turned_run (h : t.Sound table mode) (hdrop : ∀ m ∈ moves, m.isDrop = false)
    (told : Nat → Briefing) (hs : s ≠ .inProgress) :
    (((t.run table moves).lineage table).entries.filter fun e => decide (e.state = s)).Perm
      (((t.lineage table).entries.filter fun e => decide (e.state = s)) ++
        (receipts table moves told t).flatMap fun r => r.before.turned r.after s) := by
  induction moves generalizing told t with
  | nil => exact List.Perm.of_eq (List.append_nil _).symm
  | cons m moves ih =>
    have hm := hdrop m List.mem_cons_self
    have hstep := h.perm_turned hm told hs
    have hrest := ih (h.act hm) (fun m' hm' => hdrop m' (List.mem_cons_of_mem m hm'))
      (t.brief m told)
    rw [receipts, List.flatMap_append, ← List.append_assoc]
    exact hrest.trans (hstep.append_right _)

/-- The receipts for the commits of one call. -/
def receiptsOf (table : Text) (client : Nat) (moves : List Move) (told : Nat → Briefing)
    (t : Traffic) : List Receipt :=
  (receipts table moves told t).filter (·.commit.client == client)

theorem receiptsOf_commits (client : Nat) (moves : List Move) (told : Nat → Briefing)
    (t : Traffic) : (receiptsOf table client moves told t).map Receipt.commit =
      commitsOf table client moves t := by
  unfold receiptsOf commitsOf
  rw [← receipts_commits moves told t, List.filter_map]
  rfl

theorem requests_of_genuine {rs : List Receipt} (h : ∀ r ∈ rs, r.Genuine mode) :
    (rs.map Receipt.commit).flatMap (Commit.requests table) =
      rs.flatMap (Receipt.due table mode) := by
  rw [List.flatMap_map]
  exact List.flatMap_congr fun r hr => (h r hr).requests_eq table

/-- A call that has failed has no receipt, and one that has returned has one. -/
theorem receiptsOf_cases {client : Nat} {c : Client} {result : Except Failure Entry}
    (moves : List Move) (told : Nat → Briefing) (hnew : t.clients[client]? = none)
    (hc : (t.run table moves).clients[client]? = some c) (hdone : c.phase = .done result) :
    (receiptsOf table client moves told t = [] ∧ ∃ f, result = .error f) ∨
      ∃ r, receiptsOf table client moves told t = [r] ∧ result = .ok r.commit.plan.entry := by
  have hcases := commitsOf_of_new moves hnew hc
  rw [← receiptsOf_commits client moves told, hdone] at hcases
  rcases hcases with ⟨hnone, hcommitted⟩ | ⟨k, hk, hcommitted⟩
  · refine .inl ⟨List.map_eq_nil_iff.mp hnone, ?_⟩
    cases result with
    | ok e => exact absurd hcommitted (Option.some_ne_none e)
    | error f => exact ⟨f, rfl⟩
  · obtain ⟨r, hr, rfl⟩ := List.map_eq_singleton_iff.mp hk
    refine .inr ⟨r, hr, ?_⟩
    cases result with
    | ok e => rw [Option.some.inj hcommitted]
    | error f => exact absurd hcommitted.symm (Option.some_ne_none _)

section Idle

variable {site : Site}

/-- What is put on the queue in a run that leaves no call under way is what is due for its
commits. -/
theorem filings_perm_due (hnew : site.memory.get? table = none)
    (hdrop : ∀ m ∈ moves, m.isDrop = false)
    (hdone : ∀ c ∈ ((idle site).run table moves).clients, ∃ result, c.phase = .done result) :
    (filings table (fun _ => true) moves (idle site)).Perm
      ((receipts table moves (untold table) (idle site)).flatMap
        (Receipt.due table (site.modes.of table))) := by
  have hgenuine := (briefed_idle hnew rfl).genuine_run hdrop
  have hall := filings_all table (idle site) moves fun c hc => absurd hc List.not_mem_nil
  have hnone : ((idle site).run table moves).owing table = [] := by
    refine List.flatMap_eq_nil_iff.mpr fun c hc => ?_
    obtain ⟨result, hresult⟩ := hdone c hc
    rw [hresult]
    rfl
  change List.Perm _ ([] ++ _) at hall
  rw [hnone, List.append_nil, List.nil_append, ← receipts_commits moves (untold table),
    requests_of_genuine hgenuine] at hall
  exact hall

/-- What a call that is no longer under way has put on the queue is what is due for its commit. -/
theorem filings_eq_due {client : Nat} {c : Client} {result : Except Failure Entry}
    (hnew : site.memory.get? table = none) (hdrop : ∀ m ∈ moves, m.isDrop = false)
    (hc : ((idle site).run table moves).clients[client]? = some c)
    (hdone : c.phase = .done result) :
    filings table (Move.isAnswerTo client) moves (idle site) =
      (receiptsOf table client moves (untold table) (idle site)).flatMap
        (Receipt.due table (site.modes.of table)) := by
  have hgenuine : ∀ r ∈ receiptsOf table client moves (untold table) (idle site), r.Genuine _ :=
    fun r hr => (briefed_idle hnew rfl).genuine_run hdrop r (List.mem_filter.mp hr).1
  have habsent : (idle site).clients[client]? = none := rfl
  have hown := filings_of_client table client (idle site) moves
    fun c hc => absurd (hc.symm.trans habsent) (Option.some_ne_none c)
  have howed : ((idle site).run table moves).owed table client = [] := by
    rw [owed_of_some hc, hdone]
    rfl
  change _ = [] ++ _ at hown
  rw [howed, List.append_nil, List.nil_append, ← receiptsOf_commits client moves (untold table),
    requests_of_genuine hgenuine] at hown
  exact hown

/-- Once all calls have returned, the queue has been asked for what is due for their commits and for
nothing else. What stands in a final state at the end is what the commits have turned to it, each
entry once, so that nothing is due twice. A commit changes the very record that its call was told.
Each call on its own has asked for what is due for its commit, if it has returned an entry, and for
nothing, if it has failed. -/
theorem deletions_accounted (hnew : site.memory.get? table = none)
    (hdrop : ∀ m ∈ moves, m.isDrop = false)
    (hdone : ∀ c ∈ ((idle site).run table moves).clients, ∃ result, c.phase = .done result) :
    let t := (idle site).run table moves
    let due := Receipt.due table (site.modes.of table)
    let paid := receipts table moves (untold table) (idle site)
    (filings table (fun _ => true) moves (idle site)).Perm (paid.flatMap due) ∧
    (∀ s, s ≠ .inProgress → (paid.flatMap fun r => r.before.turned r.after s).Perm
      ((t.lineage table).entries.filter fun e => decide (e.state = s))) ∧
    (∀ r ∈ paid, r.told.read.lineage = r.before) ∧
    ∀ client c result, t.clients[client]? = some c → c.phase = .done result →
      let own := receiptsOf table client moves (untold table) (idle site)
      filings table (Move.isAnswerTo client) moves (idle site) = own.flatMap due ∧
      (own = [] ∧ (∃ f, result = .error f) ∨
        ∃ r, own = [r] ∧ result = .ok r.commit.plan.entry) := by
  intro t due paid
  have hbriefed := briefed_idle hnew rfl
  refine ⟨filings_perm_due hnew hdrop hdone, fun s hs => ?_, fun r hr => ?_, ?_⟩
  · have hturned := hbriefed.sound.perm_turned_run hdrop (untold table) hs
    have hempty : (idle site).lineage table = .empty table := lineage_idle hnew
    rw [hempty] at hturned
    exact hturned.symm
  · exact (hbriefed.genuine_run hdrop r hr).before.symm
  · intro client c result hc hresult
    exact ⟨filings_eq_due hnew hdrop hc hresult,
      receiptsOf_cases moves (untold table) rfl hc hresult⟩

end Idle

/-- On a table that is reloaded, two calls race to finish a replacement, a second replacement is
reverted by a third one that is forced, that one is reverted in its turn, and a call is turned
down. Of the targets that are given up, one is registered and one is not, each time. -/
def reloads : List Move :=
  [.enter (.start ["a"] ["b"] false) 5 2] ++ Move.answers 0 6 "1" ++ [.add ["b"] true] ++
    [.enter (.finish "1") 5 2, .enter (.finish "1") 5 2] ++ Move.answers 1 4 "" ++
    Move.answers 2 4 "" ++ Move.answers 1 2 "" ++ Move.answers 2 2 "" ++
    [.enter (.start ["b"] ["c", "x"] false) 5 2] ++ Move.answers 3 7 "2" ++ [.add ["c"] false] ++
    [.enter (.start ["b"] ["y", "d"] true) 5 2] ++ Move.answers 4 8 "3" ++ [.add ["d"] false] ++
    [.enter (.revert "3" false) 5 2] ++ Move.answers 5 7 "" ++ [.enter (.start [] [] false) 5 2]

theorem deletions_accounted_reloads :
    let start := idle (.holding "t" .refresh ["a"])
    let paid := receipts "t" reloads (untold "t") start
    filings "t" (fun _ => true) reloads start =
      [⟨"t", "a", "replaced_by:1"⟩, ⟨"t", "a", "refresh_generation_limit"⟩,
        ⟨"t", "c", "force_cleanup_reverted:2"⟩, ⟨"t", "a", "refresh_generation_limit"⟩,
        ⟨"t", "d", "reverted:3"⟩] ∧
    (filings "t" (fun _ => true) reloads start).Perm
      (paid.flatMap (Receipt.due "t" .refresh)) ∧
    (paid.flatMap fun r => r.before.turned r.after .completed).map Entry.id = ["1"] ∧
    (paid.flatMap fun r => r.before.turned r.after .reverted).map
        (fun e => (e.id, e.targets)) =
      ([("2", ["c", "x"]), ("3", ["y", "d"])] : List (Text × List Text)) ∧
    filings "t" (Move.isAnswerTo 2) reloads start = [] := by
  intro start paid
  have hdone : ∀ c ∈ (start.run "t" reloads).clients, c.phase.result?.isSome = true := by
    decide +kernel
  have hall := deletions_accounted
    (rfl : (Site.holding "t" .refresh ["a"]).memory.get? "t" = none)
    (by decide : ∀ m ∈ reloads, m.isDrop = false) fun c hc => Phase.done_of_result? (hdone c hc)
  exact ⟨by decide +kernel, hall.1, by decide +kernel, by decide +kernel, by decide +kernel⟩

end Traffic

end SegmentSwap
