import SegmentSwap.Proofs.Traffic.Advance
import SegmentSwap.Proofs.Traffic.Filing

/-!
# All or nothing

A call that fails has done nothing that anybody could notice, wherever it fails: it has not written,
it has queued nothing, and the site is as if the call had never got an answer. A call that succeeds
has written once, what it has been asked for. The only effects of a call are its commit and, after
it, the queueing of what the commit has planned to delete; and after a commit nothing can fail.

Nothing is asked of the record here. It may hold anything, and others may write or remove it at any
time.
-/

namespace SegmentSwap

/-- What an entry has to be for a request to be met. -/
def Request.IsMetBy (e : Entry) : Request → Prop
  | .start sources targets _ => e.sources = sources ∧ e.targets = targets ∧ e.state = .inProgress
  | .finish id => e.id = id ∧ e.state = .completed
  | .revert id _ => e.id = id ∧ e.state = .reverted

/-- A plan meets a request: its lineage holds the entry asked for, and its id once. -/
structure Plan.Meets (plan : Plan) (request : Request) : Prop where
  entry : request.IsMetBy plan.entry
  mem : plan.entry ∈ plan.lineage.entries
  once : plan.lineage.ids.count plan.entry.id = 1

theorem Lineage.count_ids {l : Lineage} {e : Entry} (h : e ∈ l.entries) : l.ids.count e.id = 1 :=
  List.count_eq_one_of_mem l.distinct (List.mem_map_of_mem h)

section Plans

variable {c : Call} {j : Job} {read : Versioned} {e : Entry} {stamp : Text} {plan : Plan}

theorem Call.StartPlan.meets {ticket : Ticket} {sources targets registered : List Text}
    (h : StartPlan c ticket sources targets read registered stamp plan) (force : Bool) :
    plan.Meets (.start sources targets force) := by
  obtain ⟨mid, -, happends⟩ := h.lineage
  have hmem : plan.entry ∈ plan.lineage.entries := by
    rw [happends.entries]
    exact List.mem_append_right _ List.mem_cons_self
  refine ⟨?_, hmem, Lineage.count_ids hmem⟩
  rw [h.entry]
  exact ⟨rfl, rfl, rfl⟩

theorem Call.EndPlan.meets (h : EndPlan j read e stamp plan) (he : Ends j read e) :
    plan.Meets j.request := by
  have hmem : plan.entry ∈ plan.lineage.entries := by
    rw [h.entries, h.entry]
    exact List.mem_map.mpr ⟨e, (Lineage.mem_running.mp he.running).1, if_pos rfl⟩
  refine ⟨?_, hmem, Lineage.count_ids hmem⟩
  have hid := he.id
  rw [h.entry]
  cases j with
  | start => cases hid
  | finish id => exact ⟨(Option.some.inj hid).symm, rfl⟩
  | revert id force => exact ⟨(Option.some.inj hid).symm, rfl⟩

end Plans

namespace Phase

/-- A call keeps to its request from its beginning up to its write. -/
def Serves (request : Request) : Phase → Prop
  | .minting sources targets force => request = .start sources targets force
  | .configuring _ sources targets force => request = .start sources targets force
  | .reading a => a.job.request = request
  | .surveying a ticket sources targets force _ =>
    a.job.request = request ∧ a.job = .start ticket sources targets force
  | .dating a ticket sources targets _ _ =>
    a.job.request = request ∧ ∃ force, a.job = .start ticket sources targets force
  | .probing a read e _ _ _ => a.job.request = request ∧ Ends a.job read e
  | .closing a read e => a.job.request = request ∧ Ends a.job read e
  | .auditing a plan => a.job.request = request ∧ plan.Meets request
  | .writing a plan => a.job.request = request ∧ plan.Meets request
  | .queueing .. => True
  | .done _ => True

/-- The entry that a call has committed. -/
def committed? : Phase → Option Entry
  | .queueing e _ _ => some e
  | .done (.ok e) => some e
  | _ => none

section After

variable {request : Request} {c : Call} {a : Attempt} {read : Versioned} {e : Entry}

theorem serves_begin (c : Call) : c.begin.Serves c.request := by
  unfold Call.begin
  split
  · rename_i hrequest
    split
    · trivial
    · exact hrequest
  · rename_i hrequest
    exact hrequest.symm
  · rename_i hrequest
    exact hrequest.symm

theorem serves_queue (e : Entry) (batches : List Batch) :
    (Call.queue e batches).Serves request := by
  induction batches with
  | nil => trivial
  | cons b rest ih =>
    unfold Call.queue
    split
    · exact ih
    · trivial

theorem committed?_queue (e : Entry) (batches : List Batch) :
    (Call.queue e batches).committed? = some e := by
  induction batches with
  | nil => rfl
  | cons b rest ih =>
    unfold Call.queue
    split
    · exact ih
    · rfl

theorem committed?_lost {chance : Chance} {next : Phase} (h : c.Loses chance a next) :
    next.committed? = none := by
  cases h <;> rfl

theorem serves_lost {chance : Chance} {next : Phase} (h : c.Loses chance a next)
    (hjob : a.job.request = request) : next.Serves request := by
  cases h with
  | again => exact hjob
  | spent | outage => trivial

end After

/-- An answer that is not the outcome of a write keeps a call to its request. -/
theorem Serves.step (chance : Chance) {request : Request} {c : Call} {phase : Phase} {s : Site}
    (h : phase.Serves request) (hwrite : ∀ a plan, phase ≠ .writing a plan) :
    (Call.step (Site.services chance) c phase s).1.Serves request := by
  have hadvances := c.advances chance s hwrite
  generalize (Call.step (Site.services chance) c phase s).1 = next at hadvances ⊢
  cases hadvances with
  | fail => trivial
  | mint => exact h
  | configure => exact h.symm
  | survey _ hj => exact ⟨h, hj⟩
  | approach _ he hnext => cases hnext <;> exact ⟨h, he⟩
  | date => exact ⟨h.1, _, h.2⟩
  | planStart hplan =>
    obtain ⟨hjob, force, hj⟩ := h
    have hmeets := hplan.meets force
    rw [← hjob, hj]
    exact ⟨by rw [hj], hmeets⟩
  | probe hnext => cases hnext <;> exact h
  | planEnd hplan =>
    obtain ⟨hjob, he⟩ := h
    have hmeets := (Call.EndPlan.of_ok he.running (Job.goal_of_entry? he.id) hplan).meets he
    rw [hjob] at hmeets
    exact ⟨hjob, hmeets⟩
  | audit => exact ⟨h.1, h.2.entry, h.2.mem, h.2.once⟩
  | order => exact serves_queue _ _
  | rest => trivial

theorem committed?_begin (c : Call) : c.begin.committed? = none := by
  unfold Call.begin
  split
  · split <;> rfl
  · rfl
  · rfl

theorem committed?_of_looking {phase : Phase} (h : phase.isLooking = true) :
    phase.committed? = none := by
  cases phase with
  | queueing | done => exact absurd h Bool.false_ne_true
  | _ => rfl

/-- An answer that is not the outcome of a write commits nothing. -/
theorem committed?_step (chance : Chance) (c : Call) {phase : Phase} (s : Site)
    (hwrite : ∀ a plan, phase ≠ .writing a plan) :
    (Call.step (Site.services chance) c phase s).1.committed? = phase.committed? := by
  have hadvances := c.advances chance s hwrite
  generalize (Call.step (Site.services chance) c phase s).1 = next at hadvances ⊢
  cases hadvances with
  | fail hlooking => exact (committed?_of_looking hlooking).symm
  | approach _ _ hnext => cases hnext <;> rfl
  | probe hnext => cases hnext <;> rfl
  | order => exact committed?_queue _ _
  | _ => rfl

end Phase

namespace Traffic

variable {table : Text} {t : Traffic} {m : Move} {client : Nat} {chance : Chance} {c c' : Client}
  {k : Commit} {request : Request}

/-- A call that commits goes on with the entry that it has committed. -/
theorem committed?_of_commit (hc : t.clients[client]? = some c)
    (hk : t.commit? (.proceed client chance) = some k) :
    c.phase.committed? = none ∧
      (Call.step (Site.services chance) c.call c.phase t.site).1.committed? =
        some k.plan.entry := by
  obtain ⟨-, hphase, hnext⟩ := step_of_commit hc hk
  rw [hnext, hphase]
  exact ⟨rfl, Phase.committed?_queue _ _⟩

/-- Without a commit a call stays as committed as it is, and keeps to its request. -/
theorem committed?_of_quiet (hc : t.clients[client]? = some c)
    (hk : t.commit? (.proceed client chance) = none) :
    (Call.step (Site.services chance) c.call c.phase t.site).1.committed? =
      c.phase.committed? := by
  by_cases hwriting : ∃ a plan, c.phase = .writing a plan
  · obtain ⟨a, plan, hphase⟩ := hwriting
    obtain ⟨next, hnext, hstep⟩ := step_of_lost hc hphase hk
    rw [hstep, hphase]
    exact Phase.committed?_lost hnext
  · exact Phase.committed?_step chance c.call t.site fun a plan hphase =>
      hwriting ⟨a, plan, hphase⟩

theorem serves_proceed (hc : t.clients[client]? = some c) (h : c.phase.Serves request) :
    (Call.step (Site.services chance) c.call c.phase t.site).1.Serves request := by
  by_cases hwriting : ∃ a plan, c.phase = .writing a plan
  · obtain ⟨a, plan, hphase⟩ := hwriting
    cases hk : t.commit? (.proceed client chance) with
    | some k =>
      rw [(step_of_commit hc hk).2.2]
      exact Phase.serves_queue _ _
    | none =>
      obtain ⟨next, hnext, hstep⟩ := step_of_lost hc hphase hk
      rw [hstep]
      rw [hphase] at h
      exact Phase.serves_lost hnext h.1
  · exact h.step chance fun a plan hphase => hwriting ⟨a, plan, hphase⟩

/-- A call commits once if it is committed in the end and was not before, what its request asks for,
and not at all otherwise. -/
theorem commitsOf_cases (table : Text) (moves : List Move) (hc : t.clients[client]? = some c)
    (hserves : c.phase.Serves request) :
    ∃ c', (t.run table moves).clients[client]? = some c' ∧
      ((commitsOf table client moves t = [] ∧ c'.phase.committed? = c.phase.committed?) ∨
        c.phase.committed? = none ∧ ∃ k, commitsOf table client moves t = [k] ∧
          k.plan.Meets request ∧ c'.phase.committed? = some k.plan.entry) := by
  induction moves generalizing t c with
  | nil => exact ⟨c, hc, .inl ⟨rfl, rfl⟩⟩
  | cons m moves ih =>
    rw [commitsOf_cons]
    cases hm : m.isAnswerTo client with
    | false => exact ih (getElem?_act_of_ne hc (Move.ne_proceed_of_isAnswerTo hm)) hserves
    | true =>
      obtain ⟨chance, rfl⟩ := Move.isAnswerTo_iff.mp hm
      obtain ⟨c', hc', hcases⟩ := ih (t := t.act table (.proceed client chance))
        (getElem?_proceed_self chance hc) (serves_proceed hc hserves)
      refine ⟨c', hc', ?_⟩
      cases hk : t.commit? (.proceed client chance) with
      | none =>
        rw [committed?_of_quiet hc hk] at hcases
        exact hcases
      | some k =>
        obtain ⟨hbefore, hafter⟩ := committed?_of_commit hc hk
        have hmeets : k.plan.Meets request := by
          rw [(step_of_commit hc hk).2.1] at hserves
          exact hserves.2
        dsimp only at hcases
        rw [hafter] at hcases
        rcases hcases with ⟨hnone, hsame⟩ | ⟨hcontra, -⟩
        · refine .inr ⟨hbefore, k, ?_, hmeets, hsame⟩
          rw [hnone]
          rfl
        · exact absurd hcontra (Option.some_ne_none _)

/-- The same holds of a call from before its beginning on. -/
theorem commitsOf_of_new (moves : List Move) (hc : t.clients[client]? = none)
    (hc' : (t.run table moves).clients[client]? = some c') :
    (commitsOf table client moves t = [] ∧ c'.phase.committed? = none) ∨
      ∃ k, commitsOf table client moves t = [k] ∧ c'.phase.committed? = some k.plan.entry := by
  induction moves generalizing t with
  | nil => exact absurd (hc'.symm.trans hc) (Option.some_ne_none c')
  | cons m moves ih =>
    have hfirst : (if m.isAnswerTo client then (t.commit? m).toList else []) = [] := by
      split
      · rename_i hm
        obtain ⟨chance, rfl⟩ := Move.isAnswerTo_iff.mp hm
        rw [commit?_absent hc]
        rfl
      · rfl
    have hc' : ((t.act table m).run table moves).clients[client]? = some c' := hc'
    rw [commitsOf_cons, hfirst, List.nil_append]
    cases hnext : (t.act table m).clients[client]? with
    | none => exact ih hnext hc'
    | some c =>
      have hserves : c.phase.Serves c.call.request := by
        rw [(begun_of_new hc hnext).2]
        exact Phase.serves_begin _
      obtain ⟨last, hlast, hcases⟩ := commitsOf_cases table moves hnext hserves
      obtain rfl : c' = last := Option.some.inj (hc'.symm.trans hlast)
      rw [(begun_of_new hc hnext).2, Phase.committed?_begin] at hcases
      rcases hcases with hnone | ⟨-, k, hk, -, hcommitted⟩
      · exact .inl hnone
      · exact .inr ⟨k, hk, hcommitted⟩

/-! ## A call that leaves no trace -/

/-- Traffic in which one call stands somewhere else. -/
def withClient (client : Nat) (c : Client) (t : Traffic) : Traffic :=
  { t with clients := t.clients.set client c }

/-- Where a call stands makes no difference to a move that is not an answer to it. -/
theorem act_withClient (table : Text) (hm : m.isAnswerTo client = false)
    (hlt : client < t.clients.length) (c : Client) :
    (t.withClient client c).act table m = (t.act table m).withClient client c := by
  have hother := Move.ne_proceed_of_isAnswerTo hm
  cases m with
  | proceed other chance =>
    have hne : client ≠ other := fun heq => hother chance (by rw [heq])
    have hlook : (t.withClient client c).clients[other]? = t.clients[other]? :=
      List.getElem?_set_ne hne
    show (t.withClient client c).proceed other chance = (t.proceed other chance).withClient client c
    unfold proceed
    rw [hlook]
    split
    · rfl
    · unfold withClient
      dsimp only
      rw [List.set_comm _ _ hne]
  | enter request attempts generations =>
    unfold act withClient
    dsimp only
    rw [List.set_append_left _ _ hlt]
  | place segment =>
    unfold act withClient
    dsimp only
    split <;> rfl
  | take worker =>
    unfold act withClient
    dsimp only
    split <;> rfl
  | _ => rfl

/-- An answer that is neither the success of a write nor part of the queueing changes nothing but
where its call stands. -/
theorem proceed_of_quiet (hc : t.clients[client]? = some c) (hbefore : c.phase.committed? = none)
    (hk : t.commit? (.proceed client chance) = none) :
    t.proceed client chance = t.withClient client
      ⟨c.call, (Call.step (Site.services chance) c.call c.phase t.site).1⟩ := by
  have hsite : (Call.step (Site.services chance) c.call c.phase t.site).2 = t.site := by
    by_cases hwriting : ∃ a plan, c.phase = .writing a plan
    · obtain ⟨a, plan, hphase⟩ := hwriting
      obtain ⟨next, -, hstep⟩ := step_of_lost hc hphase hk
      rw [hstep]
    · cases hphase : c.phase with
      | writing a plan => exact absurd ⟨a, plan, hphase⟩ hwriting
      | queueing e b rest =>
        rw [hphase] at hbefore
        exact absurd hbefore (Option.some_ne_none _)
      | _ => rfl
  unfold proceed withClient
  rw [hc]
  dsimp only
  rw [hsite]

/-- What a call has committed it does not lose. -/
theorem committed?_run {e : Entry} (table : Text) (moves : List Move)
    (hc : t.clients[client]? = some c) (h : c.phase.committed? = some e) :
    ∃ c', (t.run table moves).clients[client]? = some c' ∧ c'.phase.committed? = some e := by
  have hown : ∀ (t : Traffic) (chance : Chance) (c : Client), True →
      t.clients[client]? = some c → c.phase.committed? = some e →
      (Call.step (Site.services chance) c.call c.phase t.site).1.committed? = some e := by
    intro t chance c _ hc h
    cases hk : t.commit? (.proceed client chance) with
    | some k =>
      rw [(committed?_of_commit hc hk).1] at h
      exact absurd h.symm (Option.some_ne_none e)
    | none => rw [committed?_of_quiet hc hk, h]
  obtain ⟨c', hc', -, h'⟩ := follow table (fun _ => True)
    (fun _ c => c.phase.committed? = some e) (fun _ _ _ _ _ h => h) hown (fun _ _ => trivial) hc h
  exact ⟨c', hc', h'⟩

/-- A call that has not committed in the end has not committed with any of its answers. -/
theorem quiet_of_uncommitted (table : Text) (moves : List Move)
    (hc : t.clients[client]? = some c)
    (hc' : ((t.proceed client chance).run table moves).clients[client]? = some c')
    (hnone : c'.phase.committed? = none) :
    c.phase.committed? = none ∧ t.commit? (.proceed client chance) = none := by
  have hnext : (Call.step (Site.services chance) c.call c.phase t.site).1.committed? = none := by
    refine Option.eq_none_iff_forall_ne_some.mpr fun e hcommitted => ?_
    obtain ⟨last, hlast, he⟩ := committed?_run table moves
      (getElem?_proceed_self chance hc) hcommitted
    obtain rfl : c' = last := Option.some.inj (hc'.symm.trans hlast)
    rw [hnone] at he
    exact absurd he.symm (Option.some_ne_none e)
  cases hk : t.commit? (.proceed client chance) with
  | none =>
    rw [committed?_of_quiet hc hk] at hnext
    exact ⟨hnext, rfl⟩
  | some k =>
    rw [(committed?_of_commit hc hk).2] at hnext
    exact absurd hnext (Option.some_ne_none _)

theorem withClient_self (hc : t.clients[client]? = some c) : t.withClient client c = t := by
  obtain ⟨hlt, rfl⟩ := List.getElem?_eq_some_iff.mp hc
  unfold withClient
  rw [List.set_getElem_self hlt]

theorem withClient_withClient (c c' : Client) :
    (t.withClient client c).withClient client c' = t.withClient client c' := by
  unfold withClient
  rw [List.set_set]

/-- As long as a call has not committed, the others get on as if it had never got an answer. -/
theorem run_withClient {c₀ : Client} (table : Text) (moves : List Move)
    (hc₀ : t.clients[client]? = some c₀)
    (hc' : ((t.withClient client c).run table moves).clients[client]? = some c')
    (hnone : c'.phase.committed? = none) :
    (t.withClient client c).run table moves =
      (t.run table (moves.filter fun m => !m.isAnswerTo client)).withClient client c' := by
  have hlt : client < t.clients.length := (List.getElem?_eq_some_iff.mp hc₀).1
  have hc : (t.withClient client c).clients[client]? = some c := List.getElem?_set_self hlt
  induction moves generalizing t c with
  | nil =>
    obtain rfl : c = c' := Option.some.inj (hc.symm.trans hc')
    rfl
  | cons m moves ih =>
    cases hm : m.isAnswerTo client with
    | false =>
      have hkeep : (m :: moves).filter (fun m => !m.isAnswerTo client) =
          m :: moves.filter fun m => !m.isAnswerTo client :=
        List.filter_cons_of_pos (by rw [hm]; rfl)
      have hnext := act_withClient table hm hlt c
      have hstay : (t.act table m).clients[client]? = some c₀ :=
        getElem?_act_of_ne hc₀ (Move.ne_proceed_of_isAnswerTo hm)
      have hlt' := (List.getElem?_eq_some_iff.mp hstay).1
      change (((t.withClient client c).act table m).run table moves).clients[client]? = _ at hc'
      rw [hnext] at hc'
      rw [hkeep]
      show ((t.withClient client c).act table m).run table moves = _
      rw [hnext]
      exact ih hstay hc' hlt' (List.getElem?_set_self hlt')
    | true =>
      obtain ⟨chance, rfl⟩ := Move.isAnswerTo_iff.mp hm
      have hdrop : (Move.proceed client chance :: moves).filter (fun m => !m.isAnswerTo client) =
          moves.filter fun m => !m.isAnswerTo client :=
        List.filter_cons_of_neg (by rw [hm]; decide)
      obtain ⟨hbefore, hk⟩ := quiet_of_uncommitted table moves hc hc' hnone
      -- the answer moves nothing but the call, which stands somewhere else anyway
      have hnext := proceed_of_quiet hc hbefore hk
      rw [withClient_withClient] at hnext
      change (((t.withClient client c).proceed client chance).run table moves).clients[client]? = _
        at hc'
      rw [hnext] at hc'
      rw [hdrop]
      show ((t.withClient client c).proceed client chance).run table moves = _
      rw [hnext]
      exact ih hc₀ hc' hlt (List.getElem?_set_self hlt)

/-- A call commits fully or changes nothing. Whatever the site is and whoever else is at work: if
the call fails, it has not committed and queued nothing, and the site is what the others alone would
have made of it; if it returns an entry, it has committed once, with this entry as its request asks
for it, and has queued all that the commit has planned to delete and nothing else. -/
theorem commits_fully_or_changes_nothing (table : Text) (t : Traffic) (request : Request)
    (attempts generations : Int) (moves : List Move) {c : Client} {r : Except Failure Entry}
    (hc : ((t.act table (.enter request attempts generations)).run table moves).clients[
      t.clients.length]? = some c) (hdone : c.phase = .done r) :
    let begun := t.act table (.enter request attempts generations)
    let own := Move.isAnswerTo t.clients.length
    (∀ f, r = .error f → commitsOf table t.clients.length moves begun = [] ∧
      filings table own moves begun = [] ∧
      (begun.run table moves).site = (begun.run table (moves.filter fun m => !own m)).site) ∧
    ∀ e, r = .ok e → ∃ k, commitsOf table t.clients.length moves begun = [k] ∧ k.plan.entry = e ∧
      k.plan.Meets request ∧ filings table own moves begun = k.requests table := by
  intro begun own
  have hbegun : begun.clients[t.clients.length]? =
      some ⟨⟨table, request, attempts, generations⟩, Call.begin ⟨table, request, attempts,
        generations⟩⟩ := List.getElem?_concat_length
  have hcall : ∀ c, begun.clients[t.clients.length]? = some c → c.call.table = table := by
    intro c hc
    rw [hbegun] at hc
    rw [← Option.some.inj hc]
  obtain ⟨c', hc', hcases⟩ := commitsOf_cases table moves hbegun (Phase.serves_begin _)
  obtain rfl : c = c' := Option.some.inj (hc.symm.trans hc')
  have hfilings := filings_of_client table t.clients.length begun moves hcall
  rw [owed_of_some hc, owed_of_some hbegun, Call.ordered_begin, hdone] at hfilings
  change filings table own moves begun ++ [] = [] ++ _ at hfilings
  rw [List.append_nil, List.nil_append] at hfilings
  rw [Phase.committed?_begin, hdone] at hcases
  constructor
  · rintro f rfl
    have hnone : commitsOf table t.clients.length moves begun = [] := by
      rcases hcases with ⟨hnone, -⟩ | ⟨-, k, -, -, hcommitted⟩
      · exact hnone
      · exact absurd hcommitted.symm (Option.some_ne_none _)
    have hself := withClient_self hbegun
    have hrun := run_withClient table (c := ⟨⟨table, request, attempts, generations⟩,
      Call.begin ⟨table, request, attempts, generations⟩⟩) moves hbegun
      (by rw [hself]; exact hc) (by rw [hdone]; rfl)
    rw [hself] at hrun
    refine ⟨hnone, ?_, ?_⟩
    · rw [hfilings, hnone]
      rfl
    · rw [hrun]
      rfl
  · rintro e rfl
    rcases hcases with ⟨-, hcontra⟩ | ⟨-, k, hk, hmeets, hcommitted⟩
    · exact absurd hcontra (Option.some_ne_none e)
    · refine ⟨k, hk, (Option.some.inj hcommitted).symm, hmeets, ?_⟩
      rw [hfilings, hk]
      exact List.append_nil _

/-- A start is about to write. -/
def firstComer : Traffic :=
  (idle (.holding "t" .append ["a"])).run "t"
    ([.enter (.start ["a"] ["b"] false) 5 2] ++ Move.answers 0 5 "1")

/-- A second start of the same source, which is forced, loses its first write to it. -/
def outrun : List Move := Move.answers 1 5 "2" ++ Move.answers 0 1 "" ++ Move.answers 1 1 ""

/-- In its second attempt it finds the registry out of order. -/
def outrunAndCut : List Move :=
  outrun ++ Move.answers 1 1 "" ++ [.proceed 1 ⟨"", "", some (.registry .listingUnavailable)⟩]

/-- In its second attempt it reverts the first one, whose target has been registered by then. -/
def outrunAndBack : List Move := outrun ++ [.add ["b"] true] ++ Move.answers 1 5 ""

theorem commits_fully_or_changes_nothing_outrun :
    let begun := firstComer.act "t" (.enter (.start ["a"] ["d"] true) 5 2)
    (commitsOf "t" 1 outrunAndCut begun = [] ∧
      filings "t" (Move.isAnswerTo 1) outrunAndCut begun = [] ∧
      (begun.run "t" outrunAndCut).site =
        (begun.run "t" (outrunAndCut.filter fun m => !m.isAnswerTo 1)).site) ∧
    ∃ k, commitsOf "t" 1 outrunAndBack begun = [k] ∧
      k.plan.entry = ⟨"2", ["a"], ["d"], .inProgress, ""⟩ ∧
      k.plan.Meets (.start ["a"] ["d"] true) ∧
      filings "t" (Move.isAnswerTo 1) outrunAndBack begun = k.requests "t" ∧
      filings "t" (Move.isAnswerTo 1) outrunAndBack begun =
        [⟨"t", "b", "force_cleanup_reverted:1"⟩] := by
  have hcut := commits_fully_or_changes_nothing "t" firstComer (.start ["a"] ["d"] true) 5 2
    outrunAndCut (rfl : _ = some _) rfl
  have hback := commits_fully_or_changes_nothing "t" firstComer (.start ["a"] ["d"] true) 5 2
    outrunAndBack (rfl : _ = some _) rfl
  obtain ⟨k, hk, hentry, hmeets, hfilings⟩ := hback.2 _ rfl
  exact ⟨hcut.1 _ rfl, k, hk, hentry, hmeets, hfilings, by decide +kernel⟩

end Traffic

end SegmentSwap
