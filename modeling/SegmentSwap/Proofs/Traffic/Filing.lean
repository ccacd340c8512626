import SegmentSwap.Proofs.Deletion.Undone
import SegmentSwap.Proofs.Traffic.Commits

/-!
# Requests that are put on the queue

What a move puts on the deletion queue is told from the queue alone, by what stands behind the
requests that have waited before. Only answers to calls put anything there. Over a whole run a call
has put there, or has still to put there, exactly what its commits have planned to delete.
-/

namespace SegmentSwap

/-- Whether a move is an answer to a call. -/
def Move.isAnswerTo (client : Nat) : Move → Bool
  | .proceed other _ => other == client
  | _ => false

theorem Move.isAnswerTo_iff {client : Nat} {m : Move} :
    m.isAnswerTo client = true ↔ ∃ chance, m = .proceed client chance := by
  constructor
  · intro h
    cases m with
    | proceed other chance =>
      obtain rfl : other = client := by simpa [isAnswerTo] using h
      exact ⟨chance, rfl⟩
    | _ => cases h
  · rintro ⟨chance, rfl⟩
    simp [isAnswerTo]

theorem Move.ne_proceed_of_isAnswerTo {client : Nat} {m : Move} (h : m.isAnswerTo client = false) :
    ∀ chance, m ≠ .proceed client chance := by
  intro chance heq
  rw [isAnswerTo_iff.mpr ⟨chance, heq⟩] at h
  exact Bool.noConfusion h

namespace Deletion.Queue

variable {q q' : Queue} {worker : Nat} {item : Item}

theorem pending_start (q : Queue) : q.start.pending = q.pending := by
  unfold start
  split <;> rfl

theorem pending_requestStop (q : Queue) : q.requestStop.2.pending = q.pending := by
  unfold requestStop
  split
  · rfl
  · simp [pending]

theorem pending_finish (q : Queue) (worker : Nat) : (q.finish worker).pending = q.pending := by
  unfold finish
  split <;> rfl

theorem length_pending_take (h : q.take worker = some (item, q')) :
    q'.pending.length ≤ q.pending.length := by
  unfold take at h
  split at h
  · rename_i d rest _ hitems
    cases h
    simp only [pending, setActivity, hitems, List.filterMap_cons, List.length_cons]
    omega
  · rename_i rest _ hitems
    cases h
    simp only [pending, setActivity, hitems, List.filterMap_cons]
    omega
  · cases h

theorem length_pending_takeForDrain (q : Queue) :
    q.takeForDrain.2.pending.length ≤ q.pending.length := by
  unfold takeForDrain
  split
  · exact Nat.le_refl _
  · rename_i rest hitems
    simp [pending, hitems, List.filterMap_append]
  · rename_i d rest hitems
    simp only [pending, hitems, List.filterMap_cons, List.length_cons]
    omega

end Deletion.Queue

namespace Traffic

/-- The requests that a move puts on the queue: what stands there behind all that has waited. -/
def filed (table : Text) (t : Traffic) (m : Move) : List Deletion :=
  (t.act table m).site.queue.pending.drop t.site.queue.pending.length

/-- The requests that some of the moves of a run put on the queue, one after the other. -/
def filings (table : Text) (counted : Move → Bool) : List Move → Traffic → List Deletion
  | [], _ => []
  | m :: moves, t =>
    (if counted m then t.filed table m else []) ++ filings table counted moves (t.act table m)

variable {table : Text} {t : Traffic} {m : Move} {client : Nat} {chance : Chance} {c : Client}

theorem filed_of_pending (h : (t.act table m).site.queue.pending.length ≤
    t.site.queue.pending.length) : t.filed table m = [] :=
  List.drop_eq_nil_of_le h

/-- A call that queues its first batch puts the requests of this batch on the queue. -/
theorem filed_order {e : Entry} {b : Batch} {rest : List Batch} (hc : t.clients[client]? = some c)
    (hphase : c.phase = .queueing e b rest) :
    t.filed table (.proceed client chance) = b.requests c.call.table := by
  have hqueue : (t.proceed client chance).site.queue =
      t.site.queue.enqueue c.call.table b.segments b.reason := by
    unfold proceed
    rw [hc]
    dsimp only
    rw [hphase]
    rfl
  show (t.proceed client chance).site.queue.pending.drop t.site.queue.pending.length = _
  rw [hqueue, Deletion.Queue.pending_enqueue, List.drop_left]
  rfl

/-- All other answers put nothing on the queue. -/
theorem filed_look
    (h : ∀ c, t.clients[client]? = some c → ∀ e b rest, c.phase ≠ .queueing e b rest) :
    t.filed table (.proceed client chance) = [] := by
  have hqueue : (t.proceed client chance).site.queue = t.site.queue := by
    have hp := t.proceeds client chance
    generalize t.proceed client chance = t' at hp ⊢
    cases hp with
    | order hc hphase => exact absurd hphase (h _ hc _ _ _)
    | _ => rfl
  exact filed_of_pending (Nat.le_of_eq (congrArg (·.pending.length) hqueue))

/-- Whoever is no call puts nothing on the queue. -/
theorem filed_frame (h : ∀ client chance, m ≠ .proceed client chance) : t.filed table m = [] := by
  refine filed_of_pending ?_
  cases m with
  | proceed client chance => exact absurd rfl (h client chance)
  | place segment =>
    unfold act
    dsimp only
    split <;> exact Nat.le_refl _
  | startWorker => exact Nat.le_of_eq (congrArg _ (Deletion.Queue.pending_start _))
  | requestStop => exact Nat.le_of_eq (congrArg _ (Deletion.Queue.pending_requestStop _))
  | take worker =>
    unfold act
    dsimp only
    split
    · rename_i item q hq
      exact Deletion.Queue.length_pending_take hq
    · exact Nat.le_refl _
  | work worker succeeds =>
    unfold act Site.work Site.delete
    dsimp only
    split
    · split <;> exact Nat.le_of_eq (congrArg _ (Deletion.Queue.pending_finish _ _))
    · exact Nat.le_refl _
  | draw =>
    have hdraw := t.site.queue.length_pending_takeForDrain
    unfold act Site.draw
    dsimp only
    split
    · rename_i d q hq
      rw [hq] at hdraw
      exact hdraw
    · rename_i q hq
      rw [hq] at hdraw
      exact hdraw
  | settle position succeeds =>
    unfold act Site.settle Site.delete
    dsimp only
    split
    · split <;> exact Nat.le_refl _
    · exact Nat.le_refl _
  | _ => exact Nat.le_refl _

/-- What a call has still to put on the queue. -/
def owed (table : Text) (client : Nat) (t : Traffic) : List Deletion :=
  match t.clients[client]? with
  | some c => c.phase.ordered table
  | none => []

theorem owed_of_some (hc : t.clients[client]? = some c) :
    t.owed table client = c.phase.ordered table := by
  unfold owed
  rw [hc]

theorem owed_of_none (hc : t.clients[client]? = none) : t.owed table client = [] := by
  unfold owed
  rw [hc]

end Traffic

/-- The requests that a commit leads to. -/
def Commit.requests (table : Text) (k : Commit) : List Deletion :=
  k.plan.deletions.flatMap (Batch.requests table)

theorem Call.ordered_begin (c : Call) (table : Text) : c.begin.ordered table = [] := by
  unfold Call.begin
  split
  · split <;> rfl
  · rfl
  · rfl

theorem Call.Loses.ordered {chance : Chance} {c : Call} {a : Attempt} {next : Phase}
    (h : c.Loses chance a next) (table : Text) : next.ordered table = [] := by
  cases h <;> rfl

namespace Traffic

variable {table : Text} {t : Traffic} {m : Move} {client : Nat} {chance : Chance} {c : Client}
  {k : Commit}

theorem commit?_absent (hc : t.clients[client]? = none) :
    t.commit? (.proceed client chance) = none := by
  unfold commit?
  dsimp only
  rw [hc]

/-- A call that is not about to commit commits nothing. -/
theorem commit?_of_not_writing (hc : t.clients[client]? = some c)
    (hphase : ∀ a plan, c.phase ≠ .writing a plan) :
    t.commit? (.proceed client chance) = none := by
  cases hk : t.commit? (.proceed client chance) with
  | none => rfl
  | some k =>
    obtain ⟨chance', c', hm, hc', hwriting, -⟩ := commit?_eq_some hk
    obtain ⟨rfl, rfl⟩ := Move.proceed.inj hm
    rw [hc] at hc'
    obtain rfl := Option.some.inj hc'
    exact absurd hwriting (hphase _ _)

theorem step_of_lost {a : Attempt} {plan : Plan} (hc : t.clients[client]? = some c)
    (hphase : c.phase = .writing a plan) (hk : t.commit? (.proceed client chance) = none) :
    ∃ next, c.call.Loses chance a next ∧
      Call.step (Site.services chance) c.call c.phase t.site = (next, t.site) := by
  have hstale : ¬ Version.agree (t.site.memory.version? plan.lineage.table)
      plan.expected = true := by
    intro hagree
    rw [commit?_of_writing chance hc hphase hagree] at hk
    exact absurd hk (Option.some_ne_none _)
  rw [hphase]
  exact Site.step_of_stale chance c.call a hstale

/-- The next phase of a call whose write takes effect. -/
theorem step_of_commit (hc : t.clients[client]? = some c)
    (hk : t.commit? (.proceed client chance) = some k) :
    k.client = client ∧ c.phase = .writing k.attempt k.plan ∧
      (Call.step (Site.services chance) c.call c.phase t.site).1 =
        Call.queue k.plan.entry k.plan.deletions := by
  obtain ⟨chance', c', hm, hc', hphase, hagree⟩ := commit?_eq_some hk
  obtain ⟨rfl, rfl⟩ := Move.proceed.inj hm
  rw [hc] at hc'
  obtain rfl := Option.some.inj hc'
  refine ⟨rfl, hphase, ?_⟩
  rw [hphase, Site.step_of_agree chance c.call k.attempt hagree]

/-- With an answer to a call its requests move on: from a commit to what the call owes, and from
there to the queue. -/
theorem filed_proceed (client : Nat) (chance : Chance)
    (hcall : ∀ c, t.clients[client]? = some c → c.call.table = table) :
    t.filed table (.proceed client chance) ++ (t.proceed client chance).owed table client =
      t.owed table client ++
        (t.commit? (.proceed client chance)).toList.flatMap (Commit.requests table) := by
  cases hc : t.clients[client]? with
  | none =>
    have hfiled : t.filed table (.proceed client chance) = [] := by
      refine filed_look fun c hsome => ?_
      rw [hc] at hsome
      exact absurd hsome.symm (Option.some_ne_none c)
    rw [hfiled, proceed_absent chance hc, owed_of_none hc, commit?_absent hc]
    rfl
  | some c =>
    rw [owed_of_some (getElem?_proceed_self chance hc), owed_of_some hc]
    dsimp only
    have hunique : ∀ c', t.clients[client]? = some c' → c' = c := by
      intro c' hc'
      rw [hc] at hc'
      exact (Option.some.inj hc').symm
    by_cases hqueue : ∃ e b rest, c.phase = .queueing e b rest
    · obtain ⟨e, b, rest, hphase⟩ := hqueue
      have hnone : t.commit? (.proceed client chance) = none := by
        refine commit?_of_not_writing hc fun a plan hwriting => ?_
        rw [hphase] at hwriting
        exact Phase.noConfusion hwriting
      rw [filed_order hc hphase, hnone, hcall c hc, hphase]
      show b.requests table ++ (Call.queue e rest).ordered table = _
      rw [Call.ordered_queue]
      exact (List.append_nil _).symm
    · have hnot : ∀ e b rest, c.phase ≠ .queueing e b rest := by
        intro e b rest hphase
        exact hqueue ⟨e, b, rest, hphase⟩
      have hfiled : t.filed table (.proceed client chance) = [] := by
        refine filed_look fun c' hc' => ?_
        rw [hunique c' hc']
        exact hnot
      rw [hfiled, List.nil_append]
      cases hk : t.commit? (.proceed client chance) with
      | some k =>
        obtain ⟨-, hphase, hnext⟩ := step_of_commit hc hk
        rw [hnext, Call.ordered_queue, hphase]
        exact (List.append_nil _).symm
      | none =>
        by_cases hwriting : ∃ a plan, c.phase = .writing a plan
        · obtain ⟨a, plan, hphase⟩ := hwriting
          obtain ⟨next, hnext, hstep⟩ := step_of_lost hc hphase hk
          rw [hstep, hphase]
          exact hnext.ordered table
        · have hlook := Phase.ordered_step chance c.call t.site table
            (fun a plan hphase => hwriting ⟨a, plan, hphase⟩) hnot
          rw [hlook.1, hlook.2]
          rfl

/-- A call that was not there has just begun. -/
theorem begun_of_new (hc : t.clients[client]? = none)
    (hnext : (t.act table m).clients[client]? = some c) :
    c.call.table = table ∧ c.phase = c.call.begin := by
  have hlength : t.clients.length ≤ client := List.getElem?_eq_none_iff.mp hc
  cases m with
  | enter request attempts generations =>
    have hnext : (t.clients ++ [_])[client]? = some c := hnext
    rw [List.getElem?_append_right hlength] at hnext
    obtain rfl := List.mem_singleton.mp (List.mem_of_getElem? hnext)
    exact ⟨rfl, rfl⟩
  | proceed other chance =>
    have hnext : (t.proceed other chance).clients[client]? = some c := hnext
    have hsame : (t.proceed other chance).clients.length = t.clients.length := by
      unfold proceed
      split
      · rfl
      · exact List.length_set
    rw [List.getElem?_eq_none (by rw [hsame]; exact hlength)] at hnext
    exact absurd hnext.symm (Option.some_ne_none c)
  | drop => exact absurd (hc.symm.trans hnext).symm (Option.some_ne_none c)
  | _ =>
    rw [(act_frame table t (fun _ _ h => by cases h) (fun _ _ _ h => by cases h) rfl).2.2, hc]
      at hnext
    exact absurd hnext.symm (Option.some_ne_none c)

/-- Nothing else changes what a call owes. -/
theorem owed_act (hm : m.isAnswerTo client = false) :
    (t.act table m).owed table client = t.owed table client := by
  have hother := Move.ne_proceed_of_isAnswerTo hm
  cases hc : t.clients[client]? with
  | some c => rw [owed_of_some hc, owed_of_some (getElem?_act_of_ne hc hother)]
  | none =>
    rw [owed_of_none hc]
    cases hnext : (t.act table m).clients[client]? with
    | none => exact owed_of_none hnext
    | some c => rw [owed_of_some hnext, (begun_of_new hc hnext).2, Call.ordered_begin]

/-- The commits of one call in a run. -/
def commitsOf (table : Text) (client : Nat) (moves : List Move) (t : Traffic) : List Commit :=
  (commits table moves t).filter (·.client == client)

theorem commitsOf_cons (m : Move) (moves : List Move) (t : Traffic) :
    commitsOf table client (m :: moves) t =
      (if m.isAnswerTo client then (t.commit? m).toList else []) ++
        commitsOf table client moves (t.act table m) := by
  unfold commitsOf
  rw [commits, List.filter_append]
  congr 1
  cases hk : t.commit? m with
  | none => split <;> rfl
  | some k =>
    obtain ⟨chance, c, rfl, -⟩ := commit?_eq_some hk
    show [k].filter (·.client == client) = if k.client == client then [k] else []
    rw [List.filter_cons, List.filter_nil]

theorem call_table_act (hcall : ∀ c, t.clients[client]? = some c → c.call.table = table)
    (hc : (t.act table m).clients[client]? = some c) : c.call.table = table := by
  cases hold : t.clients[client]? with
  | none => exact (begun_of_new hold hc).1
  | some old =>
    by_cases hown : ∃ chance, m = .proceed client chance
    · obtain ⟨chance, rfl⟩ := hown
      have hnext : (t.proceed client chance).clients[client]? = some c := hc
      rw [getElem?_proceed_self chance hold] at hnext
      rw [← Option.some.inj hnext]
      exact hcall old hold
    · rw [getElem?_act_of_ne hold (not_exists.mp hown)] at hc
      rw [← Option.some.inj hc]
      exact hcall old hold

/-- What a call has put on the queue and has still to put there is what it owed before and what its
commits have planned to delete. -/
theorem filings_of_client (table : Text) (client : Nat) (t : Traffic) (moves : List Move)
    (hcall : ∀ c, t.clients[client]? = some c → c.call.table = table) :
    filings table (Move.isAnswerTo client) moves t ++ (t.run table moves).owed table client =
      t.owed table client ++ (commitsOf table client moves t).flatMap (Commit.requests table) := by
  induction moves generalizing t with
  | nil =>
    show [] ++ t.owed table client = t.owed table client ++ []
    rw [List.append_nil, List.nil_append]
  | cons m moves ih =>
    have hnext : ∀ c, (t.act table m).clients[client]? = some c → c.call.table = table :=
      fun c hc => call_table_act hcall hc
    have hrest := ih (t.act table m) hnext
    rw [commitsOf_cons, List.flatMap_append, filings, List.append_assoc]
    change _ ++ (filings table _ moves (t.act table m) ++
      ((t.act table m).run table moves).owed table client) = _
    rw [hrest, ← List.append_assoc, ← List.append_assoc]
    congr 1
    cases hm : m.isAnswerTo client with
    | false =>
      rw [owed_act hm]
      exact (List.append_nil _).symm
    | true =>
      obtain ⟨chance, rfl⟩ := Move.isAnswerTo_iff.mp hm
      exact filed_proceed client chance hcall

/-! ## All calls together -/

/-- What all calls have still to put on the queue. -/
def owing (table : Text) (t : Traffic) : List Deletion :=
  t.clients.flatMap fun c => c.phase.ordered table

/-- What a move puts on the queue comes from what is owed, and a commit adds to what is owed. -/
theorem filed_owing (m : Move) (hcall : ∀ c ∈ t.clients, c.call.table = table) :
    (t.filed table m ++ (t.act table m).owing table).Perm
      (t.owing table ++ (t.commit? m).toList.flatMap (Commit.requests table)) := by
  by_cases hproceed : ∃ client chance, m = .proceed client chance
  · obtain ⟨client, chance, rfl⟩ := hproceed
    have hstep := filed_proceed client chance fun c hc => hcall c (List.mem_of_getElem? hc)
    show (t.filed table (.proceed client chance) ++
      (t.proceed client chance).owing table).Perm _
    cases hc : t.clients[client]? with
    | none =>
      rw [proceed_absent chance hc, owed_of_none hc, List.append_nil, List.nil_append] at hstep
      rw [hstep, proceed_absent chance hc]
      exact List.perm_append_comm
    | some c =>
      -- the call that moves is taken out of all that is owed, before and after
      have hbefore := flatMap_perm (fun c : Client => c.phase.ordered table) hc
      have hafter := flatMap_set_perm (fun c : Client => c.phase.ordered table) hc
        ⟨c.call, (Call.step (Site.services chance) c.call c.phase t.site).1⟩
      rw [← clients_proceed chance hc] at hafter
      rw [owed_of_some (getElem?_proceed_self chance hc), owed_of_some hc] at hstep
      refine List.perm_iff_count.mpr fun d => ?_
      have hstep := congrArg (List.count d) hstep
      have hbefore := hbefore.count_eq d
      have hafter := hafter.count_eq d
      simp only [owing, List.count_append] at hstep hbefore hafter ⊢
      omega
  · have hother : ∀ client chance, m ≠ .proceed client chance := fun client chance heq =>
      hproceed ⟨client, chance, heq⟩
    have hnone : t.commit? m = none := by
      cases m with
      | proceed client chance => exact absurd rfl (hother client chance)
      | _ => rfl
    have howing : (t.act table m).owing table = t.owing table := by
      cases m with
      | enter request attempts generations =>
        show (t.clients ++ [_]).flatMap _ = t.clients.flatMap _
        rw [List.flatMap_append, List.flatMap_singleton, Call.ordered_begin, List.append_nil]
      | drop => rfl
      | _ =>
        unfold owing
        rw [(act_frame table t hother (fun _ _ _ h => by cases h) rfl).2.2]
    rw [filed_frame hother, hnone, howing]
    exact List.Perm.of_eq (List.append_nil _).symm

/-- What has been put on the queue and is still owed is what was owed before and what all commits
have planned to delete. -/
theorem filings_all (table : Text) (t : Traffic) (moves : List Move)
    (hcall : ∀ c ∈ t.clients, c.call.table = table) :
    (filings table (fun _ => true) moves t ++ (t.run table moves).owing table).Perm
      (t.owing table ++ (commits table moves t).flatMap (Commit.requests table)) := by
  induction moves generalizing t with
  | nil => exact List.Perm.of_eq (List.append_nil _).symm
  | cons m moves ih =>
    have hnext : ∀ c ∈ (t.act table m).clients, c.call.table = table := by
      intro c hc
      obtain ⟨client, hclient⟩ := List.getElem?_of_mem hc
      exact call_table_act (fun old hold => hcall old (List.mem_of_getElem? hold)) hclient
    have hstep := filed_owing m hcall
    have hrest := ih (t.act table m) hnext
    show ((t.filed table m ++ filings table (fun _ => true) moves (t.act table m)) ++
      ((t.act table m).run table moves).owing table).Perm _
    rw [commits, List.flatMap_append, List.append_assoc, ← List.append_assoc (t.owing table)]
    refine (hrest.append_left _).trans ?_
    rw [← List.append_assoc]
    exact hstep.append_right _

end Traffic

end SegmentSwap
