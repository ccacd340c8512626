import SegmentSwap.Proofs.Deletion.Undone
import SegmentSwap.Proofs.Traffic.Advance
import SegmentSwap.Proofs.Traffic.Basis
import SegmentSwap.Protocol.Run

/-!
# Calls that nobody disturbs

A call that gets its answers one after the other, with nothing in between and all services in order,
needs one attempt: its write finds the record as it has been read. So the call returns what its
checks decide, and beside the record it leaves behind nothing but requests in the queue.
-/

namespace SegmentSwap

namespace Deletion.Queue

/-- The queue with requests behind all that waits. -/
def extended (q : Queue) (ds : List Deletion) : Queue :=
  { q with items := q.items ++ ds.map .request }

theorem extended_nil (q : Queue) : q.extended [] = q := by simp [extended]

theorem extended_append (q : Queue) (ds ds' : List Deletion) :
    q.extended (ds ++ ds') = (q.extended ds).extended ds' := by simp [extended]

theorem enqueue_batch (q : Queue) (table : Text) (b : Batch) :
    q.enqueue table b.segments b.reason = q.extended (b.requests table) := by
  simp [enqueue, extended, Batch.requests]

end Deletion.Queue

namespace Job

/-- The targets of an entry that a job minds, given the registry. -/
def obstacles (j : Job) (table : Text) (r : Registry) (e : Entry) : List Text :=
  e.targets.filter fun target => j.concerns (r.isAvailable table target)

/-- Why the end of an entry is turned down, given the registry. -/
def refusal? (j : Job) (table : Text) (r : Registry) (e : Entry) : Option Refusal :=
  let found := j.obstacles table r e
  match j with
  | .revert _ force =>
    if found.isEmpty || force then none else some (.uploaded found e.id table)
  | _ => if found.isEmpty then none else some (.notUploaded found e.id table)

end Job

namespace Call

variable {c : Call} {chance : Chance} {s : Site}

theorem run_step {σ : Type} {svc : Services σ} {c : Call} {phase next : Phase} {s s' : σ}
    (h : phase.result? = none) (hstep : step svc c phase s = (next, s')) :
    run svc c phase s = run svc c next s' := by
  conv_lhs => unfold run
  split
  · rename_i r hr
    rw [h] at hr
    cases hr
  · rw [hstep]

theorem run_done {σ : Type} (svc : Services σ) (c : Call) (r : Except Failure Entry) (s : σ) :
    run svc c (.done r) s = (r, s) := by
  unfold run
  split
  · rename_i r' hr
    cases hr
    rfl
  · rename_i hr
    cases hr

theorem begin_of_refused {sources targets : List Text} {force : Bool} {r : Refusal}
    (hrequest : c.request = .start sources targets force)
    (h : Check.request c.table sources targets = .error r) :
    c.begin = .done (.error (.refusal r)) := by
  unfold begin
  rw [hrequest]
  dsimp only
  rw [h]
  rfl

theorem begin_of_checked {sources targets : List Text} {force : Bool}
    (hrequest : c.request = .start sources targets force)
    (h : Check.request c.table sources targets = .ok ()) :
    c.begin = .minting sources targets force := by
  unfold begin
  rw [hrequest]
  dsimp only
  rw [h]

/-- What every answer preserves holds when the call has returned. -/
theorem run_invariant {σ : Type} {svc : Services σ} {c : Call} {P : Phase → σ → Prop}
    (hstep : ∀ phase s, P phase s → P (step svc c phase s).1 (step svc c phase s).2)
    {phase : Phase} {s : σ} (h : P phase s) :
    P (.done (run svc c phase s).1) (run svc c phase s).2 := by
  fun_induction run svc c phase s with
  | case1 phase s r hr =>
    cases phase <;> cases hr
    exact h
  | case2 phase s hr next ih => exact ih (hstep phase s h)

/-- After its commit a call queues its deletions and returns its entry. -/
theorem run_queue (c : Call) (chance : Chance) (e : Entry) (batches : List Batch) (s : Site) :
    run (Site.services chance) c (queue e batches) s = (.ok e,
      { s with queue := s.queue.extended (batches.flatMap (Batch.requests c.table)) }) := by
  induction batches generalizing s with
  | nil =>
    rw [List.flatMap_nil, Deletion.Queue.extended_nil]
    exact run_done _ c (.ok e) s
  | cons b rest ih =>
    rw [List.flatMap_cons, Deletion.Queue.extended_append, ← Deletion.Queue.enqueue_batch]
    unfold queue
    split
    · -- a batch without segments is passed over
      rename_i hempty
      have hsame : s.queue.enqueue c.table b.segments b.reason = s.queue := by
        rw [List.isEmpty_iff.mp hempty]
        exact Deletion.Queue.extended_nil s.queue
      rw [hsame]
      exact ih s
    · exact (run_step rfl rfl).trans
        (ih { s with queue := s.queue.enqueue c.table b.segments b.reason })

/-- A write to a record that still has its version takes effect, and the call returns. -/
theorem run_writing (c : Call) (chance : Chance) (a : Attempt) (plan : Plan) {s : Site}
    (hagree : Version.agree (s.memory.version? plan.lineage.table) plan.expected = true) :
    run (Site.services chance) c (.writing a plan) s = (.ok plan.entry,
      { s with
        memory := s.memory.put plan.lineage (.next plan.expected)
        queue := s.queue.extended (plan.deletions.flatMap (Batch.requests c.table)) }) := by
  have hstep := Site.step_of_agree chance c a hagree
  exact (run_step rfl hstep).trans (run_queue c chance plan.entry plan.deletions _)

/-- A plan that comes from the record as it stands is written. -/
theorem run_planned (c : Call) (chance : Chance) (a : Attempt) {plan : Plan} {s : Site}
    (hexpected : plan.expected = (s.memory.read c.table).version?)
    (htable : plan.lineage.table = c.table) :
    run (Site.services chance) c (.writing a plan) s = (.ok plan.entry,
      { s with
        memory := s.memory.put plan.lineage (.next plan.expected)
        queue := s.queue.extended (plan.deletions.flatMap (Batch.requests c.table)) }) := by
  refine run_writing c chance a plan ?_
  rw [hexpected, htable, Memory.version?_eq]
  exact Version.agree_iff.mpr rfl

/-- When all targets have been looked at, the end of an entry goes on or is turned down. -/
theorem judge_obstacles (c : Call) (a : Attempt) (read : Versioned) (e : Entry) (r : Registry) :
    c.judge a read e (a.job.obstacles c.table r e) =
      match a.job.refusal? c.table r e with
      | none => .closing a read e
      | some refusal => refuse refusal := by
  unfold judge Job.refusal?
  cases a.job <;> dsimp only <;> split <;> rfl

section Answered

variable (hup : chance.outage? = none)

include hup

theorem answer_of_up {α : Type} (x : α) : chance.answer x = .ok x := by
  unfold Chance.answer
  rw [hup]

theorem step_configuring (id : Text) (sources targets : List Text) (force : Bool) :
    step (Site.services chance) c (.configuring id sources targets force) s =
      (.reading ⟨.start ⟨id, s.modes.of c.table⟩ sources targets force, 1⟩, s) := by
  show (afterMode id sources targets force (chance.answer (s.modes.of c.table)), s) = _
  rw [answer_of_up hup]
  rfl

theorem step_reading (a : Attempt) : step (Site.services chance) c (.reading a) s =
    (c.afterRead a (.ok (s.memory.read c.table)), s) := by
  rw [Site.step_reading, answer_of_up hup]

theorem step_surveying (a : Attempt) (ticket : Ticket) (sources targets : List Text) (force : Bool)
    (read : Versioned) :
    step (Site.services chance) c (.surveying a ticket sources targets force read) s =
      (c.afterSurvey a ticket sources targets force read (.ok (s.registry.segments c.table)), s) := by
  show (c.afterSurvey a ticket sources targets force read
    (chance.answer (s.registry.segments c.table)), s) = _
  rw [answer_of_up hup]

/-- A well-shaped start gets as far as its checks against the record and the registered segments. -/
theorem answer_surveying {sources targets : List Text} {force : Bool}
    (hrequest : c.request = .start sources targets force) (hshape : WellShaped sources targets) :
    c.answer (Site.services chance) s = run (Site.services chance) c
      (.surveying ⟨.start ⟨chance.id, s.modes.of c.table⟩ sources targets force, 1⟩
        ⟨chance.id, s.modes.of c.table⟩ sources targets force (s.memory.read c.table)) s := by
  calc c.answer (Site.services chance) s
      = run (Site.services chance) c (.minting sources targets force) s := by
        rw [answer, begin_of_checked hrequest (Check.request_eq_ok_iff.mpr hshape)]
    _ = run _ c (.configuring chance.id sources targets force) s := run_step rfl rfl
    _ = run _ c (.reading _) s := run_step rfl (step_configuring hup _ _ _ _)
    _ = _ := run_step rfl (step_reading hup _)

/-- A start that passes its checks succeeds if its id is new. -/
theorem answer_start {sources targets : List Text} {force : Bool}
    (hrequest : c.request = .start sources targets force) (hshape : WellShaped sources targets)
    (hrecord : (s.memory.read c.table).lineage.table = c.table)
    (hcheck : c.checkStart sources targets force (s.memory.read c.table).lineage
      (s.registry.segments c.table) = .ok ())
    (hid : chance.id ∉ (s.memory.read c.table).lineage.ids) :
    ∃ plan q, c.StartPlan ⟨chance.id, s.modes.of c.table⟩ sources targets
        (s.memory.read c.table) (s.registry.segments c.table) chance.stamp plan ∧
      c.answer (Site.services chance) s = (.ok plan.entry,
        { s with memory := s.memory.put plan.lineage (.next plan.expected), queue := q }) := by
  set ticket : Ticket := ⟨chance.id, s.modes.of c.table⟩ with hticket
  set read := s.memory.read c.table with hread
  set listed := s.registry.segments c.table with hlisted
  let a : Attempt := ⟨.start ticket sources targets force, 1⟩
  rcases planStart_cases c ticket sources targets read listed chance.stamp with
    ⟨htaken, -⟩ | ⟨-, plan, hok, hplan⟩
  · exact absurd htaken hid
  have hsurvey : step (Site.services chance) c
      (.surveying a ticket sources targets force read) s =
        (.dating a ticket sources targets read listed, s) := by
    rw [step_surveying hup]
    unfold afterSurvey
    dsimp only
    rw [hcheck]
  have hdate : step (Site.services chance) c (.dating a ticket sources targets read listed) s =
      (.writing a plan, s) := by
    show (c.afterDate a ticket sources targets read listed chance.stamp, s) = _
    unfold afterDate
    rw [hok]
  have hrun := run_planned c chance a hplan.expected (hplan.table.trans hrecord)
  refine ⟨plan, s.queue.extended (plan.deletions.flatMap (Batch.requests c.table)), hplan, ?_⟩
  calc c.answer (Site.services chance) s
      = run _ c (.surveying a ticket sources targets force read) s :=
        answer_surveying hup hrequest hshape
    _ = run _ c (.dating a ticket sources targets read listed) s :=
      run_step rfl hsurvey
    _ = run _ c (.writing a plan) s := run_step rfl hdate
    _ = _ := hrun

/-- The end of an entry looks at all targets before it goes on. -/
theorem run_probe (a : Attempt) (read : Versioned) (e : Entry) (left found : List Text) :
    run (Site.services chance) c (c.probe a read e left found) s =
      run (Site.services chance) c (c.judge a read e (found ++ left.filter fun target =>
        a.job.concerns (s.registry.isAvailable c.table target))) s := by
  induction left generalizing found with
  | nil => rw [List.filter_nil, List.append_nil]; rfl
  | cons next rest ih =>
    have hstep : step (Site.services chance) c (.probing a read e next rest found) s =
        (c.afterProbe a read e next rest found (.ok (s.registry.isAvailable c.table next)), s) := by
      show (c.afterProbe a read e next rest found (chance.answer _), s) = _
      rw [answer_of_up hup]
    refine (run_step rfl hstep).trans ((ih _).trans ?_)
    rw [List.filter_cons]
    split
    · rw [List.append_assoc]
      rfl
    · rfl

variable {j : Job} {e : Entry} (hrequest : c.request = j.request) (hid : j.entry? = some e.id)
  (he : e ∈ (s.memory.read c.table).lineage.running)

include hrequest hid he

/-- The end of an entry in progress gets as far as the judgement on its targets. -/
theorem answer_judge : c.answer (Site.services chance) s = run (Site.services chance) c
    (c.judge ⟨j, 1⟩ (s.memory.read c.table) e (j.obstacles c.table s.registry e)) s := by
  set read := s.memory.read c.table with hread
  let a : Attempt := ⟨j, 1⟩
  obtain ⟨hmem, hstate⟩ := Lineage.mem_running.mp he
  have hmovable : Check.movable e a.job.goal = .ok () :=
    Check.movable_eq_ok_iff.mpr ⟨hstate, Job.goal_of_entry? hid⟩
  have hfound : c.lookUp a read e.id = c.probe a read e e.targets [] := by
    unfold lookUp
    rw [Check.known_eq_ok_iff.mpr ⟨hmem, rfl⟩]
    dsimp only
    rw [hmovable]
  have hbegin : c.begin = .reading a := by
    unfold begin
    rw [hrequest]
    cases j with
    | start => cases hid
    | finish | revert => rfl
  have hlook : step (Site.services chance) c (.reading a) s =
      (c.probe a read e e.targets [], s) := by
    rw [step_reading hup, ← hfound]
    cases j with
    | start => cases hid
    | finish | revert =>
      obtain rfl := Option.some.inj hid
      rfl
  calc c.answer (Site.services chance) s
      = run (Site.services chance) c (.reading a) s := by rw [answer, hbegin]
    _ = run _ c (c.probe a read e e.targets []) s := run_step rfl hlook
    _ = run _ c (c.judge a read e (a.job.obstacles c.table s.registry e)) s :=
      run_probe hup a read e e.targets []

/-- The end of an entry in progress that its targets stand against changes nothing. -/
theorem answer_end_refused {r : Refusal} (hrefused : j.refusal? c.table s.registry e = some r) :
    c.answer (Site.services chance) s = (.error (.refusal r), s) := by
  have hjudge := c.judge_obstacles ⟨j, 1⟩ (s.memory.read c.table) e s.registry
  rw [hrefused] at hjudge
  rw [answer_judge hup hrequest hid he, hjudge]
  exact run_done _ c _ s

/-- The end of an entry in progress that nothing stands against succeeds. -/
theorem answer_end (hrecord : (s.memory.read c.table).lineage.table = c.table)
    (hfree : j.refusal? c.table s.registry e = none) :
    ∃ plan, EndPlan j (s.memory.read c.table) e chance.stamp plan ∧
      c.answer (Site.services chance) s = (.ok plan.entry,
        { s with
          memory := s.memory.put plan.lineage (.next plan.expected)
          queue := s.queue.extended ((endDeletions j plan (s.registry.segments c.table)).flatMap
            (Batch.requests c.table)) }) := by
  set read := s.memory.read c.table with hread
  let a : Attempt := ⟨j, 1⟩
  have hjudge := c.judge_obstacles a read e s.registry
  rw [show a.job.refusal? c.table s.registry e = none from hfree] at hjudge
  obtain ⟨plan, hok, hplan⟩ := planEnd_running chance.stamp he (Job.goal_of_entry? hid)
  have hclose : step (Site.services chance) c (.closing a read e) s = (.auditing a plan, s) := by
    show (afterClose a read e chance.stamp, s) = _
    unfold afterClose
    rw [hok]
  let final : Plan :=
    { plan with deletions := endDeletions j plan (s.registry.segments c.table) }
  have haudit : step (Site.services chance) c (.auditing a plan) s = (.writing a final, s) := by
    show (afterAudit a plan (chance.answer (s.registry.segments c.table)), s) = _
    rw [answer_of_up hup]
    rfl
  have hexpected : final.expected = (s.memory.read c.table).version? := hplan.expected
  have htable : final.lineage.table = c.table := hplan.table.trans hrecord
  refine ⟨plan, hplan, ?_⟩
  calc c.answer (Site.services chance) s
      = run (Site.services chance) c (.closing a read e) s := by
        rw [answer_judge hup hrequest hid he]
        exact congrArg (run _ c · s) hjudge
    _ = run _ c (.auditing a plan) s := run_step rfl hclose
    _ = run _ c (.writing a final) s := run_step rfl haudit
    _ = _ := run_planned c chance a hexpected htable

omit hrequest hid he

/-- A forced reversal of an entry in progress succeeds. -/
theorem answer_revert {e : Entry} (hrequest : c.request = .revert e.id true)
    (hrecord : (s.memory.read c.table).lineage.table = c.table)
    (he : e ∈ (s.memory.read c.table).lineage.running) :
    ∃ plan q, EndPlan (.revert e.id true) (s.memory.read c.table) e chance.stamp plan ∧
      c.answer (Site.services chance) s = (.ok plan.entry,
        { s with memory := s.memory.put plan.lineage (.next plan.expected), queue := q }) := by
  have hfree : (Job.revert e.id true).refusal? c.table s.registry e = none := by
    simp [Job.refusal?]
  obtain ⟨plan, hplan, hanswer⟩ :=
    answer_end (j := .revert e.id true) hup hrequest rfl he hrecord hfree
  exact ⟨plan, _, hplan, hanswer⟩

end Answered

end Call

end SegmentSwap
