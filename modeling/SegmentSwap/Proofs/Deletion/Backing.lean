import SegmentSwap.Proofs.Deletion.Balance
import SegmentSwap.Proofs.Deletion.Undone
import SegmentSwap.Proofs.Traffic.Sound

/-!
# What calls rely on

Between the moment when a call looks at a segment and its write the segment may be deleted, unless
something keeps it. What the call relies on is needed by the record that it has read, so nobody
deletes it while this record stands; and once the record is another one, the write is lost. Here it
is said phase by phase what a call relies on.
-/

namespace SegmentSwap

/-- A name that a start may claim for a target. -/
structure Free (l : Lineage) (doomed : List Text) (s : Text) : Prop where
  spared : s ∉ doomed
  unused : ∀ e ∈ l.running, s ∉ e.sources

/-- What the write of a plan relies on. -/
structure Plan.Backed (held free : Text → Prop) (j : Job) (plan : Plan) : Prop where
  deletions : ∀ b ∈ plan.deletions, ∀ s ∈ b.segments, held s
  completed : j.goal = .completed → ∀ s ∈ plan.entry.targets, held s
  started : j.goal = .inProgress →
    (∀ s ∈ plan.entry.sources, held s) ∧ ∀ s ∈ plan.entry.targets, free s

namespace Phase

/-- What a call relies on in a phase. -/
def Backed (held free : Text → Prop) : Phase → Prop
  | .dating _ _ sources targets read registered =>
    (∀ s ∈ sources, held s) ∧
      (∀ e ∈ read.lineage.rivals sources, ∀ s ∈ e.targets, s ∈ registered → held s) ∧
      ∀ s ∈ targets, free s
  | .probing a _ e next rest found =>
    a.job.goal = .completed → ∀ s ∈ e.targets, s ∈ next :: rest ∨ s ∈ found ∨ held s
  | .closing a _ e => a.job.goal = .completed → ∀ s ∈ e.targets, held s
  | .auditing a plan => a.job.goal = .completed → ∀ s ∈ plan.entry.targets, held s
  | .writing a plan => plan.Backed held free a.job
  | _ => True

/-- The version that the write of a call is going to depend on, once it has been read. -/
def basis? : Phase → Option (Option Version)
  | .surveying _ _ _ _ _ read => some read.version?
  | .dating _ _ _ _ read _ => some read.version?
  | .probing _ read _ _ _ _ => some read.version?
  | .closing _ read _ => some read.version?
  | .auditing _ plan => some plan.expected
  | .writing _ plan => some plan.expected
  | _ => none

/-- The write of the call is not bound to be lost. -/
def Fresh (current : Option Version) (phase : Phase) : Prop :=
  ∀ v, phase.basis? = some v → Version.agree current v = true

theorem fresh_of_basis {phase : Phase} {v current : Option Version} (hbasis : phase.basis? = some v)
    (hagree : Version.agree current v = true) : phase.Fresh current := by
  intro w hw
  rw [hbasis] at hw
  rw [← Option.some.inj hw]
  exact hagree

variable {held held' free free' : Text → Prop} {c : Call} {a : Attempt} {read : Versioned}
  {e : Entry}

theorem Backed.mono (hheld : ∀ s, held s → held' s) (hfree : ∀ s, free s → free' s)
    {phase : Phase} (h : phase.Backed held free) : phase.Backed held' free' := by
  cases phase with
  | dating =>
    exact ⟨fun s hs => hheld s (h.1 s hs), fun e he s hs hr => hheld s (h.2.1 e he s hs hr),
      fun s hs => hfree s (h.2.2 s hs)⟩
  | probing => exact fun hg s hs => (h hg s hs).imp_right (Or.imp_right (hheld s))
  | closing | auditing => exact fun hg s hs => hheld s (h hg s hs)
  | writing =>
    refine ⟨fun b hb s hs => hheld s (h.deletions b hb s hs),
      fun hg s hs => hheld s (h.completed hg s hs), fun hg => ⟨fun s hs => ?_, fun s hs => ?_⟩⟩
    · exact hheld s ((h.started hg).1 s hs)
    · exact hfree s ((h.started hg).2 s hs)
  | _ => trivial

theorem backed_probe {left found : List Text}
    (h : a.job.goal = .completed → ∀ s ∈ e.targets, s ∈ left ∨ s ∈ found ∨ held s) :
    (c.probe a read e left found).Backed held free := by
  cases left with
  | cons next rest => exact h
  | nil =>
    show (c.judge a read e found).Backed held free
    unfold Call.judge
    split
    · rename_i hj
      split
      · intro hg
        rw [hj] at hg
        cases hg
      · trivial
    · split
      · rename_i hfound
        intro hg s hs
        rw [List.isEmpty_iff] at hfound
        subst hfound
        rcases h hg s hs with hs | hs | hs
        · exact absurd hs List.not_mem_nil
        · exact absurd hs List.not_mem_nil
        · exact hs
      · trivial

/-- A call that goes on with an entry goes on with the record that it has read. -/
theorem basis_probe (c : Call) (a : Attempt) (read : Versioned) (e : Entry)
    (left found : List Text) :
    (c.probe a read e left found).basis? = some read.version? ∨
      ∃ r, c.probe a read e left found = .done r := by
  cases left with
  | cons next rest => exact Or.inl rfl
  | nil =>
    show (c.judge a read e found).basis? = some read.version? ∨
      ∃ r, c.judge a read e found = .done r
    unfold Call.judge
    split <;> split
    · exact Or.inl rfl
    · exact Or.inr ⟨_, rfl⟩
    · exact Or.inl rfl
    · exact Or.inr ⟨_, rfl⟩

theorem backed_lookUp (id : Text) : (c.lookUp a read id).Backed held free := by
  unfold Call.lookUp
  split
  · trivial
  · split
    · trivial
    · exact backed_probe fun _ s hs => Or.inl hs

theorem backed_queue (e : Entry) (batches : List Batch) :
    (Call.queue e batches).Backed held free := by
  induction batches with
  | nil => trivial
  | cons b rest ih =>
    unfold Call.queue
    split
    · exact ih
    · trivial

end Phase

section Plans

variable {c : Call} {read : Versioned} {stamp : Text} {plan : Plan} {registered : List Text}
  {b : Batch}

/-- The deletions of a start on a table that is not reloaded are those of its rivals' targets. -/
theorem Call.StartPlan.mem_deletions {ticket : Ticket} {sources targets : List Text}
    (h : Call.StartPlan c ticket sources targets read registered stamp plan)
    (hmode : ticket.mode = .append) (hb : b ∈ plan.deletions) :
    ∃ e ∈ read.lineage.rivals sources, b.segments = registeredSubset e.targets registered := by
  have hnone : c.surplusBatches ticket.mode read.lineage registered = [] := by rw [hmode]; rfl
  rw [h.deletions, hnone, List.append_nil, h.reverted, List.map_map] at hb
  obtain ⟨e, he, rfl⟩ := List.mem_map.mp hb
  exact ⟨e, he, rfl⟩

/-- The end of an entry deletes its sources or registered targets of it. -/
theorem Call.EndPlan.segments_deletions {j : Job} {e : Entry}
    (h : Call.EndPlan j read e stamp plan) (hl : Exclusive read.lineage) (he : Ends j read e)
    (hb : b ∈ Call.endDeletions j plan registered) :
    b.segments = e.sources ∨ b.segments = registeredSubset e.targets registered := by
  cases j with
  | start => cases he.id
  | finish id =>
    simp only [Call.endDeletions, (h.moves hl he.running).1, h.entry] at hb
    rw [List.mem_singleton.mp hb]
    exact Or.inl rfl
  | revert id force =>
    simp only [Call.endDeletions, h.entry] at hb
    rw [List.mem_singleton.mp hb]
    exact Or.inr rfl

theorem Job.concerns_of_goal {j : Job} (h : j.goal = .completed) : j.concerns false = true := by
  cases j with
  | start => cases h
  | finish => rfl
  | revert => cases h

end Plans

namespace Phase

variable {held free : Text → Prop} {c : Call} {a : Attempt} {read : Versioned} {e : Entry}
  {plan : Plan} {ticket : Ticket} {sources targets registered doomed : List Text} {force : Bool}
  {l : Lineage} {v : Option Version}

theorem backed_dating (hbal : Balanced read.lineage registered doomed)
    (hcheck : c.checkStart sources targets force read.lineage registered = .ok ()) :
    (Phase.dating a ticket sources targets read registered).Backed
      (Held read.lineage registered) (Free read.lineage doomed) := by
  obtain ⟨⟨-, hunregistered⟩, hserved, -⟩ := Call.checkStart_eq_ok_iff.mp hcheck
  refine ⟨fun s hs => ?_, fun e he s hs hr => ?_, fun s hs => ⟨fun hd => ?_, fun e he hse => ?_⟩⟩
  · obtain ⟨hr, hexp⟩ := Lineage.mem_served.mp (hserved s hs)
    exact ⟨hr, Or.inl hexp⟩
  · exact ⟨hr, Or.inr ⟨e, (Lineage.mem_rivals.mp he).1, hs⟩⟩
  · exact hunregistered hs (hbal.present s hd)
  · exact hunregistered hs (hbal.sources e he s hse).1

theorem backed_afterSurvey {r : Except Failure (List Text)}
    (hbal : Version.agree v read.version? = true → Balanced read.lineage registered doomed)
    (hl : Version.agree v read.version? = true → l = read.lineage)
    (hr : ∀ answer, r = .ok answer → answer = registered)
    (hfresh : (c.afterSurvey a ticket sources targets force read r).Fresh v) :
    (c.afterSurvey a ticket sources targets force read r).Backed
      (Held l registered) (Free l doomed) := by
  cases r with
  | error f => trivial
  | ok answer =>
    obtain rfl := hr answer rfl
    unfold Call.afterSurvey at hfresh ⊢
    dsimp only at hfresh ⊢
    split
    · trivial
    · rename_i hcheck
      rw [hcheck] at hfresh
      have hagree := hfresh _ rfl
      rw [hl hagree]
      exact backed_dating (hbal hagree) hcheck

theorem backed_afterDate {stamp : Text} (hj : a.job = .start ticket sources targets force)
    (hmode : ticket.mode = .append)
    (h : Version.agree v read.version? = true →
      (Phase.dating a ticket sources targets read registered).Backed held free)
    (hfresh : (c.afterDate a ticket sources targets read registered stamp).Fresh v) :
    (c.afterDate a ticket sources targets read registered stamp).Backed held free := by
  unfold Call.afterDate at hfresh ⊢
  split
  · trivial
  · rename_i plan hok
    rw [hok] at hfresh
    have hplan := Call.StartPlan.of_ok hok
    have hagree := hfresh _ rfl
    rw [hplan.expected] at hagree
    obtain ⟨hsources, hrivals, htargets⟩ := h hagree
    refine ⟨fun b hb s hs => ?_, fun hg => ?_, fun _ => ?_⟩
    · obtain ⟨e, he, hsegments⟩ := hplan.mem_deletions hmode hb
      rw [hsegments] at hs
      obtain ⟨hs, hr⟩ := mem_registeredSubset.mp hs
      exact hrivals e he s hs hr
    · rw [hj] at hg
      cases hg
    · rw [hplan.entry]
      exact ⟨hsources, htargets⟩

theorem backed_afterProbe {next : Text} {rest found : List Text} {r : Except Failure Bool}
    (h : Version.agree v read.version? = true →
      (Phase.probing a read e next rest found).Backed held free)
    (hr : Version.agree v read.version? = true → r = .ok true → next ∈ e.targets → held next)
    (hfresh : (c.afterProbe a read e next rest found r).Fresh v) :
    (c.afterProbe a read e next rest found r).Backed held free := by
  cases r with
  | error f => trivial
  | ok available =>
    unfold Call.afterProbe at hfresh ⊢
    dsimp only at hfresh ⊢
    rcases basis_probe c a read e rest _ with hbasis | ⟨r, hdone⟩
    · have hagree := hfresh _ hbasis
      refine backed_probe fun hg s hs => ?_
      rcases h hagree hg s hs with hs' | hfound | hheld
      · rcases List.mem_cons.mp hs' with rfl | hrest
        · cases available with
          | true => exact Or.inr (Or.inr (hr hagree rfl hs))
          | false =>
            rw [if_pos (Job.concerns_of_goal hg)]
            exact Or.inr (Or.inl (List.mem_append_right _ (List.mem_singleton_self s)))
        · exact Or.inl hrest
      · refine Or.inr (Or.inl ?_)
        split
        · exact List.mem_append_left _ hfound
        · exact hfound
      · exact Or.inr (Or.inr hheld)
    · rw [hdone]
      trivial

theorem backed_afterClose {stamp : Text} (he : Ends a.job read e)
    (h : Version.agree v read.version? = true → (Phase.closing a read e).Backed held free)
    (hfresh : (Call.afterClose a read e stamp).Fresh v) :
    (Call.afterClose a read e stamp).Backed held free := by
  unfold Call.afterClose at hfresh ⊢
  split
  · trivial
  · rename_i plan hok
    rw [hok] at hfresh
    have hplan := Call.EndPlan.of_ok he.running (Job.goal_of_entry? he.id) hok
    have hagree := hfresh _ rfl
    rw [hplan.expected] at hagree
    intro hg
    rw [hplan.entry]
    exact h hagree hg

theorem backed_afterAudit {stamp : Text} {r : Except Failure (List Text)} (he : Ends a.job read e)
    (hexcl : Exclusive read.lineage) (hplan : Call.EndPlan a.job read e stamp plan)
    (hbal : Version.agree v read.version? = true → Balanced read.lineage registered doomed)
    (hl : Version.agree v read.version? = true → l = read.lineage)
    (hr : ∀ answer, r = .ok answer → answer = registered)
    (h : Version.agree v read.version? = true →
      (Phase.auditing a plan).Backed (Held l registered) (Free l doomed))
    (hfresh : (Call.afterAudit a plan r).Fresh v) :
    (Call.afterAudit a plan r).Backed (Held l registered) (Free l doomed) := by
  cases r with
  | error f => trivial
  | ok answer =>
    obtain rfl := hr answer rfl
    have hagree := hfresh _ rfl
    rw [hplan.expected] at hagree
    refine ⟨fun b hb s hs => ?_, h hagree, fun hg => ?_⟩
    · rw [hl hagree]
      rcases hplan.segments_deletions hexcl he hb with hsegments | hsegments
      · rw [hsegments] at hs
        obtain ⟨hr, hexp⟩ := (hbal hagree).sources e he.running s hs
        exact ⟨hr, Or.inl hexp⟩
      · rw [hsegments] at hs
        obtain ⟨hs, hr⟩ := mem_registeredSubset.mp hs
        exact ⟨hr, Or.inr ⟨e, he.running, hs⟩⟩
    · rcases Job.goal_of_entry? he.id with hgoal | hgoal <;> rw [hgoal] at hg <;> cases hg

end Phase

/-- An answer that changes nothing keeps a call backed, as long as its write is not lost. -/
theorem Phase.Backed.step {chance : Chance} {c : Call} {s : Site} {doomed : List Text}
    {phase : Phase} (hcons : s.registry.Consistent)
    (hbal : Balanced (s.memory.read c.table).lineage (s.registry.segments c.table) doomed)
    (hsound : phase.Sound s.memory .append c)
    (h : phase.Fresh (s.memory.version? c.table) →
      phase.Backed (Held (s.memory.read c.table).lineage (s.registry.segments c.table))
        (Free (s.memory.read c.table).lineage doomed))
    (hwrite : ∀ a plan, phase ≠ .writing a plan)
    (hfresh : (Call.step (Site.services chance) c phase s).1.Fresh (s.memory.version? c.table)) :
    (Call.step (Site.services chance) c phase s).1.Backed
      (Held (s.memory.read c.table).lineage (s.registry.segments c.table))
      (Free (s.memory.read c.table).lineage doomed) := by
  -- while the version is the one that has been read, so is the record
  have hcurrent : ∀ read, Known s.memory c.table read →
      Version.agree (s.memory.version? c.table) read.version? = true →
        (s.memory.read c.table).lineage = read.lineage := fun read hknown hagree => by
    rw [← hknown.seen.eq_of_agree hagree]
  have hbalance : ∀ read, Known s.memory c.table read →
      Version.agree (s.memory.version? c.table) read.version? = true →
        Balanced read.lineage (s.registry.segments c.table) doomed := fun read hknown hagree => by
    rw [← hcurrent read hknown hagree]
    exact hbal
  cases phase with
  | minting => trivial
  | configuring =>
    simp only [Call.step, Call.afterMode]
    split <;> trivial
  | reading a =>
    simp only [Call.step, Call.afterRead]
    split
    · trivial
    · split
      · trivial
      · exact Phase.backed_lookUp _
      · exact Phase.backed_lookUp _
  | surveying a ticket sources targets force read =>
    obtain ⟨-, -, hknown⟩ := hsound
    exact Phase.backed_afterSurvey (hbalance read hknown) (hcurrent read hknown)
      (fun answer ha => chance.eq_of_answer ha) hfresh
  | dating a ticket sources targets read registered =>
    obtain ⟨force, hj, hvalid, -, -⟩ := hsound
    rw [hj] at hvalid
    exact Phase.backed_afterDate hj hvalid.1 (fun hagree => h (Phase.fresh_of_basis rfl hagree))
      hfresh
  | probing a read e next rest found =>
    obtain ⟨he, hknown⟩ := hsound
    refine Phase.backed_afterProbe (fun hagree => h (Phase.fresh_of_basis rfl hagree))
      (fun hagree ha hnext => ?_) hfresh
    have hrun := he.running
    rw [← hcurrent read hknown hagree] at hrun
    exact ⟨hcons.mem_segments (chance.eq_of_answer ha).symm, Or.inr ⟨e, hrun, hnext⟩⟩
  | closing a read e =>
    exact Phase.backed_afterClose hsound.1 (fun hagree => h (Phase.fresh_of_basis rfl hagree))
      hfresh
  | auditing a plan =>
    obtain ⟨read, e, stamp, hknown, he, hplan⟩ := hsound
    refine Phase.backed_afterAudit he hknown.exclusive hplan (hbalance read hknown)
      (hcurrent read hknown) (fun answer ha => chance.eq_of_answer ha) (fun hagree => ?_) hfresh
    exact h (Phase.fresh_of_basis (congrArg some hplan.expected) hagree)
  | writing a plan => exact absurd rfl (hwrite a plan)
  | queueing => exact Phase.backed_queue _ _
  | done => trivial

section Commit

variable {table : Text} {batches : List Batch} {s : Text}

theorem mem_dropped :
    s ∈ (batches.flatMap (Batch.requests table)).map Deletion.segment ↔
      ∃ b ∈ batches, s ∈ b.segments := by
  simp only [List.mem_map, List.mem_flatMap, Batch.requests, Text.mem_distinct]
  constructor
  · rintro ⟨d, ⟨b, hb, x, hx, rfl⟩, rfl⟩
    exact ⟨b, hb, hx⟩
  · rintro ⟨b, hb, hs⟩
    exact ⟨_, ⟨b, hb, s, hs, rfl⟩, rfl⟩

theorem nodup_dropped (h : batches.Pairwise fun a b => a.segments.Disjoint b.segments) :
    ((batches.flatMap (Batch.requests table)).map Deletion.segment).Nodup := by
  have hmap : (batches.flatMap (Batch.requests table)).map Deletion.segment =
      batches.flatMap fun b => Text.distinct b.segments := by
    simp [List.map_flatMap, Batch.requests, Function.comp_def]
  rw [hmap, List.nodup_flatMap]
  refine ⟨fun b _ => Text.nodup_distinct _, h.imp fun {a b} hab x hxa hxb => ?_⟩
  exact hab (Text.mem_distinct.mp hxa) (Text.mem_distinct.mp hxb)

/-- The targets of rivals are dropped once, since no two live entries share one. -/
theorem pairwise_rivals {l : Lineage} (hl : Exclusive l) (sources registered : List Text)
    (reason : Entry → Text) (stamp : Text) :
    (((l.rivals sources).map (Entry.moved .reverted stamp)).map fun e =>
      Call.batchOf (reason e) registered e).Pairwise fun a b => a.segments.Disjoint b.segments := by
  have hnodup : (l.rivals sources).Nodup := ((List.Nodup.of_map _ l.distinct).filter _).filter _
  rw [List.map_map, List.pairwise_map]
  refine hnodup.pairwise_of_forall_ne fun a ha b hb hab x hxa hxb => ?_
  exact hl.disjoint_targets (Lineage.mem_rivals.mp ha).1 (Lineage.mem_rivals.mp hb).1 hab
    (mem_registeredSubset.mp hxa).1 (mem_registeredSubset.mp hxb).1

/-- The segments whose deletion a plan orders from a table. -/
def Plan.dropped (table : Text) (plan : Plan) : List Text :=
  (plan.deletions.flatMap (Batch.requests table)).map Deletion.segment

variable {c : Call} {j : Job} {read : Versioned} {plan : Plan} {stamp : Text}
  {registered surveyed doomed : List Text}

theorem Plan.Backed.held {held free : Text → Prop} (h : plan.Backed held free j) :
    ∀ s ∈ plan.dropped table, held s := by
  intro s hs
  obtain ⟨b, hb, hs⟩ := mem_dropped.mp hs
  exact h.deletions b hb s hs

theorem Call.StartPlan.balanced {ticket : Ticket} {sources targets : List Text} {force : Bool}
    (hplan : Call.StartPlan c ticket sources targets read surveyed stamp plan)
    (hmode : ticket.mode = .append) (hshape : WellShaped sources targets)
    (hcheck : c.checkStart sources targets force read.lineage surveyed = .ok ())
    (hl : Exclusive read.lineage) (hbal : Balanced read.lineage registered doomed)
    (hback : plan.Backed (Held read.lineage registered) (Free read.lineage doomed)
      (.start ticket sources targets force)) :
    Balanced plan.lineage registered (plan.dropped c.table ++ doomed) := by
  obtain ⟨⟨hfree, -⟩, hserved, -⟩ := Call.checkStart_eq_ok_iff.mp hcheck
  obtain ⟨mid, hmoves, happends⟩ := hplan.lineage
  obtain ⟨hsources, htargets⟩ := hback.started rfl
  have hcommit : Commits read.lineage plan.lineage plan.entry.targets (plan.dropped c.table) := by
    rw [hplan.entry] at happends htargets ⊢
    refine Commits.of_start hl hbal hmoves happends hshape hfree (fun s hs => ?_)
      (fun x hx s hs ht => (htargets s ht).unused x hx hs) fun s hs => ?_
    · exact (Lineage.mem_served.mp (hserved s hs)).2
    · obtain ⟨b, hb, hs⟩ := mem_dropped.mp hs
      obtain ⟨e, he, hsegments⟩ := hplan.mem_deletions hmode hb
      rw [hsegments] at hs
      exact ⟨e, he, (mem_registeredSubset.mp hs).1⟩
  have hnodup : (plan.dropped c.table).Nodup := by
    have hnone : c.surplusBatches ticket.mode read.lineage surveyed = [] := by
      rw [hmode]
      rfl
    refine nodup_dropped ?_
    rw [hplan.deletions, hnone, List.append_nil, hplan.reverted]
    exact pairwise_rivals hl _ _ _ _
  refine hcommit.balanced hbal hback.held hnodup (fun s hs => (htargets s hs).spared) ?_
  intro x hx s hs
  rcases happends.mem_running.mp hx with hx | rfl
  · exact (hbal.sources x ((hmoves.mem_running (by decide)).mp hx).1 s hs).1
  · exact (hsources s hs).present

theorem Call.EndPlan.balanced {e : Entry} (hplan : Call.EndPlan j read e stamp plan)
    (he : Ends j read e) (hl : Exclusive read.lineage)
    (hbal : Balanced read.lineage registered doomed) {batches : List Batch}
    (hbatches : batches = Call.endDeletions j plan surveyed)
    (hback : Plan.Backed (Held read.lineage registered) (Free read.lineage doomed) j
      { plan with deletions := batches }) :
    Balanced plan.lineage registered
      (Plan.dropped c.table { plan with deletions := batches } ++ doomed) := by
  obtain ⟨hreverted, hmoves⟩ := hplan.moves hl he.running
  have hgoal := Job.goal_of_entry? he.id
  have hsources : ∀ x ∈ plan.lineage.running, ∀ s ∈ x.sources, s ∈ registered := by
    intro x hx s hs
    have hnext : j.goal ≠ .inProgress := by
      rcases hgoal with hg | hg <;> rw [hg] <;> decide
    exact (hbal.sources x ((hmoves.mem_running_of_singleton hnext).mp hx).1 s hs).1
  cases j with
  | start => cases he.id
  | finish id =>
    have hsingle : batches = [⟨e.sources, Job.ownReason (.finish id) plan.entry.id⟩] := by
      simp [hbatches, Call.endDeletions, hreverted, hplan.entry, Entry.moved]
    subst hsingle
    refine (Commits.of_completion hl hbal hmoves fun s hs => ?_).balanced hbal hback.held
      (nodup_dropped (List.pairwise_singleton _ _)) (fun s hs => absurd hs List.not_mem_nil)
      hsources
    obtain ⟨b, hb, hs⟩ := mem_dropped.mp hs
    rw [List.mem_singleton.mp hb] at hs
    exact hs
  | revert id force =>
    have hsingle : batches =
        [Call.batchOf (Job.ownReason (.revert id force) plan.entry.id) surveyed plan.entry] :=
      hbatches
    subst hsingle
    refine (Commits.of_reversal hl hbal hmoves fun s hs => ?_).balanced hbal hback.held
      (nodup_dropped (List.pairwise_singleton _ _)) (fun s hs => absurd hs List.not_mem_nil)
      hsources
    obtain ⟨b, hb, hs⟩ := mem_dropped.mp hs
    rw [List.mem_singleton.mp hb, hplan.entry] at hs
    exact (mem_registeredSubset.mp hs).1

/-- A write that takes effect keeps the balance of a table that is not reloaded. -/
theorem Drafted.balanced (h : Drafted .append c j read plan) (hl : Exclusive read.lineage)
    (hbal : Balanced read.lineage registered doomed)
    (hback : plan.Backed (Held read.lineage registered) (Free read.lineage doomed) j) :
    Balanced plan.lineage registered (plan.dropped c.table ++ doomed) := by
  cases h with
  | start hj hvalid hcheck hok =>
    subst hj
    exact (Call.StartPlan.of_ok hok).balanced hvalid.1 hvalid.2 hcheck hl hbal hback
  | ending he hplan => exact hplan.balanced he hl hbal rfl hback

end Commit

end SegmentSwap
