import SegmentSwap.Proofs.Traffic.Advance
import SegmentSwap.Proofs.Traffic.Filing

/-!
# What calls have been told

Of the answers to a call its next commit depends on two: the record and the registered segments. An
attempt asks for each of them once, so what the committing attempt has read is what its call was
told last. That is kept here along a run, for every call, beside the traffic and not as a part of
it. A commit has been planned from it, and the record is still what the call was told.
-/

namespace SegmentSwap

/-- What a call was told last. -/
structure Briefing where
  /-- The record of its table. -/
  read : Versioned
  /-- The segments that are registered for it. -/
  registered : List Text

namespace Briefing

variable {chance : Chance} {c : Call} {s : Site} {b : Briefing}

/-- What a call has been told after its next answer. -/
def after (chance : Chance) (c : Call) (s : Site) (b : Briefing) : Phase → Briefing
  | .reading _ =>
    match chance.answer (s.memory.read c.table) with
    | .ok read => { b with read := read }
    | .error _ => b
  | .surveying .. | .auditing .. =>
    match chance.answer (s.registry.segments c.table) with
    | .ok registered => { b with registered := registered }
    | .error _ => b
  | _ => b

theorem after_reading (hup : chance.outage? = none) (a : Attempt) :
    b.after chance c s (.reading a) = { b with read := s.memory.read c.table } := by
  unfold after Chance.answer
  dsimp only
  rw [hup]

theorem after_surveying (hup : chance.outage? = none) (a : Attempt) (ticket : Ticket)
    (sources targets : List Text) (force : Bool) (read : Versioned) :
    b.after chance c s (.surveying a ticket sources targets force read) =
      { b with registered := s.registry.segments c.table } := by
  unfold after Chance.answer
  dsimp only
  rw [hup]

theorem after_auditing (hup : chance.outage? = none) (a : Attempt) (plan : Plan) :
    b.after chance c s (.auditing a plan) =
      { b with registered := s.registry.segments c.table } := by
  unfold after Chance.answer
  dsimp only
  rw [hup]

/-- A call has been told of the record what it knew before, or what the record is. -/
theorem read_after (chance : Chance) (c : Call) (s : Site) (b : Briefing) (phase : Phase) :
    (b.after chance c s phase).read = b.read ∨
      (b.after chance c s phase).read = s.memory.read c.table := by
  unfold after
  split
  · split
    · rename_i hread
      exact .inr (chance.eq_of_answer hread)
    · exact .inl rfl
  · split <;> exact .inl rfl
  · split <;> exact .inl rfl
  · exact .inl rfl

end Briefing

/-- A plan that an attempt has come to from what it was told. -/
inductive PlannedFrom (c : Call) (j : Job) (b : Briefing) : Plan → Prop where
  | start {ticket : Ticket} {sources targets : List Text} {force : Bool} {stamp : Text}
      {plan : Plan} (hj : j = .start ticket sources targets force)
      (hplan : c.StartPlan ticket sources targets b.read b.registered stamp plan) :
      PlannedFrom c j b plan
  | ending {e : Entry} {stamp : Text} {plan : Plan} (he : Ends j b.read e)
      (hplan : Call.EndPlan j b.read e stamp plan) :
      PlannedFrom c j b { plan with deletions := Call.endDeletions j plan b.registered }

/-- What an attempt carries from phase to phase is what it was told. -/
def Phase.Follows (c : Call) (b : Briefing) : Phase → Prop
  | .surveying _ _ _ _ _ read => read = b.read
  | .dating _ _ _ _ read registered => read = b.read ∧ registered = b.registered
  | .probing _ read _ _ _ _ => read = b.read
  | .closing _ read _ => read = b.read
  | .auditing a plan => ∃ e stamp, Ends a.job b.read e ∧ Call.EndPlan a.job b.read e stamp plan
  | .writing a plan => PlannedFrom c a.job b plan
  | _ => True

theorem PlannedFrom.expected {c : Call} {j : Job} {b : Briefing} {plan : Plan}
    (h : PlannedFrom c j b plan) : plan.expected = b.read.version? := by
  cases h with
  | start _ hplan => exact hplan.expected
  | ending _ hplan => exact hplan.expected

namespace Phase

variable {c : Call} {b : Briefing} {a : Attempt} {read : Versioned} {e : Entry}

theorem follows_begin (c : Call) (b : Briefing) : c.begin.Follows c b := by
  unfold Call.begin
  split
  · split <;> trivial
  · trivial
  · trivial

theorem follows_queue (e : Entry) (batches : List Batch) : (Call.queue e batches).Follows c b := by
  induction batches with
  | nil => trivial
  | cons first rest ih =>
    unfold Call.queue
    split
    · exact ih
    · trivial

theorem follows_lost {chance : Chance} {a : Attempt} {next : Phase}
    (h : c.Loses chance a next) : next.Follows c b := by
  cases h <;> trivial

theorem follows_approach {phase : Phase} (hnext : phase.Approaches a read e)
    (h : read = b.read) : phase.Follows c b := by
  cases hnext <;> exact h

/-- Every answer to a call that does not write is carried on as what the call was told. -/
theorem Follows.step (chance : Chance) {m : Memory} {mode : Mode} {phase : Phase} {s : Site}
    (h : phase.Follows c b) (hsound : phase.Sound m mode c)
    (hwrite : ∀ a plan, phase ≠ .writing a plan) :
    (Call.step (Site.services chance) c phase s).1.Follows c (b.after chance c s phase) := by
  have hadvances := c.advances chance s hwrite
  generalize (Call.step (Site.services chance) c phase s).1 = next at hadvances ⊢
  cases hadvances with
  | fail => trivial
  | mint => trivial
  | configure => trivial
  | survey hup =>
    rw [Briefing.after_reading hup]
    rfl
  | approach hup _ hnext =>
    rw [Briefing.after_reading hup]
    exact follows_approach hnext rfl
  | date hup =>
    rw [Briefing.after_surveying hup]
    exact ⟨h, rfl⟩
  | planStart hplan =>
    obtain ⟨rfl, rfl⟩ := h
    obtain ⟨force, hj, -⟩ := hsound
    exact .start hj hplan
  | probe hnext => exact follows_approach hnext h
  | @planEnd a read e plan hplan =>
    obtain rfl : read = b.read := h
    obtain ⟨he, -⟩ := hsound
    exact ⟨e, _, he, .of_ok he.running (Job.goal_of_entry? he.id) hplan⟩
  | audit hup =>
    obtain ⟨e, stamp, he, hplan⟩ := h
    rw [Briefing.after_auditing hup]
    exact PlannedFrom.ending (b := { b with registered := s.registry.segments c.table }) he hplan
  | order => exact follows_queue _ _
  | rest => trivial

end Phase

theorem Known.put {m : Memory} {table : Text} {read : Versioned} {l : Lineage}
    {expected : Option Version} (h : Known m table read)
    (hagree : Version.agree (m.version? table) expected = true) (htable : l.table = table) :
    Known (m.put l (.next expected)) table read :=
  ⟨h.seen.put hagree htable, h.exclusive⟩

namespace Traffic

variable {table : Text} {mode : Mode} {t : Traffic} {m : Move} {client : Nat} {chance : Chance}
  {c : Client} {told : Nat → Briefing} {k : Commit}

/-- What the calls have been told after a move. -/
def brief (t : Traffic) (m : Move) (told : Nat → Briefing) (client : Nat) : Briefing :=
  match m, t.clients[client]? with
  | .proceed other chance, some c =>
    if other = client then (told client).after chance c.call t.site c.phase else told client
  | _, _ => told client

theorem brief_self (hc : t.clients[client]? = some c) :
    t.brief (.proceed client chance) told client =
      (told client).after chance c.call t.site c.phase := by
  unfold brief
  rw [hc]
  exact if_pos rfl

theorem brief_of_ne (hm : m.isAnswerTo client = false) : t.brief m told client = told client := by
  unfold brief
  split
  · rename_i other chance c hc
    have hne : other ≠ client := fun heq => Move.ne_proceed_of_isAnswerTo hm chance (by rw [heq])
    exact if_neg hne
  · rfl

/-- What holds of the calls of sound traffic and of what they have been told. -/
structure Briefed (table : Text) (mode : Mode) (told : Nat → Briefing) (t : Traffic) : Prop where
  sound : t.Sound table mode
  known : ∀ client, Known t.site.memory table (told client).read
  clients : ∀ (client : Nat) (c : Client), t.clients[client]? = some c →
    c.phase.Follows c.call (told client)

/-- Before a run nobody has been told anything. -/
def untold (table : Text) (_client : Nat) : Briefing := ⟨⟨.empty table, none⟩, []⟩

theorem briefed_idle {s : Site} (h : s.memory.get? table = none) (hmode : s.modes.of table = mode) :
    (idle s).Briefed table mode (untold table) := by
  have hread : s.memory.read table = ⟨.empty table, none⟩ := by
    unfold Memory.read
    rw [h]
  have hknown : Known s.memory table ⟨.empty table, none⟩ := by
    rw [← hread]
    refine ⟨Memory.seen_read (by rw [hread]; rfl), ?_⟩
    rw [hread]
    exact Exclusive.empty table
  exact ⟨sound_idle h hmode, fun _ => hknown, fun _ _ hc => absurd hc (Option.some_ne_none _).symm⟩

/-- What a call was told of the record is seen, whatever has become of the record since. -/
theorem Briefed.known_act (h : t.Briefed table mode told) (hdrop : m.isDrop = false)
    (client : Nat) : Known (t.act table m).site.memory table (t.brief m told client).read := by
  have hnow : Known t.site.memory table (t.site.memory.read table) :=
    ⟨Memory.seen_read h.sound.record, h.sound.exclusive⟩
  have htold : Known t.site.memory table (t.brief m told client).read := by
    cases hm : m.isAnswerTo client with
    | false =>
      rw [brief_of_ne hm]
      exact h.known client
    | true =>
      obtain ⟨chance, rfl⟩ := Move.isAnswerTo_iff.mp hm
      cases hc : t.clients[client]? with
      | none =>
        unfold brief
        rw [hc]
        exact h.known client
      | some c =>
        rw [brief_self hc]
        obtain ⟨htable, -⟩ := h.sound.clients c (List.mem_of_getElem? hc)
        rcases (told client).read_after chance c.call t.site c.phase with hsame | hread
        · rw [hsame]
          exact h.known client
        · rw [hread, htable]
          exact hnow
  -- a commit moves the record on, and what a call has been told stays behind
  cases hk : t.commit? m with
  | none =>
    rw [memory_of_quiet table hk hdrop]
    exact htold
  | some k =>
    obtain ⟨chance, c, rfl, hc, hphase, hagree⟩ := commit?_eq_some hk
    have hplan := h.sound.plan_table (List.mem_of_getElem? hc) hphase
    rw [memory_of_commit hk]
    rw [hplan] at hagree
    exact htold.put hagree hplan

theorem Briefed.act (h : t.Briefed table mode told) (hdrop : m.isDrop = false) :
    (t.act table m).Briefed table mode (t.brief m told) := by
  refine ⟨h.sound.act hdrop, h.known_act hdrop, fun client c hc => ?_⟩
  cases hold : t.clients[client]? with
  | none =>
    rw [(begun_of_new hold hc).2]
    exact Phase.follows_begin _ _
  | some old =>
    cases hm : m.isAnswerTo client with
    | false =>
      rw [getElem?_act_of_ne hold (Move.ne_proceed_of_isAnswerTo hm)] at hc
      obtain rfl := Option.some.inj hc
      rw [brief_of_ne hm]
      exact h.clients client old hold
    | true =>
      obtain ⟨chance, rfl⟩ := Move.isAnswerTo_iff.mp hm
      have hc : (t.proceed client chance).clients[client]? = some c := hc
      rw [getElem?_proceed_self chance hold] at hc
      obtain rfl := Option.some.inj hc
      by_cases hwriting : ∃ a plan, old.phase = .writing a plan
      · obtain ⟨a, plan, hphase⟩ := hwriting
        dsimp only
        cases hk : t.commit? (.proceed client chance) with
        | some k =>
          rw [(step_of_commit hold hk).2.2]
          exact Phase.follows_queue _ _
        | none =>
          obtain ⟨next, hnext, hstep⟩ := step_of_lost hold hphase hk
          rw [hstep]
          exact Phase.follows_lost hnext
      · rw [brief_self hold]
        exact (h.clients client old hold).step chance
          (h.sound.clients old (List.mem_of_getElem? hold)).2
          fun a plan hphase => hwriting ⟨a, plan, hphase⟩

/-- A commit has been planned from what its call was told, and the record is still what the call was
told. -/
theorem Briefed.planned (h : t.Briefed table mode told) (hk : t.commit? m = some k) :
    ∃ c, t.clients[k.client]? = some c ∧ k.attempt.job.Valid mode ∧
      PlannedFrom c.call k.attempt.job (told k.client) k.plan ∧
      (told k.client).read = t.site.memory.read table := by
  obtain ⟨chance, c, rfl, hc, hphase, hagree⟩ := commit?_eq_some hk
  have hmem := List.mem_of_getElem? hc
  have hplanned := h.clients k.client c hc
  rw [hphase] at hplanned
  rw [h.sound.plan_table hmem hphase] at hagree
  have hread : (told k.client).read = t.site.memory.read table := by
    rw [PlannedFrom.expected hplanned] at hagree
    exact (h.known k.client).seen.eq_of_agree hagree
  exact ⟨c, hc, (h.sound.read_of_agree hmem hphase hagree).2.valid, hplanned, hread⟩

end Traffic

end SegmentSwap
