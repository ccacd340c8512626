import SegmentSwap.Proofs.Traffic.Advance
import SegmentSwap.Proofs.Traffic.Basis

/-!
# From the reading of an attempt to its commit

The numbers of the attempts of a call go up, so a commit of an attempt comes from what this very
attempt has read and has been told since. What the plan of the commit is made from is found by
following the call from the reading on; nothing is asked of the record, of the registry or of the
other calls, which may do anything meanwhile.
-/

namespace SegmentSwap

namespace Phase

/-- A call is beyond an attempt: in a later one, or it has come to its end. -/
def Past (a : Attempt) (phase : Phase) : Prop :=
  phase.Based (fun b => a.number < b.number) fun b _ => a.number < b.number

/-- Where an attempt to end an entry has come to, or the call beyond it. -/
inductive Ending (a : Attempt) (read : Versioned) (e : Entry) : Phase → Prop where
  | looking {phase : Phase} (h : phase.Approaches a read e) : Ending a read e phase
  | auditing {stamp : Text} {plan : Plan} (hplan : Call.EndPlan a.job read e stamp plan) :
    Ending a read e (.auditing a plan)
  | writing {stamp : Text} {plan : Plan} (hplan : Call.EndPlan a.job read e stamp plan)
      (deletions : List Batch) :
    Ending a read e (.writing a { plan with deletions := deletions })
  | past {phase : Phase} (h : phase.Past a) : Ending a read e phase

/-- Where an attempt to start a replacement has come to once it has passed its checks, or the call
beyond it. -/
inductive Starting (c : Call) (a : Attempt) (ticket : Ticket) (sources targets : List Text)
    (read : Versioned) (registered : List Text) : Phase → Prop where
  | dating : Starting c a ticket sources targets read registered
      (.dating a ticket sources targets read registered)
  | writing {stamp : Text} {plan : Plan}
      (hplan : c.StartPlan ticket sources targets read registered stamp plan) :
    Starting c a ticket sources targets read registered (.writing a plan)
  | past {phase : Phase} (h : phase.Past a) :
    Starting c a ticket sources targets read registered phase

variable {a : Attempt} {read : Versioned} {e : Entry} {c : Call} {phase : Phase} {s : Site}

theorem Past.step (chance : Chance) (h : phase.Past a) :
    (Call.step (Site.services chance) c phase s).1.Past a :=
  Based.step chance h (fun _ hb => hb) fun _ _ hb => Nat.lt_succ_of_lt hb

theorem Past.ne_writing (h : phase.Past a) (plan : Plan) : phase ≠ .writing a plan := by
  rintro rfl
  obtain ⟨read, hlt, -⟩ := h
  exact Nat.lt_irrefl _ hlt

/-- The outcome of a write is beyond its attempt. -/
theorem past_of_writing (chance : Chance) {plan : Plan} :
    (Call.step (Site.services chance) c (.writing a plan) s).1.Past a := by
  exact based_afterWrite (Nat.lt_succ_self a.number) _

theorem Ending.step (chance : Chance) (he : Ends a.job read e) (h : phase.Ending a read e) :
    (Call.step (Site.services chance) c phase s).1.Ending a read e := by
  cases h with
  | writing hplan deletions => exact .past (past_of_writing chance)
  | past h => exact .past (h.step chance)
  | @auditing _ plan hplan =>
    have hwrite : ∀ b other, Phase.auditing a plan ≠ .writing b other := fun _ _ h => by cases h
    have hadvances := c.advances chance s hwrite
    generalize (Call.step (Site.services chance) c _ s).1 = next at hadvances ⊢
    cases hadvances with
    | fail => exact .past trivial
    | audit => exact .writing hplan _
  | looking h =>
    have hwrite : ∀ b other, phase ≠ .writing b other := by
      rintro b other rfl
      cases h
    have hadvances := c.advances chance s hwrite
    generalize (Call.step (Site.services chance) c phase s).1 = next at hadvances ⊢
    cases h with
    | probing target rest found =>
      cases hadvances with
      | fail => exact .past trivial
      | probe hnext => exact .looking hnext
    | closing =>
      cases hadvances with
      | fail => exact .past trivial
      | planEnd hplan =>
        exact .auditing (.of_ok he.running (Job.goal_of_entry? he.id) hplan)

theorem Starting.step (chance : Chance) {ticket : Ticket}
    {sources targets registered : List Text}
    (h : phase.Starting c a ticket sources targets read registered) :
    (Call.step (Site.services chance) c phase s).1.Starting c a ticket sources targets read
      registered := by
  cases h with
  | writing hplan => exact .past (past_of_writing chance)
  | past h => exact .past (h.step chance)
  | dating =>
    have hwrite : ∀ b other, Phase.dating a ticket sources targets read registered ≠
        .writing b other := fun _ _ h => by cases h
    have hadvances := c.advances chance s hwrite
    generalize (Call.step (Site.services chance) c _ s).1 = next at hadvances ⊢
    cases hadvances with
    | fail => exact .past trivial
    | planStart hplan => exact .writing hplan

end Phase

/-- A start that is told the registered segments fails, or it has passed its checks. -/
theorem Call.survey_cases (chance : Chance) (c : Call) (s : Site) (a : Attempt) (ticket : Ticket)
    (sources targets : List Text) (force : Bool) (read : Versioned) :
    let next := (step (Site.services chance) c (.surveying a ticket sources targets force read) s).1
    (∃ f, next = fail f) ∨
      next = .dating a ticket sources targets read (s.registry.segments c.table) ∧
        c.checkStart sources targets force read.lineage (s.registry.segments c.table) = .ok () := by
  intro next
  have hnext : next = c.afterSurvey a ticket sources targets force read
      (chance.answer (s.registry.segments c.table)) := rfl
  rw [hnext]
  rcases chance.answer_cases (s.registry.segments c.table) with ⟨f, hanswer⟩ | ⟨-, hanswer⟩
  · rw [hanswer]
    exact .inl ⟨f, rfl⟩
  · rw [hanswer]
    unfold afterSurvey
    dsimp only
    split
    · exact .inl ⟨_, rfl⟩
    · rename_i hcheck
      exact .inr ⟨rfl, hcheck⟩

namespace Traffic

variable {table : Text} {t : Traffic} {client : Nat} {chance : Chance} {c c' : Client} {a : Attempt}
  {plan : Plan} {between : List Move}

/-- What every answer to a call preserves holds of it after every run. -/
theorem follow_answers (Inv : Client → Prop)
    (hanswers : ∀ (c : Client) (chance : Chance) (s : Site), Inv c →
      Inv ⟨c.call, (Call.step (Site.services chance) c.call c.phase s).1⟩)
    (hc : t.clients[client]? = some c) (hinv : Inv c)
    (hc' : (t.run table between).clients[client]? = some c') : Inv c' := by
  have hmoves : ∀ m ∈ between, True := fun _ _ => trivial
  obtain ⟨last, hlast, -, hlast'⟩ := follow table (fun _ => True) (fun _ c => Inv c)
    (fun _ _ _ _ _ h => h) (fun t chance c _ _ h => hanswers c chance t.site h) hmoves hc hinv
  obtain rfl : c' = last := Option.some.inj (hc'.symm.trans hlast)
  exact hlast'

/-- A call that is beyond an attempt does not come back to it. -/
theorem ne_writing_of_past (hc : t.clients[client]? = some c) (hpast : c.phase.Past a)
    (hc' : (t.run table between).clients[client]? = some c') : c'.phase ≠ .writing a plan := by
  have hpast' : c'.phase.Past a :=
    follow_answers (fun c => c.phase.Past a) (fun _ chance _ h => h.step chance) hc hpast hc'
  exact hpast'.ne_writing plan

/-- An attempt to end an entry writes the lineage that has been planned from what it has read. -/
theorem endPlan_of_writing {id : Text} (hc : t.clients[client]? = some c)
    (hphase : c.phase = .reading a) (hid : a.job.entry? = some id)
    (hc' : ((t.proceed client chance).run table between).clients[client]? = some c')
    (hphase' : c'.phase = .writing a plan) :
    ∃ e stamp drafted, Ends a.job (t.site.memory.read c.call.table) e ∧
      Call.EndPlan a.job (t.site.memory.read c.call.table) e stamp drafted ∧
      plan.lineage = drafted.lineage := by
  have hstep := getElem?_proceed_self chance hc
  rw [hphase] at hstep
  have hwrite : ∀ b other, Phase.reading a ≠ .writing b other := fun _ _ h => by cases h
  have hadvances := c.call.advances chance t.site hwrite
  generalize (Call.step (Site.services chance) c.call (.reading a) t.site).1 = next
    at hadvances hstep
  cases hadvances with
  | fail => exact absurd hphase' (ne_writing_of_past hstep trivial hc')
  | survey _ hj =>
    rw [hj] at hid
    cases hid
  | @approach _ e _ _ he hnext =>
    have hending : c'.phase.Ending a (t.site.memory.read c.call.table) e :=
      follow_answers (fun c' => c'.phase.Ending a (t.site.memory.read c.call.table) e)
        (fun _ chance _ h => h.step chance he) hstep (.looking hnext) hc'
    rw [hphase'] at hending
    cases hending with
    | looking h => cases h
    | writing hplan => exact ⟨e, _, _, he, hplan, rfl⟩
    | past h => exact absurd rfl (h.ne_writing plan)

/-- A start that has passed its checks writes the lineage that they have been made against. -/
theorem startPlan_of_dating {call : Call} {ticket : Ticket} {sources targets registered : List Text}
    {read : Versioned}
    (hc : t.clients[client]? = some ⟨call, .dating a ticket sources targets read registered⟩)
    (hc' : (t.run table between).clients[client]? = some c') (hphase' : c'.phase = .writing a plan) :
    ∃ stamp, call.StartPlan ticket sources targets read registered stamp plan := by
  have hstarting :=
    follow_answers
      (fun c' => c'.call = call ∧
        c'.phase.Starting call a ticket sources targets read registered)
      (by
        rintro c chance s ⟨rfl, h⟩
        exact ⟨rfl, h.step chance⟩)
      hc ⟨rfl, .dating⟩ hc'
  obtain ⟨-, hstarting⟩ := hstarting
  rw [hphase'] at hstarting
  cases hstarting with
  | writing hplan => exact ⟨_, hplan⟩
  | past h => exact absurd rfl (h.ne_writing plan)

/-- A start that waits for the registered segments and writes in the same attempt has been told them
in between, and its checks have passed. -/
theorem startPlan_of_surveying {call : Call} {ticket : Ticket} {sources targets : List Text}
    {force : Bool} {read : Versioned}
    (hc : t.clients[client]? = some ⟨call, .surveying a ticket sources targets force read⟩)
    (hc' : (t.run table between).clients[client]? = some c') (hphase' : c'.phase = .writing a plan) :
    ∃ earlier later chance, between = earlier ++ .proceed client chance :: later ∧
      (t.run table earlier).clients[client]? =
        some ⟨call, .surveying a ticket sources targets force read⟩ ∧
      let listed := (t.run table earlier).site.registry.segments call.table
      call.checkStart sources targets force read.lineage listed = .ok () ∧
        ∃ stamp, call.StartPlan ticket sources targets read listed stamp plan := by
  induction between generalizing t with
  | nil =>
    obtain rfl := Option.some.inj (hc'.symm.trans hc)
    cases hphase'
  | cons m moves ih =>
    by_cases hown : ∃ chance, m = .proceed client chance
    · obtain ⟨chance, rfl⟩ := hown
      have hstep := getElem?_proceed_self chance hc
      refine ⟨[], moves, chance, rfl, hc, ?_⟩
      rcases call.survey_cases chance t.site a ticket sources targets force read with
        ⟨f, hfail⟩ | ⟨hnext, hcheck⟩
      · dsimp only at hstep
        rw [hfail] at hstep
        exact absurd hphase' (ne_writing_of_past hstep trivial hc')
      · dsimp only at hstep
        rw [hnext] at hstep
        exact ⟨hcheck, startPlan_of_dating hstep hc' hphase'⟩
    · have hstay : (t.act table m).clients[client]? = some _ :=
        getElem?_act_of_ne hc (not_exists.mp hown)
      obtain ⟨earlier, later, chance, rfl, hasked, hfacts⟩ := ih hstay hc'
      exact ⟨m :: earlier, later, chance, rfl, hasked, hfacts⟩

/-- An attempt to start a replacement writes the lineage that has been planned from what it has read
and from the segments that were registered when it asked for them. -/
theorem startPlan_of_writing {ticket : Ticket} {sources targets : List Text} {force : Bool}
    (hc : t.clients[client]? = some c) (hphase : c.phase = .reading a)
    (hjob : a.job = .start ticket sources targets force)
    (hc' : ((t.proceed client chance).run table between).clients[client]? = some c')
    (hphase' : c'.phase = .writing a plan) :
    ∃ earlier later chance', between = earlier ++ .proceed client chance' :: later ∧
      ((t.proceed client chance).run table earlier).clients[client]? = some ⟨c.call,
        .surveying a ticket sources targets force (t.site.memory.read c.call.table)⟩ ∧
      let listed :=
        ((t.proceed client chance).run table earlier).site.registry.segments c.call.table
      c.call.checkStart sources targets force (t.site.memory.read c.call.table).lineage listed =
          .ok () ∧
        ∃ stamp, c.call.StartPlan ticket sources targets (t.site.memory.read c.call.table) listed
          stamp plan := by
  have hstep := getElem?_proceed_self chance hc
  rw [hphase] at hstep
  have hnext : (Call.step (Site.services chance) c.call (.reading a) t.site).1 =
      c.call.afterRead a (chance.answer (t.site.memory.read c.call.table)) := by
    rw [Site.step_reading]
  rw [hnext] at hstep
  rcases chance.answer_cases (t.site.memory.read c.call.table) with ⟨f, hanswer⟩ | ⟨-, hanswer⟩
  · rw [hanswer] at hstep
    exact absurd hphase' (ne_writing_of_past hstep trivial hc')
  · rw [hanswer] at hstep
    unfold Call.afterRead at hstep
    dsimp only at hstep
    rw [hjob] at hstep
    exact startPlan_of_surveying hstep hc' hphase'

end Traffic

end SegmentSwap
