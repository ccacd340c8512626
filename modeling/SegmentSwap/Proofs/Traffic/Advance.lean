import SegmentSwap.Proofs.Traffic.Sound

/-!
# How a call gets on

All that the next answer can make of a call that does not write, said once: the call fails, or it
goes on from what it has been told. Whatever an answer keeps is found by going through these cases.
-/

namespace SegmentSwap

/-- A call that may still fail without having written. -/
def Phase.isLooking : Phase → Bool
  | .writing .. | .queueing .. | .done _ => false
  | _ => true

/-- An attempt has found the entry to be ended and goes through its targets. -/
inductive Phase.Approaches (a : Attempt) (read : Versioned) (e : Entry) : Phase → Prop where
  | probing (next : Text) (rest found : List Text) :
    Approaches a read e (.probing a read e next rest found)
  | closing : Approaches a read e (.closing a read e)

/-- The ways in which a call that does not write gets its next answer. -/
inductive Advances (chance : Chance) (c : Call) (s : Site) : Phase → Phase → Prop where
  | fail {phase : Phase} (hlooking : phase.isLooking = true) (f : Failure) :
    Advances chance c s phase (Call.fail f)
  | mint {sources targets : List Text} {force : Bool} :
    Advances chance c s (.minting sources targets force)
      (.configuring chance.id sources targets force)
  | configure {id : Text} {sources targets : List Text} {force : Bool} :
    Advances chance c s (.configuring id sources targets force)
      (.reading ⟨.start ⟨id, s.modes.of c.table⟩ sources targets force, 1⟩)
  | survey {a : Attempt} {ticket : Ticket} {sources targets : List Text} {force : Bool}
      (hup : chance.outage? = none) (hj : a.job = .start ticket sources targets force) :
    Advances chance c s (.reading a)
      (.surveying a ticket sources targets force (s.memory.read c.table))
  | approach {a : Attempt} {e : Entry} {next : Phase} (hup : chance.outage? = none)
      (he : Ends a.job (s.memory.read c.table) e)
      (hnext : next.Approaches a (s.memory.read c.table) e) :
    Advances chance c s (.reading a) next
  | date {a : Attempt} {ticket : Ticket} {sources targets : List Text} {force : Bool}
      {read : Versioned} (hup : chance.outage? = none) :
    Advances chance c s (.surveying a ticket sources targets force read)
      (.dating a ticket sources targets read (s.registry.segments c.table))
  | planStart {a : Attempt} {ticket : Ticket} {sources targets registered : List Text}
      {read : Versioned} {plan : Plan}
      (hplan : c.StartPlan ticket sources targets read registered chance.stamp plan) :
    Advances chance c s (.dating a ticket sources targets read registered) (.writing a plan)
  | probe {a : Attempt} {read : Versioned} {e : Entry} {target : Text} {rest found : List Text}
      {next : Phase} (hnext : next.Approaches a read e) :
    Advances chance c s (.probing a read e target rest found) next
  | planEnd {a : Attempt} {read : Versioned} {e : Entry} {plan : Plan}
      (hplan : Call.planEnd a.job read e chance.stamp = .ok plan) :
    Advances chance c s (.closing a read e) (.auditing a plan)
  | audit {a : Attempt} {plan : Plan} (hup : chance.outage? = none) :
    Advances chance c s (.auditing a plan) (.writing a { plan with
      deletions := Call.endDeletions a.job plan (s.registry.segments c.table) })
  | order {e : Entry} {b : Batch} {rest : List Batch} :
    Advances chance c s (.queueing e b rest) (Call.queue e rest)
  | rest {r : Except Failure Entry} : Advances chance c s (.done r) (.done r)

theorem Chance.answer_cases {α : Type} (chance : Chance) (a : α) :
    (∃ f, chance.answer a = .error f) ∨ chance.outage? = none ∧ chance.answer a = .ok a := by
  unfold answer
  cases chance.outage? with
  | none => exact .inr ⟨rfl, rfl⟩
  | some f => exact .inl ⟨f, rfl⟩

namespace Call

variable {c : Call} {a : Attempt} {read : Versioned} {e : Entry}

theorem probe_cases (c : Call) (a : Attempt) (read : Versioned) (e : Entry)
    (left found : List Text) :
    (∃ f, c.probe a read e left found = fail f) ∨
      (c.probe a read e left found).Approaches a read e := by
  cases left with
  | cons next rest => exact .inr (.probing next rest found)
  | nil =>
    show (∃ f, c.judge a read e found = fail f) ∨ (c.judge a read e found).Approaches a read e
    unfold judge
    split <;> split
    · exact .inr .closing
    · exact .inl ⟨_, rfl⟩
    · exact .inr .closing
    · exact .inl ⟨_, rfl⟩

theorem lookUp_cases {id : Text} (c : Call) (read : Versioned) (hid : a.job.entry? = some id) :
    (∃ f, c.lookUp a read id = fail f) ∨
      ∃ e, Ends a.job read e ∧ (c.lookUp a read id).Approaches a read e := by
  unfold lookUp
  split
  · exact .inl ⟨_, rfl⟩
  · rename_i e hk
    obtain ⟨hmem, rfl⟩ := Check.known_eq_ok_iff.mp hk
    split
    · exact .inl ⟨_, rfl⟩
    · rename_i hm
      have hrun := (Check.movable_eq_ok_iff.mp hm).1
      have he : Ends a.job read e := ⟨hid, Lineage.mem_running.mpr ⟨hmem, hrun⟩⟩
      exact (c.probe_cases a read e e.targets []).imp_right fun hnext => ⟨e, he, hnext⟩

theorem advances_lookUp {chance : Chance} {s : Site} {id : Text} (hup : chance.outage? = none)
    (hid : a.job.entry? = some id) :
    Advances chance c s (.reading a) (c.lookUp a (s.memory.read c.table) id) := by
  rcases c.lookUp_cases (s.memory.read c.table) hid with ⟨f, hfail⟩ | ⟨e, he, hnext⟩
  · rw [hfail]
    exact .fail rfl f
  · exact .approach hup he hnext

/-- Every answer to a call that does not write is one of these. -/
theorem advances (chance : Chance) (c : Call) (s : Site) {phase : Phase}
    (hwrite : ∀ a plan, phase ≠ .writing a plan) :
    Advances chance c s phase (step (Site.services chance) c phase s).1 := by
  cases phase with
  | minting => exact .mint
  | configuring id sources targets force =>
    show Advances chance c s _ (afterMode id sources targets force
      (chance.answer (s.modes.of c.table)))
    rcases chance.answer_cases (s.modes.of c.table) with ⟨f, hanswer⟩ | ⟨-, hanswer⟩
    · rw [hanswer]
      exact .fail rfl f
    · rw [hanswer]
      exact .configure
  | reading a =>
    rw [Site.step_reading]
    dsimp only
    rcases chance.answer_cases (s.memory.read c.table) with ⟨f, hanswer⟩ | ⟨hup, hanswer⟩
    · rw [hanswer]
      exact .fail rfl f
    · rw [hanswer]
      unfold afterRead
      dsimp only
      split
      · rename_i hj
        exact .survey hup hj
      · rename_i hj
        exact advances_lookUp hup (by rw [hj]; rfl)
      · rename_i hj
        exact advances_lookUp hup (by rw [hj]; rfl)
  | surveying a ticket sources targets force read =>
    show Advances chance c s _ (c.afterSurvey a ticket sources targets force read
      (chance.answer (s.registry.segments c.table)))
    rcases chance.answer_cases (s.registry.segments c.table) with ⟨f, hanswer⟩ | ⟨hup, hanswer⟩
    · rw [hanswer]
      exact .fail rfl f
    · rw [hanswer]
      unfold afterSurvey
      dsimp only
      split
      · exact .fail rfl _
      · exact .date hup
  | dating a ticket sources targets read registered =>
    show Advances chance c s _ (c.afterDate a ticket sources targets read registered chance.stamp)
    unfold afterDate
    split
    · exact .fail rfl _
    · rename_i hplan
      exact .planStart (.of_ok hplan)
  | probing a read e target rest found =>
    show Advances chance c s _ (c.afterProbe a read e target rest found _)
    unfold afterProbe
    split
    · exact .fail rfl _
    · rcases c.probe_cases a read e rest _ with ⟨f, hfail⟩ | hnext
      · rw [hfail]
        exact .fail rfl f
      · exact .probe hnext
  | closing a read e =>
    show Advances chance c s _ (afterClose a read e chance.stamp)
    unfold afterClose
    split
    · exact .fail rfl _
    · rename_i hplan
      exact .planEnd hplan
  | auditing a plan =>
    show Advances chance c s _ (afterAudit a plan (chance.answer (s.registry.segments c.table)))
    rcases chance.answer_cases (s.registry.segments c.table) with ⟨f, hanswer⟩ | ⟨hup, hanswer⟩
    · rw [hanswer]
      exact .fail rfl f
    · rw [hanswer]
      exact .audit hup
  | writing a plan => exact absurd rfl (hwrite a plan)
  | queueing => exact .order
  | done => exact .rest

end Call

end SegmentSwap
