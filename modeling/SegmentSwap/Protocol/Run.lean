import SegmentSwap.Protocol.Call

/-!
# Whole calls

`Call.run` answers a call step by step until it has returned. It always does: within an attempt the
phases follow each other in a fixed order, each look at a target leaves fewer targets, and each lost
write leaves fewer attempts.
-/

namespace SegmentSwap

namespace Phase

/-- What the call has returned, if it has. -/
def result? : Phase → Option (Except Failure Entry)
  | .done r => some r
  | _ => none

end Phase

namespace Call

/-- How many attempts may follow on one. -/
def attemptsAfter (c : Call) (a : Attempt) : Nat := (c.attempts - a.number).toNat

/-- How much is at most left to do: attempts, phases of the attempt, items of the phase. -/
def rank (c : Call) : Phase → Nat × Nat × Nat
  | .minting .. => (c.attempts.toNat + 1, 1, 0)
  | .configuring .. => (c.attempts.toNat + 1, 0, 0)
  | .reading a => (c.attemptsAfter a, 5, 0)
  | .surveying a .. => (c.attemptsAfter a, 4, 0)
  | .dating a .. => (c.attemptsAfter a, 3, 0)
  | .probing a _ _ _ rest _ => (c.attemptsAfter a, 4, rest.length)
  | .closing a .. => (c.attemptsAfter a, 3, 0)
  | .auditing a _ => (c.attemptsAfter a, 2, 0)
  | .writing a _ => (c.attemptsAfter a, 1, 0)
  | .queueing _ _ rest => (0, 0, rest.length + 1)
  | .done _ => (0, 0, 0)

/-- Whether less is left to do by one rank than by another. -/
def RankLt : Nat × Nat × Nat → Nat × Nat × Nat → Prop :=
  Prod.Lex (· < ·) (Prod.Lex (· < ·) (· < ·))

theorem rankLt_of_first {a b : Nat} {x y : Nat × Nat} (h : a < b) : RankLt (a, x) (b, y) :=
  .left _ _ h

theorem rankLt_of_second {a b c x y : Nat} (h : b < c) : RankLt (a, b, x) (a, c, y) :=
  .right _ (.left _ _ h)

theorem rankLt_of_third {a b x y : Nat} (h : x < y) : RankLt (a, b, x) (a, b, y) :=
  .right _ (.right _ h)

/-- Nothing at all is less than a phase of an attempt. -/
theorem bottom_rankLt (a b x y : Nat) (h : 0 < b) : RankLt (0, 0, x) (a, b, y) := by
  rcases Nat.eq_zero_or_pos a with rfl | ha
  · exact rankLt_of_second h
  · exact rankLt_of_first ha

theorem judge_rankLt (c : Call) (a : Attempt) (read : Versioned) (entry : Entry)
    (found : List Text) {k : Nat} (hk : 3 < k) (x : Nat) :
    RankLt (c.rank (c.judge a read entry found)) (c.attemptsAfter a, k, x) := by
  unfold judge
  split
  · split
    · exact rankLt_of_second hk
    · exact bottom_rankLt _ _ _ _ (by omega)
  · split
    · exact rankLt_of_second hk
    · exact bottom_rankLt _ _ _ _ (by omega)

/-- Going on to the next target leaves fewer targets. -/
theorem probe_rankLt (c : Call) (a : Attempt) (read : Versioned) (entry : Entry)
    (left found : List Text) :
    RankLt (c.rank (c.probe a read entry left found)) (c.attemptsAfter a, 4, left.length) := by
  unfold probe
  split
  · exact c.judge_rankLt a read entry found (by decide) _
  · exact rankLt_of_third (by simp)

/-- Looking at targets comes after reading. -/
theorem probe_rankLt_reading (c : Call) (a : Attempt) (read : Versioned) (entry : Entry)
    (left found : List Text) :
    RankLt (c.rank (c.probe a read entry left found)) (c.attemptsAfter a, 5, 0) := by
  unfold probe
  split
  · exact c.judge_rankLt a read entry found (by decide) _
  · exact rankLt_of_second (by decide)

theorem lookUp_rankLt (c : Call) (a : Attempt) (read : Versioned) (id : Text) :
    RankLt (c.rank (c.lookUp a read id)) (c.attemptsAfter a, 5, 0) := by
  unfold lookUp
  split
  · exact bottom_rankLt _ _ _ _ (by decide)
  · split
    · exact bottom_rankLt _ _ _ _ (by decide)
    · exact probe_rankLt_reading ..

theorem queue_rankLt (c : Call) (entry : Entry) (batches : List Batch) :
    RankLt (c.rank (queue entry batches)) (0, 0, batches.length + 1) := by
  induction batches with
  | nil => exact rankLt_of_third (by simp)
  | cons b rest ih =>
    unfold queue
    split
    · cases hq : c.rank (queue entry rest) with
      | mk x yz =>
        obtain ⟨y, z⟩ := yz
        rw [hq] at ih
        cases ih with
        | left _ _ h => exact absurd h (by omega)
        | right _ h =>
          cases h with
          | left _ _ h => exact absurd h (by omega)
          | right _ h => exact rankLt_of_third (by simp only [List.length_cons]; omega)
    · exact rankLt_of_third (by simp)

theorem queue_rankLt_write (c : Call) (entry : Entry) (batches : List Batch) (a : Nat) :
    RankLt (c.rank (queue entry batches)) (a, 1, 0) := by
  have h : ∃ x, c.rank (queue entry batches) = (0, 0, x) := by
    induction batches with
    | nil => exact ⟨_, rfl⟩
    | cons b rest ih =>
      unfold queue
      split
      · exact ih
      · exact ⟨_, rfl⟩
  obtain ⟨x, hx⟩ := h
  rw [hx]
  exact bottom_rankLt _ _ _ _ (by decide)

/-- Every step of a call that has not returned leaves less to do. -/
theorem step_rankLt {σ : Type} (svc : Services σ) (c : Call) (phase : Phase) (s : σ)
    (h : phase.result? = none) : RankLt (c.rank (step svc c phase s).1) (c.rank phase) := by
  cases phase with
  | minting sources targets force => exact rankLt_of_second (by decide)
  | configuring id sources targets force =>
    simp only [step]
    cases (svc.mode c.table s).1 with
    | error f => exact rankLt_of_first (by omega)
    | ok mode =>
      refine rankLt_of_first ?_
      simp only [attemptsAfter]
      omega
  | reading a =>
    simp only [step]
    cases c.opened svc a s (svc.read c.table s).1 with
    | error f => exact bottom_rankLt _ _ _ _ (by decide)
    | ok read =>
      simp only [afterRead]
      split
      · exact rankLt_of_second (by decide)
      · exact lookUp_rankLt ..
      · exact lookUp_rankLt ..
  | surveying a ticket sources targets force read =>
    simp only [step]
    cases (svc.registered c.table s).1 with
    | error f => exact bottom_rankLt _ _ _ _ (by decide)
    | ok registered =>
      simp only [afterSurvey]
      split
      · exact bottom_rankLt _ _ _ _ (by decide)
      · exact rankLt_of_second (by decide)
  | dating a ticket sources targets read registered =>
    simp only [step, afterDate]
    split
    · exact bottom_rankLt _ _ _ _ (by decide)
    · exact rankLt_of_second (by decide)
  | probing a read entry next rest found =>
    simp only [step]
    cases (svc.available c.table next s).1 with
    | error f => exact bottom_rankLt _ _ _ _ (by decide)
    | ok available => exact probe_rankLt ..
  | closing a read entry =>
    simp only [step, afterClose]
    split
    · exact bottom_rankLt _ _ _ _ (by decide)
    · exact rankLt_of_second (by decide)
  | auditing a plan =>
    simp only [step]
    cases (svc.registered c.table s).1 with
    | error f => exact bottom_rankLt _ _ _ _ (by decide)
    | ok registered => exact rankLt_of_second (by decide)
  | writing a plan =>
    simp only [step]
    generalize hafter : (svc.retrying _).after _ _ _ = after
    obtain ⟨acts, ending?⟩ := after
    cases ending? with
    | none =>
      have hlimit : (a.number : Int) < c.attempts :=
        Retry.Retrying.lt_limit_of_after (congrArg Prod.snd hafter)
      refine rankLt_of_first ?_
      simp only [attemptsAfter]
      omega
    | some result =>
      cases result with
      | error ending => exact bottom_rankLt _ _ _ _ (by decide)
      | ok => exact queue_rankLt_write ..
  | queueing entry b rest => exact queue_rankLt ..
  | done r => simp [Phase.result?] at h

/-- Answers a call until it has returned: its result and what is left of the surroundings. -/
def run {σ : Type} (svc : Services σ) (c : Call) (phase : Phase) (s : σ) :
    Except Failure Entry × σ :=
  match _h : phase.result? with
  | some r => (r, s)
  | none =>
    let next := step svc c phase s
    run svc c next.1 next.2
termination_by c.rank phase
decreasing_by exact step_rankLt svc c phase s _h

/-- Answers a call from its beginning. -/
def answer {σ : Type} (svc : Services σ) (c : Call) (s : σ) : Except Failure Entry × σ :=
  run svc c c.begin s

end Call

end SegmentSwap
