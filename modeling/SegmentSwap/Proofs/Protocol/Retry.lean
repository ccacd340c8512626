import Mathlib.Order.Bounds.Defs
import SegmentSwap.Config.Basic
import SegmentSwap.Protocol.Retry

/-!
# How often an attempt is made

A loop makes attempts until one of them is not lost, but no more than its limit allows, and no more
once a wait fails. Between any two attempts it reports and waits once. This holds whatever hands out
the attempts, as long as it keeps to what is promised of it.
-/

namespace SegmentSwap

namespace Retry

namespace Act

/-- What a loop does around a lost attempt that another one follows. -/
def turn (number : Nat) : List Act := [.attempt number, .report number, .wait number]

/-- What a loop does on lost attempts in a row. -/
def turns (first count : Nat) : List Act := (List.range' first count).flatMap turn

theorem turns_succ (first count : Nat) :
    turns first (count + 1) = turn first ++ turns (first + 1) count := by
  unfold turns
  rw [List.range'_succ, List.flatMap_cons]

theorem countP_turns (first count : Nat) : (turns first count).countP isAttempt = count := by
  induction count generalizing first with
  | zero => rfl
  | succ count ih =>
    have hturn : (turn first).countP isAttempt = 1 := rfl
    rw [turns_succ, List.countP_append, hturn, ih, Nat.add_comm]

theorem reported_turns (first count : Nat) :
    (turns first count).filterMap reported? = List.range' first count := by
  induction count generalizing first with
  | zero => rfl
  | succ count ih =>
    have hturn : (turn first).filterMap reported? = [first] := rfl
    rw [turns_succ, List.filterMap_append, hturn, ih, List.range'_succ, List.singleton_append]

theorem waited_turns (first count : Nat) :
    (turns first count).filterMap waited? = List.range' first count := by
  induction count generalizing first with
  | zero => rfl
  | succ count ih =>
    have hturn : (turn first).filterMap waited? = [first] := rfl
    rw [turns_succ, List.filterMap_append, hturn, ih, List.range'_succ, List.singleton_append]

theorem countP_reports (numbers : List Nat) : (numbers.map report).countP isAttempt = 0 := by
  induction numbers with
  | nil => rfl
  | cons _ _ ih => exact ih

theorem reported_reports (numbers : List Nat) :
    (numbers.map report).filterMap reported? = numbers := by
  induction numbers with
  | nil => rfl
  | cons number numbers ih =>
    rw [List.map_cons, List.filterMap_cons_some (rfl : reported? (report number) = some number), ih]

theorem waited_reports (numbers : List Nat) : (numbers.map report).filterMap waited? = [] := by
  induction numbers with
  | nil => rfl
  | cons _ _ ih => exact ih

end Act

/-- An attempt that asks for another one: its write is lost, or it says so itself. -/
def Outcome.AsksAgain {α ε : Type} (o : Outcome α ε) : Prop :=
  o = .raised .lost ∨ o = .raised .again

/-- What a loop comes to with its last attempt, and which attempts it reports after it. -/
inductive Concludes {α ε : Type} (p : Policy ε) (last : Nat) :
    Outcome α ε → Except (Ending ε) α → List Nat → Prop where
  | value (a : α) : Concludes p last (.done a) (.ok a) []
  | error (e : ε) : Concludes p last (.raised (.error e)) (.error (.failed e)) []
  /-- A loop within the attempt has used up its own attempts. -/
  | spent : Concludes p last (.raised .spent) (.error .exhausted) []
  | drained (e : ε) : Concludes p last (.raised .drained) (.error (.failed e)) []
  | exhausted {o : Outcome α ε} (ho : o.AsksAgain) (hlast : p.limit = last)
      (hpause : ∀ e, p.pause last ≠ .unknown e) : Concludes p last o (.error .exhausted) []
  | unknown {o : Outcome α ε} {e : ε} (ho : o.AsksAgain) (hpause : p.pause last = .unknown e) :
    Concludes p last o (.error (.failed e)) []
  | refused {o : Outcome α ε} {e : ε} (ho : o.AsksAgain) (hnext : last < p.limit)
      (hpause : p.pause last = .refused e) : Concludes p last o (.error (.failed e)) [last]

variable {α ε : Type}

/-- A loop stops at its limit, at an attempt that does not ask for another one, or where the wait
fails. -/
def Stops (p : Policy ε) (number : Nat) (o : Outcome α ε) : Prop :=
  p.limit = number ∨ ¬ o.AsksAgain ∨ p.pause number ≠ .elapsed

variable {p : Policy ε} {attempts : Nat → Outcome α ε} {number : Nat}

theorem Raised.asksAgain {raised : Raised ε} (h : raised.isRepeated = true) :
    (Outcome.raised raised : Outcome α ε).AsksAgain := by
  cases raised with
  | lost => exact .inl rfl
  | again => exact .inr rfl
  | _ => cases h

theorem Concludes.stops {o : Outcome α ε} {result : Except (Ending ε) α} {reported : List Nat}
    (h : Concludes p number o result reported) : Stops p number o := by
  cases h with
  | value | error | spent | drained =>
    refine .inr (.inl fun ho => ?_)
    rcases ho with ho | ho <;> cases ho
  | exhausted _ hlast => exact .inl hlast
  | unknown _ hpause | refused _ _ hpause =>
    refine .inr (.inr ?_)
    rw [hpause]
    exact fun h => by cases h

theorem Concludes.not_astray {o : Outcome α ε} {result : Except (Ending ε) α}
    {reported : List Nat} (h : Concludes p number o result reported) :
    result ≠ .error .astray := by
  rintro rfl
  cases h

/-- After an attempt within the limit a loop goes on to the next one, or ends as it has to. -/
theorem after_cases (r : Retrying ε) (o : Outcome α ε) (hnumber : number ≤ p.limit) :
    ¬ Stops p number o ∧ number < p.limit ∧
        r.after p number o = ([.report number, .wait number], none) ∨
      ∃ result reported, Concludes p number o result reported ∧
        r.after p number o = (reported.map .report, some result) := by
  cases o with
  | done a => exact .inr ⟨.ok a, [], .value a, rfl⟩
  | raised raised =>
    have hanswers := r.answers p number raised
    unfold Retrying.after
    dsimp only
    generalize (r.next p number raised).1 = acts at hanswers ⊢
    generalize (r.next p number raised).2 = turn at hanswers ⊢
    cases hanswers with
    | error e => exact .inr ⟨_, _, .error e, rfl⟩
    | spent => exact .inr ⟨_, _, .spent, rfl⟩
    | drained e => exact .inr ⟨_, _, .drained e, rfl⟩
    | unknown hraised hpause => exact .inr ⟨_, _, .unknown (Raised.asksAgain hraised) hpause, rfl⟩
    | last hraised hlast hpause =>
      have hlimit : p.limit = number := Int.le_antisymm hlast hnumber
      exact .inr ⟨_, _, .exhausted (Raised.asksAgain hraised) hlimit hpause, rfl⟩
    | refused hraised hnext hpause =>
      exact .inr ⟨_, _, .refused (Raised.asksAgain hraised) hnext hpause, rfl⟩
    | again hraised hnext hpause =>
      refine .inl ⟨?_, hnext, rfl⟩
      rintro (hlast | hkept | hfails)
      · omega
      · exact hkept (Raised.asksAgain hraised)
      · exact hfails hpause

/-- The loop from an attempt on ends at the first attempt at which it has to. -/
theorem runFrom_ends (r : Retrying ε) (p : Policy ε) (attempts : Nat → Outcome α ε) (first : Nat)
    (hfirst : first ≤ p.limit) :
    ∃ count result reported, (∀ i, first ≤ i → i < first + count → ¬ Stops p i (attempts i)) ∧
      Concludes p (first + count) (attempts (first + count)) result reported ∧
      runFrom r p attempts first = ⟨result,
        Act.turns first count ++ .attempt (first + count) :: reported.map .report⟩ := by
  rw [runFrom.eq_def]
  rcases after_cases r (attempts first) hfirst with
    ⟨hgoes, hnext, hafter⟩ | ⟨result, reported, hends, hafter⟩
  · obtain ⟨count, result, reported, hbefore, hends, hrest⟩ :=
      runFrom_ends r p attempts (first + 1) (by omega)
    have hlast : first + 1 + count = first + (count + 1) := by omega
    rw [hlast] at hbefore hends hrest
    refine ⟨count + 1, result, reported, fun i hi hlt => ?_, hends, ?_⟩
    · rcases Nat.eq_or_lt_of_le hi with rfl | hi
      · exact hgoes
      · exact hbefore i hi hlt
    · rw [hafter, hrest, Act.turns_succ, List.append_assoc]
      rfl
  · refine ⟨0, result, reported, fun i hi hlt => absurd hi (by omega), hends, ?_⟩
    rw [hafter]
    rfl
termination_by (p.limit - first).toNat

theorem run_of_obstacle (r : Retrying ε) {e : ε} (h : p.obstacle? = some e) :
    run r p attempts = ⟨.error (.failed e), []⟩ := by
  unfold run
  rw [r.first_eq p, h]
  rfl

theorem run_of_clear (r : Retrying ε) (h : p.obstacle? = none) :
    run r p attempts = runFrom r p attempts 1 := by
  unfold run
  rw [r.first_eq p, h]
  rfl

/-- A loop that can be set up makes attempts up to the first one that is the last one allowed, that
does not ask for another one, or after which the wait fails. It comes to what this attempt and its
wait say: a result is returned, an error is passed on, and attempts that ask for others up to the
limit are too many. It waits between attempts only, and reports each time before it waits. A loop
that cannot be set up makes no attempt. No loop runs out of attempts without an end. -/
theorem attempts_exact (r : Retrying ε) (p : Policy ε) (attempts : Nat → Outcome α ε)
    (table action : Text) (hlimit : 1 ≤ p.limit) :
    (∀ e, p.obstacle? = some e → run r p attempts = ⟨.error (.failed e), []⟩) ∧
      (p.obstacle? = none → ∃ k : Nat, ∃ reported,
        IsLeast {i : Nat | 1 ≤ i ∧ Stops p i (attempts i)} k ∧
        (run r p attempts).calls = k ∧
        Concludes p k (attempts k) (run r p attempts).result reported ∧
        (run r p attempts).waited = List.range' 1 (k - 1) ∧
        events table action p.limit (run r p attempts).acts =
          (List.range' 1 (k - 1) ++ reported).map fun i => .conflictRetry table action i p.limit) ∧
      (run r p attempts).result ≠ .error .astray := by
  cases hobstacle : p.obstacle? with
  | some e =>
    have hrun : run r p attempts = _ := run_of_obstacle r hobstacle
    refine ⟨?_, nofun, ?_⟩
    · rintro _ ⟨⟩
      exact hrun
    · rw [hrun]
      exact nofun
  | none =>
    obtain ⟨count, result, reported, hbefore, hends, heq⟩ := runFrom_ends r p attempts 1 hlimit
    have hrun : run r p attempts = _ := (run_of_clear r hobstacle).trans heq
    have hpred : 1 + count - 1 = count := by omega
    refine ⟨nofun, fun _ => ?_, ?_⟩
    · refine ⟨1 + count, reported, ⟨⟨by omega, hends.stops⟩, fun i hi => ?_⟩, ?_⟩
      · -- no attempt before is one to stop at
        exact Nat.le_of_not_lt fun hlt => hbefore i hi.1 hlt hi.2
      · rw [hrun, hpred]
        refine ⟨?_, hends, ?_, ?_⟩
        · unfold Report.calls
          dsimp only
          rw [List.countP_append, Act.countP_turns, List.countP_cons_of_pos rfl,
            Act.countP_reports]
          omega
        · unfold Report.waited
          dsimp only
          rw [List.filterMap_append, Act.waited_turns, List.filterMap_cons_none rfl,
            Act.waited_reports, List.append_nil]
        · unfold events
          dsimp only
          rw [List.filterMap_append, Act.reported_turns, List.filterMap_cons_none rfl,
            Act.reported_reports]
    · rw [hrun]
      exact hends.not_astray

/-- Two attempts are lost, and the third one fails. -/
def lateFailure (number : Nat) : Outcome Nat Nat :=
  if number = 3 then .raised (.error 5) else .raised .lost

/-- An error of the last attempt that is allowed is passed on, and does not count as one lost write
too many. -/
theorem attempts_exact_last :
    let p : Policy Nat := ⟨3, none, fun _ => .elapsed⟩
    let r := run (.standard 0) p lateFailure
    1 ≤ p.limit ∧ r.calls = 3 ∧ r.result = .error (.failed 5) ∧ r.waited = [1, 2] ∧
      events "t" "start" 3 r.acts =
        [.conflictRetry "t" "start" 1 3, .conflictRetry "t" "start" 2 3] := by
  intro p r
  obtain ⟨-, hclear, -⟩ :=
    attempts_exact (.standard 0) p lateFailure "t" "start" (by decide)
  obtain ⟨k, reported, ⟨⟨hone, hstops⟩, -⟩, hcalls, hends, hwaited, hevents⟩ := hclear rfl
  have hk : k = 3 := by
    rcases hstops with hlast | hkept | hfails
    · exact (Int.ofNat.inj hlast).symm
    · by_cases hk : k = 3
      · exact hk
      · exact absurd (.inl (if_neg hk)) hkept
    · exact absurd rfl hfails
  subst hk
  have hlast : r.result = .error (.failed 5) ∧ reported = [] := by
    change Concludes p 3 (.raised (.error 5)) r.result reported at hends
    generalize r.result = result at hends ⊢
    cases hends with
    | error => exact ⟨rfl, rfl⟩
    | exhausted ho | unknown ho | refused ho => rcases ho with ho | ho <;> cases ho
  obtain ⟨hresult, rfl⟩ := hlast
  exact ⟨by decide, hcalls, hresult, hwaited, hevents⟩

/-- A longest wait that is a whole number beyond the range of doubles. -/
def endlessPace : Pace := ⟨.whole 0, .whole (Nat.pow 10 400), .whole 0⟩

/-- Such a longest wait is accepted, and leaves no attempt: an operation that has a result is not
called, and the loop fails. An operation that runs a loop of its own and fails with it counts as
lost, and one that asks for another attempt is called again, though neither of them has lost a
write. -/
theorem attempts_beyond_outcomes :
    (Limits.check ⟨3, endlessPace.base, endlessPace.longest, 2, .whole 1⟩).isOk = true ∧
      run (.standard .drained) (endlessPace.policy 3 .tooLarge)
        (fun _ => (.done 7 : Outcome Nat Fault)) = ⟨.error (.failed .tooLarge), []⟩ ∧
      (run (.standard .drained) ⟨3, none, fun _ => .elapsed⟩
        (fun _ => (.raised .spent : Outcome Nat Fault))).result = .error .exhausted ∧
      (run (.standard .drained) ⟨3, none, fun _ => .elapsed⟩
        (fun n => if n = 1 then .raised .again else (.done 7 : Outcome Nat Fault))).calls = 2 := by
  have hobstacle : (endlessPace.policy 3 Fault.tooLarge).obstacle? = some .tooLarge := by
    decide +kernel
  refine ⟨by decide +kernel, run_of_obstacle _ hobstacle, ?_, ?_⟩
  · rw [run_of_clear _ rfl, runFrom.eq_def]
    rfl
  · rw [run_of_clear _ rfl, runFrom.eq_def]
    simp only [Retrying.after, Retrying.standard]
    rw [runFrom.eq_def]
    rfl

end Retry

end SegmentSwap
