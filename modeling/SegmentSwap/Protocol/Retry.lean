import SegmentSwap.Event
import SegmentSwap.Number.Arithmetic

/-!
# Trying again

A conditional write that loses against another writer is attempted anew from the start, up to a
limit. Anything else that an attempt comes to, a result or an error, ends the loop at once. Before
every further attempt there is a wait that doubles each time up to a longest wait, with some random
part.

The attempts are handed out by an iterator, which hears what each of them has come to, reports and
waits. It is not part of the program: `Retrying` says what is promised of one, and `Retrying.standard`
is one that keeps to it. What the program makes of its turns is `Turn.ending?`.
-/

namespace SegmentSwap

namespace Retry

/-- An error as it matters to a loop over attempts. -/
inductive Raised (ε : Type) where
  /-- A write was lost. -/
  | lost
  /-- Another attempt is asked for, whatever has happened. -/
  | again
  /-- The attempts of a loop are used up, of this one or of one inside the attempt. -/
  | spent
  /-- An iterator has nothing left. -/
  | drained
  /-- Something else. -/
  | error (e : ε)
  deriving DecidableEq, Repr

/-- Whether an error leads to another attempt. -/
def Raised.isRepeated {ε : Type} : Raised ε → Bool
  | .lost | .again => true
  | _ => false

/-- What an attempt comes to. -/
inductive Outcome (α ε : Type) where
  /-- The attempt has a result. -/
  | done (result : α)
  /-- The attempt fails. -/
  | raised (error : Raised ε)
  deriving DecidableEq, Repr

/-- Something that a loop does. Attempts are numbered from one on. -/
inductive Act where
  /-- It makes an attempt. -/
  | attempt (number : Nat)
  /-- It reports that the attempt was lost and that there will be another one. -/
  | report (number : Nat)
  /-- It waits after the attempt. -/
  | wait (number : Nat)
  deriving DecidableEq, Repr

namespace Act

/-- Whether an attempt is made. -/
def isAttempt : Act → Bool
  | .attempt _ => true
  | _ => false

/-- The attempt that is reported as lost. -/
def reported? : Act → Option Nat
  | .report number => some number
  | _ => none

/-- The attempt after which the loop waits. -/
def waited? : Act → Option Nat
  | .wait number => some number
  | _ => none

end Act

/-- What is reported of a call on a table. -/
def events (table action : Text) (limit : Int) (acts : List Act) : List Event :=
  (acts.filterMap Act.reported?).map fun number => .conflictRetry table action number limit

/-- What becomes of the wait after an attempt. -/
inductive Pause (ε : Type) where
  /-- It comes to its end. -/
  | elapsed
  /-- Its length cannot be computed. -/
  | unknown (error : ε)
  /-- It is too long to be waited for. -/
  | refused (error : ε)
  deriving DecidableEq, Repr

/-- What an iterator over attempts is told. -/
structure Policy (ε : Type) where
  /-- The number of the last attempt. -/
  limit : Int
  /-- Why there can be no attempt at all. -/
  obstacle? : Option ε
  /-- What becomes of the wait after each attempt. -/
  pause : Nat → Pause ε

/-- What an iterator over attempts does when it is asked for the next one. -/
inductive Turn (ε : Type) where
  /-- It hands out an attempt. -/
  | attempt
  /-- It has nothing left. -/
  | finished
  /-- It raises that the attempts are used up. -/
  | spent
  /-- It raises another error. -/
  | error (e : ε)
  deriving DecidableEq, Repr

/-- How an iterator goes on after an attempt that has failed. -/
inductive Policy.Answers {ε : Type} (p : Policy ε) (number : Nat) :
    Raised ε → List Act → Turn ε → Prop where
  /-- An error that is not to be repeated is raised again. -/
  | error (e : ε) : Answers p number (.error e) [] (.error e)
  | spent : Answers p number .spent [] .spent
  /-- An iterator cannot raise that it has nothing left. Some other error takes its place. -/
  | drained (e : ε) : Answers p number .drained [] (.error e)
  /-- The length of the wait is computed first. -/
  | unknown {raised : Raised ε} {e : ε} (hraised : raised.isRepeated = true)
      (hpause : p.pause number = .unknown e) : Answers p number raised [] (.error e)
  | last {raised : Raised ε} (hraised : raised.isRepeated = true) (hlast : p.limit ≤ number)
      (hpause : ∀ e, p.pause number ≠ .unknown e) : Answers p number raised [] .spent
  /-- Before another attempt there is a report and a wait. -/
  | again {raised : Raised ε} (hraised : raised.isRepeated = true) (hnext : number < p.limit)
      (hpause : p.pause number = .elapsed) :
    Answers p number raised [.report number, .wait number] .attempt
  | refused {raised : Raised ε} {e : ε} (hraised : raised.isRepeated = true)
      (hnext : number < p.limit) (hpause : p.pause number = .refused e) :
    Answers p number raised [.report number] (.error e)

/-- Iterators over attempts. -/
structure Retrying (ε : Type) where
  /-- What is done when the first attempt is asked for. -/
  first : Policy ε → Turn ε
  /-- What is done when another attempt is asked for after one that has failed. -/
  next : Policy ε → Nat → Raised ε → List Act × Turn ε
  /-- The first attempt is handed out, unless there can be none. -/
  first_eq : ∀ p : Policy ε, first p = p.obstacle?.elim .attempt .error
  /-- The others are handed out as it is told. -/
  answers : ∀ (p : Policy ε) (number : Nat) (raised : Raised ε),
    p.Answers number raised (next p number raised).1 (next p number raised).2

variable {α ε : Type}

/-- Goes on after an attempt whose error is to be repeated. -/
def Policy.repeat (p : Policy ε) (number : Nat) : List Act × Turn ε :=
  match p.pause number with
  | .unknown e => ([], .error e)
  | .elapsed => if number < p.limit then ([.report number, .wait number], .attempt) else ([], .spent)
  | .refused e => if number < p.limit then ([.report number], .error e) else ([], .spent)

theorem Policy.answers_repeat (p : Policy ε) (number : Nat) {raised : Raised ε}
    (h : raised.isRepeated = true) :
    p.Answers number raised (p.repeat number).1 (p.repeat number).2 := by
  unfold Policy.repeat
  cases hpause : p.pause number with
  | unknown e => exact .unknown h hpause
  | elapsed =>
    dsimp only
    split
    · rename_i hnext
      exact .again h hnext hpause
    · rename_i hlast
      exact .last h (Int.not_lt.mp hlast) (by rw [hpause]; exact fun _ hne => by cases hne)
  | refused e =>
    dsimp only
    split
    · rename_i hnext
      exact .refused h hnext hpause
    · rename_i hlast
      exact .last h (Int.not_lt.mp hlast) (by rw [hpause]; exact fun _ hne => by cases hne)

/-- Hands out attempts as it is promised. The error stands in for one that iterators cannot raise. -/
def Retrying.standard (crash : ε) : Retrying ε where
  first p := p.obstacle?.elim .attempt .error
  next p number
    | .error e => ([], .error e)
    | .spent => ([], .spent)
    | .drained => ([], .error crash)
    | .lost => p.repeat number
    | .again => p.repeat number
  first_eq _ := rfl
  answers p number raised := by
    cases raised with
    | error e => exact .error e
    | spent => exact .spent
    | drained => exact .drained crash
    | lost => exact p.answers_repeat number rfl
    | again => exact p.answers_repeat number rfl

/-- Why a loop ends without a result. -/
inductive Ending (ε : Type) where
  /-- All attempts were lost. -/
  | exhausted
  /-- There were no more attempts, and none of them has ended the loop. -/
  | astray
  /-- An error. -/
  | failed (error : ε)
  deriving DecidableEq, Repr

/-- How the loop ends with a turn of its iterator. It goes on if it is handed out an attempt. -/
def Turn.ending? : Turn ε → Option (Ending ε)
  | .attempt => none
  | .finished => some .astray
  | .spent => some .exhausted
  | .error e => some (.failed e)

theorem Policy.Answers.lt_limit {p : Policy ε} {number : Nat} {raised : Raised ε}
    {acts : List Act} {turn : Turn ε} (h : p.Answers number raised acts turn)
    (hgoes : turn.ending? = none) : number < p.limit := by
  cases h with
  | again _ hnext => exact hnext
  | _ => cases hgoes

namespace Retrying

/-- What the program does about the outcome of an attempt: it goes on to the next attempt, or ends
with a result or otherwise. -/
def after (r : Retrying ε) (p : Policy ε) (number : Nat) :
    Outcome α ε → List Act × Option (Except (Ending ε) α)
  | .done a => ([], some (.ok a))
  | .raised e => ((r.next p number e).1, (r.next p number e).2.ending?.map .error)

variable {r : Retrying ε} {p : Policy ε} {number : Nat}

/-- Another attempt is only handed out below the limit. -/
theorem lt_limit_of_after {o : Outcome α ε} (h : (r.after p number o).2 = none) :
    number < p.limit := by
  cases o with
  | done => cases h
  | raised e => exact (r.answers p number e).lt_limit (Option.map_eq_none_iff.mp h)

end Retrying

/-- What a loop has come to. -/
structure Report (α ε : Type) where
  /-- The result of the last attempt, if it had one. -/
  result : Except (Ending ε) α
  /-- What the loop has done, in this order. -/
  acts : List Act
  deriving Repr

namespace Report

/-- How many attempts the loop has made. -/
def calls (r : Report α ε) : Nat := r.acts.countP Act.isAttempt

/-- The numbers of the attempts that were reported as lost. -/
def repeated (r : Report α ε) : List Nat := r.acts.filterMap Act.reported?

/-- The numbers of the attempts after which the loop has waited. -/
def waited (r : Report α ε) : List Nat := r.acts.filterMap Act.waited?

end Report

/-- The attempts from a number on. -/
def runFrom (r : Retrying ε) (p : Policy ε) (attempts : Nat → Outcome α ε) (number : Nat) :
    Report α ε :=
  match _h : r.after p number (attempts number) with
  | (acts, some result) => ⟨result, .attempt number :: acts⟩
  | (acts, none) =>
    let rest := runFrom r p attempts (number + 1)
    ⟨rest.result, .attempt number :: acts ++ rest.acts⟩
termination_by (p.limit - number).toNat
decreasing_by
  have hlimit : (number : Int) < p.limit := Retrying.lt_limit_of_after (congrArg Prod.snd _h)
  omega

/-- Attempts numbered from one on, until one of them ends the loop. -/
def run (r : Retrying ε) (p : Policy ε) (attempts : Nat → Outcome α ε) : Report α ε :=
  match (r.first p).ending? with
  | some ending => ⟨.error ending, []⟩
  | none => runFrom r p attempts 1

/-- How long to wait between attempts, in seconds. -/
structure Pace where
  /-- The wait after the first attempt, without its random part. -/
  base : Quantity
  /-- The longest wait. -/
  longest : Quantity
  /-- The random part of every wait, as a fraction of the first one. -/
  jitter : Quantity
  deriving DecidableEq, Repr

namespace Pace

/-- The longest wait as a double, unless it is too large for one. -/
def limit? (p : Pace) : Option Binary64 := p.longest.rounded?

/-- The random part of every wait, unless it is too large for a double. -/
def random? (p : Pace) : Option Quantity := p.base.mul? p.jitter

/-- The wait after a lost attempt before it is limited. There is none where the doubling leaves the
range of doubles. -/
def backoff? (p : Pace) (attempt : Nat) : Option Quantity := do
  (← p.base.mul? (.whole (Nat.pow 2 (attempt - 1) : Nat))).add? (← p.random?)

/-- The wait after a lost attempt: the first wait doubled for every attempt before, with the random
part on top, but at most the longest wait and never negative. -/
def wait (p : Pace) (attempt : Nat) : Quantity :=
  let longest := (p.limit?.map Quantity.real).getD p.longest
  let w := (p.backoff? attempt).getD longest
  (Quantity.whole 0).maxOf (w.minOf longest)

/-- Attempts at this pace, where no wait is too long. Without a longest wait that is a double there
are none, and without a random part that is one no wait can be computed. -/
def policy (p : Pace) (limit : Int) (tooLarge : ε) : Policy ε where
  limit := limit
  obstacle? := if p.limit?.isSome then none else some tooLarge
  pause _ := if p.random?.isSome then .elapsed else .unknown tooLarge

end Pace

/-- What goes wrong in a loop over attempts itself. -/
inductive Fault where
  /-- There were no more attempts, and none of them has ended the loop. -/
  | astray
  /-- An attempt fails as an iterator does that has nothing left. -/
  | drained
  /-- A wait is a whole number of seconds beyond the range of doubles. -/
  | tooLarge
  deriving DecidableEq, Repr

/-- The wording of a fault. -/
def Fault.message : Fault → Text
  | .astray => "Unexpected state in lineage retry loop"
  | .drained => "generator raised StopIteration"
  | .tooLarge => doubleLimitMessage

end Retry

end SegmentSwap
