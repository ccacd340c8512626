import SegmentSwap.Text.Quoted

/-!
# States of a replacement

A replacement starts in progress and is resolved once: it is completed or reverted, and stays so.
Entries that come from elsewhere may carry another state, which no step is defined for.
-/

namespace SegmentSwap

/-- How far a replacement has come. -/
inductive State where
  /-- The targets are being produced. -/
  | inProgress
  /-- The targets have taken the place of the sources. -/
  | completed
  /-- The replacement is given up. -/
  | reverted
  /-- A state that the protocol does not know. -/
  | unlisted (name : Text)
  deriving DecidableEq, Repr, Inhabited

namespace State

/-- The name of a state. -/
def text : State → Text
  | .inProgress => "IN_PROGRESS"
  | .completed => "COMPLETED"
  | .reverted => "REVERTED"
  | .unlisted name => name

/-- The state of a name. -/
def ofText (name : Text) : State :=
  if name = "IN_PROGRESS" then .inProgress
  else if name = "COMPLETED" then .completed
  else if name = "REVERTED" then .reverted
  else .unlisted name

/-- The three states of the protocol. -/
def listed : List State := [.inProgress, .completed, .reverted]

/-- The states that a state may be left for; an unknown one has no answer. -/
def successors? : State → Option (List State)
  | .inProgress => some [.completed, .reverted]
  | .completed => some []
  | .reverted => some []
  | .unlisted _ => none

/-- Whether a replacement in this state holds on to its targets. -/
def isLive (s : State) : Bool := s == .inProgress || s == .completed

end State

/-- Why an entry cannot be moved to a state. -/
inductive TransitionFault where
  /-- The step is not among the allowed ones. -/
  | forbidden (id : Text) (current next : State) (allowed : List State)
  /-- Nothing is known about the state that the entry is in. -/
  | unknownState (name : Text)
  deriving DecidableEq, Repr

/-- The wording of a transition fault. -/
def TransitionFault.message : TransitionFault → Text
  | .forbidden id current next allowed =>
    "Invalid lineage entry transition " ++ Text.quoted current.text ++ " -> " ++
      Text.quoted next.text ++ " for entry '" ++ id ++ "'. Allowed: " ++
      (if allowed.isEmpty then ("none" : Text) else Text.joined ", " (allowed.map State.text)) ++ "."
  | .unknownState name => name

/-- Checks that an entry may be moved from one state to another. -/
def State.checkStep (id : Text) (current next : State) : Except TransitionFault Unit :=
  match current.successors? with
  | none => .error (.unknownState current.text)
  | some allowed =>
    if next ∈ allowed then .ok () else .error (.forbidden id current next allowed)

namespace State

theorem ofText_text_of_mem_listed {s : State} (h : s ∈ listed) : ofText s.text = s := by
  simp only [listed, List.mem_cons, List.not_mem_nil, or_false] at h
  rcases h with rfl | rfl | rfl <;> decide

theorem text_ofText (name : Text) : (ofText name).text = name := by
  unfold ofText
  split
  · simp_all [text]
  · split
    · simp_all [text]
    · split
      · simp_all [text]
      · rfl

end State

end SegmentSwap
