import SegmentSwap.Lineage.State

/-!
# Lineage entries

An entry records one attempt to replace segments of a table, its sources, by new ones, its targets.
Of an entry only the state and the stamp of its last change of state ever move.
-/

namespace SegmentSwap

/-- One attempted replacement. -/
structure Entry where
  /-- The id that the entry is called by. -/
  id : Text
  /-- The segments that the replacement consumes. -/
  sources : List Text
  /-- The segments that the replacement produces. -/
  targets : List Text
  /-- How far the replacement has come. -/
  state : State
  /-- The stamp of the last change of state. -/
  stamp : Text
  deriving DecidableEq, Repr, Inhabited

namespace Entry

/-- The entry moved to another state, if the step is allowed. -/
def moveTo (e : Entry) (next : State) (stamp : Text) : Except TransitionFault Entry :=
  (State.checkStep e.id e.state next).map fun _ => { e with state := next, stamp := stamp }

/-- Whether two entries name the same segments on both sides. -/
def sameLists (a b : Entry) : Bool := a.sources == b.sources && a.targets == b.targets

/-- An entry in progress can be moved to either final state. -/
theorem moveTo_of_inProgress {e : Entry} {next : State} (stamp : Text)
    (h : e.state = .inProgress) (hn : next = .completed ∨ next = .reverted) :
    e.moveTo next stamp = .ok { e with state := next, stamp := stamp } := by
  rcases hn with rfl | rfl <;> simp [moveTo, State.checkStep, State.successors?, h, Except.map]

end Entry

end SegmentSwap
