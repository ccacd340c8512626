import SegmentSwap.Lineage.View
import SegmentSwap.Protocol.Refusal

/-!
# Checks of a call

Each check passes or gives the refusal with the segments that caused it. A start is checked in this
order: its own shape, its targets, its sources, its rivals.
-/

namespace SegmentSwap

namespace Check

/-- The names that occur again after their first occurrence, in the order in which they do. -/
def repeatedFrom (seen repeated : List Text) : List Text → List Text
  | [] => repeated
  | name :: rest =>
    if seen.contains name && !repeated.contains name then
      repeatedFrom (seen ++ [name]) (repeated ++ [name]) rest
    else repeatedFrom (seen ++ [name]) repeated rest

/-- The names that a list repeats. -/
def repeatedNames (names : List Text) : List Text := repeatedFrom [] [] names

/-- The names of one list that are also in another, in the order of code points. -/
def shared (left right : List Text) : List Text :=
  Text.sortedSet (left.filter right.contains)

/-- Requires that one side of a request repeats no name. -/
def checkSide (table : Text) (side : Side) (names : List Text) : Except Refusal Unit :=
  if (repeatedNames names).isEmpty then .ok ()
  else .error (.repeated table side (repeatedNames names))

/-- Requires a request to name targets, each segment once. -/
def request (table : Text) (sources targets : List Text) : Except Refusal Unit :=
  if targets.isEmpty then .error (.noTargets table)
  else do
    checkSide table .sources sources
    checkSide table .targets targets
    if (shared sources targets).isEmpty then .ok ()
    else .error (.onBothSides table (shared sources targets))

/-- Requires that no live entry produces one of the targets and that none is registered. -/
def targetsFree (l : Lineage) (table : Text) (targets registered : List Text) :
    Except Refusal Unit :=
  match l.entries.find? fun e => e.state.isLive && !(shared targets e.targets).isEmpty with
  | some e => .error (.alreadyProduced table (shared targets e.targets) e.id e.state)
  | none =>
    if (shared targets registered).isEmpty then .ok ()
    else .error (.alreadyRegistered table (shared targets registered))

/-- Requires that every source is served. -/
def sourcesServed (table : Text) (sources served : List Text) : Except Refusal Unit :=
  let missing := sources.filter fun s => !served.contains s
  if missing.isEmpty then .ok () else .error (.notServed table missing)

/-- Requires that no other entry in progress competes for the sources, unless force is used. -/
def uncontested (l : Lineage) (table : Text) (sources : List Text) (force : Bool) :
    Except Refusal Unit :=
  let rivals := l.rivals sources
  if rivals.isEmpty || force then .ok ()
  else .error (.contested table sources (rivals.map Entry.id))

/-- The entry of an id. -/
def known (l : Lineage) (table id : Text) : Except Refusal Entry :=
  match l.get? id with
  | some e => .ok e
  | none => .error (.unknownEntry id table)

/-- Requires that an entry may be moved to a state. -/
def movable (e : Entry) (next : State) : Except Refusal Unit :=
  (State.checkStep e.id e.state next).mapError .transition

end Check

end SegmentSwap
