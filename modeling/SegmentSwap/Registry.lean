import SegmentSwap.Text.Sorted

/-!
# The segment registry

The registry knows which segments of a table exist and which of them are placed, that is, can be
served. The listing of registered segments may be out of order; placement can be asked for all the
same.
-/

namespace SegmentSwap

/-- The segments that exist and those that are placed, each with its table. -/
structure Registry where
  registered : List (Text × Text)
  placed : List (Text × Text)
  deriving DecidableEq, Repr, Inhabited

/-- Why the registry does not answer. -/
inductive RegistryFault where
  /-- A segment to be placed is not registered. -/
  | notRegistered (segment table : Text)
  /-- The listing is out of order. -/
  | listingUnavailable
  deriving DecidableEq, Repr

/-- The wording of a registry fault. -/
def RegistryFault.message : RegistryFault → Text
  | .notRegistered segment table =>
    "Segment '" ++ segment ++ "' is not registered for '" ++ table ++ "'."
  | .listingUnavailable => "segment listing unavailable"

namespace Registry

/-- A registry without segments. -/
def empty : Registry := ⟨[], []⟩

/-- Adds a pair to a set of pairs. -/
def withPair (p : Text × Text) (set : List (Text × Text)) : List (Text × Text) :=
  if p ∈ set then set else set ++ [p]

/-- The registered segments of a table, each once. -/
def segments (r : Registry) (table : Text) : List Text :=
  (r.registered.filter fun p => p.1 == table).map (·.2)

/-- Whether a segment is placed. -/
def isAvailable (r : Registry) (table segment : Text) : Bool := r.placed.contains (table, segment)

/-- Registers a segment, and places it if asked to. -/
def addOne (table : Text) (placed : Bool) (r : Registry) (segment : Text) : Registry :=
  ⟨withPair (table, segment) r.registered,
    if placed then withPair (table, segment) r.placed else r.placed⟩

/-- Registers segments, and places them if asked to. -/
def add (r : Registry) (table : Text) (segments : List Text) (placed : Bool) : Registry :=
  segments.foldl (addOne table placed) r

/-- Places a registered segment. -/
def place (r : Registry) (table segment : Text) : Except RegistryFault Registry :=
  if r.registered.contains (table, segment) then
    .ok { r with placed := withPair (table, segment) r.placed }
  else .error (.notRegistered segment table)

/-- Forgets a segment. -/
def delete (r : Registry) (table segment : Text) : Registry :=
  ⟨r.registered.filter (· ≠ (table, segment)), r.placed.filter (· ≠ (table, segment))⟩

end Registry

end SegmentSwap
