/-!
# Categories of failure

The failures that callers are told to expect form a tree, so that bad requests, lost races and
conditions that are not met yet can be told apart. `Category.ancestors` goes from a category up to
the root.
-/

namespace SegmentSwap

/-- A category of declared failures. -/
inductive Category where
  /-- Any failure. -/
  | any
  /-- The configuration or the settings of a table are invalid. -/
  | configuration
  /-- A record cannot be read or written. -/
  | store
  /-- The request cannot succeed as it is. -/
  | validation
  /-- The segment lists are malformed. -/
  | malformedRequest
  /-- Targets are produced or registered already. -/
  | duplicateTargets
  /-- Sources are not served. -/
  | unavailableSources
  /-- There is no such entry. -/
  | unknownEntry
  /-- The entry is resolved already. -/
  | invalidTransition
  /-- Another writer holds or has changed the same lineage. -/
  | conflict
  /-- A replacement in progress consumes the sources. -/
  | contested
  /-- A conditional write was lost. -/
  | lostWrite
  /-- Conditional writes were lost up to the limit. -/
  | exhausted
  /-- The caller has to do something first. -/
  | precondition
  /-- Targets are not available yet. -/
  | notUploaded
  /-- Targets are available already. -/
  | uploaded
  deriving DecidableEq, Repr

namespace Category

/-- The category right above. -/
def parent? : Category → Option Category
  | .any => none
  | .configuration | .store | .validation | .conflict | .precondition => some .any
  | .malformedRequest | .duplicateTargets | .unavailableSources | .unknownEntry
  | .invalidTransition => some .validation
  | .contested | .lostWrite | .exhausted => some .conflict
  | .notUploaded | .uploaded => some .precondition

/-- The distance from the root. -/
def depth : Category → Nat
  | .any => 0
  | .configuration | .store | .validation | .conflict | .precondition => 1
  | _ => 2

theorem depth_of_parent? {c p : Category} (h : c.parent? = some p) : p.depth < c.depth := by
  cases c <;> simp [parent?] at h <;> subst h <;> decide

/-- A category and all above it, up to the root. -/
def ancestors (c : Category) : List Category :=
  match _h : c.parent? with
  | none => [c]
  | some p => c :: ancestors p
termination_by c.depth
decreasing_by exact depth_of_parent? _h

/-- Whether failures of this category name the segments that the caller has to deal with. -/
def namesSegments (c : Category) : Bool := c.ancestors.contains .precondition

end Category

end SegmentSwap
