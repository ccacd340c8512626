import SegmentSwap.Text.Basic

/-!
# Sorted names

Sets of names are shown in the order of their code points. `sortedSet` turns a list into that form:
rising, each name once.
-/

namespace SegmentSwap.Text

/-- Puts a name into a rising list, unless it is there. -/
def insertName (name : Text) : List Text → List Text
  | [] => [name]
  | first :: rest =>
    if name = first then first :: rest
    else if name < first then name :: first :: rest
    else first :: insertName name rest

/-- The distinct names of a list, in rising order of code points. -/
def sortedSet (names : List Text) : List Text :=
  names.foldr insertName []

/-- The distinct names of a list, in the order in which they first occur. -/
def distinct (names : List Text) : List Text :=
  names.foldl (fun seen name => if seen.contains name then seen else seen ++ [name]) []

theorem mem_insertName {x name : Text} {names : List Text} :
    x ∈ insertName name names ↔ x = name ∨ x ∈ names := by
  induction names with
  | nil => simp [insertName]
  | cons first rest ih =>
    by_cases h : name = first
    · simp [insertName, h]
    · by_cases h' : name < first
      · simp [insertName, h, h']
      · simp only [insertName, h, h', if_false, List.mem_cons, ih]
        constructor
        · rintro (rfl | rfl | h)
          · exact Or.inr (Or.inl rfl)
          · exact Or.inl rfl
          · exact Or.inr (Or.inr h)
        · rintro (rfl | rfl | h)
          · exact Or.inr (Or.inl rfl)
          · exact Or.inl rfl
          · exact Or.inr (Or.inr h)

theorem mem_sortedSet {x : Text} {names : List Text} : x ∈ sortedSet names ↔ x ∈ names := by
  induction names with
  | nil => simp [sortedSet]
  | cons name rest ih =>
    have : sortedSet (name :: rest) = insertName name (sortedSet rest) := rfl
    rw [this, mem_insertName, ih, List.mem_cons]

end SegmentSwap.Text
