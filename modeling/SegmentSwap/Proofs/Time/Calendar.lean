import SegmentSwap.Time.Calendar

/-!
# Dates and their ordinals

The days before a date are split into cycles of 400, 100, 4 and 1 years and a rest of days, which
are counted off along the months. A rest never is longer than its year: only the last year of a cycle
of four can have a day more, and it has one unless it ends a century.
-/

namespace SegmentSwap.Time

theorem length_monthLengths (leap : Bool) : (monthLengths leap).length = 12 := rfl

theorem sum_monthLengths (leap : Bool) :
    (monthLengths leap).foldr (· + ·) 0 = if leap then 366 else 365 := by
  cases leap <;> rfl

theorem isLeap_iff {year : Nat} :
    isLeap year = true ↔ year % 4 = 0 ∧ (year % 100 ≠ 0 ∨ year % 400 = 0) := by
  simp [isLeap]

namespace Date

/-- Where the days run out among months of the given lengths. -/
theorem splitMonth_spec {lengths : List Nat} {rest : Nat} (month : Nat)
    (h : rest < lengths.foldr (· + ·) 0) : ∃ k < lengths.length,
      (splitMonth month lengths rest).1 = month + k ∧
      1 ≤ (splitMonth month lengths rest).2 ∧
      (splitMonth month lengths rest).2 ≤ lengths.getD k 0 ∧
      (lengths.take k).foldr (· + ·) 0 + (splitMonth month lengths rest).2 = rest + 1 := by
  induction lengths generalizing month rest with
  | nil => exact absurd h (Nat.not_lt_zero rest)
  | cons length lengths ih =>
    rw [List.foldr_cons] at h
    rw [splitMonth]
    by_cases hrest : rest < length
    · rw [if_pos hrest]
      refine ⟨0, Nat.succ_pos _, rfl, Nat.succ_pos rest, hrest, ?_⟩
      exact Nat.zero_add _
    · rw [if_neg hrest]
      obtain ⟨k, hk, hmonth, hfirst, hlast, hsum⟩ :=
        ih (month + 1) (show rest - length < lengths.foldr (· + ·) 0 by omega)
      refine ⟨k + 1, Nat.succ_lt_succ hk, by omega, hfirst, hlast, ?_⟩
      rw [List.take_succ_cons, List.foldr_cons]
      omega

/-- The year that some days fall into, as the cycles tell it, and the days of the year before. -/
theorem ofOrdinal_eq (n : Nat) : ∃ a b c y rest,
    ofOrdinal n = ⟨400 * a + 100 * c + 4 * b + y + 1,
      (splitMonth 1 (monthLengths (isLeap (400 * a + 100 * c + 4 * b + y + 1))) rest).1,
      (splitMonth 1 (monthLengths (isLeap (400 * a + 100 * c + 4 * b + y + 1))) rest).2⟩ ∧
    c ≤ 3 ∧ b ≤ 24 ∧ y ≤ 3 ∧ 146097 * a + 36524 * c + 1461 * b + 365 * y + rest = n - 1 ∧
    rest ≤ 365 ∧ (rest = 365 → y = 3 ∧ (b = 24 → c = 3)) := by
  refine ⟨(n - 1) / 146097, ((n - 1) % 146097 - 36524 * min 3 ((n - 1) % 146097 / 36524)) / 1461,
    min 3 ((n - 1) % 146097 / 36524), _, _, rfl, ?_⟩
  omega

theorem daysBeforeYear_eq {a b c y : Nat} (hc : c ≤ 3) (hb : b ≤ 24) (hy : y ≤ 3) :
    daysBeforeYear (400 * a + 100 * c + 4 * b + y + 1) =
      146097 * a + 36524 * c + 1461 * b + 365 * y := by
  have hfours : (400 * a + 100 * c + 4 * b + y) / 4 = 100 * a + 25 * c + b := by omega
  have hcenturies : (400 * a + 100 * c + 4 * b + y) / 100 = 4 * a + c := by omega
  have hcycles : (400 * a + 100 * c + 4 * b + y) / 400 = a := by omega
  unfold daysBeforeYear
  dsimp only
  rw [Nat.add_sub_cancel, hfours, hcenturies, hcycles]
  omega

/-- The last year of a cycle of four is long, unless it ends a century that ends no cycle of 400. -/
theorem isLeap_last {a b c : Nat} (hb : b ≤ 24) (h : b = 24 → c = 3) :
    isLeap (400 * a + 100 * c + 4 * b + 3 + 1) = true := by
  refine isLeap_iff.mpr ⟨by omega, ?_⟩
  rcases Nat.lt_or_eq_of_le hb with hless | rfl
  · exact .inl (by omega)
  · obtain rfl := h rfl
    exact .inr (by omega)

/-- The years end with the year 9999. -/
theorem year_le {a b c y rest : Nat} (hb : b ≤ 24)
    (h : 146097 * a + 36524 * c + 1461 * b + 365 * y + rest ≤ 3652058) (hc : c ≤ 3) (hy : y ≤ 3) :
    400 * a + 100 * c + 4 * b + y + 1 ≤ 9999 := by
  rcases Nat.lt_or_ge a 24 with hless | hlast
  · omega
  · obtain rfl : a = 24 := by omega
    omega

/-- The calendar gives each of its days a date, which has the ordinal of that day. -/
theorem ordinal_ofOrdinal {n : Nat} (hfirst : 1 ≤ n) (hlast : n ≤ 3652059) :
    (ofOrdinal n).isValid = true ∧ (ofOrdinal n).ordinal = n := by
  obtain ⟨a, b, c, y, rest, heq, hc, hb, hy, hdays, hrest, hlong⟩ := ofOrdinal_eq n
  have hbefore := daysBeforeYear_eq (a := a) hc hb hy
  have hyears : 400 * a + 100 * c + 4 * b + y + 1 ≤ 9999 :=
    year_le hb (Nat.le_trans (Nat.le_of_eq hdays) (by omega)) hc hy
  have hyear_pos : 1 ≤ 400 * a + 100 * c + 4 * b + y + 1 := Nat.succ_pos _
  have hleaps : rest = 365 → isLeap (400 * a + 100 * c + 4 * b + y + 1) = true := fun hday => by
    obtain ⟨rfl, hcentury⟩ := hlong hday
    exact isLeap_last hb hcentury
  generalize 400 * a + 100 * c + 4 * b + y + 1 = year at heq hbefore hyears hyear_pos hleaps
  have hfits : rest < (monthLengths (isLeap year)).foldr (· + ·) 0 := by
    rw [sum_monthLengths]
    cases hleap : isLeap year with
    | true =>
      rw [if_pos rfl]
      omega
    | false =>
      -- the last day of a long year cannot come up
      rw [if_neg Bool.false_ne_true]
      refine Nat.lt_of_le_of_ne hrest fun hday => ?_
      rw [hleaps hday] at hleap
      cases hleap
  obtain ⟨k, hk, hmonth, hday, hlength, hsum⟩ := splitMonth_spec 1 hfits
  rw [length_monthLengths] at hk
  generalize splitMonth 1 (monthLengths (isLeap year)) rest = split at heq hmonth hday hlength hsum
  obtain ⟨month, day⟩ := split
  have hindex : month - 1 = k := by
    rw [show month = 1 + k from hmonth]
    omega
  rw [heq]
  constructor
  · have hdaysIn : daysInMonth year month = (monthLengths (isLeap year)).getD k 0 := by
      unfold daysInMonth
      rw [hindex, if_neg (by omega)]
    unfold isValid
    simp only [Bool.and_eq_true, decide_eq_true_eq, hdaysIn]
    omega
  · unfold ordinal
    dsimp only
    rw [hindex, hbefore]
    omega

end Date

end SegmentSwap.Time
