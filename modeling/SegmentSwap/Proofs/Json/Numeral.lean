import SegmentSwap.Json.Reader
import SegmentSwap.Json.Writer

/-!
# Reading the whole numbers that are written

A whole number is written by its decimal digits, the first of which is zero for zero alone. The
reader takes all digits there are and goes on if a point or an exponent follows, so a number is read
back before anything else.
-/

namespace SegmentSwap.Json.Reader

/-- What may follow a whole number: no digit, no point and no exponent. -/
def EndsNumber (rest : List Char) : Prop :=
  ∀ c ∈ rest.head?, Text.isAsciiDigit c = false ∧ c ≠ '.' ∧ c ≠ 'e' ∧ c ≠ 'E'

theorem isAsciiDigit_of_isDigit {c : Char} (h : c.isDigit = true) : Text.isAsciiDigit c = true := by
  unfold Text.isAsciiDigit
  unfold Char.isDigit at h
  rw [Bool.and_eq_true, decide_eq_true_eq, decide_eq_true_eq] at h ⊢
  exact h

theorem ofDigits_toDigits (n : Nat) : ofDigits (Nat.toDigits 10 n) = n :=
  Nat.ofDigitChars_ten_toDigits

theorem isAsciiDigit_toDigits (n : Nat) :
    ∀ c ∈ Nat.toDigits 10 n, Text.isAsciiDigit c = true := fun _ hc =>
  isAsciiDigit_of_isDigit (Nat.isDigit_of_mem_toDigits (by decide) (by decide) hc)

theorem length_toDigits_le {n k : Nat} (hk : 0 < k) (h : n < Nat.pow 10 k) :
    (Nat.toDigits 10 n).length ≤ k := (Nat.length_toDigits_le_iff (by decide) hk).mpr h

/-- Only zero starts with the digit zero. -/
theorem head?_toDigits_ne_zero (n : Nat) (h : 0 < n) : (Nat.toDigits 10 n).head? ≠ some '0' := by
  induction n using Nat.strongRecOn with
  | ind n ih =>
    rw [Nat.toDigits_eq_if (by decide)]
    split
    · rename_i hsmall
      have hdigit : ∀ d, d < 10 → 0 < d → Nat.digitChar d ≠ '0' := by decide
      intro hzero
      exact hdigit n hsmall h (Option.some.inj hzero)
    · have hhead := ih (n / 10) (by omega) (by omega)
      intro hzero
      rw [List.head?_append] at hzero
      cases hd : (Nat.toDigits 10 (n / 10)).head? with
      | none => exact Nat.toDigits_ne_nil (List.head?_eq_none_iff.mp hd)
      | some d =>
        rw [hd] at hzero hhead
        exact hhead hzero

section Numbers

variable {rest : List Char}

theorem takeWhile_digits {ds : List Char} (hds : ∀ c ∈ ds, Text.isAsciiDigit c = true)
    (hrest : EndsNumber rest) :
    (ds ++ rest).takeWhile Text.isAsciiDigit = ds ∧
      (ds ++ rest).dropWhile Text.isAsciiDigit = rest := by
  have hstop : rest.takeWhile Text.isAsciiDigit = [] ∧
      rest.dropWhile Text.isAsciiDigit = rest := by
    cases rest with
    | nil => exact ⟨rfl, rfl⟩
    | cons c cs =>
      have hc : Text.isAsciiDigit c = false := (hrest c rfl).1
      simp [hc]
  rw [List.takeWhile_append_of_pos hds, List.dropWhile_append_of_pos hds, hstop.1, hstop.2,
    List.append_nil]
  exact ⟨rfl, rfl⟩

/-- All digits of a written number stand before the point. -/
theorem wholePart_toDigits (n : Nat) (hrest : EndsNumber rest) :
    wholePart (Nat.toDigits 10 n ++ rest) = (Nat.toDigits 10 n, rest) := by
  cases n with
  | zero => rfl
  | succ m =>
    have hhead := head?_toDigits_ne_zero (m + 1) (Nat.succ_pos m)
    have hsplit := takeWhile_digits (isAsciiDigit_toDigits (m + 1)) hrest
    have hne : Nat.toDigits 10 (m + 1) ≠ [] := Nat.toDigits_ne_nil
    generalize Nat.toDigits 10 (m + 1) = ds at hhead hsplit hne
    unfold wholePart
    split
    · rename_i tail heq
      cases ds with
      | nil => exact absurd rfl hne
      | cons d ds =>
        have hd : d = '0' := (List.cons.inj heq).1
        exact absurd (congrArg some hd) hhead
    · rw [hsplit.1, hsplit.2]

/-- The digits of a number are read as that number if nothing else belongs to it. -/
theorem unsigned_toDigits (negative : Bool) (start : Nat) {n : Nat}
    (hn : n < Nat.pow 10 maxIntegerDigits) (hrest : EndsNumber rest) :
    unsigned negative start (Nat.toDigits 10 n ++ rest) =
      .ok (.int (if negative then -(n : Int) else n), rest) := by
  have hlength : (Nat.toDigits 10 n).length ≤ maxIntegerDigits :=
    length_toDigits_le (by decide) hn
  have hne : (Nat.toDigits 10 n).isEmpty = false := by
    rw [List.isEmpty_eq_false_iff]
    exact Nat.toDigits_ne_nil
  have hfraction : fraction rest = ([], rest) := by
    cases rest with
    | nil => rfl
    | cons c cs =>
      unfold fraction
      split
      · rename_i heq
        exact absurd (List.cons.inj heq).1 (hrest c rfl).2.1
      · rfl
  have hexponent : exponent rest = (none, rest) := by
    cases rest with
    | nil => rfl
    | cons c cs =>
      have hletter : ¬ (c = 'e' ∨ c = 'E') := not_or.mpr (hrest c rfl).2.2
      show (if c = 'e' ∨ c = 'E' then _ else (none, c :: cs)) = _
      rw [if_neg hletter]
  unfold unsigned
  simp only [wholePart_toDigits n hrest, hne, hfraction, hexponent, ofDigits_toDigits,
    if_neg (Nat.not_lt.mpr hlength)]
  rfl

theorem dropWord?_of_head_ne {word : String} {w c : Char} {ws : List Char} (cs : List Char)
    (hword : word.toList = w :: ws) (h : w ≠ c) : dropWord? word (c :: cs) = none := by
  unfold dropWord?
  simp [hword, h]

theorem toList_toString_int (n : Int) : (toString n).toList =
    if 0 ≤ n then Nat.toDigits 10 n.natAbs else '-' :: Nat.toDigits 10 n.natAbs := by
  rw [Int.toString_eq_repr, Int.repr_eq_if]
  split
  · rename_i h
    obtain ⟨m, rfl⟩ := Int.eq_ofNat_of_zero_le h
    rw [Nat.repr_eq_ofList_toDigits, String.toList_ofList]
    rfl
  · rename_i h
    have habs : (-n).toNat = n.natAbs := by omega
    have hdigits : n.natAbs.repr.toList = Nat.toDigits 10 n.natAbs := by
      rw [Nat.repr_eq_ofList_toDigits, String.toList_ofList]
    rw [String.toList_append, habs, hdigits]
    rfl

theorem digit_ne {c d : Char} (hc : Text.isAsciiDigit c = true) (hd : Text.isAsciiDigit d = false) :
    d ≠ c := by
  rintro rfl
  rw [hc] at hd
  exact Bool.noConfusion hd

/-- A number without a sign is none of the words. -/
theorem scalar_digit {c : Char} {cs : List Char} (hc : Text.isAsciiDigit c = true) :
    scalar (c :: cs) = unsigned false (c :: cs).length (c :: cs) := by
  have hword : ∀ (word : String) {w : Char} {ws : List Char}, word.toList = w :: ws →
      Text.isAsciiDigit w = false → dropWord? word (c :: cs) = none :=
    fun _ _ _ hword hw => dropWord?_of_head_ne cs hword (digit_ne hc hw)
  have hsign : '-' ≠ c := digit_ne hc rfl
  unfold scalar
  rw [hword "null" rfl rfl, hword "true" rfl rfl,
    hword "false" rfl rfl, hword "NaN" rfl rfl,
    hword "Infinity" rfl rfl, hword "-Infinity" rfl rfl]
  dsimp only
  split
  · rename_i heq
    exact absurd (List.cons.inj heq).1.symm hsign
  · rfl

/-- Behind a sign a number is not the infinity. -/
theorem scalar_sign {c : Char} {cs : List Char} (hc : Text.isAsciiDigit c = true) :
    scalar ('-' :: c :: cs) = unsigned true ('-' :: c :: cs).length (c :: cs) := by
  have hword : ∀ (word : String) {w : Char} {ws : List Char}, word.toList = w :: ws →
      w ≠ '-' → dropWord? word ('-' :: c :: cs) = none :=
    fun _ _ _ hword hw => dropWord?_of_head_ne _ hword hw
  have hinfinity : dropWord? "-Infinity" ('-' :: c :: cs) = none := by
    have hletter : 'I' ≠ c := digit_ne hc rfl
    unfold dropWord?
    simp [hletter]
  unfold scalar
  rw [hword "null" rfl (by decide), hword "true" rfl (by decide),
    hword "false" rfl (by decide), hword "NaN" rfl (by decide),
    hword "Infinity" rfl (by decide), hinfinity]
  rfl

/-- A whole number that is written is read back. -/
theorem scalar_int {n : Int} (hn : isShowable n = true) (hrest : EndsNumber rest) :
    scalar ((toString n).toList ++ rest) = .ok (.int n, rest) := by
  have hsize : n.natAbs < Nat.pow 10 maxIntegerDigits := of_decide_eq_true hn
  have hread := fun negative start => unsigned_toDigits negative start hsize hrest
  have hdigits := isAsciiDigit_toDigits n.natAbs
  have hne : Nat.toDigits 10 n.natAbs ≠ [] := Nat.toDigits_ne_nil
  rw [toList_toString_int]
  generalize Nat.toDigits 10 n.natAbs = ds at hread hdigits hne
  obtain ⟨d, ds, rfl⟩ := List.exists_cons_of_ne_nil hne
  have hd := hdigits d List.mem_cons_self
  split
  · rename_i h
    have habs : (n.natAbs : Int) = n := by omega
    rw [List.cons_append, scalar_digit hd, ← List.cons_append, hread, if_neg (by decide), habs]
  · rename_i h
    have habs : -(n.natAbs : Int) = n := by omega
    rw [List.cons_append, List.cons_append, scalar_sign hd, ← List.cons_append, hread,
      if_pos rfl, habs]

end Numbers

end SegmentSwap.Json.Reader
