import SegmentSwap.Text.Utf8

/-!
# Decoding what has been encoded

The bytes of a text are decoded one character after the other: the first byte of a character tells
how many follow, and the numbers that are encoded in a given length are exactly those that decoding
accepts in this length.
-/

namespace SegmentSwap.Text.Utf8

theorem char_range (c : Char) : c.toNat < 0xD800 ∨ 0xDFFF < c.toNat ∧ c.toNat < 0x110000 := c.valid

theorem toNat_ofNat {n : Nat} (h : n < 0x100) : (UInt8.ofNat n).toNat = n := by
  rw [UInt8.toNat_ofNat']
  exact Nat.mod_eq_of_lt h

theorem isTail_iff {b : Nat} : isTail b = true ↔ 0x80 ≤ b ∧ b ≤ 0xBF := by
  simp [isTail]

theorem isSecond_iff {lead b : Nat} : isSecond lead b = true ↔
    0x80 ≤ b ∧ b ≤ 0xBF ∧ (lead = 0xE0 → 0xA0 ≤ b) ∧ (lead = 0xED → b ≤ 0x9F) ∧
      (lead = 0xF0 → 0x90 ≤ b) ∧ (lead = 0xF4 → b ≤ 0x8F) := by
  unfold isSecond
  repeat' split
  all_goals simp only [Bool.and_eq_true, decide_eq_true_eq]; omega

section Lengths

variable (before : Nat) {a b c d : Nat} (rest : List UInt8)

theorem decodeFrom_one (ha : a < 0x80) :
    decodeFrom before (UInt8.ofNat a :: rest) =
      (decodeFrom (before + 1) rest).map (Char.ofNat a :: ·) := by
  have hlead := toNat_ofNat (n := a) (by omega)
  rw [decodeFrom.eq_def]
  simp only [hlead, if_pos ha]

theorem decodeFrom_two (ha : 0xC2 ≤ a ∧ a < 0xE0) (hb : isSecond a b = true) :
    decodeFrom before (UInt8.ofNat a :: UInt8.ofNat b :: rest) =
      (decodeFrom (before + 2) rest).map
        (Char.ofNat ((a - 0xC0) * 0x40 + (b - 0x80)) :: ·) := by
  have hlead := toNat_ofNat (n := a) (by omega)
  have hnext := toNat_ofNat (n := b) (by rw [isSecond_iff] at hb; omega)
  have h1 : ¬ a < 0x80 := by omega
  have h2 : ¬ a < 0xC2 := by omega
  rw [decodeFrom.eq_def]
  simp only [hlead, hnext, if_neg h1, if_neg h2, if_pos ha.2, if_pos hb]

theorem decodeFrom_three (ha : 0xE0 ≤ a ∧ a < 0xF0) (hb : isSecond a b = true)
    (hc : isTail c = true) :
    decodeFrom before (UInt8.ofNat a :: UInt8.ofNat b :: UInt8.ofNat c :: rest) =
      (decodeFrom (before + 3) rest).map
        (Char.ofNat ((a - 0xE0) * 0x1000 + (b - 0x80) * 0x40 + (c - 0x80)) :: ·) := by
  have hlead := toNat_ofNat (n := a) (by omega)
  have hnext := toNat_ofNat (n := b) (by rw [isSecond_iff] at hb; omega)
  have hthird := toNat_ofNat (n := c) (by rw [isTail_iff] at hc; omega)
  have h1 : ¬ a < 0x80 := by omega
  have h2 : ¬ a < 0xC2 := by omega
  have h3 : ¬ a < 0xE0 := by omega
  rw [decodeFrom.eq_def]
  simp only [hlead, hnext, hthird, if_neg h1, if_neg h2, if_neg h3, if_pos ha.2, if_pos hb,
    if_pos hc]

theorem decodeFrom_four (ha : 0xF0 ≤ a ∧ a < 0xF5) (hb : isSecond a b = true)
    (hc : isTail c = true) (hd : isTail d = true) :
    decodeFrom before
        (UInt8.ofNat a :: UInt8.ofNat b :: UInt8.ofNat c :: UInt8.ofNat d :: rest) =
      (decodeFrom (before + 4) rest).map
        (Char.ofNat ((a - 0xF0) * 0x40000 + (b - 0x80) * 0x1000 + (c - 0x80) * 0x40 +
          (d - 0x80)) :: ·) := by
  have hlead := toNat_ofNat (n := a) (by omega)
  have hnext := toNat_ofNat (n := b) (by rw [isSecond_iff] at hb; omega)
  have hthird := toNat_ofNat (n := c) (by rw [isTail_iff] at hc; omega)
  have hfourth := toNat_ofNat (n := d) (by rw [isTail_iff] at hd; omega)
  have h1 : ¬ a < 0x80 := by omega
  have h2 : ¬ a < 0xC2 := by omega
  have h3 : ¬ a < 0xE0 := by omega
  have h4 : ¬ a < 0xF0 := by omega
  rw [decodeFrom.eq_def]
  simp only [hlead, hnext, hthird, hfourth, if_neg h1, if_neg h2, if_neg h3, if_neg h4,
    if_pos ha.2, if_pos hb, if_pos hc, if_pos hd]

end Lengths

/-- Decoding takes the bytes of a character off the front. -/
theorem decodeFrom_encodeChar (before : Nat) (c : Char) (rest : List UInt8) :
    decodeFrom before (encodeChar c ++ rest) =
      (decodeFrom (before + (encodeChar c).length) rest).map (c :: ·) := by
  have hc := char_range c
  unfold encodeChar
  dsimp only
  generalize hn : c.toNat = n at hc
  obtain rfl : Char.ofNat n = c := by rw [← hn, Char.ofNat_toNat]
  split
  · rename_i h
    exact decodeFrom_one before rest h
  · split
    · have hb : isSecond (0xC0 + n / 0x40) (0x80 + n % 0x40) = true := by
        rw [isSecond_iff]
        omega
      have hnumber : (0xC0 + n / 0x40 - 0xC0) * 0x40 + (0x80 + n % 0x40 - 0x80) = n := by omega
      have hdecode := decodeFrom_two before rest (by omega) hb
      rw [hnumber] at hdecode
      exact hdecode
    · split
      · have hb : isSecond (0xE0 + n / 0x1000) (0x80 + n / 0x40 % 0x40) = true := by
          rw [isSecond_iff]
          omega
        have ht : isTail (0x80 + n % 0x40) = true := by
          rw [isTail_iff]
          omega
        have hnumber : (0xE0 + n / 0x1000 - 0xE0) * 0x1000 +
            (0x80 + n / 0x40 % 0x40 - 0x80) * 0x40 + (0x80 + n % 0x40 - 0x80) = n := by omega
        have hdecode := decodeFrom_three before rest (by omega) hb ht
        rw [hnumber] at hdecode
        exact hdecode
      · have hb : isSecond (0xF0 + n / 0x40000) (0x80 + n / 0x1000 % 0x40) = true := by
          rw [isSecond_iff]
          omega
        have hthird : isTail (0x80 + n / 0x40 % 0x40) = true := by
          rw [isTail_iff]
          omega
        have hfourth : isTail (0x80 + n % 0x40) = true := by
          rw [isTail_iff]
          omega
        have hnumber : (0xF0 + n / 0x40000 - 0xF0) * 0x40000 +
            (0x80 + n / 0x1000 % 0x40 - 0x80) * 0x1000 +
            (0x80 + n / 0x40 % 0x40 - 0x80) * 0x40 + (0x80 + n % 0x40 - 0x80) = n := by omega
        have hdecode := decodeFrom_four before rest (by omega) hb hthird hfourth
        rw [hnumber] at hdecode
        exact hdecode

/-- A text is decoded from the bytes that encode it. -/
theorem decode_encode (s : String) : decode (encode s) = .ok s := by
  have hchars : ∀ (cs : List Char) (before : Nat),
      decodeFrom before (cs.flatMap encodeChar) = .ok cs := by
    intro cs
    induction cs with
    | nil =>
      intro before
      rw [List.flatMap_nil, decodeFrom]
    | cons c cs ih =>
      intro before
      rw [List.flatMap_cons, decodeFrom_encodeChar, ih]
      rfl
  unfold decode encode
  rw [hchars]
  show Except.ok (String.ofList s.toList) = .ok s
  rw [String.ofList_toList]

end SegmentSwap.Text.Utf8
