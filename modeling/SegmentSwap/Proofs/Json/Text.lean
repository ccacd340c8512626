import SegmentSwap.Json.Reader
import SegmentSwap.Json.Writer

/-!
# Reading the texts that are written

A character is written in one of four ways: as itself, as a letter after a backslash, by its number,
or by the numbers of the two halves that encode it. The reader turns each of them into the same code
units, and the code units of a text without halves back into its characters. Two halves that stand
side by side are read as the one character that they encode, so that a text comes back rejoined; it
is written like the text that it comes back as.
-/

namespace SegmentSwap

namespace Text

/-- Whether a text has no halves of surrogate pairs. -/
def isWhole (t : Text) : Bool := t.points.all fun p => decide (p = .char p.toChar)

theorem mem_of_isWhole {t : Text} (h : t.isWhole = true) {p : Point} (hp : p ∈ t.points) :
    ∃ c, p = .char c :=
  ⟨p.toChar, by simpa using List.all_eq_true.mp h p hp⟩

theorem isWhole_ofString (s : String) : (ofString s).isWhole = true := by
  unfold isWhole
  rw [List.all_eq_true]
  intro p hp
  obtain ⟨c, -, rfl⟩ := List.mem_map.mp hp
  exact decide_eq_true rfl

/-- A text without halves is the text of its characters. -/
theorem ofString_toString {t : Text} (h : t.isWhole = true) : ofString t.toString = t := by
  have hpoints : ∀ ps : List Point, (∀ p ∈ ps, ∃ c, p = .char c) →
      (ps.map Point.toChar).map Point.char = ps := by
    intro ps hps
    rw [List.map_map]
    conv => rhs; rw [← List.map_id ps]
    apply List.map_congr_left
    intro p hp
    obtain ⟨c, rfl⟩ := hps p hp
    rfl
  show Text.mk ((String.ofList t.chars).toList.map Point.char) = t
  rw [String.toList_ofList]
  show Text.mk ((t.points.map Point.toChar).map Point.char) = t
  rw [hpoints t.points fun p hp => mem_of_isWhole h hp]

end Text

theorem Point.ofNumber_toNat (c : Char) : Point.ofNumber c.toNat = .char c := by
  have hc : c.toNat < 0xD800 ∨ 0xDFFF < c.toNat ∧ c.toNat < 0x110000 := c.valid
  have hhalf : ¬ (c.toNat - 0xD800 < 0x800 ∧ 0xD800 ≤ c.toNat) := by omega
  have hlast : c.toNat < 0x110000 := by omega
  unfold Point.ofNumber
  rw [dif_neg hhalf, if_pos hlast, Char.ofNat_toNat]

namespace Json.Reader

open Writer

theorem hexValue?_hexDigit : ∀ n, n < 16 → hexValue? (Text.hexDigit n) = some n := by decide

theorem hexDigits_four (n : Nat) : Text.hexDigits 4 n =
    [Text.hexDigit (n / 16 / 16 / 16 % 16), Text.hexDigit (n / 16 / 16 % 16),
      Text.hexDigit (n / 16 % 16), Text.hexDigit (n % 16)] := rfl

theorem hexQuad?_hexDigits {n : Nat} (h : n < 0x10000) :
    hexQuad? (Text.hexDigit (n / 16 / 16 / 16 % 16)) (Text.hexDigit (n / 16 / 16 % 16))
      (Text.hexDigit (n / 16 % 16)) (Text.hexDigit (n % 16)) = some n := by
  unfold hexQuad?
  rw [hexValue?_hexDigit _ (by omega), hexValue?_hexDigit _ (by omega),
    hexValue?_hexDigit _ (by omega), hexValue?_hexDigit _ (by omega)]
  show some _ = some n
  congr 1
  omega

section Units

variable {start : Nat} {rest : List Char}

/-- A code unit that is escaped by its number is read back, unless nothing follows. -/
theorem units_unitEscape {n : Nat} (h : n < 0x10000) (hrest : rest ≠ []) :
    units start (unitEscape n ++ rest) = (units start rest).map fun r => (n :: r.1, r.2) := by
  unfold unitEscape
  rw [hexDigits_four, List.cons_append, List.cons_append, units.eq_def]
  dsimp only [List.cons_append, List.nil_append]
  simp only [hexQuad?_hexDigits h, List.isEmpty_iff, if_neg hrest]
  rfl

theorem units_letterEscape {e : Char} {n : Nat} (hu : e ≠ 'u') (h : letterEscape? e = some n) :
    units start ('\\' :: e :: rest) = (units start rest).map fun r => (n :: r.1, r.2) := by
  rw [units.eq_def]
  simp only [if_neg hu, h]
  rfl

theorem units_plain {c : Char} (hquote : c ≠ '"') (hbackslash : c ≠ '\\') (h : ¬ c.toNat < 0x20) :
    units start (c :: rest) = (units start rest).map fun r => (c.toNat :: r.1, r.2) := by
  rw [units.eq_def]
  simp only [if_neg hquote, if_neg hbackslash, if_neg h]

/-- The code units that encode a character. -/
def charUnits (c : Char) : List Nat :=
  if c.toNat < 0x10000 then [c.toNat]
  else [0xD800 + (c.toNat - 0x10000) / 0x400, 0xDC00 + (c.toNat - 0x10000) % 0x400]

/-- However a character is written, its code units are read. -/
theorem units_escapeChar (c : Char) (hrest : rest ≠ []) :
    units start (escapeChar c ++ rest) =
      (units start rest).map fun r => (charUnits c ++ r.1, r.2) := by
  have hc : c.toNat < 0xD800 ∨ 0xDFFF < c.toNat ∧ c.toNat < 0x110000 := c.valid
  have hletter : ∀ {e : Char}, e ≠ 'u' → letterEscape? e = some c.toNat → c.toNat < 0x10000 →
      units start (['\\', e] ++ rest) =
        (units start rest).map fun r => (charUnits c ++ r.1, r.2) := by
    intro e hu he hsmall
    unfold charUnits
    rw [if_pos hsmall]
    exact units_letterEscape hu he
  by_cases hquote : c = '"'
  · subst c
    exact hletter (by decide) rfl (by decide)
  by_cases hbackslash : c = '\\'
  · subst c
    exact hletter (by decide) rfl (by decide)
  by_cases hnewline : c = '\n'
  · subst c
    exact hletter (by decide) rfl (by decide)
  by_cases hreturn : c = '\r'
  · subst c
    exact hletter (by decide) rfl (by decide)
  by_cases htab : c = '\t'
  · subst c
    exact hletter (by decide) rfl (by decide)
  rw [escapeChar, if_neg hquote, if_neg hbackslash, if_neg hnewline, if_neg hreturn, if_neg htab]
  by_cases hback : c.toNat = 0x8
  · rw [if_pos hback]
    exact hletter (by decide) (by rw [hback]; rfl) (by omega)
  by_cases hfeed : c.toNat = 0xC
  · rw [if_neg hback, if_pos hfeed]
    exact hletter (by decide) (by rw [hfeed]; rfl) (by omega)
  rw [if_neg hback, if_neg hfeed]
  unfold charUnits
  by_cases hprintable : 0x20 ≤ c.toNat ∧ c.toNat < 0x7F
  · rw [if_pos hprintable, if_pos (by omega)]
    exact units_plain hquote hbackslash (by omega)
  rw [if_neg hprintable]
  by_cases hsmall : c.toNat < 0x10000
  · rw [if_pos hsmall, if_pos hsmall]
    exact units_unitEscape hsmall hrest
  · -- two escapes in a row: the first is never the end of what is read
    rw [if_neg hsmall, if_neg hsmall, List.append_assoc,
      units_unitEscape (by omega) (by simp [unitEscape]), units_unitEscape (by omega) hrest]
    cases units start rest <;> rfl

end Units

theorem ofUnits_charUnits (c : Char) (us : List Nat) :
    ofUnits (charUnits c ++ us) = .char c :: ofUnits us := by
  have hc : c.toNat < 0xD800 ∨ 0xDFFF < c.toNat ∧ c.toNat < 0x110000 := c.valid
  unfold charUnits
  split
  · have hhigh : isHighSurrogate c.toNat = false := by
      unfold isHighSurrogate
      rw [Bool.and_eq_false_iff, decide_eq_false_iff_not, decide_eq_false_iff_not]
      omega
    cases us with
    | nil =>
      show [Point.ofNumber c.toNat] = _
      rw [Point.ofNumber_toNat]
      rfl
    | cons m us =>
      show ofUnits (c.toNat :: m :: us) = _
      rw [ofUnits, hhigh, Bool.false_and, if_neg (by decide), Point.ofNumber_toNat]
  · have hpair : 0x10000 + (0xD800 + (c.toNat - 0x10000) / 0x400 - 0xD800) * 0x400 +
        (0xDC00 + (c.toNat - 0x10000) % 0x400 - 0xDC00) = c.toNat := by omega
    have hhigh : isHighSurrogate (0xD800 + (c.toNat - 0x10000) / 0x400) = true := by
      unfold isHighSurrogate
      rw [Bool.and_eq_true, decide_eq_true_eq, decide_eq_true_eq]
      omega
    have hlow : isLowSurrogate (0xDC00 + (c.toNat - 0x10000) % 0x400) = true := by
      unfold isLowSurrogate
      rw [Bool.and_eq_true, decide_eq_true_eq, decide_eq_true_eq]
      omega
    show ofUnits (_ :: _ :: us) = _
    rw [ofUnits, hhigh, hlow, Bool.and_true, if_pos rfl, hpair, Point.ofNumber_toNat]

/-- The code units that encode a code point. -/
def pointUnits : Point → List Nat
  | .char c => charUnits c
  | .half n => [0xD800 + n.val]

theorem units_escape (p : Point) {start : Nat} {rest : List Char} (hrest : rest ≠ []) :
    units start (escape p ++ rest) =
      (units start rest).map fun r => (pointUnits p ++ r.1, r.2) := by
  cases p with
  | char c => exact units_escapeChar c hrest
  | half n => exact units_unitEscape (by omega) hrest

end Json.Reader

/-- The text with halves that stand side by side joined to characters. -/
def Text.rejoined (t : Text) : Text :=
  ⟨Json.Reader.ofUnits (t.points.flatMap Json.Reader.pointUnits)⟩

theorem Text.rejoined_of_isWhole {t : Text} (h : t.isWhole = true) : t.rejoined = t := by
  have hpoints : ∀ ps : List Point, (∀ p ∈ ps, ∃ c, p = .char c) →
      Json.Reader.ofUnits (ps.flatMap Json.Reader.pointUnits) = ps := by
    intro ps hps
    induction ps with
    | nil => rfl
    | cons p ps ih =>
      obtain ⟨c, rfl⟩ := hps p List.mem_cons_self
      rw [List.flatMap_cons]
      show Json.Reader.ofUnits (Json.Reader.charUnits c ++ _) = _
      rw [Json.Reader.ofUnits_charUnits, ih fun q hq => hps q (List.mem_cons_of_mem _ hq)]
  unfold rejoined
  rw [hpoints t.points fun p hp => mem_of_isWhole h hp]

namespace Json.Reader

open Writer

/-- A text that is written between quotes is read back after the first of them. -/
theorem text_escape (t : Text) (rest : List Char) :
    text (t.points.flatMap escape ++ '"' :: rest) = .ok (t.rejoined, rest) := by
  have hunits : ∀ (ps : List Point) (start : Nat),
      units start (ps.flatMap escape ++ '"' :: rest) = .ok (ps.flatMap pointUnits, rest) := by
    intro ps start
    induction ps with
    | nil =>
      rw [List.flatMap_nil, List.nil_append, units.eq_def]
      rfl
    | cons p ps ih =>
      rw [List.flatMap_cons, List.append_assoc, units_escape p (by simp), ih]
      rfl
  unfold text
  rw [hunits]
  rfl

theorem escape_half {n : Nat} (hlow : 0xD800 ≤ n) (hhigh : n < 0xE000) :
    escape (.ofNumber n) = unitEscape n := by
  have hrange : n - 0xD800 < 0x800 ∧ 0xD800 ≤ n := by omega
  have hsum : 0xD800 + (n - 0xD800) = n := by omega
  unfold Point.ofNumber
  rw [dif_pos hrange, escape, hsum]

theorem escapeChar_large {c : Char} (h : 0x10000 ≤ c.toNat) :
    escapeChar c = unitEscape (0xD800 + (c.toNat - 0x10000) / 0x400) ++
      unitEscape (0xDC00 + (c.toNat - 0x10000) % 0x400) := by
  have hne : ∀ d : Char, d.toNat < 0x10000 → c ≠ d := by
    rintro d hd rfl
    omega
  unfold escapeChar
  rw [if_neg (hne _ (by decide)), if_neg (hne _ (by decide)), if_neg (hne _ (by decide)),
    if_neg (hne _ (by decide)), if_neg (hne _ (by decide)), if_neg (by omega), if_neg (by omega),
    if_neg (by omega), if_neg (by omega)]

/-- A code point is written like its code units, each of them taken for a code point. -/
theorem escape_pointUnits (p : Point) :
    (pointUnits p).flatMap (fun n => escape (.ofNumber n)) = escape p := by
  cases p with
  | half n =>
    have hn := n.isLt
    rw [pointUnits, List.flatMap_singleton]
    exact escape_half (by omega) (by omega)
  | char c =>
    have hc : c.toNat < 0xD800 ∨ 0xDFFF < c.toNat ∧ c.toNat < 0x110000 := c.valid
    rw [pointUnits, charUnits]
    by_cases hsmall : c.toNat < 0x10000
    · rw [if_pos hsmall, List.flatMap_singleton, Point.ofNumber_toNat]
    · rw [if_neg hsmall, List.flatMap_cons, List.flatMap_singleton,
        escape_half (by omega) (by omega), escape_half (by omega) (by omega), escape,
        escapeChar_large (by omega)]

theorem escape_ofUnits (us : List Nat) :
    (ofUnits us).flatMap escape = us.flatMap fun n => escape (.ofNumber n) := by
  induction us using ofUnits.induct with
  | case1 => rfl
  | case2 n => rw [ofUnits, List.flatMap_singleton, List.flatMap_singleton]
  | case3 n m rest hpair ih =>
    have hhalves := Bool.and_eq_true_iff.mp hpair
    unfold isHighSurrogate isLowSurrogate at hhalves
    simp only [Bool.and_eq_true, decide_eq_true_eq] at hhalves
    obtain ⟨⟨hn, hn'⟩, hm, hm'⟩ := hhalves
    have hjoined : escape (.ofNumber (0x10000 + (n - 0xD800) * 0x400 + (m - 0xDC00))) =
        unitEscape n ++ unitEscape m := by
      generalize hx : 0x10000 + (n - 0xD800) * 0x400 + (m - 0xDC00) = x
      have hvalid : x.isValidChar := .inr (by omega)
      have htoNat : (Char.ofNat x).toNat = x := by
        unfold Char.ofNat
        rw [dif_pos hvalid]
        exact UInt32.toNat_ofNatLT
      have hpoint : Point.ofNumber x = .char (Char.ofNat x) := by
        rw [← Point.ofNumber_toNat, htoNat]
      have hfirst : 0xD800 + (x - 0x10000) / 0x400 = n := by omega
      have hsecond : 0xDC00 + (x - 0x10000) % 0x400 = m := by omega
      rw [hpoint, escape, escapeChar_large (by omega), htoNat, hfirst, hsecond]
    rw [ofUnits, if_pos hpair, List.flatMap_cons, ih, hjoined, List.flatMap_cons,
      List.flatMap_cons, escape_half (by omega) (by omega), escape_half (by omega) (by omega),
      List.append_assoc]
  | case4 n m rest hpair ih =>
    rw [ofUnits, if_neg hpair, List.flatMap_cons, ih]
    rfl

/-- A text is written like the text that it is read as. -/
theorem escape_rejoined (t : Text) :
    t.rejoined.points.flatMap escape = t.points.flatMap escape := by
  show (ofUnits _).flatMap escape = _
  rw [escape_ofUnits, List.flatMap_assoc]
  congr 1
  funext p
  exact escape_pointUnits p

end Json.Reader

/-- A text that has been read keeps its form. -/
theorem Text.rejoined_rejoined (t : Text) : t.rejoined.rejoined = t.rejoined := by
  have hread := Json.Reader.text_escape t []
  have hagain := Json.Reader.text_escape t.rejoined []
  rw [Json.Reader.escape_rejoined, hread] at hagain
  exact ((Prod.mk.inj (Except.ok.inj hagain)).1).symm

end SegmentSwap
