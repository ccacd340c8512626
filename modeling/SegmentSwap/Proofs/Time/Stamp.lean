import SegmentSwap.Proofs.Time.Calendar
import SegmentSwap.Time.Stamp

/-!
# Reading the stamp of an instant

The stamp of an instant names its date and its time of day in digits of fixed number, with or without
a fraction, and the offset of universal time. Reading it takes the digits in again part by part, and
the instant that they make up is the one that was written.
-/

namespace SegmentSwap.Time

open Text.Utf8 (encode encodeChar)
open Stamp (byte)

/-- The bytes of a number in a fixed number of digits. -/
def numeral : (width : Nat) → Nat → List UInt8
  | 0, _ => []
  | width + 1, n => numeral width (n / 10) ++ [byte (Nat.digitChar (n % 10))]

theorem encodeChar_digit : ∀ d < 10, encodeChar (Nat.digitChar d) = [byte (Nat.digitChar d)] := by
  decide

theorem encode_append (s t : String) : encode (s ++ t) = encode s ++ encode t := by
  unfold encode
  rw [String.toList_append, List.flatMap_append]

theorem length_numeral (width n : Nat) : (numeral width n).length = width := by
  induction width generalizing n with
  | zero => rfl
  | succ width ih => rw [numeral, List.length_append, ih]; rfl

theorem mem_numeral {width n : Nat} {b : UInt8} (h : b ∈ numeral width n) :
    ∃ d < 10, b = byte (Nat.digitChar d) := by
  induction width generalizing n with
  | zero => exact absurd h List.not_mem_nil
  | succ width ih =>
    rcases List.mem_append.mp h with h | h
    · exact ih h
    · exact ⟨n % 10, Nat.mod_lt n (by decide), List.mem_singleton.mp h⟩

theorem numeral_zero (width : Nat) :
    numeral width 0 = (List.replicate width '0').flatMap encodeChar := by
  induction width with
  | zero => rfl
  | succ width ih =>
    rw [numeral, ih, List.replicate_succ', List.flatMap_append]
    rfl

theorem pow_ten_succ (width : Nat) : Nat.pow 10 (width + 1) = Nat.pow 10 width * 10 := rfl

/-- A number that is short enough is padded to its numeral. -/
theorem encode_padded (width : Nat) {n : Nat} (h : n < Nat.pow 10 (width + 1)) :
    encode (padded (width + 1) n) = numeral (width + 1) n := by
  unfold padded encode
  dsimp only
  rw [String.toList_ofList, List.flatMap_append]
  induction width generalizing n with
  | zero =>
    rw [Nat.toDigits_of_lt_base (by omega)]
    simp [numeral, encodeChar_digit n (by omega), Nat.mod_eq_of_lt (show n < 10 by omega)]
  | succ width ih =>
    rw [numeral]
    by_cases hn : n < 10
    · rw [Nat.toDigits_of_lt_base hn, Nat.div_eq_of_lt hn, numeral_zero, Nat.mod_eq_of_lt hn]
      simp [encodeChar_digit n hn]
    · have hlength : width + 1 + 1 - ((Nat.toDigits 10 (n / 10)).length + 1) =
          width + 1 - (Nat.toDigits 10 (n / 10)).length := by omega
      rw [Nat.toDigits_of_base_le (by decide) (by omega), List.length_append,
        List.length_singleton, hlength, List.flatMap_append, ← List.append_assoc,
        ih (by rw [pow_ten_succ] at h; omega)]
      simp [encodeChar_digit (n % 10) (Nat.mod_lt n (by decide))]

namespace Stamp

/-- Digits say their value, and they are no marks. -/
theorem byte_digit : ∀ d < 10, isDigit (byte (Nat.digitChar d)) = true ∧
    (byte (Nat.digitChar d)).toNat - 0x30 = d ∧
    startsOffset (byte (Nat.digitChar d)) = false ∧ byte (Nat.digitChar d) ≠ byte 'W' := by
  decide

theorem digits?_append {a b value u : Nat} {bs rest : List UInt8}
    (h : digits? a value bs = some (u, rest)) : digits? (a + b) value bs = digits? b u rest := by
  induction a generalizing value bs with
  | zero =>
    obtain ⟨rfl, rfl⟩ := Prod.mk.inj (Option.some.inj h)
    rw [Nat.zero_add]
  | succ a ih =>
    cases bs with
    | nil => cases h
    | cons d bs =>
      rw [digits?] at h
      rw [Nat.succ_add, digits?]
      split at h
      · rename_i hd
        rw [if_pos hd]
        exact ih h
      · cases h

/-- A numeral is read as its number. -/
theorem digits?_numeral (width : Nat) {n : Nat} (h : n < Nat.pow 10 width) (value : Nat)
    (rest : List UInt8) :
    digits? width value (numeral width n ++ rest) = some (value * Nat.pow 10 width + n, rest) := by
  induction width generalizing n rest with
  | zero =>
    obtain rfl : n = 0 := Nat.lt_one_iff.mp h
    simp [digits?, numeral]
  | succ width ih =>
    obtain ⟨hdigit, hvalue, -⟩ := byte_digit (n % 10) (Nat.mod_lt n (by decide))
    have hfirst := ih (n := n / 10) (by rw [pow_ten_succ] at h; omega)
      ([byte (Nat.digitChar (n % 10))] ++ rest)
    rw [numeral, List.append_assoc, digits?_append hfirst, List.singleton_append, digits?,
      if_pos hdigit, digits?, hvalue, pow_ten_succ]
    congr 2
    have hsplit : 10 * (n / 10) + n % 10 = n := Nat.div_add_mod n 10
    rw [Nat.mul_add, Nat.add_assoc, hsplit, ← Nat.mul_assoc, ← Nat.mul_assoc]
    congr 1
    rw [Nat.mul_comm 10 value, Nat.mul_assoc, Nat.mul_assoc, Nat.mul_comm 10]

section Clock

variable {next : UInt8} {left n f : Nat} {rest : List UInt8}

theorem clock?_last (hn : n < 100) : clock? next (left + 1) (some true) (numeral 2 n) =
    some ⟨[n], 0, next == 0⟩ := by
  have hdigits := digits?_numeral 2 hn 0 []
  rw [List.append_nil, Nat.zero_mul, Nat.zero_add] at hdigits
  rw [clock?, hdigits]
  rfl

theorem fraction?_numeral (hf : f < 1000000) :
    fraction? next (numeral 6 f) = some (f, next == 0) := by
  have hdigits := digits?_numeral 6 hf 0 []
  rw [List.append_nil, Nat.zero_mul, Nat.zero_add] at hdigits
  unfold fraction?
  rw [length_numeral]
  show ((digits? 6 0 (numeral 6 f)).bind _) = _
  rw [hdigits]
  simp

theorem clock?_fraction (hn : n < 100) (hf : f < 1000000) :
    clock? next (left + 1) (some true) (numeral 2 n ++ byte '.' :: numeral 6 f) =
      some ⟨[n], f, next == 0⟩ := by
  have hdigits := digits?_numeral 2 hn 0 (byte '.' :: numeral 6 f)
  rw [Nat.zero_mul, Nat.zero_add] at hdigits
  have hlength : ¬ (byte '.' :: numeral 6 f).length ≤ 1 := by
    rw [List.length_cons, length_numeral]
    omega
  rw [clock?, hdigits]
  simp only [Option.bind_eq_bind, Option.bind_some, if_neg hlength, List.headD_cons]
  rw [if_neg (by decide), if_pos (by decide), List.drop_one, List.tail_cons,
    fraction?_numeral hf]
  rfl

theorem clock?_colon {colons : Option Bool} (hn : n < 100) (hcolons : colons.getD true = true)
    (hrest : rest ≠ []) :
    clock? next (left + 1) colons (numeral 2 n ++ byte ':' :: rest) =
      (clock? next left (some true) rest).map fun r => { r with parts := n :: r.parts } := by
  have hdigits := digits?_numeral 2 hn 0 (byte ':' :: rest)
  rw [Nat.zero_mul, Nat.zero_add] at hdigits
  have hlength : ¬ (byte ':' :: rest).length ≤ 1 := by
    have hpos := List.length_pos_iff.mpr hrest
    rw [List.length_cons]
    omega
  have hparted : colons.getD (byte ':' == byte ':') = true := hcolons
  rw [clock?, hdigits]
  simp only [Option.bind_eq_bind, Option.bind_some, if_neg hlength, List.headD_cons, hparted]
  rw [if_pos (by decide), List.drop_one, List.tail_cons]

/-- The bytes of a time of day. -/
def clockBytes (hour minute second micros : Nat) : List UInt8 :=
  numeral 2 hour ++ byte ':' :: (numeral 2 minute ++ byte ':' :: (numeral 2 second ++
    if micros = 0 then [] else byte '.' :: numeral 6 micros))

variable {hour minute second micros : Nat}

theorem clock?_clockBytes (hh : hour < 100) (hm : minute < 100) (hs : second < 100)
    (hf : micros < 1000000) : clock? next 3 none (clockBytes hour minute second micros) =
      some ⟨[hour, minute, second], micros, next == 0⟩ := by
  have hseconds : clock? next 1 (some true) (numeral 2 second ++
      if micros = 0 then [] else byte '.' :: numeral 6 micros) =
        some ⟨[second], micros, next == 0⟩ := by
    by_cases hzero : micros = 0
    · rw [if_pos hzero, List.append_nil, hzero]
      exact clock?_last hs
    · rw [if_neg hzero]
      exact clock?_fraction hs hf
  have hnonempty (n : Nat) (bs : List UInt8) : numeral 2 n ++ bs ≠ [] := fun h => by
    have hlength := congrArg List.length h
    rw [List.length_append, length_numeral, List.length_nil] at hlength
    omega
  unfold clockBytes
  rw [clock?_colon hh rfl (hnonempty _ _), clock?_colon hm rfl (hnonempty _ _), hseconds]
  rfl

theorem startsOffset_of_mem {b : UInt8} (h : b ∈ clockBytes hour minute second micros) :
    startsOffset b = false := by
  have hnumeral {width n : Nat} (hb : b ∈ numeral width n) : startsOffset b = false := by
    obtain ⟨d, hd, rfl⟩ := mem_numeral hb
    exact (byte_digit d hd).2.2.1
  unfold clockBytes at h
  rcases List.mem_append.mp h with h | h
  · exact hnumeral h
  rcases List.mem_cons.mp h with rfl | h
  · decide
  rcases List.mem_append.mp h with h | h
  · exact hnumeral h
  rcases List.mem_cons.mp h with rfl | h
  · decide
  rcases List.mem_append.mp h with h | h
  · exact hnumeral h
  split at h
  · exact absurd h List.not_mem_nil
  · rcases List.mem_cons.mp h with rfl | h
    · decide
    · exact hnumeral h

/-- A time of day in universal time is read in full. -/
theorem time?_clockBytes (hh : hour < 100) (hm : minute < 100) (hs : second < 100)
    (hf : micros < 1000000) :
    time? (clockBytes hour minute second micros ++ encode "+00:00") =
      some (⟨[hour, minute, second], micros, false⟩, some ⟨0⟩) := by
  have hzone : encode "+00:00" = byte '+' :: encode "00:00" := by decide
  have hbody : ∀ b ∈ clockBytes hour minute second micros, (!startsOffset b) = true :=
    fun b hb => by rw [startsOffset_of_mem hb]; rfl
  have hsign : ¬ (fun b => !startsOffset b) (byte '+') = true := by decide
  have hoffset : offset? (byte '+' :: encode "00:00") = some ⟨0⟩ := by decide
  unfold time?
  rw [List.takeWhile_append_of_pos hbody, List.dropWhile_append_of_pos hbody, hzone,
    List.takeWhile_cons_of_neg (p := fun b => !startsOffset b) hsign,
    List.dropWhile_cons_of_neg (p := fun b => !startsOffset b) hsign, List.append_nil]
  simp only [clock?_clockBytes hh hm hs hf, Option.bind_eq_bind, Option.bind_some,
    List.isEmpty_cons, hoffset]
  rfl

end Clock

section Day

variable {year month day : Nat} {rest : List UInt8}

/-- The bytes of a date. -/
def dateBytes (year month day : Nat) : List UInt8 :=
  numeral 4 year ++ byte '-' :: (numeral 2 month ++ byte '-' :: numeral 2 day)

theorem length_dateBytes : (dateBytes year month day).length = 10 := by
  simp [dateBytes, length_numeral]

theorem peek_numeral (width n : Nat) (rest : List UInt8) :
    ∃ d < 10, peek (numeral (width + 1) n ++ rest) = byte (Nat.digitChar d) := by
  obtain ⟨b, bs, h⟩ := List.exists_cons_of_length_eq_add_one (length_numeral (width + 1) n)
  obtain ⟨d, hd, hb⟩ := mem_numeral (h ▸ List.mem_cons_self : b ∈ numeral (width + 1) n)
  exact ⟨d, hd, by rw [h, ← hb]; rfl⟩

theorem date?_dateBytes {length? : Option Nat} (hy : year < 10000) (hm : month < 100)
    (hd : day < 100) :
    date? length? (dateBytes year month day ++ rest) = some ⟨year, month, day⟩ := by
  have hyear := digits?_numeral 4 hy 0
    (byte '-' :: (numeral 2 month ++ byte '-' :: (numeral 2 day ++ rest)))
  have hmonth := digits?_numeral 2 hm 0 (byte '-' :: (numeral 2 day ++ rest))
  have hday := digits?_numeral 2 hd 0 rest
  rw [Nat.zero_mul, Nat.zero_add] at hyear hmonth hday
  have hweek : ¬ peek (numeral 2 month ++ byte '-' :: (numeral 2 day ++ rest)) = byte 'W' := by
    obtain ⟨d, hd, hpeek⟩ := peek_numeral 1 month
      (byte '-' :: (numeral 2 day ++ rest))
    rw [hpeek]
    exact (byte_digit d hd).2.2.2
  have hdash (bs : List UInt8) : (peek (byte '-' :: bs) == byte '-') = true := rfl
  unfold date? dateBytes
  rw [List.append_assoc, List.cons_append, List.append_assoc, List.cons_append, hyear]
  simp only [Option.bind_eq_bind, Option.bind_some, hdash, if_true, List.drop_one, List.tail_cons,
    if_neg hweek, hmonth]
  show (digits? 2 0 (numeral 2 day ++ rest)).bind _ = _
  rw [hday]
  rfl

theorem dateLength?_dateBytes {b : UInt8} :
    dateLength? (dateBytes year month day ++ b :: rest) = some 10 := by
  have hlength : (dateBytes year month day ++ b :: rest).length = 11 + rest.length := by
    rw [List.length_append, length_dateBytes, List.length_cons]
    omega
  have hdash : (dateBytes year month day ++ b :: rest).getD 4 0 = byte '-' := rfl
  have hweek : ¬ (dateBytes year month day ++ b :: rest).getD 5 0 = byte 'W' :=
    (byte_digit (month / 10 % 10) (Nat.mod_lt _ (by decide))).2.2.2
  unfold dateLength?
  simp only [hlength, hdash, if_neg hweek, if_true]
  rw [if_neg (by omega)]

end Day

/-- A date, the letter `T` and a time of day in universal time are spelled as they are written. -/
theorem spelled?_bytes {year month day hour minute second micros : Nat} (hy : year < 10000)
    (hmonth : month < 100) (hd : day < 100) (hh : hour < 100) (hm : minute < 100)
    (hs : second < 100) (hf : micros < 1000000) :
    spelled? (dateBytes year month day ++ byte 'T' ::
      (clockBytes hour minute second micros ++ encode "+00:00")) =
        some (⟨year, month, day⟩, ⟨[hour, minute, second], micros, false⟩, some ⟨0⟩) := by
  have hlength : ¬ (dateBytes year month day ++ byte 'T' ::
      (clockBytes hour minute second micros ++ encode "+00:00")).length ≤ 10 := by
    rw [List.length_append, length_dateBytes, List.length_cons]
    omega
  unfold spelled?
  simp only [dateLength?_dateBytes, date?_dateBytes hy hmonth hd, Option.bind_eq_bind,
    Option.bind_some, Option.getD_some, if_neg hlength, List.drop_left' length_dateBytes]
  show (time? (clockBytes hour minute second micros ++ encode "+00:00")).bind _ = _
  rw [time?_clockBytes hh hm hs hf]
  rfl

/-- The bytes of a text of characters are all that is read of it. -/
theorem bytes?_ofString (s : String) : bytes? s = some (encode s) := by
  have hwhole : ∀ q ∈ (Text.ofString s).points, ¬ isHalf q = true := by
    intro q hq
    obtain ⟨c, -, rfl⟩ := List.mem_map.mp (show q ∈ s.toList.map Point.char from hq)
    exact Bool.false_ne_true
  have hnone (i : Nat) : (Text.ofString s).points[i]?.any isHalf = false := by
    cases hq : (Text.ofString s).points[i]? with
    | none => rfl
    | some q => exact Bool.eq_false_iff.mpr (hwhole q (List.mem_of_getElem? hq))
  have hplaces : separatorPlaces.find? (fun i => (Text.ofString s).points[i]?.any isHalf) =
      none := List.find?_eq_none.mpr fun i _ => Bool.eq_false_iff.mp (hnone i)
  unfold bytes? withSeparator
  rw [hplaces]
  simp only [Text.toString_ofString]
  rw [if_neg fun hany => ?_]
  obtain ⟨q, hq, hhalf⟩ := List.any_eq_true.mp hany
  exact hwhole q hq hhalf

end Stamp

theorem Date.lt_of_isValid {d : Date} (h : d.isValid = true) :
    d.year < 10000 ∧ d.month < 100 ∧ d.day < 100 := by
  have hlengths : ∀ leap, ∀ n ∈ monthLengths leap, n ≤ 31 := by decide
  have hmonth : daysInMonth d.year d.month ≤ 31 := by
    unfold daysInMonth
    split
    · exact Nat.zero_le 31
    · rw [List.getD_eq_getElem?_getD]
      cases hn : (monthLengths (isLeap d.year))[d.month - 1]? with
      | none => exact Nat.zero_le 31
      | some n => exact hlengths _ n (List.mem_of_getElem? hn)
  unfold Date.isValid at h
  simp only [Bool.and_eq_true, decide_eq_true_eq] at h
  omega

namespace Instant

open Stamp (dateBytes clockBytes)

variable {t : Instant}

/-- The date and the time of day that an instant falls on. -/
theorem date_spec (h : t.isRepresentable = true) :
    t.date.isValid = true ∧ t.timeOfDay < 86400000000 ∧
      ((t.date.ordinal : Int) - epochOrdinal) * microsPerDay + t.timeOfDay = t.micros := by
  obtain ⟨hearliest, hlimit⟩ := Bool.and_eq_true_iff.mp h
  have hearliest := of_decide_eq_true hearliest
  have hlimit := of_decide_eq_true hlimit
  have hsplit := Int.mul_fdiv_add_fmod t.micros microsPerDay
  have hrest := Int.fmod_nonneg_of_pos t.micros (b := microsPerDay) (by decide)
  have hday := Int.fmod_lt_of_pos t.micros (b := microsPerDay) (by decide)
  have hvalue : microsPerDay = 86400000000 := by decide
  unfold earliest at hearliest
  unfold limit at hlimit
  rw [hvalue] at hearliest hlimit hsplit hrest hday ⊢
  unfold date timeOfDay epochOrdinal at *
  rw [hvalue]
  obtain ⟨hvalid, hordinal⟩ := Date.ordinal_ofOrdinal
    (n := (t.micros.fdiv 86400000000 + 719163).toNat) (by omega) (by omega)
  refine ⟨hvalid, by omega, ?_⟩
  rw [hordinal]
  omega

/-- The bytes of the stamp of an instant. -/
theorem encode_stamp (h : t.isRepresentable = true) :
    encode t.stamp = dateBytes t.date.year t.date.month t.date.day ++ Stamp.byte 'T' ::
      (clockBytes (t.timeOfDay / 1000000 / 3600) (t.timeOfDay / 1000000 / 60 % 60)
        (t.timeOfDay / 1000000 % 60) (t.timeOfDay % 1000000) ++ encode "+00:00") := by
  obtain ⟨hvalid, htime, -⟩ := date_spec h
  have hfour {n : Nat} (hn : n < 10000) : encode (padded 4 n) = numeral 4 n := encode_padded 3 hn
  have htwo {n : Nat} (hn : n < 100) : encode (padded 2 n) = numeral 2 n := encode_padded 1 hn
  have hfraction : encode (if t.timeOfDay % 1000000 = 0 then ""
      else "." ++ padded 6 (t.timeOfDay % 1000000)) =
        if t.timeOfDay % 1000000 = 0 then []
        else Stamp.byte '.' :: numeral 6 (t.timeOfDay % 1000000) := by
    split
    · rfl
    · rw [encode_append, encode_padded 5 (Nat.mod_lt _ (by decide))]
      rfl
  have hmarks : encode "-" = [Stamp.byte '-'] ∧ encode "T" = [Stamp.byte 'T'] ∧
      encode ":" = [Stamp.byte ':'] := by decide
  obtain ⟨hyear, hmonth, hday⟩ := Date.lt_of_isValid hvalid
  unfold stamp dateBytes clockBytes
  simp only [encode_append, hfour hyear, htwo hmonth, htwo hday, hmarks, hfraction,
    htwo (show t.timeOfDay / 1000000 / 3600 < 100 by omega),
    htwo (show t.timeOfDay / 1000000 / 60 % 60 < 100 by omega),
    htwo (show t.timeOfDay / 1000000 % 60 < 100 by omega), List.append_assoc, List.cons_append,
    List.nil_append]

/-- Reading the stamp of an instant gives the instant back, without an offset from universal
time. -/
theorem read_stamp (h : t.isRepresentable = true) :
    Stamp.read t.stamp = .ok ⟨t, some ⟨0⟩⟩ := by
  obtain ⟨hvalid, htime, hmicros⟩ := date_spec h
  obtain ⟨hyear, hmonth, hday⟩ := Date.lt_of_isValid hvalid
  have hspelled := Stamp.spelled?_bytes hyear hmonth hday
    (show t.timeOfDay / 1000000 / 3600 < 100 by omega)
    (show t.timeOfDay / 1000000 / 60 % 60 < 100 by omega)
    (show t.timeOfDay / 1000000 % 60 < 100 by omega)
    (show t.timeOfDay % 1000000 < 1000000 by omega)
  have hzero : (some (⟨0⟩ : Span)).filter
      (fun z => microsPerDay ≤ z.micros || z.micros ≤ -microsPerDay) = none := by decide
  unfold Date.isValid at hvalid
  simp only [Bool.and_eq_true, decide_eq_true_eq] at hvalid
  unfold Stamp.read
  rw [Stamp.bytes?_ofString, Option.bind_some, encode_stamp h, hspelled]
  simp only [hzero, List.getD_cons_zero, List.getD_cons_succ]
  rw [if_neg (by omega), if_neg (by omega), if_neg (by omega), if_neg (by omega), if_neg (by omega),
    if_neg (by omega)]
  have hsame : ((t.date.ordinal : Int) - epochOrdinal) * microsPerDay +
      ((t.timeOfDay / 1000000 / 3600 : Nat) * 3600 + (t.timeOfDay / 1000000 / 60 % 60 : Nat) * 60 +
        (t.timeOfDay / 1000000 % 60 : Nat)) * microsPerSecond + (t.timeOfDay % 1000000 : Nat) =
          t.micros := by
    rw [← hmicros, Int.add_assoc]
    congr 1
    unfold microsPerSecond
    omega
  rw [hsame]

end Instant

/-- Without an offset from universal time a reading names the instant on the wall. -/
theorem Reading.instant?_of_universal (t : Instant) :
    Reading.instant? ⟨t, some ⟨0⟩⟩ = some t := by
  show some (Instant.mk (t.micros - 0)) = some t
  rw [Int.sub_zero]

end SegmentSwap.Time
