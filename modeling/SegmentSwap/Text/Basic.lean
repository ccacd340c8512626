/-!
# Texts

A text is a list of code points. Nearly all of them are characters, but an escape by number can
also put half of a surrogate pair into a text, where it stands alone: it has a number and a place in
the order of code points, and it can be shown, but no file can hold it unescaped. Two halves side by
side stay two code points; whoever reads a form that joins them does so before the text is made.
-/

namespace SegmentSwap

/-- One code point of a text. -/
inductive Point where
  /-- A character. -/
  | char (c : Char)
  /-- Half of a surrogate pair, by its distance from U+D800. -/
  | half (n : Fin 0x800)
  deriving DecidableEq, Repr

namespace Point

/-- The number of a code point. -/
def number : Point → Nat
  | .char c => c.toNat
  | .half n => 0xD800 + n.val

/-- The code point with a number; U+FFFD stands in for numbers beyond the last one. -/
def ofNumber (n : Nat) : Point :=
  if h : n - 0xD800 < 0x800 ∧ 0xD800 ≤ n then .half ⟨n - 0xD800, h.1⟩
  else if n < 0x110000 then .char (Char.ofNat n)
  else .char '\uFFFD'

/-- The code point as a character; U+FFFD stands in for a half. -/
def toChar : Point → Char
  | .char c => c
  | .half _ => '\uFFFD'

instance : LT Point := ⟨fun a b => a.number < b.number⟩

instance (a b : Point) : Decidable (a < b) := inferInstanceAs (Decidable (a.number < b.number))

end Point

/-- A text: a list of code points. -/
structure Text where
  points : List Point
  deriving DecidableEq, Repr

namespace Text

/-- The text of some characters. -/
def ofChars (cs : List Char) : Text := ⟨cs.map .char⟩

/-- The text of a string. -/
def ofString (s : String) : Text := ofChars s.toList

instance : Coe String Text := ⟨ofString⟩

instance : Inhabited Text := ⟨⟨[]⟩⟩

instance : Append Text := ⟨fun a b => ⟨a.points ++ b.points⟩⟩

/-- Texts are ordered by the numbers of their code points, a beginning before the whole. -/
instance : LT Text := ⟨fun a b => a.points < b.points⟩

instance (a b : Text) : Decidable (a < b) := inferInstanceAs (Decidable (a.points < b.points))

/-- The characters of a text; U+FFFD stands in for a half. -/
def chars (t : Text) : List Char := t.points.map Point.toChar

/-- The text as a string; U+FFFD stands in for a half. -/
protected def toString (t : Text) : String := String.ofList t.chars

/-- Whether the text has no code points. -/
def isEmpty (t : Text) : Bool := t.points.isEmpty

/-- The number of code points. -/
protected def length (t : Text) : Nat := t.points.length

/-- Texts one after the other, parted by `separator`. -/
def joined (separator : Text) (items : List Text) : Text :=
  ⟨List.intercalate separator.points (items.map points)⟩

@[simp] theorem points_append (a b : Text) : (a ++ b).points = a.points ++ b.points := rfl

theorem chars_ofChars (cs : List Char) : (ofChars cs).chars = cs := by
  simp [chars, ofChars, Function.comp_def, Point.toChar]

/-- A string comes back unchanged from the text made of it. -/
theorem toString_ofString (s : String) : (ofString s).toString = s := by
  simp [Text.toString, ofString, chars_ofChars]

end Text

end SegmentSwap
