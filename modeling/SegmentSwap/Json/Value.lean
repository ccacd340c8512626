import SegmentSwap.Number.Numeral
import SegmentSwap.Number.Quantity
import SegmentSwap.Text.Quoted

/-!
# JSON values

The values of a JSON text. Whole numbers keep their size and stay apart from reals; an object lists
its fields in the order in which their names first occur, each name once. `Value.shown?` is the form
in which messages quote a value and `Value.plain?` the form in which a value stands for a name. A
value has neither if it holds a whole number of more than 4300 digits, unless it is a text.
-/

namespace SegmentSwap.Json

/-- A JSON value. -/
inductive Value where
  /-- The value `null`. -/
  | null
  /-- A truth value. -/
  | bool (b : Bool)
  /-- A whole number. -/
  | int (n : Int)
  /-- A number with a fraction or an exponent, an infinity or a NaN. -/
  | real (x : Binary64)
  /-- A text. -/
  | str (t : Text)
  /-- A list of values. -/
  | arr (items : List Value)
  /-- An object with its fields in order. -/
  | obj (fields : List (Text × Value))
  deriving Repr, Inhabited

/-- Sets a field: a new name comes last, a known one keeps its place. -/
def setField (name : Text) (v : Value) : List (Text × Value) → List (Text × Value)
  | [] => [(name, v)]
  | (n, w) :: rest => if n = name then (n, v) :: rest else (n, w) :: setField name v rest

/-- The fields of an object given one after the other, the last of equal names holding. -/
def collectFields (fields : List (Text × Value)) : List (Text × Value) :=
  fields.foldl (fun acc f => setField f.1 f.2 acc) []

mutual

/-- Whether no whole number in the value has too many digits. -/
def Value.isShowable : Value → Bool
  | .int n => SegmentSwap.isShowable n
  | .arr items => itemsShowable items
  | .obj fields => fieldsShowable fields
  | _ => true

/-- Whether no whole number in the values of a list has too many digits. -/
def itemsShowable : List Value → Bool
  | [] => true
  | v :: rest => v.isShowable && itemsShowable rest

/-- Whether no whole number in the fields of an object has too many digits. -/
def fieldsShowable : List (Text × Value) → Bool
  | [] => true
  | (_, v) :: rest => v.isShowable && fieldsShowable rest

end

mutual

/-- The value as messages quote it, whatever the size of its numbers. -/
def Value.shown : Value → Text
  | .null => "None"
  | .bool b => if b then "True" else "False"
  | .int n => toString n
  | .real x => x.text
  | .str t => Text.quoted t
  | .arr items => Text.bracketed (shownItems items)
  | .obj fields => "\x7b" ++ Text.joined ", " (shownFields fields) ++ "\x7d"

/-- The values of a list as messages quote them. -/
def shownItems : List Value → List Text
  | [] => []
  | v :: rest => v.shown :: shownItems rest

/-- The fields of an object as messages quote them. -/
def shownFields : List (Text × Value) → List Text
  | [] => []
  | (name, v) :: rest => (Text.quoted name ++ ": " ++ v.shown) :: shownFields rest

end

namespace Value

/-- The value as messages quote it, if it can be shown. -/
def shown? (v : Value) : Option Text := if v.isShowable then some v.shown else none

/-- The value as a name, whatever the size of its numbers: a text stands for itself, anything else
for the form in which messages quote it. -/
def plain : Value → Text
  | .str t => t
  | v => v.shown

/-- The value as a name, if it can be shown. -/
def plain? (v : Value) : Option Text := if v.isShowable then some v.plain else none

/-- The field of an object, if the value is an object that has it. -/
def field? (name : Text) : Value → Option Value
  | .obj fields => (fields.find? fun f => f.1 == name).map (·.2)
  | _ => none

/-- The number that a value counts as. A truth value counts as one or zero. -/
def quantity? : Value → Option Quantity
  | .bool b => some (.whole (if b then 1 else 0))
  | .int n => some (.whole n)
  | .real x => some (.real x)
  | _ => none

/-- Whether the value counts as the given whole number. -/
def isNumber (n : Int) (v : Value) : Bool :=
  match v.quantity? with
  | some q => q.same (.whole n)
  | none => false

end Value

end SegmentSwap.Json
