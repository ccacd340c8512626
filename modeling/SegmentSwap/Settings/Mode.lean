import SegmentSwap.Json.Value

/-!
# Ingestion modes

A table is loaded piece by piece or reloaded as a whole. Modes are spelled in any case; tables
without a mode are loaded piece by piece.
-/

namespace SegmentSwap

/-- How a table takes in data. -/
inductive Mode where
  /-- New data comes on top of the old. -/
  | append
  /-- New data replaces the old. -/
  | refresh
  deriving DecidableEq, Repr, Inhabited

namespace Mode

/-- The name of a mode. -/
def text : Mode → Text
  | .append => "APPEND"
  | .refresh => "REFRESH"

/-- The modes that there are. -/
def all : List Mode := [.append, .refresh]

/-- The capital form of a letter, as far as names of modes can hold it. The long s is a small letter
whose capital form is the plain S. -/
def capital (c : Char) : Char := if c = 'ſ' then 'S' else c.toUpper

/-- The mode of a name in any case. -/
def ofText? (name : Text) : Option Mode :=
  let capitals := Text.ofChars (name.chars.map capital)
  all.find? fun m => m.text == capitals

end Mode

/-- Why a value is no mode. -/
inductive ModeFault where
  /-- There is no such mode. The value is given as messages show it, with the table that it was given
  for. -/
  | unknown (shown table : Text)
  /-- There is no such mode, and the value cannot be shown. -/
  | tooManyDigits
  deriving DecidableEq, Repr

/-- The wording of a mode fault. -/
def ModeFault.message : ModeFault → Text
  | .unknown shown table =>
    "Invalid ingestion_mode " ++ shown ++ " for table '" ++ table ++ "': expected one of " ++
      Text.joined ", " (Mode.all.map Mode.text) ++ "."
  | .tooManyDigits => shownLimitMessage

/-- The modes of tables. -/
structure TableModes where
  /-- The tables with a mode of their own. -/
  given : List (Text × Mode)
  deriving DecidableEq, Repr

namespace TableModes

/-- No table has a mode of its own. -/
def none : TableModes := ⟨[]⟩

instance : Inhabited TableModes := ⟨none⟩

/-- The mode of a table. -/
def of (m : TableModes) (table : Text) : Mode := (m.given.lookup table).getD .append

/-- A JSON value that names no mode. -/
def faultOfJson (table : Text) (v : Json.Value) : ModeFault :=
  match v.shown? with
  | some shown => .unknown shown table
  | Option.none => .tooManyDigits

/-- The mode that a JSON value names. -/
def modeOfJson (table : Text) (v : Json.Value) : Except ModeFault Mode :=
  match v with
  | .str name =>
    match Mode.ofText? name with
    | some m => .ok m
    | Option.none => .error (faultOfJson table v)
  | _ => .error (faultOfJson table v)

/-- The modes that the fields of a JSON object name. -/
def ofJson (fields : List (Text × Json.Value)) : Except ModeFault TableModes := do
  let given ← fields.mapM fun f => (modeOfJson f.1 f.2).map fun m => (f.1, m)
  return ⟨given⟩

end TableModes

end SegmentSwap
