import SegmentSwap.Json.Value
import SegmentSwap.Lineage.Basic

/-!
# Lineages as JSON documents

The JSON form of a lineage, which records hold. `Document.encode` writes it and `Document.decode`
reads it, checking one thing after the other: the first fault on the way is reported, together with
the place that the document comes from.
-/

namespace SegmentSwap

namespace Document

/-- The version of the format. -/
def formatVersion : Int := 1

/-- What is wrong with a document. -/
inductive Flaw where
  /-- The document is no object. -/
  | noObject
  /-- The document has another format, or none. -/
  | format (shown : Text)
  /-- The document has another format, and this cannot be shown. -/
  | longFormat
  /-- The entries are no list. -/
  | noEntryList
  /-- An entry is no object. -/
  | noEntryObject
  /-- A field is missing. -/
  | missing (field : Text)
  /-- A segment list is no list of texts. -/
  | segmentList
  /-- An entry has a state that the protocol does not know. -/
  | state (shown : Text)
  /-- A value that is to become a text, or to be shown, holds a whole number with too many digits. -/
  | tooManyDigits
  /-- The entries make up no lineage. -/
  | lineage (fault : LineageFault)
  deriving DecidableEq, Repr

/-- A flaw of a document and the place of the document. -/
structure Fault where
  /-- The flaw. -/
  flaw : Flaw
  /-- The place that the document comes from. -/
  source : Text
  deriving DecidableEq, Repr

/-- The wording of a fault. -/
def Fault.message (f : Fault) : Text :=
  match f.flaw with
  | .noObject => "Invalid lineage record at " ++ f.source ++ ": expected JSON object at top level."
  | .format shown =>
    "Unsupported lineage record format " ++ shown ++ " at " ++ f.source ++
      ". Expected format_version " ++ toString formatVersion ++ "."
  | .longFormat => shownLimitMessage
  | .noEntryList => "Invalid lineage record at " ++ f.source ++ ": entries must be a list."
  | .noEntryObject => "Invalid lineage entry at " ++ f.source ++ ": expected object entries."
  | .missing field =>
    "Invalid lineage record at " ++ f.source ++ ": missing required field " ++ Text.quoted field ++
      "."
  | .segmentList =>
    "Invalid lineage entry at " ++ f.source ++ ": segment lists must contain strings."
  | .state shown =>
    "Invalid lineage entry state " ++ shown ++ " at " ++ f.source ++ ": expected one of " ++
      Text.joined ", " (State.listed.map State.text) ++ "."
  | .tooManyDigits => "Invalid lineage record at " ++ f.source ++ ": " ++ shownLimitMessage
  | .lineage fault => "Invalid lineage record at " ++ f.source ++ ": " ++ fault.message

/-- A list of names. -/
def encodeNames (names : List Text) : Json.Value := .arr (names.map .str)

/-- An entry as an object. -/
def encodeEntry (e : Entry) : Json.Value :=
  .obj [("entry_id", .str e.id), ("segments_from", encodeNames e.sources),
    ("segments_to", encodeNames e.targets), ("state", .str e.state.text),
    ("timestamp", .str e.stamp)]

/-- A lineage as an object. -/
def encode (l : Lineage) : Json.Value :=
  .obj [("format_version", .int formatVersion), ("table_name", .str l.table),
    ("entries", .arr (l.entries.map encodeEntry))]

/-- A field that has to be there. -/
def require (name : Text) (v : Json.Value) : Except Flaw Json.Value :=
  match v.field? name with
  | some w => .ok w
  | none => .error (.missing name)

/-- The texts of a list that holds nothing else. -/
def texts? : List Json.Value → Option (List Text)
  | [] => some []
  | .str s :: rest => (texts? rest).map (s :: ·)
  | _ :: _ => none

/-- A segment list. -/
def decodeNames : Json.Value → Except Flaw (List Text)
  | .arr items =>
    match texts? items with
    | some names => .ok names
    | none => .error .segmentList
  | _ => .error .segmentList

/-- The text that a value stands for. -/
def decodeText (v : Json.Value) : Except Flaw Text :=
  match v.plain? with
  | some t => .ok t
  | none => .error .tooManyDigits

/-- A value that is no state of the protocol. -/
def stateFlaw (v : Json.Value) : Flaw := v.shown?.elim .tooManyDigits .state

/-- A state of the protocol. -/
def decodeState (v : Json.Value) : Except Flaw State :=
  match v with
  | .str name =>
    if State.ofText name ∈ State.listed then .ok (State.ofText name) else .error (stateFlaw v)
  | _ => .error (stateFlaw v)

/-- An entry from its object. -/
def decodeEntry (v : Json.Value) : Except Flaw Entry :=
  match v with
  | .obj _ => do
    let id ← decodeText (← require "entry_id" v)
    let sources ← decodeNames (← require "segments_from" v)
    let targets ← decodeNames (← require "segments_to" v)
    let state ← decodeState (← require "state" v)
    let stamp ← decodeText (← require "timestamp" v)
    return ⟨id, sources, targets, state, stamp⟩
  | _ => .error .noEntryObject

/-- The entries of a document, one after the other. -/
def decodeEntries : List Json.Value → Except Flaw (List Entry)
  | [] => .ok []
  | v :: rest => do
    let e ← decodeEntry v
    let es ← decodeEntries rest
    return e :: es

/-- A lineage from its object. -/
def read (v : Json.Value) : Except Flaw Lineage :=
  match v with
  | .obj _ =>
    let format := (v.field? "format_version").getD .null
    if format.isNumber formatVersion then
      match v.field? "entries" with
      | some (.arr items) => do
        let table ← decodeText (← require "table_name" v)
        let entries ← decodeEntries items
        (Lineage.create table entries).mapError .lineage
      | _ => .error .noEntryList
    else .error (format.shown?.elim .longFormat .format)
  | _ => .error .noObject

/-- A lineage from its object, which comes from the given place. -/
def decode (source : Text) (v : Json.Value) : Except Fault Lineage :=
  (read v).mapError fun flaw => ⟨flaw, source⟩

end Document

end SegmentSwap
