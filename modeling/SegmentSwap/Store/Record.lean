import SegmentSwap.Json.Writer
import SegmentSwap.Store.Fault
import SegmentSwap.Store.Version

/-!
# Record files

The text of a record file is a JSON object with the version and the document of the lineage, laid
out over lines. Reading goes through several stages, and the first one that fails names the fault.
-/

namespace SegmentSwap

namespace Record

/-- A record as a JSON object. -/
def encode (l : Lineage) (version : Int) : Json.Value :=
  .obj [("version", .int version), ("lineage", Document.encode l)]

/-- The text of a record. -/
def text (l : Lineage) (version : Int) : String := (encode l version).laidOut ++ "\n"

/-- The bytes of a record. -/
def bytes (l : Lineage) (version : Int) : List UInt8 := Text.Utf8.encode (text l version)

/-- The version that a record gives. A truth value counts as a number. -/
def version? (v : Json.Value) : Option Version :=
  match v.field? "version" with
  | some (.int n) => some ⟨n, false⟩
  | some (.bool b) => some ⟨if b then 1 else 0, true⟩
  | _ => none

/-- A record from its JSON value. -/
def ofJson (path : String) (v : Json.Value) : Except StoreFault Versioned :=
  match version? v with
  | none => .error (.noVersion path)
  | some version =>
    match Document.decode path ((v.field? "lineage").getD .null) with
    | .error fault => .error (.document fault)
    | .ok lineage => .ok ⟨lineage, some version⟩

/-- A record from its text. -/
def ofText (path text : String) : Except StoreFault Versioned :=
  match Json.read text with
  | .error (.malformed complaint _) => .error (.malformed path complaint)
  | .error (.tooManyDigits count) => .error (.tooManyDigits count)
  | .error (.tooDeep isObject) => .error (.tooDeep isObject)
  | .ok v => ofJson path v

/-- A record from its bytes. -/
def ofBytes (path : String) (bytes : List UInt8) : Except StoreFault Versioned :=
  match Text.Utf8.decode bytes with
  | .error e => .error (.undecodable e)
  | .ok text => ofText path text

end Record

end SegmentSwap
