import SegmentSwap.Settings.Loader
import SegmentSwap.Yaml.Value.OfGraph
import SegmentSwap.Yaml.Value.Shown

/-!
# A loader to run sessions with

The reader of this library as a loader of settings. Sessions and single calls run with it; no
statement rests on it.
-/

namespace SegmentSwap.Yaml

/-- The kind of a fault of a text. -/
def Fault.kind : Fault → Kind
  | .malformed => .declared .configuration
  | .wordSize | .tooLarge => .overflow
  | .badTruth _ => .missingKey
  | .emptyNumber => .missingIndex
  | .badStamp => .missingPart
  | .mappingStamp => .invalidType
  | .endless => .recursion
  | _ => .invalidValue

/-- A fault, as a loader reports it. Only malformed texts have no wording. -/
def Fault.cause (f : Fault) : Settings.LoadFault := f.message?.elim .malformed (.raised f.kind)

/-- How a value among some data looks. -/
def Data.look (d : Data) (v : Value) : Settings.Look (Data × Value) :=
  match v with
  | .null => .nothing
  | .text t => .text t
  | _ =>
    match d.mapping? v with
    | some pairs => .mapping (pairs.map fun p => ((d, p.1), (d, p.2)))
    | none => .other

/-- The loader. Its values are values among the data of a text. -/
def loader : Settings.Loader where
  Value := Data × Value
  load text := ((read text.toList).mapError Fault.cause).map fun d => (d, d.root)
  look v := v.1.look v.2
  isNumber n v := v.2.isNumber n
  typeName v := v.1.typeName v.2
  shown v := (v.1.shown v.2).mapError Fault.cause

end SegmentSwap.Yaml
