import SegmentSwap.Number.Quantity
import SegmentSwap.Yaml.Graph

/-!
# YAML values

What a YAML text stands for. Lists, mappings and sets are objects: a value only names the object,
and its contents are kept beside, so that an object may lie in several places and inside itself.

A mapping may have keys of any simple kind; it lists its pairs in the order in which their keys
first occur. Keys that are equal in value are the same key, even if one is a truth value and the
other a number. A NaN equals only itself: all that come from the word `.nan` are one and the same,
and every other one belongs to its node.
-/

namespace SegmentSwap

namespace Yaml

/-- A value. -/
inductive Value where
  /-- Nothing. -/
  | null
  /-- A truth value. -/
  | truth (b : Bool)
  /-- A number. -/
  | number (q : Quantity)
  /-- A NaN, with the node that it belongs to if it is not the common one. -/
  | nan (owner? : Option NodeId)
  /-- A text. -/
  | text (t : Text)
  /-- Bytes. -/
  | binary (bytes : List UInt8)
  /-- A date or a time. -/
  | moment (m : Moment)
  /-- The object of a node. -/
  | object (id : NodeId)
  deriving DecidableEq, Repr, Inhabited

/-- The contents of an object. -/
inductive Contents where
  /-- The items of a list. -/
  | list (items : List Value)
  /-- The items of a list of pairs. -/
  | pairs (items : List (Value × Value))
  /-- The pairs of a mapping. -/
  | mapping (items : List (Value × Value))
  /-- The members of a set. -/
  | set (items : List Value)
  deriving DecidableEq, Repr

/-- What a text holds. -/
structure Data where
  root : Value
  objects : List (NodeId × Contents)
  deriving DecidableEq, Repr

namespace Value

/-- Whether a value can be a key. -/
def isSimple : Value → Bool
  | .object _ => false
  | _ => true

/-- The number that a value counts as. A truth value counts as one or zero. -/
def quantity? : Value → Option Quantity
  | .truth b => some (.whole (if b then 1 else 0))
  | .number q => some q
  | _ => none

/-- Whether the value counts as the given whole number. -/
def isNumber (n : Int) (v : Value) : Bool :=
  match v.quantity? with
  | some q => q.same (.whole n)
  | none => false

/-- Whether two values are the same key. -/
def sameKey (a b : Value) : Bool :=
  match a, b with
  | .null, .null => true
  | .text s, .text t => s == t
  | .binary s, .binary t => s == t
  | .moment m, .moment n => m.same n
  | .nan s, .nan t => s == t
  | _, _ =>
    match a.quantity?, b.quantity? with
    | some p, some q => p.same q
    | _, _ => false

/-- Sets the value of a key: a new key comes last, a known one keeps its place. -/
def setKey (key v : Value) : List (Value × Value) → List (Value × Value)
  | [] => [(key, v)]
  | (k, w) :: rest => if k.sameKey key then (k, v) :: rest else (k, w) :: setKey key v rest

/-- The pairs of a mapping given one after the other, the last of equal keys holding. -/
def collectPairs (pairs : List (Value × Value)) : List (Value × Value) :=
  pairs.foldl (fun acc p => setKey p.1 p.2 acc) []

end Value

/-- The type of an object, as messages name it. -/
def Contents.typeName : Contents → String
  | .list _ | .pairs _ => "list"
  | .mapping _ => "dict"
  | .set _ => "set"

namespace Data

/-- The contents of an object. -/
def contents? (d : Data) (id : NodeId) : Option Contents := d.objects.lookup id

/-- The type of a value, as messages name it. -/
def typeName (d : Data) : Value → String
  | .null => "NoneType"
  | .truth _ => "bool"
  | .number (.whole _) => "int"
  | .number (.real _) | .nan _ => "float"
  | .text _ => "str"
  | .binary _ => "bytes"
  | .moment m => m.typeName
  | .object id => (d.contents? id).elim "" Contents.typeName

/-- The pairs of a mapping; other values have none. -/
def mapping? (d : Data) : Value → Option (List (Value × Value))
  | .object id =>
    match d.contents? id with
    | some (.mapping items) => some items
    | _ => none
  | _ => none

end Data

end Yaml

end SegmentSwap
