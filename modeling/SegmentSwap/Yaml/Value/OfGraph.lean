import SegmentSwap.Text.Base64
import SegmentSwap.Text.Lowercase
import SegmentSwap.Yaml.Graph.Merge
import SegmentSwap.Yaml.Graph.Reader
import SegmentSwap.Yaml.Value

/-!
# From nodes to values

A node stands for a value of its type. The object of a list, a mapping or a set exists as soon as
its node is met; it is filled later, after all objects that were met before it. Merging is done when
a mapping is filled. So the first fault that counts is one of the node that is filled first.
-/

namespace SegmentSwap

namespace Yaml

/-- The truth value of a word. -/
def truthOf (t : Text) : Except Fault Bool :=
  let word := Text.lowercase t
  if ([("yes" : Text), "true", "on"]).contains word then .ok true
  else if ([("no" : Text), "false", "off"]).contains word then .ok false
  else .error (.badTruth word)

/-- The real number that a text is called, or a NaN of a node. -/
def realOf (id : NodeId) (t : Text) : Except Fault Value := do
  let x ← Number.real t
  if x.isNaN then return .nan (if Number.isNaNWord t then none else some id)
  else return .number (.real x)

/-- The bytes that a text stands for. -/
def bytesOf (t : Text) : Except Fault (List UInt8) :=
  if t.points.all (·.number < 0x80) then
    match Text.Base64.decode t.chars with
    | some bytes => .ok bytes
    | none => .error .malformed
  else .error .malformed

/-- Whether a type is one of objects. -/
def Tag.isCompound (tag : Tag) : Bool :=
  match tag with
  | .list | .mapping | .pairs | .set => true
  | _ => false

namespace Graph

/-- The value of a node whose type is not one of objects. -/
def simpleValue (g : Graph) (id : NodeId) : Except Fault Value :=
  match g.tag id with
  | .null => (g.text id).map fun _ => .null
  | .truth => do return .truth (← truthOf (← g.text id))
  | .whole => do return .number (.whole (← Number.whole (← g.text id)))
  | .real => do realOf id (← g.text id)
  | .text => (g.text id).map .text
  | .moment => do
    let t ← g.text id
    match g.body? id with
    | some (.scalar _) => return .moment (← Moment.read t)
    | _ => throw .mappingStamp
  | .binary => do return .binary (← bytesOf (← g.text id))
  | _ => .error .malformed

end Graph

/-- Values in the making. -/
structure Building where
  /-- The nodes. -/
  graph : Graph
  /-- The nodes whose objects have been met, in that order. -/
  met : List NodeId
  /-- The nodes whose objects are to be filled, the next one first. -/
  waiting : List NodeId
  /-- The objects that have been filled. -/
  objects : List (NodeId × Contents)
  deriving Repr

namespace Building

/-- Work on values. -/
abbrev Work := StateT Building (Except Fault)

/-- The value of a node. -/
def value (id : NodeId) : Work Value := do
  let s ← get
  if (s.graph.tag id).isCompound then
    if !s.met.contains id then
      set { s with met := s.met ++ [id], waiting := s.waiting ++ [id] }
    return .object id
  else s.graph.simpleValue id

/-- The values of a pair. -/
def pair (p : NodeId × NodeId) : Work (Value × Value) := do
  let key ← value p.1
  return (key, ← value p.2)

/-- The values of a pair whose key has to be simple. -/
def entry (p : NodeId × NodeId) : Work (Value × Value) := do
  let key ← value p.1
  if !key.isSimple then throw .malformed
  return (key, ← value p.2)

/-- The values of the only pair of a mapping. -/
def row (id : NodeId) : Work (Value × Value) := do
  match (← get).graph.body? id with
  | some (.mapping [p]) => pair p
  | _ => throw .malformed

/-- The items of a list. -/
def items (id : NodeId) : Work (List NodeId) := do
  match (← get).graph.body? id with
  | some (.list ids) => return ids
  | _ => throw .malformed

/-- The pairs of a mapping, merged and collected. -/
def entries (id : NodeId) : Work (List (Value × Value)) := do
  match (← get).graph.body? id with
  | some (.mapping _) =>
    let (_, graph) ← (Graph.flatten id).run (← get).graph
    modify fun s => { s with graph := graph }
    return Value.collectPairs (← (graph.pairs id).mapM entry)
  | _ => throw .malformed

/-- The contents of an object. -/
def contents (id : NodeId) : Work Contents := do
  match (← get).graph.tag id with
  | .list => return .list (← (← items id).mapM value)
  | .pairs => return .pairs (← (← items id).mapM row)
  | .set => return .set ((← entries id).map (·.1))
  | _ => return .mapping (← entries id)

/-- Fills the objects that wait, at most `fuel` of them. -/
def fill : (fuel : Nat) → Work Unit
  | 0 => return ()
  | fuel + 1 => do
    match (← get).waiting with
    | [] => return ()
    | id :: rest =>
      modify fun s => { s with waiting := rest }
      let c ← contents id
      modify fun s => { s with objects := s.objects ++ [(id, c)] }
      fill fuel

/-- What the nodes of a graph stand for, from the outermost one on. -/
def data (root : NodeId) : Work Data := do
  let v ← value root
  fill (← get).graph.nodes.size
  return ⟨v, (← get).objects⟩

end Building

/-- What a text holds. A text without a document stands for nothing. -/
def read (cs : List Char) : Except Fault Data := do
  match ← Graph.ofText cs with
  | (none, _) => return ⟨.null, []⟩
  | (some root, graph) => (Building.data root).run' ⟨graph, [], [], []⟩

end Yaml

end SegmentSwap
