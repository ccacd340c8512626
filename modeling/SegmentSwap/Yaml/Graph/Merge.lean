import SegmentSwap.Yaml.Graph

/-!
# Merging mappings

A mapping may ask for the pairs of other mappings by a key that is the sign for merging; its value
is a mapping or a list of mappings. `Graph.flatten` puts the pairs asked for in front of the
mapping's own pairs, those of the last mapping of a list first, and removes the requests. Mappings
are flattened before their pairs are taken. A mapping may ask for itself: what it then gets are the
pairs that it has at that moment.

Where a key is the sign for a default value it counts as a text from then on.
-/

namespace SegmentSwap

namespace Yaml

namespace Graph

/-- Work on a graph. -/
abbrev Work := StateT Graph (Except Fault)

/-- Whether a pair asks for other pairs. -/
def isRequest (g : Graph) (p : NodeId × NodeId) : Bool := g.tag p.1 = .merge

/-- The number of requests in a graph. -/
def requestCount (g : Graph) : Nat :=
  (g.nodes.toList.map fun n =>
    match n.body with
    | .mapping ps => ps.countP g.isRequest
    | _ => 0).foldr (· + ·) 0

/-- Turns the signs for default values among some keys into texts. -/
def settleKeys (ps : List (NodeId × NodeId)) (g : Graph) : Graph :=
  ps.foldl (fun g p => if g.tag p.1 = .default then g.setTag p.1 .text else g) g

/-- The pairs of a mapping that has been flattened. -/
def flatPairs (flattenMapping : NodeId → Work Unit) (id : NodeId) :
    Work (List (NodeId × NodeId)) := do
  match (← get).body? id with
  | some (.mapping _) =>
    flattenMapping id
    return (← get).pairs id
  | _ => throw .malformed

/-- The pairs that a request gets. -/
def requested (flattenMapping : NodeId → Work Unit) (id : NodeId) :
    Work (List (NodeId × NodeId)) := do
  match (← get).body? id with
  | some (.list items) =>
    let lists ← items.mapM (flatPairs flattenMapping)
    return lists.reverse.flatten
  | _ => flatPairs flattenMapping id

/-- Flattens a mapping from the pair at a place on; `merged` holds the pairs that it has been given
so far. Every request is removed before it is met, so that the number of requests bounds how far
this goes. -/
def flattenFrom : (fuel : Nat) → NodeId → (place : Nat) → (merged : List (NodeId × NodeId)) →
    Work Unit
  | 0, _, _, _ => throw .malformed
  | fuel + 1, id, place, merged => do
    let g ← get
    let ps := g.pairs id
    let passed := (ps.drop place).takeWhile fun p => !g.isRequest p
    modify (settleKeys passed)
    let next := place + passed.length
    match ps[next]? with
    | none =>
      if !merged.isEmpty then modify fun g => g.setBody id (.mapping (merged ++ ps))
    | some (_, source) =>
      modify fun g => g.setBody id (.mapping (ps.eraseIdx next))
      let more ← requested (fun other => flattenFrom fuel other 0 []) source
      flattenFrom fuel id next (merged ++ more)

/-- Flattens a mapping. -/
def flatten (id : NodeId) : Work Unit := do
  flattenFrom ((← get).requestCount + 1) id 0 []

end Graph

end Yaml

end SegmentSwap
