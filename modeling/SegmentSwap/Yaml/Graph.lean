import SegmentSwap.Yaml.Tag

/-!
# Node graphs

The nodes of a document are scalars, lists and mappings. A node is known by its number, by which it
stands in other nodes: at one place or, with the help of a name, at several, which may even lie
inside the node itself. So a document is a graph and not a tree.
-/

namespace SegmentSwap

namespace Yaml

/-- The number of a node. -/
abbrev NodeId := Nat

/-- What a node consists of. -/
inductive Body where
  /-- A text. -/
  | scalar (text : Text)
  /-- The items of a list. -/
  | list (items : List NodeId)
  /-- The pairs of a mapping, each a key and its value. -/
  | mapping (pairs : List (NodeId × NodeId))
  deriving DecidableEq, Repr

/-- A node. -/
structure Node where
  tag : Tag
  body : Body
  deriving DecidableEq, Repr

/-- A node that is left out. -/
def Node.empty : Node := ⟨.null, .scalar ""⟩

/-- The nodes of a document. The number of a node is its place. -/
structure Graph where
  nodes : Array Node
  deriving DecidableEq, Repr

namespace Graph

/-- A graph without nodes. -/
def empty : Graph := ⟨#[]⟩

/-- The node of a number. -/
def get? (g : Graph) (id : NodeId) : Option Node := g.nodes[id]?

/-- The type of a node. -/
def tag (g : Graph) (id : NodeId) : Tag := (g.get? id).elim .unknown Node.tag

/-- What a node consists of. -/
def body? (g : Graph) (id : NodeId) : Option Body := (g.get? id).map Node.body

/-- The pairs of a mapping; other nodes have none. -/
def pairs (g : Graph) (id : NodeId) : List (NodeId × NodeId) :=
  match g.body? id with
  | some (.mapping ps) => ps
  | _ => []

/-- Adds a node. -/
def add (g : Graph) (n : Node) : NodeId × Graph := (g.nodes.size, ⟨g.nodes.push n⟩)

/-- Changes what a node consists of. -/
def setBody (g : Graph) (id : NodeId) (b : Body) : Graph :=
  ⟨g.nodes.modify id fun n => { n with body := b }⟩

/-- Changes the type of a node. -/
def setTag (g : Graph) (id : NodeId) (t : Tag) : Graph :=
  ⟨g.nodes.modify id fun n => { n with tag := t }⟩

/-- The text of a node: that of a scalar, or that of the default value of a mapping. Following
default values comes to an end after `fuel` nodes, or else it never would. -/
def textFrom (g : Graph) : (fuel : Nat) → NodeId → Except Fault Text
  | 0, _ => .error .endless
  | fuel + 1, id =>
    match g.body? id with
    | some (.scalar t) => .ok t
    | some (.mapping ps) =>
      match ps.find? fun p => g.tag p.1 = .default with
      | some p => textFrom g fuel p.2
      | none => .error .malformed
    | _ => .error .malformed

/-- The text of a node. -/
def text (g : Graph) (id : NodeId) : Except Fault Text := g.textFrom (g.nodes.size + 1) id

end Graph

end Yaml

end SegmentSwap
