import SegmentSwap.Yaml.Graph
import SegmentSwap.Yaml.Token.Lexer

/-!
# Reading nodes

The tokens of a document give its nodes. A node that has a name gets its number before the nodes
inside it are read, so that these can hold it.
-/

namespace SegmentSwap

namespace Yaml

/-- Where a node stands. -/
inductive Place where
  /-- Between brackets or braces. -/
  | flow
  /-- In a block. -/
  | block
  /-- In a block mapping, where the items of a list need not be moved in. -/
  | indentless
  deriving DecidableEq, Repr

namespace Graph

/-- What is left to read, with the names and handles known so far. -/
structure Rest where
  /-- The tokens. -/
  tokens : List Token
  /-- The fault after them, if there is one. -/
  fault? : Option Fault
  /-- The meanings of tag handles. -/
  handles : List (String × String)
  /-- The named nodes. -/
  named : List (String × NodeId)
  /-- The nodes so far. -/
  graph : Graph

/-- Reads tokens. -/
abbrev Reader := StateT Rest (Except Fault)

/-- The next token, if the text does not end before. -/
def peek? : Reader (Option Token) := do
  let s ← get
  match s.tokens, s.fault? with
  | t :: _, _ => return some t
  | [], some f => throw f
  | [], none => return none

/-- Passes over the next token. -/
def skip : Reader Unit := modify fun s => { s with tokens := s.tokens.tail }

/-- Whether one of some tokens comes next. -/
def isNext (ts : List Token) : Reader Bool := do
  match ← peek? with
  | some t => return ts.contains t
  | none => return false

/-- Passes over one of some tokens, which has to come next. -/
def expect (ts : List Token) : Reader Unit := do
  if ← isNext ts then skip else throw .malformed

/-- The meanings of handles that need no directive. -/
def knownHandles : List (String × String) := [("!", "!"), ("!!", "tag:yaml.org,2002:")]

/-- The full text of a tag. -/
def fullTag (t : TagText) : Reader String :=
  match t.handle? with
  | none => return t.suffix
  | some h => do
    match (← get).handles.lookup h with
    | some meaning => return meaning ++ t.suffix
    | none => throw .malformed

/-- The name at a place, if there is one. -/
def anchor? : Reader (Option String) := do
  match ← peek? with
  | some (.anchor name) => skip; return some name
  | _ => return none

/-- The tag at a place, if there is one. -/
def tag? : Reader (Option TagText) := do
  match ← peek? with
  | some (.tag t) => skip; return some t
  | _ => return none

/-- The name and the tag of the node that follows, in either order. A single exclamation mark counts
as no tag; the last component tells whether it is there. -/
def properties : Reader (Option String × Option String × Bool) := do
  let first? ← anchor?
  let tag? ← tag?
  let name? ← match first? with
    | some name => pure (some name)
    | none => if tag?.isSome then anchor? else pure none
  match tag? with
  | none => return (name?, none, false)
  | some t =>
    let full ← fullTag t
    return (name?, if full = "!" then none else some full, full = "!")

/-- Adds a node. -/
def addNode (n : Node) : Reader NodeId :=
  modifyGet fun s =>
    let (id, graph) := s.graph.add n
    (id, { s with graph := graph })

/-- Reads what a node of a type consists of. The node may have a name, and two nodes have different
names; until it is read it counts as `start`. -/
def build (name? : Option String) (tag : Tag) (start : Body) (read : Reader Body) :
    Reader NodeId := do
  if let some name := name? then
    if ((← get).named.lookup name).isSome then throw .malformed
  let id ← addNode ⟨tag, start⟩
  if let some name := name? then
    modify fun s => { s with named := (name, id) :: s.named }
  let body ← read
  modify fun s => { s with graph := s.graph.setBody id body }
  return id

/-- Reads a scalar, which is read already. -/
def buildScalar (name? : Option String) (tag : Tag) (text : Text) : Reader NodeId :=
  build name? tag (.scalar text) (return .scalar text)

/-- Reads a list. -/
def buildList (name? : Option String) (tag : Tag) (items : Reader (List NodeId)) :
    Reader NodeId :=
  build name? tag (.list []) (.list <$> items)

/-- Reads a mapping. -/
def buildMapping (name? : Option String) (tag : Tag) (pairs : Reader (List (NodeId × NodeId))) :
    Reader NodeId :=
  build name? tag (.mapping []) (.mapping <$> pairs)

/-- Reads a node, which is left out if one of some tokens comes next. -/
def orEmpty (ts : List Token) (read : Reader NodeId) : Reader NodeId := do
  if ← isNext ts then addNode .empty else read

mutual

/-- Reads a node. -/
def node : (fuel : Nat) → Place → Reader NodeId
  | 0, _ => throw .malformed
  | fuel + 1, place => do
    match ← peek? with
    | some (.alias name) =>
      skip
      match (← get).named.lookup name with
      | some n => return n
      | none => throw .malformed
    | _ =>
      let (name?, tag?, bare) ← properties
      let typed (fallback : Tag) : Tag := (tag?.map Tag.ofText).getD fallback
      let inBlock := place ≠ .flow
      match ← peek? with
      | some (.scalar text plain) =>
        skip
        buildScalar name? (typed (if plain || bare then .ofPlain text else .text)) text
      | some .openBracket =>
        skip
        buildList name? (typed .list) (flowItems fuel true)
      | some .openBrace =>
        skip
        buildMapping name? (typed .mapping) (flowPairs fuel true)
      | t? =>
        if t? = some .blockEntry ∧ place = .indentless then
          buildList name? (typed .list) (indentlessItems fuel)
        else if t? = some .blockSequence ∧ inBlock then
          skip
          buildList name? (typed .list) (blockItems fuel)
        else if t? = some .blockMapping ∧ inBlock then
          skip
          buildMapping name? (typed .mapping) (blockPairs fuel)
        else if name?.isSome || tag?.isSome || bare then
          buildScalar name? (typed .null) ""
        else throw .malformed

/-- Reads the items of a list in block style. -/
def blockItems : (fuel : Nat) → Reader (List NodeId)
  | 0 => throw .malformed
  | fuel + 1 => do
    if ← isNext [.blockEntry] then
      skip
      let item ← orEmpty [.blockEntry, .blockEnd] (node fuel .block)
      return item :: (← blockItems fuel)
    else
      expect [.blockEnd]
      return []

/-- Reads the items of a list that is not moved in. -/
def indentlessItems : (fuel : Nat) → Reader (List NodeId)
  | 0 => throw .malformed
  | fuel + 1 => do
    if ← isNext [.blockEntry] then
      skip
      let item ← orEmpty [.blockEntry, .key, .value, .blockEnd] (node fuel .block)
      return item :: (← indentlessItems fuel)
    else return []

/-- Reads the pairs of a mapping in block style. -/
def blockPairs : (fuel : Nat) → Reader (List (NodeId × NodeId))
  | 0 => throw .malformed
  | fuel + 1 => do
    if ← isNext [.key] then
      skip
      let stops := [Token.key, .value, .blockEnd]
      let key ← orEmpty stops (node fuel .indentless)
      let value ←
        if ← isNext [.value] then do
          skip
          orEmpty stops (node fuel .indentless)
        else addNode .empty
      return (key, value) :: (← blockPairs fuel)
    else
      expect [.blockEnd]
      return []

/-- Reads the items of a list between brackets. A single pair counts as a mapping. -/
def flowItems : (fuel : Nat) → (first : Bool) → Reader (List NodeId)
  | 0, _ => throw .malformed
  | fuel + 1, first => do
    if ← isNext [.closeBracket] then
      skip
      return []
    else
      if !first then expect [.comma]
      if ← isNext [.key] then
        skip
        let key ← orEmpty [.value, .comma, .closeBracket] (node fuel .flow)
        let value ←
          if ← isNext [.value] then do
            skip
            orEmpty [.comma, .closeBracket] (node fuel .flow)
          else addNode .empty
        let pair ← addNode ⟨.mapping, .mapping [(key, value)]⟩
        return pair :: (← flowItems fuel false)
      else if ← isNext [.closeBracket] then
        skip
        return []
      else
        let item ← node fuel .flow
        return item :: (← flowItems fuel false)

/-- Reads the pairs of a mapping between braces. A key may stand without a value. -/
def flowPairs : (fuel : Nat) → (first : Bool) → Reader (List (NodeId × NodeId))
  | 0, _ => throw .malformed
  | fuel + 1, first => do
    if ← isNext [.closeBrace] then
      skip
      return []
    else
      if !first then expect [.comma]
      if ← isNext [.key] then
        skip
        let key ← orEmpty [.value, .comma, .closeBrace] (node fuel .flow)
        let value ←
          if ← isNext [.value] then do
            skip
            orEmpty [.comma, .closeBrace] (node fuel .flow)
          else addNode .empty
        return (key, value) :: (← flowPairs fuel false)
      else if ← isNext [.closeBrace] then
        skip
        return []
      else
        let key ← node fuel .flow
        let value ← addNode .empty
        return (key, value) :: (← flowPairs fuel false)

end

/-- Reads the directives before a document. The version has to be 1.x; nothing is said twice. -/
def directives : (fuel : Nat) → (versioned : Bool) → (handles : List (String × String)) →
    Reader (List (String × String))
  | 0, _, handles => return handles
  | fuel + 1, versioned, handles => do
    match ← peek? with
    | some (.directive d) =>
      skip
      match d with
      | .version major _ =>
        if versioned || major ≠ 1 then throw .malformed else directives fuel true handles
      | .tag h meaning =>
        if (handles.lookup h).isSome then throw .malformed
        else directives fuel versioned ((h, meaning) :: handles)
      | .other => directives fuel versioned handles
    | _ => return handles

/-- Passes over the marks that end a document. -/
def skipEnds : (fuel : Nat) → Reader Unit
  | 0 => return ()
  | fuel + 1 => do
    if ← isNext [.documentEnd] then
      skip
      skipEnds fuel

/-- Reads the only document of a text, if there is one. -/
def document : Reader (Option NodeId) := do
  let count := (← get).tokens.length
  let fuel := 2 * count + 8
  match ← peek? with
  | none => return none
  | some t =>
    let root ← match t with
      | .directive _ | .documentStart =>
        let handles ← directives (count + 1) false []
        modify fun s => { s with handles := handles ++ knownHandles }
        expect [.documentStart]
        match ← peek? with
        | none | some (.directive _) | some .documentStart | some .documentEnd => addNode .empty
        | some _ => node fuel .block
      | _ => node fuel .block
    skipEnds (count + 1)
    match ← peek? with
    | none => return some root
    | some _ =>
      let _ ← directives (count + 1) false []
      let _ ← peek?
      throw .malformed

/-- The nodes of a text and the number of the outermost one, if there is a document. -/
def ofText (cs : List Char) : Except Fault (Option NodeId × Graph) :=
  let l := Lexed.ofText cs
  (document.run ⟨l.tokens, l.fault?, knownHandles, [], empty⟩).map fun r => (r.1, r.2.graph)

end Graph

end Yaml

end SegmentSwap
