import SegmentSwap.Text.Basic

/-!
# Tokens of YAML

A YAML text is a sequence of tokens. Some of them stand for characters of the text; others, such as
the start and the end of a nested block, only follow from how far lines are moved in.
-/

namespace SegmentSwap

namespace Yaml

/-- The tag of a node as it is spelled: the name of a handle and what follows it. -/
structure TagText where
  /-- The handle, if there is one. -/
  handle? : Option String
  /-- What follows. -/
  suffix : String
  deriving DecidableEq, Repr

/-- An instruction before a document. -/
inductive Directive where
  /-- The version of YAML. -/
  | version (major minor : Nat)
  /-- The meaning of a handle. -/
  | tag (handle meaning : String)
  /-- Something else, which is passed over. -/
  | other
  deriving DecidableEq, Repr

/-- A token. -/
inductive Token where
  /-- An instruction before a document. -/
  | directive (d : Directive)
  /-- The mark that starts a document. -/
  | documentStart
  /-- The mark that ends a document. -/
  | documentEnd
  /-- A list in block style starts. -/
  | blockSequence
  /-- A mapping in block style starts. -/
  | blockMapping
  /-- A list or a mapping in block style ends. -/
  | blockEnd
  /-- An opening bracket. -/
  | openBracket
  /-- A closing bracket. -/
  | closeBracket
  /-- An opening brace. -/
  | openBrace
  /-- A closing brace. -/
  | closeBrace
  /-- An item of a list in block style starts. -/
  | blockEntry
  /-- A comma. -/
  | comma
  /-- A key starts. -/
  | key
  /-- The value of a key starts. -/
  | value
  /-- The name of an earlier node, which stands here again. -/
  | alias (name : String)
  /-- A name for the node that follows. -/
  | anchor (name : String)
  /-- The tag of the node that follows. -/
  | tag (t : TagText)
  /-- A scalar, plain or with some marks around it. -/
  | scalar (text : Text) (plain : Bool)
  deriving DecidableEq, Repr

end Yaml

end SegmentSwap
