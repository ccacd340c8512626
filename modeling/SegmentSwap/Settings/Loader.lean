import SegmentSwap.Kind

/-!
# Loaders of settings texts

Settings are written in YAML, which a library reads. All that is used of it is gathered here: the
value that a text holds, how values look, and how messages show them. What is said of settings holds
with any loader.
-/

namespace SegmentSwap.Settings

/-- Why a loader does not load a text or show a value. -/
inductive LoadFault where
  /-- The text is malformed, and reported so. -/
  | malformed
  /-- Something else goes wrong. -/
  | raised (kind : Kind) (message : Text)
  deriving DecidableEq, Repr

/-- The kind of a fault. A malformed text is a fault of the configuration. -/
def LoadFault.kind : LoadFault → Kind
  | .malformed => .declared .configuration
  | .raised kind _ => kind

/-- The wording of a fault. There is none for malformed texts. -/
def LoadFault.message? : LoadFault → Option Text
  | .malformed => none
  | .raised _ message => some message

/-- A value as far as settings look into it. -/
inductive Look (α : Type) where
  | nothing
  | text (t : Text)
  /-- A mapping with its pairs. No two of them have equal keys. -/
  | mapping (pairs : List (α × α))
  /-- Anything else. -/
  | other

/-- A reader of settings texts. -/
structure Loader where
  /-- What a text can hold. -/
  Value : Type
  /-- What a text holds. -/
  load : String → Except LoadFault Value
  look : Value → Look Value
  /-- Whether a value equals a whole number. -/
  isNumber : Int → Value → Bool
  /-- The name of the type of a value. -/
  typeName : Value → String
  /-- A value, as messages show it. -/
  shown : Value → Except LoadFault Text

/-- What is documented of loaders: a text is loaded, or malformed, or it spells a value that does not
exist. -/
def Loader.Documented (y : Loader) : Prop :=
  ∀ text f, y.load text = .error f → f = .malformed ∨ ∃ message, f = .raised .invalidValue message

end SegmentSwap.Settings
