import SegmentSwap.Config.Basic
import SegmentSwap.Kind
import SegmentSwap.Protocol.Refusal
import SegmentSwap.Protocol.Retry
import SegmentSwap.Registry
import SegmentSwap.Settings.File
import SegmentSwap.Store.Fault
import SegmentSwap.Time.Stamp

/-!
# Failures

Everything that can go wrong, by cause, with the kind and the wording of each failure.
-/

namespace SegmentSwap

/-- Why something fails. -/
inductive Failure where
  /-- A call is turned down. -/
  | refusal (r : Refusal)
  /-- Entries make up no lineage. -/
  | lineage (f : LineageFault)
  /-- The file store fails. -/
  | store (f : StoreFault)
  /-- The registry does not answer. -/
  | registry (f : RegistryFault)
  /-- The configuration is invalid. -/
  | config (f : ConfigFault)
  /-- A table has no valid mode. -/
  | mode (f : ModeFault)
  /-- The settings of tables are invalid. -/
  | settings (f : SettingsFault)
  /-- All conditional writes of a call were lost. -/
  | exhausted (action table : Text) (attempts : Int)
  /-- The loop over the attempts of a call fails itself. -/
  | loop (f : Retry.Fault)
  /-- An entry carries no stamp. -/
  | stamp (f : Time.StampError)
  /-- An entry carries a stamp without an offset. -/
  | stampWithoutOffset
  /-- A span or an instant is out of range. -/
  | range (f : Time.RangeError)
  deriving Repr

/-- The kind of a refusal. -/
def Refusal.kind : Refusal → Kind
  | .noTargets _ | .repeated .. | .onBothSides .. => .declared .malformedRequest
  | .alreadyProduced .. | .alreadyRegistered .. => .declared .duplicateTargets
  | .notServed .. => .declared .unavailableSources
  | .contested .. => .declared .contested
  | .unknownEntry .. => .declared .unknownEntry
  | .transition (.forbidden ..) => .declared .invalidTransition
  | .transition (.unknownState _) => .missingKey
  | .notUploaded .. => .declared .notUploaded
  | .uploaded .. => .declared .uploaded

/-- The kind of a fault of a document. -/
def Document.Fault.kind (f : Document.Fault) : Kind :=
  match f.flaw with
  | .longFormat => .invalidValue
  | _ => .declared .store

/-- The kind of a fault of the file store. -/
def StoreFault.kind : StoreFault → Kind
  | .undecodable _ => .undecodable
  | .tooManyDigits _ | .versionTooLong => .invalidValue
  | .document f => f.kind
  | .tooDeep _ => .recursion
  | .timeoutTooLarge => .overflow
  | .system cause => .system cause.error
  | _ => .declared .store

/-- The kind of a fault of a loop over attempts. -/
def Retry.Fault.kind : Retry.Fault → Kind
  | .astray | .drained => .runtime
  | .tooLarge => .overflow

/-- The kind of a mode fault. -/
def ModeFault.kind : ModeFault → Kind
  | .unknown .. => .declared .configuration
  | .tooManyDigits => .invalidValue

/-- The kind of a fault of settings. -/
def SettingsFault.kind : SettingsFault → Kind
  | .undecodable _ => .undecodable
  | .loader cause => cause.kind
  | .mode f => f.kind
  | _ => .declared .configuration

namespace Failure

/-- The kind of a failure. -/
def kind : Failure → Kind
  | .refusal r => r.kind
  | .lineage _ => .invalidValue
  | .store f => f.kind
  | .registry (.notRegistered ..) => .missingKey
  | .registry .listingUnavailable => .runtime
  | .config .noHome => .runtime
  | .config .tooLarge => .overflow
  | .config _ => .declared .configuration
  | .mode f => f.kind
  | .settings f => f.kind
  | .exhausted .. => .declared .exhausted
  | .loop f => f.kind
  | .stamp _ => .invalidValue
  | .stampWithoutOffset => .invalidType
  | .range _ => .overflow

/-- The wording of a failure. Settings that are malformed YAML have none. -/
def message? : Failure → Option Text
  | .refusal r => some r.message
  | .lineage f => some f.message
  | .store f => some f.message
  | .registry f => some f.message
  | .config f => some f.message
  | .mode f => some f.message
  | .settings f => f.message?
  | .exhausted action table attempts =>
    some ("Gave up on " ++ action ++ " for '" ++ table ++ "' after " ++ toString attempts ++
      " conflicting writes. Retry the call once concurrent writers settle.")
  | .loop f => some f.message
  | .stamp f => some f.message
  | .stampWithoutOffset => some "can't compare offset-naive and offset-aware datetimes"
  | .range f => some f.message

/-- The segments that the caller has to deal with first, for failures that name them. -/
def blocking? : Failure → Option (List Text)
  | .refusal r => r.blocking?
  | _ => none

end Failure

end SegmentSwap
