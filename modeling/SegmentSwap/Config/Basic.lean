import SegmentSwap.Config.Location
import SegmentSwap.Number.Arithmetic

/-!
# Configuration

The limits and places that the protocol runs with. A configuration is only used after
`Config.check`, which reports the first value out of range.
-/

namespace SegmentSwap

/-- The numbers of a configuration. -/
structure Limits where
  /-- How often a conditional write is attempted in one call. -/
  attempts : Int
  /-- The wait before the second attempt, in seconds. -/
  baseDelay : Quantity
  /-- The longest wait between attempts, in seconds. -/
  maxDelay : Quantity
  /-- How many generations of data may be on disk, the one being uploaded among them. -/
  generations : Int
  /-- How long a writer waits for a lock, in seconds. -/
  lockTimeout : Quantity
  deriving DecidableEq, Repr

namespace Limits

/-- Five attempts, waits between 0.05 and 1 second, two generations, five seconds for a lock. -/
def default : Limits :=
  ⟨5, .real (.ofDecimal false 5 (-2)), .real (.ofInt 1), 2, .real (.ofInt 5)⟩

instance : Inhabited Limits := ⟨default⟩

/-- The fewest generations that a configuration may allow: one served and one being uploaded. -/
def minGenerations : Int := 2

end Limits

/-- A configuration. -/
structure Config where
  /-- The directory of the records. -/
  dataRoot : String
  /-- The numbers. -/
  limits : Limits
  /-- The file with the settings of tables, if there is one. -/
  settingsPath? : Option String
  deriving DecidableEq, Repr, Inhabited

/-- What is wrong with a configuration. -/
inductive ConfigFault where
  /-- No attempt is allowed. -/
  | attempts (given : Int)
  /-- The first wait is negative. -/
  | baseDelay (given : Quantity)
  /-- The longest wait is shorter than the first. -/
  | maxDelay (given base : Quantity)
  /-- Too few generations are allowed. -/
  | generations (given : Int)
  /-- There is no time to wait for a lock. -/
  | lockTimeout (given : Quantity)
  /-- A variable holds no whole number. -/
  | notInteger (variableName given : String)
  /-- A variable holds no number. -/
  | notReal (variableName given : String)
  /-- A path starts at an unknown home directory. -/
  | noHome
  /-- A time span is a whole number beyond the range of doubles. -/
  | tooLarge
  deriving DecidableEq, Repr

namespace ConfigFault

/-- The wording for a variable that does not hold what it should. -/
def unreadable (variableName expected given : String) : String :=
  "Invalid " ++ variableName ++ " value: expected " ++ expected ++ ", got '" ++ given ++
    "'. Set " ++ variableName ++ " to a numeric value."

/-- The wording of a configuration fault. -/
def message : ConfigFault → String
  | .attempts given =>
    "Invalid cas_max_attempts " ++ toString given ++
      ": expected at least 1. Set LINEAGE_CAS_MAX_ATTEMPTS to a positive integer."
  | .baseDelay given =>
    "Invalid cas_base_delay_seconds " ++ given.text ++ ": expected a non-negative value."
  | .maxDelay given base =>
    "Invalid cas_max_delay_seconds " ++ given.text ++
      ": must not be below cas_base_delay_seconds " ++ base.text ++ "."
  | .generations given =>
    "Invalid max_live_generations " ++ toString given ++ ": expected at least " ++
      toString Limits.minGenerations ++ " (served plus uploading)."
  | .lockTimeout given =>
    "Invalid store_lock_timeout_seconds " ++ given.text ++ ": expected a positive value."
  | .notInteger variableName given => unreadable variableName "integer" given
  | .notReal variableName given => unreadable variableName "number" given
  | .noHome => "Could not determine home directory."
  | .tooLarge => doubleLimitMessage

end ConfigFault

/-- Checks the numbers of a configuration, one after the other. -/
def Limits.check (l : Limits) : Except ConfigFault Unit :=
  if l.attempts < 1 then .error (.attempts l.attempts)
  else if l.baseDelay.lt (.whole 0) then .error (.baseDelay l.baseDelay)
  else if l.maxDelay.lt l.baseDelay then .error (.maxDelay l.maxDelay l.baseDelay)
  else if l.generations < Limits.minGenerations then .error (.generations l.generations)
  else if l.lockTimeout.le (.whole 0) then .error (.lockTimeout l.lockTimeout)
  else .ok ()

/-- A configuration with checked numbers. The path of the records is tidied. -/
def Config.create (dataRoot : String) (limits : Limits) (settingsPath? : Option String) :
    Except ConfigFault Config :=
  limits.check.map fun _ => ⟨Location.tidied dataRoot, limits, settingsPath?⟩

/-- The time spans of a configuration in seconds, as doubles. -/
structure Spans where
  /-- The wait before the second attempt. -/
  baseDelay : Binary64
  /-- The longest wait between attempts. -/
  maxDelay : Binary64
  /-- How long a writer waits for a lock. -/
  lockTimeout : Binary64
  deriving DecidableEq, Repr

/-- The time spans of a configuration, unless one of them is too large for a double. -/
def Limits.spans (l : Limits) : Except ConfigFault Spans :=
  match l.baseDelay.rounded?, l.maxDelay.rounded?, l.lockTimeout.rounded? with
  | some baseDelay, some maxDelay, some lockTimeout => .ok ⟨baseDelay, maxDelay, lockTimeout⟩
  | _, _, _ => .error .tooLarge

end SegmentSwap
