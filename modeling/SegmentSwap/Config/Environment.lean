import SegmentSwap.Config.Basic
import SegmentSwap.Config.Location
import SegmentSwap.Number.Numeral

/-!
# Configuration from the environment

The variables that set a configuration. One that is absent leaves its default; the variables are
read in a fixed order, and the first one that is not understood is reported before any value is
checked.
-/

namespace SegmentSwap

/-- The variables of an environment. -/
abbrev Environment := List (String × String)

namespace Environment

/-- The value of a variable. -/
def get? (env : Environment) (name : String) : Option String := env.lookup name

/-- The home directory. -/
def home (env : Environment) : String := (env.get? "HOME").getD "/home/tester"

/-- A whole number from a variable. -/
def integer (env : Environment) (name : String) (fallback : Int) : Except ConfigFault Int :=
  match env.get? name with
  | none => .ok fallback
  | some raw =>
    match Numeral.integer? raw.toList with
    | some n => .ok n
    | none => .error (.notInteger name raw)

/-- A real number from a variable. -/
def real (env : Environment) (name : String) (fallback : Quantity) : Except ConfigFault Quantity :=
  match env.get? name with
  | none => .ok fallback
  | some raw =>
    match Numeral.real? raw.toList with
    | some x => .ok (.real x)
    | none => .error (.notReal name raw)

/-- The place of a path from a variable. -/
def place (env : Environment) (path : String) : Except ConfigFault String :=
  match Location.resolve? env.home path with
  | some p => .ok p
  | none => .error .noHome

/-- The configuration that an environment sets. -/
def config (env : Environment) : Except ConfigFault Config := do
  let standard := Limits.default
  let dataRoot ← env.place ((env.get? "LINEAGE_DATA_ROOT").getD ".lineage")
  let attempts ← env.integer "LINEAGE_CAS_MAX_ATTEMPTS" standard.attempts
  let baseDelay ← env.real "LINEAGE_CAS_BASE_DELAY_SECONDS" standard.baseDelay
  let maxDelay ← env.real "LINEAGE_CAS_MAX_DELAY_SECONDS" standard.maxDelay
  let generations ← env.integer "LINEAGE_MAX_LIVE_GENERATIONS" standard.generations
  let lockTimeout ← env.real "LINEAGE_STORE_LOCK_TIMEOUT_SECONDS" standard.lockTimeout
  let settingsPath? ← match (env.get? "LINEAGE_TABLE_CONFIG").filter (· ≠ "") with
    | some path => (env.place path).map some
    | none => pure none
  Config.create dataRoot ⟨attempts, baseDelay, maxDelay, generations, lockTimeout⟩ settingsPath?

end Environment

end SegmentSwap
