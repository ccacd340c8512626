import SegmentSwap.Config.Environment
import SegmentSwap.Session.Script

/-!
# How sessions begin

A session is put together from its parts, or wired from a configuration or from an environment. A
wired session keeps its records in files and has a worker behind its deletion queue.
-/

namespace SegmentSwap

/-- How a session begins. -/
inductive Setup where
  /-- From parts: the numbers, whether records are in files below the root, and the modes of tables.
  -/
  | assembled (root : String) (limits : Limits) (inFiles : Bool)
    (modes : List (Text × Json.Value))
  /-- From a configuration and the content of a settings file below the root. -/
  | wired (root : String) (limits : Limits) (settings? : Option (List UInt8))
  /-- From an environment, which may override the root and the settings file below it. -/
  | environment (root : String) (env : Environment) (settings? : Option (List UInt8))
  deriving Repr

namespace Setup

/-- The directory of the records. -/
def recordRoot (dataRoot : String) : String := dataRoot ++ "/lineage"

/-- The path of the settings file below the root. -/
def settingsPath (root : String) : String := root ++ "/tables.yaml"

/-- The settings file below the root. -/
def ownSettings (root : String) (settings? : Option (List UInt8)) : SettingsSource :=
  match settings? with
  | some bytes => .file (settingsPath root) bytes
  | none => .none

/-- A wired session. -/
def wire (y : Settings.Loader) (dataRoot : String) (limits : Limits) (settings : SettingsSource) :
    Except Failure World := do
  let modes ← (Settings.load y settings).mapError .settings
  let w := World.create limits modes (.files (.create (recordRoot dataRoot) limits.lockTimeout))
  return { w with queue := w.queue.start }

/-- An environment in which no call waits between its attempts, unless it says otherwise. -/
def withoutDelays (env : Environment) : Environment :=
  env ++ [("LINEAGE_CAS_BASE_DELAY_SECONDS", "0"), ("LINEAGE_CAS_MAX_DELAY_SECONDS", "0")]

/-- The world in which a session begins. -/
def world (y : Settings.Loader) : Setup → Except Failure World
  | .assembled root limits inFiles modes => do
    limits.check.mapError .config
    let modes ← (TableModes.ofJson modes).mapError .mode
    let store : Store :=
      if inFiles then .files (.create (recordRoot root) limits.lockTimeout) else .memory .empty
    return .create limits modes store
  | .wired root limits settings? => do
    limits.check.mapError .config
    wire y root limits (ownSettings root settings?)
  | .environment root env settings? => do
    let config ← ((withoutDelays env).config).mapError .config
    let dataRoot := if (env.get? "LINEAGE_DATA_ROOT").isSome then config.dataRoot else root
    let settings : SettingsSource :=
      if (env.get? "LINEAGE_TABLE_CONFIG").isNone then ownSettings root settings?
      else config.settingsPath?.elim .none .missing
    wire y dataRoot config.limits settings

end Setup

end SegmentSwap
