import SegmentSwap.Settings.Loader
import SegmentSwap.Settings.Mode
import SegmentSwap.Store.Folder
import SegmentSwap.Text.Newline
import SegmentSwap.Text.Utf8

/-!
# Settings files

The modes of tables may come from a YAML file: a mapping with the number of its version and with one
mapping for each table. What is not mentioned keeps its default. The first flaw is reported: first
of the file, then of its outer mapping, then table by table.
-/

namespace SegmentSwap

/-- Where the settings of tables come from. -/
inductive SettingsSource where
  /-- There are no settings. -/
  | none
  /-- There should be a file, but there is nothing. -/
  | missing (path : String)
  /-- There should be a file, but there is a directory. -/
  | directory (path : String)
  /-- A file and what is in it. -/
  | file (path : String) (bytes : List UInt8)
  deriving Repr

/-- A part of the settings that is a mapping. -/
inductive SettingsPart where
  | root
  | tables
  | table (name : Text)
  deriving DecidableEq, Repr

/-- The name of a part. -/
def SettingsPart.text : SettingsPart → Text
  | .root => "table settings root"
  | .tables => "tables"
  | .table name => "table '" ++ name ++ "'"

/-- What is wrong with settings. -/
inductive SettingsFault where
  /-- There is no file. -/
  | missing (path : String)
  /-- The file system does not hand out the file. -/
  | unreadable (path : String) (cause : SystemFault)
  /-- The file is no text. -/
  | undecodable (cause : Text.Utf8.DecodeError)
  /-- The loader does not load the text, or it does not show the value that a message needs. -/
  | loader (cause : Settings.LoadFault)
  /-- The file holds nothing. -/
  | nothing (path : String)
  /-- A part is no mapping. -/
  | notMapping (part : SettingsPart) (typeName : String)
  /-- A key of a part is no name. -/
  | keyType (part : SettingsPart) (typeName : String)
  /-- The version is not the one that is understood. -/
  | version (shown : Text) (path : String)
  /-- A table has no valid mode. -/
  | mode (cause : ModeFault)
  deriving DecidableEq, Repr

/-- The version of settings that is understood. -/
def settingsVersion : Nat := 1

/-- The wording of a fault of settings. There is none for malformed YAML. -/
def SettingsFault.message? : SettingsFault → Option Text
  | .missing path =>
    some ("Table settings file does not exist at " ++ path ++
      ". Unset LINEAGE_TABLE_CONFIG or provide a valid YAML file.")
  | .unreadable path cause =>
    some ("Failed to read table settings at " ++ path ++ ": " ++ cause.message ++
      ". Check file permissions and retry.")
  | .undecodable cause => some cause.message
  | .loader cause => cause.message?
  | .nothing path =>
    some ("Table settings at " ++ path ++ " are empty. Define 'version' and 'tables'.")
  | .notMapping part typeName =>
    some ("Invalid " ++ part.text ++ ": expected object mapping, got " ++ typeName ++ ".")
  | .keyType part typeName =>
    some ("Invalid " ++ part.text ++ ": expected string keys, got " ++ typeName ++ ".")
  | .version shown path =>
    some ("Unsupported table settings version " ++ shown ++ " in " ++ path ++ ". Use version: " ++
      toString settingsVersion ++ ".")
  | .mode cause => some cause.message

namespace Settings

/-- What a settings file holds. -/
def data (y : Loader) (path : String) (bytes : List UInt8) : Except SettingsFault y.Value := do
  let text ← (Text.Utf8.decode bytes).mapError .undecodable
  let v ← (y.load (.ofList (Text.normalizeNewlines text.toList))).mapError .loader
  match y.look v with
  | .nothing => throw (.nothing path)
  | _ => return v

/-- A value, as messages show it. -/
def shown (y : Loader) (v : y.Value) : Except SettingsFault Text := (y.shown v).mapError .loader

/-- The name that a key is. -/
def keyName (y : Loader) (part : SettingsPart) (key : y.Value) : Except SettingsFault Text :=
  match y.look key with
  | .text name => .ok name
  | _ => .error (.keyType part (y.typeName key))

/-- The names among the pairs of a part with what they stand for. -/
def names (y : Loader) (part : SettingsPart) (pairs : List (y.Value × y.Value)) :
    Except SettingsFault (List (Text × y.Value)) :=
  pairs.mapM fun p => (keyName y part p.1).map fun name => (name, p.2)

/-- The names in a part with what they stand for. -/
def fields (y : Loader) (part : SettingsPart) (v : y.Value) :
    Except SettingsFault (List (Text × y.Value)) :=
  match y.look v with
  | .mapping pairs => names y part pairs
  | _ => .error (.notMapping part (y.typeName v))

/-- What a name stands for. -/
def field? {α : Type} (name : Text) (fs : List (Text × α)) : Option α := fs.lookup name

/-- Checks the version of the settings. A version that is not given is shown as nothing. -/
def checkVersion (y : Loader) (path : String) (root : List (Text × y.Value)) :
    Except SettingsFault Unit := do
  match field? "version" root with
  | some v => if !y.isNumber settingsVersion v then throw (.version (← shown y v) path)
  | none => throw (.version "None" path)

/-- The mode that a value names. -/
def mode (y : Loader) (table : Text) (v : y.Value) : Except SettingsFault Mode := do
  match y.look v with
  | .text name =>
    match Mode.ofText? name with
    | some m => return m
    | none => throw (.mode (.unknown (← shown y v) table))
  | _ => throw (.mode (.unknown (← shown y v) table))

/-- The mode of a table. -/
def table (y : Loader) (name : Text) (v : y.Value) : Except SettingsFault (Text × Mode) := do
  match field? "ingestion_mode" (← fields y (.table name) v) with
  | some m => return (name, ← mode y name m)
  | none => return (name, .append)

/-- The modes of the tables that the outer mapping lists. -/
def given (y : Loader) (root : List (Text × y.Value)) : Except SettingsFault TableModes := do
  match field? "tables" root with
  | some v => return ⟨← (← fields y .tables v).mapM fun t => table y t.1 t.2⟩
  | none => return ⟨[]⟩

/-- The modes in a settings file. -/
def modes (y : Loader) (path : String) (v : y.Value) : Except SettingsFault TableModes := do
  let root ← fields y .root v
  checkVersion y path root
  given y root

/-- The modes that settings give. -/
def load (y : Loader) : SettingsSource → Except SettingsFault TableModes
  | .none => .ok .none
  | .missing path => .error (.missing path)
  | .directory path => .error (.unreadable path ⟨.isDirectory, [path]⟩)
  | .file path bytes => do modes y path (← data y path bytes)

end Settings

end SegmentSwap
