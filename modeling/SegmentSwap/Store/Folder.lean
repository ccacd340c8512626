import SegmentSwap.Text.Quoted

/-!
# The directory of the records

A directory as far as the store uses it: named files, each with its bytes and the time of its last
change, and directories inside, which are only ever in the way. Times are in milliseconds, and
parts of them, on the clock of the store.
-/

namespace SegmentSwap

/-- What a name in the directory stands for. -/
inductive Node where
  | file (bytes : List UInt8) (modified : Rat)
  | directory
  deriving DecidableEq, Repr

/-- The names in the directory and what they stand for. -/
structure Folder where
  nodes : List (String × Node)
  deriving DecidableEq, Repr, Inhabited

namespace Folder

/-- An empty directory. -/
def empty : Folder := ⟨[]⟩

/-- What a name stands for. -/
def get? (f : Folder) (name : String) : Option Node := f.nodes.lookup name

/-- Takes a name away. -/
def remove (f : Folder) (name : String) : Folder := ⟨f.nodes.filter fun n => n.1 != name⟩

/-- Gives a name to something, whatever it stood for before. -/
def put (f : Folder) (name : String) (node : Node) : Folder :=
  ⟨(name, node) :: (f.remove name).nodes⟩

/-- The names in use. -/
def names (f : Folder) : List String := f.nodes.map (·.1)

/-- The longest name that the file system takes, in bytes. -/
def maxNameLength : Nat := 255

/-- Whether the file system takes a name. -/
def fits (name : String) : Bool := decide (name.utf8ByteSize ≤ maxNameLength)

end Folder

/-- Why the file system does not do what it is asked to. -/
inductive SystemError where
  /-- A name is too long. -/
  | nameTooLong
  /-- There is a directory where a file is needed. -/
  | isDirectory
  /-- There is no file. -/
  | notFound
  /-- There is no room left. -/
  | noSpace
  /-- The device fails. -/
  | device
  deriving DecidableEq, Repr

/-- A failure of the file system with the paths that it concerns. -/
structure SystemFault where
  /-- The kind of failure. -/
  error : SystemError
  /-- The paths: none, one, or the two of a renaming. -/
  paths : List String
  deriving DecidableEq, Repr

/-- The number and the wording of a failure. -/
def SystemError.message : SystemError → String
  | .nameTooLong => "[Errno 36] File name too long"
  | .isDirectory => "[Errno 21] Is a directory"
  | .notFound => "[Errno 2] No such file or directory"
  | .noSpace => "[Errno 28] No space left on device"
  | .device => "[Errno 5] Input/output error"

/-- The wording of a failure of the file system. -/
def SystemFault.message (f : SystemFault) : Text :=
  if f.paths.isEmpty then f.error.message
  else f.error.message ++ ": " ++ Text.joined " -> " (f.paths.map fun path => Text.quoted (.ofString path))

end SegmentSwap
