/-!
# Places in the file system

A place is an absolute path in normal form: a slash, then names parted by single slashes, none of
them `.` or `..`. Given paths are taken relative to the root of the file system; one that starts
with `~` starts at the home directory, and one that starts with `~root` at the home directory of the
superuser.

A path can also be tidied without being followed: `tidied` drops what says nothing, and leaves steps
up and a double slash at the front, which may have a meaning of its own.
-/

namespace SegmentSwap

namespace Location

/-- The names on a path. Empty names and `.` go. -/
def names (path : String) : List String :=
  (path.splitOn "/").filter fun name => name ≠ "" ∧ name ≠ "."

/-- Follows names from a directory given by the names down to it, the last name first. A step up
from the root stays there. -/
def descend (at_ : List String) : List String → List String
  | [] => at_
  | name :: rest => if name = ".." then descend (at_.drop 1) rest else descend (name :: at_) rest

/-- The place that names lead to from the root. -/
def ofNames (path : List String) : String := "/" ++ "/".intercalate (descend [] path).reverse

/-- Whether a path starts at the root. -/
def isAbsolute (path : String) : Bool := path.toList.head? == some '/'

/-- Whether a name asks for a home directory. -/
def asksForHome (name : String) : Bool := name.toList.head? == some '~'

/-- The number of slashes that a tidied path starts with. Exactly two of them stay two. -/
def leadingSlashes (path : String) : Nat :=
  let n := (path.toList.takeWhile (· == '/')).length
  if n ≤ 2 then n else 1

/-- A path without empty names and `.`. A path of nothing is the current directory. -/
def tidied (path : String) : String :=
  let t := String.ofList (List.replicate (leadingSlashes path) '/') ++ "/".intercalate (names path)
  if t.isEmpty then "." else t

/-- The home directory of the superuser. -/
def superuserHome : String := "/root"

/-- The place of a path. There is none if the path starts at a home directory that is unknown: that
of a named user other than the superuser, or one that is itself given by a tilde. -/
def resolve? (home path : String) : Option String :=
  match names path with
  | [] => some (ofNames [])
  | first :: rest =>
    if isAbsolute path || !asksForHome first then some (ofNames (first :: rest))
    else if first = "~" && !asksForHome home then some (ofNames (names home ++ rest))
    else if first = "~root" then some (ofNames (names superuserHome ++ rest))
    else none

end Location

end SegmentSwap
