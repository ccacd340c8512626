import SegmentSwap.Event
import SegmentSwap.Store.Clock
import SegmentSwap.Store.Record
import SegmentSwap.Store.Rival
import SegmentSwap.Store.TableName

/-!
# Records in files

A store with one file for each table. A writer takes the lock file of the table, compares versions,
writes a draft of the record and renames it into place; the lock holds a token of its owner, and
only its owner removes it. A lock that is older than the time a writer waits is abandoned: it is
renamed to a tombstone, looked at once more and removed.

The clock of the store moves only while a writer waits, by ten milliseconds at each look at the
lock.
-/

namespace SegmentSwap

/-- The store: its directory, its clock and what it has reported. -/
structure FileStore where
  /-- The path of the directory. -/
  root : String
  /-- How long a writer waits for a lock, in seconds, and how old a lock may become. -/
  timeout : Quantity
  /-- The directory. -/
  folder : Folder
  /-- How often writers have waited. -/
  polls : Nat
  /-- How many tokens and tags have been used up. -/
  used : Nat
  /-- What has been reported. -/
  events : List Event
  /-- What another process has in mind. -/
  rival : Rival
  /-- What is wrong with the disk. -/
  trouble? : Option SystemError
  /-- How the time is told. -/
  clock : Clock
  deriving Repr

namespace FileStore

/-- A store with an empty directory and nobody around. -/
def create (root : String) (timeout : Quantity) : FileStore :=
  ⟨root, timeout, .empty, 0, 0, [], .none, none, .rounded⟩

/-- The path of a name in the directory. -/
def path (s : FileStore) (name : String) : String := s.root ++ "/" ++ name

/-- The time in milliseconds. -/
def now (s : FileStore) : Rat := 10 * s.polls

/-- Reports an event. -/
def note (s : FileStore) (e : Event) : FileStore := { s with events := s.events ++ [e] }

/-- A number spread over a range, so that those of different writers hardly ever meet. -/
def spread (n range : Nat) : Nat := (n + 1) * 0x9E3779B97F4A7C15F39CC0605CEDC835 % range

/-- The token of the next lock. -/
def nextToken (s : FileStore) : String :=
  String.ofList (Text.hexDigits 32 (spread s.used (Nat.pow 2 128)))

/-- The tag of the next draft. -/
def nextTag (s : FileStore) : String :=
  String.ofList (Text.hexDigits 8 (spread s.used (Nat.pow 2 32)))

/-- Uses up a token. -/
def useToken (s : FileStore) : FileStore := { s with used := s.used + 1 }

/-- Lets the rival act. -/
def pass (s : FileStore) (table : Text) (m : Moment) : FileStore :=
  let (folder, rival) :=
    s.rival.act s.now (TableName.lock table) (TableName.record table) m s.folder
  { s with folder := folder, rival := rival }

/-- Reads the record of a table with a harmless name. -/
def readRecord (s : FileStore) (table : Text) : Except StoreFault (Option Versioned) :=
  let path := s.path (TableName.record table)
  if !Folder.fits (TableName.record table) then .error (.unreadable path ⟨.nameTooLong, [path]⟩)
  else match s.folder.get? (TableName.record table) with
    | none => .ok none
    | some .directory => .error (.unreadable path ⟨.isDirectory, [path]⟩)
    | some (.file bytes _) => (Record.ofBytes path bytes).map some

/-- Reads the lineage and the version of a table. -/
def read (s : FileStore) (table : Text) : Except StoreFault Versioned :=
  if !TableName.isAccepted table then .error (.tableName table)
  else (s.readRecord table).map fun r => r.getD ⟨.empty table, none⟩

/-- Whether a lock is abandoned. -/
def isAbandoned (s : FileStore) : Node → Bool
  | .file _ modified =>
    !Clock.isWithin (s.clock.reading s.now - s.clock.reading modified) s.timeout
  | .directory => false

/-- Whether a writer that has begun to wait after `since` waits has waited long enough. -/
def isDeadlineReached (since : Nat) (s : FileStore) : Bool :=
  s.clock.isOver (s.polls - since) s.timeout

/-- What a writer finds when it looks at the lock. -/
inductive Visit where
  /-- The lock was free and is now the writer's. -/
  | acquired (token : String)
  /-- The lock has gone and can be tried again at once. -/
  | again
  /-- Somebody holds the lock. -/
  | held
  /-- The lock is abandoned and cannot be removed. -/
  | stuck (fault : StoreFault)

/-- Takes the lock, which is free. -/
def seize (s : FileStore) (table : Text) : Visit × FileStore :=
  let token := s.nextToken
  (.acquired token,
    { s with folder := s.folder.put (TableName.lock table) (lockFile token s.now) }.useToken)

/-- Puts a lock back from its tombstone, unless somebody has taken it in the meantime. -/
def restore (s : FileStore) (table : Text) (node : Node) : FileStore :=
  match s.folder.get? (TableName.lock table) with
  | none => { s with folder := s.folder.put (TableName.lock table) node }
  | some _ => s.note (.lockRestoreSkipped (s.path (TableName.lock table)))

/-- Removes an abandoned lock by way of its tombstone. -/
def breakLock (s : FileStore) (table : Text) : Visit × FileStore :=
  let s := s.pass table .breaking
  let lock := TableName.lock table
  match s.folder.get? lock with
  | none => (.again, s)
  | some node =>
    let tombstone := TableName.tombstone table s.nextToken
    if !Folder.fits tombstone then
      (.stuck (.system ⟨.nameTooLong, [s.path lock, s.path tombstone]⟩), s)
    else
    let s := { s with folder := (s.folder.remove lock).put tombstone node }.useToken
    let s := s.pass table .broken
    -- the lock may have been renewed since its age was looked at
    if s.isAbandoned node then
      let s := { s with folder := s.folder.remove tombstone }
      (.again, s.note (.staleLockRemoved (s.path lock)))
    else
      let s := s.restore table node
      (.held, { s with folder := s.folder.remove tombstone })

/-- Looks at the lock of a table. -/
def visit (s : FileStore) (table : Text) : Visit × FileStore :=
  match s.folder.get? (TableName.lock table) with
  | none => s.seize table
  | some _ =>
    let s := s.pass table .lockFound
    match s.folder.get? (TableName.lock table) with
    | none => (.again, s)
    | some node => if s.isAbandoned node then s.breakLock table else (.held, s)

/-- The fault of a writer that has waited in vain. -/
def timedOut (s : FileStore) (table : Text) : StoreFault :=
  .lockTimeout s.timeout (s.path (TableName.lock table))

/-- Looks at the lock again and again, at most `visits` times, in a wait that has begun after `since`
waits. -/
def wait (since : Nat) : (visits : Nat) → Text → FileStore → Except StoreFault String × FileStore
  | 0, table, s => (.error (s.timedOut table), s)
  | visits + 1, table, s =>
    match s.visit table with
    | (.acquired token, s) => (.ok token, s)
    | (.again, s) => wait since visits table s
    | (.stuck f, s) => (.error f, s)
    | (.held, s) =>
      if s.isDeadlineReached since then (.error (s.timedOut table), s)
      else wait since visits table { s with polls := s.polls + 1 }

/-- How often a writer may look at the lock: it waits between most of the looks, and the others
follow on the end of a lock. -/
def maxVisits (s : FileStore) : Nat := s.clock.patience s.timeout + 8

/-- Takes the lock of a table. -/
def acquire (s : FileStore) (table : Text) : Except StoreFault String × FileStore :=
  let path := s.path (TableName.lock table)
  if !s.clock.tells s.timeout then (.error .timeoutTooLarge, s)
  else if !Folder.fits (TableName.lock table) then (.error (.system ⟨.nameTooLong, [path]⟩), s)
  else wait s.polls s.maxVisits table s

/-- Whether the lock of a table holds a token. -/
def owns (s : FileStore) (table : Text) (token : String) : Bool :=
  match s.folder.get? (TableName.lock table) with
  | some (.file bytes _) => bytes == Text.Utf8.encode token
  | _ => false

/-- Removes the lock of a table, if it holds the token. -/
def release (s : FileStore) (table : Text) (token : String) : FileStore :=
  if s.owns table token then { s with folder := s.folder.remove (TableName.lock table) } else s

/-- Renames a draft into the place of the record. On failure the draft is removed. -/
def install (s : FileStore) (table : Text) (draft : String) (bytes : List UInt8) :
    Except StoreFault Unit × FileStore :=
  let record := TableName.record table
  let dropped := { s with folder := s.folder.remove draft }
  match s.trouble?, s.folder.get? record with
  | some e, _ => (.error (.unwritable (s.path record) ⟨e, []⟩), dropped)
  | none, some .directory =>
    (.error (.unwritable (s.path record) ⟨.isDirectory, [s.path draft, s.path record]⟩), dropped)
  | none, _ =>
    (.ok (), { s with folder := (s.folder.remove draft).put record (.file bytes s.now) })

/-- Writes a record by way of a draft. A version that cannot be written leaves an empty draft. -/
def publish (s : FileStore) (l : Lineage) (version : Version) :
    Except StoreFault Unit × FileStore :=
  let draft := TableName.draft l.table s.nextTag
  if !Folder.fits draft then (.error (.system ⟨.nameTooLong, [s.path draft]⟩), s)
  else
    let s := { s with folder := s.folder.put draft (.file [] s.now) }.useToken
    if !isShowable version.count then (.error .versionTooLong, s)
    else
      let bytes := Record.bytes l version.count
      install { s with folder := s.folder.put draft (.file bytes s.now) } l.table draft bytes

/-- Replaces the record, whose version has been read, if it is the expected one and the lock still
holds the token. -/
def replace (s : FileStore) (l : Lineage) (current expected : Option Version) (token : String) :
    Except StoreFault Bool × FileStore :=
  if !Version.agree current expected then (.ok false, s)
  else if !s.owns l.table token then (.ok false, s.note (.lockLost l.table expected))
  else
    match s.publish l (.next expected) with
    | (.error f, s) => (.error f, s)
    | (.ok (), s) => (.ok true, s)

/-- Writes a lineage under a lock that holds the token, if the record has the expected version and
the lock is still the writer's. -/
def writeLocked (s : FileStore) (l : Lineage) (expected : Option Version) (token : String) :
    Except StoreFault Bool × FileStore :=
  let s := s.pass l.table .lockTaken
  match s.readRecord l.table with
  | .error f => (.error f, s)
  | .ok current =>
    (s.pass l.table .recordRead).replace l (current.bind (·.version?)) expected token

/-- Writes a lineage if the record of its table has the expected version. -/
def write (s : FileStore) (l : Lineage) (expected : Option Version) :
    Except StoreFault Bool × FileStore :=
  if !TableName.isAccepted l.table then (.error (.tableName l.table), s)
  else match s.acquire l.table with
    | (.error f, s) => (.error f, s)
    | (.ok token, s) =>
      let (result, s) := s.writeLocked l expected token
      let s := s.release l.table token
      match result with
      | .ok true =>
        (.ok true, s.note (.recordWritten l.table (.next expected) l.entries.length))
      | result => (result, s)

/-- Removes the record of a table, which is locked. -/
def deleteLocked (s : FileStore) (table : Text) : Except StoreFault Unit × FileStore :=
  let record := TableName.record table
  match s.folder.get? record with
  | some .directory => (.error (.system ⟨.isDirectory, [s.path record]⟩), s)
  | _ => (.ok (), { s with folder := s.folder.remove record })

/-- Removes the record of a table, if there is one. -/
def delete (s : FileStore) (table : Text) : Except StoreFault Unit × FileStore :=
  if !TableName.isAccepted table then (.error (.tableName table), s)
  else match s.acquire table with
    | (.error f, s) => (.error f, s)
    | (.ok token, s) =>
      let (result, s) := s.deleteLocked table
      (result, s.release table token)

end FileStore

end SegmentSwap
