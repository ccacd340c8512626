import SegmentSwap.Store.Folder
import SegmentSwap.Text.Utf8

/-!
# Rivals of a writer

Another process may get between the steps of a writer: while the writer waits for the lock, while it
breaks an abandoned lock, once it has the lock and once it has read the record. A rival is given by
what it still has in mind; it acts at the moments of the writer's work that concern it.
-/

namespace SegmentSwap

/-- A moment in the work of a writer at which others may act. -/
inductive Moment where
  /-- The writer has found the lock taken and has not looked at its age yet. -/
  | lockFound
  /-- The writer is about to give an abandoned lock its tombstone. -/
  | breaking
  /-- The writer has just given an abandoned lock its tombstone. -/
  | broken
  /-- The writer has just taken the lock. -/
  | lockTaken
  /-- The writer holds the lock and has read the record. -/
  | recordRead
  deriving DecidableEq, Repr

/-- What another process is going to do. -/
inductive Rival where
  /-- Nothing. -/
  | none
  /-- Put another text into the lock. -/
  | overwriteLock (text : String)
  /-- Remove the lock. -/
  | removeLock
  /-- Put another text into the lock as soon as the writer has taken it, or remove it, and go on with
  something else. -/
  | preempt (text? : Option String) (next : Rival)
  /-- Put a directory in the place of the record. -/
  | blockRecord
  /-- Replace an abandoned lock that the writer is about to break, and perhaps take the lock once
  more right after that. -/
  | takeover (text : String) (age : Int) (second? : Option String)
  /-- Take the lock right after the writer has broken it. -/
  | retake (text : String) (age : Int)
  /-- Remove an abandoned lock that the writer is about to break. -/
  | vanish
  /-- Remove the lock each time that the writer finds it. -/
  | gone
  deriving DecidableEq, Repr

/-- A lock file with a text. -/
def lockFile (text : String) (modified : Rat) : Node := .file (Text.Utf8.encode text) modified

namespace Rival

/-- What a rival does to the files `lock` and `record` at a moment, given the time on the clock, and
what it has in mind after that. -/
def act (now : Rat) (lock record : String) : Moment → Rival → Folder → Folder × Rival
  | .lockTaken, .preempt (some text) next, f => (f.put lock (lockFile text now), next)
  | .lockTaken, .preempt Option.none next, f => (f.remove lock, next)
  | .recordRead, .overwriteLock text, f => (f.put lock (lockFile text now), .none)
  | .recordRead, .removeLock, f => (f.remove lock, .none)
  | .recordRead, .blockRecord, f => (f.put record .directory, .none)
  | .breaking, .takeover text age second?, f =>
    (f.put lock (lockFile text (now - age)),
      match second? with
      | some second => .retake second age
      | Option.none => .none)
  | .broken, .retake text age, f => (f.put lock (lockFile text (now - age)), .none)
  | .breaking, .vanish, f => (f.remove lock, .none)
  | .lockFound, .gone, f => (f.remove lock, .gone)
  | _, r, f => (f, r)

end Rival

end SegmentSwap
