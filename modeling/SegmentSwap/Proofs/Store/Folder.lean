import SegmentSwap.Proofs.Json.Text
import SegmentSwap.Store.Folder
import SegmentSwap.Store.TableName

/-!
# Names in the directory

Giving or taking a name leaves what other names stand for. The files of a table are told apart by
their endings, and the files of different tables by the tables, since a harmless name has no halves
of surrogate pairs that could be confused on the way to a file name.
-/

namespace SegmentSwap

section Lookup

variable {α β : Type} [DecidableEq α] {name other : α}

theorem lookup_filter_self (xs : List (α × β)) :
    (xs.filter fun x => x.1 != name).lookup name = none := by
  rw [List.lookup_eq_none_iff]
  intro x hx
  have hne : x.1 ≠ name := by simpa using (List.mem_filter.mp hx).2
  simpa using hne.symm

theorem lookup_filter_of_ne (h : other ≠ name) (xs : List (α × β)) :
    (xs.filter fun x => x.1 != name).lookup other = xs.lookup other := by
  induction xs with
  | nil => rfl
  | cons x xs ih =>
    rw [List.filter_cons, List.lookup_cons]
    by_cases hx : x.1 = name
    · have hdrop : (x.1 != name) = false := by simp [hx]
      have hother : (other == x.1) = false := by simpa [hx] using h
      rw [hdrop, hother, ← ih]
      rfl
    · have hkeep : (x.1 != name) = true := by simpa using hx
      rw [if_pos hkeep, List.lookup_cons, ih]

end Lookup

namespace Folder

variable {f : Folder} {name other : String} {node : Node}

theorem get?_remove_self : (f.remove name).get? name = none := lookup_filter_self f.nodes

theorem get?_remove_of_ne (h : other ≠ name) : (f.remove name).get? other = f.get? other :=
  lookup_filter_of_ne h f.nodes

theorem get?_put_self : (f.put name node).get? name = some node := by
  simp [put, get?]

theorem get?_put_of_ne (h : other ≠ name) : (f.put name node).get? other = f.get? other := by
  have hother : (other == name) = false := by simpa using h
  show ((name, node) :: (f.remove name).nodes).lookup other = f.get? other
  rw [List.lookup_cons, hother, ← get?_remove_of_ne h]
  rfl

end Folder

namespace TableName

theorem isWhole_of_isTail {ps : List Point} (h : isTail ps = true) :
    ∀ p ∈ ps, ∃ c, p = .char c := by
  induction ps with
  | nil =>
    intro p hp
    exact absurd hp List.not_mem_nil
  | cons q ps ih =>
    intro p hp
    cases q with
    | half n => exact absurd h (by simp [isTail])
    | char c =>
      rcases List.mem_cons.mp hp with rfl | hp
      · exact ⟨c, rfl⟩
      · rw [isTail, Bool.or_eq_true, Bool.and_eq_true, Bool.and_eq_true] at h
        rcases h with ⟨-, hempty⟩ | ⟨-, htail⟩
        · rw [List.isEmpty_iff.mp hempty] at hp
          exact absurd hp List.not_mem_nil
        · exact ih htail p hp

theorem isWhole_of_isAccepted {table : Text} (h : isAccepted table = true) :
    table.isWhole = true := by
  unfold isAccepted at h
  split at h
  · rename_i c rest hpoints
    have htail := isWhole_of_isTail (Bool.and_eq_true_iff.mp h).2
    unfold Text.isWhole
    rw [List.all_eq_true, hpoints]
    intro p hp
    rcases List.mem_cons.mp hp with rfl | hp
    · exact decide_eq_true rfl
    · obtain ⟨d, rfl⟩ := htail p hp
      exact decide_eq_true rfl
  · exact absurd h (by decide)

/-- Harmless tables differ as strings. -/
theorem toString_inj {a b : Text} (ha : isAccepted a = true) (hb : isAccepted b = true)
    (h : a.toString = b.toString) : a = b := by
  rw [← Text.ofString_toString (isWhole_of_isAccepted ha), h,
    Text.ofString_toString (isWhole_of_isAccepted hb)]

theorem append_ending_inj {a b ending : String} (h : a ++ ending = b ++ ending) : a = b := by
  have hchars : a.toList ++ ending.toList = b.toList ++ ending.toList := by
    rw [← String.toList_append, h, String.toList_append]
  exact String.toList_inj.mp (List.append_cancel_right hchars)

theorem record_ne {a b : Text} (ha : isAccepted a = true) (hb : isAccepted b = true) (h : a ≠ b) :
    record a ≠ record b := fun heq => h (toString_inj ha hb (append_ending_inj heq))

theorem lock_ne {a b : Text} (ha : isAccepted a = true) (hb : isAccepted b = true) (h : a ≠ b) :
    lock a ≠ lock b := fun heq => h (toString_inj ha hb (append_ending_inj heq))

/-- Names with different last characters differ. -/
theorem ne_of_ending {a b : String} {c d : Char} (ha : a.toList.getLast? = some c)
    (hb : b.toList.getLast? = some d) (h : c ≠ d) : a ≠ b := by
  rintro rfl
  rw [ha] at hb
  exact h (Option.some.inj hb)

theorem getLast?_append_ending (a : String) {ending : String} {c : Char}
    (h : ending.toList.getLast? = some c) : (a ++ ending).toList.getLast? = some c := by
  rw [String.toList_append, List.getLast?_append, h]
  rfl

theorem getLast?_record (table : Text) : (record table).toList.getLast? = some 'n' :=
  getLast?_append_ending _ rfl

theorem getLast?_lock (table : Text) : (lock table).toList.getLast? = some 'k' :=
  getLast?_append_ending _ rfl

theorem getLast?_draft (table : Text) (token : String) :
    (draft table token).toList.getLast? = some 'p' :=
  getLast?_append_ending _ rfl

theorem lock_ne_record (a b : Text) : lock a ≠ record b :=
  ne_of_ending (getLast?_lock a) (getLast?_record b) (by decide)

theorem draft_ne_record (a b : Text) (token : String) : draft a token ≠ record b :=
  ne_of_ending (getLast?_draft a token) (getLast?_record b) (by decide)

theorem draft_ne_lock (a b : Text) (token : String) : draft a token ≠ lock b :=
  ne_of_ending (getLast?_draft a token) (getLast?_lock b) (by decide)

/-- Whether the names of all files of a table are short enough. The longest one is that of a draft,
whose tag has eight digits. -/
def hasRoom (table : Text) : Bool :=
  decide (table.toString.utf8ByteSize + "_01234567.tmp".utf8ByteSize ≤ Folder.maxNameLength)

variable {table : Text}

theorem fits_record (h : hasRoom table = true) : Folder.fits (record table) = true := by
  have hsize : table.toString.utf8ByteSize + 13 ≤ Folder.maxNameLength := of_decide_eq_true h
  unfold Folder.fits record
  rw [String.utf8ByteSize_append, decide_eq_true_eq]
  have hending : ".json".utf8ByteSize = 5 := rfl
  omega

theorem fits_lock (h : hasRoom table = true) : Folder.fits (lock table) = true := by
  have hsize : table.toString.utf8ByteSize + 13 ≤ Folder.maxNameLength := of_decide_eq_true h
  unfold Folder.fits lock
  rw [String.utf8ByteSize_append, decide_eq_true_eq]
  have hending : ".lock".utf8ByteSize = 5 := rfl
  omega

theorem fits_draft (h : hasRoom table = true) {token : String} (htoken : token.utf8ByteSize = 8) :
    Folder.fits (draft table token) = true := by
  have hsize : table.toString.utf8ByteSize + 13 ≤ Folder.maxNameLength := of_decide_eq_true h
  unfold Folder.fits draft
  rw [String.utf8ByteSize_append, String.utf8ByteSize_append, String.utf8ByteSize_append, htoken,
    decide_eq_true_eq]
  have hunderscore : "_".utf8ByteSize = 1 := rfl
  have hending : ".tmp".utf8ByteSize = 4 := rfl
  omega

end TableName

end SegmentSwap
