import Mathlib.Data.List.Nodup
import SegmentSwap.Lineage.View
import SegmentSwap.Proofs.Lineage.Replacement

/-!
# Updates of a lineage

All that the protocol ever does to the entries of a lineage is to move some of them to another state
and to append one. Such an update never fails: the moved entries are entries of the lineage, and
their segments stay as they are.
-/

namespace SegmentSwap

namespace Entry

/-- The entry in another state. -/
def moved (next : State) (stamp : Text) (e : Entry) : Entry :=
  { e with state := next, stamp := stamp }

/-- The entry in another state if it is one of some entries. -/
def movedAmong (xs : List Entry) (next : State) (stamp : Text) (e : Entry) : Entry :=
  if e ∈ xs then e.moved next stamp else e

variable {xs : List Entry} {next : State} {stamp : Text} {e : Entry}

theorem movedAmong_sources : (e.movedAmong xs next stamp).sources = e.sources := by
  unfold movedAmong; split <;> rfl

theorem movedAmong_targets : (e.movedAmong xs next stamp).targets = e.targets := by
  unfold movedAmong; split <;> rfl

theorem movedAmong_state :
    (e.movedAmong xs next stamp).state = if e ∈ xs then next else e.state := by
  unfold movedAmong; split <;> rfl

end Entry

namespace Lineage

variable {l : Lineage}

/-- One lineage is another one with some entries in progress moved to a state. -/
structure Moves (l : Lineage) (xs : List Entry) (next : State) (stamp : Text) (l' : Lineage) :
    Prop where
  table : l'.table = l.table
  running : ∀ x ∈ xs, x ∈ l.running
  entries : l'.entries = l.entries.map (Entry.movedAmong xs next stamp)

/-- One lineage is another one with an entry in progress at the end. -/
structure Appends (l : Lineage) (e : Entry) (l' : Lineage) : Prop where
  table : l'.table = l.table
  running : e.state = .inProgress
  fresh : e.id ∉ l.ids
  entries : l'.entries = l.entries ++ [e]

theorem eq_of_id_eq {a b : Entry} (ha : a ∈ l.entries) (hb : b ∈ l.entries) (h : a.id = b.id) :
    a = b :=
  List.inj_on_of_nodup_map l.distinct ha hb h

theorem mem_running {e : Entry} : e ∈ l.running ↔ e ∈ l.entries ∧ e.state = .inProgress := by
  simp [running]

theorem mem_completed {e : Entry} : e ∈ l.completed ↔ e ∈ l.entries ∧ e.state = .completed := by
  simp [completed]

theorem mem_ids {id : Text} : id ∈ l.ids ↔ ∃ e ∈ l.entries, e.id = id := by
  simp [ids]

/-- Updates that are moved copies of entries take effect on exactly these entries. -/
theorem updated_map {xs : List Entry} {g : Entry → Entry} (hxs : ∀ x ∈ xs, x ∈ l.entries)
    (hid : ∀ x, (g x).id = x.id) {e : Entry} (he : e ∈ l.entries) :
    (Pending.ofList (xs.map g)).updated e = if e ∈ xs then g e else e := by
  have hupdated := Pending.updated_ofList_iff.mp (rfl : (Pending.ofList (xs.map g)).updated e = _)
  generalize (Pending.ofList (xs.map g)).updated e = u at hupdated
  cases hupdated with
  | last hsplit hue hafter =>
    have hmem : u ∈ xs.map g := by rw [hsplit]; simp
    obtain ⟨x, hx, rfl⟩ := List.mem_map.mp hmem
    obtain rfl : x = e := eq_of_id_eq (hxs x hx) he (by rw [← hid x, hue])
    rw [if_pos hx]
  | stays hnone =>
    have hne : e ∉ xs := fun hmem => hnone (g e) (List.mem_map_of_mem hmem) (hid e)
    rw [if_neg hne]

/-- Replacing entries by moved copies of them succeeds and changes nothing else. -/
theorem replace_map (l : Lineage) (xs : List Entry) (g : Entry → Entry)
    (hxs : ∀ x ∈ xs, x ∈ l.entries) (hid : ∀ x, (g x).id = x.id)
    (hlists : ∀ x, (g x).sameLists x = true) :
    ∃ l', l.replace (xs.map g) = .ok l' ∧ l'.table = l.table ∧
      l'.entries = l.entries.map fun e => if e ∈ xs then g e else e := by
  have hkept : ∀ e ∈ l.entries, e.Intact (xs.map g) := by
    intro e he
    rw [Pending.intact_iff, updated_map hxs hid he]
    split
    · exact hlists e
    · simp [Entry.sameLists]
  have hknown : ∀ u ∈ xs.map g, u.id ∈ l.ids := by
    intro u hu
    obtain ⟨x, hx, rfl⟩ := List.mem_map.mp hu
    exact mem_ids.mpr ⟨x, hxs x hx, (hid x).symm⟩
  obtain ⟨l', hok, htable, hentries⟩ := replace_of_known hkept hknown
  refine ⟨l', hok, htable, ?_⟩
  rw [hentries]
  exact List.map_congr_left fun e he => updated_map hxs hid he

theorem append_new {e : Entry} (h : e.id ∉ l.ids) :
    ∃ l', l.append e = .ok l' ∧ l'.table = l.table ∧ l'.entries = l.entries ++ [e] := by
  unfold append
  rw [dif_neg h]
  exact ⟨_, rfl, rfl, rfl⟩

theorem append_taken {e : Entry} (h : e.id ∈ l.ids) :
    l.append e = .error (.idTaken e.id l.table) := by
  unfold append
  rw [dif_pos h]

end Lineage

end SegmentSwap
