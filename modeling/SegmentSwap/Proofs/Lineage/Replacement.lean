import Mathlib.Data.List.Forall2
import Mathlib.Data.List.Induction
import SegmentSwap.Failure
import SegmentSwap.Proofs.Text.Sorted

/-!
# Replacing entries in place

A replacement walks over the entries and takes from the pending updates the one for each entry. As
no id occurs twice, what is taken for one entry is never missed by another: every entry gets the last
of the updates for its id, and the updates left at the end are those for ids that no entry has. So
nothing but the updates that count and the ids decides how a replacement ends, and an update that
changes segments goes before one that has no entry.
-/

namespace SegmentSwap

namespace Entry

/-- What becomes of an entry: the last of the updates for its id, or the entry itself if there is
none. -/
inductive Updated (updates : List Entry) (e : Entry) : Entry → Prop where
  | last {before after : List Entry} {u : Entry} (hsplit : updates = before ++ u :: after)
      (hid : u.id = e.id) (hafter : ∀ v ∈ after, v.id ≠ e.id) : Updated updates e u
  | stays (hnone : ∀ v ∈ updates, v.id ≠ e.id) : Updated updates e e

/-- The update that counts for an entry leaves its segments alone. -/
def Intact (updates : List Entry) (e : Entry) : Prop :=
  ∀ u, e.Updated updates u → u.sources = e.sources ∧ u.targets = e.targets

/-- An update for another id changes nothing of it. -/
theorem Updated.concat {updates : List Entry} {e u v : Entry} (h : e.Updated updates u)
    (hv : v.id ≠ e.id) : e.Updated (updates ++ [v]) u := by
  have hlater {after : List Entry} (hafter : ∀ w ∈ after, w.id ≠ e.id) :
      ∀ w ∈ after ++ [v], w.id ≠ e.id := by
    intro w hw
    rcases List.mem_append.mp hw with hw | hw
    · exact hafter w hw
    · rw [List.mem_singleton.mp hw]
      exact hv
  cases h with
  | @last before after _ hsplit hid hafter =>
    have hsplit' : updates ++ [v] = before ++ u :: (after ++ [v]) := by
      rw [hsplit, List.append_assoc, List.cons_append]
    exact .last hsplit' hid (hlater hafter)
  | stays hnone => exact .stays (hlater hnone)

theorem sameLists_iff {a b : Entry} :
    a.sameLists b = true ↔ a.sources = b.sources ∧ a.targets = b.targets := by
  simp [sameLists]

end Entry

namespace Pending

variable {p : Pending} {e u : Entry} {id : Text}

theorem mem_remove : u ∈ (p.remove id).updates ↔ u ∈ p.updates ∧ u.id ≠ id := by
  simp [remove]

theorem get?_remove_of_ne {other : Text} (h : id ≠ other) :
    (p.remove other).get? id = p.get? id := by
  unfold get? remove
  rw [List.find?_filter]
  congr 1
  funext v
  by_cases hv : v.id = id
  · simp [hv, h]
  · simp [hv]

theorem get?_put_self : (p.put u).get? u.id = some u := by
  simp [get?, put]

theorem get?_put_of_ne (h : id ≠ u.id) : (p.put u).get? id = p.get? id := by
  have hne : (u.id == id) = false := beq_false_of_ne h.symm
  rw [← get?_remove_of_ne (p := p) h]
  unfold get? put
  rw [List.find?_cons_of_neg (by rw [hne]; exact Bool.false_ne_true)]

theorem mem_ids_put : id ∈ (p.put u).ids ↔ id ∈ p.ids ∨ id = u.id := by
  simp only [ids, put, remove, List.map_cons, List.mem_cons, List.mem_map, List.mem_filter]
  by_cases h : id = u.id
  · simp [h]
  · simp only [h, false_or, or_false, bne_iff_ne]
    refine exists_congr fun v => and_congr_left fun hv => and_iff_left ?_
    rw [hv]
    exact h

theorem mem_ids_ofList {updates : List Entry} :
    id ∈ (ofList updates).ids ↔ ∃ u ∈ updates, u.id = id := by
  unfold ofList
  induction updates using List.reverseRecOn with
  | nil => simp [empty, ids]
  | append_singleton updates u ih =>
    rw [List.foldl_append, List.foldl_cons, List.foldl_nil, mem_ids_put, ih]
    simp [or_and_right, exists_or, eq_comm]

/-- Updates for other ids are of no account. -/
theorem get?_foldl_put {updates : List Entry} (h : ∀ u ∈ updates, u.id ≠ id) :
    (updates.foldl put p).get? id = p.get? id := by
  induction updates generalizing p with
  | nil => rfl
  | cons u updates ih =>
    rw [List.foldl_cons, ih fun v hv => h v (List.mem_cons_of_mem u hv)]
    exact get?_put_of_ne (h u List.mem_cons_self).symm

theorem updated_id : (p.updated e).id = e.id := by
  unfold updated get?
  cases hfind : p.updates.find? (·.id == e.id) with
  | none => rfl
  | some u => simpa using List.find?_some hfind

theorem map_updated_ids (entries : List Entry) :
    (entries.map p.updated).map Entry.id = entries.map Entry.id := by
  rw [List.map_map]
  exact List.map_congr_left fun e _ => updated_id

/-- What has been taken for one entry makes no difference to those with other ids. -/
theorem updated_remove {entries : List Entry} (h : id ∉ entries.map Entry.id) :
    ∀ e ∈ entries, (p.remove id).updated e = p.updated e := by
  intro e he
  have hne : e.id ≠ id := by
    rintro rfl
    exact h (List.mem_map_of_mem he)
  unfold updated
  rw [get?_remove_of_ne hne]

/-- The pending updates hold the last one of each id. -/
theorem updated_ofList_iff {updates : List Entry} :
    (ofList updates).updated e = u ↔ e.Updated updates u := by
  constructor
  · rintro rfl
    unfold ofList
    -- From the end, where the update stands that goes before all others for its id.
    induction updates using List.reverseRecOn with
    | nil => exact .stays fun v hv => absurd hv List.not_mem_nil
    | append_singleton updates v ih =>
      rw [List.foldl_append, List.foldl_cons, List.foldl_nil]
      unfold updated
      by_cases hv : v.id = e.id
      · rw [← hv, get?_put_self]
        exact .last rfl hv fun w hw => absurd hw List.not_mem_nil
      · rw [get?_put_of_ne (Ne.symm hv)]
        exact ih.concat hv
  · intro h
    unfold updated
    cases h with
    | last hsplit hid hafter =>
      rw [hsplit, ofList, List.foldl_append, List.foldl_cons, get?_foldl_put hafter, ← hid,
        get?_put_self, Option.getD_some]
    | stays hnone =>
      rw [ofList, get?_foldl_put hnone]
      rfl

theorem intact_iff {updates : List Entry} :
    e.Intact updates ↔ ((ofList updates).updated e).sameLists e = true := by
  rw [Entry.sameLists_iff]
  constructor
  · intro h
    exact h _ (updated_ofList_iff.mp rfl)
  · intro h u hu
    rw [← updated_ofList_iff.mpr hu]
    exact h

end Pending

namespace Lineage

section Exchange

variable {entries before after : List Entry} {e : Entry} {p : Pending}

theorem exchange_cons_of_kept {rest : List Entry} (h : (p.updated e).sameLists e = true) :
    exchange (e :: rest) p =
      (exchange rest (p.remove e.id)).map
        fun (entries, left) => (p.updated e :: entries, left) := by
  rw [exchange]
  exact if_pos h

theorem exchange_cons_of_changed {rest : List Entry} (h : ¬ (p.updated e).sameLists e = true) :
    exchange (e :: rest) p = .error (.listsChanged e.id) := by
  rw [exchange]
  exact if_neg h

/-- Where no update changes segments every entry gets its own, and the updates for other ids are
left over. -/
theorem exchange_of_kept (hdistinct : (entries.map Entry.id).Nodup)
    (hkept : ∀ x ∈ entries, (p.updated x).sameLists x = true) :
    ∃ left, exchange entries p = .ok (entries.map p.updated, left) ∧
      ∀ u, u ∈ left.updates ↔ u ∈ p.updates ∧ u.id ∉ entries.map Entry.id := by
  induction entries generalizing p with
  | nil => exact ⟨p, rfl, fun u => by simp⟩
  | cons e rest ih =>
    obtain ⟨hfresh, hrest⟩ := List.nodup_cons.mp hdistinct
    -- The rest is walked over with fewer updates, but for its entries they are the same.
    have hother := Pending.updated_remove (p := p) hfresh
    have hkept' : ∀ x ∈ rest, ((p.remove e.id).updated x).sameLists x = true := by
      intro x hx
      rw [hother x hx]
      exact hkept x (List.mem_cons_of_mem e hx)
    obtain ⟨left, hok, hleft⟩ := ih hrest hkept'
    refine ⟨left, ?_, fun u => ?_⟩
    · rw [exchange_cons_of_kept (hkept e List.mem_cons_self), hok, List.map_congr_left hother]
      rfl
    · rw [hleft, Pending.mem_remove, List.map_cons, List.mem_cons, not_or, and_assoc]

/-- The first entry whose segments an update would change ends the walk. -/
theorem exchange_of_changed (hdistinct : ((before ++ e :: after).map Entry.id).Nodup)
    (hkept : ∀ x ∈ before, (p.updated x).sameLists x = true)
    (hchanged : ¬ (p.updated e).sameLists e = true) :
    exchange (before ++ e :: after) p = .error (.listsChanged e.id) := by
  induction before generalizing p with
  | nil => exact exchange_cons_of_changed hchanged
  | cons x before ih =>
    obtain ⟨hfresh, hrest⟩ := List.nodup_cons.mp hdistinct
    have hother := Pending.updated_remove (p := p) hfresh
    have hkept' : ∀ y ∈ before, ((p.remove x.id).updated y).sameLists y = true := by
      intro y hy
      rw [hother y (List.mem_append_left _ hy)]
      exact hkept y (List.mem_cons_of_mem x hy)
    have hchanged' : ¬ ((p.remove x.id).updated e).sameLists e = true := by
      rw [hother e (List.mem_append_right _ List.mem_cons_self)]
      exact hchanged
    rw [List.cons_append, exchange_cons_of_kept (hkept x List.mem_cons_self),
      ih hrest hkept' hchanged']
    rfl

end Exchange

section Replace

variable {l : Lineage} {updates before after : List Entry} {e : Entry}

/-- Updates for entries of the lineage that leave the segments alone are put in their places. -/
theorem replace_of_known (hkept : ∀ e ∈ l.entries, e.Intact updates)
    (hknown : ∀ u ∈ updates, u.id ∈ l.ids) :
    ∃ l', l.replace updates = .ok l' ∧ l'.table = l.table ∧
      l'.entries = l.entries.map (Pending.ofList updates).updated := by
  obtain ⟨left, hok, hleft⟩ := exchange_of_kept (p := .ofList updates) l.distinct fun e he =>
    Pending.intact_iff.mp (hkept e he)
  have hnone : left.updates = [] := by
    refine List.eq_nil_iff_forall_not_mem.mpr fun u hu => ?_
    obtain ⟨hpending, hunknown⟩ := (hleft u).mp hu
    have hid : u.id ∈ (Pending.ofList updates).ids := List.mem_map_of_mem hpending
    obtain ⟨v, hv, hvu⟩ := Pending.mem_ids_ofList.mp hid
    exact hunknown (hvu ▸ hknown v hv)
  have hdistinct : ((l.entries.map (Pending.ofList updates).updated).map Entry.id).Nodup := by
    rw [Pending.map_updated_ids]
    exact l.distinct
  refine ⟨⟨l.table, _, hdistinct⟩, ?_, rfl, rfl⟩
  unfold replace
  rw [hok]
  simp only [bind, Except.bind, hnone, List.isEmpty_nil, if_true]
  exact create_eq_ok_iff.mpr ⟨rfl, rfl⟩

/-- Updates for no entry of the lineage are turned down, all of them together. -/
theorem replace_of_unknown (hkept : ∀ e ∈ l.entries, e.Intact updates)
    (hunknown : ∃ u ∈ updates, u.id ∉ l.ids) :
    ∃ names, l.replace updates = .error (.unknownIds names) ∧ names.Pairwise (· < ·) ∧
      ∀ id, id ∈ names ↔ (∃ u ∈ updates, u.id = id) ∧ id ∉ l.ids := by
  obtain ⟨left, hok, hleft⟩ := exchange_of_kept (p := .ofList updates) l.distinct fun e he =>
    Pending.intact_iff.mp (hkept e he)
  have hids : ∀ id, id ∈ left.ids ↔ (∃ u ∈ updates, u.id = id) ∧ id ∉ l.ids := by
    intro id
    rw [← Pending.mem_ids_ofList]
    constructor
    · intro hid
      obtain ⟨u, hu, rfl⟩ := List.mem_map.mp hid
      obtain ⟨hpending, hfresh⟩ := (hleft u).mp hu
      exact ⟨List.mem_map_of_mem hpending, hfresh⟩
    · rintro ⟨hid, hfresh⟩
      obtain ⟨u, hu, rfl⟩ := List.mem_map.mp hid
      exact List.mem_map_of_mem ((hleft u).mpr ⟨hu, hfresh⟩)
  have hsome : left.updates.isEmpty = false := by
    obtain ⟨u, hu, hfresh⟩ := hunknown
    obtain ⟨v, hv, -⟩ := List.mem_map.mp ((hids u.id).mpr ⟨⟨u, hu, rfl⟩, hfresh⟩)
    exact List.isEmpty_eq_false_iff.mpr (List.ne_nil_of_mem hv)
  refine ⟨Text.sortedSet left.ids, ?_, Text.pairwise_sortedSet _, fun id => ?_⟩
  · unfold replace
    rw [hok]
    simp only [bind, Except.bind, hsome, Bool.false_eq_true, if_false]
  · rw [Text.mem_sortedSet, hids]

/-- An update that changes segments is turned down for the first entry that this happens to. -/
theorem replace_of_changed (hsplit : l.entries = before ++ e :: after)
    (hkept : ∀ x ∈ before, x.Intact updates) (hchanged : ¬ e.Intact updates) :
    l.replace updates = .error (.listsChanged e.id) := by
  have hdistinct : ((before ++ e :: after).map Entry.id).Nodup := hsplit ▸ l.distinct
  unfold replace
  rw [hsplit, exchange_of_changed hdistinct (fun x hx => Pending.intact_iff.mp (hkept x hx))
    fun h => hchanged (Pending.intact_iff.mpr h)]
  rfl

/-- Among entries that an update would change there is a first one. -/
theorem exists_first_changed (h : ∃ e ∈ l.entries, ¬ e.Intact updates) :
    ∃ before e after, l.entries = before ++ e :: after ∧ (∀ x ∈ before, x.Intact updates) ∧
      ¬ e.Intact updates := by
  simp only [Pending.intact_iff] at h ⊢
  cases hfind : l.entries.find? fun e => !((Pending.ofList updates).updated e).sameLists e with
  | none =>
    obtain ⟨e, he, hchanged⟩ := h
    exact absurd (by simpa using List.find?_eq_none.mp hfind e he) hchanged
  | some e =>
    obtain ⟨hchanged, before, after, hsplit, hbefore⟩ := List.find?_eq_some_iff_append.mp hfind
    have hkept : ∀ x ∈ before, ((Pending.ofList updates).updated x).sameLists x = true := by
      intro x hx
      simpa using hbefore x hx
    exact ⟨before, e, after, hsplit, hkept, by simpa using hchanged⟩

/-- Only updates for entries of the lineage that leave the segments alone are put in their
places. -/
theorem replace_eq_ok {l' : Lineage} (h : l.replace updates = .ok l') :
    (∀ u ∈ updates, u.id ∈ l.ids) ∧ (∀ e ∈ l.entries, e.Intact updates) ∧ l'.table = l.table ∧
      l'.entries = l.entries.map (Pending.ofList updates).updated := by
  by_cases hkept : ∀ e ∈ l.entries, e.Intact updates
  · by_cases hknown : ∀ u ∈ updates, u.id ∈ l.ids
    · obtain ⟨l'', hok, htable, hentries⟩ := replace_of_known hkept hknown
      obtain rfl := Except.ok.inj (h.symm.trans hok)
      exact ⟨hknown, hkept, htable, hentries⟩
    · push Not at hknown
      obtain ⟨names, herror, -⟩ := replace_of_unknown hkept hknown
      rw [herror] at h
      cases h
  · push Not at hkept
    obtain ⟨before, e, after, hsplit, hbefore, hchanged⟩ := exists_first_changed hkept
    rw [replace_of_changed hsplit hbefore hchanged] at h
    cases h

end Replace

/-- What the replacement of entries comes to. -/
structure Replacement (l : Lineage) (updates : List Entry)
    (outcome : Except LineageFault Lineage) : Prop where
  /-- It succeeds just if every update names an entry and those that count keep its segments. -/
  succeeds : (∃ l', outcome = .ok l') ↔
    (∀ u ∈ updates, u.id ∈ l.ids) ∧ ∀ e ∈ l.entries, e.Intact updates
  /-- The lineage is still one of the same table. -/
  table : ∀ l', outcome = .ok l' → l'.table = l.table
  /-- The ids are the same, in the same order. -/
  ids : ∀ l', outcome = .ok l' → l'.ids = l.ids
  /-- In each place is the update that counts, or the entry from before. -/
  entries : ∀ l', outcome = .ok l' → List.Forall₂ (Entry.Updated updates) l.entries l'.entries
  /-- If segments would change, the first entry that this happens to is reported. -/
  changed : (∃ e ∈ l.entries, ¬ e.Intact updates) →
    ∃ before e after, l.entries = before ++ e :: after ∧ (∀ x ∈ before, x.Intact updates) ∧
      ¬ e.Intact updates ∧ outcome = .error (.listsChanged e.id)
  /-- If none would, the ids that no entry has are reported, each once and in rising order. -/
  unknown : (∀ e ∈ l.entries, e.Intact updates) → (∃ u ∈ updates, u.id ∉ l.ids) →
    ∃ names, outcome = .error (.unknownIds names) ∧ names.Pairwise (· < ·) ∧
      ∀ id, id ∈ names ↔ (∃ u ∈ updates, u.id = id) ∧ id ∉ l.ids
  /-- Either failure is one of a value that is not acceptable. -/
  invalid : ∀ fault, outcome = .error fault → (Failure.lineage fault).kind = .invalidValue

/-- Entries are replaced in their places by the last of the updates for their ids, or not at all. -/
theorem replaces_in_place (l : Lineage) (updates : List Entry) :
    Replacement l updates (l.replace updates) where
  succeeds := by
    constructor
    · rintro ⟨l', h⟩
      obtain ⟨hknown, hkept, -⟩ := replace_eq_ok h
      exact ⟨hknown, hkept⟩
    · rintro ⟨hknown, hkept⟩
      obtain ⟨l', hok, -⟩ := replace_of_known hkept hknown
      exact ⟨l', hok⟩
  table := by
    intro l' h
    obtain ⟨-, -, htable, -⟩ := replace_eq_ok h
    exact htable
  ids := by
    intro l' h
    obtain ⟨-, -, -, hentries⟩ := replace_eq_ok h
    unfold ids
    rw [hentries, Pending.map_updated_ids]
  entries := by
    intro l' h
    obtain ⟨-, -, -, hentries⟩ := replace_eq_ok h
    rw [hentries, List.forall₂_map_right_iff, List.forall₂_same]
    exact fun e _ => Pending.updated_ofList_iff.mp rfl
  changed := by
    intro h
    obtain ⟨before, e, after, hsplit, hkept, hchanged⟩ := exists_first_changed h
    exact ⟨before, e, after, hsplit, hkept, hchanged, replace_of_changed hsplit hkept hchanged⟩
  unknown := replace_of_unknown
  invalid := fun _ _ => rfl

/-- An update that would change segments does no harm if a later one counts. -/
example :
    let stored : Entry := ⟨"e", ["a"], ["b"], .inProgress, "1"⟩
    let counts : Entry := ⟨"e", ["a"], ["b"], .completed, "2"⟩
    let l : Lineage := ⟨"t", [stored], by simp⟩
    (l.replace [⟨"e", ["c"], [], .reverted, "1"⟩, counts]).map entries = .ok [counts] := by
  decide

end Lineage

end SegmentSwap
