import SegmentSwap.Failure
import SegmentSwap.Proofs.Json.Shown
import SegmentSwap.Proofs.Lineage.Document
import SegmentSwap.Proofs.Number.Binary64

/-!
# Which documents are accepted

What a document has to be is said here without reading it: which fields there must be, what they
must hold, and that no two ids stand for the same text. The reader accepts exactly that, and what it
makes of a document spells the same entries in the same order. A value that holds a whole number
with too many digits stands for no text. Where a text is needed, such a value makes the document
unacceptable.
-/

namespace SegmentSwap

/-- A value counts as one if it is the whole number, the truth value or the real number. -/
theorem Json.Value.isNumber_one_iff {v : Json.Value} :
    v.isNumber 1 = true ↔ v = .int 1 ∨ v = .bool true ∨ v = .real .one := by
  cases v with
  | int n =>
    have hsame : (Json.Value.int n).isNumber 1 = true ↔ (n : Rat) = (1 : Int) := by
      simp [isNumber, quantity?, Quantity.same, Quantity.value?]
    rw [hsame, Rat.intCast_inj]
    simp
  | bool b =>
    cases b <;> simp [isNumber, quantity?, Quantity.same, Quantity.value?]
  | real x =>
    rw [show (Json.Value.real x).isNumber 1 = (Quantity.real x).same (.whole 1) from rfl,
      Quantity.same_one_iff]
    simp
  | _ => simp [isNumber, quantity?]

namespace Document

variable {v item : Json.Value} {e : Entry} {l : Lineage} {source : Text}

/-- An object of a document names its entry by a text. -/
def NamedBy (item : Json.Value) (t : Text) : Prop :=
  ∃ w, item.field? "entry_id" = some w ∧ Json.Names w t

/-- No text names the entries of both objects. -/
def NamedApart (a b : Json.Value) : Prop := ∀ t, NamedBy a t → ¬NamedBy b t

/-- An object of a document spells an entry. -/
structure Spells (item : Json.Value) (e : Entry) : Prop where
  object : ∃ fields, item = .obj fields
  id : NamedBy item e.id
  sources : item.field? "segments_from" = some (.arr (e.sources.map .str))
  targets : item.field? "segments_to" = some (.arr (e.targets.map .str))
  state : item.field? "state" = some (.str e.state.text)
  listed : e.state ∈ State.listed
  stamp : ∃ w, item.field? "timestamp" = some w ∧ Json.Names w e.stamp

/-- What a document has to hold for an entry. -/
structure AcceptableEntry (item : Json.Value) : Prop where
  object : ∃ fields, item = .obj fields
  id : ∃ t, NamedBy item t
  sources : ∃ names : List Text, item.field? "segments_from" = some (.arr (names.map .str))
  targets : ∃ names : List Text, item.field? "segments_to" = some (.arr (names.map .str))
  state : ∃ name : Text, item.field? "state" = some (.str name) ∧
    (name = "IN_PROGRESS" ∨ name = "COMPLETED" ∨ name = "REVERTED")
  stamp : ∃ w t, item.field? "timestamp" = some w ∧ Json.Names w t

/-- A document has the format that is read. -/
structure Formatted (v : Json.Value) : Prop where
  object : ∃ fields, v = .obj fields
  format : ∃ w, v.field? "format_version" = some w ∧
    (w = .int 1 ∨ w = .bool true ∨ w = .real .one)

/-- What a document has to be. -/
structure Acceptable (v : Json.Value) : Prop extends Formatted v where
  table : ∃ w t, v.field? "table_name" = some w ∧ Json.Names w t
  entries : ∃ items, v.field? "entries" = some (.arr items) ∧
    (∀ item ∈ items, AcceptableEntry item) ∧ items.Pairwise NamedApart

section Entries

theorem texts?_eq_some_iff {items : List Json.Value} {names : List Text} :
    texts? items = some names ↔ items = names.map .str := by
  refine ⟨fun h => ?_, fun h => by rw [h, texts?_map_str]⟩
  induction items generalizing names with
  | nil =>
    obtain rfl := Option.some.inj h
    rfl
  | cons item rest ih =>
    cases item with
    | str s =>
      obtain ⟨tail, htail, rfl⟩ := Option.map_eq_some_iff.mp h
      rw [ih htail, List.map_cons]
    | _ => cases h

theorem decodeNames_eq_ok_iff {names : List Text} :
    decodeNames v = .ok names ↔ v = .arr (names.map .str) := by
  refine ⟨fun h => ?_, fun h => by rw [h]; exact decodeNames_encodeNames names⟩
  unfold decodeNames at h
  split at h
  · split at h
    · rename_i hnames
      cases h
      rw [texts?_eq_some_iff.mp hnames]
    · cases h
  · cases h

theorem decodeState_eq_ok_iff {s : State} :
    decodeState v = .ok s ↔ v = .str s.text ∧ s ∈ State.listed := by
  refine ⟨fun h => ⟨?_, mem_listed_of_decodeState h⟩, fun ⟨hv, hs⟩ => ?_⟩
  · unfold decodeState at h
    split at h
    · split at h
      · cases h
        rw [State.text_ofText]
      · cases h
    · cases h
  · rw [hv, decodeState_text hs]

theorem require_eq_ok_iff {name : Text} {w : Json.Value} :
    require name v = .ok w ↔ v.field? name = some w := by
  unfold require
  split <;> rename_i hfield <;> simp [hfield]

theorem decodeText_eq_ok_iff {t : Text} : decodeText v = .ok t ↔ Json.Names v t := by
  rw [← Json.Value.plain?_eq_some_iff]
  unfold decodeText
  split <;> rename_i hplain <;> simp [hplain]

theorem decodeEntry_eq_ok_iff : decodeEntry item = .ok e ↔ Spells item e := by
  constructor
  · intro h
    unfold decodeEntry at h
    split at h
    · simp only [bind_eq_ok_iff, require_eq_ok_iff, decodeText_eq_ok_iff, decodeNames_eq_ok_iff,
        decodeState_eq_ok_iff] at h
      obtain ⟨w, hid, id, hnames, w, hsources, sources, rfl, w, htargets, targets, rfl, w, hstate,
        state, ⟨rfl, hlisted⟩, w, hstamp, stamp, hspells, he⟩ := h
      obtain rfl := Except.ok.inj he
      exact ⟨⟨_, rfl⟩, ⟨_, hid, hnames⟩, hsources, htargets, hstate, hlisted, ⟨_, hstamp, hspells⟩⟩
    · cases h
  · intro h
    obtain ⟨fields, rfl⟩ := h.object
    obtain ⟨id, hid, hnames⟩ := h.id
    obtain ⟨stamp, hstamp, hspells⟩ := h.stamp
    unfold decodeEntry
    simp only [bind_eq_ok_iff, require_eq_ok_iff, decodeText_eq_ok_iff, decodeNames_eq_ok_iff,
      decodeState_eq_ok_iff]
    exact ⟨id, hid, e.id, hnames, _, h.sources, _, rfl, _, h.targets, _, rfl, _, h.state, _,
      ⟨rfl, h.listed⟩, stamp, hstamp, e.stamp, hspells, rfl⟩

theorem decodeEntries_eq_ok_iff {items : List Json.Value} {es : List Entry} :
    decodeEntries items = .ok es ↔ List.Forall₂ Spells items es := by
  induction items generalizing es with
  | nil =>
    rw [List.forall₂_nil_left_iff]
    exact ⟨fun h => (Except.ok.inj h).symm, fun h => h ▸ rfl⟩
  | cons item rest ih =>
    rw [decodeEntries, List.forall₂_cons_left_iff]
    simp only [bind_eq_ok_iff, decodeEntry_eq_ok_iff, ih]
    constructor
    · rintro ⟨e, he, tail, htail, h⟩
      exact ⟨e, tail, he, htail, (Except.ok.inj h).symm⟩
    · rintro ⟨e, tail, he, htail, rfl⟩
      exact ⟨e, he, tail, htail, rfl⟩

theorem Spells.acceptable (h : Spells item e) : AcceptableEntry item := by
  obtain ⟨stamp, hstamp, hspells⟩ := h.stamp
  refine ⟨h.object, ⟨_, h.id⟩, ⟨_, h.sources⟩, ⟨_, h.targets⟩, ⟨_, h.state, ?_⟩,
    ⟨stamp, _, hstamp, hspells⟩⟩
  have hlisted := h.listed
  simp only [State.listed, List.mem_cons, List.not_mem_nil, or_false] at hlisted
  rcases hlisted with hs | hs | hs <;> simp [hs, State.text]

end Entries

/-- A document spells a lineage. -/
structure SpellsLineage (v : Json.Value) (l : Lineage) : Prop where
  table : ∃ w, v.field? "table_name" = some w ∧ Json.Names w l.table
  /-- The entries come in the order of the document. -/
  entries : ∃ items, v.field? "entries" = some (.arr items) ∧ List.Forall₂ Spells items l.entries

theorem isNumber_format_iff :
    ((v.field? "format_version").getD .null).isNumber formatVersion = true ↔
      ∃ w, v.field? "format_version" = some w ∧ (w = .int 1 ∨ w = .bool true ∨ w = .real .one) := by
  rw [show formatVersion = 1 from rfl, Json.Value.isNumber_one_iff]
  cases v.field? "format_version" <;> simp

theorem read_eq_ok_iff : read v = .ok l ↔ Formatted v ∧ SpellsLineage v l := by
  constructor
  · intro h
    unfold read at h
    split at h
    · dsimp only at h
      split at h
      · rename_i hformat
        split at h
        · rename_i items hitems
          simp only [bind_eq_ok_iff, mapError_eq_ok_iff, require_eq_ok_iff, decodeText_eq_ok_iff,
            decodeEntries_eq_ok_iff, Lineage.create_eq_ok_iff] at h
          obtain ⟨w, hw, table, htable, es, hes, rfl, rfl⟩ := h
          exact ⟨⟨⟨_, rfl⟩, isNumber_format_iff.mp hformat⟩, ⟨w, hw, htable⟩, items, hitems, hes⟩
        · cases h
      · cases h
    · cases h
  · rintro ⟨⟨⟨fields, rfl⟩, hformat⟩, ⟨w, hw, htable⟩, items, hitems, hes⟩
    unfold read
    dsimp only
    rw [if_pos (isNumber_format_iff.mpr hformat), hitems]
    simp only [bind_eq_ok_iff, mapError_eq_ok_iff, require_eq_ok_iff, decodeText_eq_ok_iff,
      decodeEntries_eq_ok_iff, Lineage.create_eq_ok_iff]
    exact ⟨w, hw, l.table, htable, l.entries, hes, rfl, rfl⟩

section Flaws

variable {flaw : Flaw}

end Flaws

end Document

end SegmentSwap
