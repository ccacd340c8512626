import SegmentSwap.Proofs.Lineage.Format
import SegmentSwap.Proofs.Store.Table

/-!
# Which lineages come back unchanged

Halves of surrogate pairs that stand side by side in a text are one character when the record is
read again. So a lineage comes back from its record exactly if there are no such halves in its texts
and its entries are in states of the protocol.
-/

namespace SegmentSwap

/-- Whether an entry comes back from a record as it was. -/
structure Entry.Returns (e : Entry) : Prop where
  id : e.id.rejoined = e.id
  sources : e.sources.map Text.rejoined = e.sources
  targets : e.targets.map Text.rejoined = e.targets
  listed : e.state ∈ State.listed
  stamp : e.stamp.rejoined = e.stamp

/-- Whether a lineage comes back from a record as it was. -/
structure Lineage.Returns (l : Lineage) : Prop where
  table : l.table.rejoined = l.table
  entries : ∀ e ∈ l.entries, e.Returns

namespace Record

open Document (Spells SpellsLineage Formatted)

variable {e : Entry} {l : Lineage} {version : Int}

theorem str_map_inj {xs ys : List Text} :
    Json.Value.arr (xs.map .str) = .arr (ys.map .str) ↔ xs = ys := by
  rw [Json.Value.arr.injEq, List.map_inj_right fun _ _ => Json.Value.str.inj]

theorem returnedNames_eq (names : List Text) :
    returnedNames names = .arr ((names.map Text.rejoined).map .str) := by
  unfold returnedNames
  rw [List.map_map]
  rfl

/-- What comes back of an entry spells the entry exactly if it is as it was. -/
theorem spells_returnedEntry : Spells (returnedEntry e) e ↔ e.Returns := by
  have hid : (returnedEntry e).field? "entry_id" = some (.str e.id.rejoined) := rfl
  have hsources : (returnedEntry e).field? "segments_from" = some (returnedNames e.sources) := rfl
  have htargets : (returnedEntry e).field? "segments_to" = some (returnedNames e.targets) := rfl
  have hstate : (returnedEntry e).field? "state" = some (.str e.state.text.rejoined) := rfl
  have hstamp : (returnedEntry e).field? "timestamp" = some (.str e.stamp.rejoined) := rfl
  constructor
  · intro h
    refine ⟨?_, ?_, ?_, h.listed, ?_⟩
    · obtain ⟨w, hw, he⟩ := h.id
      rw [hid] at hw
      obtain rfl := Option.some.inj hw
      exact Json.names_str_iff.mp he
    · have hnames := h.sources
      rw [hsources, returnedNames_eq] at hnames
      exact str_map_inj.mp (Option.some.inj hnames)
    · have hnames := h.targets
      rw [htargets, returnedNames_eq] at hnames
      exact str_map_inj.mp (Option.some.inj hnames)
    · obtain ⟨w, hw, he⟩ := h.stamp
      rw [hstamp] at hw
      obtain rfl := Option.some.inj hw
      exact Json.names_str_iff.mp he
  · intro h
    have hnames : Json.Names (.str e.id.rejoined) e.id := Json.names_str_iff.mpr h.id
    have hspells : Json.Names (.str e.stamp.rejoined) e.stamp := Json.names_str_iff.mpr h.stamp
    refine ⟨⟨_, rfl⟩, ⟨_, hid, hnames⟩, ?_, ?_, ?_, h.listed, ⟨_, hstamp, hspells⟩⟩
    · rw [hsources, returnedNames_eq, h.sources]
    · rw [htargets, returnedNames_eq, h.targets]
    · rw [hstate, Text.rejoined_of_isWhole (isWhole_state h.listed)]

theorem spellsLineage_returnedLineage : SpellsLineage (returnedLineage l) l ↔ l.Returns := by
  have htable : (returnedLineage l).field? "table_name" = some (.str l.table.rejoined) := rfl
  have hentries : (returnedLineage l).field? "entries" =
      some (.arr (l.entries.map returnedEntry)) := rfl
  have hspells : List.Forall₂ Spells (l.entries.map returnedEntry) l.entries ↔
      ∀ e ∈ l.entries, e.Returns := by
    rw [List.forall₂_map_left_iff, List.forall₂_same]
    exact forall₂_congr fun e _ => spells_returnedEntry
  constructor
  · intro h
    refine ⟨?_, hspells.mp ?_⟩
    · obtain ⟨w, hw, hl⟩ := h.table
      rw [htable] at hw
      obtain rfl := Option.some.inj hw
      exact Json.names_str_iff.mp hl
    · obtain ⟨items, hitems, hes⟩ := h.entries
      rw [hentries] at hitems
      obtain rfl := Json.Value.arr.inj (Option.some.inj hitems)
      exact hes
  · intro h
    exact ⟨⟨_, htable, Json.names_str_iff.mpr h.table⟩, _, hentries, hspells.mpr h.entries⟩

theorem formatted_returnedLineage (l : Lineage) : Formatted (returnedLineage l) :=
  ⟨⟨_, rfl⟩, .int 1, rfl, .inl rfl⟩

/-- A lineage is read from its record exactly if it comes back unchanged. -/
theorem ofBytes_eq_iff (hversion : isShowable version = true) (path : String) :
    ofBytes path (bytes l version) = .ok ⟨l, some (.ofCount version)⟩ ↔ l.Returns := by
  have hfound : version? (returned l version) = some (.ofCount version) := rfl
  have hlineage : ((returned l version).field? "lineage").getD .null = returnedLineage l := rfl
  have hread : Document.read (returnedLineage l) = .ok l ↔ l.Returns := by
    rw [Document.read_eq_ok_iff, spellsLineage_returnedLineage]
    exact and_iff_right (formatted_returnedLineage l)
  rw [ofBytes_returned hversion, ← hread]
  unfold ofJson Document.decode
  rw [hfound]
  dsimp only
  rw [hlineage]
  cases Document.read (returnedLineage l) with
  | error flaw => simp [Except.mapError]
  | ok found => simp [Except.mapError]

end Record

end SegmentSwap
