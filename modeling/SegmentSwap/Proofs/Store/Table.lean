import SegmentSwap.Proofs.Lineage.Format
import SegmentSwap.Proofs.Store.Record

/-!
# The table of a record

A record is used for whatever table its document names. A record that is written for a table with a
harmless name still names that table when it is read, even if its other texts come back changed:
halves of surrogate pairs that stand side by side are rejoined on the way, and the document may be
turned down for what comes of it.
-/

namespace SegmentSwap

namespace Json.Writer

theorem text_rejoined (t : Text) : text t.rejoined = text t := by
  unfold text
  rw [Reader.escape_rejoined]

section Items

variable {α : Type} {f g : α → Value} {xs : List α}

theorem blockItems_congr (h : ∀ x ∈ xs, ∀ depth, block depth (f x) = block depth (g x))
    (depth : Nat) : blockItems depth (xs.map f) = blockItems depth (xs.map g) := by
  induction xs with
  | nil => rfl
  | cons x xs ih =>
    rw [List.map_cons, List.map_cons, blockItems, blockItems, h x List.mem_cons_self,
      ih fun y hy => h y (List.mem_cons_of_mem x hy)]

theorem block_arr_congr (h : ∀ x ∈ xs, ∀ depth, block depth (f x) = block depth (g x))
    (depth : Nat) : block depth (.arr (xs.map f)) = block depth (.arr (xs.map g)) := by
  cases xs with
  | nil => rfl
  | cons x xs =>
    rw [List.map_cons, List.map_cons, block, block, h x List.mem_cons_self,
      blockItems_congr fun y hy => h y (List.mem_cons_of_mem x hy)]

theorem scalar_str_rejoined (t : Text) : scalar (.str t.rejoined) = scalar (.str t) :=
  text_rejoined t

end Items

end Json.Writer

namespace Record

open Json (Legible)
open Json.Writer (block block_arr_congr scalar_str_rejoined)

/-- The names of segments as they come back. -/
def returnedNames (names : List Text) : Json.Value :=
  .arr (names.map fun s => .str s.rejoined)

/-- An entry as it comes back. -/
def returnedEntry (e : Entry) : Json.Value :=
  .obj [("entry_id", .str e.id.rejoined), ("segments_from", returnedNames e.sources),
    ("segments_to", returnedNames e.targets), ("state", .str e.state.text.rejoined),
    ("timestamp", .str e.stamp.rejoined)]

/-- A lineage as it comes back. -/
def returnedLineage (l : Lineage) : Json.Value :=
  .obj [("format_version", .int Document.formatVersion), ("table_name", .str l.table.rejoined),
    ("entries", .arr (l.entries.map returnedEntry))]

/-- A record as it comes back. -/
def returned (l : Lineage) (version : Int) : Json.Value :=
  .obj [("version", .int version), ("lineage", returnedLineage l)]

variable {depth : Nat} {l : Lineage} {version : Int}

theorem block_returnedNames (depth : Nat) (names : List Text) :
    block depth (returnedNames names) = block depth (Document.encodeNames names) := by
  refine block_arr_congr (fun s _ depth => ?_) depth
  simp only [Json.Writer.block, scalar_str_rejoined]

theorem block_returnedEntry (depth : Nat) (e : Entry) :
    block depth (returnedEntry e) = block depth (Document.encodeEntry e) := by
  unfold returnedEntry Document.encodeEntry
  simp only [Json.Writer.block, Json.Writer.blockFields, scalar_str_rejoined, block_returnedNames]

theorem block_returned (l : Lineage) (version : Int) :
    block 0 (returned l version) = block 0 (encode l version) := by
  have hentries : ∀ depth, block depth (.arr (l.entries.map returnedEntry)) =
      block depth (.arr (l.entries.map Document.encodeEntry)) :=
    block_arr_congr fun e _ depth => block_returnedEntry depth e
  unfold returned returnedLineage encode Document.encode
  simp only [Json.Writer.block, Json.Writer.blockFields, scalar_str_rejoined, hentries]

theorem legible_returnedNames (names : List Text) : Legible (depth + 1) (returnedNames names) := by
  refine .arr fun v hv => ?_
  obtain ⟨s, -, rfl⟩ := List.mem_map.mp hv
  exact .str s.rejoined_rejoined

theorem legible_returnedEntry (e : Entry) : Legible (depth + 2) (returnedEntry e) := by
  refine .obj ?_ ?_ ?_
  · simp only [List.map_cons, List.map_nil]
    decide
  · intro f hf
    simp only [List.mem_cons, List.not_mem_nil, or_false] at hf
    rcases hf with rfl | rfl | rfl | rfl | rfl <;> exact Text.isWhole_ofString _
  · intro f hf
    simp only [List.mem_cons, List.not_mem_nil, or_false] at hf
    rcases hf with rfl | rfl | rfl | rfl | rfl
    · exact .str (Text.rejoined_rejoined _)
    · exact legible_returnedNames _
    · exact legible_returnedNames _
    · exact .str (Text.rejoined_rejoined _)
    · exact .str (Text.rejoined_rejoined _)

theorem legible_returned (hversion : isShowable version = true) :
    Legible (depth + 5) (returned l version) := by
  have hformat : isShowable Document.formatVersion = true := by decide +kernel
  have hlineage : Legible (depth + 4) (returnedLineage l) := by
    refine .obj ?_ ?_ ?_
    · simp only [List.map_cons, List.map_nil]
      decide
    · intro f hf
      simp only [List.mem_cons, List.not_mem_nil, or_false] at hf
      rcases hf with rfl | rfl | rfl <;> exact Text.isWhole_ofString _
    · intro f hf
      simp only [List.mem_cons, List.not_mem_nil, or_false] at hf
      rcases hf with rfl | rfl | rfl
      · exact .int hformat
      · exact .str (Text.rejoined_rejoined _)
      · refine .arr fun v hv => ?_
        obtain ⟨e, -, rfl⟩ := List.mem_map.mp hv
        exact legible_returnedEntry e
  refine .obj ?_ ?_ ?_
  · simp only [List.map_cons, List.map_nil]
    decide
  · intro f hf
    simp only [List.mem_cons, List.not_mem_nil, or_false] at hf
    rcases hf with rfl | rfl <;> exact Text.isWhole_ofString _
  · intro f hf
    simp only [List.mem_cons, List.not_mem_nil, or_false] at hf
    rcases hf with rfl | rfl
    · exact .int hversion
    · exact hlineage

/-- What is read from the bytes of a record is what comes back of it. -/
theorem ofBytes_returned (hversion : isShowable version = true) (path : String) :
    ofBytes path (bytes l version) = ofJson path (returned l version) := by
  have hblank : ∀ c ∈ "\n".toList, Json.Reader.isBlank c = true := by
    intro c hc
    have hnewline : "\n".toList = ['\n'] := rfl
    rw [hnewline] at hc
    rw [List.mem_singleton.mp hc]
    rfl
  have hlaid : (returned l version).laidOut = (encode l version).laidOut := by
    unfold Json.Value.laidOut
    rw [block_returned]
  have hread : Json.read (text l version) = .ok (returned l version) := by
    have hlegible : Legible Json.maxDepth (returned l version) := legible_returned hversion
    unfold text
    rw [← hlaid]
    exact Json.read_laidOut hlegible hblank
  have htext : ofText path (text l version) = ofJson path (returned l version) := by
    unfold ofText
    rw [hread]
  unfold ofBytes bytes
  rw [Text.Utf8.decode_encode]
  exact htext

end Record

namespace Document

/-- A lineage is one of the table that its document names. -/
theorem table_of_decode {source : Text} {v : Json.Value} {l : Lineage}
    (h : decode source v = .ok l) : ∃ w, v.field? "table_name" = some w ∧ l.table = w.plain := by
  rw [decode, mapError_eq_ok_iff] at h
  obtain ⟨-, ⟨w, hw, hnames⟩, -⟩ := read_eq_ok_iff.mp h
  exact ⟨w, hw, (Json.names_iff.mp hnames).2.symm⟩

end Document

namespace Record

/-- A record that can be read has gone through all stages. -/
theorem ofBytes_eq_ok {path : String} {bytes : List UInt8} {r : Versioned}
    (h : ofBytes path bytes = .ok r) : ∃ text v, Text.Utf8.decode bytes = .ok text ∧
      Json.read text = .ok v ∧ ofJson path v = .ok r := by
  unfold ofBytes at h
  split at h
  · cases h
  · rename_i text hdecode
    unfold ofText at h
    split at h
    · cases h
    · cases h
    · cases h
    · rename_i v hread
      exact ⟨text, v, hdecode, hread, h⟩

/-- A record is one of the table that its document names. -/
theorem table_of_ofJson {path : String} {v : Json.Value} {r : Versioned}
    (h : ofJson path v = .ok r) : ∃ d w, v.field? "lineage" = some d ∧
      d.field? "table_name" = some w ∧ r.lineage.table = w.plain := by
  unfold ofJson at h
  split at h
  · cases h
  · split at h
    · cases h
    · rename_i hdecode
      cases h
      obtain ⟨w, hw, htable⟩ := Document.table_of_decode hdecode
      cases hd : v.field? "lineage" with
      | none =>
        rw [hd] at hw
        cases hw
      | some d =>
        rw [hd] at hw
        exact ⟨d, w, rfl, hw, htable⟩

/-- What can be read of a record for a harmless table is a lineage of that table. -/
theorem table_of_bytes {l : Lineage} {version : Int} {path : String} {r : Versioned}
    (htable : l.table.isWhole = true) (hversion : isShowable version = true)
    (h : ofBytes path (bytes l version) = .ok r) : r.lineage.table = l.table := by
  rw [ofBytes_returned hversion] at h
  obtain ⟨d, w, hd, hw, hr⟩ := table_of_ofJson h
  have hlineage : (returned l version).field? "lineage" = some (returnedLineage l) := rfl
  have hname : (returnedLineage l).field? "table_name" = some (.str l.table.rejoined) := rfl
  rw [hlineage] at hd
  obtain rfl := Option.some.inj hd
  rw [hname] at hw
  obtain rfl := Option.some.inj hw
  rw [hr]
  exact Text.rejoined_of_isWhole htable

end Record

end SegmentSwap
