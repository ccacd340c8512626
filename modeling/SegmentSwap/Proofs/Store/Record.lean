import SegmentSwap.Proofs.Json.Layout
import SegmentSwap.Proofs.Lineage.Document
import SegmentSwap.Proofs.Text.Utf8
import SegmentSwap.Store.Record

/-!
# Reading the records that are written

A record comes back from its bytes with the same lineage and the same version. On the way there the
bytes are decoded, the text is read as a value and the value as a document, and none of the three
stages may reject or change what has been written.
-/

namespace SegmentSwap

/-- Whether a record can hold an entry: all its texts are whole and its state is known. -/
def Entry.isStorable (e : Entry) : Bool :=
  e.isListed && e.id.isWhole && e.sources.all Text.isWhole && e.targets.all Text.isWhole &&
    e.stamp.isWhole

/-- Whether a record can hold a lineage. -/
def Lineage.isStorable (l : Lineage) : Bool := l.table.isWhole && l.entries.all Entry.isStorable

theorem Entry.isStorable_iff {e : Entry} : e.isStorable = true ↔
    e.isListed = true ∧ e.id.isWhole = true ∧ (∀ s ∈ e.sources, s.isWhole = true) ∧
      (∀ s ∈ e.targets, s.isWhole = true) ∧ e.stamp.isWhole = true := by
  simp only [isStorable, Bool.and_eq_true, List.all_eq_true, and_assoc]

theorem Lineage.isStorable_iff {l : Lineage} : l.isStorable = true ↔
    l.table.isWhole = true ∧ ∀ e ∈ l.entries, e.isStorable = true := by
  simp only [isStorable, Bool.and_eq_true, List.all_eq_true]

namespace Record

open Json (Legible)

theorem isWhole_state {s : State} (h : s ∈ State.listed) : s.text.isWhole = true := by
  simp only [State.listed, List.mem_cons, List.not_mem_nil, or_false] at h
  rcases h with rfl | rfl | rfl <;> exact Text.isWhole_ofString _

theorem legible_names {depth : Nat} {names : List Text} (h : ∀ s ∈ names, s.isWhole = true) :
    Legible (depth + 1) (Document.encodeNames names) := by
  refine .arr fun v hv => ?_
  obtain ⟨s, hs, rfl⟩ := List.mem_map.mp hv
  exact .str (Text.rejoined_of_isWhole (h s hs))

theorem legible_entry {depth : Nat} {e : Entry} (h : e.isStorable = true) :
    Legible (depth + 2) (Document.encodeEntry e) := by
  obtain ⟨hstate, hid, hsources, htargets, hstamp⟩ := Entry.isStorable_iff.mp h
  have hlisted : e.state ∈ State.listed := of_decide_eq_true hstate
  refine .obj ?_ ?_ ?_
  · simp only [List.map_cons, List.map_nil]
    decide
  · intro f hf
    simp only [List.mem_cons, List.not_mem_nil, or_false] at hf
    rcases hf with rfl | rfl | rfl | rfl | rfl <;> exact Text.isWhole_ofString _
  · intro f hf
    simp only [List.mem_cons, List.not_mem_nil, or_false] at hf
    rcases hf with rfl | rfl | rfl | rfl | rfl
    · exact .str (Text.rejoined_of_isWhole hid)
    · exact legible_names hsources
    · exact legible_names htargets
    · exact .str (Text.rejoined_of_isWhole (isWhole_state hlisted))
    · exact .str (Text.rejoined_of_isWhole hstamp)

theorem legible_lineage {depth : Nat} {l : Lineage} (h : l.isStorable = true) :
    Legible (depth + 4) (Document.encode l) := by
  obtain ⟨htable, hentries⟩ := Lineage.isStorable_iff.mp h
  have hformat : isShowable Document.formatVersion = true := by decide +kernel
  refine .obj ?_ ?_ ?_
  · simp only [List.map_cons, List.map_nil]
    decide
  · intro f hf
    simp only [List.mem_cons, List.not_mem_nil, or_false] at hf
    rcases hf with rfl | rfl | rfl <;> exact Text.isWhole_ofString _
  · intro f hf
    simp only [List.mem_cons, List.not_mem_nil, or_false] at hf
    rcases hf with rfl | rfl | rfl
    · exact .int hformat
    · exact .str (Text.rejoined_of_isWhole htable)
    · refine .arr fun v hv => ?_
      obtain ⟨e, he, rfl⟩ := List.mem_map.mp hv
      exact legible_entry (hentries e he)

theorem legible_record {depth : Nat} {l : Lineage} {version : Int} (h : l.isStorable = true)
    (hversion : isShowable version = true) : Legible (depth + 5) (encode l version) := by
  refine .obj ?_ ?_ ?_
  · simp only [List.map_cons, List.map_nil]
    decide
  · intro f hf
    simp only [List.mem_cons, List.not_mem_nil, or_false] at hf
    rcases hf with rfl | rfl <;> exact Text.isWhole_ofString _
  · intro f hf
    simp only [List.mem_cons, List.not_mem_nil, or_false] at hf
    rcases hf with rfl | rfl
    · exact .int hversion
    · exact legible_lineage h

/-- The value of a record gives its lineage and its version. -/
theorem ofJson_encode {l : Lineage} (h : l.isStorable = true) (version : Int) (path : String) :
    ofJson path (encode l version) = .ok ⟨l, some (.ofCount version)⟩ := by
  have hversion : version? (encode l version) = some (.ofCount version) := rfl
  have hlineage : ((encode l version).field? "lineage").getD .null = Document.encode l := rfl
  have hdecode : Document.decode path (Document.encode l) = .ok l :=
    Document.decode_encode_of_listed
      (fun e he => (Entry.isStorable_iff.mp ((Lineage.isStorable_iff.mp h).2 e he)).1) _
  unfold ofJson
  rw [hversion]
  dsimp only
  rw [hlineage, hdecode]

/-- What is read from the bytes of a record is what has been written. -/
theorem ofBytes_of_storable {l : Lineage} (h : l.isStorable = true) {version : Int}
    (hversion : isShowable version = true) (path : String) :
    ofBytes path (bytes l version) = .ok ⟨l, some (.ofCount version)⟩ := by
  have hblank : ∀ c ∈ "\n".toList, Json.Reader.isBlank c = true := by
    intro c hc
    have hnewline : "\n".toList = ['\n'] := rfl
    rw [hnewline] at hc
    rw [List.mem_singleton.mp hc]
    rfl
  have hread : Json.read (text l version) = .ok (encode l version) :=
    Json.read_laidOut (legible_record h hversion) hblank
  have htext : ofText path (text l version) = .ok ⟨l, some (.ofCount version)⟩ := by
    unfold ofText
    rw [hread]
    exact ofJson_encode h version path
  unfold ofBytes bytes
  rw [Text.Utf8.decode_encode]
  exact htext

/-- Records lose nothing: a lineage and its version come back from the bytes of their record, and
what has been read from any document comes back from the document that it is written to. -/
theorem record_round_trip :
    (∀ (l : Lineage) (version : Int) (path : String), l.isStorable = true →
      isShowable version = true →
      ofBytes path (bytes l version) = .ok ⟨l, some (.ofCount version)⟩) ∧
    ∀ (source source' : Text) (p : Json.Value) (l : Lineage),
      Document.decode source p = .ok l → Document.decode source' (Document.encode l) = .ok l := by
  refine ⟨fun l version path h hversion => ofBytes_of_storable h hversion path, ?_⟩
  intro source source' p l h
  exact Document.decode_encode_of_listed (Document.isListed_of_decode h) source'

/-- A lineage whose texts need all kinds of escapes, in all states of the protocol. -/
def escapedLineage : Lineage :=
  ⟨"t\t\"a\\b\"", [⟨"\x00\x07\x1f", ["/\r\n", ""], ["\x7f", "é"], .completed, "\uFEFF"⟩,
    ⟨"😀", [], ["漢字", "𝒳𝒴"], .inProgress, "2024-01-01"⟩, ⟨"", ["\x08\x0c"], [], .reverted, "-"⟩],
    by decide⟩

/-- A document that names its table and an entry by numbers and gives its format as a truth
value. -/
def looseDocument : Json.Value :=
  .obj [("table_name", .int 7), ("format_version", .bool true), ("extra", .null),
    ("entries", .arr [.obj [("entry_id", .null), ("segments_from", .arr []),
      ("segments_to", .arr [.str "a"]), ("state", .str "REVERTED"), ("timestamp", .bool true)]])]

theorem record_round_trip_escaped :
    (escapedLineage.isStorable = true ∧ isShowable (-98765432109876543210) = true ∧
      ofBytes "t.json" (bytes escapedLineage (-98765432109876543210)) =
        .ok ⟨escapedLineage, some (.ofCount (-98765432109876543210))⟩) ∧
    Document.decode "here" looseDocument =
      .ok ⟨"7", [⟨"None", [], ["a"], .reverted, "True"⟩], by decide⟩ ∧
    Document.decode "there" (Document.encode
      ⟨"7", [⟨"None", [], ["a"], .reverted, "True"⟩], by decide⟩) =
      .ok ⟨"7", [⟨"None", [], ["a"], .reverted, "True"⟩], by decide⟩ := by
  have hstorable : escapedLineage.isStorable = true := by decide
  have hshowable : isShowable (-98765432109876543210) = true := by decide +kernel
  have hloose : Document.decode "here" looseDocument =
      .ok ⟨"7", [⟨"None", [], ["a"], .reverted, "True"⟩], by decide⟩ := by
    decide +kernel
  exact ⟨⟨hstorable, hshowable, record_round_trip.1 _ _ _ hstorable hshowable⟩, hloose,
    record_round_trip.2 _ _ _ _ hloose⟩

end Record

end SegmentSwap
