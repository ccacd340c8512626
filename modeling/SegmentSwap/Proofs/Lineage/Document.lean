import SegmentSwap.Lineage.Document
import SegmentSwap.Proofs.Protocol.Checks

/-!
# Decoding what has been encoded as a document

Encoding loses nothing, and every document that is accepted holds states of the protocol only. So a
lineage with such states comes back from its document, and what has been read from any document does
not change any more when it is written and read again.
-/

namespace SegmentSwap

namespace Entry

/-- Whether the entry is in a state of the protocol. -/
def isListed (e : Entry) : Bool := decide (e.state ∈ State.listed)

end Entry

namespace Document

@[simp] theorem decodeText_str (t : Text) : decodeText (.str t) = .ok t := rfl

theorem texts?_map_str (names : List Text) : texts? (names.map .str) = some names := by
  induction names with
  | nil => rfl
  | cons name names ih =>
    rw [List.map_cons, texts?, ih]
    rfl

theorem decodeNames_encodeNames (names : List Text) :
    decodeNames (encodeNames names) = .ok names := by
  unfold encodeNames decodeNames
  simp only [texts?_map_str]

theorem decodeState_text {s : State} (h : s ∈ State.listed) :
    decodeState (.str s.text) = .ok s := by
  unfold decodeState
  simp only [State.ofText_text_of_mem_listed h, if_pos h]

theorem mem_listed_of_decodeState {v : Json.Value} {s : State} (h : decodeState v = .ok s) :
    s ∈ State.listed := by
  unfold decodeState at h
  split at h
  · split at h
    · rename_i hlisted
      exact Except.ok.inj h ▸ hlisted
    · cases h
  · cases h

theorem decodeEntry_encodeEntry {e : Entry} (h : e.isListed = true) :
    decodeEntry (encodeEntry e) = .ok e := by
  have hid : require "entry_id" (encodeEntry e) = .ok (.str e.id) := rfl
  have hsources : require "segments_from" (encodeEntry e) = .ok (encodeNames e.sources) := rfl
  have htargets : require "segments_to" (encodeEntry e) = .ok (encodeNames e.targets) := rfl
  have hstate : require "state" (encodeEntry e) = .ok (.str e.state.text) := rfl
  have hstamp : require "timestamp" (encodeEntry e) = .ok (.str e.stamp) := rfl
  have hlisted : e.state ∈ State.listed := of_decide_eq_true h
  show (do
    let id ← decodeText (← require "entry_id" (encodeEntry e))
    let sources ← decodeNames (← require "segments_from" (encodeEntry e))
    let targets ← decodeNames (← require "segments_to" (encodeEntry e))
    let state ← decodeState (← require "state" (encodeEntry e))
    let stamp ← decodeText (← require "timestamp" (encodeEntry e))
    return (⟨id, sources, targets, state, stamp⟩ : Entry)) = _
  rw [hid, hsources, htargets, hstate, hstamp]
  simp only [bind, Except.bind, decodeText_str, decodeNames_encodeNames, decodeState_text hlisted]
  rfl

theorem isListed_of_decodeEntry {v : Json.Value} {e : Entry} (h : decodeEntry v = .ok e) :
    e.isListed = true := by
  unfold decodeEntry at h
  split at h
  · simp only [bind_eq_ok_iff] at h
    obtain ⟨w, -, id, -, w, -, sources, -, w, -, targets, -, w, -, state, hstate, w, -, stamp, -,
      he⟩ := h
    obtain rfl := Except.ok.inj he
    exact decide_eq_true (mem_listed_of_decodeState hstate)
  · cases h

theorem decodeEntries_map_encodeEntry {es : List Entry} (h : ∀ e ∈ es, e.isListed = true) :
    decodeEntries (es.map encodeEntry) = .ok es := by
  induction es with
  | nil => rfl
  | cons e es ih =>
    have he := decodeEntry_encodeEntry (h e List.mem_cons_self)
    have hes := ih fun e he => h e (List.mem_cons_of_mem _ he)
    rw [List.map_cons, decodeEntries, he, hes]
    rfl

theorem isListed_of_decodeEntries {vs : List Json.Value} {es : List Entry}
    (h : decodeEntries vs = .ok es) : ∀ e ∈ es, e.isListed = true := by
  induction vs generalizing es with
  | nil =>
    obtain rfl := Except.ok.inj h
    intro e he
    exact absurd he List.not_mem_nil
  | cons v vs ih =>
    rw [decodeEntries] at h
    simp only [bind_eq_ok_iff] at h
    obtain ⟨e, he, rest, hrest, hes⟩ := h
    obtain rfl := Except.ok.inj hes
    intro f hf
    rcases List.mem_cons.mp hf with rfl | hf
    · exact isListed_of_decodeEntry he
    · exact ih hrest f hf

/-- A lineage whose entries are in states of the protocol comes back from its document. -/
theorem decode_encode_of_listed {l : Lineage} (h : ∀ e ∈ l.entries, e.isListed = true)
    (source : Text) : decode source (encode l) = .ok l := by
  have hformat : ((encode l).field? "format_version").getD .null = .int formatVersion := rfl
  have hnumber : (Json.Value.int formatVersion).isNumber formatVersion = true := rfl
  have hentries : (encode l).field? "entries" = some (.arr (l.entries.map encodeEntry)) := rfl
  have htable : require "table_name" (encode l) = .ok (.str l.table) := rfl
  have hread : read (encode l) = .ok l := by
    unfold read
    split
    · dsimp only
      rw [hformat, if_pos hnumber, hentries, htable]
      simp only [bind, Except.bind, decodeText_str, decodeEntries_map_encodeEntry h,
        Lineage.create_eq_ok_iff.mpr ⟨rfl, rfl⟩]
      rfl
    · rename_i hother
      exact absurd rfl (hother _)
  unfold decode
  rw [hread]
  rfl

/-- Documents hold states of the protocol only. -/
theorem isListed_of_decode {source : Text} {v : Json.Value} {l : Lineage}
    (h : decode source v = .ok l) : ∀ e ∈ l.entries, e.isListed = true := by
  rw [decode, mapError_eq_ok_iff] at h
  unfold read at h
  split at h
  · dsimp only at h
    split at h
    · split at h
      · simp only [bind_eq_ok_iff, mapError_eq_ok_iff, Lineage.create_eq_ok_iff] at h
        obtain ⟨w, -, table, -, entries, hentries, -, rfl⟩ := h
        exact isListed_of_decodeEntries hentries
      · cases h
    · cases h
  · cases h

end Document

end SegmentSwap
