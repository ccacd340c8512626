import SegmentSwap.Proofs.Traffic.Contest
import SegmentSwap.Proofs.Traffic.Interference

/-!
# Races

Starts that are made at the same time and all compete for sources have one winner, and the others
are told so. Starts that do not compete all succeed, if each may be attempted as often as there are
starts, since a write is only ever lost to the progress of somebody else.
-/

namespace SegmentSwap

namespace Traffic

variable {table : Text} {site : Site} {bids : List Bid} {moves : List Move}

/-! ## Starts that compete -/

theorem fair_of_unforced (hforce : ∀ b ∈ bids, b.force = false) : Fair bids := by
  intro i j b d hb _ _ hforced
  rw [hforce b (List.mem_of_getElem? hb)] at hforced
  cases hforced

theorem claims_of_unforced (hforce : ∀ b ∈ bids, b.force = false) : Bid.claims bids = [] := by
  unfold Bid.claims
  rw [List.map_eq_nil_iff, List.filter_eq_nil_iff]
  intro b hb
  rw [hforce b hb]
  exact Bool.false_ne_true

/-- Of two commits the second one would have been turned down for the first one. -/
theorem Underway.length_le_one {ks : List Commit} {t : Traffic}
    (h : Underway table site bids moves ks t)
    (hcompete : bids.Pairwise fun b d => overlaps b.sources d.sources = true) : ks.length ≤ 1 := by
  have hsymm : ∀ b d : Bid, overlaps b.sources d.sources = true →
      overlaps d.sources b.sources = true := by
    intro b d hoverlap
    rw [overlaps_comm]
    exact hoverlap
  match ks, h with
  | [], _ => exact Nat.zero_le 1
  | [_], _ => exact Nat.le_refl 1
  | k :: k' :: rest, h =>
    exfalso
    have hmem' : k' ∈ k :: k' :: rest := List.mem_cons_of_mem k List.mem_cons_self
    obtain ⟨b, hb, hsources, -⟩ := h.made k List.mem_cons_self
    obtain ⟨d, hd, hsources', -⟩ := h.made k' hmem'
    have hne : k.client ≠ k'.client := by
      intro heq
      have honce := h.once
      rw [List.map_cons, List.nodup_cons] at honce
      exact honce.1 (heq ▸ List.mem_map_of_mem List.mem_cons_self)
    have hclear := (List.pairwise_cons.mp h.clear).1 k' List.mem_cons_self
    rw [hsources, hsources', pairwise_of_ne hsymm hcompete hb hd hne] at hclear
    cases hclear

/-- Without a commit nobody can have been turned down, and nobody has lost a write. -/
theorem Contest.one_commit (h : Contest table site bids moves) (hfair : Fair bids)
    (hcompete : bids.Pairwise fun b d => overlaps b.sources d.sources = true)
    (hattempts : ∀ b ∈ bids, 2 ≤ b.attempts) (hsome : bids ≠ [])
    (hcomplete : ∀ c ∈ (Traffic.ended table site bids moves).clients, c.phase.result? ≠ none) :
    ∃ k, won table site bids moves = [k] := by
  have hle := (h.ended hfair).length_le_one hcompete
  refine List.length_eq_one_iff.mp (Nat.le_antisymm hle ?_)
  obtain ⟨b, rest, rfl⟩ := List.exists_cons_of_ne_nil hsome
  rcases h.outcome hfair hcomplete (rfl : (b :: rest)[0]? = some b) with
    ⟨k, hk, -⟩ | ⟨-, ⟨p, hp, ⟨k, hk, -⟩, -⟩ | hlost⟩
  · exact List.length_pos_of_mem hk
  · exact List.length_pos_of_mem (hp.subset hk)
  · have hmany := hattempts b List.mem_cons_self
    omega

/-- Starts that all compete with each other, none of them forced, are made at the same time, each of
them acceptable in itself and with at least two attempts. However they are interleaved, exactly one
succeeds, every other one is turned down for the entry of this one, and nothing but this entry is
added to the record. -/
theorem one_start_wins (h : Contest table site bids moves) (hforce : ∀ b ∈ bids, b.force = false)
    (hcompete : bids.Pairwise fun b d => overlaps b.sources d.sources = true)
    (hattempts : ∀ b ∈ bids, 2 ≤ b.attempts) (hsome : bids ≠ [])
    (hcomplete : ∀ c ∈ (ended table site bids moves).clients, c.phase.result? ≠ none) :
    ∃ (i : Nat) (b : Bid) (e : Entry), bids[i]? = some b ∧ e.sources = b.sources ∧
      e.targets = b.targets ∧ e.state = .inProgress ∧
      (ended table site bids moves).clients[i]? = some ⟨b.call table, .done (.ok e)⟩ ∧
      ((ended table site bids moves).lineage table).entries =
        (site.memory.read table).lineage.entries ++ [e] ∧
      ∀ (j : Nat) (d : Bid), bids[j]? = some d → j ≠ i →
        (ended table site bids moves).clients[j]? =
          some ⟨d.call table, .done (.error (.refusal (.contested table d.sources [e.id])))⟩ := by
  have hfair := fair_of_unforced hforce
  obtain ⟨k, hk⟩ := h.one_commit hfair hcompete hattempts hsome hcomplete
  have hended := h.ended hfair
  have houtcome := fun (i : Nat) (b : Bid) (hb : bids[i]? = some b) => h.outcome hfair hcomplete hb
  rw [hk] at hended houtcome
  have hkmem : k ∈ [k] := List.mem_singleton_self k
  obtain ⟨b, hb, hsources, htargets, -⟩ := hended.made k hkmem
  have hgains := hended.record.gains
  refine ⟨k.client, b, k.entry, hb, hsources, htargets, ?_, ?_, ?_, ?_⟩
  · exact hgains.running k.entry List.mem_cons_self
  · rcases houtcome k.client b hb with ⟨k', hk', -, hplace⟩ | ⟨hnone, -⟩
    · rw [List.mem_singleton.mp hk'] at hplace
      exact hplace
    · exact absurd rfl (hnone k hkmem)
  · refine hgains.entries_eq fun sources hclaim => ?_
    rw [claims_of_unforced hforce] at hclaim
    cases hclaim
  · intro j d hd hj
    rcases houtcome j d hd with
      ⟨k', hk', hclient, -⟩ | ⟨-, ⟨p, hp, ⟨k', hk', hoverlap⟩, hplace⟩ | hlost⟩
    · rw [List.mem_singleton.mp hk'] at hclient
      exact absurd hclient.symm hj
    · -- the commits that it has found are not none, so they are the only one
      obtain rfl : p = [k] := hp.eq_of_length_le (List.length_pos_of_mem hk')
      rw [List.mem_singleton.mp hk'] at hoverlap
      rw [hplace]
      simp [hoverlap, Call.refuse, Call.fail]
    · have hmany := hattempts d (List.mem_of_getElem? hd)
      simp only [List.length_singleton] at hlost
      omega

/-- Two starts for the same segment. -/
def rivals : List Bid := [⟨["a"], ["b"], false, 2, 2⟩, ⟨["a"], ["c"], false, 2, 2⟩]

/-- Both are about to write when the second one does. The first one loses its write and reads the
record again. -/
def racing : List Move := Move.answers 0 5 "1" ++ Move.answers 1 6 "2" ++ Move.answers 0 3 "1"

/-- It is turned down for the entry of the second one, which is all that the record holds. -/
theorem one_start_wins_raced :
    let t := ended "t" (.holding "t" .append ["a"]) rivals racing
    let e : Entry := ⟨"2", ["a"], ["c"], .inProgress, ""⟩
    (t.lineage "t").entries = [e] ∧
      t.clients[1]? = some ⟨⟨"t", .start ["a"] ["c"] false, 2, 2⟩, .done (.ok e)⟩ ∧
      t.clients[0]? = some ⟨⟨"t", .start ["a"] ["b"] false, 2, 2⟩,
        .done (.error (.refusal (.contested "t" ["a"] ["2"])))⟩ := by
  intro t e
  have hcontest : Contest "t" (.holding "t" .append ["a"]) rivals racing := by
    refine .of_named rfl ?_ ?_ (by decide +kernel)
      (by decide : ∀ m ∈ racing, m.isNamed ["1", "2"] = true) (by decide) (by decide)
    · simp only [rivals, List.forall_mem_cons]
      exact ⟨⟨rfl, rfl⟩, ⟨rfl, rfl⟩, fun b hb => absurd hb List.not_mem_nil⟩
    · exact List.pairwise_pair.mpr (List.disjoint_left.mpr (by decide))
  have hentries : (t.lineage "t").entries = [e] := by decide +kernel
  obtain ⟨i, b, x, hb, -, htargets, -, hwinner, hadded, hlosers⟩ :=
    one_start_wins hcontest (by decide) (by decide) (by decide) (by decide) (by decide +kernel)
  obtain rfl : e = x := by
    have hsame : [e] = [x] := hentries.symm.trans hadded
    exact (List.cons.inj hsame).1
  match i, hb with
  | 0, hb =>
    obtain rfl := Option.some.inj hb
    cases htargets
  | 1, hb =>
    obtain rfl := Option.some.inj hb
    exact ⟨hentries, hwinner, hlosers 0 _ rfl (by decide)⟩

/-! ## Starts that do not compete -/

/-- All starts of a contest succeed. The record holds what it has held before, except that a start
by force reverts its rivals, and then the entry of each of them once, in the order of the commits. -/
structure AllWin (table : Text) (site : Site) (bids : List Bid) (moves : List Move) : Prop where
  succeeds : ∀ (i : Nat) (b : Bid), bids[i]? = some b → ∃ k ∈ won table site bids moves,
    k.client = i ∧ k.entry.sources = b.sources ∧ k.entry.targets = b.targets ∧
      (ended table site bids moves).clients[i]? = some ⟨b.call table, .done (.ok k.entry)⟩
  once : ((won table site bids moves).map Commit.client).Perm (List.range bids.length)
  record : ∃ base, List.Forall₂ (Entry.Yields (Bid.claims bids))
      (site.memory.read table).lineage.entries base ∧
    ((ended table site bids moves).lineage table).entries =
      base ++ (won table site bids moves).map Commit.entry
  unforced : (∀ b ∈ bids, b.force = true →
      (site.memory.read table).lineage.rivals b.sources = []) →
    ((ended table site bids moves).lineage table).entries =
      (site.memory.read table).lineage.entries ++ (won table site bids moves).map Commit.entry

theorem overlaps_of_disjoint (hsources : ∀ b ∈ bids, b.sources ≠ [])
    (hdisjoint : bids.Pairwise fun b d => b.sources.Disjoint d.sources) {i j : Nat} {b d : Bid}
    (hb : bids[i]? = some b) (hd : bids[j]? = some d) (hij : i ≠ j) :
    overlaps d.sources b.sources = false := by
  refine overlaps_eq_false_iff.mpr ⟨fun hempty => ?_, ?_⟩
  · exact hsources d (List.mem_of_getElem? hd) hempty.1
  · exact pairwise_of_ne (fun _ _ => List.disjoint_symm) hdisjoint hd hb hij.symm

/-- The commits are of different clients. If one of these has not committed, the commits are fewer
than the clients. -/
theorem Underway.length_lt {ks : List Commit} {t : Traffic}
    (h : Underway table site bids moves ks t) {i : Nat} {b : Bid} (hb : bids[i]? = some b)
    (hnone : ∀ k ∈ ks, k.client ≠ i) : ks.length < bids.length := by
  have hnodup : (i :: ks.map Commit.client).Nodup := by
    refine List.nodup_cons.mpr ⟨fun hmem => ?_, h.once⟩
    obtain ⟨k, hk, hclient⟩ := List.mem_map.mp hmem
    exact hnone k hk hclient
  have hsub : i :: ks.map Commit.client ⊆ List.range bids.length := by
    intro j hj
    rw [List.mem_range]
    rcases List.mem_cons.mp hj with rfl | hj
    · exact (List.getElem?_eq_some_iff.mp hb).1
    · obtain ⟨k, hk, rfl⟩ := List.mem_map.mp hj
      obtain ⟨d, hd, -⟩ := h.made k hk
      exact (List.getElem?_eq_some_iff.mp hd).1
  have hle := (List.subperm_of_subset hnodup hsub).length_le
  rwa [List.length_cons, List.length_map, List.length_range] at hle

/-- Starts that do not compete with each other are made at the same time, each of them acceptable in
itself and with as many attempts as there are starts. However they are interleaved, all succeed. -/
theorem all_starts_win (h : Contest table site bids moves) (hsources : ∀ b ∈ bids, b.sources ≠ [])
    (hdisjoint : bids.Pairwise fun b d => b.sources.Disjoint d.sources)
    (hattempts : ∀ b ∈ bids, (bids.length : Int) ≤ b.attempts)
    (hcomplete : ∀ c ∈ (ended table site bids moves).clients, c.phase.result? ≠ none) :
    AllWin table site bids moves := by
  have hfair : Fair bids := fun _ _ _ _ hb hd hij _ =>
    overlaps_of_disjoint hsources hdisjoint hb hd hij
  have hended := h.ended hfair
  have hwins : ∀ (i : Nat) (b : Bid), bids[i]? = some b → ∃ k ∈ won table site bids moves,
      k.client = i ∧ k.entry.sources = b.sources ∧ k.entry.targets = b.targets ∧
        (ended table site bids moves).clients[i]? = some ⟨b.call table, .done (.ok k.entry)⟩ := by
    intro i b hb
    rcases h.outcome hfair hcomplete hb with
      ⟨k, hk, rfl, hplace⟩ | ⟨hnone, ⟨p, hp, ⟨k, hk, hoverlap⟩, -⟩ | hlost⟩
    · obtain ⟨d, hd, hsources', htargets, -⟩ := hended.made k hk
      obtain rfl : b = d := Option.some.inj (hb.symm.trans hd)
      exact ⟨k, hk, rfl, hsources', htargets, hplace⟩
    · have hk := hp.subset hk
      obtain ⟨d, hd, hsources', -⟩ := hended.made k hk
      rw [hsources', overlaps_of_disjoint hsources hdisjoint hb hd (hnone k hk).symm] at hoverlap
      cases hoverlap
    · have hfew := hended.length_lt hb hnone
      have hmany := hattempts b (List.mem_of_getElem? hb)
      omega
  constructor
  case succeeds => exact hwins
  case once =>
    refine (List.perm_ext_iff_of_nodup hended.once List.nodup_range).mpr fun i => ?_
    rw [List.mem_range]
    constructor
    · intro hi
      obtain ⟨k, hk, rfl⟩ := List.mem_map.mp hi
      obtain ⟨b, hb, -⟩ := hended.made k hk
      exact (List.getElem?_eq_some_iff.mp hb).1
    · intro hi
      obtain ⟨k, hk, hclient, -⟩ := hwins i bids[i] (List.getElem?_eq_getElem hi)
      exact List.mem_map.mpr ⟨k, hk, hclient⟩
  case record => exact hended.record.gains.entries
  case unforced =>
    intro hnone
    refine hended.record.gains.entries_eq fun sources hclaim => ?_
    obtain ⟨b, hb, rfl⟩ := List.mem_map.mp hclaim
    obtain ⟨hb, hforced⟩ := List.mem_filter.mp hb
    exact hnone b hb hforced

/-- A call fails for lost writes only if the record has been changed behind its back as often as it
may attempt a write, between its first reading and its last write. So starts that do not compete
with each other, each with as many attempts as there are starts, all succeed. -/
theorem retries_lose_to_progress (hrecord : (site.memory.read table).lineage.table = table) :
    (∀ (before moves : List Move) (request : Request) (attempts generations : Int) (c : Client)
        (f : Failure),
      let t := (idle site).run table before
      let begun := t.act table (.enter request attempts generations)
      (∀ chance, .proceed t.clients.length chance ∈ moves →
        ∀ g, chance.outage? = some g → g.isExhausted = false) →
      (begun.run table moves).clients[t.clients.length]? = some c →
      c.phase = Call.fail f → f.isExhausted = true →
      Interfered table begun t.clients.length ⟨table, request, attempts, generations⟩ f moves) ∧
    ∀ (bids : List Bid) (moves : List Move), Contest table site bids moves →
      (∀ b ∈ bids, b.sources ≠ []) → (bids.Pairwise fun b d => b.sources.Disjoint d.sources) →
      (∀ b ∈ bids, (bids.length : Int) ≤ b.attempts) →
      (∀ c ∈ (ended table site bids moves).clients, c.phase.result? ≠ none) →
      AllWin table site bids moves := by
  constructor
  · intro before moves request attempts generations c f t begun hup hc hfail hf
    exact exhausted_interfered hrecord rfl hup hc hfail hf
  · intro bids moves hcontest hsources hdisjoint hattempts hcomplete
    exact all_starts_win hcontest hsources hdisjoint hattempts hcomplete

/-- A start is about to write. -/
def outpaced : List Move := [.enter (.start ["a"] ["b"] false) 5 2] ++ Move.answers 0 5 "1"

/-- Another one loses its first write to it, and its second one to the removal of the record. -/
def spent : List Move :=
  Move.answers 1 5 "2" ++ Move.answers 0 1 "1" ++ Move.answers 1 4 "2" ++ [.drop] ++
    Move.answers 1 1 "2"

/-- A call has failed for lost writes. -/
def isOutrun (phase : Phase) : Bool :=
  match phase with
  | .done (.error f) => f.isExhausted
  | _ => false

theorem fail_of_isOutrun {phase : Phase} (h : isOutrun phase = true) :
    ∃ f, phase = Call.fail f ∧ f.isExhausted = true := by
  unfold isOutrun at h
  split at h
  · exact ⟨_, rfl, h⟩
  · cases h

/-- Two starts for different segments. -/
def neighbours : List Bid := [⟨["a"], ["b"], false, 2, 2⟩, ⟨["x"], ["y"], false, 2, 2⟩]

/-- Both are about to write when the second one does. The first one loses its write and repeats
it. -/
def repeating : List Move := Move.answers 0 5 "1" ++ Move.answers 1 6 "2" ++ Move.answers 0 5 "1"

/-- With two attempts the one start fails after both are lost, while each of the two neighbours
succeeds. -/
theorem retries_lose_to_progress_spent :
    let site := Site.holding "t" .append ["a", "x"]
    let begun := ((idle site).run "t" outpaced).act "t" (.enter (.start ["x"] ["y"] false) 2 2)
    let call : Call := ⟨"t", .start ["x"] ["y"] false, 2, 2⟩
    (∃ f, f.isExhausted = true ∧ Interfered "t" begun 1 call f spent) ∧
      AllWin "t" site neighbours repeating := by
  intro site begun call
  obtain ⟨hinterfered, hwin⟩ :=
    retries_lose_to_progress (rfl : (site.memory.read "t").lineage.table = "t")
  have hcontest : Contest "t" site neighbours repeating := by
    refine .of_named rfl ?_ ?_ (by decide +kernel)
      (by decide : ∀ m ∈ repeating, m.isNamed ["1", "2"] = true) (by decide) (by decide)
    · simp only [neighbours, List.forall_mem_cons]
      exact ⟨⟨rfl, rfl⟩, ⟨rfl, rfl⟩, fun b hb => absurd hb List.not_mem_nil⟩
    · exact List.pairwise_pair.mpr (List.disjoint_left.mpr (by decide))
  refine ⟨?_, ?_⟩
  · have hlength : ((idle site).run "t" outpaced).clients.length = 1 := by decide +kernel
    have hspent := hinterfered outpaced spent (.start ["x"] ["y"] false) 2 2
    dsimp only at hspent
    rw [hlength] at hspent
    have hlost : ((begun.run "t" spent).clients[1]?.any fun c => isOutrun c.phase) = true := by
      decide +kernel
    have hown : ∀ chance, .proceed 1 chance ∈ spent →
        ∀ g, chance.outage? = some g → g.isExhausted = false := by
      intro chance hmem g hg
      obtain rfl : chance = ⟨"2", "", none⟩ := by simpa [spent, Move.answers] using hmem
      cases hg
    rw [Option.any_eq_true] at hlost
    obtain ⟨c, hc, houtrun⟩ := hlost
    obtain ⟨f, hphase, hexhausted⟩ := fail_of_isOutrun houtrun
    exact ⟨f, hexhausted, hspent c f hown hc hphase hexhausted⟩
  · refine hwin neighbours repeating hcontest (by decide) ?_ (by decide) (by decide +kernel)
    exact List.pairwise_pair.mpr (List.disjoint_left.mpr (by decide))

end Traffic

end SegmentSwap
