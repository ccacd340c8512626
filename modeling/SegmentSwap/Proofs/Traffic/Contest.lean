import SegmentSwap.Proofs.Lineage.Gains
import SegmentSwap.Proofs.Traffic.Alone
import SegmentSwap.Proofs.Traffic.Atomicity
import SegmentSwap.Proofs.Traffic.Overwriting

/-!
# Starts that are made at the same time

Any number of clients start replacements on a table at the same time, each of which would be
accepted if it were the only one. Nobody else writes, and the registry stays as it is. Whatever the
order of their answers, each of these calls commits, is turned down for entries that others of them
have committed before, or has lost its writes to as many commits as it has attempts.
-/

namespace SegmentSwap

/-- A start that a client is going to make. -/
structure Bid where
  sources : List Text
  targets : List Text
  force : Bool
  attempts : Int
  generations : Int
  deriving DecidableEq, Repr

namespace Bid

/-- What the client asks for. -/
def request (b : Bid) : Request := .start b.sources b.targets b.force

/-- The call of the client. -/
def call (table : Text) (b : Bid) : Call := ⟨table, b.request, b.attempts, b.generations⟩

/-- The client begins its call. -/
def move (b : Bid) : Move := .enter b.request b.attempts b.generations

/-- Against the record and the registry of a site the start passes all its checks. -/
structure Acceptable (table : Text) (s : Site) (b : Bid) : Prop where
  shape : Check.request table b.sources b.targets = .ok ()
  checks : (b.call table).checkStart b.sources b.targets b.force (s.memory.read table).lineage
    (s.registry.segments table) = .ok ()

/-- The sources that are claimed by force. -/
def claims (bids : List Bid) : List (List Text) := (bids.filter Bid.force).map Bid.sources

end Bid

/-- Whether a client begins a call with a move. -/
def Move.isEnter : Move → Bool
  | .enter .. => true
  | _ => false

/-- Whether a client gets an answer with which no service fails, and its own name as an id. -/
def Move.isNamed (names : List Text) : Move → Bool
  | .proceed client chance => chance.outage?.isNone && names[client]? == some chance.id
  | _ => false

/-- The entry that a commit adds or changes. -/
def Commit.entry (k : Commit) : Entry := k.plan.entry

namespace Traffic

/-- The states that a run goes through, the first and the last one included. -/
def states (table : Text) : List Move → Traffic → List Traffic
  | [], t => [t]
  | m :: moves, t => t :: states table moves (t.act table m)

/-- All clients have begun their calls and none has got an answer. -/
def opened (table : Text) (site : Site) (bids : List Bid) : Traffic :=
  (idle site).run table (bids.map Bid.move)

/-- Starts with different targets are made at the same time on a table, each of them acceptable in
itself. Meanwhile nobody else writes, the registry stays as it is, all services are in order, and
the ids that the clients are given are new. -/
structure Contest (table : Text) (site : Site) (bids : List Bid) (moves : List Move) : Prop where
  record : (site.memory.read table).lineage.table = table
  acceptable : ∀ b ∈ bids, b.Acceptable table site
  apart : bids.Pairwise fun b d => b.targets.Disjoint d.targets
  alone : ∀ m ∈ moves, m.isDrop = false ∧ m.isEnter = false
  listed : ∀ t ∈ (opened table site bids).states table moves,
    t.site.registry.segments table = site.registry.segments table
  up : ∀ client chance, .proceed client chance ∈ moves → chance.outage? = none
  fresh : ∀ client chance, .proceed client chance ∈ moves →
    chance.id ∉ (site.memory.read table).lineage.ids
  distinct : ∀ i chance j chance', .proceed i chance ∈ moves → .proceed j chance' ∈ moves →
    chance.id = chance'.id → i = j

/-- Names that are not in the record are ids enough. -/
theorem Contest.of_named {table : Text} {site : Site} {bids : List Bid} {moves : List Move}
    {names : List Text} (hrecord : (site.memory.read table).lineage.table = table)
    (hacceptable : ∀ b ∈ bids, b.Acceptable table site)
    (hapart : bids.Pairwise fun b d => b.targets.Disjoint d.targets)
    (hlisted : ∀ t ∈ (opened table site bids).states table moves,
      t.site.registry.segments table = site.registry.segments table)
    (hnamed : ∀ m ∈ moves, m.isNamed names = true) (hnames : names.Nodup)
    (hfresh : ∀ name ∈ names, name ∉ (site.memory.read table).lineage.ids) :
    Contest table site bids moves := by
  have hanswer : ∀ client chance, .proceed client chance ∈ moves →
      chance.outage? = none ∧ names[client]? = some chance.id := by
    intro client chance hmem
    have hname := hnamed _ hmem
    simpa [Move.isNamed] using hname
  refine ⟨hrecord, hacceptable, hapart, fun m hm => ?_, hlisted, ?_, ?_, ?_⟩
  · have hname := hnamed m hm
    cases m with
    | proceed client chance => exact ⟨rfl, rfl⟩
    | _ => cases hname
  · exact fun client chance hmem => (hanswer client chance hmem).1
  · intro client chance hmem
    exact hfresh _ (List.mem_of_getElem? (hanswer client chance hmem).2)
  · intro i chance j chance' hi hj hid
    obtain ⟨-, hname⟩ := hanswer i chance hi
    obtain ⟨-, hname'⟩ := hanswer j chance' hj
    obtain ⟨hlt, -⟩ := List.getElem?_eq_some_iff.mp hname
    exact (List.getElem?_inj hlt hnames).mp (by rw [hname, hname', hid])

end Traffic

/-- What has been read is a first reading and what some commits have made of it. -/
structure Versioned.After (first : Versioned) (claims : List (List Text)) (ks : List Commit)
    (read : Versioned) : Prop where
  table : read.lineage.table = first.lineage.table
  gains : first.lineage.Gains claims (ks.map Commit.entry) read.lineage
  version : read.version? = Version.after ks.length first.version?

/-- How the call of a bid stands after some commits. -/
inductive Phase.Bidding (table : Text) (first : Versioned) (claims : List (List Text))
    (minted : Text → Prop) (ks : List Commit) (client : Nat) (b : Bid) : Phase → Prop where
  | minting : Bidding table first claims minted ks client b (.minting b.sources b.targets b.force)
  | configuring {id : Text} (hid : minted id) :
    Bidding table first claims minted ks client b (.configuring id b.sources b.targets b.force)
  | reading {ticket : Ticket} {n : Nat} (hid : minted ticket.id) (hn : n ≤ ks.length + 1) :
    Bidding table first claims minted ks client b
      (.reading ⟨.start ticket b.sources b.targets b.force, n⟩)
  | surveying {ticket : Ticket} {n : Nat} {read : Versioned} {p : List Commit}
      (hid : minted ticket.id) (hp : p <+: ks) (hread : first.After claims p read)
      (hn : n ≤ p.length + 1) :
    Bidding table first claims minted ks client b
      (.surveying ⟨.start ticket b.sources b.targets b.force, n⟩ ticket b.sources b.targets b.force
        read)
  | dating {ticket : Ticket} {n : Nat} {read : Versioned} {p : List Commit}
      {registered : List Text} (hid : minted ticket.id) (hp : p <+: ks)
      (hread : first.After claims p read) (hn : n ≤ p.length + 1)
      (hclear : ∀ k ∈ p, overlaps k.entry.sources b.sources = false) :
    Bidding table first claims minted ks client b
      (.dating ⟨.start ticket b.sources b.targets b.force, n⟩ ticket b.sources b.targets read
        registered)
  | writing {ticket : Ticket} {n : Nat} {read : Versioned} {p : List Commit}
      {registered : List Text} {stamp : Text} {plan : Plan} (hid : minted ticket.id)
      (hp : p <+: ks) (hread : first.After claims p read) (hn : n ≤ p.length + 1)
      (hclear : ∀ k ∈ p, overlaps k.entry.sources b.sources = false)
      (hplan : (b.call table).StartPlan ticket b.sources b.targets read registered stamp plan) :
    Bidding table first claims minted ks client b
      (.writing ⟨.start ticket b.sources b.targets b.force, n⟩ plan)
  | committed {phase : Phase} {k : Commit} (hk : k ∈ ks) (hclient : k.client = client)
      (hphase : phase.committed? = some k.entry) :
    Bidding table first claims minted ks client b phase
  | refused {p : List Commit} (hp : p <+: ks)
      (hcompetes : ∃ k ∈ p, overlaps k.entry.sources b.sources = true) :
    Bidding table first claims minted ks client b (Call.refuse (.contested table b.sources
      (((p.map Commit.entry).filter fun x => overlaps x.sources b.sources).map Entry.id)))
  | exhausted (hlost : b.attempts ≤ ks.length) :
    Bidding table first claims minted ks client b
      (Call.fail (.exhausted b.request.action table b.attempts))

/-- What the commit of another client is to a bid. -/
structure Bid.Faces (b : Bid) (registered : List Text) (minted : Text → Prop) (k : Commit) :
    Prop where
  apart : b.targets.Disjoint k.entry.targets
  hidden : k.entry.targets.Disjoint registered
  fair : b.force = true → overlaps k.entry.sources b.sources = false
  distinct : ∀ id, minted id → k.entry.id ≠ id

namespace Phase

variable {table : Text} {first read : Versioned} {claims : List (List Text)} {minted : Text → Prop}
  {ks : List Commit} {client : Nat} {b : Bid} {phase : Phase} {chance : Chance} {s : Site}

theorem Bidding.mono (h : phase.Bidding table first claims minted ks client b) (k : Commit) :
    phase.Bidding table first claims minted (ks ++ [k]) client b := by
  have hearlier : ∀ p : List Commit, p <+: ks → p <+: ks ++ [k] := fun p hp =>
    hp.trans (List.prefix_append ks [k])
  have hlength : ks.length ≤ (ks ++ [k]).length := by
    rw [List.length_append]
    omega
  cases h with
  | minting => exact .minting
  | configuring hid => exact .configuring hid
  | reading hid hn => exact .reading hid (by omega)
  | surveying hid hp hread hn => exact .surveying hid (hearlier _ hp) hread hn
  | dating hid hp hread hn hclear => exact .dating hid (hearlier _ hp) hread hn hclear
  | writing hid hp hread hn hclear hplan =>
    exact .writing hid (hearlier _ hp) hread hn hclear hplan
  | committed hk hclient hphase =>
    exact .committed (List.mem_append_left [k] hk) hclient hphase
  | refused hp hcompetes => exact .refused (hearlier _ hp) hcompetes
  | exhausted hlost => exact .exhausted (by omega)

/-- The checks of a bid against a record that only other bids have changed: it passes, or it is
turned down for their entries. -/
theorem bidding_survey {ticket : Ticket} {n : Nat} {p : List Commit} {registered : List Text}
    (hid : minted ticket.id) (hp : p <+: ks) (hread : first.After claims p read)
    (hn : n ≤ p.length + 1) (hfaces : ∀ k ∈ ks, b.Faces registered minted k)
    (hok : (b.call table).checkStart b.sources b.targets b.force first.lineage registered =
      .ok ()) :
    ((b.call table).afterSurvey ⟨.start ticket b.sources b.targets b.force, n⟩ ticket b.sources
      b.targets b.force read (.ok registered)).Bidding table first claims minted ks client b := by
  have hfaces : ∀ k ∈ p, b.Faces registered minted k := fun k hk => hfaces k (hp.subset hk)
  have hapart : ∀ x ∈ p.map Commit.entry, b.targets.Disjoint x.targets := by
    intro x hx
    obtain ⟨k, hk, rfl⟩ := List.mem_map.mp hx
    exact (hfaces k hk).apart
  have hhidden : ∀ x ∈ p.map Commit.entry, x.targets.Disjoint registered := by
    intro x hx
    obtain ⟨k, hk, rfl⟩ := List.mem_map.mp hx
    exact (hfaces k hk).hidden
  unfold Call.afterSurvey
  dsimp only
  by_cases hclear : ∀ k ∈ p, overlaps k.entry.sources b.sources = false
  · have hchecked := hread.gains.checkStart_ok hapart hhidden hok (by
      intro x hx
      obtain ⟨k, hk, rfl⟩ := List.mem_map.mp hx
      exact hclear k hk)
    rw [hchecked]
    exact .dating hid hp hread hn hclear
  · push Not at hclear
    obtain ⟨k, hk, hoverlap⟩ := hclear
    have hoverlap : overlaps k.entry.sources b.sources = true := by simpa using hoverlap
    have hforce : b.force = false := by
      cases hforce : b.force with
      | false => rfl
      | true =>
        rw [(hfaces k hk).fair hforce] at hoverlap
        cases hoverlap
    have hchecked := hread.gains.checkStart_contested hapart hhidden hok hforce
      ⟨k.entry, List.mem_map_of_mem hk, hoverlap⟩
    rw [hchecked]
    exact .refused hp ⟨k, hk, hoverlap⟩

/-- The id of a bid is not in use. -/
theorem bidding_date {ticket : Ticket} {n : Nat} {p : List Commit} {registered listed : List Text}
    (stamp : Text) (hid : minted ticket.id) (hp : p <+: ks) (hread : first.After claims p read)
    (hn : n ≤ p.length + 1) (hclear : ∀ k ∈ p, overlaps k.entry.sources b.sources = false)
    (hfaces : ∀ k ∈ ks, b.Faces listed minted k)
    (hfresh : ∀ id, minted id → id ∉ first.lineage.ids) :
    ((b.call table).afterDate ⟨.start ticket b.sources b.targets b.force, n⟩ ticket b.sources
      b.targets read registered stamp).Bidding table first claims minted ks client b := by
  have hnew : ticket.id ∉ read.lineage.ids := by
    rw [hread.gains.ids_eq, List.mem_append, not_or]
    refine ⟨hfresh _ hid, fun hmem => ?_⟩
    obtain ⟨x, hx, hxid⟩ := List.mem_map.mp hmem
    obtain ⟨k, hk, rfl⟩ := List.mem_map.mp hx
    exact (hfaces k (hp.subset hk)).distinct _ hid hxid
  unfold Call.afterDate
  rcases Call.planStart_cases (b.call table) ticket b.sources b.targets read registered stamp with
    ⟨htaken, -⟩ | ⟨-, plan, hplanned, hplan⟩
  · exact absurd htaken hnew
  · rw [hplanned]
    exact .writing hid hp hread hn hclear hplan

/-- An answer that is not the outcome of a write. -/
theorem Bidding.look (h : phase.Bidding table first claims minted ks client b)
    (hwrite : ∀ a plan, phase ≠ .writing a plan) (hup : chance.outage? = none)
    (hminted : minted chance.id) (hrecord : first.After claims ks (s.memory.read table))
    (hok : (b.call table).checkStart b.sources b.targets b.force first.lineage
      (s.registry.segments table) = .ok ())
    (hfresh : ∀ id, minted id → id ∉ first.lineage.ids)
    (hfaces : phase.committed? = none → ∀ k ∈ ks, b.Faces (s.registry.segments table) minted k) :
    (Call.step (Site.services chance) (b.call table) phase s).1.Bidding table first claims minted
      ks client b := by
  cases h with
  | minting => exact .configuring hminted
  | configuring hid =>
    rw [Call.step_configuring hup]
    exact .reading hid (Nat.le_add_left 1 _)
  | reading hid hn =>
    rw [Call.step_reading hup]
    exact .surveying hid List.prefix_rfl hrecord hn
  | surveying hid hp hread hn =>
    rw [Call.step_surveying hup]
    exact bidding_survey hid hp hread hn (hfaces rfl) hok
  | dating hid hp hread hn hclear =>
    exact bidding_date chance.stamp hid hp hread hn hclear (hfaces rfl) hfresh
  | writing => exact absurd rfl (hwrite _ _)
  | committed hk hclient hphase =>
    refine .committed hk hclient ?_
    rw [committed?_step chance _ s hwrite]
    exact hphase
  | refused hp hcompetes => exact .refused hp hcompetes
  | exhausted hlost => exact .exhausted hlost

/-- A call that has committed and returned has returned the entry that it has committed. -/
theorem eq_done_of_committed {e : Entry} (hcommitted : phase.committed? = some e)
    (hreturned : phase.result? ≠ none) : phase = .done (.ok e) := by
  cases phase with
  | done r =>
    cases r with
    | ok x =>
      obtain rfl := Option.some.inj hcommitted
      rfl
    | error f => cases hcommitted
  | _ => exact absurd rfl hreturned

/-- A write is lost to a commit that has come after the reading. So there have been as many commits
as attempts. -/
theorem bidding_lost {chance : Chance} {ticket : Ticket} {n : Nat} {p : List Commit} {next : Phase}
    (hup : chance.outage? = none) (hid : minted ticket.id) (hlt : p.length < ks.length)
    (hn : n ≤ p.length + 1)
    (h : (b.call table).Loses chance ⟨.start ticket b.sources b.targets b.force, n⟩ next) :
    next.Bidding table first claims minted ks client b := by
  cases h with
  | again =>
    have hnext : n + 1 ≤ ks.length + 1 := by omega
    exact .reading hid hnext
  | spent _ hlast =>
    have hlast : b.attempts ≤ n := hlast
    exact .exhausted (by omega)
  | outage hf =>
    rw [hup] at hf
    cases hf

end Phase

namespace Traffic

variable {table : Text} {site : Site} {bids : List Bid} {moves all : List Move} {t : Traffic}
  {ks : List Commit} {m : Move} {i : Nat} {b : Bid} {c : Client} {k : Commit}

/-- The ids that a client is given. -/
def Minted (moves : List Move) (client : Nat) (id : Text) : Prop :=
  ∃ chance, .proceed client chance ∈ moves ∧ chance.id = id

/-- What holds of any two bids holds in either order. -/
theorem pairwise_of_ne {R : Bid → Bid → Prop} (hR : ∀ b d, R b d → R d b) (h : bids.Pairwise R)
    {j : Nat} {d : Bid} (hi : bids[i]? = some b) (hj : bids[j]? = some d) (hij : i ≠ j) :
    R b d := by
  obtain ⟨hi', rfl⟩ := List.getElem?_eq_some_iff.mp hi
  obtain ⟨hj', rfl⟩ := List.getElem?_eq_some_iff.mp hj
  rcases Nat.lt_or_gt_of_ne hij with hlt | hlt
  · exact List.pairwise_iff_getElem.mp h i j hi' hj' hlt
  · exact hR _ _ (List.pairwise_iff_getElem.mp h j i hj' hi' hlt)

/-- Who bids with force competes with no other bid. -/
def Fair (bids : List Bid) : Prop :=
  ∀ (i j : Nat) (b d : Bid), bids[i]? = some b → bids[j]? = some d → i ≠ j → b.force = true →
    overlaps d.sources b.sources = false

/-- What holds while the calls of some bids are answered, after some commits. -/
structure Underway (table : Text) (site : Site) (bids : List Bid) (all : List Move)
    (ks : List Commit) (t : Traffic) : Prop where
  record : (site.memory.read table).After (Bid.claims bids) ks (t.site.memory.read table)
  calls : t.clients.map Client.call = bids.map (Bid.call table)
  standing : ∀ (i : Nat) (b : Bid) (c : Client), bids[i]? = some b → t.clients[i]? = some c →
    c.phase.Bidding table (site.memory.read table) (Bid.claims bids) (Minted all i) ks i b
  made : ∀ k ∈ ks, ∃ b, bids[k.client]? = some b ∧ k.entry.sources = b.sources ∧
    k.entry.targets = b.targets ∧ Minted all k.client k.entry.id
  committed : ∀ k ∈ ks, ∃ c, t.clients[k.client]? = some c ∧ c.phase.committed? = some k.entry
  once : (ks.map Commit.client).Nodup
  clear : ks.Pairwise fun k k' => overlaps k.entry.sources k'.entry.sources = false

theorem getElem?_proceed_of_ne (chance : Chance) {j : Nat} (hj : j ≠ i) :
    (t.proceed i chance).clients[j]? = t.clients[j]? := by
  cases hc : t.clients[i]? with
  | none => rw [proceed_absent chance hc]
  | some c => rw [clients_proceed chance hc, List.getElem?_set_ne hj.symm]

theorem calls_proceed (t : Traffic) (client : Nat) (chance : Chance) :
    (t.proceed client chance).clients.map Client.call = t.clients.map Client.call := by
  cases hc : t.clients[client]? with
  | none => rw [proceed_absent chance hc]
  | some c =>
    obtain ⟨hlt, rfl⟩ := List.getElem?_eq_some_iff.mp hc
    have hlt' : client < (t.clients.map Client.call).length := by rwa [List.length_map]
    have hcall : t.clients[client].call = (t.clients.map Client.call)[client] := by
      rw [List.getElem_map]
    rw [clients_proceed chance hc, List.map_set, hcall, List.set_getElem_self hlt']

theorem Underway.bid (h : Underway table site bids all ks t) (hc : t.clients[i]? = some c) :
    ∃ b, bids[i]? = some b ∧ c.call = b.call table := by
  have hcall : (t.clients.map Client.call)[i]? = some c.call := by
    rw [List.getElem?_map, hc]
    rfl
  rw [h.calls, List.getElem?_map] at hcall
  obtain ⟨b, hb, hcall⟩ := Option.map_eq_some_iff.mp hcall
  exact ⟨b, hb, hcall.symm⟩

/-- A commit is not one of a call that has not committed. -/
theorem Underway.client_ne (h : Underway table site bids all ks t) (hc : t.clients[i]? = some c)
    (hnone : c.phase.committed? = none) (hk : k ∈ ks) : k.client ≠ i := by
  rintro rfl
  obtain ⟨c', hc', hcommitted⟩ := h.committed k hk
  obtain rfl : c' = c := Option.some.inj (hc'.symm.trans hc)
  rw [hnone] at hcommitted
  cases hcommitted

theorem Underway.faces (h : Underway table site bids all ks t) (hcontest : Contest table site bids all)
    (hfair : Fair bids) (hb : bids[i]? = some b) (hc : t.clients[i]? = some c)
    (hnone : c.phase.committed? = none) :
    ∀ k ∈ ks, b.Faces (site.registry.segments table) (Minted all i) k := by
  intro k hk
  have hne := h.client_ne hc hnone hk
  obtain ⟨d, hd, hsources, htargets, chance, hmem, hid⟩ := h.made k hk
  constructor
  case apart =>
    rw [htargets]
    exact pairwise_of_ne (fun _ _ => List.disjoint_symm) hcontest.apart hb hd hne.symm
  case hidden =>
    rw [htargets]
    have hchecks := (hcontest.acceptable d (List.mem_of_getElem? hd)).checks
    exact (Call.checkStart_eq_ok_iff.mp hchecks).1.2
  case fair =>
    intro hforce
    rw [hsources]
    exact hfair i k.client b d hb hd hne.symm hforce
  case distinct =>
    rintro id ⟨chance', hmem', rfl⟩ heq
    exact hne (hcontest.distinct _ chance _ chance' hmem hmem' (hid.trans heq))

/-- A move that is not an answer to a call leaves the calls and the record as they are. -/
theorem Underway.frame {t' : Traffic} (h : Underway table site bids all ks t)
    (hmemory : t'.site.memory = t.site.memory) (hclients : t'.clients = t.clients) :
    Underway table site bids all ks t' := by
  obtain ⟨hrecord, hcalls, hstanding, hmade, hcommitted, honce, hclear⟩ := h
  refine ⟨?_, ?_, ?_, hmade, ?_, honce, hclear⟩
  · rw [hmemory]
    exact hrecord
  · rw [hclients]
    exact hcalls
  · rw [hclients]
    exact hstanding
  · rw [hclients]
    exact hcommitted

/-- An answer with which a call does not commit. -/
theorem Underway.quiet {chance : Chance} (h : Underway table site bids all ks t)
    (hcontest : Contest table site bids all) (hfair : Fair bids)
    (hlisted : t.site.registry.segments table = site.registry.segments table)
    (hmem : .proceed i chance ∈ all) (hc : t.clients[i]? = some c)
    (hk : t.commit? (.proceed i chance) = none) :
    Underway table site bids all ks (t.proceed i chance) := by
  have hmemory : (t.proceed i chance).site.memory = t.site.memory := memory_of_quiet table hk rfl
  obtain ⟨b, hb, hcall⟩ := h.bid hc
  have hstanding := h.standing i b c hb hc
  have hclients := clients_proceed chance hc
  have hnext : (Call.step (Site.services chance) c.call c.phase t.site).1.Bidding table
      (site.memory.read table) (Bid.claims bids) (Minted all i) ks i b := by
    by_cases hwriting : ∃ a plan, c.phase = .writing a plan
    · obtain ⟨a, plan, hphase⟩ := hwriting
      obtain ⟨next, hnext, hstep⟩ := step_of_lost hc hphase hk
      rw [hcall] at hnext
      rw [hstep]
      have hstale : ¬ Version.agree (t.site.memory.version? plan.lineage.table) plan.expected =
          true := by
        intro hagree
        rw [commit?_of_writing chance hc hphase hagree] at hk
        cases hk
      rw [hphase] at hstanding
      cases hstanding with
      | committed _ _ hcommitted => cases hcommitted
      | @writing ticket n read p registered stamp _ hid hp hread hn hclear hplan =>
        have hlt : p.length < ks.length := by
          -- if it had read the outcome of all commits, then its write would not have been lost
          refine Nat.lt_of_le_of_ne hp.length_le fun hlength => hstale ?_
          rw [hplan.table, hread.table, hcontest.record, Memory.version?_eq, h.record.version,
            hplan.expected, hread.version, hlength]
          exact Version.agree_iff.mpr rfl
        exact Phase.bidding_lost (hcontest.up i chance hmem) hid hlt hn hnext
    · rw [hcall]
      refine hstanding.look (fun a plan hphase => hwriting ⟨a, plan, hphase⟩)
        (hcontest.up i chance hmem) ⟨chance, hmem, rfl⟩ h.record ?_ ?_ fun hnone => ?_
      · rw [hlisted]
        exact (hcontest.acceptable b (List.mem_of_getElem? hb)).checks
      · rintro id ⟨chance', hmem', rfl⟩
        exact hcontest.fresh i chance' hmem'
      · rw [hlisted]
        exact h.faces hcontest hfair hb hc hnone
  constructor
  case record =>
    rw [hmemory]
    exact h.record
  case calls => rw [calls_proceed, h.calls]
  case standing =>
    intro j d c' hd hc'
    by_cases hj : j = i
    · subst hj
      obtain rfl : b = d := Option.some.inj (hb.symm.trans hd)
      rw [getElem?_proceed_self chance hc] at hc'
      obtain rfl := Option.some.inj hc'
      exact hnext
    · rw [getElem?_proceed_of_ne chance hj] at hc'
      exact h.standing j d c' hd hc'
  case made => exact h.made
  case committed =>
    intro k hk'
    obtain ⟨c', hc', hcommitted⟩ := h.committed k hk'
    by_cases hj : k.client = i
    · rw [hj] at hc' ⊢
      obtain rfl : c' = c := Option.some.inj (hc'.symm.trans hc)
      refine ⟨_, getElem?_proceed_self chance hc, ?_⟩
      rw [committed?_of_quiet hc hk]
      exact hcommitted
    · exact ⟨c', by rw [getElem?_proceed_of_ne chance hj]; exact hc', hcommitted⟩
  case once => exact h.once
  case clear => exact h.clear

/-- An answer with which a call commits. The record is the one that it has read, so its entry
competes with none of those that have been committed before. -/
theorem Underway.commit {chance : Chance} (h : Underway table site bids all ks t)
    (hcontest : Contest table site bids all) (hc : t.clients[i]? = some c)
    (hk : t.commit? (.proceed i chance) = some k) :
    Underway table site bids all (ks ++ [k]) (t.proceed i chance) := by
  obtain ⟨hclient, hphase, -⟩ := step_of_commit hc hk
  obtain ⟨-, -, -, -, -, hagree⟩ := commit?_eq_some hk
  obtain ⟨hnone, hcommitted⟩ := committed?_of_commit hc hk
  have hmemory : (t.act table (.proceed i chance)).site.memory =
      t.site.memory.put k.plan.lineage (.next k.plan.expected) := memory_of_commit hk
  obtain ⟨b, hb, -⟩ := h.bid hc
  have hstanding := h.standing i b c hb hc
  have hothers : ∀ k' ∈ ks, k'.client ≠ i := fun k' hk' => h.client_ne hc hnone hk'
  have hnew := getElem?_proceed_self chance hc
  obtain ⟨client, attempt, plan⟩ := k
  obtain rfl : client = i := hclient
  rw [hphase] at hstanding
  cases hstanding with
  | committed _ _ hphase' => cases hphase'
  | @writing ticket n read p registered stamp _ hid hp hread hn hclear hplan =>
    have htable : plan.lineage.table = table := by
      rw [hplan.table, hread.table, hcontest.record]
    -- versions count the commits, so the write has found the record that was read
    have hlatest : p = ks := by
      rw [htable, hplan.expected, Memory.version?_eq, h.record.version, hread.version,
        Version.agree_after_after_iff hp.length_le] at hagree
      exact hp.eq_of_length hagree.symm
    subst hlatest
    have hentry : Commit.entry ⟨client, ⟨.start ticket b.sources b.targets b.force, n⟩, plan⟩ =
        ⟨ticket.id, b.sources, b.targets, .inProgress, stamp⟩ := hplan.entry
    have hwritten : (t.proceed client chance).site.memory.read table =
        ⟨plan.lineage, some (.next plan.expected)⟩ := by
      show (t.act table (.proceed client chance)).site.memory.read table = _
      rw [hmemory, ← htable, Memory.read_put_self]
    -- a start that is not forced has found no rivals at all
    have hclaim : read.lineage.rivals b.sources = [] ∨ b.sources ∈ Bid.claims bids := by
      have hbid := List.mem_of_getElem? hb
      cases hforce : b.force with
      | true =>
        refine .inr (List.mem_map.mpr ⟨b, List.mem_filter.mpr ⟨hbid, hforce⟩, rfl⟩)
      | false =>
        have hchecks := Call.checkStart_eq_ok_iff.mp (hcontest.acceptable b hbid).checks
        have hfirst := hchecks.2.2.resolve_right (by rw [hforce]; exact Bool.false_ne_true)
        refine .inl ?_
        rw [hread.gains.rivals_eq hfirst, List.filter_eq_nil_iff]
        intro x hx
        obtain ⟨k', hk', rfl⟩ := List.mem_map.mp hx
        rw [hclear k' hk']
        exact Bool.false_ne_true
    obtain ⟨mid, hmoves, happends⟩ := hplan.lineage
    have hgains := hread.gains.commit hmoves happends hclaim (by
      intro x hx
      obtain ⟨k', hk', rfl⟩ := List.mem_map.mp hx
      exact hclear k' hk')
    constructor
    case record =>
      rw [hwritten]
      refine ⟨?_, ?_, ?_⟩
      · rw [htable, hcontest.record]
      · rw [List.map_append]
        exact hgains
      · rw [List.length_append, List.length_singleton, Version.after_succ, ← hread.version,
          ← hplan.expected]
    case calls => rw [calls_proceed, h.calls]
    case standing =>
      intro j d c' hd hc'
      by_cases hj : j = client
      · subst hj
        rw [hnew] at hc'
        obtain rfl := Option.some.inj hc'
        exact .committed (List.mem_append_right p (List.mem_singleton_self _)) rfl hcommitted
      · rw [getElem?_proceed_of_ne chance hj] at hc'
        exact (h.standing j d c' hd hc').mono _
    case made =>
      intro k' hk'
      rcases List.mem_append.mp hk' with hk' | hk'
      · exact h.made k' hk'
      · rw [List.mem_singleton.mp hk', hentry]
        exact ⟨b, hb, rfl, rfl, hid⟩
    case committed =>
      intro k' hk'
      rcases List.mem_append.mp hk' with hk' | hk'
      · obtain ⟨c', hc', hcommitted'⟩ := h.committed k' hk'
        refine ⟨c', ?_, hcommitted'⟩
        rw [getElem?_proceed_of_ne chance (hothers k' hk')]
        exact hc'
      · rw [List.mem_singleton.mp hk']
        exact ⟨_, hnew, hcommitted⟩
    case once =>
      rw [List.map_append, List.nodup_append]
      refine ⟨h.once, List.nodup_singleton _, fun j hj j' hj' => ?_⟩
      obtain ⟨k', hk', rfl⟩ := List.mem_map.mp hj
      rw [List.mem_singleton.mp hj']
      exact hothers k' hk'
    case clear =>
      rw [List.pairwise_append]
      refine ⟨h.clear, List.pairwise_singleton _ _, fun k' hk' k'' hk'' => ?_⟩
      rw [List.mem_singleton.mp hk'', hentry]
      exact hclear k' hk'

/-- One move more, and the commits that it makes. -/
theorem Underway.act (h : Underway table site bids all ks t)
    (hcontest : Contest table site bids all) (hfair : Fair bids)
    (hlisted : t.site.registry.segments table = site.registry.segments table) (hm : m ∈ all) :
    Underway table site bids all (ks ++ (t.commit? m).toList) (t.act table m) := by
  obtain ⟨hdrop, henter⟩ := hcontest.alone m hm
  by_cases hproceed : ∃ i chance, m = .proceed i chance
  · obtain ⟨i, chance, rfl⟩ := hproceed
    show Underway table site bids all _ (t.proceed i chance)
    cases hc : t.clients[i]? with
    | none =>
      rw [commit?_absent hc, proceed_absent chance hc]
      show Underway table site bids all (ks ++ []) t
      rwa [List.append_nil]
    | some c =>
      cases hk : t.commit? (.proceed i chance) with
      | some k => exact h.commit hcontest hc hk
      | none =>
        show Underway table site bids all (ks ++ []) (t.proceed i chance)
        rw [List.append_nil]
        exact h.quiet hcontest hfair hlisted hm hc hk
  · push Not at hproceed
    have hnone : t.commit? m = none := by
      cases m with
      | proceed i chance => exact absurd rfl (hproceed i chance)
      | _ => rfl
    obtain ⟨hmemory, -, hclients⟩ := act_frame table t hproceed (by
      rintro request attempts generations rfl
      cases henter) hdrop
    rw [hnone]
    show Underway table site bids all (ks ++ []) _
    rw [List.append_nil]
    exact h.frame hmemory hclients

theorem Underway.run (h : Underway table site bids all ks t)
    (hcontest : Contest table site bids all) (hfair : Fair bids) {moves : List Move}
    (hmoves : ∀ m ∈ moves, m ∈ all)
    (hlisted : ∀ t' ∈ t.states table moves,
      t'.site.registry.segments table = site.registry.segments table) :
    Underway table site bids all (ks ++ commits table moves t) (t.run table moves) := by
  induction moves generalizing t ks with
  | nil =>
    show Underway table site bids all (ks ++ []) t
    rwa [List.append_nil]
  | cons m moves ih =>
    have hnext := h.act hcontest hfair (hlisted t List.mem_cons_self) (hmoves m List.mem_cons_self)
    have hrun := ih hnext (fun m' hm' => hmoves m' (List.mem_cons_of_mem m hm'))
      fun t' ht' => hlisted t' (List.mem_cons_of_mem t ht')
    rw [List.append_assoc] at hrun
    exact hrun

/-- To begin a call does nothing but to add it. -/
theorem run_moves (table : Text) (bids : List Bid) (t : Traffic) :
    t.run table (bids.map Bid.move) = { t with
      clients := t.clients ++ bids.map fun b => ⟨b.call table, (b.call table).begin⟩ } := by
  induction bids generalizing t with
  | nil => simp [run]
  | cons b bids ih =>
    have hcons : t.run table ((b :: bids).map Bid.move) =
        (t.act table b.move).run table (bids.map Bid.move) := rfl
    rw [hcons, ih]
    simp [Traffic.act, Bid.move, Bid.call]

theorem Contest.underway (h : Contest table site bids moves) :
    Underway table site bids moves [] (opened table site bids) := by
  have hopened : opened table site bids =
      ⟨site, bids.map fun b => ⟨b.call table, (b.call table).begin⟩⟩ := run_moves table bids _
  rw [hopened]
  constructor
  case record =>
    refine ⟨rfl, .refl _ _, rfl⟩
  case calls =>
    rw [List.map_map]
    rfl
  case standing =>
    intro i b c hb hc
    rw [List.getElem?_map, hb] at hc
    obtain rfl := Option.some.inj hc
    have hbegin : (b.call table).begin = .minting b.sources b.targets b.force :=
      Call.begin_of_checked rfl (h.acceptable b (List.mem_of_getElem? hb)).shape
    show (b.call table).begin.Bidding _ _ _ _ _ _ _
    rw [hbegin]
    exact .minting
  case made => exact fun k hk => absurd hk List.not_mem_nil
  case committed => exact fun k hk => absurd hk List.not_mem_nil
  case once => exact List.nodup_nil
  case clear => exact List.Pairwise.nil

/-- What a contest leads to. -/
def ended (table : Text) (site : Site) (bids : List Bid) (moves : List Move) : Traffic :=
  (opened table site bids).run table moves

/-- The commits of a contest. -/
def won (table : Text) (site : Site) (bids : List Bid) (moves : List Move) : List Commit :=
  commits table moves (opened table site bids)

theorem Contest.ended (h : Contest table site bids moves) (hfair : Fair bids) :
    Underway table site bids moves (won table site bids moves) (ended table site bids moves) :=
  h.underway.run h hfair (fun _ hm => hm) h.listed

/-- A call that has returned in the end has committed, or it has not and is either turned down for
entries that others have committed, which compete with it, or there have been as many commits as it
has attempts. -/
theorem Contest.outcome (h : Contest table site bids moves) (hfair : Fair bids)
    (hcomplete : ∀ c ∈ (Traffic.ended table site bids moves).clients, c.phase.result? ≠ none)
    (hb : bids[i]? = some b) :
    (∃ k ∈ won table site bids moves, k.client = i ∧
      (Traffic.ended table site bids moves).clients[i]? =
        some ⟨b.call table, .done (.ok k.entry)⟩) ∨
    (∀ k ∈ won table site bids moves, k.client ≠ i) ∧
      ((∃ p, p <+: won table site bids moves ∧
        (∃ k ∈ p, overlaps k.entry.sources b.sources = true) ∧
        (Traffic.ended table site bids moves).clients[i]? = some ⟨b.call table,
          Call.refuse (.contested table b.sources
            (((p.map Commit.entry).filter fun x => overlaps x.sources b.sources).map Entry.id))⟩) ∨
      b.attempts ≤ (won table site bids moves).length) := by
  have hended := h.ended hfair
  have hlength : (Traffic.ended table site bids moves).clients.length = bids.length := by
    have hcalls := congrArg List.length hended.calls
    rwa [List.length_map, List.length_map] at hcalls
  obtain ⟨hlt, -⟩ := List.getElem?_eq_some_iff.mp hb
  rw [← hlength] at hlt
  have hc := List.getElem?_eq_getElem hlt
  have hreturned := hcomplete _ (List.getElem_mem hlt)
  generalize (Traffic.ended table site bids moves).clients[i] = c at hc hreturned
  obtain ⟨d, hd, hcall⟩ := hended.bid hc
  obtain rfl : b = d := Option.some.inj (hb.symm.trans hd)
  have hstanding := hended.standing i b c hb hc
  obtain ⟨call, phase⟩ := c
  obtain rfl : call = b.call table := hcall
  have hplace := hc
  dsimp only at hstanding hreturned
  cases hstanding with
  | committed hk hclient hcommitted =>
    rw [Phase.eq_done_of_committed hcommitted hreturned] at hplace
    exact .inl ⟨_, hk, hclient, hplace⟩
  | refused hp hcompetes =>
    exact .inr ⟨fun k hk => hended.client_ne hc rfl hk, .inl ⟨_, hp, hcompetes, hplace⟩⟩
  | exhausted hlost => exact .inr ⟨fun k hk => hended.client_ne hc rfl hk, .inr hlost⟩
  | _ => exact absurd rfl hreturned

end Traffic

end SegmentSwap
