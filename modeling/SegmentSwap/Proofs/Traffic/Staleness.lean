import SegmentSwap.Proofs.Lineage.Turned
import SegmentSwap.Proofs.Time.Stamp
import SegmentSwap.Proofs.Traffic.Advance
import SegmentSwap.Proofs.Traffic.Filing
import SegmentSwap.Proofs.Traffic.History
import SegmentSwap.Session.World

/-!
# Replacements in progress for too long

An entry is stamped by the attempt that starts it and, while it is in progress, by nobody else. So
the stamp of an entry in progress still tells what its attempt has read off the clock, and those who
ask for the entries in progress since before an instant are told by the readings. The readings are
written down along a run, beside the traffic and not as a part of it.
-/

namespace SegmentSwap

open Time (Instant)

/-- The id of the entry that a job starts. -/
def Job.opened? : Job → Option Text
  | .start ticket _ _ _ => some ticket.id
  | _ => none

theorem Job.opened?_of_entry? {j : Job} {id : Text} (h : j.entry? = some id) : j.opened? = none := by
  cases j with
  | start => cases h
  | finish => rfl
  | revert => rfl

namespace Drafted

variable {mode : Mode} {c : Call} {j : Job} {read : Versioned} {plan : Plan}

/-- A start adds its id behind all others. -/
theorem ids (h : Drafted mode c j read plan) (hl : Exclusive read.lineage) :
    plan.lineage.ids = read.lineage.ids ++ j.opened?.toList := by
  cases h with
  | start hj hvalid hcheck hplan =>
    have hplan := Call.StartPlan.of_ok hplan
    obtain ⟨mid, hmoves, happends⟩ := hplan.lineage
    rw [← hmoves.ids_eq, hj]
    unfold Lineage.ids
    rw [happends.entries, List.map_append, List.map_singleton, hplan.entry]
    rfl
  | ending he hplan =>
    rw [(hplan.moves hl he.running).2.ids_eq, Job.opened?_of_entry? he.id]
    exact (List.append_nil _).symm

/-- What is in progress has been so before, just as it is, or has just been started. -/
theorem mem_running (h : Drafted mode c j read plan) (hl : Exclusive read.lineage) {e : Entry}
    (he : e ∈ plan.lineage.running) :
    e ∈ read.lineage.running ∨ e = plan.entry ∧ j.opened? = some e.id := by
  cases h with
  | start hj hvalid hcheck hplan =>
    have hplan := Call.StartPlan.of_ok hplan
    obtain ⟨mid, hmoves, happends⟩ := hplan.lineage
    rcases happends.mem_running.mp he with hold | rfl
    · exact .inl ((hmoves.mem_running (by decide)).mp hold).1
    · refine .inr ⟨rfl, ?_⟩
      rw [hj, hplan.entry]
      rfl
  | @ending e' stamp plan registered he' hplan =>
    have hgoal : j.goal ≠ .inProgress := by
      rcases Job.goal_of_entry? he'.id with hg | hg <;> rw [hg] <;> decide
    exact .inl (((hplan.moves hl he'.running).2.mem_running hgoal).mp he).1

end Drafted

/-- A move with what the clock shows meanwhile. -/
def Move.dated (now : Instant) : Move → Move
  | .proceed client chance => .proceed client { chance with stamp := now.stamp }
  | m => m

theorem Move.isDrop_dated (now : Instant) (m : Move) : (m.dated now).isDrop = m.isDrop := by
  cases m with
  | proceed => simp only [dated, isDrop]
  | _ => rfl

/-- Whether a call asks for the time. -/
def Phase.asksTime : Phase → Bool
  | .dating .. | .closing .. => true
  | _ => false

/-- A start that is about to write has stamped its entry with a reading of the clock. -/
def Phase.StampedBy (reading : Instant) : Phase → Prop
  | .writing a plan => a.job.opened?.isSome = true →
    reading.isRepresentable = true ∧ plan.entry.stamp = reading.stamp
  | _ => True

namespace Phase

variable {c : Call} {reading now : Instant}

theorem stampedBy_begin (c : Call) (reading : Instant) : c.begin.StampedBy reading := by
  unfold Call.begin
  split
  · split <;> trivial
  · trivial
  · trivial

theorem stampedBy_queue (e : Entry) (batches : List Batch) (reading : Instant) :
    (Call.queue e batches).StampedBy reading := by
  induction batches with
  | nil => trivial
  | cons first rest ih =>
    unfold Call.queue
    split
    · exact ih
    · trivial

theorem stampedBy_lost {chance : Chance} {a : Attempt} {next : Phase}
    (h : c.Loses chance a next) (reading : Instant) : next.StampedBy reading := by
  cases h <;> trivial

/-- Only with the time does a start come to its write. -/
theorem stampedBy_step {chance : Chance} {m : Memory} {mode : Mode} {phase : Phase} {s : Site}
    (hsound : phase.Sound m mode c) (hwrite : ∀ a plan, phase ≠ .writing a plan)
    (hstamp : chance.stamp = now.stamp) (hnow : now.isRepresentable = true) :
    (Call.step (Site.services chance) c phase s).1.StampedBy
      (if phase.asksTime then now else reading) := by
  have hadvances := c.advances chance s hwrite
  generalize (Call.step (Site.services chance) c phase s).1 = next at hadvances ⊢
  cases hadvances with
  | planStart hplan =>
    intro _
    refine ⟨hnow, ?_⟩
    rw [hplan.entry]
    exact hstamp
  | audit hup =>
    obtain ⟨read, e, stamp, -, he, -⟩ := hsound
    intro hopened
    rw [Job.opened?_of_entry? he.id] at hopened
    cases hopened
  | approach hup he hnext => cases hnext <;> trivial
  | probe hnext => cases hnext <;> trivial
  | order => exact stampedBy_queue _ _ _
  | _ => trivial

end Phase

/-- What is written down along a run. -/
structure Logbook where
  /-- What each call has read off the clock last. -/
  readings : Nat → Instant
  /-- The entries that have been started, each with what the committing attempt has read off the
  clock. -/
  started : List (Text × Instant)

/-- A logbook without entries. -/
def Logbook.blank : Logbook := ⟨fun _ => ⟨0⟩, []⟩

namespace Traffic

variable {table : Text} {mode : Mode} {t : Traffic} {m : Move} {client : Nat} {chance : Chance}
  {c : Client} {log : Logbook} {now : Instant}

/-- What a call has read off the clock last, after a move. -/
def clocked (t : Traffic) (now : Instant) (m : Move) (readings : Nat → Instant) (client : Nat) :
    Instant :=
  match m, t.clients[client]? with
  | .proceed other _, some c =>
    if other = client then if c.phase.asksTime then now else readings client else readings client
  | _, _ => readings client

/-- The entries that a move starts, each with what its call has read off the clock. -/
def started (t : Traffic) (m : Move) (readings : Nat → Instant) : List (Text × Instant) :=
  (t.commit? m).toList.flatMap fun k =>
    k.attempt.job.opened?.toList.map fun id => (id, readings k.client)

/-- What is written down in a move. -/
def noted (t : Traffic) (now : Instant) (m : Move) (log : Logbook) : Logbook :=
  ⟨t.clocked now m log.readings, log.started ++ t.started m log.readings⟩

/-- The moves of a run, the clock showing an instant at each of them. -/
def dated (moves : List (Instant × Move)) : List Move := moves.map fun p => p.2.dated p.1

/-- What is written down along a run. -/
def logged (table : Text) : List (Instant × Move) → Traffic → Logbook → Logbook
  | [], _, log => log
  | (now, m) :: moves, t, log =>
    logged table moves (t.act table (m.dated now)) (t.noted now (m.dated now) log)

theorem clocked_self (hc : t.clients[client]? = some c) (readings : Nat → Instant) :
    t.clocked now (.proceed client chance) readings client =
      if c.phase.asksTime then now else readings client := by
  unfold clocked
  rw [hc]
  exact if_pos rfl

theorem clocked_of_ne (hm : m.isAnswerTo client = false) (readings : Nat → Instant) :
    t.clocked now m readings client = readings client := by
  unfold clocked
  split
  · rename_i other chance c hc
    have hne : other ≠ client := fun heq => Move.ne_proceed_of_isAnswerTo hm chance (by rw [heq])
    exact if_neg hne
  · rfl

/-- What holds of sound traffic and of what has been written down. -/
structure Logged (table : Text) (mode : Mode) (log : Logbook) (t : Traffic) : Prop where
  sound : t.Sound table mode
  clients : ∀ (client : Nat) (c : Client), t.clients[client]? = some c →
    c.phase.StampedBy (log.readings client)
  ids : log.started.map Prod.fst = (t.lineage table).ids
  running : ∀ e ∈ (t.lineage table).running, ∃ reading, (e.id, reading) ∈ log.started ∧
    reading.isRepresentable = true ∧ e.stamp = reading.stamp

theorem logged_idle {s : Site} (h : s.memory.get? table = none) (hmode : s.modes.of table = mode) :
    (idle s).Logged table mode .blank := by
  refine ⟨sound_idle h hmode, fun _ _ hc => absurd hc (Option.some_ne_none _).symm, ?_, ?_⟩
  · rw [lineage_idle h]
    rfl
  · rw [lineage_idle h]
    exact fun e he => absurd he List.not_mem_nil

/-- A start that is about to write has stamped its entry with the last reading of its call. -/
theorem Logged.clients_act (h : t.Logged table mode log) (hnow : now.isRepresentable = true)
    (client : Nat) (c : Client) (hc : (t.act table (m.dated now)).clients[client]? = some c) :
    c.phase.StampedBy (t.clocked now (m.dated now) log.readings client) := by
  cases hold : t.clients[client]? with
  | none =>
    rw [(begun_of_new hold hc).2]
    exact Phase.stampedBy_begin _ _
  | some old =>
    cases hm : (m.dated now).isAnswerTo client with
    | false =>
      rw [getElem?_act_of_ne hold (Move.ne_proceed_of_isAnswerTo hm)] at hc
      obtain rfl := Option.some.inj hc
      rw [clocked_of_ne hm]
      exact h.clients client old hold
    | true =>
      obtain ⟨chance, hproceed⟩ := Move.isAnswerTo_iff.mp hm
      have hstamp : chance.stamp = now.stamp := by
        cases m with
        | proceed other chance' =>
          obtain ⟨-, rfl⟩ := Move.proceed.inj hproceed
          rfl
        | _ => cases hproceed
      rw [hproceed] at hc ⊢
      have hc : (t.proceed client chance).clients[client]? = some c := hc
      rw [getElem?_proceed_self chance hold] at hc
      obtain rfl := Option.some.inj hc
      by_cases hwriting : ∃ a plan, old.phase = .writing a plan
      · obtain ⟨a, plan, hphase⟩ := hwriting
        dsimp only
        cases hk : t.commit? (.proceed client chance) with
        | some k =>
          rw [(step_of_commit hold hk).2.2]
          exact Phase.stampedBy_queue _ _ _
        | none =>
          obtain ⟨next, hnext, hstep⟩ := step_of_lost hold hphase hk
          rw [hstep]
          exact Phase.stampedBy_lost hnext _
      · rw [clocked_self hold]
        exact Phase.stampedBy_step (h.sound.clients old (List.mem_of_getElem? hold)).2
          (fun a plan hphase => hwriting ⟨a, plan, hphase⟩) hstamp hnow

/-- What a commit starts is written down with the stamp of the new entry. -/
theorem Logged.of_commit {k : Commit} (h : t.Logged table mode log) (hk : t.commit? m = some k) :
    (log.started ++ t.started m log.readings).map Prod.fst = ((t.act table m).lineage table).ids ∧
      ∀ e ∈ ((t.act table m).lineage table).running, ∃ reading,
        (e.id, reading) ∈ log.started ++ t.started m log.readings ∧
          reading.isRepresentable = true ∧ e.stamp = reading.stamp := by
  obtain ⟨⟨c, hdraft⟩, hlineage⟩ := h.sound.of_commit hk
  have hopened : t.started m log.readings =
      k.attempt.job.opened?.toList.map fun id => (id, log.readings k.client) := by
    unfold started
    rw [hk]
    exact List.flatMap_singleton _ _
  rw [hlineage, hopened]
  constructor
  · have hids := hdraft.ids h.sound.exclusive
    rw [hids, List.map_append, h.ids, List.map_map]
    congr 1
    exact List.map_id _
  · intro e he
    rcases hdraft.mem_running h.sound.exclusive he with hold | ⟨rfl, hjob⟩
    · obtain ⟨reading, hmem, hreading⟩ := h.running e hold
      exact ⟨reading, List.mem_append_left _ hmem, hreading⟩
    · obtain ⟨chance, old, -, hc, hphase, -⟩ := commit?_eq_some hk
      have hstamped := h.clients k.client old hc
      rw [hphase] at hstamped
      refine ⟨log.readings k.client, List.mem_append_right _ ?_, hstamped (by rw [hjob]; rfl)⟩
      rw [hjob]
      exact List.mem_singleton_self _

theorem Logged.act (h : t.Logged table mode log) (hdrop : m.isDrop = false)
    (hnow : now.isRepresentable = true) :
    (t.act table (m.dated now)).Logged table mode (t.noted now (m.dated now) log) := by
  have hdrop : (m.dated now).isDrop = false := (Move.isDrop_dated now m).trans hdrop
  cases hk : t.commit? (m.dated now) with
  | some k =>
    obtain ⟨hids, hrunning⟩ := h.of_commit hk
    exact ⟨h.sound.act hdrop, h.clients_act hnow, hids, hrunning⟩
  | none =>
    have hlineage : (t.act table (m.dated now)).lineage table = t.lineage table := by
      unfold lineage
      rw [memory_of_quiet table hk hdrop]
    have hstarted : (t.noted now (m.dated now) log).started = log.started := by
      unfold noted started
      rw [hk]
      exact List.append_nil _
    refine ⟨h.sound.act hdrop, h.clients_act hnow, ?_, ?_⟩
    · rw [hlineage, hstarted]
      exact h.ids
    · rw [hlineage, hstarted]
      exact h.running

theorem Logged.run {moves : List (Instant × Move)} (h : t.Logged table mode log)
    (hdrop : ∀ p ∈ moves, p.2.isDrop = false) (hclock : ∀ p ∈ moves, p.1.isRepresentable = true) :
    (t.run table (dated moves)).Logged table mode (logged table moves t log) := by
  induction moves generalizing t log with
  | nil => exact h
  | cons p moves ih =>
    obtain ⟨now, m⟩ := p
    have hnext := h.act (hdrop _ List.mem_cons_self) (hclock _ List.mem_cons_self)
    exact ih hnext (fun p hp => hdrop p (List.mem_cons_of_mem _ hp))
      (fun p hp => hclock p (List.mem_cons_of_mem _ hp))

end Traffic

namespace Lineage

/-- An entry with the stamp of a reading is older than an instant if the reading is. -/
theorem isOlder_of_stamp {e : Entry} {reading cutoff : Instant}
    (h : reading.isRepresentable = true) (hstamp : e.stamp = reading.stamp) :
    isOlder cutoff e = .ok (decide (reading.micros < cutoff.micros)) := by
  unfold isOlder
  rw [hstamp, Time.Instant.read_stamp h]
  dsimp only
  rw [Time.Reading.instant?_of_universal]

theorem staleAmong_eq {cutoff : Instant} {p : Entry → Bool} {es : List Entry}
    (h : ∀ e ∈ es, isOlder cutoff e = .ok (p e)) : staleAmong cutoff es = .ok (es.filter p) := by
  induction es with
  | nil => rfl
  | cons e es ih =>
    rw [staleAmong, h e List.mem_cons_self, ih fun e' he' => h e' (List.mem_cons_of_mem e he'),
      List.filter_cons]
    rfl

end Lineage

theorem Time.Instant.micros_before {now cutoff : Instant} {span : Time.Span}
    (h : now.before span = .ok cutoff) : cutoff.micros = now.micros - span.micros := by
  unfold before at h
  dsimp only at h
  split at h
  · obtain rfl := Except.ok.inj h
    rfl
  · cases h

/-- What has been written down of an id is found under it, if the ids are distinct. -/
theorem Logbook.lookup_of_mem {log : Logbook} (hdistinct : (log.started.map Prod.fst).Nodup)
    {id : Text} {reading : Instant} (h : (id, reading) ∈ log.started) :
    log.started.lookup id = some reading := by
  obtain ⟨before, after, hsplit⟩ := List.append_of_mem h
  refine List.lookup_eq_some_iff.mpr ⟨before, after, hsplit, fun p hp => ?_⟩
  rw [hsplit, List.map_append, List.map_cons, List.nodup_append] at hdistinct
  have hne := hdistinct.2.2 p.1 (List.mem_map_of_mem hp) id List.mem_cons_self
  exact bne_iff_ne.mpr hne.symm

/-- Whether the entry of an id has been started before an instant. -/
def Logbook.startedBefore (log : Logbook) (cutoff : Instant) (id : Text) : Bool :=
  (log.started.lookup id).any fun reading => decide (reading.micros < cutoff.micros)

theorem Logbook.startedBefore_mono {log : Logbook} {earlier cutoff : Instant} {id : Text}
    (hle : earlier.micros ≤ cutoff.micros) (h : log.startedBefore earlier id = true) :
    log.startedBefore cutoff id = true := by
  obtain ⟨reading, hlookup, hlt⟩ := (Option.any_eq_true _ _).mp h
  refine (Option.any_eq_true _ _).mpr ⟨reading, hlookup, decide_eq_true ?_⟩
  exact Int.lt_of_lt_of_le (of_decide_eq_true hlt) hle

namespace Traffic

variable {table : Text} {mode : Mode} {t : Traffic} {log : Logbook} {w : World}
  {span : Time.Span} {cutoff : Instant}

theorem Logged.lookup (h : t.Logged table mode log) {e : Entry}
    (he : e ∈ (t.lineage table).running) : ∃ reading, log.started.lookup e.id = some reading ∧
      reading.isRepresentable = true ∧ e.stamp = reading.stamp := by
  obtain ⟨reading, hmem, hreading⟩ := h.running e he
  have hdistinct : (log.started.map Prod.fst).Nodup := by
    rw [h.ids]
    exact (t.lineage table).distinct
  exact ⟨reading, Logbook.lookup_of_mem hdistinct hmem, hreading⟩

/-- Who asks for the entries in progress since before an instant is told by the readings that have
been written down. -/
theorem Logged.stale (h : t.Logged table mode log)
    (hstore : w.store.read table = .ok (t.site.memory.read table))
    (hcutoff : w.clock.before span = .ok cutoff) :
    w.stale table span =
      (.ok ((t.lineage table).running.filter fun e => log.startedBefore cutoff e.id),
        { w with clock := ⟨w.clock.micros + w.tick⟩ }) := by
  have holder : ∀ e ∈ (t.lineage table).running,
      Lineage.isOlder cutoff e = .ok (log.startedBefore cutoff e.id) := by
    intro e he
    obtain ⟨reading, hlookup, hreading, hstamp⟩ := h.lookup he
    unfold Logbook.startedBefore
    rw [Lineage.isOlder_of_stamp hreading hstamp, hlookup]
    rfl
  unfold World.stale World.readClock
  dsimp only
  rw [hcutoff, hstore]
  show ((t.lineage table).stale cutoff, _) = _
  unfold Lineage.stale
  rw [Lineage.staleAmong_eq holder]

variable {site : Site} {moves : List (Instant × Move)}

/-- The entries in progress for too long are found exactly. All that has been started is written
down, and of what is in progress those entries are found, in their order, whose committing attempt
has read an instant off the clock that lies before the cutoff. A longer span finds no others. The
stamp of an instant names this instant and no other, so that stamps are ordered as their instants
are. -/
theorem stale_exact (hnew : site.memory.get? table = none)
    (hdrop : ∀ p ∈ moves, p.2.isDrop = false) (hclock : ∀ p ∈ moves, p.1.isRepresentable = true)
    (ht : (idle site).run table (dated moves) = t)
    (hlog : logged table moves (idle site) .blank = log)
    (hstore : w.store.read table = .ok (t.site.memory.read table))
    (hcutoff : w.clock.before span = .ok cutoff) :
    log.started.map Prod.fst = (t.lineage table).ids ∧
    (∀ e ∈ (t.lineage table).running, ∃ reading, log.started.lookup e.id = some reading) ∧
    w.stale table span =
      (.ok ((t.lineage table).running.filter fun e => log.startedBefore cutoff e.id),
        { w with clock := ⟨w.clock.micros + w.tick⟩ }) ∧
    (∀ longer earlier, span.micros ≤ longer.micros → w.clock.before longer = .ok earlier →
      ∃ found fewer, (w.stale table span).1 = .ok found ∧ (w.stale table longer).1 = .ok fewer ∧
        fewer.Sublist found) ∧
    ∀ first second : Instant, first.isRepresentable = true → second.isRepresentable = true →
      ∃ r r', Time.Stamp.read first.stamp = .ok r ∧ Time.Stamp.read second.stamp = .ok r' ∧
        r.instant? = some first ∧ r'.instant? = some second ∧
        (r.wall.micros < r'.wall.micros ↔ first.micros < second.micros) := by
  have hlogged : t.Logged table (site.modes.of table) log := by
    rw [← ht, ← hlog]
    exact (logged_idle hnew rfl).run hdrop hclock
  refine ⟨hlogged.ids, fun e he => ?_, hlogged.stale hstore hcutoff, ?_, ?_⟩
  · obtain ⟨reading, hlookup, -⟩ := hlogged.lookup he
    exact ⟨reading, hlookup⟩
  · intro longer earlier hspan hearlier
    have hle : earlier.micros ≤ cutoff.micros := by
      rw [Time.Instant.micros_before hcutoff, Time.Instant.micros_before hearlier]
      omega
    refine ⟨_, _, congrArg Prod.fst (hlogged.stale hstore hcutoff),
      congrArg Prod.fst (hlogged.stale hstore hearlier), List.monotone_filter_right _ ?_⟩
    exact fun e => Logbook.startedBefore_mono hle
  · intro first second hfirst hsecond
    refine ⟨_, _, Time.Instant.read_stamp hfirst, Time.Instant.read_stamp hsecond, ?_, ?_, Iff.rfl⟩
    · exact Time.Reading.instant?_of_universal first
    · exact Time.Reading.instant?_of_universal second

/-- Two replacements are started, the clock showing five microseconds at all answers to the first
call and seven at those to the second one. -/
def startedApart : List (Instant × Move) :=
  [(⟨0⟩, .enter (.start ["a"] ["b"] false) 5 2), (⟨0⟩, .enter (.start ["c"] ["d"] false) 5 2)] ++
    (Move.answers 0 6 "1").map (⟨5⟩, ·) ++ (Move.answers 1 6 "2").map (⟨7⟩, ·)

/-- Three microseconds after the second one only the first one has been in progress for more than
three microseconds; both have been for more than two. -/
theorem stale_exact_apart :
    let t := (idle (.holding "t" .append ["a", "c"])).run "t" (dated startedApart)
    let w : World := { World.create .default ⟨[]⟩ (.memory t.site.memory) with clock := ⟨10⟩ }
    (∃ found, (w.stale "t" ⟨3⟩).1 = .ok found ∧ found.map Entry.id = ["1"]) ∧
      ∃ found, (w.stale "t" ⟨2⟩).1 = .ok found ∧ found.map Entry.id = ["1", "2"] := by
  intro t w
  have hexact (span : Time.Span) (cutoff : Instant) (hcutoff : w.clock.before span = .ok cutoff) :=
    stale_exact (rfl : (Site.holding "t" .append ["a", "c"]).memory.get? "t" = none)
      (by decide : ∀ p ∈ startedApart, p.2.isDrop = false)
      (by decide : ∀ p ∈ startedApart, p.1.isRepresentable = true) (rfl : _ = t) rfl
      (rfl : w.store.read "t" = .ok (t.site.memory.read "t")) hcutoff
  have hthree := congrArg Prod.fst (hexact ⟨3⟩ ⟨7⟩ rfl).2.2.1
  have htwo := congrArg Prod.fst (hexact ⟨2⟩ ⟨8⟩ rfl).2.2.1
  exact ⟨⟨_, hthree, by decide +kernel⟩, ⟨_, htwo, by decide +kernel⟩⟩

end Traffic

end SegmentSwap
