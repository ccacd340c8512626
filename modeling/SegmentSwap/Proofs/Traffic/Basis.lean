import SegmentSwap.Proofs.Traffic.Commits
import SegmentSwap.Proofs.Traffic.Sound

/-!
# What an attempt goes on from

An attempt reads the record once and carries what it has read up to its write, which names the
version of it and writes a lineage of the same table. So whatever is true of a record when it is
read is true of what the write goes back to; nothing is asked of the record in between. Used on the
table alone this shows that calls on a table keep to its record, whatever happens to the record, and
that its version counts the commits since it was created.
-/

namespace SegmentSwap

/-- What holds of an attempt that is about to read the record and of one that has read it. -/
def Phase.Based (ready : Attempt → Prop) (known : Attempt → Versioned → Prop) : Phase → Prop
  | .minting .. => ∀ j, ready ⟨j, 1⟩
  | .configuring .. => ∀ j, ready ⟨j, 1⟩
  | .reading a => ready a
  | .surveying a _ _ _ _ read => known a read
  | .dating a _ _ _ read _ => known a read
  | .probing a read _ _ _ _ => known a read
  | .closing a read _ => known a read
  | .auditing a plan => ∃ read, known a read ∧ plan.expected = read.version? ∧
      plan.lineage.table = read.lineage.table
  | .writing a plan => ∃ read, known a read ∧ plan.expected = read.version? ∧
      plan.lineage.table = read.lineage.table
  | .queueing .. => True
  | .done _ => True

theorem Lineage.replace_table {l l' : Lineage} {updates : List Entry}
    (h : l.replace updates = .ok l') : l'.table = l.table := by
  obtain ⟨-, -, htable, -⟩ := replace_eq_ok h
  exact htable

/-- The end of an entry goes back to the record that it has been planned from. -/
theorem Call.planEnd_basis {j : Job} {read : Versioned} {e : Entry} {stamp : Text} {plan : Plan}
    (h : planEnd j read e stamp = .ok plan) :
    plan.expected = read.version? ∧ plan.lineage.table = read.lineage.table := by
  rw [planEnd_eq] at h
  obtain ⟨moved, -, h⟩ := bind_eq_ok_iff.mp h
  obtain ⟨reverted, -, h⟩ := bind_eq_ok_iff.mp h
  obtain ⟨lineage, hreplace, h⟩ := bind_eq_ok_iff.mp h
  obtain rfl := Except.ok.inj h
  exact ⟨rfl, Lineage.replace_table (mapError_eq_ok_iff.mp hreplace)⟩

theorem Call.StartPlan.table {c : Call} {ticket : Ticket} {sources targets registered : List Text}
    {read : Versioned} {stamp : Text} {plan : Plan}
    (h : StartPlan c ticket sources targets read registered stamp plan) :
    plan.lineage.table = read.lineage.table := by
  obtain ⟨mid, hmoves, happends⟩ := h.lineage
  rw [happends.table, hmoves.table]

/-- What an attempt has read is what the record was read to be. -/
theorem Call.opened_eq_ok {σ : Type} {svc : Services σ} {c : Call} {a : Attempt} {s : σ}
    {r : Except Failure Versioned} {read : Versioned} (h : c.opened svc a s r = .ok read) :
    r = .ok read := by
  unfold opened at h
  split at h
  · split at h
    · exact h
    · cases h
  · exact h

namespace Phase

variable {ready : Attempt → Prop} {known : Attempt → Versioned → Prop} {c : Call} {a : Attempt}
  {read : Versioned} {e : Entry}

theorem based_probe (h : known a read) (left found : List Text) :
    (c.probe a read e left found).Based ready known := by
  cases left with
  | cons next rest => exact h
  | nil =>
    show (c.judge a read e found).Based ready known
    unfold Call.judge
    split <;> split
    · exact h
    · trivial
    · exact h
    · trivial

theorem based_lookUp (h : known a read) (id : Text) :
    (c.lookUp a read id).Based ready known := by
  unfold Call.lookUp
  split
  · trivial
  · split
    · trivial
    · exact based_probe h _ _

theorem based_afterRead {r : Except Failure Versioned}
    (h : ∀ read, r = .ok read → known a read) : (c.afterRead a r).Based ready known := by
  cases r with
  | error f => trivial
  | ok read =>
    have hknown := h read rfl
    unfold Call.afterRead
    dsimp only
    split
    · exact hknown
    · exact based_lookUp hknown _
    · exact based_lookUp hknown _

theorem based_queue (e : Entry) (batches : List Batch) :
    (Call.queue e batches).Based ready known := by
  induction batches with
  | nil => trivial
  | cons b rest ih =>
    unfold Call.queue
    split
    · exact ih
    · trivial

theorem based_begin (h : ∀ j, ready ⟨j, 1⟩) : c.begin.Based ready known := by
  unfold Call.begin
  split
  · split
    · trivial
    · exact h
  · exact h _
  · exact h _

theorem based_afterWrite {plan : Plan} (h : ready { a with number := a.number + 1 })
    (after : List Retry.Act × Option (Except (Retry.Ending Failure) Unit)) :
    (c.afterWrite a plan after).2.Based ready known := by
  unfold Call.afterWrite
  split
  · exact h
  · trivial
  · exact based_queue _ _

/-- Every answer keeps what an attempt goes on from: what is true of the record when it is read
stays true of what has been read, and a lost write leads to the next attempt. -/
theorem Based.serve {σ : Type} (svc : Services σ) {phase : Phase} {s : σ}
    (h : phase.Based ready known)
    (hread : ∀ a, ready a → ∀ read, (svc.read c.table s).1 = .ok read → known a read)
    (hretry : ∀ a read, known a read → ready { a with number := a.number + 1 }) :
    (Call.step svc c phase s).1.Based ready known := by
  cases phase with
  | minting => exact h
  | configuring id sources targets force =>
    show (Call.afterMode id sources targets force _).Based ready known
    unfold Call.afterMode
    split
    · trivial
    · exact h _
  | reading a => exact based_afterRead fun read hr => hread a h read (Call.opened_eq_ok hr)
  | surveying a ticket sources targets force read =>
    show (c.afterSurvey a ticket sources targets force read _).Based ready known
    unfold Call.afterSurvey
    split
    · trivial
    · split
      · trivial
      · exact h
  | dating a ticket sources targets read registered =>
    show (c.afterDate a ticket sources targets read registered _).Based ready known
    unfold Call.afterDate
    split
    · trivial
    · rename_i hok
      have hplan := Call.StartPlan.of_ok hok
      exact ⟨read, h, hplan.expected, hplan.table⟩
  | probing a read e next rest found =>
    show (c.afterProbe a read e next rest found _).Based ready known
    unfold Call.afterProbe
    split
    · trivial
    · exact based_probe h _ _
  | closing a read e =>
    show (Call.afterClose a read e _).Based ready known
    unfold Call.afterClose
    split
    · trivial
    · rename_i hok
      obtain ⟨hexpected, htable⟩ := Call.planEnd_basis hok
      exact ⟨read, h, hexpected, htable⟩
  | auditing a plan =>
    show (Call.afterAudit a plan _).Based ready known
    unfold Call.afterAudit
    split
    · trivial
    · exact h
  | writing a plan =>
    obtain ⟨read, hknown, -⟩ := h
    show (c.afterWrite a plan _).2.Based ready known
    exact based_afterWrite (hretry a read hknown) _
  | queueing => exact based_queue _ _
  | done => trivial

theorem Based.step (chance : Chance) {phase : Phase} {s : Site} (h : phase.Based ready known)
    (hread : ∀ a, ready a → known a (s.memory.read c.table))
    (hretry : ∀ a read, known a read → ready { a with number := a.number + 1 }) :
    (Call.step (Site.services chance) c phase s).1.Based ready known := by
  refine h.serve _ (fun a ha read hr => ?_) hretry
  rw [chance.eq_of_answer hr]
  exact hread a ha

end Phase

namespace Version

/-- The version of a record after a number of commits. -/
def after : Nat → Option Version → Option Version
  | 0, v => v
  | n + 1, v => after n (some (next v))

theorem next_congr {a b : Option Version} (h : agree a b = true) : next a = next b := by
  rw [agree_iff] at h
  cases a <;> cases b <;> simp_all [next]

theorem after_succ (n : Nat) (v : Option Version) : after (n + 1) v = some (next (after n v)) := by
  induction n generalizing v with
  | zero => rfl
  | succ n ih => exact ih (some (next v))

/-- A record that is there counts its commits. -/
theorem after_some (n : Nat) (v : Version) :
    (after n (some v)).map count = some (v.count + n) := by
  induction n generalizing v with
  | zero => simp [after]
  | succ n ih =>
    unfold after
    rw [ih]
    simp only [next, ofCount, Option.some.injEq]
    omega

end Version

namespace Traffic

variable {table : Text} {t : Traffic} {m : Move} {k : Commit}

/-- The record is one of the table, and so is whatever calls have read and are going to write. -/
structure Local (table : Text) (t : Traffic) : Prop where
  record : (t.lineage table).table = table
  clients : ∀ c ∈ t.clients, c.call.table = table ∧
    c.phase.Based (fun _ => True) fun _ read => read.lineage.table = table

theorem local_idle {s : Site} (h : s.memory.get? table = none) : (idle s).Local table := by
  refine ⟨?_, fun c hc => absurd hc List.not_mem_nil⟩
  rw [lineage_idle h]
  rfl

theorem version_idle {s : Site} (h : s.memory.get? table = none) :
    (idle s).site.memory.version? table = none := by
  show (s.memory.get? table).map (·.2) = none
  rw [h]
  rfl

theorem Local.plan_table (h : t.Local table) (hk : t.commit? m = some k) :
    k.plan.lineage.table = table := by
  obtain ⟨chance, c, -, hc, hphase, -⟩ := commit?_eq_some hk
  obtain ⟨-, hbased⟩ := h.clients c (List.mem_of_getElem? hc)
  rw [hphase] at hbased
  obtain ⟨read, hread, -, htable⟩ := hbased
  rw [htable, hread]

theorem Local.read_of_commit (h : t.Local table) (hk : t.commit? m = some k) :
    (t.act table m).site.memory.read table =
      ⟨k.plan.lineage, some (.next k.plan.expected)⟩ := by
  have htable := h.plan_table hk
  rw [memory_of_commit hk, ← htable, Memory.read_put_self]

theorem Local.version_of_commit (h : t.Local table) (hk : t.commit? m = some k) :
    (t.act table m).site.memory.version? table =
      some (.next (t.site.memory.version? table)) := by
  obtain ⟨-, -, -, -, -, hagree⟩ := commit?_eq_some hk
  rw [h.plan_table hk] at hagree
  rw [Memory.version?_eq, h.read_of_commit hk, Version.next_congr hagree]

theorem version_drop (t : Traffic) : (t.act table .drop).site.memory.version? table = none := by
  show (t.site.memory.delete table).version? table = none
  rw [Memory.version?_eq, Memory.read_delete_self]

/-- The record of a table stays one of the table. -/
theorem Local.record_act (h : t.Local table) (m : Move) :
    ((t.act table m).lineage table).table = table := by
  cases hk : t.commit? m with
  | some k =>
    unfold lineage
    rw [h.read_of_commit hk]
    exact h.plan_table hk
  | none =>
    cases hdrop : m.isDrop with
    | false =>
      unfold lineage
      rw [memory_of_quiet table hk hdrop]
      exact h.record
    | true =>
      cases m with
      | drop =>
        show ((t.site.memory.delete table).read table).lineage.table = table
        rw [Memory.read_delete_self]
        rfl
      | _ => cases hdrop

theorem Local.client_act (h : t.Local table) (m : Move) {c : Client}
    (hc : c ∈ (t.act table m).clients) : c.call.table = table ∧
      c.phase.Based (fun _ => True) fun _ read => read.lineage.table = table := by
  cases m with
  | proceed client chance =>
    have hc : c ∈ (t.proceed client chance).clients := hc
    cases hold : t.clients[client]? with
    | none =>
      rw [proceed_absent chance hold] at hc
      exact h.clients c hc
    | some old =>
      obtain ⟨hcall, hbased⟩ := h.clients old (List.mem_of_getElem? hold)
      rw [clients_proceed chance hold] at hc
      rcases List.mem_or_eq_of_mem_set hc with hc | rfl
      · exact h.clients c hc
      · refine ⟨hcall, hbased.step chance (fun _ _ => ?_) fun _ _ _ => trivial⟩
        rw [hcall]
        exact h.record
  | enter request attempts generations =>
    rcases List.mem_append.mp hc with hc | hc
    · exact h.clients c hc
    · rw [List.mem_singleton.mp hc]
      exact ⟨rfl, Phase.based_begin fun _ => trivial⟩
  | drop => exact h.clients c hc
  | _ =>
    rw [(act_frame table t (fun _ _ h => by cases h) (fun _ _ _ h => by cases h) rfl).2.2] at hc
    exact h.clients c hc

theorem Local.act (h : t.Local table) (m : Move) : (t.act table m).Local table :=
  ⟨h.record_act m, fun _ hc => h.client_act m hc⟩

theorem Local.run (h : t.Local table) (moves : List Move) : (t.run table moves).Local table := by
  have hstep : ∀ (t : Traffic) (m : Move), True → t.Local table → (t.act table m).Local table :=
    fun _ m _ h => h.act m
  exact run_induction hstep moves t (fun _ _ => trivial) h

/-- However often the record has been removed, its version counts some commits from none on. -/
theorem version_run_idle {s : Site} (h : s.memory.get? table = none) (moves : List Move) :
    ∃ n, ((idle s).run table moves).site.memory.version? table = Version.after n none := by
  have hstep : ∀ (t : Traffic) (m : Move), True →
      t.Local table ∧ (∃ n, t.site.memory.version? table = Version.after n none) →
      (t.act table m).Local table ∧
        ∃ n, (t.act table m).site.memory.version? table = Version.after n none := by
    rintro t m - ⟨hlocal, n, hn⟩
    refine ⟨hlocal.act m, ?_⟩
    cases hk : t.commit? m with
    | some k =>
      refine ⟨n + 1, ?_⟩
      rw [hlocal.version_of_commit hk, Version.after_succ, hn]
    | none =>
      cases hdrop : m.isDrop with
      | false =>
        rw [memory_of_quiet table hk hdrop]
        exact ⟨n, hn⟩
      | true =>
        cases m with
        | drop => exact ⟨0, version_drop t⟩
        | _ => cases hdrop
  exact (run_induction hstep moves (idle s) (fun _ _ => trivial)
    ⟨local_idle h, 0, version_idle h⟩).2

/-- As long as the record is not removed, every commit raises its version by one and nothing else
does. -/
theorem Local.version_run (h : t.Local table) {moves : List Move}
    (hdrop : ∀ m ∈ moves, m.isDrop = false) :
    (t.run table moves).site.memory.version? table =
      Version.after (commits table moves t).length (t.site.memory.version? table) := by
  induction moves generalizing t with
  | nil => rfl
  | cons m moves ih =>
    have hrun := ih (h.act m) fun m' hm' => hdrop m' (List.mem_cons_of_mem m hm')
    show ((t.act table m).run table moves).site.memory.version? table =
      Version.after ((t.commit? m).toList ++ commits table moves (t.act table m)).length
        (t.site.memory.version? table)
    rw [hrun]
    cases hk : t.commit? m with
    | some k =>
      rw [h.version_of_commit hk]
      rfl
    | none =>
      rw [memory_of_quiet table hk (hdrop m List.mem_cons_self)]
      rfl

end Traffic

end SegmentSwap
