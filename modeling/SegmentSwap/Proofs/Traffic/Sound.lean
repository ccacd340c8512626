import SegmentSwap.Proofs.Protocol.Commit
import SegmentSwap.Proofs.Store.Memory
import SegmentSwap.Proofs.Traffic.Step

/-!
# What calls under way know

Between two of its answers a call knows what it has read and what its checks have established about
it. What it has read may be out of date, but then its write is going to be lost. So the record only
ever changes by a write that was planned from the record as it stands, and every such write keeps
the lineage exclusive.
-/

namespace SegmentSwap

/-- The entry that a job ends. -/
def Job.entry? : Job → Option Text
  | .start .. => none
  | .finish id => some id
  | .revert id _ => some id

/-- What a job does for its call. -/
def Job.request : Job → Request
  | .start _ sources targets force => .start sources targets force
  | .finish id => .finish id
  | .revert id force => .revert id force

theorem Job.goal_of_entry? {j : Job} {id : Text} (h : j.entry? = some id) :
    j.goal = .completed ∨ j.goal = .reverted := by
  cases j with
  | start => cases h
  | finish => exact Or.inl rfl
  | revert => exact Or.inr rfl

/-- A start has passed the check of its shape and has been told the mode of its table. -/
def Job.Valid (mode : Mode) : Job → Prop
  | .start ticket sources targets _ => ticket.mode = mode ∧ WellShaped sources targets
  | _ => True

/-- A job ends an entry that was in progress when the record was read. -/
structure Ends (j : Job) (read : Versioned) (e : Entry) : Prop where
  id : j.entry? = some e.id
  running : e ∈ read.lineage.running

/-- A call has read an exclusive record of its table, which still stands or has been overtaken. -/
structure Known (m : Memory) (table : Text) (read : Versioned) : Prop where
  seen : m.Seen table read
  exclusive : Exclusive read.lineage

/-- A plan that an attempt has come to from a record. -/
inductive Drafted (mode : Mode) (c : Call) (j : Job) (read : Versioned) : Plan → Prop where
  | start {ticket : Ticket} {sources targets registered : List Text} {force : Bool} {stamp : Text}
      {plan : Plan} (hj : j = .start ticket sources targets force) (hvalid : j.Valid mode)
      (hcheck : c.checkStart sources targets force read.lineage registered = .ok ())
      (hplan : c.planStart ticket sources targets read registered stamp = .ok plan) :
      Drafted mode c j read plan
  | ending {e : Entry} {stamp : Text} {plan : Plan} {registered : List Text}
      (he : Ends j read e) (hplan : Call.EndPlan j read e stamp plan) :
      Drafted mode c j read { plan with deletions := Call.endDeletions j plan registered }

/-- What a call knows in a phase, given the records. -/
def Phase.Sound (m : Memory) (mode : Mode) (c : Call) : Phase → Prop
  | .minting sources targets _ => WellShaped sources targets
  | .configuring _ sources targets _ => WellShaped sources targets
  | .reading a => a.job.Valid mode
  | .surveying a ticket sources targets force read =>
    a.job = .start ticket sources targets force ∧ a.job.Valid mode ∧ Known m c.table read
  | .dating a ticket sources targets read registered =>
    ∃ force, a.job = .start ticket sources targets force ∧ a.job.Valid mode ∧
      Known m c.table read ∧ c.checkStart sources targets force read.lineage registered = .ok ()
  | .probing a read entry _ _ _ => Ends a.job read entry ∧ Known m c.table read
  | .closing a read entry => Ends a.job read entry ∧ Known m c.table read
  | .auditing a plan => ∃ read e stamp, Known m c.table read ∧ Ends a.job read e ∧
      Call.EndPlan a.job read e stamp plan
  | .writing a plan => ∃ read, Known m c.table read ∧ Drafted mode c a.job read plan
  | .queueing .. => True
  | .done _ => True

theorem Chance.eq_of_answer {α : Type} (chance : Chance) {a b : α} (h : chance.answer a = .ok b) :
    b = a := by
  unfold answer at h
  split at h
  · cases h
  · exact (Except.ok.inj h).symm

namespace Drafted

variable {mode : Mode} {c : Call} {j : Job} {read : Versioned} {plan : Plan}

theorem expected (h : Drafted mode c j read plan) : plan.expected = read.version? := by
  cases h with
  | start _ _ _ hplan => exact (Call.StartPlan.of_ok hplan).expected
  | ending _ hplan => exact hplan.expected

theorem table (h : Drafted mode c j read plan) : plan.lineage.table = read.lineage.table := by
  cases h with
  | start _ _ _ hplan =>
    obtain ⟨mid, hmoves, happends⟩ := (Call.StartPlan.of_ok hplan).lineage
    rw [happends.table, hmoves.table]
  | ending _ hplan => exact hplan.table

theorem valid (h : Drafted mode c j read plan) : j.Valid mode := by
  cases h with
  | start _ hvalid => exact hvalid
  | ending he =>
    cases j with
    | start => cases he.id
    | finish => trivial
    | revert => trivial

theorem no_rivals {l mid : Lineage} {sources : List Text} {stamp : Text}
    (h : l.Moves (l.rivals sources) .reverted stamp mid) :
    ∀ x ∈ mid.running, overlaps x.sources sources = false := by
  intro x hx
  obtain ⟨hrun, hnot⟩ := (h.mem_running (by decide)).mp hx
  rw [← Bool.not_eq_true]
  exact fun ho => hnot (Lineage.mem_rivals.mpr ⟨hrun, ho⟩)

theorem exclusive (h : Drafted mode c j read plan) (hl : Exclusive read.lineage) :
    Exclusive plan.lineage := by
  cases h with
  | start hj hvalid hcheck hplan =>
    subst hj
    have hplan := Call.StartPlan.of_ok hplan
    obtain ⟨mid, hmoves, happends⟩ := hplan.lineage
    obtain ⟨⟨hfree, -⟩, hserved, -⟩ := Call.checkStart_eq_ok_iff.mp hcheck
    rw [hplan.entry] at happends
    refine (hl.moves hmoves).appends happends hvalid.2 ?_ ?_ (no_rivals hmoves)
    · intro y hy hlive
      obtain ⟨x, hx, rfl⟩ := hmoves.mem.mp hy
      rw [Entry.movedAmong_targets]
      exact List.disjoint_symm (hfree x hx (Exclusive.isLive_of_movedAmong hmoves hlive))
    · intro s hs hret
      have hexp := (Lineage.exposes_iff.mp (Lineage.mem_served.mp (hserved s hs)).2).1
      rw [Lineage.mem_retired] at hret hexp
      simp only [hmoves.mem_completed] at hret
      exact hexp hret
  | ending he hplan => exact hl.moves (hplan.moves hl he.running).2

end Drafted

namespace Phase

variable {m m' : Memory} {mode : Mode} {c : Call}

/-- What a call knows stays true as long as what has been seen stays so. -/
theorem Sound.mono (hseen : ∀ read, m.Seen c.table read → m'.Seen c.table read) {phase : Phase}
    (h : phase.Sound m mode c) : phase.Sound m' mode c := by
  have hknown : ∀ read, Known m c.table read → Known m' c.table read := fun read hs =>
    ⟨hseen read hs.seen, hs.exclusive⟩
  cases phase with
  | minting | configuring | reading | queueing | done => exact h
  | surveying => exact ⟨h.1, h.2.1, hknown _ h.2.2⟩
  | dating =>
    obtain ⟨force, hj, hshape, hs, hcheck⟩ := h
    exact ⟨force, hj, hshape, hknown _ hs, hcheck⟩
  | probing => exact ⟨h.1, hknown _ h.2⟩
  | closing => exact ⟨h.1, hknown _ h.2⟩
  | auditing =>
    obtain ⟨read, e, stamp, hs, he, hplan⟩ := h
    exact ⟨read, e, stamp, hknown _ hs, he, hplan⟩
  | writing =>
    obtain ⟨read, hs, hdraft⟩ := h
    exact ⟨read, hknown _ hs, hdraft⟩

theorem sound_begin (m : Memory) (mode : Mode) (c : Call) : c.begin.Sound m mode c := by
  unfold Call.begin
  split
  · rename_i sources targets force _
    cases hr : Check.request c.table sources targets with
    | error r => trivial
    | ok u => exact Check.request_eq_ok_iff.mp hr
  · trivial
  · trivial

section After

variable {a : Attempt} {read : Versioned} {e : Entry} {plan : Plan} {ticket : Ticket}
  {sources targets : List Text} {force : Bool}

theorem sound_afterMode (id : Text) (h : WellShaped sources targets) {r : Except Failure Mode}
    (hr : ∀ answer, r = .ok answer → answer = mode) :
    (Call.afterMode id sources targets force r).Sound m mode c := by
  cases r with
  | error f => trivial
  | ok answer => exact ⟨hr answer rfl, h⟩

theorem sound_probe (he : Ends a.job read e) (hknown : Known m c.table read)
    (left found : List Text) : (c.probe a read e left found).Sound m mode c := by
  cases left with
  | cons next rest => exact ⟨he, hknown⟩
  | nil =>
    show (c.judge a read e found).Sound m mode c
    unfold Call.judge
    split <;> split
    · exact ⟨he, hknown⟩
    · trivial
    · exact ⟨he, hknown⟩
    · trivial

theorem sound_lookUp {id : Text} (hid : a.job.entry? = some id) (hknown : Known m c.table read) :
    (c.lookUp a read id).Sound m mode c := by
  unfold Call.lookUp
  split
  · trivial
  · rename_i e hk
    obtain ⟨hmem, rfl⟩ := Check.known_eq_ok_iff.mp hk
    split
    · trivial
    · rename_i hm
      have hrun := (Check.movable_eq_ok_iff.mp hm).1
      exact sound_probe ⟨hid, Lineage.mem_running.mpr ⟨hmem, hrun⟩⟩ hknown _ _

theorem sound_afterRead (h : a.job.Valid mode) {r : Except Failure Versioned}
    (hr : ∀ read, r = .ok read → Known m c.table read) : (c.afterRead a r).Sound m mode c := by
  cases r with
  | error f => trivial
  | ok read =>
    have hknown := hr read rfl
    unfold Call.afterRead
    dsimp only
    split
    · rename_i hj
      exact ⟨hj, h, hknown⟩
    · rename_i hj
      exact sound_lookUp (by rw [hj]; rfl) hknown
    · rename_i hj
      exact sound_lookUp (by rw [hj]; rfl) hknown

theorem sound_afterSurvey (hj : a.job = .start ticket sources targets force)
    (hvalid : a.job.Valid mode) (hknown : Known m c.table read)
    (r : Except Failure (List Text)) :
    (c.afterSurvey a ticket sources targets force read r).Sound m mode c := by
  cases r with
  | error f => trivial
  | ok registered =>
    unfold Call.afterSurvey
    dsimp only
    split
    · trivial
    · rename_i hcheck
      exact ⟨force, hj, hvalid, hknown, hcheck⟩

theorem sound_afterDate {registered : List Text} (hj : a.job = .start ticket sources targets force)
    (hvalid : a.job.Valid mode) (hknown : Known m c.table read)
    (hcheck : c.checkStart sources targets force read.lineage registered = .ok ()) (stamp : Text) :
    (c.afterDate a ticket sources targets read registered stamp).Sound m mode c := by
  unfold Call.afterDate
  split
  · trivial
  · rename_i hplan
    exact ⟨read, hknown, .start hj hvalid hcheck hplan⟩

theorem sound_afterProbe (he : Ends a.job read e) (hknown : Known m c.table read) (next : Text)
    (rest found : List Text) (r : Except Failure Bool) :
    (c.afterProbe a read e next rest found r).Sound m mode c := by
  cases r with
  | error f => trivial
  | ok available => exact sound_probe he hknown _ _

theorem sound_afterClose (he : Ends a.job read e) (hknown : Known m c.table read) (stamp : Text) :
    (Call.afterClose a read e stamp).Sound m mode c := by
  unfold Call.afterClose
  split
  · trivial
  · rename_i hplan
    exact ⟨read, e, stamp, hknown, he, .of_ok he.running (Job.goal_of_entry? he.id) hplan⟩

theorem sound_afterAudit {stamp : Text} (he : Ends a.job read e) (hknown : Known m c.table read)
    (hplan : Call.EndPlan a.job read e stamp plan) (r : Except Failure (List Text)) :
    (Call.afterAudit a plan r).Sound m mode c := by
  cases r with
  | error f => trivial
  | ok registered => exact ⟨read, hknown, .ending he hplan⟩

end After

theorem sound_queue (m : Memory) (mode : Mode) (c : Call) (e : Entry) (batches : List Batch) :
    (Call.queue e batches).Sound m mode c := by
  induction batches with
  | nil => trivial
  | cons b rest ih =>
    unfold Call.queue
    split
    · exact ih
    · trivial

end Phase

/-- A step of a call keeps what the call knows, if the record stays what it is. -/
theorem Phase.Sound.step (chance : Chance) {mode : Mode} {c : Call} {phase : Phase} {s : Site}
    (hmode : s.modes.of c.table = mode)
    (hread : Known s.memory c.table (s.memory.read c.table)) (h : phase.Sound s.memory mode c)
    (hwrite : ∀ a plan, phase ≠ .writing a plan) :
    (Call.step (Site.services chance) c phase s).1.Sound s.memory mode c := by
  cases phase with
  | minting => exact h
  | configuring id sources targets force =>
    refine Phase.sound_afterMode id h fun answer ha => ?_
    rw [chance.eq_of_answer ha, hmode]
  | reading a =>
    rw [Site.step_reading]
    refine Phase.sound_afterRead h fun read ha => ?_
    rw [chance.eq_of_answer ha]
    exact hread
  | surveying => exact Phase.sound_afterSurvey h.1 h.2.1 h.2.2 _
  | dating =>
    obtain ⟨force, hj, hvalid, hknown, hcheck⟩ := h
    exact Phase.sound_afterDate hj hvalid hknown hcheck _
  | probing => exact Phase.sound_afterProbe h.1 h.2 _ _ _ _
  | closing => exact Phase.sound_afterClose h.1 h.2 _
  | auditing =>
    obtain ⟨read, e, stamp, hknown, he, hplan⟩ := h
    exact Phase.sound_afterAudit he hknown hplan _
  | writing a plan => exact absurd rfl (hwrite a plan)
  | queueing => exact Phase.sound_queue _ _ _ _ _
  | done => trivial

theorem Phase.sound_lost {m : Memory} {mode : Mode} {c : Call} {a : Attempt} {plan : Plan}
    {chance : Chance} {next : Phase} (h : (Phase.writing a plan).Sound m mode c)
    (hnext : c.Loses chance a next) : next.Sound m mode c := by
  obtain ⟨read, -, hdraft⟩ := h
  cases hnext with
  | again => exact hdraft.valid
  | spent | outage => trivial

namespace Traffic

variable {table : Text} {mode : Mode} {t : Traffic}

/-- What holds in traffic on a table whose record is never removed. -/
structure Sound (table : Text) (mode : Mode) (t : Traffic) : Prop where
  modes : t.site.modes.of table = mode
  record : (t.lineage table).table = table
  exclusive : Exclusive (t.lineage table)
  clients : ∀ c ∈ t.clients, c.call.table = table ∧ c.phase.Sound t.site.memory mode c.call

theorem sound_idle {s : Site} (h : s.memory.get? table = none) (hmode : s.modes.of table = mode) :
    (idle s).Sound table mode := by
  refine ⟨hmode, ?_, ?_, fun c hc => absurd hc List.not_mem_nil⟩
  · rw [lineage_idle h]; rfl
  · rw [lineage_idle h]; exact Exclusive.empty table

/-- The write of a sound call that takes effect was planned from the record as it stands. -/
theorem Sound.read_of_agree (h : t.Sound table mode) {c : Client} {a : Attempt} {plan : Plan}
    (hc : c ∈ t.clients) (hphase : c.phase = .writing a plan)
    (hagree : Version.agree (t.site.memory.version? table) plan.expected = true) :
    c.call.table = table ∧
      Drafted mode c.call a.job (t.site.memory.read table) plan := by
  obtain ⟨htable, hsound⟩ := h.clients c hc
  rw [hphase] at hsound
  obtain ⟨read, hknown, hdraft⟩ := hsound
  rw [hdraft.expected] at hagree
  rw [htable] at hknown
  rw [← hknown.seen.eq_of_agree hagree]
  exact ⟨htable, hdraft⟩

theorem Sound.plan_table (h : t.Sound table mode) {c : Client} {a : Attempt} {plan : Plan}
    (hc : c ∈ t.clients) (hphase : c.phase = .writing a plan) : plan.lineage.table = table := by
  obtain ⟨htable, hsound⟩ := h.clients c hc
  rw [hphase] at hsound
  obtain ⟨read, hknown, hdraft⟩ := hsound
  rw [hdraft.table, hknown.seen.belongs, htable]

theorem Sound.lineage_commit (h : t.Sound table mode) {client : Nat} {chance : Chance} {c : Client}
    {a : Attempt} {plan : Plan} (hc : t.clients[client]? = some c)
    (hphase : c.phase = .writing a plan)
    (hagree : Version.agree (t.site.memory.version? table) plan.expected = true) :
    (t.proceed client chance).lineage table = plan.lineage := by
  have htable := h.plan_table (List.mem_of_getElem? hc) hphase
  rw [proceed_commit hc hphase (by rw [htable]; exact hagree)]
  unfold lineage
  rw [← htable]
  exact congrArg Versioned.lineage Memory.read_put_self

theorem forall_mem_set {clients : List Client} {i : Nat} {c : Client} {P Q : Client → Prop}
    (h : ∀ c ∈ clients, P c) (hPQ : ∀ c, P c → Q c) (hc : Q c) : ∀ c' ∈ clients.set i c, Q c' := by
  intro c' hc'
  rcases List.mem_or_eq_of_mem_set hc' with hmem | rfl
  · exact hPQ c' (h c' hmem)
  · exact hc

theorem Sound.proceeds {t' : Traffic} {client : Nat} {chance : Chance} (h : t.Sound table mode)
    (hp : Proceeds t client chance t') : t'.Sound table mode := by
  cases hp with
  | absent => exact h
  | @commit c a plan hc hphase hagree =>
    have hmem := List.mem_of_getElem? hc
    have htable := h.plan_table hmem hphase
    rw [htable] at hagree
    obtain ⟨hcall, hdraft⟩ := h.read_of_agree hmem hphase hagree
    have hread : (t.site.memory.put plan.lineage (.next plan.expected)).read table =
        ⟨plan.lineage, some (.next plan.expected)⟩ := by
      rw [← htable, Memory.read_put_self]
    refine ⟨h.modes, ?_, ?_, forall_mem_set h.clients ?_ ⟨hcall, Phase.sound_queue _ _ _ _ _⟩⟩
    · unfold lineage
      rw [hread]
      exact htable
    · unfold lineage
      rw [hread]
      exact hdraft.exclusive h.exclusive
    · rintro c' ⟨hcall', hsound⟩
      refine ⟨hcall', hsound.mono fun read hseen => ?_⟩
      rw [hcall'] at hseen ⊢
      exact hseen.put hagree htable
  | lost hc hphase hnext =>
    have hmem := List.mem_of_getElem? hc
    obtain ⟨hcall, hsound⟩ := h.clients _ hmem
    rw [hphase] at hsound
    exact ⟨h.modes, h.record, h.exclusive,
      forall_mem_set h.clients (fun _ hc => hc) ⟨hcall, Phase.sound_lost hsound hnext⟩⟩
  | order hc hphase =>
    have hmem := List.mem_of_getElem? hc
    obtain ⟨hcall, -⟩ := h.clients _ hmem
    exact ⟨h.modes, h.record, h.exclusive,
      forall_mem_set h.clients (fun _ hc => hc) ⟨hcall, Phase.sound_queue _ _ _ _ _⟩⟩
  | look hc hwrite =>
    have hmem := List.mem_of_getElem? hc
    obtain ⟨hcall, hsound⟩ := h.clients _ hmem
    have hnext := hsound.step chance (by rw [hcall]; exact h.modes)
      (by rw [hcall]; exact ⟨Memory.seen_read h.record, h.exclusive⟩) hwrite
    exact ⟨h.modes, h.record, h.exclusive,
      forall_mem_set h.clients (fun _ hc => hc) ⟨hcall, hnext⟩⟩

theorem Sound.act (h : t.Sound table mode) {m : Move} (hdrop : m.isDrop = false) :
    (t.act table m).Sound table mode := by
  by_cases hproceed : ∃ client chance, m = .proceed client chance
  · obtain ⟨client, chance, rfl⟩ := hproceed
    exact h.proceeds (t.proceeds client chance)
  by_cases henter : ∃ request attempts generations, m = .enter request attempts generations
  · obtain ⟨request, attempts, generations, rfl⟩ := henter
    refine ⟨h.modes, h.record, h.exclusive, fun c hc => ?_⟩
    rcases List.mem_append.mp hc with hc | hc
    · exact h.clients c hc
    · rw [List.mem_singleton.mp hc]
      exact ⟨rfl, Phase.sound_begin _ _ _⟩
  · push Not at hproceed henter
    obtain ⟨hmemory, hmodes, hclients⟩ := act_frame table t hproceed henter hdrop
    have hlineage : (t.act table m).lineage table = t.lineage table := by
      unfold lineage
      rw [hmemory]
    refine ⟨?_, ?_, ?_, ?_⟩
    · rw [hmodes]; exact h.modes
    · rw [hlineage]; exact h.record
    · rw [hlineage]; exact h.exclusive
    · rw [hclients, hmemory]; exact h.clients

/-- Traffic is sound after every run in which the record is not removed. -/
theorem sound_run {s : Site} (h : s.memory.get? table = none) (hmode : s.modes.of table = mode)
    {moves : List Move} (hdrop : ∀ m ∈ moves, m.isDrop = false) :
    ((idle s).run table moves).Sound table mode :=
  run_induction (fun _ _ hm h => h.act hm) moves (idle s) hdrop (sound_idle h hmode)

end Traffic

end SegmentSwap
