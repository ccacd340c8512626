import SegmentSwap.Proofs.Protocol.Retry
import SegmentSwap.Proofs.Traffic.Decision
import SegmentSwap.Proofs.Traffic.History
import SegmentSwap.Proofs.Traffic.Interference
import SegmentSwap.Proofs.Traffic.Staleness

/-!
# How calls fail

A call on a table whose record was made by calls fails only in ways that its caller is told to
expect, however often its writes are lost. Nothing within an attempt can go wrong: the entries that
it moves are in progress, their ids are known, their segments stay what they are, the states of all
entries are those of the protocol, and the id of a new entry is in use nowhere. For the last of these
it is said what every call holds: an id that nobody else holds and that no entry has.

Around the attempts there is the loop that makes them. It never runs out of attempts without an end,
whatever hands them out. But it fails where its waits cannot be set up and where one of them fails,
and of that callers are not told.
-/

namespace SegmentSwap

/-- The failures that those who make a request are told to expect. -/
def Request.categories : Request → List Category
  | .start .. =>
    [.malformedRequest, .duplicateTargets, .unavailableSources, .contested, .exhausted]
  | .finish _ => [.unknownEntry, .invalidTransition, .notUploaded, .exhausted]
  | .revert .. => [.unknownEntry, .invalidTransition, .uploaded, .exhausted]

/-- A failure is declared for a request. If an entry cannot be moved, then it is the one that the
request names, and it has been resolved. -/
structure Request.Declares (r : Request) (f : Failure) : Prop where
  category : ∃ category ∈ r.categories, f.kind = .declared category
  transition : ∀ fault, f = .refusal (.transition fault) → ∃ (j : Job) (id : Text) (state : State),
    j.request = r ∧ j.entry? = some id ∧ (state = .completed ∨ state = .reverted) ∧
      fault = .forbidden id state j.goal []

/-- The kinds of failures that waits have: they are too long, or their length is no number. -/
def Kind.isOfWaits : Kind → Bool
  | .overflow | .invalidValue => true
  | _ => false

/-- The loop over attempts has a part in the next answer: it is set up before the record is read for
the first time, and it may wait after a write. -/
def Phase.isLooping : Phase → Bool
  | .reading a => a.number == 1
  | .writing .. => true
  | _ => false

/-- The id that a start has been given, up to its write. -/
def Phase.held? : Phase → Option Text
  | .configuring id _ _ _ => some id
  | phase => phase.attempt?.bind fun a => a.job.opened?

namespace Request

variable {r : Request} {f : Failure} {category : Category}

/-- No failure of another category is about the move of an entry. -/
theorem Declares.of_kind (hmem : category ∈ r.categories) (hkind : f.kind = .declared category)
    (hother : category ≠ .invalidTransition) : r.Declares f := by
  refine ⟨⟨category, hmem, hkind⟩, ?_⟩
  rintro fault rfl
  cases fault with
  | forbidden => exact absurd (Kind.declared.inj hkind).symm hother
  | unknownState => cases hkind

theorem declares_exhausted (r : Request) (action table : Text) (attempts : Int) :
    r.Declares (.exhausted action table attempts) := by
  have hmem : .exhausted ∈ r.categories := by cases r <;> simp [categories]
  exact .of_kind hmem rfl (by decide)

end Request

namespace Call

variable {c : Call} {a : Attempt} {read : Versioned} {e : Entry} {f : Failure} {id : Text}

theorem declares_begin (h : c.begin = fail f) : c.request.Declares f := by
  unfold begin at h
  cases hrequest : c.request with
  | start sources targets force =>
    rw [hrequest] at h
    dsimp only at h
    split at h
    · rename_i r hcheck
      cases h
      exact .of_kind (by simp [Request.categories]) (Check.kind_of_request hcheck) (by decide)
    · cases h
  | finish =>
    rw [hrequest] at h
    cases h
  | revert =>
    rw [hrequest] at h
    cases h

/-- A start that fails one of its checks is turned down for its segments. -/
theorem declares_checkStart {sources targets registered : List Text} {force : Bool} {l : Lineage}
    {r : Refusal} (hrequest : c.request = .start sources targets force)
    (h : c.checkStart sources targets force l registered = .error r) :
    c.request.Declares (.refusal r) := by
  have hkind : r.kind = .declared .duplicateTargets ∨ r.kind = .declared .unavailableSources ∨
      r.kind = .declared .contested := by
    unfold checkStart at h
    rcases bind_eq_error_iff.mp h with h | ⟨_, -, h⟩
    · exact .inl (Check.kind_of_targetsFree h)
    rcases bind_eq_error_iff.mp h with h | ⟨_, -, h⟩
    · exact .inr (.inl (Check.kind_of_sourcesServed h))
    · exact .inr (.inr (Check.kind_of_uncontested h))
  rw [hrequest]
  rcases hkind with hkind | hkind | hkind <;>
    exact .of_kind (by simp [Request.categories]) hkind (by decide)

/-- What stands against the end of an entry are its targets. -/
theorem declares_judge (hrequest : a.job.request = c.request) (hid : a.job.entry? = some id)
    {found : List Text} (h : c.judge a read e found = fail f) : c.request.Declares f := by
  unfold judge at h
  rw [← hrequest]
  cases hj : a.job with
  | start =>
    rw [hj] at hid
    cases hid
  | finish target =>
    have hmem : .notUploaded ∈ (Job.finish target).request.categories := by
      simp [Job.request, Request.categories]
    rw [hj] at h
    dsimp only at h
    split at h <;> cases h
    exact .of_kind hmem rfl (by decide)
  | revert target force =>
    have hmem : .uploaded ∈ (Job.revert target force).request.categories := by
      simp [Job.request, Request.categories]
    rw [hj] at h
    dsimp only at h
    split at h <;> cases h
    exact .of_kind hmem rfl (by decide)

theorem declares_probe (hrequest : a.job.request = c.request) (hid : a.job.entry? = some id)
    {left found : List Text} (h : c.probe a read e left found = fail f) :
    c.request.Declares f := by
  cases left with
  | cons => cases h
  | nil => exact declares_judge hrequest hid h

/-- An entry in one of the states of the protocol that cannot be moved has been resolved. -/
theorem resolved_of_movable {goal : State} {r : Refusal} (he : e.state ∈ State.listed)
    (hgoal : goal = .completed ∨ goal = .reverted) (h : Check.movable e goal = .error r) :
    (e.state = .completed ∨ e.state = .reverted) ∧
      r = .transition (.forbidden e.id e.state goal []) := by
  have hstate : e.state = .completed ∨ e.state = .reverted := by
    simp only [State.listed, List.mem_cons, List.not_mem_nil, or_false] at he
    refine he.resolve_left fun hrunning => ?_
    have hmovable : Check.movable e goal = .ok () := Check.movable_eq_ok_iff.mpr ⟨hrunning, hgoal⟩
    rw [hmovable] at h
    cases h
  refine ⟨hstate, ?_⟩
  unfold Check.movable State.checkStep at h
  rcases hstate with hs | hs <;> rw [hs] at h ⊢ <;> exact (Except.error.inj h).symm

theorem declares_lookUp (hrequest : a.job.request = c.request) (hid : a.job.entry? = some id)
    (hlisted : ∀ e ∈ read.lineage.entries, e.state ∈ State.listed)
    (h : c.lookUp a read id = fail f) : c.request.Declares f := by
  have hends : .unknownEntry ∈ a.job.request.categories ∧
      .invalidTransition ∈ a.job.request.categories := by
    cases hj : a.job with
    | start =>
      rw [hj] at hid
      cases hid
    | finish | revert => simp [Job.request, Request.categories]
  unfold lookUp at h
  split at h
  · rename_i r hunknown
    cases h
    unfold Check.known at hunknown
    split at hunknown <;> cases hunknown
    rw [← hrequest]
    exact .of_kind hends.1 rfl (by decide)
  · rename_i e hknown
    obtain ⟨hmem, rfl⟩ := Check.known_eq_ok_iff.mp hknown
    split at h
    · rename_i r hmovable
      cases h
      obtain ⟨hstate, rfl⟩ :=
        resolved_of_movable (hlisted e hmem) (Job.goal_of_entry? hid) hmovable
      rw [← hrequest]
      refine ⟨⟨_, hends.2, rfl⟩, fun fault hfault => ?_⟩
      cases hfault
      exact ⟨a.job, e.id, e.state, rfl, hid, hstate, rfl⟩
    · exact declares_probe hrequest hid h

/-- With services that are in order, states that are listed and an id that is new, a call that has
not come to its write fails in a declared way or not at all. -/
theorem declares_step {chance : Chance} {phase : Phase} {s : Site} (hup : chance.outage? = none)
    (hserves : phase.Serves c.request) (hlooking : phase.isLooking = true)
    (hlisted : ∀ e ∈ (s.memory.read c.table).lineage.entries, e.state ∈ State.listed)
    (hnew : ∀ a ticket sources targets read registered,
      phase = .dating a ticket sources targets read registered → ticket.id ∉ read.lineage.ids)
    (h : (step (Site.services chance) c phase s).1 = fail f) : c.request.Declares f := by
  have hanswer : ∀ {α : Type} (x : α), chance.answer x = .ok x := fun x => by
    unfold Chance.answer
    rw [hup]
  cases phase with
  | minting => cases h
  | configuring id sources targets force =>
    change afterMode id sources targets force (chance.answer (s.modes.of c.table)) = fail f at h
    rw [hanswer] at h
    cases h
  | reading a =>
    rw [Site.step_reading, hanswer] at h
    unfold afterRead at h
    dsimp only at h
    split at h
    · cases h
    · rename_i hj
      exact declares_lookUp hserves (by rw [hj]; rfl) hlisted h
    · rename_i hj
      exact declares_lookUp hserves (by rw [hj]; rfl) hlisted h
  | surveying a ticket sources targets force read =>
    change c.afterSurvey a ticket sources targets force read
      (chance.answer (s.registry.segments c.table)) = fail f at h
    obtain ⟨hrequest, hj⟩ := hserves
    rw [hj] at hrequest
    rw [hanswer] at h
    unfold afterSurvey at h
    dsimp only at h
    split at h
    · rename_i hcheck
      cases h
      exact declares_checkStart hrequest.symm hcheck
    · cases h
  | dating a ticket sources targets read registered =>
    change c.afterDate a ticket sources targets read registered chance.stamp = fail f at h
    unfold afterDate at h
    rcases planStart_cases c ticket sources targets read registered chance.stamp with
      ⟨htaken, -⟩ | ⟨-, plan, hplan, -⟩
    · exact absurd htaken (hnew a ticket sources targets read registered rfl)
    · rw [hplan] at h
      cases h
  | probing a read e next rest found =>
    change c.afterProbe a read e next rest found
      (chance.answer (s.registry.isAvailable c.table next)) = fail f at h
    rw [hanswer] at h
    exact declares_probe hserves.1 hserves.2.id h
  | closing a read e =>
    change afterClose a read e chance.stamp = fail f at h
    obtain ⟨plan, hplan, -⟩ := planEnd_running chance.stamp hserves.2.running
      (Job.goal_of_entry? hserves.2.id)
    unfold afterClose at h
    rw [hplan] at h
    cases h
  | auditing a plan =>
    change afterAudit a plan (chance.answer (s.registry.segments c.table)) = fail f at h
    rw [hanswer] at h
    cases h
  | writing | queueing | done => cases hlooking

end Call

/-! ## Ids that are held -/

namespace Phase

variable {c : Call} {a : Attempt} {known : Attempt → Versioned → Prop} {ready : Attempt → Prop}

theorem held?_begin (c : Call) : c.begin.held? = none := by
  unfold Call.begin
  split
  · split <;> rfl
  · rfl
  · rfl

theorem held?_queue (e : Entry) (batches : List Batch) : (Call.queue e batches).held? = none := by
  induction batches with
  | nil => rfl
  | cons b rest ih =>
    unfold Call.queue
    split
    · exact ih
    · rfl

/-- A call whose write is lost holds on to its id or fails. -/
theorem held?_lost {chance : Chance} {next : Phase} (h : c.Loses chance a next) (plan : Plan) :
    next.held? = none ∨ next.held? = (Phase.writing a plan).held? := by
  cases h with
  | again => exact .inr rfl
  | spent | outage => exact .inl rfl

/-- A call that does not write comes to hold an id when it is given one, and keeps it as long as it
does not fail. -/
theorem held?_step (chance : Chance) (c : Call) {phase : Phase} (s : Site)
    (hwrite : ∀ a plan, phase ≠ .writing a plan) :
    (Call.step (Site.services chance) c phase s).1.held? = none ∨
      (Call.step (Site.services chance) c phase s).1.held? = phase.held? ∨
      ∃ sources targets force, phase = .minting sources targets force ∧
        (Call.step (Site.services chance) c phase s).1.held? = some chance.id := by
  have hadvances := c.advances chance s hwrite
  generalize (Call.step (Site.services chance) c phase s).1 = next at hadvances ⊢
  cases hadvances with
  | fail => exact .inl rfl
  | mint => exact .inr (.inr ⟨_, _, _, rfl, rfl⟩)
  | approach _ _ hnext => cases hnext <;> exact .inr (.inl rfl)
  | probe hnext => cases hnext <;> exact .inr (.inl rfl)
  | order => exact .inl (held?_queue _ _)
  | rest => exact .inl rfl
  | _ => exact .inr (.inl rfl)

/-- What is known of a record that has been read may be said more weakly. -/
theorem Based.mono {known' : Attempt → Versioned → Prop}
    (hknown : ∀ a read, known a read → known' a read) {phase : Phase}
    (h : phase.Based ready known) : phase.Based ready known' := by
  cases phase with
  | minting | configuring | reading | queueing | done => exact h
  | surveying | dating | probing | closing => exact hknown _ _ h
  | auditing | writing =>
    obtain ⟨read, hread, hplan⟩ := h
    exact ⟨read, hknown _ _ hread, hplan⟩

end Phase

/-- What a call writes holds entries in the states of the protocol, if what it has read does. -/
theorem Drafted.listed {mode : Mode} {c : Call} {j : Job} {read : Versioned} {plan : Plan}
    (h : Drafted mode c j read plan) (hl : Exclusive read.lineage)
    (hlisted : ∀ e ∈ read.lineage.entries, e.state ∈ State.listed) :
    ∀ e ∈ plan.lineage.entries, e.state ∈ State.listed := by
  have hmoved : ∀ {xs : List Entry} {next : State} {stamp : Text} {l : Lineage},
      next ∈ State.listed → read.lineage.Moves xs next stamp l →
      ∀ e ∈ l.entries, e.state ∈ State.listed := by
    intro xs next stamp l hnext hmoves e he
    obtain ⟨x, hx, rfl⟩ := hmoves.mem.mp he
    rw [Entry.movedAmong_state]
    split
    · exact hnext
    · exact hlisted x hx
  cases h with
  | start _ _ _ hplan =>
    have hplan := Call.StartPlan.of_ok hplan
    obtain ⟨mid, hmoves, happends⟩ := hplan.lineage
    intro e he
    rw [happends.entries] at he
    rcases List.mem_append.mp he with he | he
    · exact hmoved (by decide) hmoves e he
    · rw [List.mem_singleton.mp he, hplan.entry]
      exact List.mem_cons_self
  | ending he hplan =>
    refine hmoved ?_ (hplan.moves hl he.running).2
    rcases Job.goal_of_entry? he.id with hgoal | hgoal <;> rw [hgoal] <;> decide

namespace Traffic

variable {table : Text} {mode : Mode} {t : Traffic} {m : Move} {ids : List Text} {c : Client}
  {site : Site} {moves : List Move} {f : Failure} {faults : Nat → List Failure}

/-- The id that a client is given in a move. -/
def minted? (t : Traffic) : Move → Option Text
  | .proceed client chance =>
    match t.clients[client]? with
    | some ⟨_, .minting ..⟩ => some chance.id
    | _ => none
  | _ => none

/-- The ids that clients are given in a run, the first one first. -/
def minted (table : Text) : List Move → Traffic → List Text
  | [], _ => []
  | m :: moves, t => (t.minted? m).toList ++ minted table moves (t.act table m)

/-- How the loop over the attempts of a call is out of order in a move. -/
def loopFault? (t : Traffic) (i : Nat) : Move → Option Failure
  | .proceed client chance =>
    match t.clients[i]? with
    | some c => if client = i ∧ c.phase.isLooping = true then chance.outage? else none
    | none => none
  | _ => none

/-- How the loop over the attempts of a call is out of order in a run. -/
def loopFaults (table : Text) (i : Nat) : List Move → Traffic → List Failure
  | [], _ => []
  | m :: moves, t => (t.loopFault? i m).toList ++ loopFaults table i moves (t.act table m)

/-- No service is out of order in a run, except that loops over attempts may fail to wait. -/
def OnlyWaitsFail (table : Text) : List Move → Traffic → Prop
  | [], _ => True
  | m :: moves, t =>
    (∀ client chance f, m = .proceed client chance → chance.outage? = some f →
      t.loopFault? client m = some f ∧ f.kind.isOfWaits = true) ∧
    OnlyWaitsFail table moves (t.act table m)

/-- What is known of a call, given the ids in the record, those that have been given so far, and how
the loop over its attempts has been out of order. -/
structure Orderly (used ids : List Text) (faults : List Failure) (c : Client) : Prop where
  serves : c.phase.Serves c.call.request
  /-- The record has kept all entries that the call has read. -/
  recalls : c.phase.Based (fun _ => True) fun _ read => ∀ id ∈ read.lineage.ids, id ∈ used
  holds : ∀ id, c.phase.held? = some id → id ∈ ids ∧ id ∉ used
  declares : ∀ f, c.phase = Call.fail f → c.call.request.Declares f ∨ f ∈ faults

/-- What holds in a run in which no id is given twice. -/
structure Untroubled (table : Text) (mode : Mode) (ids : List Text) (faults : Nat → List Failure)
    (t : Traffic) : Prop where
  sound : t.Sound table mode
  listed : ∀ e ∈ (t.lineage table).entries, e.state ∈ State.listed
  used : ∀ id ∈ (t.lineage table).ids, id ∈ ids
  clients : ∀ (i : Nat) (c : Client), t.clients[i]? = some c →
    Orderly (t.lineage table).ids ids (faults i) c
  apart : ∀ (i j : Nat) (c d : Client) (id : Text), t.clients[i]? = some c →
    t.clients[j]? = some d → c.phase.held? = some id → d.phase.held? = some id → i = j

theorem untroubled_idle (h : site.memory.get? table = none) (hmode : site.modes.of table = mode) :
    (idle site).Untroubled table mode [] (fun _ => []) := by
  have hempty : (idle site).lineage table = .empty table := lineage_idle h
  refine ⟨sound_idle h hmode, ?_, ?_, (fun i c hc => by cases hc), ?_⟩
  · rw [hempty]
    exact fun e he => absurd he List.not_mem_nil
  · rw [hempty]
    exact fun id hid => absurd hid List.not_mem_nil
  · intro i j c d id hc
    cases hc

theorem minted?_of_minting {client : Nat} (chance : Chance) {sources targets : List Text}
    {force : Bool} (hc : t.clients[client]? = some c)
    (hphase : c.phase = .minting sources targets force) :
    t.minted? (.proceed client chance) = some chance.id := by
  obtain ⟨call, phase⟩ := c
  obtain rfl : phase = .minting sources targets force := hphase
  unfold minted?
  dsimp only
  rw [hc]

/-- A call of a run is one that has got an answer, one that has just begun, or as it was before. -/
theorem client_cases {i : Nat} (hc : (t.act table m).clients[i]? = some c) :
    (∃ chance old, m = .proceed i chance ∧ t.clients[i]? = some old ∧
      c = ⟨old.call, (Call.step (Site.services chance) old.call old.phase t.site).1⟩) ∨
    c.phase = c.call.begin ∨ (t.clients[i]? = some c ∧ m.isAnswerTo i = false) := by
  cases hold : t.clients[i]? with
  | none => exact .inr (.inl (begun_of_new hold hc).2)
  | some old =>
    cases hm : m.isAnswerTo i with
    | false =>
      rw [getElem?_act_of_ne hold (Move.ne_proceed_of_isAnswerTo hm)] at hc
      exact .inr (.inr ⟨hc, rfl⟩)
    | true =>
      obtain ⟨chance, rfl⟩ := Move.isAnswerTo_iff.mp hm
      have hc : (t.proceed i chance).clients[i]? = some c := hc
      rw [getElem?_proceed_self chance hold] at hc
      exact .inl ⟨chance, old, rfl, rfl, (Option.some.inj hc).symm⟩

/-- Who holds an id after a move has held it before, or has just been given it. -/
theorem held_cases {i : Nat} {id : Text} (hc : (t.act table m).clients[i]? = some c)
    (hid : c.phase.held? = some id) :
    t.minted? m = some id ∧ m.isAnswerTo i = true ∨
      ∃ old, t.clients[i]? = some old ∧ old.phase.held? = some id := by
  rcases client_cases hc with ⟨chance, old, rfl, hold, rfl⟩ | hbegin | ⟨hold, -⟩
  · by_cases hwriting : ∃ a plan, old.phase = .writing a plan
    · obtain ⟨a, plan, hphase⟩ := hwriting
      dsimp only at hid
      cases hk : t.commit? (.proceed i chance) with
      | some k =>
        rw [(step_of_commit hold hk).2.2, Phase.held?_queue] at hid
        cases hid
      | none =>
        obtain ⟨next, hnext, hstep⟩ := step_of_lost hold hphase hk
        rw [hstep] at hid
        rcases Phase.held?_lost hnext plan with hnone | hsame
        · rw [hnone] at hid
          cases hid
        · rw [hsame, ← hphase] at hid
          exact .inr ⟨old, hold, hid⟩
    · dsimp only at hid
      rcases Phase.held?_step chance old.call t.site fun a plan hphase =>
        hwriting ⟨a, plan, hphase⟩ with hnone | hsame | ⟨sources, targets, force, hphase, hgiven⟩
      · rw [hnone] at hid
        cases hid
      · rw [hsame] at hid
        exact .inr ⟨old, hold, hid⟩
      · rw [hgiven] at hid
        rw [minted?_of_minting chance hold hphase]
        exact .inl ⟨hid, Move.isAnswerTo_iff.mpr ⟨chance, rfl⟩⟩
  · rw [hbegin, Phase.held?_begin] at hid
    cases hid
  · exact .inr ⟨c, hold, hid⟩

/-- A new id in the record is the one that the call which has committed has held and holds no
longer. -/
theorem Untroubled.ids_cases (h : t.Untroubled table mode ids faults) (hdrop : m.isDrop = false)
    {id : Text}    (hid : id ∈ ((t.act table m).lineage table).ids) :
    id ∈ (t.lineage table).ids ∨ ∃ (i : Nat) (old c : Client), t.clients[i]? = some old ∧
      old.phase.held? = some id ∧ (t.act table m).clients[i]? = some c ∧ c.phase.held? = none := by
  cases hk : t.commit? m with
  | none =>
    unfold lineage at hid
    rw [memory_of_quiet table hk hdrop] at hid
    exact .inl hid
  | some k =>
    obtain ⟨⟨c, hdraft⟩, hlineage⟩ := h.sound.of_commit hk
    rw [hlineage, hdraft.ids h.sound.exclusive, List.mem_append, Option.mem_toList] at hid
    refine hid.imp_right fun hopened => ?_
    obtain ⟨chance, old, rfl, hold, hphase, -⟩ := commit?_eq_some hk
    refine ⟨k.client, old, _, hold, ?_, getElem?_proceed_self chance hold, ?_⟩
    · rw [hphase]
      exact hopened
    · dsimp only
      rw [(step_of_commit hold hk).2.2]
      exact Phase.held?_queue _ _

/-- A call that fails with an answer of a service that is in order fails in a declared way. -/
theorem Untroubled.declares_up (h : t.Untroubled table mode ids faults) {client : Nat}
    {chance : Chance} (hup : chance.outage? = none) (hc : t.clients[client]? = some c)
    (hfail : (Call.step (Site.services chance) c.call c.phase t.site).1 = Call.fail f) :
    c.call.request.Declares f ∨ f ∈ faults client := by
  obtain ⟨hserves, hrecalls, hholds, hdeclares⟩ := h.clients client c hc
  have htable := (h.sound.clients c (List.mem_of_getElem? hc)).1
  cases hphase : c.phase with
  | writing a plan =>
    cases hk : t.commit? (.proceed client chance) with
    | some k =>
      have hcommitted := (committed?_of_commit hc hk).2
      rw [hfail] at hcommitted
      cases hcommitted
    | none =>
      obtain ⟨next, hnext, hstep⟩ := step_of_lost hc hphase hk
      rw [hstep] at hfail
      cases hnext with
      | again => cases hfail
      | spent =>
        cases hfail
        exact .inl (Request.declares_exhausted _ _ _ _)
      | outage hf =>
        rw [hup] at hf
        cases hf
  | queueing e b rest =>
    have hwrite : ∀ a plan, c.phase ≠ .writing a plan := by
      rw [hphase]
      exact fun _ _ hne => by cases hne
    have hcommitted := Phase.committed?_step chance c.call t.site hwrite
    rw [hfail, hphase] at hcommitted
    cases hcommitted
  | done r =>
    rw [hphase] at hfail
    exact hdeclares f (hphase.trans hfail)
  | _ =>
    refine .inl (Call.declares_step hup hserves (by rw [hphase]; rfl) ?_ ?_ hfail)
    · rw [htable]
      exact h.listed
    · intro a ticket sources targets read registered hdating hused
      rw [hdating] at hserves hrecalls hholds
      obtain ⟨-, force, hj⟩ := hserves
      have hheld : (Phase.dating a ticket sources targets read registered).held? =
          some ticket.id := by
        show a.job.opened? = some ticket.id
        rw [hj]
        rfl
      exact (hholds ticket.id hheld).2 (hrecalls ticket.id hused)

theorem loopFault?_eq_some {i client : Nat} {chance : Chance}
    (h : t.loopFault? i (.proceed client chance) = some f) :
    client = i ∧ chance.outage? = some f ∧
      ∃ c, t.clients[i]? = some c ∧ c.phase.isLooping = true := by
  unfold loopFault? at h
  dsimp only at h
  split at h
  · rename_i c hc
    split at h
    · rename_i hlooping
      exact ⟨hlooping.1, h, c, hc, hlooping.2⟩
    · cases h
  · cases h

/-- A call at which the loop over its attempts is out of order fails by that, or does not fail. -/
theorem fault_of_looping {client : Nat} {chance : Chance} {g : Failure}
    (hg : chance.outage? = some g) (hc : t.clients[client]? = some c)
    (hlooping : c.phase.isLooping = true)
    (hfail : (Call.step (Site.services chance) c.call c.phase t.site).1 = Call.fail f) : f = g := by
  cases hphase : c.phase with
  | reading a =>
    have hanswer : ∀ read : Versioned, chance.answer read = .error g := fun read => by
      unfold Chance.answer
      rw [hg]
    rw [hphase, Site.step_reading, hanswer] at hfail
    cases hfail
    rfl
  | writing a plan =>
    cases hk : t.commit? (.proceed client chance) with
    | some k =>
      have hcommitted := (committed?_of_commit hc hk).2
      rw [hfail] at hcommitted
      cases hcommitted
    | none =>
      obtain ⟨next, hnext, hstep⟩ := step_of_lost hc hphase hk
      rw [hstep] at hfail
      cases hnext with
      | again => cases hfail
      | spent hup =>
        rw [hg] at hup
        cases hup
      | outage hf =>
        cases hfail
        exact Option.some.inj (hf.symm.trans hg)
  | _ =>
    rw [hphase] at hlooping
    cases hlooping

/-- A call that fails with an answer fails in a declared way, or because of its loop. -/
theorem Untroubled.declares_step (h : t.Untroubled table mode ids faults) {client : Nat}
    {chance : Chance} (hup : ∀ g, chance.outage? = some g →
      t.loopFault? client (.proceed client chance) = some g)
    (hc : t.clients[client]? = some c)
    (hfail : (Call.step (Site.services chance) c.call c.phase t.site).1 = Call.fail f) :
    c.call.request.Declares f ∨
      f ∈ faults client ++ (t.loopFault? client (.proceed client chance)).toList := by
  cases houtage : chance.outage? with
  | none => exact (h.declares_up houtage hc hfail).imp_right fun hf => List.mem_append_left _ hf
  | some g =>
    have hfault := hup g houtage
    obtain ⟨-, -, c', hc', hlooping⟩ := loopFault?_eq_some hfault
    obtain rfl : c = c' := Option.some.inj (hc.symm.trans hc')
    obtain rfl := fault_of_looping houtage hc hlooping hfail
    rw [hfault]
    exact .inr (List.mem_append_right _ (List.mem_singleton_self f))

/-- A move on a table, with services that are in order, loops apart, and an id that has not been
given before, if one is given. -/
theorem Untroubled.act (h : t.Untroubled table mode ids faults) (hdrop : m.isDrop = false)
    (hup : ∀ client chance g, m = .proceed client chance → chance.outage? = some g →
      t.loopFault? client m = some g)
    (hnew : ∀ id, t.minted? m = some id → id ∉ ids) :
    (t.act table m).Untroubled table mode (ids ++ (t.minted? m).toList)
      (fun i => faults i ++ (t.loopFault? i m).toList) := by
  have hcontinues := h.sound.continues_act hdrop
  have hgrows : ∀ id ∈ (t.lineage table).ids, id ∈ ((t.act table m).lineage table).ids :=
    fun id hid => hcontinues.ids_prefix.subset hid
  have hheld : ∀ {i : Nat} {old : Client} {id : Text}, t.clients[i]? = some old →
      old.phase.held? = some id → id ∈ ids ∧ id ∉ (t.lineage table).ids :=
    fun hold hid => (h.clients _ _ hold).holds _ hid
  have hused : ∀ id ∈ ((t.act table m).lineage table).ids, id ∈ ids := by
    intro id hid
    rcases h.ids_cases hdrop hid with hid | ⟨i, old, -, hold, hid, -⟩
    · exact h.used id hid
    · exact (hheld hold hid).1
  constructor
  case sound => exact h.sound.act hdrop
  case listed =>
    cases hk : t.commit? m with
    | none =>
      unfold lineage
      rw [memory_of_quiet table hk hdrop]
      exact h.listed
    | some k =>
      obtain ⟨⟨c, hdraft⟩, hlineage⟩ := h.sound.of_commit hk
      rw [hlineage]
      exact hdraft.listed h.sound.exclusive h.listed
  case used => exact fun id hid => List.mem_append_left _ (hused id hid)
  case clients =>
    intro i c hc
    have hholds : ∀ id, c.phase.held? = some id →
        id ∈ ids ++ (t.minted? m).toList ∧ id ∉ ((t.act table m).lineage table).ids := by
      intro id hid
      rcases held_cases hc hid with ⟨hgiven, -⟩ | ⟨old, hold, hid'⟩
      · refine ⟨List.mem_append_right _ (by rw [hgiven]; exact List.mem_singleton_self id), ?_⟩
        exact fun hmem => hnew id hgiven (hused id hmem)
      · obtain ⟨hmem, hunused⟩ := hheld hold hid'
        refine ⟨List.mem_append_left _ hmem, fun hmem' => ?_⟩
        -- only the call itself could have put its id into the record
        rcases h.ids_cases hdrop hmem' with hmem' | ⟨j, other, after, hother, hid'', hafter, hnone⟩
        · exact hunused hmem'
        · obtain rfl : i = j := h.apart i j old other id hold hother hid' hid''
          obtain rfl : c = after := Option.some.inj (hc.symm.trans hafter)
          rw [hnone] at hid
          cases hid
    rcases client_cases hc with ⟨chance, old, rfl, hold, rfl⟩ | hbegin | ⟨hold, -⟩
    · obtain ⟨hserves, hrecalls, -, -⟩ := h.clients i old hold
      have htable := (h.sound.clients old (List.mem_of_getElem? hold)).1
      have hdeclares : ∀ f,
          (Call.step (Site.services chance) old.call old.phase t.site).1 = Call.fail f →
            old.call.request.Declares f ∨
              f ∈ faults i ++ (t.loopFault? i (.proceed i chance)).toList :=
        fun f hfail => h.declares_step (fun g hg => hup i chance g rfl hg) hold hfail
      refine ⟨serves_proceed hold hserves, ?_, hholds, hdeclares⟩
      refine (hrecalls.step chance (fun _ _ => ?_) fun _ _ _ => trivial).mono
        fun _ read hread id hid => hgrows id (hread id hid)
      rw [htable]
      exact fun id hid => hid
    · refine ⟨?_, ?_, hholds,
        fun f hfail => .inl (Call.declares_begin (hbegin.symm.trans hfail))⟩
      · rw [hbegin]
        exact Phase.serves_begin _
      · rw [hbegin]
        exact Phase.based_begin fun _ => trivial
    · obtain ⟨hserves, hrecalls, -, hdeclares⟩ := h.clients i c hold
      exact ⟨hserves, hrecalls.mono fun _ read hread id hid => hgrows id (hread id hid), hholds,
        fun f hfail => (hdeclares f hfail).imp_right fun hf => List.mem_append_left _ hf⟩
  case apart =>
    intro i j c d id hc hd hid hid'
    rcases held_cases hc hid with ⟨hgiven, hi⟩ | ⟨old, hold, hid⟩ <;>
      rcases held_cases hd hid' with ⟨hgiven', hj⟩ | ⟨old', hold', hid'⟩
    · obtain ⟨chance, rfl⟩ := Move.isAnswerTo_iff.mp hi
      obtain ⟨chance', heq⟩ := Move.isAnswerTo_iff.mp hj
      exact (Move.proceed.inj heq).1
    · exact absurd (hheld hold' hid').1 (hnew id hgiven)
    · exact absurd (hheld hold hid).1 (hnew id hgiven')
    · exact h.apart i j old old' id hold hold' hid hid'

theorem Untroubled.run (h : t.Untroubled table mode ids faults)
    (hdrop : ∀ m ∈ moves, m.isDrop = false) (hwaits : OnlyWaitsFail table moves t)
    (hnew : (ids ++ minted table moves t).Nodup) :
    (t.run table moves).Untroubled table mode (ids ++ minted table moves t)
      (fun i => faults i ++ loopFaults table i moves t) := by
  induction moves generalizing t ids faults with
  | nil =>
    show t.Untroubled table mode (ids ++ []) (fun i => faults i ++ [])
    simp only [List.append_nil]
    exact h
  | cons m moves ih =>
    have hsplit : ids ++ minted table (m :: moves) t =
        (ids ++ (t.minted? m).toList) ++ minted table moves (t.act table m) :=
      (List.append_assoc ..).symm
    have hsplit' : (fun i => faults i ++ loopFaults table i (m :: moves) t) = fun i =>
        (faults i ++ (t.loopFault? i m).toList) ++ loopFaults table i moves (t.act table m) :=
      funext fun i => (List.append_assoc ..).symm
    rw [hsplit] at hnew
    rw [hsplit, hsplit']
    have hfirst : ∀ id, t.minted? m = some id → id ∉ ids := by
      intro id hgiven hid
      rw [hgiven] at hnew
      exact List.disjoint_of_nodup_append (List.nodup_append.mp hnew).1 hid
        (List.mem_singleton_self id)
    obtain ⟨hup, hwaits⟩ := hwaits
    have hnext := h.act (hdrop m List.mem_cons_self)
      (fun client chance g hm hg => (hup client chance g hm hg).1) hfirst
    exact ih hnext (fun m' hm' => hdrop m' (List.mem_cons_of_mem m hm')) hwaits hnew

theorem onlyWaitsFail_append {moves' : List Move} (h : OnlyWaitsFail table moves t)
    (h' : OnlyWaitsFail table moves' (t.run table moves)) :
    OnlyWaitsFail table (moves ++ moves') t := by
  induction moves generalizing t with
  | nil => exact h'
  | cons m moves ih => exact ⟨h.1, ih h.2 h'⟩

theorem onlyWaitsFail_of_up
    (h : ∀ client chance, .proceed client chance ∈ moves → chance.outage? = none) :
    OnlyWaitsFail table moves t := by
  induction moves generalizing t with
  | nil => trivial
  | cons m moves ih =>
    refine ⟨fun client chance f hm hf => ?_,
      ih fun client chance hmem => h client chance (List.mem_cons_of_mem m hmem)⟩
    rw [h client chance (hm ▸ List.mem_cons_self)] at hf
    cases hf

/-- Where only waits fail, loops are out of order in the way of waits. -/
theorem OnlyWaitsFail.isOfWaits {i : Nat} (h : OnlyWaitsFail table moves t)
    (hf : f ∈ loopFaults table i moves t) : f.kind.isOfWaits = true := by
  induction moves generalizing t with
  | nil => cases hf
  | cons m moves ih =>
    obtain ⟨hup, h⟩ := h
    rcases List.mem_append.mp hf with hf | hf
    · have hfault : t.loopFault? i m = some f := Option.mem_toList.mp hf
      cases m with
      | proceed client chance =>
        obtain ⟨-, houtage, -⟩ := loopFault?_eq_some hfault
        exact (hup client chance f rfl houtage).2
      | _ => cases hfault
    · exact ih h hf

/-- Any number of calls are made on a table that had no record, and its record is not removed. No id
is given twice, and no service is out of order, except that the loops over attempts may fail to
wait. Then every call that fails, whatever the calls before it and beside it have come to, fails in a
way that its caller is told to expect, or with a wait of its own loop. That holds whatever hands out
the attempts. -/
theorem failures_declared {i : Nat} (hnew : site.memory.get? table = none)
    (hdrop : ∀ m ∈ moves, m.isDrop = false) (hwaits : OnlyWaitsFail table moves (idle site))
    (hids : (minted table moves (idle site)).Nodup)
    (hc : ((idle site).run table moves).clients[i]? = some c) (hfail : c.phase = Call.fail f) :
    c.call.request.Declares f ∨
      f ∈ loopFaults table i moves (idle site) ∧ (f.kind = .overflow ∨ f.kind = .invalidValue) := by
  have hrun := (untroubled_idle hnew rfl).run hdrop hwaits hids
  refine ((hrun.clients i c hc).declares f hfail).imp_right fun hf => ⟨hf, ?_⟩
  have hkind := hwaits.isOfWaits hf
  unfold Kind.isOfWaits at hkind
  split at hkind
  · rename_i h
    exact .inl h
  · rename_i h
    exact .inr h
  · cases hkind

/-- Three calls are about to start a replacement of the same segment, and the first one commits. -/
def crowd : List Move :=
  [.enter (.start ["a"] ["b"] false) 5 2, .enter (.start ["a"] ["c"] false) 5 2,
    .enter (.start ["a"] ["d"] false) 5 2] ++
    Move.answers 1 5 "2" ++ Move.answers 2 5 "3" ++ Move.answers 0 6 "1"

/-- The second call loses its write, waits and tries again. The third one loses its write and cannot
wait. The entry of the first one is reverted, and another call wants to complete it. -/
def crowded : List Move :=
  crowd ++ [.proceed 2 ⟨"", "", some (.loop .tooLarge)⟩] ++
    (Move.answers 1 3 "" ++ [.enter (.revert "1" true) 5 2] ++ Move.answers 3 5 "" ++
      [.enter (.finish "1") 5 2] ++ Move.answers 4 1 "")

theorem onlyWaitsFail_crowded :
    OnlyWaitsFail "t" crowded (idle (.holding "t" .append ["a"])) := by
  refine onlyWaitsFail_append (onlyWaitsFail_append (onlyWaitsFail_of_up ?_) ⟨?_, trivial⟩)
    (onlyWaitsFail_of_up ?_)
  · simp +contextual [crowd, Move.answers, or_imp]
  · rintro client chance f ⟨⟩ ⟨⟩
    exact ⟨rfl, rfl⟩
  · simp +contextual [Move.answers, or_imp]

theorem failures_declared_crowded :
    let t := (idle (.holding "t" .append ["a"])).run "t" crowded
    let late : Failure := .refusal (.contested "t" ["a"] ["1"])
    let spent : Failure := .refusal (.transition (.forbidden "1" .reverted .completed []))
    minted "t" crowded (idle (.holding "t" .append ["a"])) = (["2", "3", "1"] : List Text) ∧
      (∃ c, t.clients[1]? = some c ∧ c.phase = Call.fail late ∧
        c.call.request = .start ["a"] ["c"] false ∧ c.call.request.Declares late) ∧
      (∃ c, t.clients[2]? = some c ∧ c.phase = Call.fail (.loop .tooLarge) ∧
        .loop .tooLarge ∈ loopFaults "t" 2 crowded (idle (.holding "t" .append ["a"]))) ∧
      ∃ c, t.clients[4]? = some c ∧ c.phase = Call.fail spent ∧ c.call.request = .finish "1" ∧
        c.call.request.Declares spent := by
  intro t late spent
  have hids : minted "t" crowded (idle (.holding "t" .append ["a"])) =
      (["2", "3", "1"] : List Text) := by
    decide +kernel
  have hdeclares : ∀ i c f, t.clients[i]? = some c → c.phase = Call.fail f →
      c.call.request.Declares f ∨ f ∈ loopFaults "t" i crowded (idle (.holding "t" .append ["a"])) ∧
        (f.kind = .overflow ∨ f.kind = .invalidValue) :=
    fun i c f hc hfail => failures_declared
      (rfl : (Site.holding "t" .append ["a"]).memory.get? "t" = none)
      (by decide : ∀ m ∈ crowded, m.isDrop = false) onlyWaitsFail_crowded
      (by rw [hids]; decide) hc hfail
  have hlate : t.clients[1]? = some ⟨⟨"t", .start ["a"] ["c"] false, 5, 2⟩, Call.fail late⟩ := rfl
  have hfault : t.clients[2]? =
      some ⟨⟨"t", .start ["a"] ["d"] false, 5, 2⟩, Call.fail (.loop .tooLarge)⟩ := rfl
  have hspent : t.clients[4]? = some ⟨⟨"t", .finish "1", 5, 2⟩, Call.fail spent⟩ := rfl
  refine ⟨hids, ⟨_, hlate, rfl, rfl, ?_⟩, ⟨_, hfault, rfl, ?_⟩, ⟨_, hspent, rfl, rfl, ?_⟩⟩
  · rcases hdeclares 1 _ late hlate rfl with h | ⟨-, h | h⟩
    · exact h
    · cases h
    · cases h
  · rcases hdeclares 2 _ _ hfault rfl with h | ⟨h, -⟩
    · obtain ⟨category, -, hkind⟩ := h.category
      cases hkind
    · exact h
  · rcases hdeclares 4 _ spent hspent rfl with h | ⟨-, h | h⟩
    · exact h
    · cases h
    · cases h

/-- A start comes to its first attempt, which may be one that there cannot be. -/
def opening (obstacle? : Option Failure) : List Move :=
  [.enter (.start ["a"] ["b"] false) 5 2] ++ Move.answers 0 2 "1" ++ [.proceed 0 ⟨"", "", obstacle?⟩]

/-- With a longest wait beyond the range of doubles there can be no attempt. A start fails by that
on a table without a record, though it is alone. -/
theorem endless_wait_undeclared :
    let obstacle? := (Retry.endlessPace.policy 5 (Failure.loop .tooLarge)).obstacle?
    ∃ c, ((idle (.holding "t" .append ["a"])).run "t" (opening obstacle?)).clients[0]? = some c ∧
      c.call.request = .start ["a"] ["b"] false ∧ c.phase = Call.fail (.loop .tooLarge) ∧
      ¬ c.call.request.Declares (.loop .tooLarge) := by
  have hobstacle : (Retry.endlessPace.policy 5 (Failure.loop .tooLarge)).obstacle? =
      some (.loop .tooLarge) := by
    have hlimit : Retry.endlessPace.limit?.isSome = false := by decide +kernel
    unfold Retry.Pace.policy
    dsimp only
    rw [hlimit]
    rfl
  dsimp only
  rw [hobstacle]
  refine ⟨⟨⟨"t", .start ["a"] ["b"] false, 5, 2⟩, Call.fail (.loop .tooLarge)⟩, rfl, rfl, rfl, ?_⟩
  rintro ⟨⟨category, -, hkind⟩, -⟩
  cases hkind

end Traffic

end SegmentSwap
