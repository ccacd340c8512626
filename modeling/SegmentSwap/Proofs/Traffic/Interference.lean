import SegmentSwap.Proofs.Deletion.Backing
import SegmentSwap.Proofs.Traffic.Atomicity
import SegmentSwap.Proofs.Traffic.Attempt

/-!
# Why attempts are lost

A write is lost only if the record has changed since its attempt has read it, that is, if another
call has committed or the record has been removed. The windows between the reading and the write of
the attempts of a call follow each other, so each lost attempt has an interference of its own, and a
call that has used up its attempts has been interfered with as often.
-/

namespace SegmentSwap

/-- Whether a call has failed because all its writes were lost. -/
def Failure.isExhausted : Failure → Bool
  | .exhausted .. => true
  | _ => false

/-- The attempt that a call is in. -/
def Phase.attempt? : Phase → Option Attempt
  | .reading a => some a
  | .surveying a _ _ _ _ _ => some a
  | .dating a _ _ _ _ _ => some a
  | .probing a _ _ _ _ _ => some a
  | .closing a _ _ => some a
  | .auditing a _ => some a
  | .writing a _ => some a
  | _ => none

/-- A call that has not got as far as its first reading. -/
def Phase.Unread : Phase → Prop
  | .minting .. => True
  | .configuring .. => True
  | .reading a => a.number = 1
  | _ => False

theorem Call.begin_cases (c : Call) : (∃ r, c.begin = refuse r) ∨ c.begin.Unread := by
  unfold begin
  split
  · split
    · exact .inl ⟨_, rfl⟩
    · exact .inr trivial
  · exact .inr rfl
  · exact .inr rfl

/-- An answer that is not the outcome of a write ends the call or leaves it in its attempt, which
goes on from what it has read before or from what it reads with this answer. -/
theorem Phase.attempt?_step (chance : Chance) (c : Call) {phase : Phase} {s : Site} {a : Attempt}
    (hwrite : ∀ b plan, phase ≠ .writing b plan) (ha : phase.attempt? = some a) :
    let next := (Call.step (Site.services chance) c phase s).1
    (∃ f, next = Call.fail f) ∨
      next.attempt? = some a ∧
        ∀ v, next.basis? = some v → phase.basis? = some v ∨ v = (s.memory.read c.table).version? := by
  intro next
  have hadvances : Advances chance c s phase next := c.advances chance s hwrite
  generalize next = next at hadvances ⊢
  cases hadvances with
  | fail _ f => exact .inl ⟨f, rfl⟩
  | mint | configure | order | rest => cases ha
  | survey =>
    refine .inr ⟨ha, fun v hv => .inr ?_⟩
    exact (Option.some.inj hv).symm
  | approach _ _ hnext =>
    refine .inr ?_
    cases hnext <;> exact ⟨ha, fun v hv => .inr (Option.some.inj hv).symm⟩
  | date => exact .inr ⟨ha, fun v hv => .inl hv⟩
  | planStart hplan =>
    refine .inr ⟨ha, fun v hv => .inl ?_⟩
    rw [← hv]
    exact congrArg some hplan.expected.symm
  | probe hnext =>
    refine .inr ?_
    cases hnext <;> exact ⟨ha, fun v hv => .inl hv⟩
  | planEnd hplan =>
    refine .inr ⟨ha, fun v hv => .inl ?_⟩
    rw [← hv]
    exact congrArg some (Call.planEnd_basis hplan).1.symm
  | audit => exact .inr ⟨ha, fun v hv => .inl hv⟩

theorem Chance.answer_eq_error {α : Type} {chance : Chance} {x : α} {f : Failure}
    (h : chance.answer x = .error f) : chance.outage? = some f := by
  unfold answer at h
  split at h
  · rename_i g hg
    rw [hg, Except.error.inj h]
  · cases h

/-! ## Failures that are not for lost writes -/

namespace Call

variable {c : Call} {a : Attempt} {read : Versioned} {e : Entry} {f : Failure}

theorem revertAll_eq_error {stamp : Text} {es : List Entry} (h : revertAll stamp es = .error f) :
    f.isExhausted = false := by
  unfold revertAll at h
  induction es with
  | nil => cases h
  | cons e es ih =>
    rw [List.mapM_cons] at h
    cases hmove : e.moveTo .reverted stamp with
    | error g =>
      rw [hmove] at h
      cases h
      rfl
    | ok moved =>
      rw [hmove] at h
      cases hrest : List.mapM (fun e : Entry =>
          (e.moveTo .reverted stamp).mapError fun f => Failure.refusal (.transition f)) es with
      | error g =>
        rw [hrest] at h
        cases h
        exact ih hrest
      | ok rest =>
        rw [hrest] at h
        cases h

theorem planEnd_eq_error {j : Job} {stamp : Text} (h : planEnd j read e stamp = .error f) :
    f.isExhausted = false := by
  rw [planEnd_eq] at h
  cases hmove : e.moveTo j.goal stamp with
  | error g =>
    rw [hmove] at h
    cases h
    rfl
  | ok moved =>
    rw [hmove] at h
    change revertAll stamp (losers j read.lineage moved) >>= _ = _ at h
    cases hreverted : revertAll stamp (losers j read.lineage moved) with
    | error g =>
      rw [hreverted] at h
      cases h
      exact revertAll_eq_error hreverted
    | ok reverted =>
      rw [hreverted] at h
      change (read.lineage.replace (moved :: reverted)).mapError Failure.lineage >>= _ = _ at h
      cases hreplace : read.lineage.replace (moved :: reverted) with
      | error g =>
        rw [hreplace] at h
        cases h
        rfl
      | ok lineage =>
        rw [hreplace] at h
        cases h

theorem probe_eq_fail {left found : List Text} (h : c.probe a read e left found = fail f) :
    f.isExhausted = false := by
  cases left with
  | cons next rest => cases h
  | nil =>
    change c.judge a read e found = fail f at h
    unfold judge at h
    split at h <;> split at h <;> cases h <;> rfl

theorem lookUp_eq_fail {id : Text} (h : c.lookUp a read id = fail f) : f.isExhausted = false := by
  unfold lookUp at h
  split at h
  · cases h
    rfl
  · split at h
    · cases h
      rfl
    · exact probe_eq_fail h

/-- With services that do not fail in this way themselves, the outcome of a write is all that makes
a call fail for lost writes. -/
theorem step_eq_fail (chance : Chance) {phase : Phase} (s : Site)
    (hlooking : phase.isLooking = true)
    (hup : ∀ g, chance.outage? = some g → g.isExhausted = false)
    (h : (step (Site.services chance) c phase s).1 = fail f) : f.isExhausted = false := by
  cases phase with
  | minting => cases h
  | configuring id sources targets force =>
    change afterMode id sources targets force (chance.answer (s.modes.of c.table)) = fail f at h
    unfold afterMode at h
    split at h
    · rename_i g hanswer
      cases h
      exact hup _ (Chance.answer_eq_error hanswer)
    · cases h
  | reading a =>
    rw [Site.step_reading] at h
    unfold afterRead at h
    split at h
    · rename_i g hanswer
      cases h
      exact hup _ (Chance.answer_eq_error hanswer)
    · split at h
      · cases h
      · exact lookUp_eq_fail h
      · exact lookUp_eq_fail h
  | surveying a ticket sources targets force read =>
    change c.afterSurvey a ticket sources targets force read
      (chance.answer (s.registry.segments c.table)) = fail f at h
    unfold afterSurvey at h
    split at h
    · rename_i g hanswer
      cases h
      exact hup _ (Chance.answer_eq_error hanswer)
    · split at h
      · cases h
        rfl
      · cases h
  | dating a ticket sources targets read registered =>
    change c.afterDate a ticket sources targets read registered chance.stamp = fail f at h
    unfold afterDate at h
    split at h
    · rename_i g herror
      cases h
      rcases planStart_cases c ticket sources targets read registered chance.stamp with
        ⟨-, htaken⟩ | ⟨-, plan, hok, -⟩
      · rw [htaken] at herror
        cases herror
        rfl
      · rw [hok] at herror
        cases herror
    · cases h
  | probing a read e next rest found =>
    change c.afterProbe a read e next rest found
      (chance.answer (s.registry.isAvailable c.table next)) = fail f at h
    unfold afterProbe at h
    split at h
    · rename_i g hanswer
      cases h
      exact hup _ (Chance.answer_eq_error hanswer)
    · exact probe_eq_fail h
  | closing a read e =>
    change afterClose a read e chance.stamp = fail f at h
    unfold afterClose at h
    split at h
    · rename_i g herror
      cases h
      exact planEnd_eq_error herror
    · cases h
  | auditing a plan =>
    change afterAudit a plan (chance.answer (s.registry.segments c.table)) = fail f at h
    unfold afterAudit at h
    split at h
    · rename_i g hanswer
      cases h
      exact hup _ (Chance.answer_eq_error hanswer)
    · cases h
  | writing | queueing | done => cases hlooking

end Call

namespace Traffic

/-- Whether a move changes the record behind the back of a call. -/
def interferes (table : Text) (client : Nat) (t : Traffic) (m : Move) : Bool :=
  match t.commit? m with
  | some k => k.client != client
  | none => m.isDrop && (t.site.memory.version? table).isSome

/-- How often that happens in a run. -/
def interferences (table : Text) (client : Nat) : List Move → Traffic → Nat
  | [], _ => 0
  | m :: moves, t =>
    (if t.interferes table client m then 1 else 0) + interferences table client moves (t.act table m)

variable {table : Text} {t : Traffic} {m : Move} {client : Nat} {chance : Chance} {c c' : Client}
  {a b : Attempt} {plan : Plan}

theorem interferes_own (table : Text) (t : Traffic) (client : Nat) (chance : Chance) :
    t.interferes table client (.proceed client chance) = false := by
  unfold interferes
  split
  · rename_i k hk
    obtain ⟨_, _, hm, -⟩ := commit?_eq_some hk
    obtain ⟨hclient, -⟩ := Move.proceed.inj hm
    rw [hclient]
    exact bne_self_eq_false k.client
  · rfl

/-- What does not interfere leaves the version of the record as it is. -/
theorem version_of_not_interferes (hm : m.isAnswerTo client = false)
    (hnot : t.interferes table client m = false) :
    (t.act table m).site.memory.version? table = t.site.memory.version? table := by
  unfold interferes at hnot
  cases hk : t.commit? m with
  | some k =>
    obtain ⟨chance, _, rfl, -⟩ := commit?_eq_some hk
    rw [hk] at hnot
    have hsame : k.client = client := by simpa using hnot
    rw [Move.isAnswerTo_iff.mpr ⟨chance, by rw [hsame]⟩] at hm
    cases hm
  | none =>
    rw [hk] at hnot
    cases hdrop : m.isDrop with
    | false => rw [memory_of_quiet table hk hdrop]
    | true =>
      rw [hdrop] at hnot
      have hgone : t.site.memory.version? table = none := by simpa using hnot
      cases m with
      | drop => rw [version_drop, hgone]
      | _ => cases hdrop

/-- A call whose write is lost goes on from a version that the record does not have. -/
theorem Local.not_fresh_of_lost (h : t.Local table) (hc : t.clients[client]? = some c)
    (hphase : c.phase = .writing a plan) (hlost : t.commit? (.proceed client chance) = none) :
    ¬ c.phase.Fresh (t.site.memory.version? table) := by
  intro hfresh
  obtain ⟨-, hbased⟩ := h.clients c (List.mem_of_getElem? hc)
  rw [hphase] at hbased hfresh
  obtain ⟨read, hread, -, htable⟩ := hbased
  have hagree := hfresh plan.expected rfl
  rw [← hread, ← htable] at hagree
  rw [commit?_of_writing chance hc hphase hagree] at hlost
  cases hlost

/-- A call is in an attempt and is going to lose the write of its last one. Then there is an
interference for each attempt from the present one on, up to the last; for the present one it may be
past, if what has been read is out of date. -/
theorem Local.attempts_le (h : t.Local table) {moves : List Move}
    (hc : t.clients[client]? = some c) (ha : c.phase.attempt? = some a)
    (hc' : (t.run table moves).clients[client]? = some c') (hphase' : c'.phase = .writing b plan)
    (hlost : (t.run table moves).commit? (.proceed client chance) = none)
    (hlast : c.call.attempts ≤ b.number) :
    c.call.attempts ≤ a.number + t.interferences table client moves ∧
      (c.phase.Fresh (t.site.memory.version? table) →
        c.call.attempts + 1 ≤ a.number + t.interferences table client moves) := by
  -- on the moves: an interference puts the reading out of date, and only a write that is lost, which
  -- needs a reading out of date, raises the number of the attempt
  induction moves generalizing t c a with
  | nil =>
    obtain rfl : c' = c := Option.some.inj (hc'.symm.trans hc)
    rw [hphase'] at ha
    obtain rfl : b = a := Option.some.inj ha
    refine ⟨?_, fun hfresh => absurd hfresh (h.not_fresh_of_lost hc hphase' hlost)⟩
    show c'.call.attempts ≤ b.number + ((0 : Nat) : Int)
    omega
  | cons m moves ih =>
    have hnext := h.act m
    have hcount : t.interferences table client (m :: moves) =
        (if t.interferes table client m then 1 else 0) +
          (t.act table m).interferences table client moves := rfl
    cases hm : m.isAnswerTo client with
    | false =>
      have hstay : (t.act table m).clients[client]? = some c :=
        getElem?_act_of_ne hc (Move.ne_proceed_of_isAnswerTo hm)
      obtain ⟨hle, hle'⟩ := ih hnext hstay ha hc' hlost hlast
      cases hnot : t.interferes table client m with
      | true =>
        rw [hnot, if_pos rfl] at hcount
        constructor
        · omega
        · intro _
          omega
      | false =>
        rw [version_of_not_interferes hm hnot] at hle'
        rw [hnot, if_neg Bool.false_ne_true, Nat.zero_add] at hcount
        rw [hcount]
        exact ⟨hle, hle'⟩
    | true =>
      obtain ⟨chance', rfl⟩ := Move.isAnswerTo_iff.mp hm
      rw [interferes_own, if_neg Bool.false_ne_true, Nat.zero_add] at hcount
      rw [hcount]
      have hstep := getElem?_proceed_self chance' hc
      by_cases hwriting : ∃ d other, c.phase = .writing d other
      · obtain ⟨d, other, hphase⟩ := hwriting
        rw [hphase] at ha
        obtain rfl : d = a := Option.some.inj ha
        cases hk : t.commit? (.proceed client chance') with
        | some k =>
          rw [(step_of_commit hc hk).2.2] at hstep
          exact absurd hphase' (ne_writing_of_past hstep (Phase.based_queue _ _) hc')
        | none =>
          have hstale := h.not_fresh_of_lost hc hphase hk
          obtain ⟨next, hnext, hlost'⟩ := step_of_lost hc hphase hk
          rw [hlost'] at hstep
          cases hnext with
          | again =>
            -- the next attempt reads the record anew
            have hfresh : (Phase.reading { d with number := d.number + 1 }).Fresh
                ((t.act table (.proceed client chance')).site.memory.version? table) :=
              fun _ hv => by cases hv
            obtain ⟨-, hle⟩ := ih hnext hstep rfl hc' hlost hlast
            have hle := hle hfresh
            dsimp only at hle
            refine ⟨by omega, fun hfresh => absurd hfresh hstale⟩
          | spent | outage => exact absurd hphase' (ne_writing_of_past hstep trivial hc')
      · have hwrite : ∀ d other, c.phase ≠ .writing d other := fun d other heq =>
          hwriting ⟨d, other, heq⟩
        have hmemory : (t.act table (.proceed client chance')).site.memory = t.site.memory := by
          refine memory_of_quiet table ?_ rfl
          exact commit?_of_not_writing hc hwrite
        rcases Phase.attempt?_step chance' c.call (s := t.site) hwrite ha with
          ⟨f, hfail⟩ | ⟨ha', hbasis⟩
        · rw [hfail] at hstep
          exact absurd hphase' (ne_writing_of_past hstep trivial hc')
        · obtain ⟨hle, hle'⟩ := ih hnext hstep ha' hc' hlost hlast
          refine ⟨hle, fun hfresh => hle' fun v hv => ?_⟩
          rw [hmemory]
          rcases hbasis v hv with hv | rfl
          · exact hfresh v hv
          · rw [(h.clients c (List.mem_of_getElem? hc)).1, Memory.version?_eq]
            exact Version.agree_iff.mpr rfl

/-- A call reads the record for the first time and loses its last write, after which it fails, and in
between the record is changed behind its back as often as it may attempt a write. -/
def Interfered (table : Text) (begun : Traffic) (client : Nat) (call : Call) (f : Failure)
    (moves : List Move) : Prop :=
  ∃ first second third chance chance' j b plan,
    moves = first ++ .proceed client chance :: (second ++ .proceed client chance' :: third) ∧
    (begun.run table first).clients[client]? = some ⟨call, .reading ⟨j, 1⟩⟩ ∧
    let read := (begun.run table first).proceed client chance
    (read.run table second).clients[client]? = some ⟨call, .writing b plan⟩ ∧
    ((read.run table second).proceed client chance').clients[client]? =
      some ⟨call, Call.fail f⟩ ∧
    call.attempts ≤ read.interferences table client second

/-! ## From the first reading to the last write -/

section Exhausted

variable {f : Failure} {moves : List Move}

theorem phase_of_done {r : Except Failure Entry} (hc : t.clients[client]? = some c)
    (hdone : c.phase = .done r) (hc' : (t.run table moves).clients[client]? = some c') :
    c'.phase = .done r := by
  refine follow_answers (fun c => c.phase = .done r) (fun c chance s hdone => ?_) hc hdone hc'
  show (Call.step (Site.services chance) c.call c.phase s).1 = .done r
  rw [hdone]
  rfl

/-- The answer that makes a call give up is the outcome of a lost write of its last attempt. -/
theorem lost_of_exhausted (hc : t.clients[client]? = some c)
    (hnot : ∀ g, c.phase = Call.fail g → g.isExhausted = false)
    (hup : ∀ g, chance.outage? = some g → g.isExhausted = false)
    (hfail : (Call.step (Site.services chance) c.call c.phase t.site).1 = Call.fail f)
    (hf : f.isExhausted = true) :
    ∃ b plan, c.phase = .writing b plan ∧ c.call.attempts ≤ b.number ∧
      t.commit? (.proceed client chance) = none := by
  have hlost : t.commit? (.proceed client chance) = none := by
    cases hk : t.commit? (.proceed client chance) with
    | none => rfl
    | some k =>
      have hafter := (committed?_of_commit hc hk).2
      rw [hfail] at hafter
      cases hafter
  have hcommitted : c.phase.committed? = none := by
    have hsame := committed?_of_quiet hc hlost
    rw [hfail] at hsame
    exact hsame.symm
  have hwriting : ∃ b plan, c.phase = .writing b plan := by
    cases hphase : c.phase with
    | writing b plan => exact ⟨b, plan, rfl⟩
    | queueing =>
      rw [hphase] at hcommitted
      cases hcommitted
    | done r =>
      rw [hphase] at hfail
      rw [hnot f (hphase.trans hfail)] at hf
      cases hf
    | _ =>
      have hnone := Call.step_eq_fail chance t.site (by rw [hphase]; rfl) hup hfail
      rw [hnone] at hf
      cases hf
  obtain ⟨b, plan, hphase⟩ := hwriting
  refine ⟨b, plan, hphase, ?_, hlost⟩
  obtain ⟨next, hnext, hstep⟩ := step_of_lost hc hphase hlost
  rw [hstep] at hfail
  cases hnext with
  | again => cases hfail
  | spent _ hlast => exact hlast
  | outage hg =>
    cases hfail
    rw [hup _ hg] at hf
    cases hf

/-- A call that has used up its attempts and had not before has lost its last write in between. -/
theorem last_write (hc : t.clients[client]? = some c)
    (hnot : ∀ g, c.phase = Call.fail g → g.isExhausted = false)
    (hup : ∀ chance, .proceed client chance ∈ moves →
      ∀ g, chance.outage? = some g → g.isExhausted = false)
    (hc' : (t.run table moves).clients[client]? = some c') (hfail : c'.phase = Call.fail f)
    (hf : f.isExhausted = true) :
    ∃ second chance third b plan, moves = second ++ .proceed client chance :: third ∧
      (t.run table second).clients[client]? = some ⟨c.call, .writing b plan⟩ ∧
      c.call.attempts ≤ b.number ∧
      (t.run table second).commit? (.proceed client chance) = none ∧
      ((t.run table second).proceed client chance).clients[client]? =
        some ⟨c.call, Call.fail f⟩ := by
  induction moves generalizing t c with
  | nil =>
    obtain rfl : c' = c := Option.some.inj (hc'.symm.trans hc)
    rw [hnot f hfail] at hf
    cases hf
  | cons m moves ih =>
    have hup' : ∀ chance, .proceed client chance ∈ moves →
        ∀ g, chance.outage? = some g → g.isExhausted = false := fun chance hmem =>
      hup chance (List.mem_cons_of_mem m hmem)
    cases hm : m.isAnswerTo client with
    | false =>
      have hstay : (t.act table m).clients[client]? = some c :=
        getElem?_act_of_ne hc (Move.ne_proceed_of_isAnswerTo hm)
      obtain ⟨second, chance, third, b, plan, rfl, hfacts⟩ := ih hstay hnot hup' hc'
      exact ⟨m :: second, chance, third, b, plan, rfl, hfacts⟩
    | true =>
      obtain ⟨chance, rfl⟩ := Move.isAnswerTo_iff.mp hm
      have hstep := getElem?_proceed_self chance hc
      by_cases hlater : ∀ g,
          (Call.step (Site.services chance) c.call c.phase t.site).1 = Call.fail g →
            g.isExhausted = false
      · obtain ⟨second, chance', third, b, plan, rfl, hfacts⟩ := ih hstep hlater hup' hc'
        exact ⟨_ :: second, chance', third, b, plan, rfl, hfacts⟩
      · -- this answer is the outcome of the last write
        push Not at hlater
        obtain ⟨g, hg, hexhausted⟩ := hlater
        obtain ⟨b, plan, hphase, hlast, hlost⟩ := lost_of_exhausted hc hnot
          (hup chance List.mem_cons_self) hg ((Bool.not_eq_false _).mp hexhausted)
        rw [hg] at hstep
        have hdone := phase_of_done hstep rfl hc'
        rw [hfail] at hdone
        cases hdone
        have hwriting : t.clients[client]? = some ⟨c.call, .writing b plan⟩ := by
          rw [hc, ← hphase]
        exact ⟨[], chance, moves, b, plan, rfl, hwriting, hlast, hlost, hstep⟩

/-- A call that has used up its attempts has read the record for a first time. -/
theorem first_reading (hc : t.clients[client]? = some c) (hunread : c.phase.Unread)
    (hup : ∀ chance, .proceed client chance ∈ moves →
      ∀ g, chance.outage? = some g → g.isExhausted = false)
    (hc' : (t.run table moves).clients[client]? = some c') (hfail : c'.phase = Call.fail f)
    (hf : f.isExhausted = true) :
    ∃ first chance rest j, moves = first ++ .proceed client chance :: rest ∧
      (t.run table first).clients[client]? = some ⟨c.call, .reading ⟨j, 1⟩⟩ := by
  induction moves generalizing t c with
  | nil =>
    obtain rfl : c' = c := Option.some.inj (hc'.symm.trans hc)
    rw [hfail] at hunread
    cases hunread
  | cons m moves ih =>
    have hup' : ∀ chance, .proceed client chance ∈ moves →
        ∀ g, chance.outage? = some g → g.isExhausted = false := fun chance hmem =>
      hup chance (List.mem_cons_of_mem m hmem)
    cases hm : m.isAnswerTo client with
    | false =>
      have hstay : (t.act table m).clients[client]? = some c :=
        getElem?_act_of_ne hc (Move.ne_proceed_of_isAnswerTo hm)
      obtain ⟨first, chance, rest, j, rfl, hasking⟩ := ih hstay hunread hup' hc'
      exact ⟨m :: first, chance, rest, j, rfl, hasking⟩
    | true =>
      obtain ⟨chance, rfl⟩ := Move.isAnswerTo_iff.mp hm
      have hstep := getElem?_proceed_self chance hc
      obtain ⟨call, phase⟩ := c
      cases phase with
      | minting =>
        obtain ⟨first, chance', rest, j, rfl, hasking⟩ := ih hstep trivial hup' hc'
        exact ⟨_ :: first, chance', rest, j, rfl, hasking⟩
      | configuring id sources targets force =>
        have hnext : (Call.step (Site.services chance) call
            (.configuring id sources targets force) t.site).1 =
              Call.afterMode id sources targets force
                (chance.answer (t.site.modes.of call.table)) := rfl
        dsimp only at hstep
        rw [hnext] at hstep
        rcases chance.answer_cases (t.site.modes.of call.table) with ⟨g, hanswer⟩ | ⟨-, hanswer⟩
        · rw [hanswer] at hstep
          have hdone := phase_of_done hstep rfl hc'
          rw [hfail] at hdone
          cases hdone
          rw [hup chance List.mem_cons_self f (Chance.answer_eq_error hanswer)] at hf
          cases hf
        · rw [hanswer] at hstep
          obtain ⟨first, chance', rest, j, rfl, hasking⟩ := ih hstep rfl hup' hc'
          exact ⟨_ :: first, chance', rest, j, rfl, hasking⟩
      | reading a =>
        obtain ⟨j, number⟩ := a
        obtain rfl : number = 1 := hunread
        exact ⟨[], chance, moves, j, rfl, hc⟩
      | _ => cases hunread

/-- A call that has used up its attempts has been interfered with at least once for each of them,
between its first reading and its last write. -/
theorem exhausted_interfered {site : Site} {before : List Move}
    (hrecord : (site.memory.read table).lineage.table = table)
    (ht : (idle site).run table before = t) {request : Request} {attempts generations : Int}
    (hup : ∀ chance, .proceed t.clients.length chance ∈ moves →
      ∀ g, chance.outage? = some g → g.isExhausted = false)
    (hc : ((t.act table (.enter request attempts generations)).run table moves).clients[
      t.clients.length]? = some c) (hfail : c.phase = Call.fail f) (hf : f.isExhausted = true) :
    Interfered table (t.act table (.enter request attempts generations)) t.clients.length
      ⟨table, request, attempts, generations⟩ f moves := by
  set begun := t.act table (.enter request attempts generations)
  set client := t.clients.length
  set call : Call := ⟨table, request, attempts, generations⟩
  have hidle : (idle site).Local table := ⟨hrecord, fun c hc => absurd hc List.not_mem_nil⟩
  have hlocal : begun.Local table := by
    refine Local.act ?_ _
    rw [← ht]
    exact hidle.run before
  have hbegun : begun.clients[client]? = some ⟨call, call.begin⟩ := List.getElem?_concat_length
  have hunread : call.begin.Unread := by
    rcases call.begin_cases with ⟨r, hrefused⟩ | hunread
    · rw [hrefused] at hbegun
      have hdone := phase_of_done hbegun rfl hc
      rw [hfail] at hdone
      cases hdone
      cases hf
    · exact hunread
  obtain ⟨first, chance, rest, j, rfl, hasking⟩ := first_reading hbegun hunread hup hc hfail hf
  have hup' : ∀ chance', .proceed client chance' ∈ Move.proceed client chance :: rest →
      ∀ g, chance'.outage? = some g → g.isExhausted = false := fun chance' hmem =>
    hup chance' (List.mem_append_right first hmem)
  have hread := getElem?_proceed_self chance hasking
  rw [run_append] at hc
  obtain ⟨second, chance', third, b, plan, rfl, hwriting, hlast, hlost, hafter⟩ := last_write hread
    (fun g hg => Call.step_eq_fail chance _ rfl (hup' chance List.mem_cons_self) hg)
    (fun chance' hmem => hup' chance' (List.mem_cons_of_mem _ hmem)) hc hfail hf
  refine ⟨first, second, third, chance, chance', j, b, plan, rfl, hasking, hwriting, hafter, ?_⟩
  -- counted from before the first reading on, which is no interference itself
  have hwriting : ((begun.run table first).run table (.proceed client chance :: second)).clients[
      client]? = some ⟨call, .writing b plan⟩ := hwriting
  obtain ⟨-, hle⟩ := (hlocal.run first).attempts_le hasking rfl hwriting rfl hlost hlast
  have hcount : (begun.run table first).interferences table client
      (.proceed client chance :: second) =
        ((begun.run table first).proceed client chance).interferences table client second := by
    show (if _ then 1 else 0) + _ = _
    rw [interferes_own, if_neg Bool.false_ne_true, Nat.zero_add]
    rfl
  have hle : call.attempts + 1 ≤ ((1 : Nat) : Int) +
      (begun.run table first).interferences table client (.proceed client chance :: second) :=
    hle fun _ hv => by cases hv
  rw [hcount] at hle
  omega

end Exhausted

end Traffic

end SegmentSwap
