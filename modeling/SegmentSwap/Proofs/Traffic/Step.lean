import SegmentSwap.Proofs.Traffic.Basic

/-!
# What a call does to the site

Most answers change nothing but the phase of the call that gets them. The site changes when a write
takes effect and when a batch is queued, and these two are all that the other calls ever notice of a
call.
-/

namespace SegmentSwap

/-- What becomes of a call whose write is lost: another attempt below its limit, and a failure at
the limit or where the wait for the next attempt fails. -/
inductive Call.Loses (chance : Chance) (c : Call) (a : Attempt) : Phase → Prop where
  | again (hup : chance.outage? = none) (hnext : a.number < c.attempts) :
    Loses chance c a (.reading { a with number := a.number + 1 })
  | spent (hup : chance.outage? = none) (hlast : c.attempts ≤ a.number) :
    Loses chance c a (fail (.exhausted c.request.action c.table c.attempts))
  | outage {f : Failure} (hf : chance.outage? = some f) : Loses chance c a (fail f)

namespace Site

variable {chance : Chance}

theorem foldl_note (events : List Event) (s : Site) :
    events.foldl (fun s e => (services chance).note e s) s = s := by
  induction events with
  | nil => rfl
  | cons _ _ ih => exact ih

/-- The first attempt is under way if nothing is out of order. -/
theorem opened_answer (chance : Chance) (c : Call) (a : Attempt) (s : Site) (read : Versioned) :
    c.opened (services chance) a s (chance.answer read) = chance.answer read := by
  unfold Call.opened
  split
  · have hfirst : ((services chance).retrying s).first (c.policy (services chance) s) =
        chance.outage?.elim .attempt .error := s.retrying.first_eq _
    rw [hfirst]
    unfold Chance.answer
    cases chance.outage? <;> rfl
  · rfl

theorem step_reading (chance : Chance) (c : Call) (a : Attempt) (s : Site) :
    Call.step (services chance) c (.reading a) s =
      (c.afterRead a (chance.answer (s.memory.read c.table)), s) := by
  show (c.afterRead a (c.opened (services chance) a s (chance.answer _)), s) = _
  rw [opened_answer]

/-- What a lost write leads to. -/
theorem loses (chance : Chance) (c : Call) (a : Attempt) (plan : Plan) (s : Site) :
    c.Loses chance a (c.afterWrite a plan
      (s.retrying.after (c.policy (services chance) s) a.number (.raised .lost))).2 := by
  have hanswers := s.retrying.answers (c.policy (services chance) s) a.number .lost
  unfold Retry.Retrying.after
  dsimp only
  generalize (s.retrying.next (c.policy (services chance) s) a.number .lost).1 = acts at hanswers ⊢
  generalize (s.retrying.next (c.policy (services chance) s) a.number .lost).2 = turn at hanswers ⊢
  have hpause : (c.policy (services chance) s).pause a.number = chance.pause := rfl
  unfold Chance.pause at hpause
  cases houtage : chance.outage? with
  | none =>
    rw [houtage] at hpause
    cases hanswers with
    | unknown _ h | refused _ _ h =>
      rw [hpause] at h
      cases h
    | last _ hlast => exact .spent houtage hlast
    | again _ hnext => exact .again houtage hnext
  | some f =>
    rw [houtage] at hpause
    cases hanswers with
    | unknown _ h =>
      rw [hpause] at h
      cases h
      exact .outage houtage
    | last _ _ h => exact absurd hpause (h f)
    | again _ _ h | refused _ _ h =>
      rw [hpause] at h
      cases h

theorem step_of_agree (chance : Chance) (c : Call) (a : Attempt) {plan : Plan} {s : Site}
    (hagree : Version.agree (s.memory.version? plan.lineage.table) plan.expected = true) :
    Call.step (services chance) c (.writing a plan) s = (Call.queue plan.entry plan.deletions,
      { s with memory := s.memory.put plan.lineage (.next plan.expected) }) := by
  simp only [Call.step, foldl_note]
  simp only [services, Memory.write, if_pos hagree]
  rfl

theorem step_of_stale (chance : Chance) (c : Call) (a : Attempt) {plan : Plan} {s : Site}
    (hstale : ¬ Version.agree (s.memory.version? plan.lineage.table) plan.expected = true) :
    ∃ next, c.Loses chance a next ∧
      Call.step (services chance) c (.writing a plan) s = (next, s) := by
  refine ⟨_, loses chance c a plan s, ?_⟩
  simp only [Call.step, foldl_note]
  simp only [services, Memory.write, if_neg hstale]
  rfl

end Site

namespace Traffic

/-- The ways in which a call gets its next answer. -/
inductive Proceeds (t : Traffic) (client : Nat) (chance : Chance) : Traffic → Prop where
  | absent (hc : t.clients[client]? = none) : Proceeds t client chance t
  | commit {c : Client} {a : Attempt} {plan : Plan} (hc : t.clients[client]? = some c)
      (hphase : c.phase = .writing a plan)
      (hagree : Version.agree (t.site.memory.version? plan.lineage.table) plan.expected = true) :
      Proceeds t client chance
        ⟨{ t.site with memory := t.site.memory.put plan.lineage (.next plan.expected) },
          t.clients.set client ⟨c.call, Call.queue plan.entry plan.deletions⟩⟩
  | lost {c : Client} {a : Attempt} {plan : Plan} {next : Phase}
      (hc : t.clients[client]? = some c) (hphase : c.phase = .writing a plan)
      (hnext : c.call.Loses chance a next) :
      Proceeds t client chance ⟨t.site, t.clients.set client ⟨c.call, next⟩⟩
  | order {c : Client} {e : Entry} {b : Batch} {rest : List Batch}
      (hc : t.clients[client]? = some c) (hphase : c.phase = .queueing e b rest) :
      Proceeds t client chance
        ⟨{ t.site with queue := t.site.queue.enqueue c.call.table b.segments b.reason },
          t.clients.set client ⟨c.call, Call.queue e rest⟩⟩
  | look {c : Client} (hc : t.clients[client]? = some c)
      (hwrite : ∀ a plan, c.phase ≠ .writing a plan)
      (hqueue : ∀ e b rest, c.phase ≠ .queueing e b rest) :
      Proceeds t client chance
        ⟨t.site, t.clients.set client
          ⟨c.call, (Call.step (Site.services chance) c.call c.phase t.site).1⟩⟩

theorem proceeds (t : Traffic) (client : Nat) (chance : Chance) :
    Proceeds t client chance (t.proceed client chance) := by
  unfold proceed
  split
  · rename_i hc
    exact .absent hc
  · rename_i c hc
    obtain ⟨call, phase⟩ := c
    cases phase with
    | writing a plan =>
      by_cases hagree :
          Version.agree (t.site.memory.version? plan.lineage.table) plan.expected = true
      · rw [Site.step_of_agree chance call a hagree]
        exact .commit hc rfl hagree
      · obtain ⟨next, hnext, hstep⟩ := Site.step_of_stale chance call a hagree
        rw [hstep]
        exact .lost hc rfl hnext
    | queueing e b rest => exact .order hc rfl
    | _ => exact .look hc (fun _ _ h => by cases h) (fun _ _ _ h => by cases h)

variable {table : Text} {t : Traffic} {m : Move}

theorem proceed_commit {client : Nat} {chance : Chance} {c : Client} {a : Attempt} {plan : Plan}
    (hc : t.clients[client]? = some c) (hphase : c.phase = .writing a plan)
    (hagree : Version.agree (t.site.memory.version? plan.lineage.table) plan.expected = true) :
    t.proceed client chance =
      ⟨{ t.site with memory := t.site.memory.put plan.lineage (.next plan.expected) },
        t.clients.set client ⟨c.call, Call.queue plan.entry plan.deletions⟩⟩ := by
  unfold proceed
  rw [hc]
  dsimp only
  rw [hphase, Site.step_of_agree chance c.call a hagree]

/-- A move that is neither made by a call nor the removal of the record leaves the record and the
calls as they are. -/
theorem act_frame (table : Text) (t : Traffic)
    (hproceed : ∀ client chance, m ≠ .proceed client chance)
    (henter : ∀ request attempts generations, m ≠ .enter request attempts generations)
    (hdrop : m.isDrop = false) :
    (t.act table m).site.memory = t.site.memory ∧ (t.act table m).site.modes = t.site.modes ∧
      (t.act table m).clients = t.clients := by
  cases m with
  | proceed client chance => exact absurd rfl (hproceed client chance)
  | enter request attempts generations => exact absurd rfl (henter request attempts generations)
  | drop => cases hdrop
  | place segment => unfold act; dsimp only; split <;> exact ⟨rfl, rfl, rfl⟩
  | take worker => unfold act; dsimp only; split <;> exact ⟨rfl, rfl, rfl⟩
  | work worker succeeds =>
    unfold act Site.work Site.delete; dsimp only
    split
    · split <;> exact ⟨rfl, rfl, rfl⟩
    · exact ⟨rfl, rfl, rfl⟩
  | draw => unfold act Site.draw; dsimp only; split <;> exact ⟨rfl, rfl, rfl⟩
  | settle position succeeds =>
    unfold act Site.settle Site.delete; dsimp only
    split
    · split <;> exact ⟨rfl, rfl, rfl⟩
    · exact ⟨rfl, rfl, rfl⟩
  | _ => exact ⟨rfl, rfl, rfl⟩

end Traffic

end SegmentSwap
