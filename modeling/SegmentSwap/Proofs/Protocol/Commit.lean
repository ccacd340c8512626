import SegmentSwap.Proofs.Protocol.Checks

/-!
# What an attempt writes

An attempt that passes its checks always comes to a lineage to be written, but for a start whose id
is in use. What it writes is said here once, by the two changes of a lineage, so that nothing later
has to open the making of a plan.
-/

namespace SegmentSwap

namespace Call

theorem revertAll_running (stamp : Text) {es : List Entry} (h : ∀ e ∈ es, e.state = .inProgress) :
    revertAll stamp es = .ok (es.map (Entry.moved .reverted stamp)) := by
  unfold revertAll
  induction es with
  | nil => rfl
  | cons e es ih =>
    have hmove : (e.moveTo .reverted stamp) = .ok (e.moved .reverted stamp) :=
      Entry.moveTo_of_inProgress stamp (h e List.mem_cons_self) (Or.inr rfl)
    rw [List.mapM_cons, hmove, ih fun x hx => h x (List.mem_cons_of_mem e hx)]
    rfl

/-- The segments that a start on a reloaded table gives up for the depth of its history. -/
def surplusBatches (c : Call) (mode : Mode) (l : Lineage) (registered : List Text) : List Batch :=
  match mode with
  | .refresh => [⟨l.surplus registered c.generations, "refresh_generation_limit"⟩]
  | .append => []

/-- What a start plans: its rivals are reverted and the new entry comes last. -/
structure StartPlan (c : Call) (ticket : Ticket) (sources targets : List Text) (read : Versioned)
    (registered : List Text) (stamp : Text) (plan : Plan) : Prop where
  entry : plan.entry = ⟨ticket.id, sources, targets, .inProgress, stamp⟩
  expected : plan.expected = read.version?
  reverted : plan.reverted =
    (read.lineage.rivals sources).map (Entry.moved .reverted stamp)
  lineage : ∃ mid, read.lineage.Moves (read.lineage.rivals sources) .reverted stamp mid ∧
    mid.Appends plan.entry plan.lineage
  deletions : plan.deletions =
    (plan.reverted.map fun e => batchOf ("force_cleanup_reverted:" ++ e.id) registered e) ++
      c.surplusBatches ticket.mode read.lineage registered

section Start

variable {c : Call} {ticket : Ticket} {sources targets : List Text} {read : Versioned}
  {registered : List Text} {stamp : Text}

variable (c ticket sources targets read registered stamp) in
/-- A start plans, unless its id is in use. -/
theorem planStart_cases :
    (ticket.id ∈ read.lineage.ids ∧
      c.planStart ticket sources targets read registered stamp =
        .error (.lineage (.idTaken ticket.id read.lineage.table))) ∨
    (ticket.id ∉ read.lineage.ids ∧
      ∃ plan, c.planStart ticket sources targets read registered stamp = .ok plan ∧
        StartPlan c ticket sources targets read registered stamp plan) := by
  have hrun : ∀ x ∈ read.lineage.rivals sources, x ∈ read.lineage.running := fun x hx =>
    (Lineage.mem_rivals.mp hx).1
  have hreverted := revertAll_running stamp fun x hx =>
    (Lineage.mem_running.mp (hrun x hx)).2
  obtain ⟨mid, hmid, htable, hentries⟩ := Lineage.replace_map read.lineage
    (read.lineage.rivals sources) (Entry.moved .reverted stamp)
    (fun x hx => (Lineage.mem_running.mp (hrun x hx)).1) (fun _ => rfl)
    (fun x => by simp [Entry.sameLists, Entry.moved])
  have hmoves : read.lineage.Moves (read.lineage.rivals sources) .reverted stamp mid :=
    ⟨htable, hrun, hentries⟩
  have hids : mid.ids = read.lineage.ids := by
    unfold Lineage.ids
    rw [hentries, List.map_map]
    refine List.map_congr_left fun x _ => ?_
    simp only [Function.comp_apply]
    split <;> rfl
  by_cases hid : ticket.id ∈ read.lineage.ids
  · refine Or.inl ⟨hid, ?_⟩
    unfold planStart
    rw [hreverted]
    simp only [bind, Except.bind]
    rw [hmid]
    simp only [Except.mapError]
    rw [Lineage.append_taken (by rw [hids]; exact hid), htable]
  · refine Or.inr ⟨hid, ?_⟩
    set entry : Entry := ⟨ticket.id, sources, targets, .inProgress, stamp⟩ with hentry
    obtain ⟨next, hnext, hnt, hne⟩ := Lineage.append_new (l := mid) (e := entry)
      (by rw [hids]; exact hid)
    have hfresh : entry.id ∉ mid.ids := by rw [hids]; exact hid
    let reverted := (read.lineage.rivals sources).map (Entry.moved .reverted stamp)
    let deletions :=
      (reverted.map fun e => batchOf ("force_cleanup_reverted:" ++ e.id) registered e) ++
        c.surplusBatches ticket.mode read.lineage registered
    refine ⟨⟨entry, next, read.version?, reverted, deletions⟩, ?_,
      ⟨hentry, rfl, rfl, ⟨mid, hmoves, hnt, rfl, hfresh, hne⟩, rfl⟩⟩
    unfold planStart
    rw [hreverted]
    simp only [bind, Except.bind]
    rw [hmid]
    simp only [Except.mapError]
    rw [hnext]
    rfl

theorem StartPlan.of_ok {plan : Plan}
    (h : c.planStart ticket sources targets read registered stamp = .ok plan) :
    StartPlan c ticket sources targets read registered stamp plan := by
  rcases planStart_cases c ticket sources targets read registered stamp with
    ⟨-, herr⟩ | ⟨-, p, hp, hplan⟩
  · rw [herr] at h
    cases h
  · rw [hp] at h
    cases h
    exact hplan

end Start

/-- The entries that lose a source to an entry that a job ends. -/
def losers (j : Job) (l : Lineage) (done : Entry) : List Entry :=
  match j with
  | .finish _ => l.orphans done
  | _ => []

/-- What the end of an entry plans: the entry is moved, and those that lose a source to it are
reverted. -/
structure EndPlan (j : Job) (read : Versioned) (e : Entry) (stamp : Text) (plan : Plan) : Prop where
  entry : plan.entry = e.moved j.goal stamp
  expected : plan.expected = read.version?
  reverted : plan.reverted =
    (losers j read.lineage (e.moved j.goal stamp)).map (Entry.moved .reverted stamp)
  table : plan.lineage.table = read.lineage.table
  entries : plan.lineage.entries = read.lineage.entries.map fun x =>
    if x = e then e.moved j.goal stamp
    else x.movedAmong (losers j read.lineage (e.moved j.goal stamp)) .reverted stamp
  deletions : plan.deletions = []

section End

variable {j : Job} {read : Versioned} {e : Entry} {stamp : Text}

theorem losers_running {l : Lineage} {done x : Entry} (h : x ∈ losers j l done) :
    x ∈ l.running ∧ x.id ≠ done.id := by
  cases j with
  | finish id => exact ⟨(Lineage.mem_orphans.mp h).1, (Lineage.mem_orphans.mp h).2.1⟩
  | start => exact absurd h List.not_mem_nil
  | revert => exact absurd h List.not_mem_nil

/-- What is done to an entry that a job ends or that loses a source to it. -/
def ending (j : Job) (e : Entry) (stamp : Text) (x : Entry) : Entry :=
  if x.id = e.id then x.moved j.goal stamp else x.moved .reverted stamp

theorem map_ending (l : Lineage) :
    (e :: losers j l (e.moved j.goal stamp)).map (ending j e stamp) =
      e.moved j.goal stamp ::
        (losers j l (e.moved j.goal stamp)).map (Entry.moved .reverted stamp) := by
  rw [List.map_cons]
  congr 1
  · simp [ending]
  · refine List.map_congr_left fun x hx => ?_
    have hne : x.id ≠ e.id := (losers_running hx).2
    simp [ending, hne]

theorem planEnd_eq : planEnd j read e stamp = (do
    let moved ← (e.moveTo j.goal stamp).mapError fun f => Failure.refusal (.transition f)
    let reverted ← revertAll stamp (losers j read.lineage moved)
    let lineage ← (read.lineage.replace (moved :: reverted)).mapError Failure.lineage
    return ⟨moved, lineage, read.version?, reverted, []⟩) := by
  cases j <;> rfl

/-- The end of an entry in progress always plans. -/
theorem planEnd_running (stamp : Text) (he : e ∈ read.lineage.running)
    (hgoal : j.goal = .completed ∨ j.goal = .reverted) :
    ∃ plan, planEnd j read e stamp = .ok plan ∧ EndPlan j read e stamp plan := by
  have hrun := Lineage.mem_running.mp he
  have hmove : e.moveTo j.goal stamp = .ok (e.moved j.goal stamp) :=
    Entry.moveTo_of_inProgress stamp hrun.2 hgoal
  have hlost : ∀ x ∈ losers j read.lineage (e.moved j.goal stamp), x ∈ read.lineage.running :=
    fun x hx => (losers_running hx).1
  have hreverted := revertAll_running stamp fun x hx =>
    (Lineage.mem_running.mp (hlost x hx)).2
  obtain ⟨next, hnext, htable, hentries⟩ := Lineage.replace_map read.lineage
    (e :: losers j read.lineage (e.moved j.goal stamp)) (ending j e stamp)
    (by
      intro x hx
      rcases List.mem_cons.mp hx with rfl | hx
      · exact hrun.1
      · exact (Lineage.mem_running.mp (hlost x hx)).1)
    (fun x => by unfold ending; split <;> rfl)
    (fun x => by unfold ending; split <;> simp [Entry.sameLists, Entry.moved])
  rw [map_ending] at hnext
  refine ⟨⟨e.moved j.goal stamp, next, read.version?, _, []⟩, ?_, ⟨rfl, rfl, rfl, htable, ?_, rfl⟩⟩
  · rw [planEnd_eq, hmove]
    simp only [bind, Except.bind, Except.mapError]
    rw [hreverted]
    simp only
    rw [hnext]
    rfl
  · rw [hentries]
    refine List.map_congr_left fun x hx => ?_
    by_cases hxe : x = e
    · simp [hxe, ending]
    · have hne : x.id ≠ e.id := fun hid => hxe (Lineage.eq_of_id_eq hx hrun.1 hid)
      simp [hxe, ending, hne, Entry.movedAmong]

theorem EndPlan.of_ok {plan : Plan} (he : e ∈ read.lineage.running)
    (hgoal : j.goal = .completed ∨ j.goal = .reverted) (h : planEnd j read e stamp = .ok plan) :
    EndPlan j read e stamp plan := by
  obtain ⟨p, hp, hplan⟩ := planEnd_running stamp he hgoal
  rw [hp] at h
  cases h
  exact hplan

theorem losers_eq_nil (j : Job) (stamp : Text) (hl : Exclusive read.lineage)
    (he : e ∈ read.lineage.running) :
    losers j read.lineage (e.moved j.goal stamp) = [] := by
  cases j with
  | finish id => exact hl.orphans_eq_nil he rfl rfl
  | start => rfl
  | revert => rfl

/-- In an exclusive lineage the end of an entry moves this entry alone. -/
theorem EndPlan.moves {plan : Plan} (h : EndPlan j read e stamp plan)
    (hl : Exclusive read.lineage) (he : e ∈ read.lineage.running) :
    plan.reverted = [] ∧ read.lineage.Moves [e] j.goal stamp plan.lineage := by
  have hlost := losers_eq_nil j stamp hl he
  refine ⟨by rw [h.reverted, hlost]; rfl, h.table, fun x hx => ?_, ?_⟩
  · rw [List.mem_singleton.mp hx]
    exact he
  · rw [h.entries, hlost]
    refine List.map_congr_left fun x _ => ?_
    by_cases hxe : x = e <;> simp [Entry.movedAmong, hxe]

end End

end Call

end SegmentSwap
