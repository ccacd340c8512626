import SegmentSwap.Proofs.Traffic.Step

/-!
# The commits of a run

The record of a table is changed by writes that take effect, and a run is told in full by these: its
commits, in the order in which they happen. Between two of them the record stays what it is, unless
it is removed. Beside the record there are the calls, each of which can be followed through a run:
only its own answers change it.
-/

namespace SegmentSwap

/-- A write that has taken effect, with the attempt that has made it. -/
structure Commit where
  client : Nat
  attempt : Attempt
  plan : Plan

namespace Traffic

/-- The write that takes effect in a move, if there is one. -/
def commit? (t : Traffic) : Move → Option Commit
  | .proceed client _ =>
    match t.clients[client]? with
    | some ⟨_, .writing a plan⟩ =>
      if Version.agree (t.site.memory.version? plan.lineage.table) plan.expected then
        some ⟨client, a, plan⟩
      else none
    | _ => none
  | _ => none

/-- The writes that take effect in a run, the first one first. -/
def commits (table : Text) : List Move → Traffic → List Commit
  | [], _ => []
  | m :: moves, t => (t.commit? m).toList ++ commits table moves (t.act table m)

variable {table : Text} {t : Traffic} {m : Move} {k : Commit}

theorem run_append (first second : List Move) (t : Traffic) :
    t.run table (first ++ second) = (t.run table first).run table second := by
  unfold run
  exact List.foldl_append

/-- A commit is the next answer to a call whose write the record allows. -/
theorem commit?_eq_some (h : t.commit? m = some k) :
    ∃ chance c, m = .proceed k.client chance ∧ t.clients[k.client]? = some c ∧
      c.phase = .writing k.attempt k.plan ∧
      Version.agree (t.site.memory.version? k.plan.lineage.table) k.plan.expected = true := by
  cases m with
  | proceed client chance =>
    unfold commit? at h
    dsimp only at h
    split at h
    · rename_i call a plan hc
      split at h
      · rename_i hagree
        obtain rfl := Option.some.inj h
        exact ⟨chance, _, rfl, hc, rfl, hagree⟩
      · cases h
    · cases h
  | _ => cases h

theorem commit?_of_writing {client : Nat} {c : Client} {a : Attempt} {plan : Plan}
    (chance : Chance) (hc : t.clients[client]? = some c) (hphase : c.phase = .writing a plan)
    (hagree : Version.agree (t.site.memory.version? plan.lineage.table) plan.expected = true) :
    t.commit? (.proceed client chance) = some ⟨client, a, plan⟩ := by
  obtain ⟨call, phase⟩ := c
  obtain rfl : phase = .writing a plan := hphase
  unfold commit?
  dsimp only
  rw [hc]
  dsimp only
  rw [if_pos hagree]

theorem memory_of_commit (h : t.commit? m = some k) :
    (t.act table m).site.memory =
      t.site.memory.put k.plan.lineage (.next k.plan.expected) := by
  obtain ⟨chance, c, rfl, hc, hphase, hagree⟩ := commit?_eq_some h
  show (t.proceed k.client chance).site.memory = _
  rw [proceed_commit hc hphase hagree]

variable (table) in
/-- Without a commit and without its removal the record stays what it is. -/
theorem memory_of_quiet (h : t.commit? m = none) (hdrop : m.isDrop = false) :
    (t.act table m).site.memory = t.site.memory := by
  cases m with
  | proceed client chance =>
    show (t.proceed client chance).site.memory = t.site.memory
    have hp := t.proceeds client chance
    generalize t.proceed client chance = t' at hp ⊢
    cases hp with
    | commit hc hphase hagree =>
      rw [commit?_of_writing chance hc hphase hagree] at h
      cases h
    | _ => rfl
  | enter => rfl
  | drop => cases hdrop
  | _ => exact (act_frame table t (fun _ _ h => by cases h) (fun _ _ _ h => by cases h) rfl).1

theorem memory_run_of_quiet {moves : List Move} (hdrop : ∀ m ∈ moves, m.isDrop = false)
    (hquiet : commits table moves t = []) :
    (t.run table moves).site.memory = t.site.memory := by
  induction moves generalizing t with
  | nil => rfl
  | cons m moves ih =>
    obtain ⟨hm, hrest⟩ := List.append_eq_nil_iff.mp hquiet
    have hnone : t.commit? m = none := by
      cases hk : t.commit? m with
      | none => rfl
      | some k => rw [hk] at hm; cases hm
    have hstep := memory_of_quiet table hnone (hdrop m List.mem_cons_self)
    have hrun := ih (fun m' hm' => hdrop m' (List.mem_cons_of_mem m hm')) hrest
    show ((t.act table m).run table moves).site.memory = t.site.memory
    rw [hrun, hstep]

section Following

variable {client : Nat} {c : Client}

theorem clients_proceed (chance : Chance) (hc : t.clients[client]? = some c) :
    (t.proceed client chance).clients = t.clients.set client
      ⟨c.call, (Call.step (Site.services chance) c.call c.phase t.site).1⟩ := by
  unfold proceed
  rw [hc]

theorem proceed_absent (chance : Chance) (hc : t.clients[client]? = none) :
    t.proceed client chance = t := by
  unfold proceed
  rw [hc]

theorem getElem?_proceed_self (chance : Chance) (hc : t.clients[client]? = some c) :
    (t.proceed client chance).clients[client]? =
      some ⟨c.call, (Call.step (Site.services chance) c.call c.phase t.site).1⟩ := by
  rw [clients_proceed chance hc]
  exact List.getElem?_set_self (List.getElem?_eq_some_iff.mp hc).1

/-- A call is changed by its own answers only. -/
theorem getElem?_act_of_ne (hc : t.clients[client]? = some c)
    (hm : ∀ chance, m ≠ .proceed client chance) :
    (t.act table m).clients[client]? = some c := by
  cases m with
  | proceed other chance =>
    have hne : other ≠ client := by
      rintro rfl
      exact hm chance rfl
    show (t.proceed other chance).clients[client]? = some c
    unfold proceed
    split
    · exact hc
    · rw [List.getElem?_set_ne hne]
      exact hc
  | enter request attempts generations =>
    show (t.clients ++ [_])[client]? = some c
    rw [List.getElem?_append_left (List.getElem?_eq_some_iff.mp hc).1]
    exact hc
  | drop => exact hc
  | _ =>
    rw [(act_frame table t (fun _ _ h => by cases h) (fun _ _ _ h => by cases h) rfl).2.2]
    exact hc

/-- What the answers to a call keep, and what all other moves keep, holds of the call after every
run. -/
theorem follow (table : Text) (Allowed : Move → Prop) (Inv : Traffic → Client → Prop)
    (others : ∀ t m c, Allowed m → (∀ chance, m ≠ .proceed client chance) → Inv t c →
      Inv (t.act table m) c)
    (own : ∀ t chance c, Allowed (.proceed client chance) → t.clients[client]? = some c →
      Inv t c → Inv (t.proceed client chance)
        ⟨c.call, (Call.step (Site.services chance) c.call c.phase t.site).1⟩)
    {moves : List Move} (hmoves : ∀ m ∈ moves, Allowed m) (hc : t.clients[client]? = some c)
    (h : Inv t c) :
    ∃ c', (t.run table moves).clients[client]? = some c' ∧ c'.call = c.call ∧
      Inv (t.run table moves) c' := by
  have hstep : ∀ (t : Traffic) (m : Move), Allowed m →
      (∃ c', t.clients[client]? = some c' ∧ c'.call = c.call ∧ Inv t c') →
      ∃ c', (t.act table m).clients[client]? = some c' ∧ c'.call = c.call ∧
        Inv (t.act table m) c' := by
    rintro t m hm ⟨c', hc', hcall, h⟩
    by_cases hown : ∃ chance, m = .proceed client chance
    · obtain ⟨chance, rfl⟩ := hown
      exact ⟨_, getElem?_proceed_self chance hc', hcall, own t chance c' hm hc' h⟩
    · have hother : ∀ chance, m ≠ .proceed client chance := not_exists.mp hown
      exact ⟨c', getElem?_act_of_ne hc' hother, hcall, others t m c' hm hother h⟩
  exact run_induction hstep moves t hmoves ⟨c, hc, rfl, h⟩

end Following

end Traffic

end SegmentSwap
