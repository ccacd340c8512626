import SegmentSwap.Proofs.Store.Memory
import SegmentSwap.Proofs.Traffic.Alone

/-!
# What a start comes to

Whether a start goes ahead is decided by the record, the registered segments and the request alone.
The decision is given here by four conditions on them, the first that applies counting, and without
the loops that look for offending names. A start that nobody disturbs fails for exactly that reason
and changes nothing, or it succeeds; then the record is the old one with the rivals reverted where
they stand and the new entry at its end.
-/

namespace SegmentSwap

/-- A request is malformed: it names no targets, or a segment twice. -/
def Malformed (sources targets : List Text) : Prop :=
  targets = [] ∨ ¬sources.Nodup ∨ ¬targets.Nodup ∨ ∃ s ∈ sources, s ∈ targets

/-- Two source lists are about the same segments. Two empty ones are. -/
def Compete (left right : List Text) : Prop :=
  (left = [] ∧ right = []) ∨ ∃ s ∈ left, s ∈ right

instance (sources targets : List Text) : Decidable (Malformed sources targets) :=
  inferInstanceAs (Decidable (_ ∨ _ ∨ _ ∨ ∃ s ∈ sources, s ∈ targets))

instance (left right : List Text) : Decidable (Compete left right) :=
  inferInstanceAs (Decidable ((_ ∧ _) ∨ ∃ s ∈ left, s ∈ right))

/-- What a check that fails finds. -/
theorem holds_of_error {ε : Type} {x : Except ε Unit} {p : Prop} {e : ε} (hok : x = .ok () ↔ ¬p)
    (h : x = .error e) : p := by
  by_contra hp
  rw [hok.mpr hp] at h
  cases h

theorem wellShaped_iff {sources targets : List Text} :
    WellShaped sources targets ↔ ¬Malformed sources targets := by
  unfold Malformed
  simp only [not_or, not_not, not_exists, not_and]
  exact ⟨fun h => ⟨h.targets_ne, h.sources_nodup, h.targets_nodup, fun s hs ht => h.disjoint hs ht⟩,
    fun ⟨hne, hs, ht, hd⟩ => ⟨hne, hs, ht, fun s hs ht => hd s hs ht⟩⟩

theorem overlaps_iff_compete {left right : List Text} :
    overlaps left right = true ↔ Compete left right := by
  unfold overlaps Compete
  simp

namespace Lineage

variable (l : Lineage) (registered sources targets : List Text) (force : Bool)

/-- A target is registered or produced by an entry in progress or completed. -/
def Taken : Prop :=
  ∃ t ∈ targets, t ∈ registered ∨
    ∃ e ∈ l.entries, (e.state = .inProgress ∨ e.state = .completed) ∧ t ∈ e.targets

/-- A source is not served. -/
def Unserved : Prop := ∃ s ∈ sources, s ∉ l.served registered

/-- An entry in progress competes for the sources. -/
def Contested : Prop := ∃ e ∈ l.entries, e.state = .inProgress ∧ Compete e.sources sources

instance : Decidable (l.Taken registered targets) :=
  inferInstanceAs (Decidable (∃ t ∈ targets, t ∈ registered ∨
    ∃ e ∈ l.entries, (e.state = .inProgress ∨ e.state = .completed) ∧ t ∈ e.targets))

instance : Decidable (l.Unserved registered sources) :=
  inferInstanceAs (Decidable (∃ s ∈ sources, s ∉ l.served registered))

instance : Decidable (l.Contested sources) :=
  inferInstanceAs (Decidable (∃ e ∈ l.entries, e.state = .inProgress ∧ Compete e.sources sources))

/-- What stands against a start. -/
def objection? : Option Category :=
  if Malformed sources targets then some .malformedRequest
  else if l.Taken registered targets then some .duplicateTargets
  else if l.Unserved registered sources then some .unavailableSources
  else if force = false ∧ l.Contested sources then some .contested
  else none

/-- The entries once a start has gone ahead. -/
def afterStart (id stamp : Text) : List Entry :=
  (l.entries.map fun e =>
    if e.state = .inProgress ∧ Compete e.sources sources then
      { e with state := .reverted, stamp := stamp }
    else e) ++ [⟨id, sources, targets, .inProgress, stamp⟩]

end Lineage

section Checks

variable {l : Lineage} {table : Text} {registered sources targets : List Text} {force : Bool}
  {r : Refusal}

theorem Check.kind_of_request (h : Check.request table sources targets = .error r) :
    r.kind = .declared .malformedRequest := by
  have hside : ∀ {side : Side} {names : List Text},
      Check.checkSide table side names = .error r → r.kind = .declared .malformedRequest := by
    intro side names h
    unfold Check.checkSide at h
    split at h
    · cases h
    · obtain rfl := Except.error.inj h
      rfl
  unfold Check.request at h
  split at h
  · obtain rfl := Except.error.inj h
    rfl
  · rcases bind_eq_error_iff.mp h with h | ⟨_, -, h⟩
    · exact hside h
    · rcases bind_eq_error_iff.mp h with h | ⟨_, -, h⟩
      · exact hside h
      · split at h
        · cases h
        · obtain rfl := Except.error.inj h
          rfl

theorem Check.kind_of_targetsFree (h : Check.targetsFree l table targets registered = .error r) :
    r.kind = .declared .duplicateTargets := by
  unfold Check.targetsFree at h
  split at h
  · obtain rfl := Except.error.inj h
    rfl
  · split at h
    · cases h
    · obtain rfl := Except.error.inj h
      rfl

theorem Check.kind_of_sourcesServed {served : List Text}
    (h : Check.sourcesServed table sources served = .error r) :
    r.kind = .declared .unavailableSources := by
  unfold Check.sourcesServed at h
  dsimp only at h
  split at h
  · cases h
  · obtain rfl := Except.error.inj h
    rfl

theorem Check.kind_of_uncontested (h : Check.uncontested l table sources force = .error r) :
    r.kind = .declared .contested := by
  unfold Check.uncontested at h
  dsimp only at h
  split at h
  · cases h
  · obtain rfl := Except.error.inj h
    rfl

theorem Check.targetsFree_iff :
    Check.targetsFree l table targets registered = .ok () ↔ ¬l.Taken registered targets := by
  rw [Check.targetsFree_eq_ok_iff]
  simp only [Lineage.Taken, State.isLive_iff, not_exists, not_and, not_or]
  constructor
  · rintro ⟨hentries, hregistered⟩ t ht
    exact ⟨fun hmem => hregistered ht hmem, fun e he hlive hte => hentries e he hlive ht hte⟩
  · intro h
    exact ⟨fun e he hlive t ht hte => (h t ht).2 e he hlive hte, fun t ht hmem => (h t ht).1 hmem⟩

theorem Check.sourcesServed_iff :
    Check.sourcesServed table sources (l.served registered) = .ok () ↔
      ¬l.Unserved registered sources := by
  rw [Check.sourcesServed_eq_ok_iff]
  simp only [Lineage.Unserved, not_exists, not_and, not_not]

theorem Check.uncontested_iff : Check.uncontested l table sources force = .ok () ↔
    ¬(force = false ∧ l.Contested sources) := by
  have hrivals : l.rivals sources = [] ↔ ¬l.Contested sources := by
    rw [List.eq_nil_iff_forall_not_mem]
    simp only [Lineage.mem_rivals, Lineage.mem_running, overlaps_iff_compete, Lineage.Contested,
      not_exists, not_and, and_imp]
  rw [Check.uncontested_eq_ok_iff, hrivals]
  cases force <;> simp

variable (l registered force) in
/-- The checks of a well-shaped start decide as the objections do. -/
theorem Call.checkStart_cases (c : Call) (hshape : ¬Malformed sources targets) :
    (l.objection? registered sources targets force = none ∧
        c.checkStart sources targets force l registered = .ok ()) ∨
      ∃ category r, l.objection? registered sources targets force = some category ∧
        c.checkStart sources targets force l registered = .error r ∧
        r.kind = .declared category := by
  unfold Lineage.objection? Call.checkStart
  rw [if_neg hshape]
  cases htargets : Check.targetsFree l c.table targets registered with
  | error r =>
    have htaken : l.Taken registered targets := holds_of_error Check.targetsFree_iff htargets
    rw [if_pos htaken]
    exact .inr ⟨_, r, rfl, rfl, Check.kind_of_targetsFree htargets⟩
  | ok =>
    rw [if_neg (Check.targetsFree_iff.mp htargets)]
    cases hsources : Check.sourcesServed c.table sources (l.served registered) with
    | error r =>
      have hunserved : l.Unserved registered sources := holds_of_error Check.sourcesServed_iff hsources
      rw [if_pos hunserved]
      exact .inr ⟨_, r, rfl, rfl, Check.kind_of_sourcesServed hsources⟩
    | ok =>
      rw [if_neg (Check.sourcesServed_iff.mp hsources)]
      cases hrivals : Check.uncontested l c.table sources force with
      | error r =>
        have hcontested : force = false ∧ l.Contested sources := holds_of_error Check.uncontested_iff hrivals
        rw [if_pos hcontested]
        exact .inr ⟨_, r, rfl, rfl, Check.kind_of_uncontested hrivals⟩
      | ok =>
        rw [if_neg (Check.uncontested_iff.mp hrivals)]
        exact .inl ⟨rfl, rfl⟩

end Checks

namespace Call

variable {c : Call} {chance : Chance} {s : Site} {sources targets : List Text} {force : Bool}

theorem StartPlan.entries_eq {ticket : Ticket} {read : Versioned} {registered : List Text}
    {stamp : Text} {plan : Plan}
    (h : StartPlan c ticket sources targets read registered stamp plan) :
    plan.lineage.entries = read.lineage.afterStart sources targets ticket.id stamp := by
  obtain ⟨mid, hmoves, happends⟩ := h.lineage
  unfold Lineage.afterStart
  rw [happends.entries, hmoves.entries, h.entry]
  congr 1
  refine List.map_congr_left fun e he => ?_
  have hrival : e ∈ read.lineage.rivals sources ↔
      e.state = .inProgress ∧ Compete e.sources sources := by
    rw [Lineage.mem_rivals, Lineage.mem_running, overlaps_iff_compete]
    simp [he]
  unfold Entry.movedAmong
  simp only [hrival]
  rfl

/-- How a start that nobody disturbs ends, given what stands against it. -/
structure Decided (c : Call) (chance : Chance) (s : Site) (sources targets : List Text)
    (objection? : Option Category) : Prop where
  /-- It is turned down for what stands against it, and for nothing else. -/
  refused : ∀ category, objection? = some category ↔
    ∃ r, (c.answer (Site.services chance) s).1 = .error (.refusal r) ∧
      r.kind = .declared category
  /-- It succeeds if nothing does. -/
  accepted : objection? = none ↔ (c.answer (Site.services chance) s).1 =
    .ok ⟨chance.id, sources, targets, .inProgress, chance.stamp⟩
  /-- A start that is turned down changes nothing. -/
  kept : objection? ≠ none → (c.answer (Site.services chance) s).2 = s
  /-- A start that succeeds changes the record and the queue. -/
  stored : objection? = none → ∃ l q,
    (c.answer (Site.services chance) s).2 =
      { s with memory := s.memory.put l (.next (s.memory.read c.table).version?), queue := q } ∧
    ((c.answer (Site.services chance) s).2.memory.read c.table).lineage = l ∧
    l.table = c.table ∧
    l.entries = (s.memory.read c.table).lineage.afterStart sources targets chance.id chance.stamp

theorem decided_of_refused {category : Category} {r : Refusal}
    (h : c.answer (Site.services chance) s = (.error (.refusal r), s))
    (hkind : r.kind = .declared category) :
    c.Decided chance s sources targets (some category) := by
  refine ⟨fun other => ?_, ?_, fun _ => by rw [h], fun hnone => nomatch hnone⟩
  · rw [h]
    constructor
    · intro hother
      exact ⟨r, rfl, by rw [hkind, Option.some.inj hother]⟩
    · rintro ⟨r', hr', hkind'⟩
      cases hr'
      rw [hkind] at hkind'
      cases hkind'
      rfl
  · rw [h]
    exact ⟨fun hnone => (nomatch hnone), fun hok => nomatch hok⟩

theorem decided_of_accepted {plan : Plan} {q : Deletion.Queue}
    (hrecord : (s.memory.read c.table).lineage.table = c.table)
    (hplan : c.StartPlan ⟨chance.id, s.modes.of c.table⟩ sources targets (s.memory.read c.table)
      (s.registry.segments c.table) chance.stamp plan)
    (h : c.answer (Site.services chance) s = (.ok plan.entry,
      { s with memory := s.memory.put plan.lineage (.next plan.expected), queue := q })) :
    c.Decided chance s sources targets none := by
  have htable : plan.lineage.table = c.table := hplan.table.trans hrecord
  refine ⟨fun category => ?_, ?_, fun hne => absurd rfl hne, fun _ => ?_⟩
  · rw [h]
    refine ⟨fun hnone => (nomatch hnone), ?_⟩
    rintro ⟨r, hr, -⟩
    cases hr
  · rw [h, hplan.entry]
    exact ⟨fun _ => rfl, fun _ => rfl⟩
  · rw [h]
    refine ⟨plan.lineage, q, by rw [hplan.expected], ?_, htable, hplan.entries_eq⟩
    rw [← htable, Memory.read_put_self]

/-- A start that nobody disturbs decides by what stands against it. -/
theorem start_decides (hup : chance.outage? = none)
    (hrequest : c.request = .start sources targets force)
    (hrecord : (s.memory.read c.table).lineage.table = c.table)
    (hid : chance.id ∉ (s.memory.read c.table).lineage.ids) :
    c.Decided chance s sources targets ((s.memory.read c.table).lineage.objection?
      (s.registry.segments c.table) sources targets force) := by
  by_cases hmalformed : Malformed sources targets
  · cases hcheck : Check.request c.table sources targets with
    | ok u =>
      exact absurd hmalformed (wellShaped_iff.mp (Check.request_eq_ok_iff.mp hcheck))
    | error r =>
      have hanswer : c.answer (Site.services chance) s = (.error (.refusal r), s) := by
        rw [answer, begin_of_refused hrequest hcheck]
        exact run_done _ c _ s
      have hobjection : (s.memory.read c.table).lineage.objection? (s.registry.segments c.table)
          sources targets force = some .malformedRequest := if_pos hmalformed
      rw [hobjection]
      exact decided_of_refused hanswer (Check.kind_of_request hcheck)
  · have hshape := wellShaped_iff.mpr hmalformed
    rcases c.checkStart_cases (s.memory.read c.table).lineage (s.registry.segments c.table) force
      hmalformed with ⟨hnone, hcheck⟩ | ⟨category, r, hsome, hcheck, hkind⟩
    · obtain ⟨plan, q, hplan, hanswer⟩ := answer_start hup hrequest hshape hrecord hcheck hid
      rw [hnone]
      exact decided_of_accepted hrecord hplan hanswer
    · rw [hsome]
      refine decided_of_refused ?_ hkind
      rw [answer_surveying hup hrequest hshape, run_step rfl (step_surveying hup _ _ _ _ _ _)]
      unfold afterSurvey
      dsimp only
      rw [hcheck]
      exact run_done _ c _ s

/-- A site on which a replacement of one of two segments is in progress. -/
def busySite : Site :=
  ((Traffic.idle (.holding "t" .append ["a", "x"])).run "t"
    (.enter (.start ["a"] ["b"] false) 5 2 :: Move.answers 0 6 "1")).site

/-- A second start of the same segment is contested. With force it succeeds and reverts the first
one. -/
theorem start_decides_contested :
    let chance : Chance := ⟨"2", "later", none⟩
    let start (force : Bool) : Call := ⟨"t", .start ["a"] ["c"] force, 5, 2⟩
    (start false).Decided chance busySite ["a"] ["c"] (some .contested) ∧
      (start true).Decided chance busySite ["a"] ["c"] none ∧
      (((start true).answer (Site.services chance) busySite).2.memory.read "t").lineage.entries =
        [⟨"1", ["a"], ["b"], .reverted, "later"⟩, ⟨"2", ["a"], ["c"], .inProgress, "later"⟩] := by
  intro chance start
  let old := (busySite.memory.read "t").lineage
  let listed := busySite.registry.segments "t"
  have hcontested : old.objection? listed ["a"] ["c"] false = some .contested := by decide +kernel
  have hfree : old.objection? listed ["a"] ["c"] true = none := by decide +kernel
  have hrecord : old.table = "t" := by decide +kernel
  have hid : chance.id ∉ old.ids := by decide +kernel
  have hplain : (start false).Decided chance busySite ["a"] ["c"]
      (old.objection? listed ["a"] ["c"] false) := start_decides rfl rfl hrecord hid
  have hforced : (start true).Decided chance busySite ["a"] ["c"]
      (old.objection? listed ["a"] ["c"] true) := start_decides rfl rfl hrecord hid
  rw [hcontested] at hplain
  rw [hfree] at hforced
  obtain ⟨l, q, -, hread, -, hentries⟩ := hforced.stored rfl
  refine ⟨hplain, hforced, ?_⟩
  calc (((start true).answer (Site.services chance) busySite).2.memory.read "t").lineage.entries
      = l.entries := congrArg Lineage.entries hread
    _ = old.afterStart ["a"] ["c"] "2" "later" := hentries
    _ = _ := by decide +kernel

end Call

end SegmentSwap
