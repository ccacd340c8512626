import SegmentSwap.Proofs.Deletion.Backing

/-!
# Deletions are safe

On a table that is loaded piece by piece, no deletion ever hits a segment that queries see or that a
replacement in progress produces, however late it comes. A request is undone from the moment of the
commit that orders it; from there on its segment is registered and not needed, so nobody can make
use of its name before it is gone.
-/

namespace SegmentSwap

namespace Phase

/-- After another write nothing is asked of a call that has read the record before: its write is
lost. -/
theorem backed_of_overtaken {m : Memory} {mode : Mode} {c : Call} {phase : Phase}
    {v : Option Version} {held free : Text → Prop} (h : phase.Sound m mode c)
    (hover : ∀ read, m.Seen c.table read → Version.Overtaken read.version? v)
    (hfresh : phase.Fresh v) : phase.Backed held free := by
  cases phase with
  | minting | configuring | reading | surveying | queueing | done => trivial
  | dating =>
    obtain ⟨-, -, -, hknown, -⟩ := h
    exact absurd (hfresh _ rfl) (hover _ hknown.seen).not_agree
  | probing | closing => exact absurd (hfresh _ rfl) (hover _ h.2.seen).not_agree
  | auditing =>
    obtain ⟨read, _, _, hknown, -, hplan⟩ := h
    have hagree := hfresh _ rfl
    rw [hplan.expected] at hagree
    exact absurd hagree (hover _ hknown.seen).not_agree
  | writing =>
    obtain ⟨read, hknown, hdraft⟩ := h
    have hagree := hfresh _ rfl
    rw [hdraft.expected] at hagree
    exact absurd hagree (hover _ hknown.seen).not_agree

theorem backed_begin (c : Call) (held free : Text → Prop) : c.begin.Backed held free := by
  unfold Call.begin
  split
  · split <;> trivial
  · trivial
  · trivial

theorem ordered_begin (c : Call) (table : Text) : c.begin.ordered table = [] := by
  unfold Call.begin
  split
  · split <;> rfl
  · rfl
  · rfl

theorem lost_cases {chance : Chance} {c : Call} {a : Attempt} {next : Phase}
    (h : c.Loses chance a next) : (∃ b, next = .reading b) ∨ ∃ r, next = .done r := by
  cases h with
  | again => exact .inl ⟨_, rfl⟩
  | spent | outage => exact .inr ⟨_, rfl⟩

end Phase

namespace Traffic

variable {table : Text} {t t' : Traffic}

/-- The segments whose deletion is undone. -/
def doomed (t : Traffic) : List Text := t.undone.map Deletion.segment

/-- The segments that are registered for a table. -/
def registered (table : Text) (t : Traffic) : List Text := t.site.registry.segments table

/-- A call relies on nothing that may go away while its write can take effect. -/
def Supports (table : Text) (t : Traffic) (c : Client) : Prop :=
  c.phase.Fresh (t.site.memory.version? table) →
    c.phase.Backed (Held (t.lineage table) (t.registered table)) (Free (t.lineage table) t.doomed)

/-- What holds on a table that is not reloaded, beside soundness. -/
structure Safe (table : Text) (t : Traffic) : Prop where
  consistent : t.site.registry.Consistent
  owned : ∀ d ∈ t.undone, d.table = table
  balanced : Balanced (t.lineage table) (t.registered table) t.doomed
  supported : ∀ c ∈ t.clients, t.Supports table c

/-- Where the record stays and nothing is lost, calls keep what they rely on, and so does a new call
or one that goes on, if it has what it relies on. -/
theorem Safe.keep (h : t.Safe table) (hmemory : t'.site.memory = t.site.memory)
    (hkeeps : Keeps table t t') (hclients : ∀ c ∈ t'.clients, c ∈ t.clients ∨ t.Supports table c) :
    t'.Safe table := by
  have hlineage : t'.lineage table = t.lineage table := by
    unfold lineage
    rw [hmemory]
  have hdoomed : t'.doomed.Perm t.doomed := hkeeps.undone.map _
  refine ⟨hkeeps.consistent h.consistent, fun d hd => h.owned d (hkeeps.undone.mem_iff.mp hd), ?_,
    fun c hc => ?_⟩
  · rw [hlineage]
    exact h.balanced.keep hdoomed hkeeps.registered
  · have hsupports : t.Supports table c := by
      rcases hclients c hc with hc | hc
      · exact h.supported c hc
      · exact hc
    unfold Supports
    rw [hlineage, hmemory]
    refine fun hfresh => (hsupports hfresh).mono (fun s hs => ?_) fun s hs => ?_
    · exact ⟨hkeeps.registered s hs.present, hs.needed⟩
    · exact ⟨fun hd => hs.spared (hdoomed.mem_iff.mp hd), hs.unused⟩

/-- Acting on a request takes away nothing that is needed. -/
theorem Safe.handle {d : Deletion} (h : t.Safe table) (hmemory : t'.site.memory = t.site.memory)
    (hhandles : Handles table d t t') (hclients : t'.clients = t.clients) : t'.Safe table := by
  have hlineage : t'.lineage table = t.lineage table := by
    unfold lineage
    rw [hmemory]
  have hdoomed : t.doomed.Perm (d.segment :: t'.doomed) := hhandles.undone.map _
  have hgone : ¬ (t.lineage table).Needs d.segment :=
    h.balanced.unneeded _ (hdoomed.mem_iff.mpr List.mem_cons_self)
  refine ⟨hhandles.consistent h.consistent, fun x hx => ?_, ?_, fun c hc => ?_⟩
  · exact h.owned x (hhandles.undone.mem_iff.mpr (List.mem_cons_of_mem d hx))
  · rw [hlineage]
    exact h.balanced.handle hdoomed hhandles.registered
  · rw [hclients] at hc
    unfold Supports
    rw [hlineage, hmemory]
    refine fun hfresh => (h.supported c hc hfresh).mono (fun s hs => ?_) fun s hs => ?_
    · refine ⟨hhandles.registered s hs.present fun heq => hgone ?_, hs.needed⟩
      rw [← heq]
      exact hs.needed
    · exact ⟨fun hd => hs.spared (hdoomed.mem_iff.mpr (List.mem_cons_of_mem _ hd)), hs.unused⟩

/-- A write that takes effect is safe: the calls that have read the record before it are going to
lose theirs. -/
theorem Safe.commit {client : Nat} {c : Client} {a : Attempt} {plan : Plan}
    (hsound : t.Sound table .append) (h : t.Safe table) (hc : t.clients[client]? = some c)
    (hphase : c.phase = .writing a plan)
    (hagree : Version.agree (t.site.memory.version? table) plan.expected = true) :
    Safe table ⟨{ t.site with memory := t.site.memory.put plan.lineage (.next plan.expected) },
      t.clients.set client ⟨c.call, Call.queue plan.entry plan.deletions⟩⟩ := by
  have hmem := List.mem_of_getElem? hc
  have htable := hsound.plan_table hmem hphase
  obtain ⟨hcall, hdraft⟩ := hsound.read_of_agree hmem hphase hagree
  have hundone := undone_commit hc hphase (t.site.memory.put plan.lineage (.next plan.expected))
  have hread : (t.site.memory.put plan.lineage (.next plan.expected)).read table =
      ⟨plan.lineage, some (.next plan.expected)⟩ := by
    rw [← htable, Memory.read_put_self]
  have hback : c.phase.Backed (Held (t.lineage table) (t.registered table))
      (Free (t.lineage table) t.doomed) := by
    refine h.supported c hmem fun v hv => ?_
    rw [hphase] at hv
    cases hv
    exact hagree
  rw [hphase] at hback
  refine ⟨h.consistent, fun d hd => ?_, ?_, fun c' hc' => ?_⟩
  · rcases List.mem_append.mp (hundone.mem_iff.mp hd) with hd | hd
    · obtain ⟨b, -, hd⟩ := List.mem_flatMap.mp hd
      obtain ⟨x, -, rfl⟩ := List.mem_map.mp hd
      exact hcall
    · exact h.owned d hd
  · have hbalanced := hdraft.balanced hsound.exclusive h.balanced hback
    unfold lineage
    rw [hread]
    refine hbalanced.keep ?_ fun s hs => hs
    have hdoomed := hundone.map Deletion.segment
    rw [List.map_append] at hdoomed
    exact hdoomed
  · intro hfresh
    rcases List.mem_or_eq_of_mem_set hc' with hold | rfl
    · obtain ⟨hcall', hphase'⟩ := hsound.clients c' hold
      refine Phase.backed_of_overtaken hphase' (fun read hseen => ?_) hfresh
      rw [hcall'] at hseen
      exact hseen.overtaken hagree htable
    · exact Phase.backed_queue _ _

theorem Safe.proceeds {client : Nat} {chance : Chance} (hsound : t.Sound table .append)
    (h : t.Safe table) (hp : Proceeds t client chance t') : t'.Safe table := by
  have hset : ∀ {c' : Client}, t.Supports table c' →
      ∀ x ∈ t.clients.set client c', x ∈ t.clients ∨ t.Supports table x := by
    intro c' hc' x hx
    rcases List.mem_or_eq_of_mem_set hx with hx | rfl
    · exact Or.inl hx
    · exact Or.inr hc'
  cases hp with
  | absent => exact h
  | commit hc hphase hagree =>
    rw [hsound.plan_table (List.mem_of_getElem? hc) hphase] at hagree
    exact h.commit hsound hc hphase hagree
  | @lost c a plan next hc hphase hnext =>
    have hbefore : c.phase.ordered c.call.table = [] := by rw [hphase]; rfl
    rcases Phase.lost_cases hnext with ⟨b, rfl⟩ | ⟨r, rfl⟩
    · exact h.keep rfl ⟨undone_look hc hbefore rfl, fun _ hs => hs, id⟩ (hset fun _ => trivial)
    · exact h.keep rfl ⟨undone_look hc hbefore rfl, fun _ hs => hs, id⟩ (hset fun _ => trivial)
  | order hc hphase =>
    exact h.keep rfl ⟨undone_order hc hphase, fun _ hs => hs, id⟩
      (hset fun _ => Phase.backed_queue _ _)
  | @look c hc hwrite hqueue =>
    have hmem := List.mem_of_getElem? hc
    obtain ⟨rfl, hphase⟩ := hsound.clients c hmem
    obtain ⟨hbefore, hafter⟩ := Phase.ordered_step chance c.call t.site c.call.table hwrite hqueue
    refine h.keep rfl ⟨undone_look hc hbefore hafter, fun _ hs => hs, id⟩ (hset fun hfresh => ?_)
    exact Phase.Backed.step h.consistent h.balanced hphase (h.supported c hmem) hwrite hfresh

theorem Safe.act (hsound : t.Sound table .append) (h : t.Safe table) {m : Move}
    (hdrop : m.isDrop = false) (hupset : m.isUpset = false) : (t.act table m).Safe table := by
  by_cases hproceed : ∃ client chance, m = .proceed client chance
  · obtain ⟨client, chance, rfl⟩ := hproceed
    exact h.proceeds hsound (t.proceeds client chance)
  by_cases henter : ∃ request attempts generations, m = .enter request attempts generations
  · obtain ⟨request, attempts, generations, rfl⟩ := henter
    refine h.keep rfl ⟨List.Perm.of_eq ?_, fun _ hs => hs, id⟩ fun c hc => ?_
    · unfold Traffic.act undone
      dsimp only
      rw [List.flatMap_append, List.flatMap_singleton, Phase.ordered_begin, List.append_nil]
    · rcases List.mem_append.mp hc with hc | hc
      · exact Or.inl hc
      · rw [List.mem_singleton.mp hc]
        exact Or.inr fun _ => Phase.backed_begin _ _ _
  · push Not at hproceed henter
    obtain ⟨hmemory, -, hclients⟩ := act_frame table t hproceed henter hdrop
    rcases act_keeps_or_handles table t hproceed henter hdrop hupset with
      hkeeps | ⟨d, hhandles⟩
    · exact h.keep hmemory hkeeps fun c hc => Or.inl (by rw [hclients] at hc; exact hc)
    · exact h.handle hmemory hhandles hclients

theorem safe_idle {s : Site} (hnew : s.memory.get? table = none) (hqueue : s.queue = .empty)
    (htaken : s.taken = []) (hreg : s.registry.Consistent) : (idle s).Safe table := by
  have hundone : (idle s).undone = [] := by
    simp [undone, idle, hqueue, htaken, Deletion.Queue.undone, Deletion.Queue.pending,
      Deletion.Queue.empty]
  refine ⟨hreg, fun d hd => ?_, ?_, fun c hc => absurd hc List.not_mem_nil⟩
  · rw [hundone] at hd
    exact absurd hd List.not_mem_nil
  · unfold doomed
    rw [hundone, lineage_idle hnew]
    exact Balanced.empty table _

/-- Traffic is safe after every run from an empty queue in which the record is not removed and the
registry not changed at will. -/
theorem safe_run {s : Site} (hnew : s.memory.get? table = none)
    (hmode : s.modes.of table ≠ .refresh) (hqueue : s.queue = .empty) (htaken : s.taken = [])
    (hreg : s.registry.Consistent) {moves : List Move}
    (hmoves : ∀ m ∈ moves, m.isDrop = false ∧ m.isUpset = false) :
    ((idle s).run table moves).Sound table .append ∧ ((idle s).run table moves).Safe table := by
  have happend : s.modes.of table = .append := by
    cases hm : s.modes.of table with
    | append => rfl
    | refresh => exact absurd hm hmode
  have hstep : ∀ (t : Traffic) (m : Move), m.isDrop = false ∧ m.isUpset = false →
      t.Sound table .append ∧ t.Safe table →
        (t.act table m).Sound table .append ∧ (t.act table m).Safe table := fun t m hm h =>
    ⟨h.1.act hm.1, h.2.act h.1 hm.1 hm.2⟩
  exact run_induction hstep moves (idle s) hmoves
    ⟨sound_idle hnew happend, safe_idle hnew hqueue htaken hreg⟩

/-- However late a request for a deletion is acted on, its segment is not served and no target of an
entry in progress. So the sources of entries in progress stay registered and served, and the targets
of an entry that a call completes are registered when it does. -/
theorem undone_not_needed {s : Site} {moves : List Move} (hnew : s.memory.get? table = none)
    (hmode : s.modes.of table ≠ .refresh) (hqueue : s.queue = .empty) (htaken : s.taken = [])
    (hreg : s.registry.Consistent) (hmoves : ∀ m ∈ moves, m.isDrop = false ∧ m.isUpset = false)
    (ht : (idle s).run table moves = t) :
    (∀ d ∈ t.undone, d.table = table ∧
      d.segment ∉ (t.lineage table).served (t.site.registry.segments table) ∧
      ∀ e ∈ (t.lineage table).running, d.segment ∉ e.targets) ∧
    (∀ e ∈ (t.lineage table).running, ∀ x ∈ e.sources, x ∈ t.site.registry.segments table ∧
      x ∈ (t.lineage table).served (t.site.registry.segments table)) ∧
    (∀ c ∈ t.clients, ∀ a plan id, c.phase = .writing a plan → a.job = .finish id →
      Version.agree (t.site.memory.version? table) plan.expected = true →
      ∀ x ∈ plan.entry.targets, x ∈ t.site.registry.segments table) := by
  subst ht
  obtain ⟨-, hsafe⟩ := safe_run hnew hmode hqueue htaken hreg hmoves
  refine ⟨fun d hd => ?_, fun e he x hx => ?_, fun c hc a plan id hphase hjob hagree x hx => ?_⟩
  · have hneeds := hsafe.balanced.unneeded d.segment (List.mem_map_of_mem hd)
    refine ⟨hsafe.owned d hd, fun hserved => ?_, fun e he htarget => ?_⟩
    · exact hneeds (Or.inl (Lineage.mem_served.mp hserved).2)
    · exact hneeds (Or.inr ⟨e, he, htarget⟩)
  · obtain ⟨hregistered, hexposed⟩ := hsafe.balanced.sources e he x hx
    exact ⟨hregistered, Lineage.mem_served.mpr ⟨hregistered, hexposed⟩⟩
  · have hback := hsafe.supported c hc fun v hv => by
      rw [hphase] at hv
      cases hv
      exact hagree
    rw [hphase] at hback
    exact (hback.completed (by rw [hjob]; rfl) x hx).present

/-- A forced revert releases the name of a target, whose deletion a worker takes its time for;
afterwards the name is claimed, uploaded and about to be published again, while the deletion of the
source of an earlier entry is still to come. -/
def reclaimed : List Move :=
  [.startWorker, .enter (.start ["a"] ["b"] false) 5 2] ++ Move.answers 0 6 "1" ++
    [.add ["b"] true, .enter (.revert "1" true) 5 2] ++ Move.answers 1 6 "" ++
    [.take 0, .enter (.start ["a"] ["c"] false) 5 2] ++ Move.answers 2 6 "2" ++
    [.work 0 true, .add ["c"] true, .enter (.finish "2") 5 2] ++ Move.answers 3 6 "" ++
    [.take 0, .enter (.start ["c"] ["b"] false) 5 2] ++ Move.answers 4 6 "3" ++
    [.add ["b"] true, .enter (.finish "3") 5 2] ++ Move.answers 5 4 ""

/-- The deletion that is undone then is not one of the name that has been claimed again. -/
theorem undone_not_needed_reclaimed :
    let t := (idle (.holding "t" .append ["a"])).run "t" reclaimed
    t.undone = [⟨"t", "a", "replaced_by:2"⟩] ∧
      (t.lineage "t").running.map Entry.targets = [[("b" : Text)]] ∧
      ∀ d ∈ t.undone, d.table = "t" ∧
        d.segment ∉ (t.lineage "t").served (t.site.registry.segments "t") ∧
        ∀ e ∈ (t.lineage "t").running, d.segment ∉ e.targets :=
  ⟨by decide +kernel, by decide +kernel,
    (undone_not_needed rfl (by decide) rfl rfl (by decide) (by decide) rfl).1⟩

end Traffic

end SegmentSwap
