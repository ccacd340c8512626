import SegmentSwap.Proofs.Deletion.Safety
import SegmentSwap.Proofs.Traffic.History
import SegmentSwap.Protocol.Queries

/-!
# What a query sees

A query for the served segments reads the record first and the registry later, and calls, uploads
and deletions go on in between. Its answer is what the record that it has read exposes of the
segments that are registered when it looks. Where nothing is started or completed between the two
reads, or nothing is registered or deleted, this is what is served at one of the two moments. But it
need not be: while a query is under way a replacement may be completed and its sources deleted, and
then the answer lacks both its sources and its targets.
-/

namespace SegmentSwap

/-- A query changes nothing. -/
theorem ServedQuery.step_site (chance : Chance) (table : Text) (q : ServedQuery) (s : Site) :
    (step (Site.services chance) table q s).2 = s := by
  cases q <;> rfl

namespace Traffic

/-- The segments that are served at a moment. -/
def served (table : Text) (t : Traffic) : List Text :=
  (t.lineage table).served (t.registered table)

/-- What becomes of a query that reads the record at one moment and the registry at another one. -/
def queried (table : Text) (chance chance' : Chance) (t t' : Traffic) : ServedQuery :=
  let read := ServedQuery.step (Site.services chance) table .reading t.site
  (ServedQuery.step (Site.services chance') table read.1 t'.site).1

variable {table : Text} {site : Site} {before during : List Move} {t t' : Traffic}
  {chance chance' : Chance} {s : Text}

theorem mem_served : s ∈ t.served table ↔
    s ∈ t.registered table ∧ (t.lineage table).exposes s = true :=
  Lineage.mem_served

theorem queried_eq (t t' : Traffic) (hout : chance.outage? = none)
    (hout' : chance'.outage? = none) :
    queried table chance chance' t t' =
      .done (.ok ((t.lineage table).served (t'.registered table))) := by
  have hread : chance.answer (t.site.memory.read table) = .ok (t.site.memory.read table) := by
    unfold Chance.answer
    rw [hout]
  have hlist : chance'.answer (t'.site.registry.segments table) =
      .ok (t'.site.registry.segments table) := by
    unfold Chance.answer
    rw [hout']
  have hfirst : (ServedQuery.step (Site.services chance) table .reading t.site).1 =
      .listing (t.lineage table) := by
    show ServedQuery.afterRead (chance.answer (t.site.memory.read table)) = _
    rw [hread]
    rfl
  unfold queried
  dsimp only
  rw [hfirst]
  show ServedQuery.afterListing _ (chance'.answer (t'.site.registry.segments table)) = _
  rw [hlist]
  rfl

/-- A query on a table that is loaded piece by piece. It answers, and it misses nothing that is
served at both of its steps. What it answers and is not served at the second step has been consumed
by a completion since the first one, or is claimed by an entry that has been started since; what it
misses has been produced by a completion since. Of a replacement in progress it answers no targets,
and all sources that are still there, hence all of them if the replacement is still in progress.
The answer is what is served at a moment between the steps if nothing has been started or completed
up to this moment and the registry lists the same segments at the second step. -/
theorem query_answers (hnew : site.memory.get? table = none)
    (hmode : site.modes.of table ≠ .refresh) (hqueue : site.queue = .empty)
    (htaken : site.taken = []) (hreg : site.registry.Consistent)
    (hbefore : ∀ m ∈ before, m.isDrop = false ∧ m.isUpset = false)
    (hduring : ∀ m ∈ during, m.isDrop = false ∧ m.isUpset = false)
    (ht : (idle site).run table before = t) (ht' : t.run table during = t')
    (hout : chance.outage? = none) (hout' : chance'.outage? = none) :
    (∀ q, (ServedQuery.step (Site.services chance) table q t.site).2 = t.site) ∧
    ∃ answer, queried table chance chance' t t' = .done (.ok answer) ∧
      (∀ s ∈ t.served table, s ∈ t'.served table → s ∈ answer) ∧
      (∀ s ∈ answer, s ∉ t'.served table →
        (∃ e ∈ (t'.lineage table).completed, e ∉ (t.lineage table).completed ∧ s ∈ e.sources) ∨
          ∃ e ∈ (t'.lineage table).entries, e.id ∉ (t.lineage table).ids ∧ s ∈ e.targets) ∧
      (∀ s ∈ t'.served table, s ∉ answer →
        ∃ e ∈ (t'.lineage table).completed, e ∉ (t.lineage table).completed ∧ s ∈ e.targets) ∧
      (∀ e ∈ (t.lineage table).running, (∀ s ∈ e.targets, s ∉ answer) ∧
        (∀ s ∈ e.sources, s ∈ answer ↔ s ∈ t'.registered table) ∧
        (e ∈ (t'.lineage table).running → ∀ s ∈ e.sources, s ∈ answer)) ∧
      (∀ first second, during = first ++ second →
        ((t.run table first).lineage table).ids = (t.lineage table).ids →
        ((t.run table first).lineage table).completed ⊆ (t.lineage table).completed →
        t'.registered table = (t.run table first).registered table →
        answer = (t.run table first).served table) := by
  obtain ⟨hsound, hsafe⟩ : t.Sound table .append ∧ t.Safe table := by
    rw [← ht]
    exact safe_run hnew hmode hqueue htaken hreg hbefore
  obtain ⟨-, hsafe'⟩ : t'.Sound table .append ∧ t'.Safe table := by
    rw [← ht', ← ht, ← run_append]
    refine safe_run hnew hmode hqueue htaken hreg fun m hm => ?_
    exact (List.mem_append.mp hm).elim (hbefore m) (hduring m)
  have hcontinues : (t.lineage table).Continues (t'.lineage table) := by
    rw [← ht']
    exact hsound.continues_run fun m hm => (hduring m hm).1
  refine ⟨fun q => ServedQuery.step_site chance table q t.site, _, queried_eq t t' hout hout',
    ?_, ?_, ?_, ?_, ?_⟩
  · intro s hs hs'
    exact Lineage.mem_served.mpr ⟨(mem_served.mp hs').1, (mem_served.mp hs).2⟩
  · intro s hs hs'
    obtain ⟨hregistered, hexposed⟩ := Lineage.mem_served.mp hs
    refine hcontinues.exposes_lost hexposed ?_
    rw [← Bool.not_eq_true]
    exact fun hexposed' => hs' (mem_served.mpr ⟨hregistered, hexposed'⟩)
  · intro s hs' hs
    obtain ⟨hregistered, hexposed'⟩ := mem_served.mp hs'
    refine hcontinues.exposes_gained ?_ hexposed'
    rw [← Bool.not_eq_true]
    exact fun hexposed => hs (Lineage.mem_served.mpr ⟨hregistered, hexposed⟩)
  · intro e he
    have hsources : ∀ s ∈ e.sources,
        s ∈ (t.lineage table).served (t'.registered table) ↔ s ∈ t'.registered table := by
      intro s hs
      have hexposed := (hsafe.balanced.sources e he s hs).2
      rw [Lineage.mem_served]
      exact and_iff_left hexposed
    refine ⟨fun s hs hanswer => ?_, hsources, fun he' s hs => ?_⟩
    · have hhidden := hsound.exclusive.exposes_target he hs
      rw [(Lineage.mem_served.mp hanswer).2] at hhidden
      cases hhidden
    · exact (hsources s hs).mpr (hsafe'.balanced.sources e he' s hs).1
  · intro first second hsplit hids hdone hregistry
    have hfirst : ∀ m ∈ first, m.isDrop = false := fun m hm =>
      (hduring m (by rw [hsplit]; exact List.mem_append_left _ hm)).1
    have hexposes := (hsound.continues_run hfirst).exposes_eq hids hdone
    unfold served Lineage.served
    rw [hregistry, hexposes]

/-- The target of a replacement has been uploaded, and a call is about to complete it. -/
def uploaded : List Move :=
  [.enter (.start ["a"] ["b"] false) 5 2] ++ Move.answers 0 6 "1" ++
    [.add ["b"] true, .enter (.finish "1") 5 2] ++ Move.answers 1 4 ""

/-- The call completes the replacement and queues the deletion of the source. -/
def completing : List Move := Move.answers 1 2 ""

/-- A query that is overtaken by the completion alone answers what was served when it began. -/
theorem query_answers_overtaken :
    let t := (idle (.holding "t" .append ["a"])).run "t" uploaded
    let t' := t.run "t" completing
    queried "t" ⟨"", "", none⟩ ⟨"", "", none⟩ t t' = .done (.ok (t.served "t")) ∧
      t.served "t" = ["a"] ∧ t'.served "t" = ["b"] := by
  obtain ⟨-, answer, hquery, -, -, -, -, hview⟩ := query_answers
    (rfl : (Site.holding "t" .append ["a"]).memory.get? "t" = none) (by decide) rfl rfl
    (by decide : Registry.Consistent _)
    (by decide : ∀ m ∈ uploaded, m.isDrop = false ∧ m.isUpset = false)
    (by decide : ∀ m ∈ completing, m.isDrop = false ∧ m.isUpset = false) rfl rfl
    (rfl : (Chance.mk "" "" none).outage? = none) (rfl : (Chance.mk "" "" none).outage? = none)
  have hanswer := hview [] completing rfl rfl (List.Subset.refl _) (by decide +kernel)
  refine ⟨?_, by decide +kernel, by decide +kernel⟩
  rw [hquery, hanswer]
  rfl

/-- Beside that the deletion is acted on. -/
def replaced : List Move := completing ++ [.draw, .settle 0 true]

/-- A query that is overtaken by the completion and the deletion answers nothing at all, although at
every moment from its first step to its second one either the source or the target is served. -/
theorem query_misses_replaced :
    let t := (idle (.holding "t" .append ["a"])).run "t" uploaded
    queried "t" ⟨"", "", none⟩ ⟨"", "", none⟩ t (t.run "t" replaced) = .done (.ok []) ∧
      ∀ first second, replaced = first ++ second →
        (t.run "t" first).served "t" = ["a"] ∨ (t.run "t" first).served "t" = ["b"] := by
  have hanswer : (((idle (.holding "t" .append ["a"])).run "t" uploaded).lineage "t").served
      ((((idle (.holding "t" .append ["a"])).run "t" uploaded).run "t" replaced).registered "t") =
        [] := by
    decide +kernel
  have hmoments : ∀ n ≤ replaced.length,
      (((idle (.holding "t" .append ["a"])).run "t" uploaded).run "t"
          (replaced.take n)).served "t" = ["a"] ∨
        (((idle (.holding "t" .append ["a"])).run "t" uploaded).run "t"
          (replaced.take n)).served "t" = ["b"] := by
    decide +kernel
  refine ⟨?_, fun first second hsplit => ?_⟩
  · rw [queried_eq _ _ rfl rfl, hanswer]
  · have hfirst : replaced.take first.length = first := by
      rw [hsplit, List.take_left]
    have hlength : first.length ≤ replaced.length := by
      rw [hsplit, List.length_append]
      exact Nat.le_add_right _ _
    have hmoment := hmoments first.length hlength
    rw [hfirst] at hmoment
    exact hmoment

end Traffic

end SegmentSwap
