import SegmentSwap.Proofs.Deletion.Retention
import SegmentSwap.Proofs.Deletion.Safety
import SegmentSwap.Proofs.Lineage.Depth
import SegmentSwap.Proofs.Traffic.Filing
import SegmentSwap.Proofs.Traffic.Stillness

/-!
# The depth of a reloaded table

A start on a table that is reloaded orders the deletion of what is surplus beside the data it makes
room for. Once all that it has ordered has been carried out, and nothing has been registered since
the start asked what is, no more generations of completed loads are left than the depth allows.
Other calls and other deletions may go on meanwhile.
-/

namespace SegmentSwap

theorem Registry.not_mem_segments_delete {r : Registry} {table segment : Text} :
    segment ∉ (r.delete table segment).segments table := by
  rw [Registry.mem_segments]
  unfold Registry.delete
  simp

theorem Registry.segments_delete_subset {r : Registry} {table other segment : Text} :
    (r.delete other segment).segments table ⊆ r.segments table := by
  intro s hs
  rw [Registry.mem_segments] at hs ⊢
  unfold Registry.delete at hs
  exact (List.mem_filter.mp hs).1

/-- Whether a move may bring a segment into the registry. -/
def Move.registers : Move → Bool
  | .add .. | .upset _ => true
  | _ => false

namespace Traffic

variable {table : Text} {t t' t'' : Traffic} {m : Move} {moves between after : List Move}
  {d : Deletion} {client : Nat} {chance chance' : Chance} {c : Client} {a : Attempt} {plan : Plan}
  {ticket : Ticket} {sources targets : List Text} {force : Bool} {read : Versioned}

/-- The request that a move carries out. -/
def carriedOut? (t : Traffic) : Move → Option Deletion
  | .work worker true =>
    match t.site.queue.workers[worker]? with
    | some (.deleting d) => some d
    | _ => none
  | .settle position true => t.site.taken[position]?
  | _ => none

/-- The requests that are carried out in the course of a run. -/
def carriedOut (table : Text) : List Move → Traffic → List Deletion
  | [], _ => []
  | m :: moves, t => (t.carriedOut? m).toList ++ carriedOut table moves (t.act table m)

/-- In a run no segment of the table comes to be registered. -/
def Dwindles (table : Text) : List Move → Traffic → Prop
  | [], _ => True
  | m :: moves, t =>
    (t.act table m).registered table ⊆ t.registered table ∧ Dwindles table moves (t.act table m)

theorem registered_proceed (client : Nat) (chance : Chance) :
    (t.proceed client chance).registered table = t.registered table := by
  have hp := t.proceeds client chance
  generalize t.proceed client chance = next at hp ⊢
  cases hp <;> rfl

theorem registered_delete_subset (s : Site) (d : Deletion) (succeeds : Bool) :
    (s.delete d succeeds).registry.segments table ⊆ s.registry.segments table := by
  unfold Site.delete
  split
  · exact Registry.segments_delete_subset
  · exact List.Subset.refl _

/-- Segments come into the registry by the moves that register some, and by no others. -/
theorem registered_act_subset (hm : m.registers = false) :
    (t.act table m).registered table ⊆ t.registered table := by
  cases m with
  | proceed client chance =>
    show (t.proceed client chance).registered table ⊆ _
    rw [registered_proceed]
    exact List.Subset.refl _
  | add | upset => cases hm
  | place segment =>
    unfold act
    dsimp only
    split
    · rename_i r hplace
      intro s hs
      refine Registry.mem_segments.mpr ?_
      rw [← Registry.registered_place hplace]
      exact Registry.mem_segments.mp hs
    · exact List.Subset.refl _
  | take worker => unfold act; dsimp only; split <;> exact List.Subset.refl _
  | draw => unfold act Site.draw; dsimp only; split <;> exact List.Subset.refl _
  | work worker succeeds =>
    unfold act Site.work
    dsimp only
    split
    · exact registered_delete_subset _ _ _
    · exact List.Subset.refl _
  | settle position succeeds =>
    unfold act Site.settle
    dsimp only
    split
    · exact registered_delete_subset _ _ _
    · exact List.Subset.refl _
  | _ => exact List.Subset.refl _

theorem dwindles_of_registers (hmoves : ∀ m ∈ moves, m.registers = false) :
    t.Dwindles table moves := by
  induction moves generalizing t with
  | nil => trivial
  | cons m rest ih =>
    exact ⟨registered_act_subset (hmoves m List.mem_cons_self),
      ih fun m' hm' => hmoves m' (List.mem_cons_of_mem m hm')⟩

theorem Dwindles.subset (h : t.Dwindles table moves) :
    (t.run table moves).registered table ⊆ t.registered table := by
  induction moves generalizing t with
  | nil => exact List.Subset.refl _
  | cons m rest ih => exact List.Subset.trans (ih h.2) h.1

/-- What a move carries out is gone after it. -/
theorem not_registered_of_carriedOut? (h : t.carriedOut? m = some d) (hd : d.table = table) :
    d.segment ∉ (t.act table m).registered table := by
  subst hd
  unfold carriedOut? at h
  split at h
  · rename_i worker
    split at h
    · rename_i hworker
      cases h
      show d.segment ∉ (t.site.work worker true).registry.segments d.table
      unfold Site.work
      rw [hworker]
      exact Registry.not_mem_segments_delete
    · cases h
  · rename_i position
    show d.segment ∉ (t.site.settle position true).registry.segments d.table
    unfold Site.settle
    rw [h]
    exact Registry.not_mem_segments_delete
  · cases h

/-- What has been carried out stays gone as long as nothing comes to be registered. -/
theorem Dwindles.not_registered (h : t.Dwindles table moves) (hd : d ∈ t.carriedOut table moves)
    (htable : d.table = table) : d.segment ∉ (t.run table moves).registered table := by
  induction moves generalizing t with
  | nil => exact absurd hd List.not_mem_nil
  | cons m rest ih =>
    rcases List.mem_append.mp hd with hnow | hlater
    · have hgone := not_registered_of_carriedOut? (Option.mem_toList.mp hnow) htable
      exact fun hs => hgone (h.2.subset hs)
    · exact ih h.2 hlater

/-- A start that is told the registered segments and whose attempt comes to its commit plans with
what it has been told. -/
theorem startPlan_of_told (hc : t.clients[client]? = some c)
    (hphase : c.phase = .surveying a ticket sources targets force read)
    (ht' : t.run table (.proceed client chance :: between) = t')
    (hk : t'.commit? (.proceed client chance') = some ⟨client, a, plan⟩) :
    ∃ stamp, c.call.StartPlan ticket sources targets read
      (t.site.registry.segments c.call.table) stamp plan := by
  subst ht'
  obtain ⟨_, c', heq, hc', hphase', -⟩ := commit?_eq_some hk
  cases heq
  have hstep := getElem?_proceed_self chance hc
  rw [hphase] at hstep
  rcases c.call.survey_cases chance t.site a ticket sources targets force read with
    ⟨f, hfail⟩ | ⟨hnext, -⟩
  · rw [hfail] at hstep
    exact absurd hphase' (ne_writing_of_past hstep trivial hc')
  · rw [hnext] at hstep
    exact startPlan_of_dating hstep hc' hphase'

/-- A start on a reloaded table asks which segments are registered, and its attempt commits. When
all that it has ordered has been carried out, and neither has anything been registered since it
asked nor an entry been completed since it committed, the generations that are left are fewer than
the depth. -/
theorem generations_after_start (hc : t.clients[client]? = some c) (htable : c.call.table = table)
    (hphase : c.phase = .surveying a ticket sources targets force read)
    (hread : read.lineage.table = table) (hmode : ticket.mode = .refresh)
    (hlimit : 2 ≤ c.call.generations)
    (ht' : t.run table (.proceed client chance :: between) = t')
    (hbefore : t.Dwindles table (.proceed client chance :: between))
    (hk : t'.commit? (.proceed client chance') = some ⟨client, a, plan⟩)
    (ht'' : t'.run table (.proceed client chance' :: after) = t'')
    (hafter : t'.Dwindles table (.proceed client chance' :: after))
    (hdone : ∀ d ∈ Commit.requests table ⟨client, a, plan⟩, d ∈ t'.carriedOut table
      (.proceed client chance' :: after))
    (hcompleted : (t''.lineage table).completed =
      ((t'.proceed client chance').lineage table).completed) :
    (((t''.lineage table).loads (t''.registered table)).length : Int) ≤
      c.call.generations - 1 := by
  obtain ⟨stamp, hplan⟩ := startPlan_of_told hc hphase ht' hk
  rw [htable] at hplan
  obtain ⟨mid, hmoves, happends⟩ := hplan.lineage
  have hplanned : plan.lineage.completed = read.lineage.completed := by
    rw [happends.completed_eq, hmoves.completed_eq]
  have hwritten : (t'.proceed client chance').lineage table = plan.lineage :=
    lineage_of_commit (m := .proceed client chance') hk
      (by rw [happends.table, hmoves.table, hread])
  rw [hwritten, hplanned] at hcompleted
  have hsub : t''.registered table ⊆ t.site.registry.segments table := by
    intro s hs
    rw [← ht''] at hs
    have hs' := hafter.subset hs
    rw [← ht'] at hs'
    exact hbefore.subset hs'
  have hgone : ∀ s ∈ read.lineage.surplus (t.site.registry.segments table) c.call.generations,
      s ∉ t''.registered table := by
    intro s hs
    have hordered := (hplan.ordered_surplus table hmode _).mpr ⟨s, hs, rfl⟩
    rw [Call.ordered_queue] at hordered
    rw [← ht'']
    exact hafter.not_registered (hdone _ hordered.1) rfl
  have hfew := Lineage.length_loads_of_shrunk hsub hgone
  rw [Lineage.retained_of_two_le hlimit] at hfew
  rw [Lineage.loads_congr hcompleted]
  omega

/-- The surplus of a history is exact, bounded and stable, and what a start on a reloaded table
orders brings the table down to the depth that it is given. -/
theorem depth_kept :
    (∀ (l : Lineage) (registered : List Text) (limit : Int),
      (∀ e ∈ l.entries, e.sources.Nodup ∧ e.targets.Nodup) → 2 ≤ limit →
        l.Trimmed registered limit) ∧
    ∀ {table : Text} {t t' t'' : Traffic} {client : Nat} {c : Client} {a : Attempt}
      {ticket : Ticket} {sources targets : List Text} {force : Bool} {read : Versioned}
      {chance chance' : Chance} {between after : List Move} {plan : Plan},
      t.clients[client]? = some c → c.call.table = table →
      c.phase = .surveying a ticket sources targets force read → read.lineage.table = table →
      ticket.mode = .refresh → 2 ≤ c.call.generations →
      t.run table (.proceed client chance :: between) = t' →
      t.Dwindles table (.proceed client chance :: between) →
      t'.commit? (.proceed client chance') = some ⟨client, a, plan⟩ →
      t'.run table (.proceed client chance' :: after) = t'' →
      t'.Dwindles table (.proceed client chance' :: after) →
      (∀ d ∈ Commit.requests table ⟨client, a, plan⟩,
        d ∈ t'.carriedOut table (.proceed client chance' :: after)) →
      (t''.lineage table).completed = ((t'.proceed client chance').lineage table).completed →
      (((t''.lineage table).loads (t''.registered table)).length : Int) ≤
        c.call.generations - 1 :=
  ⟨fun _ _ _ hl hlimit => Lineage.trimmed hl hlimit, generations_after_start⟩

/-- On a table that has been loaded twice, the call that starts a third load waits for the list of
registered segments. -/
def asking : List Move := (loadedTwice "b").dropLast.dropLast

/-- After its commit the call queues a request, and a caller that drains the queue carries it out. -/
def draining : List Move := Move.answers 4 1 "" ++ [.draw, .settle 0 true]

/-- The only attempt of that call. -/
def loading : Attempt := ⟨.start ⟨"3", .refresh⟩ ["b"] ["c"] false, 1⟩

/-- Of the two loads the first is surplus for a depth of two. When the third load has been started
and the request for the first has been carried out, only the second is left. -/
theorem depth_kept_third_load :
    let t := (idle (.holding "t" .refresh [])).run "t" asking
    let l := t.lineage "t"
    let t' := t.run "t" (.proceed 4 ⟨"", "", none⟩ :: Move.answers 4 1 "")
    let t'' := t'.run "t" (.proceed 4 ⟨"", "", none⟩ :: draining)
    l.Trimmed ["a", "b", "x"] 2 ∧ l.loads ["a", "b", "x"] = [[("b" : Text)], [("a" : Text)]] ∧
      l.surplus ["a", "b", "x"] 2 = ["a"] ∧
      (((t''.lineage "t").loads (t''.registered "t")).length : Int) ≤ 1 ∧
      (t''.lineage "t").loads (t''.registered "t") = [[("b" : Text)]] := by
  intro t l t' t''
  obtain ⟨htrimmed, hrun⟩ := depth_kept
  refine ⟨htrimmed l ["a", "b", "x"] 2 (by decide +kernel) (by decide), by decide +kernel,
    by decide +kernel, ?_, by decide +kernel⟩
  have hasked : ∃ c read, t.clients[4]? = some c ∧ c.call = ⟨"t", .start ["b"] ["c"] false, 5, 2⟩ ∧
      c.phase = .surveying loading ⟨"3", .refresh⟩ ["b"] ["c"] false read ∧
      read.lineage.table = ("t" : Text) :=
    ⟨_, _, rfl, rfl, rfl, by decide +kernel⟩
  have hcommits : ∃ plan, t'.commit? (.proceed 4 ⟨"", "", none⟩) = some ⟨4, loading, plan⟩ ∧
      ∀ d ∈ Commit.requests "t" ⟨4, loading, plan⟩,
        d ∈ t'.carriedOut "t" (.proceed 4 ⟨"", "", none⟩ :: draining) :=
    ⟨_, rfl, by decide +kernel⟩
  obtain ⟨c, read, hc, hcall, hphase, hread⟩ := hasked
  obtain ⟨plan, hk, hdone⟩ := hcommits
  have hlimit : 2 ≤ c.call.generations := Int.le_of_eq (by rw [hcall])
  have hdepth := hrun hc (by rw [hcall]) hphase hread rfl hlimit (rfl : _ = t')
    (dwindles_of_registers (by decide)) hk (rfl : _ = t'') (dwindles_of_registers (by decide))
    hdone (by decide +kernel)
  rw [hcall] at hdepth
  exact hdepth

end Traffic

end SegmentSwap
