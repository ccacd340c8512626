import Mathlib.Data.List.Perm.Basic
import SegmentSwap.Proofs.Registry
import SegmentSwap.Proofs.Traffic.Step

/-!
# Deletions that are still to come

A request for a deletion is ordered by a call, waits in the queue and is taken from it by a worker
or by a caller that drains the queue. Until it has been acted on it is undone, wherever it is. Only
a commit adds to what is undone, and only acting on a request takes away from it.
-/

namespace SegmentSwap

namespace Text

variable {names : List Text} {name : Text}

theorem collect_distinct (seen : List Text) (hseen : seen.Nodup) :
    let found := names.foldl
      (fun seen name => if seen.contains name then seen else seen ++ [name]) seen
    found.Nodup ∧ ∀ x, x ∈ found ↔ x ∈ seen ∨ x ∈ names := by
  induction names generalizing seen with
  | nil => simpa using hseen
  | cons name rest ih =>
    rw [List.foldl_cons]
    split
    · rename_i hmem
      rw [List.contains_iff_mem] at hmem
      obtain ⟨hnodup, hiff⟩ := ih seen hseen
      refine ⟨hnodup, fun x => ?_⟩
      rw [hiff, List.mem_cons]
      refine ⟨Or.imp_right Or.inr, ?_⟩
      rintro (hx | rfl | hx)
      · exact Or.inl hx
      · exact Or.inl hmem
      · exact Or.inr hx
    · rename_i hmem
      rw [List.contains_iff_mem] at hmem
      have hnext : (seen ++ [name]).Nodup := by
        rw [List.nodup_append]
        refine ⟨hseen, by simp, fun x hx y hy hxy => hmem ?_⟩
        rw [← List.mem_singleton.mp hy, ← hxy]
        exact hx
      obtain ⟨hnodup, hiff⟩ := ih _ hnext
      refine ⟨hnodup, fun x => ?_⟩
      rw [hiff, List.mem_append, List.mem_singleton, List.mem_cons, or_assoc]

theorem nodup_distinct (names : List Text) : (distinct names).Nodup :=
  (collect_distinct [] List.nodup_nil).1

theorem mem_distinct : name ∈ distinct names ↔ name ∈ names := by
  refine ((collect_distinct [] List.nodup_nil).2 name).trans ⟨?_, Or.inr⟩
  rintro (h | h)
  · exact absurd h List.not_mem_nil
  · exact h

theorem distinct_of_nodup (h : names.Nodup) : distinct names = names := by
  have hcollect : ∀ (rest seen : List Text), (seen ++ rest).Nodup → rest.foldl
      (fun seen name => if seen.contains name then seen else seen ++ [name]) seen =
        seen ++ rest := by
    intro rest
    induction rest with
    | nil => exact fun seen _ => (List.append_nil seen).symm
    | cons name rest ih =>
      intro seen hnodup
      have hnew : name ∉ seen := fun hmem =>
        (List.nodup_append.mp hnodup).2.2 name hmem name List.mem_cons_self rfl
      rw [List.append_cons] at hnodup
      rw [List.foldl_cons, if_neg (by rw [List.contains_iff_mem]; exact hnew), ih _ hnodup,
        ← List.append_cons]
  exact hcollect names [] h

end Text

section Lists

variable {α β : Type} {l : List α} {i : Nat} {a b : α}

theorem perm_cons_eraseIdx (h : l[i]? = some a) : l.Perm (a :: l.eraseIdx i) := by
  obtain ⟨hi, rfl⟩ := List.getElem?_eq_some_iff.mp h
  exact (List.getElem_cons_eraseIdx_perm hi).symm

theorem flatMap_perm (g : α → List β) (h : l[i]? = some a) :
    (l.flatMap g).Perm (g a ++ (l.eraseIdx i).flatMap g) :=
  (perm_cons_eraseIdx h).flatMap_right g

theorem flatMap_set_perm (g : α → List β) (h : l[i]? = some a) (b : α) :
    ((l.set i b).flatMap g).Perm (g b ++ (l.eraseIdx i).flatMap g) := by
  obtain ⟨hi, -⟩ := List.getElem?_eq_some_iff.mp h
  exact (List.set_perm_cons_eraseIdx hi b).flatMap_right g

end Lists

namespace Deletion

/-- The request that a worker acts on. -/
def Activity.requests : Activity → List Deletion
  | .deleting d => [d]
  | _ => []

namespace Queue

/-- The requests that wait and those that workers act on. -/
def undone (q : Queue) : List Deletion := q.pending ++ q.workers.flatMap Activity.requests

variable {q q' : Queue} {worker : Nat} {d : Deletion} {item : Item}

theorem pending_enqueue (q : Queue) (table : Text) (names : List Text) (reason : Text) :
    (q.enqueue table names reason).pending =
      q.pending ++ (Text.distinct names).map (⟨table, ·, reason⟩) := by
  simp [pending, enqueue, List.filterMap_append, List.filterMap_map]

theorem undone_enqueue (q : Queue) (table : Text) (names : List Text) (reason : Text) :
    (q.enqueue table names reason).undone.Perm
      ((Text.distinct names).map (⟨table, ·, reason⟩) ++ q.undone) := by
  unfold undone
  rw [pending_enqueue, ← List.append_assoc]
  exact List.perm_append_comm.append_right _

theorem undone_start (q : Queue) : q.start.undone = q.undone := by
  unfold start
  split
  · rfl
  · simp [undone, pending, Activity.requests]

theorem undone_requestStop (q : Queue) : q.requestStop.2.undone = q.undone := by
  unfold requestStop
  split
  · rfl
  · simp [undone, pending]

theorem undone_take (h : q.take worker = some (item, q')) : q'.undone.Perm q.undone := by
  unfold take at h
  split at h
  · rename_i d rest hworker hitems
    cases h
    have hbefore := flatMap_perm Activity.requests hworker
    have hafter := flatMap_set_perm Activity.requests hworker (.deleting d)
    simp only [undone, pending, setActivity, hitems, List.filterMap_cons]
    refine (hafter.append_left _).trans (List.Perm.trans ?_ (hbefore.append_left _).symm)
    simp only [Activity.requests]
    exact List.perm_middle
  · rename_i rest hworker hitems
    cases h
    have hbefore := flatMap_perm Activity.requests hworker
    have hafter := flatMap_set_perm Activity.requests hworker .ended
    simp only [undone, pending, setActivity, hitems, List.filterMap_cons]
    exact (hafter.trans hbefore.symm).append_left _
  · cases h

theorem undone_finish (h : q.workers[worker]? = some (.deleting d)) :
    q.undone.Perm (d :: (q.finish worker).undone) := by
  have hbefore := flatMap_perm Activity.requests h
  have hafter := flatMap_set_perm Activity.requests h .idle
  unfold finish
  rw [h]
  simp only [undone, pending, setActivity]
  refine (hbefore.append_left _).trans (List.perm_middle.trans ?_)
  exact (hafter.symm.append_left _).cons d

theorem undone_takeForDrain (q : Queue) :
    q.undone.Perm (q.takeForDrain.1.toList ++ q.takeForDrain.2.undone) := by
  unfold takeForDrain
  split
  · exact List.Perm.refl _
  · rename_i rest hitems
    simp [undone, pending, hitems, List.filterMap_append]
  · rename_i d rest hitems
    simp [undone, pending, hitems]

end Queue

end Deletion

/-- The requests that a batch comes to. -/
def Batch.requests (table : Text) (b : Batch) : List Deletion :=
  (Text.distinct b.segments).map (⟨table, ·, b.reason⟩)

/-- The deletions that a committed call has still to put into the queue. -/
def Phase.ordered (table : Text) : Phase → List Deletion
  | .queueing _ b rest => (b :: rest).flatMap (Batch.requests table)
  | _ => []

theorem Call.ordered_queue (table : Text) (e : Entry) (batches : List Batch) :
    (Call.queue e batches).ordered table = batches.flatMap (Batch.requests table) := by
  induction batches with
  | nil => rfl
  | cons b rest ih =>
    unfold Call.queue
    split
    · rename_i hempty
      have hnone : b.requests table = [] := by
        rw [List.isEmpty_iff] at hempty
        unfold Batch.requests
        rw [hempty]
        rfl
      rw [ih, List.flatMap_cons, hnone, List.nil_append]
    · rfl

section Looking

variable {c : Call} {a : Attempt} {read : Versioned} {e : Entry} {table : Text}

theorem Call.ordered_probe (left found : List Text) :
    (c.probe a read e left found).ordered table = [] := by
  cases left with
  | cons => rfl
  | nil =>
    show (c.judge a read e found).ordered table = []
    unfold Call.judge
    split <;> split <;> rfl

theorem Call.ordered_lookUp (id : Text) : (c.lookUp a read id).ordered table = [] := by
  unfold Call.lookUp
  split
  · rfl
  · split
    · rfl
    · exact Call.ordered_probe _ _

theorem Phase.ordered_step (chance : Chance) (c : Call) (s : Site) (table : Text) {phase : Phase}
    (hwrite : ∀ a plan, phase ≠ .writing a plan)
    (hqueue : ∀ e b rest, phase ≠ .queueing e b rest) :
    phase.ordered table = [] ∧
      (Call.step (Site.services chance) c phase s).1.ordered table = [] := by
  cases phase with
  | writing a plan => exact absurd rfl (hwrite a plan)
  | queueing e b rest => exact absurd rfl (hqueue e b rest)
  | minting | done => exact ⟨rfl, rfl⟩
  | configuring =>
    refine ⟨rfl, ?_⟩
    simp only [Call.step, Call.afterMode]
    split <;> rfl
  | reading a =>
    refine ⟨rfl, ?_⟩
    simp only [Call.step, Call.afterRead]
    split
    · rfl
    · split
      · rfl
      · exact Call.ordered_lookUp _
      · exact Call.ordered_lookUp _
  | surveying =>
    refine ⟨rfl, ?_⟩
    simp only [Call.step, Call.afterSurvey]
    split
    · rfl
    · split <;> rfl
  | dating =>
    refine ⟨rfl, ?_⟩
    simp only [Call.step, Call.afterDate]
    split <;> rfl
  | probing =>
    refine ⟨rfl, ?_⟩
    simp only [Call.step, Call.afterProbe]
    split
    · rfl
    · exact Call.ordered_probe _ _
  | closing =>
    refine ⟨rfl, ?_⟩
    simp only [Call.step, Call.afterClose]
    split <;> rfl
  | auditing =>
    refine ⟨rfl, ?_⟩
    simp only [Call.step, Call.afterAudit]
    split <;> rfl

end Looking

namespace Traffic

/-- All requests that have not been acted on: those in the queue, those that callers who drain it
have taken, and those that calls have ordered. -/
def undone (t : Traffic) : List Deletion :=
  t.site.queue.undone ++ t.site.taken ++ t.clients.flatMap fun c => c.phase.ordered c.call.table

variable {table : Text} {t t' : Traffic} {m : Move} {client : Nat} {c c' : Client}

theorem undone_set (site : Site) (hc : t.clients[client]? = some c) (c' : Client) :
    (undone ⟨site, t.clients.set client c'⟩).Perm
      (c'.phase.ordered c'.call.table ++ (undone ⟨site, t.clients.eraseIdx client⟩)) := by
  unfold undone
  dsimp only
  refine ((flatMap_set_perm (fun c => c.phase.ordered c.call.table) hc c').append_left _).trans ?_
  rw [← List.append_assoc, ← List.append_assoc]
  exact List.perm_append_comm.append_right _

theorem undone_perm (hc : t.clients[client]? = some c) :
    t.undone.Perm
      (c.phase.ordered c.call.table ++ (undone ⟨t.site, t.clients.eraseIdx client⟩)) := by
  have hset := undone_set t.site hc c
  obtain ⟨hi, rfl⟩ := List.getElem?_eq_some_iff.mp hc
  rw [List.set_getElem_self hi] at hset
  exact hset

/-- A commit adds the deletions of its plan to what is undone. -/
theorem undone_commit {a : Attempt} {plan : Plan} (hc : t.clients[client]? = some c)
    (hphase : c.phase = .writing a plan) (memory : Memory) :
    (undone ⟨{ t.site with memory := memory },
        t.clients.set client ⟨c.call, Call.queue plan.entry plan.deletions⟩⟩).Perm
      (plan.deletions.flatMap (Batch.requests c.call.table) ++ t.undone) := by
  refine (undone_set _ hc _).trans ?_
  rw [Call.ordered_queue]
  refine List.Perm.append_left _ (List.Perm.trans ?_ (undone_perm hc).symm)
  rw [hphase]
  exact List.Perm.refl _

theorem undone_look (hc : t.clients[client]? = some c) (hbefore : c.phase.ordered c.call.table = [])
    {c' : Client} (hafter : c'.phase.ordered c'.call.table = []) :
    (undone ⟨t.site, t.clients.set client c'⟩).Perm t.undone := by
  refine (undone_set _ hc _).trans (List.Perm.trans ?_ (undone_perm hc).symm)
  rw [hbefore, hafter]

theorem undone_order {e : Entry} {b : Batch} {rest : List Batch} (hc : t.clients[client]? = some c)
    (hphase : c.phase = .queueing e b rest) :
    (undone ⟨{ t.site with queue := t.site.queue.enqueue c.call.table b.segments b.reason },
        t.clients.set client ⟨c.call, Call.queue e rest⟩⟩).Perm t.undone := by
  refine (undone_set _ hc _).trans (List.Perm.trans ?_ (undone_perm hc).symm)
  rw [Call.ordered_queue, hphase]
  have hqueue := t.site.queue.undone_enqueue c.call.table b.segments b.reason
  refine List.perm_iff_count.mpr fun d => ?_
  have hcount := hqueue.count_eq d
  simp only [undone, Phase.ordered, Batch.requests, List.flatMap_cons, List.count_append]
    at hcount ⊢
  omega

/-- A move changes nothing but where the undone requests are and which further segments are
registered. -/
structure Keeps (table : Text) (t t' : Traffic) : Prop where
  undone : t'.undone.Perm t.undone
  registered : ∀ s ∈ t.site.registry.segments table, s ∈ t'.site.registry.segments table
  consistent : t.site.registry.Consistent → t'.site.registry.Consistent

/-- A move is that somebody acts on a request. -/
structure Handles (table : Text) (d : Deletion) (t t' : Traffic) : Prop where
  undone : t.undone.Perm (d :: t'.undone)
  registered : ∀ s ∈ t.site.registry.segments table, s ≠ d.segment →
    s ∈ t'.site.registry.segments table
  consistent : t.site.registry.Consistent → t'.site.registry.Consistent

theorem keeps_of_queue {q : Deletion.Queue} (hq : q.undone.Perm t.site.queue.undone) :
    Keeps table t { t with site.queue := q } :=
  ⟨(hq.append_right _).append_right _, fun _ hs => hs, fun h => h⟩

theorem keeps_of_registry {r : Registry}
    (hreg : ∀ s ∈ t.site.registry.segments table, s ∈ r.segments table)
    (hcons : t.site.registry.Consistent → r.Consistent) :
    Keeps table t { t with site.registry := r } :=
  ⟨List.Perm.refl _, hreg, hcons⟩

theorem handles_delete {site : Site} {d : Deletion} {succeeds : Bool}
    (hundone : t.undone.Perm (d :: undone ⟨site, t.clients⟩))
    (hreg : site.registry = t.site.registry) :
    Handles table d t ⟨site.delete d succeeds, t.clients⟩ := by
  unfold Site.delete
  split
  · refine ⟨hundone, fun s hs hne => ?_, fun h => ?_⟩
    · exact Registry.mem_segments_delete (by rw [hreg]; exact hs) hne
    · exact Registry.Consistent.delete (by rw [hreg]; exact h)
  · refine ⟨hundone, fun s hs _ => ?_, fun h => ?_⟩
    · rw [hreg]; exact hs
    · rw [hreg]; exact h

/-- A move that is not made by a call keeps the undone requests or is that somebody acts on one of
them, as long as the registry is not changed at will. -/
theorem act_keeps_or_handles (table : Text) (t : Traffic)
    (hproceed : ∀ client chance, m ≠ .proceed client chance)
    (henter : ∀ request attempts generations, m ≠ .enter request attempts generations)
    (hdrop : m.isDrop = false) (hupset : m.isUpset = false) :
    Keeps table t (t.act table m) ∨ ∃ d, Handles table d t (t.act table m) := by
  cases m with
  | proceed client chance => exact absurd rfl (hproceed client chance)
  | enter request attempts generations => exact absurd rfl (henter request attempts generations)
  | drop => cases hdrop
  | upset r => cases hupset
  | add segments placed =>
    refine Or.inl (keeps_of_registry (fun s hs => ?_) fun h => h.add)
    rw [Registry.mem_segments] at hs ⊢
    exact Registry.mem_registered_add hs
  | place segment =>
    unfold act
    dsimp only
    split
    · rename_i r hr
      refine Or.inl (keeps_of_registry (fun s hs => ?_) fun h => h.place hr)
      rw [Registry.mem_segments] at hs ⊢
      rw [Registry.registered_place hr]
      exact hs
    · exact Or.inl ⟨List.Perm.refl _, fun _ hs => hs, fun h => h⟩
  | startWorker => exact Or.inl (keeps_of_queue (List.Perm.of_eq (Deletion.Queue.undone_start _)))
  | requestStop =>
    exact Or.inl (keeps_of_queue (List.Perm.of_eq (Deletion.Queue.undone_requestStop _)))
  | forget => exact Or.inl (keeps_of_queue (List.Perm.refl _))
  | take worker =>
    unfold act
    dsimp only
    split
    · rename_i item q hq
      exact Or.inl (keeps_of_queue (Deletion.Queue.undone_take hq))
    · exact Or.inl ⟨List.Perm.refl _, fun _ hs => hs, fun h => h⟩
  | work worker succeeds =>
    unfold act Site.work
    dsimp only
    split
    · rename_i d hd
      refine Or.inr ⟨d, handles_delete ?_ rfl⟩
      exact ((Deletion.Queue.undone_finish hd).append_right _).append_right _
    · exact Or.inl ⟨List.Perm.refl _, fun _ hs => hs, fun h => h⟩
  | draw =>
    have hdraw := t.site.queue.undone_takeForDrain
    unfold act Site.draw
    dsimp only
    split
    · rename_i d q hq
      rw [hq] at hdraw
      refine Or.inl ⟨List.perm_iff_count.mpr fun x => ?_, fun _ hs => hs, fun h => h⟩
      have hcount := hdraw.count_eq x
      simp only [undone, Option.toList, List.count_append, List.count_cons] at hcount ⊢
      omega
    · rename_i q hq
      rw [hq] at hdraw
      exact Or.inl (keeps_of_queue hdraw.symm)
  | settle position succeeds =>
    unfold act Site.settle
    dsimp only
    split
    · rename_i d hd
      refine Or.inr ⟨d, handles_delete (List.perm_iff_count.mpr fun x => ?_) rfl⟩
      have hcount := (perm_cons_eraseIdx hd).count_eq x
      simp only [undone, List.count_append, List.count_cons] at hcount ⊢
      omega
    · exact Or.inl ⟨List.Perm.refl _, fun _ hs => hs, fun h => h⟩

end Traffic

end SegmentSwap
