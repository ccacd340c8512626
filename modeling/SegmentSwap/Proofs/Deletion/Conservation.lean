import SegmentSwap.Proofs.Deletion.Outbox
import SegmentSwap.Proofs.Text.Sorted

/-!
# Nothing is lost in the queue

What has been taken from the queue and what still stands in it are together what was put there, in
that order, whatever callers and workers do in between. The trigger is called for each request that
is taken, and what it makes of the call changes nothing else. A marker can only fall back behind
requests that are younger than itself, so a worker that ends on it has left none that is older. And
whoever has called gets through if it is left alone: names are put on the queue, requests are taken
up to a marker, and a marker that was taken is put back.
-/

namespace SegmentSwap

namespace Outbox

open Deletion (Item Activity)
open Deletion.Queue (pending_put_request pending_put_marker pop_eq_some pending_of_request
  pending_of_marker take_eq_some)

/-- The requests that have been taken and that the trigger has not been called for. -/
def inHand (o : Outbox) : List Deletion :=
  o.queue.workers.flatMap Activity.requests ++ o.callers.flatMap fun c => c.stage.requests

/-- The markers that callers have to put back. -/
def held (o : Outbox) : List (List Deletion) := o.callers.flatMap fun c => c.stage.held

/-- What a caller has put on the queue. -/
def share (o : Outbox) (caller : Nat) : List Deletion :=
  (o.history.added.filter fun p => p.1 == caller).map (·.2)

/-- Each marker in the queue stands behind all requests that are older than itself, where those of
`taken` are no longer there. -/
def Timely (taken : List Deletion) : List Item → List (List Deletion) → Prop
  | [], marks => marks = []
  | .request d :: items, marks => Timely (taken ++ [d]) items marks
  | .stopMarker :: _, [] => False
  | .stopMarker :: items, mark :: marks => mark <+: taken ∧ Timely taken items marks

/-- What holds of requests and markers at all times. -/
structure Conserved (o : Outbox) : Prop where
  order : o.history.taken ++ o.queue.pending = o.added
  calls : ∀ d, o.history.taken.count d = o.history.called.count d + o.inHand.count d
  shares : ∀ i c, o.callers[i]? = some c → o.share i ++ c.stage.left = c.task.requests
  known : ∀ p ∈ o.history.added, p.1 < o.callers.length
  timely : Timely o.history.taken o.queue.items o.history.marks
  returned : ∀ c ∈ o.callers, ∀ mark ∈ c.stage.held, mark <+: o.history.taken
  markers : ∀ m, o.history.stops.count m =
    o.history.marks.count m + o.held.count m + (o.history.exits.map (·.1)).count m
  exits : ∀ x ∈ o.history.exits, x.1 <+: x.2

section Timely

variable {taken : List Deletion} {items : List Item} {marks : List (List Deletion)}
  {mark : List Deletion} {d : Deletion}

theorem Timely.append_request (h : Timely taken items marks) :
    Timely taken (items ++ [.request d]) marks := by
  induction items generalizing taken marks with
  | nil => exact h
  | cons i items ih =>
    cases i with
    | request e =>
      have hrest : Timely (taken ++ [e]) items marks := h
      exact ih hrest
    | stopMarker =>
      cases marks with
      | nil => exact h
      | cons mark marks => exact ⟨h.1, ih h.2⟩

/-- A marker may go to the end if nothing at all that is older than itself can be added. -/
theorem Timely.append_marker {q : Deletion.Queue} (h : Timely taken q.items marks)
    (hmark : mark <+: taken ++ q.pending) :
    Timely taken (q.items ++ [.stopMarker]) (marks ++ [mark]) := by
  obtain ⟨items, workers, current⟩ := q
  dsimp only at h ⊢
  induction items generalizing taken marks with
  | nil =>
    obtain rfl : marks = [] := h
    rw [Deletion.Queue.pending, List.filterMap_nil, List.append_nil] at hmark
    exact ⟨hmark, rfl⟩
  | cons i items ih =>
    cases i with
    | request e =>
      have hrest : Timely (taken ++ [e]) items marks := h
      refine ih hrest ?_
      rw [List.append_assoc]
      exact hmark
    | stopMarker =>
      cases marks with
      | nil => exact absurd h id
      | cons first marks => exact ⟨h.1, ih h.2 hmark⟩

theorem Timely.count_stopMarker (h : Timely taken items marks) :
    items.count .stopMarker = marks.length := by
  induction items generalizing taken marks with
  | nil =>
    obtain rfl : marks = [] := h
    rfl
  | cons i items ih =>
    cases i with
    | request e =>
      have hrest : Timely (taken ++ [e]) items marks := h
      rw [List.count_cons_of_ne (by simp)]
      exact ih hrest
    | stopMarker =>
      cases marks with
      | nil => exact absurd h id
      | cons mark marks =>
        rw [List.count_cons_self, List.length_cons, ih h.2]

end Timely

theorem count_flatMap_set {α β : Type} [BEq β] {l : List α} {i : Nat} {a : α}
    (g : α → List β) (h : l[i]? = some a) (b : α) (x : β) :
    ((l.set i b).flatMap g).count x + (g a).count x =
      (l.flatMap g).count x + (g b).count x := by
  have hafter := (flatMap_set_perm g h b).count_eq x
  have hbefore := (flatMap_perm g h).count_eq x
  rw [List.count_append] at hafter hbefore
  omega

/-- A caller comes to a stage and has put some of its requests on the queue. -/
structure Reaches (o : Outbox) (i : Nat) (c : Caller) (s : Stage) (moved : List Deletion)
    (o' : Outbox) : Prop where
  callers : o'.callers = o.callers.set i { c with stage := s }
  workers : o'.queue.workers = o.queue.workers
  added : o'.history.added = o.history.added ++ moved.map fun d => (i, d)
  left : moved ++ s.left = c.stage.left
  order : o'.history.taken ++ o'.queue.pending = o'.added
  calls : ∀ d, o'.history.taken.count d + o.history.called.count d + c.stage.requests.count d =
    o.history.taken.count d + o'.history.called.count d + s.requests.count d
  timely : Timely o'.history.taken o'.queue.items o'.history.marks
  taken : o.history.taken <+: o'.history.taken
  held : ∀ mark ∈ s.held, mark <+: o'.history.taken
  markers : ∀ m, o'.history.stops.count m + o.history.marks.count m + c.stage.held.count m =
    o.history.stops.count m + o'.history.marks.count m + s.held.count m
  exits : o'.history.exits = o.history.exits

section Steps

variable {o o' : Outbox} {q : Deletion.Queue} {i worker : Nat} {c : Caller} {d : Deletion}
  {rest moved mark : List Deletion} {s : Stage} {task : Task}

theorem conserved_opened (w : World) : (opened w).Conserved where
  order := rfl
  calls _ := rfl
  shares _ _ hc := absurd hc.symm (Option.some_ne_none _)
  known _ hp := absurd hp List.not_mem_nil
  timely := rfl
  returned _ hc := absurd hc List.not_mem_nil
  markers _ := rfl
  exits _ hx := absurd hx List.not_mem_nil

theorem share_of_added {j : Nat}
    (h : o'.history.added = o.history.added ++ moved.map fun d => (i, d)) :
    o'.share j = o.share j ++ if i = j then moved else [] := by
  unfold share
  rw [h, List.filter_append, List.map_append, List.filter_map, List.map_map]
  congr 1
  by_cases hij : i = j
  · rw [if_pos hij, List.filter_eq_self.mpr fun d _ => by simpa using hij]
    exact List.map_id' moved
  · rw [if_neg hij, List.filter_eq_nil_iff.mpr fun d _ => by simpa using hij]
    rfl

theorem Reaches.getElem? (hr : o.Reaches i c s moved o') {j : Nat} {c' : Caller}
    (hj : o'.callers[j]? = some c') :
    j = i ∧ c' = { c with stage := s } ∨ i ≠ j ∧ o.callers[j]? = some c' := by
  rw [hr.callers, List.getElem?_set] at hj
  by_cases hij : i = j
  · rw [if_pos hij] at hj
    split at hj
    · exact .inl ⟨hij.symm, (Option.some.inj hj).symm⟩
    · cases hj
  · rw [if_neg hij] at hj
    exact .inr ⟨hij, hj⟩

theorem Reaches.count_inHand (hr : o.Reaches i c s moved o') (hc : o.callers[i]? = some c)
    (x : Deletion) :
    o'.inHand.count x + c.stage.requests.count x = o.inHand.count x + s.requests.count x := by
  have hcallers := count_flatMap_set (fun c => c.stage.requests) hc { c with stage := s } x
  dsimp only at hcallers
  unfold inHand
  rw [hr.callers, hr.workers, List.count_append, List.count_append]
  omega

theorem Reaches.count_held (hr : o.Reaches i c s moved o') (hc : o.callers[i]? = some c)
    (m : List Deletion) :
    o'.held.count m + c.stage.held.count m = o.held.count m + s.held.count m := by
  unfold Outbox.held
  rw [hr.callers]
  exact count_flatMap_set (fun c => c.stage.held) hc { c with stage := s } m

theorem Conserved.reaches (h : o.Conserved) (hc : o.callers[i]? = some c)
    (hr : o.Reaches i c s moved o') : o'.Conserved where
  order := hr.order
  calls x := by
    have hbefore := h.calls x
    have hinHand := hr.count_inHand hc x
    have hcalls := hr.calls x
    omega
  shares j c' hj := by
    rw [share_of_added hr.added]
    obtain ⟨rfl, rfl⟩ | ⟨hij, hold⟩ := hr.getElem? hj
    · rw [if_pos rfl, List.append_assoc]
      dsimp only
      rw [hr.left]
      exact h.shares j c hc
    · rw [if_neg hij, List.append_nil]
      exact h.shares j c' hold
  known p hp := by
    have hi := (List.getElem?_eq_some_iff.mp hc).1
    rw [hr.callers, List.length_set]
    rw [hr.added] at hp
    obtain hold | hnew := List.mem_append.mp hp
    · exact h.known p hold
    · obtain ⟨d, -, rfl⟩ := List.mem_map.mp hnew
      exact hi
  timely := hr.timely
  returned c' hc' mark hmark := by
    rw [hr.callers] at hc'
    obtain hold | rfl := List.mem_or_eq_of_mem_set hc'
    · exact (h.returned c' hold mark hmark).trans hr.taken
    · exact hr.held mark hmark
  markers m := by
    have hbefore := h.markers m
    have hheld := hr.count_held hc m
    have hmarkers := hr.markers m
    rw [hr.exits]
    omega
  exits := by
    rw [hr.exits]
    exact h.exits

/-- A caller goes on without touching the queue. -/
theorem Conserved.reaches_advance (h : o.Conserved) (hc : o.callers[i]? = some c)
    (hleft : s.left = c.stage.left) (hrequests : s.requests = c.stage.requests)
    (hheld : s.held = c.stage.held) : o.Reaches i c s [] (o.advance i c s) where
  callers := rfl
  workers := rfl
  added := (List.append_nil _).symm
  left := hleft
  order := h.order
  calls x := by
    rw [hrequests]
    rfl
  timely := h.timely
  taken := List.prefix_rfl
  held mark hmark := h.returned c (List.mem_of_getElem? hc) mark (hheld ▸ hmark)
  markers m := by
    rw [hheld]
    rfl
  exits := rfl

theorem Conserved.reaches_addRequest (h : o.Conserved) (hstage : c.stage = .adding (d :: rest)) :
    o.Reaches i c (.adding rest) [d] ((o.addRequest i d).advance i c (.adding rest)) where
  callers := rfl
  workers := rfl
  added := rfl
  left := by
    rw [hstage]
    rfl
  order := by
    show o.history.taken ++ (o.queue.put (.request d)).pending = (o.history.added ++ [_]).map _
    rw [pending_put_request, ← List.append_assoc, h.order, List.map_append]
    rfl
  calls x := by
    rw [hstage]
    rfl
  timely := h.timely.append_request
  taken := List.prefix_rfl
  held mark hmark := absurd hmark List.not_mem_nil
  markers m := by
    rw [hstage]
    rfl
  exits := rfl

theorem Conserved.reaches_takeRequest (h : o.Conserved) (hstage : c.stage = .drawing)
    (hpop : o.queue.pop = some (.request d, q)) :
    o.Reaches i c (.deleting d) [] ((o.takeRequest d q).advance i c (.deleting d)) := by
  obtain ⟨hitems, hworkers, -⟩ := pop_eq_some hpop
  have htimely := h.timely
  rw [hitems] at htimely
  exact {
    callers := rfl
    workers := hworkers
    added := (List.append_nil _).symm
    left := by
      rw [hstage]
      rfl
    order := by
      show o.history.taken ++ [d] ++ q.pending = o.added
      rw [← h.order, pending_of_request hitems, List.append_assoc]
      rfl
    calls := fun x => by
      simp only [hstage, takeRequest, advance, Outbox.withQueue, Stage.requests,
        List.count_append, List.count_nil]
      omega
    timely := htimely
    taken := List.prefix_append _ _
    held := fun mark hmark => absurd hmark List.not_mem_nil
    markers := fun m => by
      rw [hstage]
      rfl
    exits := rfl }

/-- A stop marker at the front of the queue is the first of those that stand there. -/
theorem Conserved.marks_of_marker (h : o.Conserved)
    (hitems : o.queue.items = .stopMarker :: q.items) :
    o.history.marks = o.firstMark :: o.history.marks.tail ∧
      o.firstMark <+: o.history.taken ∧ Timely o.history.taken q.items o.history.marks.tail := by
  have htimely := h.timely
  rw [hitems] at htimely
  unfold firstMark
  cases hmarks : o.history.marks with
  | nil =>
    rw [hmarks] at htimely
    exact absurd htimely id
  | cons mark marks =>
    rw [hmarks] at htimely
    exact ⟨rfl, htimely⟩

theorem Conserved.reaches_takeMarker (h : o.Conserved) (hstage : c.stage = .drawing)
    (hpop : o.queue.pop = some (.stopMarker, q)) :
    o.Reaches i c (.returning o.firstMark) []
      ((o.takeMarker q).advance i c (.returning o.firstMark)) := by
  obtain ⟨hitems, hworkers, -⟩ := pop_eq_some hpop
  obtain ⟨hmarks, hfirst, htimely⟩ := h.marks_of_marker hitems
  exact {
    callers := rfl
    workers := hworkers
    added := (List.append_nil _).symm
    left := by
      rw [hstage]
      rfl
    order := by
      show o.history.taken ++ q.pending = o.added
      rw [← h.order, pending_of_marker hitems]
    calls := fun x => by
      rw [hstage]
      rfl
    timely := htimely
    taken := List.prefix_rfl
    held := fun mark hmark => by
      obtain rfl := List.mem_singleton.mp hmark
      exact hfirst
    markers := fun m => by
      have hcount : o.history.marks.count m =
          o.history.marks.tail.count m + [o.firstMark].count m := by
        rw [hmarks, List.count_cons, List.tail_cons, List.count_singleton]
      simp only [hstage, takeMarker, advance, Outbox.withQueue, Stage.held, List.count_nil]
      omega
    exits := rfl }

theorem Conserved.reaches_handle (h : o.Conserved) (hstage : c.stage = .deleting d) :
    o.Reaches i c .drawing [] ((o.handle d).advance i c .drawing) := by
  have hqueue : ((o.handle d).advance i c .drawing).queue = o.queue := queue_delete d o.world
  exact {
    callers := rfl
    workers := by rw [hqueue]
    added := (List.append_nil _).symm
    left := by
      rw [hstage]
      rfl
    order := by
      rw [hqueue]
      exact h.order
    calls := fun x => by
      simp only [hstage, handle, advance, Stage.requests, List.count_append, List.count_nil]
      omega
    timely := by
      rw [hqueue]
      exact h.timely
    taken := List.prefix_rfl
    held := fun mark hmark => absurd hmark List.not_mem_nil
    markers := fun m => by
      rw [hstage]
      rfl
    exits := rfl }

/-- A drain puts its marker back. What it has been put behind at first is taken by now. -/
theorem Conserved.reaches_finished (h : o.Conserved) (hc : o.callers[i]? = some c)
    (hstage : c.stage = .returning mark) :
    o.Reaches i c .finished [] ((o.addMarker mark).advance i c .finished) where
  callers := rfl
  workers := rfl
  added := (List.append_nil _).symm
  left := by
    rw [hstage]
    rfl
  order := by
    show o.history.taken ++ (o.queue.put .stopMarker).pending = o.added
    rw [pending_put_marker]
    exact h.order
  calls x := by
    rw [hstage]
    rfl
  timely := by
    have hmark : mark <+: o.history.taken := by
      refine h.returned c (List.mem_of_getElem? hc) mark ?_
      rw [hstage]
      exact List.mem_singleton_self mark
    exact h.timely.append_marker (hmark.trans (List.prefix_append _ _))
  taken := List.prefix_rfl
  held mark hmark := absurd hmark List.not_mem_nil
  markers m := by
    simp only [hstage, addMarker, advance, Outbox.withQueue, Stage.held, List.count_append,
      List.count_nil]
    omega
  exits := rfl

theorem Conserved.reaches_joining (h : o.Conserved) (hstage : c.stage = .stopping) :
    o.Reaches i c .joining [] ({ o.addMarker o.added with
      history.stops := o.history.stops ++ [o.added] }.advance i c .joining) where
  callers := rfl
  workers := rfl
  added := (List.append_nil _).symm
  left := by
    rw [hstage]
    rfl
  order := by
    show o.history.taken ++ (o.queue.put .stopMarker).pending = o.added
    rw [pending_put_marker]
    exact h.order
  calls x := by
    rw [hstage]
    rfl
  timely := h.timely.append_marker (h.order ▸ List.prefix_rfl)
  taken := List.prefix_rfl
  held mark hmark := absurd hmark List.not_mem_nil
  markers m := by
    simp only [hstage, addMarker, advance, Outbox.withQueue, Stage.held, List.count_append,
      List.count_nil]
    omega
  exits := rfl

/-- The items and the workers' requests stay when workers are started or forgotten. -/
theorem Conserved.withQueue (h : o.Conserved) (hitems : q.items = o.queue.items)
    (hworkers : q.workers.flatMap Activity.requests = o.queue.workers.flatMap Activity.requests) :
    (o.withQueue q).Conserved where
  order := by
    have hpending : q.pending = o.queue.pending := by
      unfold Deletion.Queue.pending
      rw [hitems]
    show o.history.taken ++ q.pending = o.added
    rw [hpending]
    exact h.order
  calls x := by
    have hinHand : (o.withQueue q).inHand = o.inHand := by
      show q.workers.flatMap Activity.requests ++ _ = _
      rw [hworkers]
      rfl
    rw [hinHand]
    exact h.calls x
  shares := h.shares
  known := h.known
  timely := by
    show Timely o.history.taken q.items o.history.marks
    rw [hitems]
    exact h.timely
  returned := h.returned
  markers := h.markers
  exits := h.exits

theorem stage_begin (q : Deletion.Queue) (task : Task) :
    (task.begin q).left = task.requests ∧ (task.begin q).requests = [] ∧
      (task.begin q).held = [] := by
  have hbegins := begins q task
  generalize task.begin q = stage at hbegins ⊢
  cases hbegins <;> exact ⟨rfl, rfl, rfl⟩

/-- A client calls. What it will put on the queue is all its own. -/
theorem Conserved.call (h : o.Conserved) (task : Task) : (o.act (.call task)).Conserved := by
  obtain ⟨hleft, hrequests, hheld⟩ := stage_begin o.queue task
  have hcallers : (o.act (.call task)).callers = o.callers ++ [⟨task, task.begin o.queue⟩] := rfl
  exact {
    order := h.order
    calls := fun x => by
      have hinHand : (o.act (.call task)).inHand = o.inHand := by
        unfold inHand
        rw [hcallers, List.flatMap_append, List.flatMap_singleton, hrequests, List.append_nil]
        rfl
      rw [hinHand]
      exact h.calls x
    shares := fun j c' hj => by
      rw [hcallers, List.getElem?_append] at hj
      split at hj
      · exact h.shares j c' hj
      · rename_i hlt
        obtain rfl := List.mem_singleton.mp (List.mem_of_getElem? hj)
        have hshare : o.share j = [] := by
          unfold share
          rw [List.map_eq_nil_iff, List.filter_eq_nil_iff]
          intro p hp hpj
          have hknown := h.known p hp
          have heq : p.1 = j := by simpa using hpj
          omega
        show o.share j ++ _ = _
        rw [hshare]
        exact hleft
    known := fun p hp => by
      rw [hcallers, List.length_append]
      exact Nat.lt_add_right _ (h.known p hp)
    timely := h.timely
    returned := fun c' hc' mark hmark => by
      obtain hold | hnew := List.mem_append.mp hc'
      · exact h.returned c' hold mark hmark
      · obtain rfl := List.mem_singleton.mp hnew
        rw [hheld] at hmark
        exact absurd hmark List.not_mem_nil
    markers := fun m => by
      have hsame : (o.act (.call task)).held = o.held := by
        unfold held
        rw [hcallers, List.flatMap_append, List.flatMap_singleton, hheld, List.append_nil]
      rw [hsame]
      exact h.markers m
    exits := h.exits }

theorem Conserved.proceed (h : o.Conserved) (hc : o.callers[i]? = some c) :
    (o.proceed i c).Conserved := by
  unfold Outbox.proceed
  cases hstage : c.stage with
  | adding left =>
    cases left with
    | nil =>
      refine h.reaches hc (h.reaches_advance hc ?_ ?_ ?_) <;>
      · rw [hstage]
        rfl
    | cons d rest => exact h.reaches hc (h.reaches_addRequest hstage)
  | drawing =>
    dsimp only
    split
    · refine h.reaches hc (h.reaches_advance hc ?_ ?_ ?_) <;>
      · rw [hstage]
        rfl
    · rename_i d q hpop
      exact h.reaches hc (h.reaches_takeRequest hstage hpop)
    · rename_i q hpop
      exact h.reaches hc (h.reaches_takeMarker hstage hpop)
  | deleting d => exact h.reaches hc (h.reaches_handle hstage)
  | returning mark => exact h.reaches hc (h.reaches_finished hc hstage)
  | stopping => exact h.reaches hc (h.reaches_joining hstage)
  | joining =>
    have hforgotten : (o.withQueue o.queue.forget).Conserved := h.withQueue rfl rfl
    refine hforgotten.reaches hc (hforgotten.reaches_advance hc ?_ ?_ ?_) <;>
    · rw [hstage]
      rfl
  | finished => exact h

theorem Conserved.start (h : o.Conserved) : (o.withQueue o.queue.start).Conserved := by
  unfold Deletion.Queue.start
  split
  · exact h
  · refine h.withQueue rfl ?_
    rw [List.flatMap_append]
    exact List.append_nil _

/-- A worker has now this to do, and the callers what they had. -/
theorem count_inHand_set (o o' : Outbox) {a b : Activity}
    (hworker : o.queue.workers[worker]? = some a)
    (hset : o'.queue.workers = o.queue.workers.set worker b) (hcallers : o'.callers = o.callers)
    (x : Deletion) :
    o'.inHand.count x + a.requests.count x = o.inHand.count x + b.requests.count x := by
  have hworkers := count_flatMap_set Activity.requests hworker b x
  unfold inHand
  rw [hcallers, hset, List.count_append, List.count_append]
  omega

theorem Conserved.workerTakes (h : o.Conserved)
    (htake : o.queue.take worker = some (.request d, q)) : (o.takeRequest d q).Conserved := by
  obtain ⟨hitems, hworker, hset⟩ := take_eq_some htake
  have htimely := h.timely
  rw [hitems] at htimely
  exact {
    order := by
      show o.history.taken ++ [d] ++ q.pending = o.added
      rw [← h.order, pending_of_request hitems, List.append_assoc]
      rfl
    calls := fun x => by
      have hbefore := h.calls x
      have hinHand : (o.takeRequest d q).inHand.count x + 0 = o.inHand.count x + [d].count x :=
        count_inHand_set o (o.takeRequest d q) hworker hset rfl x
      show (o.history.taken ++ [d]).count x = o.history.called.count x + _
      rw [List.count_append]
      omega
    shares := h.shares
    known := h.known
    timely := htimely
    returned := fun c hc mark hmark =>
      (h.returned c hc mark hmark).trans (List.prefix_append _ _)
    markers := h.markers
    exits := h.exits }

/-- A worker ends on a marker: all that is older than the marker is taken. -/
theorem Conserved.workerEnds (h : o.Conserved)
    (htake : o.queue.take worker = some (.stopMarker, q)) : (o.exit q).Conserved := by
  obtain ⟨hitems, hworker, hset⟩ := take_eq_some htake
  obtain ⟨hmarks, hfirst, htimely⟩ := h.marks_of_marker hitems
  exact {
    order := by
      show o.history.taken ++ q.pending = o.added
      rw [← h.order, pending_of_marker hitems]
    calls := fun x => by
      have hbefore := h.calls x
      have hinHand : (o.exit q).inHand.count x + 0 = o.inHand.count x + 0 :=
        count_inHand_set o (o.exit q) hworker hset rfl x
      show o.history.taken.count x = o.history.called.count x + _
      omega
    shares := h.shares
    known := h.known
    timely := htimely
    returned := h.returned
    markers := fun m => by
      have hbefore := h.markers m
      rw [hmarks, List.count_cons] at hbefore
      show o.history.stops.count m = o.history.marks.tail.count m + o.held.count m +
        ((o.history.exits ++ [(o.firstMark, o.history.taken)]).map (·.1)).count m
      rw [List.map_append, List.count_append, List.map_singleton, List.count_singleton]
      dsimp only
      omega
    exits := fun x hx => by
      obtain hold | hnew := List.mem_append.mp hx
      · exact h.exits x hold
      · obtain rfl := List.mem_singleton.mp hnew
        exact hfirst }

theorem Conserved.workerHandles (h : o.Conserved)
    (hworker : o.queue.workers[worker]? = some (.deleting d)) :
    ((o.withQueue (o.queue.finish worker)).handle d).Conserved := by
  have hqueue : ((o.withQueue (o.queue.finish worker)).handle d).queue =
      o.queue.setActivity worker .idle := by
    refine (queue_delete d _).trans ?_
    show o.queue.finish worker = _
    unfold Deletion.Queue.finish
    rw [hworker]
  exact {
    order := by
      rw [hqueue]
      exact h.order
    calls := fun x => by
      have hbefore := h.calls x
      have hinHand : ((o.withQueue (o.queue.finish worker)).handle d).inHand.count x +
          [d].count x = o.inHand.count x + 0 :=
        count_inHand_set o ((o.withQueue (o.queue.finish worker)).handle d) hworker
          (congrArg Deletion.Queue.workers hqueue) rfl x
      show o.history.taken.count x = (o.history.called ++ [d]).count x + _
      rw [List.count_append]
      omega
    shares := h.shares
    known := h.known
    timely := by
      rw [hqueue]
      exact h.timely
    returned := h.returned
    markers := h.markers
    exits := h.exits }

theorem Conserved.act (h : o.Conserved) (a : Act) : (o.act a).Conserved := by
  cases a with
  | call task => exact h.call task
  | start => exact h.start
  | proceed caller =>
    unfold Outbox.act
    dsimp only
    split
    · rename_i c hc
      exact h.proceed hc
    · exact h
  | take worker =>
    unfold Outbox.act
    dsimp only
    split
    · rename_i d q htake
      exact h.workerTakes htake
    · rename_i q htake
      exact h.workerEnds htake
    · exact h
  | work worker =>
    unfold Outbox.act
    dsimp only
    split
    · rename_i d hworker
      exact h.workerHandles hworker
    · exact h

theorem Conserved.run (h : o.Conserved) (acts : List Act) : (o.run acts).Conserved := by
  induction acts generalizing o with
  | nil => exact h
  | cons a acts ih => exact ih (h.act a)

end Steps

section Failures

variable {o o' : Outbox} {w : World} {q : Deletion.Queue} {i : Nat} {c : Caller} {d : Deletion}

/-- Two courses of things that differ at most in what the trigger has made of its calls. -/
structure Alike (o o' : Outbox) : Prop where
  queue : o.queue = o'.queue
  callers : o.callers = o'.callers
  history : o.history = o'.history

theorem Alike.proceed (h : o.Alike o') : (o.proceed i c).Alike (o'.proceed i c) := by
  obtain ⟨w, callers, history⟩ := o
  obtain ⟨w', callers', history'⟩ := o'
  obtain ⟨hqueue, rfl, rfl⟩ := h
  have hput (item : Item) : w.queue.put item = w'.queue.put item :=
    congrArg (fun q : Deletion.Queue => q.put item) hqueue
  unfold Outbox.proceed
  cases c.stage with
  | adding left =>
    cases left with
    | nil => exact ⟨hqueue, rfl, rfl⟩
    | cons d rest => exact ⟨hput (.request d), rfl, rfl⟩
  | drawing =>
    dsimp only
    rw [hqueue]
    cases Outbox.queue ⟨w', callers, history⟩ |>.pop with
    | none => exact ⟨hqueue, rfl, rfl⟩
    | some taken =>
      obtain ⟨item, q⟩ := taken
      cases item with
      | request d => exact ⟨rfl, rfl, rfl⟩
      | stopMarker => exact ⟨rfl, rfl, rfl⟩
  | deleting d => exact ⟨(queue_delete d w).trans (hqueue.trans (queue_delete d w').symm), rfl, rfl⟩
  | returning mark => exact ⟨hput .stopMarker, rfl, rfl⟩
  | stopping => exact ⟨hput .stopMarker, rfl, rfl⟩
  | joining => exact ⟨congrArg Deletion.Queue.forget hqueue, rfl, rfl⟩
  | finished => exact ⟨hqueue, rfl, rfl⟩

theorem Alike.act (h : o.Alike o') (a : Act) : (o.act a).Alike (o'.act a) := by
  obtain ⟨w, callers, history⟩ := o
  obtain ⟨w', callers', history'⟩ := o'
  obtain ⟨hqueue, hcallers, hhistory⟩ := id h
  dsimp only at hcallers hhistory
  subst hcallers hhistory
  unfold Outbox.act
  cases a with
  | call task =>
    dsimp only
    rw [hqueue]
    exact ⟨hqueue, rfl, rfl⟩
  | start => exact ⟨congrArg Deletion.Queue.start hqueue, rfl, rfl⟩
  | proceed caller =>
    dsimp only
    cases callers[caller]? with
    | none => exact h
    | some c => exact h.proceed
  | take worker =>
    dsimp only
    rw [hqueue]
    cases Outbox.queue ⟨w', callers, history⟩ |>.take worker with
    | none => exact h
    | some taken =>
      obtain ⟨item, q⟩ := taken
      cases item with
      | request d => exact ⟨rfl, rfl, rfl⟩
      | stopMarker => exact ⟨rfl, rfl, rfl⟩
  | work worker =>
    have hfinish (d : Deletion) : (World.delete d { w with queue := w.queue.finish worker }).queue =
        (World.delete d { w' with queue := w'.queue.finish worker }).queue := by
      rw [queue_delete, queue_delete]
      exact congrArg (fun q : Deletion.Queue => q.finish worker) hqueue
    dsimp only
    rw [congrArg Deletion.Queue.workers hqueue]
    cases (Outbox.queue ⟨w', callers, history⟩).workers[worker]? with
    | none => exact h
    | some activity =>
      cases activity with
      | deleting d => exact ⟨hfinish d, rfl, rfl⟩
      | idle => exact h
      | ended => exact h

theorem Alike.run (h : o.Alike o') (acts : List Act) : (o.run acts).Alike (o'.run acts) := by
  induction acts generalizing o o' with
  | nil => exact h
  | cons a acts ih => exact ih (h.act a)

/-- The trigger has deleted what it was called for, but not what it cannot delete. -/
structure Deleted (w : World) (o : Outbox) : Prop where
  failing : o.world.trigger.failing = w.trigger.failing
  deleted : o.world.trigger.deleted = w.trigger.deleted ++
    (o.history.called.filter fun d => !w.trigger.failing.contains d.segment).map
      fun d => (d.table, d.segment)

theorem Deleted.handle (h : Deleted w o) (htrigger : o'.world.trigger = o.world.trigger)
    (hcalled : o'.history.called = o.history.called) : Deleted w (o'.handle d) := by
  have hfailing : o'.world.trigger.failing = w.trigger.failing := by rw [htrigger, h.failing]
  have hdeleted := h.deleted
  rw [← htrigger, ← hcalled] at hdeleted
  unfold Outbox.handle World.delete
  rw [hfailing]
  by_cases hd : w.trigger.failing.contains d.segment
  · rw [if_pos hd]
    refine ⟨hfailing, ?_⟩
    dsimp only [World.note]
    rw [List.filter_append, List.filter_singleton, hd, hdeleted]
    simp
  · rw [if_neg hd]
    refine ⟨hfailing, ?_⟩
    dsimp only [World.note]
    rw [List.filter_append, List.filter_singleton, Bool.eq_false_iff.mpr hd, hdeleted]
    simp

/-- Only the trigger's calls change what has been deleted. -/
theorem act_cases (o : Outbox) (a : Act) :
    (o.act a).world.trigger = o.world.trigger ∧ (o.act a).history.called = o.history.called ∨
      ∃ o' : Outbox, ∃ d, o'.world.trigger = o.world.trigger ∧
        o'.history.called = o.history.called ∧ (o.act a).world = (o'.handle d).world ∧
        (o.act a).history = (o'.handle d).history := by
  unfold act
  cases a with
  | call task => exact .inl ⟨rfl, rfl⟩
  | start => exact .inl ⟨rfl, rfl⟩
  | proceed caller =>
    dsimp only
    split
    · rename_i c hc
      unfold proceed
      cases c.stage with
      | adding left => cases left <;> exact .inl ⟨rfl, rfl⟩
      | drawing =>
        dsimp only
        split <;> exact .inl ⟨rfl, rfl⟩
      | deleting d => exact .inr ⟨o, d, rfl, rfl, rfl, rfl⟩
      | _ => exact .inl ⟨rfl, rfl⟩
    · exact .inl ⟨rfl, rfl⟩
  | take worker =>
    dsimp only
    split
    · exact .inl ⟨rfl, rfl⟩
    · exact .inl ⟨rfl, rfl⟩
    · exact .inl ⟨rfl, rfl⟩
  | work worker =>
    dsimp only
    split
    · rename_i d hworker
      exact .inr ⟨o.withQueue (o.queue.finish worker), d, rfl, rfl, rfl, rfl⟩
    · exact .inl ⟨rfl, rfl⟩

theorem Deleted.run (h : Deleted w o) (acts : List Act) : Deleted w (o.run acts) := by
  induction acts generalizing o with
  | nil => exact h
  | cons a acts ih =>
    refine ih ?_
    obtain ⟨htrigger, hcalled⟩ | ⟨o', d, htrigger, hcalled, hworld, hhistory⟩ := o.act_cases a
    · constructor
      · rw [htrigger, h.failing]
      · rw [htrigger, hcalled, h.deleted]
    · have hhandled : Deleted w (o'.handle d) := h.handle htrigger hcalled
      constructor
      · rw [hworld, hhandled.failing]
      · rw [hworld, hhistory, hhandled.deleted]

end Failures

/-- What a task contributes to the queue: one request for each distinct name, in the order in which
the names first occur. -/
inductive Contributes : Task → List Deletion → Prop where
  | enqueue {names firsts : List Text} (table reason : Text) (h : Text.Firsts names firsts) :
      Contributes (.enqueue table names reason) (firsts.map (⟨table, ·, reason⟩))
  | drain : Contributes .drain []
  | stop : Contributes .stop []

theorem contributes_requests (task : Task) : Contributes task task.requests := by
  cases task with
  | enqueue table names reason => exact .enqueue table reason (Text.firsts_distinct names)
  | drain => exact .drain
  | stop => exact .stop

/-- Nothing is lost, doubled or taken out of turn in a queue that starts empty, whatever its callers
and workers do one after the other, and whichever segments the trigger cannot delete. -/
theorem requests_conserved (w : World) (acts : List Act) :
    -- what has been taken and what waits is what was put there
    ((opened w).run acts).history.taken ++ ((opened w).run acts).queue.pending =
        ((opened w).run acts).added ∧
      -- each caller has put its distinct names there once, up to those that it has left
      (∀ (i : Nat) (c : Caller), ((opened w).run acts).callers[i]? = some c →
        Contributes c.task (((opened w).run acts).share i ++ c.stage.left)) ∧
      -- and comes to its end if it is left alone
      (∀ (i : Nat) (c : Caller), ((opened w).run acts).callers[i]? = some c →
        ∃ n, Settled ((opened w).run acts) i c
          (((opened w).run acts).run (List.replicate n (.proceed i)))) ∧
      -- the trigger is called once for each request that is taken
      ((opened w).run acts).history.taken.Perm
        (((opened w).run acts).history.called ++ ((opened w).run acts).inHand) ∧
      -- and its failures make no other difference than that these segments are not deleted
      (∀ failing : List Text,
        ((opened { w with trigger.failing := failing }).run acts).Alike ((opened w).run acts)) ∧
      ((opened w).run acts).world.trigger.deleted = w.trigger.deleted ++
        (((opened w).run acts).history.called.filter fun d =>
          !w.trigger.failing.contains d.segment).map (fun d => (d.table, d.segment)) ∧
      ((opened w).run acts).queue.items.count .stopMarker =
        ((opened w).run acts).history.marks.length ∧
      -- a marker waits in the queue, is about to be put back there or has ended a worker
      ((opened w).run acts).history.stops.Perm (((opened w).run acts).history.marks ++
        ((opened w).run acts).held ++ ((opened w).run acts).history.exits.map (·.1)) ∧
      -- and has ended it after all that was put there before the marker has been taken
      ∀ x ∈ ((opened w).run acts).history.exits, x.1 <+: x.2 := by
  have h : ((opened w).run acts).Conserved := (conserved_opened w).run acts
  have hopened : Deleted w (opened w) := ⟨rfl, (List.append_nil _).symm⟩
  have hdeleted : Deleted w ((opened w).run acts) := hopened.run acts
  refine ⟨h.order, fun i c hc => ?_, fun i c hc => settled_of_alone hc, ?_, ?_, hdeleted.deleted,
    h.timely.count_stopMarker, ?_, h.exits⟩
  · rw [h.shares i c hc]
    exact contributes_requests c.task
  · refine List.perm_iff_count.mpr fun d => ?_
    rw [List.count_append]
    exact h.calls d
  · intro failing
    have hsame : (opened { w with trigger.failing := failing }).Alike (opened w) := ⟨rfl, rfl, rfl⟩
    exact hsame.run acts
  · refine List.perm_iff_count.mpr fun m => ?_
    rw [List.count_append, List.count_append]
    exact h.markers m

/-- A caller has put two names on the queue, one of which it gave twice, and another one a marker
behind them. A third one drains the queue up to the marker. Before it puts the marker back, a
request for another name comes in. -/
def crossing : List Act :=
  [.call (.enqueue "t" ["a", "b", "a"] "r"), .start, .call .stop, .call .drain] ++
    List.replicate 3 (.proceed 0) ++ [.proceed 1] ++ List.replicate 5 (.proceed 2) ++
    [.call (.enqueue "t" ["c"] "r"), .proceed 3]

theorem requests_conserved_crossing :
    let w : World := { World.create .default ⟨[]⟩ (.memory .empty) with trigger.failing := ["b"] }
    let held := (opened w).run crossing
    let ended := held.run [.proceed 2, .take 0, .work 0, .take 0]
    let a : Deletion := ⟨"t", "a", "r"⟩
    let b : Deletion := ⟨"t", "b", "r"⟩
    let c : Deletion := ⟨"t", "c", "r"⟩
    -- the drain has the marker in its hands and puts it back behind the new request
    (held.history.taken = [a, b] ∧ held.queue.items = [.request c] ∧
        ∃ n, (held.run (List.replicate n (.proceed 2))).queue.items =
          [.request c, .stopMarker]) ∧
      -- the worker ends on it after that request
      (ended.history.taken = [a, b, c] ∧ ended.history.exits = [([a, b], [a, b, c])] ∧
        ended.history.taken ++ ended.queue.pending = ended.added) ∧
      -- the first caller has put its two names there, and the trigger has failed for one of them
      Contributes (.enqueue "t" ["a", "b", "a"] "r") [a, b] ∧
      ended.world.trigger.deleted = ([("t", "a"), ("t", "c")] : List (Text × Text)) := by
  intro w held ended a b c
  have hacts : ended = (opened w).run (crossing ++ [.proceed 2, .take 0, .work 0, .take 0]) :=
    (List.foldl_append ..).symm
  obtain ⟨-, hshares, hsettled, -⟩ := requests_conserved w crossing
  obtain ⟨horder, -⟩ := requests_conserved w (crossing ++ [.proceed 2, .take 0, .work 0, .take 0])
  rw [← hacts] at horder
  have hfirst : held.callers[0]? = some ⟨.enqueue "t" ["a", "b", "a"] "r", .finished⟩ := by
    decide +kernel
  have hdrain : held.callers[2]? = some ⟨.drain, .returning [a, b]⟩ := by decide +kernel
  obtain ⟨n, -, ⟨called, hsettles, -⟩, -⟩ := hsettled 2 _ hdrain
  have hshare : held.share 0 = [a, b] := by decide +kernel
  have hcontributes := hshares 0 _ hfirst
  have hitems : held.queue.items = [.request c] := by decide +kernel
  refine ⟨⟨by decide +kernel, hitems, n, ?_⟩, ⟨by decide +kernel, by decide +kernel, horder⟩,
    ?_, by decide +kernel⟩
  · generalize (held.run (List.replicate n (.proceed 2))).queue.items = after at hsettles ⊢
    rw [hitems] at hsettles
    cases hsettles
    rfl
  · rw [hshare] at hcontributes
    exact hcontributes

end Outbox

end SegmentSwap
