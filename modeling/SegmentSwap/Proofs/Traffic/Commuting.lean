import SegmentSwap.Proofs.Traffic.Alone

/-!
# Ends of different entries commute

A call that ends an entry looks at this entry, at its targets and at nothing else, and it changes
this entry alone: in an exclusive lineage a completion costs no other entry its sources. So two
calls that end different entries in progress come to the same in either order, whether they succeed
or are turned down.
-/

namespace SegmentSwap

/-- The entry without the time of its last change. -/
def Entry.unstamped (e : Entry) : Entry := { e with stamp := "" }

/-- A request is about the end of an entry. -/
def Request.IsEndOf (e : Entry) : Request → Prop
  | .start .. => False
  | .finish id => id = e.id
  | .revert id _ => id = e.id

theorem Request.IsEndOf.job {e : Entry} {request : Request} (h : request.IsEndOf e) :
    ∃ j : Job, request = j.request ∧ j.entry? = some e.id := by
  cases request with
  | start => exact absurd h id
  | finish id =>
    obtain rfl : id = e.id := h
    exact ⟨.finish e.id, rfl, rfl⟩
  | revert id force =>
    obtain rfl : id = e.id := h
    exact ⟨.revert e.id force, rfl, rfl⟩

namespace Entry

variable {xs ys : List Entry} {x : Entry}

theorem unstamped_moved (next : State) (stamp stamp' : Text) (e : Entry) :
    (e.moved next stamp).unstamped = (e.moved next stamp').unstamped := rfl

/-- Moves of entries with different ids commute, whatever the stamps. -/
theorem unstamped_movedAmong (hids : ∀ a ∈ xs, ∀ b ∈ ys, a.id ≠ b.id) (s s' : State)
    (u u' v v' : Text) :
    ((x.movedAmong xs s u).movedAmong ys s' u').unstamped =
      ((x.movedAmong ys s' v').movedAmong xs s v).unstamped := by
  have hstay : ∀ (zs : List Entry) (s : State) (u : Text), x ∉ zs → x.movedAmong zs s u = x :=
    fun zs s u hx => if_neg hx
  have hmove : ∀ (zs : List Entry) (s : State) (u : Text), x ∈ zs →
      x.movedAmong zs s u = x.moved s u := fun zs s u hx => if_pos hx
  by_cases hx : x ∈ xs
  · -- the entry is not among the others, neither before nor after it has been moved
    have hy : x ∉ ys := fun hy => hids x hx x hy rfl
    have hmoved : x.moved s u ∉ ys := fun hy => hids x hx _ hy rfl
    rw [hmove xs s u hx, hstay ys s' v' hy, hmove xs s v hx]
    unfold movedAmong
    rw [if_neg hmoved]
    exact unstamped_moved s u v x
  · rw [hstay xs s u hx]
    by_cases hy : x ∈ ys
    · have hmoved : x.moved s' v' ∉ xs := fun hx => hids _ hx x hy rfl
      rw [hmove ys s' u' hy, hmove ys s' v' hy]
      unfold movedAmong
      rw [if_neg hmoved]
      exact unstamped_moved s' u' v' x
    · rw [hstay ys s' u' hy, hstay ys s' v' hy, hstay xs s v hx]

end Entry

namespace Lineage

variable {l l' : Lineage}

/-- The stamps have no part in what is served. -/
theorem served_congr (h : l.entries.map Entry.unstamped = l'.entries.map Entry.unstamped)
    (registered : List Text) : l.served registered = l'.served registered := by
  have hview : ∀ (p : State → Bool) (segments : Entry → List Text),
      (∀ e : Entry, segments e.unstamped = segments e) →
      (l.entries.filter fun e => p e.state).flatMap segments =
        (l'.entries.filter fun e => p e.state).flatMap segments := by
    intro p segments hsegments
    have hstrip : ∀ k : Lineage, ((k.entries.map Entry.unstamped).filter fun e =>
        p e.state).flatMap segments = (k.entries.filter fun e => p e.state).flatMap segments := by
      intro k
      rw [List.filter_map, List.flatMap_map]
      simp only [hsegments]
      rfl
    rw [← hstrip l, h, hstrip l']
  have hretired : l.retired = l'.retired :=
    hview (fun s => decide (s = .completed)) Entry.sources fun _ => rfl
  have hpublished : l.published = l'.published :=
    hview (fun s => decide (s = .completed)) Entry.targets fun _ => rfl
  have hunpublished : l.unpublished = l'.unpublished :=
    hview (fun s => decide (s ≠ .completed)) Entry.targets fun _ => rfl
  have hexposes : l.exposes = l'.exposes := by
    funext s
    unfold exposes
    rw [hretired, hpublished, hunpublished]
  unfold served
  rw [hexposes]

end Lineage

namespace Job

variable (j : Job) (table : Text) (r : Registry) (e : Entry)

/-- The entry that a job ends, if nothing stands against it. -/
def ended : List Entry := if (j.refusal? table r e).isNone then [e] else []

/-- The requests that a job puts on the queue, if nothing stands against it. -/
def orders : List Deletion :=
  if (j.refusal? table r e).isNone then
    match j with
    | .finish _ => Batch.requests table ⟨e.sources, j.ownReason e.id⟩
    | _ => Batch.requests table (Call.batchOf (j.ownReason e.id) (r.segments table) e)
  else []

/-- What a call returns that has this job. -/
def outcome (stamp : Text) : Except Failure Entry :=
  match j.refusal? table r e with
  | some refusal => .error (.refusal refusal)
  | none => .ok (e.moved j.goal stamp)

variable {j table r e}

theorem mem_ended {x : Entry} (h : x ∈ j.ended table r e) : x = e := by
  unfold ended at h
  split at h
  · exact List.mem_singleton.mp h
  · cases h

theorem unstamped_outcome (stamp stamp' : Text) :
    (j.outcome table r e stamp).map Entry.unstamped =
      (j.outcome table r e stamp').map Entry.unstamped := by
  unfold outcome
  split <;> rfl

end Job

namespace Call

/-- What the end of an entry makes of a site, be it turned down or not. -/
structure Leaves (c : Call) (j : Job) (e : Entry) (stamp : Text) (s s' : Site) : Prop where
  lineage : (s.memory.read c.table).lineage.Moves (j.ended c.table s.registry e) j.goal stamp
    (s'.memory.read c.table).lineage
  queue : s'.queue = s.queue.extended (j.orders c.table s.registry e)
  registry : s'.registry = s.registry

variable {c : Call} {j : Job} {e : Entry} {chance : Chance} {s : Site}

/-- In an exclusive lineage the end of an entry in progress orders nothing for other entries. -/
theorem EndPlan.orders {read : Versioned} {stamp : Text} {plan : Plan}
    (h : EndPlan j read e stamp plan) (hl : Exclusive read.lineage) (he : e ∈ read.lineage.running)
    (hid : j.entry? = some e.id) {table : Text} {r : Registry}
    (hfree : j.refusal? table r e = none) :
    (endDeletions j plan (r.segments table)).flatMap (Batch.requests table) =
      j.orders table r e := by
  have hnone : plan.reverted = [] := (h.moves hl he).1
  unfold endDeletions Job.orders
  rw [hfree, hnone, h.entry]
  cases j with
  | start => cases hid
  | finish => exact List.append_nil _
  | revert => exact List.append_nil _

/-- The end of an entry in progress is decided by the targets of the entry and the registry, and
beside the entry it changes nothing but the queue. -/
theorem answer_leaves (hup : chance.outage? = none) (hrequest : c.request = j.request)
    (hid : j.entry? = some e.id) (hrecord : (s.memory.read c.table).lineage.table = c.table)
    (hl : Exclusive (s.memory.read c.table).lineage)
    (he : e ∈ (s.memory.read c.table).lineage.running) :
    (c.answer (Site.services chance) s).1 = j.outcome c.table s.registry e chance.stamp ∧
      c.Leaves j e chance.stamp s (c.answer (Site.services chance) s).2 := by
  cases hrefusal : j.refusal? c.table s.registry e with
  | some refusal =>
    have hended : j.ended c.table s.registry e = [] := by simp [Job.ended, hrefusal]
    have horders : j.orders c.table s.registry e = [] := by simp [Job.orders, hrefusal]
    rw [answer_end_refused hup hrequest hid he hrefusal]
    refine ⟨by simp [Job.outcome, hrefusal], ?_, ?_, rfl⟩
    · rw [hended]
      have hsame : Entry.movedAmong [] j.goal chance.stamp = id := by
        funext x
        exact if_neg List.not_mem_nil
      exact ⟨rfl, fun x hx => absurd hx List.not_mem_nil, by rw [hsame, List.map_id]⟩
    · rw [horders, Deletion.Queue.extended_nil]
  | none =>
    obtain ⟨plan, hplan, hanswer⟩ := answer_end hup hrequest hid he hrecord hrefusal
    have hmoves := (hplan.moves hl he).2
    have htable : plan.lineage.table = c.table := hplan.table.trans hrecord
    have hended : j.ended c.table s.registry e = [e] := by simp [Job.ended, hrefusal]
    rw [hanswer]
    refine ⟨by simp [Job.outcome, hrefusal, hplan.entry], ?_, ?_, rfl⟩
    · rw [hended]
      have hread : (s.memory.put plan.lineage (.next plan.expected)).read c.table =
          ⟨plan.lineage, some (.next plan.expected)⟩ := by
        rw [← htable, Memory.read_put_self]
      show (s.memory.read c.table).lineage.Moves [e] j.goal chance.stamp
        ((s.memory.put plan.lineage (.next plan.expected)).read c.table).lineage
      rw [hread]
      exact hmoves
    · show s.queue.extended _ = _
      rw [hplan.orders hl he hid hrefusal]

/-- What two calls return, the second one made after the first one has returned, and what they leave
behind. -/
structure Pair where
  first : Except Failure Entry
  second : Except Failure Entry
  site : Site

/-- Two calls one after the other. -/
def inTurn (c d : Call) (chance chance' : Chance) (s : Site) : Pair :=
  let one := c.answer (Site.services chance) s
  let two := d.answer (Site.services chance') one.2
  ⟨one.1, two.1, two.2⟩

/-- Two orders of the same two calls come to the same, but for the stamps and for the order of what
they put on the queue. -/
structure Interchange (table : Text) (s : Site) (there back : Pair) : Prop where
  /-- The call that is first in one order returns what it does as the second one in the other. -/
  first : there.first.map Entry.unstamped = back.second.map Entry.unstamped
  second : there.second.map Entry.unstamped = back.first.map Entry.unstamped
  owner : (there.site.memory.read table).lineage.table = (back.site.memory.read table).lineage.table
  entries : (there.site.memory.read table).lineage.entries.map Entry.unstamped =
    (back.site.memory.read table).lineage.entries.map Entry.unstamped
  /-- The registry stays what it is, and the same segments are served, whatever is registered. -/
  registry : there.site.registry = s.registry ∧ back.site.registry = s.registry
  served : ∀ registered, (there.site.memory.read table).lineage.served registered =
    (back.site.memory.read table).lineage.served registered
  /-- Each call puts the same requests on the queue in either order. -/
  requests : ∃ ds ds' : List Deletion,
    there.site.queue = (s.queue.extended ds).extended ds' ∧
    back.site.queue = (s.queue.extended ds').extended ds

/-- One call after another, each of which ends an entry of its own. -/
theorem inTurn_leaves {d : Call} {i j : Job} {a b : Entry} {chance chance' : Chance}
    (hup : chance.outage? = none) (hup' : chance'.outage? = none) (htable : d.table = c.table)
    (hrequest : c.request = i.request) (hid : i.entry? = some a.id)
    (hrequest' : d.request = j.request) (hid' : j.entry? = some b.id)
    (hrecord : (s.memory.read c.table).lineage.table = c.table)
    (hl : Exclusive (s.memory.read c.table).lineage)
    (ha : a ∈ (s.memory.read c.table).lineage.running)
    (hb : b ∈ (s.memory.read c.table).lineage.running) (hab : a ≠ b) :
    (inTurn c d chance chance' s).first = i.outcome c.table s.registry a chance.stamp ∧
      (inTurn c d chance chance' s).second = j.outcome c.table s.registry b chance'.stamp ∧
      (inTurn c d chance chance' s).site.registry = s.registry ∧
      (inTurn c d chance chance' s).site.queue =
        (s.queue.extended (i.orders c.table s.registry a)).extended
          (j.orders c.table s.registry b) ∧
      ((inTurn c d chance chance' s).site.memory.read c.table).lineage.table = c.table ∧
      ((inTurn c d chance chance' s).site.memory.read c.table).lineage.entries =
        ((s.memory.read c.table).lineage.entries.map
          (Entry.movedAmong (i.ended c.table s.registry a) i.goal chance.stamp)).map
          (Entry.movedAmong (j.ended c.table s.registry b) j.goal chance'.stamp) := by
  obtain ⟨hfirst, hleaves⟩ := answer_leaves hup hrequest hid hrecord hl ha
  set one := (c.answer (Site.services chance) s).2 with hone
  have hgoal : i.goal ≠ .inProgress := by
    rcases Job.goal_of_entry? hid with hgoal | hgoal <;> rw [hgoal] <;> decide
  -- the second call finds its entry and the registry as they were
  have hb' : b ∈ (one.memory.read d.table).lineage.running := by
    rw [htable, hleaves.lineage.mem_running hgoal]
    exact ⟨hb, fun hmem => hab (Job.mem_ended hmem).symm⟩
  have hrecord' : (one.memory.read d.table).lineage.table = d.table := by
    rw [htable, hleaves.lineage.table, hrecord]
  have hl' : Exclusive (one.memory.read d.table).lineage := by
    rw [htable]
    exact hl.moves hleaves.lineage
  obtain ⟨hsecond, hleaves'⟩ := answer_leaves hup' hrequest' hid' hrecord' hl' hb'
  have hmoves := hleaves'.lineage
  have hqueue := hleaves'.queue
  rw [htable, hleaves.registry] at hsecond hqueue hmoves
  refine ⟨hfirst, hsecond, hleaves'.registry.trans hleaves.registry, ?_, ?_, ?_⟩
  · rw [← hleaves.queue]
    exact hqueue
  · exact hmoves.table.trans (hleaves.lineage.table.trans hrecord)
  · rw [← hleaves.lineage.entries]
    exact hmoves.entries

end Call

namespace Traffic

variable {table : Text} {site : Site} {moves : List Move} {t : Traffic} {a b : Entry}
  {request request' : Request}

/-- Two entries are in progress at some moment of a run without removals, and each of them is
completed or reverted by a call, one call after the other. Whatever is registered by then, the two
orders of the calls come to the same. -/
theorem ends_commute (hnew : site.memory.get? table = none)
    (hmoves : ∀ m ∈ moves, m.isDrop = false) (ht : (idle site).run table moves = t)
    (ha : a ∈ (t.lineage table).running) (hb : b ∈ (t.lineage table).running) (hab : a ≠ b)
    (hrequest : request.IsEndOf a) (hrequest' : request'.IsEndOf b) (registry : Registry)
    (attempts generations attempts' generations' : Int) {chance chance' late late' : Chance}
    (hup : ∀ k ∈ [chance, chance', late, late'], k.outage? = none) :
    let s : Site := { t.site with registry := registry }
    let c : Call := ⟨table, request, attempts, generations⟩
    let d : Call := ⟨table, request', attempts', generations'⟩
    Call.Interchange table s (Call.inTurn c d chance chance' s) (Call.inTurn d c late' late s) := by
  intro s c d
  subst ht
  have hsound := sound_run hnew rfl hmoves
  have hrecord : (s.memory.read table).lineage.table = table := hsound.record
  have hl : Exclusive (s.memory.read table).lineage := hsound.exclusive
  obtain ⟨i, hi, hid⟩ := hrequest.job
  obtain ⟨j, hj, hid'⟩ := hrequest'.job
  have hupc : chance.outage? = none := hup _ (by simp)
  have hupd : chance'.outage? = none := hup _ (by simp)
  have hlatec : late.outage? = none := hup _ (by simp)
  have hlated : late'.outage? = none := hup _ (by simp)
  obtain ⟨hfirst, hsecond, hregistry, hqueue, htable, hentries⟩ :=
    Call.inTurn_leaves (c := c) (d := d) hupc hupd rfl hi hid hj hid' hrecord hl ha hb hab
  obtain ⟨hfirst', hsecond', hregistry', hqueue', htable', hentries'⟩ :=
    Call.inTurn_leaves (c := d) (d := c) hlated hlatec rfl hj hid' hi hid hrecord hl hb ha
      (Ne.symm hab)
  have hsame : ((Call.inTurn c d chance chance' s).site.memory.read table).lineage.entries.map
      Entry.unstamped = ((Call.inTurn d c late' late s).site.memory.read table).lineage.entries.map
        Entry.unstamped := by
    rw [hentries, hentries']
    simp only [List.map_map]
    refine List.map_congr_left fun x _ => Entry.unstamped_movedAmong ?_ _ _ _ _ _ _
    intro y hy z hz hyz
    obtain rfl := Job.mem_ended hy
    obtain rfl := Job.mem_ended hz
    exact hab (Lineage.eq_of_id_eq (Lineage.mem_running.mp ha).1 (Lineage.mem_running.mp hb).1 hyz)
  refine ⟨?_, ?_, htable.trans htable'.symm, hsame, ⟨hregistry, hregistry'⟩, ?_, ?_⟩
  · rw [hfirst, hsecond']
    exact Job.unstamped_outcome _ _
  · rw [hsecond, hfirst']
    exact Job.unstamped_outcome _ _
  · exact Lineage.served_congr hsame
  · exact ⟨_, _, hqueue, hqueue'⟩

/-- Two replacements are in progress side by side, and the targets of both are uploaded. -/
def sideBySide : List Move :=
  [.enter (.start ["a"] ["b"] false) 5 2] ++ Move.answers 0 6 "1" ++
    [.enter (.start ["x"] ["y"] false) 5 2] ++ Move.answers 1 6 "2" ++ [.add ["b", "y"] true]

/-- The first one is completed and the second one is reverted by force, or the other way round. -/
theorem ends_commute_side_by_side :
    let t := (idle (.holding "t" .append ["a", "x"])).run "t" sideBySide
    let c : Call := ⟨"t", .finish "1", 5, 2⟩
    let d : Call := ⟨"t", .revert "2" true, 5, 2⟩
    let there := Call.inTurn c d ⟨"", "4", none⟩ ⟨"", "5", none⟩ t.site
    let back := Call.inTurn d c ⟨"", "6", none⟩ ⟨"", "7", none⟩ t.site
    Call.Interchange "t" t.site there back ∧
      there.first = .ok ⟨"1", ["a"], ["b"], .completed, "4"⟩ ∧
      there.second = .ok ⟨"2", ["x"], ["y"], .reverted, "5"⟩ ∧
      there.site.queue.pending = [⟨"t", "a", "replaced_by:1"⟩, ⟨"t", "y", "reverted:2"⟩] ∧
      (there.site.memory.read "t").lineage.served ["a", "x", "b", "y"] = ["x", "b"] ∧
      (back.site.memory.read "t").lineage.served ["a", "x", "b", "y"] = ["x", "b"] := by
  intro t c d there back
  let a : Entry := ⟨"1", ["a"], ["b"], .inProgress, ""⟩
  let b : Entry := ⟨"2", ["x"], ["y"], .inProgress, ""⟩
  have ha : a ∈ (t.lineage "t").running := by decide +kernel
  have hb : b ∈ (t.lineage "t").running := by decide +kernel
  have hc : Request.IsEndOf a c.request := rfl
  have hd : Request.IsEndOf b d.request := rfl
  have hcommute : Call.Interchange "t" t.site there back :=
    ends_commute (rfl : (Site.holding "t" .append ["a", "x"]).memory.get? "t" = none)
      (by decide) (rfl : _ = t) ha hb (by decide) hc hd t.site.registry 5 2 5 2 (by decide)
  have hl : Exclusive (t.lineage "t") :=
    (sound_run (s := .holding "t" .append ["a", "x"]) rfl rfl (by decide)).exclusive
  obtain ⟨hfirst, hsecond, -, hqueue, -, hentries⟩ := Call.inTurn_leaves (c := c) (d := d)
    (i := .finish "1") (j := .revert "2" true) (rfl : (⟨"", "4", none⟩ : Chance).outage? = none)
    (rfl : (⟨"", "5", none⟩ : Chance).outage? = none) rfl rfl rfl rfl rfl (by decide +kernel) hl
    ha hb (by decide)
  have hserved : (there.site.memory.read "t").lineage.served ["a", "x", "b", "y"] = ["x", "b"] := by
    unfold Lineage.served Lineage.exposes Lineage.retired Lineage.published Lineage.unpublished
      Lineage.completed
    rw [hentries]
    decide +kernel
  refine ⟨hcommute, hfirst.trans rfl, hsecond.trans rfl, ?_, hserved, ?_⟩
  · rw [hqueue]
    decide +kernel
  · rw [← hcommute.served]
    exact hserved

end Traffic

end SegmentSwap
