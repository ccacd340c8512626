import Mathlib.Logic.Function.Basic
import SegmentSwap.Proofs.Deletion.Outbox

/-!
# Workers and their stop calls

The queue knows of one worker. A stop call puts a marker for it, waits for it and forgets it, and it
forgets it also when it has waited long enough and the worker is still alive. Such a worker is lost:
it goes on taking items beside the next one, and either of them may take a marker that is meant for
the other. Nothing else makes a second worker.

For the purpose the outbox is seen as far as workers and markers go, and it is said once what can
happen to it then. Beside it is noted whose markers stand in the queue, who holds them, and which
workers have been lost.
-/

namespace SegmentSwap

namespace Outbox

open Deletion (Activity Item)

/-- What a caller has to do with stop markers. -/
inductive Part where
  | bystander
  /-- It is about to put a marker for the worker that the queue knows of. -/
  | stopping
  /-- It waits for the worker. -/
  | joining
  /-- It has taken a marker and has to put it back. -/
  | returning
  deriving DecidableEq

/-- The part of a caller at a stage. -/
def Stage.part : Stage → Part
  | .stopping => .stopping
  | .joining => .joining
  | .returning _ => .returning
  | _ => .bystander

/-- The part of a caller, who may not be there yet. -/
def part (o : Outbox) (caller : Nat) : Part :=
  (o.callers[caller]?).elim .bystander fun c => c.stage.part

/-- A stop call is under way. -/
def Part.isStopCall (p : Part) : Bool := p == .stopping || p == .joining

/-- Whose stop markers are where. A stop call is told by its caller. -/
structure Tags where
  /-- The worker that a stop call waits for: the one that the queue knew of when the marker was put. -/
  awaited : Nat → Option Nat
  /-- The stop calls whose markers stand in the queue, in its order. -/
  queued : List Nat
  /-- The stop call whose marker a draining caller has to put back. -/
  held : Nat → Option Nat
  /-- The workers that have ended, each with the one that the stop call of its marker waits for. -/
  exits : List (Option Nat × Nat)
  /-- The workers that were forgotten while they were alive. -/
  lost : List Nat

/-- No markers and no workers. -/
def Tags.blank : Tags := ⟨fun _ => none, [], fun _ => none, [], []⟩

/-- The tags after a caller has gone on. -/
def Tags.proceed (g : Tags) (o : Outbox) (caller : Nat) : Stage → Tags
  | .drawing =>
    match o.queue.pop, g.queued with
    | some (.stopMarker, _), i :: rest =>
      { g with queued := rest, held := Function.update g.held caller (some i) }
    | _, _ => g
  | .returning _ =>
    { g with
      queued := g.queued ++ (g.held caller).toList
      held := Function.update g.held caller none }
  | .stopping =>
    { g with
      awaited := Function.update g.awaited caller o.queue.current?
      queued := g.queued ++ [caller] }
  | .joining => { g with lost := g.lost ++ (o.queue.current?.filter o.queue.isAlive).toList }
  | _ => g

/-- The tags after the next act. -/
def tag (o : Outbox) (g : Tags) : Act → Tags
  | .proceed caller =>
    match o.callers[caller]? with
    | some c => g.proceed o caller c.stage
    | none => g
  | .take worker =>
    match o.queue.take worker, g.queued with
    | some (.stopMarker, _), i :: rest =>
      { g with queued := rest, exits := g.exits ++ [(g.awaited i, worker)] }
    | _, _ => g
  | _ => g

/-- The tags after a run. -/
def tagged : List Act → Outbox → Tags → Tags
  | [], _, g => g
  | a :: acts, o, g => tagged acts (o.act a) (o.tag g a)

/-- No stop call is under way. -/
def isCalm (o : Outbox) : Bool := o.callers.all fun c => !c.stage.part.isStopCall

/-- Stop calls do not overlap, none is under way when a worker is started, and they do not return
before the worker that they wait for has ended. -/
def allows (o : Outbox) (g : Tags) : Act → Bool
  | .call .stop => o.isCalm
  | .start => o.queue.isRunning || o.isCalm
  | .proceed caller => o.part caller != .joining || !(g.awaited caller).any o.queue.isAlive
  | _ => true

/-- All acts of a run are of this kind. -/
def isTidy : List Act → Outbox → Tags → Bool
  | [], _, _ => true
  | a :: acts, o, g => o.allows g a && isTidy acts (o.act a) (o.tag g a)

/-! ## What can happen -/

/-- An outbox as far as workers and markers go. -/
structure Control where
  alive : Nat → Bool
  current? : Option Nat
  markers : Nat
  part : Nat → Part

/-- The control of an outbox. -/
def control (o : Outbox) : Control :=
  ⟨o.queue.isAlive, o.queue.current?, o.queue.items.count .stopMarker, o.part⟩

/-- No stop call is under way. -/
def Control.Calm (s : Control) : Prop := ∀ i, (s.part i).isStopCall = false

/-- All that an act can do to workers and markers, and what is more if it is allowed. -/
inductive Turn (allowed : Prop) (s : Control) (g : Tags) : Control → Tags → Prop where
  | rest : Turn allowed s g s g
  | asks {i w : Nat} (hi : s.part i = .bystander) (hcurrent : s.current? = some w)
      (hcalm : allowed → s.Calm) :
    Turn allowed s g { s with part := Function.update s.part i .stopping } g
  | starts {w : Nat} (hdead : ∀ v, s.current? = some v → s.alive v = false)
      (hcalm : allowed → s.Calm) :
    Turn allowed s g { s with alive := Function.update s.alive w true, current? := some w } g
  | marks {i : Nat} (hi : s.part i = .stopping) :
    Turn allowed s g
      { s with markers := s.markers + 1, part := Function.update s.part i .joining }
      { g with
        awaited := Function.update g.awaited i s.current?
        queued := g.queued ++ [i] }
  | draws {j i : Nat} {rest : List Nat} (hj : s.part j = .bystander)
      (hqueued : g.queued = i :: rest) :
    Turn allowed s g
      { s with markers := rest.length, part := Function.update s.part j .returning }
      { g with queued := rest, held := Function.update g.held j (some i) }
  | returns {j i : Nat} (hj : s.part j = .returning) (hheld : g.held j = some i) :
    Turn allowed s g
      { s with markers := s.markers + 1, part := Function.update s.part j .bystander }
      { g with queued := g.queued ++ [i], held := Function.update g.held j none }
  | forgets {i : Nat} (hi : s.part i = .joining)
      (hended : allowed → ∀ w, g.awaited i = some w → s.alive w = false) :
    Turn allowed s g
      { s with current? := none, part := Function.update s.part i .bystander }
      { g with lost := g.lost ++ (s.current?.filter s.alive).toList }
  | ends {w i : Nat} {rest : List Nat} (hw : s.alive w = true) (hqueued : g.queued = i :: rest) :
    Turn allowed s g
      { s with alive := Function.update s.alive w false, markers := rest.length }
      { g with queued := rest, exits := g.exits ++ [(g.awaited i, w)] }

/-- The tags are where the markers are. -/
structure Placed (s : Control) (g : Tags) : Prop where
  queued : s.markers = g.queued.length
  held : ∀ j, (g.held j).isSome = true ↔ s.part j = .returning

variable {o : Outbox} {g g' : Tags} {s s' : Control} {allowed : Prop}

theorem held_update {held : Nat → Option Nat} {part : Nat → Part}
    (h : ∀ j, (held j).isSome = true ↔ part j = .returning) (i : Nat) {b : Option Nat} {p : Part}
    (hb : b.isSome = true ↔ p = .returning) (j : Nat) :
    (Function.update held i b j).isSome = true ↔ Function.update part i p j = .returning := by
  rcases eq_or_ne j i with rfl | hj
  · rw [Function.update_self, Function.update_self]
    exact hb
  · rw [Function.update_of_ne hj, Function.update_of_ne hj]
    exact h j

/-- A caller who neither holds a marker nor comes to hold one. -/
theorem held_update_part {held : Nat → Option Nat} {part : Nat → Part}
    (h : ∀ j, (held j).isSome = true ↔ part j = .returning) {i : Nat} {p : Part}
    (hi : part i ≠ .returning) (hp : p ≠ .returning) (j : Nat) :
    (held j).isSome = true ↔ Function.update part i p j = .returning := by
  have hsame := held_update h i (b := held i) (p := p) (by
    rw [h i]
    exact iff_of_false hi hp) j
  rwa [Function.update_eq_self] at hsame

theorem Placed.turn (h : Placed s g) (ht : Turn allowed s g s' g') : Placed s' g' := by
  obtain ⟨hqueued, hheld⟩ := h
  have hlength : ∀ i : Nat, s.markers + 1 = (g.queued ++ [i]).length := by
    intro i
    rw [List.length_append, hqueued]
    rfl
  cases ht with
  | rest => exact ⟨hqueued, hheld⟩
  | starts => exact ⟨hqueued, hheld⟩
  | ends => exact ⟨rfl, hheld⟩
  | asks hi => exact ⟨hqueued, held_update_part hheld (by rw [hi]; decide) (by decide)⟩
  | marks hi => exact ⟨hlength _, held_update_part hheld (by rw [hi]; decide) (by decide)⟩
  | draws => exact ⟨rfl, held_update hheld _ (iff_of_true rfl rfl)⟩
  | returns => exact ⟨hlength _, held_update hheld _ (by decide)⟩
  | forgets hi => exact ⟨hqueued, held_update_part hheld (by rw [hi]; decide) (by decide)⟩

/-- Every worker that is alive is known to the queue or has been lost. -/
def Found (s : Control) (g : Tags) : Prop :=
  ∀ w, s.alive w = true → s.current? = some w ∨ w ∈ g.lost

theorem Found.turn (h : Found s g) (ht : Turn allowed s g s' g') : Found s' g' := by
  intro v hv
  cases ht with
  | @starts w hdead =>
    rcases eq_or_ne v w with rfl | hvw
    · exact .inl rfl
    · have hv : Function.update s.alive w true v = true := hv
      rw [Function.update_of_ne hvw] at hv
      refine .inr ((h v hv).resolve_left fun hcurrent => ?_)
      rw [hdead v hcurrent] at hv
      cases hv
  | forgets =>
    refine .inr ?_
    rcases h v hv with hcurrent | hlost
    · refine List.mem_append_right _ ?_
      rw [hcurrent, Option.filter_some, if_pos hv]
      exact List.mem_singleton_self v
    · exact List.mem_append_left _ hlost
  | @ends w =>
    rcases eq_or_ne v w with rfl | hvw
    · have hv : Function.update s.alive v false v = true := hv
      rw [Function.update_self] at hv
      cases hv
    · have hv : Function.update s.alive w false v = true := hv
      rw [Function.update_of_ne hvw] at hv
      exact h v hv
  | _ => exact h v hv

theorem Found.current {w : Nat} (h : Found s g) (hlost : g.lost = []) (hw : s.alive w = true) :
    s.current? = some w := by
  refine (h w hw).resolve_right ?_
  rw [hlost]
  exact List.not_mem_nil

/-! ## Stop calls one at a time -/

/-- A stop call is the only one that is under way. -/
def Control.Only (s : Control) (i : Nat) : Prop := ∀ k, k ≠ i → (s.part k).isStopCall = false

/-- No marker is anywhere. -/
def Tags.Bare (g : Tags) : Prop := g.queued = [] ∧ ∀ j, g.held j = none

/-- A stop call, the only one, waits for the worker that the queue knows of. -/
structure Joins (s : Control) (g : Tags) (i w : Nat) : Prop where
  part : s.part i = .joining
  only : s.Only i
  awaited : g.awaited i = some w
  current : s.current? = some w

/-- How far a stop call has come, if there is one. -/
inductive Course (s : Control) (g : Tags) : Prop where
  | calm (hcalm : s.Calm) (hbare : g.Bare)
      (halive : ∀ w, s.current? = some w → s.alive w = true)
  | asked {i w : Nat} (hi : s.part i = .stopping) (honly : s.Only i) (hbare : g.Bare)
      (hcurrent : s.current? = some w) (halive : s.alive w = true)
  | queued {i w : Nat} (hjoins : Joins s g i w) (halive : s.alive w = true)
      (hqueued : g.queued = [i]) (hheld : ∀ j, g.held j = none)
  | held {i j w : Nat} (hjoins : Joins s g i w) (halive : s.alive w = true)
      (hqueued : g.queued = []) (hheld : g.held j = some i)
      (hothers : ∀ k, k ≠ j → g.held k = none)
  | ended {i w : Nat} (hjoins : Joins s g i w) (hended : s.alive w = false) (hbare : g.Bare)

/-- What holds in a run in which stop calls come one after the other and are not cut short. -/
structure Stepwise (s : Control) (g : Tags) : Prop where
  exits : ∀ x ∈ g.exits, x.1 = some x.2
  lost : g.lost = []
  course : Course s g

section Stepwise

variable {i j k w : Nat} {p : Part} {rest : List Nat}

theorem Control.Calm.not_isStopCall (h : s.Calm) : ¬ (s.part i).isStopCall = true := by
  rw [h i]
  exact Bool.false_ne_true

theorem Control.Only.eq (h : s.Only i) (hk : (s.part k).isStopCall = true) : k = i := by
  by_contra hne
  rw [h k hne] at hk
  cases hk

/-- The part of another caller may become one that has nothing to do with stop calls, and that of
the caller itself any. -/
theorem Control.Only.update (h : s.Only i) (hp : j = i ∨ p.isStopCall = false) :
    ∀ k, k ≠ i → (Function.update s.part j p k).isStopCall = false := by
  intro k hk
  rcases eq_or_ne k j with rfl | hkj
  · rw [Function.update_self]
    exact hp.resolve_left hk
  · rw [Function.update_of_ne hkj]
    exact h k hk

/-- After a stop call that was the only one there is none. -/
theorem Control.Only.calm (h : s.Only i) (hp : p.isStopCall = false) :
    ∀ k, (Function.update s.part i p k).isStopCall = false := by
  intro k
  rcases eq_or_ne k i with rfl | hki
  · rw [Function.update_self]
    exact hp
  · rw [Function.update_of_ne hki]
    exact h k hki

/-- A draining caller takes a marker or puts one back. -/
theorem Joins.update (h : Joins s g i w) (hj : s.part j ≠ .joining) (hp : p.isStopCall = false)
    (markers : Nat) (queued : List Nat) (held : Nat → Option Nat) :
    Joins { s with markers := markers, part := Function.update s.part j p }
      { g with queued := queued, held := held } i w := by
  have hne : i ≠ j := by
    rintro rfl
    exact hj h.part
  exact ⟨(Function.update_of_ne hne ..).trans h.part, h.only.update (.inr hp), h.awaited, h.current⟩

theorem Course.of_calm (h : Course s g) (hcalm : s.Calm) :
    g.Bare ∧ ∀ w, s.current? = some w → s.alive w = true := by
  cases h with
  | calm _ hbare halive => exact ⟨hbare, halive⟩
  | asked hi => exact absurd (by rw [hi]; rfl) hcalm.not_isStopCall
  | queued hjoins | held hjoins | ended hjoins =>
    exact absurd (by rw [hjoins.part]; rfl) hcalm.not_isStopCall

theorem Course.of_stopping (h : Course s g) (hi : s.part i = .stopping) :
    s.Only i ∧ g.Bare ∧ ∃ w, s.current? = some w ∧ s.alive w = true := by
  have hstop : (s.part i).isStopCall = true := by rw [hi]; rfl
  cases h with
  | calm hcalm => exact absurd hstop hcalm.not_isStopCall
  | asked _ honly hbare hcurrent halive =>
    rw [honly.eq hstop]
    exact ⟨honly, hbare, _, hcurrent, halive⟩
  | queued hjoins | held hjoins | ended hjoins =>
    rw [hjoins.only.eq hstop, hjoins.part] at hi
    cases hi

theorem Course.of_joining (h : Course s g) (hi : s.part i = .joining) :
    ∃ w, Joins s g i w ∧
      (s.alive w = true → g.queued = [i] ∨ ∃ j, g.held j = some i) ∧
      (s.alive w = false → g.Bare) := by
  have hstop : (s.part i).isStopCall = true := by rw [hi]; rfl
  have hdead : ∀ {w}, s.alive w = true → ¬ s.alive w = false := fun halive hended => by
    rw [halive] at hended
    cases hended
  cases h with
  | calm hcalm => exact absurd hstop hcalm.not_isStopCall
  | asked hi' honly =>
    rw [honly.eq hstop, hi'] at hi
    cases hi
  | queued hjoins halive hqueued =>
    rw [hjoins.only.eq hstop]
    exact ⟨_, hjoins, fun _ => .inl hqueued, fun hended => absurd hended (hdead halive)⟩
  | held hjoins halive _ hheld =>
    rw [hjoins.only.eq hstop]
    exact ⟨_, hjoins, fun _ => .inr ⟨_, hheld⟩, fun hended => absurd hended (hdead halive)⟩
  | ended hjoins hended hbare =>
    rw [hjoins.only.eq hstop]
    exact ⟨_, hjoins, fun halive => absurd hended (hdead halive), fun _ => hbare⟩

/-- A marker in the queue is the only one, and its stop call waits for a worker that is alive. -/
theorem Course.of_queued (h : Course s g) (hqueued : g.queued = i :: rest) :
    rest = [] ∧ (∃ w, Joins s g i w ∧ s.alive w = true) ∧ ∀ j, g.held j = none := by
  cases h with
  | calm _ hbare | asked _ _ hbare | ended _ _ hbare =>
    rw [hbare.1] at hqueued
    cases hqueued
  | held _ _ hempty =>
    rw [hempty] at hqueued
    cases hqueued
  | queued hjoins halive hone hheld =>
    rw [hone] at hqueued
    obtain ⟨rfl, rfl⟩ := List.cons.inj hqueued
    exact ⟨rfl, ⟨_, hjoins, halive⟩, hheld⟩

/-- So is one that a draining caller has taken. -/
theorem Course.of_held (h : Course s g) (hheld : g.held j = some i) :
    g.queued = [] ∧ (∃ w, Joins s g i w ∧ s.alive w = true) ∧ ∀ k, k ≠ j → g.held k = none := by
  cases h with
  | calm _ hbare | asked _ _ hbare | ended _ _ hbare =>
    rw [hbare.2 j] at hheld
    cases hheld
  | queued _ _ _ hnone =>
    rw [hnone j] at hheld
    cases hheld
  | @held i' j' w hjoins halive hempty hheld' hothers =>
    have hj : j = j' := by
      by_contra hne
      rw [hothers j hne] at hheld
      cases hheld
    subst hj
    rw [hheld'] at hheld
    obtain rfl := Option.some.inj hheld
    exact ⟨hempty, ⟨_, hjoins, halive⟩, hothers⟩

theorem Stepwise.turn (h : Stepwise s g) (hfound : Found s g) (ht : Turn allowed s g s' g')
    (hallowed : allowed) : Stepwise s' g' := by
  obtain ⟨hexits, hlost, hcourse⟩ := h
  cases ht with
  | rest => exact ⟨hexits, hlost, hcourse⟩
  | @asks i _ _ hcurrent hcalm =>
    obtain ⟨hbare, halive⟩ := hcourse.of_calm (hcalm hallowed)
    have honly : s.Only i := fun k _ => hcalm hallowed k
    exact ⟨hexits, hlost, .asked (Function.update_self ..) (honly.update (.inl rfl)) hbare hcurrent
      (halive _ hcurrent)⟩
  | starts _ hcalm =>
    obtain ⟨hbare, -⟩ := hcourse.of_calm (hcalm hallowed)
    refine ⟨hexits, hlost, .calm (hcalm hallowed) hbare fun v hv => ?_⟩
    obtain rfl := Option.some.inj hv
    exact Function.update_self ..
  | @marks i hi =>
    obtain ⟨honly, ⟨hnone, hheld⟩, w, hcurrent, halive⟩ := hcourse.of_stopping hi
    have hone : g.queued ++ [i] = [i] := by rw [hnone, List.nil_append]
    exact ⟨hexits, hlost, .queued ⟨Function.update_self .., honly.update (.inl rfl),
      (Function.update_self ..).trans hcurrent, hcurrent⟩ halive hone hheld⟩
  | draws hj hqueued =>
    obtain ⟨rfl, ⟨w, hjoins, halive⟩, hheld⟩ := hcourse.of_queued hqueued
    refine ⟨hexits, hlost, .held (hjoins.update (by rw [hj]; decide) rfl ..) halive rfl
      (Function.update_self ..) fun k hk => ?_⟩
    exact (Function.update_of_ne hk ..).trans (hheld k)
  | @returns j i hj hheld =>
    obtain ⟨hnone, ⟨w, hjoins, halive⟩, hothers⟩ := hcourse.of_held hheld
    have hone : g.queued ++ [i] = [i] := by rw [hnone, List.nil_append]
    refine ⟨hexits, hlost, .queued (hjoins.update (by rw [hj]; decide) rfl ..) halive hone
      fun k => ?_⟩
    rcases eq_or_ne k j with rfl | hk
    · exact Function.update_self ..
    · exact (Function.update_of_ne hk ..).trans (hothers k hk)
  | forgets hi hended =>
    obtain ⟨w, hjoins, -, hbare⟩ := hcourse.of_joining hi
    have hdead := hended hallowed w hjoins.awaited
    have hnone : g.lost ++ (s.current?.filter s.alive).toList = [] := by
      rw [hlost, hjoins.current, Option.filter_some, hdead]
      rfl
    exact ⟨hexits, hnone, .calm (hjoins.only.calm rfl) (hbare hdead) fun v hv => by cases hv⟩
  | @ends v i _ hv hqueued =>
    obtain ⟨rfl, ⟨w, hjoins, halive⟩, hheld⟩ := hcourse.of_queued hqueued
    -- the worker that takes the marker is the one that the queue knows of, as none is lost
    have hcurrent := hfound.current hlost hv
    obtain rfl : w = v := Option.some.inj (hjoins.current.symm.trans hcurrent)
    refine ⟨fun x hx => ?_, hlost, .ended ⟨hjoins.part, hjoins.only, hjoins.awaited, hcurrent⟩
      (Function.update_self ..) ⟨rfl, hheld⟩⟩
    rcases List.mem_append.mp hx with hx | hx
    · exact hexits x hx
    · rw [List.mem_singleton.mp hx]
      exact hjoins.awaited

end Stepwise

/-! ## What the acts are -/

section Acts

open Deletion.Queue (pop_eq_some take_eq_some)

variable {q q' : Deletion.Queue} {i w : Nat} {c : Caller} {stage : Stage}

theorem getElem?_set_eq_update {α : Type} {xs : List α} {y : α} (h : xs[i]? = some y) (x : α) :
    (fun k => (xs.set i x)[k]?) = Function.update (fun k => xs[k]?) i (some x) := by
  funext k
  rcases eq_or_ne k i with rfl | hki
  · rw [Function.update_self, List.getElem?_set_self (List.getElem?_eq_some_iff.mp h).1]
  · rw [Function.update_of_ne hki, List.getElem?_set_ne hki.symm]

theorem getElem?_concat_eq_update {α : Type} (xs : List α) (x : α) :
    (fun k => (xs ++ [x])[k]?) = Function.update (fun k => xs[k]?) xs.length (some x) := by
  funext k
  rcases Nat.lt_trichotomy k xs.length with hlt | rfl | hgt
  · rw [Function.update_of_ne (Nat.ne_of_lt hlt), List.getElem?_append_left hlt]
  · rw [Function.update_self, List.getElem?_concat_length]
  · rw [Function.update_of_ne (Nat.ne_of_gt hgt), List.getElem?_eq_none (Nat.le_of_lt hgt),
      List.getElem?_eq_none (by simp; omega)]

theorem isAlive_eq (q : Deletion.Queue) :
    q.isAlive = Option.any (· != .ended) ∘ fun w => q.workers[w]? := by
  funext w
  unfold Deletion.Queue.isAlive
  dsimp only [Function.comp_apply]
  cases q.workers[w]? with
  | none => rfl
  | some a => cases a <;> rfl

theorem isAlive_congr (h : q'.workers = q.workers) : q'.isAlive = q.isAlive := by
  rw [isAlive_eq, isAlive_eq, h]

theorem isAlive_of_activity {a : Activity} (h : q.workers[w]? = some a) :
    q.isAlive w = (a != .ended) := by
  rw [isAlive_eq, Function.comp_apply, h]
  rfl

/-- A worker takes up another activity. -/
theorem isAlive_set {a b : Activity} (ha : q.workers[w]? = some a)
    (h : q'.workers = q.workers.set w b) :
    q'.isAlive = Function.update q.isAlive w (b != .ended) := by
  rw [isAlive_eq, isAlive_eq, h, getElem?_set_eq_update ha, Function.comp_update]
  rfl

/-- A worker that goes on stays alive. -/
theorem isAlive_of_goesOn {a b : Activity} (ha : q.workers[w]? = some a)
    (h : q'.workers = q.workers.set w b) (hlive : (b != .ended) = (a != .ended)) :
    q'.isAlive = q.isAlive := by
  rw [isAlive_set ha h, hlive, ← isAlive_of_activity ha, Function.update_eq_self]

theorem isAlive_started (h : q'.workers = q.workers ++ [.idle]) :
    q'.isAlive = Function.update q.isAlive q.workers.length true := by
  rw [isAlive_eq, isAlive_eq, h, getElem?_concat_eq_update, Function.comp_update]
  rfl

theorem take_current {item : Item} (h : q.take w = some (item, q')) : q'.current? = q.current? := by
  unfold Deletion.Queue.take at h
  split at h
  · cases h
    rfl
  · cases h
    rfl
  · cases h

theorem part_eq (o : Outbox) : o.part =
    (fun c : Option Caller => c.elim .bystander fun c => c.stage.part) ∘ fun k => o.callers[k]? :=
  rfl

theorem part_of_some (hc : o.callers[i]? = some c) : o.part i = c.stage.part := by
  rw [part_eq, Function.comp_apply, hc]
  rfl

theorem part_length (o : Outbox) : o.part o.callers.length = .bystander := by
  rw [part_eq, Function.comp_apply, List.getElem?_eq_none (Nat.le_refl _)]
  rfl

theorem part_advance {o' : Outbox} (hcallers : o'.callers = o.callers)
    (hc : o.callers[i]? = some c) :
    (o'.advance i c stage).part = Function.update o.part i stage.part := by
  have hset : (o'.advance i c stage).callers = o.callers.set i { c with stage := stage } := by
    rw [← hcallers]
    rfl
  rw [part_eq, part_eq, hset, getElem?_set_eq_update hc, Function.comp_update]
  rfl

theorem part_call (o : Outbox) (task : Task) : (o.act (.call task)).part =
    Function.update o.part o.callers.length (task.begin o.queue).part := by
  have hcallers : (o.act (.call task)).callers = o.callers ++ [⟨task, task.begin o.queue⟩] := rfl
  rw [part_eq, part_eq, hcallers, getElem?_concat_eq_update, Function.comp_update]
  rfl

theorem calm_of_isCalm (h : o.isCalm = true) : o.control.Calm := by
  intro i
  show (o.part i).isStopCall = false
  cases hc : o.callers[i]? with
  | none =>
    unfold part
    rw [hc]
    rfl
  | some c =>
    have hstage := List.all_eq_true.mp h c (List.mem_of_getElem? hc)
    rw [part_of_some hc]
    simpa using hstage

/-- A marker that is taken has a tag. -/
theorem Placed.of_marker (h : Placed o.control g) (hitems : o.queue.items = .stopMarker :: q.items) :
    ∃ i rest, g.queued = i :: rest ∧ q.items.count .stopMarker = rest.length := by
  have hqueued : o.queue.items.count .stopMarker = g.queued.length := h.queued
  rw [hitems, List.count_cons_self] at hqueued
  cases hg : g.queued with
  | nil =>
    rw [hg] at hqueued
    cases hqueued
  | cons i rest =>
    rw [hg] at hqueued
    exact ⟨i, rest, rfl, Nat.succ.inj hqueued⟩

theorem control_eq {alive : Nat → Bool} {current? : Option Nat} {markers : Nat} {part : Nat → Part}
    (halive : o.queue.isAlive = alive) (hcurrent : o.queue.current? = current?)
    (hmarkers : o.queue.items.count .stopMarker = markers) (hpart : o.part = part) :
    o.control = ⟨alive, current?, markers, part⟩ := by
  subst halive hcurrent hmarkers hpart
  rfl

/-- A caller who has to do with no markers comes to another stage of this kind, and the queue has
the workers and the markers that it had. -/
theorem rest_of_quiet {o' : Outbox} (hc : o.callers[i]? = some c)
    (hcallers : o'.callers = o.callers) (hworkers : o'.queue.workers = o.queue.workers)
    (hcurrent : o'.queue.current? = o.queue.current?)
    (hmarkers : o'.queue.items.count .stopMarker = o.queue.items.count .stopMarker)
    (hpart : stage.part = c.stage.part) :
    Turn allowed o.control g (o'.advance i c stage).control g := by
  have hsame : (o'.advance i c stage).control = o.control := by
    refine control_eq (isAlive_congr hworkers) hcurrent hmarkers ?_
    rw [part_advance hcallers hc, hpart, ← part_of_some hc, Function.update_eq_self]
  rw [hsame]
  exact .rest

theorem asks_of_call (task : Task) :
    Turn (o.allows g (.call task) = true) o.control g (o.act (.call task)).control g := by
  have hpart := part_call o task
  have hlast := part_length o
  have hrest : (task.begin o.queue).part = .bystander →
      Turn (o.allows g (.call task) = true) o.control g (o.act (.call task)).control g := by
    intro hbystander
    have hsame : (o.act (.call task)).control = o.control := by
      refine control_eq rfl rfl rfl ?_
      rw [hpart, hbystander, ← hlast, Function.update_eq_self]
    rw [hsame]
    exact .rest
  cases task with
  | enqueue | drain => exact hrest rfl
  | stop =>
    cases hcurrent : o.queue.current? with
    | none =>
      refine hrest ?_
      unfold Task.begin
      rw [hcurrent]
      rfl
    | some w =>
      have hbegin : (Task.stop.begin o.queue).part = .stopping := by
        unfold Task.begin
        rw [hcurrent]
        rfl
      rw [hbegin] at hpart
      have hasks : (o.act (.call .stop)).control =
          { o.control with part := Function.update o.part o.callers.length .stopping } :=
        control_eq rfl rfl rfl hpart
      rw [hasks]
      exact .asks hlast hcurrent calm_of_isCalm

theorem starts_of_start : Turn (o.allows g .start = true) o.control g (o.act .start).control g := by
  cases hrunning : o.queue.isRunning with
  | true =>
    have hsame : o.act .start = o := by
      unfold act Deletion.Queue.start
      rw [if_pos hrunning]
      rfl
    rw [hsame]
    exact .rest
  | false =>
    have hqueue : (o.act .start).queue =
        { o.queue with
          workers := o.queue.workers ++ [.idle]
          current? := some o.queue.workers.length } := by
      show o.queue.start = _
      unfold Deletion.Queue.start
      rw [hrunning, if_neg Bool.false_ne_true]
    have hstarts : (o.act .start).control =
        { o.control with
          alive := Function.update o.queue.isAlive o.queue.workers.length true
          current? := some o.queue.workers.length } :=
      control_eq (isAlive_started (by rw [hqueue])) (by rw [hqueue]) (by rw [hqueue]; rfl) rfl
    rw [hstarts]
    refine .starts (fun v hv => ?_) fun hallowed => ?_
    · unfold Deletion.Queue.isRunning at hrunning
      rw [show o.queue.current? = some v from hv] at hrunning
      exact hrunning
    · unfold allows at hallowed
      rw [hrunning] at hallowed
      exact calm_of_isCalm hallowed

theorem count_put_marker (q : Deletion.Queue) :
    (q.put .stopMarker).items.count .stopMarker = q.items.count .stopMarker + 1 := by
  unfold Deletion.Queue.put
  rw [List.count_append, List.count_singleton_self]

theorem count_put_request (q : Deletion.Queue) (d : Deletion) :
    (q.put (.request d)).items.count .stopMarker = q.items.count .stopMarker := by
  unfold Deletion.Queue.put
  rw [List.count_append]
  rfl

theorem count_of_request {d : Deletion} (h : q.items = .request d :: q'.items) :
    q'.items.count .stopMarker = q.items.count .stopMarker := by
  rw [h, List.count_cons_of_ne Item.noConfusion]

theorem queue_handle (o : Outbox) (d : Deletion) : (o.handle d).queue = o.queue :=
  queue_delete d o.world

/-- What a caller can do by going on. -/
theorem Placed.turn_proceed (h : Placed o.control g) (hc : o.callers[i]? = some c) :
    Turn (o.allows g (.proceed i) = true) o.control g (o.proceed i c).control
      (g.proceed o i c.stage) := by
  have hpart := part_of_some hc
  unfold proceed Tags.proceed
  cases hstage : c.stage with
  | finished => exact .rest
  | adding left =>
    cases left with
    | nil => exact rest_of_quiet hc rfl rfl rfl rfl (by rw [hstage]; rfl)
    | cons d rest =>
      exact rest_of_quiet hc rfl rfl rfl (count_put_request o.queue d) (by rw [hstage]; rfl)
  | deleting d =>
    have hqueue := queue_handle o d
    exact rest_of_quiet hc rfl (by rw [hqueue]) (by rw [hqueue]) (by rw [hqueue])
      (by rw [hstage]; rfl)
  | drawing =>
    rw [hstage] at hpart
    cases hpop : o.queue.pop with
    | none => exact rest_of_quiet hc rfl rfl rfl rfl (by rw [hstage]; rfl)
    | some taken =>
      obtain ⟨item, q⟩ := taken
      obtain ⟨hitems, hworkers, hcurrent⟩ := pop_eq_some hpop
      cases item with
      | request d =>
        exact rest_of_quiet hc rfl hworkers hcurrent (count_of_request hitems)
          (by rw [hstage]; rfl)
      | stopMarker =>
        obtain ⟨k, rest, hqueued, hcount⟩ := h.of_marker hitems
        have hdraws : ((o.takeMarker q).advance i c (.returning o.firstMark)).control =
            { o.control with
              markers := rest.length
              part := Function.update o.part i .returning } :=
          control_eq (isAlive_congr hworkers) hcurrent hcount (part_advance rfl hc)
        dsimp only
        rw [hdraws, hqueued]
        exact .draws hpart hqueued
  | returning mark =>
    rw [hstage] at hpart
    obtain ⟨k, hheld⟩ := Option.isSome_iff_exists.mp ((h.held i).mpr hpart)
    have hreturns : ((o.addMarker mark).advance i c .finished).control =
        { o.control with
          markers := o.control.markers + 1
          part := Function.update o.part i .bystander } :=
      control_eq rfl rfl (count_put_marker o.queue) (part_advance rfl hc)
    dsimp only
    rw [hreturns, hheld]
    exact .returns hpart hheld
  | stopping =>
    rw [hstage] at hpart
    have hmarks : ({ o.addMarker o.added with
          history.stops := o.history.stops ++ [o.added] }.advance i c .joining).control =
        { o.control with
          markers := o.control.markers + 1
          part := Function.update o.part i .joining } :=
      control_eq rfl rfl (count_put_marker o.queue) (part_advance rfl hc)
    dsimp only
    rw [hmarks]
    exact .marks hpart
  | joining =>
    rw [hstage] at hpart
    have hforgets : ((o.withQueue o.queue.forget).advance i c .finished).control =
        { o.control with current? := none, part := Function.update o.part i .bystander } :=
      control_eq rfl rfl rfl (part_advance rfl hc)
    dsimp only
    rw [hforgets]
    refine .forgets hpart fun hallowed w hawaited => ?_
    unfold allows at hallowed
    dsimp only at hallowed
    rw [hpart, hawaited] at hallowed
    exact Bool.not_eq_true' _ |>.mp hallowed

/-- What a worker can do by taking an item. -/
theorem Placed.turn_take (h : Placed o.control g) (w : Nat) :
    Turn allowed o.control g (o.act (.take w)).control (o.tag g (.take w)) := by
  unfold act tag
  dsimp only
  cases htake : o.queue.take w with
  | none => exact .rest
  | some taken =>
    obtain ⟨item, q⟩ := taken
    obtain ⟨hitems, hidle, hworkers⟩ := take_eq_some htake
    have hcurrent := take_current htake
    cases item with
    | request d =>
      have hsame : (o.takeRequest d q).control = o.control :=
        control_eq (isAlive_of_goesOn hidle hworkers rfl) hcurrent (count_of_request hitems) rfl
      dsimp only
      rw [hsame]
      exact .rest
    | stopMarker =>
      obtain ⟨k, rest, hqueued, hcount⟩ := h.of_marker hitems
      have hends : (o.exit q).control =
          { o.control with
            alive := Function.update o.queue.isAlive w false
            markers := rest.length } :=
        control_eq (isAlive_set hidle hworkers) hcurrent hcount rfl
      have halive : o.queue.isAlive w = true := isAlive_of_activity hidle
      dsimp only
      rw [hends, hqueued]
      exact .ends halive hqueued

/-- A worker that has deleted its segment is as alive as before. -/
theorem rest_of_work (w : Nat) : Turn allowed o.control g (o.act (.work w)).control g := by
  unfold act
  dsimp only
  split
  · rename_i d hbusy
    have hqueue : ((o.withQueue (o.queue.finish w)).handle d).queue =
        o.queue.setActivity w .idle := by
      rw [queue_handle]
      show o.queue.finish w = _
      unfold Deletion.Queue.finish
      rw [hbusy]
    have halive : (o.queue.setActivity w .idle).isAlive = o.queue.isAlive :=
      isAlive_of_goesOn hbusy rfl rfl
    have hsame : ((o.withQueue (o.queue.finish w)).handle d).control = o.control :=
      control_eq (by rw [hqueue, halive]) (by rw [hqueue]; rfl) (by rw [hqueue]; rfl) rfl
    rw [hsame]
    exact .rest
  · exact .rest

/-- What can happen, and what is more if it is allowed. -/
theorem Placed.turn_act (h : Placed o.control g) (a : Act) :
    Turn (o.allows g a = true) o.control g (o.act a).control (o.tag g a) := by
  cases a with
  | call task => exact asks_of_call task
  | start => exact starts_of_start
  | take w => exact h.turn_take w
  | work w => exact rest_of_work w
  | proceed i =>
    cases hc : o.callers[i]? with
    | none => 
      unfold act tag
      dsimp only
      rw [hc]
      exact .rest
    | some c =>
      have htag : o.tag g (.proceed i) = g.proceed o i c.stage := by
        unfold tag
        dsimp only
        rw [hc]
      rw [act_proceed hc, htag]
      exact h.turn_proceed hc

end Acts

/-! ## Runs -/

theorem placed_opened (w : World) : Placed (opened w).control .blank := by
  refine ⟨rfl, fun j => iff_of_false Bool.false_ne_true ?_⟩
  show (opened w).part j ≠ .returning
  unfold part opened
  rw [List.getElem?_nil]
  decide

theorem Placed.run (h : Placed o.control g) (acts : List Act) :
    Placed (o.run acts).control (tagged acts o g) := by
  induction acts generalizing o g with
  | nil => exact h
  | cons a acts ih => exact ih (h.turn (h.turn_act a))

theorem Found.run (h : Found o.control g) (hplaced : Placed o.control g) (acts : List Act) :
    Found (o.run acts).control (tagged acts o g) := by
  induction acts generalizing o g with
  | nil => exact h
  | cons a acts ih =>
    have hturn := hplaced.turn_act a
    exact ih (h.turn hturn) (hplaced.turn hturn)

theorem Stepwise.run (h : Stepwise o.control g) (hplaced : Placed o.control g)
    (hfound : Found o.control g) {acts : List Act} (htidy : isTidy acts o g = true) :
    Stepwise (o.run acts).control (tagged acts o g) := by
  induction acts generalizing o g with
  | nil => exact h
  | cons a acts ih =>
    have hturn := hplaced.turn_act a
    obtain ⟨hallowed, hrest⟩ := Bool.and_eq_true_iff.mp htidy
    exact ih (h.turn hfound hturn hallowed) (hplaced.turn hturn) (hfound.turn hturn) hrest

theorem found_opened (w : World) : Found (opened w).control .blank := by
  intro v hv
  have hdead : (opened w).control.alive v = false := by
    show (opened w).queue.isAlive v = false
    rw [isAlive_eq]
    rfl
  rw [hdead] at hv
  cases hv

theorem stepwise_opened (w : World) : Stepwise (opened w).control .blank := by
  refine ⟨fun x hx => ?_, rfl, .calm (calm_of_isCalm rfl) ⟨rfl, fun _ => rfl⟩ fun v hv => ?_⟩
  · cases hx
  · cases hv

/-- The workers that are alive are the one that the queue knows of and those that a stop call has
forgotten while they were alive. Where stop calls come one after the other and none is cut short,
at most one worker is alive, a marker ends the worker that its stop call waits for, and as long as
that worker is alive the marker stands in the queue or a draining caller is about to put it back. -/
theorem one_worker (w : World) (acts : List Act) :
    let o := (opened w).run acts
    let g := tagged acts (opened w) .blank
    (∀ v, o.queue.isAlive v = true → o.queue.current? = some v ∨ v ∈ g.lost) ∧
      (isTidy acts (opened w) .blank = true →
        (∀ v v', o.queue.isAlive v = true → o.queue.isAlive v' = true → v = v') ∧
          (∀ x ∈ g.exits, x.1 = some x.2) ∧
          ∀ i, o.part i = .joining → ∃ v, g.awaited i = some v ∧
            (o.queue.isAlive v = true →
              Item.stopMarker ∈ o.queue.items ∧ g.queued = [i] ∨
                ∃ j, o.part j = .returning ∧ g.held j = some i)) := by
  intro o g
  have hplaced : Placed o.control g := (placed_opened w).run acts
  have hfound : Found o.control g := (found_opened w).run (placed_opened w) acts
  refine ⟨hfound, fun htidy => ?_⟩
  have hstepwise : Stepwise o.control g :=
    (stepwise_opened w).run (placed_opened w) (found_opened w) htidy
  refine ⟨fun v v' hv hv' => ?_, hstepwise.exits, fun i hi => ?_⟩
  · have hcurrent := hfound.current hstepwise.lost hv
    exact Option.some.inj (hcurrent.symm.trans (hfound.current hstepwise.lost hv'))
  · obtain ⟨v, hjoins, hmarker, -⟩ := hstepwise.course.of_joining hi
    refine ⟨v, hjoins.awaited, fun hv => (hmarker hv).imp (fun hqueued => ⟨?_, hqueued⟩) ?_⟩
    · have hcount : o.queue.items.count .stopMarker = g.queued.length := hplaced.queued
      rw [hqueued] at hcount
      exact List.count_pos_iff.mp (by rw [hcount]; exact Nat.one_pos)
    · rintro ⟨j, hj⟩
      exact ⟨j, (hplaced.held j).mp (by rw [hj]; rfl), hj⟩

/-- A drain takes the marker before the worker does. -/
theorem one_worker_drained :
    let w := World.create .default ⟨[]⟩ (.memory .empty)
    let acts : List Act := [.start, .call (.enqueue "t" ["a"] "r"), .proceed 0, .take 0, .call .stop,
      .proceed 1, .call .drain, .proceed 2, .work 0]
    isTidy acts (opened w) .blank = true ∧
      ((opened w).run acts).part 1 = .joining ∧
      ∃ v, (tagged acts (opened w) .blank).awaited 1 = some v ∧
        (((opened w).run acts).queue.isAlive v = true →
          Item.stopMarker ∈ ((opened w).run acts).queue.items ∧
              (tagged acts (opened w) .blank).queued = [1] ∨
            ∃ j, ((opened w).run acts).part j = .returning ∧
              (tagged acts (opened w) .blank).held j = some 1) := by
  intro w acts
  have htidy : isTidy acts (opened w) .blank = true := by decide +kernel
  have hjoining : ((opened w).run acts).part 1 = .joining := by decide +kernel
  exact ⟨htidy, hjoining, ((one_worker w acts).2 htidy).2.2 1 hjoining⟩

/-- A stop call gives up a worker that is deleting, and another worker is started. The new worker
takes the marker of the old one, and the old one the marker of a later stop call, which is left
waiting for a worker that no marker will reach. -/
theorem forgotten_worker_takes_marker :
    let w := World.create .default ⟨[]⟩ (.memory .empty)
    let first : List Act := [.start, .call (.enqueue "t" ["a"] "r"), .proceed 0, .take 0, .call .stop,
      .proceed 1, .proceed 1, .start]
    let acts : List Act := first ++ [.take 1, .work 0, .start, .call .stop, .proceed 2, .take 0]
    -- there are two workers
    (((opened w).run first).queue.isAlive 0 = true ∧
        ((opened w).run first).queue.isAlive 1 = true) ∧
      -- each of them ends on a marker for another one
      (tagged acts (opened w) .blank).exits = [(some 0, 1), (some 2, 0)] ∧
      -- and no marker is left for the third, which a stop call waits for
      ((opened w).run acts).part 2 = .joining ∧
      (tagged acts (opened w) .blank).awaited 2 = some 2 ∧
      ((opened w).run acts).queue.workers[2]? = some .idle ∧
      ((opened w).run acts).queue.items = [] ∧
      (((opened w).run acts).callers.all fun c => c.stage.part != .returning) = true := by
  decide +kernel

end Outbox

end SegmentSwap
