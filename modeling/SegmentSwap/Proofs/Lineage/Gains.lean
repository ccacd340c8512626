import SegmentSwap.Proofs.Protocol.Checks

/-!
# Lineages that starts have added to

Starts add entries to a lineage, and forced ones make entries in progress yield to them. None of this
stands in the way of another start, as long as its targets are other ones and nobody competes for its
sources: what was served is still served, and what was free is still free. A start whose sources
are claimed by one of the added entries is turned down for exactly these.
-/

namespace SegmentSwap

theorem exists_of_forall₂ {α β : Type} {R : α → β → Prop} {xs : List α} {ys : List β} {y : β}
    (h : List.Forall₂ R xs ys) (hy : y ∈ ys) : ∃ x ∈ xs, R x y := by
  induction h with
  | nil => cases hy
  | @cons a b xs ys hab _ ih =>
    rcases List.mem_cons.mp hy with rfl | hy
    · exact ⟨a, List.mem_cons_self, hab⟩
    · obtain ⟨x, hx, hxy⟩ := ih hy
      exact ⟨x, List.mem_cons_of_mem a hx, hxy⟩

/-- What becomes of an entry by starts, the forced ones of which claim some sources: it is kept, or
it is in progress and competes for claimed sources, and is reverted. -/
inductive Entry.Yields (claims : List (List Text)) (e : Entry) : Entry → Prop where
  | kept : Yields claims e e
  | reverted {sources : List Text} (stamp : Text) (hrun : e.state = .inProgress)
      (hclaim : sources ∈ claims) (hoverlap : overlaps e.sources sources = true) :
    Yields claims e (e.moved .reverted stamp)

namespace Entry.Yields

variable {claims : List (List Text)} {e e' : Entry} {xs ys : List Entry}

theorem eq_of_running (h : e.Yields claims e') (hrun : e'.state = .inProgress) : e' = e := by
  cases h with
  | kept => rfl
  | reverted => cases hrun

theorem targets (h : e.Yields claims e') : e'.targets = e.targets := by
  cases h <;> rfl

theorem id (h : e.Yields claims e') : e'.id = e.id := by
  cases h <;> rfl

theorem completed_iff (h : e.Yields claims e') :
    e'.state = .completed ↔ e.state = .completed ∧ e' = e := by
  cases h with
  | kept => simp
  | reverted _ hrun => simp [hrun, Entry.moved]

/-- A live entry was as live before it might have yielded. -/
theorem eq_of_live (h : e.Yields claims e') (hlive : e'.state.isLive = true) : e' = e := by
  cases h with
  | kept => rfl
  | reverted => cases hlive

/-- Where nobody competes for claimed sources, nothing yields. -/
theorem forall₂_eq (h : List.Forall₂ (Yields claims) xs ys)
    (hnone : ∀ e ∈ xs, e.state = .inProgress → ∀ sources ∈ claims,
      overlaps e.sources sources = false) : ys = xs := by
  induction h with
  | nil => rfl
  | @cons x y xs ys hyields _ ih =>
    rw [ih fun e he => hnone e (List.mem_cons_of_mem x he)]
    cases hyields with
    | kept => rfl
    | reverted _ hrun hclaim hoverlap =>
      rw [hnone x List.mem_cons_self hrun _ hclaim] at hoverlap
      cases hoverlap

theorem ids_eq (h : List.Forall₂ (Yields claims) xs ys) :
    ys.map Entry.id = xs.map Entry.id := by
  induction h with
  | nil => rfl
  | cons hyields _ ih => rw [List.map_cons, List.map_cons, hyields.id, ih]

end Entry.Yields

namespace Lineage

/-- One lineage is another one with entries in progress at its end, which others may have yielded
to. -/
structure Gains (l : Lineage) (claims : List (List Text)) (added : List Entry) (l' : Lineage) :
    Prop where
  running : ∀ x ∈ added, x.state = .inProgress
  entries : ∃ base, List.Forall₂ (Entry.Yields claims) l.entries base ∧ l'.entries = base ++ added

namespace Gains

variable {l l' mid l'' : Lineage} {claims : List (List Text)} {added : List Entry} {e : Entry}
  {s : Text} {sources targets registered : List Text} {force : Bool} {c : Call}

theorem refl (l : Lineage) (claims : List (List Text)) : l.Gains claims [] l := by
  refine ⟨fun x hx => absurd hx List.not_mem_nil, l.entries, ?_, (List.append_nil _).symm⟩
  exact List.forall₂_same.mpr fun x _ => .kept

/-- If the claimed sources have no rivals, the entries from before are all kept. -/
theorem entries_eq (h : l.Gains claims added l') (hnone : ∀ sources ∈ claims, l.rivals sources = []) :
    l'.entries = l.entries ++ added := by
  obtain ⟨base, hyields, hentries⟩ := h.entries
  rw [hentries, Entry.Yields.forall₂_eq hyields]
  intro e he hrun sources hclaim
  by_contra hoverlap
  have hoverlap : overlaps e.sources sources = true := by simpa using hoverlap
  have hrival := mem_rivals.mpr ⟨Lineage.mem_running.mpr ⟨he, hrun⟩, hoverlap⟩
  rw [hnone sources hclaim] at hrival
  cases hrival

theorem ids_eq (h : l.Gains claims added l') : l'.ids = l.ids ++ added.map Entry.id := by
  obtain ⟨base, hyields, hentries⟩ := h.entries
  unfold ids
  rw [hentries, List.map_append, Entry.Yields.ids_eq hyields]

theorem mem_completed (h : l.Gains claims added l') : e ∈ l'.completed ↔ e ∈ l.completed := by
  obtain ⟨base, hyields, hentries⟩ := h.entries
  rw [Lineage.mem_completed, Lineage.mem_completed, hentries, List.mem_append]
  constructor
  · rintro ⟨he | he, hstate⟩
    · obtain ⟨x, hx, hyield⟩ := exists_of_forall₂ hyields he
      obtain ⟨-, rfl⟩ := hyield.completed_iff.mp hstate
      exact ⟨hx, hstate⟩
    · rw [h.running e he] at hstate
      cases hstate
  · rintro ⟨he, hstate⟩
    obtain ⟨x, hx, hyield⟩ := exists_of_forall₂ hyields.flip he
    cases hyield with
    | kept => exact ⟨.inl hx, hstate⟩
    | reverted _ hrun =>
      rw [hrun] at hstate
      cases hstate

theorem mem_unpublished (h : l.Gains claims added l') :
    s ∈ l'.unpublished ↔ s ∈ l.unpublished ∨ ∃ x ∈ added, s ∈ x.targets := by
  obtain ⟨base, hyields, hentries⟩ := h.entries
  rw [Lineage.mem_unpublished, Lineage.mem_unpublished, hentries]
  constructor
  · rintro ⟨y, hy, hne, hs⟩
    rcases List.mem_append.mp hy with hy | hy
    · obtain ⟨x, hx, hyield⟩ := exists_of_forall₂ hyields hy
      rw [hyield.targets] at hs
      refine .inl ⟨x, hx, fun hstate => ?_, hs⟩
      cases hyield with
      | kept => exact hne hstate
      | reverted _ hrun =>
        rw [hrun] at hstate
        cases hstate
    · exact .inr ⟨y, hy, hs⟩
  · rintro (⟨x, hx, hne, hs⟩ | ⟨x, hx, hs⟩)
    · obtain ⟨y, hy, hyield⟩ := exists_of_forall₂ hyields.flip hx
      refine ⟨y, List.mem_append_left added hy, fun hstate => ?_, by rw [hyield.targets]; exact hs⟩
      exact hne (hyield.completed_iff.mp hstate).1
    · refine ⟨x, List.mem_append_right base hx, ?_, hs⟩
      rw [h.running x hx]
      decide

/-- Only the targets of the added entries may be exposed differently. -/
theorem exposes_eq (h : l.Gains claims added l') (hs : ∀ x ∈ added, s ∉ x.targets) :
    l'.exposes s = l.exposes s := by
  have hadded : ¬ ∃ x ∈ added, s ∈ x.targets := fun ⟨x, hx, hmem⟩ => hs x hx hmem
  rw [Bool.eq_iff_iff, exposes_iff, exposes_iff, mem_retired, mem_retired, mem_published,
    mem_published, h.mem_unpublished]
  simp only [h.mem_completed, hadded, or_false]

/-- Who had no rivals before has those among the added entries. -/
theorem rivals_eq (h : l.Gains claims added l') (hnone : l.rivals sources = []) :
    l'.rivals sources = added.filter fun x => overlaps x.sources sources := by
  obtain ⟨base, hyields, hentries⟩ := h.entries
  have hbase : (base.filter fun x => decide (x.state = .inProgress)).filter
      (fun x => overlaps x.sources sources) = [] := by
    refine List.eq_nil_iff_forall_not_mem.mpr fun y hy => ?_
    simp only [List.mem_filter, decide_eq_true_eq] at hy
    obtain ⟨⟨hmem, hstate⟩, hoverlap⟩ := hy
    obtain ⟨x, hx, hyield⟩ := exists_of_forall₂ hyields hmem
    obtain rfl := hyield.eq_of_running hstate
    have hrival := mem_rivals.mpr ⟨Lineage.mem_running.mpr ⟨hx, hstate⟩, hoverlap⟩
    rw [hnone] at hrival
    cases hrival
  have hadded : added.filter (fun x => decide (x.state = .inProgress)) = added :=
    List.filter_eq_self.mpr fun x hx => decide_eq_true (h.running x hx)
  unfold rivals Lineage.running
  rw [hentries, List.filter_append, List.filter_append, hbase, hadded, List.nil_append]

section Checks

variable (h : l.Gains claims added l')
  (hapart : ∀ x ∈ added, targets.Disjoint x.targets)
  (hhidden : ∀ x ∈ added, x.targets.Disjoint registered)
  (hok : c.checkStart sources targets force l registered = .ok ())

include h hapart

theorem targetsFree_ok {table : Text} (hok : Check.targetsFree l table targets registered = .ok ()) :
    Check.targetsFree l' table targets registered = .ok () := by
  obtain ⟨hfree, hunlisted⟩ := Check.targetsFree_eq_ok_iff.mp hok
  refine Check.targetsFree_eq_ok_iff.mpr ⟨fun y hy hlive => ?_, hunlisted⟩
  obtain ⟨base, hyields, hentries⟩ := h.entries
  rw [hentries] at hy
  rcases List.mem_append.mp hy with hy | hy
  · obtain ⟨x, hx, hyield⟩ := exists_of_forall₂ hyields hy
    obtain rfl := hyield.eq_of_live hlive
    exact hfree y hx hlive
  · exact hapart y hy

omit hapart in
include hhidden in
theorem sourcesServed_ok {table : Text}
    (hok : Check.sourcesServed table sources (l.served registered) = .ok ()) :
    Check.sourcesServed table sources (l'.served registered) = .ok () := by
  refine Check.sourcesServed_eq_ok_iff.mpr fun s hs => ?_
  obtain ⟨hlisted, hexposed⟩ := mem_served.mp (Check.sourcesServed_eq_ok_iff.mp hok s hs)
  have hnot : ∀ x ∈ added, s ∉ x.targets := fun x hx hmem => hhidden x hx hmem hlisted
  rw [mem_served, h.exposes_eq hnot]
  exact ⟨hlisted, hexposed⟩

include hhidden hok

/-- A start that could have gone ahead before, with other targets than the added entries, goes ahead
if it does not compete with them. -/
theorem checkStart_ok (hclear : ∀ x ∈ added, overlaps x.sources sources = false) :
    c.checkStart sources targets force l' registered = .ok () := by
  unfold Call.checkStart at hok ⊢
  obtain ⟨_, htargets, hok⟩ := bind_eq_ok_iff.mp hok
  obtain ⟨_, hsources, huncontested⟩ := bind_eq_ok_iff.mp hok
  refine bind_eq_ok_iff.mpr ⟨(), h.targetsFree_ok hapart htargets, ?_⟩
  refine bind_eq_ok_iff.mpr ⟨(), h.sourcesServed_ok hhidden hsources, ?_⟩
  rw [Check.uncontested_eq_ok_iff] at huncontested ⊢
  refine huncontested.imp_left fun hnone => ?_
  rw [h.rivals_eq hnone, List.filter_eq_nil_iff]
  intro x hx
  rw [hclear x hx]
  exact Bool.false_ne_true

/-- If it competes with added entries and is not forced, it is turned down for these. -/
theorem checkStart_contested (hforce : force = false)
    (hcompetes : ∃ x ∈ added, overlaps x.sources sources = true) :
    c.checkStart sources targets force l' registered = .error (.contested c.table sources
      ((added.filter fun x => overlaps x.sources sources).map Entry.id)) := by
  unfold Call.checkStart at hok ⊢
  obtain ⟨_, htargets, hok⟩ := bind_eq_ok_iff.mp hok
  obtain ⟨_, hsources, huncontested⟩ := bind_eq_ok_iff.mp hok
  rw [h.targetsFree_ok hapart htargets]
  simp only [bind, Except.bind]
  rw [h.sourcesServed_ok hhidden hsources]
  subst hforce
  have hnone := (Check.uncontested_eq_ok_iff.mp huncontested).resolve_right Bool.false_ne_true
  obtain ⟨x, hx, hoverlap⟩ := hcompetes
  have hrival : x ∈ added.filter fun x => overlaps x.sources sources :=
    List.mem_filter.mpr ⟨hx, hoverlap⟩
  unfold Check.uncontested
  dsimp only
  rw [h.rivals_eq hnone, if_neg]
  rw [Bool.or_false, List.isEmpty_iff]
  exact List.ne_nil_of_mem hrival

end Checks

/-- The commit of another start adds its entry and makes its rivals yield, if it has any, which are
none of the added ones. -/
theorem commit {stamp : Text} (h : l.Gains claims added l')
    (hmoves : l'.Moves (l'.rivals sources) .reverted stamp mid) (happends : mid.Appends e l'')
    (hclaim : l'.rivals sources = [] ∨ sources ∈ claims)
    (hclear : ∀ x ∈ added, overlaps x.sources sources = false) :
    l.Gains claims (added ++ [e]) l'' := by
  obtain ⟨base, hyields, hentries⟩ := h.entries
  refine ⟨fun x hx => ?_, base.map (Entry.movedAmong (l'.rivals sources) .reverted stamp), ?_, ?_⟩
  · rcases List.mem_append.mp hx with hx | hx
    · exact h.running x hx
    · rw [List.mem_singleton.mp hx]
      exact happends.running
  · refine List.forall₂_map_right_iff.mpr (hyields.imp fun x y hyield => ?_)
    unfold Entry.movedAmong
    split
    · rename_i hrival
      obtain ⟨hrun, hoverlap⟩ := mem_rivals.mp hrival
      have hstate := (Lineage.mem_running.mp hrun).2
      obtain rfl := hyield.eq_of_running hstate
      rcases hclaim with hnone | hclaim
      · rw [hnone] at hrival
        cases hrival
      · exact .reverted stamp hstate hclaim hoverlap
    · exact hyield
  · have hadded : added.map (Entry.movedAmong (l'.rivals sources) .reverted stamp) = added := by
      refine (List.map_congr_left fun x hx => ?_).trans (List.map_id added)
      have hnot : x ∉ l'.rivals sources := by
        intro hrival
        rw [mem_rivals, hclear x hx] at hrival
        exact Bool.false_ne_true hrival.2
      exact if_neg hnot
    rw [happends.entries, hmoves.entries, hentries, List.map_append, hadded, List.append_assoc]

end Gains

end Lineage

end SegmentSwap
