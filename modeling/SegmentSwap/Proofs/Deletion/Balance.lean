import Mathlib.Data.List.Perm.Basic
import SegmentSwap.Proofs.Lineage.Exclusive

/-!
# What a lineage needs and what is doomed

A lineage needs the segments that it exposes and the targets that entries in progress produce.
Segments whose deletion is undone are doomed. As long as a table is in balance, no doomed segment is
needed and all sources of entries in progress are there. A commit keeps the balance if what it dooms
is needed before it and is not needed after it.
-/

namespace SegmentSwap

/-- Queries may see the segment or a replacement in progress produces it. -/
def Lineage.Needs (l : Lineage) (s : Text) : Prop :=
  l.exposes s = true ∨ ∃ e ∈ l.running, s ∈ e.targets

/-- A registered segment that a lineage needs. -/
structure Held (l : Lineage) (registered : List Text) (s : Text) : Prop where
  present : s ∈ registered
  needed : l.Needs s

/-- Nothing that a lineage needs is doomed. -/
structure Balanced (l : Lineage) (registered doomed : List Text) : Prop where
  once : doomed.Nodup
  present : ∀ s ∈ doomed, s ∈ registered
  unneeded : ∀ s ∈ doomed, ¬ l.Needs s
  sources : ∀ e ∈ l.running, ∀ s ∈ e.sources, s ∈ registered ∧ l.exposes s = true

namespace Balanced

variable {l l' : Lineage} {registered registered' doomed doomed' : List Text}

theorem empty (table : Text) (registered : List Text) : Balanced (.empty table) registered [] where
  once := List.nodup_nil
  present := fun _ hs => absurd hs List.not_mem_nil
  unneeded := fun _ hs => absurd hs List.not_mem_nil
  sources := fun _ he => absurd he List.not_mem_nil

theorem keep (h : Balanced l registered doomed) (hperm : doomed'.Perm doomed)
    (hreg : ∀ s ∈ registered, s ∈ registered') : Balanced l registered' doomed' where
  once := hperm.nodup_iff.mpr h.once
  present := fun s hs => hreg s (h.present s (hperm.mem_iff.mp hs))
  unneeded := fun s hs => h.unneeded s (hperm.mem_iff.mp hs)
  sources := fun e he s hs => ⟨hreg s (h.sources e he s hs).1, (h.sources e he s hs).2⟩

/-- A doomed segment that is gone leaves the balance, since nothing that is needed goes with it. -/
theorem handle (h : Balanced l registered doomed) {gone : Text}
    (hperm : doomed.Perm (gone :: doomed'))
    (hreg : ∀ s ∈ registered, s ≠ gone → s ∈ registered') : Balanced l registered' doomed' := by
  obtain ⟨hnot, hnodup⟩ := List.nodup_cons.mp (hperm.nodup_iff.mp h.once)
  have hmem : ∀ s ∈ doomed', s ∈ doomed := fun s hs =>
    hperm.mem_iff.mpr (List.mem_cons_of_mem gone hs)
  refine ⟨hnodup, fun s hs => ?_, fun s hs => h.unneeded s (hmem s hs), fun e he s hs => ?_⟩
  · exact hreg s (h.present s (hmem s hs)) fun hgone => hnot (hgone ▸ hs)
  · obtain ⟨hmemreg, hexp⟩ := h.sources e he s hs
    refine ⟨hreg s hmemreg fun hgone => ?_, hexp⟩
    rw [hgone] at hexp
    exact h.unneeded gone (hperm.mem_iff.mpr List.mem_cons_self) (Or.inl hexp)

end Balanced

/-- What a commit does to what is needed: it dooms some segments that are not needed after it, and
it claims some for targets. -/
structure Commits (l l' : Lineage) (claimed dropped : List Text) : Prop where
  needs : ∀ s, l'.Needs s → l.Needs s ∨ s ∈ claimed
  unneeded : ∀ s ∈ dropped, ¬ l'.Needs s
  sources : ∀ e ∈ l'.running, ∀ s ∈ e.sources, l'.exposes s = true

namespace Commits

variable {l l' mid : Lineage} {e : Entry} {stamp : Text} {registered doomed dropped : List Text}

/-- A commit keeps the balance if it dooms what is registered and needed, and nothing twice, and if
nothing that it claims is doomed. -/
theorem balanced {claimed : List Text} (hc : Commits l l' claimed dropped)
    (h : Balanced l registered doomed) (hheld : ∀ s ∈ dropped, Held l registered s)
    (hnodup : dropped.Nodup) (hfree : ∀ s ∈ claimed, s ∉ doomed)
    (hsources : ∀ e ∈ l'.running, ∀ s ∈ e.sources, s ∈ registered) :
    Balanced l' registered (dropped ++ doomed) where
  once := by
    rw [List.nodup_append]
    refine ⟨hnodup, h.once, fun s hs x hx hsx => ?_⟩
    rw [← hsx] at hx
    exact h.unneeded s hx (hheld s hs).needed
  present := by
    intro s hs
    rcases List.mem_append.mp hs with hs | hs
    · exact (hheld s hs).present
    · exact h.present s hs
  unneeded := by
    intro s hs hneeds
    rcases List.mem_append.mp hs with hs | hs
    · exact hc.unneeded s hs hneeds
    · rcases hc.needs s hneeds with hneeds | hclaimed
      · exact h.unneeded s hs hneeds
      · exact hfree s hclaimed hs
  sources := fun e he s hs => ⟨hsources e he s hs, hc.sources e he s hs⟩

theorem not_needs_of_target (hl : Exclusive l) (he : e ∈ l.running) {s : Text} (hs : s ∈ e.targets)
    (hexp : l'.exposes s = true → l.exposes s = true)
    (hrun : ∀ x ∈ l'.running, x ∈ l.running ∧ x ≠ e ∨ s ∉ x.targets) : ¬ l'.Needs s := by
  rintro (hneeds | ⟨x, hx, hsx⟩)
  · have hhidden := hl.exposes_target he hs
    rw [hexp hneeds] at hhidden
    cases hhidden
  · rcases hrun x hx with ⟨hx, hxe⟩ | hnot
    · exact hl.disjoint_targets hx he hxe hsx hs
    · exact hnot hsx

theorem of_reversal (hl : Exclusive l) (h : Balanced l registered doomed)
    (hm : l.Moves [e] .reverted stamp l') (hdropped : ∀ s ∈ dropped, s ∈ e.targets) :
    Commits l l' [] dropped := by
  have he : e ∈ l.running := hm.running e (List.mem_singleton_self e)
  have hrun : ∀ x ∈ l'.running, x ∈ l.running ∧ x ≠ e := fun x hx =>
    (hm.mem_running_of_singleton (by decide)).mp hx
  refine ⟨?_, fun s hs => ?_, fun x hx s hs => ?_⟩
  · rintro s (hexp | ⟨x, hx, hs⟩)
    · exact Or.inl (Or.inl (by rw [← hm.exposes_eq]; exact hexp))
    · exact Or.inl (Or.inr ⟨x, (hrun x hx).1, hs⟩)
  · exact not_needs_of_target hl he (hdropped s hs) (by rw [hm.exposes_eq]; exact id)
      fun x hx => Or.inl (hrun x hx)
  · rw [hm.exposes_eq]
    exact (h.sources x (hrun x hx).1 s hs).2

theorem of_completion (hl : Exclusive l) (h : Balanced l registered doomed)
    (hm : l.Moves [e] .completed stamp l') (hdropped : ∀ s ∈ dropped, s ∈ e.sources) :
    Commits l l' [] dropped := by
  have he : e ∈ l.running := hm.running e (List.mem_singleton_self e)
  have hshape := hl.shaped_of_running he
  have hrun : ∀ x ∈ l'.running, x ∈ l.running ∧ x ≠ e := fun x hx =>
    (hm.mem_running_of_singleton (by decide)).mp hx
  -- what is exposed is no target of an entry in progress
  have hapart : ∀ x ∈ l.running, ∀ s ∈ x.targets, ¬ l.exposes s = true := by
    intro x hx s hs hexp
    rw [hl.exposes_target hx hs] at hexp
    cases hexp
  refine ⟨?_, fun s hs => ?_, fun x hx s hs => ?_⟩
  · rintro s (hexp | ⟨x, hx, hs⟩)
    · by_cases hs : s ∈ e.targets
      · exact Or.inl (Or.inr ⟨e, he, hs⟩)
      · exact Or.inl (Or.inl ((hm.exposes_of_completion hs).mp hexp).1)
    · exact Or.inl (Or.inr ⟨x, (hrun x hx).1, hs⟩)
  · have hsource := hdropped s hs
    rintro (hexp | ⟨x, hx, hsx⟩)
    · have htarget : s ∉ e.targets := fun ht => hshape.disjoint hsource ht
      exact ((hm.exposes_of_completion htarget).mp hexp).2 hsource
    · exact hapart x (hrun x hx).1 s hsx (h.sources e he s hsource).2
  · obtain ⟨hx, hxe⟩ := hrun x hx
    have hexp := (h.sources x hx s hs).2
    have htarget : s ∉ e.targets := fun ht => hapart e he s ht hexp
    refine (hm.exposes_of_completion htarget).mpr ⟨hexp, fun hse => ?_⟩
    exact hl.disjoint_sources hx he hxe hs hse

/-- A new entry claims its targets; with it, targets of the rivals that are reverted are doomed. -/
theorem of_start (hl : Exclusive l) (h : Balanced l registered doomed)
    (hm : l.Moves (l.rivals e.sources) .reverted stamp mid) (ha : mid.Appends e l')
    (hshape : WellShaped e.sources e.targets)
    (hfree : ∀ x ∈ l.entries, x.state.isLive = true → e.targets.Disjoint x.targets)
    (hserved : ∀ s ∈ e.sources, l.exposes s = true)
    (hapart : ∀ x ∈ l.running, ∀ s ∈ x.sources, s ∉ e.targets)
    (hdropped : ∀ s ∈ dropped, ∃ x ∈ l.rivals e.sources, s ∈ x.targets) :
    Commits l l' e.targets dropped := by
  have hpub : ∀ t ∈ e.targets, t ∉ mid.published := by
    intro t ht hpub
    obtain ⟨x, hx, htx⟩ := Lineage.mem_published.mp hpub
    have hx := hm.mem_completed.mp hx
    exact hfree x (Lineage.mem_completed.mp hx).1 (Lineage.isLive_of_mem_completed hx) ht htx
  have hexposes : ∀ s, l'.exposes s = true ↔ l.exposes s = true ∧ s ∉ e.targets := by
    intro s
    rw [ha.exposes_iff hpub, hm.exposes_eq]
  have hrun : ∀ x ∈ l'.running, (x ∈ l.running ∧ x ∉ l.rivals e.sources) ∨ x = e := by
    intro x hx
    rcases ha.mem_running.mp hx with hx | rfl
    · exact Or.inl ((hm.mem_running (by decide)).mp hx)
    · exact Or.inr rfl
  refine ⟨?_, fun s hs => ?_, fun x hx s hs => ?_⟩
  · rintro s (hexp | ⟨x, hx, hs⟩)
    · exact Or.inl (Or.inl ((hexposes s).mp hexp).1)
    · rcases hrun x hx with ⟨hx, -⟩ | rfl
      · exact Or.inl (Or.inr ⟨x, hx, hs⟩)
      · exact Or.inr hs
  · obtain ⟨r, hr, hsr⟩ := hdropped s hs
    have hrrun := (Lineage.mem_rivals.mp hr).1
    refine not_needs_of_target hl hrrun hsr (fun hexp => ((hexposes s).mp hexp).1) fun x hx => ?_
    rcases hrun x hx with ⟨hx, hnot⟩ | rfl
    · exact Or.inl ⟨hx, fun heq => hnot (heq ▸ hr)⟩
    · exact Or.inr fun hse => hfree r (Lineage.mem_running.mp hrrun).1
        (Lineage.isLive_of_mem_running hrrun) hse hsr
  · rcases hrun x hx with ⟨hx, -⟩ | rfl
    · exact (hexposes s).mpr ⟨(h.sources x hx s hs).2, hapart x hx s hs⟩
    · exact (hexposes s).mpr ⟨hserved s hs, fun ht => hshape.disjoint hs ht⟩

end Commits

end SegmentSwap
