import SegmentSwap.Proofs.Lineage.Exclusive
import SegmentSwap.Protocol.Call

/-!
# What the checks of a call establish

Each check passes exactly under a condition on the lineage and the segments that can be said without
it.
-/

namespace SegmentSwap

section Except

variable {α β ε ε' : Type}

theorem bind_eq_ok_iff {x : Except ε α} {f : α → Except ε β} {b : β} :
    (x >>= f) = .ok b ↔ ∃ a, x = .ok a ∧ f a = .ok b := by
  cases x <;> simp [bind, Except.bind]

theorem bind_eq_error_iff {x : Except ε α} {f : α → Except ε β} {e : ε} :
    (x >>= f) = .error e ↔ x = .error e ∨ ∃ a, x = .ok a ∧ f a = .error e := by
  cases x <;> simp [bind, Except.bind]

theorem ite_eq_ok_iff {c : Prop} [Decidable c] {e : ε} {u : Unit} :
    (if c then .ok () else .error e : Except ε Unit) = .ok u ↔ c := by
  split <;> simp_all

theorem mapError_eq_ok_iff {x : Except ε α} {f : ε → ε'} {a : α} :
    x.mapError f = .ok a ↔ x = .ok a := by
  cases x <;> simp [Except.mapError]

theorem mapError_eq_error_iff {x : Except ε α} {f : ε → ε'} {e : ε'} :
    x.mapError f = .error e ↔ ∃ e', x = .error e' ∧ f e' = e := by
  cases x <;> simp [Except.mapError]

theorem map_eq_error_iff {x : Except ε α} {f : α → β} {e : ε} :
    f <$> x = .error e ↔ x = .error e := by
  cases x <;> simp [Functor.map, Except.map]

/-- What goes wrong in a list goes wrong at its first member that is no good. -/
theorem mapM_eq_error_iff {f : α → Except ε β} {xs : List α} {e : ε} :
    xs.mapM f = .error e ↔ ∃ before x after, xs = before ++ x :: after ∧
      (∀ y ∈ before, ∃ b, f y = .ok b) ∧ f x = .error e := by
  induction xs with
  | nil => simp [pure, Except.pure]
  | cons x rest ih =>
    rw [List.mapM_cons, bind_eq_error_iff]
    constructor
    · rintro (hx | ⟨b, hx, hrest⟩)
      · exact ⟨[], x, rest, rfl, fun _ hy => absurd hy List.not_mem_nil, hx⟩
      · rcases bind_eq_error_iff.mp hrest with hrest | ⟨_, -, hpure⟩
        · obtain ⟨before, y, after, rfl, hbefore, hy⟩ := ih.mp hrest
          exact ⟨x :: before, y, after, rfl, List.forall_mem_cons.mpr ⟨⟨b, hx⟩, hbefore⟩, hy⟩
        · cases hpure
    · rintro ⟨before, y, after, hxs, hbefore, hy⟩
      cases before with
      | nil =>
        obtain ⟨rfl, rfl⟩ := List.cons.inj hxs
        exact .inl hy
      | cons z before =>
        obtain ⟨rfl, rfl⟩ := List.cons.inj hxs
        obtain ⟨⟨b, hx⟩, hbefore⟩ := List.forall_mem_cons.mp hbefore
        have hrest := ih.mpr ⟨before, y, after, rfl, hbefore, hy⟩
        exact .inr ⟨b, hx, by rw [hrest]; rfl⟩

end Except

namespace Check

theorem repeatedFrom_eq_nil_iff {seen repeated names : List Text} :
    repeatedFrom seen repeated names = [] ↔
      repeated = [] ∧ names.Nodup ∧ ∀ name ∈ names, name ∉ seen := by
  induction names generalizing seen repeated with
  | nil => simp [repeatedFrom]
  | cons name rest ih =>
    unfold repeatedFrom
    split
    · rename_i h
      simp only [Bool.and_eq_true, List.contains_iff_mem, Bool.not_eq_true'] at h
      rw [ih]
      constructor
      · rintro ⟨hnil, -⟩
        simp at hnil
      · rintro ⟨-, -, hseen⟩
        exact absurd h.1 (hseen name List.mem_cons_self)
    · rename_i h
      rw [ih, List.nodup_cons]
      constructor
      · rintro ⟨rfl, hnd, hseen⟩
        have hname : name ∉ seen := by
          intro hmem
          exact h (by simp [hmem])
        refine ⟨rfl, ⟨fun hmem => hseen name hmem (by simp), hnd⟩, fun x hx => ?_⟩
        rcases List.mem_cons.mp hx with rfl | hx
        · exact hname
        · exact fun hs => hseen x hx (List.mem_append_left _ hs)
      · rintro ⟨rfl, ⟨hname, hnd⟩, hseen⟩
        refine ⟨rfl, hnd, fun x hx hs => ?_⟩
        rcases List.mem_append.mp hs with hs | hs
        · exact hseen x (List.mem_cons_of_mem _ hx) hs
        · exact hname (List.mem_singleton.mp hs ▸ hx)

theorem repeatedNames_eq_nil_iff {names : List Text} : repeatedNames names = [] ↔ names.Nodup := by
  unfold repeatedNames
  rw [repeatedFrom_eq_nil_iff]
  simp

theorem shared_eq_nil_iff {left right : List Text} :
    shared left right = [] ↔ left.Disjoint right := by
  rw [List.eq_nil_iff_forall_not_mem]
  unfold shared
  simp only [Text.mem_sortedSet, List.mem_filter, List.contains_iff_mem, not_and]
  rfl

theorem checkSide_eq_ok_iff {table : Text} {side : Side} {names : List Text} {u : Unit} :
    checkSide table side names = .ok u ↔ names.Nodup := by
  unfold checkSide
  rw [ite_eq_ok_iff, List.isEmpty_iff, repeatedNames_eq_nil_iff]

theorem request_eq_ok_iff {table : Text} {sources targets : List Text} :
    request table sources targets = .ok () ↔ WellShaped sources targets := by
  unfold request
  simp only [List.isEmpty_iff]
  by_cases hne : targets = []
  · rw [if_pos hne]
    exact ⟨fun h => by simp at h, fun h => absurd hne h.targets_ne⟩
  · rw [if_neg hne]
    simp only [bind_eq_ok_iff, checkSide_eq_ok_iff, ite_eq_ok_iff, shared_eq_nil_iff]
    constructor
    · rintro ⟨_, hs, _, ht, hd⟩
      exact ⟨hne, hs, ht, hd⟩
    · intro h
      exact ⟨(), h.sources_nodup, (), h.targets_nodup, h.disjoint⟩

theorem targetsFree_eq_ok_iff {l : Lineage} {table : Text} {targets registered : List Text}
    {u : Unit} :
    targetsFree l table targets registered = .ok u ↔
      (∀ e ∈ l.entries, e.state.isLive = true → targets.Disjoint e.targets) ∧
        targets.Disjoint registered := by
  unfold targetsFree
  split
  · rename_i e he
    have hmem := List.mem_of_find?_eq_some he
    have hclash := List.find?_some he
    simp only [Bool.and_eq_true, Bool.not_eq_true', List.isEmpty_eq_false_iff] at hclash
    refine ⟨fun h => by simp at h, fun h => absurd ?_ hclash.2⟩
    exact shared_eq_nil_iff.mpr (h.1 e hmem hclash.1)
  · rename_i hnone
    rw [ite_eq_ok_iff, List.isEmpty_iff, shared_eq_nil_iff]
    refine ⟨fun hd => ⟨fun e he hl => ?_, hd⟩, fun h => h.2⟩
    have := List.find?_eq_none.mp hnone e he
    simp only [hl, Bool.true_and, Bool.not_eq_true', Bool.not_eq_false, List.isEmpty_iff] at this
    exact shared_eq_nil_iff.mp this

theorem sourcesServed_eq_ok_iff {table : Text} {sources served : List Text} {u : Unit} :
    sourcesServed table sources served = .ok u ↔ ∀ s ∈ sources, s ∈ served := by
  unfold sourcesServed
  rw [ite_eq_ok_iff, List.isEmpty_iff, List.filter_eq_nil_iff]
  simp

theorem uncontested_eq_ok_iff {l : Lineage} {table : Text} {sources : List Text} {force : Bool}
    {u : Unit} :
    uncontested l table sources force = .ok u ↔ l.rivals sources = [] ∨ force = true := by
  unfold uncontested
  rw [ite_eq_ok_iff, Bool.or_eq_true, List.isEmpty_iff]

theorem known_eq_ok_iff {l : Lineage} {table id : Text} {e : Entry} :
    known l table id = .ok e ↔ e ∈ l.entries ∧ e.id = id := by
  unfold known Lineage.get?
  cases hf : l.entries.find? (·.id == id) with
  | none =>
    refine ⟨fun h => by simp at h, fun ⟨he, hid⟩ => ?_⟩
    exact absurd hid (by simpa using List.find?_eq_none.mp hf e he)
  | some x =>
    have hx := List.mem_of_find?_eq_some hf
    have hid : x.id = id := by simpa using List.find?_some hf
    constructor
    · intro h
      obtain rfl : x = e := by simpa using h
      exact ⟨hx, hid⟩
    · rintro ⟨he, rfl⟩
      rw [Lineage.eq_of_id_eq he hx hid.symm]

theorem movable_eq_ok_iff {e : Entry} {next : State} {u : Unit} :
    movable e next = .ok u ↔ e.state = .inProgress ∧ (next = .completed ∨ next = .reverted) := by
  unfold movable
  rw [mapError_eq_ok_iff]
  unfold State.checkStep
  cases e.state <;> simp [State.successors?, or_iff_not_imp_left]

end Check

/-- A start passes its checks if its targets are free, its sources are served, and it has no rivals
or is forced. -/
theorem Call.checkStart_eq_ok_iff {c : Call} {sources targets registered : List Text}
    {force : Bool} {l : Lineage} {u : Unit} :
    c.checkStart sources targets force l registered = .ok u ↔
      ((∀ e ∈ l.entries, e.state.isLive = true → targets.Disjoint e.targets) ∧
        targets.Disjoint registered) ∧
      (∀ s ∈ sources, s ∈ l.served registered) ∧ (l.rivals sources = [] ∨ force = true) := by
  unfold checkStart
  simp only [bind_eq_ok_iff, Check.targetsFree_eq_ok_iff, Check.sourcesServed_eq_ok_iff,
    Check.uncontested_eq_ok_iff, exists_and_left, exists_const]

end SegmentSwap
