import SegmentSwap.Proofs.Lineage.Generations

/-!
# The depth of a history

How many generations of data a table has on disk is told without walking the history: of every list
of a completed entry that is taken which no newer list names, and what is registered of it is a
generation unless there is nothing. Segments that are deleted leave the generations they belong to
and move nothing into another one. So once the surplus is gone, the generations that stay are all
that there are.
-/

namespace SegmentSwap

namespace Lineage

/-- Of each list what no list before it names. -/
def firstNamed (lists : List (List Text)) : List (List Text) :=
  lists.mapIdx fun i segments => segments.filter (· ∉ (lists.take i).flatten)

/-- Of each list what is registered, where that is not empty. -/
def present (registered : List Text) (lists : List (List Text)) : List (List Text) :=
  (lists.map fun segments => segments.filter (· ∈ registered)).filter (· ≠ [])

/-- The segments that are first named by each list of the completed entries, as far as they are
registered, the newest entry first and its targets before its sources. -/
def loads (l : Lineage) (registered : List Text) : List (List Text) :=
  present registered (firstNamed l.history)

variable {l : Lineage} {registered left claimed before segments : List Text}
  {lists : List (List Text)} {limit : Int} {s : Text}

section Present

variable (registered) in
theorem present_cons : present registered (segments :: lists) =
    if segments.filter (· ∈ registered) = [] then present registered lists
    else segments.filter (· ∈ registered) :: present registered lists := by
  unfold present
  rw [List.map_cons, List.filter_cons]
  by_cases h : segments.filter (· ∈ registered) = [] <;> simp only [h, ne_eq, not_true_eq_false,
    not_false_eq_true, decide_false, decide_true, Bool.false_eq_true, if_true, if_false]

theorem present_append (lists' : List (List Text)) :
    present registered (lists ++ lists') = present registered lists ++ present registered lists' := by
  unfold present
  rw [List.map_append, List.filter_append]

theorem length_present_le : (present registered lists).length ≤ lists.length := by
  unfold present
  exact Nat.le_trans (List.length_filter_le _ _) (Nat.le_of_eq (List.length_map _))

theorem present_eq_nil (h : ∀ segments ∈ lists, ∀ s ∈ segments, s ∉ registered) :
    present registered lists = [] := by
  unfold present
  refine List.filter_eq_nil_iff.mpr fun x hx => ?_
  obtain ⟨segments, hsegments, rfl⟩ := List.mem_map.mp hx
  have hnone : segments.filter (· ∈ registered) = [] :=
    List.filter_eq_nil_iff.mpr fun s hs => by simpa using h segments hsegments s hs
  simp [hnone]

theorem present_eq_self (hne : ∀ segments ∈ lists, segments ≠ [])
    (hall : ∀ segments ∈ lists, ∀ s ∈ segments, s ∈ registered) :
    present registered lists = lists := by
  have hmap : (lists.map fun segments => segments.filter (· ∈ registered)) = lists := by
    refine (List.map_congr_left fun segments hsegments => ?_).trans (List.map_id _)
    exact List.filter_eq_self.mpr fun s hs => decide_eq_true (hall segments hsegments s hs)
  unfold present
  rw [hmap]
  exact List.filter_eq_self.mpr fun segments hsegments => decide_eq_true (hne segments hsegments)

/-- What is left of the lists is left of what has been there of them. -/
theorem present_present (h : left ⊆ registered) :
    present left (present registered lists) = present left lists := by
  induction lists with
  | nil => rfl
  | cons segments rest ih =>
    have hfilter : (segments.filter (· ∈ registered)).filter (· ∈ left) =
        segments.filter (· ∈ left) := by
      rw [List.filter_filter]
      refine List.filter_congr fun s _ => ?_
      rw [← Bool.decide_and, decide_eq_decide]
      exact and_iff_left_of_imp fun hs => h hs
    rw [present_cons registered, present_cons left]
    split
    · rename_i hnone
      rw [hnone, List.filter_nil] at hfilter
      rw [← hfilter, if_pos rfl]
      exact ih
    · rw [present_cons left, hfilter, ih]

end Present

/-- Generations are told without walking the history, since a segment is claimed as soon as it has
been named. -/
theorem generationsAmong_eq_present (h : ∀ s ∈ registered, s ∈ claimed ↔ s ∈ before) :
    generationsAmong registered claimed lists =
      present registered (lists.mapIdx fun i segments =>
        segments.filter (· ∉ before ++ (lists.take i).flatten)) := by
  induction lists generalizing claimed before with
  | nil => rfl
  | cons segments rest ih =>
    have hfresh : (segments.filter (· ∉ before)).filter (· ∈ registered) =
        freshSegments registered claimed segments := by
      unfold freshSegments
      rw [List.filter_filter]
      refine List.filter_congr fun s _ => ?_
      rw [Bool.eq_iff_iff]
      simp only [Bool.and_eq_true, decide_eq_true_eq, List.contains_iff_mem, Bool.not_eq_true',
        ← Bool.not_eq_true]
      exact and_congr_right fun hs => not_congr (h s hs).symm
    -- what the list adds is all that it names and that has not been named before
    have hnext : ∀ s ∈ registered,
        s ∈ claimed ++ freshSegments registered claimed segments ↔ s ∈ before ++ segments := by
      intro s hs
      rw [List.mem_append, List.mem_append, mem_freshSegments, ← h s hs]
      by_cases hclaimed : s ∈ claimed <;> simp [hclaimed, hs]
    have hrest := ih hnext
    rw [List.mapIdx_cons, present_cons registered]
    simp only [List.take_zero, List.flatten_nil, List.append_nil, List.take_succ_cons,
      List.flatten_cons, ← List.append_assoc]
    rw [hfresh, ← hrest]
    split
    · rename_i hnil
      rw [generationsAmong_of_nil hnil, hnil, List.append_nil]
    · rename_i hne
      rw [generationsAmong_of_ne_nil hne]

theorem generations_eq_loads : l.generations registered = l.loads registered := by
  unfold generations loads firstNamed
  exact generationsAmong_eq_present fun _ _ => Iff.rfl

theorem retained_of_two_le (h : 2 ≤ limit) : retained limit = (limit - 1).toNat := by
  unfold retained
  omega

theorem surplus_eq (h : 2 ≤ limit) :
    l.surplus registered limit = ((l.loads registered).drop (limit - 1).toNat).flatten := by
  unfold surplus
  rw [generations_eq_loads, retained_of_two_le h]

theorem loads_ne_nil : ∀ load ∈ l.loads registered, load ≠ [] := by
  intro load hload
  unfold loads present at hload
  simpa using (List.mem_filter.mp hload).2

theorem mem_of_mem_loads : ∀ load ∈ l.loads registered, ∀ s ∈ load, s ∈ registered := by
  intro load hload s hs
  rw [← generations_eq_loads] at hload
  exact (mem_generationsAmong.mp (List.mem_flatten.mpr ⟨load, hload, hs⟩)).2.1

/-- No segment of a generation that stays is surplus. -/
theorem not_mem_surplus_of_take {load : List Text}
    (hload : load ∈ (l.generations registered).take (retained limit)) (hs : s ∈ load) :
    s ∉ l.surplus registered limit := fun hsurplus =>
  (mem_surplus.mp hsurplus).2.2 (List.mem_flatten.mpr ⟨load, hload, hs⟩)

/-- When the surplus is gone and nothing has come, there is nothing left but what is left of the
generations that stay. -/
theorem loads_of_shrunk (hsub : left ⊆ registered)
    (hgone : ∀ s ∈ l.surplus registered limit, s ∉ left) :
    l.loads left = present left ((l.loads registered).take (retained limit)) := by
  have hold : present left ((l.loads registered).drop (retained limit)) = [] := by
    refine present_eq_nil fun load hload s hs => hgone s ?_
    unfold surplus
    rw [generations_eq_loads]
    exact List.mem_flatten.mpr ⟨load, hload, hs⟩
  calc l.loads left
      = present left (l.loads registered) := (present_present hsub).symm
    _ = present left ((l.loads registered).take (retained limit) ++
          (l.loads registered).drop (retained limit)) := by rw [List.take_append_drop]
    _ = present left ((l.loads registered).take (retained limit)) := by
      rw [present_append, hold, List.append_nil]

theorem length_loads_of_shrunk (hsub : left ⊆ registered)
    (hgone : ∀ s ∈ l.surplus registered limit, s ∉ left) :
    (l.loads left).length ≤ retained limit := by
  rw [loads_of_shrunk hsub hgone]
  exact Nat.le_trans length_present_le (List.length_take_le _ _)

/-- Without the surplus, the generations are those that stay. -/
theorem loads_without_surplus :
    l.loads (registered.filter (· ∉ l.surplus registered limit)) =
      (l.loads registered).take (retained limit) := by
  have hgone : ∀ s ∈ l.surplus registered limit,
      s ∉ registered.filter (· ∉ l.surplus registered limit) := by
    intro s hs hmem
    simpa [hs] using (List.mem_filter.mp hmem).2
  rw [loads_of_shrunk (List.filter_subset_self _) hgone]
  refine present_eq_self (fun load hload => loads_ne_nil load (List.mem_of_mem_take hload)) ?_
  intro load hload s hs
  have hregistered := mem_of_mem_loads load (List.mem_of_mem_take hload) s hs
  rw [← generations_eq_loads] at hload
  exact List.mem_filter.mpr
    ⟨hregistered, decide_eq_true (not_mem_surplus_of_take hload hs)⟩

section Completed

variable {l' : Lineage}

/-- The history is that of the completed entries alone. -/
theorem loads_congr (h : l'.completed = l.completed) :
    l'.loads registered = l.loads registered := by
  unfold loads history
  rw [h]

theorem Moves.completed_eq {xs : List Entry} {stamp : Text}
    (h : l.Moves xs .reverted stamp l') : l'.completed = l.completed := by
  have hstay : ∀ e ∈ l.completed, e.movedAmong xs .reverted stamp = e := by
    intro e he
    have hnot : e ∉ xs := by
      intro hmem
      have hrunning := (Lineage.mem_running.mp (h.running e hmem)).2
      simp [(Lineage.mem_completed.mp he).2] at hrunning
    simp [Entry.movedAmong, hnot]
  have hsame : ∀ e ∈ l.entries, decide ((e.movedAmong xs .reverted stamp).state = .completed) =
      decide (e.state = .completed) := by
    intro e he
    rw [Entry.movedAmong_state]
    split
    · rename_i hmem
      simp [(Lineage.mem_running.mp (h.running e hmem)).2]
    · rfl
  calc l'.completed
      = (l.entries.filter fun e => decide ((e.movedAmong xs .reverted stamp).state = .completed)).map
          (Entry.movedAmong xs .reverted stamp) := by
        unfold completed
        rw [h.entries, List.filter_map]
        rfl
    _ = l.completed.map (Entry.movedAmong xs .reverted stamp) := by
        rw [List.filter_congr hsame]
        rfl
    _ = l.completed := by
        rw [List.map_congr_left hstay, List.map_id']

theorem Appends.completed_eq {e : Entry} (h : l.Appends e l') : l'.completed = l.completed := by
  unfold completed
  rw [h.entries, List.filter_append]
  simp [h.running]

end Completed

/-- Of lists that repeat no name no segment is surplus twice. -/
theorem nodup_surplus_of_nodup (hl : ∀ e ∈ l.entries, e.sources.Nodup ∧ e.targets.Nodup) :
    (l.surplus registered limit).Nodup := by
  refine nodup_surplus fun segments hsegments => ?_
  obtain ⟨e, he, hlist⟩ := List.mem_flatMap.mp hsegments
  have hentry := (mem_completed.mp (List.mem_reverse.mp he)).1
  simp only [List.mem_cons, List.not_mem_nil, or_false] at hlist
  rcases hlist with rfl | rfl
  · exact (hl e hentry).2
  · exact (hl e hentry).1

theorem named_of_mem_surplus (hs : s ∈ l.surplus registered limit) : s ∈ registered ∧
    ∃ e ∈ l.entries, e.state = .completed ∧ (s ∈ e.targets ∨ s ∈ e.sources) := by
  obtain ⟨hnamed, hregistered, -⟩ := mem_surplus.mp hs
  refine ⟨hregistered, ?_⟩
  rcases hnamed with hs | hs
  · obtain ⟨e, he, hse⟩ := mem_published.mp hs
    exact ⟨e, (mem_completed.mp he).1, (mem_completed.mp he).2, Or.inl hse⟩
  · obtain ⟨e, he, hse⟩ := mem_retired.mp hs
    exact ⟨e, (mem_completed.mp he).1, (mem_completed.mp he).2, Or.inr hse⟩

/-- A depth that leaves room for a generation beside an upload spares the newest one. -/
theorem not_mem_surplus_of_newest (hlimit : 2 ≤ limit) {load : List Text}
    (hload : load ∈ (l.loads registered).head?) (hs : s ∈ load) :
    s ∉ l.surplus registered limit := by
  have hpos : retained limit ≠ 0 := by
    have hretained := retained_of_two_le hlimit
    omega
  rw [← generations_eq_loads] at hload
  refine not_mem_surplus_of_take (List.mem_of_mem_head? ?_) hs
  rw [List.head?_take, if_neg hpos]
  exact hload

theorem surplus_succ_suffix (hlimit : 2 ≤ limit) :
    l.surplus registered (limit + 1) <:+ l.surplus registered limit := by
  have hnext : (limit + 1 - 1).toNat = (limit - 1).toNat + 1 := by omega
  rw [surplus_eq hlimit, surplus_eq (by omega : 2 ≤ limit + 1), hnext, ← List.drop_drop]
  obtain ⟨newer, hnewer⟩ := List.drop_suffix 1 ((l.loads registered).drop (limit - 1).toNat)
  exact ⟨newer.flatten, by rw [← List.flatten_append, hnewer]⟩

/-- What is surplus for a depth, of a lineage whose lists repeat no name. -/
structure Trimmed (l : Lineage) (registered : List Text) (limit : Int) : Prop where
  /-- No segment is surplus twice. -/
  nodup : (l.surplus registered limit).Nodup
  /-- What is surplus is registered, and a completed entry names it. -/
  named : ∀ s ∈ l.surplus registered limit, s ∈ registered ∧
    ∃ e ∈ l.entries, e.state = .completed ∧ (s ∈ e.targets ∨ s ∈ e.sources)
  /-- The surplus is all generations after the newest ones that may stay beside an upload. -/
  exact : l.surplus registered limit = ((l.loads registered).drop (limit - 1).toNat).flatten
  /-- The newest generation stays. -/
  newest : ∀ load ∈ (l.loads registered).head?, ∀ s ∈ load, s ∉ l.surplus registered limit
  /-- What remains is the generations that may stay. -/
  remains : l.loads (registered.filter (· ∉ l.surplus registered limit)) =
    (l.loads registered).take (limit - 1).toNat
  /-- These are not too many. -/
  bounded : ((l.loads (registered.filter (· ∉ l.surplus registered limit))).length : Int) ≤
    limit - 1
  /-- Nothing more is surplus then. -/
  stable : l.surplus (registered.filter (· ∉ l.surplus registered limit)) limit = []
  /-- If one more generation may stay, the surplus loses segments at its beginning. -/
  deeper : l.surplus registered (limit + 1) <:+ l.surplus registered limit

theorem trimmed (hl : ∀ e ∈ l.entries, e.sources.Nodup ∧ e.targets.Nodup) (hlimit : 2 ≤ limit) :
    l.Trimmed registered limit := by
  have hremains : l.loads (registered.filter (· ∉ l.surplus registered limit)) =
      (l.loads registered).take (limit - 1).toNat := by
    rw [loads_without_surplus, retained_of_two_le hlimit]
  have hlength := List.length_take_le (limit - 1).toNat (l.loads registered)
  constructor
  case nodup => exact nodup_surplus_of_nodup hl
  case named => exact fun s hs => named_of_mem_surplus hs
  case exact => exact surplus_eq hlimit
  case newest => exact fun load hload s hs => not_mem_surplus_of_newest hlimit hload hs
  case remains => exact hremains
  case bounded =>
    rw [hremains]
    omega
  case stable => rw [surplus_eq hlimit, hremains, List.drop_eq_nil_of_le hlength, List.flatten_nil]
  case deeper => exact surplus_succ_suffix hlimit

end Lineage

end SegmentSwap
