import SegmentSwap.Proofs.Traffic.Basis

/-!
# What a write replaces

A write that takes effect replaces the record that its attempt has read, as long as the record is
not removed in between: it is compared by its version alone, and only a removal lets a version come
again. After a removal the versions start anew, so the record may be a different one that has had
just as many commits; the write then restores what has been removed and loses what has come since.
-/

namespace SegmentSwap

namespace Version

/-- A record never comes back to a version that it has had. -/
theorem agree_after_iff {n : Nat} {v : Option Version} : agree (after n v) v = true ↔ n = 0 := by
  cases n with
  | zero => exact ⟨fun _ => rfl, fun _ => agree_iff.mpr rfl⟩
  | succ n =>
    refine ⟨fun h => ?_, fun h => by cases h⟩
    rw [agree_iff] at h
    unfold after at h
    rw [after_some] at h
    cases v with
    | none => cases h
    | some w =>
      have hcount : w.count + 1 + n = w.count := Option.some.inj h
      omega

theorem after_add (m n : Nat) (v : Option Version) : after (m + n) v = after m (after n v) := by
  induction n generalizing v with
  | zero => rfl
  | succ n ih => exact ih (some (next v))

/-- A version that a record had some commits ago is the one it has only if there were none. -/
theorem agree_after_after_iff {m n : Nat} {v : Option Version} (h : n ≤ m) :
    agree (after m v) (after n v) = true ↔ m = n := by
  obtain ⟨k, rfl⟩ := Nat.exists_eq_add_of_le' h
  rw [after_add, agree_after_iff]
  omega

/-- How many commits there have been since the creation of a record of some version. -/
def commits (v : Option Version) : Int := v.elim 0 fun w => w.count + 1

theorem commits_congr {a b : Option Version} (h : agree a b = true) : commits a = commits b := by
  rw [agree_iff] at h
  cases a <;> cases b <;> simp_all [commits]

theorem commits_after (n : Nat) : commits (after n none) = n := by
  cases n with
  | zero => rfl
  | succ n =>
    have hcount := after_some n (next none)
    unfold commits
    unfold after
    cases hv : after n (some (next none)) with
    | none =>
      rw [hv] at hcount
      cases hcount
    | some w =>
      rw [hv] at hcount
      have hw : w.count = 0 + n := Option.some.inj hcount
      show w.count + 1 = ((n + 1 : Nat) : Int)
      omega

/-- A record that starts anew has a version of an earlier one again once it has had as many
commits. -/
theorem agree_after_none_iff {n k : Nat} {v : Option Version} (hv : v = after k none) :
    agree (after n none) v = true ↔ (n : Int) = commits v := by
  rw [hv, commits_after]
  constructor
  · intro h
    rw [← commits_after n, ← commits_after k]
    exact commits_congr h
  · intro h
    obtain rfl : n = k := Int.ofNat.inj h
    exact agree_iff.mpr rfl

end Version

theorem Memory.read_of_version_none {m : Memory} {table : Text} (h : m.version? table = none) :
    m.read table = ⟨.empty table, none⟩ := by
  unfold version? at h
  unfold read
  rw [Option.map_eq_none_iff.mp h]

namespace Phase

/-- A call goes on from a record that an attempt has read, or has come to a later attempt. -/
def Since (a : Attempt) (seen : Versioned) (phase : Phase) : Prop :=
  phase.Based (fun b => a.number < b.number)
    fun b read => a.number ≤ b.number ∧ (b.number = a.number → read = seen)

theorem Since.step {a : Attempt} {seen : Versioned} {phase : Phase} (chance : Chance) (c : Call)
    (s : Site) (h : phase.Since a seen) :
    (Call.step (Site.services chance) c phase s).1.Since a seen := by
  refine Based.step chance h (fun b hb => ?_) fun b read hb => ?_
  · -- what a later attempt reads is not what this one has read
    exact ⟨Nat.le_of_lt hb, fun heq => absurd heq (Nat.ne_of_gt hb)⟩
  · exact Nat.lt_succ_of_le hb.1

end Phase

namespace Traffic

variable {table : Text} {site : Site} {before between : List Move} {t t' : Traffic}
  {client : Nat} {c c' : Client} {a : Attempt} {plan : Plan} {chance : Chance}

/-- The write of an attempt names the version of the record as it was when the attempt read it. -/
theorem Local.expected_eq (h : t.Local table) (hc : t.clients[client]? = some c)
    (hphase : c.phase = .reading a)
    (hc' : ((t.proceed client chance).run table between).clients[client]? = some c')
    (hphase' : c'.phase = .writing a plan) :
    plan.expected = t.site.memory.version? table := by
  obtain ⟨hcall, -⟩ := h.clients c (List.mem_of_getElem? hc)
  have hfirst : (Call.step (Site.services chance) c.call c.phase t.site).1.Since a
      (t.site.memory.read table) := by
    rw [hphase, Site.step_reading]
    refine Phase.based_afterRead fun read hr => ⟨Nat.le_refl _, fun _ => ?_⟩
    rw [chance.eq_of_answer hr, hcall]
  have hmoves : ∀ m ∈ between, True := fun _ _ => trivial
  obtain ⟨c'', hc'', -, hsince⟩ := follow table (fun _ => True)
    (fun _ c => c.phase.Since a (t.site.memory.read table)) (fun _ _ _ _ _ h => h)
    (fun t chance c _ _ h => h.step chance c.call t.site) hmoves
    (getElem?_proceed_self chance hc) hfirst
  obtain rfl : c' = c'' := Option.some.inj (hc'.symm.trans hc'')
  rw [hphase'] at hsince
  obtain ⟨read, ⟨-, hread⟩, hexpected, -⟩ := hsince
  rw [hexpected, hread rfl, Memory.version?_eq]

/-- The write of an attempt, about to be made. Unless the record has been removed since the attempt
has read it, the write takes effect exactly if there has been no commit in between. It then replaces
the record that the attempt has read, and so it does if there was no record to be read. But if the
record has been removed in between, the write takes effect exactly if as many commits have happened
since as the record had when it was read. -/
theorem write_replaces_read (hnew : site.memory.get? table = none)
    (ht : (idle site).run table before = t) (hc : t.clients[client]? = some c)
    (hphase : c.phase = .reading a) (ht' : (t.proceed client chance).run table between = t')
    (hc' : t'.clients[client]? = some c') (hphase' : c'.phase = .writing a plan) :
    ((∀ m ∈ between, m.isDrop = false) →
      (Version.agree (t'.site.memory.version? table) plan.expected = true ↔
        commits table between (t.proceed client chance) = [])) ∧
    (Version.agree (t'.site.memory.version? table) plan.expected = true →
      (∀ m ∈ between, m.isDrop = false) ∨ t.site.memory.version? table = none →
      t'.site.memory.read table = t.site.memory.read table) ∧
    (∀ earlier later, between = earlier ++ .drop :: later → (∀ m ∈ later, m.isDrop = false) →
      (Version.agree (t'.site.memory.version? table) plan.expected = true ↔
        ((commits table later ((t.proceed client chance).run table (earlier ++ [.drop]))).length :
          Int) = Version.commits (t.site.memory.version? table))) := by
  have hlocal : t.Local table := by
    rw [← ht]
    exact (local_idle hnew).run before
  have hproceed : (t.proceed client chance).Local table := hlocal.act (.proceed client chance)
  have hmemory : (t.proceed client chance).site.memory = t.site.memory := by
    refine memory_of_quiet table (m := .proceed client chance) ?_ rfl
    unfold commit?
    dsimp only
    rw [hc]
    obtain ⟨call, phase⟩ := c
    obtain rfl : phase = .reading a := hphase
    rfl
  subst ht'
  rw [hlocal.expected_eq hc hphase hc' hphase']
  have hquiet : (∀ m ∈ between, m.isDrop = false) →
      (Version.agree (((t.proceed client chance).run table between).site.memory.version? table)
        (t.site.memory.version? table) = true ↔
          commits table between (t.proceed client chance) = []) := by
    intro hdrop
    have hversion := hproceed.version_run hdrop
    rw [hmemory] at hversion
    rw [hversion, Version.agree_after_iff, List.length_eq_zero_iff]
  refine ⟨hquiet, ?_, ?_⟩
  · rintro hagree (hdrop | hnone)
    · rw [memory_run_of_quiet hdrop ((hquiet hdrop).mp hagree), hmemory]
    · -- no record was read, and there is none again
      rw [hnone, Version.agree_iff] at hagree
      have hgone := Option.map_eq_none_iff.mp hagree
      rw [Memory.read_of_version_none hgone, Memory.read_of_version_none hnone]
  · intro earlier later hbetween hlater
    have hdropped : ((t.proceed client chance).run table (earlier ++ [.drop])).site.memory.version?
        table = none := by
      rw [run_append]
      exact version_drop _
    have hversion := (hproceed.run (earlier ++ [.drop])).version_run hlater
    rw [hdropped, ← run_append, List.append_assoc, List.singleton_append, ← hbetween] at hversion
    obtain ⟨k, hk⟩ := version_run_idle hnew before
    rw [ht] at hk
    rw [hversion, Version.agree_after_none_iff hk]

/-- A replacement is in progress, and a call that gives it up is about to read the record. -/
def reverting : List Move :=
  [.enter (.start ["a"] ["b"] false) 5 2] ++ Move.answers 0 6 "1" ++
    [.enter (.revert "1" true) 5 2]

/-- Before that call writes, another one has started a replacement of another segment up to its own
write, and the target of the first replacement is uploaded. -/
def undisturbed : List Move :=
  Move.answers 1 2 "" ++ [.enter (.start ["x"] ["y"] false) 5 2] ++ Move.answers 2 5 "2" ++
    [.add ["b"] true] ++ Move.answers 1 1 ""

/-- The call writes to the record that it has read: the other start has not got that far. -/
theorem write_replaces_read_undisturbed :
    let t := (idle (.holding "t" .append ["a", "x"])).run "t" reverting
    let t' := (t.proceed 1 ⟨"", "", none⟩).run "t" undisturbed
    (t'.commit? (.proceed 1 ⟨"", "", none⟩)).isSome = true ∧
      t'.site.memory.read "t" = t.site.memory.read "t" ∧
      commits "t" undisturbed (t.proceed 1 ⟨"", "", none⟩) = [] := by
  obtain ⟨hquiet, hread, -⟩ := write_replaces_read
    (rfl : (Site.holding "t" .append ["a", "x"]).memory.get? "t" = none)
    (rfl : _ = (idle _).run "t" reverting) (rfl : _ = some _) rfl
    (rfl : _ = (proceed 1 ⟨"", "", none⟩ _).run "t" undisturbed) (rfl : _ = some _) rfl
  have hdrop : ∀ m ∈ undisturbed, m.isDrop = false := by decide
  have hagree := (hquiet hdrop).mpr (List.eq_nil_of_length_eq_zero (by decide +kernel))
  exact ⟨by decide +kernel, hread hagree (Or.inl hdrop), (hquiet hdrop).mp hagree⟩

/-- Before that call writes, the record is removed and another replacement is started. -/
def renewed : List Move :=
  Move.answers 1 3 "" ++ [.drop, .enter (.start ["a"] ["c"] false) 5 2] ++ Move.answers 2 6 "2"

/-- The call still writes: the new record has the version of the one that has been removed. So the
entry that has been removed is there again, and the one that has come since is lost. -/
theorem write_restores_removed :
    let t := (idle (.holding "t" .append ["a"])).run "t" reverting
    let t' := (t.proceed 1 ⟨"", "", none⟩).run "t" renewed
    (∃ c a c' plan, t.clients[1]? = some c ∧ c.phase = .reading a ∧
      t'.clients[1]? = some c' ∧ c'.phase = .writing a plan ∧
      Version.agree (t'.site.memory.version? "t") plan.expected = true) ∧
      (t.lineage "t").entries = [⟨"1", ["a"], ["b"], .inProgress, ""⟩] ∧
      (t'.lineage "t").entries = [⟨"2", ["a"], ["c"], .inProgress, ""⟩] ∧
      ((t'.proceed 1 ⟨"", "", none⟩).lineage "t").entries =
        [⟨"1", ["a"], ["b"], .reverted, ""⟩] :=
  ⟨⟨_, _, _, _, rfl, rfl, rfl, rfl, by decide +kernel⟩, by decide +kernel, by decide +kernel,
    by decide +kernel⟩

end Traffic

end SegmentSwap
