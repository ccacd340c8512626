import Mathlib.Data.List.Basic
import Mathlib.Data.List.Induction
import SegmentSwap.Proofs.Text.Utf8
import SegmentSwap.Text.Sorted

/-!
# The order of texts

Code points are ordered by their numbers, and different ones have different numbers. So of two
different texts one comes before the other, and a set of names has one rising form, in which each
name stands once. The distinct names of a list stand in the order of the places where each of them
is found first.
-/

namespace SegmentSwap

namespace Point

/-- No character has the number of a half. -/
theorem number_ne (c : Char) (n : Fin 0x800) : (char c).number ≠ (half n).number := by
  have hn := n.isLt
  have hc := Text.Utf8.char_range c
  simp only [number]
  omega

theorem number_injective {a b : Point} (h : a.number = b.number) : a = b := by
  cases a with
  | char c =>
    cases b with
    | char d => rw [Char.toNat_inj.mp h]
    | half n => exact absurd h (number_ne c n)
  | half m =>
    cases b with
    | char d => exact absurd h.symm (number_ne d m)
    | half n => rw [Fin.ext (Nat.add_left_cancel h)]

instance : Trans (· < · : Point → Point → Prop) (· < ·) (· < ·) := ⟨Nat.lt_trans⟩

instance : Std.Asymm (· < · : Point → Point → Prop) := ⟨fun _ _ => Nat.lt_asymm⟩

instance : Std.Trichotomous (· < · : Point → Point → Prop) where
  trichotomous _ _ hab hba :=
    number_injective (Nat.le_antisymm (Nat.not_lt.mp hba) (Nat.not_lt.mp hab))

end Point

namespace Text

theorem lt_trans {a b c : Text} (hab : a < b) (hbc : b < c) : a < c :=
  List.lt_trans hab hbc

/-- Of two different texts one comes before the other. -/
theorem lt_of_not_lt {a b : Text} (hne : a ≠ b) (hlt : ¬ a < b) : b < a := by
  have hle : b.points ≤ a.points := hlt
  rcases List.le_iff_lt_or_eq.mp hle with hlt | heq
  · exact hlt
  · exact absurd (congrArg Text.mk heq.symm) hne

theorem pairwise_insertName {name : Text} {names : List Text} (h : names.Pairwise (· < ·)) :
    (insertName name names).Pairwise (· < ·) := by
  induction names with
  | nil => exact List.pairwise_singleton _ _
  | cons first rest ih =>
    obtain ⟨hfirst, hrest⟩ := List.pairwise_cons.mp h
    unfold insertName
    split
    · exact h
    · rename_i hne
      split
      · rename_i hlt
        refine List.pairwise_cons.mpr ⟨fun x hx => ?_, h⟩
        rcases List.mem_cons.mp hx with rfl | hx
        · exact hlt
        · exact lt_trans hlt (hfirst x hx)
      · rename_i hlt
        refine List.pairwise_cons.mpr ⟨fun x hx => ?_, ih hrest⟩
        rcases mem_insertName.mp hx with rfl | hx
        · exact lt_of_not_lt hne hlt
        · exact hfirst x hx

/-- The names of a set rise, and so each stands once. -/
theorem pairwise_sortedSet (names : List Text) : (sortedSet names).Pairwise (· < ·) := by
  induction names with
  | nil => exact List.Pairwise.nil
  | cons name rest ih => exact pairwise_insertName ih

/-- The names of a list, each once, in the order in which they first occur there. -/
structure Firsts (names firsts : List Text) : Prop where
  mem : ∀ s, s ∈ firsts ↔ s ∈ names
  rising : firsts.Pairwise fun a b => names.idxOf a < names.idxOf b

namespace Firsts

variable {names firsts : List Text} {name : Text}

theorem pairwise_append (h : Firsts names firsts) (more : List Text) :
    firsts.Pairwise fun a b => (names ++ more).idxOf a < (names ++ more).idxOf b := by
  refine h.rising.imp_of_mem fun ha hb hab => ?_
  rw [List.idxOf_append_of_mem ((h.mem _).mp ha), List.idxOf_append_of_mem ((h.mem _).mp hb)]
  exact hab

theorem append_old (h : Firsts names firsts) (hname : name ∈ names) :
    Firsts (names ++ [name]) firsts := by
  refine ⟨fun s => ?_, h.pairwise_append _⟩
  rw [h.mem, List.mem_append, List.mem_singleton]
  exact ⟨.inl, fun hs => hs.elim id (· ▸ hname)⟩

theorem append_new (h : Firsts names firsts) (hname : name ∉ names) :
    Firsts (names ++ [name]) (firsts ++ [name]) := by
  refine ⟨fun s => ?_, ?_⟩
  · rw [List.mem_append, List.mem_append, h.mem]
  · refine List.pairwise_append.mpr ⟨h.pairwise_append _, List.pairwise_singleton _ _, ?_⟩
    intro a ha b hb
    obtain rfl := List.mem_singleton.mp hb
    have hold := (h.mem a).mp ha
    rw [List.idxOf_append_of_mem hold, List.idxOf_append_of_notMem hname]
    exact Nat.lt_add_right _ (List.idxOf_lt_length_of_mem hold)

end Firsts

theorem firsts_distinct (names : List Text) : Firsts names (distinct names) := by
  induction names using List.reverseRecOn with
  | nil => exact ⟨fun s => Iff.rfl, List.Pairwise.nil⟩
  | append_singleton names name ih =>
    have hstep : distinct (names ++ [name]) =
        if (distinct names).contains name then distinct names else distinct names ++ [name] := by
      unfold distinct
      rw [List.foldl_append]
      rfl
    rw [hstep]
    split
    · rename_i hseen
      exact ih.append_old ((ih.mem name).mp (List.contains_iff_mem.mp hseen))
    · rename_i hseen
      exact ih.append_new fun hname => hseen (List.contains_iff_mem.mpr ((ih.mem name).mpr hname))

end Text

end SegmentSwap
