import Mathlib.Algebra.BigOperators.Ring.Finset
import Mathlib.Data.Fintype.Card

/-!
# How many of them

The number of the members of a finite family that a test counts, and what
becomes of it when one of them changes.
-/

namespace OpenAmp.Lib

variable {ι : Type*} [Fintype ι] {f g : ι → Bool}

/-- How many members `f` counts. -/
def tally (f : ι → Bool) : Nat := (Finset.univ.filter fun t => f t = true).card

theorem tally_congr (h : ∀ t, f t = g t) : tally f = tally g := by
  rw [funext h]

theorem tally_mono (h : ∀ t, f t = true → g t = true) : tally f ≤ tally g := by
  apply Finset.card_le_card
  intro t ht
  rw [Finset.mem_filter] at ht ⊢
  exact ⟨ht.1, h t ht.2⟩

theorem tally_le_card (f : ι → Bool) : tally f ≤ Fintype.card ι :=
  Finset.card_le_univ _

theorem tally_pos {t : ι} (h : f t = true) : 0 < tally f :=
  Finset.card_pos.mpr ⟨t, Finset.mem_filter.mpr ⟨Finset.mem_univ t, h⟩⟩

theorem tally_eq_zero (h : ∀ t, f t = false) : tally f = 0 := by
  refine Finset.card_eq_zero.mpr (Finset.filter_eq_empty_iff.mpr ?_)
  intro t _ ht
  rw [h t] at ht
  cases ht

/-- Fewer where one more is counted by `g`. -/
theorem tally_lt {t : ι} (h : ∀ t, f t = true → g t = true)
    (hf : f t = false) (hg : g t = true) : tally f < tally g := by
  apply Finset.card_lt_card
  refine Finset.ssubset_iff_subset_ne.mpr ⟨?_, fun heq => ?_⟩
  · intro u hu
    rw [Finset.mem_filter] at hu ⊢
    exact ⟨hu.1, h u hu.2⟩
  · have hmem : t ∈ Finset.univ.filter fun t => g t = true :=
      Finset.mem_filter.mpr ⟨Finset.mem_univ t, hg⟩
    rw [← heq, Finset.mem_filter, hf] at hmem
    cases hmem.2

/-- If not as many are counted by `f`, one is counted by `g` only. -/
theorem exists_of_tally_lt (h : tally f < tally g) :
    ∃ t, f t = false ∧ g t = true := by
  by_contra hnone
  push Not at hnone
  refine absurd (tally_mono fun t ht => ?_) (Nat.not_le.mpr h)
  by_contra hf
  exact hnone t (Bool.eq_false_of_not_eq_true hf) ht

/-- **One member changes.** -/
theorem tally_change {t : ι} (h : ∀ u, u ≠ t → f u = g u) :
    tally g + (f t).toNat = tally f + (g t).toNat := by
  classical
  have hsum : ∀ k : ι → Bool, tally k =
      (k t).toNat + ∑ u ∈ Finset.univ.erase t, (k u).toNat := by
    intro k
    have hbool : ∀ u, (if k u = true then 1 else 0) = (k u).toNat := by
      intro u
      cases k u <;> rfl
    rw [tally, Finset.card_filter, Finset.sum_congr rfl fun u _ => hbool u]
    exact (Finset.add_sum_erase _ _ (Finset.mem_univ t)).symm
  have hrest : ∑ u ∈ Finset.univ.erase t, (f u).toNat =
      ∑ u ∈ Finset.univ.erase t, (g u).toNat :=
    Finset.sum_congr rfl fun u hu => by rw [h u (Finset.ne_of_mem_erase hu)]
  rw [hsum f, hsum g, hrest]
  omega

end OpenAmp.Lib
