import Mathlib.Algebra.Order.Field.Basic
import Mathlib.Data.Finset.Max
import Mathlib.Data.Finset.Prod
import Mathlib.Order.Interval.Finset.Nat
import Mathlib.Tactic

/-!
# Cells of a grid that meet a window

A line is cut into cells of one width. A window of length `l` is met by at most `l / width + 2` of
the closed cells: the ones between the first and the last that it meets lie within it. In the plane
the two counts multiply.
-/

namespace Spatial

variable {K : Type*} [Field K] [LinearOrder K]

/-- The closed cell `k` of the grid that starts at `lo` meets the window from `a` to `b`. -/
def MeetsWindow (lo width a b : K) (k : ℕ) : Prop :=
  lo + k * width ≤ b ∧ a ≤ lo + k * width + width

variable [IsStrictOrderedRing K] {lo width a b lo' width' a' b' : K}

/-- **Cells of a line** that meet a window. -/
theorem card_le_of_meetsWindow (hwidth : 0 < width) (hab : a ≤ b) {s : Finset ℕ}
    (h : ∀ k ∈ s, MeetsWindow lo width a b k) : (s.card : K) ≤ (b - a) / width + 2 := by
  have hlen : 0 ≤ (b - a) / width := div_nonneg (sub_nonneg.mpr hab) hwidth.le
  rcases s.eq_empty_or_nonempty with rfl | hne
  · rw [Finset.card_empty, Nat.cast_zero]
    linarith
  · obtain ⟨_, hfirst⟩ := h _ (s.min'_mem hne)
    obtain ⟨hlast, _⟩ := h _ (s.max'_mem hne)
    have hle : s.min' hne ≤ s.max' hne := s.min'_le _ (s.max'_mem hne)
    have hsub : s ⊆ Finset.Icc (s.min' hne) (s.max' hne) := fun k hk ↦
      Finset.mem_Icc.mpr ⟨s.min'_le k hk, s.le_max' k hk⟩
    have hcard : s.card + s.min' hne ≤ s.max' hne + 1 := by
      have := Finset.card_le_card hsub
      rw [Nat.card_Icc] at this
      omega
    have hcast : (s.card : K) + s.min' hne ≤ s.max' hne + 1 := by exact_mod_cast hcard
    -- the cells strictly between the first and the last fill part of the window
    have hfill : ((s.max' hne : K) - s.min' hne - 1) ≤ (b - a) / width := by
      rw [le_div_iff₀ hwidth]
      linarith
    linarith

/-- **Cells of the plane** that meet a window, told apart by their column and row. -/
theorem card_le_of_meetsWindows {ι : Type*} {s : Finset ι} {col row : ι → ℕ}
    (hinj : Set.InjOn (fun i ↦ (col i, row i)) (s : Set ι)) (hwidth : 0 < width) (hab : a ≤ b)
    (hcol : ∀ i ∈ s, MeetsWindow lo width a b (col i)) (hwidth' : 0 < width') (hab' : a' ≤ b')
    (hrow : ∀ i ∈ s, MeetsWindow lo' width' a' b' (row i)) :
    (s.card : K) ≤ ((b - a) / width + 2) * ((b' - a') / width' + 2) := by
  classical
  have hcols : ((s.image col).card : K) ≤ (b - a) / width + 2 :=
    card_le_of_meetsWindow hwidth hab fun k hk ↦ by
      obtain ⟨i, hi, rfl⟩ := Finset.mem_image.mp hk
      exact hcol i hi
  have hrows : ((s.image row).card : K) ≤ (b' - a') / width' + 2 :=
    card_le_of_meetsWindow hwidth' hab' fun k hk ↦ by
      obtain ⟨i, hi, rfl⟩ := Finset.mem_image.mp hk
      exact hrow i hi
  have hsub : s.image (fun i ↦ (col i, row i)) ⊆ s.image col ×ˢ s.image row := by
    intro p hp
    obtain ⟨i, hi, rfl⟩ := Finset.mem_image.mp hp
    exact Finset.mk_mem_product (Finset.mem_image_of_mem col hi) (Finset.mem_image_of_mem row hi)
  have hcard : s.card ≤ (s.image col).card * (s.image row).card := by
    rw [← Finset.card_image_of_injOn hinj, ← Finset.card_product]
    exact Finset.card_le_card hsub
  calc (s.card : K)
      ≤ (s.image col).card * (s.image row).card := by exact_mod_cast hcard
    _ ≤ ((b - a) / width + 2) * ((b' - a') / width' + 2) :=
        mul_le_mul hcols hrows (Nat.cast_nonneg _) ((Nat.cast_nonneg _).trans hcols)

end Spatial
