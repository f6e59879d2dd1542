import Mathlib.Algebra.Order.Archimedean.Basic
import Mathlib.Order.Filter.AtTopBot.Basic
import Mathlib.Tactic

/-!
# Bisecting an interval again and again

After `n` bisections the interval from `lo` to `hi` is cut at the values
`lo + k / 2 ^ n * (hi - lo)` for integers `k`. Cutting one half `n` times makes the same cuts as
cutting the whole once more. Over an Archimedean field the pieces shrink below any length.
-/

namespace Spatial

variable {K : Type*} [Field K]

/-- The value is a cut after `n` bisections of the interval from `lo` to `hi`. -/
def OnBisection (lo hi v : K) (n : ℕ) : Prop := ∃ k : ℤ, v = lo + k / (2 ^ n : ℕ) * (hi - lo)

theorem onBisection_iff {lo hi v : K} {n : ℕ} :
    OnBisection lo hi v n ↔ ∃ k : ℤ, v = lo + k / 2 ^ n * (hi - lo) := by
  rw [OnBisection, Nat.cast_pow, Nat.cast_ofNat]

section Ordered

variable [LinearOrder K] [IsStrictOrderedRing K] {lo hi v : K} {n : ℕ}

theorem onBisection_lower_iff :
    OnBisection lo ((lo + hi) / 2) v n ↔ OnBisection lo hi v (n + 1) := by
  rw [onBisection_iff, onBisection_iff]
  refine exists_congr fun k ↦ ?_
  have hcut : lo + (k : K) / 2 ^ n * ((lo + hi) / 2 - lo)
      = lo + k / 2 ^ (n + 1) * (hi - lo) := by
    rw [pow_succ]
    field_simp
    ring
  rw [hcut]

theorem onBisection_upper_iff :
    OnBisection ((lo + hi) / 2) hi v n ↔ OnBisection lo hi v (n + 1) := by
  have hcut : ∀ k : ℤ, (lo + hi) / 2 + (k : K) / 2 ^ n * (hi - (lo + hi) / 2)
      = lo + ((k + 2 ^ n : ℤ) : K) / 2 ^ (n + 1) * (hi - lo) := by
    intro k
    push_cast
    rw [pow_succ]
    field_simp
    ring
  rw [onBisection_iff, onBisection_iff]
  constructor
  · rintro ⟨k, rfl⟩
    exact ⟨k + 2 ^ n, hcut k⟩
  · rintro ⟨k, rfl⟩
    refine ⟨k - 2 ^ n, ?_⟩
    rw [hcut, sub_add_cancel]

theorem onBisection_midpoint (lo hi : K) : OnBisection lo hi ((lo + hi) / 2) 1 := by
  refine onBisection_iff.mpr ⟨1, ?_⟩
  push_cast
  ring

theorem OnBisection.mono {m : ℕ} (h : OnBisection lo hi v n) (hnm : n ≤ m) :
    OnBisection lo hi v m := by
  obtain ⟨k, rfl⟩ := onBisection_iff.mp h
  obtain ⟨d, rfl⟩ := Nat.exists_eq_add_of_le hnm
  refine onBisection_iff.mpr ⟨k * 2 ^ d, ?_⟩
  push_cast
  rw [pow_add, mul_div_mul_right _ _ (by positivity)]

/-- Without a bisection, the only cuts are at the ends and outside. -/
theorem not_onBisection_zero (hlo : lo < v) (hhi : v < hi) : ¬OnBisection lo hi v 0 := by
  rw [onBisection_iff]
  rintro ⟨k, rfl⟩
  have hlen : 0 < hi - lo := by linarith
  rw [pow_zero, div_one] at hlo hhi
  have hpos : (0 : K) < k := pos_of_mul_pos_left (by linarith) hlen.le
  have hone : (k : K) < 1 := by
    by_contra hle
    have hge : hi - lo ≤ k * (hi - lo) := le_mul_of_one_le_left hlen.le (not_lt.mp hle)
    linarith
  have hpos' : 0 < k := by exact_mod_cast hpos
  have hone' : k < 1 := by exact_mod_cast hone
  omega

/-- A length is exceeded by enough halvings of any other. -/
theorem eventually_div_two_pow_lt [Archimedean K] (side : K) {gap : K} (hgap : 0 < gap) :
    ∀ᶠ n : ℕ in Filter.atTop, side / 2 ^ n < gap := by
  obtain ⟨m, hm⟩ := pow_unbounded_of_one_lt (side / gap) (one_lt_two : (1 : K) < 2)
  refine Filter.eventually_atTop.mpr ⟨m, fun n hn ↦ ?_⟩
  have hpow : (2 : K) ^ m ≤ 2 ^ n := pow_le_pow_right₀ one_le_two hn
  rw [div_lt_iff₀ (by positivity)]
  rw [div_lt_iff₀ hgap] at hm
  calc side < 2 ^ m * gap := hm
    _ ≤ 2 ^ n * gap := by gcongr
    _ = gap * 2 ^ n := mul_comm _ _

end Ordered

end Spatial
