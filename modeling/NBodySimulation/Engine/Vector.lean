import Mathlib.Analysis.Real.Sqrt
import Mathlib.Tactic

/-!
# Engine geometry over exact numbers

The plain value types that the simulation borrows from the engine: `FVector2D`, `FVector`,
`FBox2D` and `FTransform`, with the handful of their operations that the simulation calls. The
scalar type is a parameter `K`. Everything that only compares and divides is computable over any
ordered field, so that tree construction runs over `ℚ`; the Euclidean distance needs square roots
of sums of two squares, which is what `PythagoreanField` adds.

## What is assumed of the engine

* `FBox2D::IsInside` is strict on all four sides.
* `FBox2D::GetCenterAndExtents` returns the midpoint and the half sizes.
* `FVector2D::Distance` is the Euclidean distance.
-/

namespace NBodySimulation

/-! ## Numbers with Euclidean distance -/

/-- An ordered field in which every sum of two squares has a nonnegative root. -/
class PythagoreanField (K : Type*) [Field K] [LinearOrder K] where
  /-- The length of the hypotenuse over legs `x` and `y`. -/
  hypot : K → K → K
  hypot_nonneg : ∀ x y, 0 ≤ hypot x y
  hypot_sq : ∀ x y, hypot x y ^ 2 = x ^ 2 + y ^ 2

noncomputable instance : PythagoreanField ℝ where
  hypot x y := √(x ^ 2 + y ^ 2)
  hypot_nonneg _ _ := Real.sqrt_nonneg _
  hypot_sq _ _ := Real.sq_sqrt (by positivity)

/-! ## Vectors -/

@[ext] structure FVector2D (K : Type*) where
  x : K
  y : K
deriving DecidableEq

@[ext] structure FVector (K : Type*) where
  x : K
  y : K
  z : K
deriving DecidableEq

namespace FVector2D

section Algebra

variable {K : Type*} [Field K]

instance : Zero (FVector2D K) := ⟨⟨0, 0⟩⟩
instance : Add (FVector2D K) := ⟨fun v w ↦ ⟨v.x + w.x, v.y + w.y⟩⟩
instance : Neg (FVector2D K) := ⟨fun v ↦ ⟨-v.x, -v.y⟩⟩
instance : Sub (FVector2D K) := ⟨fun v w ↦ ⟨v.x - w.x, v.y - w.y⟩⟩
/-- `Scale * V`. -/
instance : HMul K (FVector2D K) (FVector2D K) := ⟨fun s v ↦ ⟨s * v.x, s * v.y⟩⟩
/-- `V * Scale`. -/
instance : HMul (FVector2D K) K (FVector2D K) := ⟨fun v s ↦ ⟨v.x * s, v.y * s⟩⟩
/-- `V / Scale`. -/
instance : HDiv (FVector2D K) K (FVector2D K) := ⟨fun v s ↦ ⟨v.x / s, v.y / s⟩⟩

@[simp] theorem x_zero : (0 : FVector2D K).x = 0 := rfl
@[simp] theorem y_zero : (0 : FVector2D K).y = 0 := rfl
@[simp] theorem x_add (v w : FVector2D K) : (v + w).x = v.x + w.x := rfl
@[simp] theorem y_add (v w : FVector2D K) : (v + w).y = v.y + w.y := rfl
@[simp] theorem x_neg (v : FVector2D K) : (-v).x = -v.x := rfl
@[simp] theorem y_neg (v : FVector2D K) : (-v).y = -v.y := rfl
@[simp] theorem x_sub (v w : FVector2D K) : (v - w).x = v.x - w.x := rfl
@[simp] theorem y_sub (v w : FVector2D K) : (v - w).y = v.y - w.y := rfl
@[simp] theorem x_smul (s : K) (v : FVector2D K) : (s * v).x = s * v.x := rfl
@[simp] theorem y_smul (s : K) (v : FVector2D K) : (s * v).y = s * v.y := rfl
@[simp] theorem x_mul (v : FVector2D K) (s : K) : (v * s).x = v.x * s := rfl
@[simp] theorem y_mul (v : FVector2D K) (s : K) : (v * s).y = v.y * s := rfl
@[simp] theorem x_div (v : FVector2D K) (s : K) : (v / s).x = v.x / s := rfl
@[simp] theorem y_div (v : FVector2D K) (s : K) : (v / s).y = v.y / s := rfl

instance : AddCommGroup (FVector2D K) where
  add_assoc _ _ _ := by ext <;> simp [add_assoc]
  zero_add _ := by ext <;> simp
  add_zero _ := by ext <;> simp
  add_comm _ _ := by ext <;> simp [add_comm]
  neg_add_cancel _ := by ext <;> simp
  sub_eq_add_neg _ _ := by ext <;> simp [sub_eq_add_neg]
  nsmul := nsmulRec
  zsmul := zsmulRec

theorem x_nsmul (n : ℕ) (v : FVector2D K) : (n • v).x = n • v.x := by
  induction n with
  | zero => rw [zero_nsmul, zero_nsmul, x_zero]
  | succ n ih => rw [succ_nsmul, succ_nsmul, x_add, ih]

theorem y_nsmul (n : ℕ) (v : FVector2D K) : (n • v).y = n • v.y := by
  induction n with
  | zero => rw [zero_nsmul, zero_nsmul, y_zero]
  | succ n ih => rw [succ_nsmul, succ_nsmul, y_add, ih]

instance [IsAddTorsionFree K] : IsAddTorsionFree (FVector2D K) where
  nsmul_right_injective n hn v w h := by
    have hx := congrArg FVector2D.x h
    have hy := congrArg FVector2D.y h
    simp only [x_nsmul, y_nsmul, nsmul_right_inj hn] at hx hy
    exact FVector2D.ext hx hy

theorem add_scale (v w : FVector2D K) (s : K) : (v + w) * s = v * s + w * s := by
  ext <;> simp [add_mul]

@[simp] theorem zero_scale (s : K) : (0 : FVector2D K) * s = 0 := by
  ext <;> simp

@[simp] theorem scale_zero (v : FVector2D K) : v * (0 : K) = 0 := by
  ext <;> simp

@[simp] theorem scale_one (v : FVector2D K) : v * (1 : K) = v := by
  ext <;> simp

theorem scale_inj {v w : FVector2D K} {s : K} : v * s = w * s ↔ v = w ∨ s = 0 := by
  constructor
  · intro h
    by_cases hs : s = 0
    · exact Or.inr hs
    · have hx := congrArg FVector2D.x h
      have hy := congrArg FVector2D.y h
      exact Or.inl (FVector2D.ext (mul_right_cancel₀ hs hx) (mul_right_cancel₀ hs hy))
  · rintro (rfl | rfl)
    · rfl
    · rw [scale_zero, scale_zero]

theorem sum_scale (l : List (FVector2D K)) (s : K) :
    l.sum * s = (l.map fun v : FVector2D K ↦ v * s).sum := by
  induction l with
  | nil => exact zero_scale s
  | cons v l ih => rw [List.sum_cons, add_scale, ih, List.map_cons, List.sum_cons]

theorem scale_sum (l : List (FVector2D K)) (s : K) :
    s * l.sum = (l.map fun v : FVector2D K ↦ s * v).sum := by
  induction l with
  | nil =>
    ext
    · exact mul_zero s
    · exact mul_zero s
  | cons v l ih =>
    rw [List.sum_cons, List.map_cons, List.sum_cons, ← ih]
    ext
    · exact mul_add s v.x l.sum.x
    · exact mul_add s v.y l.sum.y

end Algebra

section Distance

variable {K : Type*} [Field K] [LinearOrder K] [PythagoreanField K]

def distance (v w : FVector2D K) : K := PythagoreanField.hypot (v.x - w.x) (v.y - w.y)

theorem distance_nonneg (v w : FVector2D K) : 0 ≤ distance v w :=
  PythagoreanField.hypot_nonneg _ _

theorem distance_sq (v w : FVector2D K) :
    distance v w ^ 2 = (v.x - w.x) ^ 2 + (v.y - w.y) ^ 2 :=
  PythagoreanField.hypot_sq _ _

variable [IsStrictOrderedRing K]

/-- Two nonnegative numbers with one square are equal, which is how every distance is computed. -/
theorem distance_eq_of_sq {v w : FVector2D K} {d : K} (hd : 0 ≤ d)
    (h : d ^ 2 = (v.x - w.x) ^ 2 + (v.y - w.y) ^ 2) : distance v w = d := by
  rw [← distance_sq] at h
  exact (pow_left_inj₀ (distance_nonneg v w) hd two_ne_zero).mp h.symm

theorem distance_le_of_sq {v w : FVector2D K} {d : K} (hd : 0 ≤ d)
    (h : (v.x - w.x) ^ 2 + (v.y - w.y) ^ 2 ≤ d ^ 2) : distance v w ≤ d := by
  rw [← distance_sq] at h
  exact (pow_le_pow_iff_left₀ (distance_nonneg v w) hd two_ne_zero).mp h

theorem distance_comm (v w : FVector2D K) : distance v w = distance w v := by
  refine distance_eq_of_sq (distance_nonneg w v) ?_
  rw [distance_sq]
  ring

theorem distance_eq_zero_iff {v w : FVector2D K} : distance v w = 0 ↔ v = w := by
  constructor
  · intro h
    have hsum : (v.x - w.x) ^ 2 + (v.y - w.y) ^ 2 = 0 := by
      rw [← distance_sq, h]
      ring
    have hx : (v.x - w.x) ^ 2 = 0 := by nlinarith [sq_nonneg (v.x - w.x), sq_nonneg (v.y - w.y)]
    have hy : (v.y - w.y) ^ 2 = 0 := by nlinarith [sq_nonneg (v.x - w.x), sq_nonneg (v.y - w.y)]
    ext
    · exact sub_eq_zero.mp (pow_eq_zero_iff two_ne_zero |>.mp hx)
    · exact sub_eq_zero.mp (pow_eq_zero_iff two_ne_zero |>.mp hy)
  · rintro rfl
    exact distance_eq_of_sq le_rfl (by ring)

end Distance

def getMax {K : Type*} [LinearOrder K] (v : FVector2D K) : K := max v.x v.y

end FVector2D

/-! ## Boxes -/

@[ext] structure FBox2D (K : Type*) where
  min : FVector2D K
  max : FVector2D K
deriving DecidableEq

namespace FBox2D

variable {K : Type*} [LinearOrder K]

/-- `FBox2D::IsInside`: strict on all four sides. -/
def isInside (box : FBox2D K) (p : FVector2D K) : Bool :=
  box.min.x < p.x && p.x < box.max.x && box.min.y < p.y && p.y < box.max.y

/-- `FBox2D::GetCenterAndExtents`: the midpoint and the half sizes. -/
def getCenterAndExtents [Field K] (box : FBox2D K) : FVector2D K × FVector2D K :=
  ((box.min + box.max) * (1 / 2 : K), (box.max - box.min) * (1 / 2 : K))

theorem isInside_iff {box : FBox2D K} {p : FVector2D K} : box.isInside p = true ↔
    box.min.x < p.x ∧ p.x < box.max.x ∧ box.min.y < p.y ∧ p.y < box.max.y := by
  simp [isInside, and_assoc]

end FBox2D

/-! ## Transforms -/

/-- `FTransform`: a rotation, a translation and a scale. -/
structure FTransform (K : Type*) where
  rotation : FVector K
  translation : FVector K
  scale3D : FVector K

def FTransform.setTranslation {K : Type*} (t : FTransform K) (translation : FVector K) :
    FTransform K :=
  { t with translation := translation }

end NBodySimulation
