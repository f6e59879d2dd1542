import NBodySimulation.Objects.QuadTree
import NBodySimulation.Spatial.Insertion

/-!
# Cells of a box

The four boxes of `SubDivide`, numbered as in `Children`, are the cells of a subdivision in the
sense of `Spatial.Subdivision`: membership is `IsInside`, each cell lies inside its box and no point
is strictly inside two of them. A point strictly inside a box is in none of its cells exactly when
it lies on one of the two dividing lines.
-/

namespace NBodySimulation

namespace FBox2D

section Quarter

variable {K : Type*} [Field K]

/-- The box of `Children[i]` after `SubDivide`. -/
def quarter (box : FBox2D K) (i : Fin 4) : FBox2D K :=
  let (center, size) := box.getCenterAndExtents
  match i with
  | 0 => ⟨⟨center.x, center.y - size.y⟩, ⟨center.x + size.x, center.y⟩⟩
  | 1 => ⟨⟨center.x, center.y⟩, ⟨center.x + size.x, center.y + size.y⟩⟩
  | 2 => ⟨⟨center.x - size.x, center.y - size.y⟩, ⟨center.x, center.y⟩⟩
  | 3 => ⟨⟨center.x - size.x, center.y⟩, ⟨center.x, center.y + size.y⟩⟩

/-- The box reached by subdividing again and again, into the cells of a path. -/
def subBox (box : FBox2D K) (path : List (Fin 4)) : FBox2D K := path.foldl quarter box

theorem subBox_nil (box : FBox2D K) : box.subBox [] = box := rfl

theorem subBox_cons (box : FBox2D K) (i : Fin 4) (path : List (Fin 4)) :
    box.subBox (i :: path) = (box.quarter i).subBox path := rfl

theorem subBox_append (box : FBox2D K) (path path' : List (Fin 4)) :
    box.subBox (path ++ path') = (box.subBox path).subBox path' :=
  List.foldl_append

/-- The point has a coordinate of the centre of the box. -/
def OnDividingLine (box : FBox2D K) (p : FVector2D K) : Prop :=
  p.x = box.getCenterAndExtents.1.x ∨ p.y = box.getCenterAndExtents.1.y

/-- `Children[0]` and `Children[1]` are right of the centre. -/
def isRight (i : Fin 4) : Bool := i = 0 ∨ i = 1

/-- `Children[1]` and `Children[3]` are above the centre. -/
def isUpper (i : Fin 4) : Bool := i = 1 ∨ i = 3

theorem exists_quarter (right upper : Bool) : ∃ i, isRight i = right ∧ isUpper i = upper := by
  cases right <;> cases upper <;> decide

theorem quarter_ext {i j : Fin 4} (hx : isRight i = isRight j) (hy : isUpper i = isUpper j) :
    i = j := by
  revert i j
  decide

end Quarter

section Subdivision

variable {K : Type*} [Field K] [LinearOrder K] [IsStrictOrderedRing K]

omit [LinearOrder K] [IsStrictOrderedRing K] in
theorem center_x (box : FBox2D K) :
    box.getCenterAndExtents.1.x = (box.min.x + box.max.x) / 2 := by
  simp [getCenterAndExtents, div_eq_mul_inv]

omit [LinearOrder K] [IsStrictOrderedRing K] in
theorem center_y (box : FBox2D K) :
    box.getCenterAndExtents.1.y = (box.min.y + box.max.y) / 2 := by
  simp [getCenterAndExtents, div_eq_mul_inv]

omit [LinearOrder K] [IsStrictOrderedRing K] in
theorem extents_x (box : FBox2D K) :
    box.getCenterAndExtents.2.x = (box.max.x - box.min.x) / 2 := by
  simp [getCenterAndExtents, div_eq_mul_inv]

omit [LinearOrder K] [IsStrictOrderedRing K] in
theorem extents_y (box : FBox2D K) :
    box.getCenterAndExtents.2.y = (box.max.y - box.min.y) / 2 := by
  simp [getCenterAndExtents, div_eq_mul_inv]

/-! ## The sides of a cell -/

theorem quarter_min_x (box : FBox2D K) (i : Fin 4) : (box.quarter i).min.x =
    if isRight i then (box.min.x + box.max.x) / 2 else box.min.x := by
  fin_cases i <;> simp [quarter, isRight, center_x, extents_x]
  all_goals ring

theorem quarter_max_x (box : FBox2D K) (i : Fin 4) : (box.quarter i).max.x =
    if isRight i then box.max.x else (box.min.x + box.max.x) / 2 := by
  fin_cases i <;> simp [quarter, isRight, center_x, extents_x]
  all_goals ring

theorem quarter_min_y (box : FBox2D K) (i : Fin 4) : (box.quarter i).min.y =
    if isUpper i then (box.min.y + box.max.y) / 2 else box.min.y := by
  fin_cases i <;> simp [quarter, isUpper, center_y, extents_y]
  all_goals ring

theorem quarter_max_y (box : FBox2D K) (i : Fin 4) : (box.quarter i).max.y =
    if isUpper i then box.max.y else (box.min.y + box.max.y) / 2 := by
  fin_cases i <;> simp [quarter, isUpper, center_y, extents_y]
  all_goals ring

/-- One axis: half of an open interval, cut at the midpoint. -/
private theorem half_interval {lo hi v : K} (upper : Bool) :
    ((if upper then (lo + hi) / 2 else lo) < v ∧ v < (if upper then hi else (lo + hi) / 2)) ↔
      (lo < v ∧ v < hi) ∧ (if upper then (lo + hi) / 2 < v else v < (lo + hi) / 2) := by
  cases upper with
  | true =>
    simp only [if_true]
    exact ⟨fun ⟨h1, h2⟩ ↦ ⟨⟨by linarith, h2⟩, h1⟩, fun ⟨⟨_, h2⟩, h1⟩ ↦ ⟨h1, h2⟩⟩
  | false =>
    simp only [Bool.false_eq_true, if_false]
    exact ⟨fun ⟨h1, h2⟩ ↦ ⟨⟨h1, by linarith⟩, h2⟩, fun ⟨⟨h1, _⟩, h2⟩ ↦ ⟨h1, h2⟩⟩

/-- Strictly inside a cell is strictly inside its box, on the cell's side of both dividing lines. -/
theorem isInside_quarter_iff {box : FBox2D K} {p : FVector2D K} {i : Fin 4} :
    (box.quarter i).isInside p = true ↔ box.isInside p = true ∧
      (if isRight i then (box.min.x + box.max.x) / 2 < p.x
        else p.x < (box.min.x + box.max.x) / 2) ∧
      (if isUpper i then (box.min.y + box.max.y) / 2 < p.y
        else p.y < (box.min.y + box.max.y) / 2) := by
  rw [isInside_iff, isInside_iff, quarter_min_x, quarter_max_x, quarter_min_y, quarter_max_y,
    ← and_assoc, half_interval, half_interval, ← and_assoc (a := box.min.x < p.x),
    and_and_and_comm]

theorem isInside_of_quarter {box : FBox2D K} {p : FVector2D K} {i : Fin 4}
    (h : (box.quarter i).isInside p = true) : box.isInside p = true :=
  (isInside_quarter_iff.mp h).1

theorem quarter_unique {box : FBox2D K} {p : FVector2D K} {i j : Fin 4}
    (hi : (box.quarter i).isInside p = true) (hj : (box.quarter j).isInside p = true) : i = j := by
  obtain ⟨_, hix, hiy⟩ := isInside_quarter_iff.mp hi
  obtain ⟨_, hjx, hjy⟩ := isInside_quarter_iff.mp hj
  refine quarter_ext ?_ ?_
  · cases hI : isRight i <;> cases hJ : isRight j <;> simp only [hI, hJ] at hix hjx ⊢
    · exact absurd hix (not_lt.mpr (le_of_lt hjx))
    · exact absurd hix (not_lt.mpr (le_of_lt hjx))
  · cases hI : isUpper i <;> cases hJ : isUpper j <;> simp only [hI, hJ] at hiy hjy ⊢
    · exact absurd hiy (not_lt.mpr (le_of_lt hjy))
    · exact absurd hiy (not_lt.mpr (le_of_lt hjy))

/-- A point strictly inside a box is in no cell exactly when it lies on a dividing line. -/
theorem onDividingLine_iff {box : FBox2D K} {p : FVector2D K} (h : box.isInside p = true) :
    box.OnDividingLine p ↔ ∀ i, ¬(box.quarter i).isInside p = true := by
  rw [OnDividingLine, center_x, center_y]
  constructor
  · rintro hline i hi
    obtain ⟨_, hx, hy⟩ := isInside_quarter_iff.mp hi
    rcases hline with hline | hline
    · rw [hline] at hx
      split at hx <;> exact lt_irrefl _ hx
    · rw [hline] at hy
      split at hy <;> exact lt_irrefl _ hy
  · intro hnone
    by_contra hline
    rw [not_or] at hline
    obtain ⟨i, hi⟩ := exists_quarter (decide ((box.min.x + box.max.x) / 2 < p.x))
      (decide ((box.min.y + box.max.y) / 2 < p.y))
    refine hnone i (isInside_quarter_iff.mpr ⟨h, ?_, ?_⟩)
    · rw [hi.1]
      by_cases hx : (box.min.x + box.max.x) / 2 < p.x
      · rwa [if_pos (decide_eq_true hx)]
      · rw [if_neg (by simpa using hx)]
        exact lt_of_le_of_ne (not_lt.mp hx) hline.1
    · rw [hi.2]
      by_cases hy : (box.min.y + box.max.y) / 2 < p.y
      · rwa [if_pos (decide_eq_true hy)]
      · rw [if_neg (by simpa using hy)]
        exact lt_of_le_of_ne (not_lt.mp hy) hline.2

variable (K) in
/-- `SubDivide` as a subdivision: the regions are boxes, and the members of a box are the points
that `IsInside` accepts. -/
def quarters : Spatial.Subdivision (Fin 4) (FBox2D K) (FVector2D K) where
  cell := quarter
  Mem box p := box.isInside p = true
  decMem _ _ := inferInstance
  mem_of_mem_cell := isInside_of_quarter
  eq_of_mem_cell := quarter_unique

@[simp] theorem quarters_cell (box : FBox2D K) (i : Fin 4) :
    (quarters K).cell box i = box.quarter i := rfl

@[simp] theorem quarters_descend (box : FBox2D K) (path : List (Fin 4)) :
    (quarters K).descend box path = box.subBox path := rfl

end Subdivision

end FBox2D

end NBodySimulation
