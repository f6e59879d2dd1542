import NBodySimulation.Forces.Counting
import NBodySimulation.Forces.Pruning
import NBodySimulation.Quadtree.Depth
import NBodySimulation.Quadtree.Division
import NBodySimulation.Spatial.Grid

/-!
# What a traversal costs

A traversal invokes `CalculateForcesBarnesHut` on the root, and on the four children of every split
that it opens. A split that is opened has its centre within `s / Theta` of the body, where `s` is
half the longer side of its box, and the centre lies in the box. So the boxes of one depth that are
opened all meet one square around the body, which in units of these boxes has the same size at every
depth, and there are at most as many of them as a grid allows:

```text
(M / (Theta * W) + 2) * (M / (Theta * H) + 2),   M = max W H
```

for a scene of width `W` and height `H`. The number of bodies does not enter. It does enter through
the height of the tree, which is what the bound is multiplied with.

A split without a defined centre passes no far test. Where the aggregation has divided by zero, the
bound that is left is the size of the tree.

## Main results

* `simulateBarnesHut_cost`: the invocations of a Barnes-Hut phase.
-/

namespace NBodySimulation

open Spatial Spatial.PointTree

/-! ## The place of a box in the grid of its depth -/

namespace FBox2D

/-- The number of the box at the end of a path among the boxes of its depth along one axis, where
`upper` tells which half a cell is in. -/
def offset (upper : Fin 4 → Bool) : List (Fin 4) → ℕ
  | [] => 0
  | i :: path => (if upper i then 2 ^ path.length else 0) + offset upper path

variable {K : Type*} [Field K] [LinearOrder K] [IsStrictOrderedRing K] {box : FBox2D K}

private theorem subBox_min_x (box : FBox2D K) (path : List (Fin 4)) : (box.subBox path).min.x
    = box.min.x + offset isRight path * ((box.max.x - box.min.x) / 2 ^ path.length) := by
  induction path generalizing box with
  | nil => simp [subBox_nil, offset]
  | cons i path ih =>
    rw [subBox_cons, ih, quarter_min_x, quarter_max_x, offset, List.length_cons, pow_succ]
    cases isRight i with
    | true =>
      simp only [if_true, Nat.cast_add, Nat.cast_pow, Nat.cast_ofNat]
      field_simp
      ring
    | false =>
      simp only [Bool.false_eq_true, if_false, zero_add]
      field_simp
      ring

private theorem subBox_min_y (box : FBox2D K) (path : List (Fin 4)) : (box.subBox path).min.y
    = box.min.y + offset isUpper path * ((box.max.y - box.min.y) / 2 ^ path.length) := by
  induction path generalizing box with
  | nil => simp [subBox_nil, offset]
  | cons i path ih =>
    rw [subBox_cons, ih, quarter_min_y, quarter_max_y, offset, List.length_cons, pow_succ]
    cases isUpper i with
    | true =>
      simp only [if_true, Nat.cast_add, Nat.cast_pow, Nat.cast_ofNat]
      field_simp
      ring
    | false =>
      simp only [Bool.false_eq_true, if_false, zero_add]
      field_simp
      ring

/-- Column and row tell the boxes of one depth apart. -/
theorem offset_injective (hbox : box.Proper) {path path' : List (Fin 4)}
    (hlen : path.length = path'.length) (hx : offset isRight path = offset isRight path')
    (hy : offset isUpper path = offset isUpper path') : path = path' := by
  refine subBox_injective hbox ?_
  have hminx : (box.subBox path).min.x = (box.subBox path').min.x := by
    rw [subBox_min_x, subBox_min_x, hx, hlen]
  have hminy : (box.subBox path).min.y = (box.subBox path').min.y := by
    rw [subBox_min_y, subBox_min_y, hy, hlen]
  have hwidth := box.width_subBox path
  have hheight := box.height_subBox path
  rw [hlen, ← width_subBox] at hwidth
  rw [hlen, ← height_subBox] at hheight
  refine FBox2D.ext (FVector2D.ext hminx hminy) (FVector2D.ext ?_ ?_)
  · linarith
  · linarith

private theorem getMax_extents_subBox (box : FBox2D K) (path : List (Fin 4)) :
    (box.subBox path).getCenterAndExtents.2.getMax
      = (box.max - box.min).getMax / 2 ^ path.length / 2 := by
  rw [FVector2D.getMax, FVector2D.getMax, extents_x, extents_y, width_subBox, height_subBox,
    FVector2D.x_sub, FVector2D.y_sub, ← max_div_div_right (by positivity),
    ← max_div_div_right zero_le_two]

end FBox2D

/-! ## Centres lie in their boxes -/

section Centres

variable {K : Type*} [Field K]

private theorem FVector2D.x_sum (l : List (FVector2D K)) : l.sum.x = (l.map FVector2D.x).sum := by
  induction l with
  | nil => rfl
  | cons v l ih => rw [List.sum_cons, x_add, ih, List.map_cons, List.sum_cons]

private theorem FVector2D.y_sum (l : List (FVector2D K)) : l.sum.y = (l.map FVector2D.y).sum := by
  induction l with
  | nil => rfl
  | cons v l ih => rw [List.sum_cons, y_add, ih, List.map_cons, List.sum_cons]

variable [LinearOrder K] [IsStrictOrderedRing K]

private theorem le_mean_le (lo hi : K) {l : List K} (hne : l ≠ []) (h : ∀ v ∈ l, lo ≤ v ∧ v ≤ hi) :
    lo ≤ l.sum / l.length ∧ l.sum / l.length ≤ hi := by
  have hlen : (0 : K) < l.length := Nat.cast_pos.mpr (List.length_pos_of_ne_nil hne)
  have hlo := l.card_nsmul_le_sum lo fun v hv ↦ (h v hv).1
  have hhi := l.sum_le_card_nsmul hi fun v hv ↦ (h v hv).2
  rw [nsmul_eq_mul] at hlo hhi
  rw [le_div_iff₀' hlen, div_le_iff₀' hlen]
  exact ⟨hlo, hhi⟩

theorem FBox2D.isInsideOrOn_mean {box : FBox2D K} {l : List (FVector2D K)} (hne : l ≠ [])
    (h : ∀ p ∈ l, box.IsInsideOrOn p) : box.IsInsideOrOn (l.sum / (l.length : K)) := by
  have hx := le_mean_le box.min.x box.max.x (l := l.map FVector2D.x) (by simpa using hne)
    fun v hv ↦ by
      obtain ⟨p, hp, rfl⟩ := List.mem_map.mp hv
      exact (h p hp).1
  have hy := le_mean_le box.min.y box.max.y (l := l.map FVector2D.y) (by simpa using hne)
    fun v hv ↦ by
      obtain ⟨p, hp, rfl⟩ := List.mem_map.mp hv
      exact (h p hp).2
  rw [List.length_map] at hx hy
  rw [IsInsideOrOn, FVector2D.x_div, FVector2D.y_div, FVector2D.x_sum, FVector2D.y_sum]
  exact ⟨hx, hy⟩

/-- **The centre of a stored node lies in its closed box.** -/
theorem CanonicalFor.isInsideOrOn_centerMass {heap : BodyHeap K} {isRoot : Bool} {box : FBox2D K}
    {S : Multiset BodyRef} {t : BodyTree} (hc : CanonicalFor heap box S t) {center : FVector2D K}
    (hcenter : (UQuadTree.fieldsOf heap isRoot box t).centerMass = some center) :
    box.IsInsideOrOn center := by
  induction t generalizing isRoot box center with
  | empty => exact absurd hcenter (by simp [UQuadTree.fieldsOf])
  | leaf b =>
    rw [UQuadTree.fieldsOf, Option.some.injEq] at hcenter
    have hin : b ∈ (FBox2D.quarters K).inside heap.positions box S := by
      rw [canonical_leaf.mp hc]
      exact Multiset.mem_singleton_self b
    obtain ⟨hx, hx', hy, hy'⟩ := FBox2D.isInside_iff.mp (Subdivision.mem_inside.mp hin).2
    rw [← hcenter]
    exact ⟨⟨hx.le, hx'.le⟩, hy.le, hy'.le⟩
  | split b child ih =>
    have hbox : box.Proper :=
      FBox2D.proper_of_isInside (Subdivision.mem_inside.mp (canonical_split.mp hc).1).2
    obtain ⟨hne, centre, hcentre, rfl⟩ := UQuadTree.centerMass_split_iff.mp hcenter
    have hin : ∀ p ∈ (UQuadTree.occupied child).map centre, box.IsInsideOrOn p := by
      intro p hp
      obtain ⟨i, hi, rfl⟩ := List.mem_map.mp hp
      exact (FBox2D.quarter_within hbox i).isInsideOrOn
        (ih i ((canonical_split.mp hc).2.2 i) (hcentre i hi))
    have hmean := FBox2D.isInsideOrOn_mean (by simpa using hne) hin
    rwa [List.length_map] at hmean

end Centres

/-! ## Invocations -/

section Invocations

variable {K : Type*}

/-- The entry is an invocation of `CalculateForcesBarnesHut`. -/
def Visit.isInvoked : Visit K → Bool
  | .invoked _ => true
  | _ => false

namespace ABodySimulator

variable [Field K] [LinearOrder K] [PythagoreanField K]

/-- How often one call invokes `CalculateForcesBarnesHut`, itself included. -/
def invocations (theta : K) (heap : BodyHeap K) (body : BodyRef) (deltaTime : K)
    (tree : UQuadTree K) : ℕ :=
  (calculateForcesBarnesHut theta body deltaTime tree ⟨heap, []⟩).log.countP Visit.isInvoked

/-- How often `SimulateBarnesHut` invokes it: once for every body of the loop, on the heap that the
bodies before it leave, and recursively. -/
def phaseInvocations (deltaTime : K) (s : ABodySimulator K) : ℕ :=
  (s.bodies.foldl (fun (acc : BodyHeap K × ℕ) body ↦
    let run := calculateForcesBarnesHut s.theta body deltaTime s.quadTree ⟨acc.1, []⟩
    (run.heap, acc.2 + run.log.countP Visit.isInvoked)) (s.objects, 0)).2

private theorem phaseInvocations_le {R : Type*} [Semiring R] [PartialOrder R] [IsOrderedRing R]
    {deltaTime : K} {s : ABodySimulator K} {c : R}
    (h : ∀ heap body, (invocations s.theta heap body deltaTime s.quadTree : R) ≤ c) :
    (s.phaseInvocations deltaTime : R) ≤ s.bodies.length * c := by
  have hloop : ∀ (bodies : List BodyRef) (acc : BodyHeap K × ℕ),
      ((bodies.foldl (fun (acc : BodyHeap K × ℕ) body ↦
        let run := calculateForcesBarnesHut s.theta body deltaTime s.quadTree ⟨acc.1, []⟩
        (run.heap, acc.2 + run.log.countP Visit.isInvoked)) acc).2 : R)
        ≤ acc.2 + bodies.length * c := by
    intro bodies
    induction bodies with
    | nil => exact fun acc ↦ by simp
    | cons b bodies ih =>
      intro acc
      have hone := h acc.1 b
      rw [invocations] at hone
      rw [List.foldl_cons, List.length_cons]
      refine (ih _).trans ?_
      dsimp only
      rw [Nat.cast_add, Nat.cast_add, Nat.cast_one, add_mul, one_mul, add_assoc, add_comm _ c]
      gcongr
  have hall := hloop s.bodies (s.objects, 0)
  rwa [Nat.cast_zero, zero_add] at hall

open UQuadTree

section Stored

variable {theta deltaTime : K} {heap heap' : BodyHeap K} {body : BodyRef} {isRoot : Bool}
  {box : FBox2D K}

variable (theta heap heap' body) in
/-- The traversal goes on beneath a node that does not pass the far test. -/
def goesOn (box : FBox2D K) (t : BodyTree) : Bool := !isFar theta heap heap' body false box t

omit [LinearOrder K] [PythagoreanField K] in
private theorem getCenterOfMass_isRoot (t : BodyTree) :
    getCenterOfMass heap (fieldsOf heap' isRoot box t) (childrenOf heap' box t)
      = getCenterOfMass heap (fieldsOf heap' false box t) (childrenOf heap' box t) := by
  rw [getCenterOfMass, getCenterOfMass, leafBody_represent, leafBody_represent,
    centerMass_isRoot heap' isRoot]

private theorem isFar_isRoot (isRoot : Bool) (t : BodyTree) :
    isFar theta heap heap' body isRoot box t = isFar theta heap heap' body false box t := by
  rw [isFar, isFar, farTest, farTest, getCenterOfMass_isRoot, fieldsOf_box, fieldsOf_box]

omit [PythagoreanField K] in
private theorem countP_isInvoked_farVisits (self : Fields K) (children : List (UQuadTree K)) :
    (farVisits heap self children).countP Visit.isInvoked = 0 := by
  rw [farVisits]
  split
  · rfl
  · rfl

variable [IsStrictOrderedRing K]

/-- **A traversal invokes itself** on the root and on four children for every split it opens. -/
theorem countP_isInvoked_visits (t : BodyTree) :
    (visits theta heap body (represent heap' isRoot box t)).countP Visit.isInvoked
      = 1 + 4 * (opened (FBox2D.quarters K) (goesOn theta heap heap' body) box t).card := by
  induction t generalizing isRoot box with
  | empty =>
    rw [visits_empty]
    rfl
  | leaf b =>
    rw [visits_leaf, List.countP_cons_of_pos rfl]
    split
    · rfl
    · rw [List.countP_cons_of_neg (by simp [Visit.isInvoked])]
      split
      · rw [countP_isInvoked_farVisits]
        rfl
      · rfl
  | split b child ih =>
    have hgo : goesOn theta heap heap' body box (split b child)
        = !isFar theta heap heap' body isRoot box (split b child) := by
      rw [goesOn, isFar_isRoot isRoot]
    rw [visits_split, List.countP_cons_of_pos rfl]
    cases hfar : isFar theta heap heap' body isRoot box (split b child) with
    | true =>
      rw [if_pos rfl, countP_isInvoked_farVisits, card_opened_split_of_not (by simp [hgo, hfar])]
    | false =>
      have hlist : List.finRange 4 = [0, 1, 2, 3] := rfl
      rw [if_neg Bool.false_ne_true, card_opened_split (by simp [hgo, hfar]), Fin.sum_univ_four,
        hlist]
      simp only [List.flatMap_cons, List.flatMap_nil, List.append_nil, List.countP_append, ih,
        FBox2D.quarters_cell]
      omega

private theorem invocations_represent (t : BodyTree) :
    invocations theta heap body deltaTime (represent heap' isRoot box t)
      = 1 + 4 * (opened (FBox2D.quarters K) (goesOn theta heap heap' body) box t).card := by
  rw [invocations, log_eq_visits, countP_isInvoked_visits]

end Stored

end ABodySimulator

end Invocations

/-! ## The splits opened on one level -/

namespace ABodySimulator

open UQuadTree

/-- The most splits of one depth that a traversal of the box can open. -/
def openingBound {K : Type*} [Field K] [LinearOrder K] (theta : K) (box : FBox2D K) : K :=
  ((box.max - box.min).getMax / (theta * (box.max.x - box.min.x)) + (2 : ℕ)) *
    ((box.max - box.min).getMax / (theta * (box.max.y - box.min.y)) + (2 : ℕ))

section Levels

variable {K : Type*} [Field K] [LinearOrder K] [PythagoreanField K] [IsStrictOrderedRing K]
  {theta : K} {heap heap' : BodyHeap K} {body : BodyRef} {box : FBox2D K}

/-- A node with a centre that does not pass the far test is not far. -/
theorem theta_mul_distance_le {isRoot : Bool} {t : BodyTree}
    {center : FVector2D K} (hextent : 0 ≤ box.getCenterAndExtents.2.getMax)
    (hcenter : getCenterOfMass heap (fieldsOf heap' isRoot box t) (childrenOf heap' box t)
      = some center)
    (hfar : ¬isFar theta heap heap' body isRoot box t = true) :
    theta * FVector2D.distance center (heap body).position
      ≤ box.getCenterAndExtents.2.getMax := by
  rw [isFar_iff hcenter, not_and, not_lt] at hfar
  by_cases hd : FVector2D.distance center (heap body).position = 0
  · rw [hd, mul_zero]
    exact hextent
  · have hpos := lt_of_le_of_ne (FVector2D.distance_nonneg _ _) (Ne.symm hd)
    exact (le_div_iff₀ hpos).mp (hfar hd)

private theorem abs_sub_le_distance (v w : FVector2D K) :
    |v.x - w.x| ≤ FVector2D.distance v w ∧ |v.y - w.y| ≤ FVector2D.distance v w := by
  have hsq := FVector2D.distance_sq v w
  have hd := FVector2D.distance_nonneg v w
  constructor
  · refine abs_le_of_sq_le_sq ?_ hd
    linarith [sq_nonneg (v.y - w.y)]
  · refine abs_le_of_sq_le_sq ?_ hd
    linarith [sq_nonneg (v.x - w.x)]

/-- The box of an opened split meets the square around the body. -/
theorem meetsWindow_of_mem_opened {S : Multiset BodyRef} {t : BodyTree} {path : List (Fin 4)}
    (hbox : box.Proper) (htheta : 0 < theta) (hc : CanonicalFor heap' box S t)
    (hcentres : ∀ path u, t.subtree path = some u → u.resident.isSome = true →
      (fieldsOf heap' false (box.subBox path) u).centerMass.isSome = true)
    (hpath : path ∈ opened (FBox2D.quarters K) (goesOn theta heap heap' body) box t) :
    MeetsWindow box.min.x ((box.max.x - box.min.x) / 2 ^ path.length)
        ((heap body).position.x - (box.max - box.min).getMax / 2 ^ path.length / 2 / theta)
        ((heap body).position.x + (box.max - box.min).getMax / 2 ^ path.length / 2 / theta)
        (FBox2D.offset FBox2D.isRight path) ∧
      MeetsWindow box.min.y ((box.max.y - box.min.y) / 2 ^ path.length)
        ((heap body).position.y - (box.max - box.min).getMax / 2 ^ path.length / 2 / theta)
        ((heap body).position.y + (box.max - box.min).getMax / 2 ^ path.length / 2 / theta)
        (FBox2D.offset FBox2D.isUpper path) := by
  obtain ⟨b, child, hsub, hgo⟩ := exists_split_of_mem_opened hpath
  rw [FBox2D.quarters_descend, goesOn, Bool.not_eq_true', ← Bool.not_eq_true] at hgo
  obtain ⟨center, hcenter⟩ := Option.isSome_iff_exists.mp (hcentres path _ hsub rfl)
  -- the centre lies in the box, and near the body
  have hin : (box.subBox path).IsInsideOrOn center :=
    CanonicalFor.isInsideOrOn_centerMass (hc.subtree hsub) hcenter
  have hextent := box.getMax_extents_subBox path
  have hnonneg : 0 ≤ (box.subBox path).getCenterAndExtents.2.getMax := by
    rw [FVector2D.getMax, FBox2D.extents_x]
    refine le_max_of_le_left ?_
    linarith [(FBox2D.proper_subBox hbox path).1]
  have hnear := theta_mul_distance_le hnonneg
    ((getCenterOfMass_split heap heap' false _ b child).trans hcenter) hgo
  rw [hextent] at hnear
  have hdistance : FVector2D.distance center (heap body).position
      ≤ (box.max - box.min).getMax / 2 ^ path.length / 2 / theta :=
    (le_div_iff₀' htheta).mpr hnear
  obtain ⟨hx, hy⟩ := abs_sub_le_distance center (heap body).position
  have hx' := abs_le.mp (hx.trans hdistance)
  have hy' := abs_le.mp (hy.trans hdistance)
  have hwidth := box.width_subBox path
  have hheight := box.height_subBox path
  rw [MeetsWindow, MeetsWindow, ← FBox2D.subBox_min_x, ← FBox2D.subBox_min_y, ← hwidth, ← hheight]
  obtain ⟨⟨hx₁, hx₂⟩, hy₁, hy₂⟩ := hin
  refine ⟨⟨?_, ?_⟩, ?_, ?_⟩ <;> linarith

variable (heap body) in
/-- **The splits of one level that a traversal opens** are at most as many as a grid allows. -/
theorem card_opened_level_le {S : Multiset BodyRef} {t : BodyTree} (hbox : box.Proper)
    (htheta : 0 < theta) (hc : CanonicalFor heap' box S t)
    (hcentres : ∀ path u, t.subtree path = some u → u.resident.isSome = true →
      (fieldsOf heap' false (box.subBox path) u).centerMass.isSome = true) (k : ℕ) :
    (((opened (FBox2D.quarters K) (goesOn theta heap heap' body) box t).filter
      fun path ↦ path.length = k).card : K) ≤ openingBound theta box := by
  obtain ⟨hw, hh⟩ := hbox
  have hw' : 0 < box.max.x - box.min.x := sub_pos.mpr hw
  have hh' : 0 < box.max.y - box.min.y := sub_pos.mpr hh
  have hpow : (0 : K) < 2 ^ k := pow_pos two_pos k
  have hside : 0 ≤ (box.max - box.min).getMax := le_max_of_le_left hw'.le
  have hr : 0 ≤ (box.max - box.min).getMax / 2 ^ k / 2 / theta := by positivity
  have hmeets : ∀ path ∈ (opened (FBox2D.quarters K) (goesOn theta heap heap' body) box t).filter
      fun path ↦ path.length = k, _ := fun path hpath ↦
    meetsWindow_of_mem_opened ⟨hw, hh⟩ htheta hc hcentres (Finset.mem_filter.mp hpath).1
  have hlen : ∀ path ∈ (opened (FBox2D.quarters K) (goesOn theta heap heap' body) box t).filter
      fun path ↦ path.length = k, path.length = k := fun path hpath ↦
    (Finset.mem_filter.mp hpath).2
  have hcount := card_le_of_meetsWindows
    (s := (opened (FBox2D.quarters K) (goesOn theta heap heap' body) box t).filter
      fun path ↦ path.length = k) (fun path hpath path' hpath' heq ↦
        FBox2D.offset_injective ⟨hw, hh⟩ ((hlen path hpath).trans (hlen path' hpath').symm)
          (Prod.mk.inj heq).1 (Prod.mk.inj heq).2)
    (div_pos hw' hpow) (by linarith) (fun path hpath ↦ hlen path hpath ▸ (hmeets path hpath).1)
    (div_pos hh' hpow) (by linarith) (fun path hpath ↦ hlen path hpath ▸ (hmeets path hpath).2)
  refine hcount.trans_eq ?_
  rw [openingBound]
  push_cast
  congr 2
  · field_simp
    ring
  · field_simp
    ring

end Levels

end ABodySimulator

/-! ## The Barnes-Hut phase -/

section Phase

open ABodySimulator UQuadTree

variable {K : Type*} [Field K] [LinearOrder K] [PythagoreanField K] [IsStrictOrderedRing K]

omit [PythagoreanField K] in
/-- With a body off the lines of every box, every node of the tree with a body has a centre. -/
theorem CanonicalFor.subtree_centerMass_isSome {heap heap' : BodyHeap K} {box : FBox2D K}
    {bodies : List BodyRef} {t : BodyTree} (hc : CanonicalFor heap box bodies t)
    (hoff : ∀ path : List (Fin 4), heap.SomeOffLines (box.subBox path) bodies)
    (path : List (Fin 4)) (u : BodyTree) (hsub : t.subtree path = some u)
    (hres : u.resident.isSome = true) :
    (fieldsOf heap' false (box.subBox path) u).centerMass.isSome = true := by
  have hu : CanonicalFor heap (box.subBox path) bodies u := hc.subtree hsub
  refine CanonicalFor.centerMass_isSome hu (fun path' ↦ ?_) hres
  rw [← FBox2D.subBox_append]
  exact hoff (path ++ path')

/-- **What a Barnes-Hut phase costs**, on a tree that `n + 1` nested calls of `Insert` build. For
every body it makes at most one invocation of `CalculateForcesBarnesHut`, and four more for each of
`n` levels and every two bodies strictly inside the scene. With a positive `Theta`, and no box whose
bodies are all on its dividing lines, the number of bodies does not enter: four for each of `n`
levels and every cell of that depth that may be near. -/
theorem simulateBarnesHut_cost {n : ℕ} {s s' : ABodySimulator K} (deltaTime : K)
    (h : s.constructTree (n + 1) = .ok s') :
    s'.phaseInvocations deltaTime ≤ s.bodies.length *
        (1 + 4 * (n * ((s.objects.inside s.sceneBounds s.bodies).length / 2))) ∧
      (s.sceneBounds.Proper → 0 < s.theta →
        (∀ path : List (Fin 4), s.objects.SomeOffLines (s.sceneBounds.subBox path) s.bodies) →
          (s'.phaseInvocations deltaTime : K)
            ≤ s.bodies.length * (1 + 4 * (n * openingBound s.theta s.sceneBounds))) := by
  obtain ⟨t, hc, rfl⟩ := constructTree_spec h
  have hc₀ : CanonicalFor s.objects s.sceneBounds s.bodies t :=
    (canonicalFor_settle_iff s.bodies).mp hc
  have ht : t.height ≤ n :=
    hc₀.height_le_iff.mpr ((exists_constructTree_succ_iff s n).mp ⟨_, h⟩)
  constructor
  · refine phaseInvocations_le (s := s.withTree t) fun heap body ↦ ?_
    rw [withTree, invocations_represent]
    exact Nat.add_le_add_left (Nat.mul_le_mul_left 4 (hc₀.card_opened_le ht _)) 1
  · intro hbox htheta hoff
    refine phaseInvocations_le (s := s.withTree t) fun heap body ↦ ?_
    have hcard := card_le_of_levels (fun path ↦ length_lt_of_mem_opened ht) fun k _ ↦
      card_opened_level_le heap body hbox htheta hc (hc₀.subtree_centerMass_isSome hoff) k
    rw [withTree, invocations_represent]
    push_cast
    linarith

end Phase

/-! ## Two bodies side by side -/

private theorem separatedAt_sideBySideScene (theta mass : ℝ) :
    (sideBySideScene theta mass).objects.SeparatedAt (sideBySideScene theta mass).sceneBounds
      (sideBySideScene theta mass).bodies 1 := by
  refine ABodySimulator.FarApart.separatedAt (List.pairwise_pair.mpr fun _ _ ↦ Or.inl ?_)
  norm_num [sideBySideScene, ABodySimulator.ofBodies, UBodyEntity.initializeBody]

private theorem someOffLines_sideBySideScene (theta mass : ℝ) (path : List (Fin 4)) :
    (sideBySideScene theta mass).objects.SomeOffLines
      ((sideBySideScene theta mass).sceneBounds.subBox path)
      (sideBySideScene theta mass).bodies := by
  intro htwo
  cases path with
  | nil =>
    refine ⟨0, ?_, ?_⟩
    · rw [FBox2D.subBox_nil, inside_sideBySideScene]
      norm_num [sideBySideScene, ABodySimulator.ofBodies, FBox2D.isInside]
    · rw [FBox2D.subBox_nil, FBox2D.OnDividingLine, (position_sideBySideScene theta mass).1]
      norm_num [sideBySideScene, ABodySimulator.ofBodies, FBox2D.getCenterAndExtents]
  | cons i path =>
    have hlen : 1 ≤ (i :: path).length := by simp
    have hone := (separatedAt_sideBySideScene theta mass).length_inside_le hlen
    exact absurd (htwo.trans hone) (by omega)

theorem simulateBarnesHut_cost_sideBySideScene : ∃ s',
    (sideBySideScene (7 / 10) 1).constructTree (1 + 1) = .ok s' ∧
    s'.phaseInvocations 1 ≤ (sideBySideScene (7 / 10) 1).bodies.length *
      (1 + 4 * (1 * (((sideBySideScene (7 / 10) 1).objects.inside
        (sideBySideScene (7 / 10) 1).sceneBounds
        (sideBySideScene (7 / 10) 1).bodies).length / 2))) ∧
    (s'.phaseInvocations 1 : ℝ) ≤ (sideBySideScene (7 / 10) 1).bodies.length *
      (1 + 4 * ((1 : ℕ) * ABodySimulator.openingBound (7 / 10)
        (sideBySideScene (7 / 10) 1).sceneBounds)) := by
  obtain ⟨s', hok⟩ :=
    (exists_constructTree_succ_iff _ 1).mpr (separatedAt_sideBySideScene (7 / 10) 1)
  have hbox : (sideBySideScene (7 / 10) 1).sceneBounds.Proper :=
    ⟨by norm_num [sideBySideScene, ABodySimulator.ofBodies],
      by norm_num [sideBySideScene, ABodySimulator.ofBodies]⟩
  have htheta : 0 < (sideBySideScene (7 / 10) 1).theta := by
    norm_num [sideBySideScene, ABodySimulator.ofBodies]
  exact ⟨s', hok, (simulateBarnesHut_cost 1 hok).1,
    (simulateBarnesHut_cost 1 hok).2 hbox htheta (someOffLines_sideBySideScene (7 / 10) 1)⟩

end NBodySimulation
