import NBodySimulation.Dynamics.Softening
import NBodySimulation.Forces.Cost
import NBodySimulation.Quadtree.CentreOfMass

/-!
# Boxes that are far from a body they keep

Which subdivided nodes pass the far test for a body that they hold can be told from the scene and
the places of the bodies, before any tree is built. The stored centre of a node is what plain
averaging makes of the places strictly inside its box: the place itself when there is one, and
otherwise the mean over the quarters with a body of what averaging makes of them. So the body is
held beneath a far node exactly when some box, got from the scene by repeated halving, keeps it, has
another body strictly inside, and has a half extent less than `Theta` times the distance from the
body to that average.

The average is never very far from a body that the box keeps, since the body's own quarter counts in
it as much as any other. With `d` the distance and `s` the longer half side, a quarter at the side
adds at most `(9 / 4) s`, the opposite one `(17 / 6) s`, and the body's own, by recursion,
`(21 / 20) s`, so that `d ≤ (21 / 10) s` in the mean.

## Main results

* `CanonicalFor.farAbove_iff`: far nodes above a body in a stored tree, read off the bodies.
* `BodyHeap.not_heldInFarBox_of_theta_le`: for `Theta` up to `10 / 21` there is none in any scene.
-/

namespace NBodySimulation

open Spatial Spatial.PointTree

namespace BodyHeap

variable {K : Type*} [Field K] [LinearOrder K]

/-- The average of the places strictly inside a box: over its quarters, and recursively. -/
inductive MeanCentre (heap : BodyHeap K) (bodies : List BodyRef) : FBox2D K → FVector2D K → Prop
  /-- A body that is alone in the box. -/
  | single {box : FBox2D K} {b : BodyRef} (halone : heap.inside box bodies = [b]) :
      MeanCentre heap bodies box (heap b).position
  /-- The plain mean over the quarters with a body. -/
  | mean {box : FBox2D K} {center : Fin 4 → FVector2D K}
      (htwo : 2 ≤ (heap.inside box bodies).length)
      (hoccupied : heap.occupiedQuarters box bodies ≠ [])
      (hcenter : ∀ i ∈ heap.occupiedQuarters box bodies,
        MeanCentre heap bodies (box.quarter i) (center i)) :
      MeanCentre heap bodies box (((heap.occupiedQuarters box bodies).map center).sum
        / ((heap.occupiedQuarters box bodies).length : K))

private theorem mem_keptInside {heap : BodyHeap K} {box : FBox2D K} {bodies : List BodyRef}
    {b : BodyRef} :
    b ∈ heap.keptInside box bodies ↔
      b ∈ heap.inside box bodies ∧ ¬heap.CutOff box bodies b := by
  classical
  rw [keptInside, List.mem_filter, decide_eq_true_iff]

variable [PythagoreanField K]

/-- Some box got from the given one by repeated halving keeps the body, has another one strictly
inside, and is far from the body when seen at its average. -/
def HeldInFarBox (heap : BodyHeap K) (theta : K) (box : FBox2D K) (bodies : List BodyRef)
    (b : BodyRef) : Prop :=
  ∃ (path : List (Fin 4)) (center : FVector2D K),
    b ∈ heap.keptInside (box.subBox path) bodies ∧
    2 ≤ (heap.inside (box.subBox path) bodies).length ∧
    heap.MeanCentre bodies (box.subBox path) center ∧
    FVector2D.distance center (heap b).position ≠ 0 ∧
    (box.subBox path).getCenterAndExtents.2.getMax
      / FVector2D.distance center (heap b).position < theta

end BodyHeap

section Stored

variable {K : Type*} [Field K] [LinearOrder K] [IsStrictOrderedRing K] {heap heap' : BodyHeap K}
  {box : FBox2D K} {bodies : List BodyRef} {isRoot : Bool}

/-- **The stored centre** of a canonical tree is the average of the places strictly inside. -/
theorem CanonicalFor.centerMass_iff {t : BodyTree} (hc : CanonicalFor heap box bodies t)
    {center : FVector2D K} : (UQuadTree.fieldsOf heap isRoot box t).centerMass = some center ↔
      heap.MeanCentre bodies box center := by
  induction t generalizing isRoot box center with
  | empty =>
    have hnil : heap.inside box bodies = [] := by
      rwa [CanonicalFor, canonical_empty, coe_inside, Multiset.coe_eq_zero] at hc
    refine iff_of_false (by simp [UQuadTree.fieldsOf]) fun hmean ↦ ?_
    cases hmean with
    | single halone => simp [hnil] at halone
    | mean htwo => simp [hnil] at htwo
  | leaf c =>
    have hone : heap.inside box bodies = [c] := by
      rwa [CanonicalFor, canonical_leaf, coe_inside, Multiset.coe_eq_singleton] at hc
    rw [UQuadTree.fieldsOf, Option.some.injEq]
    constructor
    · rintro rfl
      exact .single hone
    · intro hmean
      cases hmean with
      | single halone =>
        rw [hone, List.singleton_inj] at halone
        rw [halone]
      | mean htwo => simp [hone] at htwo
  | split c child ih =>
    have htwo := CanonicalFor.two_le_inside hc
    have hchild : ∀ i center, (UQuadTree.fieldsOf heap false (box.quarter i) (child i)).centerMass
        = some center ↔ heap.MeanCentre bodies (box.quarter i) center := fun i _ ↦
      ih i ((canonical_split.mp hc).2.2 i)
    rw [UQuadTree.centerMass_split_iff, CanonicalFor.occupied_eq hc]
    simp only [hchild]
    constructor
    · rintro ⟨hoccupied, center, hcenter, rfl⟩
      exact .mean htwo hoccupied hcenter
    · intro hmean
      cases hmean with
      | single halone => simp [halone] at htwo
      | mean _ hoccupied hcenter => exact ⟨hoccupied, _, hcenter, rfl⟩

variable [PythagoreanField K]

private theorem CanonicalFor.isFar_split_iff {theta : K} {b c : BodyRef} {child : Fin 4 → BodyTree}
    (hc : CanonicalFor heap box bodies (.split c child))
    (hsame : ∀ d ∈ (split c child).leaves, heap' d = heap d)
    (hb : (heap' b).position = (heap b).position) :
    ABodySimulator.isFar theta heap' heap' b isRoot box (.split c child) = true ↔
      ∃ center, heap.MeanCentre bodies box center ∧
        FVector2D.distance center (heap b).position ≠ 0 ∧
        box.getCenterAndExtents.2.getMax / FVector2D.distance center (heap b).position
          < theta := by
  have hcenter : ∀ center, UQuadTree.getCenterOfMass heap'
      (UQuadTree.fieldsOf heap' isRoot box (.split c child))
        (UQuadTree.childrenOf heap' box (.split c child)) = some center ↔
      heap.MeanCentre bodies box center := by
    intro center
    rw [UQuadTree.getCenterOfMass_split, UQuadTree.fieldsOf_congr hsame]
    exact hc.centerMass_iff
  rw [← hb]
  constructor
  · intro hfar
    obtain ⟨center, hsome⟩ := Option.isSome_iff_exists.mp
      (ABodySimulator.isSome_getCenterOfMass_of_farTest hfar)
    exact ⟨center, (hcenter center).mp hsome, (ABodySimulator.isFar_iff hsome).mp hfar⟩
  · rintro ⟨center, hmean, hfar⟩
    exact (ABodySimulator.isFar_iff ((hcenter center).mpr hmean)).mpr hfar

/-- **Far nodes above a body**, read off the bodies. The tree may be stored with another heap, in
which only bodies outside the box are elsewhere. -/
theorem CanonicalFor.farAbove_iff {theta : K} {t : BodyTree} {b : BodyRef}
    (hc : CanonicalFor heap box bodies t)
    (hsame : ∀ c, box.isInside (heap c).position = true → heap' c = heap c) :
    ABodySimulator.FarAbove theta heap' b (UQuadTree.represent heap' isRoot box t) b ↔
      heap.HeldInFarBox theta box bodies b := by
  have hsub : ∀ {labels u}, t.subtree labels = some u → ∀ c ∈ u.leaves, heap' c = heap c := by
    intro labels u hu c hcu
    have hin := ((hc.subtree hu).mem_of_mem_leaves hcu).2
    exact hsame c ((FBox2D.quarters K).mem_of_mem_descend hin)
  have hkept : ∀ {labels u}, t.subtree labels = some u →
      (b ∈ heap.keptInside (box.subBox labels) bodies ↔ b ∈ u.leaves) := by
    intro labels u hu
    have hcu : CanonicalFor heap (box.subBox labels) bodies u := hc.subtree hu
    rw [hcu.leaves_eq, Multiset.mem_coe]
  rw [ABodySimulator.FarAbove, UQuadTree.HasNode, UQuadTree.exists_nodeAt_iff]
  simp only [← UQuadTree.represent_eq, UQuadTree.mem_leafBodies_represent]
  constructor
  · rintro ⟨labels, u, hu, hinner, hb, hfar⟩
    have hcu : CanonicalFor heap (box.subBox labels) bodies u := hc.subtree hu
    cases u with
    | empty => exact absurd hb (Multiset.notMem_zero b)
    | leaf c => exact absurd hinner (by simp [UQuadTree.isLeaf_childrenOf])
    | split c child =>
      obtain ⟨center, hmean, hdistance, hratio⟩ := (hcu.isFar_split_iff (hsub hu)
        (congrArg UBodyEntity.position (hsub hu b hb))).mp hfar
      exact ⟨labels, center, (hkept hu).mpr hb, hcu.two_le_inside, hmean, hdistance, hratio⟩
  · rintro ⟨labels, center, hb, htwo, hmean, hdistance, hratio⟩
    obtain ⟨c, child, hu, hcu⟩ := hc.exists_split htwo
    have hmem := (hkept hu).mp hb
    exact ⟨labels, _, hu, UQuadTree.isLeaf_childrenOf _ _ _, hmem, (hcu.isFar_split_iff (hsub hu)
      (congrArg UBodyEntity.position (hsub hu b hmem))).mpr ⟨center, hmean, hdistance, hratio⟩⟩

end Stored

/-! ## Small values of `Theta` -/

section SmallTheta

open FBox2D

/-- How far, in half sizes of a box, the average of quarter `j` is at most from a body that quarter
`i` keeps. -/
def quarterReach (i j : Fin 4) : ℚ :=
  if i = j then 21 / 20
  else if isRight i = isRight j ∨ isUpper i = isUpper j then 9 / 4
  else 17 / 6

/-- The body's own quarter makes up for the others, whichever of them have a body. -/
theorem sum_quarterReach_le : ∀ i : Fin 4, ∀ l ∈ (List.finRange 4).sublists, i ∈ l →
    (l.map (quarterReach i)).sum ≤ 21 / 10 * l.length := by
  decide +kernel

variable {K : Type*} [Field K] [LinearOrder K] [IsStrictOrderedRing K]

private theorem sum_quarterReach_mul_le {i : Fin 4} {l : List (Fin 4)} {half : K}
    (hl : l ∈ (List.finRange 4).sublists) (hi : i ∈ l) (hhalf : 0 ≤ half) :
    (l.map fun j ↦ (quarterReach i j : K) * half).sum ≤ 21 / 10 * half * l.length := by
  have hcast : (((l.map (quarterReach i)).sum : ℚ) : K) ≤ 21 / 10 * l.length := by
    refine (Rat.cast_le.mpr (sum_quarterReach_le i l hl hi)).trans_eq ?_
    push_cast
    rfl
  calc (l.map fun j ↦ (quarterReach i j : K) * half).sum
      = (((l.map (quarterReach i)).sum : ℚ) : K) * half := by
        rw [List.sum_map_mul_right, ← Rat.coe_castHom, map_list_sum, List.map_map]
        rfl
    _ ≤ 21 / 10 * l.length * half := mul_le_mul_of_nonneg_right hcast hhalf
    _ = 21 / 10 * half * l.length := by ring

private theorem abs_sub_le_of_halves {lo hi half v w : K} (hside : hi - lo ≤ 2 * half)
    (upper upper' : Bool)
    (hv : (if upper then (lo + hi) / 2 else lo) ≤ v ∧ v ≤ if upper then hi else (lo + hi) / 2)
    (hw : (if upper' then (lo + hi) / 2 else lo) ≤ w ∧ w ≤ if upper' then hi else (lo + hi) / 2) :
    |v - w| ≤ if upper = upper' then half else 2 * half := by
  cases upper <;> cases upper' <;>
    simp only [Bool.false_eq_true, Bool.true_eq_false, if_true, if_false] at hv hw ⊢ <;>
    exact abs_le.mpr ⟨by linarith [hv.1, hw.2], by linarith [hv.2, hw.1]⟩

variable [PythagoreanField K] {box : FBox2D K} {half : K}

private theorem FBox2D.distance_le_quarterReach {i j : Fin 4} {p q : FVector2D K} (hij : i ≠ j)
    (hwidth : box.max.x - box.min.x ≤ 2 * half) (hheight : box.max.y - box.min.y ≤ 2 * half)
    (hp : (box.quarter i).IsInsideOrOn p) (hq : (box.quarter j).IsInsideOrOn q) :
    FVector2D.distance q p ≤ quarterReach i j * half := by
  rw [IsInsideOrOn, quarter_min_x, quarter_max_x, quarter_min_y, quarter_max_y] at hp hq
  have hx := abs_sub_le_of_halves hwidth _ _ hq.1 hp.1
  have hy := abs_sub_le_of_halves hheight _ _ hq.2 hp.2
  have hhalf : 0 ≤ half := by
    have hx0 := (abs_nonneg _).trans hx
    split at hx0 <;> linarith
  -- Legs of one or two half sizes: at least one of them is the longer, as the quarters differ.
  have hlegs : ∀ {a b c : K}, |q.x - p.x| ≤ a → |q.y - p.y| ≤ b → a ^ 2 + b ^ 2 ≤ c ^ 2 → 0 ≤ c →
      FVector2D.distance q p ≤ c := by
    intro a b c ha hb hc h0
    refine le_of_sq_le_sq ?_ h0
    calc FVector2D.distance q p ^ 2 = |q.x - p.x| ^ 2 + |q.y - p.y| ^ 2 := by
          rw [FVector2D.distance_sq, sq_abs, sq_abs]
      _ ≤ a ^ 2 + b ^ 2 := by gcongr
      _ ≤ c ^ 2 := hc
  rw [quarterReach, if_neg hij]
  by_cases hright : isRight j = isRight i
  · have hupper : ¬isUpper j = isUpper i := fun h ↦ hij (quarter_ext hright.symm h.symm)
    rw [if_pos hright] at hx
    rw [if_neg hupper] at hy
    rw [if_pos (Or.inl hright.symm)]
    refine hlegs hx hy ?_ (by positivity)
    push_cast
    nlinarith [sq_nonneg half]
  · rw [if_neg hright] at hx
    by_cases hupper : isUpper j = isUpper i
    · rw [if_pos hupper] at hy
      rw [if_pos (Or.inr hupper.symm)]
      refine hlegs hx hy ?_ (by positivity)
      push_cast
      nlinarith [sq_nonneg half]
    · rw [if_neg hupper] at hy
      rw [if_neg fun h ↦ h.elim (fun h ↦ hright h.symm) fun h ↦ hupper h.symm]
      refine hlegs hx hy ?_ (by positivity)
      push_cast
      nlinarith [sq_nonneg half]

private theorem FVector2D.distance_mean_le {ι : Type*} {l : List ι} (hne : l ≠ [])
    {center : ι → FVector2D K} {bound : ι → K} {p : FVector2D K}
    (h : ∀ j ∈ l, distance (center j) p ≤ bound j) :
    distance ((l.map center).sum / (l.length : K)) p ≤ (l.map bound).sum / l.length := by
  have hlen : (0 : K) < l.length := Nat.cast_pos.mpr (List.length_pos_of_ne_nil hne)
  have hmean : (l.map center).sum / (l.length : K) - p
      = (l.map fun j ↦ center j + -p).sum * (1 / (l.length : K)) := by
    rw [List.sum_map_add, List.map_const', List.sum_replicate]
    ext
    · rw [x_sub, x_div, x_mul, x_add, x_nsmul, x_neg, nsmul_eq_mul]
      field_simp
      ring
    · rw [y_sub, y_div, y_mul, y_add, y_nsmul, y_neg, nsmul_eq_mul]
      field_simp
      ring
  have hsize : (l.map fun j ↦ center j + -p).sum.size ≤ (l.map bound).sum := by
    refine size_sum_le l fun j hj ↦ ?_
    rw [← sub_eq_add_neg]
    exact h j hj
  rw [distance_eq_size, hmean, size_scale, abs_of_pos (one_div_pos.mpr hlen), mul_one_div]
  exact div_le_div_of_nonneg_right hsize hlen.le

namespace BodyHeap.MeanCentre

variable {heap : BodyHeap K} {bodies : List BodyRef} {center : FVector2D K}

omit [PythagoreanField K] in
theorem isInsideOrOn (h : heap.MeanCentre bodies box center) : box.IsInsideOrOn center := by
  induction h with
  | @single box b halone =>
    have hb : b ∈ heap.inside box bodies := halone ▸ List.mem_singleton_self b
    obtain ⟨hx, hx', hy, hy'⟩ := isInside_iff.mp (mem_inside.mp hb).2
    exact ⟨⟨hx.le, hx'.le⟩, hy.le, hy'.le⟩
  | @mean box center htwo hoccupied _ ih =>
    obtain ⟨b, hb⟩ := List.exists_mem_of_length_pos (by omega : 0 < (heap.inside box bodies).length)
    have hbox : box.Proper := proper_of_isInside (mem_inside.mp hb).2
    have hmean := isInsideOrOn_mean (l := (heap.occupiedQuarters box bodies).map center)
      (by simpa using hoccupied) fun p hp ↦ by
        obtain ⟨i, hi, rfl⟩ := List.mem_map.mp hp
        exact (quarter_within hbox i).isInsideOrOn (ih i hi)
    rwa [List.length_map] at hmean

/-- **The average is not far from a body that the box keeps**: at most 21/20 of the longer side. -/
theorem distance_le (h : heap.MeanCentre bodies box center) {b : BodyRef}
    (hb : b ∈ heap.inside box bodies) (hcut : ¬heap.CutOff box bodies b)
    (hwidth : box.max.x - box.min.x ≤ 2 * half) (hheight : box.max.y - box.min.y ≤ 2 * half) :
    FVector2D.distance center (heap b).position ≤ 21 / 10 * half := by
  induction h generalizing half with
  | @single box c halone =>
    obtain rfl : b = c := by simpa [halone] using hb
    obtain ⟨hx, hx', _⟩ := isInside_iff.mp (mem_inside.mp hb).2
    rw [FVector2D.distance_eq_zero_iff.mpr rfl]
    linarith
  | @mean box center htwo hoccupied hcenter ih =>
    obtain ⟨hmem, hin⟩ := mem_inside.mp hb
    have hline : ¬box.OnDividingLine (heap b).position := fun h ↦ hcut ⟨[], hin, htwo, h⟩
    obtain ⟨i, hi⟩ := not_forall_not.mp fun h ↦ hline ((onDividingLine_iff hin).mpr h)
    have hbi : b ∈ heap.inside (box.quarter i) bodies := mem_inside.mpr ⟨hmem, hi⟩
    have hoccupiedi : i ∈ heap.occupiedQuarters box bodies :=
      List.mem_filter.mpr ⟨List.mem_finRange i, decide_eq_true (List.ne_nil_of_mem hbi)⟩
    have hp : (box.quarter i).IsInsideOrOn (heap b).position := by
      obtain ⟨hx, hx', hy, hy'⟩ := isInside_iff.mp hi
      exact ⟨⟨hx.le, hx'.le⟩, hy.le, hy'.le⟩
    have hreach : ∀ j ∈ heap.occupiedQuarters box bodies,
        FVector2D.distance (center j) (heap b).position ≤ quarterReach i j * half := by
      intro j hj
      by_cases hij : i = j
      · subst hij
        -- the body's own quarter is half as large
        have hwidth' : (box.quarter i).max.x - (box.quarter i).min.x ≤ 2 * (half / 2) := by
          rw [quarter_min_x, quarter_max_x]
          split <;> linarith
        have hheight' : (box.quarter i).max.y - (box.quarter i).min.y ≤ 2 * (half / 2) := by
          rw [quarter_min_y, quarter_max_y]
          split <;> linarith
        refine (ih i hj hbi (fun ⟨path, hpath⟩ ↦ hcut ⟨i :: path, hpath⟩) hwidth'
          hheight').trans (le_of_eq ?_)
        rw [quarterReach, if_pos rfl]
        push_cast
        ring
      · exact distance_le_quarterReach hij hwidth hheight hp (hcenter j hj).isInsideOrOn
    have hhalf : 0 ≤ half := by
      obtain ⟨hx, hx', _⟩ := isInside_iff.mp hin
      linarith
    have hlen : (0 : K) < (heap.occupiedQuarters box bodies).length :=
      Nat.cast_pos.mpr (List.length_pos_of_ne_nil hoccupied)
    have hsum :=
      sum_quarterReach_mul_le (List.mem_sublists.mpr List.filter_sublist) hoccupiedi hhalf
    exact (FVector2D.distance_mean_le hoccupied hreach).trans ((div_le_iff₀ hlen).mpr hsum)

end BodyHeap.MeanCentre

/-- **No body is held in a far box while `Theta` is at most 10/21**, whatever the scene. -/
theorem BodyHeap.not_heldInFarBox_of_theta_le {heap : BodyHeap K} {bodies : List BodyRef}
    {theta : K} {b : BodyRef} (htheta : 21 * theta ≤ 10) :
    ¬heap.HeldInFarBox theta box bodies b := by
  rintro ⟨path, center, hkept, _, hmean, hne, hratio⟩
  obtain ⟨hb, hcut⟩ := mem_keptInside.mp hkept
  set half := (box.subBox path).getCenterAndExtents.2.getMax with hhalf
  have hx : (box.subBox path).getCenterAndExtents.2.x ≤ half := le_max_left _ _
  have hy : (box.subBox path).getCenterAndExtents.2.y ≤ half := le_max_right _ _
  rw [extents_x] at hx
  rw [extents_y] at hy
  have hwidth : (box.subBox path).max.x - (box.subBox path).min.x ≤ 2 * half := by linarith
  have hheight : (box.subBox path).max.y - (box.subBox path).min.y ≤ 2 * half := by linarith
  have hdistance := hmean.distance_le hb hcut hwidth hheight
  have hpos : 0 < FVector2D.distance center (heap b).position :=
    lt_of_le_of_ne (FVector2D.distance_nonneg _ _) hne.symm
  rw [div_lt_iff₀ hpos] at hratio
  nlinarith

end SmallTheta

end NBodySimulation
