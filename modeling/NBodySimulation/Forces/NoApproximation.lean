import NBodySimulation.Dynamics.Conservation
import NBodySimulation.Forces.Counting

/-!
# The Barnes-Hut phase without approximation

With a threshold of zero or less no node passes the far test, so a traversal applies every leaf
once and the Barnes-Hut phase adds up the same bodies as the naive one. It does not add up the same
pulls: a leaf hands out `Position * Mass` as its centre of mass, where the naive loop reads
`Position`. The two agree at a body of mass one and at a body at the origin, and when all distances
are below the clamp, where pulls are linear, no other configuration makes up for the difference.

## Main results

* `treePull_eq_sum_leaves`: without approximation a tree pulls by its leaves.
* `degeneratesToNaive_iff`: when the Barnes-Hut phase gives the naive velocities.
-/

namespace NBodySimulation

open Spatial Spatial.PointTree

/-! ## The sizes of cells -/

section Extents

variable {K : Type*} [Field K] [LinearOrder K] [IsStrictOrderedRing K]

private theorem FBox2D.extents_quarter (box : FBox2D K) (i : Fin 4) :
    (box.quarter i).getCenterAndExtents.2 = box.getCenterAndExtents.2 * (1 / 2 : K) := by
  ext
  · rw [extents_x, quarter_min_x, quarter_max_x, FVector2D.x_mul, extents_x]
    split <;> ring
  · rw [extents_y, quarter_min_y, quarter_max_y, FVector2D.y_mul, extents_y]
    split <;> ring

private theorem FBox2D.getMax_extents_quarter {box : FBox2D K}
    (h : 0 ≤ box.getCenterAndExtents.2.getMax)
    (i : Fin 4) : 0 ≤ (box.quarter i).getCenterAndExtents.2.getMax := by
  rw [extents_quarter, FVector2D.getMax, FVector2D.x_mul, FVector2D.y_mul,
    ← max_mul_of_nonneg _ _ one_half_pos.le]
  exact mul_nonneg h one_half_pos.le

theorem FBox2D.getMax_extents_of_isInside {box : FBox2D K} {p : FVector2D K}
    (h : box.isInside p = true) : 0 ≤ box.getCenterAndExtents.2.getMax := by
  obtain ⟨h1, h2, _, _⟩ := isInside_iff.mp h
  refine le_max_of_le_left ?_
  rw [extents_x]
  linarith

end Extents

/-! ## Sums that skip one element -/

section Skip

variable {α κ : Type*} [DecidableEq κ] {key : α → κ} {l : List α}

theorem sum_skip_add {M : Type*} [AddCommGroup M] (hkey : (l.map key).Nodup) (f : α → M) {a : α}
    (ha : a ∈ l) :
    (l.map fun b ↦ if key b = key a then 0 else f b).sum + f a = (l.map f).sum := by
  induction l with
  | nil => exact absurd ha List.not_mem_nil
  | cons c l ih =>
    rw [List.map_cons, List.nodup_cons] at hkey
    rw [List.map_cons, List.sum_cons, List.map_cons, List.sum_cons]
    rcases List.mem_cons.mp ha with rfl | hl
    · -- the head is skipped, and nothing else has its key
      have hrest : l.map (fun b ↦ if key b = key a then 0 else f b) = l.map f := by
        refine List.map_congr_left fun b hb ↦ if_neg fun hba ↦ hkey.1 ?_
        exact hba ▸ List.mem_map_of_mem hb
      rw [if_pos rfl, hrest, zero_add, add_comm]
    · have hca : key c ≠ key a := fun h ↦ hkey.1 (h ▸ List.mem_map_of_mem hl)
      rw [if_neg hca, add_assoc, ih hkey.2 hl]

/-- Two terms or more are zero when every sum that skips one of them is. -/
theorem eq_zero_of_sum_skip_eq_zero {M : Type*} [AddCommGroup M] [IsAddTorsionFree M]
    (hkey : (l.map key).Nodup) (htwo : 2 ≤ l.length) {f : α → M}
    (h : ∀ a ∈ l, (l.map fun b ↦ if key b = key a then 0 else f b).sum = 0) :
    ∀ a ∈ l, f a = 0 := by
  -- each is the total, which is then a multiple of itself
  have heach : ∀ a ∈ l, f a = (l.map f).sum := by
    intro a ha
    rw [← sum_skip_add hkey f ha, h a ha, zero_add]
  have hconst : ∀ x ∈ l.map f, x = (l.map f).sum := by
    intro x hx
    obtain ⟨a, ha, rfl⟩ := List.mem_map.mp hx
    exact heach a ha
  have htotal : (l.map f).sum = (l.map f).length • (l.map f).sum :=
    List.sum_eq_card_nsmul _ _ hconst
  obtain ⟨n, hn⟩ : ∃ n, l.length = n + 1 + 1 := ⟨l.length - 2, by omega⟩
  rw [List.length_map, hn, succ_nsmul, right_eq_add, nsmul_eq_zero_iff_right n.succ_ne_zero]
    at htotal
  exact fun a ha ↦ (heach a ha).trans htotal

end Skip

section Pulls

variable {K : Type*} [Field K] [LinearOrder K] [PythagoreanField K]

/-- Under the clamp, attraction is linear in the place it is towards. -/
theorem attraction_of_distance_le {g minimumGravityDistance : K} {p q : FVector2D K} (mass : K)
    (hclamp : 0 < minimumGravityDistance) (h : FVector2D.distance p q ≤ minimumGravityDistance) :
    attraction g minimumGravityDistance p q mass
      = mass * g / minimumGravityDistance ^ 3 * (q - p) := by
  rw [attraction_eq hclamp, max_eq_right h]

private theorem attraction_zero_g {minimumGravityDistance : K} (hclamp : 0 < minimumGravityDistance)
    (p q : FVector2D K) (mass : K) : attraction 0 minimumGravityDistance p q mass = 0 := by
  rw [attraction_eq hclamp]
  ext
  · rw [FVector2D.x_smul, mul_zero, zero_div, zero_mul, FVector2D.x_zero]
  · rw [FVector2D.y_smul, mul_zero, zero_div, zero_mul, FVector2D.y_zero]

namespace ABodySimulator

open UQuadTree

/-! ## The pull of the leaves -/

/-- What the leaf of one body adds to the acceleration of another, when it is applied once. -/
def leafPull (heap : BodyHeap K) (body b : BodyRef) : FVector2D K :=
  if (heap b).index = (heap body).index then 0
  else attraction (heap body).g (heap body).minimumGravityDistance (heap body).position
    (heap b).getCenterOfMass (heap b).mass

variable [IsStrictOrderedRing K] {theta : K} {heap : BodyHeap K} {body : BodyRef} {isRoot : Bool}
  {box : FBox2D K} {s : ABodySimulator K} {deltaTime : K}

private theorem not_isFar_of_theta_nonpos (htheta : theta ≤ 0)
    (hbox : 0 ≤ box.getCenterAndExtents.2.getMax) (t : BodyTree) :
    ¬isFar theta heap heap body isRoot box t = true := by
  intro hfar
  obtain ⟨center, hcenter⟩ := Option.isSome_iff_exists.mp (isSome_getCenterOfMass_of_farTest hfar)
  have hquotient : 0 ≤ box.getCenterAndExtents.2.getMax
      / FVector2D.distance center (heap body).position :=
    div_nonneg hbox (FVector2D.distance_nonneg _ _)
  exact absurd ((isFar_iff hcenter).mp hfar).2 (not_lt.mpr (htheta.trans hquotient))

/-- **Without approximation a tree pulls by its leaves.** -/
theorem treePull_eq_sum_leaves (htheta : theta ≤ 0) (hbox : 0 ≤ box.getCenterAndExtents.2.getMax)
    (t : BodyTree) : treePull theta heap body (represent heap isRoot box t)
      = (t.leaves.map (leafPull heap body)).sum := by
  induction t generalizing isRoot box with
  | empty => rw [treePull_empty, leaves_empty, Multiset.map_zero, Multiset.sum_zero]
  | leaf b =>
    have hfar : ¬(isFar theta heap heap body isRoot box (leaf b) = true ∧ (heap b).mass > 0) :=
      fun h ↦ not_isFar_of_theta_nonpos htheta hbox _ h.1
    rw [treePull_leaf, leaves_leaf, Multiset.map_singleton, Multiset.sum_singleton, leafPull,
      nodePull_leaf, if_neg hfar, add_zero]
  | split b child ih =>
    have hchild : ∀ i, treePull theta heap body (represent heap false (box.quarter i) (child i))
        = ((child i).leaves.map (leafPull heap body)).sum := fun i ↦
      ih i (FBox2D.getMax_extents_quarter hbox i)
    rw [treePull_split, if_neg (not_isFar_of_theta_nonpos htheta hbox _), ← Fin.sum_univ_def,
      Fin.sum_univ_four, leaves_split, Fin.sum_univ_four]
    simp only [hchild, Multiset.map_add, Multiset.sum_add]

omit [PythagoreanField K] in
theorem Canonical.leaves_eq {t : BodyTree} (hc : s.Canonical t) (hnodup : s.bodies.Nodup)
    (hcut : NoBodyCutOff s) : t.leaves = s.bodies := by
  have hholds : HoldsEveryBody s (s.withTree t) := hc.holdsEveryBody_iff.mpr hcut
  refine Multiset.ext.mpr fun b ↦ ?_
  by_cases hb : b ∈ s.bodies
  · rw [← count_leafBodies_withTree s t, hholds b hb, Multiset.coe_count,
      List.count_eq_one_of_mem hnodup hb]
  · rw [Multiset.count_eq_zero.mpr fun h ↦ hb (hc.mem_of_mem_leaves h).1,
      Multiset.count_eq_zero.mpr fun h ↦ hb (Multiset.mem_coe.mp h)]

/-- Tree construction ends, and the Barnes-Hut phase after it gives every body the velocity that the
naive phase gives it. -/
def DegeneratesToNaive (s : ABodySimulator K) (deltaTime : K) : Prop :=
  ∃ fuel r, s.constructTree fuel = .ok r ∧ ∀ b ∈ s.bodies,
    ((r.simulateBarnesHut deltaTime).objects b).velocity
      = ((s.simulateCompareAllParallel deltaTime).objects b).velocity

/-- What the comparison of the phases comes down to: the pulls of the leaves and those of the bodies
have the same sums. -/
theorem degeneratesToNaive_iff_pulls [Archimedean K] (hnodup : s.bodies.Nodup)
    (hplaces : ∀ b ∈ s.bodies, ∀ c ∈ s.bodies, b ≠ c →
      (s.objects b).position ≠ (s.objects c).position)
    (hcut : NoBodyCutOff s) (htheta : s.theta ≤ 0) :
    s.DegeneratesToNaive deltaTime ↔ deltaTime = 0 ∨ ∀ b ∈ s.bodies,
      (s.bodies.map (leafPull s.objects b)).sum = s.naivePull s.objects b := by
  have hsettle : s.objects.settle s.sceneBounds s.bodies = s.objects :=
    BodyHeap.settle_eq_self hcut.1
  -- one body, after any construction that ends
  have hone : ∀ fuel r, s.constructTree fuel = .ok r → ∀ b ∈ s.bodies,
      (((r.simulateBarnesHut deltaTime).objects b).velocity
          = ((s.simulateCompareAllParallel deltaTime).objects b).velocity ↔
        (s.bodies.map (leafPull s.objects b)).sum = s.naivePull s.objects b ∨ deltaTime = 0) := by
    intro fuel r h b hb
    obtain ⟨t, hc, rfl⟩ := constructTree_spec h
    have hpull : treePull s.theta (s.withTree t).objects b (s.withTree t).quadTree
        = (s.bodies.map (leafPull s.objects b)).sum := by
      have hbox := FBox2D.getMax_extents_of_isInside (hcut.1 b hb)
      show treePull s.theta (s.objects.settle s.sceneBounds s.bodies) b
        (represent (s.objects.settle s.sceneBounds s.bodies) true s.sceneBounds t) = _
      rw [hsettle, treePull_eq_sum_leaves htheta hbox, Canonical.leaves_eq hc hnodup hcut,
        Multiset.map_coe, Multiset.sum_coe]
    have hvelocity := velocity_simulateBarnesHut deltaTime (s := s.withTree t) hnodup hb
    have hheap : (s.withTree t).objects = s.objects := hsettle
    rw [hvelocity, velocity_simulateCompareAllParallel deltaTime hnodup hb, hheap, add_right_inj,
      FVector2D.scale_inj, ← hpull, hheap]
    rfl
  constructor
  · rintro ⟨fuel, r, h, hall⟩
    by_cases hdelta : deltaTime = 0
    · exact Or.inl hdelta
    · exact Or.inr fun b hb ↦ ((hone fuel r h b hb).mp (hall b hb)).resolve_right hdelta
  · intro hpulls
    obtain ⟨fuel, r, h⟩ := exists_constructTree hnodup hplaces
    refine ⟨fuel, r, h, fun b hb ↦ (hone fuel r h b hb).mpr ?_⟩
    exact hpulls.symm.imp_left fun hall ↦ hall b hb

/-! ## The leaves against the bodies -/

omit [PythagoreanField K] in
/-- The simulator with another `MinimumGravityDistance`, copied into each body as `InitBodies`
does. -/
def withMinimumGravityDistance (s : ABodySimulator K) (distance : K) : ABodySimulator K :=
  { s with
    minimumGravityDistance := distance
    objects := fun b ↦ { s.objects b with minimumGravityDistance := distance } }

omit [Field K] [LinearOrder K] [PythagoreanField K] [IsStrictOrderedRing K] in
private theorem SharedGravity.withMinimumGravityDistance (h : s.SharedGravity) (distance : K) :
    (s.withMinimumGravityDistance distance).SharedGravity :=
  fun b hb ↦ ⟨(h b hb).1, rfl⟩

omit [IsStrictOrderedRing K] in
theorem leafPull_eq_pullOf (hgravity : s.SharedGravity) {b c : BodyRef} (hb : b ∈ s.bodies)
    (hc : (s.objects c).mass = 1 ∨ (s.objects c).position = 0) :
    leafPull s.objects b c = s.pullOf (s.objects b) (s.objects c) := by
  have hcenter : (s.objects c).getCenterOfMass = (s.objects c).position := by
    rw [UBodyEntity.getCenterOfMass]
    rcases hc with hmass | hposition
    · rw [hmass, FVector2D.scale_one]
    · rw [hposition, FVector2D.zero_scale]
  rw [leafPull, pullOf, hcenter, (hgravity b hb).1, (hgravity b hb).2]

omit [LinearOrder K] [PythagoreanField K] [IsStrictOrderedRing K] in
/-- What a leaf near the clamp pulls too much, wherever it pulls. -/
def leafExcess (s : ABodySimulator K) (c : BodyRef) : FVector2D K :=
  (s.objects c).mass * s.g / s.minimumGravityDistance ^ 3
    * ((s.objects c).getCenterOfMass - (s.objects c).position)

omit [IsStrictOrderedRing K] in
private theorem leafPull_eq_pullOf_add (hgravity : s.SharedGravity)
    (hclamp : 0 < s.minimumGravityDistance) {b c : BodyRef} (hb : b ∈ s.bodies)
    (hplace : FVector2D.distance (s.objects b).position (s.objects c).position
      ≤ s.minimumGravityDistance)
    (hcenter : FVector2D.distance (s.objects b).position (s.objects c).getCenterOfMass
      ≤ s.minimumGravityDistance) :
    leafPull s.objects b c = s.pullOf (s.objects b) (s.objects c)
      + if (s.objects c).index = (s.objects b).index then 0 else s.leafExcess c := by
  rw [leafPull, pullOf]
  by_cases hbc : (s.objects c).index = (s.objects b).index
  · rw [if_pos hbc, if_pos hbc, if_pos hbc, add_zero]
  · rw [if_neg hbc, if_neg hbc, if_neg hbc, (hgravity b hb).1, (hgravity b hb).2,
      attraction_of_distance_le _ hclamp hplace, attraction_of_distance_le _ hclamp hcenter]
    ext
    · simp only [leafExcess, FVector2D.x_smul, FVector2D.x_add, FVector2D.x_sub]
      ring
    · simp only [leafExcess, FVector2D.y_smul, FVector2D.y_add, FVector2D.y_sub]
      ring

omit [PythagoreanField K] [IsStrictOrderedRing K] in
private theorem unit_or_origin_of_leafExcess_eq_zero (hg : s.g ≠ 0)
    (hclamp : 0 < s.minimumGravityDistance)
    {c : BodyRef} (hmass : 0 < (s.objects c).mass) (h : s.leafExcess c = 0) :
    (s.objects c).mass = 1 ∨ (s.objects c).position = 0 := by
  by_cases hone : (s.objects c).mass = 1
  · exact Or.inl hone
  · have hscale : (s.objects c).mass * s.g / s.minimumGravityDistance ^ 3 ≠ 0 :=
      div_ne_zero (mul_ne_zero hmass.ne' hg) (pow_ne_zero 3 hclamp.ne')
    have hcoord : ∀ u : K, (s.objects c).mass * s.g / s.minimumGravityDistance ^ 3
        * (u * (s.objects c).mass - u) = 0 → u = 0 := by
      intro u hu
      have hprod : u * ((s.objects c).mass - 1) = 0 := by
        linear_combination (mul_eq_zero.mp hu).resolve_left hscale
      exact (mul_eq_zero.mp hprod).resolve_right (sub_ne_zero.mpr hone)
    have hx := congrArg FVector2D.x h
    have hy := congrArg FVector2D.y h
    exact Or.inr (FVector2D.ext (hcoord _ hx) (hcoord _ hy))

/-- Under the clamp, leaves that pull like their bodies are those of mass one or at the origin. -/
theorem unit_or_origin_of_pulls_eq (hindex : (s.bodies.map fun b ↦ (s.objects b).index).Nodup)
    (htwo : 2 ≤ s.bodies.length) (hgravity : s.SharedGravity) (hg : s.g ≠ 0)
    (hclamp : 0 < s.minimumGravityDistance) (hmass : ∀ b ∈ s.bodies, 0 < (s.objects b).mass)
    (hnear : ∀ b ∈ s.bodies, ∀ c ∈ s.bodies,
      FVector2D.distance (s.objects b).position (s.objects c).position
          ≤ s.minimumGravityDistance ∧
        FVector2D.distance (s.objects b).position (s.objects c).getCenterOfMass
          ≤ s.minimumGravityDistance)
    (hpulls : ∀ b ∈ s.bodies, (s.bodies.map (leafPull s.objects b)).sum = s.naivePull s.objects b) :
    ∀ b ∈ s.bodies, (s.objects b).mass = 1 ∨ (s.objects b).position = 0 := by
  have hskip : ∀ b ∈ s.bodies, (s.bodies.map fun c ↦
      if (s.objects c).index = (s.objects b).index then 0 else s.leafExcess c).sum = 0 := by
    intro b hb
    have hleaf := fun c hc ↦
      leafPull_eq_pullOf_add hgravity hclamp hb (hnear b hb c hc).1 (hnear b hb c hc).2
    have hsum := hpulls b hb
    rw [List.map_congr_left hleaf, List.sum_map_add, naivePull, add_eq_left] at hsum
    exact hsum
  intro b hb
  have hexcess : s.leafExcess b = 0 := eq_zero_of_sum_skip_eq_zero hindex htwo hskip b hb
  exact unit_or_origin_of_leafExcess_eq_zero hg hclamp (hmass b hb) hexcess

private theorem eq_of_mem_of_length_le_one {α : Type*} {l : List α} (h : l.length ≤ 1) {a b : α}
    (ha : a ∈ l) (hb : b ∈ l) : a = b := by
  match l with
  | [c] => rw [List.mem_singleton.mp ha, List.mem_singleton.mp hb]
  | _ :: _ :: _ => simp at h

omit [PythagoreanField K] in
private theorem exists_pos_forall_le (bodies : List BodyRef) (f g : BodyRef → BodyRef → K) :
    ∃ d, 0 < d ∧ ∀ b ∈ bodies, ∀ c ∈ bodies, f b c ≤ d ∧ g b c ≤ d := by
  have hall : ∀ᶠ d : K in Filter.atTop, ∀ b ∈ bodies.toFinset, ∀ c ∈ bodies.toFinset,
      f b c ≤ d ∧ g b c ≤ d := by
    simp only [Filter.eventually_all_finset]
    intro b _ c _
    exact (Filter.eventually_ge_atTop (f b c)).and (Filter.eventually_ge_atTop (g b c))
  obtain ⟨d, hpos, hd⟩ := ((Filter.eventually_gt_atTop 0).and hall).exists
  exact ⟨d, hpos, fun b hb c hc ↦ hd b (List.mem_toFinset.mpr hb) c (List.mem_toFinset.mpr hc)⟩

/-- **When the Barnes-Hut phase degenerates to the naive one**, for every clamp distance: without
gravity or time, with at most one body, or with every body of mass one or at the origin. -/
theorem degeneratesToNaive_iff [Archimedean K]
    (hindex : (s.bodies.map fun b ↦ (s.objects b).index).Nodup)
    (hplaces : ∀ b ∈ s.bodies, ∀ c ∈ s.bodies, b ≠ c →
      (s.objects b).position ≠ (s.objects c).position)
    (hcut : NoBodyCutOff s) (hmass : ∀ b ∈ s.bodies, 0 < (s.objects b).mass)
    (hgravity : s.SharedGravity) (htheta : s.theta ≤ 0) (deltaTime : K) :
    (∀ distance, 0 < distance →
        (s.withMinimumGravityDistance distance).DegeneratesToNaive deltaTime) ↔
      s.g = 0 ∨ deltaTime = 0 ∨ s.bodies.length ≤ 1 ∨
        ∀ b ∈ s.bodies, (s.objects b).mass = 1 ∨ (s.objects b).position = 0 := by
  have hpulls : ∀ distance, (s.withMinimumGravityDistance distance).DegeneratesToNaive deltaTime ↔
      deltaTime = 0 ∨ ∀ b ∈ s.bodies,
        (s.bodies.map (leafPull (s.withMinimumGravityDistance distance).objects b)).sum
          = (s.withMinimumGravityDistance distance).naivePull
            (s.withMinimumGravityDistance distance).objects b := fun distance ↦
    degeneratesToNaive_iff_pulls (s := s.withMinimumGravityDistance distance) (hindex.of_map _)
      hplaces hcut htheta
  constructor
  · intro hall
    by_contra hnot
    simp only [not_or, not_le] at hnot
    obtain ⟨hg, hdelta, htwo, hunit⟩ := hnot
    obtain ⟨distance, hpos, hnear⟩ := exists_pos_forall_le s.bodies
      (fun b c ↦ FVector2D.distance (s.objects b).position (s.objects c).position)
      (fun b c ↦ FVector2D.distance (s.objects b).position (s.objects c).getCenterOfMass)
    have hsums := ((hpulls distance).mp (hall distance hpos)).resolve_left hdelta
    exact hunit (unit_or_origin_of_pulls_eq (s := s.withMinimumGravityDistance distance) hindex htwo
      (hgravity.withMinimumGravityDistance distance) hg hpos hmass hnear hsums)
  · intro hcond distance hpos
    refine (hpulls distance).mpr ?_
    have hshared := hgravity.withMinimumGravityDistance distance
    rcases hcond with hg | hdelta | hone | hunit
    · refine Or.inr fun b hb ↦ congrArg List.sum (List.map_congr_left fun c _ ↦ ?_)
      have hg' : (s.withMinimumGravityDistance distance).g = 0 := hg
      have hclamp : 0 < (s.withMinimumGravityDistance distance).minimumGravityDistance := hpos
      rw [leafPull, pullOf, (hshared b hb).1, (hshared b hb).2, hg', attraction_zero_g hclamp,
        attraction_zero_g hclamp]
    · exact Or.inl hdelta
    · refine Or.inr fun b hb ↦ congrArg List.sum (List.map_congr_left fun c hc ↦ ?_)
      obtain rfl : b = c := eq_of_mem_of_length_le_one hone hb hc
      rw [leafPull, pullOf, if_pos rfl, if_pos rfl]
    · exact Or.inr fun b hb ↦ congrArg List.sum (List.map_congr_left fun c hc ↦
        leafPull_eq_pullOf hshared hb (hunit c hc))

end ABodySimulator

end Pulls

/-! ## Two bodies of mass two -/

open ABodySimulator

private theorem noBodyCutOff_sideBySideScene (theta mass : ℝ) :
    NoBodyCutOff (sideBySideScene theta mass) := by
  obtain ⟨fuel, r, h⟩ := exists_constructTree (s := sideBySideScene theta mass)
    nodup_sideBySideScene places_ne_sideBySideScene
  obtain ⟨t, hc, rfl⟩ := constructTree_spec h
  refine hc.holdsEveryBody_iff.mp fun b hb ↦ ?_
  obtain ⟨c, rfl⟩ := canonical_sideBySideScene hc
  rw [count_leafBodies_withTree]
  have hb2 : b < 2 := List.mem_range.mp hb
  interval_cases b <;> simp [spread, Fin.sum_univ_four]

private theorem distances_le_sideBySideScene : ∀ b ∈ (sideBySideScene 0 2).bodies,
    ∀ c ∈ (sideBySideScene 0 2).bodies,
      FVector2D.distance ((sideBySideScene 0 2).objects b).position
          ((sideBySideScene 0 2).objects c).position
        ≤ (sideBySideScene 0 2).minimumGravityDistance ∧
      FVector2D.distance ((sideBySideScene 0 2).objects b).position
          ((sideBySideScene 0 2).objects c).getCenterOfMass
        ≤ (sideBySideScene 0 2).minimumGravityDistance := by
  have hle : ∀ p q : FVector2D ℝ, (p.x - q.x) ^ 2 + (p.y - q.y) ^ 2 ≤ 100 ^ 2 →
      FVector2D.distance p q ≤ 100 := fun _ _ ↦ FVector2D.distance_le_of_sq (by norm_num)
  intro b hb c hc
  have hb2 : b < 2 := List.mem_range.mp hb
  have hc2 : c < 2 := List.mem_range.mp hc
  interval_cases b <;> interval_cases c <;> refine ⟨hle _ _ ?_, hle _ _ ?_⟩ <;>
    norm_num [sideBySideScene, ofBodies, UBodyEntity.initializeBody, UBodyEntity.getCenterOfMass]

theorem degeneratesToNaive_iff_sideBySideScene :
    (∀ distance, 0 < distance →
        ((sideBySideScene 0 2).withMinimumGravityDistance distance).DegeneratesToNaive 1) ↔
      (sideBySideScene 0 2).g = 0 ∨ (1 : ℝ) = 0 ∨ (sideBySideScene 0 2).bodies.length ≤ 1 ∨
        ∀ b ∈ (sideBySideScene 0 2).bodies, ((sideBySideScene 0 2).objects b).mass = 1 ∨
          ((sideBySideScene 0 2).objects b).position = 0 :=
  degeneratesToNaive_iff (ofBodies_wellIndexed _ _ _ _ _ _).nodup_index places_ne_sideBySideScene
    (noBodyCutOff_sideBySideScene 0 2) (mass_pos_sideBySideScene two_pos)
    (ofBodies_sharedGravity _ _ _ _ _ _) le_rfl 1

/-- With bodies of mass two, the phase without approximation differs from the naive one. -/
theorem sideBySideScene_does_not_degenerate :
    NoBodyCutOff (sideBySideScene 0 2) ∧ (sideBySideScene 0 2).theta ≤ 0 ∧
      (∃ fuel r, (sideBySideScene 0 2).constructTree fuel = .ok r) ∧
      ¬(sideBySideScene 0 2).DegeneratesToNaive 1 := by
  refine ⟨noBodyCutOff_sideBySideScene 0 2, le_rfl,
    exists_constructTree nodup_sideBySideScene places_ne_sideBySideScene, fun h ↦ ?_⟩
  have hpulls := ((degeneratesToNaive_iff_pulls nodup_sideBySideScene places_ne_sideBySideScene
    (noBodyCutOff_sideBySideScene 0 2) le_rfl).mp h).resolve_left one_ne_zero
  have hunit := unit_or_origin_of_pulls_eq (ofBodies_wellIndexed _ _ _ _ _ _).nodup_index le_rfl
    (ofBodies_sharedGravity _ _ _ _ _ _) (by norm_num [sideBySideScene, ofBodies])
    (by norm_num [sideBySideScene, ofBodies]) (mass_pos_sideBySideScene two_pos)
    distances_le_sideBySideScene hpulls 0 (by decide)
  norm_num [sideBySideScene, ofBodies, UBodyEntity.initializeBody, FVector2D.ext_iff] at hunit

end NBodySimulation
