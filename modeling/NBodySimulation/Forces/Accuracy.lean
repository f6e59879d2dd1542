import NBodySimulation.Forces.NoApproximation
import NBodySimulation.Forces.SelfAttraction

/-!
# How accurate the far approximation is

A split that passes the far test pulls once, at its centre and with its mass, in place of all the
bodies beneath it. Its centre and those bodies lie in its box, whose half sizes are below `Theta`
times the distance, so every one of the pulls that are replaced was made from not far away. With the
clamped distances `a` to the centre and `b` to a body, moving a pull from one to the other changes
it by at most

```text
mass * G * (2 / a^3 + 1 / (a^2 * b) + 1 / (a * b^2))
```

for each unit of the way. The way is at most `3 * Theta * a`, and neither distance is below the
clamp, which leaves `12 * Theta * mass * G / clamp^2`. That the centre is not the centre of mass
does not matter for this estimate.

What a traversal does at a leaf is no approximation, and deviates more: it pulls towards
`Position * Mass`, and twice when the leaf is far.

## Main results

* `size_treePull_sub_le`: a tree pulls as its leaves account for, up to the estimate.
* `barnesHut_near_naive`: the Barnes-Hut phase against the naive one.
-/

namespace NBodySimulation

open Spatial Spatial.PointTree

section Geometry

variable {K : Type*} [Field K] [LinearOrder K] [PythagoreanField K] [IsStrictOrderedRing K]

namespace FVector2D

private theorem distance_triangle (u v w : FVector2D K) :
    distance u w ≤ distance u v + distance v w := by
  have hsum : u - w = u - v + (v - w) := (sub_add_sub_cancel u v w).symm
  rw [distance_eq_size, distance_eq_size, distance_eq_size, hsum]
  exact size_add_le _ _

theorem size_multisetSum_le {α : Type*} (l : Multiset α) {f : α → FVector2D K} {bound : α → K}
    (h : ∀ a ∈ l, (f a).size ≤ bound a) : (l.map f).sum.size ≤ (l.map bound).sum := by
  induction l using Multiset.induction_on with
  | empty =>
    rw [Multiset.map_zero, Multiset.map_zero, Multiset.sum_zero, Multiset.sum_zero, size_zero]
  | cons a l ih =>
    rw [Multiset.map_cons, Multiset.map_cons, Multiset.sum_cons, Multiset.sum_cons]
    have hrest := ih fun b hb ↦ h b (Multiset.mem_cons_of_mem hb)
    exact (size_add_le _ _).trans (add_le_add (h a (Multiset.mem_cons_self a l)) hrest)

end FVector2D

/-- Two points of a closed box are at most three times its longer half size apart. -/
theorem FBox2D.distance_le_of_isInsideOrOn {box : FBox2D K} {p q : FVector2D K}
    (hp : box.IsInsideOrOn p) (hq : box.IsInsideOrOn q) :
    FVector2D.distance p q ≤ 3 * box.getCenterAndExtents.2.getMax := by
  obtain ⟨⟨hpx, hpx'⟩, hpy, hpy'⟩ := hp
  obtain ⟨⟨hqx, hqx'⟩, hqy, hqy'⟩ := hq
  set s := box.getCenterAndExtents.2.getMax with hs
  have hx : box.max.x - box.min.x ≤ 2 * s := by
    have hle : box.getCenterAndExtents.2.x ≤ s := le_max_left _ _
    rw [extents_x] at hle
    linarith
  have hy : box.max.y - box.min.y ≤ 2 * s := by
    have hle : box.getCenterAndExtents.2.y ≤ s := le_max_right _ _
    rw [extents_y] at hle
    linarith
  have hs0 : 0 ≤ s := by linarith
  have hdx : (p.x - q.x) ^ 2 ≤ (2 * s) ^ 2 :=
    sq_le_sq' (by linarith) (by linarith)
  have hdy : (p.y - q.y) ^ 2 ≤ (2 * s) ^ 2 :=
    sq_le_sq' (by linarith) (by linarith)
  refine le_of_sq_le_sq ?_ (by linarith)
  calc FVector2D.distance p q ^ 2 = (p.x - q.x) ^ 2 + (p.y - q.y) ^ 2 := FVector2D.distance_sq p q
    _ ≤ (2 * s) ^ 2 + (2 * s) ^ 2 := add_le_add hdx hdy
    _ ≤ (3 * s) ^ 2 := by nlinarith [sq_nonneg s]

/-! ## Moving a pull -/

section Moving

variable {g clamp mass : K} (hg : 0 ≤ g) (hclamp : 0 < clamp) (hmass : 0 ≤ mass)
  (p q z : FVector2D K)

include hg hclamp hmass

/-- **A pull that is made from elsewhere.** -/
theorem size_attraction_sub_le : (attraction g clamp p z mass - attraction g clamp p q mass).size
    ≤ mass * g * (FVector2D.distance z q
      * (2 / max (FVector2D.distance p z) clamp ^ 3
        + 1 / (max (FVector2D.distance p z) clamp ^ 2 * max (FVector2D.distance p q) clamp)
        + 1 / (max (FVector2D.distance p z) clamp * max (FVector2D.distance p q) clamp ^ 2))) := by
  set a := max (FVector2D.distance p z) clamp with ha
  set b := max (FVector2D.distance p q) clamp with hb
  have ha0 : 0 < a := lt_max_of_lt_right hclamp
  have hb0 : 0 < b := lt_max_of_lt_right hclamp
  have hk : 0 ≤ mass * g := mul_nonneg hmass hg
  -- the clamped distances differ by no more than the places
  have hab : |b - a| ≤ FVector2D.distance z q := by
    refine (abs_max_sub_max_le_abs _ _ clamp).trans (abs_sub_le_iff.mpr ⟨?_, ?_⟩)
    · have := FVector2D.distance_triangle p z q
      linarith
    · have := FVector2D.distance_triangle p q z
      rw [FVector2D.distance_comm q z] at this
      linarith
  have hsplit : attraction g clamp p z mass - attraction g clamp p q mass
      = mass * g / a ^ 3 * (z - q) + (mass * g / a ^ 3 - mass * g / b ^ 3) * (q - p) := by
    rw [attraction_eq hclamp, attraction_eq hclamp, ← ha, ← hb]
    ext
    · simp only [FVector2D.x_sub, FVector2D.x_add, FVector2D.x_smul]
      ring
    · simp only [FVector2D.y_sub, FVector2D.y_add, FVector2D.y_smul]
      ring
  have hfactor : mass * g / a ^ 3 - mass * g / b ^ 3
      = mass * g * ((b - a) * ((b ^ 2 + a * b + a ^ 2) / (a ^ 3 * b ^ 3))) := by
    field_simp
    ring
  have hqp : (q - p).size ≤ b := by
    rw [← FVector2D.distance_eq_size, FVector2D.distance_comm]
    exact le_max_left _ _
  have hfirst : (mass * g / a ^ 3 * (z - q)).size
      = mass * g * (FVector2D.distance z q * (1 / a ^ 3)) := by
    rw [FVector2D.size_smul, abs_of_nonneg (by positivity), FVector2D.distance_eq_size]
    ring
  have hsecond : ((mass * g / a ^ 3 - mass * g / b ^ 3) * (q - p)).size
      ≤ mass * g * (FVector2D.distance z q * ((b ^ 2 + a * b + a ^ 2) / (a ^ 3 * b ^ 3)) * b) := by
    have hweight : 0 ≤ (b ^ 2 + a * b + a ^ 2) / (a ^ 3 * b ^ 3) := by positivity
    have hway : 0 ≤ FVector2D.distance z q := FVector2D.distance_nonneg z q
    rw [FVector2D.size_smul, hfactor, abs_mul (mass * g), abs_mul (b - a), abs_of_nonneg hk,
      abs_of_nonneg hweight, mul_assoc]
    refine mul_le_mul_of_nonneg_left ?_ hk
    exact mul_le_mul (mul_le_mul_of_nonneg_right hab hweight) hqp (FVector2D.size_nonneg _)
      (mul_nonneg hway hweight)
  rw [hsplit]
  refine (FVector2D.size_add_le _ _).trans ((add_le_add hfirst.le hsecond).trans_eq ?_)
  field_simp
  ring

/-- **The pull of a far node**, in place of one from a point of its box. -/
theorem size_attraction_far_sub_le {theta s : K} (hs : 0 ≤ s)
    (hq : FVector2D.distance z q ≤ 3 * s) (hd : FVector2D.distance z p ≠ 0)
    (hfar : s / FVector2D.distance z p < theta) :
    (attraction g clamp p z mass - attraction g clamp p q mass).size
      ≤ mass * (12 * theta * g / clamp ^ 2) := by
  have hd0 : 0 < FVector2D.distance z p := lt_of_le_of_ne (FVector2D.distance_nonneg z p) hd.symm
  have htheta : 0 < theta := (div_nonneg hs hd0.le).trans_lt hfar
  have hmove := size_attraction_sub_le hg hclamp hmass p q z
  set a := max (FVector2D.distance p z) clamp with ha
  set b := max (FVector2D.distance p q) clamp with hb
  have ha' : clamp ≤ a := le_max_right _ _
  have hb' : clamp ≤ b := le_max_right _ _
  have ha0 : 0 < a := hclamp.trans_le ha'
  have hb0 : 0 < b := hclamp.trans_le hb'
  have hsa : s ≤ theta * a := by
    have hda : FVector2D.distance z p ≤ a := by
      rw [FVector2D.distance_comm]
      exact le_max_left _ _
    calc s ≤ theta * FVector2D.distance z p := ((div_lt_iff₀ hd0).mp hfar).le
      _ ≤ theta * a := by gcongr
  have hway : FVector2D.distance z q ≤ 3 * (theta * a) := by linarith
  calc (attraction g clamp p z mass - attraction g clamp p q mass).size
      ≤ mass * g * (FVector2D.distance z q
        * (2 / a ^ 3 + 1 / (a ^ 2 * b) + 1 / (a * b ^ 2))) := hmove
    _ ≤ mass * g * (3 * (theta * a) * (2 / a ^ 3 + 1 / (a ^ 2 * b) + 1 / (a * b ^ 2))) := by
      gcongr
    _ = mass * (3 * theta * g * (2 / a ^ 2 + 1 / (a * b) + 1 / b ^ 2)) := by
      field_simp
    _ ≤ mass * (3 * theta * g * (2 / clamp ^ 2 + 1 / (clamp * clamp) + 1 / clamp ^ 2)) := by
      gcongr
    _ = mass * (12 * theta * g / clamp ^ 2) := by
      field_simp
      ring

end Moving

end Geometry

/-! ## What the leaves account for -/

section Pulls

variable {K : Type*} [Field K] [LinearOrder K] [PythagoreanField K]

private theorem sum_attraction {g clamp : K} (hclamp : 0 < clamp) (p z : FVector2D K)
    (masses : Multiset K) :
    (masses.map (attraction g clamp p z)).sum = attraction g clamp p z masses.sum := by
  induction masses using Multiset.induction_on with
  | empty =>
    rw [Multiset.map_zero, Multiset.sum_zero, Multiset.sum_zero, attraction_eq hclamp]
    ext
    · simp
    · simp
  | cons m masses ih =>
    rw [Multiset.map_cons, Multiset.sum_cons, Multiset.sum_cons, ih, attraction_eq hclamp,
      attraction_eq hclamp, attraction_eq hclamp]
    ext
    · simp only [FVector2D.x_add, FVector2D.x_smul]
      ring
    · simp only [FVector2D.y_add, FVector2D.y_smul]
      ring

omit [Field K] [LinearOrder K] [PythagoreanField K] in
theorem sum_map_leaves_split {M : Type*} [AddCommMonoid M] (c : BodyRef)
    (child : Fin 4 → BodyTree) (f : BodyRef → M) :
    ((split c child).leaves.map f).sum = ∑ i, ((child i).leaves.map f).sum := by
  rw [leaves_split, Fin.sum_univ_four, Fin.sum_univ_four]
  simp only [Multiset.map_add, Multiset.sum_add]

namespace ABodySimulator

open UQuadTree

/-- What one body adds to the acceleration of another, pulling from where it is. -/
def bodyPull (heap : BodyHeap K) (body b : BodyRef) : FVector2D K :=
  attraction (heap body).g (heap body).minimumGravityDistance (heap body).position
    (heap b).position (heap b).mass

open Classical in
/-- What a stored body should add to the acceleration of another, by how the traversal treats it:
its pull where it lies beneath a far split, and else the pull of its leaf, twice if that is far. -/
noncomputable def accountedPull (theta : K) (heap : BodyHeap K) (body : BodyRef)
    (tree : UQuadTree K) (b : BodyRef) : FVector2D K :=
  if FarAbove theta heap body tree b then bodyPull heap body b
  else leafPull heap body b
    + if FarLeaf theta heap body tree b then leafPull heap body b else 0

section Stored

variable {theta : K} {heap : BodyHeap K} {body b : BodyRef} {isRoot : Bool} {box : FBox2D K}

private theorem accountedPull_leaf (hmass : 0 < (heap b).mass) :
    accountedPull theta heap body (represent heap isRoot box (.leaf b)) b
      = treePull theta heap body (represent heap isRoot box (.leaf b)) := by
  rw [accountedPull, if_neg farAbove_leaf, treePull_leaf, nodePull_leaf, leafPull]
  by_cases hindex : (heap b).index = (heap body).index
  · rw [if_pos hindex, if_pos hindex, ite_self, add_zero]
  · have hfar : FarLeaf theta heap body (represent heap isRoot box (.leaf b)) b ↔
        isFar theta heap heap body isRoot box (.leaf b) = true ∧ (heap b).mass > 0 := by
      rw [farLeaf_leaf]
      exact ⟨fun h ↦ ⟨h.2, hmass⟩, fun h ↦ ⟨rfl, h.1⟩⟩
    rw [if_neg hindex, if_neg hindex]
    simp only [hfar]

variable [IsStrictOrderedRing K]

/-- Beneath a split that is opened, a body is treated as beneath its child. -/
theorem accountedPull_split {S : Multiset BodyRef} {c : BodyRef} {child : Fin 4 → BodyTree}
    (hc : CanonicalFor heap box S (.split c child))
    (hfar : ¬isFar theta heap heap body isRoot box (.split c child) = true) {i : Fin 4}
    (hb : b ∈ (child i).leaves) :
    accountedPull theta heap body (represent heap isRoot box (.split c child)) b
      = accountedPull theta heap body (represent heap false (box.quarter i) (child i)) b := by
  obtain ⟨j, hj, hother⟩ := hc.exists_unique_child (mem_leaves_split.mpr ⟨i, hb⟩)
  obtain rfl : i = j := by
    by_contra hij
    exact hother i hij hb
  have habove : FarAbove theta heap body (represent heap isRoot box (.split c child)) b ↔
      FarAbove theta heap body (represent heap false (box.quarter i) (child i)) b := by
    rw [farAbove_split]
    refine (or_iff_right fun h ↦ hfar h.2).trans (exists_iff_of_unique fun k hk h ↦ ?_)
    exact hother k hk (mem_leaves_of_farAbove h)
  have hleaf : FarLeaf theta heap body (represent heap isRoot box (.split c child)) b ↔
      FarLeaf theta heap body (represent heap false (box.quarter i) (child i)) b := by
    rw [farLeaf_split]
    exact exists_iff_of_unique fun k hk h ↦ hother k hk (mem_leaves_of_farLeaf h)
  classical
  rw [accountedPull, accountedPull]
  simp only [habove, hleaf]

/-- **A far split**: its one pull replaces those of the bodies beneath it. -/
theorem size_nodePull_sub_le {S : Multiset BodyRef} {c : BodyRef} {child : Fin 4 → BodyTree}
    (hc : CanonicalFor heap box S (.split c child))
    (hmass : ∀ b ∈ (split c child).leaves, 0 ≤ (heap b).mass) (hg : 0 ≤ (heap body).g)
    (hclamp : 0 < (heap body).minimumGravityDistance)
    (hfar : isFar theta heap heap body isRoot box (.split c child) = true) :
    (nodePull heap heap body isRoot box (.split c child)
        - ((split c child).leaves.map (bodyPull heap body)).sum).size
      ≤ ((split c child).leaves.map fun b ↦
          (heap b).mass * (12 * theta * (heap body).g
            / (heap body).minimumGravityDistance ^ 2)).sum := by
  obtain ⟨center, hcenter⟩ := Option.isSome_iff_exists.mp (isSome_getCenterOfMass_of_farTest hfar)
  obtain ⟨hd, hquotient⟩ := (isFar_iff hcenter).mp hfar
  rw [getCenterOfMass_split] at hcenter
  have hinside := hc.isInsideOrOn_centerMass hcenter
  have hbox : 0 ≤ box.getCenterAndExtents.2.getMax :=
    FBox2D.getMax_extents_of_isInside (Subdivision.mem_inside.mp (canonical_split.mp hc).1).2
  have hpull : nodePull heap heap body isRoot box (.split c child)
      = ((split c child).leaves.map fun b ↦ attraction (heap body).g
          (heap body).minimumGravityDistance (heap body).position center (heap b).mass).sum := by
    rw [nodePull_split hcenter, fieldsOf_mass, ← sum_attraction hclamp, Multiset.map_map]
    rfl
  rw [hpull, ← Multiset.sum_map_sub]
  refine FVector2D.size_multisetSum_le _ fun b hb ↦ ?_
  obtain ⟨hx, hx', hy, hy'⟩ := FBox2D.isInside_iff.mp (hc.mem_of_mem_leaves hb).2
  have hplace : box.IsInsideOrOn (heap b).position := ⟨⟨hx.le, hx'.le⟩, hy.le, hy'.le⟩
  exact size_attraction_far_sub_le hg hclamp (hmass b hb) _ _ _ hbox
    (FBox2D.distance_le_of_isInsideOrOn hinside hplace) hd hquotient

/-- **A tree pulls as its leaves account for**, up to what its far splits cost. -/
theorem size_treePull_sub_le {S : Multiset BodyRef} {t : BodyTree}
    (hc : CanonicalFor heap box S t) (hmass : ∀ b ∈ t.leaves, 0 < (heap b).mass)
    (hg : 0 ≤ (heap body).g) (hclamp : 0 < (heap body).minimumGravityDistance) :
    (treePull theta heap body (represent heap isRoot box t)
        - (t.leaves.map (accountedPull theta heap body (represent heap isRoot box t))).sum).size
      ≤ (t.leaves.map fun b ↦ (heap b).mass * (12 * max theta 0 * (heap body).g
          / (heap body).minimumGravityDistance ^ 2)).sum := by
  induction t generalizing isRoot box with
  | empty =>
    rw [treePull_empty, leaves_empty, Multiset.map_zero, Multiset.map_zero, Multiset.sum_zero,
      Multiset.sum_zero, sub_zero, FVector2D.size_zero]
  | leaf b =>
    have hb := hmass b (Multiset.mem_singleton_self b)
    rw [leaves_leaf, Multiset.map_singleton, Multiset.map_singleton, Multiset.sum_singleton,
      Multiset.sum_singleton, accountedPull_leaf hb, sub_self, FVector2D.size_zero]
    have htheta : 0 ≤ max theta 0 := le_max_right _ _
    positivity
  | split c child ih =>
    by_cases hfar : isFar theta heap heap body isRoot box (.split c child) = true
    · have hall : (split c child).leaves.map
          (accountedPull theta heap body (represent heap isRoot box (.split c child)))
          = (split c child).leaves.map (bodyPull heap body) :=
        Multiset.map_congr rfl fun b hb ↦ if_pos (farAbove_split.mpr (Or.inl ⟨hb, hfar⟩))
      have hnode := size_nodePull_sub_le hc (fun b hb ↦ (hmass b hb).le) hg hclamp hfar
      rw [hall, treePull_split, if_pos hfar]
      rcases Multiset.empty_or_exists_mem (split c child).leaves with hempty | ⟨b, hb⟩
      · -- all the bodies have dropped out, and the node has no mass
        rw [fieldsOf_mass, hempty, Multiset.map_zero, Multiset.map_zero, Multiset.map_zero,
          Multiset.sum_zero, Multiset.sum_zero, if_neg (lt_irrefl _), sub_zero,
          FVector2D.size_zero]
      · rw [if_pos (fieldsOf_mass_pos hmass hb)]
        refine hnode.trans (Multiset.sum_map_le_sum_map _ _ fun b hb ↦ ?_)
        have hb := (hmass b hb).le
        have htheta : theta ≤ max theta 0 := le_max_left _ _
        gcongr
    · have hchild : ((split c child).leaves.map
            (accountedPull theta heap body (represent heap isRoot box (.split c child)))).sum
          = ∑ i, ((child i).leaves.map (accountedPull theta heap body
            (represent heap false (box.quarter i) (child i)))).sum := by
        rw [sum_map_leaves_split]
        refine Finset.sum_congr rfl fun i _ ↦ congrArg Multiset.sum ?_
        exact Multiset.map_congr rfl fun b hb ↦ accountedPull_split hc hfar hb
      rw [treePull_split, if_neg hfar, ← Fin.sum_univ_def, hchild, ← Finset.sum_sub_distrib,
        sum_map_leaves_split]
      refine FVector2D.size_multisetSum_le Finset.univ.val fun i _ ↦ ?_
      exact ih i ((canonical_split.mp hc).2.2 i) fun b hb ↦
        hmass b (mem_leaves_split.mpr ⟨i, hb⟩)

end Stored

/-! ## The two phases -/

section Phases

variable {s s₁ : ABodySimulator K}

open Classical in
/-- What the leaf of a body, under the tree in this state, pulls beyond what the body itself does:
nothing where it is beneath a far split, and else the difference of the two pulls, with the pull of
the leaf once more if that is far. -/
noncomputable def leafSurplus (s : ABodySimulator K) (b c : BodyRef) : FVector2D K :=
  if FarAbove s.theta s.objects b s.quadTree c then 0
  else leafPull s.objects b c - s.pullOf (s.objects b) (s.objects c)
    + if FarLeaf s.theta s.objects b s.quadTree c then leafPull s.objects b c else 0

theorem accountedPull_eq (hindex : (s.bodies.map fun b ↦ (s.objects b).index).Nodup)
    (hgravity : s.SharedGravity) (hclamp : 0 < s.minimumGravityDistance) {b c : BodyRef}
    (hb : b ∈ s.bodies) (hc : c ∈ s.bodies) :
    accountedPull s.theta s.objects b s.quadTree c
      = s.pullOf (s.objects b) (s.objects c) + s.leafSurplus b c := by
  obtain ⟨hg, hdistance⟩ := hgravity b hb
  rw [accountedPull, leafSurplus]
  by_cases habove : FarAbove s.theta s.objects b s.quadTree c
  · rw [if_pos habove, if_pos habove, add_zero, bodyPull, pullOf, hg, hdistance]
    split
    · next hsame =>
      -- a body at its own place does not pull itself
      obtain rfl : c = b := List.inj_on_of_nodup_map hindex hc hb hsame
      rw [attraction_eq hclamp, sub_self]
      ext
      · simp
      · simp
    · rfl
  · rw [if_neg habove, if_neg habove]
    abel

/-- Beneath a far split no leaf is visited, and the leaf of a body of mass one, or of one at the
origin, pulls too much only when it is far. -/
theorem leafSurplus_eq_zero (hgravity : s.SharedGravity) {b c : BodyRef} (hb : b ∈ s.bodies)
    (h : FarAbove s.theta s.objects b s.quadTree c ∨
      ((s.objects c).mass = 1 ∨ (s.objects c).position = 0) ∧
        ¬FarLeaf s.theta s.objects b s.quadTree c) : s.leafSurplus b c = 0 := by
  rw [leafSurplus]
  rcases h with habove | ⟨hc, hleaf⟩
  · rw [if_pos habove]
  · rw [if_neg hleaf, leafPull_eq_pullOf hgravity hb hc, sub_self, add_zero, ite_self]

variable [IsStrictOrderedRing K]

private theorem size_treePull_sub_naivePull_le {t : BodyTree}
    (hindex : (s.bodies.map fun b ↦ (s.objects b).index).Nodup) (hgravity : s.SharedGravity)
    (hmass : ∀ b ∈ s.bodies, 0 < (s.objects b).mass) (hg : 0 ≤ s.g)
    (hclamp : 0 < s.minimumGravityDistance)
    (htree : s.quadTree = represent s.objects true s.sceneBounds t)
    (hc : CanonicalFor s.objects s.sceneBounds s.bodies t) (hleaves : t.leaves = s.bodies)
    {b : BodyRef} (hb : b ∈ s.bodies) :
    (treePull s.theta s.objects b s.quadTree - s.naivePull s.objects b
        - (s.bodies.map (s.leafSurplus b)).sum).size
      ≤ 12 * max s.theta 0 * s.g * (s.bodies.map fun c ↦ (s.objects c).mass).sum
          / s.minimumGravityDistance ^ 2 := by
  obtain ⟨hgb, hdistance⟩ := hgravity b hb
  have haccounted : (t.leaves.map (accountedPull s.theta s.objects b s.quadTree)).sum
      = s.naivePull s.objects b + (s.bodies.map (s.leafSurplus b)).sum := by
    rw [naivePull, ← List.sum_map_add, hleaves, Multiset.map_coe, Multiset.sum_coe]
    exact congrArg List.sum (List.map_congr_left fun c hc ↦
      accountedPull_eq hindex hgravity hclamp hb hc)
  have hpos : ∀ c ∈ t.leaves, 0 < (s.objects c).mass := fun c hcl ↦
    hmass c (by rwa [hleaves, Multiset.mem_coe] at hcl)
  have hpull : (treePull s.theta s.objects b (represent s.objects true s.sceneBounds t)
      - (t.leaves.map (accountedPull s.theta s.objects b
        (represent s.objects true s.sceneBounds t))).sum).size ≤ _ :=
    size_treePull_sub_le hc hpos (hgb ▸ hg) (hdistance ▸ hclamp)
  rw [← htree, haccounted, ← sub_sub, hgb, hdistance, hleaves, Multiset.map_coe, Multiset.sum_coe,
    List.sum_map_mul_right] at hpull
  exact hpull.trans_eq (by ring)

/-- **The Barnes-Hut phase against the naive one.** When no body is cut off, the velocities that the
two phases give to a body differ by what the leaves of the tree pull too much, up to a term that is
linear in `Theta`. This term is all when every body is beneath a far split, or else of mass one (or
at the origin) in a leaf that is not far. -/
theorem barnesHut_near_naive {fuel : ℕ} {deltaTime : K}
    (hindex : (s.bodies.map fun b ↦ (s.objects b).index).Nodup) (hgravity : s.SharedGravity)
    (hcut : NoBodyCutOff s) (hmass : ∀ b ∈ s.bodies, 0 < (s.objects b).mass) (hg : 0 ≤ s.g)
    (hclamp : 0 < s.minimumGravityDistance) (hdelta : 0 ≤ deltaTime)
    (h : s.constructTree fuel = .ok s₁) {b : BodyRef} (hb : b ∈ s.bodies) :
    (((s₁.simulateBarnesHut deltaTime).objects b).velocity
        - ((s.simulateCompareAllParallel deltaTime).objects b).velocity
        - (s.bodies.map (s₁.leafSurplus b)).sum * deltaTime).size
      ≤ deltaTime * (12 * max s.theta 0 * s.g * (s.bodies.map fun c ↦ (s.objects c).mass).sum
          / s.minimumGravityDistance ^ 2) ∧
    ((∀ c ∈ s.bodies, FarAbove s₁.theta s₁.objects b s₁.quadTree c ∨
        ((s.objects c).mass = 1 ∨ (s.objects c).position = 0) ∧
          ¬FarLeaf s₁.theta s₁.objects b s₁.quadTree c) →
      (((s₁.simulateBarnesHut deltaTime).objects b).velocity
          - ((s.simulateCompareAllParallel deltaTime).objects b).velocity).size
        ≤ deltaTime * (12 * max s.theta 0 * s.g * (s.bodies.map fun c ↦ (s.objects c).mass).sum
            / s.minimumGravityDistance ^ 2)) := by
  have hnodup : s.bodies.Nodup := hindex.of_map _
  have hsettle : s.objects.settle s.sceneBounds s.bodies = s.objects :=
    BodyHeap.settle_eq_self hcut.1
  obtain ⟨t, hc, rfl⟩ := constructTree_spec h
  have hheap : (s.withTree t).objects = s.objects := hsettle
  have hleaves : t.leaves = s.bodies := Canonical.leaves_eq hc hnodup hcut
  have hbound : (treePull s.theta (s.withTree t).objects b (s.withTree t).quadTree
      - s.naivePull s.objects b - (s.bodies.map ((s.withTree t).leafSurplus b)).sum).size
      ≤ 12 * max s.theta 0 * s.g * (s.bodies.map fun c ↦ (s.objects c).mass).sum
          / s.minimumGravityDistance ^ 2 := by
    have hall := size_treePull_sub_naivePull_le (s := s.withTree t) (t := t) (b := b)
      (by rw [hheap]; exact hindex) (by rw [SharedGravity, hheap]; exact hgravity)
      (by rw [hheap]; exact hmass) hg hclamp rfl hc hleaves hb
    rw [hheap] at hall ⊢
    exact hall
  set surplus := (s.bodies.map ((s.withTree t).leafSurplus b)).sum with hsurplus
  have hfirst : ((((s.withTree t).simulateBarnesHut deltaTime).objects b).velocity
      - ((s.simulateCompareAllParallel deltaTime).objects b).velocity - surplus * deltaTime).size
      ≤ deltaTime * (12 * max s.theta 0 * s.g * (s.bodies.map fun c ↦ (s.objects c).mass).sum
          / s.minimumGravityDistance ^ 2) := by
    have hchange : (((s.withTree t).simulateBarnesHut deltaTime).objects b).velocity
        - ((s.simulateCompareAllParallel deltaTime).objects b).velocity - surplus * deltaTime
        = (treePull s.theta (s.withTree t).objects b (s.withTree t).quadTree
          - s.naivePull s.objects b - surplus) * deltaTime := by
      rw [velocity_simulateBarnesHut deltaTime (s := s.withTree t) hnodup hb,
        velocity_simulateCompareAllParallel deltaTime hnodup hb, hheap]
      show (s.objects b).velocity + treePull s.theta s.objects b (s.withTree t).quadTree * deltaTime
        - _ - _ = _
      ext
      · simp only [FVector2D.x_sub, FVector2D.x_add, FVector2D.x_mul]
        ring
      · simp only [FVector2D.y_sub, FVector2D.y_add, FVector2D.y_mul]
        ring
    rw [hchange, FVector2D.size_scale, abs_of_nonneg hdelta, mul_comm]
    gcongr
  refine ⟨hfirst, fun hone ↦ ?_⟩
  have hnone : surplus = 0 := by
    have hgravity' : (s.withTree t).SharedGravity := by
      rw [SharedGravity, hheap]
      exact hgravity
    rw [hsurplus, List.map_congr_left fun c hc ↦ leafSurplus_eq_zero hgravity' hb
      (by rw [hheap] at hone ⊢; exact hone c hc)]
    simp
  rwa [hnone, FVector2D.zero_scale, sub_zero] at hfirst

end Phases

end ABodySimulator

end Pulls

/-! ## A body far from the root -/

open ABodySimulator

private theorem noBodyCutOff_cornerScene : NoBodyCutOff cornerScene := by
  obtain ⟨fuel, r, h⟩ := exists_constructTree_cornerScene_self
  obtain ⟨t, hc, rfl⟩ := constructTree_spec h
  refine hc.holdsEveryBody_iff.mp fun b hb ↦ ?_
  obtain ⟨c, rfl⟩ := canonical_cornerScene hc
  rw [count_leafBodies_withTree]
  have hb3 : b < 3 := List.mem_range.mp hb
  interval_cases b <;> simp [spread, Fin.sum_univ_four]

theorem barnesHut_near_naive_cornerScene : ∃ fuel s₁, cornerScene.constructTree fuel = .ok s₁ ∧
    (∀ c ∈ cornerScene.bodies, FarAbove s₁.theta s₁.objects 0 s₁.quadTree c) ∧
    (((s₁.simulateBarnesHut 1).objects 0).velocity
        - ((cornerScene.simulateCompareAllParallel 1).objects 0).velocity
        - (cornerScene.bodies.map (s₁.leafSurplus 0)).sum * (1 : ℝ)).size ≤ 252 / 5 ∧
    (((s₁.simulateBarnesHut 1).objects 0).velocity
        - ((cornerScene.simulateCompareAllParallel 1).objects 0).velocity).size ≤ 252 / 5 := by
  obtain ⟨fuel, s₁, h⟩ := exists_constructTree_cornerScene_self
  have hfar : ∀ c ∈ cornerScene.bodies, FarAbove s₁.theta s₁.objects 0 s₁.quadTree c :=
    fun c hc ↦ farAbove_cornerScene h hc
  obtain ⟨hsurplus, hwhole⟩ := barnesHut_near_naive (b := 0)
    (ofBodies_wellIndexed _ _ _ _ _ _).nodup_index (ofBodies_sharedGravity _ _ _ _ _ _)
    noBodyCutOff_cornerScene mass_pos_cornerScene (by norm_num [cornerScene, ofBodies])
    (by norm_num [cornerScene, ofBodies]) (zero_le_one' ℝ) h (by decide)
  have hbound : (1 : ℝ) * (12 * max cornerScene.theta 0 * cornerScene.g
      * (cornerScene.bodies.map fun c ↦ (cornerScene.objects c).mass).sum
        / cornerScene.minimumGravityDistance ^ 2) = 252 / 5 := by
    norm_num [cornerScene, ofBodies, UBodyEntity.initializeBody, List.range_succ]
  exact ⟨fuel, s₁, h, hfar, hsurplus.trans_eq hbound,
    (hwhole fun c hc ↦ Or.inl (hfar c hc)).trans_eq hbound⟩

end NBodySimulation
