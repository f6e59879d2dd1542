import NBodySimulation.Forces.FarBoxes

/-!
# A body that attracts itself

In Barnes-Hut mode a body is excluded from its own pull by the index test at the leaves. That test
is never reached beneath a subdivided node that passes the far test, so when a body is stored
beneath such a node, its own mass is part of the mass that is applied to it. It then depends on the
mass of the body how fast the body moves, which in the naive method it does not. Whether there is
such a node is told from the scene, `Theta` and the places of the bodies alone.

To compare two runs that differ in one mass, the heap and the tree are compared first: positions,
and with them the shape of the tree and every centre of a subdivided node, do not depend on masses.

## Main results

* `selfAttraction_iff`: when a body is applied to itself, and when its velocity depends on its mass.
-/

namespace NBodySimulation

open Spatial Spatial.PointTree

/-! ## One mass changed -/

section WithMass

variable {K : Type*}

def BodyHeap.withMass (heap : BodyHeap K) (b : BodyRef) (mass : K) : BodyHeap K :=
  heap.modify b fun body ↦ { body with mass := mass }

def ABodySimulator.withMass (s : ABodySimulator K) (b : BodyRef) (mass : K) : ABodySimulator K :=
  { s with objects := s.objects.withMass b mass }

variable (heap : BodyHeap K) (b c : BodyRef) (mass : K)

private theorem BodyHeap.withMass_of_ne {c : BodyRef} (h : c ≠ b) :
    heap.withMass b mass c = heap c :=
  heap.modify_of_ne _ h

@[simp] theorem BodyHeap.mass_withMass_self : (heap.withMass b mass b).mass = mass := by
  rw [withMass, modify_self]

private theorem BodyHeap.withMass_eq :
    heap.withMass b mass c = { heap c with mass := (heap.withMass b mass c).mass } := by
  by_cases hcb : c = b
  · rw [hcb, withMass, modify_self]
  · rw [heap.withMass_of_ne b mass hcb]

@[simp] theorem BodyHeap.position_withMass :
    (heap.withMass b mass c).position = (heap c).position := by
  rw [withMass_eq]

@[simp] theorem BodyHeap.velocity_withMass :
    (heap.withMass b mass c).velocity = (heap c).velocity := by
  rw [withMass_eq]

@[simp] theorem BodyHeap.index_withMass :
    (heap.withMass b mass c).index = (heap c).index := by
  rw [withMass_eq]

@[simp] theorem BodyHeap.g_withMass : (heap.withMass b mass c).g = (heap c).g := by
  rw [withMass_eq]

@[simp] theorem BodyHeap.minimumGravityDistance_withMass :
    (heap.withMass b mass c).minimumGravityDistance = (heap c).minimumGravityDistance := by
  rw [withMass_eq]

@[simp] theorem BodyHeap.positions_withMass :
    (heap.withMass b mass).positions = heap.positions :=
  funext fun c ↦ heap.position_withMass b c mass

private theorem BodyHeap.settle_withMass [LinearOrder K] (box : FBox2D K) (bodies : List BodyRef) :
    (heap.withMass b mass).settle box bodies = (heap.settle box bodies).withMass b mass := by
  funext c
  by_cases hcb : c = b
  · subst hcb
    by_cases hc : c ∈ bodies
    · rw [settle_of_mem hc, withMass, withMass, modify_self, modify_self, settle_of_mem hc]
      rfl
    · rw [settle, if_neg hc, withMass, withMass, modify_self, modify_self, settle, if_neg hc]
  · rw [withMass_of_ne _ _ _ hcb, settle, settle, withMass_of_ne _ _ _ hcb]

end WithMass

/-! ## The stored tree with one mass changed -/

namespace UQuadTree

variable {K : Type*} [Field K] {heap : BodyHeap K} {b : BodyRef} {mass : K} {isRoot : Bool}
  {box : FBox2D K}

private theorem centerMass_withMass (t : BodyTree) :
    (fieldsOf (heap.withMass b mass) isRoot box t).centerMass
      = (fieldsOf heap isRoot box t).centerMass := by
  induction t generalizing isRoot box with
  | empty => rfl
  | leaf c => simp [fieldsOf]
  | split c child ih =>
    -- the loop adds up the same centres, next to other masses
    have hloop : ∀ (l : List (Fin 4)) (sums sums' : Sums K), sums'.center = sums.center →
        sums'.size = sums.size →
        (l.foldl (fun sums i ↦ sums.addChild
            (fieldsOf (heap.withMass b mass) false (box.quarter i) (child i))) sums').centerMass
          = (l.foldl (fun sums i ↦ sums.addChild
            (fieldsOf heap false (box.quarter i) (child i))) sums).centerMass := by
      intro l
      induction l with
      | nil =>
        intro sums sums' hcenter hsize
        rw [List.foldl_nil, List.foldl_nil, Sums.centerMass, Sums.centerMass, hcenter, hsize]
      | cons i l ihl =>
        intro sums sums' hcenter hsize
        rw [List.foldl_cons, List.foldl_cons]
        refine ihl _ _ ?_ ?_
        · rw [Sums.addChild, Sums.addChild, fieldsOf_bodyEntity, fieldsOf_bodyEntity, ih i]
          cases (child i).resident with
          | none => exact hcenter
          | some c => simp only [hcenter]
        · rw [Sums.addChild, Sums.addChild, fieldsOf_bodyEntity, fieldsOf_bodyEntity]
          cases (child i).resident with
          | none => exact hsize
          | some c => simp only [hsize]
    exact hloop _ _ _ rfl rfl

private theorem fieldsOf_mass_withMass_of_not_mem {t : BodyTree} (hb : b ∉ t.leaves) :
    (fieldsOf (heap.withMass b mass) isRoot box t).mass = (fieldsOf heap isRoot box t).mass := by
  rw [fieldsOf_mass, fieldsOf_mass]
  refine congrArg Multiset.sum (Multiset.map_congr rfl fun c hc ↦ ?_)
  rw [heap.withMass_of_ne b mass fun hcb ↦ hb (hcb ▸ hc)]

private theorem fieldsOf_mass_withMass_of_mem {t : BodyTree} (hb : t.leaves.count b = 1) :
    (fieldsOf (heap.withMass b mass) isRoot box t).mass
      = (fieldsOf heap isRoot box t).mass + (mass - (heap b).mass) := by
  have hmem : b ∈ t.leaves := Multiset.count_pos.mp (by omega)
  obtain ⟨rest, hrest⟩ := Multiset.exists_cons_of_mem hmem
  have hnot : b ∉ rest := by
    rw [hrest, Multiset.count_cons_self] at hb
    exact Multiset.count_eq_zero.mp (by omega)
  have hcongr : rest.map (fun c ↦ (heap.withMass b mass c).mass)
      = rest.map fun c ↦ (heap c).mass := by
    refine Multiset.map_congr rfl fun c hc ↦ ?_
    rw [heap.withMass_of_ne b mass fun hcb ↦ hnot (hcb ▸ hc)]
  rw [fieldsOf_mass, fieldsOf_mass, hrest, Multiset.map_cons, Multiset.map_cons, Multiset.sum_cons,
    Multiset.sum_cons, hcongr, BodyHeap.mass_withMass_self]
  ring

end UQuadTree

/-! ## The pulls with one mass changed -/

section Pulls

variable {K : Type*} [Field K] [LinearOrder K] [PythagoreanField K] [IsStrictOrderedRing K]

private theorem attraction_eq_iff {g minimumGravityDistance : K} {p q : FVector2D K}
    {mass mass' : K} (hpq : FVector2D.distance q p ≠ 0) :
    attraction g minimumGravityDistance p q mass' = attraction g minimumGravityDistance p q mass ↔
      mass' = mass ∨ g = 0 := by
  have hd : max (FVector2D.distance p q) minimumGravityDistance ≠ 0 := by
    rw [FVector2D.distance_comm] at hpq
    exact (lt_max_of_lt_left (lt_of_le_of_ne (FVector2D.distance_nonneg p q) hpq.symm)).ne'
  constructor
  · intro h
    by_contra hne
    rw [not_or] at hne
    -- the attractions agree in both coordinates, so the places have no coordinate apart
    have hx := congrArg FVector2D.x h
    have hy := congrArg FVector2D.y h
    simp only [attraction, FVector2D.x_div, FVector2D.x_smul, FVector2D.x_sub, FVector2D.y_div,
      FVector2D.y_smul, FVector2D.y_sub] at hx hy
    have hsame : ∀ u : K, mass' / max (FVector2D.distance p q) minimumGravityDistance * g
          / max (FVector2D.distance p q) minimumGravityDistance * u
          / max (FVector2D.distance p q) minimumGravityDistance
        = mass / max (FVector2D.distance p q) minimumGravityDistance * g
          / max (FVector2D.distance p q) minimumGravityDistance * u
          / max (FVector2D.distance p q) minimumGravityDistance → u = 0 := by
      intro u hu
      field_simp at hu
      have hprod : (mass' - mass) * (g * u) = 0 := by linear_combination hu
      rcases mul_eq_zero.mp hprod with h1 | h1
      · exact absurd (sub_eq_zero.mp h1) hne.1
      · exact (mul_eq_zero.mp h1).resolve_left hne.2
    refine hpq (FVector2D.distance_eq_zero_iff.mpr (FVector2D.ext ?_ ?_))
    · exact sub_eq_zero.mp (hsame _ hx)
    · exact sub_eq_zero.mp (hsame _ hy)
  · rintro (rfl | rfl)
    · rfl
    · rw [attraction, attraction, mul_zero, mul_zero]

namespace ABodySimulator

open UQuadTree

variable {theta : K} {heap : BodyHeap K} {b : BodyRef} {mass : K} {isRoot : Bool} {box : FBox2D K}

omit [IsStrictOrderedRing K] in
private theorem isFar_split_withMass {c : BodyRef} {child : Fin 4 → BodyTree} :
    isFar theta (heap.withMass b mass) (heap.withMass b mass) b isRoot box (.split c child)
      = isFar theta heap heap b isRoot box (.split c child) := by
  rw [isFar, isFar, farTest, farTest, getCenterOfMass_split, getCenterOfMass_split,
    centerMass_withMass, BodyHeap.position_withMass, fieldsOf_box, fieldsOf_box]

omit [IsStrictOrderedRing K] in
private theorem treePull_leaf_withMass {c : BodyRef} (hcb : c ≠ b) :
    treePull theta (heap.withMass b mass) b (represent (heap.withMass b mass) isRoot box (.leaf c))
      = treePull theta heap b (represent heap isRoot box (.leaf c)) := by
  have hheap : heap.withMass b mass c = heap c := heap.withMass_of_ne b mass hcb
  have hfar : isFar theta (heap.withMass b mass) (heap.withMass b mass) b isRoot box (.leaf c)
      = isFar theta heap heap b isRoot box (.leaf c) := by
    rw [isFar, isFar, farTest, farTest, getCenterOfMass_leaf, getCenterOfMass_leaf, hheap,
      BodyHeap.position_withMass, fieldsOf_box, fieldsOf_box]
  have hpull : nodePull (heap.withMass b mass) (heap.withMass b mass) b isRoot box (.leaf c)
      = nodePull heap heap b isRoot box (.leaf c) := by
    rw [nodePull_leaf, nodePull_leaf, hheap, BodyHeap.g_withMass,
      BodyHeap.minimumGravityDistance_withMass, BodyHeap.position_withMass]
  rw [treePull_leaf, treePull_leaf, hfar, hpull, hheap, BodyHeap.index_withMass]

omit [IsStrictOrderedRing K] in
private theorem treePull_withMass_of_not_mem {t : BodyTree} (hb : b ∉ t.leaves) :
    treePull theta (heap.withMass b mass) b (represent (heap.withMass b mass) isRoot box t)
      = treePull theta heap b (represent heap isRoot box t) := by
  induction t generalizing isRoot box with
  | empty => rw [treePull_empty, treePull_empty]
  | leaf c => exact treePull_leaf_withMass fun hcb ↦ hb (Multiset.mem_singleton.mpr hcb.symm)
  | split c child ih =>
    have hchild : (fun i ↦ treePull theta (heap.withMass b mass) b
          (represent (heap.withMass b mass) false (box.quarter i) (child i)))
        = fun i ↦ treePull theta heap b (represent heap false (box.quarter i) (child i)) :=
      funext fun i ↦ ih i fun hi ↦ hb (mem_leaves_split.mpr ⟨i, hi⟩)
    have hpull :
        nodePull (heap.withMass b mass) (heap.withMass b mass) b isRoot box (.split c child)
          = nodePull heap heap b isRoot box (.split c child) := by
      rw [nodePull, nodePull, represent_eq, represent_eq, Visit.pull, Visit.pull,
        getCenterOfMass_split, getCenterOfMass_split, getMass_split, getMass_split,
        centerMass_withMass, fieldsOf_mass_withMass_of_not_mem hb, BodyHeap.g_withMass,
        BodyHeap.minimumGravityDistance_withMass, BodyHeap.position_withMass]
    rw [treePull_split, treePull_split, isFar_split_withMass,
      fieldsOf_mass_withMass_of_not_mem hb, hpull, hchild]

omit [LinearOrder K] [PythagoreanField K] [IsStrictOrderedRing K] in
private theorem sum_eq_sum_iff_of_eq_off {ι M : Type*} [Fintype ι] [DecidableEq ι] [AddCommGroup M]
    {f g : ι → M} {i : ι} (h : ∀ j, j ≠ i → f j = g j) : ∑ j, f j = ∑ j, g j ↔ f i = g i := by
  have hoff : ∑ j ∈ Finset.univ.erase i, f j = ∑ j ∈ Finset.univ.erase i, g j :=
    Finset.sum_congr rfl fun j hj ↦ h j (Finset.ne_of_mem_erase hj)
  rw [← Finset.add_sum_erase _ f (Finset.mem_univ i),
    ← Finset.add_sum_erase _ g (Finset.mem_univ i), hoff, add_left_inj]

omit [PythagoreanField K] [IsStrictOrderedRing K] in
private theorem mass_pos_withMass {t : BodyTree} (hpos : ∀ c ∈ t.leaves, 0 < (heap c).mass)
    (hmass : 0 < mass) : ∀ c ∈ t.leaves, 0 < (heap.withMass b mass c).mass := by
  intro c hc
  by_cases hcb : c = b
  · rw [hcb, BodyHeap.mass_withMass_self]
    exact hmass
  · rw [heap.withMass_of_ne b mass hcb]
    exact hpos c hc

/-- A node that is applied and stores the body pulls with a mass that contains that of the body. -/
theorem treePull_withMass_eq_iff_of_far {heap' : BodyHeap K} {S : Multiset BodyRef} {c : BodyRef}
    {child : Fin 4 → BodyTree} (hc : CanonicalFor heap' box S (split c child))
    (hb : b ∈ (split c child).leaves) (hpos : ∀ d ∈ (split c child).leaves, 0 < (heap d).mass)
    (hmass : 0 < mass) (hf : isFar theta heap heap b isRoot box (split c child) = true) :
    treePull theta (heap.withMass b mass) b
        (represent (heap.withMass b mass) isRoot box (split c child))
      = treePull theta heap b (represent heap isRoot box (split c child)) ↔
      mass = (heap b).mass ∨ (heap b).g = 0 := by
  have hcount : (split c child).leaves.count b = 1 :=
    le_antisymm (hc.count_leaves_le_one b) (Multiset.count_pos.mpr hb)
  obtain ⟨center, hcenter⟩ := Option.isSome_iff_exists.mp (isSome_getCenterOfMass_of_farTest hf)
  have hdistance := ((isFar_iff hcenter).mp hf).1
  rw [getCenterOfMass_split] at hcenter
  have hcenter' : (fieldsOf (heap.withMass b mass) isRoot box (split c child)).centerMass
      = some center := by rw [centerMass_withMass, hcenter]
  rw [treePull_split, treePull_split, isFar_split_withMass, if_pos hf, if_pos hf,
    if_pos (fieldsOf_mass_pos (mass_pos_withMass hpos hmass) hb),
    if_pos (fieldsOf_mass_pos hpos hb), nodePull_split hcenter', nodePull_split hcenter,
    fieldsOf_mass_withMass_of_mem hcount, BodyHeap.g_withMass,
    BodyHeap.minimumGravityDistance_withMass, BodyHeap.position_withMass,
    attraction_eq_iff hdistance, add_eq_left, sub_eq_zero]

/-- **When a stored tree pulls a body differently for another mass of that body**: when it stores
the body beneath a subdivided node that passes the far test. -/
theorem treePull_withMass_eq_iff {heap' : BodyHeap K} {S : Multiset BodyRef} {t : BodyTree}
    (hc : CanonicalFor heap' box S t) (hpos : ∀ c ∈ t.leaves, 0 < (heap c).mass)
    (hmass : 0 < mass) :
    treePull theta (heap.withMass b mass) b (represent (heap.withMass b mass) isRoot box t)
        = treePull theta heap b (represent heap isRoot box t) ↔
      mass = (heap b).mass ∨ (heap b).g = 0 ∨
        ¬FarAbove theta heap b (represent heap isRoot box t) b := by
  by_cases hb : b ∈ t.leaves
  · induction t generalizing isRoot box with
    | empty => exact absurd hb (Multiset.notMem_zero b)
    | leaf c =>
      obtain rfl : b = c := Multiset.mem_singleton.mp hb
      rw [treePull_leaf, treePull_leaf, if_pos rfl, if_pos rfl]
      exact iff_of_true rfl (Or.inr (Or.inr farAbove_leaf))
    | split c child ih =>
      by_cases hf : isFar theta heap heap b isRoot box (.split c child) = true
      · rw [treePull_withMass_eq_iff_of_far hc hb hpos hmass hf, farAbove_split]
        simp only [hb, hf, and_self, true_or, not_true_eq_false, or_false]
      · -- the traversal goes on to the child that stores the body, and to others without it
        obtain ⟨i, hi, hother⟩ := hc.exists_unique_child hb
        have hcell : CanonicalFor heap' (box.quarter i) S (child i) := (canonical_split.mp hc).2.2 i
        have habove : (∃ j, FarAbove theta heap b
            (represent heap false (box.quarter j) (child j)) b) ↔
            FarAbove theta heap b (represent heap false (box.quarter i) (child i)) b :=
          exists_iff_of_unique fun j hji hj ↦ hother j hji (mem_leaves_of_farAbove hj)
        rw [treePull_split, treePull_split, isFar_split_withMass, farAbove_split, if_neg hf,
          if_neg hf, ← Fin.sum_univ_def, ← Fin.sum_univ_def,
          sum_eq_sum_iff_of_eq_off fun j hji ↦ treePull_withMass_of_not_mem (hother j hji),
          ih i hcell (fun d hd ↦ hpos d (mem_leaves_split.mpr ⟨i, hd⟩)) hi, habove]
        simp only [hf, and_false, Bool.false_eq_true, false_or]
  · exact iff_of_true (treePull_withMass_of_not_mem hb)
      (Or.inr (Or.inr fun h ↦ hb (mem_leaves_of_farAbove h)))

/-- A traversal applies no node with its own body beneath it exactly when the body is stored beneath
no subdivided node that passes the far test. -/
theorem applications_self_eq_zero_iff {t : BodyTree} (hpos : ∀ c ∈ t.leaves, 0 < (heap c).mass) :
    applications theta heap b b isRoot box t = 0 ↔
      ¬FarAbove theta heap b (represent heap isRoot box t) b := by
  induction t generalizing isRoot box with
  | empty =>
    exact iff_of_true applications_empty fun h ↦ Multiset.notMem_zero b (mem_leaves_of_farAbove h)
  | leaf c =>
    refine iff_of_true ?_ farAbove_leaf
    rw [applications_leaf]
    by_cases hcb : b = c
    · rw [hcb, if_pos (Or.inl rfl)]
    · rw [if_pos (Or.inr hcb)]
  | split c child ih =>
    rw [applications_split, farAbove_split]
    by_cases hf : isFar theta heap heap b isRoot box (.split c child) = true
    · rw [if_pos hf]
      by_cases hb : b ∈ (split c child).leaves
      · rw [if_pos ⟨fieldsOf_mass_pos hpos hb, hb⟩]
        simp only [hb, hf, and_self, true_or, not_true_eq_false, one_ne_zero]
      · have hnone :
            ¬∃ i, FarAbove theta heap b (represent heap false (box.quarter i) (child i)) b :=
          fun ⟨i, hi⟩ ↦ hb (mem_leaves_split.mpr ⟨i, mem_leaves_of_farAbove hi⟩)
        rw [if_neg fun h ↦ hb h.2]
        simp only [hb, hnone, false_and, or_self, not_false_eq_true]
    · have hchild : ∀ i, applications theta heap b b false (box.quarter i) (child i) = 0 ↔
          ¬FarAbove theta heap b (represent heap false (box.quarter i) (child i)) b := fun i ↦
        ih i fun d hd ↦ hpos d (mem_leaves_split.mpr ⟨i, hd⟩)
      rw [if_neg hf, Finset.sum_eq_zero_iff]
      simp only [hf, hchild, Finset.mem_univ, forall_const, Bool.false_eq_true, and_false, false_or,
        not_exists]

/-! ## One Barnes-Hut phase -/

variable {s r : ABodySimulator K} {fuel : ℕ}

private theorem not_appliesTo_self_iff (hpos : ∀ c ∈ s.bodies, 0 < (s.objects c).mass)
    (h : s.constructTree fuel = .ok r) (deltaTime : K) :
    (∀ visit ∈ (calculateForcesBarnesHut r.theta b deltaTime r.quadTree ⟨r.objects, []⟩).log,
      ¬visit.appliesTo b = true) ↔ ¬FarAbove r.theta r.objects b r.quadTree b := by
  obtain ⟨t, hc, rfl⟩ := constructTree_spec h
  rw [calculateForcesBarnesHut_eq, ← List.countP_eq_zero]
  exact applications_self_eq_zero_iff (CanonicalFor.mass_settle_pos hc hpos)

/-- Far nodes above a body, read off the state before the tree is built. -/
theorem farAbove_constructTree_iff (h : s.constructTree fuel = .ok r) :
    FarAbove r.theta r.objects b r.quadTree b ↔
      s.objects.HeldInFarBox s.theta s.sceneBounds s.bodies b := by
  obtain ⟨t, hc, rfl⟩ := constructTree_spec h
  exact CanonicalFor.farAbove_iff ((canonicalFor_settle_iff s.bodies).mp hc) fun c hin ↦
    BodyHeap.settle_of_isInside hin

omit [PythagoreanField K] [IsStrictOrderedRing K] in
private theorem objects_withMass_withTree (t t' : BodyTree) :
    ((s.withMass b mass).withTree t').objects = (s.withTree t).objects.withMass b mass :=
  BodyHeap.settle_withMass _ _ _ _ _

omit [PythagoreanField K] in
/-- The positions are the same, so trees built with either mass have one shape. -/
theorem sameShape_withMass {t t' : BodyTree} (hc : s.Canonical t)
    (hc' : (s.withMass b mass).Canonical t') : SameShape t t' := by
  have hplaces : CanonicalFor ((s.withMass b mass).withTree t').objects s.sceneBounds s.bodies t' :=
    hc'
  rw [objects_withMass_withTree t, CanonicalFor, BodyHeap.positions_withMass] at hplaces
  exact hc.sameShape hplaces

/-- When the pulls of the two trees on the body differ. -/
theorem treePull_withTree_withMass_iff {t t' : BodyTree} (hc : s.Canonical t)
    (hc' : (s.withMass b mass).Canonical t') (hpos : ∀ c ∈ s.bodies, 0 < (s.objects c).mass)
    (hmass : 0 < mass) :
    treePull s.theta ((s.withTree t).objects.withMass b mass) b
        ((s.withMass b mass).withTree t').quadTree
      = treePull s.theta (s.withTree t).objects b (s.withTree t).quadTree ↔
      mass = (s.objects b).mass ∨ (s.objects b).g = 0 ∨
        ¬FarAbove s.theta (s.withTree t).objects b (s.withTree t).quadTree b := by
  have htree : treePull s.theta ((s.withTree t).objects.withMass b mass) b
        ((s.withMass b mass).withTree t').quadTree
      = treePull s.theta ((s.withTree t).objects.withMass b mass) b
        (represent ((s.withTree t).objects.withMass b mass) true s.sceneBounds t) := by
    rw [← treePull_sameShape (sameShape_withMass hc hc'), ← objects_withMass_withTree t t']
    rfl
  have hmass' : ((s.withTree t).objects b).mass = (s.objects b).mass := BodyHeap.mass_settle _ _ _ b
  have hg : ((s.withTree t).objects b).g = (s.objects b).g := BodyHeap.g_settle _ _ _ b
  rw [htree, ← hmass', ← hg]
  exact treePull_withMass_eq_iff hc (CanonicalFor.mass_settle_pos hc hpos) hmass

private theorem velocity_withMass_eq_iff (hnodup : s.bodies.Nodup) (hb : b ∈ s.bodies)
    (hpos : ∀ c ∈ s.bodies, 0 < (s.objects c).mass) (hmass : 0 < mass)
    (h : s.constructTree fuel = .ok r) {fuel' : ℕ} {r' : ABodySimulator K}
    (h' : (s.withMass b mass).constructTree fuel' = .ok r') (deltaTime : K) :
    ((r'.simulateBarnesHut deltaTime).objects b).velocity
        = ((r.simulateBarnesHut deltaTime).objects b).velocity ↔
      mass = (s.objects b).mass ∨ (s.objects b).g = 0 ∨ deltaTime = 0 ∨
        ¬FarAbove r.theta r.objects b r.quadTree b := by
  obtain ⟨t, hc, rfl⟩ := constructTree_spec h
  obtain ⟨t', hc', rfl⟩ := constructTree_spec h'
  rw [velocity_simulateBarnesHut deltaTime (s := s.withTree t) hnodup hb,
    velocity_simulateBarnesHut deltaTime (s := (s.withMass b mass).withTree t') hnodup hb,
    objects_withMass_withTree t, BodyHeap.velocity_withMass]
  calc _ ↔ treePull s.theta ((s.withTree t).objects.withMass b mass) b
          ((s.withMass b mass).withTree t').quadTree
        = treePull s.theta (s.withTree t).objects b (s.withTree t).quadTree ∨ deltaTime = 0 :=
      (add_right_inj _).trans FVector2D.scale_inj
    _ ↔ _ := by
      rw [treePull_withTree_withMass_iff hc hc' hpos hmass, or_assoc, or_assoc,
        @or_comm _ (deltaTime = 0)]
      rfl

omit [IsStrictOrderedRing K] in
private theorem velocity_compareAll_withMass (hnodup : s.bodies.Nodup) (hb : b ∈ s.bodies)
    (mass deltaTime : K) :
    (((s.withMass b mass).simulateCompareAllParallel deltaTime).objects b).velocity
      = ((s.simulateCompareAllParallel deltaTime).objects b).velocity := by
  have hpull : (s.withMass b mass).naivePull (s.objects.withMass b mass) b
      = s.naivePull s.objects b := by
    refine congrArg List.sum (List.map_congr_left fun c _ ↦ ?_)
    rw [pullOf, pullOf, BodyHeap.index_withMass, BodyHeap.index_withMass]
    by_cases hcb : c = b
    · rw [hcb, if_pos rfl, if_pos rfl]
    · rw [s.objects.withMass_of_ne b mass hcb, BodyHeap.position_withMass]
      rfl
  have hvelocity := velocity_simulateCompareAllParallel deltaTime hnodup hb
  have hvelocity' := velocity_simulateCompareAllParallel deltaTime (s := s.withMass b mass) hnodup
    hb
  rw [hvelocity', hvelocity]
  show (s.objects.withMass b mass b).velocity
    + (s.withMass b mass).naivePull (s.objects.withMass b mass) b * deltaTime = _
  rw [hpull, BodyHeap.velocity_withMass]

/-- **When a body attracts itself.** After the tree is built, the traversal for `b` applies no node
beneath which `b` is stored exactly when no box got from the scene by repeated halving keeps `b`,
has another body strictly inside, and is far from `b` when seen at the average of its bodies. And
whatever other positive mass `b` is given, it ends the phase with the same velocity exactly under
that condition, unless gravity, the time step or the difference of the masses is zero. In the naive
phase it always does. While `Theta` is at most 10/21 the condition holds in every scene. -/
theorem selfAttraction_iff (hnodup : s.bodies.Nodup) (hb : b ∈ s.bodies)
    (hpos : ∀ c ∈ s.bodies, 0 < (s.objects c).mass) (h : s.constructTree fuel = .ok r)
    (deltaTime : K) :
    ((∀ visit ∈ (calculateForcesBarnesHut r.theta b deltaTime r.quadTree ⟨r.objects, []⟩).log,
        ¬visit.appliesTo b = true) ↔
      ¬s.objects.HeldInFarBox s.theta s.sceneBounds s.bodies b) ∧
    (∀ mass, 0 < mass →
      (∀ fuel' r', (s.withMass b mass).constructTree fuel' = .ok r' →
        (((r'.simulateBarnesHut deltaTime).objects b).velocity
            = ((r.simulateBarnesHut deltaTime).objects b).velocity ↔
          mass = (s.objects b).mass ∨ (s.objects b).g = 0 ∨ deltaTime = 0 ∨
            ¬s.objects.HeldInFarBox s.theta s.sceneBounds s.bodies b)) ∧
      (((s.withMass b mass).simulateCompareAllParallel deltaTime).objects b).velocity
        = ((s.simulateCompareAllParallel deltaTime).objects b).velocity) ∧
    (21 * s.theta ≤ 10 → ¬s.objects.HeldInFarBox s.theta s.sceneBounds s.bodies b) := by
  refine ⟨?_, fun mass hmass ↦ ⟨fun fuel' r' h' ↦ ?_, ?_⟩, BodyHeap.not_heldInFarBox_of_theta_le⟩
  · rw [← farAbove_constructTree_iff h]
    exact not_appliesTo_self_iff hpos h deltaTime
  · rw [← farAbove_constructTree_iff h]
    exact velocity_withMass_eq_iff hnodup hb hpos hmass h h' deltaTime
  · exact velocity_compareAll_withMass hnodup hb mass deltaTime

end ABodySimulator

end Pulls

/-! ## A body in the corner -/

open ABodySimulator UQuadTree

private theorem inside_cornerScene (box : FBox2D ℝ) :
    cornerScene.objects.inside box cornerScene.bodies
      = (if box.isInside ⟨1, 1⟩ then [0] else []) ++
        ((if box.isInside ⟨113 / 5, 23⟩ then [1] else []) ++
          if box.isInside ⟨113 / 5, 57 / 5⟩ then [2] else []) := by
  have hbodies : cornerScene.bodies = [0, 1, 2] := rfl
  have h0 : (cornerScene.objects 0).position = ⟨1, 1⟩ := rfl
  have h1 : (cornerScene.objects 1).position = ⟨113 / 5, 23⟩ := rfl
  have h2 : (cornerScene.objects 2).position = ⟨113 / 5, 57 / 5⟩ := rfl
  rw [hbodies, BodyHeap.inside, List.filter_cons, List.filter_cons, List.filter_cons,
    List.filter_nil, h0, h1, h2]
  split <;> split <;> rfl

private theorem settle_cornerScene : cornerScene.objects.settle cornerScene.sceneBounds
    cornerScene.bodies = cornerScene.objects := by
  refine BodyHeap.settle_eq_self (ofBodies_forall_mem (P := fun body ↦
    cornerScene.sceneBounds.isInside body.position = true) ?_)
  norm_num [cornerScene, ofBodies, UBodyEntity.initializeBody, FBox2D.isInside]

theorem canonical_cornerScene {t : BodyTree} (hc : cornerScene.Canonical t) :
    ∃ b, t = spread b ![some 2, some 1, some 0, none] := by
  have hplaces : CanonicalFor cornerScene.objects cornerScene.sceneBounds cornerScene.bodies t :=
    (canonicalFor_settle_iff _).mp hc
  refine hplaces.eq_spread _ ?_ fun i ↦ ?_
  · rw [inside_cornerScene]
    norm_num [cornerScene, ofBodies, FBox2D.isInside]
  · rw [inside_cornerScene]
    fin_cases i <;> norm_num [cornerScene, ofBodies, FBox2D.isInside, FBox2D.quarter,
      FBox2D.getCenterAndExtents]

private theorem isFar_cornerScene (b : BodyRef) :
    isFar (7 / 10) cornerScene.objects cornerScene.objects 0 true
      cornerScene.sceneBounds (spread b ![some 2, some 1, some 0, none]) = true := by
  have hcenter : getCenterOfMass cornerScene.objects
      (fieldsOf cornerScene.objects true cornerScene.sceneBounds
        (spread b ![some 2, some 1, some 0, none]))
      (childrenOf cornerScene.objects cornerScene.sceneBounds
        (spread b ![some 2, some 1, some 0, none])) = some ⟨77 / 5, 59 / 5⟩ := by
    have hlist : List.finRange 4 = [0, 1, 2, 3] := rfl
    rw [spread, getCenterOfMass_split]
    simp only [fieldsOf, hlist]
    simp [Sums.addChild, Sums.zero, Sums.centerMass, fieldsOf, resident, cornerScene, ofBodies,
      UBodyEntity.initializeBody]
    ext <;> norm_num
  have hdistance : FVector2D.distance (⟨77 / 5, 59 / 5⟩ : FVector2D ℝ) ⟨1, 1⟩ = 18 :=
    FVector2D.distance_eq_of_sq (by norm_num) (by norm_num)
  rw [isFar_iff hcenter, show (cornerScene.objects 0).position = ⟨1, 1⟩ from rfl, hdistance]
  norm_num [cornerScene, ofBodies, FBox2D.getCenterAndExtents, FVector2D.getMax]

theorem mass_pos_cornerScene : ∀ b ∈ cornerScene.bodies, 0 < (cornerScene.objects b).mass :=
  ofBodies_forall_mem (P := fun body ↦ 0 < body.mass) (by norm_num [UBodyEntity.initializeBody])

private theorem exists_constructTree_cornerScene (mass : ℝ) :
    ∃ fuel r, (cornerScene.withMass 0 mass).constructTree fuel = .ok r := by
  have hnodup : cornerScene.bodies.Nodup := List.nodup_range
  have hplaces : ∀ b ∈ cornerScene.bodies, ∀ c ∈ cornerScene.bodies, b ≠ c →
      (cornerScene.objects b).position ≠ (cornerScene.objects c).position :=
    ofBodies_places_ne (by norm_num [FVector2D.ext_iff])
  refine exists_constructTree hnodup fun b hb c hc hbc ↦ ?_
  simp only [ABodySimulator.withMass, BodyHeap.position_withMass]
  exact hplaces b hb c hc hbc

/-- In the tree of the scene every body is stored beneath the root, which is far from the body in
the corner. -/
theorem farAbove_cornerScene {fuel : ℕ} {r : ABodySimulator ℝ}
    (h : cornerScene.constructTree fuel = .ok r) {c : BodyRef} (hbody : c ∈ cornerScene.bodies) :
    FarAbove r.theta r.objects 0 r.quadTree c := by
  obtain ⟨t, hc, rfl⟩ := constructTree_spec h
  show FarAbove (7 / 10) (cornerScene.objects.settle cornerScene.sceneBounds cornerScene.bodies) 0
    (represent (cornerScene.objects.settle cornerScene.sceneBounds cornerScene.bodies) true
      cornerScene.sceneBounds t) c
  rw [settle_cornerScene]
  obtain ⟨b, rfl⟩ := canonical_cornerScene hc
  have hmem : c ∈ (spread b ![some 2, some 1, some 0, none]).leaves := by
    have hbodies : cornerScene.bodies = [0, 1, 2] := rfl
    rw [hbodies, List.mem_cons, List.mem_cons, List.mem_singleton] at hbody
    rcases hbody with rfl | rfl | rfl
    · exact mem_leaves_split.mpr ⟨2, by simp⟩
    · exact mem_leaves_split.mpr ⟨1, by simp⟩
    · exact mem_leaves_split.mpr ⟨0, by simp⟩
  have hfar := isFar_cornerScene b
  rw [spread] at hmem hfar ⊢
  exact farAbove_split.mpr (Or.inl ⟨hmem, hfar⟩)

theorem exists_constructTree_cornerScene_self :
    ∃ fuel r, cornerScene.constructTree fuel = .ok r := by
  have hsame : cornerScene.withMass 0 20 = cornerScene := by
    have hheap : cornerScene.objects.withMass 0 20 = cornerScene.objects :=
      Function.update_eq_self 0 cornerScene.objects
    rw [ABodySimulator.withMass, hheap]
  exact hsame ▸ exists_constructTree_cornerScene 20

theorem selfAttraction_iff_cornerScene : ∃ fuel r fuel' r',
    cornerScene.constructTree fuel = .ok r ∧
    (cornerScene.withMass 0 100).constructTree fuel' = .ok r' ∧
    ((∀ visit ∈ (calculateForcesBarnesHut r.theta 0 1 r.quadTree ⟨r.objects, []⟩).log,
        ¬visit.appliesTo 0 = true) ↔ ¬cornerScene.objects.HeldInFarBox cornerScene.theta
          cornerScene.sceneBounds cornerScene.bodies 0) ∧
    (((r'.simulateBarnesHut 1).objects 0).velocity = ((r.simulateBarnesHut 1).objects 0).velocity ↔
      (100 : ℝ) = 20 ∨ (1000 : ℝ) = 0 ∨ (1 : ℝ) = 0 ∨
        ¬cornerScene.objects.HeldInFarBox cornerScene.theta cornerScene.sceneBounds
          cornerScene.bodies 0) := by
  obtain ⟨fuel, r, hok⟩ := exists_constructTree_cornerScene_self
  obtain ⟨fuel', r', hok'⟩ := exists_constructTree_cornerScene 100
  have hmem : 0 ∈ cornerScene.bodies := by decide
  obtain ⟨happlied, hvelocity, _⟩ :=
    selfAttraction_iff List.nodup_range hmem mass_pos_cornerScene hok 1
  exact ⟨fuel, r, fuel', r', hok, hok', happlied,
    (hvelocity 100 (by norm_num)).1 fuel' r' hok'⟩

/-- The body in the corner is applied to itself, and ends the phase with another velocity when only
its own mass is changed. -/
theorem cornerScene_attracts_itself : ∃ fuel r fuel' r',
    cornerScene.constructTree fuel = .ok r ∧
    (cornerScene.withMass 0 100).constructTree fuel' = .ok r' ∧
    (∃ visit ∈ (calculateForcesBarnesHut r.theta 0 1 r.quadTree ⟨r.objects, []⟩).log,
      visit.appliesTo 0 = true) ∧
    ((r'.simulateBarnesHut 1).objects 0).velocity
      ≠ ((r.simulateBarnesHut 1).objects 0).velocity := by
  obtain ⟨fuel, r, hok⟩ := exists_constructTree_cornerScene_self
  obtain ⟨fuel', r', hok'⟩ := exists_constructTree_cornerScene 100
  have hfar := farAbove_cornerScene hok (c := 0) (by decide)
  refine ⟨fuel, r, fuel', r', hok, hok', ?_, fun hsame ↦ ?_⟩
  · have hself := not_appliesTo_self_iff (b := 0) mass_pos_cornerScene hok 1
    by_contra hnone
    exact hself.mp (fun visit hvisit hb ↦ hnone ⟨visit, hvisit, hb⟩) hfar
  · have hmass : (cornerScene.objects 0).mass = 20 := rfl
    have hg : (cornerScene.objects 0).g = 1000 := rfl
    rcases (velocity_withMass_eq_iff List.nodup_range (by decide) mass_pos_cornerScene (by norm_num)
      hok hok' 1).mp hsame with h | h | h | h
    · norm_num [hmass] at h
    · norm_num [hg] at h
    · exact one_ne_zero h
    · exact h hfar

end NBodySimulation
