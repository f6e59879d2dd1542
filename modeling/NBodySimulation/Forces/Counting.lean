import NBodySimulation.Forces.StoredTrees
import NBodySimulation.Quadtree.Termination

/-!
# How often a stored body counts

For a body `B` that traverses the tree, every other stored body should lie beneath exactly one of
the nodes that are applied. The traversal ends beneath a node that passes the far test, so a body
beneath a subdivided node that does is counted once. A leaf is where it goes wrong: after the
application of the leaf branch the code falls through to the far test, and a leaf that passes it is
applied again. And a leaf whose body has the index of `B` is skipped altogether.

## Main results

* `calculateForces_counts_once_iff`: exactly when every stored body other than `B` counts once.
-/

namespace NBodySimulation

open Spatial Spatial.PointTree

variable {K : Type*} [Field K] [LinearOrder K] [PythagoreanField K]

/-- The entry is an application of a node beneath which the body is stored. -/
def Visit.appliesTo (b : BodyRef) : Visit K → Bool
  | .applied node => b ∈ node.leafBodies
  | _ => false

namespace ABodySimulator

/-- Some subdivided node beneath which `b` is stored passes the far test for `body`. -/
def FarAbove (theta : K) (heap : BodyHeap K) (body : BodyRef) (tree : UQuadTree K) (b : BodyRef) :
    Prop :=
  tree.HasNode fun self children ↦ UQuadTree.isLeaf children = false ∧
    b ∈ (UQuadTree.node self children).leafBodies ∧ farTest theta heap body self children = true

/-- Some leaf that holds `b` passes the far test for `body`. -/
def FarLeaf (theta : K) (heap : BodyHeap K) (body : BodyRef) (tree : UQuadTree K) (b : BodyRef) :
    Prop :=
  tree.HasNode fun self children ↦ UQuadTree.leafBody self children = some b ∧
    farTest theta heap body self children = true

open UQuadTree

theorem exists_iff_of_unique {ι : Type*} {P : ι → Prop} {i : ι} (h : ∀ j, j ≠ i → ¬P j) :
    (∃ j, P j) ↔ P i := by
  constructor
  · rintro ⟨j, hj⟩
    by_contra hi
    exact h j (fun hji ↦ hi (hji ▸ hj)) hj
  · exact fun hi ↦ ⟨i, hi⟩

section Stored

variable {theta : K} {heap : BodyHeap K} {body b : BodyRef} {isRoot : Bool} {box : FBox2D K}

theorem farAbove_leaf {c : BodyRef} :
    ¬FarAbove theta heap body (represent heap isRoot box (.leaf c)) b := by
  rw [FarAbove, hasNode_leaf]
  rintro ⟨hleaf, _⟩
  exact absurd hleaf (by simp [isLeaf, hasChildren])

theorem farAbove_split {c : BodyRef} {child : Fin 4 → BodyTree} :
    FarAbove theta heap body (represent heap isRoot box (.split c child)) b ↔
      (b ∈ (split c child).leaves ∧ isFar theta heap heap body isRoot box (.split c child) = true) ∨
        ∃ i, FarAbove theta heap body (represent heap false (box.quarter i) (child i)) b := by
  rw [FarAbove, hasNode_split, ← represent_eq, mem_leafBodies_represent, isLeaf_childrenOf, isFar]
  simp only [true_and]
  rfl

theorem farLeaf_leaf {c : BodyRef} :
    FarLeaf theta heap body (represent heap isRoot box (.leaf c)) b ↔
      c = b ∧ isFar theta heap heap body isRoot box (.leaf c) = true := by
  have hleaf : leafBody (fieldsOf heap isRoot box (.leaf c)) [] = some c :=
    leafBody_represent heap isRoot box (.leaf c)
  rw [FarLeaf, hasNode_leaf, hleaf, Option.some.injEq]
  rfl

theorem farLeaf_split {c : BodyRef} {child : Fin 4 → BodyTree} :
    FarLeaf theta heap body (represent heap isRoot box (.split c child)) b ↔
      ∃ i, FarLeaf theta heap body (represent heap false (box.quarter i) (child i)) b := by
  have hleaf : leafBody (fieldsOf heap isRoot box (.split c child))
      (childrenOf heap box (.split c child)) = none :=
    leafBody_represent heap isRoot box (.split c child)
  rw [FarLeaf, hasNode_split, hleaf]
  simp only [reduceCtorEq, false_and, false_or]
  rfl

theorem mem_leaves_of_farAbove {t : BodyTree}
    (h : FarAbove theta heap body (represent heap isRoot box t) b) : b ∈ t.leaves := by
  induction t generalizing isRoot box with
  | empty =>
    rw [FarAbove, hasNode_empty] at h
    exact absurd h.1 (by simp [isLeaf, hasChildren])
  | leaf c => exact absurd h farAbove_leaf
  | split c child ih =>
    rcases farAbove_split.mp h with ⟨hb, _⟩ | ⟨i, hi⟩
    · exact hb
    · exact mem_leaves_split.mpr ⟨i, ih i hi⟩

theorem mem_leaves_of_farLeaf {t : BodyTree}
    (h : FarLeaf theta heap body (represent heap isRoot box t) b) : b ∈ t.leaves := by
  induction t generalizing isRoot box with
  | empty =>
    rw [FarLeaf, hasNode_empty] at h
    exact absurd h.1 (by simp [leafBody, fieldsOf, isLeaf, hasChildren])
  | leaf c =>
    obtain ⟨rfl, _⟩ := farLeaf_leaf.mp h
    exact Multiset.mem_singleton_self c
  | split c child ih =>
    obtain ⟨i, hi⟩ := farLeaf_split.mp h
    exact mem_leaves_split.mpr ⟨i, ih i hi⟩

/-! ## Counting the applications -/

variable (theta heap body isRoot box b) in
/-- How many applications of a traversal of the stored tree have the body beneath them. -/
def applications (t : BodyTree) : ℕ :=
  (visits theta heap body (represent heap isRoot box t)).countP (Visit.appliesTo b)

omit [LinearOrder K] [PythagoreanField K] in
/-- The application of a stored node has a body beneath it when its leaves hold the body. -/
theorem appliesTo_represent {t : BodyTree} :
    (Visit.applied (represent heap isRoot box t)).appliesTo b = true ↔ b ∈ t.leaves := by
  rw [Visit.appliesTo, decide_eq_true_iff, mem_leafBodies_represent]

omit [PythagoreanField K] in
private theorem countP_farVisits (t : BodyTree) :
    (farVisits heap (fieldsOf heap isRoot box t) (childrenOf heap box t)).countP (Visit.appliesTo b)
      = if 0 < getMass heap (fieldsOf heap isRoot box t) (childrenOf heap box t) ∧ b ∈ t.leaves
        then 1 else 0 := by
  have hfar : ¬(Visit.far (represent heap isRoot box t)).appliesTo b = true := by
    simp [Visit.appliesTo]
  rw [farVisits, ← represent_eq, List.countP_cons_of_neg hfar]
  by_cases hmass : 0 < getMass heap (fieldsOf heap isRoot box t) (childrenOf heap box t)
  · simp only [gt_iff_lt, hmass, if_true, true_and, List.countP_singleton, appliesTo_represent]
  · simp only [gt_iff_lt, hmass, if_false, false_and, List.countP_nil]

theorem applications_empty : applications theta heap body b isRoot box .empty = 0 := by
  rw [applications, visits_empty]
  rfl

theorem applications_leaf {c : BodyRef} : applications theta heap body b isRoot box (.leaf c)
    = if (heap c).index = (heap body).index ∨ b ≠ c then 0
      else if isFar theta heap heap body isRoot box (.leaf c) ∧ 0 < (heap c).mass then 2
      else 1 := by
  have hinvoked : ¬(Visit.invoked (represent heap isRoot box (.leaf c))).appliesTo b = true := by
    simp [Visit.appliesTo]
  have hmass : getMass heap (fieldsOf heap isRoot box (.leaf c)) [] = (heap c).mass :=
    getMass_leaf heap heap isRoot box c
  have happlied :
      (Visit.applied (represent heap isRoot box (.leaf c))).appliesTo b = true ↔ b = c :=
    appliesTo_represent.trans Multiset.mem_singleton
  have hfar : (farVisits heap (fieldsOf heap isRoot box (.leaf c)) []).countP (Visit.appliesTo b)
      = if 0 < (heap c).mass ∧ b = c then 1 else 0 := by
    refine (countP_farVisits (.leaf c)).trans ?_
    simp only [childrenOf, hmass, leaves_leaf, Multiset.mem_singleton]
  rw [applications, visits_leaf, List.countP_cons_of_neg hinvoked]
  by_cases hindex : (heap c).index = (heap body).index
  · rw [if_pos hindex, if_pos (Or.inl hindex), List.countP_nil]
  · rw [if_neg hindex, List.countP_cons]
    by_cases hbc : b = c
    · have hcounts : ¬((heap c).index = (heap body).index ∨ b ≠ c) := by simp [hindex, hbc]
      rw [if_neg hcounts, if_pos (happlied.mpr hbc)]
      by_cases hf : isFar theta heap heap body isRoot box (.leaf c) = true
      · -- the leaf is applied once more when it has mass
        rw [if_pos hf, hfar]
        by_cases hpos : 0 < (heap c).mass
        · rw [if_pos ⟨hpos, hbc⟩, if_pos ⟨hf, hpos⟩]
        · rw [if_neg fun h ↦ hpos h.1, if_neg fun h ↦ hpos h.2]
      · rw [if_neg hf, List.countP_nil, if_neg fun h ↦ hf h.1]
    · rw [if_pos (Or.inr hbc), if_neg fun h ↦ hbc (happlied.mp h)]
      by_cases hf : isFar theta heap heap body isRoot box (.leaf c) = true
      · rw [if_pos hf, hfar, if_neg fun h ↦ hbc h.2]
      · rw [if_neg hf, List.countP_nil]

theorem applications_split {c : BodyRef} {child : Fin 4 → BodyTree} :
    applications theta heap body b isRoot box (.split c child)
      = if isFar theta heap heap body isRoot box (.split c child) then
          if 0 < (fieldsOf heap isRoot box (.split c child)).mass ∧ b ∈ (split c child).leaves
          then 1 else 0
        else ∑ i, applications theta heap body b false (box.quarter i) (child i) := by
  have hinvoked :
      ¬(Visit.invoked (represent heap isRoot box (.split c child))).appliesTo b = true := by
    simp [Visit.appliesTo]
  rw [applications, visits_split, List.countP_cons_of_neg hinvoked]
  by_cases hf : isFar theta heap heap body isRoot box (.split c child) = true
  · rw [if_pos hf, if_pos hf, countP_farVisits, getMass_split]
  · rw [if_neg hf, if_neg hf, List.countP_flatMap, Fin.sum_univ_def]
    rfl

private theorem applications_of_not_mem {t : BodyTree} (hb : b ∉ t.leaves) :
    applications theta heap body b isRoot box t = 0 := by
  induction t generalizing isRoot box with
  | empty => exact applications_empty
  | leaf c =>
    rw [applications_leaf, if_pos (Or.inr fun hbc ↦ hb (Multiset.mem_singleton.mpr hbc))]
  | split c child ih =>
    rw [applications_split]
    by_cases hf : isFar theta heap heap body isRoot box (.split c child) = true
    · rw [if_pos hf, if_neg fun h ↦ hb h.2]
    · rw [if_neg hf]
      exact Finset.sum_eq_zero fun i _ ↦ ih i fun hi ↦ hb (mem_leaves_split.mpr ⟨i, hi⟩)

variable [IsStrictOrderedRing K]

/-- **When a stored body counts once**: it lies beneath a subdivided node that passes the far test,
or its leaf is that of another index and does not pass the far test itself. -/
theorem applications_eq_one_iff {S : Multiset BodyRef} {t : BodyTree}
    (hc : CanonicalFor heap box S t) (hmass : ∀ c ∈ t.leaves, 0 < (heap c).mass)
    (hb : b ∈ t.leaves) : applications theta heap body b isRoot box t = 1 ↔
      FarAbove theta heap body (represent heap isRoot box t) b ∨
        (heap b).index ≠ (heap body).index ∧
          ¬FarLeaf theta heap body (represent heap isRoot box t) b := by
  induction t generalizing isRoot box with
  | empty => exact absurd hb (Multiset.notMem_zero b)
  | leaf c =>
    obtain rfl : b = c := Multiset.mem_singleton.mp hb
    have hpos : 0 < (heap b).mass := hmass b hb
    rw [applications_leaf, farLeaf_leaf]
    simp only [farAbove_leaf, false_or, ne_eq, not_true_eq_false, or_false, hpos, and_true,
      true_and]
    by_cases hindex : (heap b).index = (heap body).index
    · simp [hindex]
    · by_cases hf : isFar theta heap heap body isRoot box (.leaf b) = true
      · simp [hindex, hf]
      · simp [hindex, hf]
  | split c child ih =>
    rw [applications_split, farAbove_split, farLeaf_split]
    by_cases hf : isFar theta heap heap body isRoot box (.split c child) = true
    · rw [if_pos hf, if_pos ⟨fieldsOf_mass_pos hmass hb, hb⟩]
      exact iff_of_true rfl (Or.inl (Or.inl ⟨hb, hf⟩))
    · obtain ⟨i, hi, hother⟩ := hc.exists_unique_child hb
      have hsum : ∑ j, applications theta heap body b false (box.quarter j) (child j)
          = applications theta heap body b false (box.quarter i) (child i) :=
        Finset.sum_eq_single i (fun j _ hji ↦ applications_of_not_mem (hother j hji))
          fun h ↦ absurd (Finset.mem_univ i) h
      -- nothing about the body happens beneath the other children
      have habove : (∃ j, FarAbove theta heap body
          (represent heap false (box.quarter j) (child j)) b) ↔
          FarAbove theta heap body (represent heap false (box.quarter i) (child i)) b :=
        exists_iff_of_unique fun j hji hj ↦ hother j hji (mem_leaves_of_farAbove hj)
      have hleaf : (∃ j, FarLeaf theta heap body
          (represent heap false (box.quarter j) (child j)) b) ↔
          FarLeaf theta heap body (represent heap false (box.quarter i) (child i)) b :=
        exists_iff_of_unique fun j hji hj ↦ hother j hji (mem_leaves_of_farLeaf hj)
      have hcell : CanonicalFor heap (box.quarter i) S (child i) := (canonical_split.mp hc).2.2 i
      rw [if_neg hf, hsum, habove, hleaf,
        ih i hcell (fun d hd ↦ hmass d (mem_leaves_split.mpr ⟨i, hd⟩)) hi]
      simp [hf]

end Stored

/-! ## Every stored body but one -/

/-- During one call for `body`, every other body that a leaf holds lies beneath exactly one of the
applications made. -/
def CountsOnce (theta deltaTime : K) (heap : BodyHeap K) (body : BodyRef) (tree : UQuadTree K) :
    Prop :=
  ∀ b ∈ tree.leafBodies, b ≠ body →
    ((calculateForcesBarnesHut theta body deltaTime tree ⟨heap, []⟩).log.countP
      (Visit.appliesTo b)) = 1

variable [IsStrictOrderedRing K]

/-- **Every stored body is counted once** exactly when each either lies beneath a subdivided node
that passes the far test, or has another index and is held by a leaf that fails it. -/
theorem calculateForces_counts_once_iff {fuel : ℕ} {bodies : List BodyRef} {box : FBox2D K}
    {heap₀ heap : BodyHeap K} {tree : UQuadTree K}
    (h : insertAll fuel bodies (.new box true) heap₀ = .ok (tree, heap))
    (hmass : ∀ b ∈ bodies, 0 < (heap₀ b).mass) (theta deltaTime : K) (body : BodyRef) :
    CountsOnce theta deltaTime heap body tree ↔ ∀ b ∈ tree.leafBodies, b ≠ body →
      FarAbove theta heap body tree b ∨
        (heap b).index ≠ (heap body).index ∧ ¬FarLeaf theta heap body tree b := by
  obtain ⟨t, hc, rfl, rfl⟩ := insertAll_new_spec h
  have hpos := CanonicalFor.mass_settle_pos hc hmass
  rw [CountsOnce, calculateForcesBarnesHut_eq]
  refine forall_congr' fun b ↦ forall_congr' fun hb ↦ forall_congr' fun _ ↦ ?_
  exact applications_eq_one_iff hc hpos (mem_leafBodies_represent.mp hb)

end ABodySimulator

/-! ## A leaf that is applied twice -/

open ABodySimulator UQuadTree

section SideBySide

variable (theta mass : ℝ)

theorem position_sideBySideScene : ((sideBySideScene theta mass).objects 0).position = ⟨1, 1⟩ ∧
    ((sideBySideScene theta mass).objects 1).position = ⟨7, 1⟩ := ⟨rfl, rfl⟩

theorem inside_sideBySideScene (box : FBox2D ℝ) :
    (sideBySideScene theta mass).objects.inside box (sideBySideScene theta mass).bodies
      = (if box.isInside ⟨1, 1⟩ then [0] else []) ++ if box.isInside ⟨7, 1⟩ then [1] else [] := by
  have hbodies : (sideBySideScene theta mass).bodies = [0, 1] := rfl
  rw [hbodies, BodyHeap.inside, List.filter_cons, List.filter_cons, List.filter_nil,
    (position_sideBySideScene theta mass).1, (position_sideBySideScene theta mass).2]
  split <;> rfl

variable {theta mass}

theorem nodup_sideBySideScene : (sideBySideScene theta mass).bodies.Nodup := List.nodup_range

private theorem isInside_sideBySideScene : ∀ b ∈ (sideBySideScene theta mass).bodies,
    (sideBySideScene theta mass).sceneBounds.isInside
      ((sideBySideScene theta mass).objects b).position = true := by
  refine ofBodies_forall_mem (P := fun body ↦
    (sideBySideScene theta mass).sceneBounds.isInside body.position = true) ?_
  norm_num [sideBySideScene, ofBodies, UBodyEntity.initializeBody, FBox2D.isInside]

private theorem settle_sideBySideScene : (sideBySideScene theta mass).objects.settle
    (sideBySideScene theta mass).sceneBounds (sideBySideScene theta mass).bodies
      = (sideBySideScene theta mass).objects :=
  BodyHeap.settle_eq_self isInside_sideBySideScene

theorem canonical_sideBySideScene {t : BodyTree} (hc : (sideBySideScene theta mass).Canonical t) :
    ∃ b, t = spread b ![some 1, none, some 0, none] := by
  have hplaces : CanonicalFor (sideBySideScene theta mass).objects
      (sideBySideScene theta mass).sceneBounds (sideBySideScene theta mass).bodies t :=
    (canonicalFor_settle_iff _).mp hc
  refine hplaces.eq_spread _ ?_ fun i ↦ ?_
  · rw [inside_sideBySideScene]
    norm_num [sideBySideScene, ofBodies, FBox2D.isInside]
  · rw [inside_sideBySideScene]
    fin_cases i <;> norm_num [sideBySideScene, ofBodies, FBox2D.isInside, FBox2D.quarter,
      FBox2D.getCenterAndExtents]

theorem places_ne_sideBySideScene : ∀ b ∈ (sideBySideScene theta mass).bodies,
    ∀ c ∈ (sideBySideScene theta mass).bodies, b ≠ c →
      ((sideBySideScene theta mass).objects b).position
        ≠ ((sideBySideScene theta mass).objects c).position :=
  ofBodies_places_ne (by norm_num [FVector2D.ext_iff])

theorem mass_pos_sideBySideScene (hmass : 0 < mass) : ∀ b ∈ (sideBySideScene theta mass).bodies,
    0 < ((sideBySideScene theta mass).objects b).mass :=
  ofBodies_forall_mem (P := fun body ↦ 0 < body.mass) (by
    simp [UBodyEntity.initializeBody, hmass])

end SideBySide

private theorem not_isFar_sideBySideScene (b : BodyRef) :
    ¬isFar (7 / 10) (sideBySideScene (7 / 10) 1).objects (sideBySideScene (7 / 10) 1).objects 0 true
      (sideBySideScene (7 / 10) 1).sceneBounds (spread b ![some 1, none, some 0, none]) = true := by
  have hcenter : getCenterOfMass (sideBySideScene (7 / 10) 1).objects
      (fieldsOf (sideBySideScene (7 / 10) 1).objects true (sideBySideScene (7 / 10) 1).sceneBounds
        (spread b ![some 1, none, some 0, none]))
      (childrenOf (sideBySideScene (7 / 10) 1).objects (sideBySideScene (7 / 10) 1).sceneBounds
        (spread b ![some 1, none, some 0, none])) = some ⟨4, 1⟩ := by
    have hlist : List.finRange 4 = [0, 1, 2, 3] := rfl
    rw [spread, getCenterOfMass_split]
    simp only [fieldsOf, hlist]
    simp [Sums.addChild, Sums.zero, Sums.centerMass, fieldsOf, resident, sideBySideScene, ofBodies,
      UBodyEntity.initializeBody]
    ext <;> norm_num
  have hdistance : FVector2D.distance (⟨4, 1⟩ : FVector2D ℝ) ⟨1, 1⟩ = 3 :=
    FVector2D.distance_eq_of_sq (by norm_num) (by norm_num)
  rw [isFar_iff hcenter, (position_sideBySideScene _ _).1, hdistance]
  norm_num [sideBySideScene, ofBodies, FBox2D.getCenterAndExtents, FVector2D.getMax]

private theorem isFar_leaf_sideBySideScene :
    isFar (7 / 10) (sideBySideScene (7 / 10) 1).objects (sideBySideScene (7 / 10) 1).objects 0 false
      ((sideBySideScene (7 / 10) 1).sceneBounds.quarter 0) (leaf 1) = true := by
  have hcenter : getCenterOfMass (sideBySideScene (7 / 10) 1).objects
      (fieldsOf (sideBySideScene (7 / 10) 1).objects false
        ((sideBySideScene (7 / 10) 1).sceneBounds.quarter 0) (leaf 1))
      (childrenOf (sideBySideScene (7 / 10) 1).objects
        ((sideBySideScene (7 / 10) 1).sceneBounds.quarter 0) (leaf 1)) = some ⟨7, 1⟩ := by
    rw [getCenterOfMass_leaf]
    simp [sideBySideScene, ofBodies, UBodyEntity.initializeBody, UBodyEntity.getCenterOfMass]
  have hdistance : FVector2D.distance (⟨7, 1⟩ : FVector2D ℝ) ⟨1, 1⟩ = 6 :=
    FVector2D.distance_eq_of_sq (by norm_num) (by norm_num)
  rw [isFar_iff hcenter, (position_sideBySideScene _ _).1, hdistance]
  norm_num [sideBySideScene, ofBodies, FBox2D.quarter, FBox2D.getCenterAndExtents,
    FVector2D.getMax]

/-- The root is opened and the leaf of the second body applied twice. -/
theorem applications_sideBySideScene (b : BodyRef) :
    applications (7 / 10) (sideBySideScene (7 / 10) 1).objects 0 1 true
      (sideBySideScene (7 / 10) 1).sceneBounds (spread b ![some 1, none, some 0, none]) = 2 := by
  have hmass : 0 < ((sideBySideScene (7 / 10) 1).objects 1).mass := one_pos
  have hindex : ¬((sideBySideScene (7 / 10) 1).objects 1).index
      = ((sideBySideScene (7 / 10) 1).objects 0).index := one_ne_zero
  rw [spread, applications_split, ← spread, if_neg (not_isFar_sideBySideScene b),
    Fin.sum_univ_four]
  simp [applications_leaf, applications_empty, isFar_leaf_sideBySideScene, hmass, hindex]

theorem calculateForces_counts_once_iff_sideBySideScene : ∃ fuel tree heap,
    insertAll fuel (sideBySideScene (7 / 10) 1).bodies
      (.new (sideBySideScene (7 / 10) 1).sceneBounds true) (sideBySideScene (7 / 10) 1).objects
        = .ok (tree, heap) ∧
    (CountsOnce (7 / 10) 1 heap 0 tree ↔ ∀ b ∈ tree.leafBodies, b ≠ 0 →
      FarAbove (7 / 10) heap 0 tree b ∨ (heap b).index ≠ (heap 0).index ∧
        ¬FarLeaf (7 / 10) heap 0 tree b) := by
  obtain ⟨fuel, tree, heap, hok⟩ := exists_insertAll_of_places_ne
    (sideBySideScene (7 / 10) 1).sceneBounds nodup_sideBySideScene places_ne_sideBySideScene
  exact ⟨fuel, tree, heap, hok,
    calculateForces_counts_once_iff hok (mass_pos_sideBySideScene one_pos) _ 1 0⟩

/-- The leaf of the second body is applied twice for the first body. -/
theorem sideBySideScene_counts_twice : ∃ fuel tree heap,
    insertAll fuel (sideBySideScene (7 / 10) 1).bodies
      (.new (sideBySideScene (7 / 10) 1).sceneBounds true) (sideBySideScene (7 / 10) 1).objects
        = .ok (tree, heap) ∧
    (∀ b ∈ (sideBySideScene (7 / 10) 1).bodies, 0 < ((sideBySideScene (7 / 10) 1).objects b).mass) ∧
    1 ∈ tree.leafBodies ∧
    (calculateForcesBarnesHut (7 / 10) 0 1 tree ⟨heap, []⟩).log.countP (Visit.appliesTo 1) = 2 := by
  obtain ⟨fuel, tree, heap, hok⟩ := exists_insertAll_of_places_ne
    (sideBySideScene (7 / 10) 1).sceneBounds nodup_sideBySideScene places_ne_sideBySideScene
  refine ⟨fuel, tree, heap, hok, mass_pos_sideBySideScene one_pos, ?_⟩
  obtain ⟨t, hc, rfl, rfl⟩ := insertAll_new_spec hok
  obtain ⟨b, rfl⟩ := canonical_sideBySideScene hc
  refine ⟨mem_leafBodies_represent.mpr (mem_leaves_split.mpr ⟨0, by simp⟩), ?_⟩
  rw [calculateForcesBarnesHut_eq, settle_sideBySideScene]
  exact applications_sideBySideScene b

end NBodySimulation
