import NBodySimulation.Quadtree.Aggregates
import NBodySimulation.Quadtree.Contents

/-!
# Mass and centre of mass of a node

The stored `Mass` of a node is always the total mass of the bodies that the leaves beneath it hold.
The stored `CenterMass` of a subdivided node is not always their centre of mass, because the loop
that computes it weighs all children alike. It is the centre of mass throughout the tree exactly
when in every box that gets subdivided the plain mean over the quarters that contain a body happens
to be the mean weighted by mass, and none of those quarters has lost all of its bodies.

## Main results

* `getMass_nodeAt`: masses add up at every node.
* `centresOfMass_iff`: when the centres of all subdivided nodes are centres of mass.
-/

namespace NBodySimulation

open Spatial Spatial.PointTree

/-! ## Totals of a family of bodies -/

namespace BodyHeap

section Totals

variable {K : Type*} [Field K]

def totalMass (heap : BodyHeap K) (bodies : Multiset BodyRef) : K :=
  (bodies.map fun b ↦ (heap b).mass).sum

def centreOfMass (heap : BodyHeap K) (bodies : Multiset BodyRef) : FVector2D K :=
  (bodies.map fun b ↦ (heap b).mass * (heap b).position).sum / heap.totalMass bodies

private theorem centreOfMass_singleton {heap : BodyHeap K} {b : BodyRef}
    (hmass : (heap b).mass ≠ 0) :
    heap.centreOfMass {b} = (heap b).position := by
  rw [centreOfMass, totalMass, Multiset.map_singleton, Multiset.map_singleton,
    Multiset.sum_singleton, Multiset.sum_singleton]
  ext
  · exact mul_div_cancel_left₀ _ hmass
  · exact mul_div_cancel_left₀ _ hmass

private theorem centreOfMass_congr {heap heap' : BodyHeap K} {bodies : Multiset BodyRef}
    (h : ∀ b ∈ bodies, heap b = heap' b) :
    heap.centreOfMass bodies = heap'.centreOfMass bodies := by
  have hmoment : bodies.map (fun b ↦ (heap b).mass * (heap b).position)
      = bodies.map fun b ↦ (heap' b).mass * (heap' b).position :=
    Multiset.map_congr rfl fun b hb ↦ by rw [h b hb]
  have hmass : bodies.map (fun b ↦ (heap b).mass) = bodies.map fun b ↦ (heap' b).mass :=
    Multiset.map_congr rfl fun b hb ↦ by rw [h b hb]
  rw [centreOfMass, centreOfMass, totalMass, totalMass, hmoment, hmass]

end Totals

/-! ## The bodies that stay in the tree -/

section Kept

variable {K : Type*} [Field K] [LinearOrder K]

/-- The body lies on a dividing line of the box, or of a box got from it by repeated subdivision,
that has it and another body of the list strictly inside. -/
def CutOff (heap : BodyHeap K) (box : FBox2D K) (bodies : List BodyRef) (b : BodyRef) : Prop :=
  ∃ path : List (Fin 4), (box.subBox path).isInside (heap b).position = true ∧
    2 ≤ (heap.inside (box.subBox path) bodies).length ∧
    (box.subBox path).OnDividingLine (heap b).position

open Classical in
/-- The bodies of the list strictly inside the box that are not cut off. -/
noncomputable def keptInside (heap : BodyHeap K) (box : FBox2D K) (bodies : List BodyRef) :
    List BodyRef :=
  (heap.inside box bodies).filter fun b ↦ ¬heap.CutOff box bodies b

/-- The quarters of the box that have a body of the list strictly inside. -/
def occupiedQuarters (heap : BodyHeap K) (box : FBox2D K) (bodies : List BodyRef) :
    List (Fin 4) :=
  (List.finRange 4).filter fun i ↦ heap.inside (box.quarter i) bodies ≠ []

/-- The plain mean over the quarters with a body of their centres of mass is the centre of mass of
the box, and each of those quarters keeps a body. -/
structure BalancedQuarters (heap : BodyHeap K) (box : FBox2D K) (bodies : List BodyRef) :
    Prop where
  keeps_body : ∀ i ∈ heap.occupiedQuarters box bodies,
    heap.keptInside (box.quarter i) bodies ≠ []
  mean_eq : ((heap.occupiedQuarters box bodies).map fun i ↦
      heap.centreOfMass (heap.keptInside (box.quarter i) bodies)).sum
        / ((heap.occupiedQuarters box bodies).length : K)
    = heap.centreOfMass (heap.keptInside box bodies)

end Kept

end BodyHeap

section Stored

variable {K : Type*} [Field K] [LinearOrder K] [IsStrictOrderedRing K] {heap : BodyHeap K}
  {box : FBox2D K} {bodies : List BodyRef}

private theorem coe_keptInside : (heap.keptInside box bodies : Multiset BodyRef)
    = kept (FBox2D.quarters K) heap.positions bodies box := by
  classical
  rw [kept, coe_inside, Multiset.filter_coe, BodyHeap.keptInside]
  congr 1
  refine List.filter_congr fun b _ ↦ ?_
  rw [decide_eq_decide, lost_iff, BodyHeap.CutOff]

theorem CanonicalFor.leaves_eq {t : BodyTree} (hc : CanonicalFor heap box bodies t) :
    t.leaves = heap.keptInside box bodies := by
  rw [coe_keptInside]
  exact hc.leaves_eq_kept

private theorem CanonicalFor.isSome_resident_iff {t : BodyTree}
    (hc : CanonicalFor heap box bodies t) :
    t.resident.isSome = true ↔ heap.inside box bodies ≠ [] := by
  have h := Canonical.isSome_resident_iff hc
  rwa [coe_inside, ne_eq, Multiset.coe_eq_zero] at h

theorem CanonicalFor.occupied_eq {b : BodyRef} {child : Fin 4 → BodyTree}
    (hc : CanonicalFor heap box bodies (.split b child)) :
    UQuadTree.occupied child = heap.occupiedQuarters box bodies := by
  refine List.filter_congr fun i _ ↦ ?_
  have hchild : CanonicalFor heap (box.quarter i) bodies (child i) := (canonical_split.mp hc).2.2 i
  rw [Bool.eq_iff_iff, hchild.isSome_resident_iff, decide_eq_true_iff]

/-! ## The centre of a stored tree -/

namespace UQuadTree

private theorem leaves_child_eq_zero {b : BodyRef} {child : Fin 4 → BodyTree}
    (h : (split b child).leaves = 0) (i : Fin 4) : (child i).leaves = 0 := by
  apply Multiset.eq_zero_of_forall_notMem
  intro c hc
  have hmem : c ∈ (split b child).leaves := mem_leaves_split.mpr ⟨i, hc⟩
  rw [h] at hmem
  exact Multiset.notMem_zero c hmem

private theorem leaves_of_not_isSome {t : BodyTree} (h : ¬t.resident.isSome = true) :
    t.leaves = 0 := by
  cases t with
  | empty => rfl
  | leaf b => exact absurd rfl h
  | split b child => exact absurd rfl h

omit [LinearOrder K] [IsStrictOrderedRing K] in
private theorem centerMass_of_leaves_eq_zero {isRoot : Bool} {t : BodyTree} (h : t.leaves = 0) :
    (fieldsOf heap isRoot box t).centerMass = none := by
  induction t generalizing isRoot box with
  | empty => rfl
  | leaf b => exact absurd h (Multiset.singleton_ne_zero b)
  | split b child ih =>
    rw [Option.eq_none_iff_forall_ne_some]
    intro v hv
    obtain ⟨hne, center, hcenter, _⟩ := centerMass_split_iff.mp hv
    obtain ⟨i, hi⟩ := List.exists_mem_of_ne_nil _ hne
    have hnone := @ih i (box.quarter i) false (leaves_child_eq_zero h i)
    rw [hcenter i hi] at hnone
    exact absurd hnone (by simp)

/-- The stored centre of a tree that holds bodies is their centre of mass. -/
def CentreExact (heap : BodyHeap K) (box : FBox2D K) (t : BodyTree) : Prop :=
  t.leaves ≠ 0 → (fieldsOf heap false box t).centerMass = some (heap.centreOfMass t.leaves)

omit [LinearOrder K] [IsStrictOrderedRing K] in
private theorem centreExact_leaf {b : BodyRef} (hmass : (heap b).mass ≠ 0) :
    CentreExact heap box (.leaf b) := by
  intro _
  rw [leaves_leaf, BodyHeap.centreOfMass_singleton hmass]
  rfl

/-- **One step of the aggregation.** Over children whose centres are exact, the centre of a split is
exact when its quarters are balanced. -/
theorem centreExact_split_iff {b : BodyRef} {child : Fin 4 → BodyTree}
    (hc : CanonicalFor heap box bodies (.split b child))
    (hchild : ∀ i, CentreExact heap (box.quarter i) (child i))
    (hleaves : (split b child).leaves ≠ 0) :
    (fieldsOf heap false box (.split b child)).centerMass
        = some (heap.centreOfMass (split b child).leaves) ↔
      heap.BalancedQuarters box bodies := by
  have hkept : ∀ i, (child i).leaves = heap.keptInside (box.quarter i) bodies := fun i ↦
    CanonicalFor.leaves_eq ((canonical_split.mp hc).2.2 i)
  have hnil : ∀ i, (child i).leaves = 0 ↔ heap.keptInside (box.quarter i) bodies = [] := fun i ↦ by
    rw [hkept, Multiset.coe_eq_zero]
  rw [centerMass_split_iff, hc.occupied_eq, hc.leaves_eq]
  constructor
  · rintro ⟨_, center, hcenter, hmean⟩
    have hkeeps : ∀ i ∈ heap.occupiedQuarters box bodies,
        heap.keptInside (box.quarter i) bodies ≠ [] := by
      intro i hi hlost
      have hnone : (fieldsOf heap false (box.quarter i) (child i)).centerMass = none :=
        centerMass_of_leaves_eq_zero ((hnil i).mpr hlost)
      rw [hcenter i hi] at hnone
      exact absurd hnone (by simp)
    refine ⟨hkeeps, ?_⟩
    rw [← hmean]
    have hmap : (heap.occupiedQuarters box bodies).map (fun i ↦
        heap.centreOfMass (heap.keptInside (box.quarter i) bodies))
          = (heap.occupiedQuarters box bodies).map center := by
      refine List.map_congr_left fun i hi ↦ ?_
      have hexact := hchild i fun h0 ↦ hkeeps i hi ((hnil i).mp h0)
      rw [hcenter i hi, Option.some.injEq, hkept] at hexact
      exact hexact.symm
    rw [hmap]
  · rintro ⟨hkeeps, hmean⟩
    refine ⟨fun hnone ↦ hleaves ?_, _, fun i hi ↦ ?_, hmean⟩
    · -- an empty child holds no body
      rw [← hc.occupied_eq] at hnone
      rw [leaves_split]
      refine Finset.sum_eq_zero fun i _ ↦ leaves_of_not_isSome fun hres ↦ ?_
      simpa [hnone] using mem_occupied.mpr hres
    · have hexact := hchild i fun h0 ↦ hkeeps i hi ((hnil i).mp h0)
      rwa [hkept] at hexact

/-- Balanced quarters throughout make the centre exact. -/
theorem centreExact_of_balancedQuarters {t : BodyTree} (hc : CanonicalFor heap box bodies t)
    (hmass : ∀ b ∈ bodies, (heap b).mass ≠ 0)
    (hbalanced : ∀ path : List (Fin 4), 2 ≤ (heap.inside (box.subBox path) bodies).length →
      heap.keptInside (box.subBox path) bodies ≠ [] →
        heap.BalancedQuarters (box.subBox path) bodies) : CentreExact heap box t := by
  induction t generalizing box with
  | empty => exact fun h ↦ absurd rfl h
  | leaf b =>
    have hb := (hc.mem_of_mem_leaves (Multiset.mem_singleton_self b)).1
    exact centreExact_leaf (hmass b hb)
  | split b child ih =>
    intro hleaves
    have hchild : ∀ i, CentreExact heap (box.quarter i) (child i) := fun i ↦
      ih i ((canonical_split.mp hc).2.2 i) fun path ↦ hbalanced (i :: path)
    refine (centreExact_split_iff hc hchild hleaves).mpr
      (hbalanced [] (CanonicalFor.two_le_inside hc) ?_)
    rwa [hc.leaves_eq, ne_eq, Multiset.coe_eq_zero] at hleaves

/-- **All nodes at once**: the centres of all subtrees are exact when the quarters of every box that
is subdivided and keeps a body are balanced. -/
theorem centreExact_subtrees_iff {t : BodyTree} (hc : CanonicalFor heap box bodies t)
    (hmass : ∀ b ∈ bodies, (heap b).mass ≠ 0) :
    (∀ labels u, t.subtree labels = some u → CentreExact heap (box.subBox labels) u) ↔
      ∀ path : List (Fin 4), 2 ≤ (heap.inside (box.subBox path) bodies).length →
        heap.keptInside (box.subBox path) bodies ≠ [] →
          heap.BalancedQuarters (box.subBox path) bodies := by
  constructor
  · intro hexact path htwo hkept
    obtain ⟨b, child, hsub, hcu⟩ := CanonicalFor.exists_split hc htwo
    have hleaves : (split b child).leaves ≠ 0 := by
      rwa [hcu.leaves_eq, ne_eq, Multiset.coe_eq_zero]
    have hchild : ∀ i, CentreExact heap ((box.subBox path).quarter i) (child i) := by
      intro i
      have hsub' : t.subtree (path ++ [i]) = some (child i) := by
        rw [subtree_append, hsub]
        exact subtree_nil _
      have hexact' := hexact _ _ hsub'
      rwa [FBox2D.subBox_append] at hexact'
    exact (centreExact_split_iff hcu hchild hleaves).mp (hexact path _ hsub hleaves)
  · intro hbalanced labels u hsub
    refine centreExact_of_balancedQuarters (hc.subtree hsub) hmass fun path ↦ ?_
    have hpath := hbalanced (labels ++ path)
    rwa [FBox2D.subBox_append] at hpath

/-! ## Trees left by insertions -/

/-- The centre of every subdivided node beneath which a body is held, both as stored and as
`GetCenterOfMass` returns it, is the centre of mass of the bodies held there. -/
def CentresOfMass (heap : BodyHeap K) (tree : UQuadTree K) : Prop :=
  ∀ path self children, tree.nodeAt path = node self children → self.bIsSubdivided = true →
    (node self children).leafBodies ≠ [] →
      self.centerMass = some (heap.centreOfMass (node self children).leafBodies) ∧
      getCenterOfMass heap self children
        = some (heap.centreOfMass (node self children).leafBodies)

private theorem centresOfMass_represent_iff {isRoot : Bool} {t : BodyTree}
    (hc : CanonicalFor heap box bodies t) (hmass : ∀ b ∈ bodies, (heap b).mass ≠ 0) :
    CentresOfMass heap (represent heap isRoot box t) ↔
      ∀ labels u, t.subtree labels = some u → CentreExact heap (box.subBox labels) u := by
  have hleaves : ∀ isRoot box u, (node (fieldsOf heap isRoot box u)
      (childrenOf heap box u)).leafBodies = u.leaves := fun isRoot box u ↦ by
    rw [← represent_eq, leafBodies_represent]
  constructor
  · intro hcentres labels u hsub
    cases u with
    | empty => exact fun h ↦ absurd rfl h
    | leaf b =>
      have hcu : CanonicalFor heap (box.subBox labels) bodies (leaf b) := hc.subtree hsub
      exact centreExact_leaf (hmass b (hcu.mem_of_mem_leaves (Multiset.mem_singleton_self b)).1)
    | split b child =>
      intro hne
      have hself := (hcentres _ _ _ (nodeAt_of_subtree hsub) rfl ?_).1
      · rwa [hleaves, centerMass_isRoot] at hself
      · rwa [ne_eq, ← Multiset.coe_eq_zero, hleaves]
  · intro hexact path self children hnode hsubdivided hne
    obtain ⟨labels, rfl, u, hsub, rfl, rfl⟩ := exists_subtree_of_nodeAt hnode
    cases u with
    | empty => exact absurd hsubdivided (by simp [fieldsOf])
    | leaf b => exact absurd hsubdivided (by simp [fieldsOf])
    | split b child =>
      rw [getCenterOfMass_split, and_self, hleaves, centerMass_isRoot]
      rw [ne_eq, ← Multiset.coe_eq_zero, hleaves] at hne
      exact hexact labels _ hsub hne

end UQuadTree

end Stored

open ABodySimulator UQuadTree

section Insertions

variable {K : Type*} [Field K] [LinearOrder K] [IsStrictOrderedRing K]

/-- **Masses add up.** After any sequence of insertions, `GetMass` of every node is the sum of the
masses of the bodies that the leaves beneath it hold. -/
theorem getMass_nodeAt {fuel : ℕ} {bodies : List BodyRef} {box : FBox2D K}
    {heap₀ heap : BodyHeap K} {tree : UQuadTree K}
    (h : insertAll fuel bodies (.new box true) heap₀ = .ok (tree, heap)) :
    ∀ path self children, tree.nodeAt path = node self children →
      getMass heap self children
        = ((node self children).leafBodies.map fun b ↦ (heap b).mass).sum := by
  obtain ⟨t, _, rfl, rfl⟩ := insertAll_new_spec h
  intro path self children hnode
  obtain ⟨labels, rfl, u, hsub, rfl, rfl⟩ := exists_subtree_of_nodeAt hnode
  rw [← represent_eq, ← Multiset.sum_coe, ← Multiset.map_coe, leafBodies_represent]
  cases u with
  | empty => rfl
  | leaf b =>
    rw [getMass_leaf, leaves_leaf, Multiset.map_singleton, Multiset.sum_singleton]
  | split b child => rw [getMass_split, fieldsOf_mass]

/-- **When the centres are centres of mass.** After any sequence of insertions of bodies with
positive masses, the centre of every subdivided node that holds a body is the centre of mass of the
bodies it holds exactly when every box that is subdivided and keeps a body has balanced quarters. -/
theorem centresOfMass_iff {fuel : ℕ} {bodies : List BodyRef} {box : FBox2D K}
    {heap₀ heap : BodyHeap K} {tree : UQuadTree K}
    (h : insertAll fuel bodies (.new box true) heap₀ = .ok (tree, heap))
    (hmass : ∀ b ∈ bodies, 0 < (heap₀ b).mass) :
    CentresOfMass heap tree ↔ ∀ path : List (Fin 4),
      2 ≤ (heap₀.inside (box.subBox path) bodies).length →
        heap₀.keptInside (box.subBox path) bodies ≠ [] →
          heap₀.BalancedQuarters (box.subBox path) bodies := by
  obtain ⟨t, hc, rfl, rfl⟩ := insertAll_new_spec h
  have hc₀ : CanonicalFor heap₀ box bodies t := (canonicalFor_settle_iff bodies).mp hc
  have hmass₀ : ∀ b ∈ bodies, (heap₀ b).mass ≠ 0 := fun b hb ↦ (hmass b hb).ne'
  have hmass' : ∀ b ∈ bodies, (heap₀.settle box bodies b).mass ≠ 0 := by
    intro b hb
    rw [BodyHeap.mass_settle]
    exact hmass₀ b hb
  rw [centresOfMass_represent_iff hc hmass', ← centreExact_subtrees_iff hc₀ hmass₀]
  -- the bodies that the tree holds stand where they stood before the insertions
  refine forall_congr' fun labels ↦ forall_congr' fun u ↦ forall_congr' fun hsub ↦ ?_
  have hsame : ∀ b ∈ u.leaves, heap₀.settle box bodies b = heap₀ b := by
    intro b hb
    have hin := ((hc₀.subtree hsub).mem_of_mem_leaves hb).2
    exact BodyHeap.settle_of_isInside ((FBox2D.quarters K).mem_of_mem_descend hin)
  rw [CentreExact, CentreExact, fieldsOf_congr hsame, BodyHeap.centreOfMass_congr hsame]

end Insertions

/-! ## A lopsided scene -/

/-- Two bodies of different mass in opposite quarters of the scene. -/
def lopsidedScene : ABodySimulator ℚ :=
  .ofBodies .barnesHut ⟨⟨0, 0⟩, ⟨8, 8⟩⟩ (7 / 10) 1000 100 [(⟨1, 1⟩, 0, 20), (⟨7, 6⟩, 0, 60)]

/-- The two bodies, inserted into an empty root. -/
def lopsidedTree : Except Fault (UQuadTree ℚ × BodyHeap ℚ) :=
  insertAll 5 lopsidedScene.bodies (.new lopsidedScene.sceneBounds true) lopsidedScene.objects

private theorem mass_pos_lopsidedScene :
    ∀ b ∈ lopsidedScene.bodies, 0 < (lopsidedScene.objects b).mass :=
  by decide +kernel

private theorem exists_lopsidedTree : ∃ tree heap, lopsidedTree = .ok (tree, heap) := by
  have hok : lopsidedTree.isOk = true := by decide +kernel
  obtain ⟨r, h⟩ := exists_eq_ok_of_isOk hok
  exact ⟨r.1, r.2, h⟩

theorem getMass_nodeAt_lopsidedTree : ∃ tree heap, lopsidedTree = .ok (tree, heap) ∧
    ∀ path self children, tree.nodeAt path = node self children →
      getMass heap self children
        = ((node self children).leafBodies.map fun b ↦ (heap b).mass).sum := by
  obtain ⟨tree, heap, hok⟩ := exists_lopsidedTree
  exact ⟨tree, heap, hok, getMass_nodeAt hok⟩

theorem centresOfMass_iff_lopsidedTree : ∃ tree heap, lopsidedTree = .ok (tree, heap) ∧
    (CentresOfMass heap tree ↔ ∀ path : List (Fin 4),
      2 ≤ (lopsidedScene.objects.inside (lopsidedScene.sceneBounds.subBox path)
          lopsidedScene.bodies).length →
        lopsidedScene.objects.keptInside (lopsidedScene.sceneBounds.subBox path)
            lopsidedScene.bodies ≠ [] →
          lopsidedScene.objects.BalancedQuarters (lopsidedScene.sceneBounds.subBox path)
            lopsidedScene.bodies) := by
  obtain ⟨tree, heap, hok⟩ := exists_lopsidedTree
  exact ⟨tree, heap, hok, centresOfMass_iff hok mass_pos_lopsidedScene⟩

/-- The root has its centre halfway between the two bodies, and not at their centre of mass. -/
theorem lopsidedTree_centre_off : ∃ tree heap, lopsidedTree = .ok (tree, heap) ∧
    ¬CentresOfMass heap tree := by
  obtain ⟨tree, heap, hok⟩ := exists_lopsidedTree
  refine ⟨tree, heap, hok, fun hcentres ↦ ?_⟩
  have hroot : lopsidedTree.map (fun r ↦ match r.1 with
      | .nullptr => none
      | .node self children => some (self.bIsSubdivided, (node self children).leafBodies))
      = .ok (some (true, [1, 0])) := by decide +kernel
  have hcenter : lopsidedTree.map (fun r ↦ match r.1 with
      | .nullptr => none
      | .node self _ => self.centerMass) = .ok (some ⟨4, 7 / 2⟩) := by decide +kernel
  have hmean : lopsidedTree.map (fun r ↦ r.2.centreOfMass r.1.leafBodies)
      = .ok ⟨11 / 2, 19 / 4⟩ := by decide +kernel
  rw [hok] at hroot hcenter hmean
  cases tree with
  | nullptr => simp [Except.map] at hroot
  | node self children =>
    simp only [Except.map, Except.ok.injEq, Option.some.injEq, Prod.mk.injEq] at hroot hcenter hmean
    obtain ⟨hsubdivided, hbodies⟩ := hroot
    have hexact := (hcentres [] self children (nodeAt_nil _) hsubdivided (by simp [hbodies])).1
    rw [hcenter, hmean, Option.some.injEq] at hexact
    exact absurd hexact (by decide +kernel)

end NBodySimulation
