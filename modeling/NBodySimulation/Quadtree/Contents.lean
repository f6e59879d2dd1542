import NBodySimulation.Actors.Scene
import NBodySimulation.Quadtree.Construct

/-!
# What the tree holds

The tree that `ConstructTree` leaves is described node by node, and body by body, from the places of
the bodies alone.

A node has four children exactly when two bodies of the array are strictly inside its box, is a leaf
with a body exactly when that body is the only one, and is an empty leaf exactly when there is none.
A body strictly inside the scene is held by no leaf exactly when it lies on a dividing line of a
node that contains another body as well, and every other body is held by one leaf. So the bodies
that the tree loses are those outside the scene, which the root wraps but does not insert, and those
that a dividing line cuts off.
-/

namespace NBodySimulation

open Spatial Spatial.PointTree

/-- The bodies of the list that are strictly inside the box. -/
def BodyHeap.inside {K : Type*} [LinearOrder K] (heap : BodyHeap K) (box : FBox2D K)
    (bodies : List BodyRef) : List BodyRef :=
  bodies.filter fun b ↦ box.isInside (heap b).position

/-- A node has the shape that the bodies strictly inside its box call for. -/
structure UQuadTree.Fields.FitsBodies {K : Type*} [LinearOrder K] (self : UQuadTree.Fields K)
    (children : List (UQuadTree K)) (heap : BodyHeap K) (bodies : List BodyRef) : Prop where
  four_children : (children.length = 4 ∧ ∀ child ∈ children, child.nonNull = true) ↔
    2 ≤ (heap.inside self.box bodies).length
  leaf_holds : ∀ b, UQuadTree.leafBody self children = some b ↔ heap.inside self.box bodies = [b]
  empty_leaf : (UQuadTree.isLeaf children = true ∧ UQuadTree.isEmpty self = true) ↔
    heap.inside self.box bodies = []

section Inside

variable {K : Type*} [LinearOrder K] {heap : BodyHeap K} {box : FBox2D K} {bodies : List BodyRef}

theorem BodyHeap.mem_inside {b : BodyRef} : b ∈ heap.inside box bodies ↔
    b ∈ bodies ∧ box.isInside (heap b).position = true := List.mem_filter

theorem BodyHeap.inside_cons_of_isInside {b : BodyRef}
    (h : box.isInside (heap b).position = true) :
    heap.inside box (b :: bodies) = b :: heap.inside box bodies := List.filter_cons_of_pos h

theorem BodyHeap.inside_cons_of_not_isInside {b : BodyRef}
    (h : ¬box.isInside (heap b).position = true) :
    heap.inside box (b :: bodies) = heap.inside box bodies := List.filter_cons_of_neg h

theorem BodyHeap.inside_append (heap : BodyHeap K) (box : FBox2D K)
    (bodies bodies' : List BodyRef) :
    heap.inside box (bodies ++ bodies') = heap.inside box bodies ++ heap.inside box bodies' :=
  List.filter_append bodies bodies'

theorem BodyHeap.inside_eq_nil_iff : heap.inside box bodies = [] ↔
    ∀ b ∈ bodies, ¬box.isInside (heap b).position = true := List.filter_eq_nil_iff

end Inside

section Contents

variable {K : Type*} [Field K] [LinearOrder K] [IsStrictOrderedRing K]

theorem coe_inside (heap : BodyHeap K) (box : FBox2D K) (bodies : List BodyRef) :
    (FBox2D.quarters K).inside heap.positions box bodies = heap.inside box bodies := by
  rw [Subdivision.inside, Multiset.filter_coe, BodyHeap.inside]
  congr 2
  funext b
  exact Bool.decide_eq_true

theorem CanonicalFor.two_le_inside {heap : BodyHeap K} {box : FBox2D K} {bodies : List BodyRef}
    {b : BodyRef} {child : Fin 4 → BodyTree} (hc : CanonicalFor heap box bodies (.split b child)) :
    2 ≤ (heap.inside box bodies).length := by
  have hcard := (canonical_split.mp hc).2.1
  rwa [coe_inside, Multiset.coe_card] at hcard

theorem CanonicalFor.exists_split {heap : BodyHeap K} {box : FBox2D K} {bodies : List BodyRef}
    {t : BodyTree} {path : List (Fin 4)} (hc : CanonicalFor heap box bodies t)
    (htwo : 2 ≤ (heap.inside (box.subBox path) bodies).length) :
    ∃ b child, t.subtree path = some (.split b child) ∧
      CanonicalFor heap (box.subBox path) bodies (.split b child) := by
  have hcard : 2 ≤ ((FBox2D.quarters K).inside heap.positions
      ((FBox2D.quarters K).descend box path) bodies).card := by
    rw [coe_inside]
    exact htwo
  obtain ⟨b, child, hsub⟩ := hc.exists_split_of_two_le hcard
  exact ⟨b, child, hsub, hc.subtree hsub⟩

/-- The canonical tree of a box with at most one body strictly inside each of its cells. -/
theorem CanonicalFor.eq_spread {heap : BodyHeap K} {box : FBox2D K} {bodies : List BodyRef}
    {t : BodyTree} (hc : CanonicalFor heap box bodies t) (place : Fin 4 → Option BodyRef)
    (hroot : 2 ≤ (heap.inside box bodies).length)
    (hplace : ∀ i, heap.inside (box.quarter i) bodies = (place i).toList) :
    ∃ b, t = spread b place := by
  refine Canonical.eq_spread hc place ?_ fun i ↦ ?_
  · rw [coe_inside]
    exact hroot
  · rw [coe_inside, FBox2D.quarters_cell, hplace]

private theorem CanonicalFor.fitsBodies {heap : BodyHeap K} {isRoot : Bool} {box : FBox2D K}
    {bodies : List BodyRef} {t : BodyTree} (hc : CanonicalFor heap box bodies t) :
    (UQuadTree.fieldsOf heap isRoot box t).FitsBodies (UQuadTree.childrenOf heap box t) heap
      bodies := by
  cases t with
  | empty =>
    have hnil : heap.inside box bodies = [] := by
      rwa [CanonicalFor, canonical_empty, coe_inside, Multiset.coe_eq_zero] at hc
    refine ⟨?_, fun c ↦ ?_, ?_⟩
    · simp [hnil, UQuadTree.childrenOf]
    · rw [UQuadTree.leafBody_represent]
      simp [hnil]
    · rw [UQuadTree.isLeaf_childrenOf]
      simp [hnil, UQuadTree.isEmpty, resident]
  | leaf b =>
    have hone : heap.inside box bodies = [b] := by
      rwa [CanonicalFor, canonical_leaf, coe_inside, Multiset.coe_eq_singleton] at hc
    refine ⟨?_, fun c ↦ ?_, ?_⟩
    · simp [hone, UQuadTree.childrenOf]
    · rw [UQuadTree.leafBody_represent]
      simp [hone]
    · rw [UQuadTree.isLeaf_childrenOf]
      simp [hone, UQuadTree.isEmpty, resident]
  | split b child =>
    have htwo := CanonicalFor.two_le_inside hc
    have hne : ∀ l : List BodyRef, l.length < 2 → heap.inside box bodies ≠ l := by
      rintro l hl rfl
      omega
    refine ⟨?_, fun c ↦ ?_, ?_⟩
    · simp [htwo, UQuadTree.childrenOf]
    · rw [UQuadTree.leafBody_represent]
      simp [hne [c] (by simp)]
    · rw [UQuadTree.isLeaf_childrenOf]
      simp [hne [] (by simp)]

theorem lost_iff {heap : BodyHeap K} {box : FBox2D K} {bodies : List BodyRef} {b : BodyRef} :
    Lost (FBox2D.quarters K) heap.positions bodies box b ↔ ∃ path : List (Fin 4),
      (box.subBox path).isInside (heap b).position = true ∧
      2 ≤ (heap.inside (box.subBox path) bodies).length ∧
      (box.subBox path).OnDividingLine (heap b).position := by
  rw [Lost]
  refine exists_congr fun path ↦ and_congr_right fun hin ↦ and_congr ?_ ?_
  · rw [coe_inside, Multiset.coe_card]
    rfl
  · exact (FBox2D.onDividingLine_iff hin).symm

/-- Lost in a stored canonical tree is lying on a dividing line of a node with two bodies. -/
theorem CanonicalFor.lost_iff_exists_nodeAt {heap : BodyHeap K} {isRoot : Bool} {box : FBox2D K}
    {bodies : List BodyRef} {t : BodyTree} {b : BodyRef} (hc : CanonicalFor heap box bodies t) :
    Lost (FBox2D.quarters K) heap.positions bodies box b ↔ ∃ path self children,
      (UQuadTree.represent heap isRoot box t).nodeAt path = .node self children ∧
      self.box.isInside (heap b).position = true ∧
      2 ≤ (heap.inside self.box bodies).length ∧
      self.box.OnDividingLine (heap b).position := by
  rw [lost_iff, UQuadTree.exists_nodeAt_iff (P := fun self _ ↦
    self.box.isInside (heap b).position = true ∧ 2 ≤ (heap.inside self.box bodies).length ∧
      self.box.OnDividingLine (heap b).position)]
  simp only [UQuadTree.fieldsOf_box]
  constructor
  · rintro ⟨labels, hbox, htwo, hline⟩
    obtain ⟨r, child, hsub, _⟩ := hc.exists_split htwo
    exact ⟨labels, _, hsub, hbox, htwo, hline⟩
  · rintro ⟨labels, u, _, hcut⟩
    exact ⟨labels, hcut⟩

omit [IsStrictOrderedRing K] in
theorem count_leafBodies_withTree (s : ABodySimulator K) (t : BodyTree) (b : BodyRef) :
    (s.withTree t).quadTree.leafBodies.count b = t.leaves.count b :=
  UQuadTree.count_leafBodies_represent _ _ _ _ _

omit [IsStrictOrderedRing K] in
private theorem mem_leafBodies_withTree {s : ABodySimulator K} {t : BodyTree} {b : BodyRef} :
    b ∈ (s.withTree t).quadTree.leafBodies ↔ b ∈ t.leaves :=
  UQuadTree.mem_leafBodies_represent

/-! ## The canonical quadtree -/

/-- The state `s'` holds the canonical quadtree of the bodies of `s`. -/
structure CanonicalQuadtree (s s' : ABodySimulator K) : Prop where
  /-- Every body stands where it was, or at its wrapped place when it was not strictly inside. -/
  wrapped : ∀ b ∈ s.bodies, s'.objects b =
    if s.sceneBounds.isInside (s.objects b).position then s.objects b
    else (s.objects b).adjustPosition s.sceneBounds
  /-- Every node has the shape that the bodies strictly inside its box call for. -/
  fits : ∀ path self children, s'.quadTree.nodeAt path = .node self children →
    self.FitsBodies children s'.objects s.bodies
  /-- No body is held by two leaves. -/
  held_once : ∀ b, s'.quadTree.leafBodies.count b ≤ 1
  /-- A body strictly inside the scene is held by no leaf exactly when it lies on a dividing line of
  a node that contains it and another body. -/
  lost_iff : ∀ b ∈ s.bodies, s.sceneBounds.isInside (s'.objects b).position = true →
    (b ∉ s'.quadTree.leafBodies ↔ ∃ path self children,
      s'.quadTree.nodeAt path = .node self children ∧
      self.box.isInside (s'.objects b).position = true ∧
      2 ≤ (s'.objects.inside self.box s.bodies).length ∧
      self.box.OnDividingLine (s'.objects b).position)

/-- **The tree is the canonical quadtree of the bodies**, whenever `ConstructTree` ends. -/
theorem constructTree_canonical {fuel : ℕ} {s s' : ABodySimulator K}
    (h : s.constructTree fuel = .ok s') : CanonicalQuadtree s s' := by
  obtain ⟨t, hc, rfl⟩ := constructTree_spec h
  refine ⟨fun b hb ↦ ?_, ?_, fun b ↦ ?_, fun b hb hin ↦ ?_⟩
  · show s.objects.settle s.sceneBounds s.bodies b = _
    rw [BodyHeap.settle, if_pos hb]
    split
    · next hin => exact UBodyEntity.adjustPosition_of_isInside hin
    · rfl
  · intro path self children hnode
    obtain ⟨labels, rfl, u, hsub, rfl, rfl⟩ := UQuadTree.exists_subtree_of_nodeAt hnode
    exact CanonicalFor.fitsBodies (hc.subtree hsub)
  · rw [count_leafBodies_withTree]
    exact hc.count_leaves_le_one b
  · have hmem : b ∈ (FBox2D.quarters K).inside (s.withTree t).objects.positions s.sceneBounds
        s.bodies := Subdivision.mem_inside.mpr ⟨hb, hin⟩
    rw [mem_leafBodies_withTree, hc.mem_leaves_iff, not_and_not_right]
    exact (imp_iff_right hmem).trans (CanonicalFor.lost_iff_exists_nodeAt hc)

/-! ## The bodies that drop out -/

/-- Every body of the array is held by exactly one leaf of the tree in `s'`. -/
def HoldsEveryBody (s s' : ABodySimulator K) : Prop :=
  ∀ b ∈ s.bodies, s'.quadTree.leafBodies.count b = 1

/-- Every body is strictly inside the scene, and none lies on a dividing line of a box, got from the
scene by repeated subdivision, that contains it and another body. -/
def NoBodyCutOff (s : ABodySimulator K) : Prop :=
  (∀ b ∈ s.bodies, s.sceneBounds.isInside (s.objects b).position = true) ∧
  ∀ path : List (Fin 4), 2 ≤ (s.objects.inside (s.sceneBounds.subBox path) s.bodies).length →
    ∀ b ∈ s.objects.inside (s.sceneBounds.subBox path) s.bodies,
      ¬(s.sceneBounds.subBox path).OnDividingLine (s.objects b).position

/-- Which bodies a stored canonical tree holds, in terms of the places of the bodies. -/
theorem ABodySimulator.Canonical.holdsEveryBody_iff {s : ABodySimulator K} {t : BodyTree}
    (hc : s.Canonical t) : HoldsEveryBody s (s.withTree t) ↔ NoBodyCutOff s := by
  have hcount : ∀ b, (s.withTree t).quadTree.leafBodies.count b = 1 ↔
      b ∈ s.objects.inside s.sceneBounds s.bodies ∧
        ¬Lost (FBox2D.quarters K) s.objects.positions s.bodies s.sceneBounds b := by
    intro b
    rw [count_leafBodies_withTree,
      ((canonicalFor_settle_iff s.bodies).mp hc).count_leaves_eq_one_iff, coe_inside,
      Multiset.mem_coe]
  constructor
  · intro hall
    refine ⟨fun b hb ↦ ?_, fun path htwo b hb hline ↦ ?_⟩
    · exact (BodyHeap.mem_inside.mp ((hcount b).mp (hall b hb)).1).2
    · obtain ⟨hmem, hbox⟩ := BodyHeap.mem_inside.mp hb
      exact ((hcount b).mp (hall b hmem)).2 (lost_iff.mpr ⟨path, hbox, htwo, hline⟩)
  · rintro ⟨hinside, huncut⟩ b hb
    refine (hcount b).mpr ⟨BodyHeap.mem_inside.mpr ⟨hb, hinside b hb⟩, fun hlost ↦ ?_⟩
    obtain ⟨path, hbox, htwo, hline⟩ := lost_iff.mp hlost
    exact huncut path htwo b (BodyHeap.mem_inside.mpr ⟨hb, hbox⟩) hline

/-- **No body drops out exactly when none is cut off.** -/
theorem constructTree_holdsEveryBody_iff {fuel : ℕ} {s s' : ABodySimulator K}
    (h : s.constructTree fuel = .ok s') : HoldsEveryBody s s' ↔ NoBodyCutOff s := by
  obtain ⟨t, hc, rfl⟩ := constructTree_spec h
  exact hc.holdsEveryBody_iff

end Contents

/-! ## Two scenes -/

/-- A body well inside the scene, one to the right of it, and one on the vertical dividing line. -/
def cutOffScene : ABodySimulator ℚ :=
  .ofBodies .barnesHut ⟨⟨0, 0⟩, ⟨8, 8⟩⟩ (7 / 10) 1000 100
    [(⟨1, 1⟩, 0, 20), (⟨10, 7⟩, 0, 20), (⟨4, 2⟩, 0, 20)]

theorem exists_insertAll_cutOffScene : ∃ tree heap,
    ABodySimulator.insertAll 5 cutOffScene.bodies (.new cutOffScene.sceneBounds true)
      cutOffScene.objects = .ok (tree, heap) := by
  have hok : (ABodySimulator.insertAll 5 cutOffScene.bodies (.new cutOffScene.sceneBounds true)
      cutOffScene.objects).isOk = true := by decide +kernel
  obtain ⟨r, h⟩ := ABodySimulator.exists_eq_ok_of_isOk hok
  exact ⟨r.1, r.2, h⟩

/-- Three bodies in three cells of the scene. -/
def spreadScene : ABodySimulator ℚ :=
  .ofBodies .barnesHut ⟨⟨0, 0⟩, ⟨8, 8⟩⟩ (7 / 10) 1000 100
    [(⟨1, 1⟩, 0, 20), (⟨7, 6⟩, 0, 20), (⟨5, 2⟩, 0, 20)]

theorem constructTree_canonical_cutOffScene :
    ∃ s', cutOffScene.constructTree 5 = .ok s' ∧ CanonicalQuadtree cutOffScene s' := by
  have hok : (cutOffScene.constructTree 5).isOk = true := by decide +kernel
  obtain ⟨s', h⟩ := ABodySimulator.exists_eq_ok_of_isOk hok
  exact ⟨s', h, constructTree_canonical h⟩

/-- The tree holds neither the wrapped body nor the one on the dividing line. -/
theorem cutOffScene_drops_bodies :
    cutOffScene.bodies = [0, 1, 2] ∧
      (cutOffScene.constructTree 5).map
          (fun s' ↦ cutOffScene.bodies.map s'.quadTree.leafBodies.count)
        = .ok [1, 0, 0] := by
  decide +kernel

theorem constructTree_holdsEveryBody_iff_spreadScene :
    ∃ s', spreadScene.constructTree 5 = .ok s' ∧
      (HoldsEveryBody spreadScene s' ↔ NoBodyCutOff spreadScene) := by
  have hok : (spreadScene.constructTree 5).isOk = true := by decide +kernel
  obtain ⟨s', h⟩ := ABodySimulator.exists_eq_ok_of_isOk hok
  exact ⟨s', h, constructTree_holdsEveryBody_iff h⟩

end NBodySimulation
