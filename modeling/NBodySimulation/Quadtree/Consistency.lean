import NBodySimulation.Quadtree.Aggregates
import NBodySimulation.Quadtree.Contents

/-!
# The fields of a node agree

`bIsEmpty`, `BodyEntity`, `bIsSubdivided` and `Children` are set at different points of `Insert`,
and the code relies on their agreeing wherever it follows a pointer without a test. After any
sequence of insertions they agree at every node, so that a further `Insert` meets no null pointer
and no index out of range, however deep it goes, and the test of the aggregation loop skips exactly
the empty children.
-/

namespace NBodySimulation

open Spatial Spatial.PointTree

namespace UQuadTree

section Consistency

variable {K : Type*}

/-- The fields of a node agree with each other, and its body is one of the inserted ones. -/
structure Fields.Consistent [LinearOrder K] (self : Fields K) (children : List (UQuadTree K))
    (heap : BodyHeap K) (bodies : List BodyRef) : Prop where
  isEmpty_iff : self.bIsEmpty = true ↔ self.bodyEntity = none
  four_children : self.bIsSubdivided = true →
    children.length = 4 ∧ ∀ child ∈ children, child.nonNull = true
  no_children : self.bIsSubdivided = false → children = []
  not_isEmpty : self.bIsSubdivided = true → self.bIsEmpty = false
  /-- The body of a node that is not empty, also the stale one of a subdivided node. -/
  body_inside : ∀ b, self.bodyEntity = some b →
    b ∈ bodies ∧ self.box.isInside (heap b).position = true

/-- The test `!Child->IsEmpty()`, for a child that is not null. -/
def nonEmpty : UQuadTree K → Bool
  | nullptr => false
  | node self _ => !isEmpty self

end Consistency

end UQuadTree

/-- The loop went over four nodes, and `Child->BodyEntity` has selected those that are not empty. -/
structure Aggregation.SelectsNonEmpty {K : Type*} (agg : Aggregation K) : Prop where
  four_children : agg.children.length = 4
  selects : ∀ child ∈ agg.children, ∃ self grandchildren, child = .node self grandchildren ∧
    (self.bodyEntity.isSome = true ↔ UQuadTree.nonEmpty child = true)
  size_eq : agg.sums.size = (agg.children.filter UQuadTree.nonEmpty).length

/-- A further `Insert` follows no null pointer and leaves no range, and its aggregations select the
children that are not empty. -/
structure UQuadTree.InsertSafe {K : Type*} [Field K] [LinearOrder K] (tree : UQuadTree K)
    (heap : BodyHeap K) : Prop where
  only_fuel : ∀ fuel entity fault,
    UQuadTree.insert fuel entity tree heap = .error fault → fault = .outOfFuel
  selectsNonEmpty : ∀ fuel entity, ∀ agg ∈ UQuadTree.insertLog fuel entity tree heap,
    agg.SelectsNonEmpty

section Represent

variable {K : Type*} [Field K]

private theorem UQuadTree.nonEmpty_represent (heap : BodyHeap K) (isRoot : Bool) (box : FBox2D K)
    (t : BodyTree) :
    UQuadTree.nonEmpty (UQuadTree.represent heap isRoot box t) = t.resident.isSome := by
  rw [UQuadTree.represent_eq, UQuadTree.nonEmpty, UQuadTree.isEmpty, UQuadTree.fieldsOf_bIsEmpty,
    Option.not_isNone]

theorem UQuadTree.size_aggregationOf (heap : BodyHeap K) (box : FBox2D K)
    (child : Fin 4 → BodyTree) :
    (UQuadTree.aggregationOf heap box child).sums.size
      = (UQuadTree.occupied child).length := by
  have hsize := UQuadTree.Sums.size_foldl_addChild
    (fun i ↦ UQuadTree.fieldsOf heap false (box.quarter i) (child i)) (List.finRange 4)
    UQuadTree.Sums.zero
  simp only [UQuadTree.fieldsOf_bodyEntity] at hsize
  rw [UQuadTree.aggregationOf, hsize, UQuadTree.occupied, UQuadTree.Sums.zero, zero_add]

private theorem UQuadTree.selectsNonEmpty_aggregationOf (heap : BodyHeap K) (box : FBox2D K)
    (child : Fin 4 → BodyTree) : (UQuadTree.aggregationOf heap box child).SelectsNonEmpty where
  four_children := by
    rw [UQuadTree.aggregationOf, List.length_map, List.length_finRange]
  selects := by
    intro c hc
    rw [UQuadTree.aggregationOf, List.mem_map] at hc
    obtain ⟨i, _, rfl⟩ := hc
    refine ⟨_, _, UQuadTree.represent_eq _ _ _ _, ?_⟩
    rw [UQuadTree.nonEmpty_represent, UQuadTree.fieldsOf_bodyEntity]
  size_eq := by
    rw [UQuadTree.size_aggregationOf, UQuadTree.aggregationOf, List.filter_map, List.length_map,
      UQuadTree.occupied]
    refine congrArg List.length (List.filter_congr fun i _ ↦ ?_)
    exact (UQuadTree.nonEmpty_represent heap false (box.quarter i) (child i)).symm

variable [LinearOrder K] [IsStrictOrderedRing K] {heap : BodyHeap K} {isRoot : Bool}
  {box : FBox2D K} {t : BodyTree}

theorem CanonicalFor.consistent {bodies : List BodyRef} (hc : CanonicalFor heap box bodies t) :
    (UQuadTree.fieldsOf heap isRoot box t).Consistent (UQuadTree.childrenOf heap box t) heap
      bodies where
  isEmpty_iff := by
    rw [UQuadTree.fieldsOf_bIsEmpty, UQuadTree.fieldsOf_bodyEntity, Option.isNone_iff_eq_none]
  four_children := by
    intro hsubdivided
    cases t with
    | empty => exact absurd hsubdivided (by simp [UQuadTree.fieldsOf])
    | leaf b => exact absurd hsubdivided (by simp [UQuadTree.fieldsOf])
    | split b child => simp [UQuadTree.childrenOf]
  no_children := by
    intro hsubdivided
    cases t with
    | empty => rfl
    | leaf b => rfl
    | split b child => exact absurd hsubdivided (by simp [UQuadTree.fieldsOf])
  not_isEmpty := by
    intro hsubdivided
    cases t with
    | empty => exact absurd hsubdivided (by simp [UQuadTree.fieldsOf])
    | leaf b => rfl
    | split b child => rfl
  body_inside := by
    intro b hb
    rw [UQuadTree.fieldsOf_bodyEntity] at hb
    obtain ⟨hmem, hin⟩ := Subdivision.mem_inside.mp (hc.resident_mem hb)
    rw [UQuadTree.fieldsOf_box]
    exact ⟨hmem, hin⟩

/-- **A stored root is safe to insert into.** -/
theorem UQuadTree.insertSafe_represent {S : Multiset BodyRef} (hc : CanonicalFor heap box S t) :
    (UQuadTree.represent heap true box t).InsertSafe heap where
  only_fuel := by
    intro fuel entity fault hfault
    rcases insert_root hc fuel entity with herr | ⟨t', accepted, _, hok⟩
    · exact (Except.error.inj (herr.symm.trans hfault)).symm
    · exact absurd (hok.symm.trans hfault) (by simp)
  selectsNonEmpty := by
    intro fuel entity agg hagg
    obtain ⟨_, _, _, _, path, b, child, _, _, rfl⟩ :=
      UQuadTree.exists_inserts_of_mem_insertLog hagg
    exact UQuadTree.selectsNonEmpty_aggregationOf _ _ _

/-- **The fields of every node agree**, after any sequence of insertions into an empty root, and a
further insertion is safe. -/
theorem consistent_of_insertAll {fuel : ℕ} {bodies : List BodyRef} {heap₀ : BodyHeap K}
    {tree : UQuadTree K}
    (h : ABodySimulator.insertAll fuel bodies (.new box true) heap₀ = .ok (tree, heap)) :
    (∀ path self children, tree.nodeAt path = .node self children →
      self.Consistent children heap bodies) ∧ tree.InsertSafe heap := by
  obtain ⟨t, hc, rfl, rfl⟩ := insertAll_new_spec h
  constructor
  · intro path self children hnode
    obtain ⟨labels, rfl, u, hsub, rfl, rfl⟩ := UQuadTree.exists_subtree_of_nodeAt hnode
    exact CanonicalFor.consistent (hc.subtree hsub)
  · exact UQuadTree.insertSafe_represent hc

end Represent

/-- The tree of three bodies, two of which have been rejected. -/
theorem consistent_cutOffScene : ∃ tree heap,
    ABodySimulator.insertAll 5 cutOffScene.bodies (.new cutOffScene.sceneBounds true)
      cutOffScene.objects = .ok (tree, heap) ∧
    (∀ path self children, tree.nodeAt path = .node self children →
      self.Consistent children heap cutOffScene.bodies) ∧ tree.InsertSafe heap := by
  obtain ⟨tree, heap, h⟩ := exists_insertAll_cutOffScene
  exact ⟨tree, heap, h, consistent_of_insertAll h⟩

end NBodySimulation
