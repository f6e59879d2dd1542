import Mathlib.Algebra.BigOperators.Fin
import Mathlib.Data.List.GetD
import NBodySimulation.Quadtree.Represent

/-!
# The nodes of a stored tree

The vocabulary in which results about stored trees are stated: the node at the end of a path of
child indices, which stands for a pointer into the tree, and the bodies held by the leaves beneath a
node. On a represented tree both are read off the point tree.
-/

namespace NBodySimulation

open Spatial Spatial.PointTree

namespace UQuadTree

section Nodes

variable {K : Type*}

/-- The node reached from the root along child indices, `nullptr` when there is none. -/
def nodeAt : UQuadTree K → List ℕ → UQuadTree K
  | tree, [] => tree
  | nullptr, _ :: _ => nullptr
  | node _ children, i :: path => nodeAt (children.getD i nullptr) path

mutual

/-- The bodies held by the leaves beneath a node, the node itself included. -/
def leafBodies : UQuadTree K → List BodyRef
  | nullptr => []
  | node self children => (leafBody self children).toList ++ leafBodiesOf children

def leafBodiesOf : List (UQuadTree K) → List BodyRef
  | [] => []
  | child :: rest => leafBodies child ++ leafBodiesOf rest

end

@[simp] theorem nodeAt_nil (tree : UQuadTree K) : tree.nodeAt [] = tree := by
  cases tree <;> rfl

@[simp] theorem nodeAt_nullptr (path : List ℕ) : (nullptr : UQuadTree K).nodeAt path = nullptr := by
  cases path <;> rfl

theorem nodeAt_append (tree : UQuadTree K) (path path' : List ℕ) :
    tree.nodeAt (path ++ path') = (tree.nodeAt path).nodeAt path' := by
  induction path generalizing tree with
  | nil => rw [List.nil_append, nodeAt_nil]
  | cons i path ih =>
    cases tree with
    | nullptr => rw [nodeAt_nullptr, nodeAt_nullptr, nodeAt_nullptr]
    | node self children => rw [List.cons_append, nodeAt, nodeAt, ih]

/-- Some node of the tree has the property. -/
def HasNode (P : Fields K → List (UQuadTree K) → Prop) (tree : UQuadTree K) : Prop :=
  ∃ path self children, tree.nodeAt path = node self children ∧ P self children

private theorem not_hasNode_nullptr (P : Fields K → List (UQuadTree K) → Prop) :
    ¬HasNode P (nullptr : UQuadTree K) := by
  rintro ⟨path, self, children, hnode, _⟩
  rw [nodeAt_nullptr] at hnode
  exact absurd hnode (by simp)

private theorem hasNode_node {P : Fields K → List (UQuadTree K) → Prop} {self : Fields K}
    {children : List (UQuadTree K)} :
    HasNode P (node self children) ↔ P self children ∨ ∃ child ∈ children, HasNode P child := by
  constructor
  · rintro ⟨path, self', children', hnode, hP⟩
    cases path with
    | nil =>
      rw [nodeAt_nil, node.injEq] at hnode
      exact Or.inl (hnode.1 ▸ hnode.2 ▸ hP)
    | cons i path =>
      have hchild : HasNode P (children.getD i nullptr) := ⟨path, self', children', hnode, hP⟩
      by_cases hi : i < children.length
      · rw [List.getD_eq_getElem _ _ hi] at hchild
        exact Or.inr ⟨_, List.getElem_mem hi, hchild⟩
      · rw [List.getD_eq_default _ _ (not_lt.mp hi)] at hchild
        exact absurd hchild (not_hasNode_nullptr P)
  · rintro (hP | ⟨child, hmem, path, self', children', hnode, hP⟩)
    · exact ⟨[], self, children, nodeAt_nil _, hP⟩
    · obtain ⟨i, hi, rfl⟩ := List.getElem_of_mem hmem
      refine ⟨i :: path, self', children', ?_, hP⟩
      rw [nodeAt, List.getD_eq_getElem _ _ hi]
      exact hnode

private theorem leafBodiesOf_eq_flatMap (children : List (UQuadTree K)) :
    leafBodiesOf children = children.flatMap leafBodies := by
  induction children with
  | nil => rfl
  | cons child rest ih => rw [leafBodiesOf, ih, List.flatMap_cons]

end Nodes

section Represent

variable {K : Type*} [Field K]

/-! ## The kind of a stored node -/

@[simp] theorem nonNull_represent (heap : BodyHeap K) (isRoot : Bool) (box : FBox2D K)
    (t : BodyTree) : (represent heap isRoot box t).nonNull = true := by
  cases t <;> rfl

theorem isLeaf_childrenOf (heap : BodyHeap K) (box : FBox2D K) (t : BodyTree) :
    isLeaf (childrenOf heap box t) = match t with
      | .split _ _ => false
      | _ => true := by
  cases t with
  | empty => rfl
  | leaf b => rfl
  | split b child => simp [isLeaf, hasChildren, childrenOf, List.finRange_succ]

theorem leafBody_represent (heap : BodyHeap K) (isRoot : Bool) (box : FBox2D K) (t : BodyTree) :
    leafBody (fieldsOf heap isRoot box t) (childrenOf heap box t) = match t with
      | .leaf b => some b
      | _ => none := by
  rw [leafBody, isLeaf_childrenOf, fieldsOf_bodyEntity]
  cases t <;> rfl

theorem leafBodies_represent (heap : BodyHeap K) (isRoot : Bool) (box : FBox2D K) (t : BodyTree) :
    (leafBodies (represent heap isRoot box t) : Multiset BodyRef) = t.leaves := by
  induction t generalizing isRoot box with
  | empty => rfl
  | leaf b => rfl
  | split b child ih =>
    have hlist : List.finRange 4 = [0, 1, 2, 3] := rfl
    rw [represent_eq, leafBodies, leafBody_represent, leafBodiesOf_eq_flatMap, childrenOf, hlist]
    simp only [Option.toList_none, List.nil_append, List.map_cons, List.map_nil,
      List.flatMap_cons, List.flatMap_nil, List.append_nil, leaves_split, Fin.sum_univ_four,
      ← Multiset.coe_add, ih, add_assoc]

theorem count_leafBodies_represent (heap : BodyHeap K) (isRoot : Bool) (box : FBox2D K)
    (t : BodyTree) (b : BodyRef) :
    (represent heap isRoot box t).leafBodies.count b = t.leaves.count b := by
  rw [← leafBodies_represent heap isRoot box t, Multiset.coe_count]

theorem mem_leafBodies_represent {heap : BodyHeap K} {isRoot : Bool} {box : FBox2D K}
    {t : BodyTree} {b : BodyRef} : b ∈ leafBodies (represent heap isRoot box t) ↔ b ∈ t.leaves := by
  rw [← leafBodies_represent heap isRoot box t, Multiset.mem_coe]

/-! ## The nodes of a stored tree -/

section HasNode

variable {P : Fields K → List (UQuadTree K) → Prop} {heap : BodyHeap K} {isRoot : Bool}
  {box : FBox2D K}

theorem hasNode_empty : HasNode P (represent heap isRoot box .empty) ↔
    P (fieldsOf heap isRoot box .empty) [] := by
  rw [represent, hasNode_node]
  simp

theorem hasNode_leaf {b : BodyRef} : HasNode P (represent heap isRoot box (.leaf b)) ↔
    P (fieldsOf heap isRoot box (.leaf b)) [] := by
  rw [represent, hasNode_node]
  simp

theorem hasNode_split {b : BodyRef} {child : Fin 4 → BodyTree} :
    HasNode P (represent heap isRoot box (.split b child)) ↔
      P (fieldsOf heap isRoot box (.split b child)) (childrenOf heap box (.split b child)) ∨
        ∃ i, HasNode P (represent heap false (box.quarter i) (child i)) := by
  rw [represent_eq, hasNode_node]
  simp [childrenOf]

end HasNode

/-! ## Nodes and subtrees -/

/-- Following a path of labels in the stored tree finds the stored subtree. -/
theorem nodeAt_represent (heap : BodyHeap K) (isRoot : Bool) (box : FBox2D K) (t : BodyTree)
    (path : List (Fin 4)) :
    (represent heap isRoot box t).nodeAt (path.map Fin.val) = match t.subtree path with
      | some u => represent heap (isRoot && path.isEmpty) (box.subBox path) u
      | none => nullptr := by
  induction path generalizing isRoot box t with
  | nil => simp [FBox2D.subBox]
  | cons i path ih =>
    cases t with
    | empty => simp [represent, nodeAt, PointTree.subtree]
    | leaf b => simp [represent, nodeAt, PointTree.subtree]
    | split b child =>
      have hchild : ((List.finRange 4).map fun i ↦
          represent heap false (box.quarter i) (child i)).getD i nullptr
            = represent heap false (box.quarter i) (child i) := by
        fin_cases i <;> rfl
      rw [List.map_cons, represent, nodeAt, hchild, ih, subtree_split_cons]
      simp [FBox2D.subBox]

theorem nodeAt_of_subtree {heap : BodyHeap K} {isRoot : Bool} {box : FBox2D K} {t u : BodyTree}
    {labels : List (Fin 4)} (hsub : t.subtree labels = some u) :
    (represent heap isRoot box t).nodeAt (labels.map Fin.val)
      = node (fieldsOf heap (isRoot && labels.isEmpty) (box.subBox labels) u)
        (childrenOf heap (box.subBox labels) u) := by
  rw [nodeAt_represent, hsub]
  exact represent_eq _ _ _ _

theorem exists_subtree_of_nodeAt {heap : BodyHeap K} {isRoot : Bool} {box : FBox2D K}
    {t : BodyTree} {path : List ℕ} {self : Fields K} {children : List (UQuadTree K)}
    (h : (represent heap isRoot box t).nodeAt path = node self children) :
    ∃ labels : List (Fin 4), path = labels.map Fin.val ∧ ∃ u, t.subtree labels = some u ∧
      self = fieldsOf heap (isRoot && labels.isEmpty) (box.subBox labels) u ∧
      children = childrenOf heap (box.subBox labels) u := by
  have hlabels : ∃ labels : List (Fin 4), path = labels.map Fin.val := by
    induction path generalizing isRoot box t with
    | nil => exact ⟨[], rfl⟩
    | cons i path ih =>
      cases t with
      | empty => simp [represent, nodeAt] at h
      | leaf b => simp [represent, nodeAt] at h
      | split b child =>
        by_cases hi : i < 4
        · rw [represent, nodeAt, List.getD_eq_getElem _ _ (by simpa using hi),
            List.getElem_map] at h
          obtain ⟨labels, rfl⟩ := ih h
          exact ⟨⟨i, hi⟩ :: labels, rfl⟩
        · rw [represent, nodeAt, List.getD_eq_default _ _ (by simpa using hi)] at h
          simp at h
  obtain ⟨labels, rfl⟩ := hlabels
  refine ⟨labels, rfl, ?_⟩
  rw [nodeAt_represent] at h
  cases hsub : t.subtree labels with
  | none =>
    rw [hsub] at h
    exact absurd h (by simp)
  | some u =>
    rw [hsub] at h
    simp only [represent_eq, node.injEq] at h
    exact ⟨u, rfl, h.1.symm, h.2.symm⟩

theorem exists_nodeAt_iff {P : Fields K → List (UQuadTree K) → Prop} {heap : BodyHeap K}
    {isRoot : Bool} {box : FBox2D K} {t : BodyTree} :
    (∃ path self children, (represent heap isRoot box t).nodeAt path = node self children ∧
        P self children) ↔
      ∃ labels u, t.subtree labels = some u ∧
        P (fieldsOf heap (isRoot && labels.isEmpty) (box.subBox labels) u)
          (childrenOf heap (box.subBox labels) u) := by
  constructor
  · rintro ⟨path, self, children, hnode, hP⟩
    obtain ⟨labels, rfl, u, hsub, rfl, rfl⟩ := exists_subtree_of_nodeAt hnode
    exact ⟨labels, u, hsub, hP⟩
  · rintro ⟨labels, u, hsub, hP⟩
    exact ⟨_, _, _, nodeAt_of_subtree hsub, hP⟩

end Represent

end UQuadTree

end NBodySimulation
