import NBodySimulation.Forces.Traversal
import NBodySimulation.Quadtree.Aggregates

/-!
# Traversing a stored tree

On the stored form of a point tree the four tests of a visit collapse to one case for each
constructor. From there everything a traversal reads is a function of the shape of the tree: the
body that a split remembers is never read, only whether there is one.

## Main results

* `treePull_empty`, `treePull_leaf`, `treePull_split`: the pull of a stored tree, by constructor.
* `treePull_sameShape`: trees of the same shape pull alike.
-/

namespace NBodySimulation

open Spatial Spatial.PointTree

variable {K : Type*} [Field K] [LinearOrder K] [PythagoreanField K]

/-! ## Visits -/

namespace ABodySimulator

open UQuadTree

variable (theta : K) (heap heap' : BodyHeap K) (body : BodyRef) (isRoot : Bool) (box : FBox2D K)

/-- The far test on the stored root of `t`. -/
def isFar (t : BodyTree) : Bool :=
  farTest theta heap body (fieldsOf heap' isRoot box t) (childrenOf heap' box t)

variable {theta heap heap' body isRoot box} in
/-- The far test, at a node whose centre is known. -/
theorem isFar_iff {t : BodyTree} {center : FVector2D K}
    (h : getCenterOfMass heap (fieldsOf heap' isRoot box t) (childrenOf heap' box t)
      = some center) :
    isFar theta heap heap' body isRoot box t = true ↔
      FVector2D.distance center (heap body).position ≠ 0 ∧
        box.getCenterAndExtents.2.getMax / FVector2D.distance center (heap body).position
          < theta := by
  rw [isFar, farTest, fieldsOf_box]
  simp [h]

theorem visits_empty : visits theta heap body (represent heap' isRoot box .empty)
    = [.invoked (represent heap' isRoot box .empty)] := by
  rw [represent, visits]
  simp [isOwnLeaf, leafVisits, leafBody, isLeaf, hasChildren, fieldsOf, isEmpty]

theorem visits_leaf (b : BodyRef) : visits theta heap body (represent heap' isRoot box (.leaf b))
    = .invoked (represent heap' isRoot box (.leaf b)) ::
      if (heap b).index = (heap body).index then []
      else .applied (represent heap' isRoot box (.leaf b)) ::
        if isFar theta heap heap' body isRoot box (.leaf b) then
          farVisits heap (fieldsOf heap' isRoot box (.leaf b)) []
        else [] := by
  have hleaf : leafBody (fieldsOf heap' isRoot box (.leaf b)) [] = some b :=
    leafBody_represent heap' isRoot box (.leaf b)
  rw [represent, visits, isOwnLeaf, leafVisits, hleaf]
  simp only [Option.any_some, decide_eq_true_eq, Option.isSome_some, if_true, isEmpty,
    fieldsOf_bIsEmpty, resident, Option.isNone_some, Bool.false_eq_true, if_false, visitsOf]
  rfl

theorem visits_split (b : BodyRef) (child : Fin 4 → BodyTree) :
    visits theta heap body (represent heap' isRoot box (.split b child))
      = .invoked (represent heap' isRoot box (.split b child)) ::
        if isFar theta heap heap' body isRoot box (.split b child) then
          farVisits heap (fieldsOf heap' isRoot box (.split b child))
            (childrenOf heap' box (.split b child))
        else (List.finRange 4).flatMap fun i ↦
          visits theta heap body (represent heap' false (box.quarter i) (child i)) := by
  have hleaf : leafBody (fieldsOf heap' isRoot box (.split b child))
      (childrenOf heap' box (.split b child)) = none :=
    leafBody_represent heap' isRoot box (.split b child)
  rw [represent_eq, visits, isOwnLeaf, leafVisits, hleaf]
  simp only [Option.any_none, Bool.false_eq_true, if_false, Option.isSome_none, List.nil_append,
    isEmpty, fieldsOf_bIsEmpty, resident, Option.isNone_some, visitsOf_eq_flatMap]
  rw [childrenOf, List.flatMap_map]
  rfl

/-! ## Pulls -/

/-- The pull of the node that stores `t`, were it applied. -/
def nodePull (t : BodyTree) : FVector2D K :=
  (Visit.applied (represent heap' isRoot box t)).pull heap body

private theorem sum_pull_farVisits (t : BodyTree) :
    ((farVisits heap (fieldsOf heap' isRoot box t) (childrenOf heap' box t)).map
        (Visit.pull heap body)).sum
      = if getMass heap (fieldsOf heap' isRoot box t) (childrenOf heap' box t) > 0 then
          nodePull heap heap' body isRoot box t
        else 0 := by
  rw [farVisits, nodePull, represent_eq, List.map_cons, List.sum_cons]
  split
  · rw [List.map_singleton, List.sum_singleton]
    exact zero_add _
  · rw [List.map_nil, List.sum_nil]
    exact zero_add _

theorem nodePull_leaf (b : BodyRef) : nodePull heap heap' body isRoot box (.leaf b)
    = attraction (heap body).g (heap body).minimumGravityDistance (heap body).position
        (heap b).getCenterOfMass (heap b).mass := by
  rw [nodePull, represent_eq, Visit.pull, getCenterOfMass_leaf, getMass_leaf]

variable {heap heap' body isRoot box} in
theorem nodePull_split {b : BodyRef} {child : Fin 4 → BodyTree} {center : FVector2D K}
    (h : (fieldsOf heap' isRoot box (.split b child)).centerMass = some center) :
    nodePull heap heap' body isRoot box (.split b child)
      = attraction (heap body).g (heap body).minimumGravityDistance (heap body).position
          center (fieldsOf heap' isRoot box (.split b child)).mass := by
  rw [nodePull, represent_eq, Visit.pull, getCenterOfMass_split, h, getMass_split]

theorem treePull_empty : treePull theta heap body (represent heap' isRoot box .empty) = 0 := by
  rw [treePull, visits_empty, List.map_singleton, List.sum_singleton]
  rfl

theorem treePull_leaf (b : BodyRef) :
    treePull theta heap body (represent heap' isRoot box (.leaf b))
      = if (heap b).index = (heap body).index then 0
        else nodePull heap heap' body isRoot box (.leaf b)
          + if isFar theta heap heap' body isRoot box (.leaf b) ∧ (heap b).mass > 0 then
              nodePull heap heap' body isRoot box (.leaf b)
            else 0 := by
  have hinvoked : (Visit.invoked (represent heap' isRoot box (.leaf b))).pull heap body = 0 := rfl
  have hmass : getMass heap (fieldsOf heap' isRoot box (.leaf b)) [] = (heap b).mass :=
    getMass_leaf heap heap' isRoot box b
  have hfar := sum_pull_farVisits heap heap' body isRoot box (.leaf b)
  rw [treePull, visits_leaf, List.map_cons, List.sum_cons, hinvoked, zero_add]
  by_cases hindex : (heap b).index = (heap body).index
  · rw [if_pos hindex, if_pos hindex, List.map_nil, List.sum_nil]
  · rw [if_neg hindex, if_neg hindex, List.map_cons, List.sum_cons, ← nodePull]
    by_cases hf : isFar theta heap heap' body isRoot box (.leaf b) = true
    · rw [if_pos hf]
      simp only [hf, true_and]
      rw [← hmass]
      exact congrArg _ hfar
    · rw [if_neg hf, List.map_nil, List.sum_nil, if_neg fun h ↦ hf h.1]

theorem treePull_split (b : BodyRef) (child : Fin 4 → BodyTree) :
    treePull theta heap body (represent heap' isRoot box (.split b child))
      = if isFar theta heap heap' body isRoot box (.split b child) then
          if (fieldsOf heap' isRoot box (.split b child)).mass > 0 then
            nodePull heap heap' body isRoot box (.split b child)
          else 0
        else ((List.finRange 4).map fun i ↦
          treePull theta heap body (represent heap' false (box.quarter i) (child i))).sum := by
  have hinvoked :
      (Visit.invoked (represent heap' isRoot box (.split b child))).pull heap body = 0 := rfl
  rw [treePull, visits_split, List.map_cons, List.sum_cons, hinvoked, zero_add]
  by_cases hf : isFar theta heap heap' body isRoot box (.split b child) = true
  · rw [if_pos hf, if_pos hf, sum_pull_farVisits, getMass_split]
  · rw [if_neg hf, if_neg hf, List.map_flatMap, List.flatMap_def, List.sum_flatten,
      List.map_map]
    rfl

/-! ## Only the shape matters -/

section SameShape

variable {theta : K} {heap heap' : BodyHeap K} {body : BodyRef} {isRoot : Bool} {box : FBox2D K}
  {t t' : BodyTree} (h : SameShape t t')

include h

omit [LinearOrder K] [PythagoreanField K] in
private theorem leafBody_sameShape : leafBody (fieldsOf heap' isRoot box t')
    (childrenOf heap' box t')
    = leafBody (fieldsOf heap' isRoot box t) (childrenOf heap' box t) := by
  rw [leafBody_represent, leafBody_represent]
  induction h using SameShape.induction with
  | empty => rfl
  | leaf a => rfl
  | split a b child child' h ih => rfl

omit [LinearOrder K] [PythagoreanField K] in
private theorem getCenterOfMass_sameShape :
    getCenterOfMass heap (fieldsOf heap' isRoot box t') (childrenOf heap' box t')
      = getCenterOfMass heap (fieldsOf heap' isRoot box t) (childrenOf heap' box t) := by
  rw [getCenterOfMass, getCenterOfMass, leafBody_sameShape h, fieldsOf_sameShape heap' h]

omit [LinearOrder K] [PythagoreanField K] in
private theorem getMass_sameShape :
    getMass heap (fieldsOf heap' isRoot box t') (childrenOf heap' box t')
      = getMass heap (fieldsOf heap' isRoot box t) (childrenOf heap' box t) := by
  rw [getMass, getMass, leafBody_sameShape h, fieldsOf_sameShape heap' h]

private theorem isFar_sameShape : isFar theta heap heap' body isRoot box t'
    = isFar theta heap heap' body isRoot box t := by
  rw [isFar, isFar, farTest, farTest, getCenterOfMass_sameShape h, fieldsOf_box, fieldsOf_box]

private theorem nodePull_sameShape : nodePull heap heap' body isRoot box t'
    = nodePull heap heap' body isRoot box t := by
  rw [nodePull, nodePull, represent_eq, represent_eq, Visit.pull, Visit.pull,
    getCenterOfMass_sameShape h, getMass_sameShape h]

/-- **Trees of the same shape pull alike.** -/
theorem treePull_sameShape : treePull theta heap body (represent heap' isRoot box t')
    = treePull theta heap body (represent heap' isRoot box t) := by
  induction h using SameShape.induction generalizing isRoot box with
  | empty => rfl
  | leaf a => rfl
  | split a b child child' h ih =>
    have hmass : (fieldsOf heap' isRoot box (.split b child')).mass
        = (fieldsOf heap' isRoot box (.split a child)).mass := by
      rw [fieldsOf_sameShape heap' h]
    have hchild : (fun i ↦
          treePull theta heap body (represent heap' false (box.quarter i) (child' i)))
        = fun i ↦ treePull theta heap body (represent heap' false (box.quarter i) (child i)) :=
      funext fun i ↦ @ih i false (box.quarter i)
    rw [treePull_split, treePull_split, isFar_sameShape h, nodePull_sameShape h, hmass,
      hchild]

end SameShape

end ABodySimulator

end NBodySimulation
