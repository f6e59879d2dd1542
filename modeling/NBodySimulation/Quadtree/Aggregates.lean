import NBodySimulation.Quadtree.Nodes

/-!
# The aggregates of a stored tree

`Mass` and `CenterMass` of a subdivided node are written by the loop that ends `Insert`. The loop
skips the children without a body and adds up the others, so `Mass` is the mass of the bodies that
the leaves beneath the node hold, while `CenterMass` is the plain mean of the `CenterMass` of the
children that have a body, whatever their masses are.

## Main results

* `fieldsOf_mass`: the mass of a stored node is that of the bodies its leaves hold.
* `centerMass_split_iff`: the centre of a stored split, in terms of those of its children.
-/

namespace NBodySimulation

open Spatial Spatial.PointTree

variable {K : Type*} [Field K]

namespace UQuadTree

/-! ## Only the shape matters -/

/-- The aggregation reads a child's body only for whether there is one. -/
theorem Sums.addChild_congr (sums : Sums K) {child child' : Fields K}
    (hbody : child'.bodyEntity.isSome = child.bodyEntity.isSome) (hmass : child'.mass = child.mass)
    (hcenter : child'.centerMass = child.centerMass) :
    sums.addChild child' = sums.addChild child := by
  rw [addChild, addChild, hmass, hcenter]
  cases h : child.bodyEntity with
  | none =>
    rw [h, Option.isSome_none, Option.isSome_eq_false_iff, Option.isNone_iff_eq_none] at hbody
    rw [hbody]
  | some b =>
    rw [h, Option.isSome_some] at hbody
    obtain ⟨b', hb'⟩ := Option.isSome_iff_exists.mp hbody
    rw [hb']

private theorem isSome_resident_of_sameShape {t t' : BodyTree} (h : SameShape t t') :
    t'.resident.isSome = t.resident.isSome := by
  induction h using SameShape.induction with
  | empty => rfl
  | leaf a => rfl
  | split a b child child' h ih => rfl

/-- Stored trees of the same shape have the same fields, up to the body that a split remembers. -/
theorem fieldsOf_sameShape (heap : BodyHeap K) {isRoot : Bool} {box : FBox2D K} {t t' : BodyTree}
    (h : SameShape t t') : fieldsOf heap isRoot box t'
      = { fieldsOf heap isRoot box t with bodyEntity := t'.resident } := by
  induction h using SameShape.induction generalizing isRoot box with
  | empty => rfl
  | leaf a => rfl
  | split a b child child' h ih =>
    have hadd : (fun (sums : Sums K) i ↦
          sums.addChild (fieldsOf heap false (box.quarter i) (child' i)))
        = fun sums i ↦ sums.addChild (fieldsOf heap false (box.quarter i) (child i)) := by
      funext sums i
      have hfields := @ih i false (box.quarter i)
      refine Sums.addChild_congr sums ?_ (by rw [hfields]) (by rw [hfields])
      rw [fieldsOf_bodyEntity, fieldsOf_bodyEntity, isSome_resident_of_sameShape (h i)]
    simp only [fieldsOf, hadd, resident]

theorem centerMass_isRoot (heap : BodyHeap K) (isRoot : Bool) (box : FBox2D K) (t : BodyTree) :
    (fieldsOf heap isRoot box t).centerMass = (fieldsOf heap false box t).centerMass := by
  cases t <;> rfl

/-! ## Masses -/

theorem fieldsOf_mass (heap : BodyHeap K) (isRoot : Bool) (box : FBox2D K) (t : BodyTree) :
    (fieldsOf heap isRoot box t).mass = (t.leaves.map fun b ↦ (heap b).mass).sum := by
  induction t generalizing isRoot box with
  | empty => rfl
  | leaf b => simp [fieldsOf]
  | split b child ih =>
    -- a child without a body is skipped, and has no mass
    have hadd : ∀ (sums : Sums K) (i : Fin 4),
        (sums.addChild (fieldsOf heap false (box.quarter i) (child i))).tempMass
          = sums.tempMass + ((child i).leaves.map fun b ↦ (heap b).mass).sum := by
      intro sums i
      rw [← ih i false (box.quarter i), Sums.addChild]
      cases child i with
      | empty => simp [fieldsOf]
      | leaf c => simp [fieldsOf]
      | split c child' => simp [fieldsOf]
    have hlist : List.finRange 4 = [0, 1, 2, 3] := rfl
    rw [fieldsOf, hlist, leaves_split, Fin.sum_univ_four]
    simp only [List.foldl_cons, List.foldl_nil, hadd, Sums.zero, zero_add, Multiset.map_add,
      Multiset.sum_add]

theorem fieldsOf_mass_pos [LinearOrder K] [IsStrictOrderedRing K] {heap : BodyHeap K}
    {isRoot : Bool} {box : FBox2D K} {t : BodyTree} {b : BodyRef}
    (hmass : ∀ c ∈ t.leaves, 0 < (heap c).mass) (hb : b ∈ t.leaves) :
    0 < (fieldsOf heap isRoot box t).mass := by
  rw [fieldsOf_mass]
  have hnonneg : ∀ m ∈ t.leaves.map fun c ↦ (heap c).mass, 0 ≤ m := by
    intro m hm
    obtain ⟨c, hc, rfl⟩ := Multiset.mem_map.mp hm
    exact (hmass c hc).le
  calc 0 < (heap b).mass := hmass b hb
    _ ≤ (t.leaves.map fun c ↦ (heap c).mass).sum :=
      Multiset.single_le_sum hnonneg _ (Multiset.mem_map_of_mem _ hb)

/-! ## What the loop adds up -/

namespace Sums

variable (fields : Fin 4 → Fields K)

theorem size_foldl_addChild (l : List (Fin 4)) (sums : Sums K) :
    (l.foldl (fun sums i ↦ sums.addChild (fields i)) sums).size
      = sums.size + (l.filter fun i ↦ (fields i).bodyEntity.isSome).length := by
  induction l generalizing sums with
  | nil => rfl
  | cons i l ih =>
    rw [List.foldl_cons, ih, addChild]
    cases h : (fields i).bodyEntity with
    | none => simp [h]
    | some b =>
      simp [h]
      omega

/-- The centres of the children with a body are added up, when all of them are defined. -/
theorem center_foldl_addChild {l : List (Fin 4)} {center : Fin 4 → FVector2D K}
    (h : ∀ i ∈ l, (fields i).bodyEntity.isSome = true → (fields i).centerMass = some (center i))
    (sums : Sums K) {c : FVector2D K} (hsums : sums.center = some c) :
    (l.foldl (fun sums i ↦ sums.addChild (fields i)) sums).center
      = some (c + ((l.filter fun i ↦ (fields i).bodyEntity.isSome).map center).sum) := by
  induction l generalizing sums c with
  | nil => simp [hsums]
  | cons i l ih =>
    have hrest := fun j hj ↦ h j (List.mem_cons_of_mem i hj)
    rw [List.foldl_cons, addChild]
    cases hbody : (fields i).bodyEntity with
    | none =>
      rw [ih hrest sums hsums]
      simp [hbody]
    | some b =>
      have hi := h i List.mem_cons_self (by rw [hbody, Option.isSome_some])
      have hadd : Option.map₂ (· + ·) sums.center (fields i).centerMass = some (c + center i) := by
        rw [hsums, hi]
        rfl
      rw [ih hrest _ hadd]
      simp [hbody, add_assoc]

private theorem center_foldl_addChild_of_none {l : List (Fin 4)} {sums : Sums K}
    (hsums : sums.center = none) :
    (l.foldl (fun sums i ↦ sums.addChild (fields i)) sums).center = none := by
  induction l generalizing sums with
  | nil => exact hsums
  | cons i l ih =>
    rw [List.foldl_cons]
    refine ih ?_
    rw [addChild]
    cases (fields i).bodyEntity with
    | none => exact hsums
    | some b => simp [hsums]

private theorem center_foldl_addChild_eq_none {l : List (Fin 4)} {i : Fin 4} (hi : i ∈ l)
    (hbody : (fields i).bodyEntity.isSome = true) (hcenter : (fields i).centerMass = none)
    (sums : Sums K) : (l.foldl (fun sums i ↦ sums.addChild (fields i)) sums).center = none := by
  induction l generalizing sums with
  | nil => exact absurd hi List.not_mem_nil
  | cons j l ih =>
    rw [List.foldl_cons]
    rcases List.mem_cons.mp hi with rfl | hi
    · refine center_foldl_addChild_of_none fields ?_
      obtain ⟨b, hb⟩ := Option.isSome_iff_exists.mp hbody
      rw [addChild, hb]
      simp [hcenter]
    · exact ih hi _

private theorem center_foldl_addChild_iff (l : List (Fin 4)) {sums : Sums K} {c v : FVector2D K}
    (hsums : sums.center = some c) :
    (l.foldl (fun sums i ↦ sums.addChild (fields i)) sums).center = some v ↔
      ∃ center : Fin 4 → FVector2D K,
        (∀ i ∈ l, (fields i).bodyEntity.isSome = true →
          (fields i).centerMass = some (center i)) ∧
        c + ((l.filter fun i ↦ (fields i).bodyEntity.isSome).map center).sum = v := by
  constructor
  · intro hv
    have hdefined : ∀ i ∈ l, (fields i).bodyEntity.isSome = true →
        ∃ p, (fields i).centerMass = some p := by
      intro i hi hbody
      refine Option.ne_none_iff_exists'.mp fun hnone ↦ ?_
      rw [center_foldl_addChild_eq_none fields hi hbody hnone] at hv
      exact absurd hv (by simp)
    choose! center hcenter using hdefined
    refine ⟨center, hcenter, ?_⟩
    rwa [center_foldl_addChild fields hcenter sums hsums, Option.some.injEq] at hv
  · rintro ⟨center, hcenter, rfl⟩
    exact center_foldl_addChild fields hcenter sums hsums

end Sums

/-- The children of a split that the loop does not skip. -/
def occupied (child : Fin 4 → BodyTree) : List (Fin 4) :=
  (List.finRange 4).filter fun i ↦ (child i).resident.isSome

theorem mem_occupied {child : Fin 4 → BodyTree} {i : Fin 4} :
    i ∈ occupied child ↔ (child i).resident.isSome = true := by
  simp [occupied]

/-- **The centre of a stored split** is the mean of the centres of the children that are not empty.
It is defined when there is such a child, and each of them has a defined centre. -/
theorem centerMass_split_iff {heap : BodyHeap K} {isRoot : Bool} {box : FBox2D K} {b : BodyRef}
    {child : Fin 4 → BodyTree} {v : FVector2D K} :
    (fieldsOf heap isRoot box (.split b child)).centerMass = some v ↔
      occupied child ≠ [] ∧ ∃ center : Fin 4 → FVector2D K,
        (∀ i ∈ occupied child,
          (fieldsOf heap false (box.quarter i) (child i)).centerMass = some (center i)) ∧
        ((occupied child).map center).sum / ((occupied child).length : K) = v := by
  have hfilter : ((List.finRange 4).filter fun i ↦
      (fieldsOf heap false (box.quarter i) (child i)).bodyEntity.isSome) = occupied child := by
    simp only [fieldsOf_bodyEntity, occupied]
  have hbody : ∀ i, (fieldsOf heap false (box.quarter i) (child i)).bodyEntity.isSome = true ↔
      i ∈ occupied child := by
    intro i
    rw [fieldsOf_bodyEntity, mem_occupied]
  have hsize := Sums.size_foldl_addChild
    (fun i ↦ fieldsOf heap false (box.quarter i) (child i)) (List.finRange 4) Sums.zero
  have hsum := fun v ↦ Sums.center_foldl_addChild_iff
    (fun i ↦ fieldsOf heap false (box.quarter i) (child i)) (List.finRange 4) (v := v)
    (rfl : (Sums.zero : Sums K).center = some 0)
  simp only [hfilter, Sums.zero, zero_add] at hsize
  simp only [hfilter, hbody, List.mem_finRange, true_imp_iff, Sums.zero, zero_add] at hsum
  rw [fieldsOf, Sums.centerMass, Sums.zero, hsize]
  by_cases hempty : occupied child = []
  · simp [hempty]
  · rw [if_neg fun h ↦ hempty (List.length_eq_zero_iff.mp h), Option.map_eq_some_iff]
    simp only [hsum]
    constructor
    · rintro ⟨_, ⟨center, hcenter, rfl⟩, hv⟩
      exact ⟨hempty, center, hcenter, hv⟩
    · rintro ⟨_, center, hcenter, hv⟩
      exact ⟨_, ⟨center, hcenter, rfl⟩, hv⟩

/-! ## What the getters return -/

theorem getCenterOfMass_leaf (heap heap' : BodyHeap K) (isRoot : Bool) (box : FBox2D K)
    (b : BodyRef) :
    getCenterOfMass heap (fieldsOf heap' isRoot box (.leaf b)) (childrenOf heap' box (.leaf b))
      = some (heap b).getCenterOfMass := by
  rw [getCenterOfMass, leafBody_represent]

theorem getMass_leaf (heap heap' : BodyHeap K) (isRoot : Bool) (box : FBox2D K) (b : BodyRef) :
    getMass heap (fieldsOf heap' isRoot box (.leaf b)) (childrenOf heap' box (.leaf b))
      = (heap b).mass := by
  rw [getMass, leafBody_represent]

theorem getCenterOfMass_split (heap heap' : BodyHeap K) (isRoot : Bool) (box : FBox2D K)
    (b : BodyRef) (child : Fin 4 → BodyTree) :
    getCenterOfMass heap (fieldsOf heap' isRoot box (.split b child))
        (childrenOf heap' box (.split b child))
      = (fieldsOf heap' isRoot box (.split b child)).centerMass := by
  rw [getCenterOfMass, leafBody_represent]

theorem getMass_split (heap heap' : BodyHeap K) (isRoot : Bool) (box : FBox2D K) (b : BodyRef)
    (child : Fin 4 → BodyTree) :
    getMass heap (fieldsOf heap' isRoot box (.split b child))
        (childrenOf heap' box (.split b child))
      = (fieldsOf heap' isRoot box (.split b child)).mass := by
  rw [getMass, leafBody_represent]

end UQuadTree

end NBodySimulation
