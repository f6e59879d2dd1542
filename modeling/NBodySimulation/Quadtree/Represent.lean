import NBodySimulation.Quadtree.Cells

/-!
# Stored trees as point trees

Every tree that `Insert` can build is the stored form `represent heap isRoot box t` of a point tree
`t` over the four-way subdivision of boxes. A point tree has no flags that could disagree and no
pointers that could be null, so the representation is where the consistency of `bIsEmpty`,
`BodyEntity`, `bIsSubdivided` and `Children` is settled once: the aggregates of a stored node are
computed from its subtree, and everything else is read off the constructor.

## Main results

* `insert_lost`, `insert_descend`: what one level of `Insert` does to a stored tree.
* `exists_insert_of_inserts`: every insertion step of the point tree is made by `Insert`, given
  enough fuel.
-/

namespace NBodySimulation

open Spatial Spatial.PointTree

/-- The shape of a quadtree: which body each leaf holds, and the body each split was cut for. -/
abbrev BodyTree := PointTree (Fin 4) BodyRef

def BodyHeap.positions {K : Type*} (heap : BodyHeap K) (body : BodyRef) : FVector2D K :=
  (heap body).position

namespace UQuadTree

/-! ## The loops over the children -/

section Loops

variable {K : Type*}

/-- The resident goes into the one child that accepts it. -/
theorem insertUntilAccepted_map
    {ins : UQuadTree K → BodyHeap K → Except Fault (Inserted K (UQuadTree K))}
    {heap : BodyHeap K} {f g : Fin 4 → UQuadTree K} {p : Fin 4 → Prop} [DecidablePred p]
    (hins : ∀ i, ins (f i) heap = .ok ⟨if p i then g i else f i, heap, decide (p i)⟩)
    (hp : ∀ i j, p i → p j → i = j) (l : List (Fin 4)) (hl : l.Nodup) :
    insertUntilAccepted ins (l.map f) heap
      = .ok (l.map fun i ↦ if p i then g i else f i, heap) := by
  induction l with
  | nil => rfl
  | cons i l ih =>
    rw [List.nodup_cons] at hl
    rw [List.map_cons, List.map_cons, insertUntilAccepted, hins i]
    by_cases hi : p i
    · -- the loop breaks here, and no later child would have accepted the body
      have hrest : (l.map fun j ↦ if p j then g j else f j) = l.map f := by
        refine List.map_congr_left fun j hj ↦ if_neg fun hpj ↦ hl.1 ?_
        rwa [hp i j hi hpj]
      rw [hrest]
      simp [hi, bind, Except.bind]
    · simp [hi, bind, Except.bind, ih hl.2]

/-- `Insert` of the new body into the children, when none of them changes. -/
theorem insertAny_none
    {ins : UQuadTree K → BodyHeap K → Except Fault (Inserted K (UQuadTree K))}
    {heap : BodyHeap K} {f : Fin 4 → UQuadTree K}
    (hins : ∀ i, ins (f i) heap = .ok ⟨f i, heap, false⟩) :
    insertAny ins [0, 1, 2, 3] ((List.finRange 4).map f) heap
      = .ok ⟨(List.finRange 4).map f, heap, false⟩ := by
  have hlist : (List.finRange 4).map f = [f 0, f 1, f 2, f 3] := rfl
  simp [hlist, insertAny, hins, bind, Except.bind]

/-- `Insert` of the new body into the children, when only the child `q` may change. -/
theorem insertAny_one
    {ins : UQuadTree K → BodyHeap K → Except Fault (Inserted K (UQuadTree K))}
    {heap : BodyHeap K} {f : Fin 4 → UQuadTree K} {q : Fin 4} {c : UQuadTree K} {accepted : Bool}
    (hins : ∀ i, i ≠ q → ins (f i) heap = .ok ⟨f i, heap, false⟩)
    (hq : ins (f q) heap = .ok ⟨c, heap, accepted⟩) :
    insertAny ins [0, 1, 2, 3] ((List.finRange 4).map f) heap
      = .ok ⟨(List.finRange 4).map (Function.update f q c), heap, accepted⟩ := by
  have hlist : ∀ f : Fin 4 → UQuadTree K,
      (List.finRange 4).map f = [f 0, f 1, f 2, f 3] := fun _ ↦ rfl
  fin_cases q <;> cases accepted <;>
    simp_all [insertAny, bind, Except.bind, Function.update]

theorem insertAny_error
    {ins : UQuadTree K → BodyHeap K → Except Fault (Inserted K (UQuadTree K))}
    {heap : BodyHeap K} {f : Fin 4 → UQuadTree K} {q : Fin 4} {fault : Fault}
    (hins : ∀ i, i ≠ q → ins (f i) heap = .ok ⟨f i, heap, false⟩)
    (hq : ins (f q) heap = .error fault) :
    insertAny ins [0, 1, 2, 3] ((List.finRange 4).map f) heap = .error fault := by
  have hlist : (List.finRange 4).map f = [f 0, f 1, f 2, f 3] := rfl
  fin_cases q <;> simp_all [insertAny, bind, Except.bind]

end Loops

variable {K : Type*} [Field K]

/-! ## The stored form -/

/-- The fields of the stored root of `t` over `box`. -/
def fieldsOf (heap : BodyHeap K) (isRoot : Bool) (box : FBox2D K) : BodyTree → Fields K
  | .empty =>
    { box, bodyEntity := none, bIsSubdivided := false, bIsEmpty := true, mass := 0,
      centerMass := none, bIsRoot := isRoot }
  | .leaf b =>
    { box, bodyEntity := some b, bIsSubdivided := false, bIsEmpty := false,
      mass := (heap b).mass, centerMass := some (heap b).position, bIsRoot := isRoot }
  | .split b child =>
    let sums := (List.finRange 4).foldl (fun sums i ↦
      sums.addChild (fieldsOf heap false (box.quarter i) (child i))) Sums.zero
    { box, bodyEntity := some b, bIsSubdivided := true, bIsEmpty := false,
      mass := sums.tempMass, centerMass := sums.centerMass, bIsRoot := isRoot }

/-- The stored form of `t` over `box`. -/
def represent (heap : BodyHeap K) (isRoot : Bool) (box : FBox2D K) : BodyTree → UQuadTree K
  | .empty => node (fieldsOf heap isRoot box .empty) []
  | .leaf b => node (fieldsOf heap isRoot box (.leaf b)) []
  | .split b child => node (fieldsOf heap isRoot box (.split b child))
      ((List.finRange 4).map fun i ↦ represent heap false (box.quarter i) (child i))

def childrenOf (heap : BodyHeap K) (box : FBox2D K) : BodyTree → List (UQuadTree K)
  | .empty => []
  | .leaf _ => []
  | .split _ child =>
    (List.finRange 4).map fun i ↦ represent heap false (box.quarter i) (child i)

theorem represent_eq (heap : BodyHeap K) (isRoot : Bool) (box : FBox2D K) (t : BodyTree) :
    represent heap isRoot box t = node (fieldsOf heap isRoot box t) (childrenOf heap box t) := by
  cases t <;> rfl

@[simp] theorem fieldsOf_box (heap : BodyHeap K) (isRoot : Bool) (box : FBox2D K) (t : BodyTree) :
    (fieldsOf heap isRoot box t).box = box := by
  cases t <;> rfl

@[simp] theorem fieldsOf_bodyEntity (heap : BodyHeap K) (isRoot : Bool) (box : FBox2D K)
    (t : BodyTree) : (fieldsOf heap isRoot box t).bodyEntity = t.resident := by
  cases t <;> rfl

@[simp] theorem fieldsOf_bIsRoot (heap : BodyHeap K) (isRoot : Bool) (box : FBox2D K)
    (t : BodyTree) : (fieldsOf heap isRoot box t).bIsRoot = isRoot := by
  cases t <;> rfl

@[simp] theorem fieldsOf_bIsEmpty (heap : BodyHeap K) (isRoot : Bool) (box : FBox2D K)
    (t : BodyTree) : (fieldsOf heap isRoot box t).bIsEmpty = t.resident.isNone := by
  cases t <;> rfl

theorem represent_new (heap : BodyHeap K) (isRoot : Bool) (box : FBox2D K) :
    new box isRoot = represent heap isRoot box .empty := rfl

theorem subDivide_nil (heap : BodyHeap K) (box : FBox2D K) : subDivide box [] =
    (List.finRange 4).map fun i ↦ represent heap false (box.quarter i) .empty := rfl

theorem aggregate_map (heap : BodyHeap K) (box : FBox2D K) (child : Fin 4 → BodyTree)
    (l : List (Fin 4)) (sums : Sums K) :
    aggregate (l.map fun i ↦ represent heap false (box.quarter i) (child i)) sums
      = .ok (l.foldl (fun sums i ↦
          sums.addChild (fieldsOf heap false (box.quarter i) (child i))) sums) := by
  induction l generalizing sums with
  | nil => rfl
  | cons i l ih =>
    rw [List.map_cons, represent_eq, aggregate, ih, List.foldl_cons]

theorem represent_update (heap : BodyHeap K) (box : FBox2D K) (child : Fin 4 → BodyTree) (q : Fin 4)
    (t : BodyTree) :
    Function.update (fun i ↦ represent heap false (box.quarter i) (child i)) q
        (represent heap false (box.quarter q) t)
      = fun i ↦ represent heap false (box.quarter i) (Function.update child q t i) := by
  funext i
  by_cases hi : i = q
  · subst hi
    rw [Function.update_self, Function.update_self]
  · rw [Function.update_of_ne hi, Function.update_of_ne hi]

/-- Aggregating over the children of a split gives back the stored split. -/
theorem represent_split {heap : BodyHeap K} {isRoot : Bool} {box : FBox2D K} {t : BodyTree}
    {b : BodyRef} (hres : t.resident = some b) (child : Fin 4 → BodyTree) (accepted : Bool) :
    (do
      let sums ← aggregate ((List.finRange 4).map fun i ↦
        represent heap false (box.quarter i) (child i)) Sums.zero
      .ok ⟨node { fieldsOf heap isRoot box t with
              bIsSubdivided := true
              mass := sums.tempMass
              centerMass := sums.centerMass }
            ((List.finRange 4).map fun i ↦ represent heap false (box.quarter i) (child i)),
          heap, accepted⟩)
      = (.ok ⟨represent heap isRoot box (.split b child), heap, accepted⟩ :
          Except Fault (Inserted K (UQuadTree K))) := by
  rw [aggregate_map]
  cases t with
  | empty => exact absurd hres (by simp [resident])
  | leaf c =>
    obtain rfl : c = b := by simpa [resident] using hres
    rfl
  | split c child' =>
    obtain rfl : c = b := by simpa [resident] using hres
    rfl

/-! ## One step of `Insert` on a stored tree -/

variable [LinearOrder K]

theorem insert_zero (entity : BodyRef) (tree : UQuadTree K) (heap : BodyHeap K) :
    insert 0 entity tree heap = .error .outOfFuel := rfl

theorem insert_outside {heap : BodyHeap K} {box : FBox2D K} {t : BodyTree} {a : BodyRef}
    (fuel : ℕ) (h : ¬box.isInside (heap a).position = true) :
    insert (fuel + 1) a (represent heap false box t) heap
      = .ok ⟨represent heap false box t, heap, false⟩ := by
  simp [represent_eq, insert, h]

theorem insert_empty {heap : BodyHeap K} {isRoot : Bool} {box : FBox2D K} {a : BodyRef}
    (fuel : ℕ) (h : box.isInside (heap a).position = true) :
    insert (fuel + 1) a (represent heap isRoot box .empty) heap
      = .ok ⟨represent heap isRoot box (.leaf a), heap, true⟩ := by
  simp [represent, fieldsOf, insert, h, isEmpty, hasChildren]

variable [IsStrictOrderedRing K]

/-- The block `if (!bIsSubdivided)` turns the stored children into those of the cut region. -/
theorem growChildren_represent {heap : BodyHeap K} {isRoot : Bool} {box : FBox2D K} {t : BodyTree}
    {b : BodyRef} (fuel : ℕ) (hres : t.resident = some b) :
    growChildren (insert (fuel + 1)) (fieldsOf heap isRoot box t) (childrenOf heap box t) heap
      = .ok ((List.finRange 4).map fun i ↦ represent heap false (box.quarter i)
          (cutAt (FBox2D.quarters K) heap.positions box t i), heap) := by
  cases t with
  | empty => exact absurd hres (by simp [resident])
  | leaf c =>
    have hins : ∀ i, insert (fuel + 1) c (represent heap false (box.quarter i) .empty) heap
        = .ok ⟨if (box.quarter i).isInside (heap c).position = true
              then represent heap false (box.quarter i) (.leaf c)
              else represent heap false (box.quarter i) .empty, heap,
            decide ((box.quarter i).isInside (heap c).position = true)⟩ := by
      intro i
      by_cases h : (box.quarter i).isInside (heap c).position = true
      · rw [insert_empty fuel h, if_pos h, decide_eq_true h]
      · rw [insert_outside fuel h, if_neg h, decide_eq_false h]
    rw [growChildren, childrenOf]
    simp only [fieldsOf, Bool.not_false, if_true]
    rw [subDivide_nil heap, insertUntilAccepted_map hins
      (fun i j hi hj ↦ FBox2D.quarter_unique hi hj) _ (List.nodup_finRange 4)]
    congr 2
    refine List.map_congr_left fun i _ ↦ ?_
    rw [cutAt]
    exact (apply_ite (represent heap false (box.quarter i)) _ _ _).symm
  | split c child => rfl

/-- What `Insert` does to a stored tree that is not empty, once a body is inside its box. -/
theorem insert_resident {heap : BodyHeap K} {isRoot : Bool} {box : FBox2D K} {t : BodyTree}
    {a b : BodyRef} (fuel : ℕ) (h : box.isInside (heap a).position = true)
    (hres : t.resident = some b) :
    insert (fuel + 2) a (represent heap isRoot box t) heap = (do
      let r ← insertAny (insert (fuel + 1) a) [0, 1, 2, 3]
        ((List.finRange 4).map fun i ↦ represent heap false (box.quarter i)
          (cutAt (FBox2D.quarters K) heap.positions box t i)) heap
      let sums ← aggregate r.tree Sums.zero
      .ok ⟨node { fieldsOf heap isRoot box t with
              bIsSubdivided := true
              mass := sums.tempMass
              centerMass := sums.centerMass } r.tree, r.heap, r.accepted⟩) := by
  rw [represent_eq, insert, growChildren_represent fuel hres]
  simp [h, hres, isEmpty, bind, Except.bind]

theorem insert_lost {heap : BodyHeap K} {isRoot : Bool} {box : FBox2D K} {t : BodyTree}
    {a b : BodyRef} (fuel : ℕ) (h : box.isInside (heap a).position = true)
    (hres : t.resident = some b)
    (hcut : ∀ i, ¬(box.quarter i).isInside (heap a).position = true) :
    insert (fuel + 2) a (represent heap isRoot box t) heap
      = .ok ⟨represent heap isRoot box (.split b (cutAt (FBox2D.quarters K) heap.positions box t)),
          heap, false⟩ := by
  rw [insert_resident fuel h hres, insertAny_none fun i ↦ insert_outside fuel (hcut i)]
  exact represent_split hres _ false

theorem insert_sibling {heap : BodyHeap K} {box : FBox2D K} {child : Fin 4 → BodyTree}
    {a : BodyRef} {q : Fin 4} (fuel : ℕ) (hq : (box.quarter q).isInside (heap a).position = true)
    (i : Fin 4) (hi : i ≠ q) :
    insert (fuel + 1) a (represent heap false (box.quarter i) (child i)) heap
      = .ok ⟨represent heap false (box.quarter i) (child i), heap, false⟩ :=
  insert_outside fuel fun h ↦ hi (FBox2D.quarter_unique h hq)

theorem insert_descend {heap : BodyHeap K} {isRoot : Bool} {box : FBox2D K} {t t' : BodyTree}
    {a b : BodyRef} {q : Fin 4} {accepted : Bool} (fuel : ℕ) (hres : t.resident = some b)
    (hq : (box.quarter q).isInside (heap a).position = true)
    (hins : insert (fuel + 1) a (represent heap false (box.quarter q)
        (cutAt (FBox2D.quarters K) heap.positions box t q)) heap
      = .ok ⟨represent heap false (box.quarter q) t', heap, accepted⟩) :
    insert (fuel + 2) a (represent heap isRoot box t) heap
      = .ok ⟨represent heap isRoot box (.split b
          (Function.update (cutAt (FBox2D.quarters K) heap.positions box t) q t')),
          heap, accepted⟩ := by
  rw [insert_resident fuel (FBox2D.isInside_of_quarter hq) hres,
    insertAny_one (insert_sibling fuel hq) hins, represent_update]
  exact represent_split hres _ accepted

theorem insert_descend_error {heap : BodyHeap K} {isRoot : Bool} {box : FBox2D K} {t : BodyTree}
    {a b : BodyRef} {q : Fin 4} {fault : Fault} (fuel : ℕ) (hres : t.resident = some b)
    (hq : (box.quarter q).isInside (heap a).position = true)
    (hins : insert (fuel + 1) a (represent heap false (box.quarter q)
        (cutAt (FBox2D.quarters K) heap.positions box t q)) heap = .error fault) :
    insert (fuel + 2) a (represent heap isRoot box t) heap = .error fault := by
  rw [insert_resident fuel (FBox2D.isInside_of_quarter hq) hres,
    insertAny_error (insert_sibling fuel hq) hins]
  rfl

omit [IsStrictOrderedRing K] in
theorem insert_one {heap : BodyHeap K} {isRoot : Bool} {box : FBox2D K} {t : BodyTree}
    {a b : BodyRef} (h : box.isInside (heap a).position = true) (hres : t.resident = some b) :
    insert 1 a (represent heap isRoot box t) heap = .error .outOfFuel := by
  cases t with
  | empty => exact absurd hres (by simp [resident])
  | leaf c =>
    simp [represent, fieldsOf, insert, h, isEmpty, growChildren, subDivide_nil heap,
      List.finRange_succ, insertUntilAccepted, bind, Except.bind]
  | split c child =>
    simp [represent, fieldsOf, insert, h, isEmpty, growChildren, List.finRange_succ, insertAny,
      bind, Except.bind]

/-! ## Insertion steps are made by `Insert` -/

/-- **Completeness.** Every insertion step is made by `Insert`, given enough fuel. -/
theorem exists_insert_of_inserts {heap : BodyHeap K} {isRoot : Bool} {box : FBox2D K}
    {t t' : BodyTree} {a : BodyRef} {accepted : Bool}
    (h : Inserts (FBox2D.quarters K) heap.positions box t a t' accepted)
    (hroot : isRoot = true → box.isInside (heap a).position = true) :
    ∃ n, ∀ fuel, n ≤ fuel → insert fuel a (represent heap isRoot box t) heap
      = .ok ⟨represent heap isRoot box t', heap, accepted⟩ := by
  induction h generalizing isRoot with
  | outside hout =>
    cases isRoot with
    | true => exact absurd (hroot rfl) hout
    | false =>
      refine ⟨1, fun fuel hfuel ↦ ?_⟩
      obtain ⟨fuel, rfl⟩ := Nat.exists_eq_add_of_le' hfuel
      exact insert_outside fuel hout
  | fresh hin =>
    refine ⟨1, fun fuel hfuel ↦ ?_⟩
    obtain ⟨fuel, rfl⟩ := Nat.exists_eq_add_of_le' hfuel
    exact insert_empty fuel hin
  | lost hin hres hcut =>
    refine ⟨2, fun fuel hfuel ↦ ?_⟩
    obtain ⟨fuel, rfl⟩ := Nat.exists_eq_add_of_le' hfuel
    exact insert_lost fuel hin hres hcut
  | descend hres hq _ ih =>
    obtain ⟨n, hn⟩ := @ih false (by simp)
    refine ⟨n + 2, fun fuel hfuel ↦ ?_⟩
    obtain ⟨fuel, rfl⟩ := Nat.exists_eq_add_of_le' hfuel
    exact insert_descend (fuel + n) hres hq (hn _ (by omega))

end UQuadTree

end NBodySimulation
