import NBodySimulation.Actors.BodySimulator
import NBodySimulation.Quadtree.InsertLog
import NBodySimulation.Quadtree.Nodes

/-!
# Building the tree

`ConstructTree` inserts the bodies one after the other into a fresh root. What it leaves is
described without the order of the insertions: the heap is the old one with every body of the array
wrapped, and the tree is the stored form of a canonical tree of the bodies at those places. Whether
the insertions end at all is decided by the same family, by the existence of a canonical tree.
-/

namespace NBodySimulation

open Spatial Spatial.PointTree

/-! ## The heap after the insertions -/

section Settle

variable {K : Type*} [LinearOrder K]

/-- The heap once every body of the list has been wrapped into the box. -/
def BodyHeap.settle (heap : BodyHeap K) (box : FBox2D K) (bodies : List BodyRef) : BodyHeap K :=
  fun b ↦ if b ∈ bodies then (heap b).adjustPosition box else heap b

theorem UBodyEntity.adjustPosition_of_isInside {box : FBox2D K} {body : UBodyEntity K}
    (h : box.isInside body.position = true) : body.adjustPosition box = body := by
  rw [adjustPosition, FBox2D.wrap_of_isInside h]

private theorem UBodyEntity.adjustPosition_adjustPosition (body : UBodyEntity K) (box : FBox2D K) :
    (body.adjustPosition box).adjustPosition box = body.adjustPosition box := by
  simp only [adjustPosition, FBox2D.wrap_wrap]

@[simp] theorem BodyHeap.settle_nil (heap : BodyHeap K) (box : FBox2D K) :
    heap.settle box [] = heap := by
  funext b
  simp [settle]

private theorem BodyHeap.settle_singleton (heap : BodyHeap K) (box : FBox2D K) (b : BodyRef) :
    heap.settle box [b] = heap.modify b (·.adjustPosition box) := by
  funext c
  by_cases hcb : c = b
  · subst hcb
    simp [settle]
  · simp [settle, hcb, modify_of_ne]

theorem BodyHeap.settle_cons (heap : BodyHeap K) (box : FBox2D K) (b : BodyRef)
    (bodies : List BodyRef) :
    heap.settle box (b :: bodies) = (heap.settle box [b]).settle box bodies := by
  funext c
  by_cases hcb : c = b
  · subst hcb
    simp only [settle, List.mem_cons, true_or, if_true]
    split
    · rw [UBodyEntity.adjustPosition_adjustPosition]
    · rfl
  · simp [settle, hcb]

theorem BodyHeap.settle_perm {heap : BodyHeap K} {box : FBox2D K} {bodies bodies' : List BodyRef}
    (h : bodies.Perm bodies') : heap.settle box bodies = heap.settle box bodies' := by
  funext b
  simp only [settle, h.mem_iff]

theorem BodyHeap.isInside_settle {heap : BodyHeap K} {box : FBox2D K} {bodies : List BodyRef}
    {b : BodyRef} : box.isInside (heap.settle box bodies b).position = true ↔
      box.isInside (heap b).position = true := by
  rw [settle]
  split
  · exact FBox2D.isInside_wrap_iff
  · rfl

theorem BodyHeap.settle_of_isInside {heap : BodyHeap K} {box : FBox2D K} {bodies : List BodyRef}
    {b : BodyRef} (h : box.isInside (heap b).position = true) :
    heap.settle box bodies b = heap b := by
  rw [settle]
  split
  · exact UBodyEntity.adjustPosition_of_isInside h
  · rfl

theorem BodyHeap.settle_singleton_of_isInside {heap : BodyHeap K} {box : FBox2D K} {b : BodyRef}
    (h : box.isInside (heap b).position = true) : heap.settle box [b] = heap := by
  rw [settle_singleton, modify, UBodyEntity.adjustPosition_of_isInside h, Function.update_eq_self]

theorem BodyHeap.settle_eq_self {heap : BodyHeap K} {box : FBox2D K} {bodies : List BodyRef}
    (h : ∀ b ∈ bodies, box.isInside (heap b).position = true) : heap.settle box bodies = heap := by
  funext b
  by_cases hb : b ∈ bodies
  · exact settle_of_isInside (h b hb)
  · rw [settle, if_neg hb]

theorem BodyHeap.index_settle (heap : BodyHeap K) (box : FBox2D K) (bodies : List BodyRef)
    (b : BodyRef) : (heap.settle box bodies b).index = (heap b).index := by
  rw [settle]
  split <;> rfl

theorem BodyHeap.mass_settle (heap : BodyHeap K) (box : FBox2D K) (bodies : List BodyRef)
    (b : BodyRef) : (heap.settle box bodies b).mass = (heap b).mass := by
  rw [settle]
  split <;> rfl

theorem BodyHeap.g_settle (heap : BodyHeap K) (box : FBox2D K) (bodies : List BodyRef)
    (b : BodyRef) : (heap.settle box bodies b).g = (heap b).g := by
  rw [settle]
  split <;> rfl

theorem BodyHeap.settle_of_mem {heap : BodyHeap K} {box : FBox2D K} {bodies : List BodyRef}
    {b : BodyRef} (hb : b ∈ bodies) :
    heap.settle box bodies b = (heap b).adjustPosition box :=
  if_pos hb

end Settle

/-! ## The insertion loop -/

namespace UQuadTree

variable {K : Type*} [Field K]

/-- The stored form reads the heap only at the bodies the leaves hold. -/
theorem fieldsOf_congr {heap heap' : BodyHeap K} {isRoot : Bool} {box : FBox2D K} {t : BodyTree}
    (h : ∀ b ∈ t.leaves, heap b = heap' b) :
    fieldsOf heap isRoot box t = fieldsOf heap' isRoot box t := by
  induction t generalizing isRoot box with
  | empty => rfl
  | leaf b => rw [fieldsOf, fieldsOf, h b (Multiset.mem_singleton_self b)]
  | split b child ih =>
    have hchild : ∀ i, fieldsOf heap false (box.quarter i) (child i)
        = fieldsOf heap' false (box.quarter i) (child i) := fun i ↦
      ih i fun c hc ↦ h c (mem_leaves_split.mpr ⟨i, hc⟩)
    simp only [fieldsOf, hchild]

theorem represent_congr {heap heap' : BodyHeap K} {isRoot : Bool} {box : FBox2D K} {t : BodyTree}
    (h : ∀ b ∈ t.leaves, heap b = heap' b) :
    represent heap isRoot box t = represent heap' isRoot box t := by
  induction t generalizing isRoot box with
  | empty => rfl
  | leaf b => rw [represent, represent, fieldsOf_congr h]
  | split b child ih =>
    have hchild : ∀ i, represent heap false (box.quarter i) (child i)
        = represent heap' false (box.quarter i) (child i) := fun i ↦
      ih i fun c hc ↦ h c (mem_leaves_split.mpr ⟨i, hc⟩)
    simp only [represent, fieldsOf_congr h, hchild]

end UQuadTree

section InsertAll

variable {K : Type*} [Field K] [LinearOrder K] [IsStrictOrderedRing K]

/-- The tree is canonical for the bodies of the family, at their places in the heap. -/
abbrev CanonicalFor (heap : BodyHeap K) (box : FBox2D K) (bodies : Multiset BodyRef)
    (t : BodyTree) : Prop := Canonical (FBox2D.quarters K) heap.positions bodies box t

/-- Wrapping bodies changes nothing that is canonical: whatever it moves was not in the box and
still is not. -/
theorem canonicalFor_settle_iff {heap : BodyHeap K} {box : FBox2D K} {S : Multiset BodyRef}
    {t : BodyTree} (bodies : List BodyRef) :
    CanonicalFor (heap.settle box bodies) box S t ↔ CanonicalFor heap box S t := by
  have hinside : (FBox2D.quarters K).inside (heap.settle box bodies).positions box S
      = (FBox2D.quarters K).inside heap.positions box S :=
    Multiset.filter_congr fun b _ ↦ BodyHeap.isInside_settle
  have hpos : ∀ b ∈ (FBox2D.quarters K).inside heap.positions box S,
      (heap.settle box bodies).positions b = heap.positions b := by
    intro b hb
    rw [BodyHeap.positions, BodyHeap.positions,
      BodyHeap.settle_of_isInside (Subdivision.mem_inside.mp hb).2]
  constructor
  · exact fun hc ↦ hc.congr hinside fun b hb ↦ hpos b (hinside ▸ hb)
  · exact fun hc ↦ hc.congr hinside.symm fun b hb ↦ (hpos b hb).symm

theorem insert_root_outside {heap : BodyHeap K} {box : FBox2D K} {S : Multiset BodyRef}
    {t : BodyTree} {b : BodyRef} (hc : CanonicalFor heap box S t)
    (hb : ¬box.isInside (heap b).position = true) (fuel : ℕ) :
    UQuadTree.insert (fuel + 1) b (UQuadTree.represent heap true box t) heap
      = .ok ⟨UQuadTree.represent (heap.settle box [b]) true box t, heap.settle box [b], false⟩ := by
  have hleaves : ∀ c ∈ t.leaves, heap c = heap.settle box [b] c := fun c hcl ↦
    (BodyHeap.settle_of_isInside (hc.mem_of_mem_leaves hcl).2).symm
  rw [← UQuadTree.represent_congr hleaves, BodyHeap.settle_singleton]
  simp [UQuadTree.represent_eq, UQuadTree.insert, hb]

/-- One `Insert` into a canonical root runs out of fuel, or leaves a canonical root for the family
with the new body, which it has wrapped. -/
theorem insert_root {heap : BodyHeap K} {box : FBox2D K} {S : Multiset BodyRef} {t : BodyTree}
    (hc : CanonicalFor heap box S t) (fuel : ℕ) (b : BodyRef) :
    UQuadTree.insert fuel b (UQuadTree.represent heap true box t) heap = .error .outOfFuel ∨
      ∃ t' accepted, CanonicalFor (heap.settle box [b]) box (b ::ₘ S) t' ∧
        UQuadTree.insert fuel b (UQuadTree.represent heap true box t) heap
          = .ok ⟨UQuadTree.represent (heap.settle box [b]) true box t',
              heap.settle box [b], accepted⟩ := by
  by_cases hb : box.isInside (heap b).position = true
  · rw [BodyHeap.settle_singleton_of_isInside hb]
    rcases UQuadTree.insert_represent fuel fun _ ↦ hb with herr | ⟨t', accepted, hok, hins⟩
    · exact Or.inl herr
    · exact Or.inr ⟨t', accepted, hins.canonical hc, hok⟩
  · cases fuel with
    | zero => exact Or.inl rfl
    | succ fuel =>
      exact Or.inr ⟨t, false, (canonicalFor_settle_iff [b]).mpr (hc.cons_of_not_mem hb),
        insert_root_outside hc hb fuel⟩

/-- One `Insert` into a canonical root ends when the family with the new body is part of one that
has a canonical tree. -/
theorem exists_insert_root {heap : BodyHeap K} {box : FBox2D K} {S T : Multiset BodyRef}
    {t u : BodyTree} {b : BodyRef} (hu : CanonicalFor heap box T u)
    (hc : CanonicalFor heap box S t) (hle : b ::ₘ S ≤ T) :
    ∃ n t' accepted, CanonicalFor (heap.settle box [b]) box (b ::ₘ S) t' ∧
      ∀ fuel, n ≤ fuel → UQuadTree.insert fuel b (UQuadTree.represent heap true box t) heap
        = .ok ⟨UQuadTree.represent (heap.settle box [b]) true box t',
            heap.settle box [b], accepted⟩ := by
  by_cases hb : box.isInside (heap b).position = true
  · rw [BodyHeap.settle_singleton_of_isInside hb]
    obtain ⟨t', accepted, hins⟩ := exists_inserts hu hc hle
    obtain ⟨n, hn⟩ := UQuadTree.exists_insert_of_inserts hins fun _ ↦ hb
    exact ⟨n, t', accepted, hins.canonical hc, hn⟩
  · refine ⟨1, t, false, (canonicalFor_settle_iff [b]).mpr (hc.cons_of_not_mem hb),
      fun fuel hfuel ↦ ?_⟩
    obtain ⟨fuel, rfl⟩ := Nat.exists_eq_add_of_le' hfuel
    exact insert_root_outside hc hb fuel

omit [Field K] [LinearOrder K] [IsStrictOrderedRing K] in
theorem coe_cons_add (b : BodyRef) (bodies : List BodyRef) (S : Multiset BodyRef) :
    ((b :: bodies : List BodyRef) : Multiset BodyRef) + S
      = (bodies : Multiset BodyRef) + b ::ₘ S := by
  rw [← Multiset.cons_coe, Multiset.cons_add, Multiset.add_cons]

/-- **The insertion loop.** From a canonical root, the loop runs out of fuel or ends with a
canonical root for all the bodies, each at its wrapped place. -/
theorem insertAll_represent {heap : BodyHeap K} {box : FBox2D K} {S : Multiset BodyRef}
    {t : BodyTree} (hc : CanonicalFor heap box S t) (fuel : ℕ) (bodies : List BodyRef) :
    ABodySimulator.insertAll fuel bodies (UQuadTree.represent heap true box t) heap
        = .error .outOfFuel ∨
      ∃ t', CanonicalFor (heap.settle box bodies) box (bodies + S) t' ∧
        ABodySimulator.insertAll fuel bodies (UQuadTree.represent heap true box t) heap
          = .ok (UQuadTree.represent (heap.settle box bodies) true box t',
              heap.settle box bodies) := by
  induction bodies generalizing heap S t with
  | nil =>
    refine Or.inr ⟨t, ?_, ?_⟩
    · simpa using hc
    · simp [ABodySimulator.insertAll]
  | cons b bodies ih =>
    rw [ABodySimulator.insertAll, BodyHeap.settle_cons, coe_cons_add]
    rcases insert_root hc fuel b with herr | ⟨t', accepted, hc', hok⟩
    · exact Or.inl (by rw [herr]; rfl)
    · rw [hok]
      exact ih hc'

private theorem exists_insertAll {heap : BodyHeap K} {box : FBox2D K} {S T : Multiset BodyRef}
    {t u : BodyTree} {bodies : List BodyRef} (hu : CanonicalFor heap box T u)
    (hc : CanonicalFor heap box S t) (hle : bodies + S ≤ T) :
    ∃ n, ∀ fuel, n ≤ fuel → ∃ r,
      ABodySimulator.insertAll fuel bodies (UQuadTree.represent heap true box t) heap = .ok r := by
  induction bodies generalizing heap S t with
  | nil => exact ⟨0, fun fuel _ ↦ ⟨_, rfl⟩⟩
  | cons b bodies ih =>
    rw [coe_cons_add] at hle
    obtain ⟨n, t', accepted, hc', hn⟩ :=
      exists_insert_root hu hc ((Multiset.le_add_left _ _).trans hle)
    obtain ⟨m, hm⟩ := ih ((canonicalFor_settle_iff [b]).mpr hu) hc' hle
    refine ⟨max n m, fun fuel hfuel ↦ ?_⟩
    rw [ABodySimulator.insertAll, hn fuel ((le_max_left n m).trans hfuel)]
    exact hm fuel ((le_max_right n m).trans hfuel)

/-! ## Insertions into an empty root -/

theorem canonicalFor_empty (heap : BodyHeap K) (box : FBox2D K) :
    CanonicalFor heap box 0 .empty :=
  canonical_empty.mpr (Subdivision.inside_zero box)

/-- Insertions into an empty root run out of fuel or end with the stored form of a canonical
tree. -/
theorem insertAll_new_represent (fuel : ℕ) (bodies : List BodyRef) (box : FBox2D K)
    (heap : BodyHeap K) :
    ABodySimulator.insertAll fuel bodies (.new box true) heap = .error .outOfFuel ∨
      ∃ t, CanonicalFor (heap.settle box bodies) box bodies t ∧
        ABodySimulator.insertAll fuel bodies (.new box true) heap
          = .ok (UQuadTree.represent (heap.settle box bodies) true box t,
              heap.settle box bodies) := by
  rw [UQuadTree.represent_new heap]
  rcases insertAll_represent (canonicalFor_empty heap box) fuel bodies with herr | ⟨t, hc, hok⟩
  · exact Or.inl herr
  · rw [add_zero] at hc
    exact Or.inr ⟨t, hc, hok⟩

theorem insertAll_new_spec {fuel : ℕ} {bodies : List BodyRef} {box : FBox2D K}
    {heap heap' : BodyHeap K} {tree : UQuadTree K}
    (h : ABodySimulator.insertAll fuel bodies (.new box true) heap = .ok (tree, heap')) :
    ∃ t, CanonicalFor (heap.settle box bodies) box bodies t ∧
      tree = UQuadTree.represent (heap.settle box bodies) true box t ∧
      heap' = heap.settle box bodies := by
  rcases insertAll_new_represent fuel bodies box heap with herr | ⟨t, hc, hok⟩
  · exact absurd (herr.symm.trans h) (by simp)
  · obtain ⟨htree, hheap⟩ := Prod.mk.inj (Except.ok.inj (h.symm.trans hok))
    exact ⟨t, hc, htree, hheap⟩

/-- Masses are kept by wrapping, so they are positive in the tree when they were before. -/
theorem CanonicalFor.mass_settle_pos {heap heap' : BodyHeap K} {box : FBox2D K}
    {bodies : List BodyRef} {t : BodyTree} (hc : CanonicalFor heap' box bodies t)
    (hpos : ∀ c ∈ bodies, 0 < (heap c).mass) :
    ∀ c ∈ t.leaves, 0 < (heap.settle box bodies c).mass := by
  intro c hct
  rw [BodyHeap.mass_settle]
  exact hpos c (hc.mem_of_mem_leaves hct).1

theorem exists_insertAll_new {bodies : List BodyRef} {box : FBox2D K} {heap : BodyHeap K}
    {u : BodyTree} (hu : CanonicalFor heap box bodies u) :
    ∃ fuel tree heap', ABodySimulator.insertAll fuel bodies (.new box true) heap
      = .ok (tree, heap') := by
  obtain ⟨n, hn⟩ := exists_insertAll hu (canonicalFor_empty heap box) (by rw [add_zero])
  obtain ⟨⟨tree, heap'⟩, hr⟩ := hn n le_rfl
  exact ⟨n, tree, heap', hr⟩

/-! ## `ConstructTree` -/

/-- The simulator with a tree and the heap that its construction leaves. -/
def ABodySimulator.withTree (s : ABodySimulator K) (t : BodyTree) : ABodySimulator K :=
  { s with
    quadTree :=
      UQuadTree.represent (s.objects.settle s.sceneBounds s.bodies) true s.sceneBounds t
    objects := s.objects.settle s.sceneBounds s.bodies }

/-- The tree is canonical for the bodies of the array at their wrapped places. -/
abbrev ABodySimulator.Canonical (s : ABodySimulator K) (t : BodyTree) : Prop :=
  CanonicalFor (s.objects.settle s.sceneBounds s.bodies) s.sceneBounds s.bodies t

/-- `ConstructTree` runs out of fuel or leaves the stored form of a canonical tree. -/
theorem constructTree_represent (fuel : ℕ) (s : ABodySimulator K) :
    s.constructTree fuel = .error .outOfFuel ∨
      ∃ t, s.Canonical t ∧ s.constructTree fuel = .ok (s.withTree t) := by
  rw [ABodySimulator.constructTree]
  rcases insertAll_new_represent fuel s.bodies s.sceneBounds s.objects with herr | ⟨t, hc, hok⟩
  · exact Or.inl (by rw [herr]; rfl)
  · exact Or.inr ⟨t, hc, by rw [hok]; rfl⟩

/-- **What `ConstructTree` leaves** when it ends. -/
theorem constructTree_spec {fuel : ℕ} {s s' : ABodySimulator K}
    (h : s.constructTree fuel = .ok s') : ∃ t, s.Canonical t ∧ s' = s.withTree t := by
  rcases constructTree_represent fuel s with herr | ⟨t, hc, hok⟩
  · exact absurd (herr.symm.trans h) (by simp)
  · exact ⟨t, hc, Except.ok.inj (h.symm.trans hok)⟩

/-- **When `ConstructTree` ends**: exactly when the bodies have a canonical tree. -/
theorem constructTree_finishes_iff (s : ABodySimulator K) :
    (∃ fuel s', s.constructTree fuel = .ok s') ↔ ∃ t, s.Canonical t := by
  constructor
  · rintro ⟨fuel, s', h⟩
    obtain ⟨t, hc, _⟩ := constructTree_spec h
    exact ⟨t, hc⟩
  · rintro ⟨u, hu⟩
    obtain ⟨fuel, tree, heap, hok⟩ :=
      exists_insertAll_new ((canonicalFor_settle_iff s.bodies).mp hu)
    refine ⟨fuel, { s with quadTree := tree, objects := heap }, ?_⟩
    rw [ABodySimulator.constructTree, hok]
    rfl

end InsertAll

end NBodySimulation
