import NBodySimulation.Quadtree.Consistency
import NBodySimulation.Quadtree.Termination
import NBodySimulation.Quadtree.Tiling

/-!
# The division that ends an aggregation

The aggregation of `Insert` divides by `Size`, the number of children with a body, and guards this
nowhere. The node is subdivided because two bodies are strictly inside its box, but a child has a
body only when one of them is strictly inside a quarter. So `Size` is zero exactly when all bodies
strictly inside the box lie on its two dividing lines, and the division is safe throughout a
sequence of insertions exactly when this never happens, to any box, along the way.

## Main results

* `neverDividesByZero_iff`: for which sequences of insertions every division is safe.
-/

namespace NBodySimulation

open Spatial Spatial.PointTree UQuadTree ABodySimulator

/-- The insertions of the bodies into an empty root never divide by zero, and so every node that has
a body keeps a defined centre. -/
structure NeverDividesByZero {K : Type*} [Field K] [LinearOrder K] (heap : BodyHeap K)
    (box : FBox2D K) (bodies : List BodyRef) : Prop where
  one_le_size : ∀ fuel, ∀ agg ∈ insertAllLog fuel bodies (.new box true) heap, 1 ≤ agg.sums.size
  centerMass_isSome : ∀ fuel done tree heap', done <+: bodies →
    insertAll fuel done (.new box true) heap = .ok (tree, heap') →
      ∀ path self children, tree.nodeAt path = node self children →
        isEmpty self = false → self.centerMass.isSome = true

/-- When two of the bodies are strictly inside the box, they are not all on its dividing lines. -/
def BodyHeap.SomeOffLines {K : Type*} [Field K] [LinearOrder K] (heap : BodyHeap K)
    (box : FBox2D K) (bodies : List BodyRef) : Prop :=
  2 ≤ (heap.inside box bodies).length →
    ∃ b ∈ heap.inside box bodies, ¬box.OnDividingLine (heap b).position

/-! ## Sequences of insertions -/

section Sequences

variable {K : Type*} [Field K] [LinearOrder K]

private theorem insertAll_append (fuel : ℕ) (done rest : List BodyRef) (tree : UQuadTree K)
    (heap : BodyHeap K) : insertAll fuel (done ++ rest) tree heap
      = insertAll fuel done tree heap >>= fun r ↦ insertAll fuel rest r.1 r.2 := by
  induction done generalizing tree heap with
  | nil => rfl
  | cons b done ih =>
    rw [List.cons_append, insertAll, insertAll]
    cases insert fuel b tree heap with
    | error fault => rfl
    | ok r => exact ih r.tree r.heap

/-- The aggregations of a sequence are those of its calls, each after the ones before it. -/
theorem mem_insertAllLog_iff {fuel : ℕ} {bodies : List BodyRef} {tree : UQuadTree K}
    {heap : BodyHeap K} {agg : Aggregation K} : agg ∈ insertAllLog fuel bodies tree heap ↔
      ∃ done b rest tree' heap', bodies = done ++ b :: rest ∧
        insertAll fuel done tree heap = .ok (tree', heap') ∧
        agg ∈ insertLog fuel b tree' heap' := by
  induction bodies generalizing tree heap with
  | nil => simp [insertAllLog]
  | cons a bodies ih =>
    rw [insertAllLog, List.mem_append]
    constructor
    · rintro (hagg | hagg)
      · exact ⟨[], a, bodies, tree, heap, rfl, rfl, hagg⟩
      · cases hins : insert fuel a tree heap with
        | error fault => simp [hins] at hagg
        | ok r =>
          rw [hins] at hagg
          obtain ⟨done, b, rest, tree', heap', rfl, hok, hlog⟩ := ih.mp hagg
          refine ⟨a :: done, b, rest, tree', heap', rfl, ?_, hlog⟩
          rw [insertAll, hins]
          exact hok
    · rintro ⟨done, b, rest, tree', heap', hsplit, hok, hlog⟩
      cases done with
      | nil =>
        rw [List.nil_append, List.cons.injEq] at hsplit
        obtain ⟨rfl, rfl⟩ := Prod.mk.inj (Except.ok.inj hok)
        rw [hsplit.1]
        exact Or.inl hlog
      | cons c done =>
        rw [List.cons_append, List.cons.injEq] at hsplit
        obtain ⟨rfl, rfl⟩ := hsplit
        rw [insertAll] at hok
        cases hins : insert fuel a tree heap with
        | error fault =>
          rw [hins] at hok
          exact absurd hok (by simp [bind, Except.bind])
        | ok r =>
          rw [hins] at hok
          exact Or.inr (ih.mpr ⟨done, b, rest, tree', heap', rfl, hok, hlog⟩)

end Sequences

/-! ## The size at a split -/

section Size

variable {K : Type*} [Field K] [LinearOrder K] [IsStrictOrderedRing K] {heap : BodyHeap K}
  {box : FBox2D K} {bodies : List BodyRef} {b : BodyRef} {child : Fin 4 → BodyTree}

/-- A split has a child with a body exactly when a body inside its box is off the dividing lines. -/
theorem CanonicalFor.occupied_ne_nil_iff (hc : CanonicalFor heap box bodies (split b child)) :
    occupied child ≠ [] ↔
      ∃ c ∈ heap.inside box bodies, ¬box.OnDividingLine (heap c).position := by
  have hchild : ∀ i, i ∈ occupied child ↔ heap.inside (box.quarter i) bodies ≠ [] := by
    intro i
    rw [mem_occupied, ((canonical_split.mp hc).2.2 i).isSome_resident_iff, coe_inside,
      FBox2D.quarters_cell, ne_eq, Multiset.coe_eq_zero]
  constructor
  · intro hne
    obtain ⟨i, hi⟩ := List.exists_mem_of_ne_nil _ hne
    obtain ⟨c, hcin⟩ := List.exists_mem_of_ne_nil _ ((hchild i).mp hi)
    obtain ⟨hmem, hin⟩ := BodyHeap.mem_inside.mp hcin
    have hbox := FBox2D.isInside_of_quarter hin
    exact ⟨c, BodyHeap.mem_inside.mpr ⟨hmem, hbox⟩, fun hline ↦
      (FBox2D.onDividingLine_iff hbox).mp hline i hin⟩
  · rintro ⟨c, hcin, hoff⟩
    obtain ⟨hmem, hbox⟩ := BodyHeap.mem_inside.mp hcin
    rw [FBox2D.onDividingLine_iff hbox, not_forall] at hoff
    obtain ⟨i, hi⟩ := hoff
    have hcell : c ∈ heap.inside (box.quarter i) bodies :=
      BodyHeap.mem_inside.mpr ⟨hmem, not_not.mp hi⟩
    exact List.ne_nil_of_mem ((hchild i).mpr (List.ne_nil_of_mem hcell))

/-- With a body off the lines of every box, every stored node with a body has a defined centre. -/
theorem CanonicalFor.centerMass_isSome {heap' : BodyHeap K} {isRoot : Bool} {t : BodyTree}
    (hc : CanonicalFor heap box bodies t)
    (hoff : ∀ path : List (Fin 4), heap.SomeOffLines (box.subBox path) bodies)
    (hres : t.resident.isSome = true) :
    (fieldsOf heap' isRoot box t).centerMass.isSome = true := by
  induction t generalizing isRoot box with
  | empty => exact absurd hres (by simp [resident])
  | leaf c => rfl
  | split c child ih =>
    have hne : occupied child ≠ [] :=
      (CanonicalFor.occupied_ne_nil_iff hc).mpr (hoff [] (CanonicalFor.two_le_inside hc))
    have hdefined : ∀ i ∈ occupied child,
        (fieldsOf heap' false (box.quarter i) (child i)).centerMass.isSome = true :=
      fun i hi ↦ ih i ((canonical_split.mp hc).2.2 i) (fun path ↦ hoff (i :: path))
        (mem_occupied.mp hi)
    choose! center hcenter using fun i hi ↦ Option.isSome_iff_exists.mp (hdefined i hi)
    exact Option.isSome_iff_exists.mpr ⟨_, centerMass_split_iff.mpr ⟨hne, center, hcenter, rfl⟩⟩

end Size

/-! ## When no division is by zero -/

section Insertions

variable {K : Type*} [Field K] [LinearOrder K] [IsStrictOrderedRing K]

private theorem canonicalFor_append_singleton {heap : BodyHeap K} {box : FBox2D K}
    {done : List BodyRef} {b : BodyRef} {t : BodyTree} (hc : CanonicalFor heap box (b ::ₘ done) t) :
    CanonicalFor heap box (done ++ [b] : List BodyRef) t := by
  have hfamily : ((done ++ [b] : List BodyRef) : Multiset BodyRef) = b ::ₘ done := by
    rw [← Multiset.coe_add, Multiset.coe_singleton, add_comm, Multiset.singleton_add]
  rwa [hfamily]

/-- An aggregation has a child with a body, when the boxes of the bodies inserted so far have a body
off their lines. -/
theorem one_le_size_of_someOffLines {fuel : ℕ} {heap heap' : BodyHeap K} {box : FBox2D K}
    {done : List BodyRef} {b : BodyRef} {tree : UQuadTree K} {agg : Aggregation K}
    (hok : insertAll fuel done (.new box true) heap = .ok (tree, heap'))
    (hagg : agg ∈ insertLog fuel b tree heap')
    (hoff : heap.Separated box (done ++ [b]) →
      ∀ path : List (Fin 4), heap.SomeOffLines (box.subBox path) (done ++ [b])) :
    1 ≤ agg.sums.size := by
  obtain ⟨t, hc, rfl, rfl⟩ := insertAll_new_spec hok
  obtain ⟨t', accepted, _, hins, path, c, child, hsub, _, rfl⟩ :=
    exists_inserts_of_mem_insertLog hagg
  have hc' : CanonicalFor heap box (done ++ [b] : List BodyRef) t' :=
    canonicalFor_append_singleton ((canonicalFor_settle_iff done).mp (hins.canonical hc))
  have hsplit : CanonicalFor heap (box.subBox path) (done ++ [b] : List BodyRef) (split c child) :=
    hc'.subtree hsub
  rw [size_aggregationOf, Nat.one_le_iff_ne_zero, ne_eq, List.length_eq_zero_iff]
  exact (CanonicalFor.occupied_ne_nil_iff hsplit).mpr
    (hoff (CanonicalFor.separated hc') path (CanonicalFor.two_le_inside hsplit))

private theorem exists_mem_insertAllLog {heap : BodyHeap K} {box : FBox2D K} {done : List BodyRef}
    {b : BodyRef} {path : List (Fin 4)} (rest : List BodyRef)
    (hsep : heap.Separated box (done ++ [b]))
    (hin : (box.subBox path).isInside (heap b).position = true)
    (htwo : 2 ≤ (heap.inside (box.subBox path) (done ++ [b])).length) :
    ∃ fuel, ∃ agg ∈ insertAllLog fuel (done ++ b :: rest) (.new box true) heap, ∃ c child,
      CanonicalFor heap (box.subBox path) (done ++ [b] : List BodyRef) (split c child) ∧
        agg.sums.size = (occupied child).length := by
  obtain ⟨fuel, tree, heap', hok⟩ := exists_insertAll_iff.mpr hsep
  rw [insertAll_append] at hok
  rcases insertAll_new_represent fuel done box heap with herr | ⟨t, hc, hdone⟩
  · rw [herr] at hok
    exact absurd hok (by simp [bind, Except.bind])
  · rw [hdone] at hok
    have hroot : box.isInside (heap.settle box done b).position = true :=
      BodyHeap.isInside_settle.mpr ((FBox2D.quarters K).mem_of_mem_descend hin)
    have hpos : heap.settle box done b = heap b :=
      BodyHeap.settle_of_isInside ((FBox2D.quarters K).mem_of_mem_descend hin)
    rcases insertLog_represent (t := t) fuel (fun _ : true = true ↦ hroot)
      with ⟨herr, _⟩ | ⟨t', accepted, _, hins, hlog⟩
    · simp [insertAll, herr, bind, Except.bind] at hok
    · have hc' : CanonicalFor heap box (done ++ [b] : List BodyRef) t' :=
        canonicalFor_append_singleton ((canonicalFor_settle_iff done).mp (hins.canonical hc))
      obtain ⟨c, child, hsub, hsplit⟩ := CanonicalFor.exists_split hc' htwo
      refine ⟨fuel, _, mem_insertAllLog_iff.mpr ⟨done, b, rest, _, _, rfl, hdone,
        (hlog _).mpr ⟨path, c, child, hsub, ?_, rfl⟩⟩, c, child, hsplit, size_aggregationOf _ _ _⟩
      rwa [hpos]

private theorem NeverDividesByZero.someOffLines {heap : BodyHeap K} {box : FBox2D K}
    {bodies done : List BodyRef} (hnever : NeverDividesByZero heap box bodies)
    (hpre : done <+: bodies) (hsep : heap.Separated box done) (path : List (Fin 4)) :
    heap.SomeOffLines (box.subBox path) done := by
  intro htwo
  induction done using List.reverseRecOn with
  | nil => exact absurd htwo (by simp [BodyHeap.inside])
  | append_singleton done b ih =>
    obtain ⟨rest, hrest⟩ := hpre
    have hbodies : done ++ b :: rest = bodies := by
      rw [← hrest, List.append_assoc]
      rfl
    by_cases hin : (box.subBox path).isInside (heap b).position = true
    · obtain ⟨fuel, agg, hagg, c, child, hc, hsize⟩ := exists_mem_insertAllLog rest hsep hin htwo
      rw [hbodies] at hagg
      have hone := hnever.one_le_size fuel agg hagg
      refine (CanonicalFor.occupied_ne_nil_iff hc).mp fun hnil ↦ ?_
      rw [hsize, hnil] at hone
      exact absurd hone (by simp)
    · -- the last body changes nothing in the box
      have hsame : heap.inside (box.subBox path) (done ++ [b])
          = heap.inside (box.subBox path) done := by
        rw [BodyHeap.inside_append, BodyHeap.inside_cons_of_not_isInside hin]
        exact List.append_nil _
      rw [hsame] at htwo ⊢
      exact ih ((List.prefix_append done [b]).trans ⟨rest, hrest⟩) hsep.of_append htwo

/-- Every node with a body keeps a defined centre, when every box has a body off its lines. -/
theorem isSome_centerMass_of_someOffLines {fuel : ℕ} {heap heap' : BodyHeap K} {box : FBox2D K}
    {done : List BodyRef} {tree : UQuadTree K} {path : List ℕ} {self : Fields K}
    {children : List (UQuadTree K)}
    (hok : insertAll fuel done (.new box true) heap = .ok (tree, heap'))
    (hnode : tree.nodeAt path = node self children) (hne : isEmpty self = false)
    (hoff : heap.Separated box done →
      ∀ path : List (Fin 4), heap.SomeOffLines (box.subBox path) done) :
    self.centerMass.isSome = true := by
  obtain ⟨t, hc, rfl, rfl⟩ := insertAll_new_spec hok
  obtain ⟨labels, rfl, u, hsub, rfl, rfl⟩ := exists_subtree_of_nodeAt hnode
  have hc₀ : CanonicalFor heap box done t := (canonicalFor_settle_iff done).mp hc
  have hu : CanonicalFor heap (box.subBox labels) done u := hc₀.subtree hsub
  refine CanonicalFor.centerMass_isSome hu (fun path ↦ ?_) ?_
  · have hpath := hoff (CanonicalFor.separated hc₀) (labels ++ path)
    rwa [FBox2D.subBox_append] at hpath
  · rw [isEmpty, fieldsOf_bIsEmpty] at hne
    rwa [← Option.not_isNone, Bool.not_eq_true']

/-- **When no division is by zero.** Insertions into an empty root never divide by zero exactly when
among the bodies inserted so far, at any moment up to the first body that is never separated from
the others, no box has two or more of them strictly inside and all of those on its dividing
lines. -/
theorem neverDividesByZero_iff (heap : BodyHeap K) (box : FBox2D K) (bodies : List BodyRef) :
    NeverDividesByZero heap box bodies ↔ ∀ done, done <+: bodies → heap.Separated box done →
      ∀ path : List (Fin 4), heap.SomeOffLines (box.subBox path) done := by
  constructor
  · exact fun hnever done hpre hsep path ↦ hnever.someOffLines hpre hsep path
  · intro hoff
    refine ⟨fun fuel agg hagg ↦ ?_, fun fuel done tree heap' hpre hok path self children hnode hne ↦
      isSome_centerMass_of_someOffLines hok hnode hne (hoff done hpre)⟩
    obtain ⟨done, b, rest, tree, heap', rfl, hok, hlog⟩ := mem_insertAllLog_iff.mp hagg
    refine one_le_size_of_someOffLines hok hlog (hoff _ ⟨rest, ?_⟩)
    rw [List.append_assoc]
    rfl

end Insertions

/-! ## Two bodies on one line -/

/-- Two bodies on the vertical dividing line of the scene. -/
def linedUpScene : ABodySimulator ℚ :=
  .ofBodies .barnesHut ⟨⟨0, 0⟩, ⟨8, 8⟩⟩ (7 / 10) 1000 100 [(⟨4, 1⟩, 0, 20), (⟨4, 2⟩, 0, 20)]

theorem neverDividesByZero_iff_linedUpScene :
    NeverDividesByZero linedUpScene.objects linedUpScene.sceneBounds linedUpScene.bodies ↔
      ∀ done, done <+: linedUpScene.bodies →
        linedUpScene.objects.Separated linedUpScene.sceneBounds done →
          ∀ path : List (Fin 4),
            linedUpScene.objects.SomeOffLines (linedUpScene.sceneBounds.subBox path) done :=
  neverDividesByZero_iff linedUpScene.objects linedUpScene.sceneBounds linedUpScene.bodies

/-- The insertion of the second body ends with a division by zero. -/
theorem linedUpScene_divides_by_zero : linedUpScene.sceneBounds.Proper ∧
    ¬NeverDividesByZero linedUpScene.objects linedUpScene.sceneBounds linedUpScene.bodies := by
  refine ⟨⟨by decide +kernel, by decide +kernel⟩, fun hnever ↦ ?_⟩
  have hsizes : (insertAllLog 3 linedUpScene.bodies (.new linedUpScene.sceneBounds true)
      linedUpScene.objects).map (fun agg ↦ agg.sums.size) = [0] := by decide +kernel
  have hzero : 0 ∈ (insertAllLog 3 linedUpScene.bodies (.new linedUpScene.sceneBounds true)
      linedUpScene.objects).map fun agg ↦ agg.sums.size := by
    rw [hsizes]
    exact List.mem_singleton_self 0
  obtain ⟨agg, hagg, hsize⟩ := List.mem_map.mp hzero
  have hone := hnever.one_le_size 3 agg hagg
  omega

end NBodySimulation
