import NBodySimulation.Dynamics.Kinematics
import NBodySimulation.Forces.StoredTrees

/-!
# The order of the array

`Insert` depends on the order of the bodies: which of them a node remembers, and in which insertion
an aggregate was last computed. What a tick does to the bodies does not. The settled heap and the
shape of the tree are determined by the set of bodies, and the traversal reads nothing but the
shape. The naive phase adds up the same pulls in another order, and the move phase treats bodies of
different index separately.
-/

namespace NBodySimulation

open Spatial Spatial.PointTree

namespace ABodySimulator

variable {K : Type*} [Field K] [LinearOrder K]

/-- The same state with the body array in another order. -/
def reorder (s : ABodySimulator K) (bodies : List BodyRef) : ABodySimulator K :=
  { s with bodies := bodies }

/-! ## The move phase -/

omit [LinearOrder K] in
private theorem drift_perm {heap : BodyHeap K} {bodies bodies' : List BodyRef}
    (h : bodies'.Perm bodies) (adjust : FVector2D K → FVector2D K) (deltaTime : K) :
    heap.drift bodies' adjust deltaTime = heap.drift bodies adjust deltaTime := by
  funext b
  simp only [BodyHeap.drift, h.mem_iff]

omit [LinearOrder K] in
private theorem kick_perm {heap : BodyHeap K} {bodies bodies' : List BodyRef}
    (h : bodies'.Perm bodies)
    (change : BodyRef → FVector2D K) : heap.kick bodies' change = heap.kick bodies change := by
  funext b
  simp only [BodyHeap.kick, h.mem_iff]

/-- Two states with the same objects, scene and transforms move alike, whatever the order. -/
theorem moveBodies_perm {deltaTime : K} {bSkipAdjust : Bool} {s s' r r' : ABodySimulator K}
    {bodies bodies' : List BodyRef} (hperm : bodies'.Perm bodies)
    (hindex : (bodies.map fun b ↦ (s.objects b).index).Nodup)
    (hobjects : s'.objects = s.objects) (htransforms : s'.transforms = s.transforms)
    (hbounds : s'.sceneBounds = s.sceneBounds)
    (h : moveBodies deltaTime bSkipAdjust bodies s = .ok r)
    (h' : moveBodies deltaTime bSkipAdjust bodies' s' = .ok r') :
    r'.objects = r.objects ∧ r'.transforms = r.transforms := by
  have hindex' : (bodies'.map fun b ↦ (s'.objects b).index).Nodup := by
    rw [hobjects]
    exact (hperm.map _).nodup_iff.mpr hindex
  have hadjust : s'.adjustUnless bSkipAdjust = s.adjustUnless bSkipAdjust := by
    funext p
    rw [adjustUnless, adjustUnless]
    split
    · rfl
    · rw [adjustPosition, adjustPosition, hbounds]
  have hmoved : r'.objects = r.objects := by
    rw [objects_moveBodies (hindex.of_map _) h, objects_moveBodies (hindex'.of_map _) h',
      drift_perm hperm, hobjects, hadjust]
  refine ⟨hmoved, List.ext_getElem? fun i ↦ ?_⟩
  by_cases hi : ∃ b ∈ bodies, (s.objects b).index = i
  · -- the one body with this index decides the transform in both orders
    obtain ⟨b, hb, rfl⟩ := hi
    have hget := transforms_moveBodies_of_mem hindex' h' (hperm.mem_iff.mpr hb)
    rw [hobjects, htransforms, hmoved] at hget
    rw [hget, transforms_moveBodies_of_mem hindex h hb]
  · rw [transforms_moveBodies_of_ne h fun b hb hbi ↦ hi ⟨b, hb, hbi⟩,
      transforms_moveBodies_of_ne h' fun b hb hbi ↦
        hi ⟨b, hperm.mem_iff.mp hb, by rwa [← hobjects]⟩, htransforms]

variable [PythagoreanField K] {s : ABodySimulator K} {bodies : List BodyRef}

/-! ## The force phases -/

private theorem naivePull_reorder (hperm : bodies.Perm s.bodies) (heap : BodyHeap K) (b : BodyRef) :
    (s.reorder bodies).naivePull heap b = s.naivePull heap b :=
  (hperm.map _).sum_eq

private theorem objects_compareAll_reorder (hperm : bodies.Perm s.bodies) (hnodup : s.bodies.Nodup)
    (deltaTime : K) : ((s.reorder bodies).simulateCompareAllParallel deltaTime).objects
      = (s.simulateCompareAllParallel deltaTime).objects := by
  have hnodup' : (s.reorder bodies).bodies.Nodup := hperm.nodup_iff.mpr hnodup
  rw [simulateCompareAllParallel_objects deltaTime hnodup,
    simulateCompareAllParallel_objects deltaTime hnodup']
  simp only [naivePull_reorder hperm]
  exact kick_perm hperm _

private theorem index_compareAll_switchTo (hnodup : s.bodies.Nodup) (deltaTime : K) (b : BodyRef) :
    (((s.switchTo .allVsAll).simulateCompareAllParallel deltaTime).objects b).index
      = (s.objects b).index :=
  index_simulateCompareAllParallel (show (s.switchTo .allVsAll).bodies.Nodup from hnodup)
    deltaTime b

private theorem index_barnesHut_withTree (hnodup : s.bodies.Nodup) (t : BodyTree) (deltaTime : K)
    (b : BodyRef) :
    ((((s.switchTo .barnesHut).withTree t).simulateBarnesHut deltaTime).objects b).index
      = (s.objects b).index :=
  (index_simulateBarnesHut (show ((s.switchTo .barnesHut).withTree t).bodies.Nodup from hnodup)
    deltaTime b).trans (BodyHeap.index_settle _ _ _ b)

/-! ## One naive tick -/

private theorem exists_tickCall_allVsAll_iff (hnodup : s.bodies.Nodup) (fuel : ℕ) (deltaTime : K) :
    (∃ r, s.tickCall ⟨.allVsAll, fuel, deltaTime⟩ = .ok r) ↔
      ∀ b ∈ s.bodies, (s.objects b).index < s.transforms.length := by
  rw [tickCall_allVsAll_eq rfl, exists_moveBodies_iff]
  simp only [index_compareAll_switchTo hnodup]
  rfl

private theorem tickCall_allVsAll_reorder (hperm : bodies.Perm s.bodies)
    (hindex : (s.bodies.map fun b ↦ (s.objects b).index).Nodup) {fuel fuel' : ℕ} {deltaTime : K}
    {r r' : ABodySimulator K} (h : s.tickCall ⟨.allVsAll, fuel, deltaTime⟩ = .ok r)
    (h' : (s.reorder bodies).tickCall ⟨.allVsAll, fuel', deltaTime⟩ = .ok r') :
    r'.objects = r.objects ∧ r'.transforms = r.transforms := by
  have hnodup : s.bodies.Nodup := hindex.of_map _
  rw [tickCall_allVsAll_eq rfl] at h h'
  have hobjects := @objects_compareAll_reorder K _ _ _ (s.switchTo .allVsAll) bodies hperm
    hnodup deltaTime
  refine moveBodies_perm hperm ?_ hobjects rfl rfl h h'
  rwa [List.map_congr_left fun b _ ↦ index_compareAll_switchTo hnodup deltaTime b]

section Tree

variable [IsStrictOrderedRing K]

omit [PythagoreanField K] in
private theorem canonical_reorder_iff (hperm : bodies.Perm s.bodies) {t : BodyTree} :
    (s.reorder bodies).Canonical t ↔ s.Canonical t := by
  have hcoe : ((s.reorder bodies).bodies : Multiset BodyRef) = s.bodies :=
    Multiset.coe_eq_coe.mpr hperm
  have hsettle : (s.reorder bodies).objects.settle (s.reorder bodies).sceneBounds
      (s.reorder bodies).bodies = s.objects.settle s.sceneBounds s.bodies :=
    BodyHeap.settle_perm hperm
  rw [ABodySimulator.Canonical, ABodySimulator.Canonical, hcoe, hsettle]
  rfl

/-- With the trees that either order builds, the Barnes-Hut phase does the same to the heap. -/
theorem objects_barnesHut_reorder (hperm : bodies.Perm s.bodies) (hnodup : s.bodies.Nodup)
    {t t' : BodyTree} (ht : s.Canonical t) (ht' : (s.reorder bodies).Canonical t') (deltaTime : K) :
    (((s.reorder bodies).withTree t').simulateBarnesHut deltaTime).objects
      = ((s.withTree t).simulateBarnesHut deltaTime).objects := by
  have hshape : SameShape t t' := ht.sameShape ((canonical_reorder_iff hperm).mp ht')
  have hsettle : ((s.reorder bodies).withTree t').objects = (s.withTree t).objects :=
    BodyHeap.settle_perm hperm
  have hpull : ∀ b,
      treePull s.theta (s.withTree t).objects b ((s.reorder bodies).withTree t').quadTree
      = treePull s.theta (s.withTree t).objects b (s.withTree t).quadTree := by
    intro b
    have htree : ((s.reorder bodies).withTree t').quadTree
        = UQuadTree.represent (s.withTree t).objects true s.sceneBounds t' := by
      rw [← hsettle]
      rfl
    rw [htree]
    exact treePull_sameShape hshape
  rw [simulateBarnesHut_objects deltaTime (show (s.withTree t).bodies.Nodup from hnodup),
    simulateBarnesHut_objects deltaTime
      (show ((s.reorder bodies).withTree t').bodies.Nodup from hperm.nodup_iff.mpr hnodup), hsettle]
  refine (kick_perm hperm _).trans (congrArg _ (funext fun b ↦ ?_))
  exact congrArg (fun v : FVector2D K ↦ v * deltaTime) (hpull b)

/-! ## One tick -/

private theorem exists_tickCall_barnesHut_iff (hnodup : s.bodies.Nodup) (deltaTime : K) :
    (∃ fuel r, s.tickCall ⟨.barnesHut, fuel, deltaTime⟩ = .ok r) ↔
      (∃ t, s.Canonical t) ∧ ∀ b ∈ s.bodies, (s.objects b).index < s.transforms.length := by
  -- once its tree is built, a tick returns when its moves do
  have hmoves : ∀ fuel s₁, (s.switchTo .barnesHut).constructTree fuel = .ok s₁ →
      (∃ t, s.Canonical t) ∧ ((∃ r, s.tickCall ⟨.barnesHut, fuel, deltaTime⟩ = .ok r) ↔
        ∀ b ∈ s.bodies, (s.objects b).index < s.transforms.length) := by
    intro fuel s₁ hs₁
    obtain ⟨t, ht, htick⟩ :=
      @tickCall_barnesHut_eq K _ _ _ s ⟨.barnesHut, fuel, deltaTime⟩ _ rfl s₁ hs₁
    refine ⟨⟨t, ht⟩, ?_⟩
    rw [htick, exists_moveBodies_iff]
    simp only [index_barnesHut_withTree hnodup]
    rfl
  constructor
  · rintro ⟨fuel, r, h⟩
    obtain ⟨s₁, hs₁⟩ := constructTree_of_tickCall rfl h
    obtain ⟨hcanonical, hiff⟩ := hmoves fuel s₁ hs₁
    exact ⟨hcanonical, hiff.mp ⟨r, h⟩⟩
  · rintro ⟨hcanonical, hlt⟩
    obtain ⟨fuel, s₁, hs₁⟩ :=
      (constructTree_finishes_iff (s.switchTo .barnesHut)).mpr hcanonical
    exact ⟨fuel, (hmoves fuel s₁ hs₁).2.mpr hlt⟩

private theorem exists_tickCall_iff (hnodup : s.bodies.Nodup) (mode : ESimulationType)
    (deltaTime : K) :
    (∃ fuel r, s.tickCall ⟨mode, fuel, deltaTime⟩ = .ok r) ↔
      (mode = .barnesHut → ∃ t, s.Canonical t) ∧
      (mode ≠ .none → ∀ b ∈ s.bodies, (s.objects b).index < s.transforms.length) := by
  cases mode with
  | none => simp [tickCall, tick, switchTo]
  | allVsAll => simp [exists_tickCall_allVsAll_iff hnodup]
  | barnesHut => simp [exists_tickCall_barnesHut_iff hnodup]

private theorem tickCall_barnesHut_reorder (hperm : bodies.Perm s.bodies)
    (hindex : (s.bodies.map fun b ↦ (s.objects b).index).Nodup) {fuel fuel' : ℕ} {deltaTime : K}
    {r r' : ABodySimulator K} (h : s.tickCall ⟨.barnesHut, fuel, deltaTime⟩ = .ok r)
    (h' : (s.reorder bodies).tickCall ⟨.barnesHut, fuel', deltaTime⟩ = .ok r') :
    r'.objects = r.objects ∧ r'.transforms = r.transforms := by
  have hnodup : s.bodies.Nodup := hindex.of_map _
  obtain ⟨s₁, hs₁⟩ := constructTree_of_tickCall rfl h
  obtain ⟨s₁', hs₁'⟩ := constructTree_of_tickCall rfl h'
  obtain ⟨t, ht, htick⟩ :=
    @tickCall_barnesHut_eq K _ _ _ s ⟨.barnesHut, fuel, deltaTime⟩ _ rfl s₁ hs₁
  obtain ⟨t', ht', htick'⟩ := @tickCall_barnesHut_eq K _ _ _ (s.reorder bodies)
    ⟨.barnesHut, fuel', deltaTime⟩ _ rfl s₁' hs₁'
  have hobjects := @objects_barnesHut_reorder K _ _ _ (s.switchTo .barnesHut) bodies _ hperm
    hnodup t t' ht ht' deltaTime
  refine moveBodies_perm hperm ?_ hobjects rfl rfl (htick.symm.trans h) (htick'.symm.trans h')
  rwa [List.map_congr_left fun b _ ↦ index_barnesHut_withTree hnodup t deltaTime b]

/-- **A tick does not depend on the order of the array.** For one order the tree construction ends
for some depth exactly when it does for the other, and so does the whole tick. Whenever both ticks
return, they leave the same bodies and the same transforms. -/
theorem tickCall_reorder (hperm : bodies.Perm s.bodies)
    (hindex : (s.bodies.map fun b ↦ (s.objects b).index).Nodup) :
    ((∃ fuel r, (s.reorder bodies).constructTree fuel = .ok r) ↔
      ∃ fuel r, s.constructTree fuel = .ok r) ∧
    ∀ mode deltaTime,
      ((∃ fuel r, (s.reorder bodies).tickCall ⟨mode, fuel, deltaTime⟩ = .ok r) ↔
        ∃ fuel r, s.tickCall ⟨mode, fuel, deltaTime⟩ = .ok r) ∧
      ∀ fuel fuel' r r', s.tickCall ⟨mode, fuel, deltaTime⟩ = .ok r →
        (s.reorder bodies).tickCall ⟨mode, fuel', deltaTime⟩ = .ok r' →
        r'.objects = r.objects ∧ r'.transforms = r.transforms := by
  have hnodup : s.bodies.Nodup := hindex.of_map _
  have hnodup' : (s.reorder bodies).bodies.Nodup := hperm.nodup_iff.mpr hnodup
  refine ⟨?_, fun mode deltaTime ↦ ⟨?_, fun fuel fuel' r r' h h' ↦ ?_⟩⟩
  · rw [constructTree_finishes_iff, constructTree_finishes_iff]
    exact exists_congr fun t ↦ canonical_reorder_iff hperm
  · rw [exists_tickCall_iff hnodup, exists_tickCall_iff hnodup']
    have hmem : ∀ b, b ∈ (s.reorder bodies).bodies ↔ b ∈ s.bodies := fun b ↦ hperm.mem_iff
    simp only [canonical_reorder_iff hperm, hmem]
    rfl
  · cases mode with
    | none =>
      obtain rfl := Except.ok.inj h
      obtain rfl := Except.ok.inj h'
      exact ⟨rfl, rfl⟩
    | allVsAll => exact tickCall_allVsAll_reorder hperm hindex h h'
    | barnesHut => exact tickCall_barnesHut_reorder hperm hindex h h'

end Tree

/-- The two bodies of a scene, swapped. -/
theorem tickCall_reorder_twoBodyScene : ∃ fuel fuel' r r',
    twoBodyScene.tickCall ⟨.barnesHut, fuel, 1⟩ = .ok r ∧
    (twoBodyScene.reorder [1, 0]).tickCall ⟨.barnesHut, fuel', 1⟩ = .ok r' ∧
    r'.objects = r.objects ∧ r'.transforms = r.transforms := by
  have hnodup : twoBodyScene.bodies.Nodup := twoBodyScene_wellIndexed.nodup_bodies
  obtain ⟨hends, hsame⟩ := (tickCall_reorder (List.Perm.swap 0 1 [])
    twoBodyScene_wellIndexed.nodup_index).2 .barnesHut 1
  obtain ⟨fuel, r, h⟩ := (exists_tickCall_iff hnodup .barnesHut 1).mpr
    ⟨fun _ ↦ (constructTree_finishes_iff _).mp (exists_constructTree hnodup places_ne_twoBodyScene),
      fun _ b hb ↦ twoBodyScene_wellIndexed.index_lt hb⟩
  obtain ⟨fuel', r', h'⟩ := hends.mpr ⟨fuel, r, h⟩
  exact ⟨fuel, fuel', r, r', h, h', hsame fuel fuel' r r' h h'⟩

end ABodySimulator

end NBodySimulation
