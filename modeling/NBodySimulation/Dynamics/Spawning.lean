import NBodySimulation.Dynamics.Lifecycle
import NBodySimulation.Dynamics.Softening
import NBodySimulation.Quadtree.CentreOfMass
import NBodySimulation.Quadtree.Termination

/-!
# What `InitBodies` spawns

`InitBodies` places the bodies in a circle around the camera arm, which the constructor has put in
the middle of the scene. While the circle fits into the scene, no body is at or beyond its border,
so the first tree is built without wrapping any, and leaves out only bodies on dividing lines. The
speeds fall with the distance from the corner of the scene, which is the origin of the world.

## What is assumed of the engine

* `FMath::RandPointInCircle` returns a point of the disk, `UKismetMathLibrary::RandomUnitVector` a
  vector of length one, and `FMath::FRandRange` a number in the range.

## Main results

* `BodySimulatorActor.play_spawns`: the bodies when play begins, and the first tree.
-/

namespace NBodySimulation

open Spatial Spatial.PointTree

section Spawning

variable {K : Type*} [Field K] [LinearOrder K] [PythagoreanField K]

/-- The random functions of the engine, as documented. -/
structure EngineCalls.Documented (engine : EngineCalls K) : Prop where
  randPointInCircle : ∀ index radius, 0 ≤ radius →
    (engine.randPointInCircle index radius).size ≤ radius
  randomUnitVector : ∀ index, (engine.randomUnitVector index).x ^ 2
    + (engine.randomUnitVector index).y ^ 2 + (engine.randomUnitVector index).z ^ 2 = 1
  fRandRange : ∀ index min max, min ≤ max →
    min ≤ engine.fRandRange index min max ∧ engine.fRandRange index min max ≤ max

/-- The place of the camera arm in the plane of the simulation. -/
def EngineCalls.camera (engine : EngineCalls K) : FVector2D K :=
  ⟨engine.cameraLocation.x, engine.cameraLocation.y⟩

/-- The disk of a radius around a point lies strictly inside the box. -/
structure FBox2D.HasRoom (box : FBox2D K) (center : FVector2D K) (radius : K) : Prop where
  left : box.min.x < center.x - radius
  right : center.x + radius < box.max.x
  below : box.min.y < center.y - radius
  above : center.y + radius < box.max.y

variable [IsStrictOrderedRing K]

private theorem FVector2D.abs_x_le_size (v : FVector2D K) : |v.x| ≤ v.size := by
  refine abs_le_of_sq_le_sq ?_ v.size_nonneg
  rw [size_sq]
  exact le_add_of_nonneg_right (sq_nonneg v.y)

private theorem FVector2D.abs_y_le_size (v : FVector2D K) : |v.y| ≤ v.size := by
  refine abs_le_of_sq_le_sq ?_ v.size_nonneg
  rw [size_sq]
  exact le_add_of_nonneg_left (sq_nonneg v.x)

private theorem FBox2D.HasRoom.isInside {box : FBox2D K} {center v : FVector2D K} {radius : K}
    (h : box.HasRoom center radius) (hv : v.size ≤ radius) : box.isInside (v + center) = true := by
  obtain ⟨hleft, hright⟩ := abs_le.mp ((FVector2D.abs_x_le_size v).trans hv)
  obtain ⟨hbelow, habove⟩ := abs_le.mp ((FVector2D.abs_y_le_size v).trans hv)
  rw [isInside_iff, FVector2D.x_add, FVector2D.y_add]
  exact ⟨by linarith [h.left], by linarith [h.right], by linarith [h.below], by linarith [h.above]⟩

namespace ABodySimulator

variable {engine : EngineCalls K} {s : ABodySimulator K}

/-- **One body** made by `InitBodies`. -/
theorem initBody_spec (hengine : engine.Documented) (hradius : 0 ≤ s.placementRadius)
    (hroom : s.sceneBounds.HasRoom engine.camera s.placementRadius) (hmass : s.minMass ≤ s.maxMass)
    (index : ℕ) :
    s.sceneBounds.isInside (s.initBody engine index).1.position = true ∧
    FVector2D.distance (s.initBody engine index).1.position engine.camera ≤ s.placementRadius ∧
    s.minMass ≤ (s.initBody engine index).1.mass ∧
    (s.initBody engine index).1.mass ≤ s.maxMass ∧
    (s.initBody engine index).1.velocity.size
      ≤ |s.baseInitialSpeed|
        * (s.placementRadius / FVector2D.distance (s.initBody engine index).1.position 0) := by
  have hpoint := hengine.randPointInCircle index s.placementRadius hradius
  have hposition : (s.initBody engine index).1.position
      = engine.randPointInCircle index s.placementRadius + engine.camera := rfl
  have hunit := hengine.randomUnitVector index
  obtain ⟨hmin, hmax⟩ := hengine.fRandRange index _ _ hmass
  refine ⟨?_, ?_, hmin, hmax, ?_⟩
  · rw [hposition]
    exact hroom.isInside hpoint
  · rw [hposition, FVector2D.distance_eq_size, add_sub_cancel_right]
    exact hpoint
  · set factor := s.placementRadius
      / FVector2D.distance (s.initBody engine index).1.position 0 with hfactor
    have hfactor0 : 0 ≤ factor := div_nonneg hradius (FVector2D.distance_nonneg _ _)
    have hvelocity : (s.initBody engine index).1.velocity
        = (⟨(engine.randomUnitVector index).x, (engine.randomUnitVector index).y⟩ : FVector2D K)
          * (s.baseInitialSpeed * factor) := by
      ext
      · exact mul_assoc _ _ _
      · exact mul_assoc _ _ _
    have hplanar : (⟨(engine.randomUnitVector index).x,
        (engine.randomUnitVector index).y⟩ : FVector2D K).size ≤ 1 := by
      refine le_of_sq_le_sq ?_ zero_le_one
      rw [FVector2D.size_sq, one_pow]
      linarith [sq_nonneg (engine.randomUnitVector index).z]
    rw [hvelocity, FVector2D.size_scale, abs_mul, abs_of_nonneg hfactor0]
    exact mul_le_of_le_one_left (by positivity) hplanar

omit [PythagoreanField K] in
/-- When all bodies are strictly inside the scene, the tree leaves out those on dividing lines. -/
theorem mem_leafBodies_of_isInside
    (hinside : ∀ b ∈ s.bodies, s.sceneBounds.isInside (s.objects b).position = true) {fuel : ℕ}
    {s₁ : ABodySimulator K} (h : s.constructTree fuel = .ok s₁) :
    s₁.objects = s.objects ∧ ∀ b ∈ s.bodies, b ∈ s₁.quadTree.leafBodies ↔
      ¬s.objects.CutOff s.sceneBounds s.bodies b := by
  obtain ⟨t, hc, rfl⟩ := constructTree_spec h
  have hleaves : t.leaves = (s.objects.keptInside s.sceneBounds s.bodies : Multiset BodyRef) :=
    CanonicalFor.leaves_eq ((canonicalFor_settle_iff s.bodies).mp hc)
  refine ⟨BodyHeap.settle_eq_self hinside, fun b hb ↦ ?_⟩
  have hin : b ∈ s.objects.inside s.sceneBounds s.bodies :=
    BodyHeap.mem_inside.mpr ⟨hb, hinside b hb⟩
  refine UQuadTree.mem_leafBodies_represent.trans ?_
  rw [hleaves, Multiset.mem_coe, BodyHeap.keptInside]
  simp only [List.mem_filter, hin, true_and, decide_eq_true_eq]

end ABodySimulator

namespace BodySimulatorActor

/-- **What `InitBodies` spawns.** When play begins, with any properties that leave the circle inside
the scene, there are `BodyNum` bodies, and every one is strictly inside, within the radius of the
camera, has a mass from the range and is no faster than the initial speed times the radius over its
distance from the origin. Whenever the first tree can be built, that moves no body, and the tree
holds just those that no dividing line cuts off. -/
theorem play_spawns {mesh : MeshCalls K} {before : List (ActorEvent K)}
    {engine : EngineCalls K} {objects : BodyHeap K} {p : Properties K}
    (hbefore : ∀ engine, ActorEvent.beginPlay engine ∉ before)
    (hp : propertiesAfter before (construct objects).simulator.properties = p)
    (hengine : engine.Documented) (hnum : 0 ≤ p.bodyNum) (hradius : 0 ≤ p.placementRadius)
    (hroom : (construct objects).simulator.sceneBounds.HasRoom engine.camera p.placementRadius)
    (hmass : p.minMass ≤ p.maxMass) :
    ∃ a, (construct objects).play mesh (before ++ [.beginPlay engine]) = .ok a ∧
      (a.simulator.bodies.length : ℤ) = p.bodyNum ∧
      (∀ b ∈ a.simulator.bodies,
        a.simulator.sceneBounds.isInside (a.simulator.objects b).position = true ∧
        FVector2D.distance (a.simulator.objects b).position engine.camera ≤ p.placementRadius ∧
        p.minMass ≤ (a.simulator.objects b).mass ∧ (a.simulator.objects b).mass ≤ p.maxMass ∧
        (a.simulator.objects b).velocity.size ≤ |p.baseInitialSpeed|
          * (p.placementRadius / FVector2D.distance (a.simulator.objects b).position 0)) ∧
      ∀ fuel s₁, a.simulator.constructTree fuel = .ok s₁ →
        s₁.objects = a.simulator.objects ∧
        ∀ b ∈ a.simulator.bodies, b ∈ s₁.quadTree.leafBodies ↔
          ¬a.simulator.objects.CutOff a.simulator.sceneBounds a.simulator.bodies b := by
  set s : ABodySimulator K := (edited objects p).simulator with hs
  have hplay : (construct objects).play mesh (before ++ [.beginPlay engine])
      = .ok ((edited objects p).spawn mesh engine) := by
    rw [play_construct hbefore, hp, beginPlay_of_nonneg hnum]
    rfl
  have hspec := ABodySimulator.initBody_spec (s := s) hengine hradius hroom hmass
  have hobject : ∀ b ∈ (s.initLoop engine p.bodyNum.toNat).bodies,
      (s.initLoop engine p.bodyNum.toNat).objects b = (s.initBody engine b).1 := fun b hb ↦
    if_pos (List.mem_range.mp hb)
  have hspawned : ∀ b ∈ (s.initLoop engine p.bodyNum.toNat).bodies,
      s.sceneBounds.isInside ((s.initLoop engine p.bodyNum.toNat).objects b).position = true ∧
      FVector2D.distance ((s.initLoop engine p.bodyNum.toNat).objects b).position engine.camera
        ≤ s.placementRadius ∧
      s.minMass ≤ ((s.initLoop engine p.bodyNum.toNat).objects b).mass ∧
      ((s.initLoop engine p.bodyNum.toNat).objects b).mass ≤ s.maxMass ∧
      ((s.initLoop engine p.bodyNum.toNat).objects b).velocity.size ≤ |s.baseInitialSpeed|
        * (s.placementRadius / FVector2D.distance
          ((s.initLoop engine p.bodyNum.toNat).objects b).position 0) := by
    intro b hb
    rw [hobject b hb]
    exact hspec b
  refine ⟨_, hplay, ?_, hspawned, fun fuel s₁ h ↦ ?_⟩
  · show ((List.range p.bodyNum.toNat).length : ℤ) = p.bodyNum
    rw [List.length_range, Int.toNat_of_nonneg hnum]
  · exact ABodySimulator.mem_leafBodies_of_isInside (s := s.initLoop engine p.bodyNum.toNat)
      (fun b hb ↦ (hspawned b hb).1) h

private theorem documented_diagonalCalls : diagonalCalls.Documented where
  randPointInCircle index radius hradius := by
    have hstep : (0 : ℝ) < index + (2 : ℕ) := by positivity
    show FVector2D.size ⟨radius / (index + (2 : ℕ)), radius / (index + (2 : ℕ))⟩ ≤ radius
    refine le_of_sq_le_sq ?_ hradius
    rw [FVector2D.size_sq, div_pow, ← two_mul, ← mul_div_assoc, div_le_iff₀ (by positivity)]
    push_cast
    nlinarith [sq_nonneg radius, mul_nonneg (sq_nonneg radius) (Nat.cast_nonneg (α := ℝ) index)]
  randomUnitVector index := by norm_num [diagonalCalls]
  fRandRange index min max h := ⟨le_rfl, h⟩

/-- Two bodies to the upper right of the camera. -/
theorem play_spawns_shortPlay : ∃ a : BodySimulatorActor ℝ,
    (construct fun b ↦ .initializeBody 0 0 0 b 0 0).play listMesh
      (earlyEvents ++ [.beginPlay diagonalCalls]) = .ok a ∧
    (∀ b ∈ a.simulator.bodies,
      a.simulator.sceneBounds.isInside (a.simulator.objects b).position = true) ∧
    ∃ fuel s₁, a.simulator.constructTree fuel = .ok s₁ ∧ s₁.objects = a.simulator.objects ∧
      ∀ b ∈ a.simulator.bodies, b ∈ s₁.quadTree.leafBodies ↔
        ¬a.simulator.objects.CutOff a.simulator.sceneBounds a.simulator.bodies b := by
  have hroom : (construct fun b ↦ .initializeBody (0 : FVector2D ℝ) 0 0 b 0
      0).simulator.sceneBounds.HasRoom diagonalCalls.camera (1000 : ℕ) := by
    constructor <;> norm_num [construct, diagonalCalls, EngineCalls.camera]
  have hmasses : ((20 : ℕ) : ℝ) ≤ (100 : ℕ) := by norm_num
  obtain ⟨a, hplay, _, hspawned, htree⟩ := @play_spawns ℝ _ _ _ _ listMesh earlyEvents
    diagonalCalls (fun b ↦ .initializeBody 0 0 0 b 0 0) _ beginPlay_not_mem_earlyEvents rfl
    documented_diagonalCalls zero_le_two (Nat.cast_nonneg 1000) hroom hmasses
  have ha : a = (edited (fun b ↦ .initializeBody 0 0 0 b 0 0) (naiveProperties (1 + 1))).spawn
      listMesh diagonalCalls := by
    rw [play_construct beginPlay_not_mem_earlyEvents, beginPlay_of_nonneg zero_le_two] at hplay
    exact (Except.ok.inj hplay).symm
  have hx : ∀ b ∈ a.simulator.bodies, (a.simulator.objects b).position.x
      = ((1000 : ℕ) : ℝ) / (b + (2 : ℕ)) + (3297 : ℕ) / (2 : ℕ) := by
    rw [ha]
    intro b hb
    refine (congrArg (fun body : UBodyEntity ℝ ↦ body.position.x)
      (if_pos (List.mem_range.mp hb))).trans ?_
    rfl
  have hplaces : ∀ b ∈ a.simulator.bodies, ∀ c ∈ a.simulator.bodies, b ≠ c →
      (a.simulator.objects b).position ≠ (a.simulator.objects c).position := by
    intro b hb c hc hbc hsame
    have heq := congrArg FVector2D.x hsame
    rw [hx b hb, hx c hc, add_left_inj, div_eq_div_iff (by positivity) (by positivity),
      mul_right_inj' (Nat.cast_ne_zero.mpr (by norm_num)), add_left_inj] at heq
    exact hbc (Nat.cast_injective heq).symm
  have hnodup : a.simulator.bodies.Nodup := by
    rw [ha]
    exact List.nodup_range
  obtain ⟨fuel, s₁, hok⟩ := exists_constructTree hnodup hplaces
  exact ⟨a, hplay, fun b hb ↦ (hspawned b hb).1, fuel, s₁, hok, htree fuel s₁ hok⟩

end BodySimulatorActor

end Spawning

end NBodySimulation
