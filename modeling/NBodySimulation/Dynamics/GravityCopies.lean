import NBodySimulation.Actors.Scene
import NBodySimulation.Dynamics.Velocity

/-!
# The gravity formula, written twice

`SimulateCompareAllParallel` accumulates the acceleration of a body over the others, from the
gravity parameters of the simulator, and scales the sum by `DeltaTime` at the end.
`UBodyEntity::TryToApplyExternalForce` adds the change due to one source at once, from the
parameters of the body itself. Calling the second for every other body, in any order, does what the
first does.
-/

namespace NBodySimulation

section Copies

variable {K : Type*} [Field K]

/-- A loop that keeps changing one velocity, by amounts that do not depend on velocities, changes it
by their sum. -/
theorem BodyHeap.foldl_accelerate_one (change : BodyHeap K → BodyRef → FVector2D K)
    (hread : ∀ heap heap' b, heap.SameButVelocity heap' → change heap' b = change heap b)
    (heap : BodyHeap K) (body : BodyRef) (others : List BodyRef) :
    others.foldl (fun heap other ↦ heap.modify body (·.accelerate (change heap other))) heap
      = heap.modify body (·.accelerate (others.map (change heap)).sum) := by
  induction others generalizing heap with
  | nil =>
    simp only [List.foldl_nil, List.map_nil, List.sum_nil, UBodyEntity.accelerate_zero]
    exact (Function.update_eq_self body heap).symm
  | cons other others ih =>
    have hsame := heap.sameButVelocity_modify body (change heap other)
    have hrest : others.map (change (heap.modify body (·.accelerate (change heap other))))
        = others.map (change heap) := List.map_congr_left fun c _ ↦ hread _ _ c hsame
    rw [List.foldl_cons, ih, hrest, modify_modify, List.map_cons, List.sum_cons]
    simp only [UBodyEntity.accelerate_accelerate]

variable [LinearOrder K] [PythagoreanField K]

/-- The calls `Body->TryToApplyExternalForce(Other->Position, Other->Mass, DeltaTime)`, one for each
body of a list. -/
def BodyHeap.applyForces (heap : BodyHeap K) (body : BodyRef) (deltaTime : K)
    (others : List BodyRef) : BodyHeap K :=
  others.foldl (fun heap other ↦ heap.modify body fun b ↦
    b.tryToApplyExternalForce (heap other).position (heap other).mass deltaTime) heap

private theorem BodyHeap.velocity_applyForces (heap : BodyHeap K) (body : BodyRef) (deltaTime : K)
    (others : List BodyRef) : (heap.applyForces body deltaTime others body).velocity
      = (heap body).velocity + (others.map fun other ↦ attraction (heap body).g
          (heap body).minimumGravityDistance (heap body).position (heap other).position
          (heap other).mass).sum * deltaTime := by
  have hforce : (fun (heap : BodyHeap K) other ↦ heap.modify body fun b ↦
        b.tryToApplyExternalForce (heap other).position (heap other).mass deltaTime)
      = fun heap other ↦ heap.modify body (·.accelerate (attraction (heap body).g
          (heap body).minimumGravityDistance (heap body).position (heap other).position
          (heap other).mass * deltaTime)) := by
    funext heap other
    rw [modify, modify, UBodyEntity.tryToApplyExternalForce_eq]
  have hread : ∀ (heap heap' : BodyHeap K) b, heap.SameButVelocity heap' →
      attraction (heap' body).g (heap' body).minimumGravityDistance (heap' body).position
          (heap' b).position (heap' b).mass * deltaTime
        = attraction (heap body).g (heap body).minimumGravityDistance (heap body).position
          (heap b).position (heap b).mass * deltaTime := by
    intro heap heap' b h
    rw [(h body).g, (h body).minimumGravityDistance, (h body).position, (h b).position, (h b).mass]
  rw [applyForces, hforce, foldl_accelerate_one _ hread, modify_self,
    UBodyEntity.velocity_accelerate, FVector2D.sum_scale, List.map_map]
  rfl

namespace ABodySimulator

variable {s : ABodySimulator K}

/-- The pull of the naive phase, as the attractions of the other bodies in any order. -/
theorem naivePull_eq_of_perm (hindex : (s.bodies.map fun b ↦ (s.objects b).index).Nodup)
    {b : BodyRef} {others : List BodyRef} (hothers : (b :: others).Perm s.bodies) :
    s.naivePull s.objects b = (others.map fun other ↦ attraction s.g s.minimumGravityDistance
      (s.objects b).position (s.objects other).position (s.objects other).mass).sum := by
  have hindex' : ((b :: others).map fun c ↦ (s.objects c).index).Nodup :=
    (hothers.map fun c ↦ (s.objects c).index).nodup_iff.mpr hindex
  rw [List.map_cons, List.nodup_cons] at hindex'
  have hother : ∀ c ∈ others, s.pullOf (s.objects b) (s.objects c)
      = attraction s.g s.minimumGravityDistance (s.objects b).position (s.objects c).position
        (s.objects c).mass := by
    intro c hc
    refine if_neg fun hsame ↦ hindex'.1 ?_
    rw [← hsame]
    exact List.mem_map_of_mem hc
  rw [naivePull, ← (hothers.map _).sum_eq, List.map_cons, List.sum_cons, pullOf_self, zero_add,
    List.map_congr_left hother]

/-- **The two copies of the gravity formula agree.** -/
theorem velocity_applyForces_eq (hindex : (s.bodies.map fun b ↦ (s.objects b).index).Nodup)
    (hshared : s.SharedGravity) (deltaTime : K) {b : BodyRef} {others : List BodyRef}
    (hothers : (b :: others).Perm s.bodies) :
    (s.objects.applyForces b deltaTime others b).velocity
      = ((s.simulateCompareAllParallel deltaTime).objects b).velocity := by
  have hb : b ∈ s.bodies := hothers.subset List.mem_cons_self
  obtain ⟨hg, hclamp⟩ := hshared b hb
  rw [BodyHeap.velocity_applyForces, hg, hclamp, ← naivePull_eq_of_perm hindex hothers,
    velocity_simulateCompareAllParallel deltaTime (hindex.of_map _) hb]

end ABodySimulator

end Copies

/-- The third body of the scene and then the first pull the second. -/
theorem velocity_applyForces_eq_cornerScene :
    (cornerScene.objects.applyForces 1 (1 / 2) [2, 0] 1).velocity
      = ((cornerScene.simulateCompareAllParallel (1 / 2)).objects 1).velocity := by
  have hothers : List.Perm [1, 2, 0] cornerScene.bodies :=
    show List.Perm [1, 2, 0] [0, 1, 2] by decide
  exact ABodySimulator.velocity_applyForces_eq
    (ABodySimulator.ofBodies_wellIndexed _ _ _ _ _ _).nodup_index
    (ABodySimulator.ofBodies_sharedGravity _ _ _ _ _ _) (1 / 2) hothers

end NBodySimulation
