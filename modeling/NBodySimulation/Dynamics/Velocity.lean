import NBodySimulation.Actors.BodySimulator

/-!
# Velocity changes

Both force phases do the same kind of thing to the heap: every body of the array, one after the
other, has its velocity changed by an amount that was computed from the heap of that moment. Neither
phase reads a velocity to compute it. So each amount could as well have been computed from the heap
at the start of the phase, and a phase is one simultaneous change, a `kick`.

## Main results

* `BodyHeap.foldl_accelerate`: a loop of velocity changes that reads no velocity is a kick.
* `simulateCompareAllParallel_objects`: what the naive phase does to the heap.
-/

namespace NBodySimulation

/-! ## One body -/

namespace UBodyEntity

section Accelerate

variable {K : Type*} [Field K]

def accelerate (body : UBodyEntity K) (change : FVector2D K) : UBodyEntity K :=
  { body with velocity := body.velocity + change }

variable (body : UBodyEntity K) (change : FVector2D K)

@[simp] theorem position_accelerate : (body.accelerate change).position = body.position := rfl
@[simp] theorem velocity_accelerate :
    (body.accelerate change).velocity = body.velocity + change := rfl
@[simp] theorem mass_accelerate : (body.accelerate change).mass = body.mass := rfl

@[simp] theorem accelerate_zero : body.accelerate 0 = body := by
  rw [accelerate, add_zero]

theorem accelerate_accelerate (change' : FVector2D K) :
    (body.accelerate change).accelerate change' = body.accelerate (change + change') := by
  rw [accelerate, accelerate, accelerate, add_assoc]

end Accelerate

/-- Two states of a body that agree on everything but the velocity. -/
structure SameButVelocity {K : Type*} (body body' : UBodyEntity K) : Prop where
  minimumGravityDistance : body'.minimumGravityDistance = body.minimumGravityDistance
  g : body'.g = body.g
  position : body'.position = body.position
  mass : body'.mass = body.mass
  index : body'.index = body.index

private theorem sameButVelocity_accelerate {K : Type*} [Field K] (body : UBodyEntity K)
    (change : FVector2D K) : SameButVelocity body (body.accelerate change) :=
  ⟨rfl, rfl, rfl, rfl, rfl⟩

end UBodyEntity

/-! ## The heap -/

namespace BodyHeap

/-- Two heaps that agree on everything but the velocities. -/
def SameButVelocity {K : Type*} (heap heap' : BodyHeap K) : Prop :=
  ∀ b, (heap b).SameButVelocity (heap' b)

theorem SameButVelocity.refl {K : Type*} (heap : BodyHeap K) : heap.SameButVelocity heap :=
  fun _ ↦ ⟨rfl, rfl, rfl, rfl, rfl⟩

theorem SameButVelocity.trans {K : Type*} {heap heap' heap'' : BodyHeap K}
    (h : heap.SameButVelocity heap') (h' : heap'.SameButVelocity heap'') :
    heap.SameButVelocity heap'' := fun b ↦
  ⟨(h' b).minimumGravityDistance.trans (h b).minimumGravityDistance, (h' b).g.trans (h b).g,
    (h' b).position.trans (h b).position, (h' b).mass.trans (h b).mass,
    (h' b).index.trans (h b).index⟩

variable {K : Type*} [Field K]

theorem sameButVelocity_modify (heap : BodyHeap K) (b : BodyRef) (change : FVector2D K) :
    heap.SameButVelocity (heap.modify b (·.accelerate change)) := by
  intro c
  by_cases hcb : c = b
  · rw [hcb, modify_self]
    exact UBodyEntity.sameButVelocity_accelerate _ _
  · rw [modify_of_ne _ _ hcb]
    exact ⟨rfl, rfl, rfl, rfl, rfl⟩

/-- The heap once the velocities of the bodies of a list have been changed, all at once. -/
def kick (heap : BodyHeap K) (bodies : List BodyRef) (change : BodyRef → FVector2D K) :
    BodyHeap K :=
  fun b ↦ if b ∈ bodies then (heap b).accelerate (change b) else heap b

theorem kick_of_mem {heap : BodyHeap K} {bodies : List BodyRef} {change : BodyRef → FVector2D K}
    {b : BodyRef} (hb : b ∈ bodies) : heap.kick bodies change b = (heap b).accelerate (change b) :=
  if_pos hb

theorem sameButVelocity_kick (heap : BodyHeap K) (bodies : List BodyRef)
    (change : BodyRef → FVector2D K) : heap.SameButVelocity (heap.kick bodies change) := by
  intro b
  rw [kick]
  split
  · exact UBodyEntity.sameButVelocity_accelerate _ _
  · exact ⟨rfl, rfl, rfl, rfl, rfl⟩

/-- **A loop of velocity changes is a kick** when the changes do not depend on velocities. -/
theorem foldl_accelerate (change : BodyHeap K → BodyRef → FVector2D K)
    (hread : ∀ heap heap' b, heap.SameButVelocity heap' → change heap' b = change heap b)
    {bodies : List BodyRef} (hnodup : bodies.Nodup) (heap : BodyHeap K) :
    bodies.foldl (fun heap b ↦ heap.modify b (·.accelerate (change heap b))) heap
      = heap.kick bodies (change heap) := by
  induction bodies generalizing heap with
  | nil =>
    funext c
    rw [List.foldl_nil, kick, if_neg List.not_mem_nil]
  | cons b bodies ih =>
    obtain ⟨hb, hnodup⟩ := List.nodup_cons.mp hnodup
    have hsame := heap.sameButVelocity_modify b (change heap b)
    rw [List.foldl_cons, ih hnodup]
    funext c
    by_cases hcb : c = b
    · -- no later turn touches the body again
      rw [hcb, kick, if_neg hb, modify_self, kick_of_mem List.mem_cons_self]
    · rw [kick, kick, modify_of_ne _ _ hcb, hread _ _ c hsame]
      simp only [List.mem_cons, hcb, false_or]

end BodyHeap

/-! ## The attraction of a mass -/

section Attraction

variable {K : Type*} [Field K] [LinearOrder K] [PythagoreanField K]

/-- The acceleration of a body at `p` towards a mass at `q`, the distance clamped from below. -/
def attraction (g minimumGravityDistance : K) (p q : FVector2D K) (mass : K) : FVector2D K :=
  let distance := max (FVector2D.distance p q) minimumGravityDistance
  mass / distance * g / distance * (q - p) / distance

theorem UBodyEntity.tryToApplyExternalForce_eq (body : UBodyEntity K) (otherPosition : FVector2D K)
    (otherMass deltaSeconds : K) :
    body.tryToApplyExternalForce otherPosition otherMass deltaSeconds = body.accelerate
      (attraction body.g body.minimumGravityDistance body.position otherPosition otherMass
        * deltaSeconds) := by
  rw [tryToApplyExternalForce, accelerate, attraction, zero_add]

namespace ABodySimulator

/-- What one body adds to the acceleration of another in the naive phase. -/
def pullOf (s : ABodySimulator K) (body affecting : UBodyEntity K) : FVector2D K :=
  if affecting.index = body.index then 0
  else attraction s.g s.minimumGravityDistance body.position affecting.position affecting.mass

theorem pullOf_self (s : ABodySimulator K) (body : UBodyEntity K) : s.pullOf body body = 0 :=
  if_pos rfl

/-- The acceleration of a body in the naive phase. -/
def naivePull (s : ABodySimulator K) (heap : BodyHeap K) (body : BodyRef) : FVector2D K :=
  (s.bodies.map fun affecting ↦ s.pullOf (heap body) (heap affecting)).sum

theorem addAcceleration_eq (s : ABodySimulator K) (body : UBodyEntity K)
    (acceleration : FVector2D K) (affecting : UBodyEntity K) :
    s.addAcceleration body acceleration affecting = acceleration + s.pullOf body affecting := by
  rw [addAcceleration, pullOf]
  split
  · rw [add_zero]
  · rfl

private theorem foldl_addAcceleration (s : ABodySimulator K) (heap : BodyHeap K)
    (body : UBodyEntity K) (bodies : List BodyRef) (acceleration : FVector2D K) :
    bodies.foldl (fun acceleration affecting ↦
        s.addAcceleration body acceleration (heap affecting)) acceleration
      = acceleration + (bodies.map fun affecting ↦ s.pullOf body (heap affecting)).sum := by
  induction bodies generalizing acceleration with
  | nil => rw [List.foldl_nil, List.map_nil, List.sum_nil, add_zero]
  | cons b bodies ih =>
    rw [List.foldl_cons, ih, addAcceleration_eq, List.map_cons, List.sum_cons, add_assoc]

theorem compareAll_eq (deltaTime : K) (s : ABodySimulator K) (heap : BodyHeap K) (body : BodyRef) :
    compareAll deltaTime s heap body
      = heap.modify body (·.accelerate (s.naivePull heap body * deltaTime)) := by
  rw [compareAll, foldl_addAcceleration, zero_add]
  rfl

theorem pullOf_congr (s : ABodySimulator K) {body body' affecting affecting' : UBodyEntity K}
    (hbody : body.SameButVelocity body') (haffecting : affecting.SameButVelocity affecting') :
    s.pullOf body' affecting' = s.pullOf body affecting := by
  rw [pullOf, pullOf, hbody.index, hbody.position, haffecting.index, haffecting.position,
    haffecting.mass]

private theorem naivePull_congr (s : ABodySimulator K) {heap heap' : BodyHeap K} (body : BodyRef)
    (h : heap.SameButVelocity heap') : s.naivePull heap' body = s.naivePull heap body := by
  rw [naivePull, naivePull]
  exact congrArg List.sum (List.map_congr_left fun b _ ↦ s.pullOf_congr (h body) (h b))

/-- **The naive phase** changes the velocity of every body by its pull on the starting heap. -/
theorem simulateCompareAllParallel_objects (deltaTime : K) {s : ABodySimulator K}
    (hnodup : s.bodies.Nodup) : (s.simulateCompareAllParallel deltaTime).objects
      = s.objects.kick s.bodies fun b ↦ s.naivePull s.objects b * deltaTime := by
  have hloop : compareAll deltaTime s = fun heap b ↦
      heap.modify b (·.accelerate (s.naivePull heap b * deltaTime)) := by
    funext heap b
    exact compareAll_eq deltaTime s heap b
  rw [simulateCompareAllParallel, hloop]
  exact BodyHeap.foldl_accelerate (fun heap b ↦ s.naivePull heap b * deltaTime)
    (fun _ _ b h ↦ by rw [s.naivePull_congr b h]) hnodup s.objects

theorem velocity_simulateCompareAllParallel (deltaTime : K) {s : ABodySimulator K}
    (hnodup : s.bodies.Nodup) {b : BodyRef} (hb : b ∈ s.bodies) :
    ((s.simulateCompareAllParallel deltaTime).objects b).velocity
      = (s.objects b).velocity + s.naivePull s.objects b * deltaTime := by
  rw [simulateCompareAllParallel_objects deltaTime hnodup, BodyHeap.kick_of_mem hb,
    UBodyEntity.velocity_accelerate]

end ABodySimulator

end Attraction

end NBodySimulation
