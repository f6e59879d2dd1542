import NBodySimulation.Dynamics.Velocity

/-!
# The Barnes-Hut traversal

`CalculateForcesBarnesHut` decides what to do at a node from positions, masses and indices, and all
it ever writes is the velocity of the body it was called for. So its decisions are those it would
make on the starting heap, and they form a list, the `visits` of the traversal, that is a function
of that heap. The call appends the list to its log and changes the velocity of the body by the pulls
of the nodes applied.

## Main results

* `calculateForcesBarnesHut_eq`: what one call does.
* `simulateBarnesHut_objects`: what the Barnes-Hut phase does to the heap.
-/

namespace NBodySimulation

variable {K : Type*} [Field K] [LinearOrder K] [PythagoreanField K]

/-! ## The list of visits -/

/-- The acceleration of a body due to one entry of the log. -/
def Visit.pull (heap : BodyHeap K) (body : BodyRef) : Visit K → FVector2D K
  | .applied (.node self children) =>
    match UQuadTree.getCenterOfMass heap self children with
    | some center => attraction (heap body).g (heap body).minimumGravityDistance
        (heap body).position center (UQuadTree.getMass heap self children)
    | none => 0
  | _ => 0

namespace ABodySimulator

/-- The node is a leaf that holds the body itself, going by the index. -/
def isOwnLeaf (heap : BodyHeap K) (body : BodyRef) (self : UQuadTree.Fields K)
    (children : List (UQuadTree K)) : Bool :=
  (UQuadTree.leafBody self children).any fun other ↦ (heap other).index = (heap body).index

/-- The application at a leaf with a body. -/
def leafVisits (self : UQuadTree.Fields K) (children : List (UQuadTree K)) : List (Visit K) :=
  if (UQuadTree.leafBody self children).isSome then [.applied (.node self children)] else []

/-- The entries of a node that passes the far test. -/
def farVisits (heap : BodyHeap K) (self : UQuadTree.Fields K) (children : List (UQuadTree K)) :
    List (Visit K) :=
  .far (.node self children) ::
    if UQuadTree.getMass heap self children > 0 then [.applied (.node self children)] else []

mutual

/-- What `CalculateForcesBarnesHut` does at a node and beneath it, all decided on one heap. -/
def visits (theta : K) (heap : BodyHeap K) (body : BodyRef) : UQuadTree K → List (Visit K)
  | .nullptr => [.invoked .nullptr]
  | .node self children =>
    .invoked (.node self children) ::
      if isOwnLeaf heap body self children then []
      else leafVisits self children ++
        if UQuadTree.isEmpty self then []
        else if farTest theta heap body self children then farVisits heap self children
        else visitsOf theta heap body children

/-- The visits of the loop over the children. -/
def visitsOf (theta : K) (heap : BodyHeap K) (body : BodyRef) :
    List (UQuadTree K) → List (Visit K)
  | [] => []
  | child :: rest => visits theta heap body child ++ visitsOf theta heap body rest

end

theorem visitsOf_eq_flatMap (theta : K) (heap : BodyHeap K) (body : BodyRef)
    (children : List (UQuadTree K)) :
    visitsOf theta heap body children = children.flatMap (visits theta heap body) := by
  induction children with
  | nil => rw [visitsOf, List.flatMap_nil]
  | cons child rest ih => rw [visitsOf, ih, List.flatMap_cons]

/-- The acceleration of a body in the Barnes-Hut phase. -/
def treePull (theta : K) (heap : BodyHeap K) (body : BodyRef) (tree : UQuadTree K) : FVector2D K :=
  ((visits theta heap body tree).map (Visit.pull heap body)).sum

end ABodySimulator

/-! ## No decision reads a velocity -/

section Congr

variable {heap heap' : BodyHeap K} (h : heap.SameButVelocity heap') (self : UQuadTree.Fields K)
  (children : List (UQuadTree K))

include h

omit [LinearOrder K] [PythagoreanField K] in
theorem UQuadTree.getCenterOfMass_congr :
    getCenterOfMass heap' self children = getCenterOfMass heap self children := by
  rw [getCenterOfMass, getCenterOfMass]
  split
  · next b _ =>
    rw [UBodyEntity.getCenterOfMass, (h b).position, (h b).mass, UBodyEntity.getCenterOfMass]
  · rfl

omit [Field K] [LinearOrder K] [PythagoreanField K] in
theorem UQuadTree.getMass_congr : getMass heap' self children = getMass heap self children := by
  rw [getMass, getMass]
  split
  · next b _ => exact (h b).mass
  · rfl

private theorem Visit.pull_congr (body : BodyRef) (visit : Visit K) :
    visit.pull heap' body = visit.pull heap body := by
  unfold Visit.pull
  split
  · rw [UQuadTree.getCenterOfMass_congr h, UQuadTree.getMass_congr h, (h body).position, (h body).g,
      (h body).minimumGravityDistance]
  · rfl

namespace ABodySimulator

theorem farTest_congr (theta : K) (body : BodyRef) :
    farTest theta heap' body self children = farTest theta heap body self children := by
  rw [farTest, farTest, UQuadTree.getCenterOfMass_congr h, (h body).position]

omit [Field K] [LinearOrder K] [PythagoreanField K] in
private theorem isOwnLeaf_congr (body : BodyRef) :
    isOwnLeaf heap' body self children = isOwnLeaf heap body self children := by
  simp only [isOwnLeaf, (h body).index, (h _).index]

end ABodySimulator

end Congr

namespace ABodySimulator

mutual

private theorem visits_congr {heap heap' : BodyHeap K} (h : heap.SameButVelocity heap') (theta : K)
    (body : BodyRef) (tree : UQuadTree K) :
    visits theta heap' body tree = visits theta heap body tree := by
  match tree with
  | .nullptr => rw [visits, visits]
  | .node self children =>
    rw [visits, visits, isOwnLeaf_congr h, farTest_congr h, farVisits, farVisits,
      UQuadTree.getMass_congr h, visitsOf_congr h theta body children]

private theorem visitsOf_congr {heap heap' : BodyHeap K} (h : heap.SameButVelocity heap')
    (theta : K) (body : BodyRef) (children : List (UQuadTree K)) :
    visitsOf theta heap' body children = visitsOf theta heap body children := by
  match children with
  | [] => rw [visitsOf, visitsOf]
  | child :: rest =>
    rw [visitsOf, visitsOf, visits_congr h theta body child, visitsOf_congr h theta body rest]

end

private theorem treePull_congr {heap heap' : BodyHeap K} (h : heap.SameButVelocity heap')
    (theta : K) (body : BodyRef) (tree : UQuadTree K) :
    treePull theta heap' body tree = treePull theta heap body tree := by
  rw [treePull, treePull, visits_congr h]
  exact congrArg List.sum (List.map_congr_left fun visit _ ↦ Visit.pull_congr h body visit)

end ABodySimulator

/-! ## What a call does -/

namespace Traversal

/-- The traversal after a list of visits, all decided on its heap. -/
def after (body : BodyRef) (deltaTime : K) (run : Traversal K) (visits : List (Visit K)) :
    Traversal K where
  heap := run.heap.modify body
    (·.accelerate ((visits.map (Visit.pull run.heap body)).sum * deltaTime))
  log := run.log ++ visits

variable (body : BodyRef) (deltaTime : K) (run : Traversal K)

private theorem sameButVelocity_after (visits : List (Visit K)) :
    run.heap.SameButVelocity (run.after body deltaTime visits).heap :=
  run.heap.sameButVelocity_modify body _

@[simp] theorem after_nil : run.after body deltaTime [] = run := by
  rw [after, List.map_nil, List.sum_nil, FVector2D.zero_scale, List.append_nil]
  simp only [UBodyEntity.accelerate_zero, BodyHeap.modify, Function.update_eq_self]

private theorem after_after (visits visits' : List (Visit K)) :
    (run.after body deltaTime visits).after body deltaTime visits'
      = run.after body deltaTime (visits ++ visits') := by
  have hpull : visits'.map (Visit.pull (run.after body deltaTime visits).heap body)
      = visits'.map (Visit.pull run.heap body) :=
    List.map_congr_left fun visit _ ↦
      Visit.pull_congr (run.sameButVelocity_after body deltaTime visits) body visit
  rw [after, hpull, after, BodyHeap.modify_modify, after, List.map_append, List.sum_append,
    FVector2D.add_scale, List.append_assoc]
  simp only [UBodyEntity.accelerate_accelerate]

private theorem after_cons (visit : Visit K) (visits : List (Visit K)) :
    run.after body deltaTime (visit :: visits)
      = (run.after body deltaTime [visit]).after body deltaTime visits :=
  (run.after_after body deltaTime [visit] visits).symm

private theorem record_eq_after {visit : Visit K} (h : visit.pull run.heap body = 0) :
    run.record visit = run.after body deltaTime [visit] := by
  rw [after, List.map_singleton, List.sum_singleton, h, FVector2D.zero_scale, record]
  simp only [UBodyEntity.accelerate_zero, BodyHeap.modify, Function.update_eq_self]

/-- An application, which is only made where the centre of the node is defined. -/
theorem apply_eq_after {self : UQuadTree.Fields K} {children : List (UQuadTree K)}
    (h : (UQuadTree.getCenterOfMass run.heap self children).isSome = true) :
    run.apply body deltaTime self children
      = run.after body deltaTime [.applied (.node self children)] := by
  obtain ⟨center, hcenter⟩ := Option.isSome_iff_exists.mp h
  rw [apply, hcenter, after, List.map_singleton, List.sum_singleton, Visit.pull, hcenter]
  simp only [UBodyEntity.tryToApplyExternalForce_eq, BodyHeap.modify]

end Traversal

namespace ABodySimulator

omit [LinearOrder K] [PythagoreanField K] in
private theorem isSome_getCenterOfMass_of_leafBody {heap : BodyHeap K} {self : UQuadTree.Fields K}
    {children : List (UQuadTree K)} (h : (UQuadTree.leafBody self children).isSome = true) :
    (UQuadTree.getCenterOfMass heap self children).isSome = true := by
  obtain ⟨b, hb⟩ := Option.isSome_iff_exists.mp h
  rw [UQuadTree.getCenterOfMass, hb]
  rfl

theorem isSome_getCenterOfMass_of_farTest {theta : K} {heap : BodyHeap K} {body : BodyRef}
    {self : UQuadTree.Fields K} {children : List (UQuadTree K)}
    (h : farTest theta heap body self children = true) :
    (UQuadTree.getCenterOfMass heap self children).isSome = true := by
  rw [farTest] at h
  cases hcenter : UQuadTree.getCenterOfMass heap self children with
  | none => simp [hcenter] at h
  | some center => rfl

variable (theta : K) (body : BodyRef) (deltaTime : K) (self : UQuadTree.Fields K)
  (children : List (UQuadTree K)) (run : Traversal K)

/-- The first branch: a leaf with a body is applied. -/
theorem applyLeaf_eq : (if (UQuadTree.leafBody self children).isSome
      then run.apply body deltaTime self children else run)
    = run.after body deltaTime (leafVisits self children) := by
  rw [leafVisits]
  by_cases hsome : (UQuadTree.leafBody self children).isSome = true
  · rw [if_pos hsome, if_pos hsome]
    exact run.apply_eq_after body deltaTime (isSome_getCenterOfMass_of_leafBody hsome)
  · rw [if_neg hsome, if_neg hsome, Traversal.after_nil]

/-- The far branch: a node that passes the far test is applied when it has mass. -/
theorem applyFar_eq (hfar : farTest theta run.heap body self children = true) :
    (let run := run.record (.far (.node self children))
      if UQuadTree.getMass run.heap self children > 0 then run.apply body deltaTime self children
      else run)
    = run.after body deltaTime (farVisits run.heap self children) := by
  have hsame := run.sameButVelocity_after body deltaTime [.far (.node self children)]
  rw [farVisits, Traversal.after_cons, run.record_eq_after body deltaTime rfl,
    ← UQuadTree.getMass_congr hsame]
  rw [← farTest_congr hsame] at hfar
  generalize run.after body deltaTime [.far (.node self children)] = run at hfar
  show (if UQuadTree.getMass run.heap self children > 0 then _ else _) = _
  by_cases hmass : UQuadTree.getMass run.heap self children > 0
  · rw [if_pos hmass, if_pos hmass]
    exact run.apply_eq_after body deltaTime (isSome_getCenterOfMass_of_farTest hfar)
  · rw [if_neg hmass, if_neg hmass, Traversal.after_nil]

mutual

/-- **What one call does**: it visits the tree, and changes the velocity of its body by the
pulls. -/
theorem calculateForcesBarnesHut_eq (tree : UQuadTree K) (run : Traversal K) :
    calculateForcesBarnesHut theta body deltaTime tree run
      = run.after body deltaTime (visits theta run.heap body tree) := by
  match tree with
  | .nullptr =>
    rw [calculateForcesBarnesHut, visits]
    exact run.record_eq_after body deltaTime rfl
  | .node self children =>
    -- the later branches see the heap that the earlier ones leave, on which they decide the same
    have hsame := run.sameButVelocity_after body deltaTime [.invoked (.node self children)]
    rw [visits, Traversal.after_cons, calculateForcesBarnesHut,
      run.record_eq_after body deltaTime rfl, ← isOwnLeaf_congr hsame, ← farTest_congr hsame,
      farVisits, ← UQuadTree.getMass_congr hsame, ← visitsOf_congr hsame, ← farVisits]
    generalize run.after body deltaTime [.invoked (.node self children)] = run
    show (if isOwnLeaf run.heap body self children then run else _) = _
    by_cases hown : isOwnLeaf run.heap body self children = true
    · rw [if_pos hown, if_pos hown, Traversal.after_nil]
    · have hsame := run.sameButVelocity_after body deltaTime (leafVisits self children)
      rw [if_neg hown, if_neg hown, ← Traversal.after_after, applyLeaf_eq,
        ← farTest_congr hsame, farVisits, ← UQuadTree.getMass_congr hsame,
        ← visitsOf_congr hsame, ← farVisits]
      generalize run.after body deltaTime (leafVisits self children) = run
      by_cases hempty : UQuadTree.isEmpty self = true
      · rw [if_pos hempty, if_pos hempty, Traversal.after_nil]
      · rw [if_neg hempty, if_neg hempty]
        by_cases hfar : farTest theta run.heap body self children = true
        · rw [if_pos hfar, if_pos hfar]
          exact applyFar_eq theta body deltaTime self children run hfar
        · rw [if_neg hfar, if_neg hfar]
          exact calculateForcesChildren_eq children run

theorem calculateForcesChildren_eq (children : List (UQuadTree K)) (run : Traversal K) :
    calculateForcesChildren theta body deltaTime children run
      = run.after body deltaTime (visitsOf theta run.heap body children) := by
  match children with
  | [] => rw [calculateForcesChildren, visitsOf, Traversal.after_nil]
  | child :: rest =>
    have hsame := run.sameButVelocity_after body deltaTime (visits theta run.heap body child)
    rw [calculateForcesChildren, calculateForcesBarnesHut_eq child run,
      calculateForcesChildren_eq rest, visitsOf_congr hsame, Traversal.after_after, visitsOf]

end

/-- **The Barnes-Hut phase** changes the velocity of every body by its pull on the starting heap. -/
theorem simulateBarnesHut_objects (deltaTime : K) {s : ABodySimulator K}
    (hnodup : s.bodies.Nodup) : (s.simulateBarnesHut deltaTime).objects
      = s.objects.kick s.bodies fun b ↦ treePull s.theta s.objects b s.quadTree * deltaTime := by
  have hloop : (fun (heap : BodyHeap K) body ↦
        (calculateForcesBarnesHut s.theta body deltaTime s.quadTree ⟨heap, []⟩).heap)
      = fun heap body ↦
        heap.modify body (·.accelerate (treePull s.theta heap body s.quadTree * deltaTime)) := by
    funext heap body
    rw [calculateForcesBarnesHut_eq]
    rfl
  rw [simulateBarnesHut, hloop]
  exact BodyHeap.foldl_accelerate
    (fun heap b ↦ treePull s.theta heap b s.quadTree * deltaTime)
    (fun _ _ b h ↦ by rw [treePull_congr h]) hnodup s.objects

theorem velocity_simulateBarnesHut (deltaTime : K) {s : ABodySimulator K} (hnodup : s.bodies.Nodup)
    {b : BodyRef} (hb : b ∈ s.bodies) : ((s.simulateBarnesHut deltaTime).objects b).velocity
      = (s.objects b).velocity + treePull s.theta s.objects b s.quadTree * deltaTime := by
  rw [simulateBarnesHut_objects deltaTime hnodup, BodyHeap.kick_of_mem hb,
    UBodyEntity.velocity_accelerate]

end ABodySimulator

end NBodySimulation
