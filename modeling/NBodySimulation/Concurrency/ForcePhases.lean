import NBodySimulation.Concurrency.Interleaving
import NBodySimulation.Forces.Traversal
import NBodySimulation.Quadtree.Termination

/-!
# The force phases under every schedule

Both force phases are `ParallelFor` loops with one task for each index of `Bodies`. The store that
the tasks share is the simulator itself, with its bodies and its tree. A task of the naive phase
reads one body after the other and writes one velocity at the end. A task of the Barnes-Hut phase
goes through the tree by pointers, which are paths from the root here, with a stack for the calls
that are still open, and updates the velocity of its own body in place at every application.

In both phases a task writes nothing but the velocity of its own body, and no task reads the
velocity of another body. So steps of different tasks commute.

## Main results

* `forcePhases_determinate`: every schedule of either phase ends in the state of the sequential run.
-/

namespace NBodySimulation

open Concurrency Relation

variable {K : Type*} [Field K]

namespace ABodySimulator

/-! ## Tasks that write one velocity each -/

/-- The simulator with the velocity of one body changed. -/
def accelerateBody (s : ABodySimulator K) (b : BodyRef) (change : FVector2D K) : ABodySimulator K :=
  { s with objects := s.objects.modify b (·.accelerate change) }

/-- The state `s'` differs from `s` in velocities only: not in the position, mass or index of any
body, not in a node of the tree and not in another field. -/
def SameButVelocities (s s' : ABodySimulator K) : Prop :=
  s' = { s with objects := s'.objects } ∧ s.objects.SameButVelocity s'.objects

private theorem SameButVelocities.accelerateBody {s s' : ABodySimulator K}
    (h : s.SameButVelocities s')
    (b : BodyRef) (change : FVector2D K) : s.SameButVelocities (s'.accelerateBody b change) := by
  refine ⟨?_, h.2.trans (s'.objects.sameButVelocity_modify b change)⟩
  rw [ABodySimulator.accelerateBody, h.1]

/-- Each task writes the velocity of its own body only, and does not read the velocity of any other
body. -/
structure OwnVelocityOnly {ι L : Type*} (step : Tasks ι L (ABodySimulator K)) (body : ι → BodyRef) :
    Prop where
  writes : ∀ {i l s l' s'}, step i l s = some (l', s') →
    ∃ change, s' = s.accelerateBody (body i) change
  reads : ∀ i l s b change, b ≠ body i → step i l (s.accelerateBody b change)
    = (step i l s).map fun r ↦ (r.1, r.2.accelerateBody b change)

namespace OwnVelocityOnly

variable {ι L : Type*} {step : Tasks ι L (ABodySimulator K)} {body : ι → BodyRef}

private theorem independent (h : OwnVelocityOnly step body) (hbody : body.Injective) :
    Independent step := by
  intro i j hij l m s l' m' s₁ s₂ hi hj
  obtain ⟨x, rfl⟩ := h.writes hi
  obtain ⟨y, rfl⟩ := h.writes hj
  have hne : body i ≠ body j := fun hb ↦ hij (hbody hb)
  refine ⟨(s.accelerateBody (body j) y).accelerateBody (body i) x, ?_, ?_⟩
  · rw [h.reads j m s _ x hne, hj]
    rfl
  · have hswap : (s.accelerateBody (body i) x).accelerateBody (body j) y
        = (s.accelerateBody (body j) y).accelerateBody (body i) x := by
      simp only [accelerateBody, BodyHeap.modify_comm s.objects hne]
    rw [h.reads i l s _ y hne.symm, hi, ← hswap]
    rfl

/-- At every moment of every schedule only velocities have changed. -/
theorem sameButVelocities [DecidableEq ι] (h : OwnVelocityOnly step body) {schedule : List ι}
    {c c' : Config ι L (ABodySimulator K)} (hrun : Interleaving step schedule c c') :
    c.store.SameButVelocities c'.store := by
  refine hrun.preserves (fun i l s l' s' hstep hs ↦ ?_) ⟨rfl, BodyHeap.SameButVelocity.refl _⟩
  obtain ⟨change, rfl⟩ := h.writes hstep
  exact hs.accelerateBody _ change

end OwnVelocityOnly

private theorem accelerateBody_zero (s : ABodySimulator K) (b : BodyRef) :
    s.accelerateBody b 0 = s := by
  simp only [accelerateBody, UBodyEntity.accelerate_zero, BodyHeap.modify, Function.update_eq_self]

variable [LinearOrder K] [PythagoreanField K]

/-! ## The tasks of the naive phase -/

/-- Where a task of `SimulateCompareAllParallel` is: in its loop, with `Acceleration` and the
position of the iterator, or at its end. -/
inductive CompareTask (K : Type*)
  | looping (acceleration : FVector2D K) (next : ℕ)
  | finished

/-- One step of the task of `body`: a turn of its loop, or the write that follows the loop. -/
def compareStep (deltaTime : K) (body : BodyRef) :
    CompareTask K → ABodySimulator K → Option (CompareTask K × ABodySimulator K)
  | .looping acceleration next, s =>
    match s.bodies[next]? with
    | some affecting =>
      some (.looping
        (s.addAcceleration (s.objects body) acceleration (s.objects affecting)) (next + 1), s)
    | none =>
      some (.finished, { s with
        objects := s.objects.modify body fun b ↦
          { b with velocity := b.velocity + acceleration * deltaTime } })
  | .finished, _ => none

/-! ## The tasks of the Barnes-Hut phase -/

/-- What a task of `SimulateBarnesHut` has still to do. -/
inductive Work (K : Type*)
  /-- Call `CalculateForcesBarnesHut` on the node. -/
  | visit (path : List ℕ)
  /-- Call `TryToApplyExternalForce` with these arguments. -/
  | force (center : FVector2D K) (mass : K)
  /-- Go on with a call, after its leaf branch. -/
  | measure (path : List ℕ)

/-- The call of `TryToApplyExternalForce`, its arguments evaluated. -/
def forceWork (heap : BodyHeap K) (self : UQuadTree.Fields K) (children : List (UQuadTree K)) :
    List (Work K) :=
  match UQuadTree.getCenterOfMass heap self children with
  | some center => [.force center (UQuadTree.getMass heap self children)]
  | none => []

/-- A call of `CalculateForcesBarnesHut`, up to the end of its leaf branch. -/
def visitNode (s : ABodySimulator K) (body : BodyRef) (path : List ℕ) : List (Work K) :=
  match s.quadTree.nodeAt path with
  | .nullptr => []
  | .node self children =>
    let occupant := UQuadTree.leafBody self children
    if occupant.any fun other ↦ (s.objects other).index = (s.objects body).index then
      []
    else
      (if occupant.isSome then forceWork s.objects self children else []) ++ [.measure path]

/-- The rest of the call: the tests, and either one application or the calls on the children. -/
def measureNode (s : ABodySimulator K) (body : BodyRef) (path : List ℕ) : List (Work K) :=
  match s.quadTree.nodeAt path with
  | .nullptr => []
  | .node self children =>
    if UQuadTree.isEmpty self then
      []
    else if farTest s.theta s.objects body self children then
      if UQuadTree.getMass s.objects self children > 0 then
        forceWork s.objects self children
      else
        []
    else
      (List.range children.length).map fun i ↦ .visit (path ++ [i])

/-- One step of the task of `body`. -/
def barnesHutStep (deltaTime : K) (body : BodyRef) :
    List (Work K) → ABodySimulator K → Option (List (Work K) × ABodySimulator K)
  | [], _ => none
  | .visit path :: rest, s => some (visitNode s body path ++ rest, s)
  | .measure path :: rest, s => some (measureNode s body path ++ rest, s)
  | .force center mass :: rest, s =>
    some (rest, { s with
      objects := s.objects.modify body (·.tryToApplyExternalForce center mass deltaTime) })

/-! ## What the tasks read -/

section Reads

variable {s s' : ABodySimulator K} (h : s.SameButVelocities s')

include h

omit [LinearOrder K] [PythagoreanField K] in
private theorem forceWork_congr (self : UQuadTree.Fields K) (children : List (UQuadTree K)) :
    forceWork s'.objects self children = forceWork s.objects self children := by
  rw [forceWork, forceWork, UQuadTree.getCenterOfMass_congr h.2, UQuadTree.getMass_congr h.2]

omit [LinearOrder K] [PythagoreanField K] in
private theorem visitNode_congr (body : BodyRef) (path : List ℕ) :
    visitNode s' body path = visitNode s body path := by
  have htree : s'.quadTree = s.quadTree := by rw [h.1]
  rw [visitNode, visitNode, htree]
  cases s.quadTree.nodeAt path with
  | nullptr => rfl
  | node self children =>
    simp only [forceWork_congr h, (h.2 body).index, (h.2 _).index]

private theorem measureNode_congr (body : BodyRef) (path : List ℕ) :
    measureNode s' body path = measureNode s body path := by
  have htree : s'.quadTree = s.quadTree := by rw [h.1]
  have htheta : s'.theta = s.theta := by rw [h.1]
  rw [measureNode, measureNode, htree, htheta]
  cases s.quadTree.nodeAt path with
  | nullptr => rfl
  | node self children =>
    simp only [forceWork_congr h, farTest_congr h.2, UQuadTree.getMass_congr h.2]

end Reads

section Tasks

variable {ι : Type*} (deltaTime : K) (body : ι → BodyRef)

private theorem ownVelocityOnly_compareStep :
    OwnVelocityOnly (fun i ↦ compareStep deltaTime (body i)) body where
  writes {i l s l' s'} hstep := by
    cases l with
    | finished => exact absurd hstep (by simp [compareStep])
    | looping acceleration next =>
      rw [compareStep] at hstep
      cases hnext : s.bodies[next]? with
      | some affecting =>
        rw [hnext] at hstep
        obtain ⟨_, rfl⟩ := Prod.mk.inj (Option.some.inj hstep)
        exact ⟨0, (s.accelerateBody_zero _).symm⟩
      | none =>
        rw [hnext] at hstep
        obtain ⟨_, rfl⟩ := Prod.mk.inj (Option.some.inj hstep)
        exact ⟨acceleration * deltaTime, rfl⟩
  reads i l s b change hb := by
    have hsame := s.objects.sameButVelocity_modify b change
    cases l with
    | finished => rfl
    | looping acceleration next =>
      have hbodies : (s.accelerateBody b change).bodies = s.bodies := rfl
      rw [compareStep, compareStep, hbodies]
      cases s.bodies[next]? with
      | some affecting =>
        have hadd : (s.accelerateBody b change).addAcceleration
              ((s.accelerateBody b change).objects (body i)) acceleration
              ((s.accelerateBody b change).objects affecting)
            = s.addAcceleration (s.objects (body i)) acceleration (s.objects affecting) := by
          rw [addAcceleration_eq, addAcceleration_eq]
          exact congrArg _ (s.pullOf_congr (hsame (body i)) (hsame affecting))
        simp only [hadd, Option.map_some]
      | none =>
        simp only [accelerateBody, Option.map_some, BodyHeap.modify_comm s.objects hb]

private theorem ownVelocityOnly_barnesHutStep :
    OwnVelocityOnly (fun i ↦ barnesHutStep deltaTime (body i)) body where
  writes {i l s l' s'} hstep := by
    rcases l with _ | ⟨work, rest⟩
    · exact absurd hstep (by simp [barnesHutStep])
    · cases work with
      | visit path =>
        obtain ⟨_, rfl⟩ := Prod.mk.inj (Option.some.inj hstep)
        exact ⟨0, (s.accelerateBody_zero _).symm⟩
      | measure path =>
        obtain ⟨_, rfl⟩ := Prod.mk.inj (Option.some.inj hstep)
        exact ⟨0, (s.accelerateBody_zero _).symm⟩
      | force center mass =>
        obtain ⟨_, rfl⟩ := Prod.mk.inj (Option.some.inj hstep)
        refine ⟨attraction (s.objects (body i)).g (s.objects (body i)).minimumGravityDistance
          (s.objects (body i)).position center mass * deltaTime, ?_⟩
        rw [accelerateBody, BodyHeap.modify, BodyHeap.modify,
          UBodyEntity.tryToApplyExternalForce_eq]
  reads i l s b change hb := by
    have hsame : s.SameButVelocities (s.accelerateBody b change) :=
      SameButVelocities.accelerateBody ⟨rfl, BodyHeap.SameButVelocity.refl _⟩ b change
    rcases l with _ | ⟨work, rest⟩
    · rfl
    · cases work with
      | visit path =>
        rw [barnesHutStep, barnesHutStep, visitNode_congr hsame, Option.map_some]
      | measure path =>
        rw [barnesHutStep, barnesHutStep, measureNode_congr hsame, Option.map_some]
      | force center mass =>
        simp only [barnesHutStep, accelerateBody, Option.map_some,
          BodyHeap.modify_comm s.objects hb]

/-! ## One task alone -/

variable {deltaTime body} {s : ABodySimulator K} (i : ι)

def withObjects (s : ABodySimulator K) (heap : BodyHeap K) : ABodySimulator K :=
  { s with objects := heap }

/-- The loop of a task, from the position `next` of its iterator on. -/
theorem compareStep_loop {remaining : List BodyRef} {next : ℕ} (h : s.bodies.drop next = remaining)
    (acceleration : FVector2D K) :
    ReflTransGen (TaskStep (fun i ↦ compareStep deltaTime (body i)) i)
      (.looping acceleration next, s)
      (.finished, s.withObjects (s.objects.modify (body i) fun b ↦
        { b with velocity := b.velocity + remaining.foldl (fun acceleration affecting ↦
          s.addAcceleration (s.objects (body i)) acceleration (s.objects affecting)) acceleration
            * deltaTime })) := by
  induction remaining generalizing next acceleration with
  | nil =>
    have hnext : s.bodies[next]? = none :=
      List.getElem?_eq_none (List.drop_eq_nil_iff.mp h)
    refine ReflTransGen.single ?_
    rw [TaskStep, compareStep, hnext]
    rfl
  | cons affecting remaining ih =>
    have hnext : s.bodies[next]? = some affecting := by
      rw [← List.head?_drop, h, List.head?_cons]
    have hrest : s.bodies.drop (next + 1) = remaining := by
      rw [← List.tail_drop, h, List.tail_cons]
    refine ReflTransGen.head ?_ (ih hrest _)
    rw [TaskStep, compareStep, hnext]

/-- A task of the naive phase, run alone, does what one turn of the sequential loop does. -/
theorem compareStep_run (s : ABodySimulator K) :
    ReflTransGen (TaskStep (fun i ↦ compareStep deltaTime (body i)) i) (.looping 0 0, s)
      (.finished, s.withObjects (compareAll deltaTime s s.objects (body i))) :=
  compareStep_loop i List.drop_zero 0

private theorem forceWork_run (self : UQuadTree.Fields K) (children : List (UQuadTree K))
    (run : Traversal K) (rest : List (Work K)) :
    ReflTransGen (TaskStep (fun i ↦ barnesHutStep deltaTime (body i)) i)
      (forceWork run.heap self children ++ rest, s.withObjects run.heap)
      (rest, s.withObjects (run.apply (body i) deltaTime self children).heap) := by
  rw [forceWork, Traversal.apply]
  cases UQuadTree.getCenterOfMass run.heap self children with
  | none => exact ReflTransGen.refl
  | some center => exact ReflTransGen.single rfl

private theorem measure_run {self : UQuadTree.Fields K} {children : List (UQuadTree K)}
    {path : List ℕ} (h : s.quadTree.nodeAt path = .node self children) (rest : List (Work K))
    (hchildren : ∀ run : Traversal K,
      ReflTransGen (TaskStep (fun i ↦ barnesHutStep deltaTime (body i)) i)
        ((List.range children.length).map (fun j ↦ Work.visit (path ++ [j])) ++ rest,
          s.withObjects run.heap)
        (rest, s.withObjects
          (calculateForcesChildren s.theta (body i) deltaTime children run).heap))
    (run : Traversal K) :
    ReflTransGen (TaskStep (fun i ↦ barnesHutStep deltaTime (body i)) i)
      (.measure path :: rest, s.withObjects run.heap)
      (rest, s.withObjects
        (if UQuadTree.isEmpty self then run
        else if farTest s.theta run.heap (body i) self children then
          if UQuadTree.getMass run.heap self children > 0 then
            (run.record (.far (.node self children))).apply (body i) deltaTime self children
          else run.record (.far (.node self children))
        else calculateForcesChildren s.theta (body i) deltaTime children run).heap) := by
  have hnode : (s.withObjects run.heap).quadTree.nodeAt path = .node self children := h
  have htheta : (s.withObjects run.heap).theta = s.theta := rfl
  have hobjects : (s.withObjects run.heap).objects = run.heap := rfl
  have hstep : TaskStep (fun i ↦ barnesHutStep deltaTime (body i)) i
      (.measure path :: rest, s.withObjects run.heap)
      (measureNode (s.withObjects run.heap) (body i) path ++ rest, s.withObjects run.heap) := rfl
  refine ReflTransGen.head hstep ?_
  rw [measureNode, hnode, htheta, hobjects]
  by_cases hempty : UQuadTree.isEmpty self = true
  · simp only [hempty, if_true]
    exact ReflTransGen.refl
  · by_cases hfar : farTest s.theta run.heap (body i) self children = true
    · by_cases hmass : UQuadTree.getMass run.heap self children > 0
      · simp only [hempty, hfar, hmass, if_true, if_false, Bool.false_eq_true]
        exact forceWork_run i self children (run.record (.far (.node self children))) rest
      · simp only [hempty, hfar, hmass, if_true, if_false, Bool.false_eq_true]
        exact ReflTransGen.refl
    · simp only [hempty, hfar, if_false, Bool.false_eq_true]
      exact hchildren run

mutual

/-- A call of `CalculateForcesBarnesHut`, stepped through, does what the recursive function does. -/
theorem visit_run (tree : UQuadTree K) (run : Traversal K) (path : List ℕ) (rest : List (Work K))
    (h : s.quadTree.nodeAt path = tree) :
    ReflTransGen (TaskStep (fun i ↦ barnesHutStep deltaTime (body i)) i)
      (.visit path :: rest, s.withObjects run.heap)
      (rest, s.withObjects
        (calculateForcesBarnesHut s.theta (body i) deltaTime tree run).heap) := by
  match tree with
  | .nullptr =>
    refine ReflTransGen.single ?_
    have hnode : (s.withObjects run.heap).quadTree.nodeAt path = .nullptr := h
    rw [TaskStep, barnesHutStep, visitNode, hnode, calculateForcesBarnesHut]
    rfl
  | .node self children =>
    have hnode : (s.withObjects run.heap).quadTree.nodeAt path = .node self children := h
    have hobjects : (s.withObjects run.heap).objects = run.heap := rfl
    have hstep : TaskStep (fun i ↦ barnesHutStep deltaTime (body i)) i
        (.visit path :: rest, s.withObjects run.heap)
        (visitNode (s.withObjects run.heap) (body i) path ++ rest, s.withObjects run.heap) := rfl
    refine ReflTransGen.head hstep ?_
    rw [visitNode, hnode, hobjects, calculateForcesBarnesHut]
    -- the log entry does not touch the heap
    generalize hrun : run.record (.invoked (.node self children)) = recorded
    have hheap : run.heap = recorded.heap := by rw [← hrun, Traversal.record]
    rw [hheap]
    have hmeasure := measure_run i h rest fun run ↦ by
      rw [List.range_eq_range']
      refine visit_run_children children run path 0 rest fun j ↦ ?_
      rw [UQuadTree.nodeAt_append, h, UQuadTree.nodeAt, UQuadTree.nodeAt_nil, Nat.zero_add]
    by_cases hown : (UQuadTree.leafBody self children).any
        (fun other ↦ (recorded.heap other).index = (recorded.heap (body i)).index) = true
    · simp only [hown, if_true]
      exact ReflTransGen.refl
    · by_cases hsome : (UQuadTree.leafBody self children).isSome = true
      · simp only [hown, hsome, if_true, if_false, Bool.false_eq_true, List.append_assoc]
        exact (forceWork_run i self children recorded _).trans (hmeasure _)
      · simp only [hown, hsome, if_false, Bool.false_eq_true]
        exact hmeasure recorded

theorem visit_run_children (children : List (UQuadTree K)) (run : Traversal K) (path : List ℕ)
    (next : ℕ) (rest : List (Work K))
    (h : ∀ j, s.quadTree.nodeAt (path ++ [next + j]) = children.getD j .nullptr) :
    ReflTransGen (TaskStep (fun i ↦ barnesHutStep deltaTime (body i)) i)
      (((List.range' next children.length).map fun i ↦ Work.visit (path ++ [i])) ++ rest,
        s.withObjects run.heap)
      (rest, s.withObjects
        (calculateForcesChildren s.theta (body i) deltaTime children run).heap) := by
  match children with
  | [] =>
    rw [calculateForcesChildren]
    exact ReflTransGen.refl
  | child :: children =>
    rw [calculateForcesChildren, List.length_cons, List.range'_succ, List.map_cons,
      List.cons_append]
    refine (visit_run child run (path ++ [next]) _ (h 0)).trans ?_
    refine visit_run_children children _ path (next + 1) rest fun j ↦ ?_
    rw [Nat.add_right_comm]
    exact h (j + 1)

end

/-- A task of the Barnes-Hut phase, run alone, does what one turn of the sequential loop does. -/
theorem barnesHutStep_run (s : ABodySimulator K) :
    ReflTransGen (TaskStep (fun i ↦ barnesHutStep deltaTime (body i)) i) ([.visit []], s)
      ([], s.withObjects (calculateForcesBarnesHut s.theta (body i) deltaTime s.quadTree
        ⟨s.objects, []⟩).heap) :=
  visit_run i s.quadTree ⟨s.objects, []⟩ [] [] (UQuadTree.nodeAt_nil _)

end Tasks

/-! ## The phases -/

/-- The tasks of `SimulateCompareAllParallel`, one for each index of `Bodies`. -/
def compareTasks (deltaTime : K) (bodies : List BodyRef) :
    Tasks (Fin bodies.length) (CompareTask K) (ABodySimulator K) :=
  fun index ↦ compareStep deltaTime (bodies.get index)

/-- The tasks of `SimulateBarnesHut`, one for each index of `Bodies`. -/
def barnesHutTasks (deltaTime : K) (bodies : List BodyRef) :
    Tasks (Fin bodies.length) (List (Work K)) (ABodySimulator K) :=
  fun index ↦ barnesHutStep deltaTime (bodies.get index)

def compareStart (s : ABodySimulator K) :
    Config (Fin s.bodies.length) (CompareTask K) (ABodySimulator K) :=
  ⟨fun _ ↦ .looping 0 0, s⟩

/-- The start of `SimulateBarnesHut`: every task is about to visit the root. -/
def barnesHutStart (s : ABodySimulator K) :
    Config (Fin s.bodies.length) (List (Work K)) (ABodySimulator K) :=
  ⟨fun _ ↦ [.visit []], s⟩

omit [Field K] [LinearOrder K] [PythagoreanField K] in
/-- A loop over the indices of `Bodies` that replaces the heap, when it depends on nothing else that
changes. -/
theorem foldl_withObjects (f : ABodySimulator K → BodyHeap K → BodyRef → BodyHeap K)
    (hf : ∀ s heap, f (s.withObjects heap) = f s) (s : ABodySimulator K) (bodies : List BodyRef) :
    (List.finRange bodies.length).foldl
        (fun s index ↦ s.withObjects (f s s.objects (bodies.get index))) s
      = s.withObjects (bodies.foldl (f s) s.objects) := by
  have hbodies : ∀ (l : List BodyRef) (heap : BodyHeap K),
      l.foldl (fun s b ↦ s.withObjects (f s s.objects b)) (s.withObjects heap)
        = s.withObjects (l.foldl (f s) heap) := by
    intro l
    induction l with
    | nil => exact fun heap ↦ rfl
    | cons b l ih =>
      intro heap
      rw [List.foldl_cons, List.foldl_cons, hf]
      exact ih _
  calc (List.finRange bodies.length).foldl
        (fun s index ↦ s.withObjects (f s s.objects (bodies.get index))) s
      = bodies.foldl (fun s b ↦ s.withObjects (f s s.objects b)) s := by
        conv_rhs => rw [← List.map_get_finRange bodies, List.foldl_map]
    _ = s.withObjects (bodies.foldl (f s) s.objects) := hbodies bodies s.objects

section Phases

variable {s : ABodySimulator K} (hnodup : s.bodies.Nodup) (deltaTime : K)

include hnodup

theorem compareTasks_determinate : Determinate (compareTasks deltaTime s.bodies) (compareStart s)
    (s.simulateCompareAllParallel deltaTime) := by
  have hind : Independent (compareTasks deltaTime s.bodies) :=
    (ownVelocityOnly_compareStep deltaTime s.bodies.get).independent
      (List.nodup_iff_injective_get.mp hnodup)
  have hrun : ∀ i s', ReflTransGen (TaskStep (compareTasks deltaTime s.bodies) i)
      (.looping 0 0, s')
      (.finished, s'.withObjects (compareAll deltaTime s' s'.objects (s.bodies.get i))) :=
    fun i s ↦ compareStep_run i s
  have hsequential := hind.determinate_foldl hrun (fun _ _ ↦ rfl) (List.nodup_finRange _)
    List.mem_finRange s
  rw [foldl_withObjects (compareAll deltaTime) (fun _ _ ↦ rfl)] at hsequential
  exact hsequential

theorem barnesHutTasks_determinate : Determinate (barnesHutTasks deltaTime s.bodies)
    (barnesHutStart s) (s.simulateBarnesHut deltaTime) := by
  have hind : Independent (barnesHutTasks deltaTime s.bodies) :=
    (ownVelocityOnly_barnesHutStep deltaTime s.bodies.get).independent
      (List.nodup_iff_injective_get.mp hnodup)
  have hrun : ∀ i s', ReflTransGen (TaskStep (barnesHutTasks deltaTime s.bodies) i)
      ([.visit []], s')
      ([], s'.withObjects (calculateForcesBarnesHut s'.theta (s.bodies.get i) deltaTime s'.quadTree
        ⟨s'.objects, []⟩).heap) := fun i s ↦ barnesHutStep_run i s
  have hsequential := hind.determinate_foldl hrun (fun _ _ ↦ rfl) (List.nodup_finRange _)
    List.mem_finRange s
  rw [foldl_withObjects (fun s heap b ↦ (calculateForcesBarnesHut s.theta b deltaTime s.quadTree
    ⟨heap, []⟩).heap) (fun _ _ ↦ rfl)] at hsequential
  exact hsequential

/-- **Every schedule of a force phase ends in the same state**, that of the loop in index order, and
at no moment of it anything but velocities has changed. -/
theorem forcePhases_determinate :
    (Determinate (compareTasks deltaTime s.bodies) (compareStart s)
        (s.simulateCompareAllParallel deltaTime) ∧
      ∀ schedule c, Interleaving (compareTasks deltaTime s.bodies) schedule (compareStart s) c →
        s.SameButVelocities c.store) ∧
    (Determinate (barnesHutTasks deltaTime s.bodies) (barnesHutStart s)
        (s.simulateBarnesHut deltaTime) ∧
      ∀ schedule c, Interleaving (barnesHutTasks deltaTime s.bodies) schedule (barnesHutStart s) c →
        s.SameButVelocities c.store) := by
  refine ⟨⟨compareTasks_determinate hnodup deltaTime, fun schedule c h ↦ ?_⟩,
    barnesHutTasks_determinate hnodup deltaTime, fun schedule c h ↦ ?_⟩
  · exact (ownVelocityOnly_compareStep deltaTime s.bodies.get).sameButVelocities h
  · exact (ownVelocityOnly_barnesHutStep deltaTime s.bodies.get).sameButVelocities h

end Phases

/-- Both phases of a scene, the tree of which has been built. -/
theorem forcePhases_determinate_twoBodyScene :
    ∃ fuel s, twoBodyScene.constructTree fuel = .ok s ∧ s.bodies.Nodup ∧
      Determinate (compareTasks 1 s.bodies) (compareStart s) (s.simulateCompareAllParallel 1) ∧
      Determinate (barnesHutTasks 1 s.bodies) (barnesHutStart s) (s.simulateBarnesHut 1) := by
  have hnodup : twoBodyScene.bodies.Nodup := twoBodyScene_wellIndexed.nodup_bodies
  obtain ⟨fuel, s, h⟩ := exists_constructTree hnodup places_ne_twoBodyScene
  obtain ⟨t, _, rfl⟩ := constructTree_spec h
  have hphases := forcePhases_determinate (s := twoBodyScene.withTree t) hnodup 1
  exact ⟨fuel, _, h, hnodup, hphases.1.1, hphases.2.1⟩

end ABodySimulator

end NBodySimulation
