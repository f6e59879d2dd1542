import NBodySimulation.Objects.QuadTree

/-!
# The simulator actor

`ABodySimulator`: the body array and its transforms, the two force phases, the move phase and
`Tick`. The force phases are `ParallelFor` loops; here they run in index order, and that every
schedule of the parallel tasks ends in the same store is proved for their interleavings.

## Ghost log

`calculateForcesBarnesHut` also returns the list of what it did: the nodes it was invoked on, those
whose far test succeeded and those whose force it applied. Nothing reads the log; it is what lets a
theorem speak of the applications a call made.
-/

namespace NBodySimulation

inductive ESimulationType
  | none
  | allVsAll
  | barnesHut
deriving DecidableEq

/-- `ABodySimulator`, together with the body objects its pointers lead to. -/
structure ABodySimulator (K : Type*) where
  simulationType : ESimulationType
  bodyNum : ℤ
  placementRadius : K
  baseInitialSpeed : K
  theta : K
  bodyDisplayScale : K
  g : K
  minMass : K
  maxMass : K
  minimumGravityDistance : K
  sceneBounds : FBox2D K
  bodies : List BodyRef
  transforms : List (FTransform K)
  quadTree : UQuadTree K
  objects : BodyHeap K

/-! ## Traversals -/

/-- One entry of the log of a traversal. -/
inductive Visit (K : Type*)
  /-- `CalculateForcesBarnesHut` was invoked on this node. -/
  | invoked (node : UQuadTree K)
  /-- The far test of this node succeeded. -/
  | far (node : UQuadTree K)
  /-- `TryToApplyExternalForce` was called with the centre of mass and the mass of this node. -/
  | applied (node : UQuadTree K)

/-- The state of a traversal: the heap it updates in place, and its log. -/
structure Traversal (K : Type*) where
  heap : BodyHeap K
  log : List (Visit K)

namespace ABodySimulator

variable {K : Type*} [Field K] [LinearOrder K]

section Forces

variable [PythagoreanField K]

/-- `Quotient < Theta` in `CalculateForcesBarnesHut`. The quotient `s / d` is no number when the
centre of the node is undefined, and is not below `Theta` when `d` is zero. -/
def farTest (theta : K) (heap : BodyHeap K) (body : BodyRef) (self : UQuadTree.Fields K)
    (children : List (UQuadTree K)) : Bool :=
  let (_, extents) := self.box.getCenterAndExtents
  let s := extents.getMax
  match UQuadTree.getCenterOfMass heap self children with
  | some center =>
    let d := FVector2D.distance center (heap body).position
    d ≠ 0 && s / d < theta
  | none => false

end Forces

end ABodySimulator

namespace Traversal

variable {K : Type*} [Field K] [LinearOrder K] [PythagoreanField K]

def record (run : Traversal K) (visit : Visit K) : Traversal K :=
  { run with log := run.log ++ [visit] }

/-- `BodyEntity->TryToApplyExternalForce(Node->GetCenterOfMass(), Node->GetMass(), DeltaTime)`. The
call is only reached with a defined centre: the node is a leaf with a body, or passed the far
test. -/
def apply (body : BodyRef) (deltaTime : K) (self : UQuadTree.Fields K)
    (children : List (UQuadTree K)) (run : Traversal K) : Traversal K :=
  match UQuadTree.getCenterOfMass run.heap self children with
  | some center =>
    { heap := run.heap.modify body fun b ↦
        b.tryToApplyExternalForce center (UQuadTree.getMass run.heap self children) deltaTime
      log := run.log ++ [.applied (.node self children)] }
  | none => run

end Traversal

namespace ABodySimulator

variable {K : Type*} [Field K] [LinearOrder K] [PythagoreanField K]

mutual

def calculateForcesBarnesHut (theta : K) (body : BodyRef) (deltaTime : K) :
    UQuadTree K → Traversal K → Traversal K
  | .nullptr, run => run.record (.invoked .nullptr)
  | .node self children, run =>
    let run := run.record (.invoked (.node self children))
    let occupant := UQuadTree.leafBody self children
    if occupant.any fun other ↦ (run.heap other).index = (run.heap body).index then
      run
    else
      let run := if occupant.isSome then run.apply body deltaTime self children else run
      -- a leaf with a body falls through to the far test
      if UQuadTree.isEmpty self then
        run
      else if farTest theta run.heap body self children then
        let run := run.record (.far (.node self children))
        if UQuadTree.getMass run.heap self children > 0 then
          run.apply body deltaTime self children
        else
          run
      else
        calculateForcesChildren theta body deltaTime children run

/-- The loop `for (Child : Node->Children)` that ends `CalculateForcesBarnesHut`. -/
def calculateForcesChildren (theta : K) (body : BodyRef) (deltaTime : K) :
    List (UQuadTree K) → Traversal K → Traversal K
  | [], run => run
  | child :: rest, run =>
    calculateForcesChildren theta body deltaTime rest
      (calculateForcesBarnesHut theta body deltaTime child run)

end

def simulateBarnesHut (deltaTime : K) (s : ABodySimulator K) : ABodySimulator K :=
  { s with
    objects := s.bodies.foldl (fun heap body ↦
      (calculateForcesBarnesHut s.theta body deltaTime s.quadTree ⟨heap, []⟩).heap) s.objects }

/-! ## The naive force phase -/

/-- The contribution of `AffectingBody` in the inner loop of `SimulateCompareAllParallel`. -/
def addAcceleration (s : ABodySimulator K) (body : UBodyEntity K) (acceleration : FVector2D K)
    (affecting : UBodyEntity K) : FVector2D K :=
  if affecting.index = body.index then
    acceleration
  else
    let distance := FVector2D.distance body.position affecting.position
    let distance := max distance s.minimumGravityDistance
    acceleration +
      affecting.mass / distance * s.g / distance * (affecting.position - body.position) / distance

/-- One index of the `ParallelFor` of `SimulateCompareAllParallel`. -/
def compareAll (deltaTime : K) (s : ABodySimulator K) (heap : BodyHeap K) (body : BodyRef) :
    BodyHeap K :=
  let acceleration := s.bodies.foldl
    (fun acceleration affecting ↦ s.addAcceleration (heap body) acceleration (heap affecting)) 0
  heap.modify body fun b ↦ { b with velocity := b.velocity + acceleration * deltaTime }

def simulateCompareAllParallel (deltaTime : K) (s : ABodySimulator K) : ABodySimulator K :=
  { s with objects := s.bodies.foldl (compareAll deltaTime s) s.objects }

end ABodySimulator

namespace ABodySimulator

variable {K : Type*} [Field K] [LinearOrder K]

/-! ## Moving -/

def adjustPosition (s : ABodySimulator K) (p : FVector2D K) : FVector2D K := s.sceneBounds.wrap p

/-- One turn of the loop of `MoveAllBodies`, on the objects and the transforms. -/
def moveBody (deltaTime : K) (bSkipAdjust : Bool) (s : ABodySimulator K) (body : BodyRef) :
    Except Fault (ABodySimulator K) :=
  let heap :=
    if !bSkipAdjust then
      s.objects.modify body fun b ↦ { b with position := s.adjustPosition b.position }
    else
      s.objects
  let heap := heap.modify body fun b ↦
    { b with position := b.position + b.velocity * deltaTime }
  match s.transforms[(heap body).index]? with
  | none => .error .indexOutOfRange
  | some transform =>
    .ok { s with
      objects := heap
      transforms := s.transforms.set (heap body).index
        (transform.setTranslation (heap body).get3DPosition) }

/-- The loop of `MoveAllBodies` over the bodies that are left to move. -/
def moveBodies (deltaTime : K) (bSkipAdjust : Bool) :
    List BodyRef → ABodySimulator K → Except Fault (ABodySimulator K)
  | [], s => .ok s
  | body :: rest, s => do
    let s ← moveBody deltaTime bSkipAdjust s body
    moveBodies deltaTime bSkipAdjust rest s

/-- `ABodySimulator::MoveAllBodies`, up to the hand-over of the transforms to the mesh. -/
def moveAllBodies (deltaTime : K) (bSkipAdjust : Bool) (s : ABodySimulator K) :
    Except Fault (ABodySimulator K) :=
  moveBodies deltaTime bSkipAdjust s.bodies s

/-! ## Building the tree -/

/-- A sequence of `Insert` calls on one root. -/
def insertAll (fuel : ℕ) : List BodyRef → UQuadTree K → BodyHeap K →
    Except Fault (UQuadTree K × BodyHeap K)
  | [], tree, heap => .ok (tree, heap)
  | body :: rest, tree, heap => do
    let r ← UQuadTree.insert fuel body tree heap
    insertAll fuel rest r.tree r.heap

def constructTree (fuel : ℕ) (s : ABodySimulator K) : Except Fault (ABodySimulator K) := do
  let (tree, heap) ← insertAll fuel s.bodies (UQuadTree.new s.sceneBounds true) s.objects
  .ok { s with quadTree := tree, objects := heap }

/-! ## Ticks -/

def tick [PythagoreanField K] (fuel : ℕ) (deltaTime : K) (s : ABodySimulator K) :
    Except Fault (ABodySimulator K) :=
  match s.simulationType with
  | .none => .ok s
  | .allVsAll => moveAllBodies deltaTime false (simulateCompareAllParallel deltaTime s)
  | .barnesHut => do
    let s ← constructTree fuel s
    moveAllBodies deltaTime true (simulateBarnesHut deltaTime s)

end ABodySimulator

/-! ## Setting up -/

/-- The engine calls of `InitBodies` whose results the code cannot know, by loop index, and
`FMath::Sqrt`. -/
structure EngineCalls (K : Type*) where
  randPointInCircle : ℕ → K → FVector2D K
  randomUnitVector : ℕ → FVector K
  fRandRange : ℕ → K → K → K
  sqrt : K → K
  /-- `FRotator()`, which the engine does not initialise. -/
  rotator : ℕ → FVector K
  /-- `CameraArm->GetComponentLocation()`. -/
  cameraLocation : FVector K

namespace ABodySimulator

variable {K : Type*} [Field K] [LinearOrder K] [PythagoreanField K]

/-- The body and the transform made by one turn of the loop of `InitBodies`. -/
def initBody (engine : EngineCalls K) (s : ABodySimulator K) (index : ℕ) :
    UBodyEntity K × FTransform K :=
  let randomPosition := engine.randPointInCircle index s.placementRadius
  let randomPosition : FVector2D K :=
    randomPosition + ⟨engine.cameraLocation.x, engine.cameraLocation.y⟩
  let radialSpeedFactor := s.placementRadius / FVector2D.distance randomPosition 0
  let unit := engine.randomUnitVector index
  let randomVelocity : FVector2D K :=
    ⟨unit.x * s.baseInitialSpeed * radialSpeedFactor,
      unit.y * s.baseInitialSpeed * radialSpeedFactor⟩
  let mass := engine.fRandRange index s.minMass s.maxMass
  let meshScale := engine.sqrt mass * s.bodyDisplayScale
  let meshTransform : FTransform K :=
    { rotation := engine.rotator index
      translation := ⟨randomPosition.x, randomPosition.y, 0⟩
      scale3D := ⟨meshScale, meshScale, 1⟩ }
  (UBodyEntity.initializeBody randomPosition randomVelocity mass index s.minimumGravityDistance s.g,
    meshTransform)

/-- The loop of `InitBodies`. The objects made by `NewObject` get the addresses of their turns. -/
def initLoop (engine : EngineCalls K) (num : ℕ) (s : ABodySimulator K) : ABodySimulator K :=
  { s with
    bodies := List.range num
    transforms := (List.range num).map fun index ↦ (s.initBody engine index).2
    objects := fun body ↦ if body < num then (s.initBody engine body).1 else s.objects body }

/-- `ABodySimulator::InitBodies`, up to the hand-over of the transforms to the mesh. -/
def initBodies (engine : EngineCalls K) (s : ABodySimulator K) :
    Except Fault (ABodySimulator K) :=
  -- `SetNumUninitialized` of a negative number removes elements at a negative index
  if s.bodyNum < 0 then .error .indexOutOfRange
  else .ok (s.initLoop engine s.bodyNum.toNat)

end ABodySimulator

end NBodySimulation
