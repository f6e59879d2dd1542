import NBodySimulation.Actors.BodySimulator

/-!
# The actor in the level

What the engine sees of an `ABodySimulator`: it is constructed, its properties may be edited at any
time, play begins once, and from then on `Tick` is called while ticking is enabled. The instanced
mesh, which the actor fills in `InitBodies` and updates at the end of `MoveAllBodies`, shows one
transform for each body.

## What is assumed of the engine

* `BeginPlay` is called once, and `Tick` only while the tick of the actor is enabled. Events at any
  other time are not made, which is here an event that does nothing.
* The mesh is the engine's: `AddInstances` and `BatchUpdateInstancesTransforms` are parameters, and
  what is documented of them is `MeshCalls.Documented`. `FTransform::ContainsNaN` is a parameter as
  well, since the numbers here are exact.
-/

namespace NBodySimulation

/-- The properties that can be edited in the editor, also during play. -/
structure Properties (K : Type*) where
  simulationType : ESimulationType
  bodyNum : ℤ
  placementRadius : K
  baseInitialSpeed : K
  theta : K
  bodyDisplayScale : K
  g : K
  minMass : K
  maxMass : K
  minimumGravityDistance : K

namespace ABodySimulator

variable {K : Type*}

def properties (s : ABodySimulator K) : Properties K where
  simulationType := s.simulationType
  bodyNum := s.bodyNum
  placementRadius := s.placementRadius
  baseInitialSpeed := s.baseInitialSpeed
  theta := s.theta
  bodyDisplayScale := s.bodyDisplayScale
  g := s.g
  minMass := s.minMass
  maxMass := s.maxMass
  minimumGravityDistance := s.minimumGravityDistance

def setProperties (p : Properties K) (s : ABodySimulator K) : ABodySimulator K :=
  { s with
    simulationType := p.simulationType
    bodyNum := p.bodyNum
    placementRadius := p.placementRadius
    baseInitialSpeed := p.baseInitialSpeed
    theta := p.theta
    bodyDisplayScale := p.bodyDisplayScale
    g := p.g
    minMass := p.minMass
    maxMass := p.maxMass
    minimumGravityDistance := p.minimumGravityDistance }

end ABodySimulator

/-- What the actor has the engine do with transforms. -/
structure MeshCalls (K : Type*) where
  /-- `FTransform::ContainsNaN`. -/
  containsNaN : FTransform K → Bool
  /-- `UInstancedStaticMeshComponent::AddInstances`: the instances after a call with new ones. -/
  addInstances : List (FTransform K) → List (FTransform K) → List (FTransform K)
  /-- `UInstancedStaticMeshComponent::BatchUpdateInstancesTransforms`, from a start index on. -/
  batchUpdateInstancesTransforms :
    ℕ → List (FTransform K) → List (FTransform K) → List (FTransform K)

/-- The two calls of the mesh, as documented. -/
structure MeshCalls.Documented {K : Type*} (mesh : MeshCalls K) : Prop where
  /-- New instances come after those that are there. -/
  addInstances : ∀ new instances, mesh.addInstances new instances = instances ++ new
  /-- As many instances as are handed over are replaced, where there are as many. -/
  batchUpdateInstancesTransforms : ∀ start new instances, start + new.length ≤ instances.length →
    mesh.batchUpdateInstancesTransforms start new instances
      = instances.take start ++ new ++ instances.drop (start + new.length)

/-- An `ABodySimulator` in the level. -/
structure BodySimulatorActor (K : Type*) where
  simulator : ABodySimulator K
  /-- The instances of `InstancedMesh`. -/
  instancedMesh : List (FTransform K)
  /-- What `SetActorTickEnabled` has last been called with. -/
  tickEnabled : Bool
  hasBegunPlay : Bool

/-- What can happen to the actor. -/
inductive ActorEvent (K : Type*)
  /-- The properties are edited. -/
  | edit (properties : Properties K)
  | beginPlay (engine : EngineCalls K)
  | tick (fuel : ℕ) (deltaTime : K)

namespace BodySimulatorActor

variable {K : Type*}

/-- `ABodySimulator::ABodySimulator`, with the values that the class declares for its properties,
among the body objects of others. -/
def construct [Field K] (objects : BodyHeap K) : BodySimulatorActor K where
  simulator :=
    { simulationType := .barnesHut
      bodyNum := 1500
      placementRadius := (1000 : ℕ)
      baseInitialSpeed := (500 : ℕ)
      theta := (7 : ℕ) / (10 : ℕ)
      bodyDisplayScale := (2 : ℕ) / (100 : ℕ)
      g := (1000 : ℕ)
      minMass := (20 : ℕ)
      maxMass := (100 : ℕ)
      minimumGravityDistance := (100 : ℕ)
      sceneBounds := ⟨⟨0, 0⟩, ⟨(3296 : ℕ), (5000 : ℕ)⟩⟩
      bodies := []
      transforms := []
      quadTree := .nullptr
      objects := objects }
  instancedMesh := []
  tickEnabled := false
  hasBegunPlay := false

variable [Field K] [LinearOrder K]

/-- The loop of `MoveAllBodies` over the bodies left to move, with its local `bSkipBody`. -/
def moveBodies (mesh : MeshCalls K) (deltaTime : K) (bSkipAdjust : Bool) :
    List BodyRef → Bool → ABodySimulator K → Except Fault (Bool × ABodySimulator K)
  | [], bSkipBody, s => .ok (bSkipBody, s)
  | body :: rest, bSkipBody, s => do
    let s ← s.moveBody deltaTime bSkipAdjust body
    -- the index was found in range when the transform was written
    let bSkipBody :=
      if (s.transforms[(s.objects body).index]?).any mesh.containsNaN then true else bSkipBody
    moveBodies mesh deltaTime bSkipAdjust rest bSkipBody s

/-- `ABodySimulator::MoveAllBodies`. -/
def moveAllBodies (mesh : MeshCalls K) (deltaTime : K) (bSkipAdjust : Bool)
    (a : BodySimulatorActor K) : Except Fault (BodySimulatorActor K) := do
  let (bSkipBody, s) ←
    moveBodies mesh deltaTime bSkipAdjust a.simulator.bodies false a.simulator
  .ok { a with
    simulator := s
    instancedMesh :=
      if !bSkipBody then mesh.batchUpdateInstancesTransforms 0 s.transforms a.instancedMesh
      else a.instancedMesh }

variable [PythagoreanField K]

/-- `ABodySimulator::Tick`. -/
def tick (mesh : MeshCalls K) (fuel : ℕ) (deltaTime : K) (a : BodySimulatorActor K) :
    Except Fault (BodySimulatorActor K) :=
  match a.simulator.simulationType with
  | .none => .ok a
  | .allVsAll => moveAllBodies mesh deltaTime false
      { a with simulator := a.simulator.simulateCompareAllParallel deltaTime }
  | .barnesHut => do
    let s ← a.simulator.constructTree fuel
    moveAllBodies mesh deltaTime true
      { a with simulator := s.simulateBarnesHut deltaTime }

/-- `ABodySimulator::BeginPlay`, which is a call of `InitBodies`. -/
def beginPlay (mesh : MeshCalls K) (engine : EngineCalls K) (a : BodySimulatorActor K) :
    Except Fault (BodySimulatorActor K) := do
  let s ← a.simulator.initBodies engine
  .ok
    { simulator := s
      instancedMesh := mesh.addInstances s.transforms a.instancedMesh
      tickEnabled := true
      hasBegunPlay := true }

def step (mesh : MeshCalls K) (a : BodySimulatorActor K) :
    ActorEvent K → Except Fault (BodySimulatorActor K)
  | .edit properties => .ok { a with simulator := a.simulator.setProperties properties }
  | .beginPlay engine => if a.hasBegunPlay then .ok a else a.beginPlay mesh engine
  | .tick fuel deltaTime => if a.tickEnabled then a.tick mesh fuel deltaTime else .ok a

def play (mesh : MeshCalls K) :
    List (ActorEvent K) → BodySimulatorActor K → Except Fault (BodySimulatorActor K)
  | [], a => .ok a
  | event :: events, a => do
    let a ← a.step mesh event
    play mesh events a

end BodySimulatorActor

end NBodySimulation
