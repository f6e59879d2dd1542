import NBodySimulation.Objects.QuadTreeMemory
import NBodySimulation.Actors.BodySimulator
import NBodySimulation.Dynamics.Runs

/-!
# The simulator with its tree in memory

`ABodySimulator` as the code runs: `QuadTree` is a pointer, `ConstructTree` deletes the old tree and
makes a new one, and the traversals follow pointers. The phases that do not touch the tree are those
of `Actors.BodySimulator`.

Deleting and traversing a tree recurse over it, so both take fuel, the argument `depth`; the fuel of
the insertions is that of the call of `Tick`, as before.
-/

namespace NBodySimulation

open Memory (Cell Heap Allocator)

namespace TreeMemory

variable {K : Type*}

def insertAll [Field K] [LinearOrder K] (alloc : Allocator NodeRef) (fuel : ℕ) :
    List BodyRef → Option NodeRef → TreeMemory K → Except MemoryFault (TreeMemory K)
  | [], _, m => .ok m
  | body :: rest, root, m => do
    let (m, _) ← TreeMemory.insert alloc fuel body root m
    insertAll alloc fuel rest root m

/-- `UQuadTree::GetCenterOfMass`. -/
def getCenterOfMass [Field K] (m : TreeMemory K) (node : Cell NodeRef (UQuadTree.Fields K)) :
    Option (FVector2D K) :=
  match leafBody node with
  | some body => some (m.bodies body).getCenterOfMass
  | none => node.label.centerMass

/-- `UQuadTree::GetMass`. -/
def getMass (m : TreeMemory K) (node : Cell NodeRef (UQuadTree.Fields K)) : K :=
  match leafBody node with
  | some body => (m.bodies body).mass
  | none => node.label.mass

variable [Field K] [LinearOrder K] [PythagoreanField K]

/-- `Quotient < Theta` in `CalculateForcesBarnesHut`. -/
def farTest (theta : K) (m : TreeMemory K) (body : BodyRef)
    (node : Cell NodeRef (UQuadTree.Fields K)) : Bool :=
  let (_, extents) := node.label.box.getCenterAndExtents
  let s := extents.getMax
  match m.getCenterOfMass node with
  | some center =>
    let d := FVector2D.distance center (m.bodies body).position
    d ≠ 0 && s / d < theta
  | none => false

/-- `BodyEntity->TryToApplyExternalForce(Node->GetCenterOfMass(), Node->GetMass(), DeltaTime)`. -/
def apply (body : BodyRef) (deltaTime : K) (node : Cell NodeRef (UQuadTree.Fields K))
    (m : TreeMemory K) : TreeMemory K :=
  match m.getCenterOfMass node with
  | some center =>
    { m with bodies := m.bodies.modify body fun b ↦
        b.tryToApplyExternalForce center (m.getMass node) deltaTime }
  | none => m

/-- `ABodySimulator::CalculateForcesBarnesHut`. -/
def calculateForcesBarnesHut (theta : K) (body : BodyRef) (deltaTime : K) :
    ℕ → Option NodeRef → TreeMemory K → Except MemoryFault (TreeMemory K)
  | 0, _, _ => .error (.code .outOfFuel)
  | _ + 1, none, m => .ok m
  | depth + 1, some p, m => do
    let node ← m.read (some p)
    let occupant := leafBody node
    if occupant.any fun other ↦ (m.bodies other).index = (m.bodies body).index then
      .ok m
    else
      let m := if occupant.isSome then m.apply body deltaTime node else m
      if UQuadTree.isEmpty node.label then
        .ok m
      else if m.farTest theta body node then
        if m.getMass node > 0 then
          .ok (m.apply body deltaTime node)
        else
          .ok m
      else
        node.links.foldlM
          (fun m child ↦ calculateForcesBarnesHut theta body deltaTime depth child m) m

end TreeMemory

/-- `ABodySimulator` with the tree in memory: the pointer `quadTree` stands for the tree, and the
tree value of `actor` is not used. -/
structure SimulatorMemory (K : Type*) where
  actor : ABodySimulator K
  quadTree : Option NodeRef
  nodes : Heap NodeRef (Cell NodeRef (UQuadTree.Fields K))

namespace SimulatorMemory

variable {K : Type*}

/-- The objects that the tree code works on. -/
def memory (c : SimulatorMemory K) : TreeMemory K := ⟨c.nodes, c.actor.objects⟩

/-- The state after the tree code has run. -/
def withMemory (c : SimulatorMemory K) (m : TreeMemory K) : SimulatorMemory K :=
  { c with actor := { c.actor with objects := m.bodies }, nodes := m.nodes }

/-- A simulator before its first tick: `QuadTree` is null. Other code may own nodes. -/
def start (nodes : Heap NodeRef (Cell NodeRef (UQuadTree.Fields K))) (s : ABodySimulator K) :
    SimulatorMemory K :=
  { actor := { s with quadTree := .nullptr }, quadTree := none, nodes }

variable [Field K] [LinearOrder K] [PythagoreanField K]

/-- `ABodySimulator::ConstructTree`. -/
def constructTree (alloc : Allocator NodeRef) (depth fuel : ℕ) (c : SimulatorMemory K) :
    Except MemoryFault (SimulatorMemory K) := do
  let m ← c.memory.delete depth c.quadTree
  let (root, m) := m.new alloc c.actor.sceneBounds true
  let m ← m.insertAll alloc fuel c.actor.bodies (some root)
  .ok { c.withMemory m with quadTree := some root }

/-- `ABodySimulator::SimulateBarnesHut`. -/
def simulateBarnesHut (depth : ℕ) (deltaTime : K) (c : SimulatorMemory K) :
    Except MemoryFault (SimulatorMemory K) := do
  let m ← c.actor.bodies.foldlM (fun m body ↦
    TreeMemory.calculateForcesBarnesHut c.actor.theta body deltaTime depth c.quadTree m) c.memory
  .ok (c.withMemory m)

/-- `ABodySimulator::MoveAllBodies`. -/
def moveAllBodies (deltaTime : K) (bSkipAdjust : Bool) (c : SimulatorMemory K) :
    Except MemoryFault (SimulatorMemory K) := do
  let actor ← (c.actor.moveAllBodies deltaTime bSkipAdjust).mapError .code
  .ok { c with actor := actor }

/-- `ABodySimulator::Tick`. -/
def tick (alloc : Allocator NodeRef) (depth fuel : ℕ) (deltaTime : K) (c : SimulatorMemory K) :
    Except MemoryFault (SimulatorMemory K) :=
  match c.actor.simulationType with
  | .none => .ok c
  | .allVsAll =>
    moveAllBodies deltaTime false
      { c with actor := c.actor.simulateCompareAllParallel deltaTime }
  | .barnesHut => do
    let c ← c.constructTree alloc depth fuel
    let c ← c.simulateBarnesHut depth deltaTime
    c.moveAllBodies deltaTime true

def tickCall (alloc : Allocator NodeRef) (depth : ℕ) (call : TickCall K) (c : SimulatorMemory K) :
    Except MemoryFault (SimulatorMemory K) :=
  tick alloc depth call.fuel call.deltaTime
    { c with actor := c.actor.switchTo call.simulationType }

def run (alloc : Allocator NodeRef) (depth : ℕ) :
    List (TickCall K) → SimulatorMemory K → Except MemoryFault (SimulatorMemory K)
  | [], c => .ok c
  | call :: calls, c => do
    let c ← c.tickCall alloc depth call
    run alloc depth calls c

end SimulatorMemory

end NBodySimulation
