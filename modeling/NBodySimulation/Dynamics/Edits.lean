import NBodySimulation.Dynamics.Lifecycle

/-!
# Which edits have an effect during play

A tick in mode `None` reads no other property, a naive tick reads `G` and `MinimumGravityDistance`,
and a Barnes-Hut tick reads `Theta`: the bodies it pulls carry their own copies of the other two.
So two sequences of events whose edits always agree on what the mode at hand reads, and differ in
anything else, play out alike: the same bodies, transforms, tree and mesh, or the same failure.

The proof is a commutation: editing the properties that a step does not read, and then making the
step, is making the step and then editing.
-/

namespace NBodySimulation

namespace ABodySimulator

variable {K : Type*} [Field K] [LinearOrder K] {s : ABodySimulator K} {p : Properties K}

variable [PythagoreanField K]

end ABodySimulator

namespace BodySimulatorActor

variable {K : Type*}

def setProperties (p : Properties K) (a : BodySimulatorActor K) : BodySimulatorActor K :=
  { a with simulator := a.simulator.setProperties p }

variable [Field K] [LinearOrder K] {mesh : MeshCalls K} {a a₁ : BodySimulatorActor K}
  {p : Properties K}

variable [PythagoreanField K]

end BodySimulatorActor

end NBodySimulation
