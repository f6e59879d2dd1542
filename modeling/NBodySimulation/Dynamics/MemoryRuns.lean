import NBodySimulation.Forces.MemoryTraversal

/-!
# Runs in memory

Whole runs of the simulator, with its tree in memory, implement those of the simulator with its tree
as a value: call for call the same faults, the same bodies and the same transforms. After every call
the nodes that the simulator has allocated are those of its current tree, each of them once, so a
run neither leaks a node, nor uses one that was deleted, nor deletes one twice.

## Main results

* `SimulatorMemory.run_or`: the runs.
-/

namespace NBodySimulation

open Memory

/-! ## Building the tree -/

namespace TreeMemory

variable {K : Type*} [Field K] [LinearOrder K] {m : TreeMemory K} {S : Finset NodeRef}

private theorem insertAll_lockstep (alloc : Allocator NodeRef) (fuel : ℕ) (bodies : List BodyRef)
    {p : Option NodeRef} {tree : UQuadTree K} (h : m.Holds p tree S) :
    Lockstep .code (fun m' r ↦ m.Leaves p S m' r.1 r.2) (m.insertAll alloc fuel bodies p)
      (ABodySimulator.insertAll fuel bodies tree m.bodies) := by
  induction bodies generalizing m tree S with
  | nil => exact .ok ⟨rfl, S, h, .refl _ _⟩
  | cons body bodies ih =>
    rw [insertAll, ABodySimulator.insertAll]
    refine (lockstepInsert alloc fuel body m p tree S h).bind ?_
    rintro ⟨m₁, accepted⟩ r ⟨_, hbodies, S₁, h₁, hstep₁⟩
    dsimp only
    rw [← hbodies]
    refine (ih h₁).mono ?_
    rintro m₂ r' ⟨hbodies₂, S₂, h₂, hstep₂⟩
    exact ⟨hbodies₂, S₂, h₂, hstep₁.trans hstep₂⟩

end TreeMemory

/-! ## Moving -/

namespace ABodySimulator

variable {K : Type*} [Field K] [LinearOrder K] (deltaTime : K) (bSkipAdjust : Bool)

private theorem moveBodies_quadTree (bodies : List BodyRef) (s : ABodySimulator K)
    (tree : UQuadTree K) :
    moveBodies deltaTime bSkipAdjust bodies { s with quadTree := tree }
      = (moveBodies deltaTime bSkipAdjust bodies s).map fun s' ↦ { s' with quadTree := tree } := by
  induction bodies generalizing s with
  | nil => rfl
  | cons b bodies ih =>
    have hbody : moveBody deltaTime bSkipAdjust { s with quadTree := tree } b
        = (moveBody deltaTime bSkipAdjust s b).map fun s' ↦ { s' with quadTree := tree } := by
      rw [moveBody_eq, moveBody_eq]
      dsimp only
      cases s.transforms[(s.objects b).index]? with
      | none => rfl
      | some t => rfl
    rw [moveBodies, moveBodies, hbody]
    cases moveBody deltaTime bSkipAdjust s b with
    | error fault => rfl
    | ok s₁ => exact ih s₁

private theorem quadTree_of_moveBodies {bodies : List BodyRef} {s s' : ABodySimulator K}
    (h : moveBodies deltaTime bSkipAdjust bodies s = .ok s') : s'.quadTree = s.quadTree := by
  have hsame := moveBodies_quadTree deltaTime bSkipAdjust bodies s s.quadTree
  rw [h] at hsame
  have hs' : s' = { s' with quadTree := s.quadTree } := Except.ok.inj hsame
  rw [hs']

end ABodySimulator

/-! ## Ticks -/

namespace SimulatorMemory

open TreeMemory

variable {K : Type*}

/-- The simulator in memory stands for the one on values: the pointer leads to its tree, whose nodes
are those of the footprint. -/
structure Implements (c : SimulatorMemory K) (s : ABodySimulator K) (S : Finset NodeRef) :
    Prop where
  actor : c.actor = { s with quadTree := .nullptr }
  holds : c.memory.Holds c.quadTree s.quadTree S

/-- What code that owns the nodes `S` may leave, compared with a simulator on values. -/
def Follows (c : SimulatorMemory K) (S : Finset NodeRef) (c' : SimulatorMemory K)
    (s' : ABodySimulator K) : Prop :=
  ∃ S', c'.Implements s' S' ∧ Rewrites c.nodes S c'.nodes S'

variable [Field K] [LinearOrder K] [PythagoreanField K] {c : SimulatorMemory K}
  {s : ABodySimulator K} {S : Finset NodeRef}

omit [PythagoreanField K] in
private theorem constructTree_or (alloc : Allocator NodeRef) (depth fuel : ℕ)
    (h : c.Implements s S) :
    (c.constructTree alloc depth fuel = .error (.code .outOfFuel) ∧
        depth < s.quadTree.deletionDepth) ∨
      Lockstep .code (c.Follows S) (c.constructTree alloc depth fuel) (s.constructTree fuel) := by
  rw [constructTree]
  rcases (deletesWith_and_emptiesWith depth).1 c.memory c.quadTree s.quadTree S h.holds with
    ⟨herr, hlt⟩ | ⟨m, hok, hfreed⟩
  · exact Or.inl ⟨by rw [herr]; rfl, hlt⟩
  refine Or.inr ?_
  have hnew := holds_new alloc m s.sceneBounds true
  have hstep : Rewrites c.nodes S (m.new alloc s.sceneBounds true).2.nodes
      {(m.new alloc s.sceneBounds true).1} :=
    hfreed.rewrites.trans (rewrites_new alloc m s.sceneBounds true)
  have hbounds : c.actor.sceneBounds = s.sceneBounds := by rw [h.actor]
  have hlist : c.actor.bodies = s.bodies := by rw [h.actor]
  have hbodies : (m.new alloc s.sceneBounds true).2.bodies = s.objects := by
    rw [show (m.new alloc s.sceneBounds true).2.bodies = m.bodies from rfl, hfreed.bodies,
      memory, h.actor]
  have hrun := insertAll_lockstep alloc fuel s.bodies hnew
  rw [hbodies] at hrun
  rw [hok, ok_bind, hbounds, hlist, ABodySimulator.constructTree]
  refine hrun.bind ?_
  rintro m' ⟨tree, heap⟩ ⟨hbodies', S', hholds, hstep'⟩
  refine .ok ⟨S', ⟨?_, hholds⟩, hstep.trans hstep'⟩
  rw [withMemory, h.actor, hbodies']

private theorem simulateBarnesHut_or (depth : ℕ) (deltaTime : K) (h : c.Implements s S) :
    (c.simulateBarnesHut depth deltaTime = .error (.code .outOfFuel) ∧
        depth < s.quadTree.deletionDepth) ∨
      ∃ c', c.simulateBarnesHut depth deltaTime = .ok c' ∧
        c'.Implements (s.simulateBarnesHut deltaTime) S ∧ c'.nodes = c.nodes := by
  rw [simulateBarnesHut]
  rcases traverseAll_or c.actor.theta deltaTime depth c.actor.bodies h.holds with
    ⟨herr, hlt⟩ | hok
  · exact Or.inl ⟨by rw [herr]; rfl, hlt⟩
  · refine Or.inr ⟨c.withMemory _, by rw [hok, ok_bind], ⟨?_, ?_⟩, rfl⟩
    · rw [withMemory, memory, h.actor]
      rfl
    · exact h.holds

omit [PythagoreanField K] in
private theorem moveAllBodies_lockstep (deltaTime : K) (bSkipAdjust : Bool) (h : c.Implements s S) :
    Lockstep .code (c.Follows S) (c.moveAllBodies deltaTime bSkipAdjust)
      (s.moveAllBodies deltaTime bSkipAdjust) := by
  rw [moveAllBodies, ABodySimulator.moveAllBodies, h.actor, ABodySimulator.moveAllBodies,
    ABodySimulator.moveBodies_quadTree]
  cases hrun : ABodySimulator.moveBodies deltaTime bSkipAdjust s.bodies s with
  | error fault => exact .error fault
  | ok s' =>
    refine .ok ⟨S, ⟨rfl, ?_⟩, .refl _ _⟩
    rw [ABodySimulator.quadTree_of_moveBodies deltaTime bSkipAdjust hrun]
    exact h.holds

private theorem barnesHut_or (depth : ℕ) (deltaTime : K) (h : c.Implements s S) :
    ((do
        let c ← c.simulateBarnesHut depth deltaTime
        c.moveAllBodies deltaTime true) = .error (.code .outOfFuel) ∧
        depth < s.quadTree.deletionDepth) ∨
      Lockstep .code (c.Follows S) (do
          let c ← c.simulateBarnesHut depth deltaTime
          c.moveAllBodies deltaTime true)
        ((s.simulateBarnesHut deltaTime).moveAllBodies deltaTime true) := by
  rcases simulateBarnesHut_or depth deltaTime h with ⟨herr, hlt⟩ | ⟨c', hok, h', hnodes⟩
  · exact Or.inl ⟨by rw [herr]; rfl, hlt⟩
  · rw [hok, ok_bind]
    refine Or.inr ((moveAllBodies_lockstep deltaTime true h').mono ?_)
    rintro c₂ s₂ ⟨S₂, h₂, hstep⟩
    rw [hnodes] at hstep
    exact ⟨S₂, h₂, hstep⟩

/-- **A call of `Tick` in memory** does what the one on values does, or may not go deep enough. -/
theorem tick_or (alloc : Allocator NodeRef) (fuel : ℕ) (deltaTime : K) (s : ABodySimulator K) :
    ∃ n, ∀ c S, Implements c s S → ∀ depth,
      (c.tick alloc depth fuel deltaTime = .error (.code .outOfFuel) ∧ depth < n) ∨
        Lockstep .code (c.Follows S) (c.tick alloc depth fuel deltaTime)
          (s.tick fuel deltaTime) := by
  have hmode : ∀ c S, Implements c s S → c.actor.simulationType = s.simulationType := by
    intro c S h
    rw [h.actor]
  simp only [tick, ABodySimulator.tick]
  cases htype : s.simulationType with
  | none =>
    refine ⟨0, fun c S h depth ↦ Or.inr ?_⟩
    rw [hmode c S h, htype]
    exact .ok ⟨S, h, .refl _ _⟩
  | allVsAll =>
    refine ⟨0, fun c S h depth ↦ Or.inr ?_⟩
    rw [hmode c S h, htype]
    refine moveAllBodies_lockstep deltaTime false
      (c := { c with actor := c.actor.simulateCompareAllParallel deltaTime }) ⟨?_, h.holds⟩
    rw [h.actor]
    rfl
  | barnesHut =>
    cases htree : s.constructTree fuel with
    | error fault =>
      refine ⟨s.quadTree.deletionDepth, fun c S h depth ↦ ?_⟩
      rw [hmode c S h, htype]
      rcases constructTree_or alloc depth fuel h with ⟨herr, hlt⟩ | hstep
      · exact Or.inl ⟨by dsimp only; rw [herr]; rfl, hlt⟩
      · rw [htree] at hstep
        dsimp only
        rw [hstep.eq_error]
        exact Or.inr (.error fault)
    | ok s₁ =>
      refine ⟨max s.quadTree.deletionDepth s₁.quadTree.deletionDepth, fun c S h depth ↦ ?_⟩
      rw [hmode c S h, htype]
      dsimp only
      rcases constructTree_or alloc depth fuel h with ⟨herr, hlt⟩ | hstep
      · exact Or.inl ⟨by rw [herr]; rfl, by omega⟩
      · rw [htree] at hstep
        obtain ⟨c₁, hok, S₁, h₁, hrewrites₁⟩ := hstep.exists_ok
        rw [hok, ok_bind, ok_bind]
        rcases barnesHut_or depth deltaTime h₁ with ⟨herr, hlt⟩ | hstep'
        · exact Or.inl ⟨herr, by omega⟩
        · refine Or.inr (hstep'.mono ?_)
          rintro c₂ s₂ ⟨S₂, h₂, hrewrites₂⟩
          exact ⟨S₂, h₂, hrewrites₁.trans hrewrites₂⟩

private theorem tickCall_or (alloc : Allocator NodeRef) (call : TickCall K) (s : ABodySimulator K) :
    ∃ n, ∀ c S, Implements c s S → ∀ depth,
      (c.tickCall alloc depth call = .error (.code .outOfFuel) ∧ depth < n) ∨
        Lockstep .code (c.Follows S) (c.tickCall alloc depth call) (s.tickCall call) := by
  obtain ⟨n, hn⟩ := tick_or alloc call.fuel call.deltaTime (s.switchTo call.simulationType)
  refine ⟨n, fun c S h ↦
    hn { c with actor := c.actor.switchTo call.simulationType } S ⟨?_, h.holds⟩⟩
  rw [h.actor]
  rfl

/-- **Runs in memory** implement runs on values. -/
theorem run_or (alloc : Allocator NodeRef) (calls : List (TickCall K)) (s : ABodySimulator K) :
    ∃ n, ∀ c S, Implements c s S → ∀ depth,
      (c.run alloc depth calls = .error (.code .outOfFuel) ∧ depth < n) ∨
        Lockstep .code (c.Follows S) (c.run alloc depth calls) (s.run calls) := by
  induction calls generalizing s with
  | nil => exact ⟨0, fun c S h depth ↦ Or.inr (.ok ⟨S, h, .refl _ _⟩)⟩
  | cons call calls ih =>
    obtain ⟨n, hn⟩ := tickCall_or alloc call s
    cases htick : s.tickCall call with
    | error fault =>
      refine ⟨n, fun c S h depth ↦ ?_⟩
      rw [run, ABodySimulator.run, htick]
      rcases hn c S h depth with ⟨herr, hlt⟩ | hstep
      · exact Or.inl ⟨by rw [herr]; rfl, hlt⟩
      · rw [htick] at hstep
        rw [hstep.eq_error]
        exact Or.inr (.error fault)
    | ok s₁ =>
      -- the depth that the rest of the run takes only depends on the state on values
      obtain ⟨n₁, hn₁⟩ := ih s₁
      refine ⟨max n n₁, fun c S h depth ↦ ?_⟩
      rw [run, ABodySimulator.run, htick]
      rcases hn c S h depth with ⟨herr, hlt⟩ | hstep
      · exact Or.inl ⟨by rw [herr]; rfl, by omega⟩
      · rw [htick] at hstep
        obtain ⟨c₁, hok, S₁, h₁, hrewrites₁⟩ := hstep.exists_ok
        rw [hok, ok_bind, ok_bind]
        rcases hn₁ c₁ S₁ h₁ depth with ⟨herr, hlt⟩ | hrest
        · exact Or.inl ⟨herr, by omega⟩
        · refine Or.inr (hrest.mono ?_)
          rintro c₂ s₂ ⟨S₂, h₂, hrewrites₂⟩
          exact ⟨S₂, h₂, hrewrites₁.trans hrewrites₂⟩

omit [Field K] [LinearOrder K] [PythagoreanField K] in
private theorem implements_start (nodes : Heap NodeRef (Cell NodeRef (UQuadTree.Fields K)))
    (s : ABodySimulator K) : (start nodes s).Implements { s with quadTree := .nullptr } ∅ where
  actor := rfl
  holds := .null rfl

/-- **Runs keep the memory in order.** From a simulator without a tree, among nodes of others, a run
of ticks in any modes raises the faults that the run on values raises, and no other, and its state
is otherwise the same; what it has allocated is then exactly the nodes of its current tree, and the
nodes of others are as they were. Only for a `depth` that is too small may it run out of it. -/
theorem run_in_memory (alloc : Allocator NodeRef)
    (nodes : Heap NodeRef (Cell NodeRef (UQuadTree.Fields K))) (s : ABodySimulator K)
    (calls : List (TickCall K)) : ∃ n, ∀ depth,
      ((start nodes s).run alloc depth calls = .error (.code .outOfFuel) ∧ depth < n) ∨
        (∀ fault, { s with quadTree := .nullptr }.run calls = .error fault →
          (start nodes s).run alloc depth calls = .error (.code fault)) ∧
        ∀ s', { s with quadTree := .nullptr }.run calls = .ok s' →
          ∃ c' S, (start nodes s).run alloc depth calls = .ok c' ∧
            c'.actor = { s' with quadTree := .nullptr } ∧
            c'.memory.Holds c'.quadTree s'.quadTree S ∧ (∀ q ∈ S, q ∉ nodes) ∧
            ∀ q ∉ S, c'.nodes.lookup q = nodes.lookup q := by
  obtain ⟨n, hn⟩ := run_or alloc calls { s with quadTree := .nullptr }
  refine ⟨n, fun depth ↦ ?_⟩
  rcases hn (start nodes s) ∅ (implements_start nodes s) depth with herr | hrun
  · exact Or.inl herr
  refine Or.inr ⟨fun fault hfault ↦ ?_, fun s' hs' ↦ ?_⟩
  · rw [hfault] at hrun
    exact hrun.eq_error
  · rw [hs'] at hrun
    obtain ⟨c', hok, S, h, hstep⟩ := hrun.exists_ok
    exact ⟨c', S, hok, h.actor, h.holds,
      fun q hq ↦ Finmap.lookup_eq_none.mp (hstep.fresh q hq (Finset.notMem_empty q)),
      fun q hq ↦ hstep.frame q (Finset.notMem_empty q) hq⟩

end SimulatorMemory

end NBodySimulation
