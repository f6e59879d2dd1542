import NBodySimulation.Concurrency.ForcePhases
import NBodySimulation.Concurrency.ForkJoin
import NBodySimulation.Dynamics.Lifecycle

/-!
# Runs under every schedule

`Tick` as the game thread and the workers of `ParallelFor` carry it out. Between two ticks, while
the tree is built and while the bodies are moved, there is the game thread alone; a force phase
forks one task for each index of `Bodies`, and the game thread moves the bodies when all of them are
finished.

The force phases are determinate, so the simulation is as well: under every schedule of the tasks of
all of its ticks a run ends, and it ends as the run with sequential force phases does.

## Main result

* `every_schedule_run`: whole runs under every schedule.
-/

namespace NBodySimulation

open Concurrency Relation ABodySimulator

/-- The two loops that are parallel. -/
inductive ForcePhase
  | simulateCompareAllParallel
  | simulateBarnesHut

/-- The execution of a force phase over the bodies of the array. -/
structure ForceRegion (K : Type*) where
  phase : ForcePhase
  bodies : List BodyRef
  deltaTime : K

namespace ForceRegion

variable {K : Type*}

def Local : ForceRegion K → Type _
  | ⟨.simulateCompareAllParallel, _, _⟩ => CompareTask K
  | ⟨.simulateBarnesHut, _, _⟩ => List (Work K)

variable [Field K] [LinearOrder K] [PythagoreanField K]

/-- The tasks, one for each index of `Bodies`. -/
def tasks : (r : ForceRegion K) → Tasks (Fin r.bodies.length) r.Local (ABodySimulator K)
  | ⟨.simulateCompareAllParallel, bodies, deltaTime⟩ => compareTasks deltaTime bodies
  | ⟨.simulateBarnesHut, bodies, deltaTime⟩ => barnesHutTasks deltaTime bodies

def sequential : (r : ForceRegion K) → ABodySimulator K → ABodySimulator K
  | ⟨.simulateCompareAllParallel, _, deltaTime⟩, s => s.simulateCompareAllParallel deltaTime
  | ⟨.simulateBarnesHut, _, deltaTime⟩, s => s.simulateBarnesHut deltaTime

/-- `MoveAllBodies`, as it is called after the phase. -/
def moveAllBodies : (r : ForceRegion K) → ABodySimulator K → Except Fault (ABodySimulator K)
  | ⟨.simulateCompareAllParallel, _, deltaTime⟩, s => s.moveAllBodies deltaTime false
  | ⟨.simulateBarnesHut, _, deltaTime⟩, s => s.moveAllBodies deltaTime true

end ForceRegion

section Program

variable (K : Type*) [Field K] [LinearOrder K] [PythagoreanField K]

/-- `Tick` with its `ParallelFor` loops. -/
def tickProgram : ForkJoin (TickCall K) (ABodySimulator K) Fault where
  Region := ForceRegion K
  size r := r.bodies.length
  Local r := r.Local
  tasks r := r.tasks
  fork call s :=
    match call.simulationType with
    | .none => .ok (.alone (s.switchTo .none))
    | .allVsAll => .ok (.region ⟨.simulateCompareAllParallel, s.bodies, call.deltaTime⟩
        (compareStart (s.switchTo .allVsAll)))
    | .barnesHut => do
      let s ← (s.switchTo .barnesHut).constructTree call.fuel
      .ok (.region ⟨.simulateBarnesHut, s.bodies, call.deltaTime⟩ (barnesHutStart s))
  join r s := r.moveAllBodies s

variable {K} {s : ABodySimulator K} {call : TickCall K}

private theorem fork_tickProgram_ok {forked} (h : (tickProgram K).fork call s = .ok forked) :
    (call.simulationType = .none ∧ forked = .alone (s.switchTo .none)) ∨
    (call.simulationType = .allVsAll ∧
      forked = .region ⟨.simulateCompareAllParallel, s.bodies, call.deltaTime⟩
        (compareStart (s.switchTo .allVsAll))) ∨
    ∃ s₁, (s.switchTo .barnesHut).constructTree call.fuel = .ok s₁ ∧
      call.simulationType = .barnesHut ∧
      forked = .region ⟨.simulateBarnesHut, s₁.bodies, call.deltaTime⟩ (barnesHutStart s₁) := by
  cases hmode : call.simulationType with
  | none =>
    simp only [tickProgram, hmode] at h
    exact Or.inl ⟨rfl, (Except.ok.inj h).symm⟩
  | allVsAll =>
    simp only [tickProgram, hmode] at h
    exact Or.inr (Or.inl ⟨rfl, (Except.ok.inj h).symm⟩)
  | barnesHut =>
    simp only [tickProgram, hmode] at h
    rcases hbuild : (s.switchTo .barnesHut).constructTree call.fuel with fault | s₁
    · rw [hbuild] at h
      cases h
    · rw [hbuild] at h
      exact Or.inr (Or.inr ⟨s₁, rfl, rfl, (Except.ok.inj h).symm⟩)

/-- With sequential loops in place of the force phases, the program is the run. -/
theorem run_tickProgram (calls : List (TickCall K)) (s : ABodySimulator K) :
    (tickProgram K).run (fun r c ↦ r.sequential c.store) calls s = s.run calls := by
  induction calls generalizing s with
  | nil => rfl
  | cons call calls ih =>
    rw [ForkJoin.run, ABodySimulator.run]
    cases hmode : call.simulationType with
    | none =>
      rw [tickCall, hmode]
      simp only [tickProgram, hmode]
      exact ih _
    | allVsAll =>
      rw [tickCall_allVsAll_eq hmode]
      simp only [tickProgram, hmode]
      exact congrArg (_ >>= ·) (funext ih)
    | barnesHut =>
      rw [tickCall_barnesHut_bind hmode]
      simp only [tickProgram, hmode]
      cases (s.switchTo .barnesHut).constructTree call.fuel with
      | error fault => rfl
      | ok s₁ => exact congrArg (_ >>= ·) (funext ih)

variable [IsStrictOrderedRing K]

omit [PythagoreanField K] [IsStrictOrderedRing K] in
private theorem bodies_moveAllBodies {s s' : ABodySimulator K} {deltaTime : K} {bSkipAdjust : Bool}
    (hnodup : s.bodies.Nodup) (h : s.moveAllBodies deltaTime bSkipAdjust = .ok s') :
    s'.bodies = s.bodies := by
  rw [(moveBodies_spec hnodup h).1]

/-- Every force phase that a tick opens is determinate. -/
theorem correct_tickProgram : (tickProgram K).Correct (fun r c ↦ r.sequential c.store)
    fun s ↦ s.bodies.Nodup where
  alone {call s s'} hs h := by
    rcases fork_tickProgram_ok h with ⟨_, heq⟩ | ⟨_, heq⟩ | ⟨s₁, _, _, heq⟩
    · cases heq
      exact hs
    · cases heq
    · cases heq
  determinate {call s r start} hs h := by
    rcases fork_tickProgram_ok h with ⟨_, heq⟩ | ⟨_, heq⟩ | ⟨s₁, hbuild, _, heq⟩
    · cases heq
    · cases heq
      exact compareTasks_determinate (s := s.switchTo .allVsAll) hs call.deltaTime
    · cases heq
      obtain ⟨t, _, rfl⟩ := constructTree_spec hbuild
      exact barnesHutTasks_determinate (s := (s.switchTo .barnesHut).withTree t) hs call.deltaTime
  join {call s r start s'} hs h hmove := by
    rcases fork_tickProgram_ok h with ⟨_, heq⟩ | ⟨_, heq⟩ | ⟨s₁, hbuild, _, heq⟩
    · cases heq
    · cases heq
      have hbodies := bodies_moveAllBodies
        (s := (s.switchTo .allVsAll).simulateCompareAllParallel call.deltaTime) hs hmove
      rw [hbodies]
      exact hs
    · cases heq
      obtain ⟨t, _, rfl⟩ := constructTree_spec hbuild
      have hbodies := bodies_moveAllBodies
        (s := ((s.switchTo .barnesHut).withTree t).simulateBarnesHut call.deltaTime) hs hmove
      rw [hbodies]
      exact hs

/-- **Whole runs under every schedule.** However the tasks of all force phases are interleaved, a
run ends, and from wherever it has got to it ends as the run with sequential force phases does: in
the same state, or with the same fault. -/
theorem every_schedule_run (hnodup : s.bodies.Nodup) (calls : List (TickCall K)) :
    Acc (fun g f ↦ (tickProgram K).Step f g) (calls, .between s) ∧
    ∀ f, ReflTransGen (tickProgram K).Step (calls, .between s) f →
      ReflTransGen (tickProgram K).Step f ((tickProgram K).ended (s.run calls)) := by
  have hschedule := correct_tickProgram.every_schedule calls hnodup
  rwa [run_tickProgram] at hschedule

end Program

theorem every_schedule_run_twoBodyScene : ∃ fuel s',
    twoBodyScene.run [⟨.barnesHut, fuel, 5⟩, ⟨.allVsAll, 0, 1⟩] = .ok s' ∧
    ∀ f, ReflTransGen (tickProgram ℝ).Step
        ([⟨.barnesHut, fuel, 5⟩, ⟨.allVsAll, 0, 1⟩], .between twoBodyScene) f →
      ReflTransGen (tickProgram ℝ).Step f ([], .between s') := by
  obtain ⟨fuel, s₀, hs₀⟩ := exists_constructTree (s := twoBodyScene.switchTo .barnesHut)
    twoBodyScene_wellIndexed.nodup_bodies places_ne_twoBodyScene
  obtain ⟨s', hrun⟩ := exists_run_of_constructTree twoBodyScene_wellIndexed hs₀ 5 1
  have hends := (every_schedule_run twoBodyScene_wellIndexed.nodup_bodies
    [⟨.barnesHut, fuel, 5⟩, ⟨.allVsAll, 0, 1⟩]).2
  rw [hrun] at hends
  exact ⟨fuel, s', hrun, hends⟩

end NBodySimulation
