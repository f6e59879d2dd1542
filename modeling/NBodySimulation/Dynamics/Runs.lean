import NBodySimulation.Dynamics.Moving
import NBodySimulation.Dynamics.Velocity

/-!
# Runs of ticks

A run is a list of calls of `Tick`. Between two calls the mode may be switched, so each call says in
which mode it is made. A run ends when all of its calls do.

## Main results

* `ABodySimulator.run_invariant`: what every call keeps, a run keeps.
* `ABodySimulator.tickCall_allVsAll`, `ABodySimulator.exists_run_allVsAll`: what a naive tick does,
  and that runs of naive ticks end.
-/

namespace NBodySimulation

/-- One call of `Tick`: the mode the simulation is in, the recursion depth granted to `Insert`, and
`DeltaTime`. -/
structure TickCall (K : Type*) where
  simulationType : ESimulationType
  fuel : ℕ
  deltaTime : K

namespace ABodySimulator

variable {K : Type*}

def switchTo (simulationType : ESimulationType) (s : ABodySimulator K) : ABodySimulator K :=
  { s with simulationType := simulationType }

/-- Distinct body objects, each with an index of `Transforms`. -/
structure Addressed (s : ABodySimulator K) : Prop where
  nodup_bodies : s.bodies.Nodup
  index_lt : ∀ b ∈ s.bodies, (s.objects b).index < s.transforms.length

theorem WellIndexed.addressed {s : ABodySimulator K} (h : s.WellIndexed) : s.Addressed :=
  ⟨h.nodup_bodies, fun _ ↦ h.index_lt⟩

variable [Field K] [LinearOrder K] [PythagoreanField K]

def tickCall (call : TickCall K) (s : ABodySimulator K) : Except Fault (ABodySimulator K) :=
  tick call.fuel call.deltaTime (s.switchTo call.simulationType)

def run : List (TickCall K) → ABodySimulator K → Except Fault (ABodySimulator K)
  | [], s => .ok s
  | call :: calls, s => do
    let s ← s.tickCall call
    run calls s

variable {s s' : ABodySimulator K} {call : TickCall K} {calls : List (TickCall K)}

theorem run_cons : s.run (call :: calls) = .ok s' ↔
    ∃ s₁, s.tickCall call = .ok s₁ ∧ s₁.run calls = .ok s' := by
  rw [run]
  cases h : s.tickCall call with
  | error fault => simp [bind, Except.bind]
  | ok s₁ => simp [bind, Except.bind]

theorem run_singleton : s.run [call] = .ok s' ↔ s.tickCall call = .ok s' := by
  rw [run_cons]
  simp [run]

theorem run_append {done rest : List (TickCall K)} : s.run (done ++ rest) = .ok s' ↔
    ∃ s₁, s.run done = .ok s₁ ∧ s₁.run rest = .ok s' := by
  induction done generalizing s with
  | nil => simp [run]
  | cons call done ih =>
    simp only [List.cons_append, run_cons, ih]
    constructor
    · rintro ⟨s₁, htick, s₂, hdone, hrest⟩
      exact ⟨s₂, ⟨s₁, htick, hdone⟩, hrest⟩
    · rintro ⟨s₂, ⟨s₁, htick, hdone⟩, hrest⟩
      exact ⟨s₁, htick, s₂, hdone, hrest⟩

/-- **The invariant rule of runs.** What holds initially, and is kept by every call made on the
state that the calls before it lead to, holds finally. It may depend on the calls made so far. -/
theorem run_invariant {I : List (TickCall K) → ABodySimulator K → Prop} (hinit : I [] s)
    (hstep : ∀ done call rest s₁ s₂, calls = done ++ call :: rest → s.run done = .ok s₁ →
      I done s₁ → s₁.tickCall call = .ok s₂ → I (done ++ [call]) s₂)
    (hrun : s.run calls = .ok s') : I calls s' := by
  induction calls using List.reverseRecOn generalizing s' with
  | nil =>
    obtain rfl := Except.ok.inj hrun
    exact hinit
  | append_singleton calls call ih =>
    obtain ⟨s₁, hbefore, hlast⟩ := run_append.mp hrun
    have hkept : I calls s₁ := by
      refine ih (fun done c rest s₁ s₂ hsplit ↦ hstep done c (rest ++ [call]) s₁ s₂ ?_) hbefore
      rw [hsplit, List.append_assoc, List.cons_append]
    exact hstep calls call [] s₁ s' rfl hbefore hkept (run_singleton.mp hlast)

/-! ## One tick of the naive simulation -/

/-- The objects after one tick of the naive simulation. -/
def naiveObjects (s : ABodySimulator K) (deltaTime : K) : BodyHeap K :=
  (s.objects.kick s.bodies fun b ↦ s.naivePull s.objects b * deltaTime).drift s.bodies
    s.adjustPosition deltaTime

theorem naiveObjects_of_mem {deltaTime : K} {b : BodyRef} (hb : b ∈ s.bodies) :
    s.naiveObjects deltaTime b = ((s.objects b).accelerate
      (s.naivePull s.objects b * deltaTime)).advance s.adjustPosition deltaTime := by
  rw [naiveObjects, BodyHeap.drift_of_mem hb, BodyHeap.kick_of_mem hb]

@[simp] theorem index_naiveObjects (deltaTime : K) (b : BodyRef) :
    (s.naiveObjects deltaTime b).index = (s.objects b).index := by
  rw [naiveObjects, BodyHeap.index_drift]
  exact (s.objects.sameButVelocity_kick _ _ b).index

@[simp] theorem mass_naiveObjects (deltaTime : K) (b : BodyRef) :
    (s.naiveObjects deltaTime b).mass = (s.objects b).mass := by
  rw [naiveObjects, BodyHeap.mass_drift]
  exact (s.objects.sameButVelocity_kick _ _ b).mass

theorem velocity_naiveObjects {deltaTime : K} {b : BodyRef} (hb : b ∈ s.bodies) :
    (s.naiveObjects deltaTime b).velocity
      = (s.objects b).velocity + s.naivePull s.objects b * deltaTime := by
  rw [naiveObjects_of_mem hb]
  rfl

/-- **One naive tick** kicks all bodies by their pulls on the starting heap, and then moves them. -/
theorem tickCall_allVsAll (hcall : call.simulationType = .allVsAll) (hnodup : s.bodies.Nodup)
    (h : s.tickCall call = .ok s') :
    s' = { s with
      simulationType := .allVsAll
      objects := s.naiveObjects call.deltaTime
      transforms := s'.transforms } ∧ s'.transforms.length = s.transforms.length := by
  rw [tickCall, hcall] at h
  have hmove : moveBodies call.deltaTime false s.bodies
      ((s.switchTo .allVsAll).simulateCompareAllParallel call.deltaTime) = .ok s' := h
  have hkick := simulateCompareAllParallel_objects call.deltaTime
    (show (s.switchTo .allVsAll).bodies.Nodup from hnodup)
  obtain ⟨hspec, hlen⟩ := moveBodies_spec hnodup hmove
  refine ⟨?_, hlen⟩
  rw [hspec, hkick]
  rfl

theorem exists_tickCall_allVsAll (hcall : call.simulationType = .allVsAll) (hs : s.Addressed) :
    ∃ s', s.tickCall call = .ok s' := by
  have hkick := simulateCompareAllParallel_objects call.deltaTime
    (show (s.switchTo .allVsAll).bodies.Nodup from hs.nodup_bodies)
  have hlt : ∀ b ∈ s.bodies,
      (((s.switchTo .allVsAll).simulateCompareAllParallel call.deltaTime).objects b).index
        < ((s.switchTo .allVsAll).simulateCompareAllParallel call.deltaTime).transforms.length := by
    intro b hb
    rw [hkick, (BodyHeap.sameButVelocity_kick _ _ _ b).index]
    exact hs.index_lt b hb
  rw [tickCall, hcall]
  exact exists_moveBodies hlt

theorem Addressed.naive_tick (hs : s.Addressed) (hcall : call.simulationType = .allVsAll)
    (h : s.tickCall call = .ok s') : s'.Addressed := by
  obtain ⟨hspec, hlen⟩ := tickCall_allVsAll hcall hs.nodup_bodies h
  rw [hspec]
  refine ⟨hs.nodup_bodies, fun b hb ↦ ?_⟩
  show (s.naiveObjects call.deltaTime b).index < s'.transforms.length
  rw [index_naiveObjects, hlen]
  exact hs.index_lt b hb

theorem exists_run_allVsAll (hs : s.Addressed)
    (hcalls : ∀ call ∈ calls, call.simulationType = .allVsAll) : ∃ s', s.run calls = .ok s' := by
  induction calls generalizing s with
  | nil => exact ⟨s, rfl⟩
  | cons call calls ih =>
    have hcall := hcalls call List.mem_cons_self
    obtain ⟨s₁, htick⟩ := exists_tickCall_allVsAll hcall hs
    obtain ⟨s', hrun⟩ := ih (hs.naive_tick hcall htick) fun c hc ↦
      hcalls c (List.mem_cons_of_mem call hc)
    exact ⟨s', run_cons.mpr ⟨s₁, htick, hrun⟩⟩

end ABodySimulator

/-! ## Two bodies -/

open ABodySimulator

/-- The bodies of the scene are nearer to each other than its clamp. -/
theorem naivePull_twoBodyScene :
    twoBodyScene.naivePull twoBodyScene.objects 0 = ⟨9 / 50, 3 / 20⟩ ∧
      twoBodyScene.naivePull twoBodyScene.objects 1 = ⟨-3 / 25, -1 / 10⟩ := by
  have hbodies : twoBodyScene.bodies = [0, 1] := rfl
  have h₀ : twoBodyScene.objects 0 = .initializeBody ⟨1, 1⟩ ⟨3, 0⟩ 20 0 100 1000 := rfl
  have h₁ : twoBodyScene.objects 1 = .initializeBody ⟨7, 6⟩ ⟨0, 1⟩ 30 1 100 1000 := rfl
  have hclamp : twoBodyScene.minimumGravityDistance = 100 := rfl
  have hg : twoBodyScene.g = 1000 := rfl
  have hle : FVector2D.distance (⟨1, 1⟩ : FVector2D ℝ) ⟨7, 6⟩ ≤ 100 :=
    FVector2D.distance_le_of_sq (by norm_num) (by norm_num)
  have hle' : FVector2D.distance (⟨7, 6⟩ : FVector2D ℝ) ⟨1, 1⟩ ≤ 100 := by
    rwa [FVector2D.distance_comm]
  simp only [naivePull, pullOf, attraction, UBodyEntity.initializeBody, hbodies, h₀, h₁, hclamp, hg,
    List.map_cons, List.map_nil, List.sum_cons, List.sum_nil, max_eq_right hle, max_eq_right hle']
  constructor <;> ext <;> norm_num

theorem position_tickCall_twoBodyScene {deltaTime : ℝ} {s' : ABodySimulator ℝ}
    (h : twoBodyScene.tickCall ⟨.allVsAll, 0, deltaTime⟩ = .ok s') :
    (s'.objects 0).position = ⟨1 + (3 + 9 / 50 * deltaTime) * deltaTime,
        1 + 3 / 20 * deltaTime * deltaTime⟩ ∧
      (s'.objects 1).position = ⟨7 + -3 / 25 * deltaTime * deltaTime,
        6 + (1 + -1 / 10 * deltaTime) * deltaTime⟩ := by
  obtain ⟨hspec, _⟩ := tickCall_allVsAll rfl twoBodyScene_wellIndexed.nodup_bodies h
  have hstay : ∀ p : FVector2D ℝ, FBox2D.IsInsideOrOn ⟨⟨0, 0⟩, ⟨8, 8⟩⟩ p →
      twoBodyScene.adjustPosition p = p := fun p ↦ FBox2D.wrap_of_isInsideOrOn
  have h₀ : twoBodyScene.objects 0 = .initializeBody ⟨1, 1⟩ ⟨3, 0⟩ 20 0 100 1000 := rfl
  have h₁ : twoBodyScene.objects 1 = .initializeBody ⟨7, 6⟩ ⟨0, 1⟩ 30 1 100 1000 := rfl
  rw [hspec]
  constructor
  · show (twoBodyScene.naiveObjects deltaTime 0).position = _
    rw [naiveObjects_of_mem (by decide), naivePull_twoBodyScene.1, h₀]
    simp only [UBodyEntity.advance, UBodyEntity.accelerate, UBodyEntity.initializeBody]
    rw [hstay _ (by norm_num [FBox2D.IsInsideOrOn])]
    ext <;> simp
  · show (twoBodyScene.naiveObjects deltaTime 1).position = _
    rw [naiveObjects_of_mem (by decide), naivePull_twoBodyScene.2, h₁]
    simp only [UBodyEntity.advance, UBodyEntity.accelerate, UBodyEntity.initializeBody]
    rw [hstay _ (by norm_num [FBox2D.IsInsideOrOn])]
    ext <;> simp

end NBodySimulation
