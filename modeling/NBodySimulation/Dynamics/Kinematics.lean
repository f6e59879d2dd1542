import NBodySimulation.Dynamics.Runs
import NBodySimulation.Forces.Traversal
import NBodySimulation.Quadtree.Termination

/-!
# One kinematics for both modes

The two modes wrap positions in different places. A naive tick wraps in `MoveAllBodies`, after the
forces; a Barnes-Hut tick wraps while the tree is built, because the root rejects every body that is
not strictly inside the scene, and `MoveAllBodies` is then told not to wrap. Either way a body moves
from its wrapped position along its new velocity, so it ends at most one step outside the scene.
-/

namespace NBodySimulation

namespace ABodySimulator

variable {K : Type*} [Field K] [LinearOrder K]

/-- What an active tick does to positions and transforms. -/
structure FollowsKinematics (deltaTime : K) (s s' : ABodySimulator K) : Prop where
  bodies : s'.bodies = s.bodies
  /-- Every body moves from its wrapped position along its new velocity. -/
  moved : ∀ b ∈ s.bodies, (s'.objects b).position
    = s.sceneBounds.wrap (s.objects b).position + (s'.objects b).velocity * deltaTime
  /-- One step back, every body is in the closed scene. -/
  near_scene : ∀ b ∈ s.bodies, s.sceneBounds.IsInsideOrOn
    ((s'.objects b).position - (s'.objects b).velocity * deltaTime)
  /-- The transform at the index of a body has the body's place as its translation. -/
  transform : ∀ b ∈ s.bodies, ∃ t, s'.transforms[(s'.objects b).index]? = some t ∧
    t.translation = ⟨(s'.objects b).position.x, (s'.objects b).position.y, 0⟩

/-- The move phase follows the kinematics when it starts to move every body from the wrapped place
that the body had before the tick. -/
theorem followsKinematics_of_moveBodies {deltaTime : K} {bSkipAdjust : Bool}
    {s s₁ s' : ABodySimulator K} (hs₁ : s₁.WellIndexed) (hbodies : s₁.bodies = s.bodies)
    (hx : s.sceneBounds.min.x ≤ s.sceneBounds.max.x)
    (hy : s.sceneBounds.min.y ≤ s.sceneBounds.max.y)
    (hplace : ∀ b ∈ s.bodies, s₁.adjustUnless bSkipAdjust (s₁.objects b).position
      = s.sceneBounds.wrap (s.objects b).position)
    (h : moveBodies deltaTime bSkipAdjust s₁.bodies s₁ = .ok s') :
    FollowsKinematics deltaTime s s' := by
  obtain ⟨hspec, _⟩ := moveBodies_spec hs₁.nodup_bodies h
  have hobjects := objects_moveBodies hs₁.nodup_bodies h
  have hmoved : ∀ b ∈ s.bodies, (s'.objects b).position
      = s.sceneBounds.wrap (s.objects b).position + (s'.objects b).velocity * deltaTime := by
    intro b hb
    rw [hobjects, BodyHeap.drift_of_mem (hbodies ▸ hb), ← hplace b hb]
    rfl
  refine ⟨?_, hmoved, fun b hb ↦ ?_, fun b hb ↦ ?_⟩
  · rw [hspec]
    exact hbodies
  · rw [hmoved b hb, add_sub_cancel_right]
    exact FBox2D.isInsideOrOn_wrap hx hy _
  · have hb₁ : b ∈ s₁.bodies := hbodies ▸ hb
    have hget := transforms_moveBodies_of_mem hs₁.nodup_index h hb₁
    rw [List.getElem?_eq_getElem (hs₁.index_lt hb₁), Option.map_some] at hget
    rw [hobjects, BodyHeap.index_drift, ← hobjects, hget]
    exact ⟨_, rfl, rfl⟩

variable [PythagoreanField K] {s s' : ABodySimulator K} {call : TickCall K}

/-! ## The two force phases -/

theorem index_simulateCompareAllParallel (hnodup : s.bodies.Nodup) (deltaTime : K) (b : BodyRef) :
    ((s.simulateCompareAllParallel deltaTime).objects b).index = (s.objects b).index := by
  rw [simulateCompareAllParallel_objects deltaTime hnodup]
  exact (BodyHeap.sameButVelocity_kick _ _ _ b).index

theorem index_simulateBarnesHut (hnodup : s.bodies.Nodup) (deltaTime : K) (b : BodyRef) :
    ((s.simulateBarnesHut deltaTime).objects b).index = (s.objects b).index := by
  rw [simulateBarnesHut_objects deltaTime hnodup]
  exact (BodyHeap.sameButVelocity_kick _ _ _ b).index

theorem WellIndexed.simulateCompareAllParallel (hs : s.WellIndexed) (deltaTime : K) :
    (s.simulateCompareAllParallel deltaTime).WellIndexed :=
  hs.of_index_eq rfl (index_simulateCompareAllParallel hs.nodup_bodies deltaTime) rfl

theorem WellIndexed.simulateBarnesHut (hs : s.WellIndexed) (deltaTime : K) :
    (s.simulateBarnesHut deltaTime).WellIndexed :=
  hs.of_index_eq rfl (index_simulateBarnesHut hs.nodup_bodies deltaTime) rfl

omit [PythagoreanField K] in
theorem WellIndexed.withTree (hs : s.WellIndexed) (t : BodyTree) : (s.withTree t).WellIndexed :=
  hs.of_index_eq rfl (fun b ↦ BodyHeap.index_settle s.objects s.sceneBounds s.bodies b) rfl

theorem tickCall_allVsAll_eq (hcall : call.simulationType = .allVsAll) :
    s.tickCall call = moveBodies call.deltaTime false s.bodies
      ((s.switchTo .allVsAll).simulateCompareAllParallel call.deltaTime) := by
  rw [tickCall, hcall]
  rfl

theorem tickCall_barnesHut_bind (hcall : call.simulationType = .barnesHut) :
    s.tickCall call = (do
      let s₁ ← (s.switchTo .barnesHut).constructTree call.fuel
      moveAllBodies call.deltaTime true (s₁.simulateBarnesHut call.deltaTime)) := by
  rw [tickCall, hcall]
  rfl

theorem constructTree_of_tickCall (hcall : call.simulationType = .barnesHut)
    (h : s.tickCall call = .ok s') :
    ∃ s₁, (s.switchTo .barnesHut).constructTree call.fuel = .ok s₁ := by
  rw [tickCall_barnesHut_bind hcall] at h
  cases hs₁ : (s.switchTo .barnesHut).constructTree call.fuel with
  | ok s₁ => exact ⟨s₁, rfl⟩
  | error fault => simp [hs₁, bind, Except.bind] at h

section Ticks

variable [IsStrictOrderedRing K]

theorem tickCall_barnesHut_eq (hcall : call.simulationType = .barnesHut)
    {s₁ : ABodySimulator K} (h : (s.switchTo .barnesHut).constructTree call.fuel = .ok s₁) :
    ∃ t, s.Canonical t ∧ s.tickCall call = moveBodies call.deltaTime true s.bodies
      (((s.switchTo .barnesHut).withTree t).simulateBarnesHut call.deltaTime) := by
  obtain ⟨t, hc, rfl⟩ := constructTree_spec h
  refine ⟨t, hc, ?_⟩
  rw [tickCall_barnesHut_bind hcall, h]
  rfl

/-- An active tick that has its tree moves the bodies, from a state with the same array and scene in
which every body still is at, or has been brought to, its place before the tick. -/
theorem exists_moveBodies_eq_tickCall (hs : s.WellIndexed) (hactive : call.simulationType ≠ .none)
    (hfin : call.simulationType = .barnesHut →
      ∃ s₁, (s.switchTo .barnesHut).constructTree call.fuel = .ok s₁) :
    ∃ bSkipAdjust s₁, s.tickCall call = moveBodies call.deltaTime bSkipAdjust s₁.bodies s₁ ∧
      s₁.WellIndexed ∧ s₁.bodies = s.bodies ∧ s₁.sceneBounds = s.sceneBounds ∧
      ∀ b ∈ s.bodies, s₁.adjustUnless bSkipAdjust (s₁.objects b).position
        = s.sceneBounds.wrap (s.objects b).position := by
  have hmode : ∀ mode, (s.switchTo mode).WellIndexed := fun mode ↦
    hs.of_index_eq rfl (fun _ ↦ rfl) rfl
  cases hcall : call.simulationType with
  | none => exact absurd hcall hactive
  | allVsAll =>
    refine ⟨false, _, tickCall_allVsAll_eq hcall,
      (hmode .allVsAll).simulateCompareAllParallel call.deltaTime, rfl, rfl, fun b hb ↦ ?_⟩
    rw [simulateCompareAllParallel_objects call.deltaTime (hmode .allVsAll).nodup_bodies,
      (BodyHeap.sameButVelocity_kick _ _ _ b).position]
    rfl
  | barnesHut =>
    obtain ⟨s₁, hs₁⟩ := hfin hcall
    obtain ⟨t, _, htick⟩ := tickCall_barnesHut_eq hcall hs₁
    have hindexed := (hmode .barnesHut).withTree t
    refine ⟨true, _, htick, hindexed.simulateBarnesHut call.deltaTime, rfl, rfl, fun b hb ↦ ?_⟩
    rw [simulateBarnesHut_objects call.deltaTime hindexed.nodup_bodies,
      (BodyHeap.sameButVelocity_kick _ _ _ b).position]
    show (s.objects.settle s.sceneBounds s.bodies b).position = _
    rw [BodyHeap.settle_of_mem hb]
    rfl

omit [PythagoreanField K] [IsStrictOrderedRing K] in
theorem WellIndexed.moveBodies {deltaTime : K} {bSkipAdjust : Bool} (hs : s.WellIndexed)
    (h : ABodySimulator.moveBodies deltaTime bSkipAdjust s.bodies s = .ok s') :
    s'.WellIndexed ∧ s'.sceneBounds = s.sceneBounds := by
  obtain ⟨hspec, hlen⟩ := moveBodies_spec hs.nodup_bodies h
  refine ⟨hs.of_index_eq ?_ (fun b ↦ ?_) hlen, ?_⟩
  · rw [hspec]
  · rw [objects_moveBodies hs.nodup_bodies h, BodyHeap.index_drift]
  · rw [hspec]

theorem WellIndexed.tickCall (hs : s.WellIndexed) (h : s.tickCall call = .ok s') :
    s'.WellIndexed ∧ s'.sceneBounds = s.sceneBounds := by
  by_cases hactive : call.simulationType = .none
  · rw [ABodySimulator.tickCall, hactive] at h
    obtain rfl : s.switchTo .none = s' := Except.ok.inj h
    exact ⟨hs.of_index_eq rfl (fun _ ↦ rfl) rfl, rfl⟩
  · obtain ⟨bSkipAdjust, s₁, htick, hs₁, _, hbounds, _⟩ := exists_moveBodies_eq_tickCall hs hactive
      fun hcall ↦ constructTree_of_tickCall hcall h
    obtain ⟨hs', hbounds'⟩ := hs₁.moveBodies (htick.symm.trans h)
    exact ⟨hs', hbounds'.trans hbounds⟩

theorem WellIndexed.run {calls : List (TickCall K)} (hs : s.WellIndexed)
    (h : s.run calls = .ok s') : s'.WellIndexed ∧ s'.sceneBounds = s.sceneBounds := by
  refine run_invariant (I := fun _ s₁ ↦ s₁.WellIndexed ∧ s₁.sceneBounds = s.sceneBounds)
    ⟨hs, rfl⟩ ?_ h
  rintro _ call _ s₁ s₂ _ _ ⟨hs₁, hbounds₁⟩ htick
  obtain ⟨hs₂, hbounds₂⟩ := hs₁.tickCall htick
  exact ⟨hs₂, hbounds₂.trans hbounds₁⟩

/-! ## The kinematics of a run -/

/-- **Both modes share one kinematics.** After any run, in whatever modes its ticks were made, one
more tick returns as soon as its tree construction, if it has one, ends. A tick in mode `None`
changes nothing, and any other tick follows the kinematics. -/
theorem exists_tickCall_followsKinematics {calls : List (TickCall K)} {s₀ : ABodySimulator K}
    (hs₀ : s₀.WellIndexed) (hx : s₀.sceneBounds.min.x ≤ s₀.sceneBounds.max.x)
    (hy : s₀.sceneBounds.min.y ≤ s₀.sceneBounds.max.y) (hrun : s₀.run calls = .ok s)
    (hfin : call.simulationType = .barnesHut →
      ∃ s₁, (s.switchTo .barnesHut).constructTree call.fuel = .ok s₁) :
    ∃ s', s.tickCall call = .ok s' ∧
      (call.simulationType = .none → s' = s.switchTo .none) ∧
      (call.simulationType ≠ .none → FollowsKinematics call.deltaTime s s') := by
  obtain ⟨hs, hbounds⟩ := hs₀.run hrun
  rw [← hbounds] at hx hy
  by_cases hactive : call.simulationType = .none
  · refine ⟨s.switchTo .none, ?_, fun _ ↦ rfl, fun h ↦ absurd hactive h⟩
    rw [ABodySimulator.tickCall, hactive]
    rfl
  · obtain ⟨bSkipAdjust, s₁, htick, hs₁, hbodies, _, hplace⟩ :=
      exists_moveBodies_eq_tickCall hs hactive hfin
    obtain ⟨s', hmove⟩ : ∃ s', ABodySimulator.moveBodies call.deltaTime bSkipAdjust s₁.bodies s₁
        = .ok s' := exists_moveBodies fun b hb ↦ hs₁.index_lt hb
    exact ⟨s', htick.trans hmove, fun h ↦ absurd h hactive, fun _ ↦
      followsKinematics_of_moveBodies hs₁ hbodies hx hy hplace hmove⟩

end Ticks

/-- A naive tick of five seconds takes both bodies of the scene out of it, to different places. -/
theorem outside_twoBodyScene {s : ABodySimulator ℝ}
    (h : twoBodyScene.run [⟨.allVsAll, 0, 5⟩] = .ok s) :
    (∀ b ∈ s.bodies, s.sceneBounds.wrap (s.objects b).position ≠ (s.objects b).position) ∧
      ∀ b ∈ s.bodies, ∀ c ∈ s.bodies, b ≠ c → (s.objects b).position ≠ (s.objects c).position := by
  obtain ⟨h₀, h₁⟩ := position_tickCall_twoBodyScene (run_singleton.mp h)
  obtain ⟨hspec, _⟩ := tickCall_allVsAll rfl twoBodyScene_wellIndexed.nodup_bodies
    (run_singleton.mp h)
  have hbodies : s.bodies = [0, 1] := by
    rw [hspec]
    rfl
  have hbounds : s.sceneBounds = ⟨⟨0, 0⟩, ⟨8, 8⟩⟩ := by
    rw [hspec]
    rfl
  rw [hbodies, hbounds]
  constructor
  · intro b hb hsame
    have hb2 : b < 2 := List.mem_range.mp hb
    have hclosed : FBox2D.IsInsideOrOn ⟨⟨0, 0⟩, ⟨8, 8⟩⟩ (s.objects b).position :=
      hsame ▸ FBox2D.isInsideOrOn_wrap (by norm_num) (by norm_num) _
    interval_cases b
    · norm_num [h₀, FBox2D.IsInsideOrOn] at hclosed
    · norm_num [h₁, FBox2D.IsInsideOrOn] at hclosed
  · have hne : (s.objects 0).position ≠ (s.objects 1).position := by
      rw [h₀, h₁]
      norm_num [FVector2D.ext_iff]
    simp [hne, hne.symm]

theorem exists_tickCall_followsKinematics_twoBodyScene :
    ∃ s s' fuel, twoBodyScene.run [⟨.allVsAll, 0, 5⟩] = .ok s ∧
      (∀ b ∈ s.bodies, s.sceneBounds.wrap (s.objects b).position ≠ (s.objects b).position) ∧
      s.tickCall ⟨.barnesHut, fuel, 1⟩ = .ok s' ∧ FollowsKinematics 1 s s' := by
  obtain ⟨s, hrun⟩ : ∃ s, twoBodyScene.run [⟨.allVsAll, 0, 5⟩] = .ok s :=
    exists_run_allVsAll twoBodyScene_wellIndexed.addressed (by simp)
  obtain ⟨houtside, hplaces⟩ := outside_twoBodyScene hrun
  have hs : s.WellIndexed := (twoBodyScene_wellIndexed.run hrun).1
  obtain ⟨fuel, s₁, hs₁⟩ := exists_constructTree (s := s.switchTo .barnesHut) hs.nodup_bodies
    hplaces
  have hside : (0 : ℝ) ≤ 8 := by norm_num
  obtain ⟨s', htick, _, hmoves⟩ := @exists_tickCall_followsKinematics ℝ _ _ _ s
    ⟨.barnesHut, fuel, 1⟩ _ [⟨.allVsAll, 0, 5⟩] twoBodyScene twoBodyScene_wellIndexed hside hside
    hrun fun _ ↦ ⟨s₁, hs₁⟩
  exact ⟨s, s', fuel, hrun, houtside, htick, hmoves (by simp)⟩

end ABodySimulator

end NBodySimulation
