import NBodySimulation.Dynamics.Lifecycle
import NBodySimulation.Forces.Accuracy

/-!
# Speeds in both modes

Softening bounds the Barnes-Hut phase as well, though not by as much. A body that a leaf holds is
pulled from once or twice, and never from closer than the clamp: beneath a far split it is part of
the mass of one pull, and its own leaf may be applied a second time when that is far. The leaf of
the body itself is skipped, but a far split above it is not. So a kick is at most that of the own
mass once and of every other mass twice, all at the clamp distance.

Over a run in which the mode is switched as one likes, the speed of a body grows at most at this
rate, and since every tick starts to move from inside the scene, no body is further outside than its
last step.

## Main results

* `size_treePull_le`: the bound for one traversal.
* `speeds_bounded`: speeds and places after a run in any modes.
-/

namespace NBodySimulation

open Spatial Spatial.PointTree

section Kicks

variable {K : Type*} [Field K] [LinearOrder K]

namespace ABodySimulator

/-- The masses that can pull a body in one phase: its own once, and those of the others twice. -/
def pullingMass (s : ABodySimulator K) (b : BodyRef) : K :=
  (s.objects b).mass + (2 : ℕ) * s.othersMass b

/-- How often the leaf that holds one body can count for another. -/
def weight (heap : BodyHeap K) (body c : BodyRef) : K :=
  if (heap c).index = (heap body).index then 1 else (2 : ℕ)

open UQuadTree

variable [PythagoreanField K] [IsStrictOrderedRing K]

omit [PythagoreanField K] in
private theorem one_le_weight (heap : BodyHeap K) (body c : BodyRef) : 1 ≤ weight heap body c := by
  rw [weight]
  split
  · exact le_rfl
  · rw [Nat.cast_ofNat]
    exact one_le_two

/-- **One traversal**: the pull of a stored tree. -/
theorem size_treePull_le {theta : K} {heap : BodyHeap K} {body : BodyRef} {isRoot : Bool}
    {box : FBox2D K} {t : BodyTree} (hmass : ∀ c ∈ t.leaves, 0 ≤ (heap c).mass)
    (hg : 0 ≤ (heap body).g) (hclamp : 0 < (heap body).minimumGravityDistance) :
    (treePull theta heap body (represent heap isRoot box t)).size
      ≤ (t.leaves.map fun c ↦ weight heap body c * (heap c).mass
          * ((heap body).g / (heap body).minimumGravityDistance ^ 2)).sum := by
  induction t generalizing isRoot box with
  | empty =>
    rw [treePull_empty, leaves_empty, Multiset.map_zero, Multiset.sum_zero, FVector2D.size_zero]
  | leaf c =>
    have hc := hmass c (Multiset.mem_singleton_self c)
    rw [treePull_leaf, leaves_leaf, Multiset.map_singleton, Multiset.sum_singleton, weight]
    by_cases hindex : (heap c).index = (heap body).index
    · rw [if_pos hindex, if_pos hindex, FVector2D.size_zero]
      positivity
    · have hpull : (nodePull heap heap body isRoot box (.leaf c)).size
          ≤ (heap c).mass * ((heap body).g / (heap body).minimumGravityDistance ^ 2) := by
        rw [nodePull_leaf, ← mul_div_assoc]
        exact size_attraction_le hg hclamp hc _ _
      rw [if_neg hindex, if_neg hindex]
      refine (FVector2D.size_add_le _ _).trans ?_
      rw [mul_assoc, Nat.cast_ofNat, two_mul]
      refine add_le_add hpull ?_
      split
      · exact hpull
      · rw [FVector2D.size_zero]
        positivity
  | split c child ih =>
    by_cases hfar : isFar theta heap heap body isRoot box (.split c child) = true
    · obtain ⟨center, hcenter⟩ :=
        Option.isSome_iff_exists.mp (isSome_getCenterOfMass_of_farTest hfar)
      rw [getCenterOfMass_split] at hcenter
      have htotal : 0 ≤ (fieldsOf heap isRoot box (.split c child)).mass := by
        rw [fieldsOf_mass]
        refine Multiset.sum_nonneg fun m hm ↦ ?_
        obtain ⟨d, hd, rfl⟩ := Multiset.mem_map.mp hm
        exact hmass d hd
      have hpull : (nodePull heap heap body isRoot box (.split c child)).size
          ≤ ((split c child).leaves.map fun d ↦ weight heap body d * (heap d).mass
            * ((heap body).g / (heap body).minimumGravityDistance ^ 2)).sum := by
        rw [nodePull_split hcenter]
        refine (size_attraction_le hg hclamp htotal _ _).trans ?_
        rw [fieldsOf_mass, mul_div_assoc, ← Multiset.sum_map_mul_right]
        refine Multiset.sum_map_le_sum_map _ _ fun d hd ↦ ?_
        have hd := hmass d hd
        exact mul_le_mul_of_nonneg_right (le_mul_of_one_le_left hd (one_le_weight _ _ d))
          (by positivity)
      rw [treePull_split, if_pos hfar]
      split
      · exact hpull
      · rw [FVector2D.size_zero]
        exact (FVector2D.size_nonneg _).trans hpull
    · rw [treePull_split, if_neg hfar, ← Fin.sum_univ_def, sum_map_leaves_split]
      refine FVector2D.size_multisetSum_le Finset.univ.val fun i _ ↦ ?_
      exact ih i fun d hd ↦ hmass d (mem_leaves_split.mpr ⟨i, hd⟩)

omit [LinearOrder K] [PythagoreanField K] [IsStrictOrderedRing K] in
private theorem sum_weight {s : ABodySimulator K}
    (hindex : (s.bodies.map fun b ↦ (s.objects b).index).Nodup) {b : BodyRef} (hb : b ∈ s.bodies) :
    (s.bodies.map fun c ↦ weight s.objects b c * (s.objects c).mass).sum = s.pullingMass b := by
  have hskip := sum_skip_add hindex (fun c ↦ (s.objects c).mass) hb
  have hothers : (s.bodies.map fun c ↦
      if (s.objects c).index = (s.objects b).index then 0 else (s.objects c).mass).sum
      = s.othersMass b := by
    rw [List.sum_map_ite, List.map_const', List.sum_replicate, smul_zero, zero_add]
    rfl
  have hweight : (s.bodies.map fun c ↦ weight s.objects b c * (s.objects c).mass)
      = s.bodies.map fun c ↦ (s.objects c).mass
        + if (s.objects c).index = (s.objects b).index then 0 else (s.objects c).mass := by
    refine List.map_congr_left fun c _ ↦ ?_
    rw [weight]
    split
    · rw [one_mul, add_zero]
    · rw [Nat.cast_ofNat, two_mul]
  rw [hweight, List.sum_map_add, ← hskip, hothers, pullingMass]
  ring

/-- **One kick** of the Barnes-Hut phase, on the tree of the bodies. -/
theorem size_treePull_le_pullingMass {s : ABodySimulator K} (theta : K) {t : BodyTree}
    (hindex : (s.bodies.map fun b ↦ (s.objects b).index).Nodup) (hgravity : s.SharedGravity)
    (hmass : ∀ b ∈ s.bodies, 0 ≤ (s.objects b).mass) (hg : 0 ≤ s.g)
    (hclamp : 0 < s.minimumGravityDistance)
    (hc : CanonicalFor s.objects s.sceneBounds s.bodies t) {b : BodyRef} (hb : b ∈ s.bodies) :
    (treePull theta s.objects b (represent s.objects true s.sceneBounds t)).size
      ≤ s.g * s.pullingMass b / s.minimumGravityDistance ^ 2 := by
  obtain ⟨hgb, hdistance⟩ := hgravity b hb
  have hsubset : ∀ c ∈ t.leaves, c ∈ s.bodies := fun c hc' ↦ (hc.mem_of_mem_leaves hc').1
  have hle : t.leaves ≤ s.bodies := by
    refine (Multiset.le_iff_subset (Multiset.nodup_iff_count_le_one.mpr fun c ↦ ?_)).mpr hsubset
    exact hc.count_leaves_le_one c
  obtain ⟨rest, hrest⟩ := Multiset.le_iff_exists_add.mp hle
  have hpull : (treePull theta s.objects b (represent s.objects true s.sceneBounds t)).size ≤ _ :=
    size_treePull_le (fun c hc' ↦ hmass c (hsubset c hc')) (hgb ▸ hg) (hdistance ▸ hclamp)
  rw [hgb, hdistance] at hpull
  have hterm : ∀ c ∈ s.bodies, 0 ≤ weight s.objects b c * (s.objects c).mass
      * (s.g / s.minimumGravityDistance ^ 2) := by
    intro c hc'
    have hc' := hmass c hc'
    have hweight := zero_le_one.trans (one_le_weight s.objects b c)
    positivity
  calc (treePull theta s.objects b (represent s.objects true s.sceneBounds t)).size
      ≤ (t.leaves.map fun c ↦ weight s.objects b c * (s.objects c).mass
          * (s.g / s.minimumGravityDistance ^ 2)).sum := hpull
    _ ≤ ((s.bodies : Multiset BodyRef).map fun c ↦ weight s.objects b c * (s.objects c).mass
          * (s.g / s.minimumGravityDistance ^ 2)).sum := by
      rw [hrest, Multiset.map_add, Multiset.sum_add]
      refine le_add_of_nonneg_right (Multiset.sum_nonneg fun v hv ↦ ?_)
      obtain ⟨c, hc', rfl⟩ := Multiset.mem_map.mp hv
      refine hterm c ?_
      rw [← Multiset.mem_coe, hrest]
      exact Multiset.mem_add.mpr (Or.inr hc')
    _ = s.g * s.pullingMass b / s.minimumGravityDistance ^ 2 := by
      rw [Multiset.map_coe, Multiset.sum_coe, List.sum_map_mul_right, sum_weight hindex hb]
      ring

/-! ## Ticks and runs -/

section Runs

variable {s s₁ s' : ABodySimulator K} {call : TickCall K}

omit [PythagoreanField K] [IsStrictOrderedRing K] in
/-- The parameters of gravity are such that softening works, and every body carries them. -/
structure SoftGravity (s : ABodySimulator K) : Prop where
  wellIndexed : s.WellIndexed
  sharedGravity : s.SharedGravity
  g_nonneg : 0 ≤ s.g
  clamp_pos : 0 < s.minimumGravityDistance
  mass_nonneg : ∀ b ∈ s.bodies, 0 ≤ (s.objects b).mass

def speedGain (s : ABodySimulator K) (b : BodyRef) : K :=
  s.g * s.pullingMass b / s.minimumGravityDistance ^ 2

omit [LinearOrder K] [PythagoreanField K] [IsStrictOrderedRing K] in
private theorem SameMasses.speedGain (h : SameMasses s s') (b : BodyRef) :
    s'.speedGain b = s.speedGain b := by
  rw [ABodySimulator.speedGain, ABodySimulator.speedGain, pullingMass, pullingMass, h.othersMass,
    h.g, h.minimumGravityDistance, h.mass]

omit [PythagoreanField K] in
private theorem othersMass_nonneg (hmass : ∀ b ∈ s.bodies, 0 ≤ (s.objects b).mass) (b : BodyRef) :
    0 ≤ s.othersMass b := by
  refine List.sum_nonneg fun m hm ↦ ?_
  obtain ⟨c, hc, rfl⟩ := List.mem_map.mp hm
  exact hmass c (List.mem_filter.mp hc).1

omit [PythagoreanField K] [IsStrictOrderedRing K] in
/-- Both hold again after a change of the places, the velocities and the tree. -/
theorem SoftGravity.of_sameBodies (hs : s.SoftGravity) (hbodies : s'.bodies = s.bodies)
    (hg : s'.g = s.g) (hclamp : s'.minimumGravityDistance = s.minimumGravityDistance)
    (hsame : s.objects.SameBodies s'.objects s.bodies)
    (hlen : s'.transforms.length = s.transforms.length) : s'.SoftGravity ∧ SameMasses s s' := by
  refine ⟨⟨hs.wellIndexed.of_index_eq hbodies hsame.index hlen, fun b hb ↦ ?_, hg ▸ hs.g_nonneg,
    hclamp ▸ hs.clamp_pos, fun b hb ↦ ?_⟩, ⟨hbodies, hg, hclamp, hsame.index, hsame.mass⟩⟩
  · obtain ⟨hgb, hdistance⟩ := hs.sharedGravity b (hbodies ▸ hb)
    exact ⟨(hsame.g b).trans (hgb.trans hg.symm),
      (hsame.minimumGravityDistance b).trans (hdistance.trans hclamp.symm)⟩
  · rw [hsame.mass]
    exact hs.mass_nonneg b (hbodies ▸ hb)

omit [Field K] [PythagoreanField K] [IsStrictOrderedRing K] in
private theorem velocity_settle (heap : BodyHeap K) (box : FBox2D K) (bodies : List BodyRef)
    (b : BodyRef) : (heap.settle box bodies b).velocity = (heap b).velocity := by
  rw [BodyHeap.settle]
  split
  · rfl
  · rfl

/-- **The force phase of an active tick**, in either mode. -/
theorem SoftGravity.exists_prepares (hs : s.SoftGravity) (hactive : call.simulationType ≠ .none)
    (hdelta : 0 ≤ call.deltaTime) (h : s.tickCall call = .ok s') :
    ∃ bSkipAdjust s₁, (s.switchTo call.simulationType).Prepares bSkipAdjust s₁ ∧
      moveBodies call.deltaTime bSkipAdjust s₁.bodies s₁ = .ok s' ∧
      ∀ b ∈ s.bodies, (s₁.objects b).velocity.size
        ≤ (s.objects b).velocity.size + call.deltaTime * s.speedGain b := by
  have hnodup : s.bodies.Nodup := hs.wellIndexed.nodup_bodies
  have hgain : ∀ {v pull : FVector2D K} {b : BodyRef}, pull.size ≤ s.speedGain b →
      (v + pull * call.deltaTime).size ≤ v.size + call.deltaTime * s.speedGain b := by
    intro v pull b hpull
    refine (FVector2D.size_add_le _ _).trans ?_
    rw [FVector2D.size_scale, abs_of_nonneg hdelta, mul_comm]
    gcongr
  cases hcall : call.simulationType with
  | none => exact absurd hcall hactive
  | allVsAll =>
    rw [tickCall_allVsAll_eq hcall] at h
    refine ⟨false, _, prepares_simulateCompareAllParallel (s := s.switchTo .allVsAll) hnodup _, h,
      fun b hb ↦ ?_⟩
    rw [velocity_simulateCompareAllParallel call.deltaTime (s := s.switchTo .allVsAll) hnodup hb]
    refine hgain ((size_naivePull_le (s := s) hs.g_nonneg hs.clamp_pos hs.mass_nonneg b).trans ?_)
    have hothers := othersMass_nonneg hs.mass_nonneg b
    have hmass := hs.mass_nonneg b hb
    have hg := hs.g_nonneg
    rw [speedGain, pullingMass, mul_comm, Nat.cast_ofNat]
    gcongr
    linarith
  | barnesHut =>
    obtain ⟨s₀, hs₀⟩ := constructTree_of_tickCall hcall h
    have hprepares := prepares_simulateBarnesHut (s := s.switchTo .barnesHut) hnodup hs₀
      call.deltaTime
    rw [tickCall_barnesHut_bind hcall, hs₀] at h
    refine ⟨true, _, hprepares, h, fun b hb ↦ ?_⟩
    obtain ⟨t, hc, rfl⟩ := constructTree_spec hs₀
    obtain ⟨htree, hsame⟩ : ((s.switchTo .barnesHut).withTree t).SoftGravity ∧
        SameMasses s ((s.switchTo .barnesHut).withTree t) :=
      hs.of_sameBodies rfl rfl rfl (BodyHeap.sameBodies_settle _ _ _) rfl
    rw [velocity_simulateBarnesHut call.deltaTime
      (s := (s.switchTo .barnesHut).withTree t) hnodup hb]
    have hpull := size_treePull_le_pullingMass s.theta htree.wellIndexed.nodup_index
      htree.sharedGravity htree.mass_nonneg htree.g_nonneg htree.clamp_pos hc hb
    have hvelocity : (((s.switchTo .barnesHut).withTree t).objects b).velocity
        = (s.objects b).velocity := velocity_settle s.objects s.sceneBounds s.bodies b
    rw [hvelocity]
    exact hgain (hpull.trans_eq (hsame.speedGain b))

omit [LinearOrder K] [PythagoreanField K] [IsStrictOrderedRing K] in
private theorem velocity_drift (heap : BodyHeap K) (bodies : List BodyRef)
    (adjust : FVector2D K → FVector2D K) (deltaTime : K) (b : BodyRef) :
    (heap.drift bodies adjust deltaTime b).velocity = (heap b).velocity := by
  rw [BodyHeap.drift]
  split
  · rfl
  · rfl

omit [LinearOrder K] [PythagoreanField K] [IsStrictOrderedRing K] in
/-- The time that the ticks of a run have simulated. -/
def activeTime (calls : List (TickCall K)) : K :=
  ((calls.filter fun call ↦ call.simulationType ≠ .none).map TickCall.deltaTime).sum

omit [LinearOrder K] [PythagoreanField K] [IsStrictOrderedRing K] in
private theorem activeTime_append (done rest : List (TickCall K)) :
    activeTime (done ++ rest) = activeTime done + activeTime rest := by
  rw [activeTime, activeTime, activeTime, List.filter_append, List.map_append, List.sum_append]

omit [LinearOrder K] [PythagoreanField K] [IsStrictOrderedRing K] in
private theorem activeTime_singleton :
    activeTime [call] = if call.simulationType = .none then 0 else call.deltaTime := by
  by_cases hmode : call.simulationType = .none
  · simp [activeTime, hmode]
  · simp [activeTime, hmode]

/-- **One tick**, in any mode. -/
theorem SoftGravity.tickCall (hs : s.SoftGravity) (hdelta : 0 ≤ call.deltaTime)
    (h : s.tickCall call = .ok s') : s'.SoftGravity ∧ SameMasses s s' ∧
      s'.sceneBounds = s.sceneBounds ∧ ∀ b ∈ s.bodies, (s'.objects b).velocity.size
        ≤ (s.objects b).velocity.size + activeTime [call] * s.speedGain b := by
  rw [activeTime_singleton]
  by_cases hactive : call.simulationType = .none
  · rw [ABodySimulator.tickCall, hactive] at h
    obtain rfl : s.switchTo .none = s' := Except.ok.inj h
    obtain ⟨hs', hsame⟩ : (s.switchTo .none).SoftGravity ∧ SameMasses s (s.switchTo .none) :=
      hs.of_sameBodies rfl rfl rfl (.refl _ _) rfl
    refine ⟨hs', hsame, rfl, fun b _ ↦ ?_⟩
    rw [if_pos hactive, zero_mul, add_zero]
    exact le_rfl
  · obtain ⟨bSkipAdjust, s₁, hprepares, hmove, hspeed⟩ := hs.exists_prepares hactive hdelta h
    have hnodup : s₁.bodies.Nodup := hprepares.bodies ▸ hs.wellIndexed.nodup_bodies
    obtain ⟨hspec, hlen⟩ := moveBodies_spec hnodup hmove
    have hobjects := objects_moveBodies hnodup hmove
    have hbodies : s'.bodies = s₁.bodies := by rw [hspec]
    have hproperties : s'.properties = s₁.properties := by
      rw [hspec]
      rfl
    have hkept := hproperties.trans hprepares.properties
    have hsame : s.objects.SameBodies s'.objects s.bodies := by
      refine hprepares.sameBodies.trans ?_
      rw [hobjects, hprepares.bodies]
      exact BodyHeap.sameBodies_drift _ _ _ _
    obtain ⟨hs', hmasses⟩ := hs.of_sameBodies (hbodies.trans hprepares.bodies)
      (congrArg Properties.g hkept) (congrArg Properties.minimumGravityDistance hkept) hsame
      (hlen.trans (congrArg List.length hprepares.transforms))
    refine ⟨hs', hmasses, ?_, fun b hb ↦ ?_⟩
    · rw [hspec]
      exact hprepares.sceneBounds
    · rw [if_neg hactive, hobjects, velocity_drift]
      exact hspeed b hb

/-- **A whole run**, in any modes. -/
theorem SoftGravity.run {calls : List (TickCall K)} (hs : s.SoftGravity)
    (hcalls : ∀ call ∈ calls, 0 ≤ call.deltaTime) (hrun : s.run calls = .ok s') :
    s'.SoftGravity ∧ SameMasses s s' ∧ s'.sceneBounds = s.sceneBounds ∧
      ∀ b ∈ s.bodies, (s'.objects b).velocity.size
        ≤ (s.objects b).velocity.size + activeTime calls * s.speedGain b := by
  refine run_invariant (I := fun done s₁ ↦ s₁.SoftGravity ∧ SameMasses s s₁ ∧
    s₁.sceneBounds = s.sceneBounds ∧ ∀ b ∈ s.bodies, (s₁.objects b).velocity.size
      ≤ (s.objects b).velocity.size + activeTime done * s.speedGain b) ?_ ?_ hrun
  · exact ⟨hs, .refl s, rfl, fun b _ ↦ by simp [activeTime]⟩
  · rintro done call rest s₁ s₂ hsplit _ ⟨hs₁, hsame₁, hbounds₁, hspeed₁⟩ htick
    obtain ⟨hs₂, hsame₂, hbounds₂, hspeed₂⟩ := hs₁.tickCall (hcalls call (by simp [hsplit])) htick
    refine ⟨hs₂, hsame₁.trans hsame₂, hbounds₂.trans hbounds₁, fun b hb ↦ ?_⟩
    have htick := hspeed₂ b (hsame₁.bodies ▸ hb)
    rw [hsame₁.speedGain] at htick
    rw [activeTime_append]
    linarith [hspeed₁ b hb]

/-- **Speeds and places in both modes.** After any run, with the mode switched between ticks as it
may be, the speed of a body has grown at most at the rate that its own mass once and the other
masses twice would give it at the clamp distance; and after an active tick a body is no further
outside the scene than one step at this speed. -/
theorem speeds_bounded {calls : List (TickCall K)} (hs : s.SoftGravity)
    (hx : s.sceneBounds.min.x ≤ s.sceneBounds.max.x)
    (hy : s.sceneBounds.min.y ≤ s.sceneBounds.max.y)
    (hcalls : ∀ call ∈ calls, 0 ≤ call.deltaTime) (hrun : s.run calls = .ok s')
    {b : BodyRef} (hb : b ∈ s.bodies) :
    (s'.objects b).velocity.size
      ≤ (s.objects b).velocity.size + activeTime calls * s.speedGain b ∧
    ∀ done call, calls = done ++ [call] → call.simulationType ≠ .none →
      ∃ p, s.sceneBounds.IsInsideOrOn p ∧ FVector2D.distance (s'.objects b).position p
        ≤ call.deltaTime * ((s.objects b).velocity.size + activeTime calls * s.speedGain b) := by
  obtain ⟨_, _, _, hspeed⟩ := hs.run hcalls hrun
  refine ⟨hspeed b hb, ?_⟩
  rintro done call rfl hactive
  obtain ⟨s₁, hdone, hlast⟩ := run_append.mp hrun
  obtain ⟨hs₁, hsame₁, hbounds₁, _⟩ := hs.run (fun c hc ↦ hcalls c (by simp [hc])) hdone
  have hdelta := hcalls call (by simp)
  obtain ⟨bSkipAdjust, s₂, hprepares, hmove, _⟩ :=
    hs₁.exists_prepares hactive hdelta (run_singleton.mp hlast)
  rw [← hbounds₁] at hx hy
  have hmoves : FollowsKinematics call.deltaTime s₁ s' :=
    followsKinematics_of_moveBodies (hprepares.wellIndexed (hs₁.wellIndexed.of_index_eq rfl
      (fun _ ↦ rfl) rfl)) hprepares.bodies hx hy hprepares.place hmove
  refine ⟨_, hbounds₁ ▸ hmoves.near_scene b (hsame₁.bodies ▸ hb), ?_⟩
  rw [FVector2D.distance_eq_size, sub_sub_cancel, FVector2D.size_scale, abs_of_nonneg hdelta,
    mul_comm]
  exact mul_le_mul_of_nonneg_left (hspeed b hb) hdelta

end Runs

end ABodySimulator

end Kicks

open ABodySimulator

private theorem softGravity_twoBodyScene : twoBodyScene.SoftGravity where
  wellIndexed := twoBodyScene_wellIndexed
  sharedGravity := ofBodies_sharedGravity _ _ _ _ _ _
  g_nonneg := by norm_num [twoBodyScene, ofBodies]
  clamp_pos := by norm_num [twoBodyScene, ofBodies]
  mass_nonneg := ofBodies_forall_mem (P := fun body ↦ 0 ≤ body.mass) (by
    simp [UBodyEntity.initializeBody])

/-- A Barnes-Hut tick and a naive one. -/
theorem speeds_bounded_twoBodyScene : ∃ fuel s',
    twoBodyScene.run [⟨.barnesHut, fuel, 5⟩, ⟨.allVsAll, 0, 1⟩] = .ok s' ∧
    (s'.objects 0).velocity.size ≤ 51 := by
  obtain ⟨fuel, s₀, hs₀⟩ := exists_constructTree (s := twoBodyScene.switchTo .barnesHut)
    twoBodyScene_wellIndexed.nodup_bodies places_ne_twoBodyScene
  obtain ⟨s', hrun⟩ := exists_run_of_constructTree twoBodyScene_wellIndexed hs₀ 5 1
  have hside : (0 : ℝ) ≤ 8 := by norm_num
  have hspeed : (twoBodyScene.objects 0).velocity.size = 3 :=
    FVector2D.size_eq_of_sq (by norm_num) (by
      norm_num [twoBodyScene, ofBodies, UBodyEntity.initializeBody])
  have hbound := (speeds_bounded (b := 0) softGravity_twoBodyScene hside hside (by norm_num) hrun
    (by decide)).1
  have htime : activeTime [⟨.barnesHut, fuel, (5 : ℝ)⟩, ⟨.allVsAll, 0, 1⟩] = 6 := by
    rw [← List.singleton_append, activeTime_append, activeTime_singleton, activeTime_singleton,
      if_neg ESimulationType.noConfusion, if_neg ESimulationType.noConfusion]
    norm_num
  refine ⟨fuel, s', hrun, hbound.trans_eq ?_⟩
  rw [hspeed, htime]
  norm_num [speedGain, pullingMass, othersMass, twoBodyScene, ofBodies,
    UBodyEntity.initializeBody, List.range_succ]

end NBodySimulation
