import NBodySimulation.Dynamics.Conservation

/-!
# Softening bounds the kicks

The naive phase clamps every distance from below by `MinimumGravityDistance`. Under the clamp the
difference of the two places is shorter than the distance that is divided by, and above it the pull
decays, so on either side no pull is longer than it would be at the clamp. Over a run of naive ticks
the speed of a body therefore grows at a bounded rate, however close the bodies come.

## Main results

* `ABodySimulator.softened`: the bounds on the kick of one phase and on the speed after a run.
-/

namespace NBodySimulation

/-! ## The Euclidean norm -/

namespace FVector2D

section Norm

variable {K : Type*} [Field K] [LinearOrder K] [PythagoreanField K]

/-- The Euclidean norm, `FVector2D::Size`. -/
def size (v : FVector2D K) : K := PythagoreanField.hypot v.x v.y

theorem size_nonneg (v : FVector2D K) : 0 ≤ v.size := PythagoreanField.hypot_nonneg _ _

theorem size_sq (v : FVector2D K) : v.size ^ 2 = v.x ^ 2 + v.y ^ 2 :=
  PythagoreanField.hypot_sq _ _

theorem distance_eq_size (v w : FVector2D K) : distance v w = (v - w).size := rfl

variable [IsStrictOrderedRing K]

theorem size_eq_of_sq {v : FVector2D K} {r : K} (hr : 0 ≤ r) (h : r ^ 2 = v.x ^ 2 + v.y ^ 2) :
    v.size = r := by
  rw [← size_sq] at h
  exact (pow_left_inj₀ v.size_nonneg hr two_ne_zero).mp h.symm

@[simp] theorem size_zero : (0 : FVector2D K).size = 0 := size_eq_of_sq le_rfl (by simp)

theorem size_smul (s : K) (v : FVector2D K) : (s * v).size = |s| * v.size := by
  refine size_eq_of_sq (mul_nonneg (abs_nonneg s) v.size_nonneg) ?_
  rw [mul_pow, sq_abs, size_sq, x_smul, y_smul]
  ring

theorem size_scale (v : FVector2D K) (s : K) : (v * s).size = v.size * |s| := by
  refine size_eq_of_sq (mul_nonneg v.size_nonneg (abs_nonneg s)) ?_
  rw [mul_pow, sq_abs, size_sq, x_mul, y_mul]
  ring

theorem size_add_le (v w : FVector2D K) : (v + w).size ≤ v.size + w.size := by
  -- the inner product is at most the product of the norms
  have hinner : v.x * w.x + v.y * w.y ≤ v.size * w.size := by
    refine le_of_sq_le_sq ?_ (mul_nonneg v.size_nonneg w.size_nonneg)
    rw [mul_pow, size_sq, size_sq]
    nlinarith [sq_nonneg (v.x * w.y - v.y * w.x)]
  refine le_of_sq_le_sq ?_ (add_nonneg v.size_nonneg w.size_nonneg)
  calc (v + w).size ^ 2
      = (v.x ^ 2 + v.y ^ 2) + 2 * (v.x * w.x + v.y * w.y) + (w.x ^ 2 + w.y ^ 2) := by
        rw [size_sq, x_add, y_add]
        ring
    _ ≤ v.size ^ 2 + 2 * (v.size * w.size) + w.size ^ 2 := by
        rw [size_sq, size_sq]
        gcongr
    _ = (v.size + w.size) ^ 2 := by ring

theorem size_sum_le {α : Type*} (l : List α) {f : α → FVector2D K} {bound : α → K}
    (h : ∀ a ∈ l, (f a).size ≤ bound a) : (l.map f).sum.size ≤ (l.map bound).sum := by
  induction l with
  | nil => rw [List.map_nil, List.map_nil, List.sum_nil, List.sum_nil, size_zero]
  | cons a l ih =>
    rw [List.map_cons, List.map_cons, List.sum_cons, List.sum_cons]
    refine (size_add_le _ _).trans (add_le_add (h a List.mem_cons_self) (ih fun b hb ↦ ?_))
    exact h b (List.mem_cons_of_mem a hb)

end Norm

end FVector2D

namespace ABodySimulator

section SameMasses

variable {K : Type*}

/-- The same bodies with the same masses, under the same gravity. -/
structure SameMasses (s s' : ABodySimulator K) : Prop where
  bodies : s'.bodies = s.bodies
  g : s'.g = s.g
  minimumGravityDistance : s'.minimumGravityDistance = s.minimumGravityDistance
  index : ∀ b, (s'.objects b).index = (s.objects b).index
  mass : ∀ b, (s'.objects b).mass = (s.objects b).mass

theorem SameMasses.refl (s : ABodySimulator K) : SameMasses s s :=
  ⟨rfl, rfl, rfl, fun _ ↦ rfl, fun _ ↦ rfl⟩

theorem SameMasses.trans {s₁ s₂ s₃ : ABodySimulator K} (h : SameMasses s₁ s₂)
    (h' : SameMasses s₂ s₃) : SameMasses s₁ s₃ :=
  ⟨h'.bodies.trans h.bodies, h'.g.trans h.g,
    h'.minimumGravityDistance.trans h.minimumGravityDistance,
    fun b ↦ (h'.index b).trans (h.index b), fun b ↦ (h'.mass b).trans (h.mass b)⟩

end SameMasses

end ABodySimulator

section Softening

variable {K : Type*} [Field K] [LinearOrder K] [PythagoreanField K] [IsStrictOrderedRing K]

/-- **One pull**, on either side of the clamp. -/
theorem size_attraction_le {g minimumGravityDistance mass : K} (hg : 0 ≤ g)
    (hclamp : 0 < minimumGravityDistance) (hmass : 0 ≤ mass) (p q : FVector2D K) :
    (attraction g minimumGravityDistance p q mass).size
      ≤ mass * g / minimumGravityDistance ^ 2 := by
  set distance := max (FVector2D.distance p q) minimumGravityDistance with hdistance
  have hpos : 0 < distance := lt_max_of_lt_right hclamp
  have hnear : (q - p).size ≤ distance := by
    rw [← FVector2D.distance_eq_size, FVector2D.distance_comm]
    exact le_max_left _ _
  have hmg : 0 ≤ mass * g := mul_nonneg hmass hg
  calc (attraction g minimumGravityDistance p q mass).size
      = mass * g / distance ^ 3 * (q - p).size := by
        rw [attraction_eq hclamp, ← hdistance, FVector2D.size_smul,
          abs_of_nonneg (div_nonneg hmg (pow_nonneg hpos.le 3))]
    _ ≤ mass * g / distance ^ 3 * distance := by gcongr
    _ = mass * g / distance ^ 2 := by
        field_simp
    _ ≤ mass * g / minimumGravityDistance ^ 2 := by
        have hle : minimumGravityDistance ≤ distance := le_max_right _ _
        gcongr

namespace ABodySimulator

omit [LinearOrder K] [PythagoreanField K] [IsStrictOrderedRing K] in
/-- The total mass of the bodies with a different `Index`. -/
def othersMass (s : ABodySimulator K) (b : BodyRef) : K :=
  ((s.bodies.filter fun c ↦ (s.objects c).index ≠ (s.objects b).index).map
    fun c ↦ (s.objects c).mass).sum

variable {s s' : ABodySimulator K}

omit [LinearOrder K] [PythagoreanField K] [IsStrictOrderedRing K] in
theorem SameMasses.othersMass (h : SameMasses s s') (b : BodyRef) :
    s'.othersMass b = s.othersMass b := by
  simp only [ABodySimulator.othersMass, h.bodies, h.index, h.mass]

omit [IsStrictOrderedRing K] in
theorem sameMasses_tickCall {call : TickCall K} (hcall : call.simulationType = .allVsAll)
    (hnodup : s.bodies.Nodup) (h : s.tickCall call = .ok s') : SameMasses s s' := by
  rw [(tickCall_allVsAll hcall hnodup h).1]
  exact ⟨rfl, rfl, rfl, index_naiveObjects _, mass_naiveObjects _⟩

/-- **All pulls on one body.** -/
theorem size_naivePull_le (hg : 0 ≤ s.g) (hclamp : 0 < s.minimumGravityDistance)
    (hmass : ∀ b ∈ s.bodies, 0 ≤ (s.objects b).mass) (b : BodyRef) :
    (s.naivePull s.objects b).size ≤ s.othersMass b * s.g / s.minimumGravityDistance ^ 2 := by
  have hpull : ∀ c ∈ s.bodies, (s.pullOf (s.objects b) (s.objects c)).size
      ≤ if (s.objects c).index ≠ (s.objects b).index then
          (s.objects c).mass * (s.g / s.minimumGravityDistance ^ 2) else 0 := by
    intro c hc
    rw [pullOf]
    by_cases hindex : (s.objects c).index = (s.objects b).index
    · rw [if_pos hindex, if_neg (not_not.mpr hindex), FVector2D.size_zero]
    · rw [if_neg hindex, if_pos hindex, ← mul_div_assoc]
      exact size_attraction_le hg hclamp (hmass c hc) _ _
  refine (FVector2D.size_sum_le s.bodies hpull).trans_eq ?_
  rw [othersMass, mul_div_assoc, ← List.sum_map_mul_right, List.sum_map_ite, List.map_const',
    List.sum_replicate, smul_zero, add_zero]

/-- **One kick**: what a phase adds to the velocity of one body. -/
theorem size_velocity_change_le (hnodup : s.bodies.Nodup) (hg : 0 ≤ s.g)
    (hclamp : 0 < s.minimumGravityDistance) (hmass : ∀ b ∈ s.bodies, 0 ≤ (s.objects b).mass)
    {deltaTime : K} (hdelta : 0 ≤ deltaTime) {b : BodyRef} (hb : b ∈ s.bodies) :
    (((s.simulateCompareAllParallel deltaTime).objects b).velocity - (s.objects b).velocity).size
      ≤ deltaTime * s.g * s.othersMass b / s.minimumGravityDistance ^ 2 := by
  rw [velocity_simulateCompareAllParallel deltaTime hnodup hb, add_sub_cancel_left,
    FVector2D.size_scale, abs_of_nonneg hdelta]
  calc (s.naivePull s.objects b).size * deltaTime
      ≤ s.othersMass b * s.g / s.minimumGravityDistance ^ 2 * deltaTime := by
        have hpull := size_naivePull_le hg hclamp hmass b
        gcongr
    _ = deltaTime * s.g * s.othersMass b / s.minimumGravityDistance ^ 2 := by ring

/-- **One tick**: how much faster one body can become. -/
theorem size_velocity_tick_le {call : TickCall K} (hnodup : s.bodies.Nodup) (hg : 0 ≤ s.g)
    (hclamp : 0 < s.minimumGravityDistance) (hmass : ∀ b ∈ s.bodies, 0 ≤ (s.objects b).mass)
    (hdelta : 0 ≤ call.deltaTime) {b : BodyRef} (hb : b ∈ s.bodies) :
    (s.naiveObjects call.deltaTime b).velocity.size ≤ (s.objects b).velocity.size
      + call.deltaTime * s.g * s.othersMass b / s.minimumGravityDistance ^ 2 := by
  have hkick := size_velocity_change_le hnodup hg hclamp hmass hdelta hb
  rw [velocity_simulateCompareAllParallel call.deltaTime hnodup hb, add_sub_cancel_left] at hkick
  rw [velocity_naiveObjects hb]
  exact (FVector2D.size_add_le _ _).trans (by gcongr)

/-- **A whole run**: how much faster one body can become. -/
theorem size_velocity_run_le {calls : List (TickCall K)} (hnodup : s.bodies.Nodup) (hg : 0 ≤ s.g)
    (hclamp : 0 < s.minimumGravityDistance) (hmass : ∀ b ∈ s.bodies, 0 ≤ (s.objects b).mass)
    (hcalls : ∀ call ∈ calls, call.simulationType = .allVsAll ∧ 0 ≤ call.deltaTime)
    (hrun : s.run calls = .ok s') {b : BodyRef} (hb : b ∈ s.bodies) :
    (s'.objects b).velocity.size ≤ (s.objects b).velocity.size
      + (calls.map TickCall.deltaTime).sum * s.g * s.othersMass b
        / s.minimumGravityDistance ^ 2 := by
  have hkept := run_invariant (I := fun done s₁ ↦ SameMasses s s₁ ∧
    (s₁.objects b).velocity.size ≤ (s.objects b).velocity.size
      + (done.map TickCall.deltaTime).sum * s.g * s.othersMass b
        / s.minimumGravityDistance ^ 2) ⟨.refl s, by simp⟩ ?_ hrun
  · exact hkept.2
  rintro done call rest s₁ s₂ hsplit _ ⟨hsame, hbefore⟩ htick
  obtain ⟨hcall, hdelta⟩ := hcalls call (by simp [hsplit])
  have hnodup₁ : s₁.bodies.Nodup := hsame.bodies ▸ hnodup
  have hmass₁ : ∀ c ∈ s₁.bodies, 0 ≤ (s₁.objects c).mass := by
    intro c hc
    rw [hsame.mass]
    exact hmass c (hsame.bodies ▸ hc)
  have hspeed := size_velocity_tick_le hnodup₁ (hsame.g ▸ hg)
    (hsame.minimumGravityDistance ▸ hclamp) hmass₁ hdelta (hsame.bodies ▸ hb)
  have hobjects : s₂.objects = s₁.naiveObjects call.deltaTime := by
    rw [(tickCall_allVsAll hcall hnodup₁ htick).1]
  refine ⟨hsame.trans (sameMasses_tickCall hcall hnodup₁ htick), ?_⟩
  rw [hsame.g, hsame.othersMass, hsame.minimumGravityDistance] at hspeed
  calc (s₂.objects b).velocity.size
      = (s₁.naiveObjects call.deltaTime b).velocity.size := by rw [hobjects]
    _ ≤ (s₁.objects b).velocity.size
        + call.deltaTime * s.g * s.othersMass b / s.minimumGravityDistance ^ 2 := hspeed
    _ ≤ (s.objects b).velocity.size
        + (done.map TickCall.deltaTime).sum * s.g * s.othersMass b / s.minimumGravityDistance ^ 2
        + call.deltaTime * s.g * s.othersMass b / s.minimumGravityDistance ^ 2 := by gcongr
    _ = (s.objects b).velocity.size
        + ((done ++ [call]).map TickCall.deltaTime).sum * s.g * s.othersMass b
          / s.minimumGravityDistance ^ 2 := by
      rw [List.map_append, List.sum_append, List.map_singleton, List.sum_singleton]
      ring

/-- **Softening bounds kicks and speeds.** One naive phase changes the velocity of a body by at most
what the masses of the others, all at the clamp distance, would, and runs of naive ticks, which
return when no index is out of range, add these bounds up. -/
theorem softened (hnodup : s.bodies.Nodup) (hg : 0 ≤ s.g) (hclamp : 0 < s.minimumGravityDistance)
    (hmass : ∀ b ∈ s.bodies, 0 ≤ (s.objects b).mass) :
    (∀ deltaTime, 0 ≤ deltaTime → ∀ b ∈ s.bodies,
      (((s.simulateCompareAllParallel deltaTime).objects b).velocity
          - (s.objects b).velocity).size
        ≤ deltaTime * s.g * s.othersMass b / s.minimumGravityDistance ^ 2) ∧
    ∀ calls, (∀ call ∈ calls, call.simulationType = .allVsAll ∧ 0 ≤ call.deltaTime) →
      ((∀ b ∈ s.bodies, (s.objects b).index < s.transforms.length) →
        ∃ s', s.run calls = .ok s') ∧
      ∀ s', s.run calls = .ok s' → ∀ b ∈ s.bodies,
        (s'.objects b).velocity.size ≤ (s.objects b).velocity.size
          + (calls.map TickCall.deltaTime).sum * s.g * s.othersMass b
            / s.minimumGravityDistance ^ 2 := by
  refine ⟨fun deltaTime hdelta b hb ↦ ?_, fun calls hcalls ↦ ⟨fun hindex ↦ ?_,
    fun s' hrun b hb ↦ ?_⟩⟩
  · exact size_velocity_change_le hnodup hg hclamp hmass hdelta hb
  · exact exists_run_allVsAll ⟨hnodup, hindex⟩ fun call hcall ↦ (hcalls call hcall).1
  · exact size_velocity_run_le hnodup hg hclamp hmass hcalls hrun hb

end ABodySimulator

end Softening

open ABodySimulator

theorem softened_twoBodyScene :
    (∀ deltaTime, 0 ≤ deltaTime → ∀ b ∈ twoBodyScene.bodies,
      (((twoBodyScene.simulateCompareAllParallel deltaTime).objects b).velocity
          - (twoBodyScene.objects b).velocity).size
        ≤ deltaTime * twoBodyScene.g * twoBodyScene.othersMass b
          / twoBodyScene.minimumGravityDistance ^ 2) ∧
    ∀ calls, (∀ call ∈ calls, call.simulationType = .allVsAll ∧ 0 ≤ call.deltaTime) →
      ((∀ b ∈ twoBodyScene.bodies,
        (twoBodyScene.objects b).index < twoBodyScene.transforms.length) →
          ∃ s', twoBodyScene.run calls = .ok s') ∧
      ∀ s', twoBodyScene.run calls = .ok s' → ∀ b ∈ twoBodyScene.bodies,
        (s'.objects b).velocity.size ≤ (twoBodyScene.objects b).velocity.size
          + (calls.map TickCall.deltaTime).sum * twoBodyScene.g * twoBodyScene.othersMass b
            / twoBodyScene.minimumGravityDistance ^ 2 := by
  refine softened twoBodyScene_wellIndexed.nodup_bodies ?_ ?_ ?_
  · show (0 : ℝ) ≤ 1000
    norm_num
  · show (0 : ℝ) < 100
    norm_num
  · refine ABodySimulator.ofBodies_forall_mem (P := fun body ↦ 0 ≤ body.mass) ?_
    simp [UBodyEntity.initializeBody]

end NBodySimulation
