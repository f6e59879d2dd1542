import NBodySimulation.Dynamics.Runs

/-!
# What the naive simulation conserves

The pulls of two bodies on each other, weighted by their masses, are opposite and act along the line
that joins the bodies. So all of them together change neither the total linear momentum nor the
total angular momentum. Moving the bodies changes no velocity, which settles linear momentum for
every tick. It changes no angular momentum either, as long as no position is wrapped, because each
body moves along its own new velocity.
-/

namespace NBodySimulation

/-! ## Double sums -/

/-- Quantities that are opposite in pairs cancel in the sum over all pairs. -/
theorem sum_sum_eq_zero {α M : Type*} [AddCommGroup M] (l : List α) {f : α → α → M}
    (hself : ∀ a, f a a = 0) (hanti : ∀ a b, f a b = -f b a) :
    (l.map fun a ↦ (l.map fun b ↦ f a b).sum).sum = 0 := by
  induction l with
  | nil => rfl
  | cons a l ih =>
    -- the row of the new element cancels its column
    have hrow : (l.map fun b ↦ f a b).sum = -(l.map fun b ↦ f b a).sum := by
      rw [List.sum_neg, List.map_map]
      exact congrArg List.sum (List.map_congr_left fun b _ ↦ hanti a b)
    simp only [List.map_cons, List.sum_cons, List.sum_map_add, ih, hself, hrow]
    abel

/-! ## Opposite pulls -/

def FVector2D.cross {K : Type*} [Field K] (v w : FVector2D K) : K := v.x * w.y - v.y * w.x

private theorem FVector2D.cross_sum {K : Type*} [Field K] (v : FVector2D K)
    (l : List (FVector2D K)) :
    v.cross l.sum = (l.map v.cross).sum := by
  induction l with
  | nil => simp [cross]
  | cons w l ih =>
    rw [List.sum_cons, List.map_cons, List.sum_cons, ← ih]
    simp only [cross, x_add, y_add]
    ring

section Pulls

variable {K : Type*} [Field K] [LinearOrder K] [PythagoreanField K]

theorem attraction_eq {minimumGravityDistance : K} (hclamp : 0 < minimumGravityDistance)
    (g : K) (p q : FVector2D K) (mass : K) :
    attraction g minimumGravityDistance p q mass
      = mass * g / max (FVector2D.distance p q) minimumGravityDistance ^ 3 * (q - p) := by
  have hd : max (FVector2D.distance p q) minimumGravityDistance ≠ 0 :=
    (lt_max_of_lt_right hclamp).ne'
  rw [attraction]
  ext
  · simp only [FVector2D.x_div, FVector2D.x_smul, FVector2D.x_sub]
    field_simp
  · simp only [FVector2D.y_div, FVector2D.y_smul, FVector2D.y_sub]
    field_simp

namespace ABodySimulator

variable [IsStrictOrderedRing K] {s : ABodySimulator K}

/-- **Opposite pulls**: weighted by the masses, the pulls of two bodies on each other cancel. -/
theorem mass_mul_pullOf (hclamp : 0 < s.minimumGravityDistance) (b c : UBodyEntity K) :
    b.mass * s.pullOf b c = -(c.mass * s.pullOf c b) := by
  rw [pullOf, pullOf]
  by_cases hindex : c.index = b.index
  · rw [if_pos hindex, if_pos hindex.symm]
    ext
    · simp
    · simp
  · rw [if_neg hindex, if_neg fun h ↦ hindex h.symm, attraction_eq hclamp, attraction_eq hclamp,
      FVector2D.distance_comm c.position]
    ext
    · simp only [FVector2D.x_smul, FVector2D.x_neg, FVector2D.x_sub]
      ring
    · simp only [FVector2D.y_smul, FVector2D.y_neg, FVector2D.y_sub]
      ring

/-- The pulls are central, so their torques cancel too. -/
theorem cross_mass_mul_pullOf (hclamp : 0 < s.minimumGravityDistance) (b c : UBodyEntity K) :
    b.position.cross (b.mass * s.pullOf b c) = -c.position.cross (c.mass * s.pullOf c b) := by
  rw [pullOf, pullOf]
  by_cases hindex : c.index = b.index
  · rw [if_pos hindex, if_pos hindex.symm]
    simp [FVector2D.cross]
  · rw [if_neg hindex, if_neg fun h ↦ hindex h.symm, attraction_eq hclamp, attraction_eq hclamp,
      FVector2D.distance_comm c.position]
    simp only [FVector2D.cross, FVector2D.x_smul, FVector2D.y_smul, FVector2D.x_sub,
      FVector2D.y_sub]
    ring

/-! ## Conserved quantities -/

omit [IsStrictOrderedRing K] in
/-- Runs of naive ticks keep what every tick of theirs keeps, and they always end. -/
theorem exists_run_conserving {α : Type*} {f : ABodySimulator K → α} {calls : List (TickCall K)}
    (hs : s.Addressed) (hclamp : 0 < s.minimumGravityDistance)
    (hcalls : ∀ call ∈ calls, call.simulationType = .allVsAll)
    (hkeep : ∀ done call rest s₁ s₂, calls = done ++ call :: rest → s.run done = .ok s₁ →
      s₁.Addressed → 0 < s₁.minimumGravityDistance → call.simulationType = .allVsAll →
        s₁.tickCall call = .ok s₂ → f s₂ = f s₁) :
    ∃ s', s.run calls = .ok s' ∧ f s' = f s := by
  obtain ⟨s', hrun⟩ := exists_run_allVsAll hs hcalls
  have hkept := run_invariant (I := fun _ s₁ ↦ s₁.Addressed ∧ 0 < s₁.minimumGravityDistance ∧
    f s₁ = f s) ⟨hs, hclamp, rfl⟩ ?_ hrun
  · exact ⟨s', hrun, hkept.2.2⟩
  · rintro done call rest s₁ s₂ hsplit hdone ⟨hs₁, hclamp₁, hf⟩ htick
    have hcall : call.simulationType = .allVsAll := hcalls call (by simp [hsplit])
    refine ⟨hs₁.naive_tick hcall htick, ?_, ?_⟩
    · rw [(tickCall_allVsAll hcall hs₁.nodup_bodies htick).1]
      exact hclamp₁
    · rw [hkeep done call rest s₁ s₂ hsplit hdone hs₁ hclamp₁ hcall htick, hf]

/-! ## Linear momentum -/

omit [LinearOrder K] [PythagoreanField K] [IsStrictOrderedRing K] in
def momentum (s : ABodySimulator K) : FVector2D K :=
  (s.bodies.map fun b ↦ (s.objects b).mass * (s.objects b).velocity).sum

private theorem sum_mass_mul_naivePull (hclamp : 0 < s.minimumGravityDistance) (heap : BodyHeap K) :
    (s.bodies.map fun b ↦ (heap b).mass * s.naivePull heap b).sum = 0 := by
  have hrow : ∀ b, (heap b).mass * s.naivePull heap b
      = (s.bodies.map fun c ↦ (heap b).mass * s.pullOf (heap b) (heap c)).sum := by
    intro b
    rw [naivePull, FVector2D.scale_sum, List.map_map]
    rfl
  simp only [hrow]
  refine sum_sum_eq_zero s.bodies (fun b ↦ ?_) fun b c ↦ mass_mul_pullOf hclamp (heap b) (heap c)
  rw [pullOf_self]
  ext
  · exact mul_zero _
  · exact mul_zero _

theorem momentum_tickCall {s' : ABodySimulator K} {call : TickCall K}
    (hclamp : 0 < s.minimumGravityDistance) (hnodup : s.bodies.Nodup)
    (hcall : call.simulationType = .allVsAll) (h : s.tickCall call = .ok s') :
    s'.momentum = s.momentum := by
  obtain ⟨hspec, _⟩ := tickCall_allVsAll hcall hnodup h
  have hbody : ∀ b ∈ s.bodies,
      (s.naiveObjects call.deltaTime b).mass * (s.naiveObjects call.deltaTime b).velocity
        = (s.objects b).mass * (s.objects b).velocity
          + (s.objects b).mass * s.naivePull s.objects b * call.deltaTime := by
    intro b hb
    rw [naiveObjects_of_mem hb]
    ext
    · simp [UBodyEntity.advance]
      ring
    · simp [UBodyEntity.advance]
      ring
  have hkick : (s.bodies.map fun b ↦
      (s.objects b).mass * s.naivePull s.objects b * call.deltaTime).sum = 0 := by
    have hscale := FVector2D.sum_scale
      (s.bodies.map fun b ↦ (s.objects b).mass * s.naivePull s.objects b) call.deltaTime
    rw [sum_mass_mul_naivePull hclamp, FVector2D.zero_scale, List.map_map] at hscale
    exact hscale.symm
  calc s'.momentum
      = (s.bodies.map fun b ↦ (s.naiveObjects call.deltaTime b).mass
          * (s.naiveObjects call.deltaTime b).velocity).sum := by rw [hspec]; rfl
    _ = (s.bodies.map fun b ↦ (s.objects b).mass * (s.objects b).velocity
          + (s.objects b).mass * s.naivePull s.objects b * call.deltaTime).sum := by
        rw [List.map_congr_left hbody]
    _ = s.momentum + 0 := by rw [List.sum_map_add, hkick]; rfl
    _ = s.momentum := add_zero _

/-- **Linear momentum is conserved** over whole runs of the naive simulation, which always end. -/
theorem exists_run_momentum_eq {calls : List (TickCall K)} (hs : s.Addressed)
    (hclamp : 0 < s.minimumGravityDistance)
    (hcalls : ∀ call ∈ calls, call.simulationType = .allVsAll) :
    ∃ s', s.run calls = .ok s' ∧ s'.momentum = s.momentum := by
  refine exists_run_conserving hs hclamp hcalls ?_
  intro _ _ _ _ _ _ _ hs₁ hclamp₁ hcall htick
  exact momentum_tickCall hclamp₁ hs₁.nodup_bodies hcall htick

/-! ## Angular momentum -/

omit [LinearOrder K] [PythagoreanField K] [IsStrictOrderedRing K] in
/-- The total angular momentum about the origin. -/
def angularMomentum (s : ABodySimulator K) : K :=
  (s.bodies.map fun b ↦
    (s.objects b).mass * (s.objects b).position.cross (s.objects b).velocity).sum

omit [PythagoreanField K] [IsStrictOrderedRing K] in
/-- Every body of the array lies in the closed scene, so that no position is wrapped. -/
def WithinScene (s : ABodySimulator K) : Prop :=
  ∀ b ∈ s.bodies, s.sceneBounds.IsInsideOrOn (s.objects b).position

private theorem sum_cross_mass_mul_naivePull (hclamp : 0 < s.minimumGravityDistance)
    (heap : BodyHeap K) :
    (s.bodies.map fun b ↦
      (heap b).position.cross ((heap b).mass * s.naivePull heap b)).sum = 0 := by
  have hrow : ∀ b, (heap b).position.cross ((heap b).mass * s.naivePull heap b)
      = (s.bodies.map fun c ↦
          (heap b).position.cross ((heap b).mass * s.pullOf (heap b) (heap c))).sum := by
    intro b
    rw [naivePull, FVector2D.scale_sum, FVector2D.cross_sum, List.map_map, List.map_map]
    rfl
  simp only [hrow]
  refine sum_sum_eq_zero s.bodies (fun b ↦ ?_)
    fun b c ↦ cross_mass_mul_pullOf hclamp (heap b) (heap c)
  rw [pullOf_self]
  simp [FVector2D.cross]

theorem angularMomentum_tickCall {s' : ABodySimulator K} {call : TickCall K}
    (hclamp : 0 < s.minimumGravityDistance) (hnodup : s.bodies.Nodup) (hwithin : s.WithinScene)
    (hcall : call.simulationType = .allVsAll) (h : s.tickCall call = .ok s') :
    s'.angularMomentum = s.angularMomentum := by
  obtain ⟨hspec, _⟩ := tickCall_allVsAll hcall hnodup h
  -- the drift is along the new velocity, so it adds nothing to the cross product
  have hbody : ∀ b ∈ s.bodies, (s.naiveObjects call.deltaTime b).mass
        * (s.naiveObjects call.deltaTime b).position.cross
          (s.naiveObjects call.deltaTime b).velocity
      = (s.objects b).mass * (s.objects b).position.cross (s.objects b).velocity
        + (s.objects b).position.cross ((s.objects b).mass * s.naivePull s.objects b)
          * call.deltaTime := by
    intro b hb
    have hstay : s.adjustPosition (s.objects b).position = (s.objects b).position :=
      FBox2D.wrap_of_isInsideOrOn (hwithin b hb)
    rw [naiveObjects_of_mem hb]
    simp only [UBodyEntity.advance, UBodyEntity.position_accelerate,
      UBodyEntity.velocity_accelerate, UBodyEntity.mass_accelerate, hstay, FVector2D.cross,
      FVector2D.x_add, FVector2D.y_add, FVector2D.x_mul, FVector2D.y_mul, FVector2D.x_smul,
      FVector2D.y_smul]
    ring
  have hkick : (s.bodies.map fun b ↦
      (s.objects b).position.cross ((s.objects b).mass * s.naivePull s.objects b)
        * call.deltaTime).sum = 0 := by
    rw [List.sum_map_mul_right, sum_cross_mass_mul_naivePull hclamp, zero_mul]
  calc s'.angularMomentum
      = (s.bodies.map fun b ↦ (s.naiveObjects call.deltaTime b).mass
          * (s.naiveObjects call.deltaTime b).position.cross
            (s.naiveObjects call.deltaTime b).velocity).sum := by rw [hspec]; rfl
    _ = (s.bodies.map fun b ↦
          (s.objects b).mass * (s.objects b).position.cross (s.objects b).velocity
          + (s.objects b).position.cross ((s.objects b).mass * s.naivePull s.objects b)
            * call.deltaTime).sum := by rw [List.map_congr_left hbody]
    _ = s.angularMomentum + 0 := by rw [List.sum_map_add, hkick]; rfl
    _ = s.angularMomentum := add_zero _

/-- **Angular momentum is conserved** over whole runs of the naive simulation in which every tick
starts with all bodies within the closed scene. -/
theorem exists_run_angularMomentum_eq {calls : List (TickCall K)} (hs : s.Addressed)
    (hclamp : 0 < s.minimumGravityDistance)
    (hcalls : ∀ call ∈ calls, call.simulationType = .allVsAll)
    (hwithin : ∀ done call rest s', calls = done ++ call :: rest → s.run done = .ok s' →
      s'.WithinScene) :
    ∃ s', s.run calls = .ok s' ∧ s'.angularMomentum = s.angularMomentum := by
  refine exists_run_conserving hs hclamp hcalls ?_
  intro done call rest s₁ _ hsplit hdone hs₁ hclamp₁ hcall htick
  exact angularMomentum_tickCall hclamp₁ hs₁.nodup_bodies (hwithin done call rest s₁ hsplit hdone)
    hcall htick

end ABodySimulator

end Pulls

/-! ## Two bodies -/

theorem exists_run_momentum_eq_twoBodyScene :
    ∃ s', twoBodyScene.run [⟨.allVsAll, 0, 1⟩, ⟨.allVsAll, 0, 5⟩] = .ok s' ∧
      s'.momentum = twoBodyScene.momentum :=
  ABodySimulator.exists_run_momentum_eq twoBodyScene_wellIndexed.addressed
    (show (0 : ℝ) < 100 by norm_num) (by simp)

/-- The bodies of the scene are within it, and still are after a tick of one second. -/
theorem withinScene_twoBodyScene : twoBodyScene.WithinScene ∧
    ∀ s', twoBodyScene.tickCall ⟨.allVsAll, 0, 1⟩ = .ok s' → s'.WithinScene := by
  constructor
  · exact ABodySimulator.ofBodies_forall_mem (P := fun body ↦
      twoBodyScene.sceneBounds.IsInsideOrOn body.position) (by
        norm_num [FBox2D.IsInsideOrOn, twoBodyScene, ABodySimulator.ofBodies,
          UBodyEntity.initializeBody])
  · intro s' h b hb
    obtain ⟨h₀, h₁⟩ := position_tickCall_twoBodyScene h
    obtain ⟨hspec, _⟩ := ABodySimulator.tickCall_allVsAll rfl
      twoBodyScene_wellIndexed.nodup_bodies h
    have hbounds : s'.sceneBounds = ⟨⟨0, 0⟩, ⟨8, 8⟩⟩ := by
      rw [hspec]
      rfl
    have hlt : b < 2 := by
      rw [hspec] at hb
      exact List.mem_range.mp hb
    rw [hbounds]
    interval_cases b
    · rw [h₀]
      norm_num [FBox2D.IsInsideOrOn]
    · rw [h₁]
      norm_num [FBox2D.IsInsideOrOn]

theorem exists_run_angularMomentum_eq_twoBodyScene :
    ∃ s', twoBodyScene.run [⟨.allVsAll, 0, 1⟩, ⟨.allVsAll, 0, 1⟩] = .ok s' ∧
      s'.angularMomentum = twoBodyScene.angularMomentum := by
  refine ABodySimulator.exists_run_angularMomentum_eq twoBodyScene_wellIndexed.addressed
    (show (0 : ℝ) < 100 by norm_num) (by simp) fun done call rest s' hsplit hrun ↦ ?_
  -- a tick starts from the scene or after the first tick
  rcases done with _ | ⟨first, _ | ⟨second, done⟩⟩
  · obtain rfl := Except.ok.inj hrun
    exact withinScene_twoBodyScene.1
  · obtain ⟨rfl, _⟩ := List.cons.inj hsplit
    exact withinScene_twoBodyScene.2 s' (ABodySimulator.run_singleton.mp hrun)
  · have hlen := congrArg List.length hsplit
    simp only [List.length_cons, List.length_nil, List.length_append] at hlen
    omega

end NBodySimulation
