import NBodySimulation.Actors.BodySimulator

/-!
# States set up by `InitBodies`

`InitBodies` numbers the bodies by their place in the array and makes one transform for each. What
the rest of the development uses of it is `WellIndexed`: the indices are those of the transforms,
each taken once. `ofBodies` is the scene of a given list of bodies, set up the same way.
-/

namespace NBodySimulation

namespace ABodySimulator

variable {K : Type*}

/-- `Index` is a bijection from the bodies of the array to the indices of `Transforms`. -/
structure WellIndexed (s : ABodySimulator K) : Prop where
  perm_range : (s.bodies.map fun b ↦ (s.objects b).index).Perm (List.range s.bodies.length)
  length_transforms : s.transforms.length = s.bodies.length

/-- The bodies of the array carry the simulator's own gravity parameters. -/
def SharedGravity (s : ABodySimulator K) : Prop :=
  ∀ b ∈ s.bodies, (s.objects b).g = s.g ∧
    (s.objects b).minimumGravityDistance = s.minimumGravityDistance

namespace WellIndexed

variable {s : ABodySimulator K}

theorem nodup_index (h : s.WellIndexed) : (s.bodies.map fun b ↦ (s.objects b).index).Nodup :=
  h.perm_range.nodup_iff.mpr List.nodup_range

theorem nodup_bodies (h : s.WellIndexed) : s.bodies.Nodup := h.nodup_index.of_map _

theorem index_lt (h : s.WellIndexed) {b : BodyRef} (hb : b ∈ s.bodies) :
    (s.objects b).index < s.transforms.length := by
  rw [h.length_transforms]
  exact List.mem_range.mp (h.perm_range.mem_iff.mp (List.mem_map_of_mem hb))

/-- Only the indices, the array and the number of transforms matter. -/
theorem of_index_eq (h : s.WellIndexed) {s' : ABodySimulator K} (hbodies : s'.bodies = s.bodies)
    (hindex : ∀ b, (s'.objects b).index = (s.objects b).index)
    (hlen : s'.transforms.length = s.transforms.length) : s'.WellIndexed where
  perm_range := by
    simp only [hbodies, hindex]
    exact h.perm_range
  length_transforms := by rw [hlen, hbodies, h.length_transforms]

end WellIndexed

section InitBodies

variable [Field K] [LinearOrder K] [PythagoreanField K]

theorem initLoop_wellIndexed (engine : EngineCalls K) (num : ℕ) (s : ABodySimulator K) :
    (s.initLoop engine num).WellIndexed where
  perm_range := by
    have hindex : (s.initLoop engine num).bodies.map
        (fun b ↦ ((s.initLoop engine num).objects b).index) = List.range num := by
      conv_rhs => rw [← List.map_id (List.range num)]
      refine List.map_congr_left fun b hb ↦ ?_
      simp [initLoop, List.mem_range.mp hb, initBody, UBodyEntity.initializeBody]
    rw [hindex]
    simp [initLoop]
  length_transforms := by simp [initLoop]

end InitBodies

/-! ## Scenes -/

theorem exists_eq_ok_of_isOk {α : Type*} {run : Except Fault α} (h : run.isOk = true) :
    ∃ r, run = .ok r := by
  cases run with
  | error fault => exact absurd h Bool.false_ne_true
  | ok r => exact ⟨r, rfl⟩

section OfBodies

variable [Field K]

/-- The scene of a list of bodies, each given by its position, velocity and mass, in a box. -/
def ofBodies (simulationType : ESimulationType) (sceneBounds : FBox2D K)
    (theta g minimumGravityDistance : K) (bodies : List (FVector2D K × FVector2D K × K)) :
    ABodySimulator K where
  simulationType := simulationType
  bodyNum := bodies.length
  placementRadius := 0
  baseInitialSpeed := 0
  theta := theta
  bodyDisplayScale := 0
  g := g
  minMass := 0
  maxMass := 0
  minimumGravityDistance := minimumGravityDistance
  sceneBounds := sceneBounds
  bodies := List.range bodies.length
  transforms := bodies.map fun b ↦ ⟨⟨0, 0, 0⟩, ⟨b.1.x, b.1.y, 0⟩, ⟨1, 1, 1⟩⟩
  quadTree := .nullptr
  objects := fun b ↦
    let (position, velocity, mass) := bodies.getD b (0, 0, 0)
    UBodyEntity.initializeBody position velocity mass b minimumGravityDistance g

theorem ofBodies_wellIndexed (simulationType : ESimulationType) (sceneBounds : FBox2D K)
    (theta g minimumGravityDistance : K) (bodies : List (FVector2D K × FVector2D K × K)) :
    (ofBodies simulationType sceneBounds theta g minimumGravityDistance bodies).WellIndexed where
  perm_range := by
    have hindex : (fun b ↦ ((ofBodies simulationType sceneBounds theta g minimumGravityDistance
        bodies).objects b).index) = id := rfl
    rw [hindex, List.map_id]
    simp [ofBodies]
  length_transforms := by simp [ofBodies]

theorem ofBodies_sharedGravity (simulationType : ESimulationType) (sceneBounds : FBox2D K)
    (theta g minimumGravityDistance : K) (bodies : List (FVector2D K × FVector2D K × K)) :
    (ofBodies simulationType sceneBounds theta g minimumGravityDistance bodies).SharedGravity :=
  fun _ _ ↦ ⟨rfl, rfl⟩

section Bodies

variable {simulationType : ESimulationType} {sceneBounds : FBox2D K}
  {theta g minimumGravityDistance : K} {bodies : List (FVector2D K × FVector2D K × K)}

private theorem objects_ofBodies {b : BodyRef} (hb : b < bodies.length) :
    (ofBodies simulationType sceneBounds theta g minimumGravityDistance bodies).objects b
      = .initializeBody bodies[b].1 bodies[b].2.1 bodies[b].2.2 b minimumGravityDistance g := by
  simp [ofBodies, hb]

theorem ofBodies_forall_mem {P : UBodyEntity K → Prop} (h : ∀ body ∈ bodies, ∀ index,
      P (.initializeBody body.1 body.2.1 body.2.2 index minimumGravityDistance g)) :
    ∀ b ∈ (ofBodies simulationType sceneBounds theta g minimumGravityDistance bodies).bodies,
      P ((ofBodies simulationType sceneBounds theta g minimumGravityDistance bodies).objects
        b) := by
  intro b hb
  rw [objects_ofBodies (List.mem_range.mp hb)]
  exact h _ (List.getElem_mem _) b

theorem ofBodies_places_ne (hplaces : (bodies.map Prod.fst).Nodup) :
    ∀ b ∈ (ofBodies simulationType sceneBounds theta g minimumGravityDistance bodies).bodies,
    ∀ c ∈ (ofBodies simulationType sceneBounds theta g minimumGravityDistance bodies).bodies,
      b ≠ c →
        ((ofBodies simulationType sceneBounds theta g minimumGravityDistance bodies).objects
            b).position
          ≠ ((ofBodies simulationType sceneBounds theta g minimumGravityDistance bodies).objects
            c).position := by
  intro b hb c hc hbc hsame
  have hb' : b < (bodies.map Prod.fst).length := by
    rw [List.length_map]
    exact List.mem_range.mp hb
  have hc' : c < (bodies.map Prod.fst).length := by
    rw [List.length_map]
    exact List.mem_range.mp hc
  rw [objects_ofBodies (List.mem_range.mp hb), objects_ofBodies (List.mem_range.mp hc)] at hsame
  have hget : (bodies.map Prod.fst)[b] = (bodies.map Prod.fst)[c] := by
    rw [List.getElem_map, List.getElem_map]
    exact hsame
  exact hbc (hplaces.getElem_inj_iff.mp hget)

end Bodies

end OfBodies

end ABodySimulator

/-- Two moving bodies of different mass in opposite cells of the scene. -/
noncomputable def twoBodyScene : ABodySimulator ℝ :=
  .ofBodies .allVsAll ⟨⟨0, 0⟩, ⟨8, 8⟩⟩ (7 / 10) 1000 100
    [(⟨1, 1⟩, ⟨3, 0⟩, 20), (⟨7, 6⟩, ⟨0, 1⟩, 30)]

/-- Two bodies of one mass, side by side, six apart. -/
noncomputable def sideBySideScene (theta mass : ℝ) : ABodySimulator ℝ :=
  .ofBodies .barnesHut ⟨⟨0, 0⟩, ⟨8, 8⟩⟩ theta 1000 100 [(⟨1, 1⟩, 0, mass), (⟨7, 1⟩, 0, mass)]

/-- One body in a corner, two others at the far side of the scene. -/
noncomputable def cornerScene : ABodySimulator ℝ :=
  .ofBodies .barnesHut ⟨⟨0, 0⟩, ⟨24, 24⟩⟩ (7 / 10) 1000 100
    [(⟨1, 1⟩, 0, 20), (⟨113 / 5, 23⟩, 0, 20), (⟨113 / 5, 57 / 5⟩, 0, 20)]

theorem twoBodyScene_wellIndexed : twoBodyScene.WellIndexed :=
  ABodySimulator.ofBodies_wellIndexed _ _ _ _ _ _

end NBodySimulation
