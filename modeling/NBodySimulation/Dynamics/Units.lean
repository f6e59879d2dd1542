import NBodySimulation.Dynamics.Lifecycle
import NBodySimulation.Forces.Counting
import NBodySimulation.Quadtree.Units

/-!
# Runs in other units

A change of the units of length and time scales all pulls alike, so both force phases and the move
phase commute with it, and with them whole runs: a run that starts from the changed state, with the
time steps in the new unit, fails where the other fails and otherwise ends in the changed state.

A new origin is another matter. The naive phase only reads differences of places, and the centre of
a split is a mean of centres, but the centre of mass of a leaf is `Position * Mass`, which moves
with the origin as a place does only when the mass is one. So a Barnes-Hut run commutes with a
change of the origin when all masses are one.

## Main results

* `treePull_tree`: the pull of the changed tree.
* `run_changeOfUnits`: runs in other units.
-/

namespace NBodySimulation

namespace ChangeOfUnits

variable {K : Type*} [Field K] [LinearOrder K] (u : ChangeOfUnits K)

/-! ## The simulator in the new units -/

/-- A transform; its scale is that of the mesh, which has units of its own. -/
def transform (t : FTransform K) : FTransform K :=
  { t with translation :=
      ⟨u.coordX t.translation.x, u.coordY t.translation.y, t.translation.z * u.length⟩ }

def simulator (s : ABodySimulator K) : ABodySimulator K :=
  { s with
    placementRadius := s.placementRadius * u.length
    baseInitialSpeed := s.baseInitialSpeed * (u.length / u.time)
    g := u.gravity s.g
    minimumGravityDistance := s.minimumGravityDistance * u.length
    sceneBounds := u.box s.sceneBounds
    transforms := s.transforms.map u.transform
    quadTree := u.tree s.quadTree
    objects := u.heap s.objects }

def call (c : TickCall K) : TickCall K := { c with deltaTime := c.deltaTime * u.time }

section Reads

variable (s : ABodySimulator K) (c : TickCall K)

@[simp] theorem bodies_simulator : (u.simulator s).bodies = s.bodies := rfl

@[simp] theorem quadTree_simulator : (u.simulator s).quadTree = u.tree s.quadTree := rfl

@[simp] theorem switchTo_simulator (simulationType : ESimulationType) :
    (u.simulator s).switchTo simulationType = u.simulator (s.switchTo simulationType) := rfl

@[simp] theorem simulationType_call : (u.call c).simulationType = c.simulationType := rfl

@[simp] theorem fuel_call : (u.call c).fuel = c.fuel := rfl

@[simp] theorem deltaTime_call : (u.call c).deltaTime = c.deltaTime * u.time := rfl

end Reads

def acceleration (v : FVector2D K) : FVector2D K := v * (u.length / u.time ^ 2)

private theorem acceleration_zero : u.acceleration 0 = 0 := FVector2D.zero_scale _

private theorem acceleration_add (v w : FVector2D K) :
    u.acceleration (v + w) = u.acceleration v + u.acceleration w := FVector2D.add_scale v w _

private theorem acceleration_sum (l : List (FVector2D K)) :
    u.acceleration l.sum = (l.map u.acceleration).sum := FVector2D.sum_scale l _

private theorem accelerate_body (b : UBodyEntity K) (v : FVector2D K) (deltaTime : K) :
    (u.body b).accelerate (u.acceleration v * (deltaTime * u.time))
      = u.body (b.accelerate (v * deltaTime)) := by
  have ht : u.time ≠ 0 := u.time_pos.ne'
  have hvelocity : b.velocity * (u.length / u.time) + u.acceleration v * (deltaTime * u.time)
      = (b.velocity + v * deltaTime) * (u.length / u.time) := by
    rw [acceleration]
    ext
    · simp only [FVector2D.x_add, FVector2D.x_mul]
      field_simp
    · simp only [FVector2D.y_add, FVector2D.y_mul]
      field_simp
  rw [UBodyEntity.accelerate, UBodyEntity.accelerate, body, body, hvelocity]

/-- **A kick of all bodies**, in both units. -/
theorem heap_kick (objects : BodyHeap K) (bodies : List BodyRef) (pull : BodyRef → FVector2D K)
    (deltaTime : K) :
    (u.heap objects).kick bodies (fun b ↦ u.acceleration (pull b) * (deltaTime * u.time))
      = u.heap (objects.kick bodies fun b ↦ pull b * deltaTime) := by
  funext b
  rw [heap, BodyHeap.kick, BodyHeap.kick, heap, accelerate_body, apply_ite u.body]

section Forces

variable [PythagoreanField K] [IsStrictOrderedRing K]

private theorem distance_point (p q : FVector2D K) :
    FVector2D.distance (u.point p) (u.point q) = FVector2D.distance p q * u.length := by
  refine FVector2D.distance_eq_of_sq
    (mul_nonneg (FVector2D.distance_nonneg p q) u.length_pos.le) ?_
  rw [mul_pow, FVector2D.distance_sq, x_point, x_point, y_point, y_point, coordX, coordX, coordY,
    coordY]
  ring

/-- **The attraction of a mass** is an acceleration. -/
theorem attraction_point (g minimumGravityDistance : K) (p q : FVector2D K) (mass : K) :
    attraction (u.gravity g) (minimumGravityDistance * u.length) (u.point p) (u.point q) mass
      = u.acceleration (attraction g minimumGravityDistance p q mass) := by
  have hl : u.length ≠ 0 := u.length_pos.ne'
  have ht : u.time ≠ 0 := u.time_pos.ne'
  have hclamp : max (FVector2D.distance p q * u.length) (minimumGravityDistance * u.length)
      = max (FVector2D.distance p q) minimumGravityDistance * u.length :=
    (max_mul_of_nonneg _ _ u.length_pos.le).symm
  have haxis : ∀ d a b o : K, mass / (d * u.length) * u.gravity g / (d * u.length)
        * (b * u.length + o - (a * u.length + o)) / (d * u.length)
      = mass / d * g / d * (b - a) / d * (u.length / u.time ^ 2) := by
    intro d a b o
    rw [gravity]
    by_cases hd : d = 0
    · simp [hd]
    · field_simp
      ring
  rw [attraction, attraction, distance_point, hclamp]
  ext
  · exact haxis _ _ _ _
  · exact haxis _ _ _ _

/-! ## The naive phase -/

private theorem pullOf_body (s : ABodySimulator K) (b c : UBodyEntity K) :
    (u.simulator s).pullOf (u.body b) (u.body c) = u.acceleration (s.pullOf b c) := by
  rw [ABodySimulator.pullOf, ABodySimulator.pullOf, apply_ite u.acceleration, acceleration_zero,
    ← attraction_point]
  rfl

private theorem naivePull_heap (s : ABodySimulator K) (objects : BodyHeap K) (b : BodyRef) :
    (u.simulator s).naivePull (u.heap objects) b = u.acceleration (s.naivePull objects b) := by
  rw [ABodySimulator.naivePull, ABodySimulator.naivePull, acceleration_sum, List.map_map]
  exact congrArg List.sum (List.map_congr_left fun c _ ↦ u.pullOf_body s _ _)

private theorem simulateCompareAllParallel_simulator {s : ABodySimulator K}
    (hnodup : s.bodies.Nodup) (deltaTime : K) :
    (u.simulator s).simulateCompareAllParallel (deltaTime * u.time)
      = u.simulator (s.simulateCompareAllParallel deltaTime) := by
  have hobjects : ((u.simulator s).simulateCompareAllParallel (deltaTime * u.time)).objects
      = u.heap (s.simulateCompareAllParallel deltaTime).objects := by
    rw [ABodySimulator.simulateCompareAllParallel_objects deltaTime hnodup, ← heap_kick]
    simp only [← naivePull_heap]
    exact ABodySimulator.simulateCompareAllParallel_objects _ hnodup
  exact congrArg (fun objects ↦ { u.simulator s with objects := objects }) hobjects

/-! ## The Barnes-Hut phase -/

/-- The product of the place and the mass of a body moves as a place does. -/
def MovesCentre (objects : BodyHeap K) (b : BodyRef) : Prop :=
  u.origin * (objects b).mass = u.origin

omit [PythagoreanField K] [IsStrictOrderedRing K] in
private theorem getCenterOfMass_tree {objects : BodyHeap K} {self : UQuadTree.Fields K}
    {children : List (UQuadTree K)}
    (h : ∀ b ∈ UQuadTree.leafBody self children, u.MovesCentre objects b) :
    UQuadTree.getCenterOfMass (u.heap objects) (u.fields self) (u.trees children)
      = (UQuadTree.getCenterOfMass objects self children).map u.point := by
  rw [UQuadTree.getCenterOfMass, UQuadTree.getCenterOfMass, leafBody_tree]
  rcases hbody : UQuadTree.leafBody self children with _ | b
  · rfl
  · have hb := h b hbody
    have hx : u.origin.x * (objects b).mass = u.origin.x := congrArg FVector2D.x hb
    have hy : u.origin.y * (objects b).mass = u.origin.y := congrArg FVector2D.y hb
    refine congrArg some (FVector2D.ext ?_ ?_)
    · simp only [UBodyEntity.getCenterOfMass, heap, body, FVector2D.x_mul, x_point, coordX,
        add_mul, hx]
      ring
    · simp only [UBodyEntity.getCenterOfMass, heap, body, FVector2D.y_mul, y_point, coordY,
        add_mul, hy]
      ring

omit [PythagoreanField K] [IsStrictOrderedRing K] in
private theorem getMass_tree (objects : BodyHeap K) (self : UQuadTree.Fields K)
    (children : List (UQuadTree K)) :
    UQuadTree.getMass (u.heap objects) (u.fields self) (u.trees children)
      = UQuadTree.getMass objects self children := by
  rw [UQuadTree.getMass, UQuadTree.getMass, leafBody_tree]
  rfl

omit [PythagoreanField K] [IsStrictOrderedRing K] in
private theorem isOwnLeaf_tree (objects : BodyHeap K) (b : BodyRef) (self : UQuadTree.Fields K)
    (children : List (UQuadTree K)) :
    ABodySimulator.isOwnLeaf (u.heap objects) b (u.fields self) (u.trees children)
      = ABodySimulator.isOwnLeaf objects b self children := by
  rw [ABodySimulator.isOwnLeaf, ABodySimulator.isOwnLeaf, leafBody_tree]
  rfl

/-- The quotient of two lengths has no unit. -/
theorem farTest_tree (theta : K) {objects : BodyHeap K} (b : BodyRef)
    {self : UQuadTree.Fields K} {children : List (UQuadTree K)}
    (h : ∀ b ∈ UQuadTree.leafBody self children, u.MovesCentre objects b) :
    ABodySimulator.farTest theta (u.heap objects) b (u.fields self) (u.trees children)
      = ABodySimulator.farTest theta objects b self children := by
  have hl : u.length ≠ 0 := u.length_pos.ne'
  have hextent : (u.box self.box).getCenterAndExtents.2.getMax
      = self.box.getCenterAndExtents.2.getMax * u.length := by
    rw [extents_box]
    exact (max_mul_of_nonneg _ _ u.length_pos.le).symm
  rw [ABodySimulator.farTest, ABodySimulator.farTest, u.getCenterOfMass_tree h]
  cases UQuadTree.getCenterOfMass objects self children with
  | none => rfl
  | some center =>
    show (decide (FVector2D.distance (u.point center) (u.point (objects b).position) ≠ 0)
      && decide ((u.box self.box).getCenterAndExtents.2.getMax
        / FVector2D.distance (u.point center) (u.point (objects b).position) < theta)) = _
    rw [hextent, distance_point, mul_div_mul_right _ _ hl]
    simp only [ne_eq, mul_eq_zero, hl, or_false]

private theorem pull_tree {objects : BodyHeap K} (b : BodyRef) {self : UQuadTree.Fields K}
    {children : List (UQuadTree K)}
    (h : ∀ b ∈ UQuadTree.leafBody self children, u.MovesCentre objects b) :
    (Visit.applied (.node (u.fields self) (u.trees children))).pull (u.heap objects) b
      = u.acceleration ((Visit.applied (.node self children)).pull objects b) := by
  rw [Visit.pull, Visit.pull, u.getCenterOfMass_tree h, getMass_tree]
  cases UQuadTree.getCenterOfMass objects self children with
  | none => exact u.acceleration_zero.symm
  | some center => exact u.attraction_point _ _ _ _ _

omit [IsStrictOrderedRing K] in
private theorem treePull_nullptr (theta : K) (objects : BodyHeap K) (b : BodyRef) :
    ABodySimulator.treePull theta objects b .nullptr = 0 := by
  rw [ABodySimulator.treePull, ABodySimulator.visits]
  exact List.sum_singleton

omit [IsStrictOrderedRing K] in
/-- The pull of a node: of a leaf with a body, and once more of what passes the far test. -/
theorem treePull_node (theta : K) (objects : BodyHeap K) (b : BodyRef) (self : UQuadTree.Fields K)
    (children : List (UQuadTree K)) :
    ABodySimulator.treePull theta objects b (.node self children)
      = if ABodySimulator.isOwnLeaf objects b self children then 0
        else (if (UQuadTree.leafBody self children).isSome then
            (Visit.applied (.node self children)).pull objects b else 0)
          + if UQuadTree.isEmpty self then 0
            else if ABodySimulator.farTest theta objects b self children then
              if UQuadTree.getMass objects self children > 0 then
                (Visit.applied (.node self children)).pull objects b else 0
            else ((ABodySimulator.visitsOf theta objects b children).map
              (Visit.pull objects b)).sum := by
  -- Only what is applied pulls: neither the call on the node nor its far test does.
  have hinvoked : Visit.pull objects b (.invoked (.node self children)) = 0 := rfl
  have hfar : Visit.pull objects b (.far (.node self children)) = 0 := rfl
  rw [ABodySimulator.treePull, ABodySimulator.visits, List.map_cons, List.sum_cons, hinvoked,
    zero_add]
  by_cases hown : ABodySimulator.isOwnLeaf objects b self children = true
  · rw [if_pos hown, if_pos hown]
    rfl
  · rw [if_neg hown, if_neg hown, List.map_append, List.sum_append, ABodySimulator.leafVisits]
    congr 1
    · split
      · exact List.sum_singleton
      · rfl
    · split
      · rfl
      · split
        · rw [ABodySimulator.farVisits, List.map_cons, List.sum_cons, hfar, zero_add]
          split
          · exact List.sum_singleton
          · rfl
        · rfl

end Forces

section Pulls

variable [PythagoreanField K]

mutual

/-- **The pull of the changed tree** is the changed pull. -/
theorem treePull_tree [IsStrictOrderedRing K] (theta : K) {objects : BodyHeap K} (b : BodyRef)
    (t : UQuadTree K)
    (h : ∀ b ∈ t.leafBodies, u.MovesCentre objects b) :
    ABodySimulator.treePull theta (u.heap objects) b (u.tree t)
      = u.acceleration (ABodySimulator.treePull theta objects b t) := by
  match t with
  | .nullptr =>
    rw [tree, treePull_nullptr, treePull_nullptr, acceleration_zero]
  | .node self children =>
    rw [UQuadTree.leafBodies] at h
    have hleaf : ∀ b ∈ UQuadTree.leafBody self children, u.MovesCentre objects b := fun c hc ↦
      h c (List.mem_append_left _ (Option.mem_toList.mpr hc))
    have hchildren := treePull_trees theta b children fun c hc ↦ h c (List.mem_append_right _ hc)
    rw [tree, treePull_node, treePull_node, isOwnLeaf_tree, leafBody_tree,
      u.farTest_tree theta b hleaf, getMass_tree, u.pull_tree b hleaf, hchildren]
    simp only [apply_ite u.acceleration, acceleration_zero, acceleration_add]
    rfl

theorem treePull_trees [IsStrictOrderedRing K] (theta : K) {objects : BodyHeap K} (b : BodyRef)
    (children : List (UQuadTree K))
    (h : ∀ b ∈ UQuadTree.leafBodiesOf children, u.MovesCentre objects b) :
    ((ABodySimulator.visitsOf theta (u.heap objects) b (u.trees children)).map
        (Visit.pull (u.heap objects) b)).sum
      = u.acceleration ((ABodySimulator.visitsOf theta objects b children).map
        (Visit.pull objects b)).sum := by
  match children with
  | [] => exact u.acceleration_zero.symm
  | child :: rest =>
    rw [UQuadTree.leafBodiesOf] at h
    rw [trees, ABodySimulator.visitsOf, ABodySimulator.visitsOf, List.map_append, List.sum_append,
      List.map_append, List.sum_append, acceleration_add]
    exact congrArg₂ (· + ·)
      (treePull_tree theta b child fun c hc ↦ h c (List.mem_append_left _ hc))
      (treePull_trees theta b rest fun c hc ↦ h c (List.mem_append_right _ hc))

end

variable [IsStrictOrderedRing K]

private theorem simulateBarnesHut_simulator {s : ABodySimulator K} (hnodup : s.bodies.Nodup)
    (h : ∀ b ∈ s.quadTree.leafBodies, u.MovesCentre s.objects b) (deltaTime : K) :
    (u.simulator s).simulateBarnesHut (deltaTime * u.time)
      = u.simulator (s.simulateBarnesHut deltaTime) := by
  have hobjects : ((u.simulator s).simulateBarnesHut (deltaTime * u.time)).objects
      = u.heap (s.simulateBarnesHut deltaTime).objects := by
    rw [ABodySimulator.simulateBarnesHut_objects deltaTime hnodup, ← heap_kick]
    simp only [← u.treePull_tree s.theta _ s.quadTree h]
    exact ABodySimulator.simulateBarnesHut_objects _ hnodup
  exact congrArg (fun objects ↦ { u.simulator s with objects := objects }) hobjects

end Pulls

/-! ## The tree and the move phase -/

section Phases

variable [IsStrictOrderedRing K]

private theorem insertAll_tree (fuel : ℕ) (bodies : List BodyRef) (t : UQuadTree K)
    (objects : BodyHeap K) :
    ABodySimulator.insertAll fuel bodies (u.tree t) (u.heap objects)
      = (ABodySimulator.insertAll fuel bodies t objects).map (Prod.map u.tree u.heap) := by
  induction bodies generalizing t objects with
  | nil => rfl
  | cons b rest ih => exact map_bind_of_map (u.insert_tree fuel b t objects) fun r ↦ ih _ _

private theorem constructTree_simulator (fuel : ℕ) (s : ABodySimulator K) :
    (u.simulator s).constructTree fuel = (s.constructTree fuel).map u.simulator :=
  map_bind_of_map (u.insertAll_tree fuel s.bodies (UQuadTree.new s.sceneBounds true) s.objects)
    fun _ ↦ rfl

omit [IsStrictOrderedRing K] in
private theorem advance_body {adjust adjust' : FVector2D K → FVector2D K}
    (hadjust : ∀ p, adjust' (u.point p) = u.point (adjust p)) (b : UBodyEntity K)
    (deltaTime : K) : (u.body b).advance adjust' (deltaTime * u.time)
      = u.body (b.advance adjust deltaTime) := by
  have ht : u.time ≠ 0 := u.time_pos.ne'
  have hmove : u.point (adjust b.position) + b.velocity * (u.length / u.time)
        * (deltaTime * u.time) = u.point (adjust b.position + b.velocity * deltaTime) := by
    ext
    · simp only [FVector2D.x_add, FVector2D.x_mul, x_point, coordX]
      field_simp
      ring
    · simp only [FVector2D.y_add, FVector2D.y_mul, y_point, coordY]
      field_simp
      ring
  simp only [UBodyEntity.advance, body, hadjust, hmove]

private theorem moveBodies_simulator (deltaTime : K) (bSkipAdjust : Bool) (bodies : List BodyRef)
    (s : ABodySimulator K) :
    ABodySimulator.moveBodies (deltaTime * u.time) bSkipAdjust bodies (u.simulator s)
      = (ABodySimulator.moveBodies deltaTime bSkipAdjust bodies s).map u.simulator := by
  have hadjust : ∀ (s : ABodySimulator K) p, (u.simulator s).adjustUnless bSkipAdjust (u.point p)
      = u.point (s.adjustUnless bSkipAdjust p) := by
    intro s p
    cases bSkipAdjust with
    | true => rfl
    | false => exact u.wrap_box _ _
  induction bodies generalizing s with
  | nil => rfl
  | cons b rest ih =>
    have hmove : ABodySimulator.moveBody (deltaTime * u.time) bSkipAdjust (u.simulator s) b
        = (ABodySimulator.moveBody deltaTime bSkipAdjust s b).map u.simulator := by
      have hget : (u.simulator s).transforms[((u.simulator s).objects b).index]?
          = s.transforms[(s.objects b).index]?.map u.transform := List.getElem?_map
      rw [ABodySimulator.moveBody_eq, ABodySimulator.moveBody_eq, hget]
      cases s.transforms[(s.objects b).index]? with
      | none => rfl
      | some t =>
        have hbody := u.advance_body (hadjust s) (s.objects b) deltaTime
        have htransform : (u.transform t).setTranslation ((u.body (s.objects b)).advance
              ((u.simulator s).adjustUnless bSkipAdjust) (deltaTime * u.time)).get3DPosition
            = u.transform (t.setTranslation ((s.objects b).advance
              (s.adjustUnless bSkipAdjust) deltaTime).get3DPosition) := by
          rw [hbody]
          simp [transform, FTransform.setTranslation, UBodyEntity.get3DPosition, body]
        have htransforms : (s.transforms.map u.transform).set (s.objects b).index
              ((u.transform t).setTranslation ((u.body (s.objects b)).advance
                ((u.simulator s).adjustUnless bSkipAdjust) (deltaTime * u.time)).get3DPosition)
            = (s.afterMove deltaTime bSkipAdjust b t).transforms.map u.transform := by
          rw [htransform, ← List.map_set]
          rfl
        have hobjects : (u.heap s.objects).modify b (·.advance
              ((u.simulator s).adjustUnless bSkipAdjust) (deltaTime * u.time))
            = u.heap (s.afterMove deltaTime bSkipAdjust b t).objects :=
          u.heap_modify (fun body ↦ u.advance_body (hadjust s) body deltaTime) s.objects b
        exact congrArg Except.ok (congrArg₂ (fun objects transforms ↦
          { u.simulator s with objects := objects, transforms := transforms }) hobjects htransforms)
    exact map_bind_of_map hmove fun s₁ ↦ ih s₁

variable [PythagoreanField K] {s : ABodySimulator K}

/-- **One tick in the new units.** -/
theorem tickCall_simulator {c : TickCall K} (hnodup : s.bodies.Nodup)
    (h : c.simulationType = .barnesHut → ∀ b ∈ s.bodies, u.MovesCentre s.objects b) :
    (u.simulator s).tickCall (u.call c) = (s.tickCall c).map u.simulator := by
  cases hmode : c.simulationType with
  | none =>
    rw [ABodySimulator.tickCall, ABodySimulator.tickCall, simulationType_call, hmode]
    rfl
  | allVsAll =>
    have hcall : (u.call c).simulationType = .allVsAll := hmode
    have hphase := u.simulateCompareAllParallel_simulator (s := s.switchTo .allVsAll) hnodup
      c.deltaTime
    rw [ABodySimulator.tickCall_allVsAll_eq hmode, ABodySimulator.tickCall_allVsAll_eq hcall,
      switchTo_simulator, deltaTime_call, bodies_simulator, hphase]
    exact u.moveBodies_simulator c.deltaTime false s.bodies _
  | barnesHut =>
    have hcall : (u.call c).simulationType = .barnesHut := hmode
    rw [ABodySimulator.tickCall_barnesHut_bind hmode, ABodySimulator.tickCall_barnesHut_bind hcall,
      switchTo_simulator, fuel_call, deltaTime_call, constructTree_simulator]
    cases hs₁ : (s.switchTo .barnesHut).constructTree c.fuel with
    | error fault => rfl
    | ok s₁ =>
      obtain ⟨t, hc, rfl⟩ := constructTree_spec hs₁
      -- The tree holds listed bodies only, and building it has not touched their masses.
      have hleaves : ∀ b ∈ ((s.switchTo .barnesHut).withTree t).quadTree.leafBodies,
          u.MovesCentre ((s.switchTo .barnesHut).withTree t).objects b := by
        intro b hb
        have hmem := (hc.mem_of_mem_leaves (UQuadTree.mem_leafBodies_represent.mp hb)).1
        have hsame := BodyHeap.sameBodies_settle s.objects s.sceneBounds s.bodies
        have hmass := (h hmode b hmem)
        rwa [MovesCentre, ← hsame.mass b] at hmass
      have hphase := u.simulateBarnesHut_simulator (s := (s.switchTo .barnesHut).withTree t) hnodup
        hleaves c.deltaTime
      refine (congrArg (ABodySimulator.moveAllBodies _ true) hphase).trans ?_
      exact u.moveBodies_simulator c.deltaTime true _ _

/-- **Runs in other units.** A run from the changed state, with the time steps changed, fails where
the run fails, and ends in the changed state where the run ends. The units of length and of time may
be changed for every run; the origin only for naive ones, or when all masses are one. -/
theorem run_changeOfUnits {calls : List (TickCall K)} (hnodup : s.bodies.Nodup)
    (h : (∃ c ∈ calls, c.simulationType = .barnesHut) →
      u.origin = 0 ∨ ∀ b ∈ s.bodies, (s.objects b).mass = 1) :
    (u.simulator s).run (calls.map u.call) = (s.run calls).map u.simulator := by
  induction calls generalizing s with
  | nil => rfl
  | cons c calls ih =>
    have hcentre : c.simulationType = .barnesHut → ∀ b ∈ s.bodies, u.MovesCentre s.objects b := by
      intro hmode b hb
      rw [MovesCentre]
      rcases h ⟨c, List.mem_cons_self, hmode⟩ with horigin | hmass
      · rw [horigin, FVector2D.zero_scale]
      · rw [hmass b hb, FVector2D.scale_one]
    rw [List.map_cons, ABodySimulator.run, ABodySimulator.run, u.tickCall_simulator hnodup hcentre]
    cases hs₁ : s.tickCall c with
    | error fault => rfl
    | ok s₁ =>
      obtain ⟨hbodies, hsame⟩ := ABodySimulator.sameBodies_tickCall hnodup hs₁
      refine ih (hbodies ▸ hnodup) ?_
      rintro ⟨c', hc', hmode⟩
      rcases h ⟨c', List.mem_cons_of_mem c hc', hmode⟩ with horigin | hmass
      · exact Or.inl horigin
      · right
        intro b hb
        rw [hsame.mass b]
        exact hmass b (hbodies ▸ hb)

end Phases

end ChangeOfUnits

/-- Centimetres for metres and minutes for seconds, seen from a place to the left and below. -/
noncomputable def centimetresAndMinutes : ChangeOfUnits ℝ where
  length := (100 : ℕ)
  time := 1 / (60 : ℕ)
  origin := ⟨(500 : ℕ), (300 : ℕ)⟩
  length_pos := by norm_num
  time_pos := by norm_num

theorem run_changeOfUnits_sideBySideScene : ∃ fuel s',
    (sideBySideScene 1 1).run [⟨.barnesHut, fuel, 5⟩, ⟨.allVsAll, 0, 1⟩] = .ok s' ∧
    (centimetresAndMinutes.simulator (sideBySideScene 1 1)).run
        ([⟨.barnesHut, fuel, 5⟩, ⟨.allVsAll, 0, 1⟩].map centimetresAndMinutes.call)
      = .ok (centimetresAndMinutes.simulator s') := by
  obtain ⟨fuel, s₀, hs₀⟩ := exists_constructTree (s := (sideBySideScene 1 1).switchTo .barnesHut)
    nodup_sideBySideScene places_ne_sideBySideScene
  obtain ⟨s', hrun⟩ := ABodySimulator.exists_run_of_constructTree
    (ABodySimulator.ofBodies_wellIndexed _ _ _ _ _ _) hs₀ 5 1
  refine ⟨fuel, s', hrun, ?_⟩
  rw [centimetresAndMinutes.run_changeOfUnits nodup_sideBySideScene fun _ ↦ Or.inr
    (ABodySimulator.ofBodies_forall_mem (P := fun body ↦ body.mass = 1) (by
      simp [UBodyEntity.initializeBody]))]
  exact congrArg (Except.map _) hrun

end NBodySimulation
