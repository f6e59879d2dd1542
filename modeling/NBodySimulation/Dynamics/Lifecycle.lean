import NBodySimulation.Actors.Lifecycle
import NBodySimulation.Dynamics.Kinematics

/-!
# The actor stays in order

From its construction on, whatever its properties are edited to and whenever, the actor is in order
between any two events: it ticks exactly when play has begun, its bodies are numbered as its
transforms, every transform is at the place of its body, and the mesh shows the transforms, unless
one of these contains a NaN. An event fails only when `Insert` runs out of fuel, or when play begins
with a negative `BodyNum`.

What `BeginPlay` makes is there for good: the number of bodies, their masses, and the gravity
constant and the clamp that each body carries. Editing these properties later has no effect on them.

## Main results

* `BodySimulatorActor.play_inOrder`: the actor is in order after any events.
* `BodySimulatorActor.play_keeps`: what `BeginPlay` fixes for good.
-/

namespace NBodySimulation

/-! ## What a tick does not change -/

/-- The objects are the same bodies, wherever they are now, and those not in the list are as they
were. -/
structure BodyHeap.SameBodies {K : Type*} (heap heap' : BodyHeap K) (bodies : List BodyRef) :
    Prop where
  index : ∀ b, (heap' b).index = (heap b).index
  mass : ∀ b, (heap' b).mass = (heap b).mass
  g : ∀ b, (heap' b).g = (heap b).g
  minimumGravityDistance :
    ∀ b, (heap' b).minimumGravityDistance = (heap b).minimumGravityDistance
  others : ∀ b, b ∉ bodies → heap' b = heap b

namespace BodyHeap

variable {K : Type*}

theorem SameBodies.refl (heap : BodyHeap K) (bodies : List BodyRef) :
    heap.SameBodies heap bodies :=
  ⟨fun _ ↦ rfl, fun _ ↦ rfl, fun _ ↦ rfl, fun _ ↦ rfl, fun _ _ ↦ rfl⟩

theorem SameBodies.trans {heap₁ heap₂ heap₃ : BodyHeap K} {bodies : List BodyRef}
    (h : heap₁.SameBodies heap₂ bodies) (h' : heap₂.SameBodies heap₃ bodies) :
    heap₁.SameBodies heap₃ bodies :=
  ⟨fun b ↦ (h'.index b).trans (h.index b), fun b ↦ (h'.mass b).trans (h.mass b),
    fun b ↦ (h'.g b).trans (h.g b),
    fun b ↦ (h'.minimumGravityDistance b).trans (h.minimumGravityDistance b),
    fun b hb ↦ (h'.others b hb).trans (h.others b hb)⟩

private theorem sameBodies_of_forall {heap heap' : BodyHeap K} {bodies : List BodyRef}
    {f : BodyRef → UBodyEntity K → UBodyEntity K}
    (h : ∀ b, heap' b = if b ∈ bodies then f b (heap b) else heap b)
    (hf : ∀ b body, (f b body).index = body.index ∧ (f b body).mass = body.mass ∧
      (f b body).g = body.g ∧ (f b body).minimumGravityDistance = body.minimumGravityDistance) :
    heap.SameBodies heap' bodies := by
  have hsame : ∀ b, (heap' b).index = (heap b).index ∧ (heap' b).mass = (heap b).mass ∧
      (heap' b).g = (heap b).g ∧
      (heap' b).minimumGravityDistance = (heap b).minimumGravityDistance := by
    intro b
    rw [h b]
    split
    · exact hf b _
    · exact ⟨rfl, rfl, rfl, rfl⟩
  exact ⟨fun b ↦ (hsame b).1, fun b ↦ (hsame b).2.1, fun b ↦ (hsame b).2.2.1,
    fun b ↦ (hsame b).2.2.2, fun b hb ↦ (h b).trans (if_neg hb)⟩

variable [Field K]

private theorem sameBodies_kick (heap : BodyHeap K) (bodies : List BodyRef)
    (change : BodyRef → FVector2D K) : heap.SameBodies (heap.kick bodies change) bodies :=
  sameBodies_of_forall (f := fun b body ↦ body.accelerate (change b)) (fun _ ↦ rfl)
    fun _ _ ↦ ⟨rfl, rfl, rfl, rfl⟩

theorem sameBodies_drift (heap : BodyHeap K) (bodies : List BodyRef)
    (adjust : FVector2D K → FVector2D K) (deltaTime : K) :
    heap.SameBodies (heap.drift bodies adjust deltaTime) bodies :=
  sameBodies_of_forall (f := fun _ body ↦ body.advance adjust deltaTime) (fun _ ↦ rfl)
    fun _ _ ↦ ⟨rfl, rfl, rfl, rfl⟩

omit [Field K] in
theorem sameBodies_settle [LinearOrder K] (heap : BodyHeap K) (box : FBox2D K)
    (bodies : List BodyRef) : heap.SameBodies (heap.settle box bodies) bodies :=
  sameBodies_of_forall (f := fun _ body ↦ body.adjustPosition box) (fun _ ↦ rfl)
    fun _ _ ↦ ⟨rfl, rfl, rfl, rfl⟩

end BodyHeap

namespace ABodySimulator

variable {K : Type*} [Field K] [LinearOrder K]

/-- What the force phases of a tick hand over to the move phase: the same bodies, to be moved from
their wrapped places. -/
structure Prepares (s : ABodySimulator K) (bSkipAdjust : Bool) (s₁ : ABodySimulator K) :
    Prop where
  bodies : s₁.bodies = s.bodies
  transforms : s₁.transforms = s.transforms
  sceneBounds : s₁.sceneBounds = s.sceneBounds
  properties : s₁.properties = s.properties
  sameBodies : s.objects.SameBodies s₁.objects s.bodies
  place : ∀ b ∈ s.bodies, s₁.adjustUnless bSkipAdjust (s₁.objects b).position
    = s.sceneBounds.wrap (s.objects b).position

omit [Field K] in
theorem Prepares.wellIndexed {s s₁ : ABodySimulator K} {bSkipAdjust : Bool}
    (h : s.Prepares bSkipAdjust s₁) (hs : s.WellIndexed) : s₁.WellIndexed :=
  hs.of_index_eq h.bodies h.sameBodies.index (by rw [h.transforms])

variable [PythagoreanField K]

theorem prepares_simulateCompareAllParallel {s : ABodySimulator K} (hnodup : s.bodies.Nodup)
    (deltaTime : K) : s.Prepares false (s.simulateCompareAllParallel deltaTime) where
  bodies := rfl
  transforms := rfl
  sceneBounds := rfl
  properties := rfl
  sameBodies := by
    rw [simulateCompareAllParallel_objects deltaTime hnodup]
    exact BodyHeap.sameBodies_kick _ _ _
  place b _ := by
    rw [simulateCompareAllParallel_objects deltaTime hnodup,
      (BodyHeap.sameButVelocity_kick _ _ _ b).position]
    rfl

variable [IsStrictOrderedRing K]

theorem prepares_simulateBarnesHut {s s₁ : ABodySimulator K} (hnodup : s.bodies.Nodup)
    {fuel : ℕ} (h : s.constructTree fuel = .ok s₁) (deltaTime : K) :
    s.Prepares true (s₁.simulateBarnesHut deltaTime) := by
  obtain ⟨t, _, rfl⟩ := constructTree_spec h
  have hkick := simulateBarnesHut_objects deltaTime
    (show (s.withTree t).bodies.Nodup from hnodup)
  refine ⟨rfl, rfl, rfl, rfl, ?_, fun b hb ↦ ?_⟩
  · rw [hkick]
    exact (BodyHeap.sameBodies_settle _ _ _).trans (BodyHeap.sameBodies_kick _ _ _)
  · rw [hkick, (BodyHeap.sameButVelocity_kick _ _ _ b).position]
    show (s.objects.settle s.sceneBounds s.bodies b).position = _
    rw [BodyHeap.settle_of_mem hb]
    rfl

omit [PythagoreanField K] in
private theorem constructTree_or (fuel : ℕ) (s : ABodySimulator K) :
    s.constructTree fuel = .error .outOfFuel ∨ ∃ s₁, s.constructTree fuel = .ok s₁ := by
  rcases constructTree_represent fuel s with herr | ⟨t, _, hok⟩
  · exact Or.inl herr
  · exact Or.inr ⟨_, hok⟩

theorem sameBodies_tickCall {s s' : ABodySimulator K} {call : TickCall K}
    (hnodup : s.bodies.Nodup) (h : s.tickCall call = .ok s') :
    s'.bodies = s.bodies ∧ s.objects.SameBodies s'.objects s.bodies := by
  have hmoved : ∀ {bSkipAdjust s₁}, (s.switchTo call.simulationType).Prepares bSkipAdjust s₁ →
      moveBodies call.deltaTime bSkipAdjust s₁.bodies s₁ = .ok s' →
      s'.bodies = s.bodies ∧ s.objects.SameBodies s'.objects s.bodies := by
    intro bSkipAdjust s₁ hprepares hmove
    have hbodies : s₁.bodies = s.bodies := hprepares.bodies
    rw [(moveBodies_spec (hbodies ▸ hnodup) hmove).1]
    refine ⟨hbodies, hprepares.sameBodies.trans ?_⟩
    rw [← hprepares.bodies]
    exact BodyHeap.sameBodies_drift _ _ _ _
  cases hcall : call.simulationType with
  | none =>
    rw [tickCall, hcall] at h
    obtain rfl : s.switchTo .none = s' := Except.ok.inj h
    exact ⟨rfl, .refl _ _⟩
  | allVsAll =>
    rw [hcall] at hmoved
    rw [tickCall_allVsAll_eq hcall] at h
    exact hmoved (prepares_simulateCompareAllParallel (s := s.switchTo .allVsAll) hnodup _) h
  | barnesHut =>
    rw [hcall] at hmoved
    obtain ⟨s₁, hs₁⟩ := constructTree_of_tickCall hcall h
    rw [tickCall_barnesHut_bind hcall, hs₁] at h
    exact hmoved (prepares_simulateBarnesHut (s := s.switchTo .barnesHut) hnodup hs₁ _) h

/-- A Barnes-Hut tick ends where its tree is built, and so does a naive tick after it. -/
theorem exists_run_of_constructTree {s s₀ : ABodySimulator K} {fuel : ℕ} (hs : s.WellIndexed)
    (h : (s.switchTo .barnesHut).constructTree fuel = .ok s₀) (deltaTime deltaTime' : K) :
    ∃ s', s.run [⟨.barnesHut, fuel, deltaTime⟩, ⟨.allVsAll, 0, deltaTime'⟩] = .ok s' := by
  obtain ⟨bSkipAdjust, s₁, htick, hs₁, _⟩ := @exists_moveBodies_eq_tickCall K _ _ _ _
    ⟨.barnesHut, fuel, deltaTime⟩ _ hs (by simp) fun _ ↦ ⟨s₀, h⟩
  obtain ⟨s₂, hmove⟩ : ∃ s₂, moveBodies deltaTime bSkipAdjust s₁.bodies s₁ = .ok s₂ :=
    exists_moveBodies fun b hb ↦ hs₁.index_lt hb
  have hfirst : s.tickCall ⟨.barnesHut, fuel, deltaTime⟩ = .ok s₂ := htick.trans hmove
  obtain ⟨s', hsecond⟩ : ∃ s', s₂.tickCall ⟨.allVsAll, 0, deltaTime'⟩ = .ok s' :=
    exists_tickCall_allVsAll rfl (hs.tickCall hfirst).1.addressed
  exact ⟨s', run_cons.mpr ⟨s₂, hfirst, run_singleton.mpr hsecond⟩⟩

end ABodySimulator

/-! ## The move phase -/

theorem MeshCalls.Documented.batchUpdate_zero {K : Type*} {mesh : MeshCalls K}
    (hmesh : mesh.Documented) {new instances : List (FTransform K)}
    (h : instances.length = new.length) :
    mesh.batchUpdateInstancesTransforms 0 new instances = new := by
  rw [hmesh.batchUpdateInstancesTransforms 0 new instances (by omega), List.take_zero,
    List.nil_append, List.drop_eq_nil_of_le (by omega), List.append_nil]

private theorem map_set_of_eq {α β : Type*} {l : List α} {i : ℕ} {x t : α} {f : α → β}
    (ht : l[i]? = some t) (hx : f x = f t) : (l.set i x).map f = l.map f := by
  obtain ⟨hi, rfl⟩ := List.getElem?_eq_some_iff.mp ht
  rw [List.map_set, hx, ← List.getElem_map f (h := by simpa using hi), List.set_getElem_self]

namespace BodySimulatorActor

section Move

variable {K : Type*} [Field K] [LinearOrder K] {mesh : MeshCalls K} {deltaTime : K}
  {bSkipAdjust : Bool} {s s' : ABodySimulator K}

private theorem shape_moveBodies {bodies : List BodyRef}
    (h : ABodySimulator.moveBodies deltaTime bSkipAdjust bodies s = .ok s') :
    s'.transforms.map (fun t ↦ (t.rotation, t.scale3D))
      = s.transforms.map fun t ↦ (t.rotation, t.scale3D) := by
  induction bodies generalizing s with
  | nil =>
    obtain rfl := Except.ok.inj h
    rfl
  | cons b bodies ih =>
    obtain ⟨t, ht, hrest⟩ := ABodySimulator.moveBodies_cons.mp h
    rw [ih hrest]
    exact map_set_of_eq ht rfl

/-- The loop moves the bodies, and its local `bSkipBody` ends up true when some transform that it
has written contains a NaN. -/
theorem moveBodies_eq {bodies : List BodyRef}
    (hindex : (bodies.map fun b ↦ (s.objects b).index).Nodup)
    (h : ABodySimulator.moveBodies deltaTime bSkipAdjust bodies s = .ok s') (bSkipBody : Bool) :
    moveBodies mesh deltaTime bSkipAdjust bodies bSkipBody s
      = .ok (bSkipBody || bodies.any fun b ↦
          (s'.transforms[(s.objects b).index]?).any mesh.containsNaN, s') := by
  induction bodies generalizing s bSkipBody with
  | nil =>
    obtain rfl := Except.ok.inj h
    rw [moveBodies, List.any_nil, Bool.or_false]
  | cons b bodies ih =>
    obtain ⟨hb, hindex⟩ := List.nodup_cons.mp hindex
    obtain ⟨t, ht, hrest⟩ := ABodySimulator.moveBodies_cons.mp h
    have hbody : s.moveBody deltaTime bSkipAdjust b
        = .ok (s.afterMove deltaTime bSkipAdjust b t) := by
      rw [ABodySimulator.moveBody_eq, ht]
    have hmap : (bodies.map fun c ↦
        ((s.afterMove deltaTime bSkipAdjust b t).objects c).index).Nodup := by
      simpa only [ABodySimulator.index_afterMove] using hindex
    -- no later turn writes at the index of this body
    have hkept : s'.transforms[(s.objects b).index]?
        = (s.afterMove deltaTime bSkipAdjust b t).transforms[(s.objects b).index]? := by
      refine ABodySimulator.transforms_moveBodies_of_ne hrest fun c hc ↦ ?_
      rw [ABodySimulator.index_afterMove]
      exact fun hcb ↦ hb (List.mem_map.mpr ⟨c, hc, hcb⟩)
    rw [moveBodies, hbody]
    show moveBodies mesh deltaTime bSkipAdjust bodies _
      (s.afterMove deltaTime bSkipAdjust b t) = _
    rw [ih hmap hrest, List.any_cons, hkept]
    simp only [ABodySimulator.index_afterMove]
    cases Option.any mesh.containsNaN
      (s.afterMove deltaTime bSkipAdjust b t).transforms[(s.objects b).index]? with
    | true => simp
    | false => simp

omit [Field K] [LinearOrder K] in
private theorem any_transforms_eq (hs : s.WellIndexed)
    (hlen : s'.transforms.length = s.transforms.length) :
    (s.bodies.any fun b ↦ (s'.transforms[(s.objects b).index]?).any mesh.containsNaN)
      = s'.transforms.any mesh.containsNaN := by
  rw [Bool.eq_iff_iff, List.any_eq_true, List.any_eq_true]
  constructor
  · rintro ⟨b, _, hb⟩
    obtain ⟨t, ht, hnan⟩ := (Option.any_eq_true _ _).mp hb
    exact ⟨t, List.mem_of_getElem? ht, hnan⟩
  · rintro ⟨t, ht, hnan⟩
    obtain ⟨i, hi, rfl⟩ := List.getElem_of_mem ht
    have hrange : i ∈ s.bodies.map fun b ↦ (s.objects b).index := by
      rw [hs.perm_range.mem_iff, List.mem_range, ← hs.length_transforms, ← hlen]
      exact hi
    obtain ⟨b, hb, rfl⟩ := List.mem_map.mp hrange
    refine ⟨b, hb, ?_⟩
    rw [List.getElem?_eq_getElem hi]
    exact hnan

variable (deltaTime bSkipAdjust) in
/-- **The move phase** moves the bodies, and shows the transforms unless one contains a NaN. -/
theorem exists_moveAllBodies_eq (hmesh : mesh.Documented) {a : BodySimulatorActor K}
    (hs : a.simulator.WellIndexed)
    (hlength : a.instancedMesh.length = a.simulator.bodies.length) :
    ∃ s', ABodySimulator.moveBodies deltaTime bSkipAdjust a.simulator.bodies a.simulator = .ok s' ∧
      a.moveAllBodies mesh deltaTime bSkipAdjust = .ok { a with
        simulator := s'
        instancedMesh :=
          if s'.transforms.any mesh.containsNaN then a.instancedMesh else s'.transforms } := by
  obtain ⟨s', hmove⟩ : ∃ s', ABodySimulator.moveBodies deltaTime bSkipAdjust a.simulator.bodies
      a.simulator = .ok s' := ABodySimulator.exists_moveBodies fun b hb ↦ hs.index_lt hb
  have hlen := (ABodySimulator.moveBodies_spec hs.nodup_bodies hmove).2
  refine ⟨s', hmove, ?_⟩
  rw [moveAllBodies, moveBodies_eq hs.nodup_index hmove, Bool.false_or,
    any_transforms_eq hs hlen]
  show Except.ok _ = _
  cases s'.transforms.any mesh.containsNaN with
  | true => rfl
  | false =>
    have hupdate : mesh.batchUpdateInstancesTransforms 0 s'.transforms a.instancedMesh
        = s'.transforms := hmesh.batchUpdate_zero (by rw [hlength, hlen, hs.length_transforms])
    simp only [Bool.not_false, if_true, hupdate, Bool.false_eq_true, if_false]

end Move

section Tick

variable {K : Type*} [Field K] [LinearOrder K] [PythagoreanField K]
  {mesh : MeshCalls K} {a a' : BodySimulatorActor K}

theorem tick_none (hmode : a.simulator.simulationType = .none) (fuel : ℕ) (deltaTime : K) :
    a.tick mesh fuel deltaTime = .ok a := by
  rw [tick, hmode]

theorem tick_allVsAll (hmode : a.simulator.simulationType = .allVsAll) (fuel : ℕ) (deltaTime : K) :
    a.tick mesh fuel deltaTime = moveAllBodies mesh deltaTime false
      { a with simulator := a.simulator.simulateCompareAllParallel deltaTime } := by
  rw [tick, hmode]

theorem tick_barnesHut (hmode : a.simulator.simulationType = .barnesHut) (fuel : ℕ)
    (deltaTime : K) :
    a.tick mesh fuel deltaTime = (a.simulator.constructTree fuel).bind fun s ↦
      moveAllBodies mesh deltaTime true
        { a with simulator := s.simulateBarnesHut deltaTime } := by
  rw [tick, hmode]
  rfl

theorem step_tick (h : a.tickEnabled = true) (fuel : ℕ) (deltaTime : K) :
    a.step mesh (.tick fuel deltaTime) = a.tick mesh fuel deltaTime :=
  if_pos h

theorem step_tick_disabled (h : a.tickEnabled = false) (fuel : ℕ) (deltaTime : K) :
    a.step mesh (.tick fuel deltaTime) = .ok a :=
  if_neg (by rw [h]; exact Bool.false_ne_true)

private theorem step_beginPlay (h : a.hasBegunPlay = false) (engine : EngineCalls K) :
    a.step mesh (.beginPlay engine) = a.beginPlay mesh engine := by
  rw [step, h]
  rfl

theorem step_beginPlay_again (h : a.hasBegunPlay = true) (engine : EngineCalls K) :
    a.step mesh (.beginPlay engine) = .ok a := by
  rw [step, h]
  rfl

variable [IsStrictOrderedRing K]

variable (mesh) in
/-- **A tick** does nothing in mode `None`, runs out of fuel while the tree is built, or moves the
bodies from where the force phase has left them. -/
theorem tick_cases (hnodup : a.simulator.bodies.Nodup) (fuel : ℕ) (deltaTime : K) :
    a.tick mesh fuel deltaTime = .ok a ∨
    a.tick mesh fuel deltaTime = .error .outOfFuel ∨
    ∃ bSkipAdjust s₁, a.simulator.Prepares bSkipAdjust s₁ ∧
      a.tick mesh fuel deltaTime
        = moveAllBodies mesh deltaTime bSkipAdjust { a with simulator := s₁ } := by
  cases hmode : a.simulator.simulationType with
  | none => exact Or.inl (tick_none hmode fuel deltaTime)
  | allVsAll =>
    right; right
    exact ⟨false, _, ABodySimulator.prepares_simulateCompareAllParallel hnodup deltaTime,
      tick_allVsAll hmode fuel deltaTime⟩
  | barnesHut =>
    right
    rw [tick_barnesHut hmode]
    rcases ABodySimulator.constructTree_or fuel a.simulator with herr | ⟨s₁, hok⟩
    · left
      rw [herr]
      rfl
    · right
      refine ⟨true, _, ABodySimulator.prepares_simulateBarnesHut hnodup hok deltaTime, ?_⟩
      rw [hok]
      rfl

end Tick

end BodySimulatorActor

/-! ## In order between events -/

namespace ABodySimulator

/-- The transform at the index of every body has the body's place as its translation. -/
def InPlace {K : Type*} [Field K] (s : ABodySimulator K) : Prop :=
  ∀ b ∈ s.bodies, ∃ t, s.transforms[(s.objects b).index]? = some t ∧
    t.translation = ⟨(s.objects b).position.x, (s.objects b).position.y, 0⟩

private theorem inPlace_initLoop {K : Type*} [Field K] [LinearOrder K] [PythagoreanField K]
    (engine : EngineCalls K) (num : ℕ) (s : ABodySimulator K) :
    (s.initLoop engine num).InPlace := by
  intro b hb
  have hlt : b < num := List.mem_range.mp hb
  have hobject : (s.initLoop engine num).objects b = (s.initBody engine b).1 := if_pos hlt
  rw [hobject]
  refine ⟨(s.initBody engine b).2, ?_, rfl⟩
  show ((List.range num).map fun index ↦ (s.initBody engine index).2)[b]? = _
  rw [List.getElem?_map, List.getElem?_range hlt, Option.map_some]

end ABodySimulator

namespace BodySimulatorActor

/-- The actor between two events. -/
structure InOrder {K : Type*} [Field K] (mesh : MeshCalls K)
    (a : BodySimulatorActor K) : Prop where
  tickEnabled : a.tickEnabled = a.hasBegunPlay
  /-- There are no bodies before play begins. -/
  empty : a.hasBegunPlay = false → a.simulator.bodies = []
  sceneBounds : a.simulator.sceneBounds = ⟨⟨0, 0⟩, ⟨(3296 : ℕ), (5000 : ℕ)⟩⟩
  wellIndexed : a.simulator.WellIndexed
  inPlace : a.simulator.InPlace
  length_instancedMesh : a.instancedMesh.length = a.simulator.bodies.length
  /-- The mesh lags behind the transforms only while one of these contains a NaN. -/
  shows : a.instancedMesh = a.simulator.transforms ∨
    ∃ t ∈ a.simulator.transforms, mesh.containsNaN t = true

/-- What `BeginPlay` has made is the same in both states. -/
structure Keeps {K : Type*} (a a' : BodySimulatorActor K) : Prop where
  hasBegunPlay : a'.hasBegunPlay = a.hasBegunPlay
  bodies : a'.simulator.bodies = a.simulator.bodies
  sameBodies : a.simulator.objects.SameBodies a'.simulator.objects a.simulator.bodies
  shape : (a'.simulator.transforms.map fun t ↦ (t.rotation, t.scale3D))
    = a.simulator.transforms.map fun t ↦ (t.rotation, t.scale3D)

section Events

variable {K : Type*} {a a₁ a' : BodySimulatorActor K}

theorem Keeps.refl (a : BodySimulatorActor K) : a.Keeps a :=
  ⟨rfl, rfl, .refl _ _, rfl⟩

theorem Keeps.trans (h : a.Keeps a₁) (h' : a₁.Keeps a') : a.Keeps a' where
  hasBegunPlay := h'.hasBegunPlay.trans h.hasBegunPlay
  bodies := h'.bodies.trans h.bodies
  sameBodies := h.sameBodies.trans (h.bodies ▸ h'.sameBodies)
  shape := h'.shape.trans h.shape

variable [Field K] {mesh : MeshCalls K}

private theorem inOrder_construct (objects : BodyHeap K) : (construct objects).InOrder mesh where
  tickEnabled := rfl
  empty _ := rfl
  sceneBounds := rfl
  wellIndexed := ⟨List.Perm.nil, rfl⟩
  inPlace _ hb := absurd hb List.not_mem_nil
  length_instancedMesh := rfl
  shows := Or.inl rfl

theorem InOrder.edit (ha : a.InOrder mesh) (properties : Properties K) :
    InOrder mesh { a with simulator := a.simulator.setProperties properties } where
  tickEnabled := ha.tickEnabled
  empty := ha.empty
  sceneBounds := ha.sceneBounds
  wellIndexed := ha.wellIndexed.of_index_eq rfl (fun _ ↦ rfl) rfl
  inPlace := ha.inPlace
  length_instancedMesh := ha.length_instancedMesh
  shows := ha.shows

variable [LinearOrder K]

section Move

variable [IsStrictOrderedRing K] {s₁ : ABodySimulator K} {bSkipAdjust : Bool}

theorem InOrder.moveAllBodies (hmesh : mesh.Documented) (ha : a.InOrder mesh)
    (h : a.simulator.Prepares bSkipAdjust s₁) (deltaTime : K) :
    ∃ a', BodySimulatorActor.moveAllBodies mesh deltaTime bSkipAdjust
        { a with simulator := s₁ } = .ok a' ∧ a.Keeps a' ∧ a'.InOrder mesh := by
  have hs₁ := h.wellIndexed ha.wellIndexed
  have hlength : a.instancedMesh.length = s₁.bodies.length := by
    rw [ha.length_instancedMesh, h.bodies]
  obtain ⟨s', hmove, hall⟩ := exists_moveAllBodies_eq deltaTime bSkipAdjust hmesh
    (a := { a with simulator := s₁ }) hs₁ hlength
  obtain ⟨hs', hbounds⟩ := hs₁.moveBodies hmove
  obtain ⟨hspec, hlen⟩ := ABodySimulator.moveBodies_spec hs₁.nodup_bodies hmove
  have hobjects := ABodySimulator.objects_moveBodies hs₁.nodup_bodies hmove
  have hbodies : s'.bodies = a.simulator.bodies := by
    rw [hspec]
    exact h.bodies
  have hsides : (0 : K) ≤ (3296 : ℕ) ∧ (0 : K) ≤ (5000 : ℕ) :=
    ⟨Nat.cast_nonneg _, Nat.cast_nonneg _⟩
  have hkinematics : ABodySimulator.FollowsKinematics deltaTime a.simulator s' :=
    ABodySimulator.followsKinematics_of_moveBodies hs₁ h.bodies
      (by rw [ha.sceneBounds]; exact hsides.1) (by rw [ha.sceneBounds]; exact hsides.2) h.place
      hmove
  have hsame : s₁.objects.SameBodies s'.objects a.simulator.bodies := by
    rw [hobjects, ← h.bodies]
    exact BodyHeap.sameBodies_drift _ _ _ _
  have hlength' : (if s'.transforms.any mesh.containsNaN then a.instancedMesh
      else s'.transforms).length = s'.bodies.length := by
    split
    · rw [ha.length_instancedMesh, hbodies]
    · exact hs'.length_transforms
  refine ⟨_, hall, ⟨rfl, hbodies, h.sameBodies.trans hsame, ?_⟩, ⟨ha.tickEnabled,
    fun hplay ↦ hbodies.trans (ha.empty hplay), ?_, hs', ?_, hlength', ?_⟩⟩
  · exact (shape_moveBodies hmove).trans (by rw [h.transforms])
  · exact hbounds.trans (h.sceneBounds.trans ha.sceneBounds)
  · exact fun b hb ↦ hkinematics.transform b (hbodies ▸ hb)
  · cases hnan : s'.transforms.any mesh.containsNaN with
    | true => exact Or.inr (List.any_eq_true.mp hnan)
    | false => exact Or.inl (by simp only [Bool.false_eq_true, if_false])

end Move

variable [PythagoreanField K]

/-- The actor when play has begun. -/
def spawn (mesh : MeshCalls K) (engine : EngineCalls K) (a : BodySimulatorActor K) :
    BodySimulatorActor K where
  simulator := a.simulator.initLoop engine a.simulator.bodyNum.toNat
  instancedMesh := mesh.addInstances
    (a.simulator.initLoop engine a.simulator.bodyNum.toNat).transforms a.instancedMesh
  tickEnabled := true
  hasBegunPlay := true

private theorem beginPlay_of_neg (h : a.simulator.bodyNum < 0) (engine : EngineCalls K) :
    a.beginPlay mesh engine = .error .indexOutOfRange := by
  rw [BodySimulatorActor.beginPlay, ABodySimulator.initBodies, if_pos h]
  rfl

theorem beginPlay_of_nonneg (h : 0 ≤ a.simulator.bodyNum) (engine : EngineCalls K) :
    a.beginPlay mesh engine = .ok (a.spawn mesh engine) := by
  rw [BodySimulatorActor.beginPlay, ABodySimulator.initBodies, if_neg (not_lt.mpr h)]
  rfl

theorem InOrder.spawn (hmesh : mesh.Documented) (ha : a.InOrder mesh)
    (hplay : a.hasBegunPlay = false) (engine : EngineCalls K) :
    (a.spawn mesh engine).InOrder mesh := by
  have hshows : (a.spawn mesh engine).instancedMesh
      = (a.spawn mesh engine).simulator.transforms := by
    have hempty : a.instancedMesh = [] := by
      rw [← List.length_eq_zero_iff, ha.length_instancedMesh, ha.empty hplay, List.length_nil]
    refine (hmesh.addInstances _ _).trans ?_
    rw [hempty, List.nil_append]
    rfl
  have hindexed := ABodySimulator.initLoop_wellIndexed engine a.simulator.bodyNum.toNat a.simulator
  exact ⟨rfl, fun h ↦ absurd h Bool.noConfusion, ha.sceneBounds, hindexed,
    ABodySimulator.inPlace_initLoop engine _ a.simulator,
    by rw [hshows]; exact hindexed.length_transforms, Or.inl hshows⟩

end Events

section Steps

variable {K : Type*} [Field K] [LinearOrder K] [PythagoreanField K] [IsStrictOrderedRing K]
  {mesh : MeshCalls K} {a a' : BodySimulatorActor K}

theorem InOrder.tick (hmesh : mesh.Documented) (ha : a.InOrder mesh) (fuel : ℕ) (deltaTime : K) :
    BodySimulatorActor.tick mesh fuel deltaTime a = .error .outOfFuel ∨
    ∃ a', BodySimulatorActor.tick mesh fuel deltaTime a = .ok a' ∧ a.Keeps a' ∧
      a'.InOrder mesh := by
  rcases tick_cases mesh ha.wellIndexed.nodup_bodies fuel deltaTime with
    hnone | hfuel | ⟨bSkipAdjust, s₁, hprepares, htick⟩
  · exact Or.inr ⟨a, hnone, .refl a, ha⟩
  · exact Or.inl hfuel
  · right
    obtain ⟨a', hmove, hkeeps, ha'⟩ := ha.moveAllBodies hmesh hprepares deltaTime
    exact ⟨a', htick.trans hmove, hkeeps, ha'⟩

/-- **One event during play** leaves the actor in order, and keeps what `BeginPlay` has made. -/
theorem InOrder.step (hmesh : mesh.Documented) (ha : a.InOrder mesh)
    (hplay : a.hasBegunPlay = true) (event : ActorEvent K) :
    a.step mesh event = .error .outOfFuel ∨
    ∃ a', a.step mesh event = .ok a' ∧ a.Keeps a' ∧ a'.InOrder mesh := by
  cases event with
  | edit properties =>
    exact Or.inr ⟨_, rfl, ⟨rfl, rfl, .refl _ _, rfl⟩, ha.edit properties⟩
  | beginPlay engine => exact Or.inr ⟨a, step_beginPlay_again hplay engine, .refl a, ha⟩
  | tick fuel deltaTime =>
    rw [step_tick (ha.tickEnabled.trans hplay)]
    exact ha.tick hmesh fuel deltaTime

theorem InOrder.play (hmesh : mesh.Documented) (ha : a.InOrder mesh)
    (hplay : a.hasBegunPlay = true) (events : List (ActorEvent K)) :
    a.play mesh events = .error .outOfFuel ∨
    ∃ a', a.play mesh events = .ok a' ∧ a.Keeps a' ∧ a'.InOrder mesh := by
  induction events generalizing a with
  | nil => exact Or.inr ⟨a, rfl, .refl a, ha⟩
  | cons event events ih =>
    rw [BodySimulatorActor.play]
    rcases ha.step hmesh hplay event with herr | ⟨a₁, hok, hkeeps, ha₁⟩
    · left
      rw [herr]
      rfl
    · have hrest : (Except.ok a₁ >>= fun a ↦ a.play mesh events) = a₁.play mesh events := rfl
      rw [hok, hrest]
      rcases ih ha₁ (hkeeps.hasBegunPlay.trans hplay) with herr | ⟨a', hok', hkeeps', ha'⟩
      · exact Or.inl herr
      · exact Or.inr ⟨a', hok', hkeeps.trans hkeeps', ha'⟩

end Steps

/-! ## Until play begins -/

/-- The properties in force after the events, when `p` are in force before them. -/
def propertiesAfter {K : Type*} (events : List (ActorEvent K)) (p : Properties K) : Properties K :=
  events.foldl (fun p event ↦ match event with
    | .edit q => q
    | _ => p) p

def edited {K : Type*} [Field K] (objects : BodyHeap K) (p : Properties K) :
    BodySimulatorActor K :=
  { construct objects with simulator := (construct objects).simulator.setProperties p }

section BeforePlay

variable {K : Type*} [Field K] [LinearOrder K] [PythagoreanField K]
  {mesh : MeshCalls K} {a a' : BodySimulatorActor K}

theorem play_append (done rest : List (ActorEvent K)) :
    a.play mesh (done ++ rest)
      = (a.play mesh done).bind fun a₁ ↦ a₁.play mesh rest := by
  induction done generalizing a with
  | nil => rfl
  | cons event done ih =>
    rw [List.cons_append, BodySimulatorActor.play, BodySimulatorActor.play]
    cases a.step mesh event with
    | error fault => rfl
    | ok a₁ => exact ih

theorem play_before {before : List (ActorEvent K)} (hplay : a.hasBegunPlay = false)
    (htick : a.tickEnabled = false) (hbefore : ∀ engine, ActorEvent.beginPlay engine ∉ before) :
    a.play mesh before = .ok { a with
      simulator := a.simulator.setProperties (propertiesAfter before a.simulator.properties) } := by
  induction before generalizing a with
  | nil => rfl
  | cons event before ih =>
    have hrest : ∀ engine, ActorEvent.beginPlay engine ∉ before := fun engine h ↦
      hbefore engine (List.mem_cons_of_mem _ h)
    cases event with
    | edit properties =>
      exact ih (a := { a with simulator := a.simulator.setProperties properties }) hplay htick hrest
    | beginPlay engine => exact absurd List.mem_cons_self (hbefore engine)
    | tick fuel deltaTime =>
      rw [play, step_tick_disabled htick]
      exact ih hplay htick hrest

/-- Play begins with the properties that the edits before it leave. -/
theorem play_construct {before after : List (ActorEvent K)} {engine : EngineCalls K}
    {objects : BodyHeap K} (hbefore : ∀ engine, ActorEvent.beginPlay engine ∉ before) :
    (construct objects).play mesh (before ++ .beginPlay engine :: after)
      = ((edited objects
          (propertiesAfter before (construct objects).simulator.properties)).beginPlay mesh
          engine).bind fun a ↦ a.play mesh after := by
  rw [play_append, play_before rfl rfl hbefore]
  show play mesh (.beginPlay engine :: after) (edited objects _) = _
  rw [play, step_beginPlay rfl]
  rfl

variable [IsStrictOrderedRing K]

private theorem keeps_of_play (hmesh : mesh.Documented) {before after : List (ActorEvent K)}
    {engine : EngineCalls K} {objects : BodyHeap K} {p : Properties K}
    (hbefore : ∀ engine, ActorEvent.beginPlay engine ∉ before)
    (hp : propertiesAfter before (construct objects).simulator.properties = p)
    (h : (construct objects).play mesh (before ++ .beginPlay engine :: after) = .ok a) :
    0 ≤ p.bodyNum ∧ ((edited objects p).spawn mesh engine).Keeps a := by
  rw [play_construct hbefore, hp] at h
  rcases lt_or_ge p.bodyNum 0 with hnum | hnum
  · rw [beginPlay_of_neg hnum] at h
    cases h
  · rw [beginPlay_of_nonneg hnum] at h
    have horder : ((edited objects p).spawn mesh engine).InOrder mesh :=
      ((inOrder_construct objects).edit p).spawn hmesh rfl engine
    rcases horder.play hmesh rfl after with herr | ⟨a₁, hplay, hkeeps, _⟩
    · cases herr.symm.trans h
    · obtain rfl := Except.ok.inj (hplay.symm.trans h)
      exact ⟨hnum, hkeeps⟩

/-- **`BeginPlay` fixes the bodies for good.** Let the properties be edited as it may be, before
play begins or during play: there are as many bodies as `BodyNum` said when play began, each has the
index, the mass, the gravity constant and the clamp that it was then given, its transform the
rotation and the scale, and no other object is touched. -/
theorem play_keeps (hmesh : mesh.Documented) {before after : List (ActorEvent K)}
    {engine : EngineCalls K} {objects : BodyHeap K} {p : Properties K}
    (hbefore : ∀ engine, ActorEvent.beginPlay engine ∉ before)
    (hp : propertiesAfter before (construct objects).simulator.properties = p)
    (h : (construct objects).play mesh (before ++ .beginPlay engine :: after) = .ok a) :
    a.simulator.bodies = List.range p.bodyNum.toNat ∧
    (a.simulator.bodies.length : ℤ) = p.bodyNum ∧
    (∀ b < p.bodyNum.toNat, (a.simulator.objects b).index = b ∧
      (a.simulator.objects b).mass = engine.fRandRange b p.minMass p.maxMass ∧
      (a.simulator.objects b).g = p.g ∧
      (a.simulator.objects b).minimumGravityDistance = p.minimumGravityDistance ∧
      ∃ t, a.simulator.transforms[b]? = some t ∧ t.rotation = engine.rotator b ∧
        t.scale3D = ⟨engine.sqrt (a.simulator.objects b).mass * p.bodyDisplayScale,
          engine.sqrt (a.simulator.objects b).mass * p.bodyDisplayScale, 1⟩) ∧
    ∀ b, p.bodyNum.toNat ≤ b → a.simulator.objects b = objects b := by
  obtain ⟨hnum, hkeeps⟩ := keeps_of_play hmesh hbefore hp h
  set s : ABodySimulator K := (edited objects p).simulator with hs
  have hbodies : a.simulator.bodies = List.range p.bodyNum.toNat := hkeeps.bodies
  have hsame : (s.initLoop engine p.bodyNum.toNat).objects.SameBodies a.simulator.objects
      (List.range p.bodyNum.toNat) := hkeeps.sameBodies
  have hobject : ∀ b < p.bodyNum.toNat,
      (s.initLoop engine p.bodyNum.toNat).objects b = (s.initBody engine b).1 := fun _ hb ↦
    if_pos hb
  refine ⟨hbodies, by rw [hbodies, List.length_range, Int.toNat_of_nonneg hnum], fun b hb ↦ ?_,
    fun b hb ↦ ?_⟩
  · have hmass : (a.simulator.objects b).mass = engine.fRandRange b p.minMass p.maxMass := by
      rw [hsame.mass, hobject b hb]
      rfl
    refine ⟨by rw [hsame.index, hobject b hb]; rfl, hmass, by rw [hsame.g, hobject b hb]; rfl,
      by rw [hsame.minimumGravityDistance, hobject b hb]; rfl, ?_⟩
    have hshape : (a.simulator.transforms.map fun t ↦ (t.rotation, t.scale3D))[b]?
        = some (engine.rotator b, ⟨engine.sqrt (a.simulator.objects b).mass * p.bodyDisplayScale,
          engine.sqrt (a.simulator.objects b).mass * p.bodyDisplayScale, 1⟩) := by
      rw [hkeeps.shape, hmass]
      show (((List.range p.bodyNum.toNat).map fun index ↦ (s.initBody engine index).2).map
        fun t ↦ (t.rotation, t.scale3D))[b]? = _
      rw [List.getElem?_map, List.getElem?_map, List.getElem?_range hb]
      rfl
    rw [List.getElem?_map, Option.map_eq_some_iff] at hshape
    obtain ⟨t, ht, heq⟩ := hshape
    exact ⟨t, ht, congrArg Prod.fst heq, congrArg Prod.snd heq⟩
  · rw [hsame.others b fun h ↦ absurd (List.mem_range.mp h) (by omega)]
    exact if_neg (Nat.not_lt.mpr hb)

end BeforePlay

/-! ## A short play -/

/-- A mesh that does what is documented, for transforms that are never a NaN. -/
def listMesh : MeshCalls ℝ where
  containsNaN _ := false
  addInstances new instances := instances ++ new
  batchUpdateInstancesTransforms start new instances :=
    instances.take start ++ new ++ instances.drop (start + new.length)

private theorem documented_listMesh : listMesh.Documented := ⟨fun _ _ ↦ rfl, fun _ _ _ _ ↦ rfl⟩

/-- Engine calls that put the bodies on a diagonal from the camera, nearer and nearer, and give all
of them the least mass. -/
noncomputable def diagonalCalls : EngineCalls ℝ where
  randPointInCircle index radius := ⟨radius / (index + (2 : ℕ)), radius / (index + (2 : ℕ))⟩
  randomUnitVector _ := ⟨1, 0, 0⟩
  fRandRange _ min _ := min
  sqrt := Real.sqrt
  rotator index := ⟨index, 0, 1⟩
  cameraLocation := ⟨(3297 : ℕ) / (2 : ℕ), (2500 : ℕ), 0⟩

/-- The declared properties, but for the mode and the number of bodies. -/
noncomputable def naiveProperties (bodyNum : ℤ) : Properties ℝ :=
  { (construct fun b ↦ .initializeBody 0 0 0 b 0 0).simulator.properties with
    simulationType := .allVsAll
    bodyNum := bodyNum }

/-- A tick that comes too early, and edits of `BodyNum`, in the end to two. -/
noncomputable def earlyEvents : List (ActorEvent ℝ) :=
  [.tick 0 1, .edit (naiveProperties (-1)), .edit (naiveProperties (1 + 1))]

/-- Two ticks, and between them an edit of `BodyNum` that comes too late. -/
noncomputable def lateEvents : List (ActorEvent ℝ) :=
  [.tick 0 1, .edit (naiveProperties (-1)), .tick 0 1]

noncomputable def shortPlay : Except Fault (BodySimulatorActor ℝ) :=
  (construct fun b ↦ .initializeBody 0 0 0 b 0 0).play listMesh
    (earlyEvents ++ .beginPlay diagonalCalls :: lateEvents)

theorem beginPlay_not_mem_earlyEvents (engine : EngineCalls ℝ) :
    ActorEvent.beginPlay engine ∉ earlyEvents := by
  simp [earlyEvents]

private theorem exists_shortPlay : ∃ a, shortPlay = .ok a := by
  have horder : ((edited (fun b ↦ .initializeBody 0 0 0 b 0 0) (naiveProperties (1 + 1))).spawn
      listMesh diagonalCalls).InOrder listMesh :=
    ((inOrder_construct _).edit _).spawn documented_listMesh rfl diagonalCalls
  have htick : ∀ {a : BodySimulatorActor ℝ}, a.InOrder listMesh → a.hasBegunPlay = true →
      a.simulator.simulationType = .allVsAll → ∃ a', a.step listMesh (.tick 0 1) = .ok a' ∧
        a.Keeps a' ∧ a'.InOrder listMesh := by
    intro a ha hplay hmode
    rw [step_tick (ha.tickEnabled.trans hplay), tick_allVsAll hmode]
    exact ha.moveAllBodies documented_listMesh
      (ABodySimulator.prepares_simulateCompareAllParallel ha.wellIndexed.nodup_bodies 1) 1
  obtain ⟨a₁, hfirst, hkeeps, ha₁⟩ := htick horder rfl rfl
  obtain ⟨a₂, hsecond, _⟩ := htick (ha₁.edit (naiveProperties (-1)))
    (hkeeps.hasBegunPlay.trans rfl) rfl
  refine ⟨a₂, ?_⟩
  rw [shortPlay, play_construct beginPlay_not_mem_earlyEvents, beginPlay_of_nonneg zero_le_two]
  show play listMesh lateEvents
    ((edited (fun b ↦ .initializeBody 0 0 0 b 0 0) (naiveProperties (1 + 1))).spawn listMesh
      diagonalCalls) = _
  rw [lateEvents, play, hfirst]
  show play listMesh [.tick 0 1] { a₁ with simulator := _ } = _
  rw [play, hsecond]
  rfl

theorem play_keeps_shortPlay : ∃ a, shortPlay = .ok a ∧
    a.simulator.bodies = [0, 1] ∧ (a.simulator.objects 1).mass = 20 ∧
    ∃ t, a.simulator.transforms[1]? = some t ∧ t.rotation = ⟨1, 0, 1⟩ := by
  obtain ⟨a, hok⟩ := exists_shortPlay
  obtain ⟨hbodies, _, hkept, _⟩ :=
    play_keeps documented_listMesh beginPlay_not_mem_earlyEvents rfl hok
  obtain ⟨_, hmass, _, _, t, ht, hrotation, _⟩ := hkept 1 (by decide)
  refine ⟨a, hok, hbodies, hmass.trans ?_, t, ht, hrotation.trans ?_⟩
  · show ((20 : ℕ) : ℝ) = 20
    norm_num
  · show (⟨((1 : ℕ) : ℝ), 0, 1⟩ : FVector ℝ) = ⟨1, 0, 1⟩
    rw [Nat.cast_one]

end BodySimulatorActor

end NBodySimulation
