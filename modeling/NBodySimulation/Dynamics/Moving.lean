import NBodySimulation.Actors.Scene

/-!
# The move phase

`MoveAllBodies` moves the bodies of the array one after the other and writes the transform at the
index of each. It ends exactly when every index is one of `Transforms`, moves distinct bodies
independently of each other, and leaves at the index of each body a transform with the translation
of its new place.
-/

namespace NBodySimulation

variable {K : Type*} [Field K] [LinearOrder K]

/-- The body after its position was adjusted and moved along the velocity. -/
def UBodyEntity.advance (body : UBodyEntity K) (adjust : FVector2D K → FVector2D K)
    (deltaTime : K) : UBodyEntity K :=
  { body with position := adjust body.position + body.velocity * deltaTime }

/-- The heap once all bodies of a list have moved. -/
def BodyHeap.drift (heap : BodyHeap K) (bodies : List BodyRef) (adjust : FVector2D K → FVector2D K)
    (deltaTime : K) : BodyHeap K :=
  fun b ↦ if b ∈ bodies then (heap b).advance adjust deltaTime else heap b

omit [LinearOrder K] in
theorem BodyHeap.drift_of_mem {heap : BodyHeap K} {bodies : List BodyRef}
    {adjust : FVector2D K → FVector2D K} {deltaTime : K} {b : BodyRef} (hb : b ∈ bodies) :
    heap.drift bodies adjust deltaTime b = (heap b).advance adjust deltaTime :=
  if_pos hb

omit [LinearOrder K] in
private theorem BodyHeap.drift_cons {heap : BodyHeap K} {bodies : List BodyRef}
    {adjust : FVector2D K → FVector2D K} {deltaTime : K} {b : BodyRef} (hb : b ∉ bodies) :
    heap.drift (b :: bodies) adjust deltaTime
      = (heap.modify b (·.advance adjust deltaTime)).drift bodies adjust deltaTime := by
  funext c
  by_cases hcb : c = b
  · rw [hcb, drift_of_mem List.mem_cons_self, drift, if_neg hb, modify_self]
  · rw [drift, drift, modify_of_ne _ _ hcb]
    simp only [List.mem_cons, hcb, false_or]

omit [LinearOrder K] in
@[simp] theorem BodyHeap.index_drift (heap : BodyHeap K) (bodies : List BodyRef)
    (adjust : FVector2D K → FVector2D K) (deltaTime : K) (b : BodyRef) :
    (heap.drift bodies adjust deltaTime b).index = (heap b).index := by
  rw [drift]
  split <;> rfl

omit [LinearOrder K] in
@[simp] theorem BodyHeap.mass_drift (heap : BodyHeap K) (bodies : List BodyRef)
    (adjust : FVector2D K → FVector2D K) (deltaTime : K) (b : BodyRef) :
    (heap.drift bodies adjust deltaTime b).mass = (heap b).mass := by
  rw [drift]
  split <;> rfl

namespace ABodySimulator

/-- What `MoveAllBodies` does to a position before it moves it. -/
def adjustUnless (s : ABodySimulator K) (bSkipAdjust : Bool) : FVector2D K → FVector2D K :=
  if bSkipAdjust then id else s.adjustPosition

/-- The state after one turn of the loop, which found the transform `t` at the index of the body. -/
def afterMove (deltaTime : K) (bSkipAdjust : Bool) (s : ABodySimulator K) (b : BodyRef)
    (t : FTransform K) : ABodySimulator K :=
  { s with
    objects := s.objects.modify b (·.advance (s.adjustUnless bSkipAdjust) deltaTime)
    transforms := s.transforms.set (s.objects b).index (t.setTranslation
      ((s.objects b).advance (s.adjustUnless bSkipAdjust) deltaTime).get3DPosition) }

variable {deltaTime : K} {bSkipAdjust : Bool} {s s' : ABodySimulator K} {b : BodyRef}
  {bodies : List BodyRef}

theorem moveBody_eq : moveBody deltaTime bSkipAdjust s b
    = match s.transforms[(s.objects b).index]? with
      | none => .error .indexOutOfRange
      | some t => .ok (s.afterMove deltaTime bSkipAdjust b t) := by
  cases bSkipAdjust with
  | true =>
    simp only [moveBody, afterMove, adjustUnless, Bool.not_true, Bool.false_eq_true, if_false,
      if_true, BodyHeap.modify_self]
    rfl
  | false =>
    simp only [moveBody, afterMove, adjustUnless, Bool.not_false, Bool.false_eq_true, if_false,
      if_true, BodyHeap.modify_self, BodyHeap.modify_modify]
    rfl

theorem moveBodies_cons :
    moveBodies deltaTime bSkipAdjust (b :: bodies) s = .ok s' ↔
      ∃ t, s.transforms[(s.objects b).index]? = some t ∧
        moveBodies deltaTime bSkipAdjust bodies (s.afterMove deltaTime bSkipAdjust b t)
          = .ok s' := by
  rw [moveBodies, moveBody_eq]
  cases s.transforms[(s.objects b).index]? with
  | none => simp [bind, Except.bind]
  | some t => simp [bind, Except.bind]

private theorem objects_afterMove {t : FTransform K} :
    (s.afterMove deltaTime bSkipAdjust b t).objects
    = s.objects.modify b (·.advance (s.adjustUnless bSkipAdjust) deltaTime) := rfl

@[simp] theorem index_afterMove {t : FTransform K} (c : BodyRef) :
    ((s.afterMove deltaTime bSkipAdjust b t).objects c).index = (s.objects c).index := by
  rw [objects_afterMove]
  by_cases hcb : c = b
  · rw [hcb, BodyHeap.modify_self]
    rfl
  · rw [BodyHeap.modify_of_ne _ _ hcb]

private theorem length_transforms_afterMove {t : FTransform K} :
    (s.afterMove deltaTime bSkipAdjust b t).transforms.length = s.transforms.length :=
  List.length_set

/-! ## When the loop ends -/

theorem exists_moveBodies (hlt : ∀ b ∈ bodies, (s.objects b).index < s.transforms.length) :
    ∃ s', moveBodies deltaTime bSkipAdjust bodies s = .ok s' := by
  induction bodies generalizing s with
  | nil => exact ⟨s, rfl⟩
  | cons b bodies ih =>
    obtain ⟨t, ht⟩ : ∃ t, s.transforms[(s.objects b).index]? = some t :=
      ⟨_, List.getElem?_eq_getElem (hlt b List.mem_cons_self)⟩
    have hrest : ∀ c ∈ bodies, ((s.afterMove deltaTime bSkipAdjust b t).objects c).index
        < (s.afterMove deltaTime bSkipAdjust b t).transforms.length := by
      intro c hc
      rw [index_afterMove, length_transforms_afterMove]
      exact hlt c (List.mem_cons_of_mem b hc)
    obtain ⟨s', hs'⟩ := ih hrest
    exact ⟨s', moveBodies_cons.mpr ⟨t, ht, hs'⟩⟩

private theorem index_lt_of_moveBodies (h : moveBodies deltaTime bSkipAdjust bodies s = .ok s') :
    ∀ b ∈ bodies, (s.objects b).index < s.transforms.length := by
  induction bodies generalizing s with
  | nil =>
    intro b hb
    exact absurd hb List.not_mem_nil
  | cons b bodies ih =>
    obtain ⟨t, ht, hrest⟩ := moveBodies_cons.mp h
    intro c hc
    rcases List.mem_cons.mp hc with rfl | hc
    · exact (List.getElem?_eq_some_iff.mp ht).1
    · have := ih hrest c hc
      rwa [index_afterMove, length_transforms_afterMove] at this

theorem exists_moveBodies_iff : (∃ s', moveBodies deltaTime bSkipAdjust bodies s = .ok s') ↔
    ∀ b ∈ bodies, (s.objects b).index < s.transforms.length :=
  ⟨fun ⟨_, h⟩ ↦ index_lt_of_moveBodies h, exists_moveBodies⟩

/-! ## What the loop does -/

theorem moveBodies_spec (hnodup : bodies.Nodup)
    (h : moveBodies deltaTime bSkipAdjust bodies s = .ok s') :
    s' = { s with
      objects := s.objects.drift bodies (s.adjustUnless bSkipAdjust) deltaTime
      transforms := s'.transforms } ∧ s'.transforms.length = s.transforms.length := by
  induction bodies generalizing s with
  | nil =>
    obtain rfl := Except.ok.inj h
    refine ⟨?_, rfl⟩
    have hnil : s.objects.drift [] (s.adjustUnless bSkipAdjust) deltaTime = s.objects :=
      funext fun b ↦ if_neg List.not_mem_nil
    rw [hnil]
  | cons b bodies ih =>
    obtain ⟨hb, hnodup⟩ := List.nodup_cons.mp hnodup
    obtain ⟨t, _, hrest⟩ := moveBodies_cons.mp h
    obtain ⟨hspec, hlen⟩ := ih hnodup hrest
    rw [length_transforms_afterMove] at hlen
    refine ⟨?_, hlen⟩
    rw [hspec, BodyHeap.drift_cons hb]
    rfl

theorem objects_moveBodies (hnodup : bodies.Nodup)
    (h : moveBodies deltaTime bSkipAdjust bodies s = .ok s') :
    s'.objects = s.objects.drift bodies (s.adjustUnless bSkipAdjust) deltaTime := by
  rw [(moveBodies_spec hnodup h).1]

theorem transforms_moveBodies_of_ne (h : moveBodies deltaTime bSkipAdjust bodies s = .ok s') {i : ℕ}
    (hi : ∀ b ∈ bodies, (s.objects b).index ≠ i) : s'.transforms[i]? = s.transforms[i]? := by
  induction bodies generalizing s with
  | nil =>
    obtain rfl := Except.ok.inj h
    rfl
  | cons b bodies ih =>
    obtain ⟨t, _, hrest⟩ := moveBodies_cons.mp h
    rw [ih hrest fun c hc ↦ ?_]
    · exact List.getElem?_set_ne (hi b List.mem_cons_self)
    · rw [index_afterMove]
      exact hi c (List.mem_cons_of_mem b hc)

/-- The transform at the index of a moved body gets the translation of its new place. -/
theorem transforms_moveBodies_of_mem (hindex : (bodies.map fun b ↦ (s.objects b).index).Nodup)
    (h : moveBodies deltaTime bSkipAdjust bodies s = .ok s') {b : BodyRef} (hb : b ∈ bodies) :
    s'.transforms[(s.objects b).index]?
      = s.transforms[(s.objects b).index]?.map (·.setTranslation (s'.objects b).get3DPosition) := by
  have hnodup : bodies.Nodup := hindex.of_map _
  rw [objects_moveBodies hnodup h, BodyHeap.drift_of_mem hb]
  induction bodies generalizing s with
  | nil => exact absurd hb List.not_mem_nil
  | cons c bodies ih =>
    obtain ⟨hc, hindex⟩ := List.nodup_cons.mp hindex
    obtain ⟨hcb, hnodup⟩ := List.nodup_cons.mp hnodup
    obtain ⟨t, ht, hrest⟩ := moveBodies_cons.mp h
    rcases List.mem_cons.mp hb with rfl | hb
    · -- the turn of the body itself; no later turn writes at its index
      have hlt := (List.getElem?_eq_some_iff.mp ht).1
      rw [transforms_moveBodies_of_ne hrest fun d hd ↦ ?_, ht, Option.map_some]
      · exact List.getElem?_set_self hlt
      · rw [index_afterMove]
        exact fun hdb ↦ hc (List.mem_map.mpr ⟨d, hd, hdb⟩)
    · -- an earlier body: its turn wrote elsewhere and left this body alone
      have hbc : b ≠ c := fun hbc ↦ hcb (hbc ▸ hb)
      have hne : (s.objects c).index ≠ (s.objects b).index :=
        fun heq ↦ hc (List.mem_map.mpr ⟨b, hb, heq.symm⟩)
      have hobj : (s.afterMove deltaTime bSkipAdjust c t).objects b = s.objects b := by
        rw [objects_afterMove, BodyHeap.modify_of_ne _ _ hbc]
      have hget : (s.afterMove deltaTime bSkipAdjust c t).transforms[(s.objects b).index]?
          = s.transforms[(s.objects b).index]? := List.getElem?_set_ne hne
      have hmap : (bodies.map fun d ↦
          ((s.afterMove deltaTime bSkipAdjust c t).objects d).index).Nodup := by
        simpa only [index_afterMove] using hindex
      have hstep := ih hmap hrest hb hnodup
      rwa [hobj, hget] at hstep

end ABodySimulator

end NBodySimulation
