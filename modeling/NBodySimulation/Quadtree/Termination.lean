import NBodySimulation.Quadtree.Contents
import NBodySimulation.Spatial.Bisection

/-!
# When tree construction ends

`Insert` has no depth limit. Insertions end exactly when some depth of subdivision separates the
bodies, that is, has at most one of them strictly inside each of its boxes: that is when the bodies
have a canonical tree.

Over an Archimedean field the boxes shrink below any distance, so two bodies at different places
are separated at some depth. Two bodies at one place are separated only by a dividing line that runs
through it, from whose depth on no box has the place strictly inside. A place on no dividing line at
all is inside one box of every depth, and two bodies there are pushed down for ever.

## Main results

* `insertAll_finishes_iff`: which lists of bodies can be inserted one after the other.
-/

namespace NBodySimulation

open Filter Spatial Spatial.PointTree

variable {K : Type*} [Field K] [LinearOrder K] [IsStrictOrderedRing K]

theorem FBox2D.width_subBox (box : FBox2D K) (path : List (Fin 4)) :
    (box.subBox path).max.x - (box.subBox path).min.x
      = (box.max.x - box.min.x) / 2 ^ path.length := by
  induction path generalizing box with
  | nil => simp [subBox]
  | cons i path ih =>
    rw [subBox_cons, ih, quarter_min_x, quarter_max_x, List.length_cons, pow_succ]
    split <;> ring

theorem FBox2D.height_subBox (box : FBox2D K) (path : List (Fin 4)) :
    (box.subBox path).max.y - (box.subBox path).min.y
      = (box.max.y - box.min.y) / 2 ^ path.length := by
  induction path generalizing box with
  | nil => simp [subBox]
  | cons i path ih =>
    rw [subBox_cons, ih, quarter_min_y, quarter_max_y, List.length_cons, pow_succ]
    split <;> ring

/-- Two different places are in no common box of large enough depth. -/
theorem eventually_separated [Archimedean K] (box : FBox2D K) {p q : FVector2D K} (hpq : p ≠ q) :
    ∀ᶠ n : ℕ in atTop, ∀ path : List (Fin 4), path.length = n →
      (box.subBox path).isInside p = true → ¬(box.subBox path).isInside q = true := by
  have hcoord : p.x ≠ q.x ∨ p.y ≠ q.y := by
    by_contra hsame
    rw [not_or, not_not, not_not] at hsame
    exact hpq (FVector2D.ext hsame.1 hsame.2)
  rcases hcoord with hx | hy
  · filter_upwards [eventually_div_two_pow_lt (box.max.x - box.min.x) (abs_sub_pos.mpr hx)]
      with n hn path hlen hp hq
    rw [FBox2D.isInside_iff] at hp hq
    rw [← hlen, ← box.width_subBox path] at hn
    rcases abs_cases (p.x - q.x) with h | h <;> linarith
  · filter_upwards [eventually_div_two_pow_lt (box.max.y - box.min.y) (abs_sub_pos.mpr hy)]
      with n hn path hlen hp hq
    rw [FBox2D.isInside_iff] at hp hq
    rw [← hlen, ← box.height_subBox path] at hn
    rcases abs_cases (p.y - q.y) with h | h <;> linarith

/-! ## Separated bodies -/

/-- The boxes of some depth have at most one of the bodies strictly inside each. -/
def BodyHeap.Separated (heap : BodyHeap K) (box : FBox2D K) (bodies : List BodyRef) : Prop :=
  ∃ n, ∀ path : List (Fin 4), path.length = n → (heap.inside (box.subBox path) bodies).length ≤ 1

omit [IsStrictOrderedRing K] in
theorem BodyHeap.Separated.of_append {heap : BodyHeap K} {box : FBox2D K}
    {bodies bodies' : List BodyRef} (h : heap.Separated box (bodies ++ bodies')) :
    heap.Separated box bodies := by
  obtain ⟨n, hn⟩ := h
  refine ⟨n, fun path hlen ↦ le_trans ?_ (hn path hlen)⟩
  rw [BodyHeap.inside_append, List.length_append]
  exact Nat.le_add_right _ _

theorem exists_canonicalFor_iff {heap : BodyHeap K} {box : FBox2D K} {bodies : List BodyRef} :
    (∃ t, CanonicalFor heap box bodies t) ↔ heap.Separated box bodies := by
  rw [exists_canonical_iff, BodyHeap.Separated]
  simp only [FBox2D.quarters_descend, coe_inside, Multiset.coe_card]

theorem CanonicalFor.separated {heap : BodyHeap K} {box : FBox2D K} {bodies : List BodyRef}
    {t : BodyTree} (hc : CanonicalFor heap box bodies t) : heap.Separated box bodies :=
  exists_canonicalFor_iff.mp ⟨t, hc⟩

/-- **Insertions into an empty root end exactly for separated bodies.** -/
theorem exists_insertAll_iff {heap : BodyHeap K} {box : FBox2D K} {bodies : List BodyRef} :
    (∃ fuel tree heap', ABodySimulator.insertAll fuel bodies (.new box true) heap
      = .ok (tree, heap')) ↔ heap.Separated box bodies := by
  constructor
  · rintro ⟨fuel, tree, heap', h⟩
    obtain ⟨t, hc, _, _⟩ := insertAll_new_spec h
    exact CanonicalFor.separated ((canonicalFor_settle_iff bodies).mp hc)
  · intro hsep
    obtain ⟨t, hc⟩ := exists_canonicalFor_iff.mpr hsep
    exact exists_insertAll_new hc

omit [IsStrictOrderedRing K] in
private theorem separated_of_pairwise {heap : BodyHeap K} {box : FBox2D K} {bodies : List BodyRef}
    (h : bodies.Pairwise fun b c ↦ ∀ᶠ n : ℕ in atTop, ∀ path : List (Fin 4), path.length = n →
      (box.subBox path).isInside (heap b).position = true →
        ¬(box.subBox path).isInside (heap c).position = true) : heap.Separated box bodies := by
  have hall : ∀ᶠ n : ℕ in atTop, ∀ path : List (Fin 4), path.length = n →
      (heap.inside (box.subBox path) bodies).length ≤ 1 := by
    induction bodies with
    | nil => exact Eventually.of_forall fun n path _ ↦ Nat.zero_le 1
    | cons b bodies ih =>
      obtain ⟨hb, hbodies⟩ := List.pairwise_cons.mp h
      have hb' : ∀ᶠ n : ℕ in atTop, ∀ c ∈ bodies.toFinset, ∀ path : List (Fin 4),
          path.length = n → (box.subBox path).isInside (heap b).position = true →
            ¬(box.subBox path).isInside (heap c).position = true := by
        rw [eventually_all_finset]
        exact fun c hc ↦ hb c (List.mem_toFinset.mp hc)
      filter_upwards [ih hbodies, hb'] with n hn hbn path hlen
      by_cases hin : (box.subBox path).isInside (heap b).position = true
      · -- where the first body is, none of the others is
        have hnone : heap.inside (box.subBox path) bodies = [] :=
          BodyHeap.inside_eq_nil_iff.mpr fun c hc ↦
            hbn c (List.mem_toFinset.mpr hc) path hlen hin
        rw [BodyHeap.inside_cons_of_isInside hin, hnone, List.length_singleton]
      · rw [BodyHeap.inside_cons_of_not_isInside hin]
        exact hn path hlen
  exact hall.exists

/-! ## Bodies at different places -/

/-- **Bodies at different places have a canonical tree.** -/
theorem exists_canonicalFor [Archimedean K] {heap : BodyHeap K} (box : FBox2D K)
    {bodies : List BodyRef} (hnodup : bodies.Nodup)
    (hplaces : ∀ b ∈ bodies, ∀ c ∈ bodies, b ≠ c → (heap b).position ≠ (heap c).position) :
    ∃ t, CanonicalFor heap box bodies t := by
  refine exists_canonicalFor_iff.mpr (separated_of_pairwise ?_)
  refine hnodup.pairwise_of_forall_ne fun b hb c hc hbc ↦ ?_
  exact eventually_separated box (hplaces b hb c hc hbc)

theorem exists_insertAll_of_places_ne [Archimedean K] {heap : BodyHeap K} (box : FBox2D K)
    {bodies : List BodyRef} (hnodup : bodies.Nodup)
    (hplaces : ∀ b ∈ bodies, ∀ c ∈ bodies, b ≠ c → (heap b).position ≠ (heap c).position) :
    ∃ fuel tree heap', ABodySimulator.insertAll fuel bodies (.new box true) heap
      = .ok (tree, heap') := by
  obtain ⟨t, ht⟩ := exists_canonicalFor box hnodup hplaces
  exact exists_insertAll_new ht

/-- **Tree construction ends** when the bodies are at pairwise different places. -/
theorem exists_constructTree [Archimedean K] {s : ABodySimulator K} (hnodup : s.bodies.Nodup)
    (hplaces : ∀ b ∈ s.bodies, ∀ c ∈ s.bodies, b ≠ c →
      (s.objects b).position ≠ (s.objects c).position) :
    ∃ fuel s', s.constructTree fuel = .ok s' := by
  obtain ⟨t, ht⟩ := exists_canonicalFor s.sceneBounds hnodup hplaces
  exact (constructTree_finishes_iff s).mpr ⟨t, (canonicalFor_settle_iff s.bodies).mpr ht⟩

/-! ## Bodies at one place -/

/-- The point has a coordinate at which its axis is cut at some depth of subdivision. -/
def FBox2D.OnSubdivisionLine (box : FBox2D K) (p : FVector2D K) : Prop :=
  ∃ (k : ℤ) (n : ℕ), p.x = box.min.x + k / (2 ^ n : ℕ) * (box.max.x - box.min.x) ∨
    p.y = box.min.y + k / (2 ^ n : ℕ) * (box.max.y - box.min.y)

/-- The bodies are strictly inside the box at one place, and no subdivision line runs through it,
once the root has wrapped them. -/
def BodyHeap.Coincide (heap : BodyHeap K) (box : FBox2D K) (b c : BodyRef) : Prop :=
  ((heap b).adjustPosition box).position = ((heap c).adjustPosition box).position ∧
    box.isInside ((heap b).adjustPosition box).position = true ∧
    ¬box.OnSubdivisionLine ((heap b).adjustPosition box).position

omit [LinearOrder K] [IsStrictOrderedRing K] in
private theorem FBox2D.onSubdivisionLine_iff {box : FBox2D K} {p : FVector2D K} :
    box.OnSubdivisionLine p ↔ ∃ n, OnBisection box.min.x box.max.x p.x n ∨
      OnBisection box.min.y box.max.y p.y n := by
  constructor
  · rintro ⟨k, n, hx | hy⟩
    · exact ⟨n, Or.inl ⟨k, hx⟩⟩
    · exact ⟨n, Or.inr ⟨k, hy⟩⟩
  · rintro ⟨n, ⟨k, hx⟩ | ⟨k, hy⟩⟩
    · exact ⟨k, n, Or.inl hx⟩
    · exact ⟨k, n, Or.inr hy⟩

/-- The cuts of a cell are those of its box, one depth further down. -/
theorem FBox2D.onBisection_quarter {box : FBox2D K} {v : K} {n : ℕ} (i : Fin 4) :
    (OnBisection (box.quarter i).min.x (box.quarter i).max.x v n ↔
        OnBisection box.min.x box.max.x v (n + 1)) ∧
      (OnBisection (box.quarter i).min.y (box.quarter i).max.y v n ↔
        OnBisection box.min.y box.max.y v (n + 1)) := by
  rw [quarter_min_x, quarter_max_x, quarter_min_y, quarter_max_y]
  constructor
  · cases isRight i with
    | true => exact onBisection_upper_iff
    | false => exact onBisection_lower_iff
  · cases isUpper i with
    | true => exact onBisection_upper_iff
    | false => exact onBisection_lower_iff

/-- A place on no subdivision line is strictly inside one box of every depth. -/
theorem FBox2D.exists_subBox_isInside {box : FBox2D K} {p : FVector2D K}
    (hin : box.isInside p = true) (hline : ¬box.OnSubdivisionLine p) (n : ℕ) :
    ∃ path : List (Fin 4), path.length = n ∧ (box.subBox path).isInside p = true := by
  rw [onSubdivisionLine_iff] at hline
  induction n generalizing box with
  | zero => exact ⟨[], rfl, hin⟩
  | succ n ih =>
    have hcell : ∃ i, (box.quarter i).isInside p = true := by
      by_contra hnone
      have hcut := (onDividingLine_iff hin).mpr fun i hi ↦ hnone ⟨i, hi⟩
      rw [OnDividingLine, center_x, center_y] at hcut
      rcases hcut with hx | hy
      · exact hline ⟨1, Or.inl (hx ▸ onBisection_midpoint _ _)⟩
      · exact hline ⟨1, Or.inr (hy ▸ onBisection_midpoint _ _)⟩
    obtain ⟨i, hi⟩ := hcell
    have hline' : ¬∃ m, OnBisection (box.quarter i).min.x (box.quarter i).max.x p.x m ∨
        OnBisection (box.quarter i).min.y (box.quarter i).max.y p.y m := by
      rintro ⟨m, hx | hy⟩
      · exact hline ⟨m + 1, Or.inl ((onBisection_quarter i).1.mp hx)⟩
      · exact hline ⟨m + 1, Or.inr ((onBisection_quarter i).2.mp hy)⟩
    obtain ⟨path, hlen, hpath⟩ := ih hi hline'
    exact ⟨i :: path, by rw [List.length_cons, hlen], hpath⟩

/-- From the depth of a subdivision line on, no box has a place on it strictly inside. -/
theorem FBox2D.not_isInside_subBox {box : FBox2D K} {p : FVector2D K} {path : List (Fin 4)}
    (hline : OnBisection box.min.x box.max.x p.x path.length ∨
      OnBisection box.min.y box.max.y p.y path.length) :
    ¬(box.subBox path).isInside p = true := by
  induction path generalizing box with
  | nil =>
    intro hin
    obtain ⟨hx, hx', hy, hy'⟩ := isInside_iff.mp hin
    rcases hline with hline | hline
    · exact not_onBisection_zero hx hx' hline
    · exact not_onBisection_zero hy hy' hline
  | cons i path ih =>
    have hline' : OnBisection (box.quarter i).min.x (box.quarter i).max.x p.x path.length ∨
        OnBisection (box.quarter i).min.y (box.quarter i).max.y p.y path.length :=
      hline.imp (onBisection_quarter i).1.mpr (onBisection_quarter i).2.mpr
    exact ih hline'

private theorem FBox2D.eventually_not_isInside {box : FBox2D K} {p : FVector2D K}
    (hline : box.OnSubdivisionLine p) :
    ∀ᶠ n : ℕ in atTop, ∀ path : List (Fin 4), path.length = n →
      ¬(box.subBox path).isInside p = true := by
  obtain ⟨n, hn⟩ := onSubdivisionLine_iff.mp hline
  refine eventually_atTop.mpr ⟨n, fun m hm path hlen ↦ not_isInside_subBox ?_⟩
  rw [hlen]
  exact hn.imp (fun h ↦ h.mono hm) fun h ↦ h.mono hm

omit [Field K] [IsStrictOrderedRing K] in
/-- A body that is strictly inside the box once wrapped has not been moved. -/
theorem UBodyEntity.adjustPosition_eq_self {box : FBox2D K} {body : UBodyEntity K}
    (h : box.isInside (body.adjustPosition box).position = true) :
    body.adjustPosition box = body :=
  adjustPosition_of_isInside (FBox2D.isInside_wrap_iff.mp h)

private theorem pairwise_of_separated {heap : BodyHeap K} {box : FBox2D K} {bodies : List BodyRef}
    (hsep : heap.Separated box bodies) : bodies.Pairwise fun b c ↦ ¬heap.Coincide box b c := by
  obtain ⟨n, hn⟩ := hsep
  induction bodies with
  | nil => exact List.Pairwise.nil
  | cons b bodies ih =>
    refine List.pairwise_cons.mpr ⟨?_, ih fun path hlen ↦ ?_⟩
    · rintro c hc ⟨hsame, hin, hline⟩
      have hb := UBodyEntity.adjustPosition_eq_self hin
      have hc' := UBodyEntity.adjustPosition_eq_self (hsame ▸ hin)
      rw [hb] at hin hline
      rw [hb, hc'] at hsame
      -- both bodies are in the box of depth `n` around their place
      obtain ⟨path, hlen, hpath⟩ := FBox2D.exists_subBox_isInside hin hline n
      have hcard := hn path hlen
      have hmem : c ∈ heap.inside (box.subBox path) bodies :=
        BodyHeap.mem_inside.mpr ⟨hc, hsame ▸ hpath⟩
      rw [BodyHeap.inside_cons_of_isInside hpath, List.length_cons] at hcard
      have := List.length_pos_of_mem hmem
      omega
    · refine le_trans ?_ (hn path hlen)
      exact ((List.sublist_cons_self b bodies).filter _).length_le

/-- Bodies of which no two coincide are separated. -/
theorem separated_of_not_coincide [Archimedean K] {heap : BodyHeap K} {box : FBox2D K}
    {bodies : List BodyRef} (h : bodies.Pairwise fun b c ↦ ¬heap.Coincide box b c) :
    heap.Separated box bodies := by
  refine separated_of_pairwise (h.imp fun {b c} hbc ↦ ?_)
  by_cases hsame : (heap b).position = (heap c).position
  · by_cases hin : box.isInside (heap b).position = true
    · have hin' := hsame ▸ hin
      have hline : box.OnSubdivisionLine (heap b).position := by
        by_contra hline
        refine hbc ⟨?_, ?_, ?_⟩
        · rw [UBodyEntity.adjustPosition_of_isInside hin,
            UBodyEntity.adjustPosition_of_isInside hin', hsame]
        · rwa [UBodyEntity.adjustPosition_of_isInside hin]
        · rwa [UBodyEntity.adjustPosition_of_isInside hin]
      filter_upwards [FBox2D.eventually_not_isInside hline] with n hn path hlen hb
      exact absurd hb (hn path hlen)
    · refine Eventually.of_forall fun n path _ hb ↦ absurd ?_ hin
      exact (FBox2D.quarters K).mem_of_mem_descend hb
  · exact eventually_separated box hsame

/-- **Which bodies can be inserted one after the other**: those of which no two coincide. Any other
list exhausts every amount of fuel. -/
theorem insertAll_finishes_iff [Archimedean K] (box : FBox2D K) (heap : BodyHeap K)
    (bodies : List BodyRef) :
    ((∃ fuel tree heap', ABodySimulator.insertAll fuel bodies (.new box true) heap
        = .ok (tree, heap')) ↔ bodies.Pairwise fun b c ↦ ¬heap.Coincide box b c) ∧
      (¬(bodies.Pairwise fun b c ↦ ¬heap.Coincide box b c) → ∀ fuel,
        ABodySimulator.insertAll fuel bodies (.new box true) heap = .error .outOfFuel) ∧
      ((bodies.Pairwise fun b c ↦ (heap b).position ≠ (heap c).position) →
        ∃ fuel tree heap', ABodySimulator.insertAll fuel bodies (.new box true) heap
          = .ok (tree, heap')) := by
  have hiff : (∃ fuel tree heap', ABodySimulator.insertAll fuel bodies (.new box true) heap
      = .ok (tree, heap')) ↔ bodies.Pairwise fun b c ↦ ¬heap.Coincide box b c :=
    exists_insertAll_iff.trans ⟨pairwise_of_separated, separated_of_not_coincide⟩
  refine ⟨hiff, fun hnot fuel ↦ ?_, fun hplaces ↦ ?_⟩
  · rcases insertAll_new_represent fuel bodies box heap with herr | ⟨t, _, hok⟩
    · exact herr
    · exact absurd (hiff.mp ⟨fuel, _, _, hok⟩) hnot
  · refine exists_insertAll_iff.mpr (separated_of_pairwise (hplaces.imp fun hbc ↦ ?_))
    exact eventually_separated box hbc

/-- The body on the vertical dividing line, inserted twice. -/
theorem insertAll_finishes_iff_cutOffScene :
    ((∃ fuel tree heap', ABodySimulator.insertAll fuel [2, 2] (.new cutOffScene.sceneBounds true)
        cutOffScene.objects = .ok (tree, heap')) ↔
      [2, 2].Pairwise fun b c ↦ ¬cutOffScene.objects.Coincide cutOffScene.sceneBounds b c) ∧
    (¬([2, 2].Pairwise fun b c ↦ ¬cutOffScene.objects.Coincide cutOffScene.sceneBounds b c) →
      ∀ fuel, ABodySimulator.insertAll fuel [2, 2] (.new cutOffScene.sceneBounds true)
        cutOffScene.objects = .error .outOfFuel) ∧
    (([2, 2].Pairwise fun b c ↦
        (cutOffScene.objects b).position ≠ (cutOffScene.objects c).position) →
      ∃ fuel tree heap', ABodySimulator.insertAll fuel [2, 2] (.new cutOffScene.sceneBounds true)
        cutOffScene.objects = .ok (tree, heap')) :=
  insertAll_finishes_iff cutOffScene.sceneBounds cutOffScene.objects [2, 2]

theorem places_ne_twoBodyScene : ∀ b ∈ twoBodyScene.bodies, ∀ c ∈ twoBodyScene.bodies, b ≠ c →
    (twoBodyScene.objects b).position ≠ (twoBodyScene.objects c).position :=
  ABodySimulator.ofBodies_places_ne (by norm_num [FVector2D.ext_iff])

end NBodySimulation
