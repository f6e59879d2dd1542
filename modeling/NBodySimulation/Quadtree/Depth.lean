import NBodySimulation.Quadtree.MemoryInsert
import NBodySimulation.Quadtree.Termination
import NBodySimulation.Quadtree.Tiling
import NBodySimulation.Spatial.Depth

/-!
# How deep `Insert` recurses and how large the tree gets

Every unit of fuel is one nested call of `Insert`. Building the tree needs one call more than the
tree is high, no matter in which order the bodies come, and the height is the first depth of
subdivision at which no box has two bodies strictly inside. When any two bodies strictly inside the
scene are at least a box of depth `n` apart on one axis, `n + 1` nested calls are enough; but no
number of calls is enough for all scenes, not even for those with two bodies.

A split has two bodies strictly inside its box, so one level has at most half as many splits as
there are bodies strictly inside the scene, and the tree has at most four nodes for each of them,
besides the root.

## Main results

* `constructTree_depth_iff`: how many nested calls build the tree.
* `exists_constructTree_outOfFuel`: no number of calls builds every tree.
* `nodeCount_le`: the size of a tree.
-/

namespace NBodySimulation

open Spatial Spatial.PointTree

/-- The boxes of depth `n` have at most one of the bodies strictly inside each. -/
def BodyHeap.SeparatedAt {K : Type*} [Field K] [LinearOrder K] (heap : BodyHeap K)
    (box : FBox2D K) (bodies : List BodyRef) (n : ℕ) : Prop :=
  ∀ path : List (Fin 4), path.length = n → (heap.inside (box.subBox path) bodies).length ≤ 1

section Depth

variable {K : Type*} [Field K] [LinearOrder K] [IsStrictOrderedRing K]

/-! ## The height of the tree -/

theorem CanonicalFor.height_le_iff {heap : BodyHeap K} {box : FBox2D K} {bodies : List BodyRef}
    {t : BodyTree} {n : ℕ} (hc : CanonicalFor heap box bodies t) :
    t.height ≤ n ↔ heap.SeparatedAt box bodies n := by
  rw [Canonical.height_le_iff hc, BodyHeap.SeparatedAt]
  simp only [FBox2D.quarters_descend, coe_inside, Multiset.coe_card]

theorem BodyHeap.SeparatedAt.length_inside_le {heap : BodyHeap K} {box : FBox2D K}
    {bodies : List BodyRef} {n : ℕ} (h : heap.SeparatedAt box bodies n) {path : List (Fin 4)}
    (hlen : n ≤ path.length) : (heap.inside (box.subBox path) bodies).length ≤ 1 := by
  have hle := Multiset.card_le_card
    ((FBox2D.quarters K).inside_descend_take_le heap.positions box path n bodies)
  simp only [FBox2D.quarters_descend, coe_inside, Multiset.coe_card] at hle
  exact hle.trans (h (path.take n) (by rw [List.length_take, Nat.min_eq_left hlen]))

/-- Two bodies that are a box of depth `n` apart on one axis are not both inside one. -/
theorem FBox2D.not_isInside_of_far {box : FBox2D K} {p q : FVector2D K} {path : List (Fin 4)}
    (hfar : box.max.x - box.min.x ≤ 2 ^ path.length * |p.x - q.x| ∨
      box.max.y - box.min.y ≤ 2 ^ path.length * |p.y - q.y|)
    (hp : (box.subBox path).isInside p = true) : ¬(box.subBox path).isInside q = true := by
  intro hq
  rw [isInside_iff] at hp hq
  have hpow : (0 : K) < 2 ^ path.length := pow_pos two_pos _
  rcases hfar with hx | hy
  · rw [← div_le_iff₀' hpow, ← width_subBox] at hx
    rcases abs_cases (p.x - q.x) with h | h <;> linarith
  · rw [← div_le_iff₀' hpow, ← height_subBox] at hy
    rcases abs_cases (p.y - q.y) with h | h <;> linarith

end Depth

/-! ## One insertion -/

namespace UQuadTree

variable {K : Type*} [Field K] [LinearOrder K] [IsStrictOrderedRing K] {heap : BodyHeap K}
  {box : FBox2D K}

omit [LinearOrder K] [IsStrictOrderedRing K] in
private theorem height_split_update_le_iff {b : BodyRef} {child : Fin 4 → BodyTree} {q : Fin 4}
    {t : BodyTree} {n : ℕ} (h : ∀ i, (child i).height ≤ n) :
    (split b (Function.update child q t)).height ≤ n + 1 ↔ t.height ≤ n := by
  rw [height_split_le_iff, Function.forall_update_iff child fun _ u ↦ u.height ≤ n]
  exact ⟨And.left, fun ht ↦ ⟨ht, fun i _ ↦ h i⟩⟩

/-- **How deep one insertion recurses.** An insertion that ends makes one nested call more than the
tree it leaves is high, when the tree it starts from is no higher. -/
theorem insert_of_inserts {isRoot : Bool} {t t' : BodyTree} {a : BodyRef} {accepted : Bool}
    {n : ℕ} (h : Inserts (FBox2D.quarters K) heap.positions box t a t' accepted)
    (hroot : isRoot = true → box.isInside (heap a).position = true) (ht : t.height ≤ n) :
    insert (n + 1) a (represent heap isRoot box t) heap
      = if t'.height ≤ n then .ok ⟨represent heap isRoot box t', heap, accepted⟩
        else .error .outOfFuel := by
  induction h generalizing isRoot n with
  | outside hout =>
    cases isRoot with
    | true => exact absurd (hroot rfl) hout
    | false => rw [if_pos ht, insert_outside n hout]
  | fresh hin =>
    rw [insert_empty n hin, if_pos]
    exact Nat.zero_le n
  | lost hin hres hcut =>
    cases n with
    | zero => rw [if_neg (Nat.not_le.mpr (height_split_pos _ _)), insert_one hin hres]
    | succ n => rw [if_pos (height_split_le_iff.mpr (height_cutAt_le ht)),
        insert_lost n hin hres hcut]
  | descend hres hq _ ih =>
    cases n with
    | zero => rw [if_neg (Nat.not_le.mpr (height_split_pos _ _)),
        insert_one (FBox2D.isInside_of_quarter hq) hres]
    | succ n =>
      have hins := @ih false n (by simp) (height_cutAt_le ht _)
      simp only [height_split_update_le_iff (height_cutAt_le ht)]
      split at hins
      · next hle => rw [if_pos hle, insert_descend n hres hq hins]
      · next hle => rw [if_neg hle, insert_descend_error n hres hq hins]

end UQuadTree

/-! ## All insertions -/

section InsertAll

variable {K : Type*} [Field K] [LinearOrder K] [IsStrictOrderedRing K] {heap : BodyHeap K}
  {box : FBox2D K} {S : Multiset BodyRef} {t : BodyTree} {n : ℕ}

/-- One `Insert` into a canonical root with `n + 1` nested calls fails or leaves a tree of height at
most `n`. -/
theorem insert_root_height_le (hc : CanonicalFor heap box S t) (ht : t.height ≤ n) (b : BodyRef) :
    UQuadTree.insert (n + 1) b (UQuadTree.represent heap true box t) heap = .error .outOfFuel ∨
      ∃ t' accepted, CanonicalFor (heap.settle box [b]) box (b ::ₘ S) t' ∧ t'.height ≤ n ∧
        UQuadTree.insert (n + 1) b (UQuadTree.represent heap true box t) heap
          = .ok ⟨UQuadTree.represent (heap.settle box [b]) true box t',
              heap.settle box [b], accepted⟩ := by
  by_cases hb : box.isInside (heap b).position = true
  · rw [BodyHeap.settle_singleton_of_isInside hb]
    rcases UQuadTree.insert_represent (n + 1) fun _ ↦ hb with herr | ⟨t', accepted, hok, hins⟩
    · exact Or.inl herr
    · have heq := UQuadTree.insert_of_inserts hins (fun _ : true = true ↦ hb) ht
      by_cases hle : t'.height ≤ n
      · exact Or.inr ⟨t', accepted, hins.canonical hc, hle, hok⟩
      · rw [if_neg hle] at heq
        exact Or.inl heq
  · exact Or.inr ⟨t, false, (canonicalFor_settle_iff [b]).mpr (hc.cons_of_not_mem hb), ht,
      insert_root_outside hc hb n⟩

/-- One `Insert` into a canonical root ends with `n + 1` nested calls when the family with the new
body is part of one with a tree of height at most `n`. -/
theorem exists_insert_root_of_height {T : Multiset BodyRef} {u : BodyTree} {b : BodyRef}
    (hu : CanonicalFor heap box T u) (hn : u.height ≤ n) (hc : CanonicalFor heap box S t)
    (hle : b ::ₘ S ≤ T) :
    ∃ t' accepted, CanonicalFor (heap.settle box [b]) box (b ::ₘ S) t' ∧
      UQuadTree.insert (n + 1) b (UQuadTree.represent heap true box t) heap
        = .ok ⟨UQuadTree.represent (heap.settle box [b]) true box t',
            heap.settle box [b], accepted⟩ := by
  by_cases hb : box.isInside (heap b).position = true
  · rw [BodyHeap.settle_singleton_of_isInside hb]
    obtain ⟨t', accepted, hins⟩ := exists_inserts hu hc hle
    have ht : t.height ≤ n := (hc.height_mono hu ((Multiset.le_cons_self S b).trans hle)).trans hn
    have ht' : t'.height ≤ n := ((hins.canonical hc).height_mono hu hle).trans hn
    refine ⟨t', accepted, hins.canonical hc, ?_⟩
    rw [UQuadTree.insert_of_inserts hins (fun _ ↦ hb) ht, if_pos ht']
  · exact ⟨t, false, (canonicalFor_settle_iff [b]).mpr (hc.cons_of_not_mem hb),
      insert_root_outside hc hb n⟩

private theorem height_le_of_insertAll {bodies : List BodyRef} {tree : UQuadTree K}
    {heap' : BodyHeap K} (hc : CanonicalFor heap box S t) (ht : t.height ≤ n)
    (h : ABodySimulator.insertAll (n + 1) bodies (UQuadTree.represent heap true box t) heap
      = .ok (tree, heap')) :
    ∃ t', CanonicalFor (heap.settle box bodies) box (bodies + S) t' ∧ t'.height ≤ n ∧
      tree = UQuadTree.represent (heap.settle box bodies) true box t' := by
  induction bodies generalizing heap S t with
  | nil =>
    obtain ⟨rfl, rfl⟩ := Prod.mk.inj (Except.ok.inj h)
    refine ⟨t, ?_, ht, ?_⟩
    · simpa using hc
    · rw [BodyHeap.settle_nil]
  | cons b bodies ih =>
    rw [ABodySimulator.insertAll] at h
    rcases insert_root_height_le hc ht b with herr | ⟨t', accepted, hc', ht', hok⟩
    · rw [herr] at h
      exact absurd h (by simp [bind, Except.bind])
    · rw [hok] at h
      rw [BodyHeap.settle_cons, coe_cons_add]
      exact ih hc' ht' h

private theorem exists_insertAll_of_height {T : Multiset BodyRef} {u : BodyTree}
    {bodies : List BodyRef}
    (hu : CanonicalFor heap box T u) (hn : u.height ≤ n) (hc : CanonicalFor heap box S t)
    (hle : bodies + S ≤ T) :
    ∃ r, ABodySimulator.insertAll (n + 1) bodies (UQuadTree.represent heap true box t) heap
      = .ok r := by
  induction bodies generalizing heap S t with
  | nil => exact ⟨_, rfl⟩
  | cons b bodies ih =>
    rw [coe_cons_add] at hle
    obtain ⟨t', accepted, hc', hok⟩ :=
      exists_insert_root_of_height hu hn hc ((Multiset.le_add_left _ _).trans hle)
    rw [ABodySimulator.insertAll, hok]
    exact ih ((canonicalFor_settle_iff [b]).mpr hu) hc' hle

private theorem insertAll_new_height {bodies : List BodyRef} {tree : UQuadTree K}
    {heap' : BodyHeap K}
    (h : ABodySimulator.insertAll (n + 1) bodies (.new box true) heap = .ok (tree, heap')) :
    ∃ t, CanonicalFor (heap.settle box bodies) box bodies t ∧ t.height ≤ n ∧
      tree = UQuadTree.represent (heap.settle box bodies) true box t := by
  rw [UQuadTree.represent_new heap] at h
  obtain ⟨t, hc, ht, htree⟩ := height_le_of_insertAll (canonicalFor_empty heap box)
    (Nat.zero_le n) h
  rw [add_zero] at hc
  exact ⟨t, hc, ht, htree⟩

private theorem insertAll_new_ok_iff (n : ℕ) (bodies : List BodyRef) (box : FBox2D K)
    (heap : BodyHeap K) :
    (∃ r, ABodySimulator.insertAll (n + 1) bodies (.new box true) heap = .ok r) ↔
      heap.SeparatedAt box bodies n := by
  constructor
  · rintro ⟨⟨tree, heap'⟩, h⟩
    obtain ⟨t, hc, ht, _⟩ := insertAll_new_height h
    exact ((canonicalFor_settle_iff bodies).mp hc).height_le_iff.mp ht
  · intro hsep
    obtain ⟨u, hu⟩ := exists_canonicalFor_iff.mpr ⟨n, hsep⟩
    rw [UQuadTree.represent_new heap]
    exact exists_insertAll_of_height hu (hu.height_le_iff.mpr hsep) (canonicalFor_empty heap box)
      (by rw [add_zero])

end InsertAll

/-! ## `ConstructTree` -/

section ConstructTree

variable {K : Type*} [Field K] [LinearOrder K] [IsStrictOrderedRing K]

/-- Any two bodies strictly inside the scene are a box of depth `n` apart on one axis. -/
def ABodySimulator.FarApart (s : ABodySimulator K) (n : ℕ) : Prop :=
  s.bodies.Pairwise fun b c ↦ s.sceneBounds.isInside (s.objects b).position = true →
    s.sceneBounds.isInside (s.objects c).position = true →
      s.sceneBounds.max.x - s.sceneBounds.min.x
          ≤ (2 ^ n : ℕ) * |(s.objects b).position.x - (s.objects c).position.x| ∨
        s.sceneBounds.max.y - s.sceneBounds.min.y
          ≤ (2 ^ n : ℕ) * |(s.objects b).position.y - (s.objects c).position.y|

theorem ABodySimulator.FarApart.separatedAt {s : ABodySimulator K} {n : ℕ} (h : s.FarApart n) :
    s.objects.SeparatedAt s.sceneBounds s.bodies n := by
  intro path hlen
  have hpair : (s.objects.inside (s.sceneBounds.subBox path) s.bodies).Pairwise
      fun _ _ ↦ False := by
    rw [BodyHeap.inside, List.pairwise_filter]
    refine h.imp fun {b c} hbc hb hc ↦ ?_
    have hroot : ∀ p, (s.sceneBounds.subBox path).isInside p = true →
        s.sceneBounds.isInside p = true := fun p ↦ (FBox2D.quarters K).mem_of_mem_descend
    have hfar := hbc (hroot _ hb) (hroot _ hc)
    rw [← hlen] at hfar
    push_cast at hfar
    exact FBox2D.not_isInside_of_far hfar hb hc
  rcases hinside : s.objects.inside (s.sceneBounds.subBox path) s.bodies with _ | ⟨b, _ | ⟨c, rest⟩⟩
  · exact Nat.zero_le 1
  · exact le_rfl
  · rw [hinside] at hpair
    exact ((List.pairwise_cons.mp hpair).1 c List.mem_cons_self).elim

omit [IsStrictOrderedRing K] in
private theorem constructTree_ok_iff (s : ABodySimulator K) (fuel : ℕ) :
    (∃ s', s.constructTree fuel = .ok s') ↔
      ∃ r, ABodySimulator.insertAll fuel s.bodies (.new s.sceneBounds true) s.objects = .ok r := by
  rw [ABodySimulator.constructTree]
  constructor
  · rintro ⟨s', h⟩
    cases hrun : ABodySimulator.insertAll fuel s.bodies (.new s.sceneBounds true) s.objects with
    | error fault =>
      rw [hrun] at h
      exact absurd h (by simp [bind, Except.bind])
    | ok r => exact ⟨r, rfl⟩
  · rintro ⟨r, h⟩
    exact ⟨_, by rw [h]; rfl⟩

theorem exists_constructTree_succ_iff (s : ABodySimulator K) (n : ℕ) :
    (∃ s', s.constructTree (n + 1) = .ok s') ↔
      s.objects.SeparatedAt s.sceneBounds s.bodies n :=
  (constructTree_ok_iff s _).trans (insertAll_new_ok_iff n s.bodies s.sceneBounds s.objects)

/-- **How many nested calls build the tree.** `n + 1` nested calls of `Insert` are enough exactly
when no box of depth `n` has two bodies strictly inside. They are enough for bodies of which any two
strictly inside the scene are a box of depth `n` apart on one axis. -/
theorem constructTree_depth_iff (s : ABodySimulator K) (n : ℕ) :
    ((∃ s', s.constructTree (n + 1) = .ok s') ↔
        s.objects.SeparatedAt s.sceneBounds s.bodies n) ∧
      (s.FarApart n → ∃ s', s.constructTree (n + 1) = .ok s') :=
  ⟨exists_constructTree_succ_iff s n,
    fun hfar ↦ (exists_constructTree_succ_iff s n).mpr hfar.separatedAt⟩

private theorem FBox2D.exists_two_isInside {box : FBox2D K} (hbox : box.Proper) :
    ∃ p q, p ≠ q ∧ box.isInside p = true ∧ box.isInside q = true := by
  obtain ⟨p, hp⟩ := (proper_quarter hbox 0).exists_isInside
  obtain ⟨q, hq⟩ := (proper_quarter hbox 1).exists_isInside
  refine ⟨p, q, ?_, isInside_of_quarter hp, isInside_of_quarter hq⟩
  rintro rfl
  exact absurd (quarter_unique hp hq) (by decide)

/-- **No number of nested calls builds every tree**, not even for two bodies at different places
strictly inside one and the same scene. -/
theorem exists_constructTree_outOfFuel [Archimedean K] {box : FBox2D K} (hbox : box.Proper)
    (fuel : ℕ) : ∃ p q, p ≠ q ∧ box.isInside p = true ∧ box.isInside q = true ∧
      ∀ (s : ABodySimulator K) (b c : BodyRef), s.sceneBounds = box → b ≠ c → s.bodies = [b, c] →
        (s.objects b).position = p → (s.objects c).position = q →
          s.constructTree fuel = .error .outOfFuel ∧
            ∃ fuel' s', s.constructTree fuel' = .ok s' := by
  have hpath := FBox2D.proper_subBox hbox (List.replicate fuel 0)
  obtain ⟨p, q, hne, hp, hq⟩ := FBox2D.exists_two_isInside hpath
  refine ⟨p, q, hne, (FBox2D.quarters K).mem_of_mem_descend hp,
    (FBox2D.quarters K).mem_of_mem_descend hq, fun s b c hscene hbc hlist hb hc ↦ ⟨?_, ?_⟩⟩
  · subst hscene
    have hinside : s.objects.inside (s.sceneBounds.subBox (List.replicate fuel 0)) s.bodies
        = [b, c] := by
      rw [BodyHeap.inside, hlist, List.filter_cons_of_pos (by rwa [hb]),
        List.filter_cons_of_pos (by rwa [hc]), List.filter_nil]
    rcases constructTree_represent fuel s with herr | ⟨t, hcanonical, hok⟩
    · exact herr
    · -- a tree that this fuel builds is not higher than the depth at which both are inside one box
      cases fuel with
      | zero =>
        rw [ABodySimulator.constructTree, hlist] at hok
        exact absurd hok (by simp [ABodySimulator.insertAll, UQuadTree.insert, bind, Except.bind])
      | succ n =>
        have hsep := (exists_constructTree_succ_iff s n).mp ⟨_, hok⟩
        have hlen : n ≤ (List.replicate (n + 1) (0 : Fin 4)).length := by simp
        have hone := hsep.length_inside_le hlen
        rw [hinside] at hone
        exact absurd hone (by simp)
  · refine exists_constructTree (by rw [hlist]; simp [hbc]) ?_
    rw [hlist]
    intro d hd e he hde
    simp only [List.mem_cons, List.not_mem_nil, or_false] at hd he
    rcases hd with rfl | rfl <;> rcases he with rfl | rfl
    · exact absurd rfl hde
    · rwa [hb, hc]
    · rw [hb, hc]
      exact hne.symm
    · exact absurd rfl hde

end ConstructTree

/-! ## The size of the tree -/

namespace UQuadTree

mutual

def nodeCount {K : Type*} : UQuadTree K → ℕ
  | nullptr => 0
  | node _ children => nodeCountOf children + 1

def nodeCountOf {K : Type*} : List (UQuadTree K) → ℕ
  | [] => 0
  | child :: rest => nodeCount child + nodeCountOf rest

end

private theorem nodeCount_represent {K : Type*} [Field K] [LinearOrder K] [IsStrictOrderedRing K]
    (heap : BodyHeap K) (isRoot : Bool) (box : FBox2D K) (t : BodyTree) :
    (represent heap isRoot box t).nodeCount
      = 1 + 4 * (opened (FBox2D.quarters K) (fun _ _ ↦ true) box t).card := by
  induction t generalizing isRoot box with
  | empty => rfl
  | leaf b => rfl
  | split b child ih =>
    have hlist : List.finRange 4 = [0, 1, 2, 3] := rfl
    rw [card_opened_split rfl, Fin.sum_univ_four, represent, nodeCount, hlist]
    simp only [List.map_cons, List.map_nil, nodeCountOf, ih, FBox2D.quarters_cell]
    omega

end UQuadTree

mutual

/-- A tree in memory takes one node of the memory for each of its own. -/
theorem TreeMemory.card_of_holds {K : Type*} {m : TreeMemory K} {p : Option NodeRef}
    {tree : UQuadTree K} {S : Finset NodeRef} (h : m.Holds p tree S) : S.card = tree.nodeCount :=
  match p, tree, S, h with
  | _, .nullptr, _, .null _ => rfl
  | _, .node _ _, _, .node hview _ hchildren hp => by
    obtain ⟨rfl, rfl⟩ := Prod.mk.inj (Option.some.inj hview)
    rw [Finset.card_insert_of_notMem hp, card_of_holdsAll hchildren, UQuadTree.nodeCount]

theorem TreeMemory.card_of_holdsAll {K : Type*} {m : TreeMemory K} {links : List (Option NodeRef)}
    {children : List (UQuadTree K)} {S : Finset NodeRef} (h : m.HoldsAll links children S) :
    S.card = UQuadTree.nodeCountOf children :=
  match links, children, S, h with
  | _, _, _, .nil => rfl
  | _, _, _, .cons h hrest hdisj => by
    rw [Finset.card_union_of_disjoint hdisj, card_of_holds h, card_of_holdsAll hrest,
      UQuadTree.nodeCountOf]

end

section Size

variable {K : Type*} [Field K] [LinearOrder K] [IsStrictOrderedRing K]

theorem CanonicalFor.card_opened_le {heap : BodyHeap K} {box : FBox2D K} {bodies : List BodyRef}
    {t : BodyTree} {n : ℕ} (hc : CanonicalFor heap box bodies t) (ht : t.height ≤ n)
    (go : FBox2D K → BodyTree → Bool) : (opened (FBox2D.quarters K) go box t).card
      ≤ n * ((heap.inside box bodies).length / 2) := by
  have hle := Canonical.card_opened_le go hc ht
  rwa [coe_inside, Multiset.coe_card] at hle

/-- **How large the tree is.** A tree that `n + 1` nested calls of `Insert` build has at most four
nodes for each of `n` levels and every two bodies strictly inside the scene, besides the root, and
takes so many nodes of the memory. -/
theorem nodeCount_le {n : ℕ} {s s' : ABodySimulator K} (h : s.constructTree (n + 1) = .ok s') :
    s'.quadTree.nodeCount
        ≤ 1 + 4 * (n * ((s.objects.inside s.sceneBounds s.bodies).length / 2)) ∧
      ∀ (m : TreeMemory K) p S, m.Holds p s'.quadTree S → S.card = s'.quadTree.nodeCount := by
  obtain ⟨t, hc, rfl⟩ := constructTree_spec h
  have hc₀ : CanonicalFor s.objects s.sceneBounds s.bodies t :=
    (canonicalFor_settle_iff s.bodies).mp hc
  have ht : t.height ≤ n := hc₀.height_le_iff.mpr ((exists_constructTree_succ_iff s n).mp ⟨_, h⟩)
  refine ⟨?_, fun m p S hholds ↦ TreeMemory.card_of_holds hholds⟩
  rw [ABodySimulator.withTree, UQuadTree.nodeCount_represent]
  exact Nat.add_le_add_left (Nat.mul_le_mul_left 4 (hc₀.card_opened_le ht fun _ _ ↦ true)) 1

end Size

/-- The tree of three bodies in three cells of the scene. -/
theorem nodeCount_le_spreadScene : ∃ s', spreadScene.constructTree (1 + 1) = .ok s' ∧
    s'.quadTree.nodeCount ≤ 1 + 4 * (1 * ((spreadScene.objects.inside spreadScene.sceneBounds
      spreadScene.bodies).length / 2)) ∧
    ∀ (m : TreeMemory ℚ) p S, m.Holds p s'.quadTree S → S.card = s'.quadTree.nodeCount := by
  have hok : (spreadScene.constructTree (1 + 1)).isOk = true := by decide +kernel
  obtain ⟨s', h⟩ := ABodySimulator.exists_eq_ok_of_isOk hok
  exact ⟨s', h, nodeCount_le h⟩

theorem constructTree_depth_iff_spreadScene :
    (∃ s', spreadScene.constructTree (1 + 1) = .ok s') ∧
      spreadScene.objects.SeparatedAt spreadScene.sceneBounds spreadScene.bodies 1 := by
  have hfar : spreadScene.FarApart 1 := by
    rw [ABodySimulator.FarApart]
    decide +kernel
  obtain ⟨hdepth, hsuffices⟩ := constructTree_depth_iff spreadScene 1
  exact ⟨hsuffices hfar, hdepth.mp (hsuffices hfar)⟩

theorem exists_constructTree_outOfFuel_spreadScene : ∃ p q : FVector2D ℚ, p ≠ q ∧
    spreadScene.sceneBounds.isInside p = true ∧ spreadScene.sceneBounds.isInside q = true ∧
      ∀ (s : ABodySimulator ℚ) (b c : BodyRef), s.sceneBounds = spreadScene.sceneBounds → b ≠ c →
        s.bodies = [b, c] → (s.objects b).position = p → (s.objects c).position = q →
          s.constructTree 100 = .error .outOfFuel ∧ ∃ fuel s', s.constructTree fuel = .ok s' :=
  exists_constructTree_outOfFuel ⟨by decide +kernel, by decide +kernel⟩ 100

end NBodySimulation
