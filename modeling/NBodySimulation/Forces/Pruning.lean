import NBodySimulation.Forces.Traversal
import NBodySimulation.Quadtree.Tiling
import NBodySimulation.Quadtree.Termination

/-!
# Raising `Theta` prunes the traversal

`Theta` enters a traversal in one place only, the far test, and a node that passes the test with one
value passes it with every larger one. A call goes on beneath a node when the test fails, so with a
larger `Theta` it goes on at fewer nodes. What it reaches is described here by paths: the call
reaches the end of a path when it goes on at every node before it.

## Main results

* `mem_visits_iff`: the entries of the log, by the nodes that the call reaches.
* `raising_theta_prunes`: what two traversals with different `Theta` have to do with each other.
-/

namespace NBodySimulation

namespace ABodySimulator

section Pruning

variable {K : Type*} [Field K] [LinearOrder K] [PythagoreanField K]

/-! ## The nodes that a call reaches -/

/-- The far test is made at this node, and it is no leaf of the body itself. -/
def MeetsTest (heap : BodyHeap K) (body : BodyRef) (self : UQuadTree.Fields K)
    (children : List (UQuadTree K)) : Prop :=
  isOwnLeaf heap body self children = false ∧ UQuadTree.isEmpty self = false

/-- Starting at the tree, the call gets to the end of the path: on the way it meets the far test at
every node, and the test fails. -/
def Reaches (theta : K) (heap : BodyHeap K) (body : BodyRef) : UQuadTree K → List ℕ → Prop
  | _, [] => True
  | .nullptr, _ :: _ => False
  | .node self children, i :: path =>
    (MeetsTest heap body self children ∧ farTest theta heap body self children = false) ∧
      Reaches theta heap body (children.getD i .nullptr) path

/-- The entries that a call adds to the log for one node. -/
def nodeVisits (theta : K) (heap : BodyHeap K) (body : BodyRef) (self : UQuadTree.Fields K)
    (children : List (UQuadTree K)) : List (Visit K) :=
  .invoked (.node self children) ::
    if isOwnLeaf heap body self children then []
    else leafVisits self children ++
      if UQuadTree.isEmpty self then []
      else if farTest theta heap body self children then farVisits heap self children
      else []

variable {theta theta₁ theta₂ : K} {heap : BodyHeap K} {body : BodyRef}
  {self : UQuadTree.Fields K} {children : List (UQuadTree K)} {visit : Visit K}

private theorem mem_visits_node : visit ∈ visits theta heap body (.node self children) ↔
    visit ∈ nodeVisits theta heap body self children ∨
      (MeetsTest heap body self children ∧ farTest theta heap body self children = false) ∧
        ∃ child ∈ children, visit ∈ visits theta heap body child := by
  rw [visits, nodeVisits, visitsOf_eq_flatMap, MeetsTest]
  cases isOwnLeaf heap body self children with
  | true => simp
  | false =>
    cases UQuadTree.isEmpty self with
    | true => simp
    | false =>
      cases farTest theta heap body self children with
      | true => simp
      | false => simp [or_assoc]

/-- What a call reaches beneath a node, it reaches through one of the children. -/
theorem exists_reaches_iff {P : UQuadTree.Fields K → List (UQuadTree K) → Prop} :
    (∃ path self' children', Reaches theta heap body (.node self children) path ∧
        (UQuadTree.node self children).nodeAt path = .node self' children' ∧ P self' children') ↔
      P self children ∨
        (MeetsTest heap body self children ∧ farTest theta heap body self children = false) ∧
          ∃ child ∈ children, ∃ path self' children', Reaches theta heap body child path ∧
            child.nodeAt path = .node self' children' ∧ P self' children' := by
  constructor
  · rintro ⟨path, self', children', hreach, hnode, hP⟩
    cases path with
    | nil =>
      rw [UQuadTree.nodeAt_nil, UQuadTree.node.injEq] at hnode
      obtain ⟨rfl, rfl⟩ := hnode
      exact Or.inl hP
    | cons i path =>
      obtain ⟨hgo, hrest⟩ := hreach
      rw [UQuadTree.nodeAt] at hnode
      by_cases hi : i < children.length
      · rw [List.getD_eq_getElem _ _ hi] at hrest hnode
        exact Or.inr ⟨hgo, _, List.getElem_mem hi, path, self', children', hrest, hnode, hP⟩
      · rw [List.getD_eq_default _ _ (not_lt.mp hi), UQuadTree.nodeAt_nullptr] at hnode
        exact absurd hnode (by simp)
  · rintro (hP | ⟨hgo, child, hchild, path, self', children', hreach, hnode, hP⟩)
    · exact ⟨[], self, children, trivial, UQuadTree.nodeAt_nil _, hP⟩
    · obtain ⟨i, hi, rfl⟩ := List.getElem_of_mem hchild
      refine ⟨i :: path, self', children', ⟨hgo, ?_⟩, ?_, hP⟩
      · rwa [List.getD_eq_getElem _ _ hi]
      · rwa [UQuadTree.nodeAt, List.getD_eq_getElem _ _ hi]

mutual

/-- **The entries of the log** are those of the nodes that the call reaches. -/
theorem mem_visits_iff (hvisit : visit ≠ .invoked .nullptr) (tree : UQuadTree K) :
    visit ∈ visits theta heap body tree ↔ ∃ path self children,
      Reaches theta heap body tree path ∧ tree.nodeAt path = .node self children ∧
        visit ∈ nodeVisits theta heap body self children := by
  match tree with
  | .nullptr =>
    rw [visits, List.mem_singleton]
    refine iff_of_false hvisit ?_
    rintro ⟨path, self, children, _, hnode, _⟩
    rw [UQuadTree.nodeAt_nullptr] at hnode
    exact absurd hnode (by simp)
  | .node self children =>
    rw [mem_visits_node, exists_reaches_iff]
    refine or_congr_right (and_congr_right fun _ ↦ ?_)
    exact exists_congr fun child ↦ and_congr_right fun hchild ↦
      mem_visits_of_mem hvisit children child hchild

theorem mem_visits_of_mem (hvisit : visit ≠ .invoked .nullptr) (children : List (UQuadTree K)) :
    ∀ child ∈ children, (visit ∈ visits theta heap body child ↔ ∃ path self children,
      Reaches theta heap body child path ∧ child.nodeAt path = .node self children ∧
        visit ∈ nodeVisits theta heap body self children) := by
  match children with
  | [] => exact fun child hchild ↦ absurd hchild List.not_mem_nil
  | first :: rest =>
    intro child hchild
    rcases List.mem_cons.mp hchild with hfirst | hrest
    · rw [hfirst]
      exact mem_visits_iff hvisit first
    · exact mem_visits_of_mem hvisit rest child hrest

end

private theorem invoked_mem_visits_iff {tree : UQuadTree K} :
    .invoked (.node self children) ∈ visits theta heap body tree ↔
      ∃ path, Reaches theta heap body tree path ∧ tree.nodeAt path = .node self children := by
  rw [mem_visits_iff (by simp)]
  have hself : ∀ self' children', .invoked (.node self children) ∈
      nodeVisits theta heap body self' children' ↔ self' = self ∧ children' = children := by
    intro self' children'
    rw [nodeVisits, leafVisits, farVisits]
    split_ifs <;> simp [eq_comm]
  simp only [hself]
  constructor
  · rintro ⟨path, _, _, hreach, hnode, rfl, rfl⟩
    exact ⟨path, hreach, hnode⟩
  · rintro ⟨path, hreach, hnode⟩
    exact ⟨path, self, children, hreach, hnode, rfl, rfl⟩

private theorem far_mem_visits_iff {tree : UQuadTree K} :
    .far (.node self children) ∈ visits theta heap body tree ↔
      (∃ path, Reaches theta heap body tree path ∧ tree.nodeAt path = .node self children) ∧
        MeetsTest heap body self children ∧ farTest theta heap body self children = true := by
  rw [mem_visits_iff (by simp)]
  have hself : ∀ self' children', .far (.node self children) ∈
      nodeVisits theta heap body self' children' ↔ (self' = self ∧ children' = children) ∧
        MeetsTest heap body self children ∧ farTest theta heap body self children = true := by
    intro self' children'
    rw [nodeVisits, leafVisits, farVisits, MeetsTest]
    constructor
    · intro hmem
      split_ifs at hmem <;> simp_all
    · rintro ⟨⟨rfl, rfl⟩, ⟨hown, hempty⟩, hfar⟩
      simp [hown, hempty, hfar]
  simp only [hself]
  constructor
  · rintro ⟨path, _, _, hreach, hnode, ⟨rfl, rfl⟩, htest⟩
    exact ⟨⟨path, hreach, hnode⟩, htest⟩
  · rintro ⟨⟨path, hreach, hnode⟩, htest⟩
    exact ⟨path, self, children, hreach, hnode, ⟨rfl, rfl⟩, htest⟩

/-! ## Two values of `Theta` -/

private theorem farTest_mono (hle : theta₁ ≤ theta₂)
    (h : farTest theta₁ heap body self children = true) :
    farTest theta₂ heap body self children = true := by
  rw [farTest] at h ⊢
  cases hcenter : UQuadTree.getCenterOfMass heap self children with
  | none => simp [hcenter] at h
  | some center =>
    simp only [hcenter, Bool.and_eq_true, decide_eq_true_eq] at h ⊢
    exact ⟨h.1, h.2.trans_le hle⟩

private theorem Reaches.of_le (hle : theta₁ ≤ theta₂) {tree : UQuadTree K} {path : List ℕ}
    (h : Reaches theta₂ heap body tree path) : Reaches theta₁ heap body tree path := by
  induction path generalizing tree with
  | nil => exact trivial
  | cons i path ih =>
    cases tree with
    | nullptr => exact h.elim
    | node self children =>
      obtain ⟨⟨hmeets, hnear⟩, hrest⟩ := h
      refine ⟨⟨hmeets, ?_⟩, ih hrest⟩
      rw [Bool.eq_false_iff] at hnear ⊢
      exact fun hfar ↦ hnear (farTest_mono hle hfar)

/-- A node reached with one `Theta` is reached with another, or a node before it passes the far test
with that one. -/
theorem Reaches.reaches_or_far {tree : UQuadTree K} {path : List ℕ}
    (h : Reaches theta₁ heap body tree path) : Reaches theta₂ heap body tree path ∨
      ∃ above i rest, path = above ++ i :: rest ∧ Reaches theta₂ heap body tree above ∧
        ∃ self children, tree.nodeAt above = .node self children ∧
          MeetsTest heap body self children ∧ farTest theta₂ heap body self children = true := by
  induction path generalizing tree with
  | nil => exact Or.inl trivial
  | cons i path ih =>
    cases tree with
    | nullptr => exact h.elim
    | node self children =>
      obtain ⟨⟨hmeets, _⟩, hrest⟩ := h
      by_cases hfar : farTest theta₂ heap body self children = true
      · exact Or.inr ⟨[], i, path, rfl, trivial, self, children, UQuadTree.nodeAt_nil _, hmeets,
          hfar⟩
      · have hgo : MeetsTest heap body self children ∧
            farTest theta₂ heap body self children = false := ⟨hmeets, Bool.eq_false_iff.mpr hfar⟩
        rcases ih hrest with hreach | ⟨above, j, rest, rfl, hreach, hnode⟩
        · exact Or.inl ⟨hgo, hreach⟩
        · exact Or.inr ⟨i :: above, j, rest, rfl, ⟨hgo, hreach⟩, hnode⟩

/-! ## Two traversals -/

/-- `CalculateForcesBarnesHut` is invoked on the node at the end of the path, by the call on the
root or by a recursive one. -/
def InvokedAt (theta deltaTime : K) (heap : BodyHeap K) (body : BodyRef) (tree : UQuadTree K)
    (path : List ℕ) : Prop :=
  ∃ self children, tree.nodeAt path = .node self children ∧
    .invoked (.node self children) ∈
      (calculateForcesBarnesHut theta body deltaTime tree ⟨heap, []⟩).log

/-- The far test of the node at the end of the path succeeds during the traversal. -/
def FarAt (theta deltaTime : K) (heap : BodyHeap K) (body : BodyRef) (tree : UQuadTree K)
    (path : List ℕ) : Prop :=
  ∃ self children, tree.nodeAt path = .node self children ∧
    .far (.node self children) ∈
      (calculateForcesBarnesHut theta body deltaTime tree ⟨heap, []⟩).log

theorem log_eq_visits (deltaTime : K) (tree : UQuadTree K) :
    (calculateForcesBarnesHut theta body deltaTime tree ⟨heap, []⟩).log
      = visits theta heap body tree := by
  rw [calculateForcesBarnesHut_eq]
  exact List.nil_append _

private theorem InvokedAt.of_le (hle : theta₁ ≤ theta₂) {deltaTime : K} {tree : UQuadTree K}
    {path : List ℕ} (h : InvokedAt theta₂ deltaTime heap body tree path) :
    InvokedAt theta₁ deltaTime heap body tree path := by
  obtain ⟨self, children, hnode, hlog⟩ := h
  rw [log_eq_visits, invoked_mem_visits_iff] at hlog
  obtain ⟨path', hreach, hnode'⟩ := hlog
  refine ⟨self, children, hnode, ?_⟩
  rw [log_eq_visits, invoked_mem_visits_iff]
  exact ⟨path', hreach.of_le hle, hnode'⟩

private theorem FarAt.far_or_above (hle : theta₁ ≤ theta₂) {deltaTime : K} {tree : UQuadTree K}
    (hinj : ∀ path path' self children, tree.nodeAt path = .node self children →
      tree.nodeAt path' = .node self children → path = path') {path : List ℕ}
    (h : FarAt theta₁ deltaTime heap body tree path) :
    FarAt theta₂ deltaTime heap body tree path ∨ ∃ above i rest, path = above ++ i :: rest ∧
      FarAt theta₂ deltaTime heap body tree above := by
  obtain ⟨self, children, hnode, hlog⟩ := h
  rw [log_eq_visits, far_mem_visits_iff] at hlog
  obtain ⟨⟨path', hreach, hnode'⟩, hmeets, hfar⟩ := hlog
  obtain rfl := hinj path path' self children hnode hnode'
  rcases hreach.reaches_or_far with hreach₂ | ⟨above, i, rest, rfl, hreach₂, self', children',
    habove, hmeets', hfar'⟩
  · refine Or.inl ⟨self, children, hnode, ?_⟩
    rw [log_eq_visits, far_mem_visits_iff]
    exact ⟨⟨path, hreach₂, hnode⟩, hmeets, farTest_mono hle hfar⟩
  · refine Or.inr ⟨above, i, rest, rfl, self', children', habove, ?_⟩
    rw [log_eq_visits, far_mem_visits_iff]
    exact ⟨⟨above, hreach₂, habove⟩, hmeets', hfar'⟩

/-- **Raising `Theta` only prunes.** In a tree left by insertions, whatever the bodies look like by
then, every node a call is invoked on with the larger `Theta` it is invoked on with the smaller one,
and a node whose far test succeeds with the smaller `Theta` either succeeds with the larger one or
has a proper ancestor that does. -/
theorem raising_theta_prunes [IsStrictOrderedRing K] {fuel : ℕ} {bodies : List BodyRef}
    {box : FBox2D K} {heap₀ heap₁ : BodyHeap K} {tree : UQuadTree K}
    (h : insertAll fuel bodies (.new box true) heap₀ = .ok (tree, heap₁)) (hle : theta₁ ≤ theta₂)
    (heap : BodyHeap K) (body : BodyRef) (deltaTime : K) :
    (∀ path, InvokedAt theta₂ deltaTime heap body tree path →
      InvokedAt theta₁ deltaTime heap body tree path) ∧
    ∀ path, FarAt theta₁ deltaTime heap body tree path →
      FarAt theta₂ deltaTime heap body tree path ∨ ∃ above i rest, path = above ++ i :: rest ∧
        FarAt theta₂ deltaTime heap body tree above := by
  obtain ⟨t, hc, rfl, rfl⟩ := insertAll_new_spec h
  refine ⟨fun path hinvoked ↦ hinvoked.of_le hle, fun path hfar ↦ ?_⟩
  exact hfar.far_or_above hle fun path path' self children ↦ UQuadTree.nodeAt_injective hc

end Pruning

end ABodySimulator

/-- The tree of two bodies, traversed for the first with two values of `Theta`. -/
theorem raising_theta_prunes_twoBodyScene : ∃ fuel tree heap,
    ABodySimulator.insertAll fuel twoBodyScene.bodies (.new twoBodyScene.sceneBounds true)
      twoBodyScene.objects = .ok (tree, heap) ∧
    (∀ path, ABodySimulator.InvokedAt 3 1 heap 0 tree path →
      ABodySimulator.InvokedAt 1 1 heap 0 tree path) ∧
    ∀ path, ABodySimulator.FarAt 1 1 heap 0 tree path →
      ABodySimulator.FarAt 3 1 heap 0 tree path ∨ ∃ above i rest, path = above ++ i :: rest ∧
        ABodySimulator.FarAt 3 1 heap 0 tree above := by
  obtain ⟨fuel, tree, heap, hok⟩ := exists_insertAll_of_places_ne twoBodyScene.sceneBounds
    twoBodyScene_wellIndexed.nodup_bodies places_ne_twoBodyScene
  have hle : (1 : ℝ) ≤ 3 := by norm_num
  exact ⟨fuel, tree, heap, hok, ABodySimulator.raising_theta_prunes hok hle heap 0 1⟩

end NBodySimulation
