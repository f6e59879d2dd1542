import NBodySimulation.Quadtree.Contents
import NBodySimulation.Spatial.Regions

/-!
# The boxes of a tree tile its root box

`SubDivide` cuts a box at its midpoint on both axes, so the four new boxes lie inside the old one,
have no interior point in common and cover it together with their borders. Through any number of
subdivisions the boxes of two nodes therefore have no interior point in common unless one node is an
ancestor of the other, and the boxes of the leaves cover the root box. A point strictly inside the
root is strictly inside one leaf box, unless it lies on a dividing line of a subdivided node.

## Main results

* `tiles_of_insertAll`: the boxes of every tree left by insertions tile the root box.
-/

namespace NBodySimulation

open Spatial Spatial.PointTree

/-! ## Boxes within boxes -/

namespace FBox2D

section Within

variable {K : Type*} [LinearOrder K]

/-- The box has a positive width and a positive height. -/
def Proper (box : FBox2D K) : Prop := box.min.x < box.max.x ∧ box.min.y < box.max.y

/-- The closed box is contained in another. -/
structure Within (inner outer : FBox2D K) : Prop where
  min_x : outer.min.x ≤ inner.min.x
  max_x : inner.max.x ≤ outer.max.x
  min_y : outer.min.y ≤ inner.min.y
  max_y : inner.max.y ≤ outer.max.y

theorem Within.trans {box₁ box₂ box₃ : FBox2D K} (h : box₁.Within box₂) (h' : box₂.Within box₃) :
    box₁.Within box₃ :=
  ⟨h'.min_x.trans h.min_x, h.max_x.trans h'.max_x, h'.min_y.trans h.min_y, h.max_y.trans h'.max_y⟩

theorem Within.isInsideOrOn {inner outer : FBox2D K} (h : inner.Within outer) {p : FVector2D K}
    (hp : inner.IsInsideOrOn p) : outer.IsInsideOrOn p :=
  ⟨⟨h.min_x.trans hp.1.1, hp.1.2.trans h.max_x⟩, h.min_y.trans hp.2.1, hp.2.2.trans h.max_y⟩

end Within

section Quarters

variable {K : Type*} [Field K] [LinearOrder K] [IsStrictOrderedRing K] {box : FBox2D K}

theorem proper_quarter (h : box.Proper) (i : Fin 4) : (box.quarter i).Proper := by
  obtain ⟨hx, hy⟩ := h
  rw [Proper, quarter_min_x, quarter_max_x, quarter_min_y, quarter_max_y]
  constructor
  · split <;> linarith
  · split <;> linarith

theorem proper_subBox (h : box.Proper) (path : List (Fin 4)) : (box.subBox path).Proper := by
  induction path generalizing box with
  | nil => exact h
  | cons i path ih => exact ih (proper_quarter h i)

theorem quarter_within (h : box.Proper) (i : Fin 4) : (box.quarter i).Within box := by
  obtain ⟨hx, hy⟩ := h
  constructor
  · rw [quarter_min_x]
    split <;> linarith
  · rw [quarter_max_x]
    split <;> linarith
  · rw [quarter_min_y]
    split <;> linarith
  · rw [quarter_max_y]
    split <;> linarith

private theorem subBox_within (h : box.Proper) (path : List (Fin 4)) :
    (box.subBox path).Within box := by
  induction path generalizing box with
  | nil => exact ⟨le_rfl, le_rfl, le_rfl, le_rfl⟩
  | cons i path ih => exact (ih (proper_quarter h i)).trans (quarter_within h i)

theorem Proper.exists_isInside (h : box.Proper) : ∃ p, box.isInside p = true := by
  obtain ⟨hx, hy⟩ := h
  refine ⟨⟨(box.min.x + box.max.x) / 2, (box.min.y + box.max.y) / 2⟩, isInside_iff.mpr ?_⟩
  refine ⟨?_, ?_, ?_, ?_⟩ <;> linarith

omit [Field K] [IsStrictOrderedRing K] in
theorem proper_of_isInside {p : FVector2D K} (h : box.isInside p = true) : box.Proper := by
  obtain ⟨hx, hx', hy, hy'⟩ := isInside_iff.mp h
  exact ⟨hx.trans hx', hy.trans hy'⟩

private theorem not_within_quarter (h : box.Proper) (i : Fin 4) : ¬box.Within (box.quarter i) := by
  intro hwithin
  have hx := h.1
  have hmin := hwithin.min_x
  have hmax := hwithin.max_x
  rw [quarter_min_x] at hmin
  rw [quarter_max_x] at hmax
  split at hmin
  · linarith
  · next hright =>
    rw [if_neg hright] at hmax
    linarith

theorem subBox_injective (h : box.Proper) {path path' : List (Fin 4)}
    (heq : box.subBox path = box.subBox path') : path = path' := by
  have hbelow : ∀ {path path' : List (Fin 4)}, box.subBox path = box.subBox path' →
      path <+: path' → path = path' := by
    rintro path path' heq ⟨rest, rfl⟩
    cases rest with
    | nil => rw [List.append_nil]
    | cons i rest =>
      have hsub : box.subBox (path ++ i :: rest)
          = ((box.subBox path).quarter i).subBox rest := by
        rw [subBox_append, subBox_cons]
      have hproper := proper_subBox h path
      have hwithin := subBox_within (proper_quarter hproper i) rest
      rw [← hsub, ← heq] at hwithin
      exact absurd hwithin (not_within_quarter hproper i)
  obtain ⟨p, hp⟩ := (proper_subBox h path).exists_isInside
  rcases (quarters K).comparable_of_mem hp (heq ▸ hp) with hpre | hpre
  · exact hbelow heq hpre
  · exact (hbelow heq.symm hpre).symm

private theorem exists_quarter_isInsideOrOn {p : FVector2D K} (hp : box.IsInsideOrOn p) :
    ∃ i, (box.quarter i).IsInsideOrOn p := by
  obtain ⟨⟨hx1, hx2⟩, hy1, hy2⟩ := hp
  obtain ⟨i, hi⟩ := exists_quarter (decide ((box.min.x + box.max.x) / 2 ≤ p.x))
    (decide ((box.min.y + box.max.y) / 2 ≤ p.y))
  refine ⟨i, ?_⟩
  rw [IsInsideOrOn, quarter_min_x, quarter_max_x, quarter_min_y, quarter_max_y, hi.1, hi.2]
  refine ⟨?_, ?_⟩
  · by_cases hx : (box.min.x + box.max.x) / 2 ≤ p.x
    · simp only [hx, decide_true, if_true]
      exact ⟨trivial, hx2⟩
    · simp only [hx, decide_false, Bool.false_eq_true, if_false]
      exact ⟨hx1, (not_le.mp hx).le⟩
  · by_cases hy : (box.min.y + box.max.y) / 2 ≤ p.y
    · simp only [hy, decide_true, if_true]
      exact ⟨trivial, hy2⟩
    · simp only [hy, decide_false, Bool.false_eq_true, if_false]
      exact ⟨hy1, (not_le.mp hy).le⟩

/-- The unsplit regions of a tree cover the closed box. -/
theorem exists_endsAt_isInsideOrOn (t : BodyTree) {p : FVector2D K} (hp : box.IsInsideOrOn p) :
    ∃ path, t.EndsAt path ∧ (box.subBox path).IsInsideOrOn p := by
  induction t generalizing box with
  | empty => exact ⟨[], ⟨_, subtree_nil _, fun _ _ ↦ by simp⟩, hp⟩
  | leaf b => exact ⟨[], ⟨_, subtree_nil _, fun _ _ ↦ by simp⟩, hp⟩
  | split b child ih =>
    obtain ⟨i, hi⟩ := exists_quarter_isInsideOrOn hp
    obtain ⟨path, hends, hpath⟩ := ih i hi
    exact ⟨i :: path, endsAt_split_cons.mpr hends, hpath⟩

end Quarters

end FBox2D

/-! ## Tilings -/

/-- The boxes of the nodes tile the box of the root. -/
structure UQuadTree.Tiles {K : Type*} [Field K] [LinearOrder K] (tree : UQuadTree K)
    (box : FBox2D K) : Prop where
  /-- Every node has a box with `Min < Max` on both axes. -/
  proper : ∀ path self children, tree.nodeAt path = .node self children → self.box.Proper
  /-- The box of a child is contained in that of its parent. -/
  nested : ∀ path i self children self' children', tree.nodeAt path = .node self children →
    tree.nodeAt (path ++ [i]) = .node self' children' → self'.box.Within self.box
  /-- Two nodes of which neither is an ancestor of the other have no interior point in common. -/
  disjoint : ∀ path path' self children self' children',
    tree.nodeAt path = .node self children → tree.nodeAt path' = .node self' children' →
      ¬path <+: path' → ¬path' <+: path →
        ∀ p, ¬(self.box.isInside p = true ∧ self'.box.isInside p = true)
  /-- The closed boxes of the leaves make up the closed root box. -/
  covers : ∀ p, box.IsInsideOrOn p ↔ ∃ path self children,
    tree.nodeAt path = .node self children ∧ UQuadTree.isLeaf children = true ∧
      self.box.IsInsideOrOn p
  /-- A point is strictly inside at most one leaf box. -/
  leaf_unique : ∀ p path path' self children self' children',
    tree.nodeAt path = .node self children → UQuadTree.isLeaf children = true →
    tree.nodeAt path' = .node self' children' → UQuadTree.isLeaf children' = true →
      self.box.isInside p = true → self'.box.isInside p = true → path = path'
  /-- A point strictly inside the root is strictly inside some leaf box exactly when it lies on no
  dividing line of a subdivided node that has it strictly inside. -/
  leaf_exists : ∀ p, box.isInside p = true →
    ((∃ path self children, tree.nodeAt path = .node self children ∧
        UQuadTree.isLeaf children = true ∧ self.box.isInside p = true) ↔
      ¬∃ path self children, tree.nodeAt path = .node self children ∧
        self.bIsSubdivided = true ∧ self.box.isInside p = true ∧ self.box.OnDividingLine p)

namespace UQuadTree

section Represent

variable {K : Type*} [Field K] {heap : BodyHeap K} {isRoot : Bool} {box : FBox2D K} {t : BodyTree}

private theorem isLeaf_childrenOf_iff {u : BodyTree} :
    isLeaf (childrenOf heap box u) = true ↔ ∀ b child, u ≠ split b child := by
  rw [isLeaf_childrenOf]
  cases u with
  | empty => simp
  | leaf b => simp
  | split b child => simp

private theorem exists_leaf_iff {P : FBox2D K → Prop} :
    (∃ path self children, (represent heap isRoot box t).nodeAt path = node self children ∧
        isLeaf children = true ∧ P self.box) ↔
      ∃ labels, t.EndsAt labels ∧ P (box.subBox labels) := by
  rw [exists_nodeAt_iff (P := fun self children ↦ isLeaf children = true ∧ P self.box)]
  simp only [isLeaf_childrenOf_iff, fieldsOf_box, EndsAt]
  exact exists_congr fun labels ↦
    ⟨fun ⟨u, hsub, hends, hP⟩ ↦ ⟨⟨u, hsub, hends⟩, hP⟩,
      fun ⟨⟨u, hsub, hends⟩, hP⟩ ↦ ⟨u, hsub, hends, hP⟩⟩

private theorem exists_subdivided_iff {P : FBox2D K → Prop} :
    (∃ path self children, (represent heap isRoot box t).nodeAt path = node self children ∧
        self.bIsSubdivided = true ∧ P self.box) ↔
      ∃ labels, t.SplitsAt labels ∧ P (box.subBox labels) := by
  rw [exists_nodeAt_iff (P := fun self _ ↦ self.bIsSubdivided = true ∧ P self.box)]
  refine exists_congr fun labels ↦ ?_
  constructor
  · rintro ⟨u, hsub, hsubdivided, hP⟩
    rw [fieldsOf_box] at hP
    cases u with
    | empty => exact absurd hsubdivided (by simp [fieldsOf])
    | leaf b => exact absurd hsubdivided (by simp [fieldsOf])
    | split b child => exact ⟨⟨b, child, hsub⟩, hP⟩
  · rintro ⟨⟨b, child, hsub⟩, hP⟩
    exact ⟨_, hsub, rfl, hP⟩

variable [LinearOrder K] [IsStrictOrderedRing K]

private theorem cutFrom_iff {p : FVector2D K} : CutFrom (FBox2D.quarters K) box p t ↔
    ∃ labels, t.SplitsAt labels ∧
      (box.subBox labels).isInside p = true ∧ (box.subBox labels).OnDividingLine p := by
  rw [CutFrom]
  refine exists_congr fun labels ↦ and_congr_right fun _ ↦ and_congr_right fun hin ↦ ?_
  exact (FBox2D.onDividingLine_iff hin).symm

/-- **Stored trees tile their root box.** -/
theorem tiles_represent (hbox : box.Proper) : (represent heap isRoot box t).Tiles box where
  proper := by
    intro path self children hnode
    obtain ⟨labels, rfl, u, hsub, rfl, rfl⟩ := exists_subtree_of_nodeAt hnode
    rw [fieldsOf_box]
    exact FBox2D.proper_subBox hbox labels
  nested := by
    intro path i self children self' children' hnode hchild
    obtain ⟨labels, rfl, u, hsub, rfl, rfl⟩ := exists_subtree_of_nodeAt hnode
    rw [nodeAt_append, hnode, ← represent_eq] at hchild
    obtain ⟨labels', hpath, u', hsub', rfl, rfl⟩ := exists_subtree_of_nodeAt hchild
    obtain ⟨j, rfl⟩ : ∃ j, labels' = [j] := by
      rw [← List.length_eq_one_iff, ← List.length_map Fin.val, ← hpath, List.length_singleton]
    rw [fieldsOf_box, fieldsOf_box]
    exact FBox2D.quarter_within (FBox2D.proper_subBox hbox labels) j
  disjoint := by
    intro path path' self children self' children' hnode hnode' hpre hpre' p ⟨hp, hp'⟩
    obtain ⟨labels, rfl, u, hsub, rfl, rfl⟩ := exists_subtree_of_nodeAt hnode
    obtain ⟨labels', rfl, u', hsub', rfl, rfl⟩ := exists_subtree_of_nodeAt hnode'
    rw [fieldsOf_box] at hp hp'
    rcases (FBox2D.quarters K).comparable_of_mem hp hp' with h | h
    · exact hpre (h.map Fin.val)
    · exact hpre' (h.map Fin.val)
  covers := by
    intro p
    rw [exists_leaf_iff (P := fun b ↦ b.IsInsideOrOn p)]
    constructor
    · exact FBox2D.exists_endsAt_isInsideOrOn t
    · rintro ⟨labels, _, hp⟩
      exact (FBox2D.subBox_within hbox labels).isInsideOrOn hp
  leaf_unique := by
    intro p path path' self children self' children' hnode hleaf hnode' hleaf' hp hp'
    obtain ⟨labels, rfl, u, hsub, rfl, rfl⟩ := exists_subtree_of_nodeAt hnode
    obtain ⟨labels', rfl, u', hsub', rfl, rfl⟩ := exists_subtree_of_nodeAt hnode'
    rw [isLeaf_childrenOf_iff] at hleaf hleaf'
    rw [fieldsOf_box] at hp hp'
    have hends : t.EndsAt labels := ⟨u, hsub, hleaf⟩
    have hends' : t.EndsAt labels' := ⟨u', hsub', hleaf'⟩
    have hlabels : labels = labels' :=
      endsAt_unique (D := FBox2D.quarters K) (r := box) (p := p) hends hends' hp hp'
    rw [hlabels]
  leaf_exists := by
    intro p hp
    rw [exists_leaf_iff (P := fun b ↦ b.isInside p = true),
      exists_subdivided_iff (P := fun b ↦ b.isInside p = true ∧ b.OnDividingLine p), ← cutFrom_iff]
    exact exists_endsAt_iff (D := FBox2D.quarters K) hp

/-- **The nodes of a stored tree are all different**, so that a node determines its path. -/
theorem nodeAt_injective {S : Multiset BodyRef} {heap' : BodyHeap K}
    (hc : CanonicalFor heap' box S t) {path path' : List ℕ} {self : Fields K}
    {children : List (UQuadTree K)}
    (hnode : (represent heap isRoot box t).nodeAt path = node self children)
    (hnode' : (represent heap isRoot box t).nodeAt path' = node self children) :
    path = path' := by
  obtain ⟨labels, rfl, u, hsub, rfl, rfl⟩ := exists_subtree_of_nodeAt hnode
  obtain ⟨labels', rfl, u', hsub', hself, _⟩ := exists_subtree_of_nodeAt hnode'
  have hbox : box.subBox labels = box.subBox labels' := by
    rw [← fieldsOf_box heap (isRoot && labels.isEmpty) (box.subBox labels) u, hself, fieldsOf_box]
  cases t with
  | empty =>
    rw [(eq_of_subtree (by simp) hsub).1, (eq_of_subtree (by simp) hsub').1]
  | leaf b =>
    rw [(eq_of_subtree (by simp) hsub).1, (eq_of_subtree (by simp) hsub').1]
  | split b child =>
    have hin := (Subdivision.mem_inside.mp (canonical_split.mp hc).1).2
    rw [FBox2D.subBox_injective (FBox2D.proper_of_isInside hin) hbox]

end Represent

end UQuadTree

section Insertions

variable {K : Type*} [Field K] [LinearOrder K] [IsStrictOrderedRing K]

/-- **The boxes tile the scene at every depth**, in every tree left by insertions into an empty root
with `Min < Max` on both axes. -/
theorem tiles_of_insertAll {fuel : ℕ} {bodies : List BodyRef} {box : FBox2D K}
    {heap₀ heap : BodyHeap K} {tree : UQuadTree K} (hbox : box.Proper)
    (h : ABodySimulator.insertAll fuel bodies (.new box true) heap₀ = .ok (tree, heap)) :
    tree.Tiles box := by
  obtain ⟨t, _, rfl, rfl⟩ := insertAll_new_spec h
  exact UQuadTree.tiles_represent hbox

end Insertions

/-- The tree of three bodies, one of which lies on a dividing line. -/
theorem tiles_cutOffScene : ∃ s', cutOffScene.constructTree 5 = .ok s' ∧
    s'.quadTree.Tiles cutOffScene.sceneBounds := by
  obtain ⟨tree, heap, h⟩ := exists_insertAll_cutOffScene
  refine ⟨{ cutOffScene with quadTree := tree, objects := heap }, ?_, ?_⟩
  · rw [ABodySimulator.constructTree, h]
    rfl
  · exact tiles_of_insertAll ⟨by decide +kernel, by decide +kernel⟩ h

end NBodySimulation
