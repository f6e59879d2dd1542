import NBodySimulation.Quadtree.Aggregates
import NBodySimulation.Quadtree.Contents

/-!
# What one insertion does to the tree

`Insert` into a node that holds a single body subdivides it and pushes that body down without
looking at the answer, so that a body on one of the dividing lines drops out of the tree. This is
the only thing that can go wrong: the answer of `Insert` always tells whether the new body is held,
and when no body drops out, all bodies are still held, and a rejected body changes no `Mass` and no
`CenterMass`.

## Main results

* `insertAccounts_iff`: when an insertion accounts for every body.
-/

namespace NBodySimulation

open Spatial Spatial.PointTree UQuadTree ABodySimulator

/-- The call of `Insert` on `tree` that has left `r` accounts for every body: all that were held
still are, the answer tells whether the new one is, and a rejected one changes no aggregate. -/
structure InsertAccounts {K : Type*} (tree : UQuadTree K) (entity : BodyRef)
    (r : Inserted K (UQuadTree K)) : Prop where
  held : ∀ b ∈ tree.leafBodies, r.tree.leafBodies.count b = 1
  accepted : r.accepted = true → r.tree.leafBodies.count entity = 1
  rejected : r.accepted = false → r.tree.leafBodies.count entity = 0
  unchanged : r.accepted = false → ∀ path self children, tree.nodeAt path = node self children →
    ∃ self' children', r.tree.nodeAt path = node self' children' ∧
      self'.mass = self.mass ∧ self'.centerMass = self.centerMass

/-- No body of the list lies on a dividing line of the box, or of a box got from it by repeated
subdivision, that has both it and the entity strictly inside. -/
def BodyHeap.CutsNone {K : Type*} [Field K] [LinearOrder K] (heap : BodyHeap K) (box : FBox2D K)
    (entity : BodyRef) (bodies : List BodyRef) : Prop :=
  ∀ b ∈ bodies, ∀ path : List (Fin 4), (box.subBox path).isInside (heap entity).position = true →
    (box.subBox path).isInside (heap b).position = true →
      ¬(box.subBox path).OnDividingLine (heap b).position

/-! ## Aggregates that stay the same -/

section SameAggregates

variable {K : Type*} [Field K] {heap : BodyHeap K} {box : FBox2D K}

private theorem UQuadTree.Sums.foldl_addChild_single {fields : Fin 4 → Fields K} {q : Fin 4}
    (h : ∀ i, i ≠ q → (fields i).bodyEntity = none) (sums : Sums K) :
    (List.finRange 4).foldl (fun sums i ↦ sums.addChild (fields i)) sums
      = sums.addChild (fields q) := by
  have hlist : List.finRange 4 = [0, 1, 2, 3] := rfl
  have hskip : ∀ (sums : Sums K) (i : Fin 4), i ≠ q → sums.addChild (fields i) = sums := by
    intro sums i hi
    rw [addChild, h i hi]
  fin_cases q <;> simp_all

private theorem aggregates_split_single (heap : BodyHeap K) (isRoot : Bool) (box : FBox2D K)
    (b : BodyRef)
    {child : Fin 4 → BodyTree} {q : Fin 4} (h : ∀ i, i ≠ q → (child i).resident = none)
    (hq : (child q).resident.isSome = true) :
    (fieldsOf heap isRoot box (split b child)).mass
        = (fieldsOf heap false (box.quarter q) (child q)).mass ∧
      (fieldsOf heap isRoot box (split b child)).centerMass
        = (fieldsOf heap false (box.quarter q) (child q)).centerMass := by
  have hskip : ∀ i, i ≠ q →
      (fieldsOf heap false (box.quarter i) (child i)).bodyEntity = none := by
    intro i hi
    rw [fieldsOf_bodyEntity, h i hi]
  have hsums := Sums.foldl_addChild_single hskip Sums.zero
  obtain ⟨c, hc⟩ := Option.isSome_iff_exists.mp hq
  rw [Sums.addChild, fieldsOf_bodyEntity, hc] at hsums
  rw [fieldsOf, hsums]
  constructor
  · exact zero_add _
  · cases hcenter : (fieldsOf heap false (box.quarter q) (child q)).centerMass with
    | none => simp [Sums.centerMass]
    | some v =>
      simp only [Sums.centerMass, Sums.zero, Option.map₂_some_some, Option.map_some, zero_add,
        Nat.cast_one, one_ne_zero, if_false, Option.some.injEq]
      ext <;> simp

private theorem aggregates_split_congr (heap : BodyHeap K) (isRoot : Bool) (box : FBox2D K)
    (b : BodyRef) {child child' : Fin 4 → BodyTree}
    (hres : ∀ i, (child' i).resident.isSome = (child i).resident.isSome)
    (hmass : ∀ i, (fieldsOf heap false (box.quarter i) (child' i)).mass
      = (fieldsOf heap false (box.quarter i) (child i)).mass)
    (hcenter : ∀ i, (fieldsOf heap false (box.quarter i) (child' i)).centerMass
      = (fieldsOf heap false (box.quarter i) (child i)).centerMass) :
    (fieldsOf heap isRoot box (split b child')).mass
        = (fieldsOf heap isRoot box (split b child)).mass ∧
      (fieldsOf heap isRoot box (split b child')).centerMass
        = (fieldsOf heap isRoot box (split b child)).centerMass := by
  have hadd : ∀ (sums : Sums K) i,
      sums.addChild (fieldsOf heap false (box.quarter i) (child' i))
        = sums.addChild (fieldsOf heap false (box.quarter i) (child i)) := by
    intro sums i
    refine Sums.addChild_congr sums ?_ (hmass i) (hcenter i)
    rw [fieldsOf_bodyEntity, fieldsOf_bodyEntity, hres]
  simp only [fieldsOf, hadd, and_self]

/-- Every node of `t` is still there in `t'`, with the same aggregates. -/
def SameAggregates (heap : BodyHeap K) (box : FBox2D K) (t t' : BodyTree) : Prop :=
  ∀ labels u, t.subtree labels = some u → ∃ u', t'.subtree labels = some u' ∧
    (fieldsOf heap false (box.subBox labels) u').mass
        = (fieldsOf heap false (box.subBox labels) u).mass ∧
      (fieldsOf heap false (box.subBox labels) u').centerMass
        = (fieldsOf heap false (box.subBox labels) u).centerMass

theorem SameAggregates.refl (heap : BodyHeap K) (box : FBox2D K) (t : BodyTree) :
    SameAggregates heap box t t := fun _ u hsub ↦ ⟨u, hsub, rfl, rfl⟩

private theorem SameAggregates.root {t t' : BodyTree} (h : SameAggregates heap box t t') :
    (fieldsOf heap false box t').mass = (fieldsOf heap false box t).mass ∧
      (fieldsOf heap false box t').centerMass = (fieldsOf heap false box t).centerMass := by
  obtain ⟨u', hu', hsame⟩ := h [] t (subtree_nil t)
  rw [subtree_nil, Option.some.injEq] at hu'
  rw [hu']
  exact hsame

/-- A leaf that has been subdivided, with its body in one of the children. -/
theorem sameAggregates_leaf {b c : BodyRef} {child : Fin 4 → BodyTree} {q : Fin 4}
    (hempty : ∀ i, i ≠ q → (child i).resident = none) (hq : (child q).resident.isSome = true)
    (hsame : SameAggregates heap (box.quarter q) (leaf c) (child q)) :
    SameAggregates heap box (leaf c) (split b child) := by
  intro labels u hsub
  obtain ⟨rfl, rfl⟩ := eq_of_subtree (by simp) hsub
  obtain ⟨hmass, hcenter⟩ := aggregates_split_single heap false box b hempty hq
  exact ⟨split b child, subtree_nil _, hmass.trans hsame.root.1, hcenter.trans hsame.root.2⟩

private theorem sameAggregates_split {b : BodyRef} {child : Fin 4 → BodyTree} {q : Fin 4}
    {t' : BodyTree} (hres : t'.resident = (child q).resident)
    (hsame : SameAggregates heap (box.quarter q) (child q) t') :
    SameAggregates heap box (split b child) (split b (Function.update child q t')) := by
  intro labels u hsub
  cases labels with
  | nil =>
    obtain rfl : split b child = u := Option.some.inj ((subtree_nil _).symm.trans hsub)
    obtain ⟨hmass, hcenter⟩ := hsame.root
    refine ⟨_, subtree_nil _, aggregates_split_congr heap false box b ?_ ?_ ?_⟩
    · exact (Function.forall_update_iff child fun i c ↦
        c.resident.isSome = (child i).resident.isSome).mpr ⟨by rw [hres], fun _ _ ↦ rfl⟩
    · exact (Function.forall_update_iff child fun i c ↦
        (fieldsOf heap false (box.quarter i) c).mass
          = (fieldsOf heap false (box.quarter i) (child i)).mass).mpr ⟨hmass, fun _ _ ↦ rfl⟩
    · exact (Function.forall_update_iff child fun i c ↦
        (fieldsOf heap false (box.quarter i) c).centerMass
          = (fieldsOf heap false (box.quarter i) (child i)).centerMass).mpr
        ⟨hcenter, fun _ _ ↦ rfl⟩
  | cons i labels =>
    rw [subtree_split_cons] at hsub ⊢
    by_cases hi : i = q
    · subst hi
      rw [Function.update_self]
      exact hsame labels u hsub
    · rw [Function.update_of_ne hi]
      exact ⟨u, hsub, rfl, rfl⟩

end SameAggregates

section Rejected

variable {K : Type*} [Field K] [LinearOrder K] [IsStrictOrderedRing K] {heap : BodyHeap K}
  {box : FBox2D K} {t t' : BodyTree} {a : BodyRef}

private theorem not_inserts_empty (h : box.isInside (heap a).position = true) :
    ¬Inserts (FBox2D.quarters K) heap.positions box .empty a t' false := by
  intro hins
  cases hins with
  | outside hout => exact hout h
  | lost _ hres _ => exact absurd hres (by simp [resident])
  | descend hres _ _ => exact absurd hres (by simp [resident])

private theorem cutAt_leaf_of_isInside {c : BodyRef} {q : Fin 4}
    (hq : (box.quarter q).isInside (heap c).position = true) :
    cutAt (FBox2D.quarters K) heap.positions box (leaf c) q = leaf c ∧
      ∀ i, i ≠ q → cutAt (FBox2D.quarters K) heap.positions box (leaf c) i = .empty :=
  ⟨if_pos hq, fun _ hi ↦ if_neg fun h ↦ hi (FBox2D.quarter_unique h hq)⟩

/-- A leaf that has been subdivided, with its body put into the quarter it lies in. -/
theorem sameAggregates_cutAt_leaf {b c : BodyRef} {q : Fin 4}
    (hq : (box.quarter q).isInside (heap c).position = true) (hres : t'.resident.isSome = true)
    (hsame : SameAggregates heap (box.quarter q) (leaf c) t') :
    SameAggregates heap box (leaf c)
      (split b (Function.update (cutAt (FBox2D.quarters K) heap.positions box (leaf c)) q t')) := by
  refine sameAggregates_leaf (q := q) (fun i hi ↦ ?_) ?_ ?_
  · rw [Function.update_of_ne hi, (cutAt_leaf_of_isInside hq).2 i hi]
    rfl
  · rw [Function.update_self]
    exact hres
  · rw [Function.update_self]
    exact hsame

/-- **A rejected body changes no aggregate**, unless it makes another body drop out. -/
theorem Inserts.sameAggregates {S : Multiset BodyRef} {accepted : Bool} {held : List BodyRef}
    (h : Inserts (FBox2D.quarters K) heap.positions box t a t' accepted)
    (hc : CanonicalFor heap box S t) (hrejected : accepted = false)
    (hheld : ∀ c ∈ t.leaves, c ∈ held) (hcut : heap.CutsNone box a held) :
    SameAggregates heap box t t' := by
  induction h with
  | @outside r t a hout => exact SameAggregates.refl heap r t
  | fresh _ => exact absurd hrejected (by simp)
  | @lost r t a b hin hres _ =>
    cases t with
    | empty => exact absurd hres (by simp [resident])
    | leaf c =>
      have hc' : c ∈ (leaf c : BodyTree).leaves := Multiset.mem_singleton_self c
      have hbox : r.isInside (heap c).position = true := (hc.mem_of_mem_leaves hc').2
      have hoff := hcut c (hheld c hc') [] hin hbox
      rw [FBox2D.subBox_nil, FBox2D.onDividingLine_iff hbox, not_forall] at hoff
      obtain ⟨q, hq⟩ := hoff
      have hq' := not_not.mp hq
      have hsame := sameAggregates_cutAt_leaf (b := b) hq' rfl (SameAggregates.refl heap _ (leaf c))
      rwa [Function.update_eq_self_iff.mpr (cutAt_leaf_of_isInside hq').1.symm] at hsame
    | split c child =>
      obtain rfl : c = b := Option.some.inj hres
      exact SameAggregates.refl _ _ _
  | @descend r t a b q t' accepted hres hq hins ih =>
    have hheldq : ∀ c ∈ (cutAt (FBox2D.quarters K) heap.positions r t q).leaves, c ∈ held := by
      intro c hcq
      by_contra hnot
      exact not_mem_leaves_cutAt (fun hmem ↦ hnot (hheld c hmem)) q hcq
    have hsame := ih (hc.cutAt q) hrejected hheldq fun c hcq path ↦ hcut c hcq (q :: path)
    subst hrejected
    cases t with
    | empty => exact absurd hres (by simp [resident])
    | leaf c =>
      -- a body alone in its quarter would have been accepted, so the resident is there too
      have hqc : (r.quarter q).isInside (heap c).position = true := by
        by_contra hnot
        have hnil : cutAt (FBox2D.quarters K) heap.positions r (leaf c) q = .empty := if_neg hnot
        rw [hnil] at hins
        exact not_inserts_empty hq hins
      rw [(cutAt_leaf_of_isInside hqc).1] at hins hsame
      have hres' : t'.resident.isSome = true := by
        rw [hins.resident_eq]
        rfl
      exact sameAggregates_cutAt_leaf hqc hres' hsame
    | split c child =>
      obtain rfl : c = b := Option.some.inj hres
      exact sameAggregates_split hins.resident_eq hsame

omit [LinearOrder K] [IsStrictOrderedRing K] in
private theorem SameAggregates.nodeAt {isRoot : Bool} (h : SameAggregates heap box t t')
    (path : List ℕ) {self : Fields K} {children : List (UQuadTree K)}
    (hnode : (represent heap isRoot box t).nodeAt path = node self children) :
    ∃ self' children', (represent heap isRoot box t').nodeAt path = node self' children' ∧
      self'.mass = self.mass ∧ self'.centerMass = self.centerMass := by
  obtain ⟨labels, rfl, u, hsub, rfl, rfl⟩ := exists_subtree_of_nodeAt hnode
  obtain ⟨u', hsub', hmass, hcenter⟩ := h labels u hsub
  rw [fieldsOf_mass, fieldsOf_mass] at hmass
  refine ⟨_, _, nodeAt_of_subtree hsub', ?_, ?_⟩
  · rw [fieldsOf_mass, fieldsOf_mass, hmass]
  · rw [centerMass_isRoot, centerMass_isRoot heap _ _ u, hcenter]

end Rejected

/-! ## When an insertion accounts for every body -/

section Insertions

variable {K : Type*} [Field K] [LinearOrder K] [IsStrictOrderedRing K] {heap : BodyHeap K}
  {box : FBox2D K} {t t' : BodyTree} {a : BodyRef}

private theorem Inserts.count_leaves_old_iff {S : Multiset BodyRef} {accepted : Bool}
    (h : Inserts (FBox2D.quarters K) heap.positions box t a t' accepted)
    (hc : CanonicalFor heap box S t) {b : BodyRef} (hb : b ∈ t.leaves) :
    t'.leaves.count b = 1 ↔ ∀ path : List (Fin 4),
      (box.subBox path).isInside (heap a).position = true →
        (box.subBox path).isInside (heap b).position = true →
          ¬(box.subBox path).OnDividingLine (heap b).position := by
  obtain ⟨hin, hkept⟩ := hc.mem_leaves_iff.mp hb
  obtain ⟨hS, hbox⟩ := Subdivision.mem_inside.mp hin
  have hin' : b ∈ (FBox2D.quarters K).inside heap.positions box (a ::ₘ S) :=
    Subdivision.mem_inside.mpr ⟨Multiset.mem_cons_of_mem hS, hbox⟩
  rw [(h.canonical hc).count_leaves_eq_one_iff, and_iff_right hin', lost_cons_iff hS,
    or_iff_right hkept, not_exists]
  refine forall_congr' fun path ↦ ?_
  constructor
  · intro hnot ha hbin hline
    exact hnot ⟨ha, hbin, (FBox2D.onDividingLine_iff hbin).mp hline⟩
  · rintro hoff ⟨ha, hbin, hcells⟩
    exact hoff ha hbin ((FBox2D.onDividingLine_iff hbin).mpr hcells)

private theorem Inserts.accounts_iff {S : Multiset BodyRef} {isRoot accepted : Bool}
    (h : Inserts (FBox2D.quarters K) heap.positions box t a t' accepted)
    (hc : CanonicalFor heap box S t) (hnew : a ∉ t.leaves) :
    InsertAccounts (represent heap isRoot box t) a ⟨represent heap isRoot box t', heap, accepted⟩ ↔
      heap.CutsNone box a (represent heap isRoot box t).leafBodies := by
  have hcount := h.count_leaves hnew
  constructor
  · intro haccounts b hb
    have hone := haccounts.held b hb
    rw [count_leafBodies_represent] at hone
    exact (Inserts.count_leaves_old_iff h hc (mem_leafBodies_represent.mp hb)).mp hone
  · intro hcut
    refine ⟨fun b hb ↦ ?_, fun hacc ↦ ?_, fun hrej ↦ ?_, fun hrej path self children hnode ↦ ?_⟩
    · rw [count_leafBodies_represent]
      exact (Inserts.count_leaves_old_iff h hc (mem_leafBodies_represent.mp hb)).mpr (hcut b hb)
    · rw [count_leafBodies_represent, hcount, show accepted = true from hacc, Bool.toNat_true]
    · rw [count_leafBodies_represent, hcount, show accepted = false from hrej, Bool.toNat_false]
    · refine SameAggregates.nodeAt ?_ path hnode
      exact Inserts.sameAggregates h hc hrej (fun c ↦ mem_leafBodies_represent.mpr) hcut

private theorem insertAccounts_of_outside {S : Multiset BodyRef} {fuel : ℕ}
    {r : Inserted K (UQuadTree K)} (hc : CanonicalFor heap box S t)
    (hin : ¬box.isInside (heap a).position = true) (hnew : a ∉ t.leaves)
    (hinsert : UQuadTree.insert fuel a (represent heap true box t) heap = .ok r) :
    InsertAccounts (represent heap true box t) a r := by
  cases fuel with
  | zero => exact absurd hinsert (by simp [UQuadTree.insert])
  | succ fuel =>
    have hleaves : ∀ c ∈ t.leaves, heap c = heap.settle box [a] c := fun c hcl ↦
      (BodyHeap.settle_of_isInside (hc.mem_of_mem_leaves hcl).2).symm
    have hok := insert_root_outside hc hin fuel
    rw [← represent_congr hleaves] at hok
    obtain rfl := Except.ok.inj (hok.symm.trans hinsert)
    refine ⟨fun b hb ↦ ?_, fun hacc ↦ ?_, fun _ ↦ ?_, fun _ path self children hnode ↦
      ⟨self, children, hnode, rfl, rfl⟩⟩
    · rw [count_leafBodies_represent, hc.count_leaves_eq_one_iff]
      exact hc.mem_leaves_iff.mp (mem_leafBodies_represent.mp hb)
    · exact absurd hacc (by simp)
    · rw [count_leafBodies_represent]
      exact Multiset.count_eq_zero.mpr hnew

/-- **When an insertion accounts for every body.** An `Insert` that returns, of a body the tree does
not hold, accounts for every body exactly when it cuts off none that the tree holds. -/
theorem insertAccounts_iff {fuel fuel' : ℕ} {bodies : List BodyRef} {heap₀ : BodyHeap K}
    {tree : UQuadTree K} {r : Inserted K (UQuadTree K)}
    (h : insertAll fuel bodies (.new box true) heap₀ = .ok (tree, heap))
    (hnew : a ∉ tree.leafBodies) (hinsert : UQuadTree.insert fuel' a tree heap = .ok r) :
    InsertAccounts tree a r ↔ heap.CutsNone box a tree.leafBodies := by
  obtain ⟨t, hc, rfl, rfl⟩ := insertAll_new_spec h
  rw [mem_leafBodies_represent] at hnew
  by_cases hin : box.isInside (heap₀.settle box bodies a).position = true
  · rcases insert_represent (t := t) fuel' (fun _ : true = true ↦ hin)
      with herr | ⟨t', accepted, hok, hins⟩
    · exact absurd (herr.symm.trans hinsert) (by simp)
    · obtain rfl := Except.ok.inj (hok.symm.trans hinsert)
      exact Inserts.accounts_iff hins hc hnew
  · -- no box of the tree has the new body inside
    exact iff_of_true (insertAccounts_of_outside hc hin hnew hinsert)
      fun b _ path ha ↦ absurd ((FBox2D.quarters K).mem_of_mem_descend ha) hin

end Insertions

/-! ## A resident on a dividing line -/

/-- A body on the vertical dividing line of the scene, and one well inside a quarter. -/
def residentScene : ABodySimulator ℚ :=
  .ofBodies .barnesHut ⟨⟨0, 0⟩, ⟨8, 8⟩⟩ (7 / 10) 1000 100 [(⟨4, 2⟩, 0, 20), (⟨1, 1⟩, 0, 20)]

private theorem exists_insert_residentScene : ∃ tree heap r,
    insertAll 3 [0] (.new residentScene.sceneBounds true) residentScene.objects
        = .ok (tree, heap) ∧
      UQuadTree.insert 3 1 tree heap = .ok r ∧ tree.leafBodies = [0] ∧ r.tree.leafBodies = [1] := by
  have hbodies : (insertAll 3 [0] (.new residentScene.sceneBounds true) residentScene.objects).bind
      (fun s ↦ (UQuadTree.insert 3 1 s.1 s.2).map fun r ↦ [s.1.leafBodies, r.tree.leafBodies])
        = .ok [[0], [1]] := by decide +kernel
  cases hok : insertAll 3 [0] (.new residentScene.sceneBounds true) residentScene.objects with
  | error fault => simp [hok, Except.bind] at hbodies
  | ok s =>
    rw [hok] at hbodies
    cases hins : UQuadTree.insert 3 1 s.1 s.2 with
    | error fault => simp [hins, Except.bind, Except.map] at hbodies
    | ok r =>
      simp only [hins, Except.bind, Except.map, Except.ok.injEq, List.cons.injEq,
        and_true] at hbodies
      exact ⟨s.1, s.2, r, rfl, hins, hbodies.1, hbodies.2⟩

theorem insertAccounts_iff_residentScene : ∃ tree heap r,
    insertAll 3 [0] (.new residentScene.sceneBounds true) residentScene.objects
        = .ok (tree, heap) ∧ 1 ∉ tree.leafBodies ∧ UQuadTree.insert 3 1 tree heap = .ok r ∧
      (InsertAccounts tree 1 r ↔
        heap.CutsNone residentScene.sceneBounds 1 tree.leafBodies) := by
  obtain ⟨tree, heap, r, hok, hins, hbefore, _⟩ := exists_insert_residentScene
  have hnew : 1 ∉ tree.leafBodies := by simp [hbefore]
  exact ⟨tree, heap, r, hok, hnew, hins, insertAccounts_iff hok hnew hins⟩

/-- The body on the dividing line is no longer held. -/
theorem residentScene_drops_resident : ∃ tree heap r,
    insertAll 3 [0] (.new residentScene.sceneBounds true) residentScene.objects
        = .ok (tree, heap) ∧ 1 ∉ tree.leafBodies ∧ UQuadTree.insert 3 1 tree heap = .ok r ∧
      ¬InsertAccounts tree 1 r := by
  obtain ⟨tree, heap, r, hok, hins, hbefore, hafter⟩ := exists_insert_residentScene
  refine ⟨tree, heap, r, hok, by simp [hbefore], hins, fun haccounts ↦ ?_⟩
  have hone := haccounts.held 0 (by simp [hbefore])
  rw [hafter] at hone
  exact absurd hone (by decide)

end NBodySimulation
