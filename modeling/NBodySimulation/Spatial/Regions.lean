import NBodySimulation.Spatial.PointTree

/-!
# The regions of a tree

The subtrees of a tree over a region lie over regions of their own, one for each path. Two of these
regions have a common point only when one path extends the other, and below the end of a branch
there is nothing. So a point lies in the region of at most one unsplit subtree, and it lies in none
exactly when some split on its way has cut it off.

## Main results

* `Subdivision.comparable_of_mem`: regions with a common point lie on one branch.
* `exists_endsAt_iff`: when a point lies in the region of an unsplit subtree.
-/

namespace Spatial

variable {ι R P α : Type*}

/-- Two regions with a common point lie on one branch. -/
theorem Subdivision.comparable_of_mem {D : Subdivision ι R P} {r : R} {p : P} {path path' : List ι}
    (h : D.Mem (D.descend r path) p) (h' : D.Mem (D.descend r path') p) :
    path <+: path' ∨ path' <+: path := by
  induction path generalizing r path' with
  | nil => exact Or.inl List.nil_prefix
  | cons i path ih =>
    cases path' with
    | nil => exact Or.inr List.nil_prefix
    | cons j path' =>
      obtain rfl : i = j := D.eq_of_mem_cell (D.mem_of_mem_descend h) (D.mem_of_mem_descend h')
      rcases ih h h' with hp | hp
      · exact Or.inl (List.cons_prefix_cons.mpr ⟨rfl, hp⟩)
      · exact Or.inr (List.cons_prefix_cons.mpr ⟨rfl, hp⟩)

namespace PointTree

/-- The tree is split at the end of the path. -/
def SplitsAt (t : PointTree ι α) (path : List ι) : Prop :=
  ∃ a child, t.subtree path = some (split a child)

/-- The tree has a subtree at the end of the path, and it is not split. -/
def EndsAt (t : PointTree ι α) (path : List ι) : Prop :=
  ∃ u, t.subtree path = some u ∧ ∀ a child, u ≠ split a child

section Paths

variable {a : α} {child : ι → PointTree ι α} {i : ι} {path path' : List ι} {t : PointTree ι α}

theorem splitsAt_split_nil : (split a child).SplitsAt [] := ⟨a, child, subtree_nil _⟩

@[simp] theorem splitsAt_split_cons :
    (split a child).SplitsAt (i :: path) ↔ (child i).SplitsAt path := Iff.rfl

theorem not_endsAt_split_nil : ¬(split a child).EndsAt [] := by
  rintro ⟨u, hu, hne⟩
  rw [subtree_nil, Option.some.injEq] at hu
  exact hne a child hu.symm

@[simp] theorem endsAt_split_cons :
    (split a child).EndsAt (i :: path) ↔ (child i).EndsAt path := Iff.rfl

theorem EndsAt.eq_of_prefix (h : t.EndsAt path) (hpath : path <+: path') {u : PointTree ι α}
    (hu : t.subtree path' = some u) : path' = path := by
  obtain ⟨w, hw, hunsplit⟩ := h
  obtain ⟨rest, rfl⟩ := hpath
  rw [subtree_append, hw, Option.bind_some] at hu
  rw [(eq_of_subtree hunsplit hu).1, List.append_nil]

end Paths

/-! ## Where a point lies -/

section Points

variable {D : Subdivision ι R P} {r : R} {p : P} {t : PointTree ι α}

theorem endsAt_unique {path path' : List ι} (h : t.EndsAt path) (h' : t.EndsAt path')
    (hp : D.Mem (D.descend r path) p) (hp' : D.Mem (D.descend r path') p) : path = path' := by
  obtain ⟨u, hu, _⟩ := id h
  obtain ⟨u', hu', _⟩ := id h'
  rcases D.comparable_of_mem hp hp' with hpre | hpre
  · exact (h.eq_of_prefix hpre hu').symm
  · exact h'.eq_of_prefix hpre hu

variable (D r p) in
/-- Some split cuts the point off: the point lies in its region, but in no cell of it. -/
def CutFrom (t : PointTree ι α) : Prop :=
  ∃ path, t.SplitsAt path ∧ D.Mem (D.descend r path) p ∧
    ∀ i, ¬D.Mem (D.cell (D.descend r path) i) p

theorem not_cutFrom_of_unsplit (ht : ∀ a child, t ≠ split a child) : ¬CutFrom D r p t := by
  rintro ⟨path, ⟨a, child, hsub⟩, _⟩
  exact ht a child (eq_of_subtree ht hsub).2.symm

/-- A point that lies in a cell is cut off by the split, or below it, exactly when it is below. -/
theorem cutFrom_split_iff {a : α} {child : ι → PointTree ι α} {i : ι}
    (hi : D.Mem (D.cell r i) p) :
    CutFrom D r p (split a child) ↔ CutFrom D (D.cell r i) p (child i) := by
  constructor
  · rintro ⟨path, hsplit, hmem, hcut⟩
    cases path with
    | nil => exact absurd hi (hcut i)
    | cons j path =>
      obtain rfl : j = i := D.eq_of_mem_cell (D.mem_of_mem_descend hmem) hi
      exact ⟨path, splitsAt_split_cons.mp hsplit, hmem, hcut⟩
  · rintro ⟨path, hsplit, hmem, hcut⟩
    exact ⟨i :: path, splitsAt_split_cons.mpr hsplit, hmem, hcut⟩

theorem exists_endsAt_iff_of_unsplit (ht : ∀ a child, t ≠ split a child) (hp : D.Mem r p) :
    (∃ path, t.EndsAt path ∧ D.Mem (D.descend r path) p) ↔ ¬CutFrom D r p t :=
  iff_of_true ⟨[], ⟨t, subtree_nil t, ht⟩, hp⟩ (not_cutFrom_of_unsplit ht)

/-- **Where a point lies**: in the region of an unsplit subtree, unless some split cuts it off. -/
theorem exists_endsAt_iff (hp : D.Mem r p) :
    (∃ path, t.EndsAt path ∧ D.Mem (D.descend r path) p) ↔ ¬CutFrom D r p t := by
  induction t generalizing r with
  | empty => exact exists_endsAt_iff_of_unsplit (fun _ _ ↦ by simp) hp
  | leaf a => exact exists_endsAt_iff_of_unsplit (fun _ _ ↦ by simp) hp
  | split a child ih =>
    by_cases hcell : ∃ i, D.Mem (D.cell r i) p
    · obtain ⟨i, hi⟩ := hcell
      rw [cutFrom_split_iff hi, ← ih i hi]
      constructor
      · rintro ⟨path, hends, hmem⟩
        cases path with
        | nil => exact absurd hends not_endsAt_split_nil
        | cons j path =>
          obtain rfl : j = i := D.eq_of_mem_cell (D.mem_of_mem_descend hmem) hi
          exact ⟨path, endsAt_split_cons.mp hends, hmem⟩
      · rintro ⟨path, hends, hmem⟩
        exact ⟨i :: path, endsAt_split_cons.mpr hends, hmem⟩
    · -- the point lies on the cut of the root
      have hcut : CutFrom D r p (split a child) :=
        ⟨[], splitsAt_split_nil, hp, fun i hi ↦ hcell ⟨i, hi⟩⟩
      refine iff_of_false ?_ (not_not.mpr hcut)
      rintro ⟨path, hends, hmem⟩
      cases path with
      | nil => exact not_endsAt_split_nil hends
      | cons j path => exact hcell ⟨j, D.mem_of_mem_descend hmem⟩

end Points

end PointTree

end Spatial
