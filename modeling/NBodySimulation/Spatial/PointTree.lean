import Mathlib.Data.Multiset.Count
import Mathlib.Data.Multiset.Filter
import Mathlib.Algebra.BigOperators.Group.Multiset.Basic
import Mathlib.Algebra.BigOperators.Group.Finset.Basic
import Mathlib.Tactic

/-!
# Region trees with one point to a leaf

A region is cut into finitely many cells, each cell is a region again, and a tree over a region
either is empty, or holds one point, or is split and has a tree over every cell. Cells are pairwise
disjoint but need not cover their region, so a point on a cut lies in no cell at all.

## Canonical trees

A tree is *canonical* for a finite family of points when its shape is the one that the points force:
a region with at least two points is split, a region with exactly one is a leaf that holds it, and
a region with none is empty. Two canonical trees of one family differ at most in the `resident`
that a split remembers. This is what makes a tree that was grown point by point a function of the
family alone.

Families are multisets, since two points may have the same position and one point may be counted
twice.
-/

namespace Spatial

/-- A rule that cuts every region into cells, one for each label in `ι`. -/
structure Subdivision (ι R P : Type*) where
  /-- The cell with a given label. -/
  cell : R → ι → R
  /-- The points that belong to a region. -/
  Mem : R → P → Prop
  decMem : ∀ r p, Decidable (Mem r p)
  mem_of_mem_cell : ∀ {r i p}, Mem (cell r i) p → Mem r p
  eq_of_mem_cell : ∀ {r i j p}, Mem (cell r i) p → Mem (cell r j) p → i = j

attribute [instance] Subdivision.decMem

/-- A tree whose leaves hold at most one point each. A split remembers the point that was in the
region when it was cut. -/
inductive PointTree (ι α : Type*)
  | empty
  | leaf (a : α)
  | split (resident : α) (child : ι → PointTree ι α)

variable {ι R P α : Type*}

/-! ## The points of a family that lie in a region -/

namespace Subdivision

variable (D : Subdivision ι R P) (pos : α → P)

/-- The members of `S` that lie in the region `r`. -/
def inside (r : R) (S : Multiset α) : Multiset α := S.filter fun a ↦ D.Mem r (pos a)

/-- The region reached from `r` along a path of labels. -/
def descend (r : R) (path : List ι) : R := path.foldl D.cell r

@[simp] theorem descend_nil (r : R) : D.descend r [] = r := rfl

@[simp] theorem descend_cons (r : R) (i : ι) (path : List ι) :
    D.descend r (i :: path) = D.descend (D.cell r i) path := rfl

variable {D pos}

theorem mem_of_mem_descend {r : R} {path : List ι} {p : P} (h : D.Mem (D.descend r path) p) :
    D.Mem r p := by
  induction path generalizing r with
  | nil => exact h
  | cons i path ih => exact D.mem_of_mem_cell (ih h)

@[simp] theorem mem_inside {r : R} {S : Multiset α} {a : α} :
    a ∈ D.inside pos r S ↔ a ∈ S ∧ D.Mem r (pos a) := by
  rw [inside, Multiset.mem_filter]

@[simp] theorem inside_zero (r : R) : D.inside pos r 0 = 0 := by
  rw [inside, Multiset.filter_zero]

theorem inside_cons_of_mem {r : R} {S : Multiset α} {a : α} (h : D.Mem r (pos a)) :
    D.inside pos r (a ::ₘ S) = a ::ₘ D.inside pos r S :=
  Multiset.filter_cons_of_pos S h

theorem inside_cons_of_not_mem {r : R} {S : Multiset α} {a : α} (h : ¬D.Mem r (pos a)) :
    D.inside pos r (a ::ₘ S) = D.inside pos r S :=
  Multiset.filter_cons_of_neg S h

theorem inside_mono {r : R} {S T : Multiset α} (h : S ≤ T) :
    D.inside pos r S ≤ D.inside pos r T := by
  rw [inside, inside]
  exact Multiset.filter_le_filter _ h

/-- Only the members inside a region matter for its cells. -/
theorem inside_cell (r : R) (i : ι) (S : Multiset α) :
    D.inside pos (D.cell r i) S = D.inside pos (D.cell r i) (D.inside pos r S) := by
  rw [inside, inside, inside, Multiset.filter_filter]
  refine Multiset.filter_congr fun a _ ↦ ?_
  exact ⟨fun h ↦ ⟨h, D.mem_of_mem_cell h⟩, And.left⟩

/-- Two families with the same members inside a region, at the same places, have the same members
inside each of its cells. -/
theorem inside_cell_congr {pos' : α → P} {r : R} {S S' : Multiset α}
    (h : D.inside pos r S = D.inside pos' r S')
    (hpos : ∀ a ∈ D.inside pos r S, pos a = pos' a) (i : ι) :
    D.inside pos (D.cell r i) S = D.inside pos' (D.cell r i) S' := by
  rw [inside_cell r i S, inside_cell r i S', ← h, inside, inside]
  exact Multiset.filter_congr fun a ha ↦ by rw [hpos a ha]

theorem inside_cell_le (r : R) (i : ι) (S : Multiset α) :
    D.inside pos (D.cell r i) S ≤ D.inside pos r S := by
  rw [inside_cell]
  exact Multiset.filter_le _ _

variable (pos) in
theorem inside_descend_le (r : R) (path : List ι) (S : Multiset α) :
    D.inside pos (D.descend r path) S ≤ D.inside pos r S := by
  induction path generalizing r with
  | nil => exact le_refl _
  | cons i path ih => exact (ih (D.cell r i)).trans (inside_cell_le r i S)

end Subdivision

/-! ## Canonical trees -/

namespace PointTree

variable (D : Subdivision ι R P) (pos : α → P)

/-- The tree over `r` has the shape that the family `S` forces. -/
def Canonical (S : Multiset α) : R → PointTree ι α → Prop
  | r, empty => D.inside pos r S = 0
  | r, leaf a => D.inside pos r S = {a}
  | r, split a child => a ∈ D.inside pos r S ∧ 2 ≤ (D.inside pos r S).card ∧
      ∀ i, Canonical S (D.cell r i) (child i)

variable {D pos}

@[simp] theorem canonical_empty {S : Multiset α} {r : R} :
    Canonical D pos S r empty ↔ D.inside pos r S = 0 := by
  rw [Canonical]

@[simp] theorem canonical_leaf {S : Multiset α} {r : R} {a : α} :
    Canonical D pos S r (leaf a) ↔ D.inside pos r S = {a} := by
  rw [Canonical]

@[simp] theorem canonical_split {S : Multiset α} {r : R} {a : α} {child : ι → PointTree ι α} :
    Canonical D pos S r (split a child) ↔
      a ∈ D.inside pos r S ∧ 2 ≤ (D.inside pos r S).card ∧
        ∀ i, Canonical D pos S (D.cell r i) (child i) := by
  rw [Canonical]

/-- The shape over a region is forced by the members inside it. -/
theorem Canonical.congr {pos' : α → P} {S S' : Multiset α} {r : R} {t : PointTree ι α}
    (hc : Canonical D pos S r t) (h : D.inside pos r S = D.inside pos' r S')
    (hpos : ∀ a ∈ D.inside pos r S, pos a = pos' a) : Canonical D pos' S' r t := by
  induction t generalizing r with
  | empty => rwa [canonical_empty, ← h]
  | leaf a => rwa [canonical_leaf, ← h]
  | split a child ih =>
    obtain ⟨ha, hcard, hchild⟩ := canonical_split.mp hc
    refine canonical_split.mpr ⟨h ▸ ha, h ▸ hcard, fun i ↦ ih i (hchild i) ?_ ?_⟩
    · exact Subdivision.inside_cell_congr h hpos i
    · intro b hb
      exact hpos b (Multiset.mem_of_le (Subdivision.inside_cell_le r i S) hb)

theorem Canonical.mono_family {S S' : Multiset α} {r : R} {t : PointTree ι α}
    (hc : Canonical D pos S r t) (h : D.inside pos r S = D.inside pos r S') :
    Canonical D pos S' r t := hc.congr h fun _ _ ↦ rfl

/-! ### Uniqueness -/

/-- The same tree up to the residents of its splits. -/
def SameShape : PointTree ι α → PointTree ι α → Prop
  | empty, empty => True
  | leaf a, leaf b => a = b
  | split _ child, split _ child' => ∀ i, SameShape (child i) (child' i)
  | _, _ => False

/-- Two trees of the same shape are taken apart together. -/
@[elab_as_elim]
theorem SameShape.induction {motive : ∀ t t' : PointTree ι α, SameShape t t' → Prop}
    (empty : motive empty empty trivial) (leaf : ∀ a, motive (leaf a) (leaf a) rfl)
    (split : ∀ (a b : α) (child child' : ι → PointTree ι α)
      (h : SameShape (split a child) (split b child')),
      (∀ i, motive (child i) (child' i) (h i)) → motive (split a child) (split b child') h)
    {t t' : PointTree ι α} (h : SameShape t t') : motive t t' h := by
  induction t generalizing t' with
  | empty =>
    cases t' with
    | empty => exact empty
    | leaf b => exact h.elim
    | split b child' => exact h.elim
  | leaf a =>
    cases t' with
    | empty => exact h.elim
    | leaf b =>
      obtain rfl : a = b := h
      exact leaf a
    | split b child' => exact h.elim
  | split a child ih =>
    cases t' with
    | empty => exact h.elim
    | leaf b => exact h.elim
    | split b child' => exact split a b child child' h fun i ↦ ih i (h i)

/-- A family has at most one canonical tree, up to residents. -/
theorem Canonical.sameShape {S : Multiset α} {r : R} {t t' : PointTree ι α}
    (h : Canonical D pos S r t) (h' : Canonical D pos S r t') : SameShape t t' := by
  -- the number of members inside the region decides the constructor on both sides
  induction t generalizing r t' with
  | empty =>
    rw [canonical_empty] at h
    cases t' with
    | empty => trivial
    | leaf b => simp [h] at h'
    | split b child' => simp [h] at h'
  | leaf a =>
    rw [canonical_leaf] at h
    cases t' with
    | empty => simp [h] at h'
    | leaf b => exact Multiset.singleton_inj.mp (h.symm.trans (canonical_leaf.mp h'))
    | split b child' => simp [h] at h'
  | split a child ih =>
    obtain ⟨ha, hcard, hchild⟩ := canonical_split.mp h
    cases t' with
    | empty => simp [canonical_empty.mp h'] at ha
    | leaf b => simp [canonical_leaf.mp h'] at hcard
    | split b child' => exact fun i ↦ ih i (hchild i) ((canonical_split.mp h').2.2 i)

/-! ### Subtrees -/

/-- The subtree at the end of a path of labels. -/
def subtree : PointTree ι α → List ι → Option (PointTree ι α)
  | t, [] => some t
  | split _ child, i :: path => subtree (child i) path
  | _, _ :: _ => none

@[simp] theorem subtree_nil (t : PointTree ι α) : t.subtree [] = some t := by
  cases t <;> rfl

@[simp] theorem subtree_split_cons (a : α) (child : ι → PointTree ι α) (i : ι) (path : List ι) :
    (split a child).subtree (i :: path) = (child i).subtree path := rfl

theorem subtree_append (t : PointTree ι α) (path path' : List ι) :
    t.subtree (path ++ path') = (t.subtree path).bind fun u ↦ u.subtree path' := by
  induction path generalizing t with
  | nil => rw [List.nil_append, subtree_nil, Option.bind_some]
  | cons i path ih =>
    cases t with
    | empty => rfl
    | leaf a => rfl
    | split a child => exact ih (child i)

theorem eq_of_subtree {t u : PointTree ι α} {path : List ι} (ht : ∀ a child, t ≠ split a child)
    (h : t.subtree path = some u) : path = [] ∧ u = t := by
  cases path with
  | nil =>
    rw [subtree_nil, Option.some.injEq] at h
    exact ⟨rfl, h.symm⟩
  | cons i path =>
    cases t with
    | empty => exact absurd h (by simp [PointTree.subtree])
    | leaf a => exact absurd h (by simp [PointTree.subtree])
    | split a child => exact absurd rfl (ht a child)

theorem Canonical.subtree {S : Multiset α} {r : R} {t u : PointTree ι α} {path : List ι}
    (hc : Canonical D pos S r t) (h : t.subtree path = some u) :
    Canonical D pos S (D.descend r path) u := by
  induction path generalizing r t with
  | nil =>
    rw [subtree_nil, Option.some.injEq] at h
    exact h ▸ hc
  | cons i path ih =>
    cases t with
    | empty => exact absurd (eq_of_subtree (by simp) h).1 (List.cons_ne_nil i path)
    | leaf a => exact absurd (eq_of_subtree (by simp) h).1 (List.cons_ne_nil i path)
    | split a child => exact ih ((canonical_split.mp hc).2.2 i) h

/-- In a canonical tree every region with two members is the region of some split. -/
theorem Canonical.exists_split_of_two_le {S : Multiset α} {r : R} {t : PointTree ι α}
    {path : List ι} (hc : Canonical D pos S r t)
    (h : 2 ≤ (D.inside pos (D.descend r path) S).card) :
    ∃ a child, t.subtree path = some (split a child) := by
  induction path generalizing r t with
  | nil =>
    cases t with
    | empty => simp [canonical_empty.mp hc] at h
    | leaf a => simp [canonical_leaf.mp hc] at h
    | split a child => exact ⟨a, child, subtree_nil _⟩
  | cons i path ih =>
    have hle := Multiset.card_le_card (D.inside_descend_le pos r (i :: path) S)
    cases t with
    | empty =>
      rw [canonical_empty.mp hc, Multiset.card_zero] at hle
      omega
    | leaf a =>
      rw [canonical_leaf.mp hc, Multiset.card_singleton] at hle
      omega
    | split a child => exact ih ((canonical_split.mp hc).2.2 i) h

/-! ### The constructor of a canonical tree -/

theorem Canonical.eq_empty {S : Multiset α} {r : R} {t : PointTree ι α}
    (hc : Canonical D pos S r t) (h : D.inside pos r S = 0) : t = empty := by
  cases t with
  | empty => rfl
  | leaf b => simp [h] at hc
  | split b child => simp [h] at hc

theorem Canonical.eq_leaf {S : Multiset α} {r : R} {t : PointTree ι α} {a : α}
    (hc : Canonical D pos S r t) (h : D.inside pos r S = {a}) : t = leaf a := by
  cases t with
  | empty => simp [h] at hc
  | leaf b => rw [Multiset.singleton_inj.mp (h.symm.trans (canonical_leaf.mp hc))]
  | split b child => simp [h] at hc

/-- One split with at most one point in each cell. -/
def spread (a : α) (place : ι → Option α) : PointTree ι α :=
  split a fun i ↦ (place i).elim empty leaf

theorem Canonical.eq_spread {S : Multiset α} {r : R} {t : PointTree ι α}
    (hc : Canonical D pos S r t) (place : ι → Option α) (hroot : 2 ≤ (D.inside pos r S).card)
    (hplace : ∀ i, D.inside pos (D.cell r i) S = ((place i).toList : Multiset α)) :
    ∃ a, t = spread a place := by
  have hroot' : 2 ≤ (D.inside pos (D.descend r []) S).card := hroot
  obtain ⟨a, child, hsub⟩ := hc.exists_split_of_two_le hroot'
  rw [subtree_nil, Option.some.injEq] at hsub
  subst hsub
  refine ⟨a, congrArg (split a) (funext fun i ↦ ?_)⟩
  have hchild := (canonical_split.mp hc).2.2 i
  have hinside := hplace i
  cases hp : place i with
  | none =>
    rw [hp] at hinside
    exact hchild.eq_empty hinside
  | some b =>
    rw [hp] at hinside
    exact hchild.eq_leaf hinside

/-! ### The points the leaves hold -/

section Leaves

variable [Fintype ι]

/-- The points held by the leaves. -/
def leaves : PointTree ι α → Multiset α
  | empty => 0
  | leaf a => {a}
  | split _ child => ∑ i, leaves (child i)

@[simp] theorem leaves_empty : (empty : PointTree ι α).leaves = 0 := rfl

@[simp] theorem leaves_leaf (a : α) : (leaf a : PointTree ι α).leaves = {a} := rfl

@[simp] theorem leaves_split (a : α) (child : ι → PointTree ι α) :
    (split a child).leaves = ∑ i, (child i).leaves := rfl

theorem mem_leaves_split {a b : α} {child : ι → PointTree ι α} :
    b ∈ (split a child).leaves ↔ ∃ i, b ∈ (child i).leaves := by
  rw [leaves_split, Multiset.mem_sum]
  exact ⟨fun ⟨i, _, h⟩ ↦ ⟨i, h⟩, fun ⟨i, h⟩ ↦ ⟨i, Finset.mem_univ i, h⟩⟩

variable (D pos) in
/-- The point lies, in `r` or in some region below it, on a cut that two members force. -/
def Lost (S : Multiset α) (r : R) (a : α) : Prop :=
  ∃ path, D.Mem (D.descend r path) (pos a) ∧ 2 ≤ (D.inside pos (D.descend r path) S).card ∧
    ∀ i, ¬D.Mem (D.cell (D.descend r path) i) (pos a)

omit [Fintype ι] in
theorem not_lost_of_card_le_one {S : Multiset α} {r : R} {a : α}
    (h : (D.inside pos r S).card ≤ 1) : ¬Lost D pos S r a := by
  rintro ⟨path, _, hcard, _⟩
  have hle := Multiset.card_le_card (D.inside_descend_le pos r path S)
  omega

omit [Fintype ι] in
/-- Below the cell that a point lies in, nothing changes. -/
theorem lost_cell_iff {S : Multiset α} {r : R} {a : α} {i : ι} (h : D.Mem (D.cell r i) (pos a)) :
    Lost D pos S (D.cell r i) a ↔ Lost D pos S r a := by
  constructor
  · rintro ⟨path, hmem, hcard, hcut⟩
    exact ⟨i :: path, hmem, hcard, hcut⟩
  · rintro ⟨path, hmem, hcard, hcut⟩
    cases path with
    | nil => exact absurd h (hcut i)
    | cons j path =>
      obtain rfl := D.eq_of_mem_cell h (D.mem_of_mem_descend hmem)
      exact ⟨path, hmem, hcard, hcut⟩

omit [Fintype ι] in
/-- One more member loses those that share a region with it on whose cut they lie. -/
theorem lost_cons_iff {S : Multiset α} {r : R} {a b : α} (hb : b ∈ S) :
    Lost D pos (a ::ₘ S) r b ↔ Lost D pos S r b ∨ ∃ path, D.Mem (D.descend r path) (pos a) ∧
      D.Mem (D.descend r path) (pos b) ∧ ∀ i, ¬D.Mem (D.cell (D.descend r path) i) (pos b) := by
  constructor
  · rintro ⟨path, hmem, hcard, hcut⟩
    by_cases ha : D.Mem (D.descend r path) (pos a)
    · exact Or.inr ⟨path, ha, hmem, hcut⟩
    · rw [Subdivision.inside_cons_of_not_mem ha] at hcard
      exact Or.inl ⟨path, hmem, hcard, hcut⟩
  · rintro (⟨path, hmem, hcard, hcut⟩ | ⟨path, ha, hmem, hcut⟩)
    · have hsub : D.inside pos (D.descend r path) S
          ≤ D.inside pos (D.descend r path) (a ::ₘ S) :=
        D.inside_mono (Multiset.le_cons_self S a)
      have hle := Multiset.card_le_card hsub
      exact ⟨path, hmem, hcard.trans hle, hcut⟩
    · have hpos := Multiset.card_pos_iff_exists_mem.mpr
        ⟨b, Subdivision.mem_inside.mpr ⟨hb, hmem⟩⟩
      refine ⟨path, hmem, ?_, hcut⟩
      rw [Subdivision.inside_cons_of_mem ha, Multiset.card_cons]
      omega

theorem Canonical.mem_of_mem_leaves {S : Multiset α} {r : R} {t : PointTree ι α} {a : α}
    (hc : Canonical D pos S r t) (h : a ∈ t.leaves) : a ∈ S ∧ D.Mem r (pos a) := by
  induction t generalizing r with
  | empty => simp at h
  | leaf b =>
    rw [leaves_leaf, Multiset.mem_singleton] at h
    rw [← Subdivision.mem_inside, canonical_leaf.mp hc, h]
    exact Multiset.mem_singleton_self b
  | split b child ih =>
    obtain ⟨i, hi⟩ := mem_leaves_split.mp h
    obtain ⟨hS, hr⟩ := ih i ((canonical_split.mp hc).2.2 i) hi
    exact ⟨hS, D.mem_of_mem_cell hr⟩

theorem Canonical.exists_unique_child {S : Multiset α} {r : R} {a b : α}
    {child : ι → PointTree ι α} (hc : Canonical D pos S r (split a child))
    (h : b ∈ (split a child).leaves) :
    ∃ i, b ∈ (child i).leaves ∧ ∀ j, j ≠ i → b ∉ (child j).leaves := by
  have hchild := (canonical_split.mp hc).2.2
  obtain ⟨i, hi⟩ := mem_leaves_split.mp h
  refine ⟨i, hi, fun j hji hj ↦ hji ?_⟩
  exact D.eq_of_mem_cell ((hchild j).mem_of_mem_leaves hj).2 ((hchild i).mem_of_mem_leaves hi).2

/-- **What a canonical tree holds.** The leaves hold exactly the members inside the region that are
not lost on a cut. -/
theorem Canonical.mem_leaves_iff {S : Multiset α} {r : R} {t : PointTree ι α} {a : α}
    (hc : Canonical D pos S r t) :
    a ∈ t.leaves ↔ a ∈ D.inside pos r S ∧ ¬Lost D pos S r a := by
  induction t generalizing r with
  | empty => simp [canonical_empty.mp hc]
  | leaf b =>
    have hcard : (D.inside pos r S).card ≤ 1 := by simp [canonical_leaf.mp hc]
    rw [leaves_leaf, canonical_leaf.mp hc]
    exact ⟨fun h ↦ ⟨h, not_lost_of_card_le_one hcard⟩, And.left⟩
  | split b child ih =>
    obtain ⟨_, hcard, hchild⟩ := canonical_split.mp hc
    rw [mem_leaves_split]
    constructor
    · rintro ⟨i, hi⟩
      obtain ⟨hin, hlost⟩ := (ih i (hchild i)).mp hi
      have hmem := (Subdivision.mem_inside.mp hin).2
      exact ⟨Multiset.mem_of_le (Subdivision.inside_cell_le r i S) hin,
        fun h ↦ hlost ((lost_cell_iff hmem).mpr h)⟩
    · rintro ⟨hin, hlost⟩
      obtain ⟨hS, hmem⟩ := Subdivision.mem_inside.mp hin
      -- a member in no cell would be lost on this very cut
      have hcell : ∃ i, D.Mem (D.cell r i) (pos a) := by
        by_contra hnone
        exact hlost ⟨[], hmem, hcard, fun i hi ↦ hnone ⟨i, hi⟩⟩
      obtain ⟨i, hi⟩ := hcell
      exact ⟨i, (ih i (hchild i)).mpr
        ⟨Subdivision.mem_inside.mpr ⟨hS, hi⟩, fun h ↦ hlost ((lost_cell_iff hi).mp h)⟩⟩

variable (D pos) in
open Classical in
/-- The members inside the region that are not lost on a cut. -/
noncomputable def kept (S : Multiset α) (r : R) : Multiset α :=
  (D.inside pos r S).filter fun a ↦ ¬Lost D pos S r a

omit [Fintype ι] in
theorem mem_kept {S : Multiset α} {r : R} {a : α} :
    a ∈ kept D pos S r ↔ a ∈ D.inside pos r S ∧ ¬Lost D pos S r a := by
  classical
  rw [kept, Multiset.mem_filter]

omit [Fintype ι] in
/-- In the cell that a point lies in, as many copies of it are kept as in the region. -/
theorem count_kept_cell [DecidableEq α] {S : Multiset α} {r : R} {a : α} {i : ι}
    (h : D.Mem (D.cell r i) (pos a)) :
    (kept D pos S (D.cell r i)).count a = (kept D pos S r).count a := by
  classical
  have hr : D.Mem r (pos a) := D.mem_of_mem_cell h
  simp only [kept, Subdivision.inside, Multiset.count_filter, lost_cell_iff h, h, hr, if_true]

/-- **What a canonical tree holds**, as a family. -/
theorem Canonical.leaves_eq_kept {S : Multiset α} {r : R} {t : PointTree ι α}
    (hc : Canonical D pos S r t) : t.leaves = kept D pos S r := by
  classical
  induction t generalizing r with
  | empty => rw [leaves_empty, kept, canonical_empty.mp hc, Multiset.filter_zero]
  | leaf b =>
    have hcard : (D.inside pos r S).card ≤ 1 := by simp [canonical_leaf.mp hc]
    rw [kept, Multiset.filter_eq_self.mpr fun a _ ↦ not_lost_of_card_le_one hcard,
      canonical_leaf.mp hc, leaves_leaf]
  | split b child ih =>
    obtain ⟨_, hcard, hchild⟩ := canonical_split.mp hc
    have hnot : ∀ {a i}, ¬D.Mem (D.cell r i) (pos a) →
        (kept D pos S (D.cell r i)).count a = 0 := fun hcell ↦
      Multiset.count_eq_zero.mpr fun ha ↦ hcell (Subdivision.mem_inside.mp (mem_kept.mp ha).1).2
    ext a
    simp only [leaves_split, ih _ (hchild _), Multiset.count_sum']
    by_cases hcell : ∃ i, D.Mem (D.cell r i) (pos a)
    · obtain ⟨i, hi⟩ := hcell
      rw [← count_kept_cell hi]
      refine Finset.sum_eq_single i (fun j _ hji ↦ hnot fun hj ↦ hji ?_) fun h ↦ ?_
      · exact D.eq_of_mem_cell hj hi
      · exact absurd (Finset.mem_univ i) h
    · -- a member in no cell is lost on this very cut
      rw [Finset.sum_eq_zero fun i _ ↦ hnot fun hi ↦ hcell ⟨i, hi⟩]
      refine (Multiset.count_eq_zero.mpr fun ha ↦ ?_).symm
      obtain ⟨hin, hlost⟩ := mem_kept.mp ha
      exact hlost ⟨[], (Subdivision.mem_inside.mp hin).2, hcard, fun i hi ↦ hcell ⟨i, hi⟩⟩

theorem Canonical.count_leaves_le_one [DecidableEq α] {S : Multiset α} {r : R}
    {t : PointTree ι α} (hc : Canonical D pos S r t) (a : α) : t.leaves.count a ≤ 1 := by
  induction t generalizing r with
  | empty => simp
  | leaf b =>
    rw [leaves_leaf, Multiset.count_singleton]
    split <;> omega
  | split b child ih =>
    have hchild := (canonical_split.mp hc).2.2
    rw [leaves_split, Multiset.count_sum']
    by_cases h : ∃ i, a ∈ (child i).leaves
    · obtain ⟨i, hi⟩ := h
      -- the point lies in the cell of one child only, so the other children do not hold it
      rw [Finset.sum_eq_single i]
      · exact ih i (hchild i)
      · intro j _ hji
        rw [Multiset.count_eq_zero]
        intro hj
        exact hji (D.eq_of_mem_cell ((hchild j).mem_of_mem_leaves hj).2
          ((hchild i).mem_of_mem_leaves hi).2)
      · exact fun h ↦ absurd (Finset.mem_univ i) h
    · rw [Finset.sum_eq_zero fun i _ ↦ Multiset.count_eq_zero.mpr fun hi ↦ h ⟨i, hi⟩]
      omega

theorem Canonical.count_leaves_eq_one_iff [DecidableEq α] {S : Multiset α} {r : R}
    {t : PointTree ι α} (hc : Canonical D pos S r t) (a : α) :
    t.leaves.count a = 1 ↔ a ∈ D.inside pos r S ∧ ¬Lost D pos S r a := by
  rw [← hc.mem_leaves_iff, ← Multiset.one_le_count_iff_mem]
  have := hc.count_leaves_le_one a
  omega

end Leaves

end PointTree

end Spatial
