import NBodySimulation.Spatial.PointTree

/-!
# Inserting a point into a region tree

Insertion goes down the cells that contain the new point. On a leaf it first cuts the region and
moves the old point into the cell that contains it, and then goes on as on a split. It is a
relation and not a function, because two points that no cut separates would be pushed down for
ever: `Inserts D pos r t a t' accepted` says that inserting `a` into the tree `t` over `r` ends,
with the tree `t'` and the answer `accepted`.

## Main results

* `Inserts.canonical`: a canonical tree stays canonical, for the family with the new point.
* `exists_inserts`: insertion ends whenever the larger family has a canonical tree at all. Whether a
  sequence of insertions ends is therefore a property of the family and not of the order.
* `exists_canonical_iff`: a family has a canonical tree exactly when the regions of some depth
  separate it.
-/

namespace Spatial

variable {ι R P α : Type*}

namespace PointTree

variable (D : Subdivision ι R P) (pos : α → P)

/-! ## Cutting a region -/

/-- The point that a non-empty tree remembers. -/
def resident : PointTree ι α → Option α
  | empty => none
  | leaf a => some a
  | split a _ => some a

/-- The subtrees over the cells of `r`, once the region is cut: a leaf moves its point into the cell
that contains it, or drops it when there is none. -/
def cutAt (r : R) : PointTree ι α → ι → PointTree ι α
  | empty, _ => empty
  | leaf a, i => if D.Mem (D.cell r i) (pos a) then leaf a else empty
  | split _ child, i => child i

variable {D pos}

theorem Canonical.resident_mem {S : Multiset α} {r : R} {t : PointTree ι α} {b : α}
    (hc : Canonical D pos S r t) (h : t.resident = some b) : b ∈ D.inside pos r S := by
  cases t with
  | empty => exact absurd h (by simp [resident])
  | leaf a =>
    rw [resident, Option.some.injEq] at h
    rw [canonical_leaf.mp hc, h]
    exact Multiset.mem_singleton_self b
  | split a child =>
    rw [resident, Option.some.injEq] at h
    exact h ▸ (canonical_split.mp hc).1

theorem Canonical.isSome_resident_iff {S : Multiset α} {r : R} {t : PointTree ι α}
    (hc : Canonical D pos S r t) : t.resident.isSome = true ↔ D.inside pos r S ≠ 0 := by
  cases t with
  | empty => simp [resident, canonical_empty.mp hc]
  | leaf a => simp [resident, canonical_leaf.mp hc]
  | split a child =>
    have ha := (canonical_split.mp hc).1
    refine iff_of_true rfl fun h ↦ ?_
    rw [h] at ha
    exact Multiset.notMem_zero a ha

/-- Cutting a region leaves a canonical tree over each cell. -/
theorem Canonical.cutAt {S : Multiset α} {r : R} {t : PointTree ι α}
    (hc : Canonical D pos S r t) (i : ι) :
    Canonical D pos S (D.cell r i) (PointTree.cutAt D pos r t i) := by
  cases t with
  | empty =>
    rw [PointTree.cutAt, canonical_empty, Subdivision.inside_cell, canonical_empty.mp hc]
    exact Subdivision.inside_zero _
  | leaf a =>
    have hcell : D.inside pos (D.cell r i) S = D.inside pos (D.cell r i) {a} := by
      rw [Subdivision.inside_cell, canonical_leaf.mp hc]
    rw [PointTree.cutAt]
    by_cases h : D.Mem (D.cell r i) (pos a)
    · rw [if_pos h, canonical_leaf, hcell, ← Multiset.cons_zero,
        Subdivision.inside_cons_of_mem h, Subdivision.inside_zero]
    · rw [if_neg h, canonical_empty, hcell, ← Multiset.cons_zero,
        Subdivision.inside_cons_of_not_mem h, Subdivision.inside_zero]
  | split a child => exact (canonical_split.mp hc).2.2 i

theorem Canonical.cons_of_not_mem {S : Multiset α} {r : R} {t : PointTree ι α} {a : α}
    (hc : Canonical D pos S r t) (h : ¬D.Mem r (pos a)) : Canonical D pos (a ::ₘ S) r t :=
  hc.mono_family (Subdivision.inside_cons_of_not_mem h).symm

/-- A split over a region with a resident and one more member is canonical as soon as its children
are. -/
private theorem canonical_split_cons {S : Multiset α} {r : R} {a b : α}
    {child : ι → PointTree ι α} (hb : b ∈ D.inside pos r S) (ha : D.Mem r (pos a))
    (hchild : ∀ i, Canonical D pos (a ::ₘ S) (D.cell r i) (child i)) :
    Canonical D pos (a ::ₘ S) r (split b child) := by
  refine canonical_split.mpr ⟨?_, ?_, hchild⟩
  · rw [Subdivision.inside_cons_of_mem ha]
    exact Multiset.mem_cons_of_mem hb
  · rw [Subdivision.inside_cons_of_mem ha, Multiset.card_cons]
    have := Multiset.card_pos_iff_exists_mem.mpr ⟨b, hb⟩
    omega

/-! ## The insertion relation -/

variable [DecidableEq ι]

variable (D pos) in
/-- Inserting `a` into the tree `t` over `r` ends with the tree `t'` and an answer. -/
inductive Inserts : R → PointTree ι α → α → PointTree ι α → Bool → Prop
  | outside {r t a} : ¬D.Mem r (pos a) → Inserts r t a t false
  | fresh {r a} : D.Mem r (pos a) → Inserts r empty a (leaf a) true
  | lost {r t a b} : D.Mem r (pos a) → t.resident = some b →
      (∀ i, ¬D.Mem (D.cell r i) (pos a)) → Inserts r t a (split b (cutAt D pos r t)) false
  | descend {r t a b i t' accepted} : t.resident = some b → D.Mem (D.cell r i) (pos a) →
      Inserts (D.cell r i) (cutAt D pos r t i) a t' accepted →
      Inserts r t a (split b (Function.update (cutAt D pos r t) i t')) accepted

/-! ## Canonical trees stay canonical -/

/-- **Insertion keeps trees canonical.** -/
theorem Inserts.canonical {S : Multiset α} {r : R} {t t' : PointTree ι α} {a : α}
    {accepted : Bool} (h : Inserts D pos r t a t' accepted) (hc : Canonical D pos S r t) :
    Canonical D pos (a ::ₘ S) r t' := by
  induction h with
  | outside hout => exact hc.cons_of_not_mem hout
  | fresh hin =>
    rw [canonical_leaf, Subdivision.inside_cons_of_mem hin, canonical_empty.mp hc,
      Multiset.cons_zero]
  | lost hin hres hcut =>
    exact canonical_split_cons (hc.resident_mem hres) hin
      fun i ↦ (hc.cutAt i).cons_of_not_mem (hcut i)
  | @descend r t a b i t' accepted hres hcell _ ih =>
    refine canonical_split_cons (hc.resident_mem hres) (D.mem_of_mem_cell hcell) fun j ↦ ?_
    by_cases hji : j = i
    · subst hji
      rw [Function.update_self]
      exact ih (hc.cutAt j)
    · rw [Function.update_of_ne hji]
      exact (hc.cutAt j).cons_of_not_mem fun hj ↦ hji (D.eq_of_mem_cell hj hcell)

/-! ## What the leaves hold afterwards -/

section Leaves

variable [Fintype ι]

omit [DecidableEq ι] in
theorem not_mem_leaves_cutAt {r : R} {t : PointTree ι α} {a : α} (h : a ∉ t.leaves) (i : ι) :
    a ∉ (PointTree.cutAt D pos r t i).leaves := by
  cases t with
  | empty => exact h
  | leaf b =>
    rw [PointTree.cutAt]
    split
    · exact h
    · exact Multiset.notMem_zero a
  | split b child => exact fun hi ↦ h (mem_leaves_split.mpr ⟨i, hi⟩)

/-- **The answer tells whether a new point is held.** -/
theorem Inserts.count_leaves [DecidableEq α] {r : R} {t t' : PointTree ι α} {a : α}
    {accepted : Bool} (h : Inserts D pos r t a t' accepted) (hnew : a ∉ t.leaves) :
    t'.leaves.count a = accepted.toNat := by
  induction h with
  | outside _ => exact Multiset.count_eq_zero.mpr hnew
  | fresh _ => rw [leaves_leaf, Multiset.count_singleton_self, Bool.toNat_true]
  | lost _ _ _ =>
    refine Multiset.count_eq_zero.mpr fun hmem ↦ ?_
    obtain ⟨i, hi⟩ := mem_leaves_split.mp hmem
    exact not_mem_leaves_cutAt hnew i hi
  | @descend r t a b i t' accepted _ _ _ ih =>
    rw [leaves_split, Multiset.count_sum', Finset.sum_eq_single i]
    · rw [Function.update_self]
      exact ih (not_mem_leaves_cutAt hnew i)
    · intro j _ hji
      rw [Function.update_of_ne hji]
      exact Multiset.count_eq_zero.mpr (not_mem_leaves_cutAt hnew j)
    · exact fun hi ↦ absurd (Finset.mem_univ i) hi

end Leaves

theorem Inserts.resident_eq {r : R} {t t' : PointTree ι α} {a : α}
    (h : Inserts D pos r t a t' false) : t'.resident = t.resident := by
  cases h with
  | outside _ => rfl
  | lost _ hres _ => exact hres.symm
  | descend hres _ _ => exact hres.symm

/-! ## Insertion ends -/

/-- **Insertion into a canonical tree ends** when the family with the new point is part of one that
has a canonical tree. The induction is on that tree, so the order in which the points came does not
matter. -/
theorem exists_inserts {S T : Multiset α} {r : R} {t u : PointTree ι α} {a : α}
    (hu : Canonical D pos T r u) (hc : Canonical D pos S r t) (hle : a ::ₘ S ≤ T) :
    ∃ t' accepted, Inserts D pos r t a t' accepted := by
  induction u generalizing r t with
  | empty =>
    by_cases hin : D.Mem r (pos a)
    · have hmem : a ∈ D.inside pos r T :=
        Subdivision.mem_inside.mpr ⟨Multiset.mem_of_le hle (Multiset.mem_cons_self a S), hin⟩
      rw [canonical_empty.mp hu] at hmem
      exact absurd hmem (Multiset.notMem_zero a)
    · exact ⟨t, false, .outside hin⟩
  | leaf c =>
    by_cases hin : D.Mem r (pos a)
    · -- the new point is the only one inside, so the region was empty
      have hsub : D.inside pos r (a ::ₘ S) ≤ D.inside pos r T := Subdivision.inside_mono hle
      have hcard := Multiset.card_le_card hsub
      rw [canonical_leaf.mp hu, Multiset.card_singleton, Subdivision.inside_cons_of_mem hin,
        Multiset.card_cons] at hcard
      have hnil : D.inside pos r S = 0 := Multiset.card_eq_zero.mp (by omega)
      cases t with
      | empty => exact ⟨leaf a, true, .fresh hin⟩
      | leaf b => simp [canonical_leaf.mp hc] at hnil
      | split b child => simp [hnil] at hc
    · exact ⟨t, false, .outside hin⟩
  | split c child ih =>
    by_cases hin : D.Mem r (pos a)
    · cases hres : t.resident with
      | none =>
        cases t with
        | empty => exact ⟨leaf a, true, .fresh hin⟩
        | leaf b => exact absurd hres (by simp [resident])
        | split b child => exact absurd hres (by simp [resident])
      | some b =>
        by_cases hcell : ∃ i, D.Mem (D.cell r i) (pos a)
        · obtain ⟨i, hi⟩ := hcell
          obtain ⟨t', accepted, h⟩ := ih i ((canonical_split.mp hu).2.2 i) (hc.cutAt i)
          exact ⟨_, accepted, .descend hres hi h⟩
        · exact ⟨_, false, .lost hin hres fun i hi ↦ hcell ⟨i, hi⟩⟩
    · exact ⟨t, false, .outside hin⟩

omit [DecidableEq ι] in
/-- **A family that some depth separates has a canonical tree.** -/
theorem exists_canonical {S : Multiset α} {n : ℕ} {r : R}
    (h : ∀ path : List ι, path.length = n → (D.inside pos (D.descend r path) S).card ≤ 1) :
    ∃ t : PointTree ι α, Canonical D pos S r t := by
  -- a region with at most one member needs no cut
  have small : ∀ {r : R}, (D.inside pos r S).card ≤ 1 →
      ∃ t : PointTree ι α, Canonical D pos S r t := by
    intro r hr
    rcases Nat.le_one_iff_eq_zero_or_eq_one.mp hr with h0 | h1
    · exact ⟨empty, canonical_empty.mpr (Multiset.card_eq_zero.mp h0)⟩
    · obtain ⟨a, ha⟩ := Multiset.card_eq_one.mp h1
      exact ⟨leaf a, canonical_leaf.mpr ha⟩
  induction n generalizing r with
  | zero => exact small (h [] rfl)
  | succ n ih =>
    by_cases hr : (D.inside pos r S).card ≤ 1
    · exact small hr
    · have hchild : ∀ i, ∃ t : PointTree ι α, Canonical D pos S (D.cell r i) t := fun i ↦
        ih fun path hlen ↦ h (i :: path) (by rw [List.length_cons, hlen])
      choose child hchild using hchild
      obtain ⟨a, ha⟩ :=
        Multiset.card_pos_iff_exists_mem.mp (show 0 < (D.inside pos r S).card by omega)
      exact ⟨split a child, canonical_split.mpr ⟨ha, by omega, hchild⟩⟩

omit [DecidableEq ι] in
/-- The regions below the leaves of a canonical tree have at most one member each. -/
theorem Canonical.exists_depth [Finite ι] {S : Multiset α} {r : R} {t : PointTree ι α}
    (hc : Canonical D pos S r t) : ∃ n, ∀ path : List ι, n ≤ path.length →
      (D.inside pos (D.descend r path) S).card ≤ 1 := by
  induction t generalizing r with
  | empty =>
    refine ⟨0, fun path _ ↦ (Multiset.card_le_card (D.inside_descend_le pos r path S)).trans ?_⟩
    simp [canonical_empty.mp hc]
  | leaf a =>
    refine ⟨0, fun path _ ↦ (Multiset.card_le_card (D.inside_descend_le pos r path S)).trans ?_⟩
    simp [canonical_leaf.mp hc]
  | split a child ih =>
    choose depth hdepth using fun i ↦ ih i ((canonical_split.mp hc).2.2 i)
    obtain ⟨m, hm⟩ := Finite.bddAbove_range depth
    refine ⟨m + 1, fun path hlen ↦ ?_⟩
    cases path with
    | nil => exact absurd hlen (by simp)
    | cons i path =>
      have hi : depth i ≤ m := hm ⟨i, rfl⟩
      rw [List.length_cons] at hlen
      exact hdepth i path (by omega)

omit [DecidableEq ι] in
/-- **A family has a canonical tree exactly when the regions of some depth separate it.** -/
theorem exists_canonical_iff [Finite ι] {S : Multiset α} {r : R} :
    (∃ t : PointTree ι α, Canonical D pos S r t) ↔ ∃ n, ∀ path : List ι, path.length = n →
      (D.inside pos (D.descend r path) S).card ≤ 1 := by
  constructor
  · rintro ⟨t, hc⟩
    obtain ⟨n, hn⟩ := hc.exists_depth
    exact ⟨n, fun path hlen ↦ hn path hlen.ge⟩
  · rintro ⟨n, hn⟩
    exact exists_canonical hn

end PointTree

end Spatial
