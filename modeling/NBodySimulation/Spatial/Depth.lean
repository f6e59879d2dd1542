import Mathlib.Algebra.Order.BigOperators.Group.Multiset
import NBodySimulation.Spatial.Insertion
import NBodySimulation.Spatial.Regions

/-!
# How deep and how large region trees are

The height of a canonical tree is the depth of subdivision that separates its family: it is at most
`n` exactly when no region of depth `n` has two members. An insertion never makes a tree lower.

A search that starts at the root and goes on beneath some of the splits opens a finite set of
splits. On one level their regions are disjoint and have two members each, so one level has at most
half as many of them as there are members, and a search opens no more than that on each of the
levels above the height.

## Main results

* `Canonical.height_le_iff`: the height of a canonical tree.
* `card_le_of_levels`: a set of paths, counted level by level.
* `Canonical.two_mul_card_opened_level_le`: the splits opened on one level.
-/

namespace Spatial

variable {ι R P α : Type*} {D : Subdivision ι R P} {pos : α → P}

/-! ## Regions of one depth -/

/-- The members inside a region are inside every region above it. -/
theorem Subdivision.inside_descend_take_le (pos : α → P) (r : R) (path : List ι) (n : ℕ)
    (S : Multiset α) :
    D.inside pos (D.descend r path) S ≤ D.inside pos (D.descend r (path.take n)) S := by
  have hsplit : D.descend r path = D.descend (D.descend r (path.take n)) (path.drop n) := by
    rw [descend, descend, descend, ← List.foldl_append, List.take_append_drop]
  rw [hsplit]
  exact D.inside_descend_le pos _ _ S

theorem Subdivision.sum_card_inside_le [DecidableEq α] {s : Finset (List ι)} {n : ℕ}
    (hlen : ∀ path ∈ s, path.length = n) (r : R) (S : Multiset α) :
    ∑ path ∈ s, (D.inside pos (D.descend r path) S).card ≤ (D.inside pos r S).card := by
  rw [← Multiset.card_sum]
  refine Multiset.card_le_card (Multiset.le_iff_count.mpr fun a ↦ ?_)
  rw [Multiset.count_sum']
  by_cases hmem : ∃ path ∈ s, a ∈ D.inside pos (D.descend r path) S
  · obtain ⟨path, hpath, ha⟩ := hmem
    -- the member is inside the region of one path only
    rw [Finset.sum_eq_single path]
    · exact Multiset.count_le_of_le a (D.inside_descend_le pos r path S)
    · intro path' hpath' hne
      rw [Multiset.count_eq_zero]
      intro ha'
      have heq : path'.length = path.length := (hlen _ hpath').trans (hlen _ hpath).symm
      rcases D.comparable_of_mem (mem_inside.mp ha').2 (mem_inside.mp ha).2 with h | h
      · exact hne (h.eq_of_length heq)
      · exact hne (h.eq_of_length heq.symm).symm
    · exact fun h ↦ absurd hpath h
  · rw [Finset.sum_eq_zero fun path hpath ↦
      Multiset.count_eq_zero.mpr fun ha ↦ hmem ⟨path, hpath, ha⟩]
    exact Nat.zero_le _

namespace PointTree

/-! ## Height -/

section Height

variable [Fintype ι]

/-- The number of splits on the longest way down. -/
def height : PointTree ι α → ℕ
  | empty => 0
  | leaf _ => 0
  | split _ child => (Finset.univ.sup fun i ↦ height (child i)) + 1

@[simp] theorem height_empty : (empty : PointTree ι α).height = 0 := rfl

@[simp] theorem height_leaf (a : α) : (leaf a : PointTree ι α).height = 0 := rfl

theorem height_split_pos (a : α) (child : ι → PointTree ι α) : 0 < (split a child).height :=
  Nat.succ_pos _

theorem height_split_le_iff {a : α} {child : ι → PointTree ι α} {n : ℕ} :
    (split a child).height ≤ n + 1 ↔ ∀ i, (child i).height ≤ n := by
  rw [height, Nat.add_le_add_iff_right, Finset.sup_le_iff]
  exact ⟨fun h i ↦ h i (Finset.mem_univ i), fun h i _ ↦ h i⟩

theorem height_le_iff {t : PointTree ι α} {n : ℕ} :
    t.height ≤ n ↔ ∀ path, t.SplitsAt path → path.length < n := by
  induction t generalizing n with
  | empty =>
    refine iff_of_true (Nat.zero_le n) ?_
    rintro path ⟨a, child, hsub⟩
    exact absurd (eq_of_subtree (by simp) hsub).2 (by simp)
  | leaf b =>
    refine iff_of_true (Nat.zero_le n) ?_
    rintro path ⟨a, child, hsub⟩
    exact absurd (eq_of_subtree (by simp) hsub).2 (by simp)
  | split b child ih =>
    cases n with
    | zero =>
      refine iff_of_false (Nat.not_le.mpr (height_split_pos b child)) fun h ↦ ?_
      exact absurd (h [] splitsAt_split_nil) (Nat.not_lt_zero _)
    | succ n =>
      rw [height_split_le_iff]
      constructor
      · intro h path hpath
        cases path with
        | nil => exact Nat.succ_pos n
        | cons i path => exact Nat.succ_lt_succ ((ih i).mp (h i) path hpath)
      · intro h i
        exact (ih i).mpr fun path hpath ↦
          Nat.lt_of_succ_lt_succ (h (i :: path) (splitsAt_split_cons.mpr hpath))

/-- **The height of a canonical tree** is the depth of subdivision that separates its family. -/
theorem Canonical.height_le_iff {S : Multiset α} {r : R} {t : PointTree ι α} {n : ℕ}
    (hc : Canonical D pos S r t) : t.height ≤ n ↔
      ∀ path : List ι, path.length = n → (D.inside pos (D.descend r path) S).card ≤ 1 := by
  rw [PointTree.height_le_iff]
  constructor
  · intro h path hlen
    by_contra htwo
    exact absurd (h path (hc.exists_split_of_two_le (by omega))) (by omega)
  · rintro h path ⟨a, child, hsub⟩
    by_contra hlen
    have htwo := (canonical_split.mp (hc.subtree hsub)).2.1
    have hle := Multiset.card_le_card (D.inside_descend_take_le pos r path n S)
    have hone := h (path.take n) (by rw [List.length_take]; omega)
    omega

theorem Canonical.height_mono {S T : Multiset α} {r : R} {t u : PointTree ι α}
    (ht : Canonical D pos S r t) (hu : Canonical D pos T r u) (hle : S ≤ T) :
    t.height ≤ u.height := by
  refine ht.height_le_iff.mpr fun path hlen ↦ ?_
  refine (Multiset.card_le_card (D.inside_mono hle)).trans ?_
  exact hu.height_le_iff.mp le_rfl path hlen

/-- Cutting a leaf gives trees that are not split. -/
theorem height_cutAt_le {r : R} {t : PointTree ι α} {n : ℕ} (h : t.height ≤ n + 1) (i : ι) :
    (cutAt D pos r t i).height ≤ n := by
  cases t with
  | empty => exact Nat.zero_le n
  | leaf a =>
    rw [cutAt]
    split
    · exact Nat.zero_le n
    · exact Nat.zero_le n
  | split a child => exact height_split_le_iff.mp h i

end Height

/-! ## The splits that a search opens -/

section Opened

variable [Fintype ι] [DecidableEq ι]

variable (D) in
/-- The splits that a search opens, by their paths, when it goes on beneath those that `go`
allows. -/
def opened (go : R → PointTree ι α → Bool) : R → PointTree ι α → Finset (List ι)
  | _, empty => ∅
  | _, leaf _ => ∅
  | r, split a child =>
    if go r (split a child) then
      insert [] (Finset.univ.biUnion fun i ↦
        (opened go (D.cell r i) (child i)).map ⟨List.cons i, List.cons_injective⟩)
    else ∅

variable {go : R → PointTree ι α → Bool} {r : R} {a : α} {child : ι → PointTree ι α}
  {t : PointTree ι α}

theorem mem_opened_split_nil :
    [] ∈ opened D go r (split a child) ↔ go r (split a child) = true := by
  rw [opened]
  split
  · next h => simp [h]
  · next h => simp [h]

theorem mem_opened_split_cons {i : ι} {path : List ι} :
    i :: path ∈ opened D go r (split a child) ↔
      go r (split a child) = true ∧ path ∈ opened D go (D.cell r i) (child i) := by
  rw [opened]
  split
  · next h => simp [h]
  · next h => simp [h]

/-- What is opened is a split, and the search goes on beneath it. -/
theorem exists_split_of_mem_opened {path : List ι} (h : path ∈ opened D go r t) :
    ∃ a child, t.subtree path = some (split a child) ∧
      go (D.descend r path) (split a child) = true := by
  induction path generalizing r t with
  | nil =>
    cases t with
    | empty => exact absurd h (Finset.notMem_empty _)
    | leaf b => exact absurd h (Finset.notMem_empty _)
    | split b child => exact ⟨b, child, subtree_nil _, mem_opened_split_nil.mp h⟩
  | cons i path ih =>
    cases t with
    | empty => exact absurd h (Finset.notMem_empty _)
    | leaf b => exact absurd h (Finset.notMem_empty _)
    | split b child => exact ih (mem_opened_split_cons.mp h).2

theorem card_opened_split (hgo : go r (split a child) = true) :
    (opened D go r (split a child)).card
      = 1 + ∑ i, (opened D go (D.cell r i) (child i)).card := by
  rw [opened, if_pos hgo, Finset.card_insert_of_notMem (by simp), add_comm, Finset.card_biUnion]
  · simp only [Finset.card_map]
  · intro i _ j _ hij
    rw [Function.onFun, Finset.disjoint_left]
    intro path hi hj
    obtain ⟨_, _, rfl⟩ := Finset.mem_map.mp hi
    obtain ⟨_, _, heq⟩ := Finset.mem_map.mp hj
    exact hij (List.cons.inj heq).1.symm

theorem card_opened_split_of_not (hgo : ¬go r (split a child) = true) :
    (opened D go r (split a child)).card = 0 := by
  rw [opened, if_neg hgo, Finset.card_empty]

/-! ### Counting level by level -/

omit [Fintype ι] [DecidableEq ι] in
/-- Paths above some depth, so many of each length. -/
theorem card_le_of_levels {K : Type*} [Semiring K] [PartialOrder K] [IsOrderedRing K]
    {s : Finset (List ι)} {n : ℕ} {c : K} (hlen : ∀ path ∈ s, path.length < n)
    (hlevel : ∀ k < n, ((s.filter fun path ↦ path.length = k).card : K) ≤ c) :
    (s.card : K) ≤ n * c := by
  have hmaps : Set.MapsTo List.length (s : Set (List ι)) (Finset.range n : Set ℕ) :=
    fun path hpath ↦ Finset.mem_coe.mpr (Finset.mem_range.mpr (hlen path hpath))
  calc (s.card : K)
      = ∑ k ∈ Finset.range n, ((s.filter fun path ↦ path.length = k).card : K) := by
        rw [Finset.card_eq_sum_card_fiberwise hmaps, Nat.cast_sum]
    _ ≤ ∑ _k ∈ Finset.range n, c :=
        Finset.sum_le_sum fun k hk ↦ hlevel k (Finset.mem_range.mp hk)
    _ = n * c := by rw [Finset.sum_const, Finset.card_range, nsmul_eq_mul]

theorem length_lt_of_mem_opened {path : List ι} {n : ℕ} (ht : t.height ≤ n)
    (h : path ∈ opened D go r t) : path.length < n := by
  obtain ⟨a, child, hsub, _⟩ := exists_split_of_mem_opened h
  exact height_le_iff.mp ht path ⟨a, child, hsub⟩

variable (go) in
/-- **The splits opened on one level** have two members each and no member in common. -/
theorem Canonical.two_mul_card_opened_level_le {S : Multiset α} (hc : Canonical D pos S r t)
    (k : ℕ) : 2 * ((opened D go r t).filter fun path ↦ path.length = k).card
      ≤ (D.inside pos r S).card := by
  classical
  have hlen : ∀ path ∈ (opened D go r t).filter fun path ↦ path.length = k, path.length = k :=
    fun path hpath ↦ (Finset.mem_filter.mp hpath).2
  have htwo : ∀ path ∈ (opened D go r t).filter fun path ↦ path.length = k,
      2 ≤ (D.inside pos (D.descend r path) S).card := by
    intro path hpath
    obtain ⟨a, child, hsub, _⟩ := exists_split_of_mem_opened (Finset.mem_filter.mp hpath).1
    exact (canonical_split.mp (hc.subtree hsub)).2.1
  calc 2 * ((opened D go r t).filter fun path ↦ path.length = k).card
      = ∑ _path ∈ (opened D go r t).filter (fun path ↦ path.length = k), 2 := by
        rw [Finset.sum_const, smul_eq_mul, mul_comm]
    _ ≤ ∑ path ∈ (opened D go r t).filter (fun path ↦ path.length = k),
          (D.inside pos (D.descend r path) S).card := Finset.sum_le_sum htwo
    _ ≤ (D.inside pos r S).card := D.sum_card_inside_le hlen r S

variable (go) in
theorem Canonical.card_opened_le {S : Multiset α} {n : ℕ} (hc : Canonical D pos S r t)
    (ht : t.height ≤ n) :
    (opened D go r t).card ≤ n * ((D.inside pos r S).card / 2) := by
  have hlevel : ∀ k < n, (((opened D go r t).filter fun path ↦ path.length = k).card : ℕ)
      ≤ (D.inside pos r S).card / 2 := by
    intro k _
    have := hc.two_mul_card_opened_level_le go k
    omega
  exact_mod_cast card_le_of_levels (fun path ↦ length_lt_of_mem_opened ht) hlevel

end Opened

end PointTree

end Spatial
