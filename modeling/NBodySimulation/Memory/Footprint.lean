import Mathlib.Data.Finmap
import Mathlib.Data.Finset.Lattice.Fold
import Mathlib.Order.Lattice.Nat

/-!
# Memories and footprints

A memory is a finite map from addresses to cells. A piece of code that only works on the cells of a
footprint takes a memory `m` to a memory `m'` and its footprint `S` to a footprint `S'`: it may
rewrite the cells of `S`, free some of them, and allocate new ones. `Rewrites m S m' S'` says that
this is all it did. Such steps compose, and they carry along any cells that are not theirs.

## Main results

* `Memory.Rewrites.trans`: one step after the other.
* `Memory.Rewrites.frame_union`: a step on `S` is a step on any larger footprint of allocated cells.
-/

namespace Memory

/-- A memory whose cells hold a `γ`. -/
abbrev Heap (Ptr γ : Type*) := Finmap fun _ : Ptr ↦ γ

/-- A policy for choosing the address of a new cell: any address that is not in use. -/
structure Allocator (Ptr : Type*) where
  fresh : Finset Ptr → Ptr
  fresh_notMem : ∀ used, fresh used ∉ used

/-- The allocator that never reuses an address below one in use. -/
def Allocator.next : Allocator ℕ where
  fresh used := used.sup id + 1
  fresh_notMem used h := by
    have hle : used.sup id + 1 ≤ used.sup id := Finset.le_sup (f := id) h
    omega

variable {Ptr γ : Type*} [DecidableEq Ptr]

/-- The code that leads from `m` to `m'` works on the cells of `S`, and leaves those of `S'`. -/
structure Rewrites (m : Heap Ptr γ) (S : Finset Ptr) (m' : Heap Ptr γ) (S' : Finset Ptr) :
    Prop where
  /-- Every other cell is as it was. -/
  frame : ∀ q, q ∉ S → q ∉ S' → m'.lookup q = m.lookup q
  /-- What is gained was not allocated. -/
  fresh : ∀ q ∈ S', q ∉ S → m.lookup q = none
  /-- What is given up is no longer allocated. -/
  freed : ∀ q ∈ S, q ∉ S' → m'.lookup q = none

namespace Rewrites

variable {m m' m'' : Heap Ptr γ} {S S' S'' B : Finset Ptr}

theorem refl (m : Heap Ptr γ) (S : Finset Ptr) : Rewrites m S m S where
  frame _ _ _ := rfl
  fresh _ hq hq' := absurd hq hq'
  freed _ hq hq' := absurd hq hq'

theorem trans (h : Rewrites m S m' S') (h' : Rewrites m' S' m'' S'') : Rewrites m S m'' S'' where
  frame q hq hq'' := by
    by_cases hq' : q ∈ S'
    · -- allocated by the first step and freed by the second
      rw [h'.freed q hq' hq'', h.fresh q hq' hq]
    · rw [h'.frame q hq' hq'', h.frame q hq hq']
  fresh q hq'' hq := by
    by_cases hq' : q ∈ S'
    · exact h.fresh q hq' hq
    · rw [← h.frame q hq hq']
      exact h'.fresh q hq'' hq'
  freed q hq hq'' := by
    by_cases hq' : q ∈ S'
    · exact h'.freed q hq' hq''
    · rw [h'.frame q hq' hq'']
      exact h.freed q hq hq'

theorem disjoint (h : Rewrites m S m' S') (hB : ∀ q ∈ B, q ∈ m) (hdisj : Disjoint S B) :
    Disjoint S' B := by
  rw [Finset.disjoint_left] at hdisj ⊢
  intro q hq' hqB
  have hq : q ∉ S := fun hq ↦ hdisj hq hqB
  exact Finmap.lookup_eq_none.mp (h.fresh q hq' hq) (hB q hqB)

/-- Cells that are allocated and not in the footprint are as they were. -/
theorem lookup_eq (h : Rewrites m S m' S') (hB : ∀ q ∈ B, q ∈ m) (hdisj : Disjoint S B) :
    ∀ q ∈ B, m'.lookup q = m.lookup q := fun q hq ↦
  h.frame q (Finset.disjoint_right.mp hdisj hq)
    (Finset.disjoint_right.mp (h.disjoint hB hdisj) hq)

/-- **The frame rule**: a step may be seen as one on more cells, which it leaves alone. -/
theorem frame_union (h : Rewrites m S m' S') (B : Finset Ptr) :
    Rewrites m (S ∪ B) m' (S' ∪ B) where
  frame q hq hq' := by
    rw [Finset.notMem_union] at hq hq'
    exact h.frame q hq.1 hq'.1
  fresh q hq' hq := by
    rw [Finset.notMem_union] at hq
    exact h.fresh q ((Finset.mem_union.mp hq').resolve_right hq.2) hq.1
  freed q hq hq' := by
    rw [Finset.notMem_union] at hq'
    exact h.freed q ((Finset.mem_union.mp hq).resolve_right hq'.2) hq'.1

/-- A step on the children of a node is one on the node with its children. -/
theorem cons (h : Rewrites m S m' S') (p : Ptr) :
    Rewrites m (insert p S) m' (insert p S') := by
  rw [Finset.insert_eq, Finset.insert_eq, Finset.union_comm, Finset.union_comm {p}]
  exact h.frame_union {p}

theorem write {p : Ptr} (hp : p ∈ S) (cell : γ) : Rewrites m S (m.insert p cell) S where
  frame q hq _ := by
    refine Finmap.lookup_insert_of_ne m fun h ↦ hq ?_
    rwa [h]
  fresh _ hq hq' := absurd hq hq'
  freed _ hq hq' := absurd hq hq'

theorem alloc {p : Ptr} (hp : p ∉ m) (cell : γ) : Rewrites m S (m.insert p cell) (insert p S) where
  frame q _ hq' := by
    refine Finmap.lookup_insert_of_ne m fun h ↦ hq' ?_
    rw [h]
    exact Finset.mem_insert_self p S
  fresh q hq' hq := by
    obtain rfl := (Finset.mem_insert.mp hq').resolve_right hq
    exact Finmap.lookup_eq_none.mpr hp
  freed _ hq hq' := absurd (Finset.mem_insert_of_mem hq) hq'

theorem free {p : Ptr} (hp : p ∈ S) : Rewrites m S (m.erase p) (S.erase p) where
  frame q hq _ := by
    refine Finmap.lookup_erase_ne fun h ↦ hq ?_
    rwa [h]
  fresh _ hq' hq := absurd (Finset.mem_of_mem_erase hq') hq
  freed q hq hq' := by
    have hqp : q = p := by
      by_contra hne
      exact hq' (Finset.mem_erase.mpr ⟨hne, hq⟩)
    rw [hqp]
    exact Finmap.lookup_erase p m

end Rewrites

end Memory
