import NBodySimulation.Memory.Footprint

/-!
# Trees in memory

A tree of cells: each cell holds the label of a node and the links to its children, which may be
null. What the tree means is left open: `view t` gives the label and the children of the root of
`t`, or nothing for the null tree, and the predicates here are about any type of trees with such a
view.

`Stored view m p t S` says that the link `p` leads to `t`, and that the nodes of `t` are the cells
of `S`, each of them used once. So the footprints of different children are disjoint, and no cell
is among its own descendants.

## Main results

* `Memory.Stored.of_rewrites`: a tree survives any step that does not work on its cells.
* `Memory.StoredAll.focus`: one child of a list may be replaced by what a step on its own cells
  leaves.
-/

namespace Memory

/-- A node in memory: what it holds, and where its children are. -/
structure Cell (Ptr ν : Type*) where
  label : ν
  links : List (Option Ptr)

variable {Ptr ν T : Type*} [DecidableEq Ptr]

mutual

/-- The link leads to the tree, whose nodes are the cells of the footprint. -/
inductive Stored (view : T → Option (ν × List T)) (m : Heap Ptr (Cell Ptr ν)) :
    Option Ptr → T → Finset Ptr → Prop
  | null {t : T} (h : view t = none) : Stored view m none t ∅
  | node {p : Ptr} {t : T} {label : ν} {links : List (Option Ptr)} {children : List T}
      {S : Finset Ptr} (h : view t = some (label, children))
      (hread : m.lookup p = some ⟨label, links⟩) (hchildren : StoredAll view m links children S)
      (hp : p ∉ S) : Stored view m (some p) t (insert p S)

/-- The links lead to the trees, which share no cell. -/
inductive StoredAll (view : T → Option (ν × List T)) (m : Heap Ptr (Cell Ptr ν)) :
    List (Option Ptr) → List T → Finset Ptr → Prop
  | nil : StoredAll view m [] [] ∅
  | cons {l : Option Ptr} {links : List (Option Ptr)} {t : T} {children : List T}
      {S R : Finset Ptr} (h : Stored view m l t S) (hrest : StoredAll view m links children R)
      (hdisj : Disjoint S R) : StoredAll view m (l :: links) (t :: children) (S ∪ R)

end

variable {view : T → Option (ν × List T)} {m m' : Heap Ptr (Cell Ptr ν)}

/-! ## Footprints -/

mutual

theorem Stored.allocated {p : Option Ptr} {t : T} {S : Finset Ptr} (h : Stored view m p t S) :
    ∀ q ∈ S, q ∈ m :=
  match p, t, S, h with
  | _, _, _, .null _ => fun q hq ↦ absurd hq (Finset.notMem_empty q)
  | _, _, _, .node _ hread hchildren _ => by
    have ih := StoredAll.allocated hchildren
    intro q hq
    rcases Finset.mem_insert.mp hq with rfl | hq
    · exact Finmap.mem_iff.mpr ⟨_, hread⟩
    · exact ih q hq

theorem StoredAll.allocated {links : List (Option Ptr)} {children : List T} {S : Finset Ptr}
    (h : StoredAll view m links children S) : ∀ q ∈ S, q ∈ m :=
  match links, children, S, h with
  | _, _, _, .nil => fun q hq ↦ absurd hq (Finset.notMem_empty q)
  | _, _, _, .cons h hrest _ => by
    have ih := Stored.allocated h
    have ihrest := StoredAll.allocated hrest
    intro q hq
    rcases Finset.mem_union.mp hq with hq | hq
    · exact ih q hq
    · exact ihrest q hq

end

mutual

/-- Only the cells of the footprint are read. -/
theorem Stored.congr {p : Option Ptr} {t : T} {S : Finset Ptr} (h : Stored view m p t S)
    (heq : ∀ q ∈ S, m'.lookup q = m.lookup q) : Stored view m' p t S :=
  match p, t, S, h with
  | _, _, _, .null hview => .null hview
  | _, _, _, .node hview hread hchildren hp =>
    .node hview ((heq _ (Finset.mem_insert_self _ _)).trans hread)
      (StoredAll.congr hchildren fun q hq ↦ heq q (Finset.mem_insert_of_mem hq)) hp

theorem StoredAll.congr {links : List (Option Ptr)} {children : List T} {S : Finset Ptr}
    (h : StoredAll view m links children S) (heq : ∀ q ∈ S, m'.lookup q = m.lookup q) :
    StoredAll view m' links children S :=
  match links, children, S, h with
  | _, _, _, .nil => .nil
  | _, _, _, .cons h hrest hdisj =>
    .cons (Stored.congr h fun q hq ↦ heq q (Finset.mem_union_left _ hq))
      (StoredAll.congr hrest fun q hq ↦ heq q (Finset.mem_union_right _ hq)) hdisj

end

variable {p : Option Ptr} {t : T} {links : List (Option Ptr)} {children : List T}
  {S S' R : Finset Ptr}

/-- A tree survives any step that does not work on its cells. -/
theorem Stored.of_rewrites (h : Stored view m p t R) (hstep : Rewrites m S m' S')
    (hdisj : Disjoint S R) : Stored view m' p t R :=
  h.congr (hstep.lookup_eq h.allocated hdisj)

theorem StoredAll.of_rewrites (h : StoredAll view m links children R)
    (hstep : Rewrites m S m' S') (hdisj : Disjoint S R) : StoredAll view m' links children R :=
  h.congr (hstep.lookup_eq h.allocated hdisj)

theorem Stored.eq_of_view_none (h : Stored view m p t S) (hview : view t = none) :
    p = none ∧ S = ∅ := by
  cases h with
  | null _ => exact ⟨rfl, rfl⟩
  | node hview' _ _ _ => exact absurd (hview.symm.trans hview') (by simp)

theorem Stored.isSome_eq (h : Stored view m p t S) : p.isSome = (view t).isSome := by
  cases h with
  | null hview => rw [hview]; rfl
  | node hview _ _ _ => rw [hview]; rfl

/-! ## Lists of children -/

theorem StoredAll.map_isSome (h : StoredAll view m links children S) :
    links.map Option.isSome = children.map fun t ↦ (view t).isSome := by
  induction links generalizing children S with
  | nil =>
    cases h
    rfl
  | cons l links ih =>
    cases h with
    | cons h hrest _ => rw [List.map_cons, List.map_cons, h.isSome_eq, ih hrest]

theorem StoredAll.length_eq (h : StoredAll view m links children S) :
    links.length = children.length := by
  induction links generalizing children S with
  | nil =>
    cases h
    rfl
  | cons l links ih =>
    cases h with
    | cons _ hrest _ => rw [List.length_cons, List.length_cons, ih hrest]

theorem StoredAll.eq_empty (h : StoredAll view m links children S)
    (hnull : ∀ t ∈ children, view t = none) : S = ∅ := by
  induction links generalizing children S with
  | nil =>
    cases h
    rfl
  | cons l links ih =>
    cases h with
    | cons h hrest _ =>
      obtain ⟨_, rfl⟩ := h.eq_of_view_none (hnull _ List.mem_cons_self)
      rw [ih hrest fun t ht ↦ hnull t (List.mem_cons_of_mem _ ht), Finset.union_empty]

/-- **One child at a time.** The child at an index has cells of its own, and whatever a step on
these cells leaves may take its place. -/
theorem StoredAll.focus (h : StoredAll view m links children S) {i : ℕ} {l : Option Ptr}
    (hl : links[i]? = some l) :
    ∃ t A B, children[i]? = some t ∧ Stored view m l t A ∧ Disjoint A B ∧ S = A ∪ B ∧
      (∀ q ∈ B, q ∈ m) ∧
      ∀ {m' : Heap Ptr (Cell Ptr ν)} {l' : Option Ptr} {t' : T} {A' : Finset Ptr},
        Rewrites m A m' A' → Stored view m' l' t' A' →
          StoredAll view m' (links.set i l') (children.set i t') (A' ∪ B) := by
  induction links generalizing children S i with
  | nil => simp at hl
  | cons l₀ links ih =>
    cases h with
    | @cons _ _ _ _ A₀ _ h hrest hdisj =>
      cases i with
      | zero =>
        obtain rfl : l₀ = l := by simpa using hl
        refine ⟨_, _, _, rfl, h, hdisj, rfl, hrest.allocated, fun hstep hstored ↦ ?_⟩
        exact .cons hstored (hrest.of_rewrites hstep hdisj)
          (hstep.disjoint hrest.allocated hdisj)
      | succ i =>
        obtain ⟨t, A, B, ht, hstored, hAB, rfl, hB, hput⟩ := ih hrest (by simpa using hl)
        -- the cells of the first child join those that the step carries along
        have hA₀ : Disjoint A A₀ :=
          (hdisj.mono_right (Finset.subset_union_left)).symm
        have hB₀ : Disjoint A₀ B := hdisj.mono_right Finset.subset_union_right
        refine ⟨t, A, A₀ ∪ B, by simpa using ht, hstored, ?_, ?_, ?_, fun hstep hstored' ↦ ?_⟩
        · exact Finset.disjoint_union_right.mpr ⟨hA₀, hAB⟩
        · rw [Finset.union_left_comm]
        · intro q hq
          rcases Finset.mem_union.mp hq with hq | hq
          · exact h.allocated q hq
          · exact hB q hq
        · rw [List.set_cons_succ, List.set_cons_succ, Finset.union_left_comm]
          refine .cons (h.of_rewrites hstep hA₀) (hput hstep hstored') ?_
          exact Finset.disjoint_union_right.mpr
            ⟨(hstep.disjoint h.allocated hA₀).symm, hB₀⟩

theorem StoredAll.insertIdx (h : StoredAll view m links children S) {l : Option Ptr} {t : T}
    {A : Finset Ptr} (hnew : Stored view m l t A) (hdisj : Disjoint A S) {i : ℕ}
    (hi : i ≤ links.length) :
    StoredAll view m (links.insertIdx i l) (children.insertIdx i t) (A ∪ S) := by
  induction links generalizing children S i with
  | nil =>
    cases h with
    | nil =>
      obtain rfl : i = 0 := by simpa using hi
      exact .cons hnew .nil hdisj
  | cons l₀ links ih =>
    cases i with
    | zero => exact .cons hnew h hdisj
    | succ i =>
      cases h with
      | cons h hrest hdisj' =>
        rw [Finset.disjoint_union_right] at hdisj
        rw [List.insertIdx_succ_cons, List.insertIdx_succ_cons, Finset.union_left_comm]
        refine .cons h (ih hrest hdisj.2 (by simpa using hi)) ?_
        exact Finset.disjoint_union_right.mpr ⟨hdisj.1.symm, hdisj'⟩

/-! ## One node and its children -/

/-- A node with its children, apart from the footprint of the children. -/
structure NodeAt (view : T → Option (ν × List T)) (m : Heap Ptr (Cell Ptr ν)) (p : Ptr) (label : ν)
    (links : List (Option Ptr)) (children : List T) (S : Finset Ptr) : Prop where
  read : m.lookup p = some ⟨label, links⟩
  children : StoredAll view m links children S
  notMem : p ∉ S

theorem StoredAll.nodeAt_insert (h : StoredAll view m links children S) {p : Ptr} (hp : p ∉ S)
    (label : ν) : NodeAt view (m.insert p ⟨label, links⟩) p label links children S where
  read := Finmap.lookup_insert m
  children := h.congr fun _ hq ↦ Finmap.lookup_insert_of_ne m fun hqp ↦ hp (hqp ▸ hq)
  notMem := hp

theorem Stored.mem_footprint {q : Ptr} (h : Stored view m (some q) t S) : q ∈ S := by
  cases h with
  | node _ _ _ _ => exact Finset.mem_insert_self q _

/-- A tree that is not null has a cell for its root, and the rest of its cells are those of the
children. -/
theorem Stored.exists_nodeAt (h : Stored view m p t S) {label : ν}
    (hview : view t = some (label, children)) :
    ∃ q links R, p = some q ∧ NodeAt view m q label links children R ∧ S = insert q R := by
  cases h with
  | null hview' => exact absurd (hview.symm.trans hview') (by simp)
  | @node q _ label' links children' R hview' hread hchildren hq =>
    obtain ⟨rfl, rfl⟩ := Prod.mk.inj (Option.some.inj (hview.symm.trans hview'))
    exact ⟨q, links, R, rfl, ⟨hread, hchildren, hq⟩, rfl⟩

namespace NodeAt

variable {p : Ptr} {label : ν} {children' : List T}

theorem mem (h : NodeAt view m p label links children S) : p ∈ m :=
  Finmap.mem_iff.mpr ⟨_, h.read⟩

theorem stored (h : NodeAt view m p label links children S)
    (hview : view t = some (label, children)) :
    Stored view m (some p) t (insert p S) :=
  .node hview h.read h.children h.notMem

theorem singleton_disjoint (h : NodeAt view m p label links children S) : Disjoint S {p} :=
  Finset.disjoint_singleton_right.mpr h.notMem

theorem step (h : NodeAt view m p label links children S) (hstep : Rewrites m S m' S')
    (hchildren : StoredAll view m' links children' S') :
    NodeAt view m' p label links children' S' where
  read := by
    rw [hstep.lookup_eq (by simpa using h.mem) h.singleton_disjoint p (Finset.mem_singleton_self p),
      h.read]
  children := hchildren
  notMem := Finset.disjoint_singleton_right.mp
    (hstep.disjoint (by simpa using h.mem) h.singleton_disjoint)

theorem relabel (h : NodeAt view m p label links children S) (label' : ν) :
    NodeAt view (m.insert p ⟨label', links⟩) p label' links children S :=
  h.children.nodeAt_insert h.notMem label'

theorem addChild (h : NodeAt view m p label links children S) {q : Ptr} {label' : ν}
    (hq : q ∉ m) (hview : view t = some (label', [])) {i : ℕ} (hi : i ≤ links.length) :
    NodeAt view ((m.insert q ⟨label', []⟩).insert p ⟨label, links.insertIdx i (some q)⟩) p label
      (links.insertIdx i (some q)) (children.insertIdx i t) (insert q S) where
  read := Finmap.lookup_insert _
  children := by
    have hpq : q ≠ p := fun hqp ↦ hq (hqp ▸ h.mem)
    have hqS : q ∉ S := fun hqS ↦ hq (h.children.allocated q hqS)
    have hsame : ∀ r ∈ S, ((m.insert q ⟨label', []⟩).insert p
        ⟨label, links.insertIdx i (some q)⟩).lookup r = m.lookup r := by
      intro r hr
      have hrp : r ≠ p := fun hrp ↦ h.notMem (hrp ▸ hr)
      have hrq : r ≠ q := fun hrq ↦ hqS (hrq ▸ hr)
      rw [Finmap.lookup_insert_of_ne _ hrp, Finmap.lookup_insert_of_ne _ hrq]
    have hnew : Stored view ((m.insert q ⟨label', []⟩).insert p
        ⟨label, links.insertIdx i (some q)⟩) (some q) t {q} := by
      refine .node hview ?_ .nil (Finset.notMem_empty q)
      rw [Finmap.lookup_insert_of_ne _ hpq, Finmap.lookup_insert]
    rw [Finset.insert_eq]
    exact (h.children.congr hsame).insertIdx hnew (Finset.disjoint_singleton_left.mpr hqS) hi
  notMem := by
    rw [Finset.mem_insert]
    rintro (hpq | hpS)
    · exact hq (hpq ▸ h.mem)
    · exact h.notMem hpS

end NodeAt

end Memory
