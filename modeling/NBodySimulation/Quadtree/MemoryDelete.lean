import NBodySimulation.Quadtree.MemoryInsert

/-!
# `delete` in memory

The destructor deletes the children of a node, one after the other, and `delete` then gives back the
memory of the node itself. On nodes that hold a tree this frees the nodes of the tree, each of them
once, and changes nothing else: no pointer it follows is dangling, and none is freed twice.

## Main results

* `TreeMemory.delete_in_memory`: what a call of `delete` does, and that it ends as soon as its
  recursion may go as deep as the tree.
-/

namespace NBodySimulation

open Memory

namespace UQuadTree

variable {K : Type*}

mutual

/-- The recursion depth that deleting a tree takes. -/
def deletionDepth : UQuadTree K → ℕ
  | nullptr => 1
  | node _ children => deletionDepthOf children + 1

/-- The recursion depth of the loop over the children that are left. -/
def deletionDepthOf : List (UQuadTree K) → ℕ
  | [] => 1
  | child :: rest => max (deletionDepth child) (deletionDepthOf rest) + 1

end

theorem deletionDepth_pos (tree : UQuadTree K) : 0 < tree.deletionDepth := by
  cases tree with
  | nullptr => exact Nat.one_pos
  | node self children => exact Nat.succ_pos _

private theorem deletionDepthOf_pos (children : List (UQuadTree K)) :
    0 < deletionDepthOf children := by
  cases children with
  | nil => exact Nat.one_pos
  | cons child rest => exact Nat.succ_pos _

end UQuadTree

namespace TreeMemory

open UQuadTree (Fields deletionDepth deletionDepthOf)

variable {K : Type*} {m : TreeMemory K} {p : Option NodeRef} {tree : UQuadTree K}
  {S : Finset NodeRef}

/-- The nodes of the footprint are freed, and that is all. -/
structure Freed (m : TreeMemory K) (S : Finset NodeRef) (m' : TreeMemory K) : Prop where
  bodies : m'.bodies = m.bodies
  lookup : ∀ q, m'.nodes.lookup q = if q ∈ S then none else m.nodes.lookup q

/-- The destructor has emptied the node `q`, whose children had the footprint `S`. -/
structure Emptied (m : TreeMemory K) (q : NodeRef) (S : Finset NodeRef) (m' : TreeMemory K) :
    Prop where
  bodies : m'.bodies = m.bodies
  mem : q ∈ m'.nodes
  rewrites : Rewrites m.nodes (insert q S) m'.nodes {q}

private theorem Emptied.free {q : NodeRef} {m' : TreeMemory K} (h : m.Emptied q S m') :
    ∃ m'', m'.free q = .ok m'' ∧ m.Freed (insert q S) m'' := by
  obtain ⟨node, hread⟩ := Finmap.mem_iff.mp h.mem
  refine ⟨{ m' with nodes := m'.nodes.erase q }, by rw [TreeMemory.free, hread], h.bodies, ?_⟩
  have hstep : Rewrites m.nodes (insert q S) (m'.nodes.erase q) ∅ := by
    have hfree := h.rewrites.trans (.free (Finset.mem_singleton_self q))
    rwa [Finset.erase_singleton] at hfree
  intro r
  by_cases hr : r ∈ insert q S
  · rw [if_pos hr]
    exact hstep.freed r hr (Finset.notMem_empty r)
  · rw [if_neg hr]
    exact hstep.frame r hr (Finset.notMem_empty r)

theorem Freed.rewrites {m' : TreeMemory K} (h : m.Freed S m') :
    Rewrites m.nodes S m'.nodes ∅ where
  frame q hq _ := by rw [h.lookup, if_neg hq]
  fresh q hq := absurd hq (Finset.notMem_empty q)
  freed q hq _ := by rw [h.lookup, if_pos hq]

private theorem Emptied.of_step {q : NodeRef} {m₁ m₂ : TreeMemory K} {S₁ : Finset NodeRef}
    (hbodies : m₁.bodies = m.bodies)
    (hstep : Rewrites m.nodes (insert q S) m₁.nodes (insert q S₁)) (h : m₁.Emptied q S₁ m₂) :
    m.Emptied q S m₂ where
  bodies := h.bodies.trans hbodies
  mem := h.mem
  rewrites := hstep.trans h.rewrites

/-- One turn of the destructor's loop: the child is deleted, and its pointer nulled. -/
theorem HoldsNode.deleteChild {q : NodeRef} {self : Fields K} {links : List (Option NodeRef)}
    {children : List (UQuadTree K)} {i : ℕ} {l : Option NodeRef}
    (h : m.HoldsNode q self links children S) (hl : links[i]? = some l) :
    ∃ t A B, children[i]? = some t ∧ m.Holds l t A ∧ S = A ∪ B ∧
      ∀ m₁, m.Freed A m₁ → ∃ m₂,
        m₁.update q (fun node ↦ { node with links := node.links.set i none }) = .ok m₂ ∧
        m₂.bodies = m.bodies ∧
        m₂.HoldsNode q self (links.set i none) (children.set i .nullptr) B ∧
        Rewrites m.nodes (insert q S) m₂.nodes (insert q B) := by
  obtain ⟨t, A, B, hc, hchild, hdisj, rfl, hB, hput⟩ := h.children.focus hl
  refine ⟨t, A, B, hc, hchild, rfl, fun m₁ hfreed ↦ ?_⟩
  have hq := h.notMem
  rw [Finset.notMem_union] at hq
  have hread : m₁.nodes.lookup q = some ⟨self, links⟩ := by
    rw [hfreed.lookup, if_neg hq.1, h.read]
  have hall : m₁.HoldsAll (links.set i none) (children.set i .nullptr) B := by
    have hnull := hput hfreed.rewrites (.null (t := .nullptr) rfl)
    rwa [Finset.empty_union] at hnull
  have hstep := (hfreed.rewrites.frame_union B).cons q
  rw [Finset.empty_union] at hstep
  refine ⟨{ m₁ with nodes := m₁.nodes.insert q ⟨self, links.set i none⟩ }, ?_, hfreed.bodies,
    hall.nodeAt_insert hq.2 self, hstep.trans (.write (Finset.mem_insert_self q B) _)⟩
  simp [update, read, hread, bind, Except.bind]

private theorem forall_take_succ {α : Type*} {l : List α} {P : α → Prop} {i : ℕ} (hi : i < l.length)
    (h : ∀ t ∈ l.take i, P t) (hlast : P l[i]) : ∀ t ∈ l.take (i + 1), P t := by
  rw [List.take_succ_eq_append_getElem hi, List.forall_mem_append]
  exact ⟨h, by simpa using hlast⟩

/-- `delete` with this fuel frees the nodes of every tree, or may not go deep enough for it. -/
def DeletesWith (K : Type*) (fuel : ℕ) : Prop :=
  ∀ (m : TreeMemory K) p tree S, m.Holds p tree S →
    (m.delete fuel p = .error (.code .outOfFuel) ∧ fuel < tree.deletionDepth) ∨
      ∃ m', m.delete fuel p = .ok m' ∧ m.Freed S m'

/-- The same for the loop of the destructor, from any index on. -/
def EmptiesWith (K : Type*) (fuel : ℕ) : Prop :=
  ∀ (m : TreeMemory K) q self links children S i, m.HoldsNode q self links children S →
    (∀ t ∈ children.take i, UQuadTree.view t = none) →
    (m.destroyChildren fuel q i = .error (.code .outOfFuel) ∧
        fuel < deletionDepthOf (children.drop i)) ∨
      ∃ m', m.destroyChildren fuel q i = .ok m' ∧ m.Emptied q S m'

private theorem deletesWith_succ {fuel : ℕ} (hloop : EmptiesWith K fuel) :
    DeletesWith K (fuel + 1) := by
  intro m p tree S h
  cases tree with
  | nullptr =>
    obtain ⟨rfl, rfl⟩ := h.eq_of_view_none rfl
    exact Or.inr ⟨m, rfl, rfl, fun q ↦ by simp⟩
  | node self children =>
    obtain ⟨q, links, S, rfl, hq, rfl⟩ := h.exists_nodeAt rfl
    rw [delete]
    rcases hloop m q self links children S 0 hq (by simp) with ⟨hrun, hfuel⟩ | ⟨m₁, hrun, h₁⟩
    · refine Or.inl ⟨by rw [hrun]; rfl, ?_⟩
      exact Nat.succ_lt_succ hfuel
    · obtain ⟨m₂, hfree, hfreed⟩ := h₁.free
      exact Or.inr ⟨m₂, by rw [hrun, ok_bind, hfree], hfreed⟩

private theorem emptiesWith_succ {fuel : ℕ} (hdelete : DeletesWith K fuel)
    (hloop : EmptiesWith K fuel) :
    EmptiesWith K (fuel + 1) := by
  intro m q self links children S i h hdone
  rw [destroyChildren, h.read_eq, ok_bind]
  dsimp only
  cases hl : links[i]? with
  | none =>
    -- every child has been deleted, so the node has no cells below it
    have hi : children.length ≤ i := by
      rw [← h.children.length_eq]
      exact List.getElem?_eq_none_iff.mp hl
    rw [List.take_of_length_le hi] at hdone
    obtain rfl := h.children.eq_empty hdone
    exact Or.inr ⟨m, rfl, rfl, h.mem, .refl _ _⟩
  | some l =>
    obtain ⟨t, A, B, hc, hchild, rfl, hnulled⟩ := h.deleteChild hl
    obtain ⟨hi, rfl⟩ := List.getElem?_eq_some_iff.mp hc
    have hdepth : deletionDepthOf (children.drop i)
        = max children[i].deletionDepth (deletionDepthOf (children.drop (i + 1))) + 1 := by
      rw [List.drop_eq_getElem_cons hi, deletionDepthOf]
    rw [hdepth]
    cases l with
    | none =>
      have hnull : UQuadTree.view children[i] = none :=
        Option.not_isSome_iff_eq_none.mp (by simp [← hchild.isSome_eq])
      rcases hloop m q self links children _ (i + 1) h (forall_take_succ hi hdone hnull) with
        ⟨hrun, hfuel⟩ | hok
      · exact Or.inl ⟨hrun, by omega⟩
      · exact Or.inr hok
    | some c =>
      rcases hdelete m (some c) children[i] A hchild with ⟨hrun, hfuel⟩ | ⟨m₁, hrun, hfreed⟩
      · exact Or.inl ⟨by dsimp only; rw [hrun]; rfl, by omega⟩
      · obtain ⟨m₂, hupdate, hbodies, h₂, hstep⟩ := hnulled m₁ hfreed
        have hdone' : ∀ t ∈ (children.set i .nullptr).take (i + 1), UQuadTree.view t = none := by
          refine forall_take_succ (by rwa [List.length_set]) ?_ ?_
          · rwa [List.take_set_of_le le_rfl]
          · rw [List.getElem_set_self]
            rfl
        have hdrop : (children.set i .nullptr).drop (i + 1) = children.drop (i + 1) :=
          List.drop_set_of_lt (Nat.lt_succ_self i)
        dsimp only
        rw [hrun, ok_bind, hupdate, ok_bind]
        rcases hloop m₂ q self _ _ B (i + 1) h₂ hdone' with ⟨hrun', hfuel⟩ | ⟨m₃, hrun', h₃⟩
        · rw [hdrop] at hfuel
          exact Or.inl ⟨hrun', by omega⟩
        · exact Or.inr ⟨m₃, hrun', h₃.of_step hbodies hstep⟩

theorem deletesWith_and_emptiesWith (fuel : ℕ) : DeletesWith K fuel ∧ EmptiesWith K fuel := by
  induction fuel with
  | zero =>
    refine ⟨fun m p tree S _ ↦ Or.inl ⟨?_, tree.deletionDepth_pos⟩,
      fun m q self links children S i _ _ ↦
        Or.inl ⟨?_, UQuadTree.deletionDepthOf_pos _⟩⟩
    · rw [delete]
    · rw [destroyChildren]
  | succ fuel ih => exact ⟨deletesWith_succ ih.2, emptiesWith_succ ih.1 ih.2⟩

/-- **`delete` frees a tree, once.** A call may not go deep enough for the tree; every other call
ends, frees exactly the nodes of the tree and leaves every other node and the bodies alone. After
that the pointer is dangling, and a second call through it is caught as a use of a deleted node. -/
theorem delete_in_memory {q : NodeRef} (h : m.Holds (some q) tree S) (depth : ℕ) :
    (m.delete depth (some q) = .error (.code .outOfFuel) ∧ depth < tree.deletionDepth) ∨
      ∃ m', m.delete depth (some q) = .ok m' ∧ m'.bodies = m.bodies ∧
        (∀ r, m'.nodes.lookup r = if r ∈ S then none else m.nodes.lookup r) ∧
        ∀ depth', m'.delete (depth' + 2) (some q) = .error .useAfterFree := by
  rcases (deletesWith_and_emptiesWith depth).1 m (some q) tree S h with herr | ⟨m', hok, hfreed⟩
  · exact Or.inl herr
  refine Or.inr ⟨m', hok, hfreed.bodies, hfreed.lookup, fun depth' ↦ ?_⟩
  have hread : m'.nodes.lookup q = none := by rw [hfreed.lookup, if_pos h.mem_footprint]
  rw [delete, destroyChildren, TreeMemory.read, hread]
  rfl

private theorem exists_insert_twoRoots_depth : ∃ r,
    UQuadTree.insert 3 1 (.node leafRoot []) twoRoots.bodies = .ok r ∧
      r.tree.deletionDepth = 11 := by
  have hcheck : ((UQuadTree.insert 3 1 (.node leafRoot []) twoRoots.bodies).map fun r ↦
      r.tree.deletionDepth).toOption = some 11 := by decide +kernel
  exact exists_eq_ok_of_map hcheck

theorem delete_in_memory_twoRoots : ∃ m m' accepted,
    TreeMemory.insert .next 3 1 (some 2) twoRoots = .ok (m, accepted) ∧
      m.delete 11 (some 2) = .ok m' ∧ m'.nodes.lookup 2 = none ∧
      m'.delete 2 (some 2) = .error .useAfterFree ∧
      m'.Holds (some 1) (.new ⟨⟨2, 0⟩, ⟨3, 1⟩⟩ true) {1} := by
  obtain ⟨r, hr, hdepth⟩ := exists_insert_twoRoots_depth
  have hlockstep := lockstepInsert .next 3 1 twoRoots _ _ _ twoRoots_holds_leaf
  rw [hr] at hlockstep
  obtain ⟨⟨m, accepted⟩, hinsert, _, _, S, hholds, hstep⟩ := hlockstep.exists_ok
  have hbeside : m.Holds (some 1) (.new ⟨⟨2, 0⟩, ⟨3, 1⟩⟩ true) {1} :=
    twoRoots_holds_empty.of_rewrites hstep (by decide)
  have hdisj : Disjoint S {1} := hstep.disjoint twoRoots_holds_empty.allocated (by decide)
  rcases delete_in_memory hholds 11 with ⟨_, hlt⟩ | ⟨m', hdelete, _, hlookup, hdangling⟩
  · omega
  refine ⟨m, m', accepted, hinsert, hdelete, ?_, hdangling 0, hbeside.congr fun q hq ↦ ?_⟩
  · rw [hlookup, if_pos hholds.mem_footprint]
  · rw [hlookup, if_neg (Finset.disjoint_right.mp hdisj hq)]

end TreeMemory

end NBodySimulation
