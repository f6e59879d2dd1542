import Mathlib.Data.List.GetD
import NBodySimulation.Memory.Lockstep
import NBodySimulation.Objects.QuadTreeMemory

/-!
# `Insert` in memory

The methods of `TreeMemory` and those of `UQuadTree` run in lockstep: from nodes that hold a tree,
`Insert` on the nodes ends exactly when `Insert` on the tree does, with the same answer, and the
nodes then hold the resulting tree. On the way it works on the nodes of the tree only. So whatever
is proved of trees as values holds of the nodes in memory, and `Insert` never uses a node that was
deleted.

## Main results

* `TreeMemory.lockstepInsert`: the two versions of `Insert` run in lockstep.
* `TreeMemory.insert_in_memory`: what a call of `Insert` leaves in memory.
-/

namespace NBodySimulation

open Memory

namespace TreeMemory

open UQuadTree (Fields Sums Inserted)

variable {K : Type*}

/-- The pointer leads to the tree, whose nodes are those of the footprint. -/
abbrev Holds (m : TreeMemory K) (p : Option NodeRef) (tree : UQuadTree K) (S : Finset NodeRef) :
    Prop := Stored UQuadTree.view m.nodes p tree S

/-- The pointers lead to the trees, which share no node. -/
abbrev HoldsAll (m : TreeMemory K) (links : List (Option NodeRef)) (children : List (UQuadTree K))
    (S : Finset NodeRef) : Prop := StoredAll UQuadTree.view m.nodes links children S

abbrev HoldsNode (m : TreeMemory K) (p : NodeRef) (self : Fields K) (links : List (Option NodeRef))
    (children : List (UQuadTree K)) (S : Finset NodeRef) : Prop :=
  NodeAt UQuadTree.view m.nodes p self links children S

/-- What a call on the node `p` of the tree with footprint `S` may leave, compared with a tree. -/
structure Leaves (m : TreeMemory K) (p : Option NodeRef) (S : Finset NodeRef) (m' : TreeMemory K)
    (tree : UQuadTree K) (heap : BodyHeap K) : Prop where
  bodies : m'.bodies = heap
  holds : ∃ S', m'.Holds p tree S' ∧ Rewrites m.nodes S m'.nodes S'

/-- The same for calls on the children of a node. -/
structure LeavesAll (m : TreeMemory K) (links : List (Option NodeRef)) (S : Finset NodeRef)
    (m' : TreeMemory K) (children : List (UQuadTree K)) (heap : BodyHeap K) : Prop where
  bodies : m'.bodies = heap
  holds : ∃ S', m'.HoldsAll links children S' ∧ Rewrites m.nodes S m'.nodes S'

variable {m : TreeMemory K} {p : NodeRef} {self : Fields K} {links : List (Option NodeRef)}
  {children : List (UQuadTree K)} {S : Finset NodeRef}

/-! ## Reading -/

theorem HoldsNode.read_eq (h : m.HoldsNode p self links children S) :
    m.read (some p) = .ok ⟨self, links⟩ := by
  rw [TreeMemory.read, h.read]

private theorem HoldsNode.update_eq (h : m.HoldsNode p self links children S)
    (f : Cell NodeRef (Fields K) → Cell NodeRef (Fields K)) :
    m.update p f = .ok { m with nodes := m.nodes.insert p (f ⟨self, links⟩) } := by
  rw [update, h.read_eq]
  rfl

private theorem nonNull_eq (tree : UQuadTree K) : (UQuadTree.view tree).isSome = tree.nonNull := by
  cases tree <;> rfl

/-- Testing pointers is testing the nodes they lead to. -/
theorem HoldsAll.map_nonNull (h : m.HoldsAll links children S) :
    links.map Option.isSome = children.map UQuadTree.nonNull := by
  rw [h.map_isSome]
  exact List.map_congr_left fun tree _ ↦ nonNull_eq tree

private theorem HoldsAll.hasChildren_eq (h : m.HoldsAll links children S) :
    hasChildren links = UQuadTree.hasChildren children := by
  have hlinks : (links.map Option.isSome).any id = links.any Option.isSome := List.any_map
  have hchildren : (children.map UQuadTree.nonNull).any id = children.any UQuadTree.nonNull :=
    List.any_map
  rw [hasChildren, UQuadTree.hasChildren, ← hlinks, ← hchildren, h.map_nonNull]

theorem HoldsAll.isLeaf_eq (h : m.HoldsAll links children S) :
    isLeaf links = UQuadTree.isLeaf children := by
  have hget : ∀ i, (links.getD i none).isSome = (children.getD i .nullptr).nonNull := by
    intro i
    have hlinks : (links.map Option.isSome).getD i false = (links.getD i none).isSome :=
      List.getD_map links none Option.isSome
    have hchildren : (children.map UQuadTree.nonNull).getD i false
        = (children.getD i .nullptr).nonNull := List.getD_map children .nullptr UQuadTree.nonNull
    rw [← hlinks, ← hchildren, h.map_nonNull]
  rw [isLeaf, UQuadTree.isLeaf, h.hasChildren_eq]
  simp only [hget]

private theorem aggregate_lockstep [Field K] (h : m.HoldsAll links children S) (sums : Sums K) :
    Lockstep .code (fun a b ↦ a = b) (m.aggregate links sums)
      (UQuadTree.aggregate children sums) := by
  induction links generalizing children S sums with
  | nil =>
    cases h
    exact .ok rfl
  | cons l links ih =>
    cases h with
    | @cons _ _ tree _ _ _ hnode hrest _ =>
      cases tree with
      | nullptr =>
        obtain ⟨rfl, _⟩ := hnode.eq_of_view_none rfl
        exact .error _
      | node self' children' =>
        obtain ⟨q, links', R, rfl, hq, _⟩ := hnode.exists_nodeAt rfl
        rw [aggregate, HoldsNode.read_eq hq, UQuadTree.aggregate]
        exact ih hrest _

/-! ## New children -/

private theorem insertChild_spec [Field K] (alloc : Allocator NodeRef)
    (h : m.HoldsNode p self links children S) {i : ℕ} (hi : i ≤ children.length)
    (box : FBox2D K) : ∃ m' links' S', m.insertChild alloc p i box = .ok m' ∧
      m'.bodies = m.bodies ∧
      m'.HoldsNode p self links' (children.insertIdx i (.new box false)) S' ∧
      Rewrites m.nodes (insert p S) m'.nodes (insert p S') := by
  have hq : alloc.fresh m.nodes.keys ∉ m.nodes := fun hmem ↦
    alloc.fresh_notMem _ (Finmap.mem_keys.mpr hmem)
  generalize hqdef : alloc.fresh m.nodes.keys = q at hq
  have hpq : p ≠ q := fun hpq ↦ hq (hpq ▸ h.mem)
  have hread : (m.nodes.insert q ⟨.new box false, []⟩).lookup p = some ⟨self, links⟩ := by
    rw [Finmap.lookup_insert_of_ne _ hpq, h.read]
  refine ⟨⟨(m.nodes.insert q ⟨.new box false, []⟩).insert p ⟨self, links.insertIdx i (some q)⟩,
    m.bodies⟩, links.insertIdx i (some q), insert q S, ?_, rfl, ?_, ?_⟩
  · simp [insertChild, new, update, read, hqdef, hread, bind, Except.bind]
  · have hi' : i ≤ links.length := hi.trans_eq h.children.length_eq.symm
    exact h.addChild (t := .new box false) hq rfl hi'
  · rw [Finset.insert_comm]
    exact (Rewrites.alloc hq _).trans
      (Rewrites.write (Finset.mem_insert_of_mem (Finset.mem_insert_self p S)) _)

theorem holds_new [Field K] (alloc : Allocator NodeRef) (m : TreeMemory K) (box : FBox2D K)
    (isRoot : Bool) : (m.new alloc box isRoot).2.Holds (some (m.new alloc box isRoot).1)
      (.new box isRoot) {(m.new alloc box isRoot).1} :=
  .node (S := ∅) rfl (Finmap.lookup_insert _) .nil (Finset.notMem_empty _)

theorem rewrites_new [Field K] (alloc : Allocator NodeRef) (m : TreeMemory K) (box : FBox2D K)
    (isRoot : Bool) :
    Rewrites m.nodes ∅ (m.new alloc box isRoot).2.nodes {(m.new alloc box isRoot).1} := by
  have hq : alloc.fresh m.nodes.keys ∉ m.nodes := fun hmem ↦
    alloc.fresh_notMem _ (Finmap.mem_keys.mpr hmem)
  exact .alloc hq _

private theorem insertChildren_spec [Field K] (alloc : Allocator NodeRef)
    (h : m.HoldsNode p self links children S) (box₀ box₁ box₂ box₃ : FBox2D K) :
    ∃ m' links' S', (do
        let m ← m.insertChild alloc p 0 box₀
        let m ← m.insertChild alloc p 1 box₁
        let m ← m.insertChild alloc p 2 box₂
        m.insertChild alloc p 3 box₃) = .ok m' ∧ m'.bodies = m.bodies ∧
      m'.HoldsNode p self links' ((((children.insertIdx 0 (.new box₀ false)).insertIdx 1
        (.new box₁ false)).insertIdx 2 (.new box₂ false)).insertIdx 3 (.new box₃ false)) S' ∧
      Rewrites m.nodes (insert p S) m'.nodes (insert p S') := by
  obtain ⟨m₀, links₀, S₀, hrun₀, hbodies₀, h₀, hstep₀⟩ :=
    insertChild_spec alloc h (Nat.zero_le _) box₀
  obtain ⟨m₁, links₁, S₁, hrun₁, hbodies₁, h₁, hstep₁⟩ :=
    insertChild_spec alloc h₀ (i := 1) (by simp) box₁
  obtain ⟨m₂, links₂, S₂, hrun₂, hbodies₂, h₂, hstep₂⟩ :=
    insertChild_spec alloc h₁ (i := 2) (by simp) box₂
  obtain ⟨m₃, links₃, S₃, hrun₃, hbodies₃, h₃, hstep₃⟩ :=
    insertChild_spec alloc h₂ (i := 3) (by simp) box₃
  refine ⟨m₃, links₃, S₃, ?_, ?_, h₃, ((hstep₀.trans hstep₁).trans hstep₂).trans hstep₃⟩
  · simp [hrun₀, hrun₁, hrun₂, hrun₃, bind, Except.bind]
  · rw [hbodies₃, hbodies₂, hbodies₁, hbodies₀]

private theorem subDivide_spec [Field K] (alloc : Allocator NodeRef)
    (h : m.HoldsNode p self links children S) : ∃ m' links' S', m.subDivide alloc p = .ok m' ∧
      m'.bodies = m.bodies ∧
      m'.HoldsNode p self links' (UQuadTree.subDivide self.box children) S' ∧
      Rewrites m.nodes (insert p S) m'.nodes (insert p S') := by
  rw [subDivide, h.read_eq]
  exact insertChildren_spec alloc h _ _ _ _

/-! ## The loops over the children -/

/-- The call on a node and the call on the tree it holds run in lockstep. -/
def LockstepInsert (ins : Option NodeRef → TreeMemory K → Except MemoryFault (TreeMemory K × Bool))
    (ins' : UQuadTree K → BodyHeap K → Except Fault (Inserted K (UQuadTree K))) : Prop :=
  ∀ m p tree S, m.Holds p tree S → Lockstep .code
    (fun a r ↦ a.2 = r.accepted ∧ m.Leaves p S a.1 r.tree r.heap) (ins p m) (ins' tree m.bodies)

section Loops

variable {ins : Option NodeRef → TreeMemory K → Except MemoryFault (TreeMemory K × Bool)}
  {ins' : UQuadTree K → BodyHeap K → Except Fault (Inserted K (UQuadTree K))}

private theorem insertUntilAccepted_lockstep (hins : LockstepInsert ins ins')
    (h : m.HoldsAll links children S) : Lockstep .code
      (fun m' r ↦ m.LeavesAll links S m' r.1 r.2) (insertUntilAccepted ins links m)
      (UQuadTree.insertUntilAccepted ins' children m.bodies) := by
  induction links generalizing children S m with
  | nil =>
    cases h
    exact .ok ⟨rfl, ∅, .nil, .refl _ _⟩
  | cons l links ih =>
    cases h with
    | @cons _ _ tree children A R hnode hrest hdisj =>
      rw [insertUntilAccepted, UQuadTree.insertUntilAccepted]
      refine (hins m l tree A hnode).bind ?_
      rintro ⟨m₁, accepted⟩ r ⟨haccepted, hbodies, A', hnode', hstep⟩
      obtain rfl : accepted = r.accepted := haccepted
      have hrest' : m₁.HoldsAll links children R := hrest.of_rewrites hstep hdisj
      have hdisj' : Disjoint A' R := hstep.disjoint hrest.allocated hdisj
      cases hr : r.accepted with
      | true => exact .ok ⟨hbodies, A' ∪ R, .cons hnode' hrest' hdisj', hstep.frame_union R⟩
      | false =>
        have hrun := ih hrest'
        rw [hbodies] at hrun
        refine hrun.map_right ?_
        rintro m₂ ⟨children', heap'⟩ ⟨hbodies', R', hrest'', hstep'⟩
        have hdisj'' : Disjoint R' A' := hstep'.disjoint hnode'.allocated hdisj'.symm
        refine ⟨hbodies', A' ∪ R', ?_, (hstep.frame_union R).trans ?_⟩
        · exact .cons (hnode'.of_rewrites hstep' hdisj'.symm) hrest'' hdisj''.symm
        · rw [Finset.union_comm A', Finset.union_comm A']
          exact hstep'.frame_union A'

private theorem insertAny_lockstep (hins : LockstepInsert ins ins') (indices : List ℕ)
    (h : m.HoldsNode p self links children S) : Lockstep .code
      (fun a r ↦ a.2 = r.accepted ∧ m.LeavesAll links S a.1 r.tree r.heap)
      (insertAny ins p indices m) (UQuadTree.insertAny ins' indices children m.bodies) := by
  induction indices generalizing children S m with
  | nil => exact .ok ⟨rfl, rfl, S, h.children, .refl _ _⟩
  | cons i indices ih =>
    rw [insertAny, UQuadTree.insertAny, h.read_eq, ok_bind]
    cases hl : links[i]? with
    | none =>
      have hc : children[i]? = none := by
        rw [List.getElem?_eq_none_iff] at hl ⊢
        rwa [← h.children.length_eq]
      rw [hc]
      exact .error _
    | some l =>
      obtain ⟨tree, A, B, hc, hnode, hdisj, rfl, hB, hput⟩ := h.children.focus hl
      rw [hc]
      refine (hins m l tree A hnode).bind ?_
      rintro ⟨m₁, accepted⟩ r ⟨haccepted, hbodies, A', hnode', hstep⟩
      obtain rfl : accepted = r.accepted := haccepted
      have hall : m₁.HoldsAll links (children.set i r.tree) (A' ∪ B) := by
        have hput' := hput hstep hnode'
        obtain ⟨hi, rfl⟩ := List.getElem?_eq_some_iff.mp hl
        rwa [List.set_getElem_self hi] at hput'
      have hstep' := hstep.frame_union B
      cases hr : r.accepted with
      | true => exact .ok ⟨rfl, hbodies, A' ∪ B, hall, hstep'⟩
      | false =>
        have hrun := ih (h.step hstep' hall)
        rw [hbodies] at hrun
        refine hrun.mono ?_
        rintro ⟨m₂, accepted'⟩ r' ⟨haccepted', hbodies', S', hall', hstep''⟩
        exact ⟨haccepted', hbodies', S', hall', hstep'.trans hstep''⟩

end Loops

/-! ## `Insert` -/

variable [Field K] [LinearOrder K]

private theorem growChildren_lockstep (alloc : Allocator NodeRef)
    {ins : BodyRef → Option NodeRef → TreeMemory K → Except MemoryFault (TreeMemory K × Bool)}
    {ins' : BodyRef → UQuadTree K → BodyHeap K → Except Fault (Inserted K (UQuadTree K))}
    (hins : ∀ b, LockstepInsert (ins b) (ins' b)) (h : m.HoldsNode p self links children S) :
    Lockstep .code (fun m' r ↦ m'.bodies = r.2 ∧ ∃ links' S',
        m'.HoldsNode p { self with bIsSubdivided := true } links' r.1 S' ∧
        Rewrites m.nodes (insert p S) m'.nodes (insert p S'))
      (m.growChildren alloc ins p) (UQuadTree.growChildren ins' self children m.bodies) := by
  rw [growChildren, UQuadTree.growChildren, h.read_eq, ok_bind]
  cases hsub : self.bIsSubdivided with
  | true =>
    refine .ok ⟨rfl, links, S, ?_, .refl _ _⟩
    rw [← hsub]
    exact h
  | false =>
    have hmark := Rewrites.write (m := m.nodes) (Finset.mem_insert_self p S)
      ⟨{ self with bIsSubdivided := true }, links⟩
    obtain ⟨m₁, links₁, S₁, hrun, hbodies, h₁, hstep⟩ :=
      subDivide_spec (m := { m with nodes := m.nodes.insert p _ }) alloc
        (h.relabel { self with bIsSubdivided := true })
    simp only [Bool.not_false, if_true]
    rw [h.update_eq, ok_bind, hrun, ok_bind, h₁.read_eq, ok_bind]
    cases hres : self.bodyEntity with
    | none => exact .error _
    | some resident =>
      have hloop := insertUntilAccepted_lockstep (hins resident) h₁.children
      rw [hbodies] at hloop
      refine hloop.mono ?_
      rintro m₂ ⟨children₂, heap₂⟩ ⟨hbodies₂, S₂, hall, hstep₂⟩
      rw [← hres]
      exact ⟨hbodies₂, links₁, S₂, h₁.step hstep₂ hall,
        (hmark.trans hstep).trans (hstep₂.cons p)⟩

/-- **`Insert` in memory implements `Insert` on trees.** -/
theorem lockstepInsert (alloc : Allocator NodeRef) (fuel : ℕ) (entity : BodyRef) :
    LockstepInsert (K := K) (TreeMemory.insert alloc fuel entity)
      (UQuadTree.insert fuel entity) := by
  induction fuel generalizing entity with
  | zero => exact fun _ _ _ _ _ ↦ .error _
  | succ fuel ih =>
    intro m p tree S h
    cases tree with
    | nullptr =>
      obtain ⟨rfl, _⟩ := h.eq_of_view_none rfl
      exact .error _
    | node self children =>
      obtain ⟨q, links, S, rfl, hq, rfl⟩ := h.exists_nodeAt rfl
      rw [TreeMemory.insert, UQuadTree.insert, HoldsNode.read_eq hq, ok_bind]
      dsimp only
      by_cases hinside : (!self.box.isInside (m.bodies entity).position) = true
      · rw [if_pos hinside, if_pos hinside]
        by_cases hroot : self.bIsRoot = true
        · rw [if_pos hroot, if_pos hroot]
          exact .ok ⟨rfl, rfl, insert q S, hq.stored rfl, .refl _ _⟩
        · rw [if_neg hroot, if_neg hroot]
          exact .ok ⟨rfl, rfl, insert q S, hq.stored rfl, .refl _ _⟩
      · rw [if_neg hinside, if_neg hinside, HoldsAll.hasChildren_eq hq.children]
        by_cases hfree : (UQuadTree.isEmpty self && !UQuadTree.hasChildren children) = true
        · rw [if_pos hfree, if_pos hfree, HoldsNode.update_eq hq, ok_bind]
          exact .ok ⟨rfl, rfl, insert q S, (hq.relabel _).stored rfl,
            .write (Finset.mem_insert_self q S) _⟩
        · rw [if_neg hfree, if_neg hfree]
          refine (growChildren_lockstep alloc ih hq).bind ?_
          rintro m₁ ⟨children₁, heap₁⟩ ⟨hbodies₁, links₁, S₁, h₁, hstep₁⟩
          obtain rfl : m₁.bodies = heap₁ := hbodies₁
          refine (insertAny_lockstep (ih entity) [0, 1, 2, 3] h₁).bind ?_
          rintro ⟨m₂, accepted⟩ r ⟨haccepted, hbodies₂, S₂, hall, hstep₂⟩
          obtain rfl : accepted = r.accepted := haccepted
          have h₂ := h₁.step hstep₂ hall
          dsimp only
          rw [HoldsNode.read_eq h₂, ok_bind]
          refine (aggregate_lockstep hall Sums.zero).bind ?_
          rintro sums _ rfl
          rw [HoldsNode.update_eq h₂, ok_bind]
          refine .ok ⟨rfl, hbodies₂, insert q S₂, (h₂.relabel _).stored rfl, ?_⟩
          exact (hstep₁.trans (hstep₂.cons q)).trans (.write (Finset.mem_insert_self q S₂) _)

/-- **`Insert` is safe in memory.** On nodes that hold a tree it raises the fault that it raises on
the tree, and no other; when it ends, with the same answer, the nodes hold the new tree, and every
tree that shares no node with the old one is still held, by nodes that are not those of the new
one. -/
theorem insert_in_memory (alloc : Allocator NodeRef) (fuel : ℕ) (entity : BodyRef)
    {m : TreeMemory K} {p : Option NodeRef} {tree : UQuadTree K} {S : Finset NodeRef}
    (h : m.Holds p tree S) :
    (∀ fault, UQuadTree.insert fuel entity tree m.bodies = .error fault →
        TreeMemory.insert alloc fuel entity p m = .error (.code fault)) ∧
      ∀ r, UQuadTree.insert fuel entity tree m.bodies = .ok r →
        ∃ m' S', TreeMemory.insert alloc fuel entity p m = .ok (m', r.accepted) ∧
          m'.bodies = r.heap ∧ m'.Holds p r.tree S' ∧
          (∀ q ∉ S, q ∉ S' → m'.nodes.lookup q = m.nodes.lookup q) ∧
          ∀ p₁ tree₁ S₁, m.Holds p₁ tree₁ S₁ → Disjoint S S₁ →
            m'.Holds p₁ tree₁ S₁ ∧ Disjoint S' S₁ := by
  have hlockstep := lockstepInsert alloc fuel entity m p tree S h
  constructor
  · intro fault hfault
    rw [hfault] at hlockstep
    exact hlockstep.eq_error
  · intro r hr
    rw [hr] at hlockstep
    obtain ⟨⟨m', accepted⟩, hrun, haccepted, hbodies, S', hholds, hstep⟩ := hlockstep.exists_ok
    obtain rfl : accepted = r.accepted := haccepted
    refine ⟨m', S', hrun, hbodies, hholds, hstep.frame, fun p₁ tree₁ S₁ h₁ hdisj ↦ ?_⟩
    exact ⟨h₁.of_rewrites hstep hdisj, hstep.disjoint h₁.allocated hdisj⟩

/-! ## Two roots -/

/-- The root of the unit square, as the leaf of the body `0`. -/
def leafRoot : Fields ℚ :=
  { UQuadTree.Fields.new ⟨⟨0, 0⟩, ⟨1, 1⟩⟩ true with
    bodyEntity := some 0
    mass := 1
    centerMass := some ⟨1 / 8, 1 / 8⟩
    bIsEmpty := false }

/-- The leaf of the body `0` is the node `2`, beside the empty root `1` of another box. The other
bodies lie in the same quadrant of the unit square as the body `0`. -/
def twoRoots : TreeMemory ℚ where
  nodes := ((∅ : Heap NodeRef (Cell NodeRef (Fields ℚ))).insert 1
    ⟨.new ⟨⟨2, 0⟩, ⟨3, 1⟩⟩ true, []⟩).insert 2 ⟨leafRoot, []⟩
  bodies b := .initializeBody (if b = 0 then ⟨1 / 8, 1 / 8⟩ else ⟨3 / 8, 3 / 8⟩) 0 1 b 1 1

theorem twoRoots_holds_leaf : twoRoots.Holds (some 2) (.node leafRoot []) {2} :=
  .node (S := ∅) rfl (Finmap.lookup_insert _) .nil (Finset.notMem_empty _)

theorem twoRoots_holds_empty : twoRoots.Holds (some 1) (.new ⟨⟨2, 0⟩, ⟨3, 1⟩⟩ true) {1} := by
  refine .node (S := ∅) rfl ?_ .nil (Finset.notMem_empty _)
  rw [twoRoots, Finmap.lookup_insert_of_ne _ (by decide), Finmap.lookup_insert]
  rfl

/-- A value computed from the result of a call tells that the call ends. -/
theorem exists_eq_ok_of_map {ε β γ : Type*} {x : Except ε β} {f : β → γ} {c : γ}
    (h : (x.map f).toOption = some c) : ∃ b, x = .ok b ∧ f b = c := by
  cases x with
  | error fault => cases h
  | ok b => exact ⟨b, rfl, Option.some.inj h⟩

private theorem exists_insert_twoRoots : ∃ r,
    UQuadTree.insert 3 1 (.node leafRoot []) twoRoots.bodies = .ok r ∧ r.accepted = true ∧
      (UQuadTree.view r.tree).map (·.2.length) = some 4 := by
  have hcheck : ((UQuadTree.insert 3 1 (.node leafRoot []) twoRoots.bodies).map fun r ↦
      (r.accepted, (UQuadTree.view r.tree).map (·.2.length))).toOption = some (true, some 4) := by
    decide +kernel
  obtain ⟨r, hr, hvalues⟩ := exists_eq_ok_of_map hcheck
  exact ⟨r, hr, congrArg Prod.fst hvalues, congrArg Prod.snd hvalues⟩

theorem insert_in_memory_twoRoots : ∃ m' tree S',
    TreeMemory.insert .next 3 1 (some 2) twoRoots = .ok (m', true) ∧
      m'.Holds (some 2) tree S' ∧ (UQuadTree.view tree).map (·.2.length) = some 4 ∧
      m'.Holds (some 1) (.new ⟨⟨2, 0⟩, ⟨3, 1⟩⟩ true) {1} ∧ Disjoint S' {1} := by
  obtain ⟨r, hr, haccepted, hlength⟩ := exists_insert_twoRoots
  obtain ⟨m', S', hrun, _, hholds, _, hbeside⟩ :=
    (insert_in_memory .next 3 1 twoRoots_holds_leaf).2 r hr
  rw [haccepted] at hrun
  exact ⟨m', r.tree, S', hrun, hholds, hlength,
    hbeside (some 1) _ {1} twoRoots_holds_empty (by decide)⟩

end TreeMemory

end NBodySimulation
