import NBodySimulation.Actors.SimulatorMemory
import NBodySimulation.Quadtree.MemoryDelete

/-!
# Traversals in memory

`CalculateForcesBarnesHut` follows the pointers of the nodes. On nodes that hold a tree it does to
the bodies what the traversal of that tree does, and it only reads the nodes. Every pointer it
follows leads to a node of the tree or is null, so it uses no node that was deleted.

## Main results

* `TreeMemory.traversesWith`: one traversal.
* `TreeMemory.traverseAll_or`: those of a force phase.
-/

namespace NBodySimulation

open Memory

namespace TreeMemory

open UQuadTree (Fields deletionDepth deletionDepthOf)

variable {K : Type*} {m : TreeMemory K} {p : NodeRef} {self : Fields K}
  {links : List (Option NodeRef)} {children : List (UQuadTree K)} {S : Finset NodeRef}

/-! ## Reading a node -/

private theorem HoldsNode.leafBody_eq (h : m.HoldsNode p self links children S) :
    leafBody ⟨self, links⟩ = UQuadTree.leafBody self children := by
  rw [leafBody, UQuadTree.leafBody, HoldsAll.isLeaf_eq h.children]

private theorem HoldsNode.getMass_eq (h : m.HoldsNode p self links children S) (m' : TreeMemory K) :
    m'.getMass ⟨self, links⟩ = UQuadTree.getMass m'.bodies self children := by
  cases hbody : UQuadTree.leafBody self children with
  | none => simp only [getMass, UQuadTree.getMass, h.leafBody_eq, hbody]
  | some b => simp only [getMass, UQuadTree.getMass, h.leafBody_eq, hbody]

variable [Field K]

private theorem HoldsNode.getCenterOfMass_eq (h : m.HoldsNode p self links children S)
    (m' : TreeMemory K) :
    m'.getCenterOfMass ⟨self, links⟩
      = UQuadTree.getCenterOfMass m'.bodies self children := by
  cases hbody : UQuadTree.leafBody self children with
  | none => simp only [getCenterOfMass, UQuadTree.getCenterOfMass, h.leafBody_eq, hbody]
  | some b => simp only [getCenterOfMass, UQuadTree.getCenterOfMass, h.leafBody_eq, hbody]

variable [LinearOrder K] [PythagoreanField K]

private theorem HoldsNode.farTest_eq (h : m.HoldsNode p self links children S) (m' : TreeMemory K)
    (theta : K) (body : BodyRef) : m'.farTest theta body ⟨self, links⟩
      = ABodySimulator.farTest theta m'.bodies body self children := by
  cases hcenter : UQuadTree.getCenterOfMass m'.bodies self children with
  | none => simp only [farTest, ABodySimulator.farTest, h.getCenterOfMass_eq, hcenter]
  | some center => simp only [farTest, ABodySimulator.farTest, h.getCenterOfMass_eq, hcenter]

/-- An application changes the bodies as it does in the traversal of the tree. -/
theorem HoldsNode.apply_eq (h : m.HoldsNode p self links children S) (body : BodyRef)
    (deltaTime : K) (m' : TreeMemory K) (run : Traversal K) (hrun : run.heap = m'.bodies) :
    m'.apply body deltaTime ⟨self, links⟩
      = { m' with bodies := (run.apply body deltaTime self children).heap } := by
  rw [apply, Traversal.apply, h.getCenterOfMass_eq, h.getMass_eq, hrun]
  cases UQuadTree.getCenterOfMass m'.bodies self children with
  | none => simp only [hrun]
  | some center => rfl

/-! ## Traversals -/

/-- A traversal of the nodes with this depth does to the bodies what one of the tree does, or may
not go deep enough. -/
def TraversesWith (theta : K) (body : BodyRef) (deltaTime : K) (depth : ℕ) : Prop :=
  ∀ (m : TreeMemory K) p tree S (run : Traversal K), m.Holds p tree S → run.heap = m.bodies →
    (calculateForcesBarnesHut theta body deltaTime depth p m = .error (.code .outOfFuel) ∧
        depth < tree.deletionDepth) ∨
      calculateForcesBarnesHut theta body deltaTime depth p m = .ok { m with bodies :=
        (ABodySimulator.calculateForcesBarnesHut theta body deltaTime tree run).heap }

variable {theta deltaTime : K} {body : BodyRef} {depth : ℕ}

private theorem TraversesWith.forChildren (hdepth : TraversesWith theta body deltaTime depth)
    (h : m.HoldsAll links children S) (run : Traversal K) (hrun : run.heap = m.bodies) :
    (links.foldlM (fun m child ↦ calculateForcesBarnesHut theta body deltaTime depth child m) m
        = .error (.code .outOfFuel) ∧ depth < deletionDepthOf children) ∨
      links.foldlM (fun m child ↦ calculateForcesBarnesHut theta body deltaTime depth child m) m
        = .ok { m with bodies :=
          (ABodySimulator.calculateForcesChildren theta body deltaTime children run).heap } := by
  induction links generalizing children S m run with
  | nil =>
    cases h
    rw [ABodySimulator.calculateForcesChildren, hrun]
    exact Or.inr rfl
  | cons l links ih =>
    cases h with
    | @cons _ _ tree children _ _ hnode hrest _ =>
      rw [List.foldlM_cons, ABodySimulator.calculateForcesChildren, deletionDepthOf]
      rcases hdepth m l tree _ run hnode hrun with ⟨herr, hlt⟩ | hok
      · exact Or.inl ⟨by rw [herr]; rfl, by omega⟩
      · rw [hok, ok_bind]
        rcases ih (m := ⟨m.nodes,
            (ABodySimulator.calculateForcesBarnesHut theta body deltaTime tree run).heap⟩) hrest
            (ABodySimulator.calculateForcesBarnesHut theta body deltaTime tree run) rfl with
          ⟨herr, hlt⟩ | hok'
        · exact Or.inl ⟨herr, by omega⟩
        · exact Or.inr hok'

/-- **A traversal in memory** is one of the tree that the nodes hold. -/
theorem traversesWith (theta : K) (body : BodyRef) (deltaTime : K) (depth : ℕ) :
    TraversesWith theta body deltaTime depth := by
  induction depth with
  | zero =>
    intro m p tree S run _ _
    exact Or.inl ⟨by rw [calculateForcesBarnesHut], tree.deletionDepth_pos⟩
  | succ depth ih =>
    intro m p tree S run h hrun
    cases tree with
    | nullptr =>
      obtain ⟨rfl, _⟩ := h.eq_of_view_none rfl
      refine Or.inr ?_
      rw [calculateForcesBarnesHut, ABodySimulator.calculateForcesBarnesHut, Traversal.record,
        hrun]
    | node self children =>
      obtain ⟨q, links, S, rfl, hq, rfl⟩ := h.exists_nodeAt rfl
      rw [calculateForcesBarnesHut, ABodySimulator.calculateForcesBarnesHut,
        HoldsNode.read_eq hq, ok_bind, HoldsNode.leafBody_eq hq]
      dsimp only
      have hrun₁ : (run.record (.invoked (.node self children))).heap = m.bodies := hrun
      generalize run.record (.invoked (.node self children)) = run₁ at hrun₁
      rw [← hrun₁]
      by_cases hown : (UQuadTree.leafBody self children).any
          (fun other ↦ (run₁.heap other).index = (run₁.heap body).index) = true
      · rw [if_pos hown, if_pos hown, hrun₁]
        exact Or.inr rfl
      have hleaf : (if (UQuadTree.leafBody self children).isSome = true
            then m.apply body deltaTime ⟨self, links⟩ else m)
          = { m with bodies := (if (UQuadTree.leafBody self children).isSome = true
              then run₁.apply body deltaTime self children else run₁).heap } := by
        by_cases hsome : (UQuadTree.leafBody self children).isSome = true
        · rw [if_pos hsome, if_pos hsome, HoldsNode.apply_eq hq body deltaTime m run₁ hrun₁]
        · rw [if_neg hsome, if_neg hsome, hrun₁]
      rw [if_neg hown, if_neg hown, hleaf]
      generalize (if (UQuadTree.leafBody self children).isSome = true
        then run₁.apply body deltaTime self children else run₁) = run₂
      by_cases hempty : UQuadTree.isEmpty self = true
      · rw [if_pos hempty, if_pos hempty]
        exact Or.inr rfl
      rw [if_neg hempty, if_neg hempty, HoldsNode.farTest_eq hq, HoldsNode.getMass_eq hq]
      by_cases hfar : ABodySimulator.farTest theta run₂.heap body self children = true
      · rw [if_pos hfar, if_pos hfar]
        have hrun₃ : (run₂.record (.far (.node self children))).heap = run₂.heap := rfl
        generalize run₂.record (.far (.node self children)) = run₃ at hrun₃
        rw [← hrun₃]
        refine Or.inr ?_
        by_cases hmass : UQuadTree.getMass run₃.heap self children > 0
        · rw [if_pos hmass, if_pos hmass, HoldsNode.apply_eq hq body deltaTime _ run₃ rfl]
        · rw [if_neg hmass, if_neg hmass]
      · rw [if_neg hfar, if_neg hfar]
        have hall : (TreeMemory.mk m.nodes run₂.heap).HoldsAll links children S := hq.children
        rcases ih.forChildren hall run₂ rfl with ⟨herr, hlt⟩ | hok
        · exact Or.inl ⟨herr, Nat.succ_lt_succ hlt⟩
        · exact Or.inr hok

theorem traverseAll_or {p : Option NodeRef} {tree : UQuadTree K} (theta deltaTime : K) (depth : ℕ)
    (bodies : List BodyRef) (h : m.Holds p tree S) :
    (bodies.foldlM (fun m body ↦ calculateForcesBarnesHut theta body deltaTime depth p m) m
        = .error (.code .outOfFuel) ∧ depth < tree.deletionDepth) ∨
      bodies.foldlM (fun m body ↦ calculateForcesBarnesHut theta body deltaTime depth p m) m
        = .ok { m with bodies := bodies.foldl (fun heap body ↦
            (ABodySimulator.calculateForcesBarnesHut theta body deltaTime tree
              ⟨heap, []⟩).heap) m.bodies } := by
  induction bodies generalizing m with
  | nil => exact Or.inr rfl
  | cons body bodies ih =>
    rw [List.foldlM_cons, List.foldl_cons]
    rcases traversesWith theta body deltaTime depth m p tree S ⟨m.bodies, []⟩ h rfl with
      ⟨herr, hlt⟩ | hok
    · exact Or.inl ⟨by rw [herr]; rfl, hlt⟩
    · rw [hok, ok_bind]
      exact ih (m := ⟨m.nodes, _⟩) h

end TreeMemory

end NBodySimulation
