import NBodySimulation.Memory.StoredTree
import NBodySimulation.Objects.QuadTree

/-!
# The quadtree in memory

`UQuadTree` as the code runs: nodes are objects at addresses, `Children` holds pointers, `SubDivide`
makes the children with `new`, `Insert` updates the nodes in place, and the destructor deletes the
children. `Objects.QuadTree` gives the same methods on trees as values; that the two agree, and that
no method touches a node that is not allocated, is proved for all of them.

## Failure

A pointer that is not null may lead to a node that has been deleted, so besides the faults of
`Fault` there are two more: using such a node, and deleting it a second time.
-/

namespace NBodySimulation

open Memory (Cell Heap Allocator)

/-- The address of a `UQuadTree` object. -/
abbrev NodeRef := ℕ

/-- Why a call on nodes in memory does not return. -/
inductive MemoryFault
  | code (fault : Fault)
  | useAfterFree
  | invalidFree
deriving DecidableEq

/-- The objects that the quadtree code works on: its nodes and the bodies. -/
structure TreeMemory (K : Type*) where
  nodes : Heap NodeRef (Cell NodeRef (UQuadTree.Fields K))
  bodies : BodyHeap K

namespace UQuadTree

variable {K : Type*}

/-- The fields that the constructor leaves. -/
def Fields.new [Zero K] (inBox : FBox2D K) (inIsRoot : Bool) : Fields K where
  box := inBox
  bodyEntity := none
  bIsSubdivided := false
  bIsEmpty := true
  mass := 0
  centerMass := none
  bIsRoot := inIsRoot

/-- The fields and the children of the node that a pointer leads to. -/
def view : UQuadTree K → Option (Fields K × List (UQuadTree K))
  | nullptr => none
  | node self children => some (self, children)

end UQuadTree

namespace TreeMemory

open UQuadTree (Fields Sums)

variable {K : Type*}

/-! ## Access -/

/-- The object behind `Node->`. -/
def read (m : TreeMemory K) : Option NodeRef → Except MemoryFault (Cell NodeRef (Fields K))
  | none => .error (.code .nullDereference)
  | some p =>
    match m.nodes.lookup p with
    | none => .error .useAfterFree
    | some node => .ok node

def update (m : TreeMemory K) (p : NodeRef)
    (f : Cell NodeRef (Fields K) → Cell NodeRef (Fields K)) :
    Except MemoryFault (TreeMemory K) := do
  let node ← m.read (some p)
  .ok { m with nodes := m.nodes.insert p (f node) }

/-- `new UQuadTree(InBox, InIsRoot)`. -/
def new [Zero K] (alloc : Allocator NodeRef) (m : TreeMemory K) (inBox : FBox2D K)
    (inIsRoot : Bool) : NodeRef × TreeMemory K :=
  let p := alloc.fresh m.nodes.keys
  (p, { m with nodes := m.nodes.insert p ⟨.new inBox inIsRoot, []⟩ })

def hasChildren (children : List (Option NodeRef)) : Bool := children.any Option.isSome

def isLeaf (children : List (Option NodeRef)) : Bool :=
  if !hasChildren children then true
  else [0, 1, 2, 3].all fun i ↦ !(children.getD i none).isSome

def leafBody (node : Cell NodeRef (Fields K)) : Option BodyRef :=
  if isLeaf node.links then node.label.bodyEntity else none

/-! ## Insertion -/

section

variable [Field K]

/-- `Children.Insert(new UQuadTree(InBox), Index)`. -/
def insertChild (alloc : Allocator NodeRef) (p : NodeRef) (index : ℕ) (inBox : FBox2D K)
    (m : TreeMemory K) : Except MemoryFault (TreeMemory K) :=
  let (child, m) := m.new alloc inBox false
  m.update p fun node ↦ { node with links := node.links.insertIdx index (some child) }

/-- `UQuadTree::SubDivide`. -/
def subDivide (alloc : Allocator NodeRef) (p : NodeRef) (m : TreeMemory K) :
    Except MemoryFault (TreeMemory K) := do
  let node ← m.read (some p)
  let (center, size) := node.label.box.getCenterAndExtents
  let m ← m.insertChild alloc p 0
    ⟨⟨center.x, center.y - size.y⟩, ⟨center.x + size.x, center.y⟩⟩
  let m ← m.insertChild alloc p 1
    ⟨⟨center.x, center.y⟩, ⟨center.x + size.x, center.y + size.y⟩⟩
  let m ← m.insertChild alloc p 2
    ⟨⟨center.x - size.x, center.y - size.y⟩, ⟨center.x, center.y⟩⟩
  m.insertChild alloc p 3
    ⟨⟨center.x - size.x, center.y⟩, ⟨center.x, center.y + size.y⟩⟩

/-- The aggregation loop over `Children`. -/
def aggregate (m : TreeMemory K) : List (Option NodeRef) → Sums K → Except MemoryFault (Sums K)
  | [], sums => .ok sums
  | child :: rest, sums => do
    let node ← m.read child
    m.aggregate rest (sums.addChild node.label)

end

/-- The loop `for (Child : Children) if (Child->Insert(BodyEntity)) break;`, over the call `ins`. -/
def insertUntilAccepted
    (ins : Option NodeRef → TreeMemory K → Except MemoryFault (TreeMemory K × Bool)) :
    List (Option NodeRef) → TreeMemory K → Except MemoryFault (TreeMemory K)
  | [], m => .ok m
  | child :: rest, m => do
    let (m, accepted) ← ins child m
    if accepted then
      .ok m
    else
      insertUntilAccepted ins rest m

/-- `Children[i]->Insert(Entity) || ...`, for the indices that are left to try. -/
def insertAny (ins : Option NodeRef → TreeMemory K → Except MemoryFault (TreeMemory K × Bool))
    (p : NodeRef) : List ℕ → TreeMemory K → Except MemoryFault (TreeMemory K × Bool)
  | [], m => .ok (m, false)
  | i :: rest, m => do
    let node ← m.read (some p)
    match node.links[i]? with
    | none => .error (.code .indexOutOfRange)
    | some child =>
      let (m, accepted) ← ins child m
      if accepted then
        .ok (m, true)
      else
        insertAny ins p rest m

/-- The block `if (!bIsSubdivided)`, over the call `ins` with which a body is inserted into a
child. -/
def growChildren [Field K] (alloc : Allocator NodeRef)
    (ins : BodyRef → Option NodeRef → TreeMemory K → Except MemoryFault (TreeMemory K × Bool))
    (p : NodeRef) (m : TreeMemory K) : Except MemoryFault (TreeMemory K) := do
  let node ← m.read (some p)
  if !node.label.bIsSubdivided then
    let m ← m.update p fun node ↦ { node with label := { node.label with bIsSubdivided := true } }
    let m ← m.subDivide alloc p
    let node ← m.read (some p)
    match node.label.bodyEntity with
    | none => .error (.code .nullDereference)
    | some resident => insertUntilAccepted (ins resident) node.links m
  else
    .ok m

/-- `UQuadTree::Insert`. -/
protected def insert [Field K] [LinearOrder K] (alloc : Allocator NodeRef) :
    ℕ → BodyRef → Option NodeRef → TreeMemory K → Except MemoryFault (TreeMemory K × Bool)
  | 0, _, _, _ => .error (.code .outOfFuel)
  | _ + 1, _, none, _ => .error (.code .nullDereference)
  | fuel + 1, entity, some p, m => do
    let node ← m.read (some p)
    if !node.label.box.isInside (m.bodies entity).position then
      if node.label.bIsRoot then
        .ok ({ m with bodies := m.bodies.modify entity (·.adjustPosition node.label.box) }, false)
      else
        .ok (m, false)
    else if UQuadTree.isEmpty node.label && !hasChildren node.links then
      let m ← m.update p fun node ↦ { node with label := { node.label with
        bodyEntity := some entity
        mass := (m.bodies entity).mass
        centerMass := some (m.bodies entity).position
        bIsEmpty := false } }
      .ok (m, true)
    else
      let m ← m.growChildren alloc (TreeMemory.insert alloc fuel) p
      let (m, accepted) ← insertAny (TreeMemory.insert alloc fuel entity) p [0, 1, 2, 3] m
      let node ← m.read (some p)
      let sums ← m.aggregate node.links Sums.zero
      let m ← m.update p fun node ↦ { node with label := { node.label with
        mass := sums.tempMass
        centerMass := sums.centerMass } }
      .ok (m, accepted)

/-! ## Deletion -/

/-- Give the memory of an object back. -/
def free (m : TreeMemory K) (p : NodeRef) : Except MemoryFault (TreeMemory K) :=
  match m.nodes.lookup p with
  | none => .error .invalidFree
  | some _ => .ok { m with nodes := m.nodes.erase p }

mutual

/-- `delete Node`: the destructor, and then the memory of the node itself. Deleting a null pointer
does nothing. -/
def delete : ℕ → Option NodeRef → TreeMemory K → Except MemoryFault (TreeMemory K)
  | 0, _, _ => .error (.code .outOfFuel)
  | _ + 1, none, m => .ok m
  | fuel + 1, some p, m => do
    let m ← destroyChildren fuel p 0 m
    m.free p

/-- `UQuadTree::~UQuadTree`, from the turn of its loop for index `i` on. -/
def destroyChildren : ℕ → NodeRef → ℕ → TreeMemory K → Except MemoryFault (TreeMemory K)
  | 0, _, _, _ => .error (.code .outOfFuel)
  | fuel + 1, p, i, m => do
    let node ← m.read (some p)
    match node.links[i]? with
    | none => .ok m
    | some none => destroyChildren fuel p (i + 1) m
    | some (some child) =>
      let m ← delete fuel (some child) m
      let m ← m.update p fun node ↦ { node with links := node.links.set i none }
      destroyChildren fuel p (i + 1) m

end

end TreeMemory

end NBodySimulation
