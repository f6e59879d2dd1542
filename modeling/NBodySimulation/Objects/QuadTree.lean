import NBodySimulation.Objects.BodyEntity

/-!
# The quadtree as the code stores it

`UQuadTree` with its own overlapping fields: `bIsEmpty`, `BodyEntity`, `bIsSubdivided` and
`Children` all say something about the kind of a node, and nothing in the type makes them agree.
That they do agree in every tree that can be built is proved later, by representing each of those
trees by a `PointTree`.

## Failure

`Insert` has no depth limit, so it takes fuel; running out is the fault `outOfFuel`, and a call
finishes when some fuel makes it return. The unchecked accesses of the code, through a null pointer
or past the end of `Children`, are faults as well.

## Undefined centres

A fresh node leaves `CenterMass` uninitialised, and the aggregation divides by the number of
occupied children, which can be zero. Both are the undefined centre `none`, and like a NaN it
spreads through every sum it enters.
-/

namespace NBodySimulation

/-- Why a call does not return. -/
inductive Fault
  | outOfFuel
  | nullDereference
  | indexOutOfRange
deriving DecidableEq

/-- The fields of a `UQuadTree` other than `Children`. -/
structure UQuadTree.Fields (K : Type*) where
  box : FBox2D K
  bodyEntity : Option BodyRef
  bIsSubdivided : Bool
  bIsEmpty : Bool
  mass : K
  centerMass : Option (FVector2D K)
  bIsRoot : Bool

/-- A `UQuadTree*`, with the node it points to. -/
inductive UQuadTree (K : Type*)
  | nullptr
  | node (self : UQuadTree.Fields K) (children : List (UQuadTree K))

namespace UQuadTree

variable {K : Type*}

/-! ## Small methods -/

/-- The comparison `Child != nullptr`. -/
def nonNull : UQuadTree K → Bool
  | nullptr => false
  | node _ _ => true

def hasChildren (children : List (UQuadTree K)) : Bool := children.any nonNull

def isLeaf (children : List (UQuadTree K)) : Bool :=
  if !hasChildren children then true
  else [0, 1, 2, 3].all fun i ↦ !(children.getD i nullptr).nonNull

def isEmpty (self : Fields K) : Bool := self.bIsEmpty

/-- The body that makes `IsLeaf() && BodyEntity` true. -/
def leafBody (self : Fields K) (children : List (UQuadTree K)) : Option BodyRef :=
  if isLeaf children then self.bodyEntity else none

section

variable [Field K]

/-- `UQuadTree::UQuadTree(InBox, InIsRoot)`. -/
def new (inBox : FBox2D K) (inIsRoot : Bool) : UQuadTree K :=
  node { box := inBox, bodyEntity := none, bIsSubdivided := false, bIsEmpty := true, mass := 0,
         centerMass := none, bIsRoot := inIsRoot } []

end

section

variable [Field K] [LinearOrder K]

def getCenterOfMass (heap : BodyHeap K) (self : Fields K) (children : List (UQuadTree K)) :
    Option (FVector2D K) :=
  match leafBody self children with
  | some body => some (heap body).getCenterOfMass
  | none => self.centerMass

def getMass (heap : BodyHeap K) (self : Fields K) (children : List (UQuadTree K)) : K :=
  match leafBody self children with
  | some body => (heap body).mass
  | none => self.mass

/-- `UQuadTree::SubDivide`: the four `Children.Insert(new UQuadTree(..), i)`. -/
def subDivide (box : FBox2D K) (children : List (UQuadTree K)) : List (UQuadTree K) :=
  let (center, size) := box.getCenterAndExtents
  let children := children.insertIdx 0
    (new ⟨⟨center.x, center.y - size.y⟩, ⟨center.x + size.x, center.y⟩⟩ false)
  let children := children.insertIdx 1
    (new ⟨⟨center.x, center.y⟩, ⟨center.x + size.x, center.y + size.y⟩⟩ false)
  let children := children.insertIdx 2
    (new ⟨⟨center.x - size.x, center.y - size.y⟩, ⟨center.x, center.y⟩⟩ false)
  children.insertIdx 3
    (new ⟨⟨center.x - size.x, center.y⟩, ⟨center.x, center.y + size.y⟩⟩ false)

end

/-! ## The aggregation loop -/

/-- The locals `TempMass`, `(CenterX, CenterY)` and `Size` of the loop that ends `Insert`. -/
structure Sums (K : Type*) where
  tempMass : K
  center : Option (FVector2D K)
  size : ℕ

namespace Sums

variable [Field K]

def zero : Sums K := ⟨0, some 0, 0⟩

/-- One turn of the loop, on the fields of the child. -/
def addChild (sums : Sums K) (child : Fields K) : Sums K :=
  match child.bodyEntity with
  | none => sums
  | some _ =>
    { tempMass := sums.tempMass + child.mass
      center := Option.map₂ (· + ·) sums.center child.centerMass
      size := sums.size + 1 }

/-- `CenterX / Size` and `CenterY / Size`, undefined when `Size` is zero. -/
def centerMass (sums : Sums K) : Option (FVector2D K) :=
  if sums.size = 0 then none else sums.center.map fun c ↦ c / (sums.size : K)

end Sums

/-- The loop over `Children`, which reads `Child->BodyEntity` unchecked. -/
def aggregate [Field K] : List (UQuadTree K) → Sums K → Except Fault (Sums K)
  | [], sums => .ok sums
  | nullptr :: _, _ => .error .nullDereference
  | node child _ :: rest, sums => aggregate rest (sums.addChild child)

/-! ## Insertion -/

/-- What `Insert` hands back: the node and the heap it leaves, and its return value. -/
structure Inserted (K T : Type*) where
  tree : T
  heap : BodyHeap K
  accepted : Bool

/-- The loop `for (Child : Children) if (Child->Insert(BodyEntity)) break;`, over the call `ins`. -/
def insertUntilAccepted (ins : UQuadTree K → BodyHeap K → Except Fault (Inserted K (UQuadTree K))) :
    List (UQuadTree K) → BodyHeap K → Except Fault (List (UQuadTree K) × BodyHeap K)
  | [], heap => .ok ([], heap)
  | child :: rest, heap => do
    let r ← ins child heap
    if r.accepted then
      .ok (r.tree :: rest, r.heap)
    else
      let (rest, heap) ← insertUntilAccepted ins rest r.heap
      .ok (r.tree :: rest, heap)

/-- `Children[i]->Insert(Entity) || ...`, for the indices that are left to try. -/
def insertAny (ins : UQuadTree K → BodyHeap K → Except Fault (Inserted K (UQuadTree K))) :
    List ℕ → List (UQuadTree K) → BodyHeap K → Except Fault (Inserted K (List (UQuadTree K)))
  | [], children, heap => .ok ⟨children, heap, false⟩
  | i :: rest, children, heap =>
    match children[i]? with
    | none => .error .indexOutOfRange
    | some child => do
      let r ← ins child heap
      if r.accepted then
        .ok ⟨children.set i r.tree, r.heap, true⟩
      else
        insertAny ins rest (children.set i r.tree) r.heap

/-- The block `if (!bIsSubdivided)`: subdivide and push the resident body down, over the call `ins`
with which a body is inserted into a child. -/
def growChildren [Field K] [LinearOrder K]
    (ins : BodyRef → UQuadTree K → BodyHeap K → Except Fault (Inserted K (UQuadTree K)))
    (self : Fields K) (children : List (UQuadTree K)) (heap : BodyHeap K) :
    Except Fault (List (UQuadTree K) × BodyHeap K) :=
  if !self.bIsSubdivided then
    match self.bodyEntity with
    | none => .error .nullDereference
    | some resident => insertUntilAccepted (ins resident) (subDivide self.box children) heap
  else
    .ok (children, heap)

def insert [Field K] [LinearOrder K] : ℕ → BodyRef → UQuadTree K → BodyHeap K →
    Except Fault (Inserted K (UQuadTree K))
  | 0, _, _, _ => .error .outOfFuel
  | _ + 1, _, nullptr, _ => .error .nullDereference
  | fuel + 1, entity, node self children, heap =>
    if !self.box.isInside (heap entity).position then
      -- only the root wraps the body back, and it still rejects it
      if self.bIsRoot then
        .ok ⟨node self children, heap.modify entity (·.adjustPosition self.box), false⟩
      else
        .ok ⟨node self children, heap, false⟩
    else if isEmpty self && !hasChildren children then
      .ok ⟨node { self with
              bodyEntity := some entity
              mass := (heap entity).mass
              centerMass := some (heap entity).position
              bIsEmpty := false } children, heap, true⟩
    else do
      let (children, heap) ← growChildren (insert fuel) self children heap
      let r ← insertAny (insert fuel entity) [0, 1, 2, 3] children heap
      let sums ← aggregate r.tree Sums.zero
      .ok ⟨node { self with
              bIsSubdivided := true
              mass := sums.tempMass
              centerMass := sums.centerMass } r.tree, r.heap, r.accepted⟩

end UQuadTree

end NBodySimulation
