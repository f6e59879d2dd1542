import Mathlib.Data.List.GetD
import Mathlib.Data.List.InsertIdx
import NBodySimulation.Quadtree.Cells

/-!
# Changes of units

The code has no units and no distinguished origin of its own: lengths are compared with lengths, and
times enter as `DeltaTime` only. A change of the units of length and of time, and of the origin, is
therefore carried along by everything that is stored. A place `p` becomes `p * length + origin`, a
velocity is scaled by `length / time`, and `G` by `length³ / time²`; masses and indices stay what
they are.

`Insert` compares places with the sides of boxes and averages places, so it commutes with a change
of units outright, whether it returns or not.

## Main result

* `ChangeOfUnits.insert_tree`: inserting into the changed tree.
-/

namespace NBodySimulation

universe v

/-- A change of the units of length and of time, and of the origin. -/
structure ChangeOfUnits (K : Type*) [Field K] [LinearOrder K] where
  length : K
  time : K
  origin : FVector2D K
  length_pos : 0 < length
  time_pos : 0 < time

namespace ChangeOfUnits

variable {K : Type*} [Field K] [LinearOrder K] (u : ChangeOfUnits K)

/-! ## What is stored, in the new units -/

def coordX (v : K) : K := v * u.length + u.origin.x

def coordY (v : K) : K := v * u.length + u.origin.y

def point (p : FVector2D K) : FVector2D K := ⟨u.coordX p.x, u.coordY p.y⟩

@[simp] theorem x_point (p : FVector2D K) : (u.point p).x = u.coordX p.x := rfl

@[simp] theorem y_point (p : FVector2D K) : (u.point p).y = u.coordY p.y := rfl

def gravity (g : K) : K := g * (u.length ^ 3 / u.time ^ 2)

def box (b : FBox2D K) : FBox2D K := ⟨u.point b.min, u.point b.max⟩

@[simp] theorem min_box (b : FBox2D K) : (u.box b).min = u.point b.min := rfl

@[simp] theorem max_box (b : FBox2D K) : (u.box b).max = u.point b.max := rfl

def body (b : UBodyEntity K) : UBodyEntity K :=
  { b with
    minimumGravityDistance := b.minimumGravityDistance * u.length
    g := u.gravity b.g
    position := u.point b.position
    velocity := b.velocity * (u.length / u.time) }

def heap (objects : BodyHeap K) : BodyHeap K := fun b ↦ u.body (objects b)

def fields (self : UQuadTree.Fields K) : UQuadTree.Fields K :=
  { self with
    box := u.box self.box
    centerMass := self.centerMass.map u.point }

section Fields

variable (self : UQuadTree.Fields K)

@[simp] theorem box_fields : (u.fields self).box = u.box self.box := rfl

@[simp] theorem bodyEntity_fields : (u.fields self).bodyEntity = self.bodyEntity := rfl

@[simp] theorem bIsSubdivided_fields : (u.fields self).bIsSubdivided = self.bIsSubdivided := rfl

@[simp] theorem bIsRoot_fields : (u.fields self).bIsRoot = self.bIsRoot := rfl

@[simp] theorem isEmpty_fields :
    UQuadTree.isEmpty (u.fields self) = UQuadTree.isEmpty self := rfl

end Fields

mutual

def tree : UQuadTree K → UQuadTree K
  | .nullptr => .nullptr
  | .node self children => .node (u.fields self) (trees children)

def trees : List (UQuadTree K) → List (UQuadTree K)
  | [] => []
  | child :: rest => tree child :: trees rest

end

private theorem trees_eq_map (children : List (UQuadTree K)) :
    u.trees children = children.map u.tree := by
  induction children with
  | nil => rfl
  | cons child rest ih => rw [trees, ih, List.map_cons]

def inserted {T : Type*} (f : T → T) (r : UQuadTree.Inserted K T) : UQuadTree.Inserted K T :=
  ⟨f r.tree, u.heap r.heap, r.accepted⟩

section Inserted

variable {T : Type*} (f : T → T) (r : UQuadTree.Inserted K T)

@[simp] theorem tree_inserted : (u.inserted f r).tree = f r.tree := rfl

@[simp] theorem heap_inserted : (u.inserted f r).heap = u.heap r.heap := rfl

@[simp] theorem accepted_inserted : (u.inserted f r).accepted = r.accepted := rfl

end Inserted

theorem heap_modify {f f' : UBodyEntity K → UBodyEntity K}
    (hf : ∀ b, f' (u.body b) = u.body (f b)) (objects : BodyHeap K) (b : BodyRef) :
    (u.heap objects).modify b f' = u.heap (objects.modify b f) := by
  funext c
  by_cases hcb : c = b
  · rw [hcb, BodyHeap.modify_self, heap, heap, BodyHeap.modify_self, hf]
  · rw [BodyHeap.modify_of_ne _ _ hcb, heap, heap, BodyHeap.modify_of_ne _ _ hcb]

/-! ## The kind of a node -/

@[simp] theorem nonNull_tree (t : UQuadTree K) : (u.tree t).nonNull = t.nonNull := by
  cases t with
  | nullptr => rfl
  | node self children => rfl

private theorem hasChildren_trees (children : List (UQuadTree K)) :
    UQuadTree.hasChildren (u.trees children) = UQuadTree.hasChildren children := by
  rw [UQuadTree.hasChildren, UQuadTree.hasChildren, trees_eq_map, List.any_map]
  exact congrArg children.any (funext u.nonNull_tree)

theorem leafBody_tree (self : UQuadTree.Fields K) (children : List (UQuadTree K)) :
    UQuadTree.leafBody (u.fields self) (u.trees children) = UQuadTree.leafBody self children := by
  have hchild : ∀ i, ((u.trees children).getD i .nullptr).nonNull
      = (children.getD i .nullptr).nonNull := by
    intro i
    rw [trees_eq_map, ← u.nonNull_tree (children.getD i .nullptr)]
    exact congrArg UQuadTree.nonNull (List.getD_map children .nullptr u.tree)
  simp only [UQuadTree.leafBody, UQuadTree.isLeaf, hasChildren_trees, hchild]
  rfl

/-! ## Boxes -/

section Boxes

variable [IsStrictOrderedRing K]

private theorem coordX_strictMono : StrictMono u.coordX :=
  fun _ _ h ↦ add_lt_add_left (mul_lt_mul_of_pos_right h u.length_pos) _

private theorem coordY_strictMono : StrictMono u.coordY :=
  fun _ _ h ↦ add_lt_add_left (mul_lt_mul_of_pos_right h u.length_pos) _

private theorem isInside_box (b : FBox2D K) (p : FVector2D K) :
    (u.box b).isInside (u.point p) = b.isInside p := by
  rw [Bool.eq_iff_iff, FBox2D.isInside_iff, FBox2D.isInside_iff]
  simp only [box, point, u.coordX_strictMono.lt_iff_lt, u.coordY_strictMono.lt_iff_lt]

omit [Field K] [IsStrictOrderedRing K] in
private theorem wrapAxis_of_strictMono {f : K → K} (hf : StrictMono f) (lo hi v : K) :
    wrapAxis (f lo) (f hi) (f v) = f (wrapAxis lo hi v) := by
  simp only [wrapAxis, gt_iff_lt, hf.lt_iff_lt]
  rw [apply_ite f, apply_ite f]

theorem wrap_box (b : FBox2D K) (p : FVector2D K) :
    (u.box b).wrap (u.point p) = u.point (b.wrap p) := by
  ext
  · exact wrapAxis_of_strictMono u.coordX_strictMono _ _ _
  · exact wrapAxis_of_strictMono u.coordY_strictMono _ _ _

private theorem adjustPosition_body (b : UBodyEntity K) (bounds : FBox2D K) :
    (u.body b).adjustPosition (u.box bounds) = u.body (b.adjustPosition bounds) := by
  rw [UBodyEntity.adjustPosition, body, wrap_box]
  rfl

omit [IsStrictOrderedRing K] in
theorem extents_box (b : FBox2D K) :
    (u.box b).getCenterAndExtents.2 = b.getCenterAndExtents.2 * u.length := by
  ext
  · simp only [FBox2D.getCenterAndExtents, min_box, max_box, FVector2D.x_sub, FVector2D.x_mul,
      x_point, coordX]
    ring
  · simp only [FBox2D.getCenterAndExtents, min_box, max_box, FVector2D.y_sub, FVector2D.y_mul,
      y_point, coordY]
    ring

private theorem coordX_midpoint (lo hi : K) :
    (u.coordX lo + u.coordX hi) / 2 = u.coordX ((lo + hi) / 2) := by
  rw [coordX, coordX, coordX]
  ring

private theorem coordY_midpoint (lo hi : K) :
    (u.coordY lo + u.coordY hi) / 2 = u.coordY ((lo + hi) / 2) := by
  rw [coordY, coordY, coordY]
  ring

private theorem quarter_box (b : FBox2D K) (i : Fin 4) :
    (u.box b).quarter i = u.box (b.quarter i) := by
  ext
  · rw [min_box, x_point, FBox2D.quarter_min_x, FBox2D.quarter_min_x, apply_ite u.coordX,
      ← coordX_midpoint]
    rfl
  · rw [min_box, y_point, FBox2D.quarter_min_y, FBox2D.quarter_min_y, apply_ite u.coordY,
      ← coordY_midpoint]
    rfl
  · rw [max_box, x_point, FBox2D.quarter_max_x, FBox2D.quarter_max_x, apply_ite u.coordX,
      ← coordX_midpoint]
    rfl
  · rw [max_box, y_point, FBox2D.quarter_max_y, FBox2D.quarter_max_y, apply_ite u.coordY,
      ← coordY_midpoint]
    rfl

omit [IsStrictOrderedRing K] in
theorem tree_new (b : FBox2D K) (isRoot : Bool) :
    u.tree (UQuadTree.new b isRoot) = UQuadTree.new (u.box b) isRoot := rfl

private theorem subDivide_box (b : FBox2D K) (children : List (UQuadTree K)) :
    UQuadTree.subDivide (u.box b) (u.trees children)
      = u.trees (UQuadTree.subDivide b children) := by
  have hsplit : ∀ (b : FBox2D K) (children : List (UQuadTree K)), UQuadTree.subDivide b children
      = (((children.insertIdx 0 (UQuadTree.new (b.quarter 0) false)).insertIdx 1
        (UQuadTree.new (b.quarter 1) false)).insertIdx 2
        (UQuadTree.new (b.quarter 2) false)).insertIdx 3
        (UQuadTree.new (b.quarter 3) false) := fun _ _ ↦ rfl
  simp only [hsplit, trees_eq_map, List.map_insertIdx, tree_new, quarter_box]

end Boxes

/-! ## The aggregation loop -/

/-- The sum of places that the loop has met, of which there are `Size`. -/
def sums (sums : UQuadTree.Sums K) : UQuadTree.Sums K :=
  { sums with center := sums.center.map fun c ↦ c * u.length + u.origin * (sums.size : K) }

private theorem sums_zero : u.sums UQuadTree.Sums.zero = UQuadTree.Sums.zero := by
  rw [sums, UQuadTree.Sums.zero]
  simp

private theorem addChild_fields (sums : UQuadTree.Sums K) (child : UQuadTree.Fields K) :
    (u.sums sums).addChild (u.fields child) = u.sums (sums.addChild child) := by
  have hadd : ∀ c d : FVector2D K, c * u.length + u.origin * (sums.size : K) + u.point d
      = (c + d) * u.length + u.origin * ((sums.size + 1 : ℕ) : K) := by
    intro c d
    ext
    · simp only [FVector2D.x_add, FVector2D.x_mul, x_point, coordX, Nat.cast_succ]
      ring
    · simp only [FVector2D.y_add, FVector2D.y_mul, y_point, coordY, Nat.cast_succ]
      ring
  rw [UQuadTree.Sums.addChild, UQuadTree.Sums.addChild, bodyEntity_fields]
  cases child.bodyEntity with
  | none => rfl
  | some b =>
    -- A lost centre stays lost: the sum of centres is kept only while both sides have one.
    rcases hcenter : sums.center with _ | c
    · simp [ChangeOfUnits.sums, fields, hcenter]
    · rcases hchild : child.centerMass with _ | d
      · simp [ChangeOfUnits.sums, fields, hcenter, hchild]
      · simp [ChangeOfUnits.sums, fields, hcenter, hchild, hadd]

private theorem centerMass_sums [CharZero K] (sums : UQuadTree.Sums K) :
    (u.sums sums).centerMass = sums.centerMass.map u.point := by
  rw [UQuadTree.Sums.centerMass, UQuadTree.Sums.centerMass, ChangeOfUnits.sums]
  by_cases hsize : sums.size = 0
  · rw [if_pos hsize, if_pos hsize, Option.map_none]
  · -- The origin was added once for each centre, and the mean divides by as many.
    have hcast : (sums.size : K) ≠ 0 := Nat.cast_ne_zero.mpr hsize
    rw [if_neg hsize, if_neg hsize, Option.map_map, Option.map_map]
    refine Option.map_congr fun c _ ↦ ?_
    ext
    · simp only [Function.comp_apply, FVector2D.x_div, FVector2D.x_add, FVector2D.x_mul, x_point,
        coordX]
      field_simp
    · simp only [Function.comp_apply, FVector2D.y_div, FVector2D.y_add, FVector2D.y_mul, y_point,
        coordY]
      field_simp

private theorem aggregate_trees (children : List (UQuadTree K)) (sums : UQuadTree.Sums K) :
    UQuadTree.aggregate (u.trees children) (u.sums sums)
      = (UQuadTree.aggregate children sums).map u.sums := by
  induction children generalizing sums with
  | nil => rfl
  | cons child rest ih =>
    cases child with
    | nullptr => rfl
    | node self children =>
      rw [trees, tree, UQuadTree.aggregate, addChild_fields, ih, UQuadTree.aggregate]

/-! ## Insertion -/

theorem map_bind_of_map {ε : Type*} {α β : Type v} {x x' : Except ε α} {f f' : α → Except ε β}
    {φ : α → α} {ψ : β → β} (h : x' = x.map φ) (hf : ∀ a, f' (φ a) = (f a).map ψ) :
    x' >>= f' = (x >>= f).map ψ := by
  subst h
  cases x with
  | error fault => rfl
  | ok a => exact hf a

section Insertion

variable {ins ins' : UQuadTree K → BodyHeap K → Except Fault (UQuadTree.Inserted K (UQuadTree K))}
  (hins : ∀ t objects, ins' (u.tree t) (u.heap objects) = (ins t objects).map (u.inserted u.tree))

include hins

private theorem insertUntilAccepted_trees (children : List (UQuadTree K)) (objects : BodyHeap K) :
    UQuadTree.insertUntilAccepted ins' (u.trees children) (u.heap objects)
      = (UQuadTree.insertUntilAccepted ins children objects).map (Prod.map u.trees u.heap) := by
  induction children generalizing objects with
  | nil => rfl
  | cons child rest ih =>
    rw [trees, UQuadTree.insertUntilAccepted, UQuadTree.insertUntilAccepted]
    refine map_bind_of_map (hins child objects) fun r ↦ ?_
    rw [accepted_inserted]
    by_cases hr : r.accepted = true
    · rw [if_pos hr, if_pos hr]
      rfl
    · rw [if_neg hr, if_neg hr]
      exact map_bind_of_map (ih r.heap) fun _ ↦ rfl

private theorem insertAny_trees (indices : List ℕ) (children : List (UQuadTree K))
    (objects : BodyHeap K) :
    UQuadTree.insertAny ins' indices (u.trees children) (u.heap objects)
      = (UQuadTree.insertAny ins indices children objects).map (u.inserted u.trees) := by
  induction indices generalizing children objects with
  | nil => rfl
  | cons i rest ih =>
    have hget : (u.trees children)[i]? = children[i]?.map u.tree := by
      rw [trees_eq_map, List.getElem?_map]
    have hset : ∀ t, (u.trees children).set i (u.tree t) = u.trees (children.set i t) := by
      intro t
      rw [trees_eq_map, trees_eq_map, List.map_set]
    rw [UQuadTree.insertAny, UQuadTree.insertAny, hget]
    cases children[i]? with
    | none => rfl
    | some child =>
      refine map_bind_of_map (hins child objects) fun r ↦ ?_
      rw [accepted_inserted, tree_inserted, heap_inserted, hset]
      by_cases hr : r.accepted = true
      · rw [if_pos hr, if_pos hr]
        rfl
      · rw [if_neg hr, if_neg hr]
        exact ih _ _

end Insertion

variable [IsStrictOrderedRing K]

private theorem growChildren_trees
    {ins ins' : BodyRef → UQuadTree K → BodyHeap K →
      Except Fault (UQuadTree.Inserted K (UQuadTree K))}
    (hins : ∀ b t objects, ins' b (u.tree t) (u.heap objects)
      = (ins b t objects).map (u.inserted u.tree))
    (self : UQuadTree.Fields K) (children : List (UQuadTree K)) (objects : BodyHeap K) :
    UQuadTree.growChildren ins' (u.fields self) (u.trees children) (u.heap objects)
      = (UQuadTree.growChildren ins self children objects).map (Prod.map u.trees u.heap) := by
  rw [UQuadTree.growChildren, UQuadTree.growChildren, bIsSubdivided_fields, bodyEntity_fields,
    box_fields]
  by_cases hsub : (!self.bIsSubdivided) = true
  · rw [if_pos hsub, if_pos hsub]
    cases self.bodyEntity with
    | none => rfl
    | some resident =>
      simp only [subDivide_box]
      exact u.insertUntilAccepted_trees (hins resident) _ _
  · rw [if_neg hsub, if_neg hsub]
    rfl

/-- **`Insert` in the new units**: it takes the same way, and fails alike. -/
theorem insert_tree (fuel : ℕ) (entity : BodyRef) (t : UQuadTree K) (objects : BodyHeap K) :
    UQuadTree.insert fuel entity (u.tree t) (u.heap objects)
      = (UQuadTree.insert fuel entity t objects).map (u.inserted u.tree) := by
  induction fuel generalizing entity t objects with
  | zero => rfl
  | succ fuel ih =>
    cases t with
    | nullptr => rfl
    | node self children =>
      have hinside : (u.fields self).box.isInside (u.heap objects entity).position
          = self.box.isInside (objects entity).position := u.isInside_box _ _
      rw [tree, UQuadTree.insert, UQuadTree.insert, hinside, hasChildren_trees, bIsRoot_fields,
        isEmpty_fields]
      by_cases hin : (!self.box.isInside (objects entity).position) = true
      · -- The root pulls the body back into its box; any other node turns it away.
        rw [if_pos hin, if_pos hin]
        by_cases hroot : self.bIsRoot = true
        · rw [if_pos hroot, if_pos hroot]
          refine congrArg Except.ok (congrArg (UQuadTree.Inserted.mk _ · _) ?_)
          exact u.heap_modify (fun b ↦ u.adjustPosition_body b self.box) objects entity
        · rw [if_neg hroot, if_neg hroot]
          rfl
      · rw [if_neg hin, if_neg hin]
        by_cases hempty : (UQuadTree.isEmpty self && !UQuadTree.hasChildren children) = true
        · rw [if_pos hempty, if_pos hempty]
          rfl
        · rw [if_neg hempty, if_neg hempty]
          refine map_bind_of_map (u.growChildren_trees ih self children objects) ?_
          rintro ⟨children, objects⟩
          refine map_bind_of_map (u.insertAny_trees (ih entity) _ children objects) fun r ↦ ?_
          have hsums : UQuadTree.aggregate (u.trees r.tree) UQuadTree.Sums.zero
              = (UQuadTree.aggregate r.tree UQuadTree.Sums.zero).map u.sums := by
            rw [← aggregate_trees, sums_zero]
          refine map_bind_of_map hsums fun sums ↦ ?_
          rw [centerMass_sums]
          rfl

end ChangeOfUnits

end NBodySimulation
