import NBodySimulation.Engine.Vector

/-!
# Bodies

`UBodyEntity` and the heap that holds the body objects. Both the `Bodies` array of the simulator
and the leaves of the quadtree hold pointers to the same objects, so bodies are addressed by a
`BodyRef` and read through a `BodyHeap`; a method that changes a body in place is a
`BodyHeap.modify`.
-/

namespace NBodySimulation

structure UBodyEntity (K : Type*) where
  minimumGravityDistance : K
  g : K
  position : FVector2D K
  velocity : FVector2D K
  mass : K
  index : ℕ

/-- A non-null `UBodyEntity*`. -/
abbrev BodyRef := ℕ

/-- The body objects, by address. -/
abbrev BodyHeap (K : Type*) := BodyRef → UBodyEntity K

def BodyHeap.modify {K : Type*} (heap : BodyHeap K) (body : BodyRef)
    (f : UBodyEntity K → UBodyEntity K) : BodyHeap K :=
  Function.update heap body (f (heap body))

section Modify

variable {K : Type*} (heap : BodyHeap K)

@[simp] theorem BodyHeap.modify_self (b : BodyRef) (f : UBodyEntity K → UBodyEntity K) :
    heap.modify b f b = f (heap b) :=
  Function.update_self _ _ _

theorem BodyHeap.modify_of_ne {b c : BodyRef} (f : UBodyEntity K → UBodyEntity K) (h : c ≠ b) :
    heap.modify b f c = heap c :=
  Function.update_of_ne h _ _

theorem BodyHeap.modify_modify (b : BodyRef) (f g : UBodyEntity K → UBodyEntity K) :
    (heap.modify b f).modify b g = heap.modify b fun body ↦ g (f body) := by
  rw [modify, modify_self, modify, Function.update_idem, modify]

theorem BodyHeap.modify_comm {b c : BodyRef} (h : b ≠ c) (f g : UBodyEntity K → UBodyEntity K) :
    (heap.modify b f).modify c g = (heap.modify c g).modify b f := by
  rw [modify, modify_of_ne heap f h.symm, modify, Function.update_comm h, modify,
    modify_of_ne heap g h, modify]

end Modify

namespace UBodyEntity

variable {K : Type*} [Field K] [LinearOrder K]

/-- `UBodyEntity::Initialize`. -/
def initializeBody (position velocity : FVector2D K) (mass : K) (index : ℕ)
    (minimumGravityDistance g : K) : UBodyEntity K :=
  { minimumGravityDistance, g, position, velocity, mass, index }

/-- `UBodyEntity::GetCenterOfMass`: `Position * Mass`. -/
def getCenterOfMass (body : UBodyEntity K) : FVector2D K := body.position * body.mass

/-- `UBodyEntity::Get3DPosition`, through `ConvertFVector2Dto3D`. -/
def get3DPosition (body : UBodyEntity K) : FVector K :=
  ⟨body.position.x, body.position.y, 0⟩

def tryToApplyExternalForce [PythagoreanField K] (body : UBodyEntity K)
    (otherPosition : FVector2D K) (otherMass deltaSeconds : K) : UBodyEntity K :=
  let distance := FVector2D.distance body.position otherPosition
  let distance := max distance body.minimumGravityDistance
  let acceleration : FVector2D K :=
    0 + otherMass / distance * body.g / distance * (otherPosition - body.position) / distance
  { body with velocity := body.velocity + acceleration * deltaSeconds }

end UBodyEntity

/-- One axis of the wrap-around: a coordinate past one side comes back on the other. -/
def wrapAxis {K : Type*} [LinearOrder K] (lo hi v : K) : K :=
  if v < lo then hi
  else if v > hi then lo
  else v

/-- The wrap-around of one point, written out once in `UBodyEntity::AdjustPosition` and once more in
`ABodySimulator::AdjustPosition`. -/
def FBox2D.wrap {K : Type*} [LinearOrder K] (bounds : FBox2D K) (p : FVector2D K) :
    FVector2D K where
  x := wrapAxis bounds.min.x bounds.max.x p.x
  y := wrapAxis bounds.min.y bounds.max.y p.y

def UBodyEntity.adjustPosition {K : Type*} [LinearOrder K] (body : UBodyEntity K)
    (sceneBounds : FBox2D K) : UBodyEntity K :=
  { body with position := sceneBounds.wrap body.position }

/-! ## Wrapping -/

namespace FBox2D

variable {K : Type*} [LinearOrder K]

private theorem between_of_wrapAxis {lo hi v : K}
    (h : lo < wrapAxis lo hi v ∧ wrapAxis lo hi v < hi) :
    lo < v ∧ v < hi := by
  rw [wrapAxis] at h
  by_cases h1 : v < lo
  · rw [if_pos h1] at h
    exact absurd h.2 (lt_irrefl hi)
  · by_cases h2 : v > hi
    · rw [if_neg h1, if_pos h2] at h
      exact absurd h.1 (lt_irrefl lo)
    · rwa [if_neg h1, if_neg h2] at h

private theorem wrapAxis_of_mem {lo hi v : K} (h1 : lo ≤ v) (h2 : v ≤ hi) :
    wrapAxis lo hi v = v := by
  rw [wrapAxis, if_neg (not_lt.mpr h1), if_neg (not_lt.mpr h2)]

/-- The point lies in the closed box. -/
def IsInsideOrOn (box : FBox2D K) (p : FVector2D K) : Prop :=
  (box.min.x ≤ p.x ∧ p.x ≤ box.max.x) ∧ box.min.y ≤ p.y ∧ p.y ≤ box.max.y

theorem wrap_of_isInsideOrOn {box : FBox2D K} {p : FVector2D K} (h : box.IsInsideOrOn p) :
    box.wrap p = p := by
  ext
  · exact wrapAxis_of_mem h.1.1 h.1.2
  · exact wrapAxis_of_mem h.2.1 h.2.2

theorem wrap_of_isInside {box : FBox2D K} {p : FVector2D K} (h : box.isInside p = true) :
    box.wrap p = p := by
  obtain ⟨h1, h2, h3, h4⟩ := isInside_iff.mp h
  exact wrap_of_isInsideOrOn ⟨⟨h1.le, h2.le⟩, h3.le, h4.le⟩

/-- Wrapping neither brings a point strictly inside nor moves one that is. -/
theorem isInside_wrap_iff {box : FBox2D K} {p : FVector2D K} :
    box.isInside (box.wrap p) = true ↔ box.isInside p = true := by
  constructor
  · intro h
    rw [isInside_iff] at h ⊢
    obtain ⟨h1, h2, h3, h4⟩ := h
    obtain ⟨hx1, hx2⟩ := between_of_wrapAxis ⟨h1, h2⟩
    obtain ⟨hy1, hy2⟩ := between_of_wrapAxis ⟨h3, h4⟩
    exact ⟨hx1, hx2, hy1, hy2⟩
  · intro h
    rwa [wrap_of_isInside h]

private theorem wrapAxis_wrapAxis (lo hi v : K) :
    wrapAxis lo hi (wrapAxis lo hi v) = wrapAxis lo hi v := by
  unfold wrapAxis
  split_ifs <;> first | rfl | simp_all

theorem wrap_wrap (box : FBox2D K) (p : FVector2D K) : box.wrap (box.wrap p) = box.wrap p := by
  ext
  · exact wrapAxis_wrapAxis _ _ _
  · exact wrapAxis_wrapAxis _ _ _

private theorem le_wrapAxis_le {lo hi : K} (hle : lo ≤ hi) (v : K) :
    lo ≤ wrapAxis lo hi v ∧ wrapAxis lo hi v ≤ hi := by
  rw [wrapAxis]
  by_cases hlo : v < lo
  · rw [if_pos hlo]
    exact ⟨hle, le_rfl⟩
  · by_cases hhi : v > hi
    · rw [if_neg hlo, if_pos hhi]
      exact ⟨le_rfl, hle⟩
    · rw [if_neg hlo, if_neg hhi]
      exact ⟨not_lt.mp hlo, not_lt.mp hhi⟩

theorem isInsideOrOn_wrap {box : FBox2D K} (hx : box.min.x ≤ box.max.x)
    (hy : box.min.y ≤ box.max.y) (p : FVector2D K) : box.IsInsideOrOn (box.wrap p) :=
  ⟨le_wrapAxis_le hx p.x, le_wrapAxis_le hy p.y⟩

end FBox2D

end NBodySimulation
