import NBodySimulation.Quadtree.Represent

/-!
# What `Insert` aggregates

Results about the aggregation loop itself, and not only about what it leaves in the nodes, need to
say which aggregations a call performs. `insertLog` lists them: it follows `insert` call by call and
records, at the end of each one that gets there, the children the loop went over and the values of
its locals at the division. It changes nothing and is read by nothing.

On a stored tree the log has a plain description. A call that returns has aggregated exactly the
splits of the resulting tree whose boxes have the new body strictly inside, and a call that runs out
of fuel has aggregated nothing.

## Main results

* `insertLog_represent`: the log of a call, by its outcome.
-/

namespace NBodySimulation

open Spatial Spatial.PointTree

/-- One run of the aggregation loop: the children it went over, and its locals at the end. -/
structure Aggregation (K : Type*) where
  children : List (UQuadTree K)
  sums : UQuadTree.Sums K

namespace UQuadTree

/-! ## The log of a call -/

section Log

variable {K : Type*}

/-- The log of `insertUntilAccepted`, over the log of the call `ins`. -/
def insertUntilAcceptedLog
    (ins : UQuadTree K → BodyHeap K → Except Fault (Inserted K (UQuadTree K)))
    (log : UQuadTree K → BodyHeap K → List (Aggregation K)) :
    List (UQuadTree K) → BodyHeap K → List (Aggregation K)
  | [], _ => []
  | child :: rest, heap =>
    log child heap ++ match ins child heap with
      | .error _ => []
      | .ok r => if r.accepted then [] else insertUntilAcceptedLog ins log rest r.heap

def insertAnyLog (ins : UQuadTree K → BodyHeap K → Except Fault (Inserted K (UQuadTree K)))
    (log : UQuadTree K → BodyHeap K → List (Aggregation K)) :
    List ℕ → List (UQuadTree K) → BodyHeap K → List (Aggregation K)
  | [], _, _ => []
  | i :: rest, children, heap =>
    match children[i]? with
    | none => []
    | some child =>
      log child heap ++ match ins child heap with
        | .error _ => []
        | .ok r =>
          if r.accepted then [] else insertAnyLog ins log rest (children.set i r.tree) r.heap

def growChildrenLog [Field K] [LinearOrder K]
    (ins : BodyRef → UQuadTree K → BodyHeap K → Except Fault (Inserted K (UQuadTree K)))
    (log : BodyRef → UQuadTree K → BodyHeap K → List (Aggregation K))
    (self : Fields K) (children : List (UQuadTree K)) (heap : BodyHeap K) :
    List (Aggregation K) :=
  if !self.bIsSubdivided then
    match self.bodyEntity with
    | none => []
    | some resident =>
      insertUntilAcceptedLog (ins resident) (log resident) (subDivide self.box children) heap
  else
    []

/-- The log of the aggregation that ends a call, when the call gets there. -/
def aggregateLog [Field K] (r : Except Fault (Inserted K (List (UQuadTree K)))) :
    List (Aggregation K) :=
  match r with
  | .error _ => []
  | .ok r =>
    match aggregate r.tree Sums.zero with
    | .error _ => []
    | .ok sums => [⟨r.tree, sums⟩]

/-- The aggregations that `insert` performs, in the order in which they end. -/
def insertLog [Field K] [LinearOrder K] : ℕ → BodyRef → UQuadTree K → BodyHeap K →
    List (Aggregation K)
  | 0, _, _, _ => []
  | _ + 1, _, nullptr, _ => []
  | fuel + 1, entity, node self children, heap =>
    if !self.box.isInside (heap entity).position then []
    else if isEmpty self && !hasChildren children then []
    else
      growChildrenLog (insert fuel) (insertLog fuel) self children heap ++
        match growChildren (insert fuel) self children heap with
        | .error _ => []
        | .ok (children, heap) =>
          insertAnyLog (insert fuel entity) (insertLog fuel entity) [0, 1, 2, 3] children heap ++
            aggregateLog (insertAny (insert fuel entity) [0, 1, 2, 3] children heap)

/-- The aggregations of a sequence of `Insert` calls on one root. -/
def insertAllLog [Field K] [LinearOrder K] (fuel : ℕ) :
    List BodyRef → UQuadTree K → BodyHeap K → List (Aggregation K)
  | [], _, _ => []
  | body :: rest, tree, heap =>
    insertLog fuel body tree heap ++ match insert fuel body tree heap with
      | .error _ => []
      | .ok r => insertAllLog fuel rest r.tree r.heap

end Log

/-! ## The loops over the children -/

section Loops

variable {K : Type*} {ins : UQuadTree K → BodyHeap K → Except Fault (Inserted K (UQuadTree K))}
  {log : UQuadTree K → BodyHeap K → List (Aggregation K)} {heap : BodyHeap K}
  {f : Fin 4 → UQuadTree K}

private theorem insertUntilAcceptedLog_eq_nil {g : Fin 4 → UQuadTree K} {p : Fin 4 → Bool}
    (hins : ∀ i, ins (f i) heap = .ok ⟨g i, heap, p i⟩) (hlog : ∀ i, log (f i) heap = [])
    (l : List (Fin 4)) : insertUntilAcceptedLog ins log (l.map f) heap = [] := by
  induction l with
  | nil => rfl
  | cons i l ih => simp [insertUntilAcceptedLog, hins, hlog, ih]

private theorem insertAnyLog_none (hins : ∀ i, ins (f i) heap = .ok ⟨f i, heap, false⟩)
    (hlog : ∀ i, log (f i) heap = []) :
    insertAnyLog ins log [0, 1, 2, 3] ((List.finRange 4).map f) heap = [] := by
  have hlist : (List.finRange 4).map f = [f 0, f 1, f 2, f 3] := rfl
  simp [hlist, insertAnyLog, hins, hlog]

private theorem insertAnyLog_one {q : Fin 4}
    (hins : ∀ i, i ≠ q → ins (f i) heap = .ok ⟨f i, heap, false⟩)
    (hlog : ∀ i, i ≠ q → log (f i) heap = []) (hq : (∃ fault, ins (f q) heap = .error fault) ∨
      ∃ c accepted, ins (f q) heap = .ok ⟨c, heap, accepted⟩) :
    insertAnyLog ins log [0, 1, 2, 3] ((List.finRange 4).map f) heap = log (f q) heap := by
  have hlist : (List.finRange 4).map f = [f 0, f 1, f 2, f 3] := rfl
  rcases hq with ⟨fault, hq⟩ | ⟨c, accepted, hq⟩
  · fin_cases q <;> simp_all [insertAnyLog]
  · fin_cases q <;> cases accepted <;> simp_all [insertAnyLog]

end Loops

/-! ## The log on a stored tree -/

section Represent

variable {K : Type*} [Field K]

/-- The aggregation of a stored split. -/
def aggregationOf (heap : BodyHeap K) (box : FBox2D K) (child : Fin 4 → BodyTree) :
    Aggregation K where
  children := (List.finRange 4).map fun i ↦ represent heap false (box.quarter i) (child i)
  sums := (List.finRange 4).foldl (fun sums i ↦
    sums.addChild (fieldsOf heap false (box.quarter i) (child i))) Sums.zero

private theorem aggregateLog_ok (heap : BodyHeap K) (box : FBox2D K) (child : Fin 4 → BodyTree)
    (accepted : Bool) :
    aggregateLog (.ok ⟨(List.finRange 4).map fun i ↦
        represent heap false (box.quarter i) (child i), heap, accepted⟩)
      = [aggregationOf heap box child] := by
  rw [aggregateLog]
  simp only [aggregate_map]
  rfl

variable [LinearOrder K] {heap : BodyHeap K} {isRoot : Bool} {box : FBox2D K} {t : BodyTree}
  {a b : BodyRef}

private theorem insertLog_outside (fuel : ℕ) (h : ¬box.isInside (heap a).position = true) :
    insertLog fuel a (represent heap isRoot box t) heap = [] := by
  cases fuel with
  | zero => rfl
  | succ fuel => simp [represent_eq, insertLog, h]

private theorem insertLog_empty (fuel : ℕ) :
    insertLog fuel a (represent heap isRoot box .empty) heap = [] := by
  cases fuel with
  | zero => rfl
  | succ fuel => simp [represent, fieldsOf, insertLog, isEmpty, hasChildren]

private theorem insertLog_one (h : box.isInside (heap a).position = true)
    (hres : t.resident = some b) :
    insertLog 1 a (represent heap isRoot box t) heap = [] := by
  cases t with
  | empty => exact absurd hres (by simp [resident])
  | leaf c =>
    simp [represent, fieldsOf, insertLog, insert, h, isEmpty, growChildrenLog, growChildren,
      subDivide_nil heap, List.finRange_succ, insertUntilAcceptedLog, insertUntilAccepted, bind,
      Except.bind]
  | split c child =>
    simp [represent, fieldsOf, insertLog, insert, h, isEmpty, growChildrenLog, growChildren,
      List.finRange_succ, insertAnyLog, insertAny, aggregateLog, bind, Except.bind]

private theorem growChildrenLog_represent (fuel : ℕ) (hres : t.resident = some b) :
    growChildrenLog (insert (fuel + 1)) (insertLog (fuel + 1)) (fieldsOf heap isRoot box t)
      (childrenOf heap box t) heap = [] := by
  cases t with
  | empty => exact absurd hres (by simp [resident])
  | leaf c =>
    have hins : ∀ i, ∃ g p, insert (fuel + 1) c (represent heap false (box.quarter i) .empty) heap
        = .ok ⟨g, heap, p⟩ := by
      intro i
      by_cases h : (box.quarter i).isInside (heap c).position = true
      · exact ⟨_, _, insert_empty fuel h⟩
      · exact ⟨_, _, insert_outside fuel h⟩
    choose g p hins using hins
    rw [growChildrenLog, childrenOf]
    simp only [fieldsOf, Bool.not_false, if_true]
    rw [subDivide_nil heap]
    exact insertUntilAcceptedLog_eq_nil hins (fun i ↦ insertLog_empty _) _
  | split c child => rfl

variable [IsStrictOrderedRing K]

/-- The log of a call on a stored tree that is not empty, once the body is inside its box. -/
theorem insertLog_resident (fuel : ℕ) (h : box.isInside (heap a).position = true)
    (hres : t.resident = some b) :
    insertLog (fuel + 2) a (represent heap isRoot box t) heap
      = insertAnyLog (insert (fuel + 1) a) (insertLog (fuel + 1) a) [0, 1, 2, 3]
          ((List.finRange 4).map fun i ↦ represent heap false (box.quarter i)
            (cutAt (FBox2D.quarters K) heap.positions box t i)) heap ++
        aggregateLog (insertAny (insert (fuel + 1) a) [0, 1, 2, 3]
          ((List.finRange 4).map fun i ↦ represent heap false (box.quarter i)
            (cutAt (FBox2D.quarters K) heap.positions box t i)) heap) := by
  rw [represent_eq, insertLog, growChildrenLog_represent fuel hres,
    growChildren_represent fuel hres]
  simp [h, hres, isEmpty]

private theorem insertLog_lost (fuel : ℕ) (h : box.isInside (heap a).position = true)
    (hres : t.resident = some b) (hcut : ∀ i, ¬(box.quarter i).isInside (heap a).position = true) :
    insertLog (fuel + 2) a (represent heap isRoot box t) heap
      = [aggregationOf heap box (cutAt (FBox2D.quarters K) heap.positions box t)] := by
  rw [insertLog_resident fuel h hres, insertAny_none fun i ↦ insert_outside fuel (hcut i),
    insertAnyLog_none (fun i ↦ insert_outside fuel (hcut i)) fun i ↦ insertLog_outside _ (hcut i),
    List.nil_append]
  exact aggregateLog_ok heap box _ false

private theorem insertLog_sibling {child : Fin 4 → BodyTree} {q : Fin 4} (fuel : ℕ)
    (hq : (box.quarter q).isInside (heap a).position = true) (i : Fin 4) (hi : i ≠ q) :
    insertLog fuel a (represent heap false (box.quarter i) (child i)) heap = [] :=
  insertLog_outside fuel fun h ↦ hi (FBox2D.quarter_unique h hq)

private theorem insertLog_descend {t' : BodyTree} {q : Fin 4} {accepted : Bool} (fuel : ℕ)
    (hres : t.resident = some b) (hq : (box.quarter q).isInside (heap a).position = true)
    (hins : insert (fuel + 1) a (represent heap false (box.quarter q)
        (cutAt (FBox2D.quarters K) heap.positions box t q)) heap
      = .ok ⟨represent heap false (box.quarter q) t', heap, accepted⟩) :
    insertLog (fuel + 2) a (represent heap isRoot box t) heap
      = insertLog (fuel + 1) a (represent heap false (box.quarter q)
          (cutAt (FBox2D.quarters K) heap.positions box t q)) heap ++
        [aggregationOf heap box
          (Function.update (cutAt (FBox2D.quarters K) heap.positions box t) q t')] := by
  rw [insertLog_resident fuel (FBox2D.isInside_of_quarter hq) hres,
    insertAnyLog_one (insert_sibling fuel hq) (insertLog_sibling _ hq) (Or.inr ⟨_, _, hins⟩),
    insertAny_one (insert_sibling fuel hq) hins, represent_update]
  exact congrArg _ (aggregateLog_ok heap box _ accepted)

private theorem insertLog_descend_error {q : Fin 4} {fault : Fault} (fuel : ℕ)
    (hres : t.resident = some b) (hq : (box.quarter q).isInside (heap a).position = true)
    (hins : insert (fuel + 1) a (represent heap false (box.quarter q)
        (cutAt (FBox2D.quarters K) heap.positions box t q)) heap = .error fault) :
    insertLog (fuel + 2) a (represent heap isRoot box t) heap
      = insertLog (fuel + 1) a (represent heap false (box.quarter q)
          (cutAt (FBox2D.quarters K) heap.positions box t q)) heap := by
  rw [insertLog_resident fuel (FBox2D.isInside_of_quarter hq) hres,
    insertAnyLog_one (insert_sibling fuel hq) (insertLog_sibling _ hq) (Or.inl ⟨_, hins⟩),
    insertAny_error (insert_sibling fuel hq) hins]
  exact List.append_nil _

/-! ## What a call does and logs -/

/-- The aggregation is that of a split of the tree whose box has the body strictly inside. -/
def AggregatedIn (heap : BodyHeap K) (a : BodyRef) (box : FBox2D K) (t : BodyTree)
    (agg : Aggregation K) : Prop :=
  ∃ path b child, t.subtree path = some (split b child) ∧
    (box.subBox path).isInside (heap a).position = true ∧
    agg = aggregationOf heap (box.subBox path) child

variable {agg : Aggregation K}

private theorem not_aggregatedIn_of_outside (h : ¬box.isInside (heap a).position = true) :
    ¬AggregatedIn heap a box t agg := by
  rintro ⟨path, b, child, _, hin, _⟩
  exact h ((FBox2D.quarters K).mem_of_mem_descend hin)

omit [IsStrictOrderedRing K] in
private theorem not_aggregatedIn_leaf {c : BodyRef} : ¬AggregatedIn heap a box (.leaf c) agg := by
  rintro ⟨path, b, child, hsub, _⟩
  exact absurd (eq_of_subtree (by simp) hsub).2 (by simp)

/-- A split whose cells all miss the body is the only one aggregated. -/
theorem aggregatedIn_cut_iff {child : Fin 4 → BodyTree} (h : box.isInside (heap a).position = true)
    (hcut : ∀ i, ¬(box.quarter i).isInside (heap a).position = true) :
    AggregatedIn heap a box (.split b child) agg ↔ agg = aggregationOf heap box child := by
  constructor
  · rintro ⟨path, c, child', hsub, hin, rfl⟩
    cases path with
    | nil =>
      rw [subtree_nil, Option.some.injEq, split.injEq] at hsub
      rw [hsub.2]
      rfl
    | cons i path =>
      have hi : (box.quarter i).isInside (heap a).position = true :=
        (FBox2D.quarters K).mem_of_mem_descend hin
      exact absurd hi (hcut i)
  · rintro rfl
    exact ⟨[], b, child, subtree_nil _, h, rfl⟩

/-- Above the cell that has the body, the split itself is aggregated last. -/
theorem aggregatedIn_split_iff {child : Fin 4 → BodyTree} {q : Fin 4}
    (hq : (box.quarter q).isInside (heap a).position = true) :
    AggregatedIn heap a box (.split b child) agg ↔
      AggregatedIn heap a (box.quarter q) (child q) agg ∨ agg = aggregationOf heap box child := by
  constructor
  · rintro ⟨path, c, child', hsub, hin, rfl⟩
    cases path with
    | nil =>
      rw [subtree_nil, Option.some.injEq, split.injEq] at hsub
      rw [hsub.2]
      exact Or.inr rfl
    | cons i path =>
      have hi : (box.quarter i).isInside (heap a).position = true :=
        (FBox2D.quarters K).mem_of_mem_descend hin
      obtain rfl : i = q := FBox2D.quarter_unique hi hq
      exact Or.inl ⟨path, c, child', hsub, hin, rfl⟩
  · rintro (⟨path, c, child', hsub, hin, rfl⟩ | rfl)
    · exact ⟨q :: path, c, child', hsub, hin, rfl⟩
    · exact ⟨[], b, child, subtree_nil _, FBox2D.isInside_of_quarter hq, rfl⟩

/-- **What a call does and logs.** On a stored tree, `Insert` runs out of fuel and has aggregated
nothing, or it makes an insertion step, leaves the heap alone and has aggregated the splits of the
new tree whose boxes have the body strictly inside. The root is excluded only for a body outside
its box, which it wraps. -/
theorem insertLog_represent (fuel : ℕ)
    (hroot : isRoot = true → box.isInside (heap a).position = true) :
    (insert fuel a (represent heap isRoot box t) heap = .error .outOfFuel ∧
        insertLog fuel a (represent heap isRoot box t) heap = []) ∨
      ∃ t' accepted, insert fuel a (represent heap isRoot box t) heap
          = .ok ⟨represent heap isRoot box t', heap, accepted⟩ ∧
        Inserts (FBox2D.quarters K) heap.positions box t a t' accepted ∧
        ∀ agg, agg ∈ insertLog fuel a (represent heap isRoot box t) heap ↔
          AggregatedIn heap a box t' agg := by
  induction fuel generalizing isRoot box t with
  | zero => exact Or.inl ⟨insert_zero _ _ _, rfl⟩
  | succ fuel ih =>
    by_cases hin : box.isInside (heap a).position = true
    · cases hres : t.resident with
      | none =>
        cases t with
        | empty =>
          refine Or.inr ⟨_, _, insert_empty fuel hin, .fresh hin, fun agg ↦ ?_⟩
          rw [insertLog_empty]
          exact iff_of_false List.not_mem_nil not_aggregatedIn_leaf
        | leaf c => exact absurd hres (by simp [resident])
        | split c child => exact absurd hres (by simp [resident])
      | some b =>
        cases fuel with
        | zero => exact Or.inl ⟨insert_one hin hres, insertLog_one hin hres⟩
        | succ fuel =>
          by_cases hcell : ∃ q, (box.quarter q).isInside (heap a).position = true
          · obtain ⟨q, hq⟩ := hcell
            rcases @ih false (box.quarter q)
                (cutAt (FBox2D.quarters K) heap.positions box t q) (by simp)
              with ⟨herr, hlog⟩ | ⟨t', accepted, hok, hins, hlog⟩
            · refine Or.inl ⟨insert_descend_error fuel hres hq herr, ?_⟩
              rw [insertLog_descend_error fuel hres hq herr, hlog]
            · refine Or.inr ⟨_, _, insert_descend fuel hres hq hok, .descend hres hq hins,
                fun agg ↦ ?_⟩
              rw [insertLog_descend fuel hres hq hok, aggregatedIn_split_iff hq, List.mem_append,
                List.mem_singleton, hlog, Function.update_self]
          · have hcut : ∀ i, ¬(box.quarter i).isInside (heap a).position = true :=
              fun i hi ↦ hcell ⟨i, hi⟩
            refine Or.inr ⟨_, _, insert_lost fuel hin hres hcut, .lost hin hres hcut, fun agg ↦ ?_⟩
            rw [insertLog_lost fuel hin hres hcut, aggregatedIn_cut_iff hin hcut,
              List.mem_singleton]
    · cases isRoot with
      | true => exact absurd (hroot rfl) hin
      | false =>
        refine Or.inr ⟨_, _, insert_outside fuel hin, .outside hin, fun agg ↦ ?_⟩
        rw [insertLog_outside _ hin]
        exact iff_of_false List.not_mem_nil (not_aggregatedIn_of_outside hin)

/-- **Refinement.** On a stored tree, `Insert` runs out of fuel or makes an insertion step, and it
leaves the heap alone. In particular no null pointer is dereferenced and no index is out of
range. -/
theorem insert_represent (fuel : ℕ)
    (hroot : isRoot = true → box.isInside (heap a).position = true) :
    insert fuel a (represent heap isRoot box t) heap = .error .outOfFuel ∨
      ∃ t' accepted, insert fuel a (represent heap isRoot box t) heap
          = .ok ⟨represent heap isRoot box t', heap, accepted⟩ ∧
        Inserts (FBox2D.quarters K) heap.positions box t a t' accepted := by
  rcases insertLog_represent fuel hroot with ⟨herr, _⟩ | ⟨t', accepted, hok, hins, _⟩
  · exact Or.inl herr
  · exact Or.inr ⟨t', accepted, hok, hins⟩

/-- An aggregation is made by a call that returns, on a split of the tree it leaves. This holds for
the root too, since a body that it wraps is not inserted. -/
theorem exists_inserts_of_mem_insertLog {fuel : ℕ}
    (hagg : agg ∈ insertLog fuel a (represent heap isRoot box t) heap) :
    ∃ t' accepted, insert fuel a (represent heap isRoot box t) heap
        = .ok ⟨represent heap isRoot box t', heap, accepted⟩ ∧
      Inserts (FBox2D.quarters K) heap.positions box t a t' accepted ∧
      AggregatedIn heap a box t' agg := by
  by_cases hin : box.isInside (heap a).position = true
  · rcases insertLog_represent fuel fun _ ↦ hin with ⟨_, hlog⟩ | ⟨t', accepted, hok, hins, hlog⟩
    · rw [hlog] at hagg
      exact absurd hagg List.not_mem_nil
    · exact ⟨t', accepted, hok, hins, (hlog agg).mp hagg⟩
  · rw [insertLog_outside fuel hin] at hagg
    exact absurd hagg List.not_mem_nil

end Represent

end UQuadTree

end NBodySimulation
