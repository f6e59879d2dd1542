import Mathlib.Data.List.Basic
import Mathlib.Logic.Function.Basic
import Mathlib.Logic.Relation

/-!
# Interleavings of sequential tasks

A family of sequential tasks shares one store. What a task does next is a function of its own local
state and of the store, and an interleaving picks, step after step, a task that is not finished.

When steps of different tasks commute, the choice does not matter: every interleaving takes every
task through the same steps, so it ends, and once all tasks are finished the store is the one that
the tasks leave when they run one after the other.

## Main results

* `Independent.residual`: what an interleaving has not done yet, relative to one that has finished.
* `Independent.determinate`: no interleaving goes on for ever, and all that finish leave one store.
* `exists_sequential`: running the tasks one after the other is an interleaving.
-/

namespace Concurrency

open Relation

variable {ι L S : Type*}

/-- One step of each task, on its local state and the store. A finished task has none. -/
abbrev Tasks (ι L S : Type*) := ι → L → S → Option (L × S)

/-- The local states of all tasks, and the store they share. -/
@[ext] structure Config (ι L S : Type*) where
  locals : ι → L
  store : S

section Runs

variable [DecidableEq ι] (step : Tasks ι L S)

def StepsTo (i : ι) (c c' : Config ι L S) : Prop :=
  ∃ l s, step i (c.locals i) c.store = some (l, s) ∧ c' = ⟨Function.update c.locals i l, s⟩

/-- A run under a schedule, the list of the tasks that take the steps. -/
inductive Interleaving : List ι → Config ι L S → Config ι L S → Prop
  | nil (c : Config ι L S) : Interleaving [] c c
  | cons {i : ι} {schedule : List ι} {c c' c'' : Config ι L S} (head : StepsTo step i c c')
      (tail : Interleaving schedule c' c'') : Interleaving (i :: schedule) c c''

def Finished (c : Config ι L S) : Prop := ∀ i, step i (c.locals i) c.store = none

omit [DecidableEq ι] in
/-- Steps of different tasks commute. -/
def Independent : Prop :=
  ∀ ⦃i j⦄, i ≠ j → ∀ ⦃l m s l' m' s₁ s₂⦄, step i l s = some (l', s₁) → step j m s = some (m', s₂) →
    ∃ s₃, step j m s₁ = some (m', s₃) ∧ step i l s₂ = some (l', s₃)

/-- From `c`, every schedule ends, and once all tasks are finished the store is `result`. -/
structure Determinate (c : Config ι L S) (result : S) : Prop where
  /-- No schedule goes on for ever. -/
  bounded : ∃ n, ∀ schedule c', Interleaving step schedule c c' → schedule.length ≤ n
  /-- Every run can be continued until all tasks are finished. -/
  completes : ∀ schedule c', Interleaving step schedule c c' →
    ∃ rest t, Interleaving step rest c' t ∧ Finished step t
  /-- Every run in which all tasks are finished leaves the result. -/
  store_eq : ∀ schedule c', Interleaving step schedule c c' → Finished step c' → c'.store = result

variable {step} {c c' t : Config ι L S} {i j : ι} {schedule : List ι}

/-! ## Steps -/

theorem StepsTo.eq {b : Config ι L S} (h : StepsTo step i c b) (h' : StepsTo step i c c') :
    b = c' := by
  obtain ⟨l, s, hstep, rfl⟩ := h
  obtain ⟨l', s', hstep', rfl⟩ := h'
  obtain ⟨rfl, rfl⟩ := Prod.mk.inj (Option.some.inj (hstep.symm.trans hstep'))
  rfl

theorem Finished.not_stepsTo (h : Finished step c) : ¬StepsTo step i c c' := by
  rintro ⟨l, s, hstep, _⟩
  exact absurd ((h i).symm.trans hstep) (by simp)

/-- Two steps of different tasks can be taken in either order. -/
theorem Independent.diamond (hind : Independent step) {b : Config ι L S} (hij : i ≠ j)
    (hi : StepsTo step i c b) (hj : StepsTo step j c c') :
    ∃ d, StepsTo step j b d ∧ StepsTo step i c' d := by
  obtain ⟨l, s, hl, rfl⟩ := hi
  obtain ⟨m, s', hm, rfl⟩ := hj
  obtain ⟨s₃, hm₃, hl₃⟩ := hind hij hl hm
  refine ⟨⟨Function.update (Function.update c.locals i l) j m, s₃⟩, ⟨m, s₃, ?_, rfl⟩, l, s₃, ?_, ?_⟩
  · simp only [Function.update_of_ne hij.symm]
    exact hm₃
  · simp only [Function.update_of_ne hij]
    exact hl₃
  · rw [Function.update_comm hij]

/-! ## Runs -/

theorem Interleaving.preserves {P : S → Prop} (h : Interleaving step schedule c c')
    (hstep : ∀ i l s l' s', step i l s = some (l', s') → P s → P s') (hc : P c.store) :
    P c'.store := by
  induction h with
  | nil c => exact hc
  | cons head tail ih =>
    obtain ⟨l, s, hl, rfl⟩ := head
    exact ih (hstep _ _ _ _ _ hl hc)

theorem Interleaving.append {rest : List ι} (h : Interleaving step schedule c c')
    (h' : Interleaving step rest c' t) : Interleaving step (schedule ++ rest) c t := by
  induction h with
  | nil c => exact h'
  | cons head tail ih => exact .cons head (ih h')

/-- A finished run contains every step that was possible at its start, which can be taken first. -/
theorem Independent.step_first (hind : Independent step) (h : Interleaving step schedule c t)
    (hfin : Finished step t) (hi : StepsTo step i c c') :
    i ∈ schedule ∧ Interleaving step (schedule.erase i) c' t := by
  induction h generalizing c' with
  | nil c => exact absurd hi hfin.not_stepsTo
  | @cons j schedule c b t head tail ih =>
    by_cases hij : i = j
    · subst hij
      rw [List.erase_cons_head, hi.eq head]
      exact ⟨List.mem_cons_self, tail⟩
    · obtain ⟨d, hjd, hid⟩ := hind.diamond hij hi head
      obtain ⟨hmem, hrest⟩ := ih hfin hid
      rw [List.erase_cons_tail (by simpa using fun h ↦ hij h.symm)]
      exact ⟨List.mem_cons_of_mem _ hmem, .cons hjd hrest⟩

/-- **What is left to do.** Any run from the start of a finished run can be continued to the same
end, and takes each task through the same number of steps. -/
theorem Independent.residual (hind : Independent step) {whole : List ι}
    (hwhole : Interleaving step whole c t) (hfin : Finished step t)
    (h : Interleaving step schedule c c') :
    ∃ rest, Interleaving step rest c' t ∧ whole.Perm (schedule ++ rest) := by
  induction h generalizing whole with
  | nil c => exact ⟨whole, hwhole, List.Perm.refl _⟩
  | @cons i schedule c b c' head tail ih =>
    obtain ⟨hmem, hrest⟩ := hind.step_first hwhole hfin head
    obtain ⟨rest, hrun, hperm⟩ := ih hrest
    exact ⟨rest, hrun, (List.perm_cons_erase hmem).trans (hperm.cons i)⟩

theorem Interleaving.eq_of_finished (h : Interleaving step schedule c t) (hc : Finished step c) :
    c = t := by
  cases h with
  | nil => rfl
  | cons head tail => exact absurd head hc.not_stepsTo

/-- **Independent tasks are determinate**: one finished run decides for all runs. -/
theorem Independent.determinate (hind : Independent step) {whole : List ι}
    (hwhole : Interleaving step whole c t) (hfin : Finished step t) :
    Determinate step c t.store where
  bounded := by
    refine ⟨whole.length, fun schedule c' h ↦ ?_⟩
    obtain ⟨rest, _, hperm⟩ := hind.residual hwhole hfin h
    rw [hperm.length_eq, List.length_append]
    exact Nat.le_add_right _ _
  completes schedule c' h := by
    obtain ⟨rest, hrun, _⟩ := hind.residual hwhole hfin h
    exact ⟨rest, t, hrun, hfin⟩
  store_eq schedule c' h hfin' := by
    obtain ⟨rest, hrun, _⟩ := hind.residual hwhole hfin h
    rw [hrun.eq_of_finished hfin']

/-! ## One task after the other -/

variable (step) in
/-- One step of one task, without the others. -/
def TaskStep (i : ι) (a b : L × S) : Prop := step i a.1 a.2 = some b

theorem exists_interleaving_of_taskStep {a b : L × S} (locals : ι → L)
    (h : ReflTransGen (TaskStep step i) a b) :
    ∃ schedule, Interleaving step schedule ⟨Function.update locals i a.1, a.2⟩
      ⟨Function.update locals i b.1, b.2⟩ := by
  induction h using ReflTransGen.head_induction_on with
  | refl => exact ⟨[], .nil _⟩
  | @head a a' hstep _ ih =>
    obtain ⟨schedule, hrun⟩ := ih
    refine ⟨i :: schedule, .cons ⟨a'.1, a'.2, ?_, ?_⟩ hrun⟩
    · simp only [Function.update_self]
      exact hstep
    · rw [Function.update_idem]

/-- **One task after the other.** When each task of a list, started alone on any store, ends with an
effect on the store, the tasks together can end with the effects one after the other. -/
theorem exists_sequential {init done : L} {effect : ι → S → S}
    (hrun : ∀ i s, ReflTransGen (TaskStep step i) (init, s) (done, effect i s)) {order : List ι}
    (hnodup : order.Nodup) {locals : ι → L} (hinit : ∀ i ∈ order, locals i = init) (s : S) :
    ∃ schedule, Interleaving step schedule ⟨locals, s⟩
      ⟨fun i ↦ if i ∈ order then done else locals i, order.foldl (fun s i ↦ effect i s) s⟩ := by
  induction order generalizing locals s with
  | nil =>
    refine ⟨[], ?_⟩
    simp only [List.not_mem_nil, if_false, List.foldl_nil]
    exact .nil _
  | cons i order ih =>
    obtain ⟨hi, hnodup⟩ := List.nodup_cons.mp hnodup
    obtain ⟨schedule, hfirst⟩ := exists_interleaving_of_taskStep locals (hrun i s)
    have hstart : Function.update locals i init = locals :=
      Function.update_eq_self_iff.mpr (hinit i List.mem_cons_self).symm
    have hothers : ∀ j ∈ order, Function.update locals i done j = init := by
      intro j hj
      have hji : j ≠ i := fun hji ↦ hi (hji ▸ hj)
      rw [Function.update_of_ne hji]
      exact hinit j (List.mem_cons_of_mem i hj)
    obtain ⟨rest, hrest⟩ := ih hnodup hothers (effect i s)
    have hend : (fun j ↦ if j ∈ order then done else Function.update locals i done j)
        = fun j ↦ if j ∈ i :: order then done else locals j := by
      funext j
      by_cases hji : j = i
      · rw [hji, if_neg hi, Function.update_self, if_pos List.mem_cons_self]
      · rw [Function.update_of_ne hji]
        simp only [List.mem_cons, hji, false_or]
    rw [hstart] at hfirst
    rw [hend] at hrest
    exact ⟨schedule ++ rest, hfirst.append hrest⟩

/-- **Tasks that commute** leave what they leave one after the other. -/
theorem Independent.determinate_foldl (hind : Independent step) {init done : L}
    {effect : ι → S → S}
    (hrun : ∀ i s, ReflTransGen (TaskStep step i) (init, s) (done, effect i s))
    (hdone : ∀ i s, step i done s = none) {order : List ι} (hnodup : order.Nodup)
    (hall : ∀ i, i ∈ order) (s : S) :
    Determinate step ⟨fun _ ↦ init, s⟩ (order.foldl (fun s i ↦ effect i s) s) := by
  have hinit : ∀ i ∈ order, (fun _ : ι ↦ init) i = init := fun _ _ ↦ rfl
  obtain ⟨schedule, h⟩ := exists_sequential hrun hnodup hinit s
  refine hind.determinate h fun i ↦ ?_
  show step i (if i ∈ order then done else init) _ = none
  rw [if_pos (hall i)]
  exact hdone i _

end Runs

end Concurrency
