import NBodySimulation.Concurrency.Interleaving

/-!
# Fork-join programs

One thread carries out a list of commands on a store. A command is done by that thread alone, or it
opens a region: it forks tasks, waits until all of them are finished, and goes on with the store
that they leave. Both ends of a region may fail, and then the program stops.

When every region is determinate, the schedule of its tasks cannot be told from outside: the program
ends under every schedule, and ends as it does when each region is replaced by its result.

## Main result

* `ForkJoin.Correct.every_schedule`: every schedule of a whole program ends, and all end alike.
-/

namespace Concurrency

open Relation

universe u v w x

/-- What a command does first: all of its work, or the fork of the tasks of a region. -/
inductive Forked (S : Type u) {Region : Type v} (size : Region → ℕ) (Local : Region → Type v)
  | alone (s : S)
  | region (r : Region) (c : Config (Fin (size r)) (Local r) S)

/-- A program with parallel regions, for commands of type `C`. -/
structure ForkJoin (C : Type w) (S : Type u) (ε : Type x) where
  /-- What distinguishes the regions. -/
  Region : Type v
  size : Region → ℕ
  Local : Region → Type v
  tasks : ∀ r, Tasks (Fin (size r)) (Local r) S
  fork : C → S → Except ε (Forked S size Local)
  /-- How the thread goes on after a region, with the store that its tasks leave. -/
  join : Region → S → Except ε S

namespace ForkJoin

variable {C : Type w} {S : Type u} {ε : Type x} (P : ForkJoin.{u, v} C S ε)

/-- Where the program is: between two commands, inside a region, or stopped. -/
inductive Point
  | between (s : S)
  | inside (r : P.Region) (c : Config (Fin (P.size r)) (P.Local r) S)
  | stopped (fault : ε)

/-- One step, of the thread between the regions or of any task inside one. -/
inductive Step : List C × P.Point → List C × P.Point → Prop
  | alone {c : C} {cs : List C} {s s' : S} (h : P.fork c s = .ok (.alone s')) :
      Step (c :: cs, .between s) (cs, .between s')
  | fork {c : C} {cs : List C} {s : S} {r : P.Region} {start : Config _ (P.Local r) S}
      (h : P.fork c s = .ok (.region r start)) : Step (c :: cs, .between s) (cs, .inside r start)
  | forkFault {c : C} {cs : List C} {s : S} {fault : ε} (h : P.fork c s = .error fault) :
      Step (c :: cs, .between s) ([], .stopped fault)
  | task {cs : List C} {r : P.Region} {i : Fin (P.size r)} {a b : Config _ (P.Local r) S}
      (h : StepsTo (P.tasks r) i a b) : Step (cs, .inside r a) (cs, .inside r b)
  | join {cs : List C} {r : P.Region} {a : Config _ (P.Local r) S} {s : S}
      (hfin : Finished (P.tasks r) a) (h : P.join r a.store = .ok s) :
      Step (cs, .inside r a) (cs, .between s)
  | joinFault {cs : List C} {r : P.Region} {a : Config _ (P.Local r) S} {fault : ε}
      (hfin : Finished (P.tasks r) a) (h : P.join r a.store = .error fault) :
      Step (cs, .inside r a) ([], .stopped fault)

def ended : Except ε S → List C × P.Point
  | .ok s => ([], .between s)
  | .error fault => ([], .stopped fault)

variable (result : ∀ r, Config (Fin (P.size r)) (P.Local r) S → S)

/-- The program with a result in place of each region. -/
def run : List C → S → Except ε S
  | [], s => .ok s
  | c :: cs, s =>
    match P.fork c s with
    | .error fault => .error fault
    | .ok (.alone s') => run cs s'
    | .ok (.region r start) => (P.join r (result r start)).bind (run cs)

/-- All regions that can be opened are determinate. -/
structure Correct (I : S → Prop) : Prop where
  alone : ∀ {c s s'}, I s → P.fork c s = .ok (.alone s') → I s'
  determinate : ∀ {c s r start}, I s → P.fork c s = .ok (.region r start) →
    Determinate (P.tasks r) start (result r start)
  join : ∀ {c s r start s'}, I s → P.fork c s = .ok (.region r start) →
    P.join r (result r start) = .ok s' → I s'

/-- The program is on its way to an end. -/
def LeadsTo (I : S → Prop) (outcome : Except ε S) : List C × P.Point → Prop
  | (cs, .between s) => I s ∧ P.run result cs s = outcome
  | (cs, .inside r a) => ∃ c s start schedule, I s ∧ P.fork c s = .ok (.region r start) ∧
      Interleaving (P.tasks r) schedule start a ∧
      (P.join r (result r start)).bind (P.run result cs) = outcome
  | (cs, .stopped fault) => cs = [] ∧ outcome = .error fault

variable {P result} {I : S → Prop} {outcome : Except ε S}

/-- **One step** does not change where the program is going. -/
theorem Correct.leadsTo_step (hP : P.Correct result I) {f g : List C × P.Point}
    (hf : P.LeadsTo result I outcome f) (h : P.Step f g) : P.LeadsTo result I outcome g := by
  cases h with
  | alone h =>
    obtain ⟨hs, hrun⟩ := hf
    rw [run, h] at hrun
    exact ⟨hP.alone hs h, hrun⟩
  | fork h =>
    obtain ⟨hs, hrun⟩ := hf
    rw [run, h] at hrun
    exact ⟨_, _, _, [], hs, h, .nil _, hrun⟩
  | forkFault h =>
    obtain ⟨hs, hrun⟩ := hf
    rw [run, h] at hrun
    exact ⟨rfl, hrun.symm⟩
  | task h =>
    obtain ⟨c, s, start, schedule, hs, hfork, hrun, hjoin⟩ := hf
    exact ⟨c, s, start, schedule ++ [_], hs, hfork, hrun.append (.cons h (.nil _)), hjoin⟩
  | join hfin h =>
    obtain ⟨c, s, start, schedule, hs, hfork, hrun, hjoin⟩ := hf
    rw [(hP.determinate hs hfork).store_eq schedule _ hrun hfin] at h
    rw [h] at hjoin
    exact ⟨hP.join hs hfork h, hjoin⟩
  | joinFault hfin h =>
    obtain ⟨c, s, start, schedule, hs, hfork, hrun, hjoin⟩ := hf
    rw [(hP.determinate hs hfork).store_eq schedule _ hrun hfin] at h
    rw [h] at hjoin
    exact ⟨rfl, hjoin.symm⟩

/-- **No deadlock**: the program can take a step, or it has ended. -/
theorem exists_step_or_eq_ended {f : List C × P.Point} (hf : P.LeadsTo result I outcome f) :
    (∃ g, P.Step f g) ∨ f = P.ended outcome := by
  obtain ⟨cs, point⟩ := f
  cases point with
  | between s =>
    obtain ⟨_, rfl⟩ := hf
    cases cs with
    | nil => exact Or.inr rfl
    | cons c cs =>
      left
      rcases hfork : P.fork c s with fault | ⟨s' | ⟨r, start⟩⟩
      · exact ⟨_, .forkFault hfork⟩
      · exact ⟨_, .alone hfork⟩
      · exact ⟨_, .fork hfork⟩
  | inside r a =>
    left
    by_cases hfin : Finished (P.tasks r) a
    · rcases hjoin : P.join r a.store with fault | s
      · exact ⟨_, .joinFault hfin hjoin⟩
      · exact ⟨_, .join hfin hjoin⟩
    · obtain ⟨i, hi⟩ := not_forall.mp hfin
      obtain ⟨⟨l, s⟩, hstep⟩ := Option.ne_none_iff_exists'.mp hi
      exact ⟨_, .task ⟨l, s, hstep, rfl⟩⟩
  | stopped fault =>
    obtain ⟨rfl, rfl⟩ := hf
    exact Or.inr rfl

/-! ## Every schedule ends -/

theorem acc_stopped (fault : ε) : Acc (fun g f ↦ P.Step f g) ([], .stopped fault) :=
  ⟨_, fun _ h ↦ nomatch h⟩

/-- A region ends, by the bound on the steps of its tasks. -/
theorem Correct.acc_inside (hP : P.Correct result I) {cs : List C}
    (hrest : ∀ s, I s → Acc (fun g f ↦ P.Step f g) (cs, .between s)) {c : C} {s : S} {r : P.Region}
    {start : Config _ (P.Local r) S} (hs : I s) (hfork : P.fork c s = .ok (.region r start))
    {schedule : List (Fin (P.size r))} {a : Config _ (P.Local r) S}
    (hrun : Interleaving (P.tasks r) schedule start a) :
    Acc (fun g f ↦ P.Step f g) (cs, .inside r a) := by
  have hdeterminate := hP.determinate hs hfork
  obtain ⟨n, hn⟩ := hdeterminate.bounded
  induction hk : n - schedule.length using Nat.strongRecOn generalizing schedule a with
  | ind k ih =>
    refine ⟨_, fun g h ↦ ?_⟩
    cases h with
    | task h =>
      have hlonger := hrun.append (.cons h (.nil _))
      have hbound := hn _ _ hlonger
      refine ih _ ?_ hlonger rfl
      rw [List.length_append, List.length_singleton] at hbound ⊢
      omega
    | join hfin h =>
      rw [hdeterminate.store_eq schedule _ hrun hfin] at h
      exact hrest _ (hP.join hs hfork h)
    | joinFault hfin h => exact acc_stopped _

theorem Correct.acc_between (hP : P.Correct result I) (cs : List C) {s : S} (hs : I s) :
    Acc (fun g f ↦ P.Step f g) (cs, .between s) := by
  induction cs generalizing s with
  | nil => exact ⟨_, fun _ h ↦ nomatch h⟩
  | cons c cs ih =>
    refine ⟨_, fun g h ↦ ?_⟩
    cases h with
    | alone h => exact ih (hP.alone hs h)
    | fork h => exact hP.acc_inside (fun s hs ↦ ih hs) hs h (.nil _)
    | forkFault h => exact acc_stopped _

/-- **Every schedule of a whole program ends**, and from wherever it has got to, it ends as the
program does with results in place of the regions. -/
theorem Correct.every_schedule (hP : P.Correct result I) (cs : List C) {s : S} (hs : I s) :
    Acc (fun g f ↦ P.Step f g) (cs, .between s) ∧
    ∀ f, ReflTransGen P.Step (cs, .between s) f →
      ReflTransGen P.Step f (P.ended (P.run result cs s)) := by
  have hacc := hP.acc_between cs hs
  refine ⟨hacc, ?_⟩
  have hends : ∀ f, Acc (fun g f ↦ P.Step f g) f → P.LeadsTo result I (P.run result cs s) f →
      ReflTransGen P.Step f (P.ended (P.run result cs s)) := by
    intro f hf
    induction hf with
    | intro f _ ih =>
      intro hleads
      rcases exists_step_or_eq_ended hleads with ⟨g, hstep⟩ | rfl
      · exact .head hstep (ih g hstep (hP.leadsTo_step hleads hstep))
      · exact .refl
  intro f hreach
  have hboth : Acc (fun g f ↦ P.Step f g) f ∧ P.LeadsTo result I (P.run result cs s) f := by
    induction hreach with
    | refl => exact ⟨hacc, hs, rfl⟩
    | tail _ hstep ih => exact ⟨ih.1.inv hstep, hP.leadsTo_step ih.2 hstep⟩
  exact hends f hboth.1 hboth.2

end ForkJoin

end Concurrency
