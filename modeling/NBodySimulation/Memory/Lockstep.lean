import Mathlib.Init

/-!
# Lockstep

A program on machine states and the program on values that it implements, both of which may fail.
They run in lockstep when the first fails exactly when the second does, with the same fault under
its name at the machine level, and when their results are related whenever they end. The relation is
kept by sequencing, so two programs of the same shape are compared call by call.
-/

namespace Memory

universe u v

variable {ε ε' : Type*} {α α' : Type u} {β β' : Type v} {name : ε → ε'} {R : α → β → Prop}
  {R' : α' → β' → Prop} {x : Except ε' α} {y : Except ε β}

theorem ok_bind (a : α) (f : α → Except ε' α') : ((.ok a : Except ε' α) >>= f) = f a := rfl

/-- The same fault, or related results. -/
inductive Lockstep (name : ε → ε') (R : α → β → Prop) : Except ε' α → Except ε β → Prop
  | error (fault : ε) : Lockstep name R (.error (name fault)) (.error fault)
  | ok {a : α} {b : β} (h : R a b) : Lockstep name R (.ok a) (.ok b)

namespace Lockstep

theorem bind {f : α → Except ε' α'} {g : β → Except ε β'} (h : Lockstep name R x y)
    (hnext : ∀ a b, R a b → Lockstep name R' (f a) (g b)) :
    Lockstep name R' (x >>= f) (y >>= g) := by
  cases h with
  | error fault => exact .error fault
  | ok hab => exact hnext _ _ hab

theorem mono {R' : α → β → Prop} (h : Lockstep name R x y) (hle : ∀ a b, R a b → R' a b) :
    Lockstep name R' x y := by
  cases h with
  | error fault => exact .error fault
  | ok hab => exact .ok (hle _ _ hab)

/-- A last step that only rearranges the value. -/
theorem map_right {R' : α → β' → Prop} {g : β → β'} (h : Lockstep name R x y)
    (hnext : ∀ a b, R a b → R' a (g b)) :
    Lockstep name R' x (y >>= fun b ↦ .ok (g b)) := by
  cases h with
  | error fault => exact .error fault
  | ok hab => exact .ok (hnext _ _ hab)

theorem exists_ok {b : β} (h : Lockstep name R x (.ok b)) : ∃ a, x = .ok a ∧ R a b := by
  cases h with
  | ok hab => exact ⟨_, rfl, hab⟩

theorem eq_error {fault : ε} (h : Lockstep name R x (.error fault)) :
    x = .error (name fault) := by
  cases h with
  | error fault => rfl

end Lockstep

end Memory
