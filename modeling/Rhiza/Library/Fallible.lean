import Mathlib.Data.List.Basic

/-! # Computations that may fail

Which results a sequence of fallible steps has, one step at a time.
-/

namespace Rhiza.Library

variable {ε α β : Type}

/-- Go on if the condition holds. -/
def ensure (condition : Prop) [Decidable condition] (error : ε) : Except ε Unit :=
  if condition then .ok () else .error error

@[simp] theorem ensure_ok_iff {condition : Prop} [Decidable condition] {error : ε} :
    ensure condition error = .ok () ↔ condition := by
  unfold ensure
  split
  · simpa
  · simpa

theorem ensure_of {condition : Prop} [Decidable condition] {error : ε} (h : condition) :
    ensure condition error = .ok () := ensure_ok_iff.mpr h

theorem bind_ok_iff {x : Except ε α} {f : α → Except ε β} {b : β} :
    (x >>= f) = .ok b ↔ ∃ a, x = .ok a ∧ f a = .ok b := by
  cases x <;> simp [bind, Except.bind]

@[simp] theorem unit_bind_ok_iff {x : Except ε Unit} {f : Unit → Except ε β} {b : β} :
    (x >>= f) = .ok b ↔ x = .ok () ∧ f () = .ok b := by
  cases x <;> simp [bind, Except.bind]

theorem bind_congr_ok {x : Except ε α} {f g : α → Except ε β} (h : ∀ a, x = .ok a → f a = g a) :
    (x >>= f) = (x >>= g) := by
  cases x with
  | error error => rfl
  | ok a => exact h a rfl

theorem bind_ne_error {x : Except ε α} {f : α → Except ε β} {error : ε} (hx : x ≠ .error error)
    (hf : ∀ a, f a ≠ .error error) : (x >>= f) ≠ .error error := by
  cases x with
  | error other => exact fun h => hx (congrArg Except.error (Except.error.inj h))
  | ok a => exact hf a

theorem map_ok_iff {x : Except ε α} {f : α → β} {b : β} :
    f <$> x = .ok b ↔ ∃ a, x = .ok a ∧ f a = b := by
  cases x <;> simp [Functor.map, Except.map]

theorem exists_ensure_iff {condition : Prop} [Decidable condition] {error : ε} {P : Unit → Prop} :
    (∃ a, ensure condition error = .ok a ∧ P a) ↔ condition ∧ P () := by
  constructor
  · rintro ⟨⟨⟩, hCondition, h⟩
    exact ⟨ensure_ok_iff.mp hCondition, h⟩
  · rintro ⟨hCondition, h⟩
    exact ⟨(), ensure_of hCondition, h⟩

theorem elim_ok_iff {o : Option α} {error : ε} {a : α} :
    o.elim (.error error) Except.ok = .ok a ↔ o = some a := by
  cases o <;> simp

theorem ok_of_toOption {x : Except ε α} {a : α} (h : x.toOption = some a) : x = .ok a := by
  cases x with
  | error error => cases h
  | ok found => exact congrArg Except.ok (Option.some.inj h)

theorem ok_bind (a : α) (f : α → Except ε β) : (Except.ok a >>= f) = f a := rfl

end Rhiza.Library
