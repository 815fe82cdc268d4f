import Mathlib.Data.List.Basic

/-! # Runs of a partial step function

A run takes only the steps that a condition allows; the condition may look at
the state before the step and at the action.
-/

namespace Rhiza.Library

universe u v

variable {S : Type u} {A : Type v}

inductive Run (step : S → A → Option S) (allowed : S → A → Prop) (start : S) : S → Prop
  | refl : Run step allowed start start
  | step {s s' : S} (a : A) (hRun : Run step allowed start s) (hAllowed : allowed s a)
      (hStep : step s a = some s') : Run step allowed start s'

/-- Taking a list of actions in order. -/
def execute (step : S → A → Option S) : S → List A → Option S
  | s, [] => some s
  | s, a :: as => (step s a).bind fun s' => execute step s' as

/-- Taking one action after the other, each chosen in the state before it and
only if it passes a test. -/
def play (step : S → A → Option S) (test : S → A → Bool) : S → List (S → Option A) → Option S
  | s, [] => some s
  | s, next :: rest =>
    (next s).bind fun a =>
      if test s a then (step s a).bind fun s' => play step test s' rest else none

section Runs

variable {step : S → A → Option S} {allowed allowed' : S → A → Prop} {start s : S}

theorem Run.invariant {P : S → Prop} (hStart : P start)
    (hStep : ∀ s a s', P s → allowed s a → step s a = some s' → P s')
    (h : Run step allowed start s) : P s := by
  induction h with
  | refl => exact hStart
  | step a _ hAllowed hNext ih => exact hStep _ a _ ih hAllowed hNext

theorem Run.invariant_of_reachable {P : S → Prop} (hStart : P start)
    (hStep : ∀ s a s', Run step allowed start s → P s → allowed s a → step s a = some s' → P s')
    (h : Run step allowed start s) : P s := by
  induction h with
  | refl => exact hStart
  | step a hRun hAllowed hNext ih => exact hStep _ a _ hRun ih hAllowed hNext

theorem Run.mono (hAllowed : ∀ s a, allowed s a → allowed' s a)
    (h : Run step allowed start s) : Run step allowed' start s := by
  induction h with
  | refl => exact .refl
  | step a _ hHere hNext ih => exact .step a ih (hAllowed _ a hHere) hNext

theorem Run.trans {t : S} (h : Run step allowed start s) (h' : Run step allowed s t) :
    Run step allowed start t := by
  induction h' with
  | refl => exact h
  | step a _ hHere hNext ih => exact .step a ih hHere hNext

theorem Run.of_execute {as : List A} {t : S} (hAllowed : ∀ a ∈ as, ∀ s, allowed s a)
    (h : execute step s as = some t) : Run step allowed s t := by
  induction as generalizing s with
  | nil =>
    obtain rfl := Option.some.inj h
    exact .refl
  | cons a as ih =>
    obtain ⟨s', hStep, h⟩ := Option.bind_eq_some_iff.mp h
    have hFirst : Run step allowed s s' :=
      .step a .refl (hAllowed a List.mem_cons_self s) hStep
    exact hFirst.trans (ih (fun b hb => hAllowed b (List.mem_cons_of_mem _ hb)) h)

theorem Run.of_play {test : S → A → Bool} (hTest : ∀ s a, test s a → allowed s a)
    {script : List (S → Option A)} {t : S} (h : play step test s script = some t) :
    Run step allowed s t := by
  induction script generalizing s with
  | nil =>
    obtain rfl := Option.some.inj h
    exact .refl
  | cons next rest ih =>
    obtain ⟨a, -, h⟩ := Option.bind_eq_some_iff.mp h
    split at h
    · rename_i hHere
      obtain ⟨s', hStep, h⟩ := Option.bind_eq_some_iff.mp h
      have hFirst : Run step allowed s s' := .step a .refl (hTest s a hHere) hStep
      exact hFirst.trans (ih h)
    · cases h

end Runs

end Rhiza.Library
