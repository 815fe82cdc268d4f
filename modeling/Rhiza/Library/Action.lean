import Mathlib.Data.List.Basic

/-! # Calls that act on a shared world

A call reads and changes a world, and it answers or fails. A failed call leaves the
world that it has made so far.
-/

namespace Rhiza.Library

variable {ε σ α β : Type}

/-- From a world to the answer and the world after it. -/
def Action (ε σ α : Type) : Type := σ → Except ε α × σ

namespace Action

instance : Monad (Action ε σ) where
  pure a := fun w => (.ok a, w)
  bind x f := fun w =>
    match x w with
    | (.ok a, w') => f a w'
    | (.error error, w') => (.error error, w')

def raise (error : ε) : Action ε σ α := fun w => (.error error, w)

def lift (x : Except ε α) : Action ε σ α := fun w => (x, w)

def update (f : σ → σ) : Action ε σ Unit := fun w => (.ok (), f w)

/-- The answer of a call that is not left when it fails. -/
def attempt (x : Action ε σ α) : Action ε σ (Except ε α) := fun w => (.ok (x w).1, (x w).2)

variable {x : Action ε σ α} {f : α → Action ε σ β} {w w' : σ} {a : α} {b : β} {error : ε}

theorem bind_eq_ok :
    (x >>= f) w = (.ok b, w') ↔ ∃ a middle, x w = (.ok a, middle) ∧ f a middle = (.ok b, w') := by
  show (match x w with
    | (.ok a, middle) => f a middle
    | (.error error, middle) => (.error error, middle)) = _ ↔ _
  rcases x w with ⟨answer, middle⟩
  cases answer with
  | error error =>
    refine ⟨fun h => ?_, fun ⟨a, other, h, _⟩ => ?_⟩
    · cases h
    · cases h
  | ok a =>
    refine ⟨fun h => ⟨a, middle, rfl, h⟩, ?_⟩
    rintro ⟨a', other, h, hRest⟩
    cases h
    exact hRest

theorem lift_eq_ok {answer : Except ε α} :
    (lift answer : Action ε σ α) w = (.ok a, w') ↔ answer = .ok a ∧ w = w' := Prod.mk.injEq .. ▸ Iff.rfl

theorem attempt_eq_ok {answer : Except ε α} :
    attempt x w = (.ok answer, w') ↔ x w = (answer, w') := by
  constructor
  · intro h
    cases h
    rfl
  · intro h
    rw [attempt, h]

def Keeps (R : σ → σ → Prop) (x : Action ε σ α) : Prop := ∀ w, R w (x w).2

variable {R : σ → σ → Prop}

theorem keeps_pure (hRefl : ∀ w, R w w) (a : α) : Keeps R (pure a : Action ε σ α) := hRefl

theorem keeps_raise (hRefl : ∀ w, R w w) (error : ε) : Keeps R (raise error : Action ε σ α) := hRefl

theorem keeps_lift (hRefl : ∀ w, R w w) (answer : Except ε α) :
    Keeps R (lift answer : Action ε σ α) := hRefl

theorem Keeps.bind (hTrans : ∀ w₁ w₂ w₃, R w₁ w₂ → R w₂ w₃ → R w₁ w₃) (h : Keeps R x)
    (hf : ∀ a, Keeps R (f a)) : Keeps R (x >>= f) := by
  intro w
  have hFirst := h w
  show R w (match x w with
    | (.ok a, middle) => f a middle
    | (.error error, middle) => (.error error, middle)).2
  rcases hRun : x w with ⟨answer, middle⟩
  rw [hRun] at hFirst
  cases answer with
  | error error => exact hFirst
  | ok a => exact hTrans _ _ _ hFirst (hf a middle)

theorem Keeps.attempt (h : Keeps R x) : Keeps R x.attempt := h

def Does (x : Action ε σ α) (before : σ → Prop) (a : α) (after : σ → Prop) : Prop :=
  ∀ w, before w → ∃ w', x w = (.ok a, w') ∧ after w'

variable {before middle after : σ → Prop}

theorem does_pure (a : α) : Does (pure a : Action ε σ α) before a before :=
  fun w h => ⟨w, rfl, h⟩

theorem does_lift {answer : Except ε α} (h : answer = .ok a) :
    Does (lift answer : Action ε σ α) before a before := by
  intro w hBefore
  exact ⟨w, by rw [lift, h], hBefore⟩

theorem Does.bind (h : Does x before a middle) (hf : Does (f a) middle b after) :
    Does (x >>= f) before b after := by
  intro w hBefore
  obtain ⟨w₁, hRun, hMiddle⟩ := h w hBefore
  obtain ⟨w₂, hRest, hAfter⟩ := hf w₁ hMiddle
  exact ⟨w₂, bind_eq_ok.mpr ⟨a, w₁, hRun, hRest⟩, hAfter⟩

theorem Does.attempt (h : Does x before a after) : Does x.attempt before (.ok a) after := by
  intro w hBefore
  obtain ⟨w', hRun, hAfter⟩ := h w hBefore
  exact ⟨w', attempt_eq_ok.mpr hRun, hAfter⟩

theorem Does.mono (h : Does x before a after) {before' after' : σ → Prop}
    (hBefore : ∀ w, before' w → before w) (hAfter : ∀ w, after w → after' w) :
    Does x before' a after' := by
  intro w hHere
  obtain ⟨w', hRun, hThere⟩ := h w (hBefore w hHere)
  exact ⟨w', hRun, hAfter w' hThere⟩

/-- The answers of calls one after another, and the world after the last of them. -/
def repeated (x : Action ε σ α) : Nat → σ → List (Except ε α) × σ
  | 0, w => ([], w)
  | n + 1, w =>
    let rest := repeated x n (x w).2
    ((x w).1 :: rest.1, rest.2)

theorem Does.repeated (h : Does x before a before) (n : Nat) {w : σ} (hBefore : before w) :
    ∃ w', x.repeated n w = (List.replicate n (.ok a), w') ∧ before w' := by
  induction n generalizing w with
  | zero => exact ⟨w, rfl, hBefore⟩
  | succ n ih =>
    obtain ⟨w₁, hRun, hMiddle⟩ := h w hBefore
    obtain ⟨w₂, hRest, hAfter⟩ := ih hMiddle
    refine ⟨w₂, ?_, hAfter⟩
    rw [Action.repeated, hRun]
    dsimp only
    rw [hRest]
    rfl

theorem Does.repeated_succ (hFirst : Does x before a after) (hAgain : Does x after a after)
    (n : Nat) {w : σ} (hBefore : before w) :
    ∃ w', x.repeated (n + 1) w = (List.replicate (n + 1) (.ok a), w') ∧ after w' := by
  obtain ⟨w₁, hRun, hMiddle⟩ := hFirst w hBefore
  obtain ⟨w₂, hRest, hAfter⟩ := hAgain.repeated n hMiddle
  refine ⟨w₂, ?_, hAfter⟩
  rw [Action.repeated, hRun]
  dsimp only
  rw [hRest]
  rfl

end Action

end Rhiza.Library
