import Mathlib.Data.List.Basic

/-! # Programs with durable steps

A program works on a disk and on a memory. Each of its durable steps belongs to a
site of the code, and at most one of them is disturbed: either the process stops
there and the memory is lost, or the step returns an error to the program. What
a disturbed step leaves on the disk depends on how far it came.

A triple says what holds after a program for each of the three ways it can end.
-/

namespace Rhiza.Library

/-- The disturbance of one durable step: the first of its site after `skip` others. -/
structure Fault (S : Type) where
  site : S
  skip : Nat
  crash : Bool
  extent : Nat
  message : String
  deriving DecidableEq

inductive Exit (ε α : Type)
  | value (a : α)
  | error (e : ε)
  | crash

structure Outcome (S D M ε α : Type) where
  disk : D
  memory : M
  fault : Option (Fault S)
  exit : Exit ε α

/-- A durable step with what a crash and an error can leave behind. -/
structure DurableStep (S D ε : Type) where
  site : S
  complete : D → D
  crashed : Nat → D → D
  failed : Nat → D → D
  error : String → ε

def Program (S D M ε α : Type) : Type := D → M → Option (Fault S) → Outcome S D M ε α

namespace Program

variable {S D M ε α β : Type} [DecidableEq S]

protected def pure (a : α) : Program S D M ε α := fun d m fault => ⟨d, m, fault, .value a⟩

protected def bind (x : Program S D M ε α) (rest : α → Program S D M ε β) : Program S D M ε β :=
  fun d m fault =>
    let outcome := x d m fault
    match outcome.exit with
    | .value a => rest a outcome.disk outcome.memory outcome.fault
    | .error e => ⟨outcome.disk, outcome.memory, outcome.fault, .error e⟩
    | .crash => ⟨outcome.disk, outcome.memory, outcome.fault, .crash⟩

instance : Monad (Program S D M ε) where
  pure := Program.pure
  bind := Program.bind

def disk : Program S D M ε D := fun d m fault => ⟨d, m, fault, .value d⟩

def memory : Program S D M ε M := fun d m fault => ⟨d, m, fault, .value m⟩

def setMemory (change : M → M) : Program S D M ε Unit :=
  fun d m fault => ⟨d, change m, fault, .value ()⟩

def lift : Except ε α → Program S D M ε α
  | .ok a => Program.pure a
  | .error e => fun d m fault => ⟨d, m, fault, .error e⟩

/-- The memory is changed where the program returns an error. -/
def onError (change : M → M) (x : Program S D M ε α) : Program S D M ε α := fun d m fault =>
  let outcome := x d m fault
  match outcome.exit with
  | .error e => ⟨outcome.disk, change outcome.memory, outcome.fault, .error e⟩
  | _ => outcome

def perform (step : DurableStep S D ε) : Program S D M ε Unit := fun d m fault =>
  match fault with
  | none => ⟨step.complete d, m, none, .value ()⟩
  | some f =>
    if f.site ≠ step.site then ⟨step.complete d, m, some f, .value ()⟩
    else if f.skip ≠ 0 then ⟨step.complete d, m, some { f with skip := f.skip - 1 }, .value ()⟩
    else if f.crash then ⟨step.crashed f.extent d, m, none, .crash⟩
    else ⟨step.failed f.extent d, m, none, .error (step.error f.message)⟩

def performAll (step : α → DurableStep S D ε) : List α → Program S D M ε Unit
  | [] => Program.pure ()
  | a :: rest => (perform (step a)).bind fun _ => performAll step rest

end Program

def Outcome.Satisfies {S D M ε α : Type} (outcome : Outcome S D M ε α) (Q : α → D → M → Prop)
    (E : ε → D → M → Prop) (C : D → Prop) : Prop :=
  match outcome.exit with
  | .value a => Q a outcome.disk outcome.memory
  | .error e => E e outcome.disk outcome.memory
  | .crash => C outcome.disk

/-- The disturbances that a triple allows: site, crash or error, and extent. -/
abbrev Faults (S : Type) := S → Bool → Nat → Prop

def Faults.Allow {S : Type} (F : Faults S) (fault : Option (Fault S)) : Prop :=
  ∀ f, fault = some f → F f.site f.crash f.extent

/-- Crashes only. -/
def Faults.crashes {S : Type} : Faults S := fun _ crash _ => crash = true

def Triple {S D M ε α : Type} (F : Faults S) (P : D → M → Prop) (x : Program S D M ε α)
    (Q : α → D → M → Prop) (E : ε → D → M → Prop) (C : D → Prop) : Prop :=
  ∀ d m fault, F.Allow fault → P d m →
    (x d m fault).Satisfies Q E C ∧ F.Allow (x d m fault).fault

namespace Triple

variable {S D M ε α β : Type} {F : Faults S} {P P' : D → M → Prop} {Q Q' : α → D → M → Prop}
  {E E' : ε → D → M → Prop} {C C' : D → Prop} {x : Program S D M ε α}

theorem conseq (h : Triple F P x Q E C) (hP : ∀ d m, P' d m → P d m)
    (hQ : ∀ a d m, Q a d m → Q' a d m) (hE : ∀ e d m, E e d m → E' e d m)
    (hC : ∀ d, C d → C' d) : Triple F P' x Q' E' C' := by
  intro d m fault hAllow hHere
  obtain ⟨hSatisfies, hLeft⟩ := h d m fault hAllow (hP d m hHere)
  refine ⟨?_, hLeft⟩
  unfold Outcome.Satisfies at hSatisfies ⊢
  split at hSatisfies
  · exact hQ _ _ _ hSatisfies
  · exact hE _ _ _ hSatisfies
  · exact hC _ hSatisfies

theorem and (h : Triple F P x Q E C) (h' : Triple F P x Q' E' C') :
    Triple F P x (fun a d m => Q a d m ∧ Q' a d m) (fun e d m => E e d m ∧ E' e d m)
      (fun d => C d ∧ C' d) := by
  intro d m fault hAllow hHere
  obtain ⟨hSatisfies, hLeft⟩ := h d m fault hAllow hHere
  obtain ⟨hSatisfies', -⟩ := h' d m fault hAllow hHere
  refine ⟨?_, hLeft⟩
  unfold Outcome.Satisfies at hSatisfies hSatisfies' ⊢
  cases hExit : (x d m fault).exit <;> simp only [hExit] at hSatisfies hSatisfies' ⊢ <;>
    exact ⟨hSatisfies, hSatisfies'⟩

theorem named (h : ∀ d₀ m₀, P d₀ m₀ → Triple F (fun d m => d = d₀ ∧ m = m₀) x Q E C) :
    Triple F P x Q E C :=
  fun d m fault hAllow hHere => h d m hHere d m fault hAllow ⟨rfl, rfl⟩

theorem given {p : Prop} (h : p → Triple F P x Q E C) :
    Triple F (fun d m => p ∧ P d m) x Q E C :=
  fun d m fault hAllow hHere => h hHere.1 d m fault hAllow hHere.2

theorem pure {a : α} (h : ∀ d m, P d m → Q a d m) :
    Triple F P (Pure.pure a : Program S D M ε α) Q E C :=
  fun d m _ hAllow hHere => ⟨h d m hHere, hAllow⟩

theorem bind {rest : α → Program S D M ε β} {Q' : β → D → M → Prop} (hx : Triple F P x Q E C)
    (hRest : ∀ a, Triple F (Q a) (rest a) Q' E C) : Triple F P (x >>= rest) Q' E C := by
  intro d m fault hAllow hHere
  obtain ⟨hSatisfies, hLeft⟩ := hx d m fault hAllow hHere
  change (Program.bind x rest d m fault).Satisfies Q' E C ∧
    F.Allow (Program.bind x rest d m fault).fault
  unfold Program.bind
  unfold Outcome.Satisfies at hSatisfies
  cases hExit : (x d m fault).exit with
  | value a =>
    simp only [hExit] at hSatisfies ⊢
    exact hRest a _ _ _ hLeft hSatisfies
  | error e =>
    simp only [hExit] at hSatisfies ⊢
    exact ⟨hSatisfies, hLeft⟩
  | crash =>
    simp only [hExit] at hSatisfies ⊢
    exact ⟨hSatisfies, hLeft⟩

theorem disk {Q : D → D → M → Prop} (h : ∀ d m, P d m → Q d d m) :
    Triple F P (Program.disk : Program S D M ε D) Q E C :=
  fun d m _ hAllow hHere => ⟨h d m hHere, hAllow⟩

theorem memory {Q : M → D → M → Prop} (h : ∀ d m, P d m → Q m d m) :
    Triple F P (Program.memory : Program S D M ε M) Q E C :=
  fun d m _ hAllow hHere => ⟨h d m hHere, hAllow⟩

theorem setMemory {change : M → M} {Q : Unit → D → M → Prop}
    (h : ∀ d m, P d m → Q () d (change m)) :
    Triple F P (Program.setMemory change : Program S D M ε Unit) Q E C :=
  fun d m _ hAllow hHere => ⟨h d m hHere, hAllow⟩

theorem lift {result : Except ε α} (hOk : ∀ a d m, result = .ok a → P d m → Q a d m)
    (hError : ∀ e d m, result = .error e → P d m → E e d m) :
    Triple F P (Program.lift result : Program S D M ε α) Q E C := by
  intro d m fault hAllow hHere
  cases hResult : result with
  | ok a => exact ⟨hOk a d m hResult hHere, hAllow⟩
  | error e => exact ⟨hError e d m hResult hHere, hAllow⟩

theorem fail {e : ε} (h : ∀ d m, P d m → E e d m) :
    Triple F P (Program.lift (.error e) : Program S D M ε α) Q E C :=
  fun d m _ hAllow hHere => ⟨h d m hHere, hAllow⟩

theorem onError {change : M → M} (h : Triple F P x Q (fun e d m => E e d (change m)) C) :
    Triple F P (x.onError change) Q E C := by
  intro d m fault hAllow hHere
  obtain ⟨hSatisfies, hLeft⟩ := h d m fault hAllow hHere
  unfold Program.onError
  unfold Outcome.Satisfies at hSatisfies
  cases hExit : (x d m fault).exit with
  | value a =>
    simp only [hExit] at hSatisfies ⊢
    exact ⟨by unfold Outcome.Satisfies; simp only [hExit]; exact hSatisfies, hLeft⟩
  | error e =>
    simp only [hExit] at hSatisfies ⊢
    exact ⟨hSatisfies, hLeft⟩
  | crash =>
    simp only [hExit] at hSatisfies ⊢
    exact ⟨by unfold Outcome.Satisfies; simp only [hExit]; exact hSatisfies, hLeft⟩

variable [DecidableEq S]

theorem perform {step : DurableStep S D ε} {Q : Unit → D → M → Prop}
    (hDone : ∀ d m, P d m → Q () (step.complete d) m)
    (hCrash : ∀ d m n, F step.site true n → P d m → C (step.crashed n d))
    (hFail : ∀ d m n message, F step.site false n → P d m →
      E (step.error message) (step.failed n d) m) :
    Triple F P (Program.perform step : Program S D M ε Unit) Q E C := by
  intro d m fault hAllow hHere
  unfold Program.perform
  cases fault with
  | none => exact ⟨hDone d m hHere, hAllow⟩
  | some f =>
    have hf := hAllow f rfl
    by_cases hSite : f.site = step.site
    · by_cases hSkip : f.skip = 0
      · rw [hSite] at hf
        simp only [hSite, hSkip, ne_eq, not_true_eq_false, if_false]
        cases hKind : f.crash with
        | true =>
          rw [hKind] at hf
          exact ⟨hCrash d m _ hf hHere, nofun⟩
        | false =>
          rw [hKind] at hf
          exact ⟨hFail d m _ _ hf hHere, nofun⟩
      · simp only [hSite, hSkip, ne_eq, not_true_eq_false, if_false, not_false_eq_true, if_true]
        refine ⟨hDone d m hHere, ?_⟩
        rintro _ ⟨⟩
        rw [hSite] at hf
        exact hf
    · simp only [hSite, ne_eq, not_false_eq_true, if_true]
      exact ⟨hDone d m hHere, hAllow⟩

theorem performAll {step : β → DurableStep S D ε} {items : List β} {I : List β → D → M → Prop}
    (hDone : ∀ d m item rest, I (item :: rest) d m → I rest ((step item).complete d) m)
    (hCrash : ∀ d m item rest n, F (step item).site true n → I (item :: rest) d m →
      C ((step item).crashed n d))
    (hFail : ∀ d m item rest n message, F (step item).site false n → I (item :: rest) d m →
      E ((step item).error message) ((step item).failed n d) m) :
    Triple F (I items) (Program.performAll step items : Program S D M ε Unit)
      (fun _ => I []) E C := by
  induction items with
  | nil => exact pure fun _ _ h => h
  | cons item rest ih =>
    exact bind (perform (Q := fun _ => I rest) (fun d m h => hDone d m item rest h)
      (fun d m n hF h => hCrash d m item rest n hF h)
      fun d m n message hF h => hFail d m item rest n message hF h) fun _ => ih

end Triple

def Program.Calm {S D M ε α : Type} (x : Program S D M ε α) : Prop :=
  ∀ d m, (x d m none).exit ≠ .crash ∧ (x d m none).fault = none

namespace Program.Calm

variable {S D M ε α β : Type} {x : Program S D M ε α}

theorem pure (a : α) : Calm (Pure.pure a : Program S D M ε α) := fun _ _ => ⟨nofun, rfl⟩

theorem bind {rest : α → Program S D M ε β} (h : x.Calm) (hRest : ∀ a, (rest a).Calm) :
    Calm (x >>= rest) := by
  intro d m
  obtain ⟨hExit, hFault⟩ := h d m
  change (Program.bind x rest d m none).exit ≠ .crash ∧ (Program.bind x rest d m none).fault = none
  unfold Program.bind
  cases hEnd : (x d m none).exit with
  | value a =>
    simp only [hEnd, hFault]
    exact hRest a _ _
  | error e =>
    simp only [hEnd, hFault]
    exact ⟨nofun, trivial⟩
  | crash => exact absurd hEnd hExit

theorem disk : Calm (Program.disk : Program S D M ε D) := fun _ _ => ⟨nofun, rfl⟩

theorem memory : Calm (Program.memory : Program S D M ε M) := fun _ _ => ⟨nofun, rfl⟩

theorem setMemory (change : M → M) : Calm (Program.setMemory change : Program S D M ε Unit) :=
  fun _ _ => ⟨nofun, rfl⟩

theorem lift (result : Except ε α) : Calm (Program.lift result : Program S D M ε α) := by
  intro d m
  cases result <;> exact ⟨nofun, rfl⟩

theorem perform [DecidableEq S] (step : DurableStep S D ε) :
    Calm (Program.perform step : Program S D M ε Unit) := fun _ _ => ⟨nofun, rfl⟩

end Program.Calm

end Rhiza.Library
