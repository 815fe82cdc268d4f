import Mathlib.Data.List.Pairwise
import Rhiza.Library.Fallible

/-! # Requests that are carried out once

Items come with a key and are remembered by it. An item whose key is known must
be the one that is remembered. A machine that follows a list of inputs and
refuses exactly the inputs with unsuitable items gets through the whole list if
and only if no two items of it share a key and differ.
-/

namespace Rhiza.Library

variable {κ ν : Type} [DecidableEq κ]

def remember (known : κ → Option ν) (item : κ × ν) : κ → Option ν :=
  fun key => if key = item.1 then some item.2 else known key

def Coherent (known : κ → Option ν) : List (κ × ν) → Prop
  | [] => True
  | item :: items =>
    (∀ value, known item.1 = some value → value = item.2) ∧ Coherent (remember known item) items

theorem remember_known {known : κ → Option ν} {item : κ × ν} (h : known item.1 = some item.2) :
    remember known item = known := by
  funext key
  unfold remember
  split
  · rename_i hKey
    rw [hKey, h]
  · rfl

theorem coherent_append {known : κ → Option ν} {left right : List (κ × ν)} :
    Coherent known (left ++ right) ↔
      Coherent known left ∧ Coherent (left.foldl remember known) right := by
  induction left generalizing known with
  | nil => simp [Coherent]
  | cons item left ih =>
    rw [List.cons_append, Coherent, Coherent, ih, List.foldl_cons, and_assoc]

theorem coherent_iff {known : κ → Option ν} {items : List (κ × ν)} :
    Coherent known items ↔
      (∀ item ∈ items, ∀ value, known item.1 = some value → value = item.2) ∧
      items.Pairwise fun item later => item.1 = later.1 → item.2 = later.2 := by
  induction items generalizing known with
  | nil => simp [Coherent]
  | cons item items ih =>
    rw [Coherent, ih, List.forall_mem_cons, List.pairwise_cons]
    constructor
    · rintro ⟨hItem, hItems, hPairs⟩
      have hSame : ∀ later ∈ items, item.1 = later.1 → item.2 = later.2 := by
        intro later hLater hKey
        exact hItems later hLater item.2 (if_pos hKey.symm)
      refine ⟨⟨hItem, ?_⟩, hSame, hPairs⟩
      intro later hLater value hKnown
      by_cases hKey : later.1 = item.1
      · rw [hItem value (hKey ▸ hKnown), hSame later hLater hKey.symm]
      · exact hItems later hLater value ((if_neg hKey).trans hKnown)
    · rintro ⟨⟨hItem, hItems⟩, hSame, hPairs⟩
      refine ⟨hItem, ?_, hPairs⟩
      intro later hLater value hKnown
      unfold remember at hKnown
      split at hKnown
      · rename_i hKey
        rw [← Option.some.inj hKnown]
        exact hSame later hLater hKey.symm
      · exact hItems later hLater value hKnown

theorem coherent_none_iff {items : List (κ × ν)} :
    Coherent (fun _ => none) items ↔
      items.Pairwise fun item later => item.1 = later.1 → item.2 = later.2 := by
  rw [coherent_iff]
  exact and_iff_right nofun

section Machines

variable {σ ι τ ε : Type} {apply : σ → ι → Except ε σ} {items : ι → List (κ × ν)}
  {Next : τ → ι → Prop} {tipOf : ι → τ} {Admits : ι → Prop} {Holds : σ → τ → (κ → Option ν) → Prop}

def Chain (Next : τ → ι → Prop) (tipOf : ι → τ) : τ → List ι → Prop
  | _, [] => True
  | tip, input :: inputs => Next tip input ∧ Chain Next tipOf (tipOf input) inputs

structure Remembers (apply : σ → ι → Except ε σ) (items : ι → List (κ × ν))
    (Next : τ → ι → Prop) (tipOf : ι → τ) (Admits : ι → Prop)
    (Holds : σ → τ → (κ → Option ν) → Prop) : Prop where
  takes : ∀ {machine tip known input next}, Holds machine tip known → Next tip input →
    apply machine input = .ok next → Admits input ∧ Coherent known (items input) ∧
      Holds next (tipOf input) ((items input).foldl remember known)
  taken : ∀ {machine tip known input}, Holds machine tip known → Next tip input →
    Admits input → Coherent known (items input) → ∃ next, apply machine input = .ok next

theorem Remembers.takes_all (h : Remembers apply items Next tipOf Admits Holds) {inputs : List ι}
    {machine last : σ} {tip : τ} {known : κ → Option ν} (hHolds : Holds machine tip known)
    (hChain : Chain Next tipOf tip inputs) (hRun : inputs.foldlM apply machine = .ok last) :
    (∀ input ∈ inputs, Admits input) ∧ Coherent known (inputs.flatMap items) ∧
      ∃ tip known, Holds last tip known := by
  induction inputs generalizing machine tip known with
  | nil =>
    cases hRun
    exact ⟨nofun, trivial, tip, known, hHolds⟩
  | cons input inputs ih =>
    rw [List.foldlM_cons] at hRun
    obtain ⟨next, hNext, hRun⟩ := bind_ok_iff.mp hRun
    obtain ⟨hAdmits, hCoherent, hHolds⟩ := h.takes hHolds hChain.1 hNext
    obtain ⟨hRest, hCoherentRest, hLast⟩ := ih hHolds hChain.2 hRun
    refine ⟨List.forall_mem_cons.mpr ⟨hAdmits, hRest⟩, ?_, hLast⟩
    rw [List.flatMap_cons]
    exact coherent_append.mpr ⟨hCoherent, hCoherentRest⟩

theorem Remembers.all_taken (h : Remembers apply items Next tipOf Admits Holds) {inputs : List ι}
    {machine : σ} {tip : τ} {known : κ → Option ν} (hHolds : Holds machine tip known)
    (hChain : Chain Next tipOf tip inputs) (hAdmits : ∀ input ∈ inputs, Admits input)
    (hCoherent : Coherent known (inputs.flatMap items)) :
    ∃ last, inputs.foldlM apply machine = .ok last := by
  induction inputs generalizing machine tip known with
  | nil => exact ⟨machine, rfl⟩
  | cons input inputs ih =>
    rw [List.flatMap_cons, coherent_append] at hCoherent
    obtain ⟨hAdmitted, hRest⟩ := List.forall_mem_cons.mp hAdmits
    obtain ⟨next, hNext⟩ := h.taken hHolds hChain.1 hAdmitted hCoherent.1
    obtain ⟨-, -, hHolds⟩ := h.takes hHolds hChain.1 hNext
    obtain ⟨last, hLast⟩ := ih hHolds hChain.2 hRest hCoherent.2
    refine ⟨last, ?_⟩
    rw [List.foldlM_cons, hNext, ok_bind, hLast]

end Machines

end Rhiza.Library
