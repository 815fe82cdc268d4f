import Mathlib.Data.List.Sort

/-! # Stable sorting and ranks

A stable sort keeps the order of what counts the same. In a sorted list an element is
among the first of a number if fewer than that number come before it.
-/

namespace Rhiza.Library

universe u

variable {α : Type u}

section Stable

variable {le : α → α → Prop} [DecidableRel le] {early : α → α → Prop}

theorem orderedInsert_stable (hTotal : ∀ a b, le a b ∨ le b a)
    (hTrans : ∀ {a b c}, le a b → le b c → le a c) {a : α} {sorted : List α}
    (hSorted : sorted.Pairwise fun b c => le b c ∧ (le c b → early b c))
    (hEarly : ∀ b ∈ sorted, early a b) :
    (sorted.orderedInsert le a).Pairwise fun b c => le b c ∧ (le c b → early b c) := by
  induction sorted with
  | nil => exact List.pairwise_singleton _ _
  | cons b sorted ih =>
    obtain ⟨hFirst, hRest⟩ := List.pairwise_cons.mp hSorted
    obtain ⟨hEarlyFirst, hEarlyRest⟩ := List.forall_mem_cons.mp hEarly
    rw [List.orderedInsert_cons]
    split
    · rename_i hLe
      refine List.pairwise_cons.mpr ⟨?_, hSorted⟩
      refine List.forall_mem_cons.mpr ⟨⟨hLe, fun _ => hEarlyFirst⟩, fun c hC => ?_⟩
      exact ⟨hTrans hLe (hFirst c hC).1, fun _ => hEarlyRest c hC⟩
    · rename_i hNot
      refine List.pairwise_cons.mpr ⟨fun c hC => ?_, ih hRest hEarlyRest⟩
      rcases List.mem_orderedInsert le |>.mp hC with rfl | hOld
      · exact ⟨(hTotal c b).resolve_left hNot, fun hLe => absurd hLe hNot⟩
      · exact hFirst c hOld

theorem insertionSort_stable (hTotal : ∀ a b, le a b ∨ le b a)
    (hTrans : ∀ {a b c}, le a b → le b c → le a c) {list : List α} (h : list.Pairwise early) :
    (list.insertionSort le).Pairwise fun b c => le b c ∧ (le c b → early b c) := by
  induction list with
  | nil => exact List.Pairwise.nil
  | cons a list ih =>
    obtain ⟨hFirst, hRest⟩ := List.pairwise_cons.mp h
    rw [List.insertionSort_cons]
    refine orderedInsert_stable hTotal hTrans (ih hRest) fun b hB => ?_
    exact hFirst b ((List.mem_insertionSort le).mp hB)

end Stable

section Rank

variable {before : α → α → Prop} [DecidableRel before]

/-- How many elements come before one. -/
def rank (before : α → α → Prop) [DecidableRel before] (list : List α) (a : α) : Nat :=
  list.countP fun b => before b a

theorem mem_take_iff_rank (hAsymm : ∀ {a b}, before a b → ¬ before b a) {list : List α}
    (h : list.Pairwise before) {a : α} (hA : a ∈ list) (count : Nat) :
    a ∈ list.take count ↔ rank before list a < count := by
  induction list generalizing count with
  | nil => cases hA
  | cons b list ih =>
    obtain ⟨hFirst, hRest⟩ := List.pairwise_cons.mp h
    cases count with
    | zero => exact iff_of_false List.not_mem_nil (Nat.not_lt_zero _)
    | succ count =>
      rw [List.take_succ_cons, rank, List.countP_cons]
      rcases List.mem_cons.mp hA with rfl | hLater
      · have hNone : list.countP (fun c => before c a) = 0 := by
          refine List.countP_eq_zero.mpr fun c hC hBefore => ?_
          exact hAsymm (hFirst c hC) (of_decide_eq_true hBefore)
        have hSelf : ¬ before a a := fun hBefore => hAsymm hBefore hBefore
        rw [hNone, if_neg fun hBefore => hSelf (of_decide_eq_true hBefore)]
        exact iff_of_true List.mem_cons_self (Nat.succ_pos _)
      · have hBefore := hFirst a hLater
        have hOther : a ≠ b := by
          rintro rfl
          exact hAsymm hBefore hBefore
        rw [if_pos (decide_eq_true hBefore), Nat.succ_lt_succ_iff, List.mem_cons]
        exact (or_iff_right hOther).trans (ih hRest hLater count)

theorem rank_perm {list list' : List α} (h : list.Perm list') (a : α) :
    rank before list a = rank before list' a := h.countP_eq _

end Rank

end Rhiza.Library
