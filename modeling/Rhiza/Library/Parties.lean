import Mathlib.Algebra.Order.Ring.Nat
import Mathlib.Data.List.Basic

/-! # Parties in a list

Several parties take steps, one at a time, and each holds things. A step replaces
one party in its place.
-/

namespace Rhiza.Library

universe u v

variable {α : Type u} {β : Type v}

theorem count_flatMap_modify [BEq β] {l : List α} {i : Nat} {a : α} (h : l[i]? = some a)
    (held : α → List β) (f : α → α) (x : β) :
    ((l.modify i f).flatMap held).count x + (held a).count x =
      (l.flatMap held).count x + (held (f a)).count x := by
  induction l generalizing i with
  | nil => cases h
  | cons first rest ih =>
    cases i with
    | zero =>
      obtain rfl := Option.some.inj h
      simp only [List.modify_zero_cons, List.flatMap_cons, List.count_append]
      omega
    | succ i =>
      have hRest := ih (i := i) h
      simp only [List.modify_succ_cons, List.flatMap_cons, List.count_append]
      omega

theorem sum_map_modify {l : List α} {i : Nat} {a : α} (h : l[i]? = some a) (amount : α → Nat)
    (f : α → α) : ((l.modify i f).map amount).sum + amount a = (l.map amount).sum + amount (f a) := by
  induction l generalizing i with
  | nil => cases h
  | cons first rest ih =>
    cases i with
    | zero =>
      obtain rfl := Option.some.inj h
      simp only [List.modify_zero_cons, List.map_cons, List.sum_cons]
      omega
    | succ i =>
      have hRest := ih (i := i) h
      simp only [List.modify_succ_cons, List.map_cons, List.sum_cons]
      omega

theorem getElem?_modify_of {l : List α} {i : Nat} {a : α} (h : l[i]? = some a) (f : α → α) (j : Nat) :
    (l.modify i f)[j]? = if j = i then some (f a) else l[j]? := by
  rw [List.getElem?_modify]
  by_cases hj : j = i
  · subst hj
    rw [h, if_pos rfl]
    simp
  · rw [if_neg hj]
    cases l[j]? <;> simp [Ne.symm hj]

theorem getElem?_concat (l : List α) (a : α) (i : Nat) :
    (l ++ [a])[i]? = if i = l.length then some a else l[i]? := by
  split
  · rename_i hi
    rw [hi, List.getElem?_concat_length]
  · rename_i hi
    rcases Nat.lt_or_gt_of_ne hi with hLess | hMore
    · exact List.getElem?_append_left hLess
    · rw [List.getElem?_eq_none (by rw [List.length_append]; exact hMore),
        List.getElem?_eq_none (Nat.le_of_lt hMore)]

end Rhiza.Library
