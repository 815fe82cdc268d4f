import Mathlib.Data.List.Basic

/-! # Reading from the front of a list

A reader returns what it read and the rest, or nothing when the input is too
short. Reading what was just written gives it back and leaves the rest alone.
-/

namespace Rhiza.Library

universe u v

variable {α : Type u} {β : Type v}

def takeExactly (n : Nat) (input : List α) : Option (List α × List α) :=
  if n ≤ input.length then some (input.take n, input.drop n) else none

@[simp] theorem takeExactly_append {n : Nat} {front rest : List α} (h : front.length = n) :
    takeExactly n (front ++ rest) = some (front, rest) := by
  unfold takeExactly
  rw [if_pos (by rw [List.length_append]; omega), List.take_left' h, List.drop_left' h]

theorem takeExactly_eq_some {n : Nat} {input front rest : List α}
    (h : takeExactly n input = some (front, rest)) : input = front ++ rest ∧ front.length = n := by
  unfold takeExactly at h
  split at h
  · rename_i hLength
    cases h
    exact ⟨(List.take_append_drop n input).symm, by rw [List.length_take]; omega⟩
  · cases h

/-- `takeExactly` with the error of the caller. -/
def takeOr {ε : Type v} (error : ε) (n : Nat) (input : List α) : Except ε (List α × List α) :=
  (takeExactly n input).elim (.error error) .ok

theorem takeOr_append {ε : Type v} (error : ε) {n : Nat} {front : List α} (rest : List α)
    (h : front.length = n) : takeOr error n (front ++ rest) = .ok (front, rest) := by
  rw [takeOr, takeExactly_append h]
  rfl

theorem takeOr_eq_ok {ε : Type v} {error : ε} {n : Nat} {input front rest : List α}
    (h : takeOr error n input = .ok (front, rest)) : input = front ++ rest ∧ front.length = n := by
  unfold takeOr at h
  cases hTaken : takeExactly n input with
  | none => rw [hTaken] at h; cases h
  | some taken =>
    rw [hTaken] at h
    exact takeExactly_eq_some (hTaken.trans (congrArg some (Except.ok.inj h)))

/-- Read `count` items one after the other. -/
def readMany (read : List α → Option (β × List α)) : Nat → List α → Option (List β × List α)
  | 0, input => some ([], input)
  | count + 1, input => do
    let (item, rest) ← read input
    let (items, rest) ← readMany read count rest
    pure (item :: items, rest)

theorem readMany_flatMap {read : List α → Option (β × List α)} {write : β → List α}
    {items : List β} (h : ∀ item ∈ items, ∀ rest, read (write item ++ rest) = some (item, rest))
    (rest : List α) : readMany read items.length (items.flatMap write ++ rest) = some (items, rest) := by
  induction items with
  | nil => rfl
  | cons item items ih =>
    rw [List.flatMap_cons, List.append_assoc, List.length_cons, readMany,
      h item List.mem_cons_self]
    simp only [Option.bind_eq_bind, Option.bind_some]
    rw [ih fun item hItem => h item (List.mem_cons_of_mem _ hItem)]
    rfl

/-- The `width` items from `offset` on. -/
def window (input : List α) (offset width : Nat) : List α := (input.drop offset).take width

theorem window_length {input : List α} {offset width : Nat} (h : offset + width ≤ input.length) :
    (window input offset width).length = width := by
  rw [window, List.length_take, List.length_drop]
  omega

theorem window_skip {front rest : List α} {offset : Nat} (width : Nat) (h : front.length ≤ offset) :
    window (front ++ rest) offset width = window rest (offset - front.length) width := by
  rw [window, List.drop_append, List.drop_eq_nil_of_le h, List.nil_append, window]

theorem window_front {front : List α} (rest : List α) {width : Nat} (h : front.length = width) :
    window (front ++ rest) 0 width = front := by
  rw [window, List.drop_zero, List.take_left' h]

theorem getD_of_window {input : List α} {offset : Nat} {a : α} (default : α)
    (h : window input offset 1 = [a]) : input.getD offset default = a := by
  have hHead : (window input offset 1)[0]? = some a := by rw [h]; rfl
  rw [window, List.getElem?_take_of_lt Nat.one_pos, List.getElem?_drop, Nat.add_zero] at hHead
  rw [List.getD_eq_getElem?_getD, hHead, Option.getD_some]

theorem window_take {input : List α} {offset width cut : Nat} (h : offset + width ≤ cut) :
    window (input.take cut) offset width = window input offset width := by
  rw [window, List.drop_take, List.take_take, Nat.min_eq_left (by omega), window]

def StandsAt (input : List α) (offset : Nat) (part : List α) : Prop :=
  window input offset part.length = part

theorem standsAt_iff {input : List α} {offset : Nat} {part : List α} :
    StandsAt input offset part ↔ part <+: input.drop offset := by
  rw [StandsAt, window]
  exact ⟨fun h => h ▸ List.take_prefix _ _, fun h => (List.prefix_iff_eq_take.mp h).symm⟩

theorem standsAt_append {input : List α} {offset : Nat} {a b : List α} :
    StandsAt input offset (a ++ b) ↔
      StandsAt input offset a ∧ StandsAt input (offset + a.length) b := by
  simp only [standsAt_iff]
  constructor
  · rintro ⟨rest, hRest⟩
    refine ⟨⟨b ++ rest, by rw [← hRest, List.append_assoc]⟩, rest, ?_⟩
    rw [← List.drop_drop, ← hRest, List.append_assoc, List.drop_left]
  · rintro ⟨⟨rest, hRest⟩, ⟨rest', hRest'⟩⟩
    refine ⟨rest', ?_⟩
    rw [← List.drop_drop, ← hRest, List.drop_left] at hRest'
    rw [List.append_assoc, hRest', hRest]

theorem standsAt_front (part rest : List α) : StandsAt (part ++ rest) 0 part :=
  window_front rest rfl

theorem StandsAt.fits {input : List α} {offset : Nat} {part : List α}
    (h : StandsAt input offset part) (hPart : 0 < part.length) :
    offset + part.length ≤ input.length := by
  have hLength := (standsAt_iff.mp h).length_le
  rw [List.length_drop] at hLength
  omega

end Rhiza.Library
