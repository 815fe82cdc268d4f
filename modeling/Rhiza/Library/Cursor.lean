import Rhiza.Library.Assoc

/-! # Reading a sorted map page by page

A page holds the first rows behind a cursor, and where rows are left over it names
its last key, which is the cursor of the next page.
-/

namespace Rhiza.Library

universe u v w

variable {κ : Type u} {β : Type v} {ε : Type w}

structure Page (κ : Type u) (β : Type v) where
  rows : List (κ × β)
  next : Option κ
  deriving DecidableEq

/-- The pages that are read when every cursor is followed until there is none. -/
inductive Follows (scan : Option κ → Except ε (Page κ β)) : Option κ → List (Page κ β) → Prop
  | last {cursor : Option κ} {page : Page κ β} (hPage : scan cursor = .ok page)
      (hEnd : page.next = none) : Follows scan cursor [page]
  | more {cursor : Option κ} {page : Page κ β} {next : κ} {pages : List (Page κ β)}
      (hPage : scan cursor = .ok page) (hNext : page.next = some next)
      (hRest : Follows scan (some next) pages) : Follows scan cursor (page :: pages)

variable {scan : Option κ → Except ε (Page κ β)} {cursor : Option κ} {rows : List (κ × β)}

section After

variable [LT κ] [DecidableLT κ]

/-- The rows behind a cursor. -/
def after (cursor : Option κ) (rows : List (κ × β)) : List (κ × β) :=
  rows.filter fun row => cursor.all (· < row.1)

@[simp] theorem after_none (rows : List (κ × β)) : after none rows = rows :=
  List.filter_eq_self.mpr fun _ _ => rfl

theorem after_split {front back : List (κ × β)} {row : κ × β}
    (hIrrefl : ∀ key : κ, ¬ key < key) (hAsymm : ∀ {a b : κ}, a < b → ¬ b < a)
    (h : Assoc.Sorted (front ++ row :: back)) : after (some row.1) (front ++ row :: back) = back := by
  obtain ⟨-, hBack, hFront⟩ := List.pairwise_append.mp h
  have hNoFront : front.filter (fun other => (some row.1).all (· < other.1)) = [] := by
    refine List.filter_eq_nil_iff.mpr fun other hOther hLess => ?_
    exact hAsymm (hFront other hOther row List.mem_cons_self) (of_decide_eq_true hLess)
  have hNotRow : ¬ (some row.1).all (· < row.1) = true := fun hLess =>
    hIrrefl row.1 (of_decide_eq_true hLess)
  have hAllBack : back.filter (fun other => (some row.1).all (· < other.1)) = back :=
    List.filter_eq_self.mpr fun other hOther =>
      decide_eq_true ((List.pairwise_cons.mp hBack).1 other hOther)
  rw [after, List.filter_append, hNoFront, List.filter_cons, if_neg hNotRow, hAllBack, List.nil_append]

structure Fills (scan : Option κ → Except ε (Page κ β)) (rows : List (κ × β))
    (Good : List (κ × β) → Prop) : Prop where
  page : ∀ cursor : Option κ, (∀ key ∈ cursor, ∃ value, (key, value) ∈ rows) →
    ∃ taken rest, after cursor rows = taken ++ rest ∧
      scan cursor = .ok ⟨taken, if rest = [] then none else taken.getLast?.map (·.1)⟩ ∧
      (rest ≠ [] → taken ≠ []) ∧ Good taken

theorem Fills.follows {Good : List (κ × β) → Prop} (hIrrefl : ∀ key : κ, ¬ key < key)
    (hAsymm : ∀ {a b : κ}, a < b → ¬ b < a) (hSorted : Assoc.Sorted rows)
    (h : Fills scan rows Good) : ∃ pages, Follows scan none pages ∧
      pages.flatMap (·.rows) = rows ∧ ∀ page ∈ pages, Good page.rows := by
  have hFrom : ∀ (count : Nat) (front back : List (κ × β)) (cursor : Option κ), back.length ≤ count →
      rows = front ++ back → after cursor rows = back →
      (∀ key ∈ cursor, ∃ value, (key, value) ∈ rows) →
      ∃ pages, Follows scan cursor pages ∧ pages.flatMap (·.rows) = back ∧
        ∀ page ∈ pages, Good page.rows := by
    intro count
    induction count with
    | zero =>
      intro front back cursor hCount hRows hAfter hCursor
      obtain ⟨taken, rest, hSplit, hPage, -, hGood⟩ := h.page cursor hCursor
      obtain rfl : back = [] := List.length_eq_zero_iff.mp (Nat.le_zero.mp hCount)
      rw [hAfter] at hSplit
      obtain ⟨rfl, rfl⟩ := List.append_eq_nil_iff.mp hSplit.symm
      exact ⟨[_], .last hPage rfl, rfl, List.forall_mem_singleton.mpr hGood⟩
    | succ count ih =>
      intro front back cursor hCount hRows hAfter hCursor
      obtain ⟨taken, rest, hSplit, hPage, hProgress, hGood⟩ := h.page cursor hCursor
      rw [hAfter] at hSplit
      by_cases hRest : rest = []
      · rw [if_pos hRest] at hPage
        refine ⟨[_], .last hPage rfl, ?_, List.forall_mem_singleton.mpr hGood⟩
        rw [hSplit, hRest, List.append_nil, List.flatMap_singleton]
      · rw [if_neg hRest] at hPage
        obtain ⟨init, row, hTaken⟩ := List.eq_nil_or_concat taken |>.resolve_left (hProgress hRest)
        have hWhole : rows = (front ++ init) ++ row :: rest := by
          rw [hRows, hSplit, hTaken, List.concat_eq_append, List.append_assoc, List.append_assoc,
            List.singleton_append]
        have hLast : taken.getLast?.map (·.1) = some row.1 := by
          rw [hTaken, List.concat_eq_append, List.getLast?_concat]
          rfl
        have hShorter : rest.length ≤ count := by
          have hLength := congrArg List.length hSplit
          rw [hTaken, List.concat_eq_append, List.length_append, List.length_append] at hLength
          have hOne : [row].length = 1 := rfl
          omega
        have hNextAfter : after (some row.1) rows = rest := by
          rw [hWhole] at hSorted ⊢
          exact after_split hIrrefl hAsymm hSorted
        have hNextCursor : ∀ key ∈ some row.1, ∃ value, (key, value) ∈ rows := by
          rintro key ⟨⟩
          refine ⟨row.2, ?_⟩
          rw [hWhole]
          exact List.mem_append_right _ List.mem_cons_self
        have hNextRows : rows = (front ++ init ++ [row]) ++ rest := by
          rw [hWhole, List.append_assoc _ [row], List.singleton_append]
        obtain ⟨pages, hFollows, hFlat, hPages⟩ :=
          ih _ rest (some row.1) hShorter hNextRows hNextAfter hNextCursor
        refine ⟨_ :: pages, .more hPage hLast hFollows, ?_, List.forall_mem_cons.mpr ⟨hGood, hPages⟩⟩
        rw [List.flatMap_cons, hFlat, hSplit]
  exact hFrom rows.length [] rows none (Nat.le_refl _) rfl (after_none rows) nofun

end After

end Rhiza.Library
