import Mathlib.Data.Finset.Card
import Mathlib.Data.List.Dedup

/-! # Majorities of a fixed list of voters

A majority is a duplicate-free choice of more than half of the voters. The only
fact a quorum protocol needs of it is that two of them share a voter.
-/

namespace Rhiza.Library

universe u

variable {α : Type u}

structure Majority (voters chosen : List α) : Prop where
  nodup : chosen.Nodup
  subset : ∀ k ∈ chosen, k ∈ voters
  large : voters.length < 2 * chosen.length

theorem Majority.intersect {voters left right : List α} (hLeft : Majority voters left)
    (hRight : Majority voters right) : ∃ k, k ∈ left ∧ k ∈ right := by
  classical
  by_contra hNone
  push Not at hNone
  have hDisjoint : Disjoint left.toFinset right.toFinset := by
    rw [Finset.disjoint_left]
    intro k hk
    simpa using hNone k (by simpa using hk)
  have hSubset : left.toFinset ∪ right.toFinset ⊆ voters.toFinset := by
    intro k hk
    rcases Finset.mem_union.mp hk with h | h
    · exact List.mem_toFinset.mpr (hLeft.subset k (List.mem_toFinset.mp h))
    · exact List.mem_toFinset.mpr (hRight.subset k (List.mem_toFinset.mp h))
  have hCard := Finset.card_le_card hSubset
  rw [Finset.card_union_of_disjoint hDisjoint, List.toFinset_card_of_nodup hLeft.nodup,
    List.toFinset_card_of_nodup hRight.nodup] at hCard
  have hVoters := voters.toFinset_card_le
  have hL := hLeft.large
  have hR := hRight.large
  omega

theorem Majority.nonempty {voters chosen : List α} (h : Majority voters chosen) : chosen ≠ [] := by
  rintro rfl
  have := h.large
  simp at this

end Rhiza.Library
