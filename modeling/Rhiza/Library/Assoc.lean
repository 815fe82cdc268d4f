import Mathlib.Data.List.Basic
import Mathlib.Order.Lattice

/-! # Finite maps as lists of entries

A map that is walked entry by entry, in the order of its list. `insert` replaces
an entry in its place and adds a new one in the order of the keys; `insertNew`
keeps an entry that is already there. Entries can lie over a second map, which
they hide.
-/

namespace Rhiza.Library

universe u v

variable {α : Type u} {β : Type v} [DecidableEq α]

namespace Assoc

def get : List (α × β) → α → Option β
  | [], _ => none
  | (k, v) :: rest, key => if key = k then some v else get rest key

def insert [LT α] [DecidableLT α] (key : α) (value : β) : List (α × β) → List (α × β)
  | [] => [(key, value)]
  | (k, v) :: rest =>
    if key = k then (key, value) :: rest
    else if key < k then (key, value) :: (k, v) :: rest
    else (k, v) :: insert key value rest

def erase (key : α) (entries : List (α × β)) : List (α × β) := entries.filter fun entry => entry.1 ≠ key

/-- `entry(key).or_insert(value)`. -/
def insertNew (key : α) (value : β) (entries : List (α × β)) : List (α × β) :=
  if (get entries key).isSome then entries else entries ++ [(key, value)]

theorem get_insert [LT α] [DecidableLT α] (key key' : α) (value : β) (entries : List (α × β)) :
    get (insert key value entries) key' = if key' = key then some value else get entries key' := by
  induction entries with
  | nil => rfl
  | cons entry rest ih =>
    obtain ⟨k, v⟩ := entry
    by_cases hk : key = k
    · subst hk
      simp only [insert, if_true, get]
      split <;> rfl
    · rw [insert, if_neg hk]
      split
      · rfl
      rw [get, get, ih]
      by_cases hk' : key' = k
      · have hNe : key' ≠ key := fun h => hk (h.symm.trans hk')
        rw [if_pos hk', if_pos hk', if_neg hNe]
      · rw [if_neg hk', if_neg hk']

theorem get_erase (key key' : α) (entries : List (α × β)) :
    get (erase key entries) key' = if key' = key then none else get entries key' := by
  induction entries with
  | nil => simp [erase, get]
  | cons entry rest ih =>
    obtain ⟨k, v⟩ := entry
    unfold erase at ih ⊢
    by_cases hk : k = key
    · subst hk
      rw [List.filter_cons_of_neg (by simp), ih, get]
      by_cases hk' : key' = k
      · rw [if_pos hk', if_pos hk']
      · rw [if_neg hk', if_neg hk', if_neg hk']
    · rw [List.filter_cons_of_pos (by simp [hk]), get, get, ih]
      by_cases hk' : key' = k
      · subst hk'
        rw [if_pos rfl, if_neg hk, if_pos rfl]
      · rw [if_neg hk', if_neg hk']

theorem get_append (left right : List (α × β)) (key : α) :
    get (left ++ right) key = (get left key).or (get right key) := by
  induction left with
  | nil => rfl
  | cons entry rest ih =>
    obtain ⟨k, v⟩ := entry
    rw [List.cons_append, get, get, ih]
    split <;> rfl

theorem get_insertNew (key key' : α) (value : β) (entries : List (α × β)) :
    get (insertNew key value entries) key' =
      (get entries key').or (if key' = key then some value else none) := by
  unfold insertNew
  split
  · rename_i hSome
    by_cases hKey : key' = key
    · subst hKey
      obtain ⟨old, hOld⟩ := Option.isSome_iff_exists.mp hSome
      simp [hOld]
    · simp [hKey]
  · rw [get_append]
    rfl

theorem mem_of_get {entries : List (α × β)} {key : α} {value : β} (h : get entries key = some value) :
    (key, value) ∈ entries := by
  induction entries with
  | nil => cases h
  | cons entry rest ih =>
    obtain ⟨k, v⟩ := entry
    rw [get] at h
    split at h
    · rename_i hKey
      obtain rfl := Option.some.inj h
      rw [hKey]
      exact List.mem_cons_self
    · exact List.mem_cons_of_mem _ (ih h)

theorem get_eq_none {entries : List (α × β)} {key : α} (h : ∀ entry ∈ entries, entry.1 ≠ key) :
    get entries key = none := by
  induction entries with
  | nil => rfl
  | cons entry rest ih =>
    obtain ⟨k, v⟩ := entry
    have hKey : key ≠ k := (h _ List.mem_cons_self).symm
    rw [get, if_neg hKey]
    exact ih fun entry hEntry => h entry (List.mem_cons_of_mem _ hEntry)

theorem isSome_of_mem {entries : List (α × β)} {entry : α × β} (h : entry ∈ entries) :
    (get entries entry.1).isSome := by
  induction entries with
  | nil => cases h
  | cons first rest ih =>
    obtain ⟨k, v⟩ := first
    rw [get]
    split
    · rfl
    · rename_i hKey
      rcases List.mem_cons.mp h with rfl | hRest
      · exact absurd rfl hKey
      · exact ih hRest

def Distinct (entries : List (α × β)) : Prop := entries.Pairwise fun a b => a.1 ≠ b.1

def Sorted [LT α] (entries : List (α × β)) : Prop := entries.Pairwise fun a b => a.1 < b.1

theorem mem_of_mem_insert [LT α] [DecidableLT α] {key : α} {value : β} {entries : List (α × β)}
    {entry : α × β} (h : entry ∈ insert key value entries) :
    entry = (key, value) ∨ entry ∈ entries := by
  induction entries with
  | nil => exact .inl (List.mem_singleton.mp h)
  | cons first rest ih =>
    obtain ⟨k, v⟩ := first
    rw [insert] at h
    split at h
    · rcases List.mem_cons.mp h with rfl | hRest
      · exact .inl rfl
      · exact .inr (List.mem_cons_of_mem _ hRest)
    · split at h
      · exact (List.mem_cons.mp h).imp id id
      · rcases List.mem_cons.mp h with rfl | hRest
        · exact .inr List.mem_cons_self
        · exact (ih hRest).imp id (List.mem_cons_of_mem _)

theorem length_insert_le [LT α] [DecidableLT α] (key : α) (value : β) (entries : List (α × β)) :
    (insert key value entries).length ≤ entries.length + 1 := by
  induction entries with
  | nil => exact Nat.le_refl _
  | cons first rest ih =>
    obtain ⟨k, v⟩ := first
    rw [insert]
    split
    · simp
    · split
      · simp
      · simpa using ih

theorem sorted_insert [LT α] [DecidableLT α] (hTrans : ∀ {a b c : α}, a < b → b < c → a < c)
    (hTotal : ∀ {a b : α}, a ≠ b → ¬ a < b → b < a) {entries : List (α × β)} (h : Sorted entries)
    (key : α) (value : β) : Sorted (insert key value entries) := by
  induction entries with
  | nil => exact List.pairwise_singleton _ _
  | cons first rest ih =>
    obtain ⟨k, v⟩ := first
    obtain ⟨hFirst, hRest⟩ := List.pairwise_cons.mp h
    rw [Assoc.insert]
    split
    · rename_i hKey
      subst hKey
      exact List.pairwise_cons.mpr ⟨hFirst, hRest⟩
    · rename_i hKey
      split
      · rename_i hLess
        refine List.pairwise_cons.mpr ⟨?_, h⟩
        intro entry hEntry
        rcases List.mem_cons.mp hEntry with rfl | hEntry
        · exact hLess
        · exact hTrans hLess (hFirst entry hEntry)
      · rename_i hLess
        refine List.pairwise_cons.mpr ⟨?_, ih hRest⟩
        intro entry hEntry
        rcases mem_of_mem_insert hEntry with rfl | hEntry
        · exact hTotal hKey hLess
        · exact hFirst entry hEntry

theorem Sorted.insert {γ : Type u} [LinearOrder γ] {entries : List (γ × β)} (h : Sorted entries)
    (key : γ) (value : β) : Sorted (insert key value entries) :=
  sorted_insert lt_trans (fun hKey hLess => lt_of_le_of_ne (not_lt.mp hLess) (Ne.symm hKey)) h key value

theorem Sorted.distinct {γ : Type u} [LinearOrder γ] {entries : List (γ × β)} (h : Sorted entries) :
    Distinct entries :=
  h.imp fun hLess => hLess.ne

theorem Distinct.insertNew {entries : List (α × β)} (h : Distinct entries) (key : α) (value : β) :
    Distinct (insertNew key value entries) := by
  unfold Assoc.insertNew
  split
  · exact h
  · rename_i hAbsent
    refine List.pairwise_append.mpr ⟨h, List.pairwise_singleton _ _, ?_⟩
    rintro entry hEntry _ hLast hKey
    obtain rfl := List.mem_singleton.mp hLast
    have hHere : (get entries key).isSome := (show entry.1 = key from hKey) ▸ isSome_of_mem hEntry
    exact hAbsent hHere

/-- The entries, and behind them a second map. -/
def layered (entries : List (α × β)) (files : α → Option β) (key : α) : Option β :=
  (get entries key).or (files key)

theorem layered_insert [LT α] [DecidableLT α] (key : α) (value : β) (entries : List (α × β))
    (files : α → Option β) :
    layered (insert key value entries) files = Function.update (layered entries files) key (some value) := by
  funext key'
  rw [layered, get_insert, Function.update_apply]
  split <;> rfl

theorem layered_insertNew (key : α) (value : β) (entries : List (α × β)) (files : α → Option β) :
    layered (insertNew key value entries) files =
      if (get entries key).isSome then layered entries files
      else Function.update (layered entries files) key (some value) := by
  funext key'
  rw [layered, get_insertNew]
  by_cases hKey : key' = key
  · subst hKey
    cases hGet : get entries key' <;> simp [layered, hGet]
  · rw [if_neg hKey, Option.or_none]
    split
    · rfl
    · rw [Function.update_of_ne hKey]
      rfl

theorem layered_update {entries : List (α × β)} {key : α} {old value : β}
    (h : get entries key = some old) (files : α → Option β) : layered entries (Function.update files key (some value)) = layered entries files := by
  funext key'
  by_cases hKey : key' = key
  · subst hKey
    rw [layered, layered, h]
    rfl
  · rw [layered, layered, Function.update_of_ne hKey]

theorem layered_update_of_none {entries : List (α × β)} {key : α} (h : get entries key = none)
    (value : β) (files : α → Option β) : layered entries (Function.update files key (some value)) =
      Function.update (layered entries files) key (some value) := by
  funext key'
  by_cases hKey : key' = key
  · subst hKey
    rw [layered, h, Function.update_self, Function.update_self]
    rfl
  · rw [layered, Function.update_of_ne hKey, Function.update_of_ne hKey, layered]

theorem layered_update_cons {key : α} {value : β} {rest : List (α × β)}
    (h : Distinct ((key, value) :: rest)) (files : α → Option β) :
    layered rest (Function.update files key (some value)) = layered ((key, value) :: rest) files := by
  funext key'
  by_cases hKey : key' = key
  · subst hKey
    have hNone : get rest key' = none :=
      get_eq_none fun entry hEntry => ((List.pairwise_cons.mp h).1 entry hEntry).symm
    rw [layered, layered, hNone, get, if_pos rfl, Function.update_self]
    rfl
  · rw [layered, layered, get, if_neg hKey, Function.update_of_ne hKey]

theorem get_of_mem {entries : List (α × β)} (h : Distinct entries) {entry : α × β}
    (hEntry : entry ∈ entries) : get entries entry.1 = some entry.2 := by
  induction entries with
  | nil => cases hEntry
  | cons first rest ih =>
    obtain ⟨k, v⟩ := first
    obtain ⟨hFirst, hRest⟩ := List.pairwise_cons.mp h
    rcases List.mem_cons.mp hEntry with rfl | hEntry
    · exact if_pos rfl
    · rw [get, if_neg (hFirst entry hEntry).symm]
      exact ih hRest hEntry

theorem find?_key {ρ : Type v} {key : ρ → α} {rows : List ρ} {row : ρ}
    (hDistinct : (rows.map key).Nodup) (hRow : row ∈ rows) :
    rows.find? (fun other => key other = key row) = some row := by
  induction rows with
  | nil => cases hRow
  | cons first rest ih =>
    obtain ⟨hFirst, hRest⟩ := List.nodup_cons.mp hDistinct
    rcases List.mem_cons.mp hRow with rfl | hLater
    · exact List.find?_cons_of_pos (decide_eq_true rfl)
    · have hOther : key first ≠ key row := fun hEq =>
        hFirst (List.mem_map.mpr ⟨row, hLater, hEq.symm⟩)
      rw [List.find?_cons_of_neg (by simpa using hOther)]
      exact ih hRest hLater

end Assoc

end Rhiza.Library
