import Rhiza.Sql.PagePatch

/-! # What a state identity binds

The root of a state is a hash over the page size, the page count and the tree of
the pages. If no two of the byte strings that are hashed for two databases have
the same hash, then databases with the same root are the same.
-/

namespace Rhiza.Sql

open Rhiza.Core Rhiza.Library

section Hashing

variable [Sha256]

inductive HashedFor (pageSize : Nat) (pages : List Bytes) : Bytes → Prop
  | leaf (i : Nat) (hi : i < pages.length) :
    HashedFor pageSize pages [leafDomain, toBeBytes 4 (i + 1), pages.getD i []].flatten
  | internal (h i : Nat) (hh : h < treeHeight pages.length) (hi : i * 2 ^ (h + 1) < pages.length) :
    HashedFor pageSize pages
      [internalDomain, toBeBytes 4 (h + 1),
        (Merkle.node hashInternal hashEmpty (leafOf pages) pages.length h (i * 2 ^ (h + 1))).bytes,
        (Merkle.node hashInternal hashEmpty (leafOf pages) pages.length h
          (i * 2 ^ (h + 1) + 2 ^ h)).bytes].flatten
  | root :
    HashedFor pageSize pages
      [stateDomain, toBeBytes 4 pageSize, toBeBytes 4 pages.length,
        (Merkle.node hashInternal hashEmpty (leafOf pages) pages.length
          (treeHeight pages.length) 0).bytes].flatten

omit [Sha256] in
theorem toBeBytes_inj {width n m : Nat} (hn : n < 256 ^ width) (hm : m < 256 ^ width)
    (h : toBeBytes width n = toBeBytes width m) : n = m := by
  rw [← fromBeBytes_toBeBytes width n hn, h, fromBeBytes_toBeBytes width m hm]

theorem digest_parts {pageSize pageSize' : Nat} {pages pages' parts parts' : List Bytes}
    (hDigest : ∀ a b, HashedFor pageSize pages a → HashedFor pageSize' pages' b →
      Sha256.finalize a = Sha256.finalize b → a = b)
    (h : HashedFor pageSize pages parts.flatten) (h' : HashedFor pageSize' pages' parts'.flatten)
    (hLengths : parts.map List.length = parts'.map List.length)
    (hEq : LogHash.digest parts = LogHash.digest parts') : parts = parts' :=
  List.eq_iff_flatten_eq.mpr ⟨hDigest _ _ h h' hEq, hLengths⟩

theorem PageStateCache.Holds.leaf_length {cache : PageStateCache} {pages : List Bytes} {i : Nat}
    (h : cache.Holds pages) (hi : i < pages.length) : (pages.getD i []).length = cache.pageSize := by
  rw [List.getD_eq_getElem?_getD, List.getElem?_eq_getElem hi, Option.getD_some]
  exact h.sizes _ (List.getElem_mem hi)

/-- Databases with the same state root are the same, page size and pages. -/
theorem stateRoot_binds {pageSize pageSize' : Nat} {pages pages' : List Bytes}
    {cache cache' : PageStateCache} {state state' : StateIdentity}
    (hCache : PageStateCache.fromPages pageSize pages = .ok cache)
    (hCache' : PageStateCache.fromPages pageSize' pages' = .ok cache')
    (hState : cache.identity = .ok state) (hState' : cache'.identity = .ok state')
    (hDigest : ∀ a b, HashedFor pageSize pages a → HashedFor pageSize' pages' b →
      Sha256.finalize a = Sha256.finalize b → a = b)
    (hRoot : state.stateRoot = state'.stateRoot) :
    pageSize = pageSize' ∧ pages.length = pages'.length ∧ pages = pages' := by
  obtain ⟨rfl, hHolds⟩ := PageStateCache.holds_of_fromPages hCache
  obtain ⟨rfl, hHolds'⟩ := PageStateCache.holds_of_fromPages hCache'
  rw [hHolds.identity_eq, hHolds.count] at hState
  rw [hHolds'.identity_eq, hHolds'.count] at hState'
  cases hState
  cases hState'
  have hFew : pages.length < 256 ^ 4 := by
    have hBound := hHolds.bound
    rw [hHolds.count, u32Max] at hBound
    omega
  have hFew' : pages'.length < 256 ^ 4 := by
    have hBound := hHolds'.bound
    rw [hHolds'.count, u32Max] at hBound
    omega
  have hSmall : cache.pageSize < 256 ^ 4 := Nat.lt_of_le_of_lt hHolds.isPageSize.2.1 (by decide)
  have hSmall' : cache'.pageSize < 256 ^ 4 := Nat.lt_of_le_of_lt hHolds'.isPageSize.2.1 (by decide)
  -- the root of the state gives the page size, the page count and the root of the tree
  have hParts := digest_parts hDigest .root .root (by
    simp only [List.map_cons, List.map_nil, toBeBytes_length, LogHash.size]) hRoot
  simp only [List.cons.injEq, and_true, true_and] at hParts
  obtain ⟨hSize, hCount, hTree⟩ := hParts
  have hPageSize := toBeBytes_inj hSmall hSmall' hSize
  have hPageCount := toBeBytes_inj hFew hFew' hCount
  refine ⟨hPageSize, hPageCount, ?_⟩
  rw [← hPageCount] at hTree
  have hJoin : ∀ k < treeHeight pages.length, ∀ j, j * 2 ^ (k + 1) < pages.length →
      Merkle.node hashInternal hashEmpty (leafOf pages) pages.length (k + 1) (j * 2 ^ (k + 1)) =
        Merkle.node hashInternal hashEmpty (leafOf pages') pages.length (k + 1) (j * 2 ^ (k + 1)) →
      Merkle.node hashInternal hashEmpty (leafOf pages) pages.length k (j * 2 ^ (k + 1)) =
          Merkle.node hashInternal hashEmpty (leafOf pages') pages.length k (j * 2 ^ (k + 1)) ∧
        Merkle.node hashInternal hashEmpty (leafOf pages) pages.length k (j * 2 ^ (k + 1) + 2 ^ k) =
          Merkle.node hashInternal hashEmpty (leafOf pages') pages.length k
            (j * 2 ^ (k + 1) + 2 ^ k) := by
    intro k hk j hj hEq
    have hHere : HashedFor cache.pageSize pages _ := .internal k j hk hj
    have hThere : HashedFor cache'.pageSize pages' _ :=
      .internal k j (hPageCount ▸ hk) (hPageCount ▸ hj)
    rw [← hPageCount] at hThere
    have hChildren := digest_parts hDigest hHere hThere (by
      simp only [List.map_cons, List.map_nil, toBeBytes_length, LogHash.size]) hEq
    simp only [List.cons.injEq, and_true, true_and] at hChildren
    exact ⟨LogHash.bytes_injective hChildren.1, LogHash.bytes_injective hChildren.2⟩
  have hLeaves : ∀ i < pages.length, leafOf pages i = leafOf pages' i := fun i hi =>
    Merkle.leaf_eq_of_node_eq (Nat.dvd_zero _) hJoin (LogHash.bytes_injective hTree) (Nat.zero_le i)
      (by have := le_two_pow_treeHeight pages.length; omega) hi
  refine List.ext_getElem hPageCount fun i hi hi' => ?_
  have hPage := digest_parts hDigest (.leaf i hi) (.leaf i hi') (by
    simp only [List.map_cons, List.map_nil, toBeBytes_length, hHolds.leaf_length hi,
      hHolds'.leaf_length hi', hPageSize]) (hLeaves i hi)
  simp only [List.cons.injEq, and_true, true_and] at hPage
  rwa [List.getD_eq_getElem?_getD, List.getD_eq_getElem?_getD, List.getElem?_eq_getElem hi,
    List.getElem?_eq_getElem hi'] at hPage

end Hashing

namespace Sample

attribute [local instance] Sha256.rolling

def twoPages : List Bytes := [List.replicate 512 1, List.replicate 512 2]

def hashedStrings : List Bytes :=
  [[leafDomain, toBeBytes 4 1, List.replicate 512 1].flatten,
    [leafDomain, toBeBytes 4 2, List.replicate 512 2].flatten,
    [internalDomain, toBeBytes 4 1, (leafOf twoPages 0).bytes, (leafOf twoPages 1).bytes].flatten,
    [stateDomain, toBeBytes 4 512, toBeBytes 4 2,
      (hashInternal 1 (leafOf twoPages 0) (leafOf twoPages 1)).bytes].flatten]

theorem mem_hashedStrings {string : Bytes} (h : HashedFor 512 twoPages string) :
    string ∈ hashedStrings := by
  have hHeight : treeHeight twoPages.length = 1 := by decide
  cases h with
  | leaf i hi =>
    have hTwo : i = 0 ∨ i = 1 := by
      have : twoPages.length = 2 := rfl
      omega
    rcases hTwo with rfl | rfl
    · exact List.mem_cons_self
    · exact List.mem_cons_of_mem _ List.mem_cons_self
  | internal h i hh hi =>
    obtain rfl : h = 0 := by omega
    obtain rfl : i = 0 := by
      have : twoPages.length = 2 := rfl
      omega
    exact List.mem_cons_of_mem _ (List.mem_cons_of_mem _ List.mem_cons_self)
  | root =>
    rw [hHeight]
    exact List.mem_cons_of_mem _ (List.mem_cons_of_mem _ (List.mem_cons_of_mem _ List.mem_cons_self))

theorem twoPages_bound :
    ∃ cache state, PageStateCache.fromPages 512 twoPages = .ok cache ∧ cache.identity = .ok state ∧
      (512 = 512 ∧ twoPages.length = twoPages.length ∧ twoPages = twoPages) := by
  have hApart : ∀ a ∈ hashedStrings, ∀ b ∈ hashedStrings,
      Sha256.finalize a = Sha256.finalize b → a = b := by decide +kernel
  obtain ⟨cache, hCache⟩ := PageStateCache.fromPages_ok (by decide : IsPageSize 512)
    (by decide +kernel : ∀ page ∈ twoPages, page.length = 512) (by decide) (by decide)
  have hState := (PageStateCache.holds_of_fromPages hCache).2.identity_eq
  exact ⟨cache, _, hCache, hState, stateRoot_binds hCache hCache hState hState
    (fun a b ha hb => hApart a (mem_hashedStrings ha) b (mem_hashedStrings hb)) rfl⟩

end Sample

end Rhiza.Sql
