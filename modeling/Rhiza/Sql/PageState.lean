import Mathlib.Data.List.TakeWhile
import Rhiza.Core.Hash
import Rhiza.Library.Fallible
import Rhiza.Library.Merkle
import Rhiza.Library.Paged

/-! # Page-state identities of `rhiza-sql`

The identity of a closed database is a hash tree over its pages. The cache holds
every level of the tree. `overlay` computes the identity of a changed database
from the cache and the changed pages alone; it is the identity that rebuilding
the whole cache would give.
-/

namespace Rhiza.Sql

open Rhiza.Core Rhiza.Library

/-- The errors of `rhiza-sql` that the modelled functions return. `panicked` is an
index out of bounds, which the source does not return but stops at. -/
inductive Error
  | io (message : String)
  | sqlite (message : String)
  | resourceExhausted (message : String)
  | invalidCommand (message : String)
  | invalidEntry (message : String)
  | identityMismatch (field : String)
  | requestConflict (requestId : String) (originalIndex : Nat) (originalHash : LogHash)
  | panicked
  deriving DecidableEq

def u32Max : Nat := 2 ^ 32 - 1

/-- `u32::try_from(n).map_err(|_| Error::ResourceExhausted(message))`. -/
def u32TryFrom (message : String) (n : Nat) : Except Error Nat :=
  if n ≤ u32Max then .ok n else .error (.resourceExhausted message)

theorem u32TryFrom_eq_ok {message : String} {n m : Nat} (h : u32TryFrom message n = .ok m) :
    m = n ∧ n ≤ u32Max := by
  unfold u32TryFrom at h
  split at h
  · cases h
    exact ⟨rfl, ‹_›⟩
  · cases h

def require (condition : Prop) [Decidable condition] (error : Error) : Except Error Unit :=
  if condition then .ok () else .error error

@[simp] theorem require_eq_ok {condition : Prop} [Decidable condition] {error : Error} {u : Unit} :
    require condition error = .ok u ↔ condition := by
  unfold require
  split <;> simp [*]

def minSqlitePageSize : Nat := 512
def maxSqlitePageSize : Nat := 65536

/-- A page size that `is_power_of_two` and lies in SQLite's range. -/
def IsPageSize (pageSize : Nat) : Prop :=
  minSqlitePageSize ≤ pageSize ∧ pageSize ≤ maxSqlitePageSize ∧ 2 ^ Nat.log2 pageSize = pageSize

instance (pageSize : Nat) : Decidable (IsPageSize pageSize) :=
  inferInstanceAs (Decidable (_ ∧ _ ∧ _))

theorem IsPageSize.pos {pageSize : Nat} (h : IsPageSize pageSize) : 0 < pageSize :=
  Nat.lt_of_lt_of_le (by decide) h.1

structure StateIdentity where
  pageSize : Nat
  pageCount : Nat
  stateRoot : LogHash
  deriving DecidableEq

structure QwalPage where
  pageNo : Nat
  afterImage : Bytes
  deriving DecidableEq

structure PageStateCache where
  pageSize : Nat
  pageCount : Nat
  levels : List (List LogHash)
  deriving DecidableEq

structure HashedPatch where
  pageIndex : Nat
  hash : LogHash
  deriving DecidableEq

def leafDomain : Bytes := utf8 "rhiza:qwal-v3:page-state:leaf" ++ [0]
def emptyDomain : Bytes := utf8 "rhiza:qwal-v3:page-state:empty" ++ [0]
def internalDomain : Bytes := utf8 "rhiza:qwal-v3:page-state:internal" ++ [0]
def stateDomain : Bytes := utf8 "rhiza:qwal-v3:page-state:root" ++ [0]

/-- `u32::BITS - (page_count - 1).leading_zeros()`. -/
def treeHeight (pageCount : Nat) : Nat :=
  if pageCount - 1 = 0 then 0 else Nat.log2 (pageCount - 1) + 1

theorem le_two_pow_treeHeight (pageCount : Nat) : pageCount ≤ 2 ^ treeHeight pageCount := by
  unfold treeHeight
  split
  · rw [Nat.pow_zero]
    omega
  · rename_i hMany
    have hBelow : pageCount - 1 < 2 ^ (Nat.log2 (pageCount - 1) + 1) := Nat.lt_log2_self
    omega

section Hashing

variable [Sha256]

def hashLeaf (pageNo : Nat) (page : Bytes) : LogHash :=
  LogHash.digest [leafDomain, toBeBytes 4 pageNo, page]

def hashInternal (height : Nat) (left right : LogHash) : LogHash :=
  LogHash.digest [internalDomain, toBeBytes 4 height, left.bytes, right.bytes]

def hashEmpty : LogHash := LogHash.digest [emptyDomain]

/-- The entry of `empty_subtrees` at `height`. -/
def emptySubtree (height : Nat) : LogHash := Merkle.emptyAt hashInternal hashEmpty height

def identity (pageSize pageCount : Nat) (treeRoot : LogHash) : StateIdentity where
  pageSize
  pageCount
  stateRoot := LogHash.digest
    [stateDomain, toBeBytes 4 pageSize, toBeBytes 4 pageCount, treeRoot.bytes]

/-- The loop over the pages in `from_pages`, after `count` of them. -/
def hashLeaves (pageSize : Nat) : Nat → List Bytes → Except Error (List LogHash)
  | _, [] => .ok []
  | count, page :: pages => do
    require (page.length = pageSize)
      (.invalidEntry "page image length does not match page size")
    let pageNo ← u32TryFrom "page count exceeds u32" (count + 1)
    let leaves ← hashLeaves pageSize (count + 1) pages
    pure (hashLeaf pageNo page :: leaves)

/-- The loop over the heights in `from_pages`: `row` and the levels above it. -/
def levelsAbove : Nat → Nat → List LogHash → List (List LogHash)
  | 0, _, row => [row]
  | more + 1, height, row =>
    row :: levelsAbove more (height + 1)
      (Merkle.parents (hashInternal (height + 1)) (emptySubtree height) row)

def PageStateCache.fromPages (pageSize : Nat) (pages : List Bytes) :
    Except Error PageStateCache := do
  require (IsPageSize pageSize)
    (.invalidEntry "page size must be a power of two from 512 through 65536")
  let leaves ← hashLeaves pageSize 0 pages
  let pageCount ← u32TryFrom "page count exceeds u32" leaves.length
  require (pageCount ≠ 0) (.invalidEntry "page count must be positive")
  pure { pageSize, pageCount, levels := levelsAbove (treeHeight pageCount) 0 leaves }

def PageStateCache.treeRoot (cache : PageStateCache) : Option LogHash := do
  let level ← cache.levels.getLast?
  level.head?

def PageStateCache.identity (cache : PageStateCache) : Except Error StateIdentity :=
  match cache.treeRoot with
  | none => .error .panicked
  | some root => .ok (Sql.identity cache.pageSize cache.pageCount root)

/-- The loop over the patches in `validate_and_hash`. -/
def PageStateCache.hashPatches (cache : PageStateCache) (targetPageCount : Nat) :
    Nat → List QwalPage → Except Error (List HashedPatch)
  | _, [] => .ok []
  | previous, patch :: patches => do
    require (patch.pageNo ≠ 0) (.invalidEntry "page numbers must be one-based")
    require (previous < patch.pageNo)
      (.invalidEntry "page patches must be strictly ordered without duplicates")
    require (patch.pageNo ≤ targetPageCount)
      (.invalidEntry "page patch lies outside the target state")
    require (patch.afterImage.length = cache.pageSize)
      (.invalidEntry "page image length does not match page size")
    let hashed ← cache.hashPatches targetPageCount patch.pageNo patches
    pure (⟨patch.pageNo - 1, hashLeaf patch.pageNo patch.afterImage⟩ :: hashed)

/-- `slice::partition_point` of a partitioned slice. -/
def partitionPoint {α : Type} (p : α → Bool) (items : List α) : Nat := (items.takeWhile p).length

/-- The loop over the new pages in `validate_and_hash`. -/
def checkNewSuffix (pageCount : Nat) : Nat → List QwalPage → Except Error Unit
  | _, [] => .ok ()
  | offset, patch :: patches => do
    let place ← u32TryFrom "page patch count exceeds u32" offset
    require (patch.pageNo = pageCount + 1 + place)
      (.invalidEntry "growth must include a complete new page suffix")
    checkNewSuffix pageCount (offset + 1) patches

def PageStateCache.validateAndHash (cache : PageStateCache) (targetPageCount : Nat)
    (patches : List QwalPage) : Except Error (List HashedPatch) := do
  require (targetPageCount ≠ 0) (.invalidEntry "page count must be positive")
  let hashed ← cache.hashPatches targetPageCount 0 patches
  if cache.pageCount < targetPageCount then
    let firstNew := partitionPoint (fun patch => patch.pageNo ≤ cache.pageCount) patches
    require (patches.length - firstNew = targetPageCount - cache.pageCount)
      (.invalidEntry "growth must include every newly allocated page")
    checkNewSuffix cache.pageCount 0 (patches.drop firstNew)
  pure hashed

def PageStateCache.overlayNode (cache : PageStateCache) (targetPageCount height start : Nat)
    (patches : List HashedPatch) : Option LogHash :=
  if targetPageCount ≤ start then some (emptySubtree height)
  else if patches = [] ∧ start + 2 ^ height ≤ cache.pageCount ∧
      start + 2 ^ height ≤ targetPageCount then do
    let level ← cache.levels[height]?
    level[start / 2 ^ height]?
  else
    match height with
    | 0 =>
      match patches with
      | patch :: _ => some patch.hash
      | [] => do
        let level ← cache.levels[0]?
        level[start]?
    | height + 1 => do
      let midpoint := start + 2 ^ height
      let split := partitionPoint (fun patch => patch.pageIndex < midpoint) patches
      let left ← cache.overlayNode targetPageCount height start (patches.take split)
      let right ← cache.overlayNode targetPageCount height midpoint (patches.drop split)
      pure (hashInternal (height + 1) left right)

def PageStateCache.overlayHashed (cache : PageStateCache) (targetPageCount : Nat)
    (patches : List HashedPatch) : Except Error StateIdentity :=
  match cache.overlayNode targetPageCount (treeHeight targetPageCount) 0 patches with
  | none => .error .panicked
  | some treeRoot => .ok (Sql.identity cache.pageSize targetPageCount treeRoot)

def PageStateCache.overlay (cache : PageStateCache) (targetPageCount : Nat)
    (patches : List QwalPage) : Except Error StateIdentity := do
  let hashed ← cache.validateAndHash targetPageCount patches
  cache.overlayHashed targetPageCount hashed

theorem hashLeaves_eq_ok {pageSize count : Nat} {pages : List Bytes} {leaves : List LogHash}
    (h : hashLeaves pageSize count pages = .ok leaves) :
    leaves.length = pages.length ∧ (∀ page ∈ pages, page.length = pageSize) ∧
      ∀ i (page : Bytes), pages[i]? = some page → leaves[i]? = some (hashLeaf (count + i + 1) page) := by
  induction pages generalizing count leaves with
  | nil =>
    cases h
    exact ⟨rfl, nofun, fun i page hi => by simp at hi⟩
  | cons first pages ih =>
    obtain ⟨_, hSize, h⟩ := bind_ok_iff.mp h
    obtain ⟨pageNo, hNo, h⟩ := bind_ok_iff.mp h
    obtain ⟨rest, hRest, h⟩ := bind_ok_iff.mp h
    obtain ⟨rfl, -⟩ := u32TryFrom_eq_ok hNo
    cases h
    obtain ⟨hLength, hSizes, hLeaves⟩ := ih hRest
    refine ⟨by rw [List.length_cons, List.length_cons, hLength], ?_, fun i page hi => ?_⟩
    · exact List.forall_mem_cons.mpr ⟨require_eq_ok.mp hSize, hSizes⟩
    cases i with
    | zero =>
      obtain rfl : first = page := by simpa using hi
      rfl
    | succ i =>
      rw [List.getElem?_cons_succ] at hi ⊢
      rw [hLeaves i page hi, Nat.add_right_comm count 1 i, Nat.add_assoc count i 1]

theorem hashLeaves_ok {pageSize : Nat} {pages : List Bytes} {count : Nat}
    (hSizes : ∀ page ∈ pages, page.length = pageSize) (hCount : count + pages.length ≤ u32Max) :
    ∃ leaves, hashLeaves pageSize count pages = .ok leaves := by
  induction pages generalizing count with
  | nil => exact ⟨[], rfl⟩
  | cons first pages ih =>
    rw [List.length_cons] at hCount
    obtain ⟨hFirst, hRest⟩ := List.forall_mem_cons.mp hSizes
    have hNext : count + 1 + pages.length ≤ u32Max := by omega
    obtain ⟨leaves, hLeaves⟩ := ih hRest hNext
    refine ⟨hashLeaf (count + 1) first :: leaves, ?_⟩
    rw [hashLeaves, require, if_pos hFirst, u32TryFrom, if_pos (by omega), hLeaves]
    rfl

def leafOf (pages : List Bytes) (i : Nat) : LogHash := hashLeaf (i + 1) (pages.getD i [])

theorem levelsAbove_isLevel {leaf : Nat → LogHash} {count more height : Nat} {row : List LogHash}
    (hRow : Merkle.IsLevel hashInternal hashEmpty leaf count height row) {k : Nat} (hk : k ≤ more) :
    ∃ row', (levelsAbove more height row)[k]? = some row' ∧
      Merkle.IsLevel hashInternal hashEmpty leaf count (height + k) row' := by
  induction more generalizing height row k with
  | zero =>
    obtain rfl := Nat.le_zero.mp hk
    exact ⟨row, rfl, hRow⟩
  | succ more ih =>
    cases k with
    | zero => exact ⟨row, rfl, hRow⟩
    | succ k =>
      obtain ⟨row', hGet, hLevel⟩ := ih hRow.parents (Nat.le_of_succ_le_succ hk)
      refine ⟨row', hGet, ?_⟩
      rwa [Nat.add_right_comm, Nat.add_assoc] at hLevel

theorem length_levelsAbove (more height : Nat) (row : List LogHash) :
    (levelsAbove more height row).length = more + 1 := by
  induction more generalizing height row with
  | zero => rfl
  | succ more ih => rw [levelsAbove, List.length_cons, ih]

structure PageStateCache.Holds (cache : PageStateCache) (pages : List Bytes) : Prop where
  isPageSize : IsPageSize cache.pageSize
  count : cache.pageCount = pages.length
  pos : 0 < cache.pageCount
  bound : cache.pageCount ≤ u32Max
  sizes : ∀ page ∈ pages, page.length = cache.pageSize
  levels : ∀ h ≤ treeHeight cache.pageCount, ∃ row, cache.levels[h]? = some row ∧
    Merkle.IsLevel hashInternal hashEmpty (leafOf pages) cache.pageCount h row
  height : cache.levels.length = treeHeight cache.pageCount + 1

theorem PageStateCache.holds_of_fromPages {pageSize : Nat} {pages : List Bytes}
    {cache : PageStateCache} (h : fromPages pageSize pages = .ok cache) :
    cache.pageSize = pageSize ∧ cache.Holds pages := by
  obtain ⟨_, hSize, h⟩ := bind_ok_iff.mp h
  obtain ⟨leaves, hLeaves, h⟩ := bind_ok_iff.mp h
  obtain ⟨pageCount, hCount, h⟩ := bind_ok_iff.mp h
  obtain ⟨_, hPos, h⟩ := bind_ok_iff.mp h
  obtain ⟨rfl, hBound⟩ := u32TryFrom_eq_ok hCount
  obtain ⟨hLength, hSizes, hEach⟩ := hashLeaves_eq_ok hLeaves
  cases h
  refine ⟨rfl, require_eq_ok.mp hSize, hLength, Nat.pos_of_ne_zero (require_eq_ok.mp hPos), hBound,
    hSizes, fun h hh => ?_, length_levelsAbove _ _ _⟩
  have hRow : Merkle.IsLevel hashInternal hashEmpty (leafOf pages) leaves.length 0 leaves := by
    refine Merkle.isLevel_leaves fun i hi => ?_
    have hPage : pages[i]? = some (pages.getD i []) := by
      rw [List.getD_eq_getElem?_getD, List.getElem?_eq_getElem (hLength ▸ hi), Option.getD_some]
    have hLeaf := hEach i _ hPage
    rw [List.getElem?_eq_getElem hi, Nat.zero_add] at hLeaf
    exact Option.some.inj hLeaf
  obtain ⟨row, hGet, hLevel⟩ := levelsAbove_isLevel hRow hh
  exact ⟨row, hGet, by rwa [Nat.zero_add] at hLevel⟩

theorem PageStateCache.Holds.identity_eq {cache : PageStateCache} {pages : List Bytes}
    (h : cache.Holds pages) :
    cache.identity = .ok (Sql.identity cache.pageSize cache.pageCount
      (Merkle.node hashInternal hashEmpty (leafOf pages) cache.pageCount
        (treeHeight cache.pageCount) 0)) := by
  obtain ⟨row, hRow, hLevel⟩ := h.levels _ (Nat.le_refl _)
  have hHead := hLevel 0
  rw [Nat.zero_mul, if_pos h.pos] at hHead
  have hLast : cache.levels.getLast? = some row := by
    rw [List.getLast?_eq_getElem?, h.height, Nat.add_sub_cancel, hRow]
  have hRoot : cache.treeRoot = some (Merkle.node hashInternal hashEmpty (leafOf pages)
      cache.pageCount (treeHeight cache.pageCount) 0) := by
    rw [PageStateCache.treeRoot, hLast, Option.bind_eq_bind, Option.bind_some, ← hHead,
      List.head?_eq_getElem?]
  rw [PageStateCache.identity, hRoot]

theorem PageStateCache.fromPages_ok {pageSize : Nat} {pages : List Bytes}
    (hSize : IsPageSize pageSize) (hSizes : ∀ page ∈ pages, page.length = pageSize)
    (hPos : 0 < pages.length) (hBound : pages.length ≤ u32Max) :
    ∃ cache, fromPages pageSize pages = .ok cache := by
  have hAll : 0 + pages.length ≤ u32Max := by omega
  obtain ⟨leaves, hLeaves⟩ := hashLeaves_ok hSizes hAll
  have hLength := (hashLeaves_eq_ok hLeaves).1
  refine ⟨⟨pageSize, leaves.length, levelsAbove (treeHeight leaves.length) 0 leaves⟩, ?_⟩
  rw [fromPages, require, if_pos hSize]
  simp only [bind, Except.bind, hLeaves, u32TryFrom, hLength, if_pos hBound, require,
    if_pos (Nat.pos_iff_ne_zero.mp hPos)]
  rfl

omit [Sha256] in
theorem lt_of_mem_take {patches : List HashedPatch} {midpoint : Nat} {patch : HashedPatch}
    (h : patch ∈ patches.take (partitionPoint (fun patch => patch.pageIndex < midpoint) patches)) :
    patch.pageIndex < midpoint := by
  rw [partitionPoint, ← List.prefix_iff_eq_take.mp (List.takeWhile_prefix _)] at h
  simpa using List.mem_takeWhile_imp h

omit [Sha256] in
theorem le_of_mem_drop {patches : List HashedPatch} {midpoint : Nat} {patch : HashedPatch}
    (hSorted : patches.Pairwise fun a b => a.pageIndex < b.pageIndex)
    (h : patch ∈ patches.drop (partitionPoint (fun patch => patch.pageIndex < midpoint) patches)) :
    midpoint ≤ patch.pageIndex := by
  induction patches with
  | nil => cases h
  | cons first patches ih =>
    obtain ⟨hFirst, hRest⟩ := List.pairwise_cons.mp hSorted
    by_cases hBefore : first.pageIndex < midpoint
    · refine ih hRest ?_
      simpa [partitionPoint, List.takeWhile_cons, hBefore] using h
    · simp only [partitionPoint, List.takeWhile_cons, hBefore, decide_false] at h
      rcases List.mem_cons.mp h with rfl | hMem
      · exact Nat.not_lt.mp hBefore
      · exact Nat.le_trans (Nat.not_lt.mp hBefore) (Nat.le_of_lt (hFirst patch hMem))

structure Patched (base leaf : Nat → LogHash) (pageCount targetPageCount start stop : Nat)
    (patches : List HashedPatch) : Prop where
  sorted : patches.Pairwise fun a b => a.pageIndex < b.pageIndex
  within : ∀ patch ∈ patches, start ≤ patch.pageIndex ∧ patch.pageIndex < stop
  here : ∀ patch ∈ patches, leaf patch.pageIndex = patch.hash
  elsewhere : ∀ i, start ≤ i → i < stop → i < targetPageCount →
    (∀ patch ∈ patches, patch.pageIndex ≠ i) → i < pageCount ∧ leaf i = base i

omit [Sha256] in
theorem Patched.left {base leaf : Nat → LogHash} {pageCount targetPageCount start midpoint stop : Nat}
    {patches : List HashedPatch} (hStop : midpoint ≤ stop)
    (h : Patched base leaf pageCount targetPageCount start stop patches) :
    Patched base leaf pageCount targetPageCount start midpoint
      (patches.take (partitionPoint (fun patch => patch.pageIndex < midpoint) patches)) where
  sorted := h.sorted.sublist (List.take_sublist _ _)
  within patch hPatch := ⟨(h.within patch (List.mem_of_mem_take hPatch)).1, lt_of_mem_take hPatch⟩
  here patch hPatch := h.here patch (List.mem_of_mem_take hPatch)
  elsewhere i hi hi' hTarget hNone := by
    refine h.elsewhere i hi (Nat.lt_of_lt_of_le hi' hStop) hTarget fun patch hPatch hIndex => ?_
    rw [← List.take_append_drop (partitionPoint (fun patch => patch.pageIndex < midpoint) patches)
      patches] at hPatch
    rcases List.mem_append.mp hPatch with hTaken | hDropped
    · exact hNone patch hTaken hIndex
    · have hLate := le_of_mem_drop h.sorted hDropped
      omega

omit [Sha256] in
theorem Patched.right {base leaf : Nat → LogHash} {pageCount targetPageCount start midpoint stop : Nat}
    {patches : List HashedPatch} (hStart : start ≤ midpoint)
    (h : Patched base leaf pageCount targetPageCount start stop patches) :
    Patched base leaf pageCount targetPageCount midpoint stop
      (patches.drop (partitionPoint (fun patch => patch.pageIndex < midpoint) patches)) where
  sorted := h.sorted.sublist (List.drop_sublist _ _)
  within patch hPatch :=
    ⟨le_of_mem_drop h.sorted hPatch, (h.within patch (List.mem_of_mem_drop hPatch)).2⟩
  here patch hPatch := h.here patch (List.mem_of_mem_drop hPatch)
  elsewhere i hi hi' hTarget hNone := by
    refine h.elsewhere i (Nat.le_trans hStart hi) hi' hTarget fun patch hPatch hIndex => ?_
    rw [← List.take_append_drop (partitionPoint (fun patch => patch.pageIndex < midpoint) patches)
      patches] at hPatch
    rcases List.mem_append.mp hPatch with hTaken | hDropped
    · have hEarly := lt_of_mem_take hTaken
      omega
    · exact hNone patch hDropped hIndex

/-- The subtree that `overlay_node` computes is the one of the target's leaves. -/
theorem PageStateCache.overlayNode_eq {cache : PageStateCache} {pages : List Bytes}
    (hCache : cache.Holds pages) {leaf : Nat → LogHash} {target height start : Nat}
    {patches : List HashedPatch} (hStart : 2 ^ height ∣ start)
    (hPatched : Patched (leafOf pages) leaf cache.pageCount target start (start + 2 ^ height) patches) :
    cache.overlayNode target height start patches =
      some (Merkle.node hashInternal hashEmpty leaf target height start) := by
  induction height generalizing start patches with
  | zero =>
    rw [overlayNode.eq_def]
    split
    · rename_i hPast
      rw [Merkle.node_of_le 0 hPast]
      rfl
    rename_i hInside
    split
    · rename_i hShort
      obtain ⟨rfl, hBase, hTarget⟩ := hShort
      rw [Nat.pow_zero] at hBase hTarget
      obtain ⟨row, hRow, hLevel⟩ := hCache.levels 0 (Nat.zero_le _)
      have hLeaf := hPatched.elsewhere start (Nat.le_refl _) (by rw [Nat.pow_zero]; omega) (by omega)
        nofun
      have hHere := hLevel start
      rw [Nat.pow_zero, Nat.mul_one, if_pos hLeaf.1] at hHere
      rw [hRow, Nat.pow_zero, Nat.div_one, Option.bind_eq_bind, Option.bind_some, hHere, Merkle.node,
        Merkle.node, if_pos hLeaf.1, if_pos (by omega), hLeaf.2]
    rename_i hShort
    cases patches with
    | cons patch patches =>
      obtain ⟨hLow, hHigh⟩ := hPatched.within patch List.mem_cons_self
      obtain rfl : patch.pageIndex = start := by rw [Nat.pow_zero] at hHigh; omega
      change some patch.hash = _
      rw [Merkle.node, if_pos (Nat.not_le.mp hInside), hPatched.here patch List.mem_cons_self]
    | nil =>
      -- a place without a patch lies in the base, and then the short cut is taken
      have hLeaf := hPatched.elsewhere start (Nat.le_refl _) (by rw [Nat.pow_zero]; omega) (by omega)
        nofun
      exact absurd ⟨rfl, by rw [Nat.pow_zero]; omega, by rw [Nat.pow_zero]; omega⟩ hShort
  | succ height ih =>
    have hDouble : 2 ^ (height + 1) = 2 ^ height + 2 ^ height := by ring
    rw [overlayNode.eq_def]
    split
    · rename_i hPast
      rw [Merkle.node_of_le _ hPast]
      rfl
    split
    · rename_i hShort
      obtain ⟨rfl, hBase, hTarget⟩ := hShort
      have hHeight : height + 1 ≤ treeHeight cache.pageCount := by
        rw [← Nat.pow_le_pow_iff_right (by decide : 1 < 2)]
        exact Nat.le_trans (by omega) (le_two_pow_treeHeight _)
      obtain ⟨row, hRow, hLevel⟩ := hCache.levels _ hHeight
      have hHere := hLevel (start / 2 ^ (height + 1))
      rw [Nat.div_mul_cancel hStart, if_pos (by omega)] at hHere
      rw [hRow, Option.bind_eq_bind, Option.bind_some, hHere]
      congr 1
      refine Merkle.node_congr (fun i hi hi' => by omega) fun i hi hi' hCount => ?_
      exact (hPatched.elsewhere i hi hi' (by omega) nofun).2.symm
    have hHalf : 2 ^ height ∣ start := Nat.dvd_trans (Nat.pow_dvd_pow 2 (Nat.le_succ height)) hStart
    have hMiddle : start + 2 ^ height ≤ start + 2 ^ (height + 1) := by omega
    have hEnd : start + 2 ^ (height + 1) = start + 2 ^ height + 2 ^ height := by omega
    have hAfter := hPatched.right (Nat.le_add_right start (2 ^ height))
    rw [hEnd] at hAfter
    have hLeft := ih hHalf (hPatched.left hMiddle)
    have hRight := ih (Nat.dvd_add hHalf (Nat.dvd_refl _)) hAfter
    simp only [hLeft, hRight, Option.bind_eq_bind, Option.bind_some, Merkle.node]
    rfl

def QwalPage.hashed (patch : QwalPage) : HashedPatch :=
  ⟨patch.pageNo - 1, hashLeaf patch.pageNo patch.afterImage⟩

/-- Patches that passed the loop of `validate_and_hash`. -/
structure OrderedPages (pageSize targetPageCount : Nat) (patches : List QwalPage) : Prop where
  sorted : patches.Pairwise fun a b => a.pageNo < b.pageNo
  pos : ∀ patch ∈ patches, 0 < patch.pageNo
  within : ∀ patch ∈ patches, patch.pageNo ≤ targetPageCount
  sizes : ∀ patch ∈ patches, patch.afterImage.length = pageSize

theorem PageStateCache.hashPatches_eq_ok {cache : PageStateCache} {target previous : Nat}
    {patches : List QwalPage} {hashed : List HashedPatch}
    (h : cache.hashPatches target previous patches = .ok hashed) :
    hashed = patches.map QwalPage.hashed ∧ (∀ patch ∈ patches, previous < patch.pageNo) ∧
      OrderedPages cache.pageSize target patches := by
  induction patches generalizing previous hashed with
  | nil =>
    cases h
    exact ⟨rfl, nofun, ⟨List.Pairwise.nil, nofun, nofun, nofun⟩⟩
  | cons first patches ih =>
    obtain ⟨_, hPos, h⟩ := bind_ok_iff.mp h
    obtain ⟨_, hPrevious, h⟩ := bind_ok_iff.mp h
    obtain ⟨_, hWithin, h⟩ := bind_ok_iff.mp h
    obtain ⟨_, hSize, h⟩ := bind_ok_iff.mp h
    obtain ⟨rest, hRest, h⟩ := bind_ok_iff.mp h
    cases h
    rw [require_eq_ok] at hPos hPrevious hWithin hSize
    obtain ⟨rfl, hLater, hOrdered⟩ := ih hRest
    refine ⟨rfl, ?_, ?_, ?_, ?_, ?_⟩
    · exact List.forall_mem_cons.mpr
        ⟨hPrevious, fun patch hPatch => Nat.lt_trans hPrevious (hLater patch hPatch)⟩
    · exact List.pairwise_cons.mpr ⟨hLater, hOrdered.sorted⟩
    · exact List.forall_mem_cons.mpr ⟨Nat.pos_of_ne_zero hPos, hOrdered.pos⟩
    · exact List.forall_mem_cons.mpr ⟨hWithin, hOrdered.within⟩
    · exact List.forall_mem_cons.mpr ⟨hSize, hOrdered.sizes⟩

omit [Sha256] in
theorem checkNewSuffix_eq_ok {pageCount offset : Nat} {patches : List QwalPage} {u : Unit}
    (h : checkNewSuffix pageCount offset patches = .ok u) {k : Nat} {patch : QwalPage}
    (hk : patches[k]? = some patch) : patch.pageNo = pageCount + 1 + (offset + k) := by
  induction patches generalizing offset k with
  | nil => simp at hk
  | cons first patches ih =>
    obtain ⟨place, hPlace, h⟩ := bind_ok_iff.mp h
    obtain ⟨_, hFirst, h⟩ := bind_ok_iff.mp h
    obtain ⟨rfl, -⟩ := u32TryFrom_eq_ok hPlace
    cases k with
    | zero =>
      obtain rfl : first = patch := by simpa using hk
      exact require_eq_ok.mp hFirst
    | succ k =>
      rw [List.getElem?_cons_succ] at hk
      rw [ih h hk]
      omega

theorem PageStateCache.validateAndHash_eq_ok {cache : PageStateCache} {target : Nat}
    {patches : List QwalPage} {hashed : List HashedPatch}
    (h : cache.validateAndHash target patches = .ok hashed) :
    0 < target ∧ hashed = patches.map QwalPage.hashed ∧
      OrderedPages cache.pageSize target patches ∧
      ∀ i, cache.pageCount ≤ i → i < target → ∃ patch ∈ patches, patch.pageNo = i + 1 := by
  obtain ⟨_, hPos, h⟩ := bind_ok_iff.mp h
  obtain ⟨all, hAll, h⟩ := bind_ok_iff.mp h
  obtain ⟨rfl, -, hOrdered⟩ := hashPatches_eq_ok hAll
  have hTarget : 0 < target := Nat.pos_of_ne_zero (require_eq_ok.mp hPos)
  by_cases hGrows : cache.pageCount < target
  · simp only [if_pos hGrows] at h
    obtain ⟨_, hSupplied, h⟩ := bind_ok_iff.mp h
    obtain ⟨_, hSuffix, h⟩ := bind_ok_iff.mp h
    cases h
    refine ⟨hTarget, rfl, hOrdered, fun i hi hi' => ?_⟩
    rw [require_eq_ok] at hSupplied
    -- the suffix has one patch for each new page, in order
    have hPlace : i - cache.pageCount < (patches.drop
        (partitionPoint (fun patch => patch.pageNo ≤ cache.pageCount) patches)).length := by
      rw [List.length_drop, hSupplied]
      omega
    have hPatch := checkNewSuffix_eq_ok hSuffix (List.getElem?_eq_getElem hPlace)
    refine ⟨_, List.mem_of_mem_drop (List.getElem_mem hPlace), ?_⟩
    rw [hPatch]
    omega
  · simp only [if_neg hGrows] at h
    cases h
    exact ⟨hTarget, rfl, hOrdered, fun i hi hi' => by omega⟩

structure Overlaid (pages : List Bytes) (target : Nat) (patches : List QwalPage)
    (pages' : List Bytes) : Prop where
  count : pages'.length = target
  patched : ∀ patch ∈ patches, pages'.getD (patch.pageNo - 1) [] = patch.afterImage
  kept : ∀ i < target, (∀ patch ∈ patches, patch.pageNo ≠ i + 1) →
    i < pages.length → pages'.getD i [] = pages.getD i []

theorem PageStateCache.Holds.patched {cache : PageStateCache} {pages pages' : List Bytes}
    {target : Nat} {patches : List QwalPage} {hashed : List HashedPatch} (hCache : cache.Holds pages)
    (h : cache.validateAndHash target patches = .ok hashed)
    (hOverlaid : Overlaid pages target patches pages') :
    Patched (leafOf pages) (leafOf pages') cache.pageCount target 0 (0 + 2 ^ treeHeight target)
      hashed := by
  obtain ⟨-, rfl, hOrdered, hGrowth⟩ := validateAndHash_eq_ok h
  refine ⟨?_, fun patch hPatch => ?_, fun patch hPatch => ?_, fun i _ _ hi hNone => ?_⟩
  · rw [List.pairwise_map]
    refine hOrdered.sorted.imp_of_mem fun {a b} ha hb hLess => ?_
    have hFirst := hOrdered.pos a ha
    simp only [QwalPage.hashed]
    omega
  · obtain ⟨page, hPage, rfl⟩ := List.mem_map.mp hPatch
    have hPos := hOrdered.pos page hPage
    have hWithin := hOrdered.within page hPage
    have hHeight := le_two_pow_treeHeight target
    exact ⟨Nat.zero_le _, by simp only [QwalPage.hashed]; omega⟩
  · obtain ⟨page, hPage, rfl⟩ := List.mem_map.mp hPatch
    have hPos := hOrdered.pos page hPage
    rw [leafOf, QwalPage.hashed, hOverlaid.patched page hPage, Nat.sub_add_cancel hPos]
  · have hUnpatched : ∀ patch ∈ patches, patch.pageNo ≠ i + 1 := by
      intro patch hPatch hIndex
      refine hNone _ (List.mem_map_of_mem hPatch) ?_
      rw [QwalPage.hashed, hIndex, Nat.add_sub_cancel]
    have hBase : i < cache.pageCount := by
      by_contra hNew
      obtain ⟨patch, hPatch, hIndex⟩ := hGrowth i (Nat.not_lt.mp hNew) hi
      exact hUnpatched patch hPatch hIndex
    exact ⟨hBase, by rw [leafOf, leafOf, hOverlaid.kept i hi hUnpatched (hCache.count ▸ hBase)]⟩

theorem PageStateCache.Holds.overlay_eq {cache cache' : PageStateCache} {pages pages' : List Bytes}
    {target : Nat} {patches : List QwalPage} {state : StateIdentity} (hCache : cache.Holds pages)
    (hOverlay : cache.overlay target patches = .ok state)
    (hOverlaid : Overlaid pages target patches pages')
    (hCache' : PageStateCache.fromPages cache.pageSize pages' = .ok cache') :
    cache'.identity = .ok state := by
  obtain ⟨hashed, hHashed, hState⟩ := bind_ok_iff.mp hOverlay
  obtain ⟨hSize, hHolds⟩ := PageStateCache.holds_of_fromPages hCache'
  have hNode := overlayNode_eq hCache (Nat.dvd_zero _) (hCache.patched hHashed hOverlaid)
  rw [overlayHashed, hNode] at hState
  cases hState
  rw [hHolds.identity_eq, hSize, hHolds.count, hOverlaid.count]

end Hashing

end Rhiza.Sql
