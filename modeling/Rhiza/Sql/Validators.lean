import Rhiza.Sql.PagePatch

/-! # Two validators of the same pages

An envelope is checked before it is proposed, and its pages are checked again by
the cache of every replica that installs them. The envelope counts the new pages,
the cache wants them one after the other. What the first check accepts the second
one does, and in neither does a number leave its machine type.
-/

namespace Rhiza.Sql

open Rhiza.Core Rhiza.Library

theorem require_of {condition : Prop} [Decidable condition] {error : Error} (h : condition) :
    require condition error = .ok () := if_pos h

theorem length_le_of_increasing {numbers : List Nat} {low high : Nat}
    (hSorted : numbers.Pairwise (· < ·)) (hRange : ∀ n ∈ numbers, low < n ∧ n ≤ high) :
    numbers.length ≤ high - low := by
  induction numbers generalizing low with
  | nil => exact Nat.zero_le _
  | cons first rest ih =>
    obtain ⟨hLater, hRest⟩ := List.pairwise_cons.mp hSorted
    obtain ⟨hLow, hHigh⟩ := hRange first List.mem_cons_self
    have hTail := ih hRest fun n hn => ⟨hLater n hn, (hRange n (List.mem_cons_of_mem _ hn)).2⟩
    rw [List.length_cons]
    omega

theorem head_of_full {first low high : Nat} {rest : List Nat}
    (hSorted : (first :: rest).Pairwise (· < ·))
    (hRange : ∀ n ∈ first :: rest, low < n ∧ n ≤ high)
    (hFull : (first :: rest).length = high - low) : first = low + 1 := by
  obtain ⟨hLater, hRest⟩ := List.pairwise_cons.mp hSorted
  obtain ⟨hLow, hHigh⟩ := hRange first List.mem_cons_self
  have hTail : rest.length ≤ high - first :=
    length_le_of_increasing hRest fun n hn => ⟨hLater n hn, (hRange n (List.mem_cons_of_mem _ hn)).2⟩
  rw [List.length_cons] at hFull
  omega

theorem checkNewSuffix_of_full {pageCount offset target : Nat} {patches : List QwalPage}
    (hSorted : patches.Pairwise fun a b => a.pageNo < b.pageNo)
    (hRange : ∀ patch ∈ patches, pageCount + offset < patch.pageNo ∧ patch.pageNo ≤ target)
    (hFull : patches.length = target - (pageCount + offset)) (hTarget : target ≤ u32Max) :
    checkNewSuffix pageCount offset patches = .ok () := by
  induction patches generalizing offset with
  | nil => rfl
  | cons first rest ih =>
    have hNumbers : ((first :: rest).map (·.pageNo)).Pairwise (· < ·) := List.pairwise_map.mpr hSorted
    have hHead : first.pageNo = pageCount + offset + 1 := by
      refine head_of_full hNumbers (fun n hn => ?_) (by simpa using hFull)
      have hn : n ∈ (first :: rest).map (·.pageNo) := hn
      obtain ⟨patch, hPatch, rfl⟩ := List.mem_map.mp hn
      exact hRange patch hPatch
    obtain ⟨hLater, hRest⟩ := List.pairwise_cons.mp hSorted
    have hWithin := (hRange first List.mem_cons_self).2
    rw [List.length_cons] at hFull
    rw [checkNewSuffix, u32TryFrom, if_pos (by omega), ok_bind, require, if_pos (by omega), ok_bind]
    refine ih hRest (fun patch hPatch => ⟨?_, ?_⟩) (by omega)
    · have := hLater patch hPatch
      omega
    · exact (hRange patch (List.mem_cons_of_mem _ hPatch)).2

theorem PageStateCache.hashPatches_ok [Sha256] {cache : PageStateCache} {target previous : Nat}
    {patches : List QwalPage} (h : OrderedPages cache.pageSize target patches)
    (hPrevious : ∀ patch ∈ patches, previous < patch.pageNo) :
    cache.hashPatches target previous patches = .ok (patches.map QwalPage.hashed) := by
  induction patches generalizing previous with
  | nil => rfl
  | cons first rest ih =>
    have hFirst : first ∈ first :: rest := List.mem_cons_self
    rw [hashPatches, require_of (Nat.ne_of_gt (h.pos first hFirst)), ok_bind,
      require_of (hPrevious first hFirst), ok_bind, require_of (h.within first hFirst), ok_bind,
      require_of (h.sizes first hFirst), ok_bind, ih h.tail (List.pairwise_cons.mp h.sorted).1]
    rfl

theorem mem_drop_partitionPoint {pageCount : Nat} {patches : List QwalPage} {patch : QwalPage}
    (hSorted : patches.Pairwise fun a b => a.pageNo < b.pageNo)
    (h : patch ∈ patches.drop (partitionPoint (fun patch => patch.pageNo ≤ pageCount) patches)) :
    pageCount < patch.pageNo := by
  induction patches with
  | nil => cases h
  | cons first rest ih =>
    obtain ⟨hLater, hRest⟩ := List.pairwise_cons.mp hSorted
    by_cases hOld : first.pageNo ≤ pageCount
    · refine ih hRest ?_
      simpa [partitionPoint, List.takeWhile_cons, hOld] using h
    · simp only [partitionPoint, List.takeWhile_cons, hOld, decide_false] at h
      rcases List.mem_cons.mp h with rfl | hMem
      · omega
      · have := hLater patch hMem
        omega

theorem QwalEnvelope.validatePages_eq_ok {effect : QwalEnvelope} {targetFileBytes : Nat}
    {pages : List QwalPage} {counted counted' : Nat × Nat}
    (h : pages.foldlM (effect.validatePage targetFileBytes) counted = .ok counted') :
    (∀ page ∈ pages, counted.1 < page.pageNo ∧ page.afterImage.length = effect.targetState.pageSize ∧
      page.pageNo * effect.targetState.pageSize ≤ targetFileBytes) ∧
      pages.Pairwise fun a b => a.pageNo < b.pageNo := by
  induction pages generalizing counted with
  | nil => exact ⟨nofun, List.Pairwise.nil⟩
  | cons first rest ih =>
    obtain ⟨previous, pageBytes⟩ := counted
    obtain ⟨next, hFirst, h⟩ := bind_ok_iff.mp h
    obtain ⟨_, -, hFirst⟩ := bind_ok_iff.mp hFirst
    obtain ⟨_, hPrevious, hFirst⟩ := bind_ok_iff.mp hFirst
    obtain ⟨_, hSize, hFirst⟩ := bind_ok_iff.mp hFirst
    obtain ⟨_, -, hFirst⟩ := bind_ok_iff.mp hFirst
    obtain ⟨_, hInside, hFirst⟩ := bind_ok_iff.mp hFirst
    rw [require_eq_ok] at hPrevious hSize hInside
    have hNext : next.1 = first.pageNo := by
      split at hFirst
      · obtain ⟨_, -, hFirst⟩ := bind_ok_iff.mp hFirst
        obtain ⟨_, -, hFirst⟩ := bind_ok_iff.mp hFirst
        obtain ⟨_, -, hFirst⟩ := bind_ok_iff.mp hFirst
        cases hFirst
        rfl
      · obtain ⟨_, -, hFirst⟩ := bind_ok_iff.mp hFirst
        cases hFirst
        rfl
    obtain ⟨hRest, hSorted⟩ := ih h
    rw [hNext] at hRest
    refine ⟨List.forall_mem_cons.mpr ⟨⟨hPrevious, hSize, hInside⟩, fun page hPage => ?_⟩,
      List.pairwise_cons.mpr ⟨fun page hPage => (hRest page hPage).1, hSorted⟩⟩
    obtain ⟨hLater, hOther⟩ := hRest page hPage
    exact ⟨Nat.lt_trans hPrevious hLater, hOther⟩

theorem QwalEnvelope.pages_of_validate [SqlResultJson] {effect : QwalEnvelope}
    (h : effect.validate = .ok ()) :
    effect.baseState.pageSize = effect.targetState.pageSize ∧ effect.targetState.pageCount ≠ 0 ∧
      OrderedPages effect.targetState.pageSize effect.targetState.pageCount effect.pages ∧
      (effect.baseState.pageCount < effect.targetState.pageCount →
        effect.pages.length -
            partitionPoint (fun page => page.pageNo ≤ effect.baseState.pageCount) effect.pages =
          effect.targetState.pageCount - effect.baseState.pageCount) := by
  obtain ⟨_, -, h⟩ := bind_ok_iff.mp h
  obtain ⟨_, -, h⟩ := bind_ok_iff.mp h
  obtain ⟨_, -, h⟩ := bind_ok_iff.mp h
  obtain ⟨targetFileBytes, hTarget, h⟩ := bind_ok_iff.mp h
  obtain ⟨_, hSize, h⟩ := bind_ok_iff.mp h
  obtain ⟨_, -, h⟩ := bind_ok_iff.mp h
  obtain ⟨_, -, h⟩ := bind_ok_iff.mp h
  obtain ⟨_, hPages, h⟩ := bind_ok_iff.mp h
  obtain ⟨hEach, hSorted⟩ := validatePages_eq_ok hPages
  obtain ⟨hBytes, -⟩ := stateFileBytes_eq_ok hTarget
  obtain ⟨_, hIsSize, hTarget⟩ := bind_ok_iff.mp hTarget
  obtain ⟨_, hCount, -⟩ := bind_ok_iff.mp hTarget
  have hPositive : 0 < effect.targetState.pageSize := (require_eq_ok.mp hIsSize).pos
  refine ⟨require_eq_ok.mp hSize, require_eq_ok.mp hCount, ⟨hSorted, ?_, ?_, ?_⟩, fun hGrows => ?_⟩
  · exact fun page hPage => (hEach page hPage).1
  · intro page hPage
    have hInside := (hEach page hPage).2.2
    rw [hBytes, Nat.mul_comm effect.targetState.pageSize] at hInside
    exact Nat.le_of_mul_le_mul_right hInside hPositive
  · exact fun page hPage => (hEach page hPage).2.1
  · simp only [if_pos hGrows] at h
    obtain ⟨supplied, hSupplied, h⟩ := bind_ok_iff.mp h
    obtain ⟨rfl, -⟩ := u32TryFrom_eq_ok hSupplied
    exact require_eq_ok.mp h

/-- A result that has to fit in its machine type. Where it does not, the source wraps or
stops, or returns an error if it checks. -/
def inRange (bound n : Nat) : Except Error Nat := if n < bound then .ok n else .error .panicked

def subtract (n m : Nat) : Except Error Nat := if m ≤ n then .ok (n - m) else .error .panicked

theorem inRange_of_lt {bound n : Nat} (h : n < bound) : inRange bound n = .ok n := if_pos h

theorem subtract_of_le {n m : Nat} (h : m ≤ n) : subtract n m = .ok (n - m) := if_pos h

def u32Bound : Nat := 2 ^ 32

def checkNewSuffixExact (pageCount : Nat) : Nat → List QwalPage → Except Error Unit
  | _, [] => .ok ()
  | offset, patch :: patches => do
    let place ← u32TryFrom "page patch count exceeds u32" offset
    let firstNew ← inRange u32Bound (pageCount + 1)
    let pageNo ← inRange u32Bound (firstNew + place)
    require (patch.pageNo = pageNo) (.invalidEntry "growth must include a complete new page suffix")
    checkNewSuffixExact pageCount (offset + 1) patches

theorem checkNewSuffixExact_eq {pageCount offset target : Nat} {patches : List QwalPage}
    (hFull : pageCount + offset + patches.length = target) (hTarget : target < u32Bound) :
    checkNewSuffixExact pageCount offset patches = checkNewSuffix pageCount offset patches := by
  induction patches generalizing offset with
  | nil => rfl
  | cons first rest ih =>
    rw [List.length_cons] at hFull
    refine bind_congr_ok fun place hPlace => ?_
    obtain ⟨rfl, -⟩ := u32TryFrom_eq_ok hPlace
    rw [inRange_of_lt (by omega), ok_bind, inRange_of_lt (by omega), ok_bind]
    exact bind_congr_ok fun _ _ => ih (by omega)

section Hashing

variable [Sha256]

def PageStateCache.hashPatchesExact (cache : PageStateCache) (targetPageCount : Nat) :
    Nat → List QwalPage → Except Error (List HashedPatch)
  | _, [] => .ok []
  | previous, patch :: patches => do
    require (patch.pageNo ≠ 0) (.invalidEntry "page numbers must be one-based")
    require (previous < patch.pageNo)
      (.invalidEntry "page patches must be strictly ordered without duplicates")
    require (patch.pageNo ≤ targetPageCount)
      (.invalidEntry "page patch lies outside the target state")
    require (patch.afterImage.length = cache.pageSize)
      (.invalidEntry "page image length does not match page size")
    let pageIndex ← subtract patch.pageNo 1
    let hashed ← cache.hashPatchesExact targetPageCount patch.pageNo patches
    pure (⟨pageIndex, hashLeaf patch.pageNo patch.afterImage⟩ :: hashed)

theorem PageStateCache.hashPatchesExact_eq {cache : PageStateCache} {target previous : Nat}
    {patches : List QwalPage} :
    cache.hashPatchesExact target previous patches = cache.hashPatches target previous patches := by
  induction patches generalizing previous with
  | nil => rfl
  | cons first rest ih =>
    refine bind_congr_ok fun _ hPos => ?_
    have hOne : 1 ≤ first.pageNo := Nat.pos_of_ne_zero (require_eq_ok.mp hPos)
    refine bind_congr_ok fun _ _ => bind_congr_ok fun _ _ => bind_congr_ok fun _ _ => ?_
    rw [subtract_of_le hOne, ok_bind, ih]

def PageStateCache.validateAndHashExact (cache : PageStateCache) (targetPageCount : Nat)
    (patches : List QwalPage) : Except Error (List HashedPatch) := do
  require (targetPageCount ≠ 0) (.invalidEntry "page count must be positive")
  let hashed ← cache.hashPatchesExact targetPageCount 0 patches
  if cache.pageCount < targetPageCount then
    let firstNew := partitionPoint (fun patch => patch.pageNo ≤ cache.pageCount) patches
    let required ← subtract targetPageCount cache.pageCount
    let supplied ← subtract patches.length firstNew
    require (supplied = required) (.invalidEntry "growth must include every newly allocated page")
    checkNewSuffixExact cache.pageCount 0 (patches.drop firstNew)
  pure hashed

omit [Sha256] in
theorem partitionPoint_le {α : Type} (p : α → Bool) (items : List α) :
    partitionPoint p items ≤ items.length :=
  (List.takeWhile_sublist p).length_le

theorem PageStateCache.validateAndHashExact_eq {cache : PageStateCache} {target : Nat}
    {patches : List QwalPage} (hTarget : target < u32Bound) :
    cache.validateAndHashExact target patches = cache.validateAndHash target patches := by
  refine bind_congr_ok fun _ _ => ?_
  rw [hashPatchesExact_eq]
  refine bind_congr_ok fun hashed _ => ?_
  by_cases hGrows : cache.pageCount < target
  · simp only [if_pos hGrows]
    rw [subtract_of_le (Nat.le_of_lt hGrows), ok_bind, subtract_of_le (partitionPoint_le _ _), ok_bind]
    refine bind_congr_ok fun _ hSupplied => ?_
    rw [require_eq_ok] at hSupplied
    rw [checkNewSuffixExact_eq (by rw [List.length_drop, hSupplied]; omega) hTarget]
  · simp only [if_neg hGrows]

end Hashing

def stateFileBytesExact (state : StateIdentity) (label : String) : Except Error Nat := do
  validatePageSize state.pageSize
  require (state.pageCount ≠ 0) (.invalidEntry s!"QWAL {label} page count must be positive")
  require (state.stateRoot ≠ LogHash.zero)
    (.invalidEntry s!"QWAL {label} state root must be non-zero")
  inRange u64Bound (state.pageSize * state.pageCount)

def QwalEnvelope.validatePageExact (effect : QwalEnvelope) (targetFileBytes : Nat) :
    Nat × Nat → QwalPage → Except Error (Nat × Nat)
  | (previous, pageBytes), page => do
    let pageSize := effect.targetState.pageSize
    require (page.pageNo ≠ 0) (.invalidEntry "QWAL page number must be one-based")
    require (previous < page.pageNo)
      (.invalidEntry "QWAL pages must be strictly ordered without duplicates")
    require (page.afterImage.length = pageSize)
      (.invalidEntry "QWAL after-image length does not match page size")
    let pageEnd ← inRange u64Bound (page.pageNo * pageSize)
    require (pageEnd ≤ targetFileBytes) (.invalidEntry "QWAL page lies outside the target file")
    if page.pageNo = 1 then
      validateSqliteHeader page.afterImage pageSize
      validateHeaderPageCount page.afterImage targetFileBytes pageSize
    let pageBytes ← inRange u64Bound (pageBytes + page.afterImage.length)
    require (pageBytes ≤ maxQwalBytes)
      (.resourceExhausted s!"QWAL page images exceed {maxQwalBytes} bytes")
    pure (page.pageNo, pageBytes)

def QwalEnvelope.validateExact [SqlResultJson] (effect : QwalEnvelope) : Except Error Unit := do
  validateNonemptyBounded "cluster_id" effect.clusterId maxIdBytes
  validateNonemptyBounded "materializer_fingerprint" effect.materializerFingerprint
    maxFingerprintBytes
  let baseFileBytes ← stateFileBytesExact effect.baseState "base"
  let targetFileBytes ← stateFileBytesExact effect.targetState "target"
  require (effect.baseState.pageSize = effect.targetState.pageSize)
    (.invalidEntry "QWAL base and target page sizes differ")
  require (effect.receipts ≠ [] ∧ effect.receipts.length ≤ maxQwalReceipts)
    (.invalidEntry s!"QWAL receipts must contain 1..={maxQwalReceipts} members")
  let _ ← effect.receipts.foldlM validateReceipt ([], 0)
  let _ ← effect.pages.foldlM (effect.validatePageExact targetFileBytes) (0, 0)
  let basePages := effect.baseState.pageCount
  let targetPages := effect.targetState.pageCount
  let baseEnd ← inRange u64Bound (basePages * effect.targetState.pageSize)
  require (baseEnd = baseFileBytes) .panicked
  let targetEnd ← inRange u64Bound (targetPages * effect.targetState.pageSize)
  require (targetEnd = targetFileBytes) .panicked
  if basePages < targetPages then
    let firstNew := partitionPoint (fun page => page.pageNo ≤ basePages) effect.pages
    let supplied ← subtract effect.pages.length firstNew
    let suppliedNewPages ← u32TryFrom "QWAL page count overflows" supplied
    let requiredNewPages ← subtract targetPages basePages
    require (suppliedNewPages = requiredNewPages)
      (.invalidEntry "QWAL growth must include every newly allocated page")

structure QwalEnvelope.Typed (effect : QwalEnvelope) : Prop where
  base : effect.baseState.pageCount < u32Bound
  target : effect.targetState.pageCount < u32Bound
  pages : ∀ page ∈ effect.pages, page.pageNo < u32Bound

theorem mul_lt_u64Bound {count pageSize : Nat} (hCount : count < u32Bound) (hSize : IsPageSize pageSize) :
    count * pageSize < u64Bound :=
  calc count * pageSize ≤ (u32Bound - 1) * maxSqlitePageSize :=
        Nat.mul_le_mul (Nat.le_sub_one_of_lt hCount) hSize.2.1
    _ < u64Bound := by decide

theorem stateFileBytesExact_eq {state : StateIdentity} {label : String}
    (hCount : state.pageCount < u32Bound) :
    stateFileBytesExact state label = stateFileBytes state label := by
  refine bind_congr_ok fun _ hSize => bind_congr_ok fun _ _ => bind_congr_ok fun _ _ => ?_
  have hFits := mul_lt_u64Bound hCount (require_eq_ok.mp hSize)
  rw [Nat.mul_comm] at hFits
  rw [inRange_of_lt hFits, require_of hFits, ok_bind]
  rfl

theorem QwalEnvelope.validatePageExact_eq {effect : QwalEnvelope} {targetFileBytes : Nat}
    {counted : Nat × Nat} {page : QwalPage} (hSize : IsPageSize effect.targetState.pageSize)
    (hPage : page.pageNo < u32Bound) (hCounted : counted.2 ≤ maxQwalBytes) :
    effect.validatePageExact targetFileBytes counted page =
      effect.validatePage targetFileBytes counted page := by
  obtain ⟨previous, pageBytes⟩ := counted
  have hFits := mul_lt_u64Bound hPage hSize
  refine bind_congr_ok fun _ _ => bind_congr_ok fun _ _ => bind_congr_ok fun _ hLength => ?_
  have hBytes : pageBytes + page.afterImage.length < u64Bound := by
    rw [require_eq_ok.mp hLength]
    exact Nat.lt_of_le_of_lt (Nat.add_le_add hCounted hSize.2.1) (by decide)
  rw [inRange_of_lt hFits, ok_bind, require_of hFits, ok_bind, inRange_of_lt hBytes]
  rfl

theorem QwalEnvelope.validatePage_counted {effect : QwalEnvelope} {targetFileBytes : Nat}
    {counted next : Nat × Nat} {page : QwalPage}
    (h : effect.validatePage targetFileBytes counted page = .ok next) : next.2 ≤ maxQwalBytes := by
  obtain ⟨previous, pageBytes⟩ := counted
  obtain ⟨_, -, h⟩ := bind_ok_iff.mp h
  obtain ⟨_, -, h⟩ := bind_ok_iff.mp h
  obtain ⟨_, -, h⟩ := bind_ok_iff.mp h
  obtain ⟨_, -, h⟩ := bind_ok_iff.mp h
  obtain ⟨_, -, h⟩ := bind_ok_iff.mp h
  split at h
  · obtain ⟨_, -, h⟩ := bind_ok_iff.mp h
    obtain ⟨_, -, h⟩ := bind_ok_iff.mp h
    obtain ⟨_, hBytes, h⟩ := bind_ok_iff.mp h
    cases h
    exact require_eq_ok.mp hBytes
  · obtain ⟨_, hBytes, h⟩ := bind_ok_iff.mp h
    cases h
    exact require_eq_ok.mp hBytes

theorem QwalEnvelope.validatePagesExact_eq {effect : QwalEnvelope} {targetFileBytes : Nat}
    {pages : List QwalPage} {counted : Nat × Nat} (hSize : IsPageSize effect.targetState.pageSize)
    (hPages : ∀ page ∈ pages, page.pageNo < u32Bound) (hCounted : counted.2 ≤ maxQwalBytes) :
    pages.foldlM (effect.validatePageExact targetFileBytes) counted =
      pages.foldlM (effect.validatePage targetFileBytes) counted := by
  induction pages generalizing counted with
  | nil => rfl
  | cons first rest ih =>
    obtain ⟨hFirst, hRest⟩ := List.forall_mem_cons.mp hPages
    rw [List.foldlM_cons, List.foldlM_cons, validatePageExact_eq hSize hFirst hCounted]
    exact bind_congr_ok fun next hNext => ih hRest (validatePage_counted hNext)

theorem QwalEnvelope.validateExact_eq [SqlResultJson] {effect : QwalEnvelope} (hTyped : effect.Typed) :
    effect.validateExact = effect.validate := by
  refine bind_congr_ok fun _ _ => bind_congr_ok fun _ _ => ?_
  rw [stateFileBytesExact_eq hTyped.base, stateFileBytesExact_eq hTyped.target]
  refine bind_congr_ok fun baseFileBytes hBase => bind_congr_ok fun targetFileBytes hTarget => ?_
  refine bind_congr_ok fun _ hSame => bind_congr_ok fun _ _ => bind_congr_ok fun _ _ => ?_
  rw [require_eq_ok] at hSame
  obtain ⟨hBaseBytes, -⟩ := stateFileBytes_eq_ok hBase
  obtain ⟨hTargetBytes, -⟩ := stateFileBytes_eq_ok hTarget
  obtain ⟨_, hIsSize, -⟩ := bind_ok_iff.mp hTarget
  rw [validatePageSize, require_eq_ok] at hIsSize
  rw [validatePagesExact_eq hIsSize hTyped.pages (Nat.zero_le _)]
  refine bind_congr_ok fun _ _ => ?_
  have hBaseEnd : effect.baseState.pageCount * effect.targetState.pageSize = baseFileBytes := by
    rw [hBaseBytes, hSame, Nat.mul_comm]
  have hTargetEnd : effect.targetState.pageCount * effect.targetState.pageSize = targetFileBytes := by
    rw [hTargetBytes, Nat.mul_comm]
  dsimp only
  rw [inRange_of_lt (mul_lt_u64Bound hTyped.base hIsSize), ok_bind, require_of hBaseEnd, ok_bind,
    inRange_of_lt (mul_lt_u64Bound hTyped.target hIsSize), ok_bind, require_of hTargetEnd, ok_bind]
  by_cases hGrows : effect.baseState.pageCount < effect.targetState.pageCount
  · simp only [if_pos hGrows]
    rw [subtract_of_le (partitionPoint_le _ _), ok_bind]
    refine bind_congr_ok fun _ _ => ?_
    rw [subtract_of_le (Nat.le_of_lt hGrows), ok_bind]
  · simp only [if_neg hGrows]

/-- The pages of an envelope that passes its own check pass the check of the cache of its
base, and no number leaves its type in either. -/
theorem envelope_pages_are_accepted [Sha256] [SqlResultJson] {effect : QwalEnvelope} {pageSize : Nat}
    {pages : List Bytes} {cache : PageStateCache} (hTyped : effect.Typed)
    (hValid : effect.validate = .ok ()) (hCache : PageStateCache.fromPages pageSize pages = .ok cache)
    (hBase : cache.identity = .ok effect.baseState) :
    effect.validateExact = .ok () ∧
      ∃ hashed state,
        cache.validateAndHash effect.targetState.pageCount effect.pages = .ok hashed ∧
        cache.validateAndHashExact effect.targetState.pageCount effect.pages = .ok hashed ∧
        cache.overlay effect.targetState.pageCount effect.pages = .ok state := by
  obtain ⟨rfl, hHolds⟩ := PageStateCache.holds_of_fromPages hCache
  have hState := hHolds.identity_eq
  rw [hBase] at hState
  injection hState with hState
  have hSize : effect.baseState.pageSize = cache.pageSize := by rw [hState]; rfl
  have hCount : effect.baseState.pageCount = cache.pageCount := by rw [hState]; rfl
  obtain ⟨hSame, hSome, hOrdered, hGrowth⟩ := effect.pages_of_validate hValid
  rw [← hSame, hSize] at hOrdered
  rw [hCount] at hGrowth
  have hTarget : effect.targetState.pageCount ≤ u32Max := Nat.le_of_lt_succ hTyped.target
  have hAccepted : cache.validateAndHash effect.targetState.pageCount effect.pages =
      .ok (effect.pages.map QwalPage.hashed) := by
    rw [PageStateCache.validateAndHash, require_of hSome, ok_bind,
      PageStateCache.hashPatches_ok hOrdered fun page hPage => hOrdered.pos page hPage, ok_bind]
    by_cases hGrows : cache.pageCount < effect.targetState.pageCount
    · have hSupplied := hGrowth hGrows
      simp only [if_pos hGrows]
      rw [require_of hSupplied, ok_bind]
      have hSuffix : checkNewSuffix cache.pageCount 0 (effect.pages.drop
          (partitionPoint (fun page => page.pageNo ≤ cache.pageCount) effect.pages)) = .ok () := by
        refine checkNewSuffix_of_full (hOrdered.sorted.sublist (List.drop_sublist _ _))
          (fun page hPage => ⟨?_, ?_⟩) (by rw [List.length_drop, hSupplied]; omega) hTarget
        · exact mem_drop_partitionPoint hOrdered.sorted hPage
        · exact hOrdered.within page (List.mem_of_mem_drop hPage)
      rw [hSuffix]
      rfl
    · simp only [if_neg hGrows]
      rfl
  have hOverlay := hHolds.overlayHashed_ok hAccepted (hOrdered.overlaid_patchPages pages)
  have hLook : cache.overlay effect.targetState.pageCount effect.pages =
      cache.overlayHashed effect.targetState.pageCount (effect.pages.map QwalPage.hashed) := by
    rw [PageStateCache.overlay, hAccepted, ok_bind]
  exact ⟨(effect.validateExact_eq hTyped).trans hValid, _, _, hAccepted,
    (PageStateCache.validateAndHashExact_eq hTyped.target).trans hAccepted, hLook.trans hOverlay⟩

namespace Sample

attribute [local instance] Sha256.rolling json

/-- Whether the prepared envelope passes its check, with its numbers in their types. -/
def passes : Bool :=
  match cache with
  | .error _ => false
  | .ok cache =>
    match prepareQwalEffect cache context base capture with
    | .error _ => false
    | .ok (effect, _) =>
      effect.validate = .ok () && cache.identity = .ok effect.baseState &&
        effect.baseState.pageCount < u32Bound && effect.targetState.pageCount < u32Bound &&
        effect.pages.all (·.pageNo < u32Bound)

theorem growth_is_accepted :
    ∃ cache effect target, PageStateCache.fromPages 512 (Paged.chunksExact 512 base) = .ok cache ∧
      prepareQwalEffect cache context base capture = .ok (effect, target) ∧
      effect.validateExact = .ok () ∧
      ∃ hashed state,
        cache.validateAndHash effect.targetState.pageCount effect.pages = .ok hashed ∧
        cache.validateAndHashExact effect.targetState.pageCount effect.pages = .ok hashed ∧
        cache.overlay effect.targetState.pageCount effect.pages = .ok state := by
  have hPasses : passes = true := by decide +kernel
  unfold passes Sample.cache at hPasses
  split at hPasses
  · cases hPasses
  rename_i cache hCache
  split at hPasses
  · cases hPasses
  rename_i effect target hPrepare
  simp only [Bool.and_eq_true, decide_eq_true_eq, List.all_eq_true] at hPasses
  obtain ⟨⟨⟨⟨hValid, hBase⟩, hFew⟩, hTarget⟩, hPages⟩ := hPasses
  exact ⟨cache, effect, target, hCache, hPrepare,
    envelope_pages_are_accepted ⟨hFew, hTarget, hPages⟩ hValid hCache hBase⟩

end Sample

end Rhiza.Sql
