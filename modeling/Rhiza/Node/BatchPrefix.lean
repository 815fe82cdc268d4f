import Rhiza.Node.ProfileBatch

/-! # The largest prefix of a batch that fits

A batch that is too large for one entry is cut. Both searches for the cut expect every
prefix of the batch to be encoded; a failed expectation panics, as an index or a
subtraction out of range does, and then there is no outcome.
-/

namespace Rhiza.Node

open Core Library

section Searches

variable {C E : Type} (encode : List C → Except E Bytes) (commands : List C)

def expectPrefix (count : Nat) : Option Bytes :=
  if count ≤ commands.length then (encode (commands.take count)).toOption else none

/-- The loop of `largest_fitting_kv_batch_prefix`. -/
def bisectPrefix (lower upper : Nat) (largest : Option (Nat × Bytes)) :
    Option (Option (Nat × Bytes)) :=
  if lower ≤ upper then
    let count := lower + (upper - lower) / 2
    match expectPrefix encode commands count with
    | none => none
    | some payload =>
      if payload.length ≤ maxCommandBytes then bisectPrefix (count + 1) upper (some (count, payload))
      else if count = 0 then none
      else bisectPrefix lower (count - 1) largest
  else some largest
termination_by upper + 1 - lower
decreasing_by all_goals omega

/-- `largest_fitting_kv_batch_prefix`. -/
def bisectLargestPrefix : Option (Option (Nat × Bytes)) :=
  if commands.length < 3 then some none
  else bisectPrefix encode commands 2 (commands.length - 1) none

/-- The loop over the counts in `execute_graph_client_batch`. -/
def firstFittingPrefix : List Nat → Option (Option (Nat × Bytes))
  | [] => some none
  | count :: counts =>
    match expectPrefix encode commands count with
    | none => none
    | some payload =>
      if payload.length ≤ maxCommandBytes then some (some (count, payload))
      else firstFittingPrefix counts

def descendToLargestPrefix : Option (Option (Nat × Bytes)) :=
  firstFittingPrefix encode commands (List.range' 2 (commands.length - 2)).reverse

structure FittingPrefix (count : Nat) (payload : Bytes) : Prop where
  atLeast : 2 ≤ count
  proper : count < commands.length
  encoded : encode (commands.take count) = .ok payload
  fits : payload.length ≤ maxCommandBytes

structure LargestPrefix (count : Nat) (payload : Bytes) : Prop
    extends FittingPrefix encode commands count payload where
  largest : ∀ other bytes, FittingPrefix encode commands other bytes → other ≤ count

structure Prefixed : Prop where
  encodes : ∀ count, 2 ≤ count → count < commands.length →
    ∃ payload, encode (commands.take count) = .ok payload
  grows : ∀ count longer bytes payload, count ≤ longer → longer < commands.length →
    encode (commands.take count) = .ok bytes → encode (commands.take longer) = .ok payload →
    bytes.length ≤ payload.length

def FindsLargest (result : Option (Nat × Bytes)) : Prop :=
  (∀ count payload, result = some (count, payload) ↔ LargestPrefix encode commands count payload) ∧
    (result = none ↔ ∀ count payload, ¬ FittingPrefix encode commands count payload)

variable {encode commands}

theorem Prefixed.expect (h : Prefixed encode commands) {count : Nat} (hTwo : 2 ≤ count)
    (hProper : count < commands.length) : ∃ payload,
      encode (commands.take count) = .ok payload ∧
        expectPrefix encode commands count = some payload := by
  obtain ⟨payload, hEncode⟩ := h.encodes count hTwo hProper
  refine ⟨payload, hEncode, ?_⟩
  rw [expectPrefix, if_pos hProper.le, hEncode]
  rfl

theorem LargestPrefix.unique {count other : Nat} {payload bytes : Bytes}
    (h : LargestPrefix encode commands count payload)
    (h' : LargestPrefix encode commands other bytes) : count = other ∧ payload = bytes := by
  obtain rfl := Nat.le_antisymm (h'.largest count payload h.toFittingPrefix)
    (h.largest other bytes h'.toFittingPrefix)
  exact ⟨rfl, Except.ok.inj (h.encoded.symm.trans h'.encoded)⟩

theorem LargestPrefix.finds {count : Nat} {payload : Bytes}
    (h : LargestPrefix encode commands count payload) :
    FindsLargest encode commands (some (count, payload)) := by
  refine ⟨fun other bytes => ⟨fun hSame => ?_, fun hOther => ?_⟩, fun hNone => ?_, fun hNone => ?_⟩
  · cases hSame
    exact h
  · obtain ⟨rfl, rfl⟩ := h.unique hOther
    rfl
  · cases hNone
  · exact absurd h.toFittingPrefix (hNone count payload)

theorem findsLargest_none (h : ∀ count payload, ¬ FittingPrefix encode commands count payload) :
    FindsLargest encode commands none := by
  refine ⟨fun count payload => ⟨nofun, fun hLargest => ?_⟩, fun _ => h, fun _ => rfl⟩
  exact absurd hLargest.toFittingPrefix (h count payload)

structure Window (encode : List C → Except E Bytes) (commands : List C) (lower upper : Nat)
    (largest : Option (Nat × Bytes)) : Prop where
  lowest : 2 ≤ lower
  highest : upper < commands.length
  above : ∀ count payload, FittingPrefix encode commands count payload → count ≤ upper
  none : largest = none → lower = 2
  some : ∀ count payload, largest = some (count, payload) →
    FittingPrefix encode commands count payload ∧ lower = count + 1

theorem bisectPrefix_finds (hPrefixed : Prefixed encode commands) {lower upper : Nat}
    {largest : Option (Nat × Bytes)} (h : Window encode commands lower upper largest) :
    ∃ result, bisectPrefix encode commands lower upper largest = some result ∧
      FindsLargest encode commands result := by
  have hLowest := h.lowest
  have hHighest := h.highest
  fun_induction bisectPrefix encode commands lower upper largest with
  | case1 lower upper largest hOrder count hExpect =>
    have hCount : count = lower + (upper - lower) / 2 := rfl
    have hTwo : 2 ≤ count := by omega
    obtain ⟨payload, -, hFound⟩ := hPrefixed.expect hTwo (by omega)
    rw [hFound] at hExpect
    cases hExpect
  | case2 lower upper largest hOrder count payload hExpect hFits ih =>
    have hCount : count = lower + (upper - lower) / 2 := rfl
    have hTwo : 2 ≤ count := by omega
    obtain ⟨bytes, hEncode, hFound⟩ := hPrefixed.expect hTwo (by omega)
    obtain rfl := Option.some.inj (hFound.symm.trans hExpect)
    refine ih ⟨by omega, hHighest, h.above, nofun, ?_⟩ (by omega) hHighest
    intro other payload hSame
    cases hSame
    exact ⟨⟨hTwo, by omega, hEncode, hFits⟩, rfl⟩
  | case3 lower upper largest hOrder count payload hExpect hTooLong hZero =>
    have hCount : count = lower + (upper - lower) / 2 := rfl
    omega
  | case4 lower upper largest hOrder count payload hExpect hTooLong hPositive ih =>
    have hCount : count = lower + (upper - lower) / 2 := rfl
    have hTwo : 2 ≤ count := by omega
    obtain ⟨bytes, hEncode, hFound⟩ := hPrefixed.expect hTwo (by omega)
    obtain rfl := Option.some.inj (hFound.symm.trans hExpect)
    refine ih ⟨hLowest, by omega, ?_, h.none, h.some⟩ hLowest (by omega)
    intro other payload hOther
    -- a longer prefix is not shorter in bytes
    by_contra hAbove
    have hLength := hPrefixed.grows count other bytes payload (by omega) hOther.proper hEncode
      hOther.encoded
    exact hTooLong (hLength.trans hOther.fits)
  | case5 lower upper largest hOrder =>
    refine ⟨largest, rfl, ?_⟩
    cases largest with
    | none =>
      have hTwo := h.none rfl
      refine findsLargest_none fun count payload hFitting => ?_
      have hAbove := h.above count payload hFitting
      have hAtLeast := hFitting.atLeast
      omega
    | some found =>
      obtain ⟨hFitting, hNext⟩ := h.some found.1 found.2 rfl
      refine LargestPrefix.finds ⟨hFitting, fun other bytes hOther => ?_⟩
      have hAbove := h.above other bytes hOther
      omega

theorem bisectLargestPrefix_finds (hPrefixed : Prefixed encode commands)
    (hThree : 3 ≤ commands.length) : ∃ result,
      bisectLargestPrefix encode commands = some result ∧ FindsLargest encode commands result := by
  rw [bisectLargestPrefix, if_neg (by omega)]
  refine bisectPrefix_finds hPrefixed ⟨Nat.le_refl 2, by omega, fun count payload hFitting => ?_,
    fun _ => rfl, nofun⟩
  have hProper := hFitting.proper
  omega

theorem firstFittingPrefix_finds (hPrefixed : Prefixed encode commands) {n : Nat}
    (hProper : n + 2 ≤ commands.length)
    (hAbove : ∀ count payload, FittingPrefix encode commands count payload → count < n + 2) :
    ∃ result, firstFittingPrefix encode commands (List.range' 2 n).reverse = some result ∧
      FindsLargest encode commands result := by
  induction n with
  | zero =>
    refine ⟨none, rfl, findsLargest_none fun count payload hFitting => ?_⟩
    have hBelow := hAbove count payload hFitting
    have hAtLeast := hFitting.atLeast
    omega
  | succ n ih =>
    obtain ⟨payload, hEncode, hExpect⟩ := hPrefixed.expect (show 2 ≤ 2 + n by omega) (by omega)
    rw [List.range'_1_concat, List.reverse_concat, firstFittingPrefix, hExpect]
    dsimp only
    split
    · rename_i hFits
      refine ⟨_, rfl, LargestPrefix.finds ⟨⟨by omega, by omega, hEncode, hFits⟩, ?_⟩⟩
      intro other bytes hOther
      have hBelow := hAbove other bytes hOther
      omega
    · rename_i hTooLong
      refine ih (by omega) fun count bytes hFitting => ?_
      have hBelow := hAbove count bytes hFitting
      by_contra hNot
      obtain rfl : count = 2 + n := by omega
      obtain rfl := Except.ok.inj (hFitting.encoded.symm.trans hEncode)
      exact hTooLong hFitting.fits

theorem descendToLargestPrefix_finds (hPrefixed : Prefixed encode commands)
    (hThree : 3 ≤ commands.length) : ∃ result,
      descendToLargestPrefix encode commands = some result ∧
        FindsLargest encode commands result := by
  refine firstFittingPrefix_finds hPrefixed (by omega) fun count payload hFitting => ?_
  have hProper := hFitting.proper
  omega

theorem FindsLargest.unique {result result' : Option (Nat × Bytes)}
    (h : FindsLargest encode commands result) (h' : FindsLargest encode commands result') :
    result = result' := by
  cases result with
  | none => exact (h'.2.mpr (h.2.mp rfl)).symm
  | some found => exact ((h'.1 found.1 found.2).mpr ((h.1 found.1 found.2).mp rfl)).symm

end Searches

theorem encoded_of_expect {C E : Type} {encode : List C → Except E Bytes} {commands : List C}
    {count : Nat} {payload : Bytes} (h : expectPrefix encode commands count = some payload) :
    encode (commands.take count) = .ok payload := by
  unfold expectPrefix at h
  split at h
  · exact ok_of_toOption h
  · cases h

section Kv

variable {commands : List Kv.KvCommandV1} {full : Bytes}

theorem batchable_take {seen : List String} (h : Kv.Batchable seen commands) (count : Nat) :
    Kv.Batchable seen (commands.take count) where
  valid command hMem := h.valid command (List.mem_of_mem_take hMem)
  length command hMem := h.length command (List.mem_of_mem_take hMem)
  new command hMem := h.new command (List.mem_of_mem_take hMem)
  distinct := by
    rw [List.map_take]
    exact h.distinct.sublist (List.take_sublist ..)

theorem flatMap_take_length (commands : List Kv.KvCommandV1) {count longer : Nat} (h : count ≤ longer) :
    ((commands.take count).flatMap Kv.memberBytes).length ≤
      ((commands.take longer).flatMap Kv.memberBytes).length := by
  have hPrefix : commands.take count <+: commands.take longer := List.take_prefix_take_left h
  obtain ⟨rest, hRest⟩ := hPrefix
  rw [← hRest, List.flatMap_append, List.length_append]
  exact Nat.le_add_right _ _

theorem kv_prefixed (h : Kv.encodeReplicatedKvBatch commands = .ok full) :
    Prefixed Kv.encodeReplicatedKvBatch commands := by
  obtain ⟨⟨-, hFew⟩, hBatchable, hEnvelope⟩ := Kv.encodeReplicatedKvBatch_eq_ok.mp h
  constructor
  · intro count hTwo hProper
    have hLength : (commands.take count).length = count := List.length_take_of_le hProper.le
    have hSome : commands.take count ≠ [] := by
      rw [← List.length_pos_iff, hLength]
      omega
    obtain ⟨hFields, -⟩ := Kv.encodeEnvelope_iff.mp hEnvelope
    refine ⟨_, Kv.encodeReplicatedKvBatch_eq_ok.mpr ⟨⟨hSome, by omega⟩, batchable_take hBatchable _,
      Kv.encodeEnvelope_iff.mpr ⟨?_, rfl⟩⟩⟩
    -- the body is no longer than that of the whole batch
    simp only [validateCommandEnvelopeFields, unit_bind_ok_iff, ensure_ok_iff] at hFields ⊢
    obtain ⟨hVersion, hNamed, hName, hBody⟩ := hFields
    have hShorter := flatMap_take_length commands hProper.le
    rw [List.take_length] at hShorter
    simp only [List.length_append, toBeBytes_length] at hBody ⊢
    exact ⟨hVersion, hNamed, hName, by omega⟩
  · intro count longer bytes payload hLe hProper hBytes hPayload
    obtain ⟨-, -, hEncoded⟩ := Kv.encodeReplicatedKvBatch_eq_ok.mp hBytes
    obtain ⟨-, -, hEncoded'⟩ := Kv.encodeReplicatedKvBatch_eq_ok.mp hPayload
    obtain ⟨-, rfl⟩ := Kv.encodeEnvelope_iff.mp hEncoded
    obtain ⟨-, rfl⟩ := Kv.encodeEnvelope_iff.mp hEncoded'
    have hShorter := flatMap_take_length commands hLe
    simp only [ReplicatedCommandEnvelope.layout_length, List.length_append, toBeBytes_length]
    omega

theorem searchKvPrefix_eq {lower upper : Nat} {hLower : 0 < lower}
    {largest result : Option (Nat × Bytes)}
    (h : bisectPrefix Kv.encodeReplicatedKvBatch commands lower upper largest = some result) :
    searchKvPrefix commands lower upper hLower largest = result := by
  fun_induction bisectPrefix Kv.encodeReplicatedKvBatch commands lower upper largest with
  | case1 => cases h
  | case2 lower upper largest hOrder count payload hExpect hFits =>
    rename_i ih
    have hEncode := encoded_of_expect hExpect
    rw [searchKvPrefix, if_pos hOrder]
    dsimp only
    rw [hEncode]
    dsimp only
    rw [if_pos hFits]
    exact ih h
  | case3 => cases h
  | case4 lower upper largest hOrder count payload hExpect hTooLong hPositive =>
    rename_i ih
    have hEncode := encoded_of_expect hExpect
    rw [searchKvPrefix, if_pos hOrder]
    dsimp only
    rw [hEncode]
    dsimp only
    rw [if_neg hTooLong]
    exact ih h
  | case5 lower upper largest hOrder =>
    obtain rfl := Option.some.inj h
    rw [searchKvPrefix, if_neg hOrder]

theorem largestFittingKvBatchPrefix_eq {result : Option (Nat × Bytes)}
    (h : bisectLargestPrefix Kv.encodeReplicatedKvBatch commands = some result) :
    largestFittingKvBatchPrefix commands = result := by
  rw [bisectLargestPrefix] at h
  rw [largestFittingKvBatchPrefix]
  split at h
  · rename_i hFew
    obtain rfl := Option.some.inj h
    exact if_pos hFew
  · rename_i hThree
    rw [if_neg hThree]
    exact searchKvPrefix_eq h

/-- On three commands or more that a batch can hold, the binary search ends without a panic and
finds the largest proper prefix that fits. The search from the longest prefix downwards finds the
same one, and the write path uses it. -/
theorem largest_kv_prefix_is_found (hThree : 3 ≤ commands.length)
    (h : Kv.encodeReplicatedKvBatch commands = .ok full) : ∃ result,
      bisectLargestPrefix Kv.encodeReplicatedKvBatch commands = some result ∧
      FindsLargest Kv.encodeReplicatedKvBatch commands result ∧
      descendToLargestPrefix Kv.encodeReplicatedKvBatch commands = some result ∧
      largestFittingKvBatchPrefix commands = result := by
  have hPrefixed := kv_prefixed h
  obtain ⟨result, hBisect, hFinds⟩ := bisectLargestPrefix_finds hPrefixed hThree
  obtain ⟨result', hDescend, hFinds'⟩ := descendToLargestPrefix_finds hPrefixed hThree
  obtain rfl := hFinds.unique hFinds'
  exact ⟨result, hBisect, hFinds, hDescend, largestFittingKvBatchPrefix_eq hBisect⟩

end Kv

namespace Three

def commands : List Kv.KvCommandV1 := [⟨"a", .delete [1]⟩, ⟨"b", .delete [1]⟩, ⟨"c", .delete [1]⟩]

/-- Of three deletions two are found. -/
theorem two_are_found : ∃ payload,
    bisectLargestPrefix Kv.encodeReplicatedKvBatch commands = some (some (2, payload)) ∧
      largestFittingKvBatchPrefix commands = some (2, payload) := by
  have hAll : (Kv.encodeReplicatedKvBatch commands).toOption.isSome := by decide +kernel
  have hTwo : ((Kv.encodeReplicatedKvBatch (commands.take 2)).toOption.any fun payload =>
      payload.length ≤ maxCommandBytes) = true := by decide +kernel
  obtain ⟨full, hFull⟩ := Option.isSome_iff_exists.mp hAll
  obtain ⟨payload, hPayload, hFits⟩ := (Option.any_eq_true _ _).mp hTwo
  obtain ⟨result, hBisect, hFinds, -, hSame⟩ :=
    largest_kv_prefix_is_found (by decide) (ok_of_toOption hFull)
  have hLargest : LargestPrefix Kv.encodeReplicatedKvBatch commands 2 payload :=
    ⟨⟨by decide, by decide, ok_of_toOption hPayload, of_decide_eq_true hFits⟩,
      fun other bytes hOther => Nat.le_of_lt_succ hOther.proper⟩
  obtain rfl := (hFinds.1 2 payload).mpr hLargest
  exact ⟨payload, hBisect, hSame⟩

end Three

end Rhiza.Node
