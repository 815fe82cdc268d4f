import Mathlib.Data.List.Dedup
import Mathlib.Data.List.Sort
import Mathlib.Data.String.Basic
import Rhiza.Core.Hash
import Rhiza.Library.Reader

/-! # Configuration changes of `rhiza-core`

A configuration change travels as the payload of an ordinary log entry. A stop
may name its successor; the barrier that activates the successor then names the
stop. Readers below consume the payload from the front where the source moves a
cursor.
-/

namespace Rhiza.Core

open Library

/-- What `canonical_membership_digest` demands of a member list. -/
structure CanonicalMembers (members : List NodeId) : Prop where
  atLeast : 3 ≤ members.length
  atMost : members.length ≤ 7
  named : ∀ m ∈ members, m ≠ ""
  bounded : ∀ m ∈ members, (utf8 m).length ≤ 65535
  increasing : members.IsChain (· < ·)

instance (members : List NodeId) : Decidable (CanonicalMembers members) :=
  decidable_of_iff (3 ≤ members.length ∧ members.length ≤ 7 ∧ (∀ m ∈ members, m ≠ "") ∧
      (∀ m ∈ members, (utf8 m).length ≤ 65535) ∧ members.IsChain (· < ·))
    ⟨fun ⟨h₁, h₂, h₃, h₄, h₅⟩ => ⟨h₁, h₂, h₃, h₄, h₅⟩,
      fun h => ⟨h.atLeast, h.atMost, h.named, h.bounded, h.increasing⟩⟩

/-- `SuccessorDescriptor`. Its digest field is always the digest of its members
and is computed from them below. -/
structure SuccessorDescriptor where
  clusterId : ClusterId
  predecessorConfigId : Nat
  predecessorConfigDigest : LogHash
  configId : Nat
  members : List NodeId
  clusterNamed : clusterId ≠ ""
  clusterBounded : (utf8 clusterId).length ≤ 65535
  next : checkedSucc predecessorConfigId = some configId
  canonical : CanonicalMembers members
  deriving DecidableEq

inductive ConfigChange
  | stop (configId : Nat) (configDigest : LogHash)
  | activationBarrier (configId : Nat) (configDigest : LogHash) (stopSlot : Nat)
      (prefixHash : LogHash)
  | boundStop (successor : SuccessorDescriptor)
  | boundActivationBarrier (successor : SuccessorDescriptor) (stopSlot : Nat)
      (prefixHash stopCommandHash : LogHash)
  deriving DecidableEq

def SuccessorDescriptor.new (clusterId : ClusterId) (predecessorConfigId : Nat)
    (predecessorConfigDigest : LogHash) (configId : Nat) (members : List NodeId) :
    Option SuccessorDescriptor :=
  let canonical := (members.insertionSort (· ≤ ·)).dedup
  if hNamed : clusterId ≠ "" then
    if hBounded : (utf8 clusterId).length ≤ 65535 then
      if hNext : checkedSucc predecessorConfigId = some configId then
        if canonical.length = members.length then
          if hCanonical : CanonicalMembers canonical then
            some ⟨clusterId, predecessorConfigId, predecessorConfigDigest, configId, canonical,
              hNamed, hBounded, hNext, hCanonical⟩
          else none
        else none
      else none
    else none
  else none

namespace ConfigChange

/-- `ConfigChange::bound_stop`. -/
def newBoundStop (clusterId : ClusterId) (predecessorConfigId : Nat)
    (predecessorConfigDigest : LogHash) (successorConfigId : Nat)
    (successorMembers : List NodeId) : Option ConfigChange :=
  (SuccessorDescriptor.new clusterId predecessorConfigId predecessorConfigDigest
    successorConfigId successorMembers).map boundStop

def successor? : ConfigChange → Option SuccessorDescriptor
  | boundStop successor => some successor
  | boundActivationBarrier successor _ _ _ => some successor
  | _ => none

def isStop : ConfigChange → Bool
  | stop .. => true
  | boundStop .. => true
  | _ => false

def isBarrier : ConfigChange → Bool
  | activationBarrier .. => true
  | boundActivationBarrier .. => true
  | _ => false

end ConfigChange

def configChangeMagic : Bytes := utf8 "QCFG"
def configChangeVersion : Nat := 1
def boundConfigChangeVersion : Nat := 2

section Codec

variable [Sha256]

def membershipDigest (members : List NodeId) : LogHash :=
  LogHash.digest [utf8 "QMEM" ++ [0, 1] ++ toBeBytes 8 members.length ++
    members.flatMap fun member => toBeBytes 8 (utf8 member).length ++ utf8 member]

def SuccessorDescriptor.digest (successor : SuccessorDescriptor) : LogHash :=
  membershipDigest successor.members

def ConfigChange.binding : ConfigChange → Nat × LogHash
  | .stop configId configDigest => (configId, configDigest)
  | .activationBarrier configId configDigest _ _ => (configId, configDigest)
  | .boundStop successor => (successor.predecessorConfigId, successor.predecessorConfigDigest)
  | .boundActivationBarrier successor _ _ _ => (successor.configId, successor.digest)

def encodeString (s : String) : Bytes := toBeBytes 2 (utf8 s).length ++ utf8 s

def encodeSuccessor (successor : SuccessorDescriptor) : Bytes :=
  encodeString successor.clusterId ++ toBeBytes 8 successor.predecessorConfigId ++
    successor.predecessorConfigDigest.bytes ++ toBeBytes 8 successor.configId ++
    successor.digest.bytes ++ toBeBytes 1 successor.members.length ++
    successor.members.flatMap encodeString

def ConfigChange.toStoredCommand (change : ConfigChange) : StoredCommand where
  entryType := .configChange
  payload := match change with
    | .stop configId configDigest =>
      configChangeMagic ++ toBeBytes 2 configChangeVersion ++ [1] ++ toBeBytes 8 configId ++
        configDigest.bytes
    | .activationBarrier configId configDigest stopSlot prefixHash =>
      configChangeMagic ++ toBeBytes 2 configChangeVersion ++ [2] ++ toBeBytes 8 configId ++
        configDigest.bytes ++ toBeBytes 8 stopSlot ++ prefixHash.bytes
    | .boundStop successor =>
      configChangeMagic ++ toBeBytes 2 boundConfigChangeVersion ++ [1] ++
        encodeSuccessor successor
    | .boundActivationBarrier successor stopSlot prefixHash stopCommandHash =>
      configChangeMagic ++ toBeBytes 2 boundConfigChangeVersion ++ [2] ++
        encodeSuccessor successor ++ toBeBytes 8 stopSlot ++ prefixHash.bytes ++
        stopCommandHash.bytes

def readUint (width : Nat) (input : Bytes) : Option (Nat × Bytes) :=
  (takeExactly width input).map fun (bytes, rest) => (fromBeBytes bytes, rest)

def readHash (input : Bytes) : Option (LogHash × Bytes) :=
  match h : takeExactly 32 input with
  | some (bytes, rest) => some (⟨bytes, (takeExactly_eq_some h).2⟩, rest)
  | none => none

def readString (input : Bytes) : Option (String × Bytes) := do
  let (length, rest) ← readUint 2 input
  let (bytes, rest) ← takeExactly length rest
  let text ← String.fromUTF8? ⟨bytes.toArray⟩
  pure (text, rest)

def decodeSuccessor (input : Bytes) : Option (SuccessorDescriptor × Bytes) := do
  let (clusterId, rest) ← readString input
  let (predecessorConfigId, rest) ← readUint 8 rest
  let (predecessorConfigDigest, rest) ← readHash rest
  let (configId, rest) ← readUint 8 rest
  let (encodedDigest, rest) ← readHash rest
  let (count, rest) ← readUint 1 rest
  if 3 ≤ count ∧ count ≤ 7 then
    let (members, rest) ← readMany readString count rest
    if members.IsChain (· < ·) then
      let successor ← SuccessorDescriptor.new clusterId predecessorConfigId
        predecessorConfigDigest configId members
      if successor.digest = encodedDigest then pure (successor, rest) else none
    else none
  else none

/-- The part of `recognize_parts` after the version, for bound changes. -/
def recognizeBound (input : Bytes) : Option ConfigChange := do
  let (kind, rest) ← readUint 1 input
  let (successor, rest) ← decodeSuccessor rest
  if kind = 1 then
    if rest = [] then pure (.boundStop successor) else none
  else if kind = 2 then
    let (stopSlot, rest) ← readUint 8 rest
    let (prefixHash, rest) ← readHash rest
    let (stopCommandHash, rest) ← readHash rest
    if rest = [] then pure (.boundActivationBarrier successor stopSlot prefixHash stopCommandHash)
    else none
  else none

/-- The part of `recognize_parts` after the version, for unbound changes. -/
def recognizeUnbound (input : Bytes) : Option ConfigChange := do
  let (kind, rest) ← readUint 1 input
  let (configId, rest) ← readUint 8 rest
  let (configDigest, rest) ← readHash rest
  if kind = 1 then
    if rest = [] then pure (.stop configId configDigest) else none
  else if kind = 2 then
    let (stopSlot, rest) ← readUint 8 rest
    let (prefixHash, rest) ← readHash rest
    if rest = [] then pure (.activationBarrier configId configDigest stopSlot prefixHash) else none
  else none

def ConfigChange.recognizeParts (entryType : EntryType) (payload : Bytes) : Option ConfigChange :=
  if entryType = .configChange then do
    let (magic, rest) ← takeExactly 4 payload
    if magic = configChangeMagic then
      let (version, rest) ← readUint 2 rest
      if version = boundConfigChangeVersion then recognizeBound rest
      else if version = configChangeVersion then recognizeUnbound rest
      else none
    else none
  else none

def ConfigChange.recognize (command : StoredCommand) : Option ConfigChange :=
  recognizeParts command.entryType command.payload

end Codec

theorem CanonicalMembers.sorted {members : List NodeId} (h : CanonicalMembers members) :
    (members.insertionSort (· ≤ ·)).dedup = members := by
  have hPairwise := List.isChain_iff_pairwise.mp h.increasing
  rw [(hPairwise.imp fun hlt => le_of_lt hlt).insertionSort_eq]
  exact List.dedup_eq_self.mpr (hPairwise.imp fun hlt => ne_of_lt hlt)

theorem SuccessorDescriptor.new_self (successor : SuccessorDescriptor) :
    SuccessorDescriptor.new successor.clusterId successor.predecessorConfigId
      successor.predecessorConfigDigest successor.configId successor.members = some successor := by
  have hSorted := successor.canonical.sorted
  simp only [SuccessorDescriptor.new, hSorted, successor.clusterNamed, successor.clusterBounded,
    successor.next, successor.canonical, ne_eq, not_false_eq_true, dite_true, if_true]

theorem SuccessorDescriptor.new_eq_some {clusterId : ClusterId} {predecessorConfigId : Nat}
    {predecessorConfigDigest : LogHash} {configId : Nat} {members : List NodeId}
    {successor : SuccessorDescriptor} (hCanonical : CanonicalMembers members)
    (h : SuccessorDescriptor.new clusterId predecessorConfigId predecessorConfigDigest configId
      members = some successor) : successor.members = members := by
  simp only [SuccessorDescriptor.new, hCanonical.sorted, hCanonical, dite_true, if_true] at h
  split at h
  · split at h
    · split at h
      · obtain rfl := Option.some.inj h
        rfl
      · cases h
    · cases h
  · cases h

section RoundTrip

variable [Sha256] (rest : Bytes)

omit [Sha256] in
theorem readUint_append {width n : Nat} (h : n < 256 ^ width) :
    readUint width (toBeBytes width n ++ rest) = some (n, rest) := by
  simp only [readUint, takeExactly_append (toBeBytes_length width n), Option.map_some,
    fromBeBytes_toBeBytes width n h]

omit [Sha256] in
theorem readHash_append (hash : LogHash) : readHash (hash.bytes ++ rest) = some (hash, rest) := by
  have hTake : takeExactly 32 (hash.bytes ++ rest) = some (hash.bytes, rest) :=
    takeExactly_append hash.size
  unfold readHash
  split
  · rename_i bytes rest' h
    obtain ⟨rfl, rfl⟩ := Prod.mk.inj (Option.some.inj (hTake.symm.trans h))
    rfl
  · rename_i h
    cases hTake.symm.trans h

omit [Sha256] in
theorem fromUtf8_utf8 (text : String) : String.fromUTF8? ⟨(utf8 text).toArray⟩ = some text := by
  have hBytes : (⟨(utf8 text).toArray⟩ : ByteArray) = text.toUTF8 := by
    apply ByteArray.ext
    exact Array.toArray_toList
  rw [hBytes, String.fromUTF8?]
  exact dif_pos text.isValidUTF8

omit [Sha256] in
theorem utf8_of_fromUtf8 {bytes : Bytes} {text : String}
    (h : String.fromUTF8? ⟨bytes.toArray⟩ = some text) : utf8 text = bytes := by
  unfold String.fromUTF8? at h
  split at h
  · cases h
    rfl
  · cases h

omit [Sha256] in
theorem readString_append {text : String} (h : (utf8 text).length ≤ 65535) :
    readString (encodeString text ++ rest) = some (text, rest) := by
  rw [encodeString, List.append_assoc, readString,
    readUint_append _ (show (utf8 text).length < 256 ^ 2 by omega)]
  simp only [Option.bind_eq_bind, Option.bind_some, takeExactly_append (rfl : _ = (utf8 text).length),
    fromUtf8_utf8]
  rfl

theorem decodeSuccessor_append (successor : SuccessorDescriptor) :
    decodeSuccessor (encodeSuccessor successor ++ rest) = some (successor, rest) := by
  have hConfig := checkedSucc_eq_some successor.next
  have hBound : successor.predecessorConfigId + 1 < 2 ^ 64 := by
    have hNext := successor.next
    unfold checkedSucc at hNext
    split at hNext
    · assumption
    · cases hNext
  have hLow := successor.canonical.atLeast
  have hHigh := successor.canonical.atMost
  have hString : ∀ m ∈ successor.members, ∀ rest,
      readString (encodeString m ++ rest) = some (m, rest) :=
    fun m hm rest => readString_append rest (successor.canonical.bounded m hm)
  have hMembers := readMany_flatMap hString rest
  simp only [encodeSuccessor, List.append_assoc, decodeSuccessor,
    readString_append _ successor.clusterBounded, readHash_append, Option.bind_eq_bind,
    Option.bind_some, readUint_append _ (show successor.predecessorConfigId < 256 ^ 8 by omega),
    readUint_append _ (show successor.configId < 256 ^ 8 by omega),
    readUint_append _ (show successor.members.length < 256 ^ 1 by omega), hMembers,
    successor.canonical.increasing, SuccessorDescriptor.new_self, if_true,
    show (3 ≤ successor.members.length ∧ successor.members.length ≤ 7) from ⟨hLow, hHigh⟩]
  rfl

theorem ConfigChange.recognize_boundStop (successor : SuccessorDescriptor) :
    recognize (boundStop successor).toStoredCommand = some (.boundStop successor) := by
  have hMagic : configChangeMagic.length = 4 := by decide
  have hSuccessor := decodeSuccessor_append [] successor
  rw [List.append_nil] at hSuccessor
  simp only [recognize, toStoredCommand, recognizeParts, if_true, List.append_assoc,
    takeExactly_append hMagic, Option.bind_eq_bind, Option.bind_some,
    readUint_append _ (show boundConfigChangeVersion < 256 ^ 2 by decide)]
  rw [recognizeBound, show ([1] : Bytes) = toBeBytes 1 1 by decide,
    readUint_append _ (by decide : 1 < 256 ^ 1)]
  simp only [Option.bind_eq_bind, Option.bind_some, hSuccessor, if_true]
  rfl

theorem ConfigChange.boundStop_injective {successor successor' : SuccessorDescriptor}
    (h : (boundStop successor).toStoredCommand = (boundStop successor').toStoredCommand) :
    successor = successor' := by
  have hSame := congrArg recognize h
  rw [recognize_boundStop, recognize_boundStop] at hSame
  exact ConfigChange.boundStop.inj (Option.some.inj hSame)

end RoundTrip

end Rhiza.Core
