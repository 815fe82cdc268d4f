import Mathlib.Data.List.Basic
import Mathlib.Tactic.Ring

/-! # Hashes, commands and log entries of `rhiza-core`

Integers of the source are natural numbers; where a wrap or a checked addition
matters the width is written out. SHA-256 comes from a third-party crate and is
a parameter of everything that hashes.
-/

namespace Rhiza.Core

abbrev Bytes := List UInt8
abbrev NodeId := String
abbrev ClusterId := String

def u64Bound : Nat := 2 ^ 64

/-- `u64::checked_add(1)`. -/
def checkedSucc (n : Nat) : Option Nat := if n + 1 < u64Bound then some (n + 1) else none

theorem checkedSucc_eq_some {n m : Nat} (h : checkedSucc n = some m) : m = n + 1 := by
  unfold checkedSucc at h
  split at h
  · exact (Option.some.inj h).symm
  · cases h

theorem lt_of_checkedSucc {n m : Nat} (h : checkedSucc n = some m) : m < u64Bound := by
  unfold checkedSucc at h
  split at h
  · rename_i hBound
    rwa [← Option.some.inj h]
  · cases h

/-- `to_be_bytes` of an unsigned integer of `width` bytes. -/
def toBeBytes : Nat → Nat → Bytes
  | 0, _ => []
  | width + 1, n => UInt8.ofNat (n / 256 ^ width) :: toBeBytes width (n % 256 ^ width)

/-- `from_be_bytes` of any number of bytes. -/
def fromBeBytes (bytes : Bytes) : Nat := bytes.foldl (fun n b => 256 * n + b.toNat) 0

@[simp] theorem toBeBytes_length (width n : Nat) : (toBeBytes width n).length = width := by
  induction width generalizing n with
  | zero => rfl
  | succ width ih => simp [toBeBytes, ih]

theorem foldl_be_eq (bytes : Bytes) (acc : Nat) :
    bytes.foldl (fun n b => 256 * n + b.toNat) acc = acc * 256 ^ bytes.length + fromBeBytes bytes := by
  induction bytes generalizing acc with
  | nil => simp [fromBeBytes]
  | cons b bytes ih =>
    have hCons : fromBeBytes (b :: bytes) = (256 * 0 + b.toNat) * 256 ^ bytes.length + fromBeBytes bytes :=
      ih (256 * 0 + b.toNat)
    rw [List.foldl_cons, ih, hCons, List.length_cons]
    ring

theorem fromBeBytes_toBeBytes (width n : Nat) (h : n < 256 ^ width) :
    fromBeBytes (toBeBytes width n) = n := by
  induction width generalizing n with
  | zero => simpa [toBeBytes, fromBeBytes] using (Nat.lt_one_iff.mp h).symm
  | succ width ih =>
    have hPos : 0 < 256 ^ width := Nat.pow_pos (by decide)
    have hDigit : n / 256 ^ width < 256 := by
      rw [Nat.div_lt_iff_lt_mul hPos]
      rwa [Nat.pow_succ, Nat.mul_comm] at h
    rw [toBeBytes, fromBeBytes, List.foldl_cons, foldl_be_eq, toBeBytes_length,
      ih _ (Nat.mod_lt _ hPos)]
    have hToNat : (UInt8.ofNat (n / 256 ^ width)).toNat = n / 256 ^ width := by
      rw [UInt8.toNat_ofNat', Nat.mod_eq_of_lt hDigit]
    rw [hToNat, Nat.mul_zero, Nat.zero_add, Nat.mul_comm, Nat.div_add_mod]

/-- `str::as_bytes`. -/
def utf8 (s : String) : Bytes := s.toUTF8.data.toList

/-- `char::is_whitespace`. -/
def isWhitespace (c : Char) : Bool :=
  let n := c.toNat
  (9 ≤ n && n ≤ 13) || n = 32 || n = 133 || n = 160 || n = 5760 || (8192 ≤ n && n ≤ 8202) ||
    n = 8232 || n = 8233 || n = 8239 || n = 8287 || n = 12288

@[simp] theorem utf8_inj {s t : String} : utf8 s = utf8 t ↔ s = t := by
  constructor
  · intro h
    apply String.toByteArray_inj.mp
    apply ByteArray.ext
    exact Array.toList_inj.mp h
  · rintro rfl
    rfl

structure LogHash where
  bytes : Bytes
  size : bytes.length = 32
  deriving DecidableEq

namespace LogHash

def zero : LogHash := ⟨List.replicate 32 0, List.length_replicate⟩

instance : Inhabited LogHash := ⟨zero⟩

theorem bytes_injective {a b : LogHash} (h : a.bytes = b.bytes) : a = b := by
  cases a
  cases b
  cases h
  rfl

instance : Ord LogHash := ⟨fun a b => compare a.bytes b.bytes⟩

instance : Std.TransOrd LogHash where
  eq_swap {a b} := Std.OrientedOrd.eq_swap (a := a.bytes) (b := b.bytes)
  isLE_trans {a b c} h h' :=
    Std.TransOrd.isLE_trans (a := a.bytes) (b := b.bytes) (c := c.bytes) h h'

instance : Std.LawfulEqOrd LogHash where
  compare_self {a} := Std.ReflOrd.compare_self (a := a.bytes)
  eq_of_compare h := bytes_injective (Std.LawfulEqOrd.eq_of_compare h)

def ofByte (b : UInt8) : LogHash := ⟨List.replicate 32 b, List.length_replicate⟩

end LogHash

class Sha256 where
  finalize : Bytes → LogHash

/-- A rolling hash of the right size. It stands in for SHA-256 where a statement
is evaluated on fixed inputs, on which it has no collisions either. -/
@[reducible] def Sha256.rolling : Sha256 where
  finalize bytes :=
    ⟨toBeBytes 32 (bytes.foldl (fun n b => (n * 65599 + b.toNat + 1) % 2 ^ 256) 7),
      toBeBytes_length 32 _⟩

section Hashing

variable [Sha256]

def LogHash.digest (parts : List Bytes) : LogHash := Sha256.finalize parts.flatten

inductive EntryType
  | command
  | configChange
  | snapshotBarrier
  | snapshotPublished
  | noop
  deriving DecidableEq

def EntryType.asU8 : EntryType → UInt8
  | .command => 1
  | .configChange => 2
  | .snapshotBarrier => 3
  | .snapshotPublished => 4
  | .noop => 5

def EntryType.fromU8 : UInt8 → Option EntryType
  | 1 => some .command
  | 2 => some .configChange
  | 3 => some .snapshotBarrier
  | 4 => some .snapshotPublished
  | 5 => some .noop
  | _ => none

omit [Sha256] in
@[simp] theorem EntryType.fromU8_asU8 (entryType : EntryType) :
    fromU8 entryType.asU8 = some entryType := by
  cases entryType <;> rfl

structure StoredCommand where
  entryType : EntryType
  payload : Bytes
  deriving DecidableEq

def StoredCommand.hash (command : StoredCommand) : LogHash :=
  LogHash.digest [utf8 "rhiza-command-v2", [command.entryType.asU8], command.payload]

def calculateHash (clusterId : ClusterId) (index : Nat) (epoch : Nat) (configId : Nat)
    (entryType : EntryType) (prevHash : LogHash) (payload : Bytes) : LogHash :=
  LogHash.digest
    [utf8 "rhiza-log-entry-v3" ++ [0], toBeBytes 8 (utf8 clusterId).length, utf8 clusterId,
      toBeBytes 8 index, toBeBytes 8 epoch, toBeBytes 8 configId, [entryType.asU8],
      prevHash.bytes, (LogHash.digest [payload]).bytes]

structure LogEntry where
  clusterId : ClusterId
  epoch : Nat
  configId : Nat
  index : Nat
  entryType : EntryType
  payload : Bytes
  prevHash : LogHash
  hash : LogHash
  deriving DecidableEq

def LogEntry.recomputeHash (entry : LogEntry) : LogHash :=
  calculateHash entry.clusterId entry.index entry.epoch entry.configId entry.entryType
    entry.prevHash entry.payload

end Hashing

end Rhiza.Core
