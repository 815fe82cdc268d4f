import Rhiza.Library.Assoc
import Rhiza.Sql.Qwal

/-! # The pages that a speculative write leaves in its WAL

`capture_wal` reads the write-ahead log of a staging copy: one committed
transaction of checksummed frames. `materialize_wal_capture` writes the captured
pages into the copy and keeps those that differ from the base.
-/

namespace Rhiza.Sql

open Rhiza.Core Rhiza.Library

def walHeaderBytes : Nat := 32
def walFrameHeaderBytes : Nat := 24
def walVersion : Nat := 3007000
def walMagicLittleChecksum : Nat := 0x377f0682
def walMagicBigChecksum : Nat := 0x377f0683
def maxPageNo : Nat := u32Max - 1

structure WalCommit where
  pageSize : Nat
  targetDbPages : Nat
  targetFileBytes : Nat
  pages : List QwalPage
  deriving DecidableEq

inductive WalCapture
  | noChange
  | committed (commit : WalCommit)
  deriving DecidableEq

inductive ChecksumOrder
  | big
  | little
  deriving DecidableEq

/-- `u32::from_be_bytes` or `u32::from_le_bytes`. -/
def ChecksumOrder.word (order : ChecksumOrder) (bytes : Bytes) : Nat :=
  match order with
  | .big => fromBeBytes bytes
  | .little => fromBeBytes bytes.reverse

def wrappingAdd (a b : Nat) : Nat := (a + b) % 2 ^ 32

def checksum (order : ChecksumOrder) (bytes : Bytes) (state : Nat × Nat) : Nat × Nat :=
  (Paged.chunksExact 8 bytes).foldl (fun state chunk =>
    let first := wrappingAdd (wrappingAdd state.1 (order.word (chunk.take 4))) state.2
    let second := wrappingAdd (wrappingAdd state.2 (order.word (chunk.drop 4))) first
    (first, second)) state

/-- `be_u32(&bytes[offset..offset + 4])`. -/
def beU32 (offset : Nat) (bytes : Bytes) : Nat := fromBeBytes ((bytes.drop offset).take 4)

structure CaptureState where
  rollingChecksum : Nat × Nat
  pages : List (Nat × Bytes)
  finalDbPages : Nat
  lastFrameCommitted : Bool
  deriving DecidableEq

/-- `read_exact` from the front of what is left of the log. -/
def takeBytes (n : Nat) (truncated : String) (rest : Bytes) : Except Error (Bytes × Bytes) :=
  if n ≤ rest.length then .ok (rest.take n, rest.drop n) else .error (.invalidEntry truncated)

def captureFrame (order : ChecksumOrder) (salts : Nat × Nat) (pageSize maxChangedBytes : Nat)
    (s : CaptureState) (rest : Bytes) : Except Error (CaptureState × Bytes) := do
  require (s.lastFrameCommitted = false)
    (.invalidEntry "SQLite WAL contains a frame after its single commit marker")
  let (frameHeader, rest) ←
    takeBytes walFrameHeaderBytes "SQLite WAL frame header is truncated" rest
  let pageNo := beU32 0 frameHeader
  require (1 ≤ pageNo ∧ pageNo ≤ maxPageNo)
    (.invalidEntry "SQLite WAL frame page number is out of range")
  let commitPages := beU32 4 frameHeader
  require (commitPages ≤ maxPageNo)
    (.invalidEntry "SQLite WAL commit database size is out of range")
  require ((beU32 8 frameHeader, beU32 12 frameHeader) = salts)
    (.invalidEntry "SQLite WAL frame salt mismatch")
  let (afterImage, rest) ← takeBytes pageSize "SQLite WAL frame page is truncated" rest
  let rolling := checksum order (frameHeader.take 8) s.rollingChecksum
  let rolling := checksum order afterImage rolling
  require (rolling = (beU32 16 frameHeader, beU32 20 frameHeader))
    (.invalidEntry "SQLite WAL frame checksum mismatch")
  if (Assoc.get s.pages pageNo).isNone then
    require ((s.pages.length + 1) * pageSize ≤ maxChangedBytes)
      (.resourceExhausted s!"SQLite WAL changed page images exceed {maxChangedBytes} bytes")
  let committed : Bool := commitPages ≠ 0
  pure ({ rollingChecksum := rolling
          pages := Assoc.insert pageNo afterImage s.pages
          finalDbPages := if committed then commitPages else s.finalDbPages
          lastFrameCommitted := committed }, rest)

def captureFrames (order : ChecksumOrder) (salts : Nat × Nat) (pageSize maxChangedBytes : Nat) :
    Nat → CaptureState → Bytes → Except Error (CaptureState × Bytes)
  | 0, s, rest => .ok (s, rest)
  | count + 1, s, rest => do
    let (s, rest) ← captureFrame order salts pageSize maxChangedBytes s rest
    captureFrames order salts pageSize maxChangedBytes count s rest

/-- The end of `capture_wal`, after the frames. -/
def finishCapture (baseDbPages pageSize : Nat) (s : CaptureState) : Except Error WalCapture := do
  require (s.lastFrameCommitted = true ∧ s.finalDbPages ≠ 0)
    (.invalidEntry "SQLite WAL ends without a commit marker")
  let pages := s.pages.filter fun page => page.1 ≤ s.finalDbPages
  if baseDbPages < s.finalDbPages then
    require ((pages.filter fun page => baseDbPages < page.1).length = s.finalDbPages - baseDbPages)
      (.invalidEntry "SQLite WAL growth is missing a newly allocated page")
  require (s.finalDbPages * pageSize < u64Bound)
    (.invalidEntry "SQLite WAL target database size overflows")
  pure (.committed
    { pageSize
      targetDbPages := s.finalDbPages
      targetFileBytes := s.finalDbPages * pageSize
      pages := pages.map fun page => ⟨page.1, page.2⟩ })

def checksumOrder (magic : Nat) : Except Error ChecksumOrder :=
  if magic = walMagicLittleChecksum then .ok .little
  else if magic = walMagicBigChecksum then .ok .big
  else .error (.invalidEntry "SQLite WAL magic is invalid")

def captureWal (wal : Bytes) (baseDbPages maxChangedBytes : Nat) : Except Error WalCapture := do
  require (1 ≤ baseDbPages ∧ baseDbPages ≤ maxPageNo)
    (.invalidEntry "SQLite base database page count is out of range")
  if wal.length = 0 then
    pure .noChange
  else
    let (header, rest) ← takeBytes walHeaderBytes "SQLite WAL header is truncated" wal
    let order ← checksumOrder (beU32 0 header)
    require (beU32 4 header = walVersion)
      (.invalidEntry "SQLite WAL format version is unsupported")
    let pageSize := beU32 8 header
    require (IsPageSize pageSize) (.invalidEntry "SQLite WAL page size is invalid")
    let headerChecksum := checksum order (header.take 24) (0, 0)
    require (headerChecksum = (beU32 24 header, beU32 28 header))
      (.invalidEntry "SQLite WAL header checksum mismatch")
    let frameBytes := walFrameHeaderBytes + pageSize
    let payloadBytes := wal.length - walHeaderBytes
    require (payloadBytes ≠ 0 ∧ payloadBytes % frameBytes = 0)
      (.invalidEntry "SQLite WAL does not contain exact complete frames")
    let frameCount := payloadBytes / frameBytes
    let maxFrames := maxChangedBytes / pageSize
    require (frameCount ≤ maxFrames)
      (.resourceExhausted
        s!"SQLite WAL raw bytes exceed {walHeaderBytes + maxFrames * frameBytes} bytes")
    let salts := (beU32 16 header, beU32 20 header)
    let (s, rest) ← captureFrames order salts pageSize maxChangedBytes frameCount
      { rollingChecksum := headerChecksum, pages := [], finalDbPages := 0
        lastFrameCommitted := false } rest
    require (rest = []) (.invalidEntry "SQLite WAL changed while it was being captured")
    finishCapture baseDbPages pageSize s

def differsFromBase (base : Bytes) (pageSize basePages : Nat) (page : QwalPage) :
    Except Error Bool :=
  if page.pageNo ≤ basePages then do
    let basePage ← readExact ((page.pageNo - 1) * pageSize) pageSize base
    pure (decide (basePage ≠ page.afterImage))
  else pure true

def materializePages (base : Bytes) (pageSize basePages : Nat) :
    List QwalPage → Bytes → List QwalPage → Except Error (List QwalPage × Bytes)
  | [], target, changed => .ok (changed, target)
  | page :: pages, target, changed => do
    require (1 ≤ page.pageNo ∧ (page.pageNo - 1) * pageSize < u64Bound)
      (.invalidEntry "SQLite WAL page offset overflows")
    let differs ← differsFromBase base pageSize basePages page
    materializePages base pageSize basePages pages
      (Paged.writeAt ((page.pageNo - 1) * pageSize) page.afterImage target)
      (if differs then changed ++ [page] else changed)

def materializeWalCapture (base target : Bytes) (expectedPageSize baseFileBytes : Nat) :
    WalCapture → Except Error (List QwalPage × Bytes)
  | .noChange => do
    require (target.length = baseFileBytes)
      (.invalidEntry "no-change SQLite WAL capture does not reproduce its closed base")
    let pageSize ← sqlitePageSize target
    require (pageSize = expectedPageSize)
      (.invalidEntry "no-change SQLite WAL capture does not reproduce its closed base")
    pure ([], target)
  | .committed commit => do
    require (commit.pageSize = expectedPageSize)
      (.invalidEntry "SQLite WAL page size differs from its closed base")
    require (commit.targetDbPages * commit.pageSize < u64Bound)
      (.invalidEntry "SQLite WAL target size overflows")
    require (commit.targetFileBytes = commit.targetDbPages * commit.pageSize)
      (.invalidEntry "SQLite WAL target size does not match its commit page count")
    let (changed, target) ← materializePages base commit.pageSize (baseFileBytes / commit.pageSize)
      commit.pages (Paged.setLen commit.targetFileBytes target) []
    require (target.length = commit.targetFileBytes)
      (.invalidEntry "materialized SQLite WAL does not match its committed header and target size")
    let pageSize ← sqlitePageSize target
    require (pageSize = commit.pageSize)
      (.invalidEntry "materialized SQLite WAL does not match its committed header and target size")
    pure (changed, target)

end Rhiza.Sql
