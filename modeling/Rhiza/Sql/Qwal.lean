import Rhiza.Sql.PageState

/-! # The page effects of `rhiza-sql`

An envelope carries the pages of a closed database that a write changed, and the
receipts of the requests in it. Its structural checks need no base file; applying
it to the base sets the length, writes the pages and reads them back.
-/

namespace Rhiza.Sql

open Rhiza.Core Rhiza.Library

inductive SqlValue
  | null
  | integer (value : Int)
  | real (bits : UInt64)
  | text (value : String)
  | blob (value : Bytes)
  deriving DecidableEq

structure SqlQueryResult where
  columns : List String
  rows : List (List SqlValue)
  deriving DecidableEq

structure SqlStatementResult where
  rowsAffected : Nat
  returning : Option SqlQueryResult
  deriving DecidableEq

structure SqlCommandResult where
  statementResults : List SqlStatementResult
  deriving DecidableEq

/-- The JSON form of a result, by the `serde_json` crate. -/
class SqlResultJson where
  fromSlice : Bytes → Except String SqlCommandResult
  toVec : SqlCommandResult → Except String Bytes

def maxReturningRows : Nat := 1024
def maxReturningBytes : Nat := 1024 * 1024
def maxQwalBytes : Nat := 512 * 1024
def maxQwalReceipts : Nat := 1024
def maxIdBytes : Nat := 256
def maxFingerprintBytes : Nat := 4 * 1024

def sqlResultMagic : Bytes := utf8 "QRES" ++ [0, 1]

def sqlValueSize : SqlValue → Nat
  | .null => 0
  | .integer _ => 8
  | .real _ => 8
  | .text value => (utf8 value).length
  | .blob value => value.length

def addReturningBytes (total bytes : Nat) : Except Error Nat := do
  require (total + bytes ≤ maxReturningBytes)
    (.invalidCommand s!"SQL RETURNING exceeds {maxReturningBytes} result bytes")
  pure (total + bytes)

/-- One turn of the loop over the statements in `validate_sql_result_bounds`, on the
rows and bytes counted so far. -/
def validateStatementBounds : Nat × Nat → SqlStatementResult → Except Error (Nat × Nat)
  | counts, ⟨_, none⟩ => .ok counts
  | (rowCount, bytes), ⟨_, some returning⟩ => do
    require (rowCount + returning.rows.length ≤ maxReturningRows)
      (.invalidCommand s!"SQL RETURNING exceeds {maxReturningRows} rows")
    let bytes ← returning.columns.foldlM
      (fun bytes column => addReturningBytes bytes (utf8 column).length) bytes
    let bytes ← returning.rows.foldlM (fun bytes row => do
      require (row.length = returning.columns.length)
        (.invalidCommand "SQL RETURNING row width does not match its columns")
      row.foldlM (fun bytes value => addReturningBytes bytes (sqlValueSize value)) bytes) bytes
    pure (rowCount + returning.rows.length, bytes)

def validateSqlResultBounds (result : SqlCommandResult) : Except Error Unit := do
  let _ ← result.statementResults.foldlM validateStatementBounds (0, 0)
  pure ()

section Results

variable [SqlResultJson]

def encodeSqlResult (result : SqlCommandResult) : Except Error Bytes := do
  validateSqlResultBounds result
  match SqlResultJson.toVec result with
  | .error error => .error (.invalidCommand s!"cannot encode SQL result: {error}")
  | .ok encoded => .ok (sqlResultMagic ++ encoded)

def decodeSqlResult (blob : Bytes) : Except Error SqlCommandResult := do
  require (blob.take sqlResultMagic.length = sqlResultMagic)
    (.sqlite "unsupported SQL result encoding")
  match SqlResultJson.fromSlice (blob.drop sqlResultMagic.length) with
  | .error error => .error (.sqlite s!"invalid SQL result: {error}")
  | .ok result => do
    validateSqlResultBounds result
    let canonical ← encodeSqlResult result
    require (canonical = blob) (.sqlite "SQL result blob is not canonical")
    pure result

def validateSqlResultBlobBounds (blob : Bytes) : Except Error Unit := do
  let _ ← decodeSqlResult blob
  pure ()

end Results

def sqliteHeaderBytes : Nat := 100
def sqliteMagic : Bytes := utf8 "SQLite format 3" ++ [0]

def validatePageSize (pageSize : Nat) : Except Error Unit :=
  require (IsPageSize pageSize) (.invalidEntry "invalid SQLite page size")

def pageSizeFromHeader (header : Bytes) : Except Error Nat := do
  require (sqliteHeaderBytes ≤ header.length ∧ header.take sqliteMagic.length = sqliteMagic)
    (.invalidEntry "invalid SQLite database header")
  let encoded := fromBeBytes ((header.drop 16).take 2)
  let pageSize := if encoded = 1 then maxSqlitePageSize else encoded
  validatePageSize pageSize
  pure pageSize

def validateHeaderPageCount (header : Bytes) (fileBytes pageSize : Nat) : Except Error Unit :=
  let declared := fromBeBytes ((header.drop 28).take 4)
  require (declared = 0 ∨ declared = fileBytes / pageSize)
    (.invalidEntry "SQLite header page count does not match file size")

def sqlitePageSizeFromHeader (header : Bytes) (fileBytes : Nat) : Except Error Nat := do
  let pageSize ← pageSizeFromHeader header
  require (fileBytes ≠ 0 ∧ fileBytes % pageSize = 0)
    (.invalidEntry "SQLite file size is not a non-zero page-size multiple")
  validateHeaderPageCount header fileBytes pageSize
  pure pageSize

/-- `read_exact` at an offset. -/
def readExact (offset n : Nat) (file : Bytes) : Except Error Bytes :=
  match Paged.readAt offset n file with
  | none => .error (.io "failed to fill whole buffer")
  | some bytes => .ok bytes

/-- `sqlite_page_size` and `sqlite_page_size_from_file`. -/
def sqlitePageSize (file : Bytes) : Except Error Nat := do
  let header ← readExact 0 sqliteHeaderBytes file
  sqlitePageSizeFromHeader header file.length

def validateSqliteHeader (page : Bytes) (expectedPageSize : Nat) : Except Error Unit := do
  let actual ← pageSizeFromHeader page
  require (actual = expectedPageSize)
    (.invalidEntry "QWAL page 1 changes the declared SQLite page size")

structure QwalReceipt where
  requestId : String
  requestDigest : LogHash
  resultBlob : Bytes
  deriving DecidableEq

structure QwalEnvelope where
  clusterId : ClusterId
  epoch : Nat
  configurationId : Nat
  recoveryGeneration : Nat
  baseIndex : Nat
  baseHash : LogHash
  baseState : StateIdentity
  targetState : StateIdentity
  materializerFingerprint : String
  receipts : List QwalReceipt
  pages : List QwalPage
  deriving DecidableEq

def stateFileBytes (state : StateIdentity) (label : String) : Except Error Nat := do
  validatePageSize state.pageSize
  require (state.pageCount ≠ 0) (.invalidEntry s!"QWAL {label} page count must be positive")
  require (state.stateRoot ≠ LogHash.zero)
    (.invalidEntry s!"QWAL {label} state root must be non-zero")
  require (state.pageSize * state.pageCount < u64Bound)
    (.resourceExhausted s!"QWAL {label} file size overflows")
  pure (state.pageSize * state.pageCount)

def validateNonemptyBounded (field value : String) (max : Nat) : Except Error Unit :=
  require (value ≠ "" ∧ (utf8 value).length ≤ max)
    (.invalidEntry s!"QWAL {field} must contain 1..={max} bytes")

/-- One turn of the loop over the receipts in `validate`, on the ids seen and the
result bytes counted so far. -/
def validateReceipt [SqlResultJson] :
    List String × Nat → QwalReceipt → Except Error (List String × Nat)
  | (requestIds, resultBytes), receipt => do
    validateNonemptyBounded "request_id" receipt.requestId maxIdBytes
    require (receipt.requestId ∉ requestIds)
      (.invalidEntry "QWAL receipt request ids must be unique")
    match validateSqlResultBlobBounds receipt.resultBlob with
    | .error _ => .error (.invalidEntry "QWAL receipt result is not canonical")
    | .ok _ => do
      require (resultBytes + receipt.resultBlob.length ≤ maxQwalBytes)
        (.resourceExhausted s!"QWAL results exceed {maxQwalBytes} bytes")
      pure (receipt.requestId :: requestIds, resultBytes + receipt.resultBlob.length)

/-- One turn of the loop over the pages in `validate`, on the page number before and
the page bytes counted so far. -/
def QwalEnvelope.validatePage (effect : QwalEnvelope) (targetFileBytes : Nat) :
    Nat × Nat → QwalPage → Except Error (Nat × Nat)
  | (previous, pageBytes), page => do
    let pageSize := effect.targetState.pageSize
    require (page.pageNo ≠ 0) (.invalidEntry "QWAL page number must be one-based")
    require (previous < page.pageNo)
      (.invalidEntry "QWAL pages must be strictly ordered without duplicates")
    require (page.afterImage.length = pageSize)
      (.invalidEntry "QWAL after-image length does not match page size")
    require (page.pageNo * pageSize < u64Bound) (.invalidEntry "QWAL page offset overflows")
    require (page.pageNo * pageSize ≤ targetFileBytes)
      (.invalidEntry "QWAL page lies outside the target file")
    if page.pageNo = 1 then
      validateSqliteHeader page.afterImage pageSize
      validateHeaderPageCount page.afterImage targetFileBytes pageSize
    require (pageBytes + page.afterImage.length ≤ maxQwalBytes)
      (.resourceExhausted s!"QWAL page images exceed {maxQwalBytes} bytes")
    pure (page.pageNo, pageBytes + page.afterImage.length)

def QwalEnvelope.validate [SqlResultJson] (effect : QwalEnvelope) : Except Error Unit := do
  validateNonemptyBounded "cluster_id" effect.clusterId maxIdBytes
  validateNonemptyBounded "materializer_fingerprint" effect.materializerFingerprint
    maxFingerprintBytes
  let _ ← stateFileBytes effect.baseState "base"
  let targetFileBytes ← stateFileBytes effect.targetState "target"
  require (effect.baseState.pageSize = effect.targetState.pageSize)
    (.invalidEntry "QWAL base and target page sizes differ")
  require (effect.receipts ≠ [] ∧ effect.receipts.length ≤ maxQwalReceipts)
    (.invalidEntry s!"QWAL receipts must contain 1..={maxQwalReceipts} members")
  let _ ← effect.receipts.foldlM validateReceipt ([], 0)
  let _ ← effect.pages.foldlM (effect.validatePage targetFileBytes) (0, 0)
  let basePages := effect.baseState.pageCount
  let targetPages := effect.targetState.pageCount
  if basePages < targetPages then
    let firstNew := partitionPoint (fun page => page.pageNo ≤ basePages) effect.pages
    let suppliedNewPages ← u32TryFrom "QWAL page count overflows" (effect.pages.length - firstNew)
    require (suppliedNewPages = targetPages - basePages)
      (.invalidEntry "QWAL growth must include every newly allocated page")

def writePages (pageSize : Nat) : List QwalPage → Bytes → Except Error Bytes
  | [], file => .ok file
  | page :: pages, file => do
    require ((page.pageNo - 1) * pageSize < u64Bound) (.invalidEntry "QWAL page offset overflows")
    writePages pageSize pages (Paged.writeAt ((page.pageNo - 1) * pageSize) page.afterImage file)

def verifyPages (pageSize : Nat) (file : Bytes) : List QwalPage → Except Error Unit
  | [] => .ok ()
  | page :: pages => do
    require ((page.pageNo - 1) * pageSize < u64Bound) (.invalidEntry "QWAL page offset overflows")
    let installed ← readExact ((page.pageNo - 1) * pageSize) pageSize file
    require (installed = page.afterImage)
      (.invalidEntry "QWAL installed page does not match its after-image")
    verifyPages pageSize file pages

def verifyInstalledPages (file : Bytes) (effect : QwalEnvelope) : Except Error Unit := do
  let targetBytes ← stateFileBytes effect.targetState "target"
  require (file.length = targetBytes) (.invalidEntry "QWAL target file size mismatch")
  let pageSize ← sqlitePageSize file
  require (pageSize = effect.targetState.pageSize) (.invalidEntry "QWAL target page size mismatch")
  verifyPages effect.targetState.pageSize file effect.pages

def applyPreverifiedQwalInPlace [SqlResultJson] (file : Bytes) (effect : QwalEnvelope) :
    Except Error Bytes := do
  effect.validate
  let baseBytes ← stateFileBytes effect.baseState "base"
  require (file.length = baseBytes) (.invalidEntry "QWAL base file size mismatch")
  let pageSize ← sqlitePageSize file
  require (pageSize = effect.baseState.pageSize) (.invalidEntry "QWAL base page size mismatch")
  let targetBytes ← stateFileBytes effect.targetState "target"
  let installed ← writePages effect.targetState.pageSize effect.pages (Paged.setLen targetBytes file)
  verifyInstalledPages installed effect
  pure installed

end Rhiza.Sql
