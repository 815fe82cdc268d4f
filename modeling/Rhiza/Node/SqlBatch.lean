import Rhiza.Library.Run
import Rhiza.Node.GroupCommit
import Rhiza.Sql.Apply

/-! # Batches of SQL writes of `rhiza-node`

One call executes many requests. Their statements run one after the other on a
staging copy of the database, each request in a savepoint of its own, and those that
succeed are proposed as one effect for the next slot. Whatever is decided there is
persisted, and what has no answer by then is tried again on the new database.
-/

namespace Rhiza.Node

open Rhiza.Core Rhiza.Library

structure SqlCommand (S : Type) where
  requestId : String
  statements : List S
  deriving DecidableEq

structure SqlMember (S : Type) where
  payload : Bytes
  command : SqlCommand S
  deriving DecidableEq

structure QwalReceipt where
  requestId : String
  requestDigest : LogHash
  resultBlob : Bytes
  deriving DecidableEq

/-- SQLite, the codecs of commands and results, and the effects: `capture` turns what a
staging copy became into an effect that does the same to the database it was taken from. -/
structure Sqlite (D S R : Type) where
  validateCommand : SqlCommand S → Except Sql.Error Unit
  decodeCommand : Bytes → Except Sql.Error (SqlCommand S)
  execute : D → List S → Except Sql.Error (R × D)
  encodeResult : R → Except Sql.Error Bytes
  decodeResult : Bytes → Except Sql.Error R
  capture : LogAnchor → D → D → List QwalReceipt → Except Sql.Error Bytes
  install : D → Bytes → D
  receiptsIn : Bytes → List QwalReceipt
  install_capture : ∀ base database staged receipts payload,
    capture base database staged receipts = .ok payload → install database payload = staged

structure SqlState (D : Type) where
  tip : LogAnchor
  database : D
  receipts : List Sql.RequestReceipt
  deriving DecidableEq

/-- `map_sqlite_error`. -/
def mapSqliteError : Sql.Error → NodeError
  | .requestConflict requestId _ _ => .requestConflict requestId
  | .resourceExhausted message => .resourceExhausted message
  | .invalidCommand message | .identityMismatch message | .invalidEntry message => .invariant message
  | .io message => .storage s!"SQLite io failed: {message}"
  | .sqlite message => .storage s!"SQLite error: {message}"
  | .panicked => .fatal "panicked"

/-- `map_sql_batch_member_error`. -/
def mapSqlBatchMemberError : Sql.Error → NodeError
  | .requestConflict requestId _ _ => .requestConflict requestId
  | .resourceExhausted message => .resourceExhausted message
  | .invalidCommand message | .sqlite message => .invalidSqlStatement 0 message
  | error => mapSqliteError error

/-- Why a member is answered with an error: executing its statements failed, or anything
else did. -/
inductive MemberError
  | failed (error : Sql.Error)
  | refused (error : NodeError)
  deriving DecidableEq

structure SqlResponse (R : Type) where
  appliedIndex : Nat
  hash : LogHash
  result : R
  deriving DecidableEq

variable {D S R : Type}

structure Classification where
  aliases : List (Option Nat)
  blockedBy : List (Option Nat)
  lookupIndices : List Nat
  deriving DecidableEq

/-- A request of an earlier member: its alias if the payload is the same, and behind the
last of the others if not. -/
def Classification.add (members : List (SqlMember S)) (c : Classification) (member : SqlMember S) :
    Classification :=
  let canonicals := c.lookupIndices.filter fun index =>
    members[index]?.any (·.command.requestId = member.command.requestId)
  match canonicals.find? fun index => members[index]?.any (·.payload = member.payload) with
  | some canonical => ⟨c.aliases ++ [some canonical], c.blockedBy ++ [none], c.lookupIndices⟩
  | none =>
    ⟨c.aliases ++ [none], c.blockedBy ++ [canonicals.getLast?],
      c.lookupIndices ++ [c.aliases.length]⟩

def classify (members : List (SqlMember S)) : Classification :=
  members.foldl (Classification.add members) ⟨[], [], []⟩

section Preparing

variable [Sha256] [DecidableEq S] (sqlite : Sqlite D S R)

/-- `check_sql_requests`. -/
def Sqlite.checkSqlRequests (s : SqlState D) (requests : List (String × Bytes)) :
    Except Sql.Error (List (Except Sql.Error (Option (SqlResponse R)))) := do
  let _ ← Sql.lookupRequestsFrom s.receipts
    (requests.map fun request => (request.1, LogHash.digest [request.2]))
  pure (requests.map fun request => do
    let command ← sqlite.decodeCommand request.2
    Sql.require (command.requestId = request.1)
      (.invalidCommand "SQL payload request_id does not match lookup request_id")
    match ← Sql.lookupOne s.receipts request.1 (LogHash.digest [request.2]) with
    | none => pure none
    | some receipt => do
      let result ← sqlite.decodeResult receipt.resultBlob
      pure (some ⟨receipt.originalAnchor.index, receipt.originalAnchor.hash, result⟩))

/-- The members with how many of the earlier ones have the same request. -/
def occurrences (members : List (SqlMember S)) : List String → List Nat → List (Nat × Nat)
  | _, [] => []
  | seen, index :: rest =>
    match members[index]? with
    | none => occurrences members seen rest
    | some member =>
      (index, seen.count member.command.requestId) ::
        occurrences members (member.command.requestId :: seen) rest

def rounds (members : List (SqlMember S)) (indices : List Nat) : List (List Nat) :=
  let counted := occurrences members [] indices
  ((List.range indices.length).map fun round =>
    (counted.filter (·.2 = round)).map (·.1)).filter (· ≠ [])

def Sqlite.checkRound (s : SqlState D) (members : List (SqlMember S)) (round : List Nat) :
    Except NodeError (List (Nat × Except NodeError (Option (SqlResponse R)))) :=
  let requests := round.filterMap fun index =>
    members[index]?.map fun member => (member.command.requestId, member.payload)
  match sqlite.checkSqlRequests s requests with
  | .error error => .error (mapSqliteError error)
  | .ok lookups => .ok (round.zip (lookups.map fun lookup => lookup.mapError mapSqlBatchMemberError))

/-- `check_sql_members_bulk`; `fault` is an error of the database itself. -/
def Sqlite.checkSqlMembersBulk (s : SqlState D) (members : List (SqlMember S))
    (fault : Option NodeError) (indices : List Nat) :
    Except NodeError (List (Nat × Except NodeError (Option (SqlResponse R)))) :=
  match fault, indices with
  | _, [] => .ok []
  | some error, _ => .error error
  | none, _ => do
    let checked ← (rounds members indices).mapM (sqlite.checkRound s members)
    pure checked.flatten

def Sqlite.run (database : D) (statements : List S) : Except Sql.Error (R × Bytes × D) := do
  let (result, database) ← sqlite.execute database statements
  let blob ← sqlite.encodeResult result
  pure (result, blob, database)

def Sqlite.validations : List String → List (SqlMember S) → List (Except Sql.Error Unit)
  | _, [] => []
  | seen, member :: rest =>
    let canonical : Except Sql.Error Unit := do
      sqlite.validateCommand member.command
      let command ← sqlite.decodeCommand member.payload
      Sql.require (command = member.command)
        (.invalidCommand "SQL batch member is not the canonical QSQL v2 command")
    match canonical with
    | .error error => .error error :: validations seen rest
    | .ok () =>
      Sql.require (member.command.requestId ∉ seen)
          (.invalidCommand "SQL batch member repeats a request_id") ::
        validations (member.command.requestId :: seen) rest

def lookupKey (member : SqlMember S) : String × LogHash :=
  (member.command.requestId, LogHash.digest [member.payload])

def Sqlite.preflight (s : SqlState D) (members : List (SqlMember S)) :
    Except Sql.Error (List (Except Sql.Error (Option Sql.RequestReceipt))) := do
  let validations := sqlite.validations [] members
  let _ ← Sql.lookupRequestsFrom s.receipts
    (((members.zip validations).filter (·.2.isOk)).map fun member => lookupKey member.1)
  pure ((members.zip validations).map fun member => do
    member.2
    Sql.lookupOne s.receipts (lookupKey member.1).1 (lookupKey member.1).2)

structure Staging (D R : Type) where
  database : D
  receipts : List QwalReceipt
  results : List (Except MemberError R)

def Staging.report (staging : Staging D R) (error : MemberError) : Staging D R :=
  { staging with results := .error error :: staging.results }

def Sqlite.stage : D → List (SqlMember S × Except Sql.Error (Option Sql.RequestReceipt)) →
    Staging D R
  | database, [] => ⟨database, [], []⟩
  | database, (member, preflight) :: rest =>
    match preflight with
    | .error error => (stage database rest).report (.refused (mapSqlBatchMemberError error))
    | .ok (some _) =>
      (stage database rest).report (.refused (mapSqlBatchMemberError
        (.invalidCommand "request was already materialized; return its stored receipt")))
    | .ok none =>
      match sqlite.run database member.command.statements with
      | .error error => (stage database rest).report (.failed error)
      | .ok (result, blob, staged) =>
        let later := stage staged rest
        { later with
          receipts := ⟨member.command.requestId, (lookupKey member).2, blob⟩ :: later.receipts
          results := .ok result :: later.results }

/-- `prepare_sql_batch_effect`. -/
def Sqlite.prepareSqlBatchEffect (s : SqlState D) (members : List (SqlMember S)) (base : LogAnchor) :
    Except Sql.Error (Option Bytes × List (Except MemberError R)) := do
  Sql.require (members ≠ [] ∧ members.length ≤ Sql.maxQwalReceipts)
    (.invalidCommand s!"SQL batch must contain 1..={Sql.maxQwalReceipts} members")
  Sql.require (s.tip = base)
    (.invalidEntry "QWAL effect base does not match the materialized SQLite tip")
  let preflight ← sqlite.preflight s members
  let staging := sqlite.stage s.database (members.zip preflight)
  if staging.receipts = [] then pure (none, staging.results)
  else do
    let payload ← sqlite.capture base s.database staging.database staging.receipts
    pure (some payload, staging.results)

end Preparing

/-- The locals of `execute_sql_client_batch_locked`. `log` holds the entries decided so
far, each with the members that it committed. -/
structure SqlBatch (D R : Type) where
  node : SqlState D
  results : List (Option (Except MemberError (SqlResponse R)))
  pending : List Nat
  log : List (List Nat × LogEntry)
  deriving DecidableEq

namespace SqlBatch

variable (batch : SqlBatch D R)

def answer (index : Nat) (answer : Except MemberError (SqlResponse R)) : SqlBatch D R :=
  { batch with results := batch.results.set index (some answer) }

def refuse (indices : List Nat) (error : NodeError) : SqlBatch D R :=
  indices.foldl (fun batch index => batch.answer index (.error (.refused error))) batch

def failPending (error : NodeError) : SqlBatch D R :=
  { batch.refuse batch.pending error with pending := [] }

def retainPending : SqlBatch D R :=
  { batch with
    pending := batch.pending.filter fun index => (batch.results[index]?).any Option.isNone }

def record : SqlBatch D R → List (Nat × Except MemberError R) → SqlBatch D R
  | batch, [] => batch
  | batch, (_, .ok _) :: rest => batch.record rest
  | batch, (index, .error error) :: rest => (batch.answer index (.error error)).record rest

def clear (indices : List Nat) : SqlBatch D R :=
  { batch with results := indices.foldl (fun results index => results.set index none) batch.results }

end SqlBatch

def proposedOf (results : List (Nat × Except MemberError R)) : List (Nat × R) :=
  results.filterMap fun result =>
    match result.2 with
    | .ok value => some (result.1, value)
    | .error _ => none

structure Proposal (R : Type) where
  payload : Bytes
  prepared : List (Nat × R)
  deriving DecidableEq

/-- What one preparation leads to: a proposal or the end of the round, or the batches to go
on with if it was too large, depending on whether fewer members can be tried. -/
inductive Tried (D R : Type)
  | done (batch : SqlBatch D R) (proposal : Option (Proposal R))
  | exhausted (retry last : SqlBatch D R) (message : String)

inductive Decision
  | decided (entry : LogEntry) (fault : Option NodeError)
  | failed (error : NodeError)
  deriving DecidableEq

structure Round where
  tipFault : Option NodeError
  prepareFault : Nat → Option NodeError
  decision : Decision
  lookupFault : Option NodeError

section Running

variable [Sha256] [DecidableEq S] (sqlite : Sqlite D S R) (members : List (SqlMember S))

/-- One preparation of the loop over `attempt_count`. -/
def tryMembers (batch : SqlBatch D R) (base : LogAnchor) (fault : Option NodeError)
    (attempted : List Nat) : Tried D R :=
  let preparation : Except NodeError (Option Bytes × List (Except MemberError R)) :=
    match fault with
    | some error => .error error
    | none =>
      (sqlite.prepareSqlBatchEffect batch.node (attempted.filterMap (members[·]?)) base).mapError
        mapSqliteError
  match preparation with
  | .error (.resourceExhausted message) => .exhausted batch batch message
  | .error error => .done (batch.failPending error) none
  | .ok (effect, results) =>
    if results.length ≠ attempted.length then
      .done (batch.failPending (.invariant
        "SQLite batch preparation returned a misaligned result vector")) none
    else
      let proposed := proposedOf (attempted.zip results)
      let recorded := batch.record (attempted.zip results)
      match effect with
      | some payload =>
        if proposed.isEmpty then
          .done (recorded.failPending (.invariant
            "SQLite prepared an effect without a successful SQL member")) none
        else if payload.take Sql.qwalMagic.length ≠ Sql.qwalMagic then
          .done (recorded.failPending (.invariant
            "SQLite materializer prepared a non-QWAL v3 SQL batch")) none
        else if payload.length ≤ maxCommandBytes then .done recorded (some ⟨payload, proposed⟩)
        else
          .exhausted (recorded.clear attempted) recorded
            s!"SQL effect exceeds {maxCommandBytes} bytes"
      | none =>
        if proposed.isEmpty then .done recorded none
        else
          .done (recorded.failPending (.invariant
            "SQLite omitted the effect for successful SQL members")) none

/-- The loop over `attempt_count`. -/
def attempt (batch : SqlBatch D R) (base : LogAnchor) (faults : Nat → Option NodeError)
    (eligible : List Nat) (attemptCount : Nat) : SqlBatch D R × Option (Proposal R) :=
  match tryMembers sqlite members batch base (faults attemptCount) (eligible.take attemptCount) with
  | .done batch proposal => (batch, proposal)
  | .exhausted retry last message =>
    if 1 < attemptCount then attempt retry base faults eligible ((attemptCount + 1) / 2)
    else (last.refuse (eligible.take 1) (.resourceExhausted message), none)
termination_by attemptCount
decreasing_by omega

def SqlBatch.eligible (batch : SqlBatch D R) : List Nat :=
  (batch.pending.filter fun index =>
    match ((classify members).blockedBy[index]?).join with
    | none => true
    | some predecessor => batch.results[predecessor]?.any Option.isSome).take maxSqlWriteBatchMembers

def SqlBatch.propose (batch : SqlBatch D R) (round : Round) : SqlBatch D R × Option (Proposal R) :=
  let eligible := batch.eligible members
  if eligible = [] then
    (batch.failPending (.invariant "SQL writer batch has an unresolved duplicate dependency"), none)
  else
    match round.tipFault with
    | some error => (batch.failPending error, none)
    | none =>
      let (attempted, proposal) :=
        attempt sqlite members batch batch.node.tip round.prepareFault eligible eligible.length
      (attempted.retainPending, proposal)

def Sqlite.apply (database : D) (entry : LogEntry) : D :=
  if entry.entryType = .command then sqlite.install database entry.payload else database

def Sqlite.applyEntry (s : SqlState D) (entry : LogEntry) : SqlState D where
  tip := ⟨entry.index, entry.hash⟩
  database := sqlite.apply s.database entry
  receipts :=
    if entry.entryType = .command then
      s.receipts ++ (sqlite.receiptsIn entry.payload).map fun receipt =>
        ⟨receipt.requestId, receipt.requestDigest, ⟨entry.index, entry.hash⟩, receipt.resultBlob⟩
    else s.receipts

def Proposal.Won (proposal : Proposal R) (entry : LogEntry) : Prop :=
  entry.entryType = .command ∧ entry.payload = proposal.payload

instance (proposal : Proposal R) (entry : LogEntry) : Decidable (proposal.Won entry) :=
  inferInstanceAs (Decidable (_ ∧ _))

def Proposal.committed (proposal : Proposal R) (entry : LogEntry) : List Nat :=
  if proposal.Won entry then proposal.prepared.map (·.1) else []

/-- `persist_sql_entry_profiled`: what is checked of the envelope, and any other fault. -/
def persistFault (base : LogAnchor) (slot : Nat) (entry : LogEntry) (fault : Option NodeError) :
    Option NodeError :=
  if entry.index ≠ slot then
    some (.reconciliation s!"expected decision index {slot}, got {entry.index}")
  else if entry.prevHash ≠ base.hash then
    some (.reconciliation s!"decision {entry.index} has a conflicting predecessor")
  else fault

/-- The answers of the looked up members; the others stay pending. -/
def SqlBatch.settle (batch : SqlBatch D R) :
    List (Nat × Except NodeError (Option (SqlResponse R))) → SqlBatch D R
  | [] => batch
  | (index, lookup) :: rest =>
    match lookup with
    | .ok (some response) => (batch.answer index (.ok response)).settle rest
    | .ok none => { batch with pending := batch.pending ++ [index] }.settle rest
    | .error error => (batch.answer index (.error (.refused error))).settle rest

def SqlBatch.recheck (batch : SqlBatch D R) (fault : Option NodeError) : SqlBatch D R :=
  match sqlite.checkSqlMembersBulk batch.node members fault batch.pending with
  | .error error => batch.failPending error
  | .ok lookups => { batch with pending := [] }.settle lookups

def SqlBatch.respond (batch : SqlBatch D R) (entry : LogEntry) : List (Nat × R) → SqlBatch D R
  | [] => batch
  | (index, result) :: rest =>
    (batch.answer index (.ok ⟨entry.index, entry.hash, result⟩)).respond entry rest

def SqlBatch.conclude (batch : SqlBatch D R) (round : Round) (proposal : Proposal R) :
    SqlBatch D R :=
  match checkedSucc batch.node.tip.index with
  | none => batch.failPending (.invariant "qlog index is exhausted")
  | some slot =>
    match round.decision with
    | .failed error => batch.failPending error
    | .decided entry fault =>
      let decided := { batch with log := batch.log ++ [(proposal.committed entry, entry)] }
      match persistFault batch.node.tip slot entry fault with
      | some error => decided.failPending error
      | none =>
        let persisted := { decided with node := sqlite.applyEntry batch.node entry }
        let answered :=
          if proposal.Won entry then (persisted.respond entry proposal.prepared).retainPending
          else persisted
        answered.recheck sqlite members round.lookupFault

def SqlBatch.step (batch : SqlBatch D R) (round : Round) : Option (SqlBatch D R) :=
  if batch.pending = [] then none
  else
    match batch.propose sqlite members round with
    | (attempted, none) => some attempted
    | (attempted, some proposal) => some (attempted.conclude sqlite members round proposal)

def SqlBatch.start (node : SqlState D) (fault : Option NodeError) : SqlBatch D R :=
  let batch : SqlBatch D R := ⟨node, members.map fun _ => none, [], []⟩
  match sqlite.checkSqlMembersBulk node members fault (classify members).lookupIndices with
  | .error error => { batch with results := members.map fun _ => some (.error (.refused error)) }
  | .ok lookups => batch.settle lookups

def copyAliases {Answer : Type} (results : List (Option Answer)) :
    List (Option Nat × Nat) → List (Option Answer)
  | [] => results
  | (none, _) :: rest => copyAliases results rest
  | (some canonical, index) :: rest => copyAliases (results.set index (results[canonical]?).join) rest

/-- What `execute_sql_client_batch_locked` returns. -/
def SqlBatch.answers (batch : SqlBatch D R) : List (Except MemberError (SqlResponse R)) :=
  (copyAliases batch.results (classify members).aliases.zipIdx).map fun result =>
    result.getD (.error (.refused (.invariant "SQL writer batch omitted a request result")))

end Running

end Rhiza.Node
