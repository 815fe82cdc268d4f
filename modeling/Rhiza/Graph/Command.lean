import Rhiza.Core.Envelope

/-! # Commands of the graph profile

A command puts or deletes one document with a scalar value. Its encoding is
checked to be canonical whenever it is decoded.
-/

namespace Rhiza.Graph

open Core Library

inductive Error
  | codec (message : String)
  | invalidCommand (message : String)
  | invalidEntry (message : String)
  | identityMismatch (field : String)
  | requestConflict (requestId : String) (originalLogIndex : Nat) (originalLogHash : LogHash)
  deriving DecidableEq

abbrev Result (α : Type) := Except Error α

def commandMagic : Bytes := utf8 "RHGC" ++ [0, 1]
def batchCommandMagic : Bytes := utf8 "RHGB" ++ [0, 1]
def commandVersion : Nat := 1
def batchCommandVersion : Nat := 2
def batchRequestId : String := "__rhiza_graph_batch_v1"
def maxRequestIdBytes : Nat := 256
def maxDocumentIdBytes : Nat := 1024
def maxStringBytes : Nat := 256 * 1024
def maxBlobBytes : Nat := 4096
def maxGraphBatchMembers : Nat := 64

structure CanonicalF64 where
  bits : Nat
  deriving DecidableEq

inductive GraphValueV1
  | null
  | bool (value : Bool)
  | i64 (value : Int64)
  | u64 (value : Nat)
  | f64 (value : CanonicalF64)
  | string (value : String)
  | bytes (value : Bytes)
  deriving DecidableEq

inductive GraphOperationV1
  | putDocument (id : String) (value : GraphValueV1)
  | deleteDocument (id : String)
  deriving DecidableEq

structure GraphCommandV1 where
  requestId : String
  operation : GraphOperationV1
  deriving DecidableEq

def takeBytes (length : Nat) (input : Bytes) : Result (Bytes × Bytes) :=
  takeOr (.codec "truncated graph command") length input

def takeUint (width : Nat) (input : Bytes) : Result (Nat × Bytes) :=
  takeUintOr (.codec "truncated graph command") width input

def prefixedBytes (maximum : Option Nat) (input : Bytes) : Result (Bytes × Bytes) := do
  let (length, rest) ← takeUint 4 input
  ensure (maximum.all (length ≤ ·))
    (.codec ("length " ++ toString length ++ " exceeds maximum " ++
      maximum.elim "" (fun bound => toString bound)))
  takeBytes length rest

def prefixedString (maximum : Nat) (input : Bytes) : Result (String × Bytes) := do
  let (bytes, rest) ← prefixedBytes (some maximum) input
  let text ← (String.fromUTF8? ⟨bytes.toArray⟩).elim
    (.error (.codec "graph strings must be UTF-8")) .ok
  .ok (text, rest)

def writeBytes (value : Bytes) : Bytes := toBeBytes 4 value.length ++ value

def CanonicalF64.new (bits : Nat) : Result CanonicalF64 := do
  ensure (bits / 2 ^ 52 % 2 ^ 11 ≠ 2 ^ 11 - 1)
    (.invalidCommand "floating graph values must be finite")
  .ok ⟨if bits % 2 ^ 63 = 0 then 0 else bits⟩

namespace GraphValueV1

def validate : GraphValueV1 → Result Unit
  | string value => ensure ((utf8 value).length ≤ maxStringBytes)
    (.invalidCommand ("string graph values cannot exceed " ++ toString maxStringBytes ++ " bytes"))
  | bytes value => ensure (value.length ≤ maxBlobBytes)
    (.invalidCommand ("byte graph values cannot exceed " ++ toString maxBlobBytes ++ " bytes"))
  | _ => .ok ()

/-- `GraphValueV1::encode_into`. -/
def encode : GraphValueV1 → Bytes
  | null => [0]
  | bool false => [1]
  | bool true => [2]
  | i64 value => [3] ++ toBeBytes 8 value.toUInt64.toNat
  | u64 value => [4] ++ toBeBytes 8 value
  | f64 value => [5] ++ toBeBytes 8 value.bits
  | string value => [6] ++ writeBytes (utf8 value)
  | bytes value => [7] ++ writeBytes value

def decodeTagged (input : Bytes) : Nat → Result (GraphValueV1 × Bytes)
  | 0 => .ok (null, input)
  | 1 => .ok (bool false, input)
  | 2 => .ok (bool true, input)
  | 3 => do
    let (bits, rest) ← takeUint 8 input
    .ok (i64 (UInt64.ofNat bits).toInt64, rest)
  | 4 => do
    let (value, rest) ← takeUint 8 input
    .ok (u64 value, rest)
  | 5 => do
    let (bits, rest) ← takeUint 8 input
    let canonical ← CanonicalF64.new bits
    ensure (canonical.bits = bits) (.codec "noncanonical floating value")
    .ok (f64 canonical, rest)
  | 6 => do
    let (value, rest) ← prefixedString maxStringBytes input
    .ok (string value, rest)
  | 7 => do
    let (value, rest) ← prefixedBytes (some maxBlobBytes) input
    .ok (bytes value, rest)
  | tag => .error (.codec ("unknown graph value tag " ++ toString tag))

def decode (input : Bytes) : Result (GraphValueV1 × Bytes) := do
  let (tag, rest) ← takeUint 1 input
  let (value, rest) ← decodeTagged rest tag
  value.validate
  .ok (value, rest)

end GraphValueV1

def validateNonemptyBytes (field value : String) (maximum : Nat) : Result Unit :=
  ensure (value ≠ "" ∧ (utf8 value).length ≤ maximum)
    (.invalidCommand (field ++ " must contain 1..=" ++ toString maximum ++ " bytes"))

namespace GraphOperationV1

def validate : GraphOperationV1 → Result Unit
  | putDocument id value => do
    validateNonemptyBytes "document id" id maxDocumentIdBytes
    value.validate
  | deleteDocument id => validateNonemptyBytes "document id" id maxDocumentIdBytes

def encode : GraphOperationV1 → Bytes
  | putDocument id value => [1] ++ writeBytes (utf8 id) ++ value.encode
  | deleteDocument id => [2] ++ writeBytes (utf8 id)

def decodeTagged (tag : Nat) (input : Bytes) : Result (GraphOperationV1 × Bytes) :=
  if tag = 1 then do
    let (id, rest) ← prefixedString maxDocumentIdBytes input
    let (value, rest) ← GraphValueV1.decode rest
    .ok (putDocument id value, rest)
  else if tag = 2 then do
    let (id, rest) ← prefixedString maxDocumentIdBytes input
    .ok (deleteDocument id, rest)
  else .error (.codec ("unknown graph command tag " ++ toString tag))

end GraphOperationV1

namespace GraphCommandV1

def validate (command : GraphCommandV1) : Result Unit := do
  validateNonemptyBytes "request_id" command.requestId maxRequestIdBytes
  command.operation.validate

def encode (command : GraphCommandV1) : Bytes :=
  commandMagic ++ writeBytes (utf8 command.requestId) ++ command.operation.encode

def decode (bytes : Bytes) : Result GraphCommandV1 := do
  let (magic, rest) ← takeBytes commandMagic.length bytes
  ensure (magic = commandMagic) (.codec "wrong graph command magic or version")
  let (requestId, rest) ← prefixedString maxRequestIdBytes rest
  let (tag, rest) ← takeUint 1 rest
  let (operation, rest) ← GraphOperationV1.decodeTagged tag rest
  ensure (rest = []) (.codec "trailing graph command bytes")
  let command : GraphCommandV1 := ⟨requestId, operation⟩
  command.validate
  ensure (command.encode = bytes) (.codec "noncanonical graph command")
  .ok command

end GraphCommandV1

def liftEnvelope {α : Type} : Except CommandEnvelopeError α → Result α
  | .ok a => .ok a
  | .error error => .error (.invalidCommand error.display)

def encodeEnvelope (version : Nat) (requestId : String) (body : Bytes) : Result Bytes :=
  liftEnvelope do
    let envelope ← ReplicatedCommandEnvelope.new .graph version requestId body
    envelope.encode

def encodeReplicatedGraphCommand (command : GraphCommandV1) : Result Bytes :=
  encodeEnvelope commandVersion command.requestId command.encode

def batchSizeError : Error :=
  .invalidCommand ("graph batch must contain 1..=" ++ toString maxGraphBatchMembers ++ " commands")

def repeatedRequestError (requestId : String) : Error :=
  .invalidCommand ("graph batch repeats request id " ++ requestId.quote)

/-- The loop of `encode_replicated_graph_batch`. -/
def encodeBatchMembers : List String → Bytes → List GraphCommandV1 → Result Bytes
  | _, body, [] => .ok body
  | seen, body, command :: commands => do
    command.validate
    ensure (command.requestId ∉ seen) (repeatedRequestError command.requestId)
    encodeBatchMembers (command.requestId :: seen) (body ++ writeBytes command.encode) commands

def encodeReplicatedGraphBatch (commands : List GraphCommandV1) : Result Bytes := do
  ensure (commands ≠ [] ∧ commands.length ≤ maxGraphBatchMembers) batchSizeError
  let body ← encodeBatchMembers [] (batchCommandMagic ++ toBeBytes 2 commands.length) commands
  encodeEnvelope batchCommandVersion batchRequestId body

def expectGraphProfile (envelope : ReplicatedCommandEnvelope) : Result Unit :=
  ensure (envelope.profile = .graph)
    (.invalidCommand ("expected graph execution profile, got " ++ envelope.profile.asStr))

def unsupportedVersion (version : Nat) : Error :=
  .invalidCommand ("unsupported graph command version " ++ toString version)

def decodeReplicatedGraphCommand (payload : Bytes) : Result GraphCommandV1 := do
  let envelope ← liftEnvelope (ReplicatedCommandEnvelope.decode payload)
  expectGraphProfile envelope
  ensure (envelope.commandVersion = commandVersion) (unsupportedVersion envelope.commandVersion)
  let command ← GraphCommandV1.decode envelope.body
  ensure (envelope.requestId = command.requestId)
    (.invalidCommand "replicated envelope request id does not match RHGC request id")
  .ok command

structure DecodedGraphCommand where
  command : GraphCommandV1
  individualPayload : Bytes
  deriving DecidableEq

/-- The loop of `decode_replicated_graph_commands` over the members of a batch. -/
def decodeBatchMembers : Nat → List String → Bytes → Result (List DecodedGraphCommand × Bytes)
  | 0, _, input => .ok ([], input)
  | count + 1, seen, input => do
    let (encoded, rest) ← prefixedBytes none input
    let command ← GraphCommandV1.decode encoded
    ensure (command.requestId ∉ seen) (repeatedRequestError command.requestId)
    let individualPayload ← encodeReplicatedGraphCommand command
    let (members, rest) ← decodeBatchMembers count (command.requestId :: seen) rest
    .ok (⟨command, individualPayload⟩ :: members, rest)

/-- The batch branch of `decode_replicated_graph_commands`. -/
def decodeBatch (payload : Bytes) (envelope : ReplicatedCommandEnvelope) :
    Result (List DecodedGraphCommand) := do
  ensure (envelope.requestId = batchRequestId)
    (.invalidCommand "graph batch envelope request id is invalid")
  let (magic, rest) ← takeBytes batchCommandMagic.length envelope.body
  ensure (magic = batchCommandMagic) (.codec "wrong graph batch command magic or version")
  let (count, rest) ← takeUint 2 rest
  ensure (count ≠ 0 ∧ count ≤ maxGraphBatchMembers) batchSizeError
  let (members, rest) ← decodeBatchMembers count [] rest
  ensure (rest = []) (.codec "trailing graph batch command bytes")
  let canonical ← encodeReplicatedGraphBatch (members.map (·.command))
  ensure (canonical = payload) (.codec "noncanonical graph batch command")
  .ok members

def decodeReplicatedGraphCommands (payload : Bytes) : Result (List DecodedGraphCommand) := do
  let envelope ← liftEnvelope (ReplicatedCommandEnvelope.decode payload)
  expectGraphProfile envelope
  if envelope.commandVersion = commandVersion then do
    let command ← decodeReplicatedGraphCommand payload
    .ok [⟨command, payload⟩]
  else if envelope.commandVersion = batchCommandVersion then decodeBatch payload envelope
  else .error (unsupportedVersion envelope.commandVersion)

end Rhiza.Graph
