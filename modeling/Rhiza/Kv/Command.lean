import Rhiza.Core.Envelope

/-! # Commands of the key-value profile

A command puts or deletes one key. An entry carries one command or a batch, and
every member of a batch is identified by the payload it would have had alone.
-/

namespace Rhiza.Kv

open Core Library

inductive Error
  | codec (message : String)
  | invalidCommand (message : String)
  | invalidEntry (message : String)
  | partialInitialization
  | requestConflict (requestId : String)
  | database (message : String)
  deriving DecidableEq

abbrev Result (α : Type) := Except Error α

def commandMagic : Bytes := utf8 "RHKV" ++ [0, 1]
def batchCommandMagic : Bytes := utf8 "RHKB" ++ [0, 1]
def commandVersion : Nat := 1
def batchCommandVersion : Nat := 3
def batchRequestId : String := "__rhiza_kv_batch_v1"
def maxRequestIdBytes : Nat := 256
def maxKvKeyBytes : Nat := 4 * 1024
def maxKvValueBytes : Nat := 256 * 1024
def maxReplicatedKvBatchMembers : Nat := 1024

inductive KvOperationV1
  | put (key value : Bytes)
  | delete (key : Bytes)
  deriving DecidableEq

structure KvCommandV1 where
  requestId : String
  operation : KvOperationV1
  deriving DecidableEq

def takeBytes (length : Nat) (input : Bytes) : Result (Bytes × Bytes) :=
  takeOr (.codec "truncated encoding") length input

/-- `Decoder::u8`, `Decoder::u16`, `Decoder::u32` and `Decoder::u64`. -/
def takeUint (width : Nat) (input : Bytes) : Result (Nat × Bytes) :=
  takeUintOr (.codec "truncated encoding") width input

def lengthPrefixedU32 (maximum : Nat) (name : String) (input : Bytes) : Result (Bytes × Bytes) := do
  let (length, rest) ← takeUint 4 input
  ensure (length ≤ maximum) (.codec (name ++ " exceeds " ++ toString maximum ++ " bytes"))
  takeBytes length rest

def finish (rest : Bytes) : Result Unit := ensure (rest = []) (.codec "trailing bytes")

def requestIdFromUtf8 (bytes : Bytes) : Result String :=
  (String.fromUTF8? ⟨bytes.toArray⟩).elim (.error (.codec "request id is not UTF-8")) .ok

def validateKey (key : Bytes) : Result Unit := do
  ensure (key ≠ []) (.invalidCommand "key must not be empty")
  ensure (key.length ≤ maxKvKeyBytes)
    (.invalidCommand ("key exceeds " ++ toString maxKvKeyBytes ++ " bytes"))

namespace KvOperationV1

def key : KvOperationV1 → Bytes
  | put key _ => key
  | delete key => key

def value? : KvOperationV1 → Option Bytes
  | put _ value => some value
  | delete _ => none

def encode : KvOperationV1 → Bytes
  | put key value =>
    [1] ++ toBeBytes 4 key.length ++ key ++ toBeBytes 4 value.length ++ value
  | delete key => [2] ++ toBeBytes 4 key.length ++ key

def decodeTagged (tag : Nat) (input : Bytes) : Result (KvOperationV1 × Bytes) :=
  if tag = 1 then do
    let (key, rest) ← lengthPrefixedU32 maxKvKeyBytes "key" input
    let (value, rest) ← lengthPrefixedU32 maxKvValueBytes "value" rest
    .ok (put key value, rest)
  else if tag = 2 then do
    let (key, rest) ← lengthPrefixedU32 maxKvKeyBytes "key" input
    .ok (delete key, rest)
  else .error (.codec ("unknown operation tag " ++ toString tag))

end KvOperationV1

namespace KvCommandV1

def validate (command : KvCommandV1) : Result Unit := do
  ensure (command.requestId ≠ "") (.invalidCommand "request id must not be empty")
  ensure ((utf8 command.requestId).length ≤ maxRequestIdBytes)
    (.invalidCommand ("request id exceeds " ++ toString maxRequestIdBytes ++ " bytes"))
  validateKey command.operation.key
  ensure (command.operation.value?.all (·.length ≤ maxKvValueBytes))
    (.invalidCommand ("value exceeds " ++ toString maxKvValueBytes ++ " bytes"))

def encode (command : KvCommandV1) : Bytes :=
  commandMagic ++ toBeBytes 2 (utf8 command.requestId).length ++ utf8 command.requestId ++
    command.operation.encode

def decode (encoded : Bytes) : Result KvCommandV1 := do
  let (magic, rest) ← takeBytes commandMagic.length encoded
  ensure (magic = commandMagic) (.codec "invalid RHKV magic or version")
  let (requestLen, rest) ← takeUint 2 rest
  let (requestBytes, rest) ← takeBytes requestLen rest
  let requestId ← requestIdFromUtf8 requestBytes
  let (tag, rest) ← takeUint 1 rest
  let (operation, rest) ← KvOperationV1.decodeTagged tag rest
  finish rest
  let command : KvCommandV1 := ⟨requestId, operation⟩
  command.validate
  .ok command

end KvCommandV1

def liftEnvelope {α : Type} : Except CommandEnvelopeError α → Result α
  | .ok a => .ok a
  | .error error => .error (.codec error.display)

def encodeEnvelope (version : Nat) (requestId : String) (body : Bytes) : Result Bytes :=
  liftEnvelope do
    let envelope ← ReplicatedCommandEnvelope.new .kv version requestId body
    envelope.encode

def encodeReplicatedKvCommand (command : KvCommandV1) : Result Bytes := do
  command.validate
  encodeEnvelope commandVersion command.requestId command.encode

def batchSizeError : Error :=
  .invalidCommand ("replicated KV batch must contain 1..=" ++
    toString maxReplicatedKvBatchMembers ++ " commands")

def repeatedRequestError (requestId : String) : Error :=
  .invalidCommand ("KV batch repeats request id " ++ requestId.quote)

/-- The loop of `encode_replicated_kv_batch`. -/
def encodeBatchMembers : List String → Bytes → List KvCommandV1 → Result Bytes
  | _, body, [] => .ok body
  | seen, body, command :: commands => do
    command.validate
    ensure (command.requestId ∉ seen) (repeatedRequestError command.requestId)
    ensure (command.encode.length < 2 ^ 32) (.codec "KV batch member is too large")
    encodeBatchMembers (command.requestId :: seen)
      (body ++ toBeBytes 4 command.encode.length ++ command.encode) commands

def encodeReplicatedKvBatch (commands : List KvCommandV1) : Result Bytes := do
  ensure (commands ≠ [] ∧ commands.length ≤ maxReplicatedKvBatchMembers) batchSizeError
  let body ← encodeBatchMembers [] (batchCommandMagic ++ toBeBytes 2 commands.length) commands
  encodeEnvelope batchCommandVersion batchRequestId body

def expectKvProfile (envelope : ReplicatedCommandEnvelope) : Result Unit :=
  ensure (envelope.profile = .kv)
    (.invalidCommand ("expected kv profile, got " ++ envelope.profile.asStr))

def unsupportedVersion (version : Nat) : Error :=
  .invalidCommand ("unsupported command version " ++ toString version)

def decodeReplicatedKvCommand (payload : Bytes) : Result KvCommandV1 := do
  let envelope ← liftEnvelope (ReplicatedCommandEnvelope.decode payload)
  expectKvProfile envelope
  ensure (envelope.commandVersion = commandVersion) (unsupportedVersion envelope.commandVersion)
  let command ← KvCommandV1.decode envelope.body
  ensure (command.requestId = envelope.requestId)
    (.invalidCommand "envelope and body request ids differ")
  .ok command

structure DecodedKvCommand where
  command : KvCommandV1
  individualPayload : Bytes
  deriving DecidableEq

/-- The loop of `decode_replicated_kv_commands` over the members of a batch. -/
def decodeBatchMembers : Nat → List String → Bytes → Result (List DecodedKvCommand × Bytes)
  | 0, _, input => .ok ([], input)
  | count + 1, seen, input => do
    let (length, rest) ← takeUint 4 input
    let (encoded, rest) ← takeBytes length rest
    let command ← KvCommandV1.decode encoded
    ensure (command.encode = encoded) (.codec "noncanonical KV batch member")
    ensure (command.requestId ∉ seen) (repeatedRequestError command.requestId)
    let individualPayload ← encodeReplicatedKvCommand command
    let (members, rest) ← decodeBatchMembers count (command.requestId :: seen) rest
    .ok (⟨command, individualPayload⟩ :: members, rest)

/-- The batch branch of `decode_replicated_kv_commands`. -/
def decodeBatch (payload : Bytes) (envelope : ReplicatedCommandEnvelope) :
    Result (List DecodedKvCommand) := do
  ensure (envelope.requestId = batchRequestId)
    (.invalidCommand "KV batch envelope request id is invalid")
  let (magic, rest) ← takeBytes batchCommandMagic.length envelope.body
  ensure (magic = batchCommandMagic) (.codec "invalid KV batch magic or version")
  let (count, rest) ← takeUint 2 rest
  ensure (count ≠ 0 ∧ count ≤ maxReplicatedKvBatchMembers) batchSizeError
  let (members, rest) ← decodeBatchMembers count [] rest
  finish rest
  let canonical ← encodeReplicatedKvBatch (members.map (·.command))
  ensure (canonical = payload) (.codec "noncanonical KV batch command")
  .ok members

def decodeReplicatedKvCommands (payload : Bytes) : Result (List DecodedKvCommand) := do
  let envelope ← liftEnvelope (ReplicatedCommandEnvelope.decode payload)
  expectKvProfile envelope
  if envelope.commandVersion = commandVersion then do
    let command ← decodeReplicatedKvCommand payload
    .ok [⟨command, payload⟩]
  else if envelope.commandVersion = batchCommandVersion then decodeBatch payload envelope
  else .error (unsupportedVersion envelope.commandVersion)

end Rhiza.Kv
