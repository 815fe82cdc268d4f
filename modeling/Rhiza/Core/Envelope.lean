import Rhiza.Core.ConfigChange
import Rhiza.Library.Fallible

/-! # The envelope of a replicated command

The command of an entry is wrapped in an envelope that names the profile it is
for, its version and the request it belongs to.
-/

namespace Rhiza.Core

open Library

/-- An unsigned integer of `width` bytes from the front of what is left. -/
def takeUintOr {ε : Type} (error : ε) (width : Nat) (input : Bytes) : Except ε (Nat × Bytes) := do
  let (bytes, rest) ← takeOr error width input
  .ok (fromBeBytes bytes, rest)

theorem takeUintOr_append {ε : Type} (error : ε) (width : Nat) {n : Nat} (rest : Bytes)
    (h : n < 256 ^ width) : takeUintOr error width (toBeBytes width n ++ rest) = .ok (n, rest) := by
  rw [takeUintOr, takeOr_append error rest (toBeBytes_length width n), ok_bind]
  simp only [fromBeBytes_toBeBytes width n h]

inductive ExecutionProfile
  | sqlite
  | graph
  | kv
  deriving DecidableEq

namespace ExecutionProfile

def asStr : ExecutionProfile → String
  | sqlite => "sql"
  | graph => "graph"
  | kv => "kv"

def wireId : ExecutionProfile → UInt8
  | sqlite => 1
  | graph => 2
  | kv => 3

def fromWireId (value : UInt8) : Option ExecutionProfile :=
  if value = 1 then some sqlite
  else if value = 2 then some graph
  else if value = 3 then some kv
  else none

end ExecutionProfile

structure ReplicatedCommandEnvelope where
  profile : ExecutionProfile
  commandVersion : Nat
  requestId : String
  body : Bytes
  deriving DecidableEq

inductive CommandEnvelopeError
  | invalidMagic
  | unsupportedFormatVersion (version : Nat)
  | unknownExecutionProfile (profile : UInt8)
  | invalidCommandVersion
  | emptyRequestId
  | requestIdTooLong
  | bodyTooLong
  | invalidRequestIdUtf8
  | truncated
  | lengthOverflow
  | trailingBytes
  deriving DecidableEq

/-- `CommandEnvelopeError::to_string`. -/
def CommandEnvelopeError.display : CommandEnvelopeError → String
  | invalidMagic => "replicated command magic is invalid"
  | unsupportedFormatVersion version =>
    "unsupported replicated command format version " ++ toString version
  | unknownExecutionProfile profile => "unknown execution profile wire id " ++ toString profile
  | invalidCommandVersion => "replicated command version must be positive"
  | emptyRequestId => "replicated command request id is empty"
  | requestIdTooLong => "replicated command request id exceeds u16 length"
  | bodyTooLong => "replicated command body exceeds u32 length"
  | invalidRequestIdUtf8 => "replicated command request id is not UTF-8"
  | truncated => "replicated command is truncated"
  | lengthOverflow => "replicated command length overflow"
  | trailingBytes => "replicated command has trailing bytes"

def replicatedCommandMagic : Bytes := utf8 "QCMD"
def replicatedCommandFormatVersion : Nat := 1
def replicatedCommandHeaderBytes : Nat := 15

def validateCommandEnvelopeFields (commandVersion : Nat) (requestId : String) (body : Bytes) :
    Except CommandEnvelopeError Unit := do
  ensure (commandVersion ≠ 0) .invalidCommandVersion
  ensure (requestId ≠ "") .emptyRequestId
  ensure ((utf8 requestId).length < 2 ^ 16) .requestIdTooLong
  ensure (body.length < 2 ^ 32) .bodyTooLong

namespace ReplicatedCommandEnvelope

def new (profile : ExecutionProfile) (commandVersion : Nat) (requestId : String) (body : Bytes) :
    Except CommandEnvelopeError ReplicatedCommandEnvelope := do
  validateCommandEnvelopeFields commandVersion requestId body
  .ok ⟨profile, commandVersion, requestId, body⟩

def encode (envelope : ReplicatedCommandEnvelope) : Except CommandEnvelopeError Bytes := do
  validateCommandEnvelopeFields envelope.commandVersion envelope.requestId envelope.body
  .ok (replicatedCommandMagic ++ toBeBytes 2 replicatedCommandFormatVersion ++
    [envelope.profile.wireId] ++ toBeBytes 2 envelope.commandVersion ++
    toBeBytes 2 (utf8 envelope.requestId).length ++ toBeBytes 4 envelope.body.length ++
    utf8 envelope.requestId ++ envelope.body)

def decode (encoded : Bytes) : Except CommandEnvelopeError ReplicatedCommandEnvelope := do
  ensure (replicatedCommandHeaderBytes ≤ encoded.length) .truncated
  ensure (window encoded 0 4 = replicatedCommandMagic) .invalidMagic
  let formatVersion := fromBeBytes (window encoded 4 2)
  ensure (formatVersion = replicatedCommandFormatVersion) (.unsupportedFormatVersion formatVersion)
  let profile ← (ExecutionProfile.fromWireId (encoded.getD 6 0)).elim
    (.error (.unknownExecutionProfile (encoded.getD 6 0))) .ok
  let commandVersion := fromBeBytes (window encoded 7 2)
  let requestIdLen := fromBeBytes (window encoded 9 2)
  let bodyLen := fromBeBytes (window encoded 11 4)
  let requestIdEnd := replicatedCommandHeaderBytes + requestIdLen
  let bodyEnd := requestIdEnd + bodyLen
  ensure (bodyEnd ≤ encoded.length) .truncated
  ensure (encoded.length = bodyEnd) .trailingBytes
  let requestId ← (String.fromUTF8?
      ⟨(window encoded replicatedCommandHeaderBytes requestIdLen).toArray⟩).elim
    (.error .invalidRequestIdUtf8) .ok
  new profile commandVersion requestId (window encoded requestIdEnd bodyLen)

end ReplicatedCommandEnvelope

end Rhiza.Core
