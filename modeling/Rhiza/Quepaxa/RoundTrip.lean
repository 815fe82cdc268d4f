import Rhiza.Quepaxa.Wire

/-! # The decoders read what the encoders write

For every part of a file, what its encoder wrote is read back, whatever follows
it. The integers of the source fit their types; a string that is too long was
refused by the encoder.
-/

namespace Rhiza.Quepaxa

open Core

def Ballot.Fits (ballot : Ballot) : Prop := ballot.round < 2 ^ 64 ∧ ballot.priority < 2 ^ 128

def Proposal.Fits (proposal : Proposal) : Prop := proposal.proposalId < 2 ^ 64

structure RecorderSummary.Fits (summary : RecorderSummary) : Prop where
  slot : summary.slot < 2 ^ 64
  step : summary.step < 2 ^ 64
  firstCurrent : ∀ proposal, summary.firstCurrent = some proposal → proposal.Fits
  aggregatePrior : ∀ proposal, summary.aggregatePrior = some proposal → proposal.Fits

structure DecisionProof.Fits (proof : DecisionProof) : Prop where
  slot : proof.slot < 2 ^ 64
  epoch : proof.epoch < 2 ^ 64
  configId : proof.configId < 2 ^ 64
  step : proof.step < 2 ^ 64
  proposal : proof.proposal.Fits
  summaries : ∀ summary ∈ proof.summaries, summary.Fits

structure DecisionCertificate.Fits (decision : DecisionCertificate) : Prop where
  slot : decision.slot < 2 ^ 64
  epoch : decision.epoch < 2 ^ 64
  configId : decision.configId < 2 ^ 64
  ballot : decision.ballot.Fits

structure RecorderSlotState.Fits (state : RecorderSlotState) : Prop where
  slot : state.slot < 2 ^ 64
  epoch : state.epoch < 2 ^ 64
  configId : state.configId < 2 ^ 64
  highestPromised : ∀ ballot, state.highestPromised = some ballot → ballot.Fits
  accepted : ∀ accepted, state.accepted = some accepted → accepted.ballot.Fits
  decided : ∀ decision, state.decided = some decision → decision.Fits
  step : state.isr.step < 2 ^ 64
  firstCurrent : ∀ proposal, state.isr.firstCurrent = some proposal → proposal.Fits
  aggregateCurrent : ∀ proposal, state.isr.aggregateCurrent = some proposal → proposal.Fits
  aggregatePrior : ∀ proposal, state.isr.aggregatePrior = some proposal → proposal.Fits
  decidedProof : ∀ proof, state.decidedProof = some proof → proof.Fits

structure ConfigurationState.Fits (configuration : ConfigurationState) : Prop where
  configId : configuration.configId < 2 ^ 64
  slot : ∀ slot, configuration.maxAcceptedOrDecidedSlot = some slot → slot < 2 ^ 64
  predecessor : ∀ mark, configuration.predecessor = some mark → mark.stopSlot < 2 ^ 64
  sealed : ∀ mark, configuration.sealed = some mark → mark.stopSlot < 2 ^ 64

def RecordedHeadProvenance.Fits : RecordedHeadProvenance → Prop
  | .empty => True
  | .slotBacked slot => slot < 2 ^ 64
  | .checkpointBacked stopSlot _ recoveredTip _ => stopSlot < 2 ^ 64 ∧ recoveredTip < 2 ^ 64

end Rhiza.Quepaxa

namespace Rhiza.Quepaxa.Wire

open Core Library Decoder

theorem reads_u8 (byte : UInt8) : Reads readU8 [byte] byte := fun _ => rfl

theorem reads_exactly {bytes : Bytes} {count : Nat} (message : String)
    (h : bytes.length = count) : Reads (readExactly count message) bytes bytes := by
  intro rest
  simp only [readExactly, takeExactly_append h]

theorem reads_uint {width n : Nat} (message : String) (h : n < 256 ^ width) :
    Reads (readUint width message) (toBeBytes width n) n := by
  have hRead := (reads_exactly message (toBeBytes_length width n)).last (f := fromBeBytes)
  rwa [fromBeBytes_toBeBytes width n h] at hRead

theorem reads_u16 {n : Nat} (h : n ≤ 65535) : Reads readU16 (toBeBytes 2 n) n :=
  reads_uint _ (by omega)

theorem reads_u64 {n : Nat} (h : n < 2 ^ 64) : Reads readU64 (toBeBytes 8 n) n :=
  reads_uint _ (by omega)

theorem reads_u128 {n : Nat} (h : n < 2 ^ 128) : Reads readU128 (toBeBytes 16 n) n :=
  reads_uint _ (by omega)

theorem reads_hash (hash : LogHash) : Reads readHash hash.bytes hash := by
  intro rest
  unfold readHash
  split
  · rename_i hTaken
    rw [takeExactly_append hash.size] at hTaken
    cases hTaken
    rfl
  · rename_i hTaken
    rw [takeExactly_append hash.size] at hTaken
    cases hTaken

theorem reads_priority (priority : ProposalPriority) :
    Reads readPriority priority.bytes priority := by
  intro rest
  unfold readPriority
  split
  · rename_i hTaken
    rw [takeExactly_append priority.size] at hTaken
    cases hTaken
    rfl
  · rename_i hTaken
    rw [takeExactly_append priority.size] at hTaken
    cases hTaken

theorem putBytes_eq_ok {value part : Bytes} (h : putBytes value = .ok part) :
    value.length ≤ 65535 ∧ part = toBeBytes 2 value.length ++ value := by
  unfold putBytes at h
  split at h
  · rename_i hLength
    exact ⟨hLength, (Except.ok.inj h).symm⟩
  · cases h

theorem reads_bytes (value : Bytes) : Recovers putBytes readBytes value := by
  intro part h
  obtain ⟨hLength, rfl⟩ := putBytes_eq_ok h
  exact (reads_u16 hLength).bind (reads_exactly _ rfl)

theorem reads_string (text : String) :
    Recovers (fun text => putBytes (utf8 text)) readString text := by
  intro part h
  have hText : fromUtf8 (utf8 text) = .ok text := by
    rw [fromUtf8, fromUtf8_utf8, Option.elim_some]
  have hRead : Reads readString (part ++ []) text :=
    (reads_bytes (utf8 text) part h).bind (Reads.of_check hText)
  rwa [List.append_nil] at hRead

theorem reads_blob {value : Bytes} (h : value.length < 2 ^ 64) :
    Reads readBlob (putBlob value) value :=
  (reads_u64 h).bind (reads_exactly _ rfl)

theorem reads_flag {α : Type} {encode : α → Result Bytes} {read : Reading α} {found : Option α}
    (message : String) (h : ∀ a, found = some a → Recovers encode read a) :
    Recovers (encodeFlag encode) (decodeFlag message read) found := by
  intro part hPart
  cases found with
  | none =>
    obtain rfl := Except.ok.inj hPart
    exact fun _ => rfl
  | some a =>
    obtain ⟨body, hBody, hPart⟩ := bind_ok_iff.mp hPart
    obtain rfl := Except.ok.inj hPart
    intro rest
    exact (h a rfl body hBody).last (f := some) rest

theorem reads_many {α : Type} {encode : α → Result Bytes} {read : Reading α} {items : List α}
    (h : ∀ a ∈ items, Recovers encode read a) :
    Recovers (encodeAll encode) (many read items.length) items := by
  induction items with
  | nil =>
    intro part hPart
    obtain rfl := Except.ok.inj hPart
    exact Reads.pure []
  | cons item items ih =>
    intro part hPart
    obtain ⟨first, hFirst, hPart⟩ := bind_ok_iff.mp hPart
    obtain ⟨others, hOthers, hPart⟩ := bind_ok_iff.mp hPart
    obtain rfl := Except.ok.inj hPart
    have hItem := h item List.mem_cons_self first hFirst
    have hItems := ih (fun a ha => h a (List.mem_cons_of_mem _ ha)) others hOthers
    exact hItem.bind hItems.last

theorem reads_value (value : AcceptedValue) : Reads decodeValue (encodeValue value) value := by
  rw [encodeValue, List.append_assoc]
  exact (reads_hash _).bind ((reads_hash _).bind (reads_hash _).last)

theorem reads_ballot {ballot : Ballot} (h : ballot.Fits) :
    Recovers encodeBallot decodeBallot ballot := by
  intro part hPart
  obtain ⟨name, hName, hPart⟩ := bind_ok_iff.mp hPart
  obtain rfl := Except.ok.inj hPart
  rw [List.append_assoc]
  exact (reads_u64 h.1).bind ((reads_u128 h.2).bind (reads_string _ _ hName).last)

theorem reads_proposal {proposal : Proposal} (h : proposal.Fits) :
    Recovers encodeProposal decodeProposal proposal := by
  intro part hPart
  obtain ⟨name, hName, hPart⟩ := bind_ok_iff.mp hPart
  obtain ⟨value, hValue, hPart⟩ := bind_ok_iff.mp hPart
  obtain rfl := Except.ok.inj hPart
  have hFlag : Reads (decodeFlag "invalid proposal value flag" decodeValue) value proposal.value :=
    reads_flag _ (fun a _ part hPart => Except.ok.inj hPart ▸ reads_value a) value hValue
  rw [List.append_assoc, List.append_assoc]
  exact (reads_priority _).bind ((reads_string _ _ hName).bind ((reads_u64 h).bind hFlag.last))

theorem reads_optional_proposal {found : Option Proposal}
    (h : ∀ proposal, found = some proposal → proposal.Fits) :
    Recovers encodeOptionalProposal decodeOptionalProposal found :=
  reads_flag _ fun proposal hFound => reads_proposal (h proposal hFound)

theorem reads_summary {summary : RecorderSummary} (h : summary.Fits) :
    Recovers encodeSummary decodeSummary summary := by
  intro part hPart
  obtain ⟨name, hName, hPart⟩ := bind_ok_iff.mp hPart
  obtain ⟨first, hFirst, hPart⟩ := bind_ok_iff.mp hPart
  obtain ⟨prior, hPrior, hPart⟩ := bind_ok_iff.mp hPart
  obtain rfl := Except.ok.inj hPart
  simp only [List.append_assoc]
  exact (reads_string _ _ hName).bind <| (reads_u64 h.slot).bind <| (reads_u64 h.step).bind <|
    (reads_optional_proposal h.firstCurrent _ hFirst).bind
      (reads_optional_proposal h.aggregatePrior _ hPrior).last

def proofTag : DecisionProof → UInt8
  | .fastPath .. => 1
  | .phase2 .. => 2

theorem proofOfTag_eq (proof : DecisionProof) :
    proofOfTag (proofTag proof) proof.clusterId proof.slot proof.epoch proof.configId
      proof.configDigest proof.step proof.proposal proof.summaries = .ok proof := by
  cases proof <;> rfl

theorem reads_proof {proof : DecisionProof} (h : proof.Fits) :
    Recovers encodeProof (decodeProof (proofTag proof)) proof := by
  intro part hPart
  obtain ⟨name, hName, hPart⟩ := bind_ok_iff.mp hPart
  obtain ⟨proposal, hProposal, hPart⟩ := bind_ok_iff.mp hPart
  obtain ⟨summaries, hSummaries, hPart⟩ := bind_ok_iff.mp hPart
  split at hPart
  · rename_i hCount
    obtain rfl := Except.ok.inj hPart
    have hFound : Reads decodeOptionalProposal proposal (some proof.proposal) :=
      reads_optional_proposal (fun _ hFound => Option.some.inj hFound ▸ h.proposal) _ hProposal
    have hMany := reads_many (fun summary hSummary => reads_summary (h.summaries summary hSummary))
      summaries hSummaries
    simp only [List.append_assoc]
    rw [← List.append_nil summaries]
    exact (reads_string _ _ hName).bind <| (reads_u64 h.slot).bind <| (reads_u64 h.epoch).bind <|
      (reads_u64 h.configId).bind <| (reads_hash _).bind <| (reads_u64 h.step).bind <|
      hFound.bind <| Reads.checked rfl <| (reads_u16 hCount).bind <| hMany.bind <|
      Reads.of_check (proofOfTag_eq proof)
  · cases hPart

theorem encodeOptionalProof_some (proof : DecisionProof) :
    encodeOptionalProof (some proof) =
      encodeProof proof >>= fun body => .ok (proofTag proof :: body) := by
  cases proof <;> rfl

theorem reads_optional_proof {found : Option DecisionProof}
    (h : ∀ proof, found = some proof → proof.Fits) :
    Recovers encodeOptionalProof decodeOptionalProof found := by
  intro part hPart
  cases found with
  | none =>
    obtain rfl := Except.ok.inj hPart
    exact fun _ => rfl
  | some proof =>
    rw [encodeOptionalProof_some] at hPart
    obtain ⟨body, hBody, hPart⟩ := bind_ok_iff.mp hPart
    obtain rfl := Except.ok.inj hPart
    have hTag : proofTag proof ≠ 0 := by cases proof <;> simp [proofTag]
    have hProof := (reads_proof (h proof rfl) body hBody).last (f := some)
    have hRead : Reads decodeOptionalProof ([proofTag proof] ++ body) (some proof) := by
      refine (reads_u8 _).bind ?_
      rwa [if_neg hTag]
    exact hRead

theorem reads_certificate {decision : DecisionCertificate} (h : decision.Fits) :
    Recovers encodeCertificate decodeCertificate decision := by
  intro part hPart
  obtain ⟨ballot, hBallot, hPart⟩ := bind_ok_iff.mp hPart
  obtain ⟨names, hNames, hPart⟩ := bind_ok_iff.mp hPart
  split at hPart
  · rename_i hCount
    obtain rfl := Except.ok.inj hPart
    have hMany := reads_many (fun name _ => reads_string name) names hNames
    simp only [List.append_assoc]
    exact (reads_u64 h.slot).bind <| (reads_u64 h.epoch).bind <| (reads_u64 h.configId).bind <|
      (reads_hash _).bind <| (reads_ballot h.ballot _ hBallot).bind <| (reads_value _).bind <|
      (reads_u16 hCount).bind hMany.last
  · cases hPart

theorem reads_accepted {accepted : AcceptedSummary} (h : accepted.ballot.Fits) :
    Recovers (fun accepted : AcceptedSummary => do
      .ok ((← encodeBallot accepted.ballot) ++ encodeValue accepted.value)) decodeAccepted
      accepted := by
  intro part hPart
  obtain ⟨ballot, hBallot, hPart⟩ := bind_ok_iff.mp hPart
  obtain rfl := Except.ok.inj hPart
  exact (reads_ballot h _ hBallot).bind (reads_value _).last

theorem reads_version {version : Nat} (error : Nat → Error) (h : version ≤ 65535) :
    Reads (readVersion version error) (toBeBytes 2 version) () := by
  have hRead : Reads (readVersion version error) (toBeBytes 2 version ++ []) () :=
    (reads_u16 h).bind (Reads.of_check (ensure_of rfl))
  rwa [List.append_nil] at hRead

variable [Sha256]

theorem checkedBody_withDigest (message : String) (body : Bytes) :
    checkedBody message (withDigest body) = .ok body := by
  have hLength : (withDigest body).length - 32 = body.length := by
    rw [withDigest, List.length_append, (LogHash.digest [body]).size]
    omega
  unfold checkedBody
  rw [hLength, withDigest, List.take_left, List.drop_left]
  exact bind_ok_iff.mpr ⟨(), ensure_of rfl, rfl⟩

theorem magic_withDigest (name : String) (part : Bytes) (h : (utf8 name).length = 4) :
    (withDigest (utf8 name ++ part)).length = 36 + part.length ∧
      (withDigest (utf8 name ++ part)).take 4 = utf8 name := by
  constructor
  · rw [withDigest, List.length_append, List.length_append, h, LogHash.size]
    omega
  · rw [withDigest, List.append_assoc, List.take_left' h]

omit [Sha256] in
theorem whole_after_magic {α : Type} {read : Reading α} {name : String} {part : Bytes} {a : α}
    (trailing : Error) (hName : (utf8 name).length = 4) (h : Reads read part a) :
    read.whole trailing ((utf8 name ++ part).drop 4) = .ok a := by
  rw [List.drop_left' hName]
  exact h.whole trailing

/-- What `decode_recorder_state` checks across the fields. -/
structure Coherent (state : RecorderSlotState) : Prop where
  accepted : checkAccepted state = .ok ()
  decided : checkDecided state = .ok ()
  decidedProof : checkDecidedProof state = .ok ()

theorem decodeRecorderState_encode {state : RecorderSlotState} {bytes : Bytes} (hFits : state.Fits)
    (hCoherent : Coherent state) (h : encodeRecorderState state = .ok bytes) :
    decodeRecorderState bytes = .ok state := by
  obtain ⟨clusterId, hCluster, h⟩ := bind_ok_iff.mp h
  obtain ⟨highestPromised, hPromised, h⟩ := bind_ok_iff.mp h
  obtain ⟨accepted, hAccepted, h⟩ := bind_ok_iff.mp h
  obtain ⟨decided, hDecided, h⟩ := bind_ok_iff.mp h
  obtain ⟨firstCurrent, hFirst, h⟩ := bind_ok_iff.mp h
  obtain ⟨aggregateCurrent, hCurrent, h⟩ := bind_ok_iff.mp h
  obtain ⟨aggregatePrior, hPrior, h⟩ := bind_ok_iff.mp h
  obtain ⟨decidedProof, hProof, h⟩ := bind_ok_iff.mp h
  obtain rfl := Except.ok.inj h
  have hBallot := reads_flag "invalid ballot flag"
    (fun ballot hFound => reads_ballot (hFits.highestPromised ballot hFound)) _ hPromised
  have hValue := reads_flag "invalid accepted flag"
    (fun value hFound => reads_accepted (hFits.accepted value hFound)) _ hAccepted
  have hDecision := reads_flag "invalid decided flag"
    (fun decision hFound => reads_certificate (hFits.decided decision hFound)) _ hDecided
  have hRead : Reads readRecorderState (toBeBytes 2 4 ++ (toBeBytes 8 state.slot ++
      (toBeBytes 8 state.epoch ++ (toBeBytes 8 state.configId ++ (state.configDigest.bytes ++
      (clusterId ++ (highestPromised ++ (accepted ++ (decided ++ (toBeBytes 8 state.isr.step ++
      (firstCurrent ++ (aggregateCurrent ++ (aggregatePrior ++ decidedProof))))))))))))) state :=
    (reads_version _ (by decide)).bind <| (reads_u64 hFits.slot).bind <|
      (reads_u64 hFits.epoch).bind <| (reads_u64 hFits.configId).bind <| (reads_hash _).bind <|
      (reads_string _ _ hCluster).bind <| hBallot.bind <| hValue.bind <| hDecision.bind <|
      (reads_u64 hFits.step).bind <|
      (reads_optional_proposal hFits.firstCurrent _ hFirst).bind <|
      (reads_optional_proposal hFits.aggregateCurrent _ hCurrent).bind <|
      (reads_optional_proposal hFits.aggregatePrior _ hPrior).bind
        (reads_optional_proof hFits.decidedProof _ hProof).last
  simp only [List.append_assoc]
  obtain ⟨hLength, hMagic⟩ := magic_withDigest "QREC" _ (by decide)
  refine bind_ok_iff.mpr ⟨(), ensure_of ⟨?_, hMagic⟩, bind_ok_iff.mpr
    ⟨_, checkedBody_withDigest _ _, bind_ok_iff.mpr ⟨state,
      whole_after_magic _ (by decide) hRead, ?_⟩⟩⟩
  · rw [hLength, List.length_append, toBeBytes_length]
    omega
  · rw [hCoherent.accepted, hCoherent.decided, hCoherent.decidedProof]
    rfl

omit [Sha256] in
theorem fromMembers_members (membership : Membership) :
    Membership.fromMembers membership.members = .ok membership := by
  obtain ⟨members, hMembers⟩ := membership
  have hIncreasing := List.isChain_iff_pairwise.mp hMembers.increasing
  have hSorted : (members.insertionSort (· ≤ ·)).dedup = members := by
    rw [(hIncreasing.imp fun hlt => le_of_lt hlt).insertionSort_eq]
    exact List.dedup_eq_self.mpr (hIncreasing.imp fun hlt => ne_of_lt hlt)
  have hSize := hMembers.atLeast
  have hNonempty : members.isEmpty = false := by
    cases members with
    | nil => simp at hSize
    | cons _ _ => rfl
  have hNamed : members.any (· == "") = false := by
    rw [List.any_eq_false]
    intro member hMember
    simpa using hMembers.named member hMember
  simp only [Membership.fromMembers, hSorted, hNonempty, hNamed, hMembers.atLeast, hMembers.atMost]
  simp [hMembers]

omit [Sha256] in
theorem reads_seal {mark : ConfigurationSeal} (h : mark.stopSlot < 2 ^ 64) :
    Reads decodeSeal (encodeSeal mark) mark := by
  rw [encodeSeal, List.append_assoc]
  exact (reads_u64 h).bind ((reads_hash _).bind (reads_hash _).last)

omit [Sha256] in
theorem reads_optional_seal {found : Option ConfigurationSeal}
    (h : ∀ mark, found = some mark → mark.stopSlot < 2 ^ 64) :
    Recovers (encodeFlag fun mark => .ok (encodeSeal mark)) decodeOptionalSeal found :=
  reads_flag _ fun mark hFound _ hPart => Except.ok.inj hPart ▸ reads_seal (h mark hFound)

omit [Sha256] in
theorem reads_activated (activated : Bool) :
    Reads readActivated [if activated then 1 else 0] activated := by
  cases activated <;> exact fun _ => rfl

/-- `encode_configuration_state`, for the members. -/
def encodeMembers (membership : Option Membership) : Result Bytes :=
  match membership with
  | some membership => do
    .ok (toBeBytes 1 membership.members.length ++
      (← encodeAll (fun member => putBytes (utf8 member)) membership.members))
  | none => .ok [0]

theorem reads_membership {configDigest : LogHash} {found : Option Membership}
    (h : ∀ membership, found = some membership → configDigest = membership.digest) :
    Recovers encodeMembers (readMembership configDigest) found := by
  intro part hPart
  cases found with
  | none =>
    obtain rfl := Except.ok.inj hPart
    exact fun _ => rfl
  | some membership =>
    obtain ⟨names, hNames, hPart⟩ := bind_ok_iff.mp hPart
    obtain rfl := Except.ok.inj hPart
    have hAtLeast := membership.canonical.atLeast
    have hAtMost := membership.canonical.atMost
    -- The count of at most seven members fits the byte that it is written to.
    have hCount : toBeBytes 1 membership.members.length =
        [UInt8.ofNat membership.members.length] := by
      rw [toBeBytes, toBeBytes]
      simp
    have hNat : (UInt8.ofNat membership.members.length).toNat = membership.members.length := by
      rw [UInt8.toNat_ofNat']
      omega
    have hNonzero : UInt8.ofNat membership.members.length ≠ 0 := by
      intro hZero
      rw [hZero] at hNat
      change 0 = _ at hNat
      omega
    have hMany := reads_many (fun name _ => reads_string name) names hNames
    rw [hCount]
    refine (reads_u8 _).bind ?_
    rw [if_neg hNonzero, hNat, ← List.append_nil names]
    exact hMany.bind <| Reads.checked (fromMembers_members membership) <|
      Reads.checked (ensure_of (h membership rfl).symm) (Reads.pure _)

theorem encodeConfigurationState_eq_ok {state : ConfigurationState} {bytes : Bytes}
    (h : encodeConfigurationState state = .ok bytes) :
    ∃ slot members predecessor mark,
      encodeFlag (fun slot => .ok (toBeBytes 8 slot)) state.maxAcceptedOrDecidedSlot = .ok slot ∧
      encodeMembers state.membership = .ok members ∧
      encodeFlag (fun mark => .ok (encodeSeal mark)) state.predecessor = .ok predecessor ∧
      encodeFlag (fun mark => .ok (encodeSeal mark)) state.sealed = .ok mark ∧
      bytes = withDigest (utf8 "QCON" ++ toBeBytes 2 3 ++ toBeBytes 8 state.configId ++
        state.configDigest.bytes ++ [if state.activated then 1 else 0] ++ slot ++ members ++
        predecessor ++ mark) := by
  obtain ⟨slot, hSlot, h⟩ := bind_ok_iff.mp h
  cases hMembership : state.membership with
  | none =>
    simp only [hMembership] at h
    obtain ⟨members, hMembers, h⟩ := bind_ok_iff.mp h
    obtain ⟨predecessor, hPredecessor, h⟩ := bind_ok_iff.mp h
    obtain ⟨mark, hMark, h⟩ := bind_ok_iff.mp h
    exact ⟨slot, members, predecessor, mark, hSlot, hMembers, hPredecessor, hMark,
      (Except.ok.inj h).symm⟩
  | some membership =>
    simp only [hMembership] at h
    obtain ⟨names, hNames, h⟩ := bind_ok_iff.mp h
    obtain ⟨members, hMembers, h⟩ := bind_ok_iff.mp h
    obtain ⟨predecessor, hPredecessor, h⟩ := bind_ok_iff.mp h
    obtain ⟨mark, hMark, h⟩ := bind_ok_iff.mp h
    exact ⟨slot, members, predecessor, mark, hSlot, bind_ok_iff.mpr ⟨names, hNames, hMembers⟩,
      hPredecessor, hMark, (Except.ok.inj h).symm⟩

theorem decodeConfigurationState_encode {state : ConfigurationState} {bytes : Bytes}
    (hFits : state.Fits)
    (hDigest : ∀ membership, state.membership = some membership →
      state.configDigest = membership.digest)
    (h : encodeConfigurationState state = .ok bytes) :
    decodeConfigurationState bytes = .ok state := by
  obtain ⟨slot, members, predecessor, mark, hSlot, hMembers, hPredecessor, hMark, rfl⟩ :=
    encodeConfigurationState_eq_ok h
  have hMax : Reads (decodeFlag "invalid accepted-slot flag" readU64) slot
      state.maxAcceptedOrDecidedSlot :=
    reads_flag _ (fun slot hFound _ hPart => Except.ok.inj hPart ▸
      reads_u64 (hFits.slot slot hFound)) _ hSlot
  have hRead : Reads readConfigurationState (toBeBytes 2 3 ++ (toBeBytes 8 state.configId ++
      (state.configDigest.bytes ++ ([if state.activated then 1 else 0] ++ (slot ++ (members ++
      (predecessor ++ mark))))))) state :=
    (reads_version _ (by decide)).bind <| (reads_u64 hFits.configId).bind <|
      (reads_hash _).bind <| (reads_activated _).bind <| hMax.bind <|
      (reads_membership hDigest _ hMembers).bind <|
      (reads_optional_seal hFits.predecessor _ hPredecessor).bind
        (reads_optional_seal hFits.sealed _ hMark).last
  simp only [List.append_assoc]
  obtain ⟨hLength, hMagic⟩ := magic_withDigest "QCON" _ (by decide)
  refine bind_ok_iff.mpr ⟨(), ensure_of ⟨?_, hMagic⟩, bind_ok_iff.mpr
    ⟨_, checkedBody_withDigest _ _, whole_after_magic _ (by decide) hRead⟩⟩
  rw [hLength, List.length_append, toBeBytes_length]
  omega

theorem decodeStoredCommand_encode {command : StoredCommand} (h : command.payload.length < 2 ^ 64) :
    decodeStoredCommand (encodeStoredCommand command) = .ok command := by
  have hRead : Reads readStoredCommand (toBeBytes 2 1 ++ ([command.entryType.asU8] ++
      (toBeBytes 8 command.payload.length ++ command.payload))) command :=
    (reads_version _ (by decide)).bind <| (reads_u8 _).bind <|
      Reads.checked (okOr_eq_ok.mpr (EntryType.fromU8_asU8 _)) <|
      (reads_u64 h).bind (reads_exactly _ rfl).last
  simp only [encodeStoredCommand, putBlob, List.append_assoc]
  obtain ⟨hLength, hMagic⟩ := magic_withDigest "QCMD" _ (by decide)
  refine bind_ok_iff.mpr ⟨(), ensure_of ⟨?_, hMagic⟩, bind_ok_iff.mpr
    ⟨_, checkedBody_withDigest _ _, whole_after_magic _ (by decide) hRead⟩⟩
  simp only [hLength, List.length_append, toBeBytes_length, List.length_singleton]
  omega

omit [Sha256] in
theorem reads_provenance {provenance : RecordedHeadProvenance} (error : UInt8 → Error)
    (h : provenance.Fits) :
    Reads (decodeHeadProvenance error) (encodeHeadProvenance provenance) provenance := by
  cases provenance with
  | empty => exact fun _ => rfl
  | slotBacked slot =>
    have hRead := (reads_u64 h).last (f := RecordedHeadProvenance.slotBacked)
    exact fun rest => hRead rest
  | checkpointBacked stopSlot prefixHash recoveredTip recoveredHash =>
    have hRead : Reads (do
        let stopSlot ← readU64
        let prefixHash ← readHash
        let recoveredTip ← readU64
        let recoveredHash ← readHash
        Pure.pure (RecordedHeadProvenance.checkpointBacked stopSlot prefixHash recoveredTip
          recoveredHash) : Reading RecordedHeadProvenance)
        (toBeBytes 8 stopSlot ++ (prefixHash.bytes ++ (toBeBytes 8 recoveredTip ++
          recoveredHash.bytes))) (.checkpointBacked stopSlot prefixHash recoveredTip
          recoveredHash) :=
      (reads_u64 h.1).bind <| (reads_hash prefixHash).bind <|
        (reads_u64 h.2).bind (reads_hash recoveredHash).last
    intro rest
    rw [encodeHeadProvenance, List.append_assoc, List.append_assoc]
    exact hRead rest

omit [Sha256] in
theorem reads_snapshots {recentSlots : List DurableSlotSnapshot}
    (before : List DurableSlotSnapshot) {part : Bytes}
    (hFits : ∀ snapshot ∈ recentSlots, snapshot.slot < 2 ^ 64)
    (hNodup : ((before ++ recentSlots).map (·.slot)).Nodup)
    (h : encodeAll encodeSnapshot recentSlots = .ok part) :
    Reads (readSnapshots recentSlots.length before) part (before ++ recentSlots) := by
  induction recentSlots generalizing before part with
  | nil =>
    obtain rfl := Except.ok.inj h
    rw [List.append_nil]
    exact Reads.pure before
  | cons snapshot recentSlots ih =>
    obtain ⟨first, hFirst, h⟩ := bind_ok_iff.mp h
    obtain ⟨others, hOthers, h⟩ := bind_ok_iff.mp h
    obtain ⟨bytes, hBytes, hFirst⟩ := bind_ok_iff.mp hFirst
    obtain rfl := Except.ok.inj hFirst
    obtain rfl := Except.ok.inj h
    have hNew : snapshot.slot ∉ before.map (·.slot) := by
      rw [List.map_append, List.map_cons] at hNodup
      intro hOld
      exact (List.nodup_append.mp hNodup).2.2 _ hOld _ List.mem_cons_self rfl
    rw [List.append_cons] at hNodup
    have hRest := ih _ (fun other hOther => hFits other (List.mem_cons_of_mem _ hOther)) hNodup
      hOthers
    rw [List.append_cons, List.append_assoc]
    exact (reads_u64 (hFits snapshot List.mem_cons_self)).bind <|
      Reads.checked (ensure_of hNew) <| (reads_bytes _ _ hBytes).bind hRest

/-- Everything that `encode_recorded_head` writes. -/
structure HeadRecord where
  clusterId : ClusterId
  epoch : Nat
  configuration : ConfigurationState
  provenance : RecordedHeadProvenance
  recentSlots : List DurableSlotSnapshot
  checkpoint : WalCheckpoint

structure HeadRecord.Fits (head : HeadRecord) : Prop where
  epoch : head.epoch < 2 ^ 64
  configId : head.configuration.configId < 2 ^ 64
  provenance : head.provenance.Fits
  recentSlots : ∀ snapshot ∈ head.recentSlots, snapshot.slot < 2 ^ 64
  generation : head.checkpoint.generation < 2 ^ 64
  throughSequence : head.checkpoint.throughSequence < 2 ^ 64

def HeadRecord.encode (head : HeadRecord) : Result Bytes :=
  encodeRecordedHead head.clusterId head.epoch head.configuration head.provenance head.recentSlots
    head.checkpoint

def HeadRecord.decode (head : HeadRecord) (bytes : Bytes) :
    Result (RecordedHeadProvenance × List DurableSlotSnapshot × WalCheckpoint) :=
  decodeRecordedHead bytes head.clusterId head.epoch head.configuration

theorem version_withDigest {name : String} {version : Nat} (error : Nat → Error) (part : Bytes)
    (hName : (utf8 name).length = 4 ∧ version ≤ 65535) :
    readVersion version error ((withDigest (utf8 name ++ (toBeBytes 2 version ++ part))).drop 4) =
      .ok ((), part ++ (LogHash.digest [utf8 name ++ (toBeBytes 2 version ++ part)]).bytes) := by
  rw [withDigest, List.append_assoc, List.drop_left' hName.1, List.append_assoc]
  exact reads_version error hName.2 _

theorem decodeRecordedHead_encode {head : HeadRecord} {bytes : Bytes} (hFits : head.Fits)
    (hGeneration : head.checkpoint.generation ≠ 0)
    (hNodup : (head.recentSlots.map (·.slot)).Nodup) (h : head.encode = .ok bytes) :
    head.decode bytes = .ok (head.provenance, head.recentSlots, head.checkpoint) := by
  obtain ⟨⟨⟩, hCount, h⟩ := bind_ok_iff.mp h
  rw [ensure_ok_iff] at hCount
  obtain ⟨name, hName, h⟩ := bind_ok_iff.mp h
  obtain ⟨snapshots, hSnapshots, h⟩ := bind_ok_iff.mp h
  obtain rfl := Except.ok.inj h
  have hRead : Reads (readRecordedHead head.clusterId head.epoch head.configuration)
      (toBeBytes 2 3 ++ (name ++ (toBeBytes 8 head.epoch ++
      (toBeBytes 8 head.configuration.configId ++ (head.configuration.configDigest.bytes ++
      (encodeHeadProvenance head.provenance ++ (toBeBytes 8 head.checkpoint.generation ++
      (toBeBytes 8 head.checkpoint.throughSequence ++ (toBeBytes 2 head.recentSlots.length ++
      snapshots)))))))))
      (head.provenance, head.recentSlots, head.checkpoint) :=
    (reads_u16 (by decide)).bind <| (reads_string _ _ hName).bind <|
      (reads_u64 hFits.epoch).bind <| (reads_u64 hFits.configId).bind <| (reads_hash _).bind <|
      Reads.checked (ensure_of ⟨rfl, rfl, rfl, rfl⟩) <|
      (reads_provenance _ hFits.provenance).bind <| (reads_u64 hFits.generation).bind <|
      (reads_u64 hFits.throughSequence).bind <| Reads.checked (ensure_of hGeneration) <|
      (reads_u16 (by omega)).bind <| Reads.checked (ensure_of hCount) <|
      (reads_snapshots [] hFits.recentSlots hNodup hSnapshots).last
  simp only [List.append_assoc]
  obtain ⟨hLength, hMagic⟩ := magic_withDigest "QRHD" _ (by decide)
  refine bind_ok_iff.mpr ⟨(), ensure_of hMagic, bind_ok_iff.mpr
    ⟨((), _), version_withDigest _ _ (by decide), bind_ok_iff.mpr ⟨(), ensure_of ?_,
      bind_ok_iff.mpr
        ⟨_, checkedBody_withDigest _ _, whole_after_magic _ (by decide) hRead⟩⟩⟩⟩
  rw [hLength]
  omega

def HeadRecord.identity (head : HeadRecord) : ClusterId × Nat × Nat × LogHash :=
  (head.clusterId, head.epoch, head.configuration.configId, head.configuration.configDigest)

omit [Sha256] in
/-- The identity that `decode_recorded_head` compares with the expected one. -/
def readIdentity : Reading (ClusterId × Nat × Nat × LogHash) := do
  let _ ← readU16
  let clusterId ← readString
  let epoch ← readU64
  let configId ← readU64
  let configDigest ← readHash
  pure (clusterId, epoch, configId, configDigest)

theorem readIdentity_encode {head : HeadRecord} {bytes : Bytes} (hFits : head.Fits)
    (h : head.encode = .ok bytes) :
    ∃ rest, readIdentity (bytes.drop 4) = .ok (head.identity, rest) := by
  obtain ⟨⟨⟩, -, h⟩ := bind_ok_iff.mp h
  obtain ⟨name, hName, h⟩ := bind_ok_iff.mp h
  obtain ⟨snapshots, -, h⟩ := bind_ok_iff.mp h
  obtain rfl := Except.ok.inj h
  have hRead : Reads readIdentity (toBeBytes 2 3 ++ (name ++ (toBeBytes 8 head.epoch ++
      (toBeBytes 8 head.configuration.configId ++ head.configuration.configDigest.bytes))))
      head.identity :=
    (reads_u16 (by decide)).bind <| (reads_string _ _ hName).bind <|
      (reads_u64 hFits.epoch).bind <| (reads_u64 hFits.configId).bind (reads_hash _).last
  simp only [withDigest, List.append_assoc]
  rw [List.drop_left' (by decide)]
  have hAll := fun rest => hRead rest
  simp only [List.append_assoc] at hAll
  exact ⟨_, hAll _⟩

theorem identity_of_encode {a b : HeadRecord} {bytes : Bytes} (ha : a.Fits) (hb : b.Fits)
    (hEncode : a.encode = .ok bytes) (hEncode' : b.encode = .ok bytes) :
    a.identity = b.identity := by
  obtain ⟨rest, hRead⟩ := readIdentity_encode ha hEncode
  obtain ⟨rest', hRead'⟩ := readIdentity_encode hb hEncode'
  exact congrArg Prod.fst (Except.ok.inj (hRead.symm.trans hRead'))

theorem decode_of_identity {a b : HeadRecord} {bytes : Bytes} (h : a.identity = b.identity) :
    a.decode bytes = b.decode bytes := by
  simp only [HeadRecord.identity, Prod.mk.injEq] at h
  obtain ⟨hCluster, hEpoch, hConfig, hDigest⟩ := h
  simp only [HeadRecord.decode, decodeRecordedHead, readRecordedHead, hCluster, hEpoch, hConfig,
    hDigest]

theorem decodeTransitionIntent_encode {slot : Nat} {slotBytes configurationBytes bytes : Bytes}
    (hSlot : slot < 2 ^ 64)
    (h : encodeTransitionIntent slot slotBytes configurationBytes = .ok bytes) :
    decodeTransitionIntent bytes = .ok (slot, slotBytes, configurationBytes) := by
  obtain ⟨state, hState, h⟩ := bind_ok_iff.mp h
  obtain ⟨configuration, hConfiguration, h⟩ := bind_ok_iff.mp h
  obtain rfl := Except.ok.inj h
  have hRead : Reads readTransitionIntent (toBeBytes 2 1 ++ (toBeBytes 8 slot ++ (state ++
      configuration))) (slot, slotBytes, configurationBytes) :=
    (reads_version _ (by decide)).bind <| (reads_u64 hSlot).bind <|
      (reads_bytes _ _ hState).bind (reads_bytes _ _ hConfiguration).last
  simp only [List.append_assoc]
  obtain ⟨hLength, hMagic⟩ := magic_withDigest "QINT" _ (by decide)
  refine bind_ok_iff.mpr ⟨(), ensure_of ⟨?_, hMagic⟩, bind_ok_iff.mpr
    ⟨_, checkedBody_withDigest _ _, whole_after_magic _ (by decide) hRead⟩⟩
  rw [hLength, List.length_append, toBeBytes_length]
  omega

omit [Sha256] in
theorem decodeConfigurationHeadIntent_encode {configuration head : Bytes}
    (h : (encodeConfigurationHeadIntent configuration head).length < 2 ^ 64) :
    decodeConfigurationHeadIntent (encodeConfigurationHeadIntent configuration head) =
      .ok (configuration, head) := by
  simp only [encodeConfigurationHeadIntent, List.length_append] at h
  have hRead : Reads readConfigurationHeadIntent (toBeBytes 2 1 ++
      (toBeBytes 8 configuration.length ++ (configuration ++ (toBeBytes 8 head.length ++ head))))
      (configuration, head) :=
    (reads_version _ (by decide)).bind <| (reads_u64 (by omega)).bind <|
      (reads_exactly _ rfl).bind <| (reads_u64 (by omega)).bind (reads_exactly _ rfl).last
  simp only [encodeConfigurationHeadIntent, List.append_assoc]
  exact bind_ok_iff.mpr ⟨(), ensure_of (List.take_left' (by decide)),
    whole_after_magic _ (by decide) hRead⟩

theorem reads_frame_command {command : Option (LogHash × StoredCommand)}
    (h : (encodeFrameCommand command).length < 2 ^ 64) :
    Reads readFrameCommand (encodeFrameCommand command) command := by
  cases command with
  | none => exact fun _ => rfl
  | some entry =>
    obtain ⟨hash, command⟩ := entry
    have hCommand : (encodeStoredCommand command).length < 2 ^ 64 := by
      simp only [encodeFrameCommand, putBlob, List.length_cons, List.length_append] at h
      omega
    have hPayload : command.payload.length < 2 ^ 64 := by
      simp only [encodeStoredCommand, withDigest, putBlob, List.length_append] at hCommand
      omega
    have hRead : Reads (do
        let hash ← readHash
        let bytes ← readBlob
        let command ← Decoder.check (decodeStoredCommand bytes)
        Pure.pure (hash, command) : Reading (LogHash × StoredCommand))
        (hash.bytes ++ (putBlob (encodeStoredCommand command) ++ [])) (hash, command) :=
      (reads_hash hash).bind <| (reads_blob hCommand).bind <|
        Reads.checked (decodeStoredCommand_encode hPayload) (Reads.pure _)
    rw [List.append_nil] at hRead
    exact fun rest => hRead.last (f := some) rest

def frameBody (payload : Bytes) : Bytes :=
  utf8 "QWAL" ++ (toBeBytes 2 1 ++ (toBeBytes 8 (4 + 2 + 8 + payload.length + 32) ++ payload))

omit [Sha256] in
theorem frameBody_length (payload : Bytes) : (frameBody payload).length = 14 + payload.length := by
  have hMagic : (utf8 "QWAL").length = 4 := by decide
  simp only [frameBody, List.length_append, toBeBytes_length, hMagic]
  omega

theorem decodeWalFrame_of_reads {payload : Bytes} {frame : Frame}
    (h : Reads (readFrame (LogHash.digest [frameBody payload])) payload frame)
    (hSize : 4 + 2 + 8 + payload.length + 32 < 2 ^ 64) (before after : Bytes) :
    decodeWalFrame (before ++ (withDigest (frameBody payload) ++ after)) before.length =
      .ok (some (frame, before.length + (withDigest (frameBody payload)).length)) := by
  have hDigest := (LogHash.digest [frameBody payload]).size
  have hBody := frameBody_length payload
  have hLength : (withDigest (frameBody payload)).length = 4 + 2 + 8 + payload.length + 32 := by
    rw [withDigest, List.length_append, hDigest, hBody]
  set remaining := withDigest (frameBody payload) ++ after with hRemaining
  have hRest : remaining = utf8 "QWAL" ++ (toBeBytes 2 1 ++
      (toBeBytes 8 (4 + 2 + 8 + payload.length + 32) ++ (payload ++
      ((LogHash.digest [frameBody payload]).bytes ++ after)))) := by
    simp only [hRemaining, withDigest, frameBody, List.append_assoc]
  have hEnough : 4 + 2 + 8 + payload.length + 32 ≤ remaining.length := by
    rw [hRemaining, List.length_append, hLength]
    omega
  have hCut : 4 + 2 + 8 + payload.length + 32 - 32 = (frameBody payload).length := by omega
  have hTake : remaining.take (frameBody payload).length = frameBody payload := by
    rw [hRemaining, withDigest, List.append_assoc, List.take_left]
  have hDrop : remaining.drop (frameBody payload).length =
      (LogHash.digest [frameBody payload]).bytes ++ after := by
    rw [hRemaining, withDigest, List.append_assoc, List.drop_left]
  have hMagic : (utf8 "QWAL").length = 4 := by decide
  unfold decodeWalFrame
  rw [List.drop_left]
  refine bind_ok_iff.mpr ⟨(), ensure_of (by rw [List.length_append]; omega), ?_⟩
  rw [if_neg (by omega)]
  refine bind_ok_iff.mpr ⟨(), ensure_of (by rw [hRest, List.take_left' hMagic]), ?_⟩
  have hVersion := reads_version (fun _ => .decode "recorder WAL frame version mismatch")
    (show 1 ≤ 65535 by decide) (toBeBytes 8 (4 + 2 + 8 + payload.length + 32) ++ (payload ++
      ((LogHash.digest [frameBody payload]).bytes ++ after)))
  refine bind_ok_iff.mpr ⟨_, by rw [hRest, List.drop_left' hMagic]; exact hVersion, ?_⟩
  refine bind_ok_iff.mpr ⟨_, reads_u64 hSize _, ?_⟩
  refine bind_ok_iff.mpr ⟨(), ensure_of (by omega), ?_⟩
  dsimp only
  rw [if_neg (by omega), hCut, hTake, hDrop]
  refine bind_ok_iff.mpr ⟨_, reads_hash _ after, ?_⟩
  refine bind_ok_iff.mpr ⟨(), ensure_of rfl, ?_⟩
  refine bind_ok_iff.mpr ⟨_, h _, ?_⟩
  refine bind_ok_iff.mpr ⟨(), ensure_of ?_, by rw [hLength]⟩
  rw [hRest]
  simp only [List.length_append, toBeBytes_length, hMagic, hBody]
  omega

structure FrameFits (generation sequence : Nat) (state : RecorderSlotState)
    (head : RecordedHeadProvenance) : Prop where
  generation : generation < 2 ^ 64
  sequence : sequence < 2 ^ 64
  state : state.Fits
  head : head.Fits

theorem decodeWalFrame_encode {generation sequence : Nat} {prevDigest digest : LogHash}
    {state : RecorderSlotState} {configuration : ConfigurationState} {head : RecordedHeadProvenance}
    {command : Option (LogHash × StoredCommand)} {bytes slotBytes : Bytes}
    (hFits : FrameFits generation sequence state head)
    (h : encodeWalFrame generation sequence prevDigest state configuration head command =
      .ok (bytes, digest, slotBytes)) (hSize : bytes.length < 2 ^ 64) (before after : Bytes) :
    ∃ configurationBytes, encodeRecorderState state = .ok slotBytes ∧
      encodeConfigurationState configuration = .ok configurationBytes ∧
      decodeWalFrame (before ++ (bytes ++ after)) before.length =
        .ok (some (⟨generation, sequence, prevDigest, digest, state.slot, slotBytes,
          configurationBytes, head, command⟩, before.length + bytes.length)) := by
  obtain ⟨slotBytes', hState, h⟩ := bind_ok_iff.mp h
  obtain ⟨configurationBytes, hConfiguration, h⟩ := bind_ok_iff.mp h
  obtain ⟨hBytes, hDigest, rfl⟩ : _ = bytes ∧ _ = digest ∧ slotBytes' = slotBytes := by
    simpa only [Except.ok.injEq, Prod.mk.injEq] using h
  refine ⟨configurationBytes, hState, hConfiguration, ?_⟩
  set payload := toBeBytes 8 generation ++ toBeBytes 8 sequence ++ prevDigest.bytes ++
    toBeBytes 8 state.slot ++ putBlob slotBytes' ++ putBlob configurationBytes ++
    encodeHeadProvenance head ++ encodeFrameCommand command with hPayload
  have hBody : utf8 "QWAL" ++ toBeBytes 2 1 ++ toBeBytes 8 (4 + 2 + 8 + payload.length + 32) ++
      payload = frameBody payload := by
    simp only [frameBody, List.append_assoc]
  rw [hBody] at hBytes hDigest
  have hLength : 4 + 2 + 8 + payload.length + 32 < 2 ^ 64 := by
    rw [← hBytes, withDigest, List.length_append, frameBody_length, LogHash.size] at hSize
    omega
  have hParts : payload.length < 2 ^ 64 := by omega
  simp only [hPayload, putBlob, List.length_append] at hParts
  rw [← hBytes]
  refine decodeWalFrame_of_reads ?_ hLength before after
  rw [hDigest]
  simp only [hPayload, List.append_assoc]
  exact (reads_u64 hFits.generation).bind <| (reads_u64 hFits.sequence).bind <|
    (reads_hash _).bind <| (reads_u64 hFits.state.slot).bind <|
    (reads_blob (by omega)).bind <| (reads_blob (by omega)).bind <|
    (reads_provenance _ hFits.head).bind (reads_frame_command (by omega)).last

end Rhiza.Quepaxa.Wire
