import Nsl.ApprovalResume
import Nsl.Snapshots
import Nsl.WriteExecution
/-!
# WRITE Replay — the evidence of a WRITE, stored and loaded

`write_replay.py` and the session of `write_replay_execution.py`: a composer checks the evidence of one WRITE against its
identity and stores each part as a protected snapshot, a loader reads the parts of a bundle back and checks them again,
and a session opens on what was loaded.
-/
namespace Nsl

open Stateful
open Calendar (DateTime)

instance : StrEnum ApprovalDecision where
  members  := [.approved, .rejected]
  value    := fun | .approved => "APPROVED" | .rejected => "REJECTED"
  complete := by intro a; cases a <;> decide
  distinct := by intro a b; cases a <;> cases b <;> decide

inductive WriteReplayEvidenceKind
  | approval
  | writeRequest
  | commitOutcome
  | verificationOutcome
  deriving DecidableEq

instance : StrEnum WriteReplayEvidenceKind where
  members  := [.approval, .writeRequest, .commitOutcome, .verificationOutcome]
  value
    | .approval            => "APPROVAL"
    | .writeRequest        => "WRITE_REQUEST"
    | .commitOutcome       => "COMMIT_OUTCOME"
    | .verificationOutcome => "VERIFICATION_OUTCOME"
  complete := by intro a; cases a <;> decide
  distinct := by intro a b; cases a <;> cases b <;> decide

/-- `_KIND_ORDER` -/
def WriteReplayEvidenceKind.order : WriteReplayEvidenceKind → Nat
  | .approval            => 1
  | .writeRequest        => 2
  | .commitOutcome       => 3
  | .verificationOutcome => 4

/-- `_ALLOWED_KIND_SEQUENCES` -/
def ALLOWED_KIND_SEQUENCES : List (List WriteReplayEvidenceKind) :=
  [[.approval], [.approval, .writeRequest, .commitOutcome], StrEnum.members]

def WRITE_REPLAY_SCHEMA_VERSION : String := "1.0"

def MAX_WRITE_REPLAY_RECORDS : Nat := 4

section WriteReplay

variable [Platform]

/-! ## Evidence as objects of a snapshot -/

/-- What a snapshot can hold: a record of a WRITE, or any other value. -/
inductive ReplayEvidence
  | approval (a : ApprovalEvidence)
  | writeRequest (r : WriteAttemptRecord)
  | commitOutcome (o : WriteOutcomeRecord)
  | verification (v : VerificationResult)
  | other (v : Value)

def optionalTextValue (t : Option RequiredText) : Value := optionalStr (t.map (·.text))

def optionalTimeValue (t : Option UtcInstant) : Value := (t.map (fun t => Value.datetime t.time)).getD .null

def WriteOutcomeIdentity.asValue (i : WriteOutcomeIdentity) : Value :=
  .dict
    [("tenant_id", .str i.tenantId.text), ("business_operation_id", .str i.businessOperationId.text),
     ("invocation_id", .str i.invocationId.text), ("node_id", .str i.nodeId.text), ("tool_id", .str i.toolId.text),
     ("idempotency_key", .str i.idempotencyKey.text), ("payload_hash", .str i.payloadHash.text),
     ("approval_request_id", .str i.approvalRequestId.text), ("write_intent_hash", .str i.writeIntentHash.text)]

/-- `asdict(value) if is_dataclass(value) else value` -/
def ReplayEvidence.asValue : ReplayEvidence → Value
  | .approval a      =>
    .dict
      [("tenant_id", .str a.tenantId.text), ("execution_id", .str a.executionId.text),
       ("business_operation_id", .str a.businessOperationId.text), ("approval_id", .str a.approvalId.text),
       ("approval_request_id", .str a.approvalRequestId.text), ("skill_semantic_hash", .str a.skillSemanticHash.text),
       ("decision", .str (StrEnum.value a.decision)), ("approver_id", .str a.approverId.text),
       ("decided_at", .datetime a.decidedAt.time), ("expires_at", optionalTimeValue a.expiresAt),
       ("payload_hash", .str a.payloadHash.text), ("write_intent_hash", .str a.writeIntentHash.text),
       ("evidence_integrity", .str a.evidenceIntegrity.text)]
  | .writeRequest r  =>
    .dict
      [("tenant_id", .str r.tenantId.text), ("execution_id", .str r.executionId.text),
       ("business_operation_id", .str r.businessOperationId.text), ("invocation_id", .str r.invocationId.text),
       ("node_id", .str r.nodeId.text), ("tool_id", .str r.toolId.text), ("contract_hash", .str r.contractHash.text),
       ("approval_request_id", .str r.approvalRequestId.text), ("idempotency_key", .str r.idempotencyKey.text),
       ("payload_hash", .str r.payloadHash.text), ("write_intent_hash", .str r.writeIntentHash.text),
       ("precondition_evidence_id", .str r.preconditionEvidenceId.text), ("requested_at", .datetime r.requestedAt.time)]
  | .commitOutcome o =>
    .dict
      [("requested_record_hash", .str o.requestedRecordHash.text), ("identity", o.identity.asValue),
       ("commit_state", .str (StrEnum.value o.commitState)), ("reason_code", optionalTextValue o.reasonCode),
       ("provider_transaction_id", optionalTextValue o.providerTransactionId),
       ("business_reference", optionalTextValue o.businessReference),
       ("evidence_refs", .tuple (o.evidenceRefs.refs.map .str)), ("recorded_at", .datetime o.recordedAt.time)]
  | .verification v  =>
    .dict
      [("identity", v.identity.asValue), ("commit_state", .str (StrEnum.value CommitState.committed)),
       ("status", .str (StrEnum.value v.status)), ("business_reference", .str v.businessReference.text),
       ("verification_tool_id", optionalTextValue v.verificationToolId), ("reason_code", optionalTextValue v.reasonCode),
       ("evidence_ref", optionalTextValue v.evidenceRef), ("observed_at", optionalTimeValue v.observedAt)]
  | .other v         => v

instance : SnapshotValue ReplayEvidence where
  hash e := valueHash e.asValue
  null   := .other .null

/-! ## Records and bundles -/

structure WriteReplayIdentity where
  tenantId            : RequiredText
  executionId         : RequiredText
  businessOperationId : RequiredText
  skillSemanticHash   : Digest
  nodeId              : RequiredText
  approvalRequestId   : RequiredText
  payloadHash         : Digest
  writeIntentHash     : Digest
  idempotencyKey      : Option IdempotencyKey
  deriving DecidableEq

/-- `to_data` -/
def WriteReplayIdentity.toData (i : WriteReplayIdentity) : Json :=
  .obj
    [("tenant_id", .str i.tenantId.text), ("execution_id", .str i.executionId.text),
     ("business_operation_id", .str i.businessOperationId.text), ("skill_semantic_hash", .str i.skillSemanticHash.text),
     ("node_id", .str i.nodeId.text), ("approval_request_id", .str i.approvalRequestId.text),
     ("payload_hash", .str i.payloadHash.text), ("write_intent_hash", .str i.writeIntentHash.text),
     ("idempotency_key", (i.idempotencyKey.map (fun k => Json.str k.text)).getD .null)]

/-- `_snapshot_ref_data` -/
def SnapshotRef.toData (r : SnapshotRef) : Json :=
  .obj
    [("snapshot_id", .str r.snapshotId), ("tenant_id", .str r.tenantId),
     ("classification", .str (StrEnum.value r.classification)), ("value_hash", .str r.valueHash),
     ("expires_at", (r.expiresAt.map Json.str).getD .null)]

/-- `_sha256_text` of `write_replay.py` -/
def replaySha256 (text name : String) : Except Exn Unit :=
  if Text.isBlank text then .error (.other (name ++ " must be a non-empty string"))
  else if (findCredentialPath Platform.word "$" (.str text)).isSome then
    .error (.value ("credential material is forbidden in " ++ name ++ " at $"))
  else if isDigest text = false then .error (.other (name ++ " must be a lowercase SHA-256 value"))
  else .ok ()

/-- `compute_hash` of a record -/
def replayRecordHash (sequence : Nat) (kind : WriteReplayEvidenceKind) (identity : WriteReplayIdentity)
    (snapshotRef : SnapshotRef) : String :=
  sha256Of ("NSL-WRITE-REPLAY-RECORD-V1\x00" ++ Json.dumps (.obj
    [("sequence", .int sequence), ("kind", .str (StrEnum.value kind)), ("identity", identity.toData),
     ("snapshot_ref", snapshotRef.toData)]))

/-- What `WriteReplaySnapshotRecord.__post_init__` asks. -/
def checkReplayRecord (sequence : Nat) (kind : WriteReplayEvidenceKind) (identity : WriteReplayIdentity)
    (snapshotRef : SnapshotRef) (recordHash : String) : Except Exn Unit :=
  if sequence = 0 then .error (.other "record sequence must be a positive integer")
  else if snapshotRef.tenantId ≠ identity.tenantId.text then
    .error (.other "record contains a cross-tenant snapshot reference")
  else if snapshotRef.classification.isProtected = false then
    .error (.other "Replay evidence must use a protected snapshot")
  else do
    replaySha256 snapshotRef.valueHash "snapshot_ref.value_hash"
    if recordHash ≠ replayRecordHash sequence kind identity snapshotRef then
      .error (.other "Replay evidence record hash mismatch")
    else .ok ()

structure WriteReplaySnapshotRecord where
  sequence    : Nat
  kind        : WriteReplayEvidenceKind
  identity    : WriteReplayIdentity
  snapshotRef : SnapshotRef
  recordHash  : String
  ok          : checkReplayRecord sequence kind identity snapshotRef recordHash = .ok ()

/-- `WriteReplaySnapshotRecord.create` -/
def WriteReplaySnapshotRecord.create (sequence : Nat) (kind : WriteReplayEvidenceKind) (identity : WriteReplayIdentity)
    (snapshotRef : SnapshotRef) : Except Exn WriteReplaySnapshotRecord :=
  match h : checkReplayRecord sequence kind identity snapshotRef (replayRecordHash sequence kind identity snapshotRef) with
  | .ok ()   => .ok ⟨sequence, kind, identity, snapshotRef, replayRecordHash sequence kind identity snapshotRef, h⟩
  | .error e => .error e

/-- `to_data` -/
def WriteReplaySnapshotRecord.toData (r : WriteReplaySnapshotRecord) : Json :=
  .obj
    [("sequence", .int r.sequence), ("kind", .str (StrEnum.value r.kind)), ("identity", r.identity.toData),
     ("snapshot_ref", r.snapshotRef.toData), ("record_hash", .str r.recordHash)]

/-- `compute_manifest_hash` -/
def replayManifestHash (schemaVersion : String) (identity : WriteReplayIdentity)
    (records : List WriteReplaySnapshotRecord) : String :=
  sha256Of ("NSL-WRITE-REPLAY-BUNDLE-V1\x00" ++ Json.dumps (.obj
    [("schema_version", .str schemaVersion), ("source_identity", identity.toData),
     ("records", .arr (records.map (·.toData)))]))

/-- What `ProtectedWriteReplayBundle.__post_init__` asks. -/
def checkReplayBundle (schemaVersion : String) (identity : WriteReplayIdentity) (records : List WriteReplaySnapshotRecord)
    (manifestHash : String) : Except Exn Unit :=
  let kinds := records.map (·.kind)
  if schemaVersion ≠ WRITE_REPLAY_SCHEMA_VERSION then .error (.other "unsupported WRITE Replay schema version")
  else if records.isEmpty then .error (.other "WRITE Replay bundle requires evidence records")
  else if MAX_WRITE_REPLAY_RECORDS < records.length then
    .error (.other "WRITE Replay bundle cannot exceed 4 records")
  else if records.map (·.sequence) ≠ List.range' 1 records.length then
    .error (.other "Replay evidence sequence is not contiguous")
  else if ¬ kinds.Nodup then .error (.other "Replay evidence kinds must be unique")
  else if kinds.mergeSort (fun k k' => k.order ≤ k'.order) ≠ kinds then
    .error (.other "Replay evidence ordering is invalid")
  else if kinds ∉ ALLOWED_KIND_SEQUENCES then .error (.other "Replay evidence set is incomplete")
  else if records.any (fun r => r.identity ≠ identity) then
    .error (.other "Replay record identity does not match bundle")
  else if manifestHash ≠ replayManifestHash schemaVersion identity records then
    .error (.other "WRITE Replay manifest hash mismatch")
  else .ok ()

structure ProtectedWriteReplayBundle where
  schemaVersion  : String
  sourceIdentity : WriteReplayIdentity
  records        : List WriteReplaySnapshotRecord
  manifestHash   : String
  ok             : checkReplayBundle schemaVersion sourceIdentity records manifestHash = .ok ()

/-- `ProtectedWriteReplayBundle.create` -/
def ProtectedWriteReplayBundle.create (identity : WriteReplayIdentity) (records : List WriteReplaySnapshotRecord) :
    Except Exn ProtectedWriteReplayBundle :=
  match h : checkReplayBundle WRITE_REPLAY_SCHEMA_VERSION identity records
      (replayManifestHash WRITE_REPLAY_SCHEMA_VERSION identity records) with
  | .ok ()   =>
    .ok ⟨WRITE_REPLAY_SCHEMA_VERSION, identity, records, replayManifestHash WRITE_REPLAY_SCHEMA_VERSION identity records, h⟩
  | .error e => .error e

/-! ## What the evidence must agree on -/

/-- `_outcome_bindings` -/
def outcomeBindings (o : WriteOutcomeIdentity) (i : WriteReplayIdentity) : Bool :=
  o.tenantId = i.tenantId && o.businessOperationId = i.businessOperationId && o.nodeId = i.nodeId &&
    o.approvalRequestId = i.approvalRequestId && i.idempotencyKey = some o.idempotencyKey &&
    o.payloadHash = i.payloadHash && o.writeIntentHash = i.writeIntentHash

/-- The error of a binding that fails. -/
def requireBindings (kind : WriteReplayEvidenceKind) (bindings : Bool) : Except Exn Unit :=
  if bindings then .ok () else .error (.other (StrEnum.value kind ++ " snapshot identity mismatch"))

/-- `_validate_domain_value` -/
def validateDomainValue (kind : WriteReplayEvidenceKind) (value : ReplayEvidence) (i : WriteReplayIdentity) :
    Except Exn Unit :=
  match kind, value with
  | .approval, .approval a                => requireBindings kind
      (a.tenantId = i.tenantId && a.executionId = i.executionId && a.businessOperationId = i.businessOperationId &&
        a.skillSemanticHash = i.skillSemanticHash && a.approvalRequestId = i.approvalRequestId &&
        a.payloadHash = i.payloadHash && a.writeIntentHash.text = i.writeIntentHash.text)
  | .approval, _                          => .error (.type "approval snapshot must contain ApprovalEvidence")
  | .writeRequest, .writeRequest r        => requireBindings kind
      (r.tenantId = i.tenantId && r.executionId = i.executionId && r.businessOperationId = i.businessOperationId &&
        r.nodeId = i.nodeId && r.approvalRequestId = i.approvalRequestId && i.idempotencyKey = some r.idempotencyKey &&
        r.payloadHash = i.payloadHash && r.writeIntentHash = i.writeIntentHash)
  | .writeRequest, _                      => .error (.type "WRITE request snapshot must contain WriteAttemptRecord")
  | .commitOutcome, .commitOutcome o      => requireBindings kind (outcomeBindings o.identity i)
  | .commitOutcome, _                     => .error (.type "commit snapshot must contain WriteOutcomeRecord")
  | .verificationOutcome, .verification v => requireBindings kind (outcomeBindings v.identity i)
  | .verificationOutcome, _               => .error (.type "verification snapshot must contain VerificationResult")

structure RehydratedWriteReplayEvidence where
  approval            : ApprovalEvidence
  writeRequest        : Option WriteAttemptRecord
  commitOutcome       : Option WriteOutcomeRecord
  verificationOutcome : Option VerificationResult

/-- The check of the verification outcome, which a committed WRITE has and no other. -/
def validateVerification (i : WriteReplayIdentity) (outcome : WriteOutcomeRecord) (verification : Option VerificationResult) :
    Except Exn (List (WriteReplayEvidenceKind × ReplayEvidence)) :=
  match outcome.commitState, verification with
  | .committed, none   => .error (.other "committed Replay requires a verification outcome")
  | .committed, some v => do
    validateDomainValue .verificationOutcome (.verification v) i
    return [(.verificationOutcome, .verification v)]
  | _, some _          => .error (.other "non-committed Replay cannot contain verification outcome")
  | _, none            => .ok []

/-- `_validate_lifecycle`: the parts of the evidence, in their order. -/
def validateLifecycle (i : WriteReplayIdentity) (e : RehydratedWriteReplayEvidence) :
    Except Exn (List (WriteReplayEvidenceKind × ReplayEvidence)) := do
  validateDomainValue .approval (.approval e.approval) i
  if e.approval.decision = .rejected then
    if e.writeRequest.isSome ∨ e.commitOutcome.isSome ∨ e.verificationOutcome.isSome then
      .error (.other "rejected approval cannot contain WRITE outcomes")
    else .ok [(.approval, .approval e.approval)]
  else
    match e.writeRequest, e.commitOutcome with
    | some request, some outcome =>
      if i.idempotencyKey = none then .error (.other "WRITE Replay identity requires idempotency_key")
      else do
        validateDomainValue .writeRequest (.writeRequest request) i
        validateDomainValue .commitOutcome (.commitOutcome outcome) i
        if outcome.requestedRecordHash ≠ request.recordHash then
          .error (.other "commit outcome does not bind the recorded WRITE request")
        else do
          let verified ← validateVerification i outcome e.verificationOutcome
          return [(.approval, .approval e.approval), (.writeRequest, .writeRequest request),
            (.commitOutcome, .commitOutcome outcome)] ++ verified
    | _, _                       => .error (.other "approved Replay requires WRITE request and commit outcome")

/-! ## Composer and loader -/

/-- `WriteReplayEvidenceComposer`; the store and its port are those of the run. -/
structure WriteReplayEvidenceComposer where
  retentionDays  : Int
  classification : DataClassification
  positive       : 0 < retentionDays
  isProtected    : classification.isProtected = true

abbrev ReplayRun := SnapshotRun ReplayEvidence

section Store

variable (port : SnapshotProtectionPort ReplayEvidence) (clock : Nat → Option DateTime)

/-- The records of the parts, each stored as an object of its own; the clock is read once for each. -/
def composeRecords (composer : WriteReplayEvidenceComposer) (identity : WriteReplayIdentity) :
    Nat → List (WriteReplayEvidenceKind × ReplayEvidence) → ReplayRun (List WriteReplaySnapshotRecord)
  | _, []                           => Run.done []
  | sequence, (kind, value) :: rest => do
    let object ← newObject value
    let ref ← putProtected port (clock sequence)
      ⟨identity.tenantId.text, object, composer.classification, composer.retentionDays, none⟩
    let record ← Run.ofExcept (WriteReplaySnapshotRecord.create sequence kind identity ref)
    let records ← composeRecords composer identity (sequence + 1) rest
    Run.done (record :: records)

/-- `compose` -/
def composeReplay (composer : WriteReplayEvidenceComposer) (identity : WriteReplayIdentity)
    (evidence : RehydratedWriteReplayEvidence) : ReplayRun ProtectedWriteReplayBundle := do
  let values ← Run.ofExcept (validateLifecycle identity evidence)
  let records ← composeRecords port clock composer identity 1 values
  Run.ofExcept (ProtectedWriteReplayBundle.create identity records)

/-- The values of the records, each checked against the identity. -/
def loadRecords (identity : WriteReplayIdentity) (principal : ExecutionPrincipal) :
    List WriteReplaySnapshotRecord → ReplayRun (List (WriteReplayEvidenceKind × ReplayEvidence))
  | []             => Run.done []
  | record :: rest => do
    let object ← getProtected port (clock record.sequence) record.snapshotRef principal
    let value ← Run.look (·.objects.content object)
    Run.ofExcept (validateDomainValue record.kind value identity)
    let loaded ← loadRecords identity principal rest
    Run.done ((record.kind, value) :: loaded)

end Store

/-- The evidence of the loaded values; each kind stands there once, and was checked to be of its class. -/
def rehydrate (loaded : List (WriteReplayEvidenceKind × ReplayEvidence)) : Except Exn RehydratedWriteReplayEvidence :=
  match loaded.lookup .approval with
  | some (.approval a) =>
    .ok
      { approval := a
        writeRequest := match loaded.lookup .writeRequest with
          | some (.writeRequest r) => some r
          | _                      => none
        commitOutcome := match loaded.lookup .commitOutcome with
          | some (.commitOutcome o) => some o
          | _                       => none
        verificationOutcome := match loaded.lookup .verificationOutcome with
          | some (.verification v) => some v
          | _                      => none }
  | _                  => .error (.lookup "APPROVAL")

/-- `load` -/
def loadReplay (port : SnapshotProtectionPort ReplayEvidence) (clock : Nat → Option DateTime)
    (bundle : ProtectedWriteReplayBundle) (principal : ExecutionPrincipal) : ReplayRun RehydratedWriteReplayEvidence := do
  Run.ofExcept (principal.validate true)
  if principal.tenantId ≠ bundle.sourceIdentity.tenantId.text then
    Run.fail (.permission "cross-tenant WRITE Replay is forbidden")
  else do
    let loaded ← loadRecords port clock bundle.sourceIdentity principal bundle.records
    let evidence ← Run.ofExcept (rehydrate loaded)
    let _ ← Run.ofExcept (validateLifecycle bundle.sourceIdentity evidence)
    Run.done evidence

/-! ## The session -/

/-- `_outcome_matches_request` -/
def outcomeMatchesRequest (o : WriteOutcomeIdentity) (r : WriteAttemptRecord) : Bool :=
  o.tenantId = r.tenantId && o.businessOperationId = r.businessOperationId && o.invocationId = r.invocationId &&
    o.nodeId = r.nodeId && o.toolId = r.toolId && o.idempotencyKey = r.idempotencyKey && o.payloadHash = r.payloadHash &&
    o.approvalRequestId = r.approvalRequestId && o.writeIntentHash = r.writeIntentHash

structure RecordedWriteExchange where
  request : WriteAttemptRecord
  outcome : WriteOutcomeRecord
  bound   : outcome.requestedRecordHash = request.recordHash
  same    : outcomeMatchesRequest outcome.identity request = true

/-- `RecordedWriteExchange(...)` -/
def RecordedWriteExchange.create (request : WriteAttemptRecord) (outcome : WriteOutcomeRecord) :
    Except Exn RecordedWriteExchange :=
  if hbound : outcome.requestedRecordHash = request.recordHash then
    if hsame : outcomeMatchesRequest outcome.identity request = true then .ok ⟨request, outcome, hbound, hsame⟩
    else .error (.other "recorded WRITE request and outcome identities differ")
  else .error (.other "recorded outcome does not bind the WRITE request")

def MAX_REPLAY_WRITE_CALLS : Nat := 64

/-- What identifies one WRITE call. -/
def RecordedWriteExchange.invocation (x : RecordedWriteExchange) : String × String × String × String :=
  (x.request.executionId.text, x.request.businessOperationId.text, x.request.invocationId.text, x.request.nodeId.text)

/-- `_StrictRecordedWriteExecutor`, before its first call -/
structure RecordedWriteExecutor where
  exchanges : List RecordedWriteExchange
  few       : exchanges.length ≤ MAX_REPLAY_WRITE_CALLS
  unique    : (exchanges.map (·.invocation)).Nodup

def RecordedWriteExecutor.create (exchanges : List RecordedWriteExchange) : Except Exn RecordedWriteExecutor :=
  if hfew : exchanges.length ≤ MAX_REPLAY_WRITE_CALLS then
    if hunique : (exchanges.map (·.invocation)).Nodup then .ok ⟨exchanges, hfew, hunique⟩
    else .error (.other "Replay WRITE invocation identities must be unique")
  else .error (.other "Replay cannot exceed 64 WRITE calls")

/-- `RecordedWriteReplayExecutor(...)` -/
def recordedWriteReplayExecutor (e : RehydratedWriteReplayEvidence) : Except Exn RecordedWriteExecutor :=
  match e.writeRequest, e.commitOutcome with
  | none, none                 => RecordedWriteExecutor.create []
  | some request, some outcome => do
    let exchange ← RecordedWriteExchange.create request outcome
    RecordedWriteExecutor.create [exchange]
  | _, _                       => .error (.other "Replay evidence has a partial WRITE exchange")

structure ReplayWriteSession where
  approval     : ApprovalEvidence
  verification : Option VerificationResult
  writes       : RecordedWriteExecutor

/-- `ReplayWriteSession(...)` -/
def ReplayWriteSession.create (e : RehydratedWriteReplayEvidence) : Except Exn ReplayWriteSession := do
  let writes ← recordedWriteReplayExecutor e
  return ⟨e.approval, e.verificationOutcome, writes⟩

/-- `ReplayWriteSession.open` -/
def openReplaySession (port : SnapshotProtectionPort ReplayEvidence) (clock : Nat → Option DateTime)
    (bundle : ProtectedWriteReplayBundle) (principal : ExecutionPrincipal) : ReplayRun ReplayWriteSession := do
  let evidence ← loadReplay port clock bundle principal
  Run.ofExcept (ReplayWriteSession.create evidence)

/-! ## What a valid lifecycle is -/

/-- The parts of a WRITE that was sent, with what they agree on. -/
structure SentWrite (i : WriteReplayIdentity) (e : RehydratedWriteReplayEvidence) (request : WriteAttemptRecord)
    (outcome : WriteOutcomeRecord) : Prop where
  writeRequest  : e.writeRequest = some request
  commitOutcome : e.commitOutcome = some outcome
  requestValid  : validateDomainValue .writeRequest (.writeRequest request) i = .ok ()
  outcomeValid  : validateDomainValue .commitOutcome (.commitOutcome outcome) i = .ok ()
  bound         : outcome.requestedRecordHash = request.recordHash

/-- The three forms of a valid lifecycle: rejected, sent but not committed, and committed. -/
inductive Lifecycle (i : WriteReplayIdentity) (e : RehydratedWriteReplayEvidence) :
    List (WriteReplayEvidenceKind × ReplayEvidence) → Prop
  | rejected (hrequest : e.writeRequest = none) (houtcome : e.commitOutcome = none)
      (hverification : e.verificationOutcome = none) : Lifecycle i e [(.approval, .approval e.approval)]
  | uncommitted {request : WriteAttemptRecord} {outcome : WriteOutcomeRecord} (hsent : SentWrite i e request outcome)
      (hverification : e.verificationOutcome = none) :
      Lifecycle i e [(.approval, .approval e.approval), (.writeRequest, .writeRequest request),
        (.commitOutcome, .commitOutcome outcome)]
  | committed {request : WriteAttemptRecord} {outcome : WriteOutcomeRecord} {v : VerificationResult}
      (hsent : SentWrite i e request outcome) (hverification : e.verificationOutcome = some v)
      (hvalid : validateDomainValue .verificationOutcome (.verification v) i = .ok ()) :
      Lifecycle i e [(.approval, .approval e.approval), (.writeRequest, .writeRequest request),
        (.commitOutcome, .commitOutcome outcome), (.verificationOutcome, .verification v)]

theorem validateVerification_ok {i : WriteReplayIdentity} {outcome : WriteOutcomeRecord}
    {verification : Option VerificationResult} {verified : List (WriteReplayEvidenceKind × ReplayEvidence)}
    (h : validateVerification i outcome verification = .ok verified) :
    (verification = none ∧ verified = []) ∨ ∃ v, verification = some v ∧
      validateDomainValue .verificationOutcome (.verification v) i = .ok () ∧
      verified = [(.verificationOutcome, .verification v)] := by
  unfold validateVerification at h
  cases verification with
  | none   =>
    cases hstate : outcome.commitState <;> rw [hstate] at h <;> cases h <;> exact .inl ⟨rfl, rfl⟩
  | some v =>
    cases hstate : outcome.commitState with
    | committed =>
      rw [hstate] at h
      obtain ⟨u, hvalid, h₁⟩ := bind_eq_ok h
      cases h₁
      exact .inr ⟨v, rfl, hvalid, rfl⟩
    | _         =>
      rw [hstate] at h
      cases h

theorem validateLifecycle_ok {i : WriteReplayIdentity} {e : RehydratedWriteReplayEvidence}
    {values : List (WriteReplayEvidenceKind × ReplayEvidence)} (h : validateLifecycle i e = .ok values) :
    validateDomainValue .approval (.approval e.approval) i = .ok () ∧ Lifecycle i e values := by
  unfold validateLifecycle at h
  obtain ⟨u, happroval, h₁⟩ := bind_eq_ok h
  refine ⟨happroval, ?_⟩
  by_cases hrejected : e.approval.decision = .rejected
  · rw [if_pos hrejected] at h₁
    split at h₁
    · cases h₁
    · rename_i hnone
      cases h₁
      simp only [not_or, Bool.not_eq_true, Option.isSome_eq_false_iff, Option.isNone_iff_eq_none] at hnone
      exact .rejected hnone.1 hnone.2.1 hnone.2.2
  · rw [if_neg hrejected] at h₁
    cases hrequest : e.writeRequest with
    | none         =>
      rw [hrequest] at h₁
      cases h₁
    | some request =>
      cases houtcome : e.commitOutcome with
      | none         =>
        rw [hrequest, houtcome] at h₁
        cases h₁
      | some outcome =>
        rw [hrequest, houtcome] at h₁
        simp only at h₁
        split at h₁
        · cases h₁
        obtain ⟨_, hrequestValid, h₂⟩ := bind_eq_ok h₁
        obtain ⟨_, houtcomeValid, h₃⟩ := bind_eq_ok h₂
        split at h₃
        · cases h₃
        rename_i hbound
        obtain ⟨verified, hverified, h₄⟩ := bind_eq_ok h₃
        cases h₄
        have hsent : SentWrite i e request outcome :=
          ⟨hrequest, houtcome, hrequestValid, houtcomeValid, not_not.1 hbound⟩
        rcases validateVerification_ok hverified with ⟨hnone, rfl⟩ | ⟨v, hsome, hvalid, rfl⟩
        · exact .uncommitted hsent hnone
        · exact .committed hsent hsome hvalid

section Lifecycle

variable {i : WriteReplayIdentity} {e : RehydratedWriteReplayEvidence}
  {values : List (WriteReplayEvidenceKind × ReplayEvidence)}

/-- The parts of the evidence give it back. -/
theorem Lifecycle.rehydrate (h : Lifecycle i e values) : rehydrate values = .ok e := by
  cases e
  cases h with
  | rejected hrequest houtcome hverification =>
    cases hrequest
    cases houtcome
    cases hverification
    rfl
  | uncommitted hsent hverification =>
    cases hsent.writeRequest
    cases hsent.commitOutcome
    cases hverification
    rfl
  | committed hsent hverification _ =>
    cases hsent.writeRequest
    cases hsent.commitOutcome
    cases hverification
    rfl

/-- Each part is valid for the identity. -/
theorem Lifecycle.valid (h : Lifecycle i e values)
    (happroval : validateDomainValue .approval (.approval e.approval) i = .ok ()) :
    ∀ kv ∈ values, validateDomainValue kv.1 kv.2 i = .ok () := by
  intro kv hkv
  cases h with
  | rejected _ _ _ =>
    simp only [List.mem_cons, List.not_mem_nil, or_false] at hkv
    rw [hkv]
    exact happroval
  | uncommitted hsent _ =>
    simp only [List.mem_cons, List.not_mem_nil, or_false] at hkv
    rcases hkv with rfl | rfl | rfl
    · exact happroval
    · exact hsent.requestValid
    · exact hsent.outcomeValid
  | committed hsent _ hvalid =>
    simp only [List.mem_cons, List.not_mem_nil, or_false] at hkv
    rcases hkv with rfl | rfl | rfl | rfl
    · exact happroval
    · exact hsent.requestValid
    · exact hsent.outcomeValid
    · exact hvalid

/-! ### The session of valid evidence -/

/-- The outcome of the evidence names the call of its request. -/
def SameCall (e : RehydratedWriteReplayEvidence) : Prop :=
  ∀ request outcome, e.writeRequest = some request → e.commitOutcome = some outcome →
    outcome.identity.invocationId = request.invocationId ∧ outcome.identity.toolId = request.toolId

omit [Platform] in
theorem requireBindings_ok_iff {kind : WriteReplayEvidenceKind} {bindings : Bool} :
    requireBindings kind bindings = .ok () ↔ bindings = true := by
  unfold requireBindings
  cases bindings <;> simp

/-- Of a sent WRITE, the composer left two fields for the session to compare. -/
theorem SentWrite.matches_iff {request : WriteAttemptRecord} {outcome : WriteOutcomeRecord}
    (h : SentWrite i e request outcome) : outcomeMatchesRequest outcome.identity request = true ↔
      outcome.identity.invocationId = request.invocationId ∧ outcome.identity.toolId = request.toolId := by
  have hrequest := requireBindings_ok_iff.1 h.requestValid
  have houtcome := requireBindings_ok_iff.1 h.outcomeValid
  unfold outcomeBindings at houtcome
  simp only [Bool.and_eq_true, decide_eq_true_eq] at hrequest houtcome
  obtain ⟨⟨⟨⟨⟨⟨⟨htenant, -⟩, hbusiness⟩, hnode⟩, happroval⟩, hkey⟩, hpayload⟩, hintent⟩ := hrequest
  obtain ⟨⟨⟨⟨⟨⟨htenant', hbusiness'⟩, hnode'⟩, happroval'⟩, hkey'⟩, hpayload'⟩, hintent'⟩ := houtcome
  have hsameKey : outcome.identity.idempotencyKey = request.idempotencyKey := by
    rw [hkey] at hkey'
    exact (Option.some.inj hkey').symm
  unfold outcomeMatchesRequest
  simp only [Bool.and_eq_true, decide_eq_true_eq, htenant, htenant', hbusiness, hbusiness', hnode, hnode', happroval,
    happroval', hpayload, hpayload', hintent, hintent', hsameKey]
  tauto

/-- One exchange, or none, makes an executor. -/
theorem RecordedWriteExecutor.create_small (exchanges : List RecordedWriteExchange) (h : exchanges.length ≤ 1) :
    ∃ x, RecordedWriteExecutor.create exchanges = .ok x := by
  have hfew : exchanges.length ≤ MAX_REPLAY_WRITE_CALLS := h.trans (by decide)
  have hunique : (exchanges.map (·.invocation)).Nodup := by
    cases exchanges with
    | nil       => simp
    | cons x xs =>
      have hxs : xs = [] := by simpa using h
      rw [hxs]
      simp
  unfold RecordedWriteExecutor.create
  rw [dif_pos hfew, dif_pos hunique]
  exact ⟨_, rfl⟩

/-- Where the outcome binds the request, an exchange needs the identities to agree. -/
theorem RecordedWriteExchange.create_iff {request : WriteAttemptRecord} {outcome : WriteOutcomeRecord}
    (hbound : outcome.requestedRecordHash = request.recordHash) :
    (∃ x, RecordedWriteExchange.create request outcome = .ok x) ↔
      outcomeMatchesRequest outcome.identity request = true := by
  unfold RecordedWriteExchange.create
  rw [dif_pos hbound]
  by_cases hmatch : outcomeMatchesRequest outcome.identity request = true
  · rw [dif_pos hmatch]
    exact iff_of_true ⟨_, rfl⟩ hmatch
  · rw [dif_neg hmatch]
    exact iff_of_false (fun ⟨_, hx⟩ => by cases hx) hmatch

/-- A session of evidence with one WRITE needs its exchange and nothing else. -/
theorem ReplayWriteSession.create_iff {request : WriteAttemptRecord} {outcome : WriteOutcomeRecord}
    (hrequest : e.writeRequest = some request) (houtcome : e.commitOutcome = some outcome) :
    (∃ session, ReplayWriteSession.create e = .ok session) ↔
      ∃ x, RecordedWriteExchange.create request outcome = .ok x := by
  have hexecutor : recordedWriteReplayExecutor e =
      (RecordedWriteExchange.create request outcome >>= fun x => RecordedWriteExecutor.create [x]) := by
    unfold recordedWriteReplayExecutor
    rw [hrequest, houtcome]
  unfold ReplayWriteSession.create
  rw [hexecutor]
  cases hx : RecordedWriteExchange.create request outcome with
  | error err =>
    refine iff_of_false ?_ (fun ⟨_, h⟩ => by cases h)
    rintro ⟨session, hsession⟩
    cases hsession
  | ok x      =>
    obtain ⟨writes, hwrites⟩ := RecordedWriteExecutor.create_small [x] (Nat.le_refl 1)
    simp only [bind, Except.bind, hwrites, pure, Except.pure]
    exact iff_of_true ⟨_, rfl⟩ ⟨x, rfl⟩

/-- **A session opens on valid evidence exactly where its outcome names the call of its request.** -/
theorem Lifecycle.session_iff (h : Lifecycle i e values) : (∃ session, ReplayWriteSession.create e = .ok session) ↔ SameCall e := by
  have hsent : ∀ request outcome, SentWrite i e request outcome →
      ((∃ session, ReplayWriteSession.create e = .ok session) ↔ SameCall e) := by
    intro request outcome hsent
    rw [ReplayWriteSession.create_iff hsent.writeRequest hsent.commitOutcome, RecordedWriteExchange.create_iff hsent.bound,
      hsent.matches_iff]
    constructor
    · intro hcall request' outcome' hrequest' houtcome'
      cases hsent.writeRequest.symm.trans hrequest'
      cases hsent.commitOutcome.symm.trans houtcome'
      exact hcall
    · intro hcall
      exact hcall request outcome hsent.writeRequest hsent.commitOutcome
  cases h with
  | rejected hrequest houtcome _ =>
    obtain ⟨x, hx⟩ := RecordedWriteExecutor.create_small [] (Nat.zero_le 1)
    refine iff_of_true ?_ (fun request _ hsome _ => ?_)
    · unfold ReplayWriteSession.create recordedWriteReplayExecutor
      rw [hrequest, houtcome]
      simp only [bind, Except.bind, hx, pure, Except.pure]
      exact ⟨_, rfl⟩
    · rw [hrequest] at hsome
      cases hsome
  | uncommitted hsent' _   => exact hsent _ _ hsent'
  | committed hsent' _ _   => exact hsent _ _ hsent'

end Lifecycle

/-! ## From the composer to the loader -/

/-- `unseal` gives back what was sealed, for the same tenant and classification. -/
def SnapshotProtectionPort.Restores {α : Type} (port : SnapshotProtectionPort α) : Prop :=
  ∀ n m value tenantId classification blob, port.seal_ n value tenantId classification = .ok (some blob) →
    port.unseal_ m blob tenantId classification = .ok value

section Store

variable (port : SnapshotProtectionPort ReplayEvidence) (clock : Nat → Option DateTime)
  (composer : WriteReplayEvidenceComposer)

/-- The store holds the value of a record, sealed, under the reference of the record. -/
structure RecordedValue (identity : WriteReplayIdentity) (w : SnapshotWorld ReplayEvidence) (record : WriteReplaySnapshotRecord)
    (kv : WriteReplayEvidenceKind × ReplayEvidence) (item : ProtectedStoredSnapshot) : Prop where
  kind        : record.kind = kv.1
  stored      : w.items.get? record.snapshotRef.snapshotId = some item
  reference   : record.snapshotRef = item.reference record.snapshotRef.snapshotId
  tenant      : item.tenantId = identity.tenantId.text
  isProtected : item.classification.isProtected = true
  plaintext   : item.plaintext = none
  sealed      : ∃ n blob, item.protectedBlob = some blob ∧
    port.seal_ n kv.2 item.tenantId item.classification = .ok (some blob)
  integrity   : SnapshotValue.hash kv.2 = .ok item.integrityHash
  expiry      : ∃ n, snapshotExpiry (clock n) composer.retentionDays = .ok item.expiresAt

variable {port clock composer}

theorem WriteReplaySnapshotRecord.create_ok {sequence : Nat} {kind : WriteReplayEvidenceKind}
    {identity : WriteReplayIdentity} {ref : SnapshotRef} {record : WriteReplaySnapshotRecord}
    (h : create sequence kind identity ref = .ok record) : record.kind = kind ∧ record.snapshotRef = ref := by
  unfold create at h
  split at h
  · cases h
    exact ⟨rfl, rfl⟩
  · cases h

/-- What a stored part of the evidence is. -/
theorem Stored.recorded {sequence : Nat} {identity : WriteReplayIdentity}
    {w w' : SnapshotWorld ReplayEvidence} {object : Nat} {ref : SnapshotRef} {item : ProtectedStoredSnapshot}
    {record : WriteReplaySnapshotRecord} {kind : WriteReplayEvidenceKind} {value : ReplayEvidence}
    (h : Stored port (clock sequence) ⟨identity.tenantId.text, object, composer.classification, composer.retentionDays, none⟩ w ref w'
      item) (hvalue : w.objects.content object = value) (hkind : record.kind = kind) (href : record.snapshotRef = ref) :
    RecordedValue port clock composer identity w' record (kind, value) item := by
  have hid : record.snapshotRef.snapshotId = snapshotName (w.counter + 1) := by
    rw [href, h.reference]
    rfl
  have hprotected : item.classification.isProtected = true := by
    rw [h.classification]
    exact composer.isProtected
  have hholds := h.holds
  rw [hvalue] at hholds
  generalize hheld : (item.plaintext, item.protectedBlob) = held at hholds
  cases hholds with
  | @sealed n blob _ hseal =>
    obtain ⟨hplain, hblob⟩ := Prod.mk.inj hheld
    refine ⟨hkind, ?_, ?_, h.tenant, hprotected, hplain, ⟨n, blob, hblob, ?_⟩, ?_, ⟨sequence, h.expiry⟩⟩
    · rw [hid, h.items, Dict.get?_set_self]
    · rw [hid, href, h.reference]
    · rw [h.tenant, h.classification]
      exact hseal
    · rw [← hvalue]
      exact h.integrity
  | copied hopen _ _ _ =>
    have hclosed := composer.isProtected
    rw [hopen] at hclosed
    cases hclosed

/-- What is recorded stays so where its item stays. -/
theorem RecordedValue.keep {identity : WriteReplayIdentity} {w w' : SnapshotWorld ReplayEvidence}
    {record : WriteReplaySnapshotRecord} {kv : WriteReplayEvidenceKind × ReplayEvidence} {item : ProtectedStoredSnapshot}
    (h : RecordedValue port clock composer identity w record kv item)
    (hkept : w'.items.get? record.snapshotRef.snapshotId = w.items.get? record.snapshotRef.snapshotId) :
    RecordedValue port clock composer identity w' record kv item :=
  ⟨h.kind, hkept.trans h.stored, h.reference, h.tenant, h.isProtected, h.plaintext, h.sealed, h.integrity, h.expiry⟩

variable (port clock composer) in
/-- **The composer records each part**, and leaves what was stored before. -/
theorem composeRecords_spec (identity : WriteReplayIdentity) : ∀ (values : List (WriteReplayEvidenceKind × ReplayEvidence)) (sequence : Nat)
      (w : SnapshotWorld ReplayEvidence), Made w →
    Run.Triple (· = w) (composeRecords port clock composer identity sequence values)
      (fun records w' => List.Forall₂ (fun record kv => ∃ item, RecordedValue port clock composer identity w' record kv item) records values ∧
        ∀ n, n ≤ w.counter → w'.items.get? (snapshotName n) = w.items.get? (snapshotName n)) (fun _ _ => True)
  | [], sequence, w, hmade => by
    rintro _ rfl
    exact ⟨.nil, fun _ _ => rfl⟩
  | (kind, value) :: rest, sequence, w, hmade => by
    unfold composeRecords
    refine ((newObject_spec value w).conseq (fun _ h => h) (fun _ _ h => h) (fun _ _ _ => trivial)).andThen
      (fun object => Run.triple_from (fun w₁ ⟨hframe, hcounter, _, _, hcontent⟩ => ?_))
    have hmade₁ : Made w₁ := by
      intro c hc
      rw [hframe.callers] at hc
      exact Nat.lt_of_lt_of_le (hmade c hc) hframe.objects.next
    refine ((putProtected_spec port (clock sequence) hmade₁ _).conseq (fun _ h => h) (fun _ _ h => h)
      (fun _ _ _ => trivial)).andThen (fun ref => Run.triple_from (fun w₂ ⟨item, hstored⟩ => ?_))
    have hmade₂ : Made w₂ := by
      intro c hc
      rw [hstored.callers] at hc
      exact Nat.lt_of_lt_of_le (hmade₁ c hc) hstored.objects.next
    cases hrecord : WriteReplaySnapshotRecord.create sequence kind identity ref with
    | error e     => exact fun _ _ => trivial
    | ok record =>
      obtain ⟨hkind, href⟩ := WriteReplaySnapshotRecord.create_ok hrecord
      have hrecorded := hstored.recorded hcontent hkind href
      have hid : record.snapshotRef.snapshotId = snapshotName w₂.counter := by
        rw [href, hstored.reference, hstored.counter]
        rfl
      refine Run.Triple.andThen (Q := fun r w' => r = record ∧ w' = w₂) (Run.triple_done (fun _ h => ⟨rfl, h⟩))
        (fun r => Run.triple_from (fun w₃ ⟨hr, hw₃⟩ => ?_))
      subst hr hw₃
      refine (composeRecords_spec identity rest (sequence + 1) w₃ hmade₂).andThen
        (fun records => Run.triple_done (fun w' h => ?_))
      obtain ⟨hrest, hkept⟩ := h
      refine ⟨.cons ⟨item, hrecorded.keep ?_⟩ hrest, fun n hn => ?_⟩
      · rw [hid]
        exact hkept _ (Nat.le_refl _)
      · have hle : n ≤ w₃.counter := by
          rw [hstored.counter, hcounter]
          omega
        have hne : snapshotName n ≠ snapshotName (w₁.counter + 1) := by
          intro hname
          have heq := snapshotName_injective hname
          omega
        rw [hkept n hle, hstored.items, Dict.get?_set_other _ _ hne, hframe.items]

/-- A principal may read the records of an identity at a world where they are in time. -/
structure MayRead (clock : Nat → Option DateTime) (identity : WriteReplayIdentity) (principal : ExecutionPrincipal)
    (records : List WriteReplaySnapshotRecord) (w : SnapshotWorld ReplayEvidence) : Prop where
  verified : principal.validate true = .ok ()
  tenant   : principal.tenantId = identity.tenantId.text
  granted  : "nsl:replay:read" ∈ principal.scopes
  inTime   : ∀ record ∈ records, ∀ item, w.items.get? record.snapshotRef.snapshotId = some item →
    ∃ now, snapshotNow (clock record.sequence) = .ok now ∧ now.instant < item.expiresAt.instant

/-- **The loader gives the recorded values back.** -/
theorem loadRecords_gives (hport : port.Restores) {readClock : Nat → Option DateTime} {identity : WriteReplayIdentity}
    {principal : ExecutionPrincipal} {records : List WriteReplaySnapshotRecord}
    {values : List (WriteReplayEvidenceKind × ReplayEvidence)} {w : SnapshotWorld ReplayEvidence}
    (hrecorded : List.Forall₂ (fun record kv => ∃ item, RecordedValue port clock composer identity w record kv item) records values)
    (hvalid : ∀ kv ∈ values, validateDomainValue kv.1 kv.2 identity = .ok ())
    (hread : MayRead readClock identity principal records w) :
    ∃ ws w', loadRecords port readClock identity principal records w = ⟨ws, w', .ok values⟩ := by
  induction records generalizing values w with
  | nil =>
    cases hrecorded
    exact ⟨[], w, rfl⟩
  | cons record records ih =>
    cases hrecorded with
    | @cons _ kv _ rest hfirst hrest =>
      obtain ⟨item, hitem⟩ := hfirst
      obtain ⟨n, blob, hblob, hseal⟩ := hitem.sealed
      obtain ⟨now, hnow, hinTime⟩ := hread.inTime record List.mem_cons_self item hitem.stored
      have haccess : Accessible "nsl:replay:read" record.snapshotRef principal w item :=
        ⟨hread.verified, hread.granted, hitem.stored, hitem.tenant.trans hread.tenant.symm, hitem.reference⟩
      obtain ⟨ws, w₁, c, hget, hcontent, hitems⟩ := getProtected_gives port (readClock record.sequence) haccess hnow hinTime
        hitem.isProtected hitem.plaintext hblob (fun m => hport n m _ _ _ _ hseal) hitem.integrity
      have hchecked : (Run.ofExcept (validateDomainValue record.kind kv.2 identity) : ReplayRun Unit) w₁ =
          ⟨[], w₁, .ok ()⟩ := by
        rw [hitem.kind, hvalid kv List.mem_cons_self, Run.ofExcept_apply]
      have hrest₁ : List.Forall₂ (fun r kv => ∃ item, RecordedValue port clock composer identity w₁ r kv item) records rest := by
        refine hrest.imp (fun r kv' ⟨item', h'⟩ => ⟨item', h'.keep ?_⟩)
        rw [hitems]
      obtain ⟨ws', w₂, hload⟩ := ih hrest₁ (fun kv' hkv' => hvalid kv' (List.mem_cons_of_mem _ hkv'))
        ⟨hread.verified, hread.tenant, hread.granted, fun r hr item' h' =>
          hread.inTime r (List.mem_cons_of_mem _ hr) item' (by rw [← hitems]; exact h')⟩
      unfold loadRecords
      rw [Run.bind_eq, Run.andThen_ok hget, Run.bind_eq, Run.look_andThen, hcontent, Run.bind_eq, Run.andThen_ok hchecked,
        Run.bind_eq, Run.andThen_ok hload, hitem.kind]
      exact ⟨_, _, rfl⟩

theorem ProtectedWriteReplayBundle.create_ok {identity : WriteReplayIdentity} {records : List WriteReplaySnapshotRecord}
    {bundle : ProtectedWriteReplayBundle} (h : create identity records = .ok bundle) :
    bundle.sourceIdentity = identity ∧ bundle.records = records := by
  unfold create at h
  split at h
  · cases h
    exact ⟨rfl, rfl⟩
  · cases h

/-- What the composer did when it gave a bundle. -/
theorem composeReplay_ok {identity : WriteReplayIdentity} {e : RehydratedWriteReplayEvidence} {w : SnapshotWorld ReplayEvidence} (hmade : Made w)
    {bundle : ProtectedWriteReplayBundle} (h : (composeReplay port clock composer identity e w).outcome = .ok bundle) :
    bundle.sourceIdentity = identity ∧ ∃ values, validateLifecycle identity e = .ok values ∧
      List.Forall₂ (fun record kv => ∃ item,
        RecordedValue port clock composer identity (composeReplay port clock composer identity e w).final record kv item) bundle.records values := by
  cases hvalues : validateLifecycle identity e with
  | error err =>
    unfold composeReplay at h
    rw [hvalues] at h
    cases h
  | ok values =>
    have hspec : Run.Triple (· = w) (composeReplay port clock composer identity e)
        (fun bundle w' => bundle.sourceIdentity = identity ∧ List.Forall₂ (fun record kv => ∃ item,
          RecordedValue port clock composer identity w' record kv item) bundle.records values) (fun _ _ => True) := by
      unfold composeReplay
      rw [hvalues]
      refine Run.Triple.andThen (Q := fun v w' => v = values ∧ w' = w) (Run.triple_done (fun _ h => ⟨rfl, h⟩))
        (fun v => Run.triple_from (fun w₁ ⟨hv, hw₁⟩ => ?_))
      subst hv hw₁
      refine (composeRecords_spec port clock composer identity v 1 w₁ hmade).andThen (fun records => ?_)
      refine Run.triple_ofExcept (fun b hb w₂ h₂ => ?_) (fun _ _ _ _ => trivial)
      obtain ⟨hidentity, hrecords⟩ := ProtectedWriteReplayBundle.create_ok hb
      refine ⟨hidentity, ?_⟩
      rw [hrecords]
      exact h₂.1
    have hend := hspec w rfl
    rw [h] at hend
    exact ⟨hend.1, values, rfl, hend.2⟩

/-- **The loader returns what was composed**, from any later world that still has the snapshots. -/
theorem loadReplay_composed (hport : port.Restores) {readClock : Nat → Option DateTime} {identity : WriteReplayIdentity} {e : RehydratedWriteReplayEvidence}
    {w w' : SnapshotWorld ReplayEvidence} (hmade : Made w) {bundle : ProtectedWriteReplayBundle}
    {principal : ExecutionPrincipal}
    (hcompose : (composeReplay port clock composer identity e w).outcome = .ok bundle)
    (hkept : ∀ record ∈ bundle.records, w'.items.get? record.snapshotRef.snapshotId =
      (composeReplay port clock composer identity e w).final.items.get? record.snapshotRef.snapshotId)
    (hread : MayRead readClock identity principal bundle.records w') :
    ∃ ws w'', loadReplay port readClock bundle principal w' = ⟨ws, w'', .ok e⟩ := by
  obtain ⟨hidentity, values, hvalues, hrecorded⟩ := composeReplay_ok hmade hcompose
  obtain ⟨happroval, hlifecycle⟩ := validateLifecycle_ok hvalues
  have hrecorded' : List.Forall₂ (fun record kv => ∃ item, RecordedValue port clock composer identity w' record kv item) bundle.records values := by
    refine List.forall₂_iff_get.2 ⟨hrecorded.length_eq, fun n hn hn' => ?_⟩
    obtain ⟨item, h⟩ := hrecorded.get hn hn'
    exact ⟨item, h.keep (hkept _ (List.get_mem _ _))⟩
  obtain ⟨ws, w₁, hload⟩ := loadRecords_gives hport hrecorded' (hlifecycle.valid happroval) hread
  have hverified : (Run.ofExcept (principal.validate true) : ReplayRun Unit) w' = ⟨[], w', .ok ()⟩ := by
    rw [hread.verified, Run.ofExcept_apply]
  have hrehydrated : (Run.ofExcept (rehydrate values) : ReplayRun RehydratedWriteReplayEvidence) w₁ = ⟨[], w₁, .ok e⟩ := by
    rw [hlifecycle.rehydrate, Run.ofExcept_apply]
  have hchecked : (Run.ofExcept (validateLifecycle identity e) :
      ReplayRun (List (WriteReplayEvidenceKind × ReplayEvidence))) w₁ = ⟨[], w₁, .ok values⟩ := by
    rw [hvalues, Run.ofExcept_apply]
  unfold loadReplay
  rw [hidentity, Run.bind_eq, Run.andThen_ok hverified, if_neg (not_not_intro hread.tenant), Run.bind_eq,
    Run.andThen_ok hload, Run.bind_eq, Run.andThen_ok hrehydrated, Run.bind_eq, Run.andThen_ok hchecked]
  exact ⟨_, _, rfl⟩

/-- **What the loader returns is a valid lifecycle**, for any bundle and any store. -/
theorem loadReplay_valid {bundle : ProtectedWriteReplayBundle}
    {principal : ExecutionPrincipal} {w : SnapshotWorld ReplayEvidence} {e : RehydratedWriteReplayEvidence}
    (h : (loadReplay port clock bundle principal w).outcome = .ok e) :
    ∃ values, validateLifecycle bundle.sourceIdentity e = .ok values := by
  have hgives : Run.Gives (fun e => ∃ values, validateLifecycle bundle.sourceIdentity e = .ok values)
      (loadReplay port clock bundle principal) := by
    unfold loadReplay
    refine Run.gives_after (fun _ => ?_)
    by_cases htenant : principal.tenantId ≠ bundle.sourceIdentity.tenantId.text
    · rw [if_pos htenant]
      exact Run.gives_fail _
    · rw [if_neg htenant]
      refine Run.gives_after (fun loaded => Run.gives_after (fun evidence => ?_))
      cases hvalues : validateLifecycle bundle.sourceIdentity evidence with
      | error err => exact Run.Gives.andThen (P := fun _ => False) (Run.gives_fail err) (fun _ h => h.elim)
      | ok values => exact Run.gives_after (fun _ => Run.gives_done ⟨values, hvalues⟩)
  refine hgives w (loadReplay port clock bundle principal w).written (loadReplay port clock bundle principal w).final e ?_
  rw [← h]

/-! ## What the composer takes -/

/-- The hash of evidence that is a record exists. -/
theorem ReplayEvidence.hash_ok {e : ReplayEvidence} (h : ∀ v, e ≠ .other v) : ∃ d, SnapshotValue.hash e = .ok (sha256Of d) := by
  have hoptional : ∀ t : Option RequiredText, (encodeValue (optionalTextValue t)).isJson = true := by
    intro t
    cases t <;> rfl
  have htime : ∀ t : Option UtcInstant, (encodeValue (optionalTimeValue t)).isJson = true := by
    intro t
    cases t <;> rfl
  have hitems : ∀ refs : List String, itemsJson (encodeItems (refs.map .str)) = true := by
    intro refs
    induction refs with
    | nil            => rfl
    | cons r refs ih => simpa [encodeItems, encodeValue, itemsJson, Value.isJson] using ih
  have hjson : (encodeValue (hashable e.asValue)).isJson = true := by
    cases e with
    | other v        => exact absurd rfl (h v)
    | approval a     => simp [ReplayEvidence.asValue, hashable, encodeValue, encodeFields, Value.isJson, fieldsJson, htime]
    | writeRequest r => simp [ReplayEvidence.asValue, hashable, encodeValue, encodeFields, Value.isJson, fieldsJson]
    | commitOutcome o =>
      simp [ReplayEvidence.asValue, WriteOutcomeIdentity.asValue, hashable, encodeValue, encodeFields, Value.isJson,
        fieldsJson, hoptional, hitems]
    | verification v =>
      simp [ReplayEvidence.asValue, WriteOutcomeIdentity.asValue, hashable, encodeValue, encodeFields, Value.isJson,
        fieldsJson, hoptional, htime]
  have hok := toJson_isOk (encodeValue (hashable e.asValue))
  rw [hjson] at hok
  show ∃ d, valueHash e.asValue = .ok (sha256Of d)
  unfold valueHash canonicalJson
  cases hdocument : toJson (encodeValue (hashable e.asValue)) with
  | error x => rw [hdocument] at hok; cases hok
  | ok j    => exact ⟨_, rfl⟩

theorem replaySha256_ok (text name : String) : replaySha256 (sha256Of text) name = .ok () := by
  obtain ⟨hrequired, hdigest⟩ := sha256Of_digest text
  unfold isRequiredText at hrequired
  simp only [Bool.and_eq_true, Bool.not_eq_true', Option.isNone_iff_eq_none] at hrequired
  unfold replaySha256
  rw [if_neg (by simp [hrequired.1]), if_neg (by simp [hrequired.2]), if_neg (by simp [hdigest])]

/-- A record of a stored part can be made. -/
theorem WriteReplaySnapshotRecord.create_gives {sequence : Nat} {kind : WriteReplayEvidenceKind}
    {identity : WriteReplayIdentity} {ref : SnapshotRef} {text : String} (hsequence : 0 < sequence)
    (htenant : ref.tenantId = identity.tenantId.text) (hprotected : ref.classification.isProtected = true)
    (hhash : ref.valueHash = sha256Of text) :
    ∃ record, create sequence kind identity ref = .ok record ∧ record.sequence = sequence ∧ record.identity = identity := by
  have hcheck : checkReplayRecord sequence kind identity ref (replayRecordHash sequence kind identity ref) = .ok () := by
    unfold checkReplayRecord
    rw [if_neg (Nat.ne_of_gt hsequence), if_neg (not_not_intro htenant), if_neg (by simp [hprotected]), hhash,
      replaySha256_ok]
    simp [bind, Except.bind]
  unfold create
  split
  · exact ⟨_, rfl, rfl, rfl⟩
  · rename_i e he
    rw [hcheck] at he
    cases he

variable (port clock composer) in
/-- The store takes the parts: each expiry exists, and the port seals each. -/
structure Takes (identity : WriteReplayIdentity)
    (values : List (WriteReplayEvidenceKind × ReplayEvidence)) : Prop where
  expiry : ∀ n, ∃ t, snapshotExpiry (clock n) composer.retentionDays = .ok t
  seals  : ∀ kv ∈ values, ∀ n, ∃ blob, port.seal_ n kv.2 identity.tenantId.text composer.classification = .ok (some blob)
  record : ∀ kv ∈ values, ∀ v, kv.2 ≠ .other v

/-- What the records of a composition are, one after the other. -/
structure Composed (identity : WriteReplayIdentity) (sequence : Nat)
    (values : List (WriteReplayEvidenceKind × ReplayEvidence)) (records : List WriteReplaySnapshotRecord) : Prop where
  sequences  : records.map (·.sequence) = List.range' sequence records.length
  kinds      : records.map (·.kind) = values.map Prod.fst
  identities : ∀ record ∈ records, record.identity = identity

theorem composeRecords_gives {identity : WriteReplayIdentity} : ∀ (values : List (WriteReplayEvidenceKind × ReplayEvidence)) (sequence : Nat)
      (w : SnapshotWorld ReplayEvidence), 0 < sequence → Made w → Takes port clock composer identity values →
    ∃ ws w' records, composeRecords port clock composer identity sequence values w = ⟨ws, w', .ok records⟩ ∧
      Composed identity sequence values records
  | [], sequence, w, _, _, _ => ⟨[], w, [], rfl, rfl, rfl, by simp⟩
  | (kind, value) :: rest, sequence, w, hsequence, hmade, htakes => by
    obtain ⟨hframe, hcounter, -, -, hcontent⟩ := newObject_spec value w w rfl
    have hnew : newObject value w = ⟨(newObject value w).written, (newObject value w).final, .ok w.objects.next⟩ := rfl
    have hmade₁ : Made (newObject value w).final := by
      intro c hc
      rw [hframe.callers] at hc
      exact Nat.lt_of_lt_of_le (hmade c hc) hframe.objects.next
    obtain ⟨text, hhash⟩ := ReplayEvidence.hash_ok (htakes.record _ List.mem_cons_self)
    obtain ⟨expiresAt, hexpiry⟩ := htakes.expiry sequence
    obtain ⟨ws, w₂, ref, hput⟩ := putProtected_gives port (clock sequence)
      (p := ⟨identity.tenantId.text, w.objects.next, composer.classification, composer.retentionDays, none⟩)
      (isBlank_of_isRequiredText identity.tenantId.ok) composer.positive composer.isProtected
      (by rw [hcontent]; exact htakes.seals _ List.mem_cons_self) hexpiry (by rw [hcontent]; exact hhash)
      (by rw [hcontent]; exact hhash)
    obtain ⟨item, hstored⟩ := (putProtected_spec port (clock sequence) hmade₁ _).ok rfl hput
    have hreference : ref.valueHash = sha256Of text := by
      have hput := hstored.referenceHash
      rw [hstored.reference]
      rw [Option.getD_none, hcontent, hhash] at hput
      exact (Except.ok.inj hput).symm
    have htenant : ref.tenantId = identity.tenantId.text := by
      rw [hstored.reference]
      exact hstored.tenant
    have hprotected : ref.classification.isProtected = true := by
      rw [hstored.reference]
      show item.classification.isProtected = true
      rw [hstored.classification]
      exact composer.isProtected
    have hgives : ∃ record, WriteReplaySnapshotRecord.create sequence kind identity ref = .ok record ∧
        record.sequence = sequence ∧ record.identity = identity :=
      WriteReplaySnapshotRecord.create_gives hsequence htenant hprotected hreference
    obtain ⟨record, hcreate, hrecordSequence, hidentity⟩ := hgives
    have hmade₂ : Made w₂ := by
      intro c hc
      rw [hstored.callers] at hc
      exact Nat.lt_of_lt_of_le (hmade₁ c hc) hstored.objects.next
    obtain ⟨ws', w₃, records, hrest, hcomposed⟩ := composeRecords_gives rest (sequence + 1) w₂ (Nat.succ_pos _) hmade₂
      ⟨htakes.expiry, fun kv hkv => htakes.seals kv (List.mem_cons_of_mem _ hkv),
        fun kv hkv => htakes.record kv (List.mem_cons_of_mem _ hkv)⟩
    have hmadeRecord : (Run.ofExcept (WriteReplaySnapshotRecord.create sequence kind identity ref) :
        ReplayRun WriteReplaySnapshotRecord) w₂ = ⟨[], w₂, .ok record⟩ := by
      rw [hcreate, Run.ofExcept_apply]
    have hrun : ∃ ws₀, composeRecords port clock composer identity sequence ((kind, value) :: rest) w =
        ⟨ws₀, w₃, .ok (record :: records)⟩ := by
      unfold composeRecords
      rw [Run.bind_eq, Run.andThen_ok hnew, Run.bind_eq, Run.andThen_ok hput, Run.bind_eq, Run.andThen_ok hmadeRecord,
        Run.bind_eq, Run.andThen_ok hrest]
      exact ⟨_, rfl⟩
    obtain ⟨ws₀, hrun⟩ := hrun
    refine ⟨ws₀, w₃, record :: records, hrun, ?_, ?_, ?_⟩
    · rw [List.map_cons, hcomposed.sequences, hrecordSequence, List.length_cons, List.range'_succ]
    · rw [List.map_cons, hcomposed.kinds, (WriteReplaySnapshotRecord.create_ok hcreate).1]
      rfl
    · intro r hr
      rcases List.mem_cons.1 hr with rfl | hr
      · exact hidentity
      · exact hcomposed.identities r hr

/-- The kinds of a valid lifecycle make a bundle. -/
theorem ProtectedWriteReplayBundle.create_gives {identity : WriteReplayIdentity} {e : RehydratedWriteReplayEvidence}
    {values : List (WriteReplayEvidenceKind × ReplayEvidence)} {records : List WriteReplaySnapshotRecord}
    (hlifecycle : Lifecycle identity e values) (h : Composed identity 1 values records) :
    ∃ bundle, create identity records = .ok bundle := by
  have hkinds : records.map (·.kind) ∈ ALLOWED_KIND_SEQUENCES := by
    rw [h.kinds]
    cases hlifecycle <;> simp [ALLOWED_KIND_SEQUENCES, StrEnum.members]
  have hlength : records.length = (records.map (·.kind)).length := by simp
  have hshape : ∀ kinds ∈ ALLOWED_KIND_SEQUENCES, kinds.length ≠ 0 ∧ kinds.length ≤ MAX_WRITE_REPLAY_RECORDS ∧
      kinds.Nodup ∧ kinds.Pairwise (fun k k' => k.order ≤ k'.order) := by decide
  obtain ⟨hsome, hfew, hnodup, hsorted⟩ := hshape _ hkinds
  rw [← hlength] at hsome hfew
  have hsort : (records.map (·.kind)).mergeSort (fun k k' => k.order ≤ k'.order) = records.map (·.kind) :=
    List.mergeSort_of_pairwise (by simpa using hsorted)
  have hidentities : records.any (fun r => r.identity ≠ identity) = false := by
    refine List.any_eq_false.2 (fun r hr => ?_)
    simp [h.identities r hr]
  have hcheck : checkReplayBundle WRITE_REPLAY_SCHEMA_VERSION identity records
      (replayManifestHash WRITE_REPLAY_SCHEMA_VERSION identity records) = .ok () := by
    unfold checkReplayBundle
    simp only
    rw [if_neg (not_not_intro rfl), if_neg (by simpa using hsome), if_neg (Nat.not_lt_of_le hfew),
      if_neg (not_not_intro h.sequences), if_neg (not_not_intro hnodup), if_neg (not_not_intro hsort),
      if_neg (not_not_intro hkinds), hidentities, if_neg (by simp), if_neg (not_not_intro rfl)]
  unfold create
  split
  · exact ⟨_, rfl⟩
  · rename_i err herr
    rw [hcheck] at herr
    cases herr

/-- **The composer accepts every valid lifecycle that the store takes.** -/
theorem composeReplay_accepts {identity : WriteReplayIdentity} {e : RehydratedWriteReplayEvidence} {w : SnapshotWorld ReplayEvidence}
    {values : List (WriteReplayEvidenceKind × ReplayEvidence)} (hmade : Made w)
    (hvalues : validateLifecycle identity e = .ok values) (htakes : Takes port clock composer identity values) :
    ∃ bundle, (composeReplay port clock composer identity e w).outcome = .ok bundle := by
  obtain ⟨ws, w', records, hrecords, hcomposed⟩ := composeRecords_gives values 1 w Nat.one_pos hmade htakes
  obtain ⟨bundle, hbundle⟩ := ProtectedWriteReplayBundle.create_gives (validateLifecycle_ok hvalues).2 hcomposed
  have hchecked : (Run.ofExcept (validateLifecycle identity e) :
      ReplayRun (List (WriteReplayEvidenceKind × ReplayEvidence))) w = ⟨[], w, .ok values⟩ := by
    rw [hvalues, Run.ofExcept_apply]
  refine ⟨bundle, ?_⟩
  unfold composeReplay
  rw [Run.bind_eq, Run.andThen_ok hchecked, Run.bind_eq, Run.andThen_ok hrecords, hbundle]
  rfl

/-! ## The evidence closes -/

/-- Evidence that was composed in a reachable world, and a later world that still has its snapshots, in time for a
principal who may read them. -/
structure StoredReplay (port : SnapshotProtectionPort ReplayEvidence) (putClock readClock : Nat → Option DateTime)
    (composer : WriteReplayEvidenceComposer) (identity : WriteReplayIdentity) (e : RehydratedWriteReplayEvidence) (bundle : ProtectedWriteReplayBundle)
    (principal : ExecutionPrincipal) (w w' : SnapshotWorld ReplayEvidence) : Prop where
  reachable : ∃ past, SnapshotHistory port past w
  composed  : (composeReplay port putClock composer identity e w).outcome = .ok bundle
  kept      : ∀ record ∈ bundle.records, w'.items.get? record.snapshotRef.snapshotId =
    (composeReplay port putClock composer identity e w).final.items.get? record.snapshotRef.snapshotId
  mayRead   : MayRead readClock identity principal bundle.records w'

/-- **WRITE Replay closes exactly where the outcome names the call of its request**: then what was composed is loaded and a
session opens on it. What the loader returns satisfies the composer's rules, always. -/
theorem writeReplay_closes_iff (hport : port.Restores) :
    (∀ putClock readClock composer identity e bundle principal w w',
      StoredReplay port putClock readClock composer identity e bundle principal w w' →
        ((loadReplay port readClock bundle principal w').outcome = .ok e ∧
            (∃ session, (openReplaySession port readClock bundle principal w').outcome = .ok session) ↔ SameCall e)) ∧
      ∀ readClock bundle principal w e, (loadReplay port readClock bundle principal w).outcome = .ok e →
        ∃ values, validateLifecycle bundle.sourceIdentity e = .ok values := by
  refine ⟨fun putClock readClock composer identity e bundle principal w w' h => ?_, fun readClock bundle principal w e h => ?_⟩
  · obtain ⟨past, hpast⟩ := h.reachable
    have hmade : Made w := hpast.invariant.made
    obtain ⟨ws, w'', hload⟩ := loadReplay_composed hport hmade h.composed h.kept h.mayRead
    obtain ⟨-, values, hvalues, -⟩ := composeReplay_ok hmade h.composed
    have hopen : (openReplaySession port readClock bundle principal w').outcome = ReplayWriteSession.create e := by
      unfold openReplaySession
      rw [Run.bind_eq, Run.andThen_ok hload, Run.ofExcept_apply]
    rw [hopen, hload, (validateLifecycle_ok hvalues).2.session_iff]
    exact ⟨fun h => h.2, fun h => ⟨rfl, h⟩⟩
  · exact loadReplay_valid h

end Store

/-! ## An outcome of another tool -/

section Replayed

deriving instance DecidableEq for ApprovalEvidence
deriving instance DecidableEq for ReplayEvidence

def replayIntent : Digest := .ofText "replayed intent"

def replayKey : IdempotencyKey := .ofText "replayed key"

def replayApproval : ApprovalEvidence :=
  { waitingEvidence with writeIntentHash := ⟨replayIntent.text, replayIntent.ok.1⟩ }

def replayIdentity : WriteReplayIdentity where
  tenantId            := draftTenant
  executionId         := waitingRequest.executionId
  businessOperationId := draftOperation
  skillSemanticHash   := replayApproval.skillSemanticHash
  nodeId              := draftNode
  approvalRequestId   := requestedId
  payloadHash         := waitingPayloadHash
  writeIntentHash     := replayIntent
  idempotencyKey      := some replayKey

def replayRequest : WriteAttemptRecord where
  tenantId               := draftTenant
  executionId            := waitingRequest.executionId
  businessOperationId    := draftOperation
  invocationId           := requestedApproval
  nodeId                 := draftNode
  toolId                 := draftTool
  contractHash           := .ofText "replayed contract"
  approvalRequestId      := requestedId
  idempotencyKey         := replayKey
  payloadHash            := waitingPayloadHash
  writeIntentHash        := replayIntent
  preconditionEvidenceId := draftSubject
  requestedAt            := draftMorning

theorem noReplayRefs_ok : areEvidenceRefs [] = true := rfl

def noReplayRefs : EvidenceRefs := ⟨[], noReplayRefs_ok⟩

/-- An outcome that binds the request, of some tool. -/
def replayOutcome (toolId : RequiredText) : WriteOutcomeRecord where
  requestedRecordHash   := replayRequest.recordHash
  identity              :=
    ⟨draftTenant, draftOperation, requestedApproval, draftNode, toolId, replayKey, waitingPayloadHash, requestedId,
      replayIntent⟩
  commitState           := .notCommitted
  reasonCode            := none
  providerTransactionId := none
  businessReference     := none
  evidenceRefs          := noReplayRefs
  recordedAt            := draftNoon

def replayEvidence (toolId : RequiredText) : RehydratedWriteReplayEvidence :=
  ⟨replayApproval, some replayRequest, some (replayOutcome toolId), none⟩

def replayValues (toolId : RequiredText) : List (WriteReplayEvidenceKind × ReplayEvidence) :=
  [(.approval, .approval replayApproval), (.writeRequest, .writeRequest replayRequest),
    (.commitOutcome, .commitOutcome (replayOutcome toolId))]

/-- The composer does not look at the tool. -/
theorem replayEvidence_valid (toolId : RequiredText) :
    validateLifecycle replayIdentity (replayEvidence toolId) = .ok (replayValues toolId) := by
  have happroval : validateDomainValue .approval (.approval replayApproval) replayIdentity = .ok () :=
    requireBindings_ok_iff.2 (by simp [replayApproval, replayIdentity, waitingEvidence])
  have hrequest : validateDomainValue .writeRequest (.writeRequest replayRequest) replayIdentity = .ok () :=
    requireBindings_ok_iff.2 (by simp [replayRequest, replayIdentity])
  have houtcome : validateDomainValue .commitOutcome (.commitOutcome (replayOutcome toolId)) replayIdentity = .ok () :=
    requireBindings_ok_iff.2 (by simp [outcomeBindings, replayOutcome, replayIdentity])
  have hdecision : replayApproval.decision ≠ .rejected := by
    intro h
    cases h
  unfold validateLifecycle replayEvidence
  rw [happroval]
  simp only [bind, Except.bind, if_neg hdecision]
  rw [hrequest, houtcome]
  simp [replayIdentity, replayOutcome, validateVerification, replayValues, pure, Except.pure]

/-- A port that numbers the parts it knows. -/
def numberedBlob (n : UInt8) : ProtectedSnapshotBlob :=
  ⟨[n], "VAULT", "key", by simp, vaultBlob.named, vaultBlob.keyed⟩

def replayPort (a r o : ReplayEvidence) : SnapshotProtectionPort ReplayEvidence where
  seal_ _ value _ _ :=
    if value = a then .ok (some (numberedBlob 1))
    else if value = r then .ok (some (numberedBlob 2))
    else if value = o then .ok (some (numberedBlob 3))
    else .error (.other "unsupported value")
  unseal_ _ blob _ _ :=
    if blob.ciphertext = [1] then .ok a
    else if blob.ciphertext = [2] then .ok r
    else if blob.ciphertext = [3] then .ok o
    else .error (.other "unknown blob")

theorem replayPort_restores (a r o : ReplayEvidence) : (replayPort a r o).Restores := by
  intro n m value tenantId classification blob hseal
  unfold replayPort at hseal ⊢
  simp only at hseal ⊢
  split_ifs at hseal with ha hr ho
  · cases hseal
    simp [numberedBlob, ha]
  · cases hseal
    simp [numberedBlob, hr]
  · cases hseal
    simp [numberedBlob, ho]

def replayComposer : WriteReplayEvidenceComposer := ⟨30, .confidential, by decide, rfl⟩

def replayPortOf (toolId : RequiredText) : SnapshotProtectionPort ReplayEvidence :=
  replayPort (.approval replayApproval) (.writeRequest replayRequest) (.commitOutcome (replayOutcome toolId))

/-- A clock that stands still. -/
def replayClock : Nat → Option DateTime := fun _ => some draftMorning.time

omit [Platform] in
theorem lastOfJanuary : (1 ≤ 2026 ∧ 2026 ≤ 9999) ∧ (1 ≤ 1 ∧ 1 ≤ 12) ∧ (1 ≤ 31 ∧ 31 ≤ Calendar.daysInMonth 2026 1) := by
  decide

def replayExpiry : DateTime := { draftMorning.time with date := ⟨2026, 1, 31, lastOfJanuary⟩ }

omit [Platform] in
theorem replayExpiry_of_clock (n : Nat) : snapshotExpiry (replayClock n) replayComposer.retentionDays = .ok replayExpiry := rfl

omit [Platform] in
theorem replayExpiry_later : draftMorning.time.instant < replayExpiry.instant := by decide

def replayWorld : SnapshotWorld ReplayEvidence := ⟨⟨fun _ => .other .null, 0⟩, [], Dict.empty, 0, 0⟩

theorem replayWorld_made : Made replayWorld := by simp [Made, replayWorld]

/-- A verified user who may read what is replayed. -/
def replayReader : ExecutionPrincipal :=
  ⟨"tenant", "replayer", "USER", [], ["nsl:replay:read"], "session", .verified, none⟩

theorem replayReader_validate : replayReader.validate true = .ok () := by
  unfold ExecutionPrincipal.validate ensureNoCredentialMaterial
  rw [findCredentialPath_plain _ _ _ (by decide +kernel)]
  decide

theorem replayPortOf_restores (toolId : RequiredText) : (replayPortOf toolId).Restores := replayPort_restores _ _ _

/-- **The evidence is stored, and may be read**, whatever tool its outcome names. -/
theorem replay_stored (toolId : RequiredText) : ∃ bundle, StoredReplay (replayPortOf toolId) replayClock replayClock
    replayComposer replayIdentity (replayEvidence toolId) bundle replayReader replayWorld
    (composeReplay (replayPortOf toolId) replayClock replayComposer replayIdentity (replayEvidence toolId)
      replayWorld).final := by
  have htakes : Takes (replayPortOf toolId) replayClock replayComposer replayIdentity (replayValues toolId) := by
    refine ⟨fun n => ⟨replayExpiry, replayExpiry_of_clock n⟩, fun kv hkv n => ?_, fun kv hkv v => ?_⟩
    · simp only [replayValues, List.mem_cons, List.not_mem_nil, or_false] at hkv
      rcases hkv with rfl | rfl | rfl
      · exact ⟨numberedBlob 1, if_pos rfl⟩
      · exact ⟨numberedBlob 2, by simp [replayPortOf, replayPort]⟩
      · exact ⟨numberedBlob 3, by simp [replayPortOf, replayPort]⟩
    · simp only [replayValues, List.mem_cons, List.not_mem_nil, or_false] at hkv
      rcases hkv with rfl | rfl | rfl <;> simp
  obtain ⟨bundle, hbundle⟩ := composeReplay_accepts replayWorld_made (replayEvidence_valid toolId) htakes
  obtain ⟨-, values, -, hrecorded⟩ := composeReplay_ok replayWorld_made hbundle
  refine ⟨bundle, ⟨[], .start replayWorld rfl rfl replayWorld_made⟩, hbundle, fun _ _ => rfl, replayReader_validate, rfl,
    by decide, fun record hrecord item hitem => ⟨draftMorning.time, rfl, ?_⟩⟩
  obtain ⟨n, hn, hget⟩ := List.getElem_of_mem hrecord
  obtain ⟨item', h⟩ := hrecorded.get hn (hrecorded.length_eq ▸ hn)
  have hstored := h.stored
  rw [List.get_eq_getElem, hget, hitem] at hstored
  cases hstored
  obtain ⟨m, hexpiry⟩ := h.expiry
  rw [replayExpiry_of_clock] at hexpiry
  rw [← Except.ok.inj hexpiry]
  exact replayExpiry_later

/-- No session opens where the outcome names another tool. -/
theorem replay_refused {toolId : RequiredText} (h : toolId ≠ draftTool) {bundle : ProtectedWriteReplayBundle}
    {w : SnapshotWorld ReplayEvidence}
    (hstored : StoredReplay (replayPortOf toolId) replayClock replayClock replayComposer replayIdentity
      (replayEvidence toolId) bundle replayReader replayWorld w) :
    ¬ ∃ session, (openReplaySession (replayPortOf toolId) replayClock bundle replayReader w).outcome = .ok session := by
  obtain ⟨ws, w', hload⟩ := loadReplay_composed (replayPortOf_restores toolId) replayWorld_made hstored.composed hstored.kept
    hstored.mayRead
  have hopen : (openReplaySession (replayPortOf toolId) replayClock bundle replayReader w).outcome =
      ReplayWriteSession.create (replayEvidence toolId) := by
    unfold openReplaySession
    rw [Run.bind_eq, Run.andThen_ok hload, Run.ofExcept_apply]
  rw [hopen, (validateLifecycle_ok (replayEvidence_valid toolId)).2.session_iff]
  intro hcall
  exact h (hcall replayRequest (replayOutcome toolId) rfl rfl).2

end Replayed

end WriteReplay

section Ascii

attribute [local instance] Platform.ascii

theorem replay_closes_voucher :
    (∀ putClock readClock composer identity e bundle principal w w',
      StoredReplay (replayPortOf draftTool) putClock readClock composer identity e bundle principal w w' →
        ((loadReplay (replayPortOf draftTool) readClock bundle principal w').outcome = .ok e ∧
            (∃ session, (openReplaySession (replayPortOf draftTool) readClock bundle principal w').outcome = .ok session) ↔
          SameCall e)) ∧
      ∀ readClock bundle principal w e, (loadReplay (replayPortOf draftTool) readClock bundle principal w).outcome = .ok e →
        ∃ values, validateLifecycle bundle.sourceIdentity e = .ok values :=
  writeReplay_closes_iff (replayPortOf_restores draftTool)

/-- **Evidence that is stored and never replayed**: its outcome names another tool. -/
theorem replay_otherTool : ∃ bundle w, StoredReplay (replayPortOf draftSubject) replayClock replayClock replayComposer
    replayIdentity (replayEvidence draftSubject) bundle replayReader replayWorld w ∧
      ¬ ∃ session, (openReplaySession (replayPortOf draftSubject) replayClock bundle replayReader w).outcome =
        .ok session := by
  obtain ⟨bundle, hstored⟩ := replay_stored draftSubject
  have hother : draftSubject ≠ draftTool := by
    intro h
    have htext : draftSubject.text = draftTool.text := congrArg RequiredText.text h
    exact absurd htext (by decide)
  exact ⟨bundle, _, hstored, replay_refused hother hstored⟩

end Ascii
end Nsl
