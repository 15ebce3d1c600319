import Nsl.Idempotency
import Nsl.Preflight
/-!
# Write execution — the boundary a WRITE is sent through

`write_execution.py`: the request of a WRITE, the record that is made durable before it is sent, the three coordinators
around the provider and the finalizing of its outcome. The ports answer with anything; what they were asked, and what
was accepted before, stays in a log.
-/
namespace Nsl

open Stateful (Run)

variable [Platform]

/-! ## Requests -/

structure WriteCallRequest where
  tenantId              : RequiredText
  executionId           : RequiredText
  businessOperationId   : RequiredText
  invocationId          : RequiredText
  nodeId                : RequiredText
  toolRef               : RequiredText
  toolId                : RequiredText
  contractHash          : Digest
  arguments             : Dict ValueEnvelope
  idempotencyKey        : IdempotencyKey
  payloadHash           : Digest
  approvalId            : RequiredText
  approvalRequestId     : RequiredText
  writeIntentHash       : Digest
  businessPreconditions : BusinessPreconditionEvidence
  traceRefs             : EvidenceRefs
  payload               : computePayloadHash arguments = .ok payloadHash

/-- `_precondition_matches` of the builder -/
def callPreconditionMatches (evidence : BusinessPreconditionEvidence) (intent : WriteIntent)
    (contract : WriteContractEvidence) : Bool :=
  evidence.tenantId = intent.tenantId && evidence.businessOperationId = intent.businessOperationId &&
    evidence.writeNodeId = intent.nodeId && evidence.toolId = intent.toolId && intent.toolId = contract.toolId &&
    evidence.contractHash = contract.contractHash && evidence.payloadHash = intent.payloadHash &&
    evidence.writeIntentHash = intent.writeIntentHash && evidence.providerAtomicEnforcement

/-- What the builder compares of a reservation. -/
def reservationMatches (durable : IdempotencyEvidenceRecord) (intent : WriteIntent) (contract : WriteContractEvidence) : Bool :=
  durable.tenantId = intent.tenantId && durable.businessOperationId = intent.businessOperationId &&
    durable.writeNodeId = intent.nodeId && durable.toolId = intent.toolId &&
    durable.contractHash = contract.contractHash && durable.payloadHash = intent.payloadHash

/-- `WriteCallRequestBuilder.build` -/
def buildWriteCall (intent : WriteIntent) (ctx : Context) (contract : WriteContractEvidence)
    (reservation : IdempotencyReservation) (approvalRequestId invocationId : RequiredText)
    (preconditions : BusinessPreconditionEvidence) (traceRefs : EvidenceRefs) : Except Exn WriteCallRequest :=
  if ctx.tenantId ≠ intent.tenantId.text then .error (.writeExecution "WRITE tenant binding mismatch")
  else if ctx.request.businessOperationId ≠ some intent.businessOperationId then
    .error (.writeExecution "WRITE business operation binding mismatch")
  else if contract.capability ≠ .write ∨ contract.toolId ≠ intent.toolId then
    .error (.writeExecution "canonical WRITE Tool binding mismatch")
  else if reservationMatches reservation.evidence intent contract = false then
    .error (.writeExecution "idempotency reservation binding mismatch")
  else if callPreconditionMatches preconditions intent contract = false then
    .error (.writeExecution "business precondition binding mismatch")
  else
    .ok
      { tenantId := intent.tenantId, executionId := ctx.request.executionId,
        businessOperationId := intent.businessOperationId, invocationId, nodeId := intent.nodeId, toolRef := intent.toolRef,
        toolId := intent.toolId, contractHash := contract.contractHash,
        arguments := freezeArguments intent.canonicalArguments, idempotencyKey := reservation.evidence.idempotencyKey,
        payloadHash := intent.payloadHash, approvalId := intent.approvalId, approvalRequestId,
        writeIntentHash := intent.writeIntentHash, businessPreconditions := preconditions, traceRefs,
        payload := (computePayloadHash_freeze _).trans intent.payload }

/-! ## The record of a request -/

structure WriteAttemptRecord where
  tenantId               : RequiredText
  executionId            : RequiredText
  businessOperationId    : RequiredText
  invocationId           : RequiredText
  nodeId                 : RequiredText
  toolId                 : RequiredText
  contractHash           : Digest
  approvalRequestId      : RequiredText
  idempotencyKey         : IdempotencyKey
  payloadHash            : Digest
  writeIntentHash        : Digest
  preconditionEvidenceId : RequiredText
  requestedAt            : UtcInstant
  deriving DecidableEq

/-- `_utc_instant` of `write_execution.py` -/
def writeUtc (t : Calendar.DateTime) (name : String) : Except WriteFault UtcInstant :=
  if h : t.isUtc = true then .ok ⟨t, h⟩
  else if t.offset = none then .error (.raised (.writeExecution (name ++ " must be timezone-aware UTC")))
  else .error (.raised (.writeExecution (name ++ " must use UTC")))

/-- `WriteAttemptRecord.from_request` -/
def WriteAttemptRecord.fromRequest (request : WriteCallRequest) (requestedAt : Calendar.DateTime) :
    Except WriteFault WriteAttemptRecord := do
  let requestedAt ← writeUtc requestedAt "WriteAttemptRecord.requested_at"
  return ⟨request.tenantId, request.executionId, request.businessOperationId, request.invocationId, request.nodeId,
    request.toolId, request.contractHash, request.approvalRequestId, request.idempotencyKey, request.payloadHash,
    request.writeIntentHash, request.businessPreconditions.evidenceId, requestedAt⟩

/-- `WriteAttemptRecord.record_hash` -/
def WriteAttemptRecord.recordHash (r : WriteAttemptRecord) : Digest :=
  .ofText ("NSL-WRITE-REQUESTED-V1\x00" ++ Json.dumps (.obj
    [("tenant_id", .str r.tenantId.text), ("execution_id", .str r.executionId.text),
     ("business_operation_id", .str r.businessOperationId.text), ("invocation_id", .str r.invocationId.text),
     ("node_id", .str r.nodeId.text), ("tool_id", .str r.toolId.text), ("contract_hash", .str r.contractHash.text),
     ("approval_request_id", .str r.approvalRequestId.text), ("idempotency_key", .str r.idempotencyKey.text),
     ("payload_hash", .str r.payloadHash.text), ("write_intent_hash", .str r.writeIntentHash.text),
     ("precondition_evidence_id", .str r.preconditionEvidenceId.text),
     ("requested_at", .str r.requestedAt.time.isoformat)]))

structure WriteRequestedReceipt where
  recordHash  : Digest
  durableRef  : RequiredText
  persistedAt : UtcInstant
  durable     : Bool
  deriving DecidableEq

structure WriteOutcomeReceipt where
  recordHash  : Digest
  durableRef  : RequiredText
  persistedAt : UtcInstant
  deriving DecidableEq

/-! ## Ports -/

/-- What a provider may do: give an outcome or any other object back, or raise. -/
inductive ProviderAnswer
  | outcome (o : WriteExecutionOutcome)
  | other
  /-- `CancelledError` -/
  | cancelled
  /-- `TimeoutError` -/
  | timeout
  /-- `ConnectionError` -/
  | connectionLost
  /-- any other subclass of `Exception` -/
  | fails
  /-- `KeyboardInterrupt`, `SystemExit` -/
  | exit

/-- What happened at the boundary, the latest last: what was accepted, and what the ports were asked. -/
inductive WriteEvent
  | trusted (evidence : TrustPreflightEvidence)
  | allowed (decision : WriteGuardDecision)
  | recordRequested (record : WriteAttemptRecord)
  | invoked (request : WriteCallRequest)
  | recordOutcome (record : WriteOutcomeRecord)

def WriteEvent.isInvocation : WriteEvent → Bool
  | .invoked _ => true
  | _          => false

/-- The ports of the boundary; what they answer may depend on all that happened. -/
structure WritePorts where
  recordRequested : List WriteEvent → WriteAttemptRecord → EvidenceAnswer WriteRequestedReceipt
  execute         : List WriteEvent → WriteCallRequest → ProviderAnswer
  recordOutcome   : List WriteEvent → WriteOutcomeRecord → EvidenceAnswer WriteOutcomeReceipt

structure WriteState where
  ctx : Context
  log : List WriteEvent

/-- The run of a WRITE. -/
abbrev WriteRun (α : Type) := Run WriteState WriteFault α

def report (event : WriteEvent) : WriteRun Unit := Run.write (fun s => { s with log := s.log ++ [event] })

def updateCtx (f : Context → Context) : WriteRun Unit := Run.write (fun s => { s with ctx := f s.ctx })

/-- Asking a port for a receipt. -/
def receiptOf {α : Type} (answer : EvidenceAnswer α) (invalid : WriteFault) : Except WriteFault α :=
  match answer with
  | .answer a => .ok a
  | .other    => .error invalid
  | .raises e => .error (.raised e)

/-! ## Invocation -/

/-- The context once the request of a WRITE is durable. -/
def Context.writeRequested (c : Context) : Context :=
  { c with checkpoint := { c.checkpoint with writeRequestDurable := true } }

/-- `WriteEligibilityGate.require_allowed` -/
def requireAllowed (decision : WriteGuardDecision) : Except WriteFault Unit :=
  if decision.eligibility = .allowed then .ok ()
  else .error (.eligibility ("WRITE blocked: " ++ (decision.reasonCode.map (·.text)).getD "PRE_WRITE_NOT_ALLOWED"))

/-- The identity checks of `WriteExecutionCoordinator.execute`. -/
def requireIdentity (request : WriteCallRequest) (ctx : Context) : Except WriteFault Unit :=
  if request.executionId ≠ ctx.request.executionId then .error (.raised (.writeExecution "WRITE execution identity mismatch"))
  else if request.tenantId.text ≠ ctx.tenantId then .error (.raised (.writeExecution "WRITE execution tenant mismatch"))
  else if some request.businessOperationId ≠ ctx.request.businessOperationId then
    .error (.raised (.writeExecution "WRITE execution business operation mismatch"))
  else .ok ()

/-- What the coordinator asks of the receipt of a record. -/
def requireReceipt (receipt : WriteRequestedReceipt) (record : WriteAttemptRecord) : Except WriteFault Unit :=
  if receipt.recordHash ≠ record.recordHash then .error (.evidence "WRITE_REQUESTED receipt binding mismatch")
  else if receipt.durable = false then .error (.evidence "WRITE_REQUESTED evidence is not durable")
  else if receipt.persistedAt.stamp < record.requestedAt.stamp then
    .error (.evidence "WRITE_REQUESTED receipt predates the request")
  else .ok ()

/-- The call of the provider with its two handlers: the outcome, or none for any other object. -/
def providerEnd : ProviderAnswer → WriteRun (Option WriteExecutionOutcome)
  | .outcome o      => Run.done (some o)
  | .other          => Run.done none
  | .cancelled      => Run.fail (.uncertain .cancelled)
  | .timeout        => Run.fail (.uncertain .timeout)
  | .connectionLost => Run.fail (.uncertain .connectionLost)
  | .fails          => Run.fail (.uncertain .exception)
  | .exit           => Run.fail (.raised .exit)

/-- `write_port.execute(request)` -/
def invoke (ports : WritePorts) (request : WriteCallRequest) : WriteRun (Option WriteExecutionOutcome) := do
  let log ← Run.look WriteState.log
  report (.invoked request)
  providerEnd (ports.execute log request)

/-- `WriteExecutionCoordinator.execute` -/
def executeWrite (ports : WritePorts) (request : WriteCallRequest) (decision : WriteGuardDecision)
    (requestedAt : Calendar.DateTime) : WriteRun (Option WriteExecutionOutcome) := do
  Run.ofExcept (requireAllowed decision)
  report (.allowed decision)
  let ctx ← Run.look WriteState.ctx
  Run.ofExcept (requireIdentity request ctx)
  let record ← Run.ofExcept (WriteAttemptRecord.fromRequest request requestedAt)
  let log ← Run.look WriteState.log
  report (.recordRequested record)
  let receipt ← Run.ofExcept (receiptOf (ports.recordRequested log record)
    (.evidence "WRITE_REQUESTED persistence returned an invalid receipt"))
  Run.ofExcept (requireReceipt receipt record)
  updateCtx Context.writeRequested
  invoke ports request

/-- What `TrustedWriteExecutionCoordinator.execute` asks of the preflight's evidence. -/
def requireTrust (evidence : TrustPreflightEvidence) (ctx : Context) : Except WriteFault Unit :=
  if evidence.tenantId.text ≠ ctx.tenantId then
    trustBlocked "TRUST_TENANT_BINDING_MISMATCH" "trust profile tenant does not match the execution context"
  else if evidence.skillSemanticHash ≠ ctx.skill.semanticHash then
    trustBlocked "TRUST_SKILL_BINDING_MISMATCH" "trusted Skill does not match the execution context"
  else .ok ()

/-- The arguments of the preflight. -/
structure TrustCheck (validateDocument : Value → Except Exn Unit) where
  artifact  : VerifiedSkillArtifact validateDocument
  profile   : ExecutionTrustProfile
  checkedAt : Calendar.DateTime

/-- `TrustedWriteExecutionCoordinator.execute` -/
def executeTrusted {validateDocument : Value → Except Exn Unit} (trust : TrustCheck validateDocument) (ports : WritePorts)
    (request : WriteCallRequest) (decision : WriteGuardDecision) (requestedAt : Calendar.DateTime) :
    WriteRun (Option WriteExecutionOutcome) := do
  let evidence ← Run.ofExcept (preflightValidate validateDocument trust.artifact trust.profile trust.checkedAt)
  let ctx ← Run.look WriteState.ctx
  Run.ofExcept (requireTrust evidence ctx)
  report (.trusted evidence)
  executeWrite ports request decision requestedAt

/-! ## Outcomes -/

/-- `WriteOutcomeIdentity.from_request` -/
def WriteOutcomeIdentity.fromRequest (request : WriteCallRequest) : WriteOutcomeIdentity :=
  ⟨request.tenantId, request.businessOperationId, request.invocationId, request.nodeId, request.toolId,
    request.idempotencyKey, request.payloadHash, request.approvalRequestId, request.writeIntentHash⟩

/-- `WriteOutcomeCoordinator._record` -/
def outcomeRecord (requestedRecordHash : Digest) (outcome : WriteExecutionOutcome) (recordedAt : UtcInstant) :
    WriteOutcomeRecord :=
  match outcome with
  | .committed r                         =>
    ⟨requestedRecordHash, r.identity, .committed, none, r.providerTransactionId, some r.businessReference, r.evidenceRefs,
      recordedAt⟩
  | .notCommitted w                      =>
    ⟨requestedRecordHash, w.identity, .notCommitted, some w.reasonCode, w.providerTransactionId, none, w.evidenceRefs,
      recordedAt⟩
  | .commitUnknown w                     =>
    ⟨requestedRecordHash, w.identity, .unknownCommitState, some w.reasonCode, w.providerTransactionId, none,
      w.evidenceRefs, recordedAt⟩

theorem outcomeRecord_commitState (h : Digest) (o : WriteExecutionOutcome) (t : UtcInstant) :
    (outcomeRecord h o t).commitState = o.commitState := by
  cases o <;> rfl

/-- The checks of `finalize` before it records the outcome. -/
def requireOutcome (request : WriteCallRequest) (ctx : Context) (outcome : WriteExecutionOutcome) : Except WriteFault Unit :=
  if outcome.identity ≠ .fromRequest request then .error (.outcome "provider outcome identity mismatch")
  else if request.executionId ≠ ctx.request.executionId then .error (.outcome "WRITE outcome execution mismatch")
  else if ctx.tenantId ≠ request.tenantId.text then .error (.outcome "WRITE outcome tenant mismatch")
  else if ctx.request.businessOperationId ≠ some request.businessOperationId then
    .error (.outcome "WRITE outcome business operation mismatch")
  else if ctx.idempotency.keysByWriteNode.get? request.nodeId.text ≠ some request.idempotencyKey.text ∨
      ctx.idempotency.payloadHashesByWriteNode.get? request.nodeId.text ≠ some request.payloadHash.text then
    .error (.outcome "WRITE outcome idempotency state mismatch")
  else .ok ()

/-- What `finalize` asks of the receipt of an outcome. -/
def requireOutcomeReceipt (receipt : WriteOutcomeReceipt) (record : WriteOutcomeRecord) : Except WriteFault Unit :=
  if receipt.recordHash.text ≠ record.recordHash then .error (.outcome "outcome receipt binding mismatch")
  else if receipt.persistedAt.stamp < record.recordedAt.stamp then
    .error (.outcome "outcome receipt predates the outcome")
  else .ok ()

/-- The decision `finalize` returns. -/
def commitDecision (request : WriteCallRequest) (outcome : WriteExecutionOutcome) (record : WriteOutcomeRecord) :
    WriteCommitDecision where
  executionStatus        := outcome.commitState.executionStatus
  outcome                := outcome
  writeSummary           := ⟨outcome.commitState, request.toolId, request.nodeId, request.idempotencyKey,
    request.payloadHash, record.providerTransactionId, record.businessReference⟩
  automaticRetryAllowed  := false
  reconciliationRequired := decide (outcome.commitState = .unknownCommitState)
  noRetry                := rfl
  reconciliation         := rfl
  states                 := rfl
  status                 := rfl

/-- `WriteOutcomeCoordinator.finalize` -/
def finalizeWrite (ports : WritePorts) (request : WriteCallRequest) (requestedRecordHash : Digest)
    (outcome : WriteExecutionOutcome) (recordedAt : Calendar.DateTime) : WriteRun WriteCommitDecision := do
  let ctx ← Run.look WriteState.ctx
  Run.ofExcept (requireOutcome request ctx outcome)
  let recordedAt ← Run.ofExcept (writeUtc recordedAt "WriteOutcomeRecord.recorded_at")
  let record := outcomeRecord requestedRecordHash outcome recordedAt
  let log ← Run.look WriteState.log
  report (.recordOutcome record)
  let receipt ← Run.ofExcept (receiptOf (ports.recordOutcome log record)
    (.outcome "outcome persistence returned an invalid receipt"))
  Run.ofExcept (requireOutcomeReceipt receipt record)
  updateCtx (fun c => { c with writes := c.writes ++ [.entry ⟨record, receipt.durableRef⟩] })
  return commitDecision request outcome record

def cancelledReason : RequiredText := .ofPlain "PROVIDER_CANCELLED"

def timeoutReason : RequiredText := .ofPlain "PROVIDER_TIMEOUT"

def connectionLostReason : RequiredText := .ofPlain "PROVIDER_CONNECTION_LOST"

def exceptionReason : RequiredText := .ofPlain "PROVIDER_EXCEPTION"

/-- The `reason_code` of a `ProviderInvocationUncertainError`. -/
def UncertainCause.reasonCode : UncertainCause → RequiredText
  | .cancelled      => cancelledReason
  | .timeout        => timeoutReason
  | .connectionLost => connectionLostReason
  | .exception      => exceptionReason

def malformedReason : RequiredText := .ofPlain "PROVIDER_ACKNOWLEDGEMENT_MALFORMED"

def uncertainMessage : RequiredText := .ofPlain "provider outcome is uncertain; reconciliation is required"

/-- `CommitAwareWriteExecutor._uncertain` -/
def uncertainOutcome (request : WriteCallRequest) (reasonCode : RequiredText) : WriteExecutionOutcome :=
  .commitUnknown ⟨.fromRequest request, reasonCode, uncertainMessage, none, request.traceRefs⟩

/-- The outcome an executor goes on with: that of the provider, or an uncertain one. -/
def invocationOutcome (request : WriteCallRequest) (invocation : WriteRun (Option WriteExecutionOutcome)) :
    WriteRun WriteExecutionOutcome :=
  Run.handle (do
    let raw ← invocation
    return raw.getD (uncertainOutcome request malformedReason)) (fun
    | .uncertain cause => Run.done (uncertainOutcome request cause.reasonCode)
    | e                => Run.fail e)

/-- `execute` of `CommitAwareWriteExecutor` and `TrustedCommitAwareWriteExecutor`, around their coordinators. -/
def executeCommitAware (invocation : WriteRun (Option WriteExecutionOutcome)) (ports : WritePorts)
    (request : WriteCallRequest) (requestedAt recordedAt : Calendar.DateTime) : WriteRun WriteCommitDecision := do
  let record ← Run.ofExcept (WriteAttemptRecord.fromRequest request requestedAt)
  let outcome ← invocationOutcome request invocation
  finalizeWrite ports request record.recordHash outcome recordedAt

/-- `CommitAwareWriteExecutor.execute` -/
def executeCommitAwareWrite (ports : WritePorts) (request : WriteCallRequest) (decision : WriteGuardDecision)
    (requestedAt recordedAt : Calendar.DateTime) : WriteRun WriteCommitDecision :=
  executeCommitAware (executeWrite ports request decision requestedAt) ports request requestedAt recordedAt

/-- `TrustedCommitAwareWriteExecutor.execute` -/
def executeTrustedCommitAware {validateDocument : Value → Except Exn Unit} (trust : TrustCheck validateDocument)
    (ports : WritePorts) (request : WriteCallRequest) (decision : WriteGuardDecision)
    (requestedAt recordedAt : Calendar.DateTime) : WriteRun WriteCommitDecision :=
  executeCommitAware (executeTrusted trust ports request decision requestedAt) ports request requestedAt recordedAt

/-! ## What a run does -/

/-- A check raises something else than that the provider's end is uncertain. -/
def Certain {α : Type} (x : Except WriteFault α) : Prop := ∀ cause, x ≠ .error (.uncertain cause)

omit [Platform] in
theorem Certain.bind {α β : Type} {x : Except WriteFault α} {f : α → Except WriteFault β} (hx : Certain x)
    (hf : ∀ a, Certain (f a)) : Certain (x >>= f) := by
  intro cause h
  cases x with
  | error e => exact hx cause (congrArg Except.error (Except.error.inj h))
  | ok a    => exact hf a cause h

omit [Platform] in
theorem requireAllowed_ok {decision : WriteGuardDecision} {u : Unit} (h : requireAllowed decision = .ok u) :
    decision.eligibility = .allowed := by
  by_contra hnot
  unfold requireAllowed at h
  rw [if_neg hnot] at h
  cases h

omit [Platform] in
theorem requireAllowed_certain (decision : WriteGuardDecision) : Certain (requireAllowed decision) := by
  intro cause h
  unfold requireAllowed at h
  split at h <;> cases h

theorem requireIdentity_certain (request : WriteCallRequest) (ctx : Context) : Certain (requireIdentity request ctx) := by
  intro cause h
  unfold requireIdentity at h
  repeat' split at h
  all_goals cases h

theorem requireTrust_certain (evidence : TrustPreflightEvidence) (ctx : Context) : Certain (requireTrust evidence ctx) := by
  intro cause h
  unfold requireTrust trustBlocked at h
  repeat' split at h
  all_goals cases h

omit [Platform] in
theorem writeUtc_certain (t : Calendar.DateTime) (name : String) : Certain (writeUtc t name) := by
  intro cause h
  unfold writeUtc at h
  repeat' split at h
  all_goals cases h

theorem fromRequest_certain (request : WriteCallRequest) (t : Calendar.DateTime) :
    Certain (WriteAttemptRecord.fromRequest request t) :=
  (writeUtc_certain t _).bind (fun _ _ h => by cases h)

omit [Platform] in
theorem receiptOf_certain {α : Type} (answer : EvidenceAnswer α) (m : String) : Certain (receiptOf answer (.evidence m)) := by
  intro cause h
  cases answer <;> cases h

omit [Platform] in
theorem receiptOf_ok {α : Type} {answer : EvidenceAnswer α} {invalid : WriteFault} {a : α}
    (h : receiptOf answer invalid = .ok a) : answer = .answer a := by
  cases answer <;> cases h
  rfl

theorem requireReceipt_certain (receipt : WriteRequestedReceipt) (record : WriteAttemptRecord) :
    Certain (requireReceipt receipt record) := by
  intro cause h
  unfold requireReceipt at h
  repeat' split at h
  all_goals cases h

omit [Platform] in
theorem artifactFault_certain {α : Type} (x : Except Exn α) : Certain (x.mapError artifactFault) := by
  intro cause h
  cases x with
  | ok a => cases h
  | error e =>
    have he : artifactFault e = .uncertain cause := Except.error.inj h
    unfold artifactFault at he
    split at he <;> cases he

theorem validateArtifactIdentity_certain {validateDocument : Value → Except Exn Unit}
    (artifact : VerifiedSkillArtifact validateDocument) : Certain (validateArtifactIdentity validateDocument artifact) := by
  refine (artifactFault_certain _).bind (fun canonical => (artifactFault_certain _).bind (fun semanticHash => ?_))
  intro cause h
  unfold trustBlocked at h
  repeat' split at h
  all_goals cases h

theorem validateTrustIdentity_certain {validateDocument : Value → Except Exn Unit}
    (artifact : VerifiedSkillArtifact validateDocument) (trust : PackageTrustEvidence) (profile : ExecutionTrustProfile)
    (checkedAt : UtcInstant) : Certain (validateTrustIdentity validateDocument artifact trust profile checkedAt) := by
  intro cause h
  unfold validateTrustIdentity trustBlocked at h
  split at h
  · cases h
  split at h
  · cases h
  · rename_i age hage
    refine Certain.bind (x := staleFrom trust.verifiedAt age) ?_ ?_ cause h
    · intro cause h
      unfold staleFrom at h
      dsimp only at h
      split at h <;> cases h
    · intro deadline cause h
      split at h <;> cases h

theorem requireTrust_ok {evidence : TrustPreflightEvidence} {ctx : Context} (h : requireTrust evidence ctx = .ok ()) :
    evidence.tenantId.text = ctx.tenantId ∧ evidence.skillSemanticHash = ctx.skill.semanticHash := by
  unfold requireTrust trustBlocked at h
  by_cases htenant : evidence.tenantId.text = ctx.tenantId
  · by_cases hsemantic : evidence.skillSemanticHash = ctx.skill.semanticHash
    · exact ⟨htenant, hsemantic⟩
    · simp [htenant, hsemantic] at h
  · simp [htenant] at h

theorem requireReceipt_ok {receipt : WriteRequestedReceipt} {record : WriteAttemptRecord}
    (h : requireReceipt receipt record = .ok ()) : receipt.recordHash = record.recordHash ∧ receipt.durable = true ∧
      record.requestedAt.stamp ≤ receipt.persistedAt.stamp := by
  unfold requireReceipt at h
  by_cases hhash : receipt.recordHash = record.recordHash
  · by_cases hdurable : receipt.durable = true
    · refine ⟨hhash, hdurable, ?_⟩
      by_contra hlater
      simp [hhash, hdurable, Nat.lt_of_not_le hlater] at h
    · simp [hhash, hdurable] at h
  · simp [hhash] at h

theorem requireIdentity_ok {request : WriteCallRequest} {ctx : Context} (h : requireIdentity request ctx = .ok ()) :
    request.executionId = ctx.request.executionId ∧ request.tenantId.text = ctx.tenantId ∧
      ctx.request.businessOperationId = some request.businessOperationId := by
  unfold requireIdentity at h
  by_cases hexecution : request.executionId = ctx.request.executionId
  · by_cases htenant : request.tenantId.text = ctx.tenantId
    · by_cases hoperation : some request.businessOperationId = ctx.request.businessOperationId
      · exact ⟨hexecution, htenant, hoperation.symm⟩
      · simp [hexecution, htenant, hoperation] at h
    · simp [hexecution, htenant] at h
  · simp [hexecution] at h

/-- The preflight knows nothing of a provider. -/
theorem preflightValidate_certain {validateDocument : Value → Except Exn Unit}
    (artifact : VerifiedSkillArtifact validateDocument) (profile : ExecutionTrustProfile) (now : Calendar.DateTime) :
    Certain (preflightValidate validateDocument artifact profile now) := by
  unfold preflightValidate
  refine Certain.bind ?_ (fun checkedAt => (validateArtifactIdentity_certain artifact).bind (fun _ => ?_))
  · intro cause h
    unfold preflightUtc at h
    repeat' split at h
    all_goals cases h
  · dsimp only
    split
    · intro cause h
      unfold trustBlocked at h
      repeat' split at h
      all_goals cases h
    · exact (validateTrustIdentity_certain artifact _ profile checkedAt).bind (fun _ _ h => by cases h)

/-- A run that ended before the provider was called: nothing of the context changed. -/
def Stopped {α : Type} (s : WriteState) (t : Stateful.Trace WriteState WriteFault α) : Prop :=
  ∃ w e more, t = ⟨w, ⟨s.ctx, s.log ++ more⟩, .error e⟩ ∧ (∀ ev ∈ more, ev.isInvocation = false) ∧
    ∀ cause, e ≠ .uncertain cause

omit [Platform] in
theorem except_cases {ε α : Type} (x : Except ε α) : (∃ e, x = .error e) ∨ ∃ a, x = .ok a := by
  cases x with
  | error e => exact .inl ⟨e, rfl⟩
  | ok a    => exact .inr ⟨a, rfl⟩

omit [Platform] in
theorem Certain.not_uncertain {α : Type} {x : Except WriteFault α} {e : WriteFault} (hx : Certain x) (h : x = .error e) :
    ∀ cause, e ≠ .uncertain cause := fun cause he => hx cause (by rw [h, he])

/-- A check that fails stops the run. -/
theorem stopped_check {α β : Type} {x : Except WriteFault α} {e : WriteFault} (hx : Certain x) (h : x = .error e)
    (f : α → WriteRun β) (s : WriteState) : Stopped s (Run.andThen (Run.ofExcept x) f s) := by
  refine ⟨[], e, [], ?_, by simp, hx.not_uncertain h⟩
  rw [h, List.append_nil]
  rfl

/-- A run that stops after a report has stopped. -/
theorem stopped_report {β : Type} {s : WriteState} {ev : WriteEvent} {f : Unit → WriteRun β} (hev : ev.isInvocation = false)
    (h : Stopped ⟨s.ctx, s.log ++ [ev]⟩ (f () ⟨s.ctx, s.log ++ [ev]⟩)) : Stopped s (Run.andThen (report ev) f s) := by
  obtain ⟨w, e, more, hm, hmore, he⟩ := h
  refine ⟨⟨s.ctx, s.log ++ [ev]⟩ :: w, e, ev :: more, ?_, List.forall_mem_cons.2 ⟨hev, hmore⟩, he⟩
  unfold Run.andThen report Run.write
  dsimp only
  rw [hm, List.append_assoc]
  rfl

/-- A check that passes goes on. -/
theorem check_andThen {α β : Type} {x : Except WriteFault α} {a : α} (h : x = .ok a) (f : α → WriteRun β) (s : WriteState) :
    Run.andThen (Run.ofExcept x) f s = f a s := by
  rw [h]
  rfl

theorem report_andThen {β : Type} (ev : WriteEvent) (f : Unit → WriteRun β) (s : WriteState) :
    Run.andThen (report ev) f s = ⟨⟨s.ctx, s.log ++ [ev]⟩ :: (f () ⟨s.ctx, s.log ++ [ev]⟩).written,
      (f () ⟨s.ctx, s.log ++ [ev]⟩).final, (f () ⟨s.ctx, s.log ++ [ev]⟩).outcome⟩ := rfl

theorem updateCtx_andThen {β : Type} (g : Context → Context) (f : Unit → WriteRun β) (s : WriteState) :
    Run.andThen (updateCtx g) f s = ⟨⟨g s.ctx, s.log⟩ :: (f () ⟨g s.ctx, s.log⟩).written,
      (f () ⟨g s.ctx, s.log⟩).final, (f () ⟨g s.ctx, s.log⟩).outcome⟩ := rfl

theorem providerEnd_final (answer : ProviderAnswer) (s : WriteState) : (providerEnd answer s).final = s := by
  cases answer <;> rfl

theorem providerEnd_outcome (answer : ProviderAnswer) (s t : WriteState) :
    (providerEnd answer s).outcome = (providerEnd answer t).outcome := by
  cases answer <;> rfl

theorem invoke_final (ports : WritePorts) (request : WriteCallRequest) (s : WriteState) :
    (invoke ports request s).final = ⟨s.ctx, s.log ++ [.invoked request]⟩ := by
  unfold invoke
  simp only [Run.bind_eq, Run.look_andThen, report_andThen, providerEnd_final]

theorem invoke_outcome (ports : WritePorts) (request : WriteCallRequest) (s : WriteState) :
    (invoke ports request s).outcome = (providerEnd (ports.execute s.log request) s).outcome := by
  unfold invoke
  simp only [Run.bind_eq, Run.look_andThen, report_andThen]
  exact providerEnd_outcome _ _ _

/-- **What let the provider be called**: an allowed decision, a request of this context and a durable record of it. -/
structure Admitted (ports : WritePorts) (request : WriteCallRequest) (decision : WriteGuardDecision)
    (requestedAt : Calendar.DateTime) (s : WriteState) (accepted : List WriteEvent) (record : WriteAttemptRecord)
    (receipt : WriteRequestedReceipt) : Prop where
  decided  : decision.eligibility = .allowed
  identity : requireIdentity request s.ctx = .ok ()
  recorded : WriteAttemptRecord.fromRequest request requestedAt = .ok record
  answered : ports.recordRequested (s.log ++ accepted) record = .answer receipt
  faithful : requireReceipt receipt record = .ok ()

/-- The state a called provider leaves. -/
def calledState (request : WriteCallRequest) (s : WriteState) (accepted : List WriteEvent) (record : WriteAttemptRecord) :
    WriteState :=
  ⟨s.ctx.writeRequested, s.log ++ (accepted ++ [.recordRequested record, .invoked request])⟩

/-- What the provider answers when it is called after `accepted` and the record. -/
def WritePorts.answerTo (ports : WritePorts) (request : WriteCallRequest) (s : WriteState) (accepted : List WriteEvent)
    (record : WriteAttemptRecord) : ProviderAnswer :=
  ports.execute (s.log ++ (accepted ++ [.recordRequested record])) request

/-- A run that called the provider, as its last act. -/
structure Called (ports : WritePorts) (request : WriteCallRequest) (s : WriteState) (accepted : List WriteEvent)
    (record : WriteAttemptRecord) (t : Stateful.Trace WriteState WriteFault (Option WriteExecutionOutcome)) : Prop where
  final   : t.final = calledState request s accepted record
  outcome : t.outcome = (providerEnd (ports.answerTo request s accepted record) s).outcome

/-- **A coordinator calls the provider once all its checks passed.** -/
theorem Admitted.called {ports : WritePorts} {request : WriteCallRequest} {decision : WriteGuardDecision}
    {requestedAt : Calendar.DateTime} {s : WriteState} {record : WriteAttemptRecord} {receipt : WriteRequestedReceipt}
    (h : Admitted ports request decision requestedAt s [.allowed decision] record receipt) :
    Called ports request s [.allowed decision] record (executeWrite ports request decision requestedAt s) := by
  have hdecided : requireAllowed decision = .ok () := if_pos h.decided
  have hreceipt : receiptOf (ports.recordRequested (s.log ++ [.allowed decision]) record)
      (.evidence "WRITE_REQUESTED persistence returned an invalid receipt") = .ok receipt := by
    rw [h.answered]
    rfl
  unfold executeWrite
  simp only [Run.bind_eq]
  rw [check_andThen hdecided, report_andThen, Run.look_andThen, check_andThen h.identity, check_andThen h.recorded,
    Run.look_andThen, report_andThen, check_andThen hreceipt, check_andThen h.faithful, updateCtx_andThen]
  constructor
  · dsimp only
    rw [invoke_final]
    simp only [List.append_assoc]
    rfl
  · dsimp only
    rw [invoke_outcome]
    simp only [List.append_assoc]
    exact providerEnd_outcome _ _ _

/-- **A coordinator stops before the provider, or calls it once after all its checks.** -/
theorem executeWrite_cases (ports : WritePorts) (request : WriteCallRequest) (decision : WriteGuardDecision)
    (requestedAt : Calendar.DateTime) (s : WriteState) :
    Stopped s (executeWrite ports request decision requestedAt s) ∨
    ∃ record receipt, Admitted ports request decision requestedAt s [.allowed decision] record receipt ∧
      Called ports request s [.allowed decision] record (executeWrite ports request decision requestedAt s) := by
  unfold executeWrite
  simp only [Run.bind_eq]
  rcases except_cases (requireAllowed decision) with ⟨e, hdecided⟩ | ⟨u, hdecided⟩
  · exact .inl (stopped_check (requireAllowed_certain decision) hdecided _ s)
  rw [check_andThen hdecided]
  rcases except_cases (requireIdentity request s.ctx) with ⟨e, hidentity⟩ | ⟨u', hidentity⟩
  · refine .inl (stopped_report rfl ?_)
    rw [Run.look_andThen]
    exact stopped_check (requireIdentity_certain request s.ctx) hidentity _ _
  rcases except_cases (WriteAttemptRecord.fromRequest request requestedAt) with ⟨e, hrecord⟩ | ⟨record, hrecord⟩
  · refine .inl (stopped_report rfl ?_)
    rw [Run.look_andThen, check_andThen hidentity]
    exact stopped_check (fromRequest_certain request requestedAt) hrecord _ _
  rcases except_cases (receiptOf (ports.recordRequested (s.log ++ [.allowed decision]) record)
    (.evidence "WRITE_REQUESTED persistence returned an invalid receipt")) with ⟨e, hreceipt⟩ | ⟨receipt, hreceipt⟩
  · refine .inl (stopped_report rfl ?_)
    rw [Run.look_andThen, check_andThen hidentity, check_andThen hrecord, Run.look_andThen]
    refine stopped_report rfl ?_
    exact stopped_check (receiptOf_certain _ _) hreceipt _ _
  rcases except_cases (requireReceipt receipt record) with ⟨e, hfaithful⟩ | ⟨u'', hfaithful⟩
  · refine .inl (stopped_report rfl ?_)
    rw [Run.look_andThen, check_andThen hidentity, check_andThen hrecord, Run.look_andThen]
    refine stopped_report rfl ?_
    rw [check_andThen hreceipt]
    exact stopped_check (requireReceipt_certain receipt record) hfaithful _ _
  have hadmitted : Admitted ports request decision requestedAt s [.allowed decision] record receipt :=
    ⟨requireAllowed_ok hdecided, hidentity, hrecord, receiptOf_ok hreceipt, hfaithful⟩
  have hcalled := hadmitted.called
  unfold executeWrite at hcalled
  simp only [Run.bind_eq] at hcalled
  rw [check_andThen hdecided] at hcalled
  exact .inr ⟨record, receipt, hadmitted, hcalled⟩

/-- **The trusted coordinator stops before the provider, or calls it once, the preflight's checks first.** -/
theorem executeTrusted_cases {validateDocument : Value → Except Exn Unit} (trust : TrustCheck validateDocument)
    (ports : WritePorts) (request : WriteCallRequest) (decision : WriteGuardDecision) (requestedAt : Calendar.DateTime)
    (s : WriteState) :
    Stopped s (executeTrusted trust ports request decision requestedAt s) ∨
    ∃ evidence record receipt,
      preflightValidate validateDocument trust.artifact trust.profile trust.checkedAt = .ok evidence ∧
      requireTrust evidence s.ctx = .ok () ∧
      Admitted ports request decision requestedAt s [.trusted evidence, .allowed decision] record receipt ∧
      Called ports request s [.trusted evidence, .allowed decision] record
        (executeTrusted trust ports request decision requestedAt s) := by
  unfold executeTrusted
  simp only [Run.bind_eq]
  rcases except_cases (preflightValidate validateDocument trust.artifact trust.profile trust.checkedAt) with
    ⟨e, hpreflight⟩ | ⟨evidence, hpreflight⟩
  · exact .inl (stopped_check (preflightValidate_certain _ _ _) hpreflight _ s)
  rw [check_andThen hpreflight, Run.look_andThen]
  rcases except_cases (requireTrust evidence s.ctx) with ⟨e, htrust⟩ | ⟨u, htrust⟩
  · exact .inl (stopped_check (requireTrust_certain evidence s.ctx) htrust _ s)
  rw [check_andThen htrust]
  rcases executeWrite_cases ports request decision requestedAt ⟨s.ctx, s.log ++ [.trusted evidence]⟩ with
    hstop | ⟨record, receipt, hadmitted, hcalled⟩
  · exact .inl (stopped_report rfl hstop)
  have hlog : s.log ++ [.trusted evidence] ++ [.allowed decision] = s.log ++ [.trusted evidence, .allowed decision] :=
    List.append_assoc _ _ _
  refine .inr ⟨evidence, record, receipt, hpreflight, htrust,
    ⟨hadmitted.decided, hadmitted.identity, hadmitted.recorded, hlog ▸ hadmitted.answered, hadmitted.faithful⟩, ?_⟩
  rw [report_andThen]
  constructor
  · dsimp only
    rw [hcalled.final]
    simp only [calledState, List.append_assoc]
    rfl
  · dsimp only
    rw [hcalled.outcome]
    simp only [WritePorts.answerTo, List.append_assoc]
    exact providerEnd_outcome _ _ _

/-! ## Executors -/

/-- The outcome an executor makes of the provider's answer; an interpreter exit has none. -/
def ProviderAnswer.settled (request : WriteCallRequest) : ProviderAnswer → Option WriteExecutionOutcome
  | .outcome o      => some o
  | .other          => some (uncertainOutcome request malformedReason)
  | .cancelled      => some (uncertainOutcome request (UncertainCause.reasonCode .cancelled))
  | .timeout        => some (uncertainOutcome request (UncertainCause.reasonCode .timeout))
  | .connectionLost => some (uncertainOutcome request (UncertainCause.reasonCode .connectionLost))
  | .fails          => some (uncertainOutcome request (UncertainCause.reasonCode .exception))
  | .exit           => none

section Executors

variable {ports : WritePorts} {request : WriteCallRequest} {requestedAt recordedAt : Calendar.DateTime}
  {invocation : WriteRun (Option WriteExecutionOutcome)} {s : WriteState}

/-- An executor around a coordinator that stopped has stopped. -/
theorem executeCommitAware_stopped (h : Stopped s (invocation s)) :
    Stopped s (executeCommitAware invocation ports request requestedAt recordedAt s) := by
  unfold executeCommitAware
  simp only [Run.bind_eq]
  rcases except_cases (WriteAttemptRecord.fromRequest request requestedAt) with ⟨e, hrecord⟩ | ⟨record, hrecord⟩
  · exact stopped_check (fromRequest_certain request requestedAt) hrecord _ s
  rw [check_andThen hrecord]
  obtain ⟨w, e, more, hinvocation, hmore, he⟩ := h
  have hraw : Run.andThen invocation (fun raw => Run.done (raw.getD (uncertainOutcome request malformedReason))) s =
      ⟨w, ⟨s.ctx, s.log ++ more⟩, .error e⟩ := Run.andThen_error hinvocation
  refine ⟨w, e, more, Run.andThen_error ?_, hmore, he⟩
  unfold invocationOutcome
  refine (Run.handle_error hraw).trans ?_
  -- only an uncertain end is handled
  cases e with
  | uncertain cause => exact absurd rfl (he cause)
  | _               => exact congrArg (fun l => Stateful.Trace.mk l _ _) (List.append_nil w)

variable {accepted : List WriteEvent} {record : WriteAttemptRecord}

/-- The outcome of a called provider, where there is one. -/
theorem invocationOutcome_called (h : Called ports request s accepted record (invocation s)) :
    (invocationOutcome request invocation s).final = calledState request s accepted record ∧
    (invocationOutcome request invocation s).outcome =
      match (ports.answerTo request s accepted record).settled request with
      | some o => .ok o
      | none   => .error (.raised .exit) := by
  obtain ⟨hfinal, houtcome⟩ := h
  rcases hs : invocation s with ⟨w, s', o⟩
  rw [hs] at hfinal houtcome
  dsimp only at hfinal houtcome
  subst hfinal houtcome
  unfold invocationOutcome
  simp only [Run.bind_eq, Run.pure_eq]
  unfold Run.handle Run.andThen
  rw [hs]
  cases ports.answerTo request s accepted record <;> exact ⟨rfl, rfl⟩

/-- What `finalize` leaves alone: it invokes nothing and writes the journal only. -/
def Finalized (s t : WriteState) : Prop :=
  ∃ more, t.log = s.log ++ more ∧ (∀ ev ∈ more, ev.isInvocation = false) ∧ t.ctx.checkpoint = s.ctx.checkpoint ∧
    s.ctx.writes <+: t.ctx.writes

theorem Finalized.refl (s : WriteState) : Finalized s s :=
  ⟨[], (List.append_nil _).symm, by simp, rfl, List.prefix_rfl⟩

theorem Finalized.trans {s t u : WriteState} (h : Finalized s t) (h' : Finalized t u) : Finalized s u := by
  obtain ⟨more, hlog, hmore, hcheckpoint, hwrites⟩ := h
  obtain ⟨more', hlog', hmore', hcheckpoint', hwrites'⟩ := h'
  refine ⟨more ++ more', by rw [hlog', hlog, List.append_assoc], fun ev hev => ?_, hcheckpoint'.trans hcheckpoint,
    hwrites.trans hwrites'⟩
  exact (List.mem_append.1 hev).elim (hmore ev) (hmore' ev)

theorem finalizeWrite_finalized (ports : WritePorts) (request : WriteCallRequest) (h : Digest)
    (outcome : WriteExecutionOutcome) (recordedAt : Calendar.DateTime) :
    Run.Always Finalized (finalizeWrite ports request h outcome recordedAt) := by
  have next {α β : Type} {m : WriteRun α} {f : α → WriteRun β} (hm : Run.Always Finalized m)
      (hf : ∀ a, Run.Always Finalized (f a)) : Run.Always Finalized (m >>= f) :=
    hm.andThen hf (fun _ _ h => h) (fun _ _ _ => Finalized.trans)
  have check {α : Type} (x : Except WriteFault α) : Run.Always Finalized (Run.ofExcept x : WriteRun α) :=
    Run.always_ofExcept Finalized.refl x
  refine next (Run.always_look Finalized.refl _) (fun ctx => next (check _) (fun _ => next (check _) (fun at' => ?_)))
  refine next (Run.always_look Finalized.refl _) (fun log => next (Run.always_write (fun s => ?_)) (fun _ => ?_))
  · exact ⟨[.recordOutcome _], rfl, by simp [WriteEvent.isInvocation], rfl, List.prefix_rfl⟩
  refine next (check _) (fun receipt => next (check _) (fun _ => next (Run.always_write (fun s => ?_)) (fun _ => ?_)))
  · exact ⟨[], (List.append_nil _).symm, by simp, rfl, List.prefix_append _ _⟩
  · exact Run.always_done Finalized.refl _

/-- **An executor calls the provider where its coordinator does**, and then settles what it answered. -/
theorem executeCommitAware_called (h : Called ports request s accepted record (invocation s))
    (hrecord : WriteAttemptRecord.fromRequest request requestedAt = .ok record) :
    match (ports.answerTo request s accepted record).settled request with
    | some o =>
      (executeCommitAware invocation ports request requestedAt recordedAt s).final =
        (finalizeWrite ports request record.recordHash o recordedAt (calledState request s accepted record)).final ∧
      (executeCommitAware invocation ports request requestedAt recordedAt s).outcome =
        (finalizeWrite ports request record.recordHash o recordedAt (calledState request s accepted record)).outcome
    | none =>
      (executeCommitAware invocation ports request requestedAt recordedAt s).final = calledState request s accepted record ∧
      (executeCommitAware invocation ports request requestedAt recordedAt s).outcome = .error (.raised .exit) := by
  obtain ⟨hfinal, houtcome⟩ := invocationOutcome_called h
  unfold executeCommitAware
  simp only [Run.bind_eq]
  rw [check_andThen hrecord]
  rcases hs : invocationOutcome request invocation s with ⟨w, s', o⟩
  rw [hs] at hfinal houtcome
  dsimp only at hfinal houtcome
  subst hfinal
  cases hsettled : (ports.answerTo request s accepted record).settled request with
  | none =>
    rw [hsettled] at houtcome
    dsimp only at houtcome
    subst houtcome
    rw [Run.andThen_error hs]
    exact ⟨rfl, rfl⟩
  | some outcome =>
    rw [hsettled] at houtcome
    dsimp only at houtcome
    subst houtcome
    rw [Run.andThen_ok hs]
    exact ⟨rfl, rfl⟩

/-- An executor that calls the provider does it once, and leaves the flag of the durable request set. -/
theorem executeCommitAware_final (h : Called ports request s accepted record (invocation s))
    (hrecord : WriteAttemptRecord.fromRequest request requestedAt = .ok record) :
    Finalized (calledState request s accepted record)
      (executeCommitAware invocation ports request requestedAt recordedAt s).final := by
  have hcalled := @executeCommitAware_called _ ports request requestedAt recordedAt invocation s accepted record h hrecord
  split at hcalled
  · rw [hcalled.1]
    exact (finalizeWrite_finalized ports request record.recordHash _ recordedAt _).2
  · rw [hcalled.1]
    exact Finalized.refl _

end Executors

end Nsl
