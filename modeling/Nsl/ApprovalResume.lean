import Nsl.ApprovalSuspend
import Nsl.Idempotency
import Nsl.Restore
/-!
# Approval resume — going on with what a person approved

`ApprovalResumeCoordinator.resume` and `ApprovalEvidenceValidator.validate` (`approval.py`). The state of a run is the log
of its port calls, each with its arguments; what a port answers may depend on everything before it. A claim that was given
ends in one call of `release` or of `consume`, unless the run is left by what `except Exception` does not catch.
-/
namespace Nsl

open Calendar (DateTime)
open Stateful (Run)

inductive ApprovalDecision | approved | rejected
  deriving DecidableEq, Repr

inductive ApprovalEvidenceValidation
  | valid | invalid | expired | intentMismatch | payloadMismatch | businessOperationMismatch | approvalRequestMismatch
  deriving DecidableEq, Repr

section Approval

variable [Platform]

/-! ## Evidence -/

/-- `_sha256` of `approval.py` -/
def requiredDigest (text name : String) : Except Exn Digest := do
  let t ← requiredIdentity text name
  if h : isDigest t.text = true then .ok ⟨t.text, t.ok, h⟩
  else .error (.value (name ++ " must be a lowercase SHA-256 value"))

theorem requiredDigest_text (d : Digest) (name : String) : requiredDigest d.text name = .ok d := by
  unfold requiredDigest
  rw [Stateful.bind_ok (requiredIdentity_text ⟨d.text, d.ok.1⟩ name)]
  exact dif_pos d.ok.2

/-- `_utc_instant` of `approval.py` -/
def approvalUtc (t : DateTime) (name : String) : Except Exn UtcInstant := writeGuardUtc t name

structure ApprovalEvidence where
  tenantId            : RequiredText
  executionId         : RequiredText
  businessOperationId : RequiredText
  approvalId          : RequiredText
  approvalRequestId   : RequiredText
  skillSemanticHash   : Digest
  decision            : ApprovalDecision
  approverId          : RequiredText
  decidedAt           : UtcInstant
  expiresAt           : Option UtcInstant
  payloadHash         : Digest
  writeIntentHash     : RequiredText
  evidenceIntegrity   : RequiredText
  expiresLater        : ∀ expiry, expiresAt = some expiry → decidedAt.stamp ≤ expiry.stamp

structure ResumeToken where
  executionId         : RequiredText
  businessOperationId : RequiredText
  checkpointVersion   : Nat
  evidence            : ApprovalEvidence
  versionPositive     : 0 < checkpointVersion

structure ApprovalResumeBindings where
  tenantId            : RequiredText
  executionId         : RequiredText
  businessOperationId : RequiredText
  approvalId          : RequiredText
  approvalRequestId   : RequiredText
  skillSemanticHash   : Digest
  payloadHash         : Digest
  writeIntentHash     : RequiredText

structure ApprovalValidationResult where
  validation     : ApprovalEvidenceValidation
  approvalStatus : ApprovalStatus
  reasonCode     : Option ReasonCode

namespace ApprovalValidationResult

def approvalGatePassed (r : ApprovalValidationResult) : Bool := r.validation = .valid && r.approvalStatus = .approved

/-- `_blocked` -/
def blocked (validation : ApprovalEvidenceValidation) (reason : ReasonCode) : ApprovalValidationResult :=
  ⟨validation, .pending, some reason⟩

end ApprovalValidationResult

/-! ## The ports -/

/-- The arguments of `claim`, `release` and `consume`. -/
structure CheckpointClaim where
  executionId       : RequiredText
  checkpointVersion : Nat
  claimId           : RequiredText

inductive ResumeEvent
  | claim (c : CheckpointClaim)
  | verify (evidence : ApprovalEvidence)
  | now
  | release (c : CheckpointClaim)
  | consume (c : CheckpointClaim)

/-- Whether an event ends a claim. -/
def ResumeEvent.endsClaim : ResumeEvent → Bool
  | .release _ | .consume _ => true
  | _                       => false

/-- What the ports answer, given all calls up to the one they answer. -/
structure ResumePorts where
  claim       : List ResumeEvent → EvidenceAnswer ExecutionCheckpoint
  verify      : List ResumeEvent → EvidenceAnswer Bool
  now         : List ResumeEvent → EvidenceAnswer DateTime
  release     : List ResumeEvent → Except Exn Unit
  consume     : List ResumeEvent → Except Exn Unit
  /-- the clock of the runtime, which `restore` reads -/
  monotonicNs : List ResumeEvent → Except Exn Int

abbrev ResumeRun (α : Type) := Run (List ResumeEvent) Exn α

/-- One call of a port. -/
def askPort {α : Type} (event : ResumeEvent) (answer : List ResumeEvent → Except Exn α) : ResumeRun α := do
  Run.write (· ++ [event])
  let log ← Run.look id
  Run.ofExcept (answer log)

/-- What a call returned; an object of another class is none. -/
def EvidenceAnswer.returned {α : Type} : EvidenceAnswer α → Except Exn (Option α)
  | .answer a => .ok (some a)
  | .other    => .ok none
  | .raises e => .error e

/-- What a call returned, where an object of another class is refused. -/
def EvidenceAnswer.received {α : Type} (answer : EvidenceAnswer α) (invalid : Exn) : Except Exn α :=
  match answer with
  | .answer a => .ok a
  | .other    => .error invalid
  | .raises e => .error e

/-! ## The evidence against the checkpoint -/

omit [Platform] in
theorem evidenceInvalid_there : Text.isBlank "APPROVAL_EVIDENCE_INVALID" = false := by decide

omit [Platform] in
theorem approvalRejected_there : Text.isBlank "APPROVAL_REJECTED" = false := by decide

/-- `mismatch_checks`, and the bindings compared after them. -/
def bindingMismatches (evidence : ApprovalEvidence) (bindings : ApprovalResumeBindings) :
    List (Bool × ApprovalEvidenceValidation × ReasonCode) :=
  [(evidence.businessOperationId ≠ bindings.businessOperationId, .businessOperationMismatch,
     .of "APPROVAL_BUSINESS_OPERATION_MISMATCH"),
   (evidence.approvalRequestId ≠ bindings.approvalRequestId, .approvalRequestMismatch, .of "APPROVAL_REQUEST_MISMATCH"),
   (evidence.writeIntentHash ≠ bindings.writeIntentHash, .intentMismatch, .of "APPROVAL_INTENT_MISMATCH"),
   (evidence.payloadHash ≠ bindings.payloadHash, .payloadMismatch, .of "APPROVAL_PAYLOAD_MISMATCH"),
   (evidence.tenantId ≠ bindings.tenantId || evidence.executionId ≠ bindings.executionId ||
      evidence.approvalId ≠ bindings.approvalId || evidence.skillSemanticHash ≠ bindings.skillSemanticHash, .invalid,
     .of "APPROVAL_EVIDENCE_BINDING_MISMATCH")]

/-- What the time and the decision make of evidence that is bound. -/
def decideEvidence (evidence : ApprovalEvidence) (now : UtcInstant) : ApprovalValidationResult :=
  if evidence.expiresAt.any (fun expiry => expiry.stamp ≤ now.stamp) then ⟨.expired, .expired, some (.of "APPROVAL_EXPIRED")⟩
  else if evidence.decision = .rejected then ⟨.valid, .rejected, some (.of "APPROVAL_REJECTED" approvalRejected_there)⟩
  else ⟨.valid, .approved, none⟩

/-- `ApprovalEvidenceValidator.validate` -/
def validateEvidence (ports : ResumePorts) (evidence : ApprovalEvidence) (bindings : ApprovalResumeBindings) :
    ResumeRun ApprovalValidationResult := do
  let verified ← askPort (.verify evidence) (fun log =>
    (ports.verify log).received (.type "ApprovalEvidenceVerifier.verify must return bool"))
  if verified = false then Run.done (.blocked .invalid (.of "APPROVAL_EVIDENCE_INVALID" evidenceInvalid_there))
  else
    match (bindingMismatches evidence bindings).find? (·.1) with
    | some (_, validation, reason) => Run.done (.blocked validation reason)
    | none                         => do
      let now ← askPort .now (fun log => do
        let now ← (ports.now log).received (.type "ApprovalClock.now must be a datetime")
        approvalUtc now "ApprovalClock.now")
      Run.done (decideEvidence evidence now)

/-! ## Resuming -/

/-- The arguments of `resume`. -/
structure ResumeCall where
  token                  : ResumeToken
  skill                  : SkillObject
  request                : ExecutionRequest
  approvalId             : String
  writeNodeId            : String
  currentWriteIntentHash : String
  currentPayloadHash     : String
  claimId                : String

/-- The texts of a call, once they are checked. -/
structure ResumeTexts where
  approvalId             : RequiredText
  writeNodeId            : RequiredText
  currentWriteIntentHash : RequiredText
  currentPayloadHash     : Digest
  claimId                : RequiredText

/-- `_validate_token_request` -/
def validateTokenRequest (token : ResumeToken) (request : ExecutionRequest) : Except Exn Unit :=
  if token.executionId ≠ request.executionId then .error (.value "ResumeToken.execution_id binding mismatch")
  else if some token.businessOperationId ≠ request.businessOperationId then
    .error (.value "ResumeToken.business_operation_id binding mismatch")
  else .ok ()

/-- `resume` up to its claim. -/
def ResumeCall.texts (call : ResumeCall) : Except Exn ResumeTexts := do
  let approvalId ← requiredIdentity call.approvalId "approval_id"
  let writeNodeId ← requiredIdentity call.writeNodeId "write_node_id"
  let currentWriteIntentHash ← requiredIdentity call.currentWriteIntentHash "current_write_intent_hash"
  let currentPayloadHash ← requiredDigest call.currentPayloadHash "current_payload_hash"
  let claimId ← requiredIdentity call.claimId "claim_id"
  validateTokenRequest call.token call.request
  return ⟨approvalId, writeNodeId, currentWriteIntentHash, currentPayloadHash, claimId⟩

def ResumeCall.claimed (call : ResumeCall) (claimId : RequiredText) : CheckpointClaim :=
  ⟨call.token.executionId, call.token.checkpointVersion, claimId⟩

/-- A binding the checkpoint has to have. -/
def boundTo (bindings : Dict String) (node name : String) : Except Exn String :=
  match bindings.get? node with
  | some text => .ok text
  | none      => .error (.value ("checkpoint " ++ name ++ " binding is missing"))

/-- `ApprovalResumeBindings(...)`; a context without a business operation has no text there. -/
def ApprovalResumeBindings.make (context : Context) (approvalId requestId intentHash payloadHash : String) :
    Except Exn ApprovalResumeBindings := do
  let named := fun name => "ApprovalResumeBindings." ++ name
  let tenantId ← requiredIdentity context.tenantId (named "tenant_id")
  let executionId ← requiredIdentity context.request.executionId.text (named "execution_id")
  let businessOperationId ← requiredIdentity ((context.request.businessOperationId.map (·.text)).getD "")
    (named "business_operation_id")
  let approvalId ← requiredIdentity approvalId (named "approval_id")
  let requestId ← requiredIdentity requestId (named "approval_request_id")
  let intentHash ← requiredIdentity intentHash (named "write_intent_hash")
  let semanticHash ← requiredDigest context.skill.semanticHash (named "skill_semantic_hash")
  let payloadHash ← requiredDigest payloadHash (named "payload_hash")
  return ⟨tenantId, executionId, businessOperationId, approvalId, requestId, semanticHash, payloadHash, intentHash⟩

/-- `_bindings` -/
def resumeBindings (context : Context) (approvalId writeNodeId : String) : Except Exn ApprovalResumeBindings := do
  if context.approvals.get? approvalId ≠ some .pending then .error (.value "checkpoint approval is not pending")
  else do
    let requestId ← boundTo context.checkpoint.approvalRequestIdsByWriteNode writeNodeId "approval request"
    let intentHash ← boundTo context.checkpoint.writeIntentHashesByWriteNode writeNodeId "write intent"
    let payloadHash ← boundTo context.checkpoint.payloadHashesByWriteNode writeNodeId "payload"
    ApprovalResumeBindings.make context approvalId requestId intentHash payloadHash

/-- `_validate_current_identity` -/
def validateCurrentIdentity (bindings : ApprovalResumeBindings) (texts : ResumeTexts) : ApprovalValidationResult :=
  if texts.currentWriteIntentHash ≠ bindings.writeIntentHash then .blocked .intentMismatch (.of "APPROVAL_INTENT_MISMATCH")
  else if texts.currentPayloadHash ≠ bindings.payloadHash then .blocked .payloadMismatch (.of "APPROVAL_PAYLOAD_MISMATCH")
  else ⟨.valid, .approved, none⟩

/-- A claim that was answered: the checkpoint, its context and the judgement of the evidence. -/
structure Judged where
  checkpoint : ExecutionCheckpoint
  context    : Context
  validation : ApprovalValidationResult

variable (reader : DocumentReader) (coordinator : CheckpointCoordinator) (ports : ResumePorts)

/-- The `try` of `resume`. -/
def ResumeCall.judge (call : ResumeCall) (texts : ResumeTexts) (answered : Option ExecutionCheckpoint) : ResumeRun Judged := do
  let checkpoint ← Run.ofExcept (match answered with
    | some checkpoint => .ok checkpoint
    | none            => .error (.attribute "object has no attribute 'verify'"))
  let log ← Run.look id
  let context ← Run.ofExcept (coordinator.restore reader checkpoint call.skill call.request (ports.monotonicNs log))
  let bindings ← Run.ofExcept (resumeBindings context texts.approvalId.text texts.writeNodeId.text)
  let validation ← validateEvidence ports call.token.evidence bindings
  Run.done ⟨checkpoint, context,
    if validation.approvalGatePassed then validateCurrentIdentity bindings texts else validation⟩

structure ApprovalResumeOutcome where
  context       : Context
  checkpoint    : ExecutionCheckpoint
  claimId       : RequiredText
  validation    : ApprovalValidationResult
  claimConsumed : Bool

/-- Whether a judgement uses up its claim. -/
def ApprovalEvidenceValidation.consumes : ApprovalEvidenceValidation → Bool
  | .valid | .expired => true
  | _                 => false

/-- The `except` of `resume`. -/
def releaseAfter (claim : CheckpointClaim) (e : Exn) : ResumeRun Judged :=
  if e.isException then do
    askPort (.release claim) ports.release
    Run.fail e
  else Run.fail e

/-- `resume` from its judgement on. -/
def ResumeCall.finish (call : ResumeCall) (texts : ResumeTexts) (judged : Judged) : ResumeRun ApprovalResumeOutcome :=
  let claim := call.claimed texts.claimId
  if judged.validation.validation.consumes then do
    let context := { judged.context with
      approvals := judged.context.approvals.set texts.approvalId.text judged.validation.approvalStatus }
    askPort (.consume claim) ports.consume
    Run.done ⟨context, judged.checkpoint, texts.claimId, judged.validation, true⟩
  else do
    askPort (.release claim) ports.release
    Run.done ⟨judged.context, judged.checkpoint, texts.claimId, judged.validation, false⟩

/-- `resume` from the answer of its claim on. -/
def ResumeCall.settle (call : ResumeCall) (texts : ResumeTexts) (answered : Option ExecutionCheckpoint) :
    ResumeRun ApprovalResumeOutcome := do
  let judged ← Run.handle (call.judge reader coordinator ports texts answered)
    (releaseAfter ports (call.claimed texts.claimId))
  call.finish ports texts judged

/-- `ApprovalResumeCoordinator.resume` -/
def ResumeCall.resume (call : ResumeCall) : ResumeRun ApprovalResumeOutcome := do
  let texts ← Run.ofExcept call.texts
  let answered ← askPort (.claim (call.claimed texts.claimId)) (fun log => (ports.claim log).returned)
  call.settle reader coordinator ports texts answered

/-! ## The end of a claim -/

variable {reader coordinator ports}

/-- The events of a log that end a claim. -/
def claimEnds (log : List ResumeEvent) : List ResumeEvent := log.filter (·.endsClaim)

theorem claimEnds_end (log : List ResumeEvent) {event : ResumeEvent} (h : event.endsClaim = true) :
    claimEnds (log ++ [event]) = claimEnds log ++ [event] := by
  unfold claimEnds
  rw [List.filter_append, List.filter_cons_of_pos h, List.filter_nil]

theorem claimEnds_other (log : List ResumeEvent) {event : ResumeEvent} (h : event.endsClaim = false) :
    claimEnds (log ++ [event]) = claimEnds log := by
  unfold claimEnds
  rw [List.filter_append, List.filter_cons_of_neg (by rw [h]; decide), List.filter_nil, List.append_nil]

theorem askPort_final {α : Type} (event : ResumeEvent) (answer : List ResumeEvent → Except Exn α) (log : List ResumeEvent) :
    (askPort event answer log).final = log ++ [event] := by
  show ((Run.ofExcept (answer (log ++ [event])) : ResumeRun α) (log ++ [event])).final = _
  rw [Run.ofExcept_apply]

theorem askPort_outcome {α : Type} (event : ResumeEvent) (answer : List ResumeEvent → Except Exn α) (log : List ResumeEvent) :
    (askPort event answer log).outcome = answer (log ++ [event]) := by
  show ((Run.ofExcept (answer (log ++ [event])) : ResumeRun α) (log ++ [event])).outcome = _
  rw [Run.ofExcept_apply]

/-- A run that ends no claim. -/
def EndsNone {α : Type} (m : ResumeRun α) : Prop := ∀ ends, Run.Preserves (fun log => claimEnds log = ends) m

theorem EndsNone.andThen {α β : Type} {m : ResumeRun α} {f : α → ResumeRun β} (hm : EndsNone m) (hf : ∀ a, EndsNone (f a)) :
    EndsNone (Run.andThen m f) := fun ends => (hm ends).andThen (fun a => hf a ends)

theorem endsNone_done {α : Type} (a : α) : EndsNone (Run.done a) := fun _ => Run.preserves_done a

theorem endsNone_ofExcept {α : Type} (x : Except Exn α) : EndsNone (Run.ofExcept x) := fun _ => Run.preserves_ofExcept x

theorem endsNone_look {α : Type} (f : List ResumeEvent → α) : EndsNone (Run.look f) := fun _ => Run.preserves_look f

theorem endsNone_askPort {α : Type} {event : ResumeEvent} (answer : List ResumeEvent → Except Exn α)
    (hevent : event.endsClaim = false) : EndsNone (askPort event answer) := by
  intro ends
  refine Run.Preserves.andThen (Run.preserves_write (fun log hlog => ?_)) (fun _ => (Run.preserves_look _).andThen
    (fun _ => Run.preserves_ofExcept _))
  rw [claimEnds_other log hevent]
  exact hlog

theorem EndsNone.final {α : Type} {m : ResumeRun α} (hm : EndsNone m) (log : List ResumeEvent) :
    claimEnds (m log).final = claimEnds log := (hm _ log).2 rfl

theorem validateEvidence_endsNone (ports : ResumePorts) (evidence : ApprovalEvidence) (bindings : ApprovalResumeBindings) :
    EndsNone (validateEvidence ports evidence bindings) := by
  refine (endsNone_askPort _ rfl).andThen (fun verified => ?_)
  split
  · exact endsNone_done _
  · split
    · exact endsNone_done _
    · exact (endsNone_askPort _ rfl).andThen (fun now => endsNone_done _)

/-- **Judging a claim ends none.** -/
theorem ResumeCall.judge_endsNone (reader : DocumentReader) (coordinator : CheckpointCoordinator) (ports : ResumePorts)
    (call : ResumeCall) (texts : ResumeTexts) (answered : Option ExecutionCheckpoint) :
    EndsNone (call.judge reader coordinator ports texts answered) := by
  refine (endsNone_ofExcept _).andThen (fun checkpoint => (endsNone_look _).andThen (fun log => ?_))
  refine (endsNone_ofExcept _).andThen (fun context => (endsNone_ofExcept _).andThen (fun bindings => ?_))
  exact (validateEvidence_endsNone _ _ _).andThen (fun validation => endsNone_done _)

/-- A call of a port and then nothing but its value. -/
theorem askPort_andThen_final {α β : Type} (event : ResumeEvent) (answer : List ResumeEvent → Except Exn α)
    {f : α → ResumeRun β} (hf : ∀ a log, (f a log).final = log) (log : List ResumeEvent) :
    (Run.andThen (askPort event answer) f log).final = log ++ [event] := by
  have hfinal := askPort_final event answer log
  rcases hask : askPort event answer log with ⟨w, after, e | a⟩
  · rw [Run.andThen_error hask]
    rwa [hask] at hfinal
  · rw [Run.andThen_ok hask, hf]
    rwa [hask] at hfinal

/-- A port that answers is followed by what comes after it. -/
theorem askPort_andThen_ok {α β : Type} {event : ResumeEvent} {answer : List ResumeEvent → Except Exn α} {log : List ResumeEvent}
    {a : α} (h : answer (log ++ [event]) = .ok a) (f : α → ResumeRun β) :
    (Run.andThen (askPort event answer) f log).final = (f a (log ++ [event])).final ∧
      (Run.andThen (askPort event answer) f log).outcome = (f a (log ++ [event])).outcome := by
  have hfinal := askPort_final event answer log
  have houtcome := (askPort_outcome event answer log).trans h
  rcases hask : askPort event answer log with ⟨w, after, o⟩
  rw [hask] at hfinal houtcome
  dsimp only at hfinal houtcome
  subst hfinal houtcome
  rw [Run.andThen_ok hask]
  exact ⟨rfl, rfl⟩

/-- How a claim ends whose judgement came out this way. -/
def claimEnd (claim : CheckpointClaim) : Except Exn Judged → List ResumeEvent
  | .error e   => if e.isException then [.release claim] else []
  | .ok judged => if judged.validation.validation.consumes then [.consume claim] else [.release claim]

theorem releaseAfter_error (ports : ResumePorts) (claim : CheckpointClaim) (e : Exn) (log : List ResumeEvent) :
    ∃ e', (releaseAfter ports claim e log).outcome = .error e' := by
  unfold releaseAfter
  split
  · rcases hask : askPort (.release claim) ports.release log with ⟨w, after, e' | u⟩
    · exact ⟨e', by rw [Run.bind_eq, Run.andThen_error hask]⟩
    · exact ⟨e, by rw [Run.bind_eq, Run.andThen_ok hask]; rfl⟩
  · exact ⟨e, rfl⟩

theorem releaseAfter_ends (claim : CheckpointClaim) (e : Exn) (log : List ResumeEvent) :
    claimEnds (releaseAfter ports claim e log).final = claimEnds log ++ claimEnd claim (.error e) := by
  unfold releaseAfter claimEnd
  dsimp only
  by_cases he : e.isException = true
  · rw [if_pos he, if_pos he, Run.bind_eq, askPort_andThen_final _ _ (fun _ _ => rfl) log, claimEnds_end log rfl]
  · rw [if_neg he, if_neg he, List.append_nil]
    rfl

theorem ResumeCall.finish_ends (call : ResumeCall) (texts : ResumeTexts) (judged : Judged) (log : List ResumeEvent) :
    claimEnds (call.finish ports texts judged log).final =
      claimEnds log ++ claimEnd (call.claimed texts.claimId) (.ok judged) := by
  unfold finish claimEnd
  dsimp only
  by_cases hconsumes : judged.validation.validation.consumes = true
  · rw [if_pos hconsumes, if_pos hconsumes, Run.bind_eq, askPort_andThen_final _ _ (fun _ _ => rfl) log, claimEnds_end log rfl]
  · rw [if_neg hconsumes, if_neg hconsumes, Run.bind_eq, askPort_andThen_final _ _ (fun _ _ => rfl) log,
      claimEnds_end log rfl]

/-- **One claim, one end.** -/
theorem ResumeCall.settle_ends (reader : DocumentReader) (coordinator : CheckpointCoordinator) (ports : ResumePorts)
    (call : ResumeCall) (texts : ResumeTexts) (answered : Option ExecutionCheckpoint)
    (log : List ResumeEvent) :
    claimEnds (call.settle reader coordinator ports texts answered log).final =
      claimEnds log ++ claimEnd (call.claimed texts.claimId) (call.judge reader coordinator ports texts answered log).outcome := by
  have hquiet := (call.judge_endsNone reader coordinator ports texts answered).final log
  unfold settle
  rw [Run.bind_eq]
  rcases hjudge : call.judge reader coordinator ports texts answered log with ⟨w, after, e | judged⟩ <;> rw [hjudge] at hquiet
  · have hhandle := Run.handle_error (h := releaseAfter ports (call.claimed texts.claimId)) hjudge
    obtain ⟨e', he'⟩ := releaseAfter_error ports (call.claimed texts.claimId) e after
    rw [he'] at hhandle
    rw [Run.andThen_error hhandle, releaseAfter_ends, hquiet]
  · have hhandle := Run.handle_ok (h := releaseAfter ports (call.claimed texts.claimId)) hjudge
    rw [Run.andThen_ok hhandle, finish_ends, hquiet]

/-! ## What an approval rests on -/

theorem askPort_ok {α : Type} {event : ResumeEvent} {answer : List ResumeEvent → Except Exn α} {log after : List ResumeEvent}
    {w : List (List ResumeEvent)} {a : α} (h : askPort event answer log = ⟨w, after, .ok a⟩) :
    answer (log ++ [event]) = .ok a ∧ after = log ++ [event] := by
  have hfinal := askPort_final event answer log
  have houtcome := askPort_outcome event answer log
  rw [h] at hfinal houtcome
  exact ⟨houtcome.symm, hfinal⟩

omit [Platform] in
theorem EvidenceAnswer.received_ok {α : Type} {answer : EvidenceAnswer α} {invalid : Exn} {a : α}
    (h : answer.received invalid = .ok a) : answer = .answer a := by
  cases answer <;> cases h
  rfl

omit [Platform] in
theorem EvidenceAnswer.returned_some {α : Type} {answer : EvidenceAnswer α} {a : α} (h : answer.returned = .ok (some a)) :
    answer = .answer a := by
  cases answer <;> cases h
  rfl

omit [Platform] in
theorem approvalUtc_ok {t : DateTime} {name : String} {u : UtcInstant} (h : approvalUtc t name = .ok u) : t = u.time := by
  unfold approvalUtc writeGuardUtc at h
  split at h
  · cases h
    rfl
  · split at h <;> cases h

theorem requiredIdentity_ok {text name : String} {t : RequiredText} (h : requiredIdentity text name = .ok t) :
    t.text = text := by
  unfold requiredIdentity at h
  split at h
  · cases h
    rfl
  · split at h <;> cases h

theorem requiredDigest_ok {text name : String} {d : Digest} (h : requiredDigest text name = .ok d) : d.text = text := by
  unfold requiredDigest at h
  obtain ⟨t, ht, h⟩ := Stateful.bind_eq_ok h
  split at h
  · cases h
    exact requiredIdentity_ok ht
  · cases h

/-- Evidence that an approval of these bindings can rest on, at a time. -/
structure EvidenceApproves (evidence : ApprovalEvidence) (bindings : ApprovalResumeBindings) (now : UtcInstant) : Prop where
  tenantId            : evidence.tenantId = bindings.tenantId
  executionId         : evidence.executionId = bindings.executionId
  businessOperationId : evidence.businessOperationId = bindings.businessOperationId
  approvalId          : evidence.approvalId = bindings.approvalId
  approvalRequestId   : evidence.approvalRequestId = bindings.approvalRequestId
  skillSemanticHash   : evidence.skillSemanticHash = bindings.skillSemanticHash
  payloadHash         : evidence.payloadHash = bindings.payloadHash
  writeIntentHash     : evidence.writeIntentHash = bindings.writeIntentHash
  decision            : evidence.decision = .approved
  unexpired           : ∀ expiry, evidence.expiresAt = some expiry → now.stamp < expiry.stamp

theorem decideEvidence_approved {evidence : ApprovalEvidence} {now : UtcInstant}
    (h : (decideEvidence evidence now).approvalStatus = .approved) :
    decideEvidence evidence now = ⟨.valid, .approved, none⟩ ∧ evidence.decision = .approved ∧
      ∀ expiry, evidence.expiresAt = some expiry → now.stamp < expiry.stamp := by
  unfold decideEvidence at h ⊢
  by_cases hexpired : evidence.expiresAt.any (fun expiry => expiry.stamp ≤ now.stamp) = true
  · rw [if_pos hexpired] at h
    cases h
  · rw [if_neg hexpired] at h ⊢
    by_cases hrejected : evidence.decision = .rejected
    · rw [if_pos hrejected] at h
      cases h
    · rw [if_neg hrejected]
      have hdecision : evidence.decision = .approved := by
        cases hd : evidence.decision with
        | approved => rfl
        | rejected => exact absurd hd hrejected
      refine ⟨rfl, hdecision, fun expiry hexpiry => ?_⟩
      by_contra hle
      rw [hexpiry, Option.any_some, decide_eq_true_eq] at hexpired
      exact hexpired (not_lt.1 hle)

theorem bindingMismatches_none {evidence : ApprovalEvidence} {bindings : ApprovalResumeBindings} {now : UtcInstant}
    (h : (bindingMismatches evidence bindings).find? (·.1) = none) (hdecision : evidence.decision = .approved)
    (hunexpired : ∀ expiry, evidence.expiresAt = some expiry → now.stamp < expiry.stamp) :
    EvidenceApproves evidence bindings now := by
  have hagree := List.find?_eq_none.1 h
  simp only [bindingMismatches, List.mem_cons, List.not_mem_nil, or_false, forall_eq_or_imp, forall_eq, Bool.or_eq_true,
    decide_eq_true_eq, not_or, not_not, ne_eq] at hagree
  obtain ⟨hoperation, hrequest, hintent, hpayload, ⟨⟨htenant, hexecution⟩, happroval⟩, hsemantic⟩ := hagree
  exact ⟨htenant, hexecution, hoperation, happroval, hrequest, hsemantic, hpayload, hintent, hdecision, hunexpired⟩

/-- **The validator approves**: the verifier accepted, every binding agrees, and the evidence is one of an approval that has
not expired. -/
theorem validateEvidence_approved {evidence : ApprovalEvidence} {bindings : ApprovalResumeBindings}
    {log after : List ResumeEvent} {w : List (List ResumeEvent)} {r : ApprovalValidationResult}
    (h : validateEvidence ports evidence bindings log = ⟨w, after, .ok r⟩) (hr : r.approvalStatus = .approved) :
    r = ⟨.valid, .approved, none⟩ ∧ ports.verify (log ++ [.verify evidence]) = .answer true ∧
      ∃ now : UtcInstant, ports.now (log ++ [.verify evidence] ++ [.now]) = .answer now.time ∧
        EvidenceApproves evidence bindings now := by
  unfold validateEvidence at h
  obtain ⟨w₁, s₁, verified, w₂, hverify, h, -⟩ := Run.andThen_eq_ok h
  obtain ⟨hanswer, rfl⟩ := askPort_ok hverify
  split at h
  · cases h
    cases hr
  · rename_i hverified
    rw [Bool.not_eq_false] at hverified
    subst hverified
    rcases hfind : (bindingMismatches evidence bindings).find? (·.1) with _ | ⟨_, validation, reason⟩
    · rw [hfind] at h
      obtain ⟨w₃, s₃, now, w₄, hnow, h, -⟩ := Run.andThen_eq_ok h
      obtain ⟨htime, rfl⟩ := askPort_ok hnow
      obtain ⟨time, hreceived, hutc⟩ := Stateful.bind_eq_ok htime
      cases h
      obtain ⟨hdecided, hdecision, hunexpired⟩ := decideEvidence_approved hr
      refine ⟨hdecided, EvidenceAnswer.received_ok hanswer, now, ?_, bindingMismatches_none hfind hdecision hunexpired⟩
      rw [EvidenceAnswer.received_ok hreceived, approvalUtc_ok hutc]
    · rw [hfind] at h
      cases h
      cases hr

/-- The bindings of a context, as its checkpoint has them. -/
structure BindingsOf (context : Context) (approvalId writeNodeId : String) (bindings : ApprovalResumeBindings) : Prop where
  pending             : context.approvals.get? approvalId = some .pending
  tenantId            : bindings.tenantId.text = context.tenantId
  executionId         : bindings.executionId = context.request.executionId
  businessOperationId : bindings.businessOperationId.text = (context.request.businessOperationId.map (·.text)).getD ""
  approvalId          : bindings.approvalId.text = approvalId
  approvalRequestId   : context.checkpoint.approvalRequestIdsByWriteNode.get? writeNodeId = some bindings.approvalRequestId.text
  skillSemanticHash   : bindings.skillSemanticHash.text = context.skill.semanticHash
  payloadHash         : context.checkpoint.payloadHashesByWriteNode.get? writeNodeId = some bindings.payloadHash.text
  writeIntentHash     : context.checkpoint.writeIntentHashesByWriteNode.get? writeNodeId = some bindings.writeIntentHash.text

omit [Platform] in
theorem boundTo_ok {bindings : Dict String} {node name text : String} (h : boundTo bindings node name = .ok text) :
    bindings.get? node = some text := by
  unfold boundTo at h
  split at h
  · rename_i t ht
    cases h
    exact ht
  · cases h

theorem resumeBindings_ok {context : Context} {approvalId writeNodeId : String} {bindings : ApprovalResumeBindings}
    (h : resumeBindings context approvalId writeNodeId = .ok bindings) : BindingsOf context approvalId writeNodeId bindings := by
  unfold resumeBindings at h
  split at h
  · cases h
  · rename_i hpending
    rw [not_not] at hpending
    obtain ⟨request, hrequest, h⟩ := Stateful.bind_eq_ok h
    obtain ⟨intent, hintent, h⟩ := Stateful.bind_eq_ok h
    obtain ⟨payload, hpayload, h⟩ := Stateful.bind_eq_ok h
    unfold ApprovalResumeBindings.make at h
    obtain ⟨t₁, h₁, h⟩ := Stateful.bind_eq_ok h
    obtain ⟨t₂, h₂, h⟩ := Stateful.bind_eq_ok h
    obtain ⟨t₃, h₃, h⟩ := Stateful.bind_eq_ok h
    obtain ⟨t₄, h₄, h⟩ := Stateful.bind_eq_ok h
    obtain ⟨t₅, h₅, h⟩ := Stateful.bind_eq_ok h
    obtain ⟨t₆, h₆, h⟩ := Stateful.bind_eq_ok h
    obtain ⟨t₇, h₇, h⟩ := Stateful.bind_eq_ok h
    obtain ⟨t₈, h₈, h⟩ := Stateful.bind_eq_ok h
    cases h
    rw [requiredIdentity_text] at h₂
    cases h₂
    refine ⟨hpending, requiredIdentity_ok h₁, rfl, requiredIdentity_ok h₃, requiredIdentity_ok h₄, ?_, requiredDigest_ok h₇, ?_, ?_⟩
    · rw [boundTo_ok hrequest, requiredIdentity_ok h₅]
    · rw [boundTo_ok hpayload, requiredDigest_ok h₈]
    · rw [boundTo_ok hintent, requiredIdentity_ok h₆]

theorem handle_releaseAfter_ok {m : ResumeRun Judged} {claim : CheckpointClaim} {log after : List ResumeEvent}
    {w : List (List ResumeEvent)} {judged : Judged} (h : Run.handle m (releaseAfter ports claim) log = ⟨w, after, .ok judged⟩) :
    m log = ⟨w, after, .ok judged⟩ := by
  rcases hm : m log with ⟨w₁, s₁, e | j⟩
  · rw [Run.handle_error hm] at h
    obtain ⟨e', he'⟩ := releaseAfter_error ports claim e s₁
    rw [he'] at h
    cases h
  · rwa [Run.handle_ok hm] at h

/-- The steps of a judgement that has a value. -/
theorem ResumeCall.judge_ok {call : ResumeCall} {texts : ResumeTexts} {answered : Option ExecutionCheckpoint}
    {log after : List ResumeEvent} {w : List (List ResumeEvent)} {judged : Judged}
    (h : call.judge reader coordinator ports texts answered log = ⟨w, after, .ok judged⟩) :
    answered = some judged.checkpoint ∧
    coordinator.restore reader judged.checkpoint call.skill call.request (ports.monotonicNs log) = .ok judged.context ∧
    ∃ bindings validation w', BindingsOf judged.context texts.approvalId.text texts.writeNodeId.text bindings ∧
      validateEvidence ports call.token.evidence bindings log = ⟨w', after, .ok validation⟩ ∧
      judged.validation = if validation.approvalGatePassed then validateCurrentIdentity bindings texts else validation := by
  unfold judge at h
  obtain ⟨w₁, s₁, checkpoint, w₂, hcheckpoint, h, -⟩ := Run.andThen_eq_ok h
  obtain ⟨hanswered, rfl⟩ := Run.ofExcept_eq_ok hcheckpoint
  rw [Run.bind_eq, Run.look_andThen] at h
  obtain ⟨w₃, s₂, context, w₄, hcontext, h, -⟩ := Run.andThen_eq_ok h
  obtain ⟨hrestore, rfl⟩ := Run.ofExcept_eq_ok hcontext
  obtain ⟨w₅, s₃, bindings, w₆, hread, h, -⟩ := Run.andThen_eq_ok h
  obtain ⟨hbindings, rfl⟩ := Run.ofExcept_eq_ok hread
  obtain ⟨w₇, s₄, validation, w₈, hvalidation, h, -⟩ := Run.andThen_eq_ok h
  cases h
  have hsome : answered = some checkpoint := by
    cases answered <;> cases hanswered
    rfl
  exact ⟨hsome, hrestore, bindings, validation, w₇, resumeBindings_ok hbindings, hvalidation, rfl⟩

theorem validateCurrentIdentity_approved {bindings : ApprovalResumeBindings} {texts : ResumeTexts}
    (h : (validateCurrentIdentity bindings texts).approvalStatus = .approved) :
    texts.currentWriteIntentHash = bindings.writeIntentHash ∧ texts.currentPayloadHash = bindings.payloadHash := by
  unfold validateCurrentIdentity at h
  by_cases hintent : texts.currentWriteIntentHash = bindings.writeIntentHash
  · rw [if_neg (not_not.2 hintent)] at h
    by_cases hpayload : texts.currentPayloadHash = bindings.payloadHash
    · exact ⟨hintent, hpayload⟩
    · rw [if_pos hpayload] at h
      cases h
  · rw [if_pos hintent] at h
    cases h

/-- The texts of a call are those it was given. -/
theorem ResumeCall.texts_ok {call : ResumeCall} {texts : ResumeTexts} (h : call.texts = .ok texts) :
    texts.approvalId.text = call.approvalId ∧ texts.writeNodeId.text = call.writeNodeId ∧
      texts.currentWriteIntentHash.text = call.currentWriteIntentHash ∧
      texts.currentPayloadHash.text = call.currentPayloadHash := by
  unfold ResumeCall.texts at h
  obtain ⟨t₁, h₁, h⟩ := Stateful.bind_eq_ok h
  obtain ⟨t₂, h₂, h⟩ := Stateful.bind_eq_ok h
  obtain ⟨t₃, h₃, h⟩ := Stateful.bind_eq_ok h
  obtain ⟨t₄, h₄, h⟩ := Stateful.bind_eq_ok h
  obtain ⟨t₅, h₅, h⟩ := Stateful.bind_eq_ok h
  obtain ⟨u, hu, h⟩ := Stateful.bind_eq_ok h
  cases h
  exact ⟨requiredIdentity_ok h₁, requiredIdentity_ok h₂, requiredIdentity_ok h₃, requiredDigest_ok h₄⟩

/-- **What an approved context rests on**: the evidence of the call, the checkpoint that was claimed and the time. -/
structure ApprovalHolds (reader : DocumentReader) (coordinator : CheckpointCoordinator) (ports : ResumePorts)
    (call : ResumeCall) (log : List ResumeEvent) (outcome : ApprovalResumeOutcome) (restored : Context) : Prop where
  claimed             : ports.claim (log ++ [.claim (call.claimed outcome.claimId)]) = .answer outcome.checkpoint
  accepted            : ports.verify (log ++ [.claim (call.claimed outcome.claimId)] ++ [.verify call.token.evidence]) =
    .answer true
  restoredFor         : RestoredFor reader coordinator outcome.checkpoint call.skill call.request restored
  pending             : restored.approvals.get? call.approvalId = some .pending
  tenantId            : call.token.evidence.tenantId.text = restored.tenantId
  executionId         : call.token.evidence.executionId.text = outcome.checkpoint.executionId
  businessOperationId : call.token.evidence.businessOperationId.text = outcome.checkpoint.businessOperationId
  approvalId          : call.token.evidence.approvalId.text = call.approvalId
  approvalRequestId   : restored.checkpoint.approvalRequestIdsByWriteNode.get? call.writeNodeId =
    some call.token.evidence.approvalRequestId.text
  skillSemanticHash   : call.token.evidence.skillSemanticHash.text = outcome.checkpoint.semanticHash
  payloadHash         : restored.checkpoint.payloadHashesByWriteNode.get? call.writeNodeId =
    some call.token.evidence.payloadHash.text
  writeIntentHash     : restored.checkpoint.writeIntentHashesByWriteNode.get? call.writeNodeId =
    some call.token.evidence.writeIntentHash.text
  decision            : call.token.evidence.decision = .approved
  unexpired           : ∃ now : UtcInstant, ports.now (log ++ [.claim (call.claimed outcome.claimId)] ++
      [.verify call.token.evidence] ++ [.now]) = .answer now.time ∧
    ∀ expiry, call.token.evidence.expiresAt = some expiry → now.stamp < expiry.stamp
  currentIntent       : call.currentWriteIntentHash = call.token.evidence.writeIntentHash.text
  currentPayload      : call.currentPayloadHash = call.token.evidence.payloadHash.text
  context             : outcome.context = { restored with approvals := restored.approvals.set call.approvalId .approved }

/-- A judgement of a checkpoint of the call whose status is an approval. -/
theorem ResumeCall.judge_approved {call : ResumeCall} {texts : ResumeTexts} {answered : Option ExecutionCheckpoint}
    {log after : List ResumeEvent} {w : List (List ResumeEvent)} {judged : Judged} {claimId : RequiredText}
    (htexts : call.texts = .ok texts)
    (hjudge : call.judge reader coordinator ports texts answered (log ++ [.claim (call.claimed claimId)]) =
      ⟨w, after, .ok judged⟩)
    (hanswer : (ports.claim (log ++ [.claim (call.claimed claimId)])).returned = .ok answered)
    (happroved : judged.validation.approvalStatus = .approved) :
    ApprovalHolds reader coordinator ports call log ⟨{ judged.context with
      approvals := judged.context.approvals.set call.approvalId .approved }, judged.checkpoint, claimId, judged.validation, true⟩
      judged.context := by
  obtain ⟨happroval, hnode, hintent, hpayload⟩ := texts_ok htexts
  obtain ⟨rfl, hrestore, bindings, validation, w', hbindings, hvalidate, hvalidation⟩ := judge_ok hjudge
  have hrestored := CheckpointCoordinator.restore_ok hrestore
  -- an approval comes from the validator alone: the comparison with the current hashes runs only after it
  have hvalid : validation.approvalStatus = .approved := by
    by_cases hgate : validation.approvalGatePassed = true
    · simp only [ApprovalValidationResult.approvalGatePassed, Bool.and_eq_true, decide_eq_true_eq] at hgate
      exact hgate.2
    · rwa [hvalidation, if_neg hgate] at happroved
  obtain ⟨rfl, haccepted, now, hnow, hevidence⟩ := validateEvidence_approved hvalidate hvalid
  have hgate : (⟨.valid, .approved, none⟩ : ApprovalValidationResult).approvalGatePassed = true := rfl
  rw [hvalidation, if_pos hgate] at happroved
  obtain ⟨hcurrentIntent, hcurrentPayload⟩ := validateCurrentIdentity_approved happroved
  have hexecution := hrestored.bound _ (List.mem_cons_self ..)
  have hoperation := hrestored.bound _ (List.mem_cons_of_mem _ (List.mem_cons_self ..))
  have hsemantic : some call.skill.semanticHash = some judged.checkpoint.semanticHash :=
    hrestored.bound ("semantic_hash", some call.skill.semanticHash, judged.checkpoint.semanticHash)
      (by simp [CheckpointCoordinator.bindings])
  dsimp only at hexecution hoperation
  rw [happroval, hnode] at hbindings
  refine
    { claimed           := EvidenceAnswer.returned_some hanswer
      accepted          := haccepted
      restoredFor       := hrestored
      pending           := hbindings.pending
      tenantId          := by rw [hevidence.tenantId, hbindings.tenantId]
      executionId       := ?_
      businessOperationId := ?_
      approvalId        := by rw [hevidence.approvalId, hbindings.approvalId]
      approvalRequestId := by rw [hevidence.approvalRequestId, hbindings.approvalRequestId]
      skillSemanticHash := ?_
      payloadHash       := by rw [hevidence.payloadHash, hbindings.payloadHash]
      writeIntentHash   := by rw [hevidence.writeIntentHash, hbindings.writeIntentHash]
      decision          := hevidence.decision
      unexpired         := ⟨now, hnow, hevidence.unexpired⟩
      currentIntent     := by rw [← hintent, hcurrentIntent, hevidence.writeIntentHash]
      currentPayload    := by rw [← hpayload, hcurrentPayload, hevidence.payloadHash]
      context           := rfl }
  · rw [hevidence.executionId, hbindings.executionId, hrestored.ctxRequest]
    exact Option.some_inj.1 hexecution
  · rw [hevidence.businessOperationId, hbindings.businessOperationId, hrestored.ctxRequest, hoperation]
    rfl
  · rw [hevidence.skillSemanticHash, hbindings.skillSemanticHash, hrestored.ctxSkill]
    exact Option.some_inj.1 hsemantic

/-- A finished call that left the approval of its checkpoint approved. -/
theorem ResumeCall.finish_approved {call : ResumeCall} {texts : ResumeTexts} {judged : Judged} {log after : List ResumeEvent}
    {w : List (List ResumeEvent)} {outcome : ApprovalResumeOutcome}
    (h : call.finish ports texts judged log = ⟨w, after, .ok outcome⟩)
    (happroved : outcome.context.approvals.get? texts.approvalId.text = some .approved)
    (hpending : judged.context.approvals.get? texts.approvalId.text = some .pending) :
    judged.validation.approvalStatus = .approved ∧ outcome = ⟨{ judged.context with
      approvals := judged.context.approvals.set texts.approvalId.text .approved }, judged.checkpoint, texts.claimId,
      judged.validation, true⟩ := by
  unfold finish at h
  dsimp only at h
  by_cases hconsumes : judged.validation.validation.consumes = true
  · rw [if_pos hconsumes] at h
    obtain ⟨w₁, s₁, u, w₂, -, h, -⟩ := Run.andThen_eq_ok h
    cases h
    rw [Dict.get?_set_self] at happroved
    rw [Option.some_inj.1 happroved]
    exact ⟨rfl, rfl⟩
  · rw [if_neg hconsumes] at h
    obtain ⟨w₁, s₁, u, w₂, -, h, -⟩ := Run.andThen_eq_ok h
    cases h
    rw [hpending] at happroved
    cases happroved

/-- A claim that was given is settled. -/
theorem ResumeCall.resume_given (reader : DocumentReader) (coordinator : CheckpointCoordinator) (ports : ResumePorts)
    {call : ResumeCall} {texts : ResumeTexts} {answered : Option ExecutionCheckpoint}
    {log : List ResumeEvent} (htexts : call.texts = .ok texts)
    (hanswer : (ports.claim (log ++ [.claim (call.claimed texts.claimId)])).returned = .ok answered) :
    (call.resume reader coordinator ports log).final =
      (call.settle reader coordinator ports texts answered (log ++ [.claim (call.claimed texts.claimId)])).final ∧
    (call.resume reader coordinator ports log).outcome =
      (call.settle reader coordinator ports texts answered (log ++ [.claim (call.claimed texts.claimId)])).outcome := by
  unfold resume
  rw [htexts]
  simp only [Run.ofExcept, Run.bind_eq, Run.andThen_done]
  exact askPort_andThen_ok hanswer _

end Approval

/-! ## A call that is approved, and one that is interrupted -/

section Waiting

variable [Platform]

/-- The hash of the payload that was approved. -/
def waitingPayloadHash : Digest := .ofText "payload"

/-- The document of a context that waits for one approval; the keys are in order. -/
def waitingState : Json :=
  .obj
    [("approvals", .obj [("draft-approval", .str "PENDING")]),
     ("checkpoint", .obj
       [("approval_request_ids_by_write_node", .obj [("draft-node", .str "approval-1")]),
        ("approval_request_published", .bool false), ("checkpoint_version", .int 1), ("last_completed_node_id", .null),
        ("payload_hashes_by_write_node", .obj [("draft-node", .str waitingPayloadHash.text)]),
        ("suspended_at_node_id", .str "draft-node"), ("trace_sequence", .int 0),
        ("write_intent_hashes_by_write_node", .obj [("draft-node", .str "intent-1")]),
        ("write_request_durable", .bool false)]),
     ("checkpoint_version", .int 1), ("checks", .arr []),
     ("execution", .obj [("current_node_id", .null), ("data_completeness", .str "COMPLETE"), ("foreach_depth", .int 0),
       ("invocation_counter", .int 0)]),
     ("idempotency", .obj [("keys_by_write_node", .obj []), ("payload_hashes_by_write_node", .obj [])]),
     ("outputs", .arr []),
     ("resources", .obj [("emitted_rows", .int 0), ("loop_iterations", .int 0), ("max_collection_size_seen", .int 0),
       ("tool_calls", .int 0)]),
     ("schema_version", .int 1),
     ("security", .obj
       [("data_policy", .obj [("audit_retention_days", .int 90), ("max_trace_classification", .str "INTERNAL"),
         ("snapshot_retention_days", .int 30)]),
        ("principal", .obj [("actor_type", .str analyst.actorType), ("auth_context_ref", .str analyst.authContextRef), ("on_behalf_of", .null),
          ("roles", .arr []), ("scopes", .arr [.str "nsl:skill:execute"]), ("subject_id", .str "analyst"), ("tenant_id", .str "tenant"),
          ("verification", .str "VERIFIED")])]),
     ("symbols", .obj [("check_frames", .arr [.obj []]), ("contexts", .obj []), ("frames", .arr [.obj []]), ("inputs", .obj [])]),
     ("writes", .arr [])]

theorem waitingState_sorted : waitingState.sorted = waitingState := by
  simp [waitingState, Json.sorted, Json.sortedFields, Json.sortedItems, Json.sortKeys, List.insertionSort_cons, Json.KeyLe]

theorem waitingState_printed (number : List Char → String) : Json.Printed number waitingState := by
  simp [waitingState, Json.Printed, Json.PrintedFields, Json.PrintedItems, KeysOnce]

def waitingPayload : ByteArray := (Json.dumps waitingState).toUTF8

theorem waitingPayload_loads (reader : DocumentReader) : reader.loadStrictJson waitingPayload = .ok (ofJson waitingState) := by
  unfold DocumentReader.loadStrictJson waitingPayload
  rw [fromUTF8?_toUTF8]
  dsimp only
  rw [Json.loads_dumps reader.number (waitingState_printed reader.number), waitingState_sorted]

def waitingRequest : ExecutionRequest := draftContext.request

def waitingLabels : List (String × String) :=
  checkpointTexts "run-3" "business-1" "requested-skill" "1.0.0" requestedSkill.semanticHash "1.1" RUNTIME_VERSION

theorem waitingLabels_there : ∀ t ∈ waitingLabels, Text.isBlank t.2 = false := by
  have hhash : Text.isBlank requestedSkill.semanticHash = false := isBlank_of_isRequiredText (Digest.ofText "skill").ok.1
  have hrest : ∀ s ∈ ["run-3", "business-1", "requested-skill", "1.0.0", "1.1", RUNTIME_VERSION], Text.isBlank s = false := by decide
  simpa [waitingLabels, checkpointTexts, hhash] using hrest

def waitingHash : Digest := .ofText (Json.dumps (integrityMaterial "run-3" "business-1" 1 "requested-skill" "1.0.0"
  requestedSkill.semanticHash "1.1" RUNTIME_VERSION waitingPayload))

theorem waitingHash_shape : waitingHash.text.toList.take 7 = "sha256:".toList ∧ waitingHash.text.length = 71 := by
  have h := waitingHash.ok.2
  simp only [isDigest, Bool.and_eq_true, decide_eq_true_eq] at h
  exact h.1

def waitingCheckpoint : ExecutionCheckpoint where
  executionId         := "run-3"
  businessOperationId := "business-1"
  checkpointVersion   := 1
  skillId             := "requested-skill"
  skillVersion        := "1.0.0"
  semanticHash        := requestedSkill.semanticHash
  irVersion           := "1.1"
  runtimeVersion      := RUNTIME_VERSION
  statePayload        := waitingPayload
  integrityHash       := waitingHash.text
  textsThere          := waitingLabels_there
  versionPositive     := Nat.one_pos
  hashShape           := waitingHash_shape

theorem waitingCheckpoint_bound : ({} : CheckpointCoordinator).validateBindings waitingCheckpoint requestedSkill waitingRequest = .ok () := by
  unfold CheckpointCoordinator.validateBindings
  simp [CheckpointCoordinator.bindings, waitingCheckpoint, requestedSkill, waitingRequest, draftContext, SkillObject.ofBody,
    ExecutionRequest.plain, RequiredText.ofPlain, draftOperation]

def waitingContext : Context where
  skill      := requestedSkill
  request    := waitingRequest
  startedNs  := 0
  approvals  := Dict.empty.set "draft-approval" .pending
  checkpoint :=
    { checkpointVersion             := 1
      suspendedAtNodeId             := some "draft-node"
      approvalRequestIdsByWriteNode := Dict.empty.set "draft-node" "approval-1"
      writeIntentHashesByWriteNode  := Dict.empty.set "draft-node" "intent-1"
      payloadHashesByWriteNode      := Dict.empty.set "draft-node" waitingPayloadHash.text }

variable (reader : DocumentReader)

def waitingFields : List (String × Value) := match ofJson waitingState with | .dict items => items | _ => []

theorem waiting_decodes : decodeState reader (ofJson waitingState) waitingCheckpoint waitingRequest = .ok waitingFields := by
  rfl

theorem waitingPayloads_read (path : String) (hkey : requiredString "draft-node" (path ++ ".key") = .ok "draft-node") :
    stringMap (.dict [("draft-node", .str waitingPayloadHash.text)]) path =
      .ok (Dict.empty.set "draft-node" waitingPayloadHash.text) := by
  have hvalue : ∀ path, requiredStringValue (.str waitingPayloadHash.text) path = .ok waitingPayloadHash.text :=
    requiredString_digest waitingPayloadHash
  simp only [stringMap, readEntries, hvalue, hkey, bind, Except.bind, pure, Except.pure]
  rfl

def waitingBlank : Context := { skill := requestedSkill, request := waitingRequest, startedNs := 0 }

theorem waitingRecorded_restores (ctx : Context) : restoreCheckpoint reader ctx (fieldOf waitingFields "checkpoint") (.int 1) =
    .ok { ctx with checkpoint := waitingContext.checkpoint } := by
  unfold restoreCheckpoint
  refine (Stateful.bind_ok (a := _) rfl _).trans ?_
  refine (Stateful.bind_ok (a := 1) rfl _).trans ?_
  refine (if_neg (by simp [DocumentReader.isInt])).trans ?_
  refine (Stateful.bind_ok (a := none) rfl _).trans ?_
  refine (Stateful.bind_ok (a := some "draft-node") rfl _).trans ?_
  refine (Stateful.bind_ok (a := 0) rfl _).trans ?_
  refine (Stateful.bind_ok (a := false) rfl _).trans ?_
  refine (Stateful.bind_ok (a := false) rfl _).trans ?_
  refine (Stateful.bind_ok (a := Dict.empty.set "draft-node" "approval-1") rfl _).trans ?_
  refine (Stateful.bind_ok (a := Dict.empty.set "draft-node" "intent-1") rfl _).trans ?_
  exact Stateful.bind_ok (waitingPayloads_read _ rfl) _

theorem waiting_restores : restoreState reader waitingBlank waitingFields = .ok waitingContext := by
  have hsymbols : restoreSymbols reader waitingBlank (fieldOf waitingFields "symbols") = .ok waitingBlank := rfl
  have hrecords : restoreRecords reader waitingBlank (fieldOf waitingFields "checks") (fieldOf waitingFields "outputs") = .ok waitingBlank :=
    rfl
  have hresources : restoreResources waitingBlank (fieldOf waitingFields "resources") = .ok waitingBlank := rfl
  have hexecution : restoreExecution waitingBlank (fieldOf waitingFields "execution") = .ok waitingBlank := rfl
  have happrovals : restoreApprovals waitingBlank (fieldOf waitingFields "approvals") =
      .ok { waitingBlank with approvals := waitingContext.approvals } := rfl
  have hwrites : restoreWrites reader { waitingBlank with approvals := waitingContext.approvals } (fieldOf waitingFields "writes") =
      .ok { waitingBlank with approvals := waitingContext.approvals } := rfl
  have hidempotency : restoreIdempotency { waitingBlank with approvals := waitingContext.approvals }
      (fieldOf waitingFields "idempotency") = .ok { waitingBlank with approvals := waitingContext.approvals } := rfl
  unfold restoreState
  rw [Stateful.bind_ok hsymbols, Stateful.bind_ok hrecords, Stateful.bind_ok hresources, Stateful.bind_ok hexecution,
    Stateful.bind_ok happrovals, Stateful.bind_ok hwrites, Stateful.bind_ok hidempotency]
  exact waitingRecorded_restores reader _

/-- The checkpoint gives back its context. -/
theorem waitingCheckpoint_restores : ({} : CheckpointCoordinator).restore reader waitingCheckpoint requestedSkill waitingRequest
    (.ok 0) = .ok waitingContext := by
  have hverify : waitingCheckpoint.verify = .ok () :=
    ExecutionCheckpoint.verify_of (by simp only [waitingCheckpoint, waitingHash, Digest.ofText])
  have hload : reader.loadStrictJson waitingCheckpoint.statePayload = .ok (ofJson waitingState) := by
    unfold waitingCheckpoint
    exact waitingPayload_loads reader
  have hclock : (.ok 0 : Except Exn Int) = .ok 0 := rfl
  unfold CheckpointCoordinator.restore
  rw [Stateful.bind_ok hverify, Stateful.bind_ok waitingCheckpoint_bound, Stateful.bind_ok hload,
    Stateful.bind_ok (waiting_decodes reader), Stateful.bind_ok hclock]
  exact waiting_restores reader

def waitingClaimId : RequiredText := .ofPlain "claim-1"

omit [Platform] in
theorem waitingEvidence_times (expiry : UtcInstant) (h : some draftEvening = some expiry) :
    draftMorning.stamp ≤ expiry.stamp := by
  rw [← Option.some_inj.1 h]
  exact draftMorning_before.le

def waitingEvidence : ApprovalEvidence where
  tenantId            := draftTenant
  executionId         := waitingRequest.executionId
  businessOperationId := draftOperation
  approvalId          := requestedApproval
  approvalRequestId   := requestedId
  skillSemanticHash   := .ofText "skill"
  decision            := .approved
  approverId          := draftSubject
  decidedAt           := draftMorning
  expiresAt           := some draftEvening
  payloadHash         := waitingPayloadHash
  writeIntentHash     := firstIntent
  evidenceIntegrity   := draftSubject
  expiresLater        := waitingEvidence_times

def waitingCall : ResumeCall where
  token                  := ⟨waitingRequest.executionId, draftOperation, 1, waitingEvidence, Nat.one_pos⟩
  skill                  := requestedSkill
  request                := waitingRequest
  approvalId             := "draft-approval"
  writeNodeId            := "draft-node"
  currentWriteIntentHash := "intent-1"
  currentPayloadHash     := waitingPayloadHash.text
  claimId                := "claim-1"

def waitingTexts : ResumeTexts := ⟨requestedApproval, draftNode, firstIntent, waitingPayloadHash, waitingClaimId⟩

theorem waitingCall_texts : waitingCall.texts = .ok waitingTexts := by
  have htext : ∀ (t : RequiredText) name, requiredIdentity t.text name = .ok t := requiredIdentity_text
  have htoken : validateTokenRequest waitingCall.token waitingCall.request = .ok () := by
    unfold validateTokenRequest
    exact (if_neg (not_not.2 rfl)).trans (if_neg (not_not.2 rfl))
  unfold ResumeCall.texts
  refine (Stateful.bind_ok (htext requestedApproval "approval_id") _).trans ?_
  refine (Stateful.bind_ok (htext draftNode "write_node_id") _).trans ?_
  refine (Stateful.bind_ok (htext firstIntent "current_write_intent_hash") _).trans ?_
  refine (Stateful.bind_ok (requiredDigest_text waitingPayloadHash "current_payload_hash") _).trans ?_
  refine (Stateful.bind_ok (htext waitingClaimId "claim_id") _).trans ?_
  exact Stateful.bind_ok htoken _

/-- Ports that give the claim; the verifier answers as it is told. -/
def waitingPorts (verify : EvidenceAnswer Bool) : ResumePorts where
  claim _       := .answer waitingCheckpoint
  verify _      := verify
  now _         := .answer draftNoon.time
  release _     := .ok ()
  consume _     := .ok ()
  monotonicNs _ := .ok 0

def waitingBindings : ApprovalResumeBindings :=
  ⟨draftTenant, waitingRequest.executionId, draftOperation, requestedApproval, requestedId, .ofText "skill",
    waitingPayloadHash, firstIntent⟩

theorem waiting_bindings : resumeBindings waitingContext "draft-approval" "draft-node" = .ok waitingBindings := by
  have htext : ∀ (t : RequiredText) name, requiredIdentity t.text name = .ok t := requiredIdentity_text
  unfold resumeBindings
  refine (if_neg (not_not.2 rfl)).trans ?_
  refine (Stateful.bind_ok (a := "approval-1") rfl _).trans ?_
  refine (Stateful.bind_ok (a := "intent-1") rfl _).trans ?_
  refine (Stateful.bind_ok (a := waitingPayloadHash.text) rfl _).trans ?_
  unfold ApprovalResumeBindings.make
  refine (Stateful.bind_ok (htext draftTenant _) _).trans ?_
  refine (Stateful.bind_ok (htext waitingRequest.executionId _) _).trans ?_
  refine (Stateful.bind_ok (htext draftOperation _) _).trans ?_
  refine (Stateful.bind_ok (htext requestedApproval _) _).trans ?_
  refine (Stateful.bind_ok (htext requestedId _) _).trans ?_
  refine (Stateful.bind_ok (htext firstIntent _) _).trans ?_
  refine (Stateful.bind_ok (requiredDigest_text (.ofText "skill") _) _).trans ?_
  exact Stateful.bind_ok (requiredDigest_text waitingPayloadHash _) _

/-- The claim of the call. -/
def waitingClaim : CheckpointClaim := waitingCall.claimed waitingClaimId

/-- What is left of the judgement is the evidence. -/
theorem waitingCall_judge (verify : EvidenceAnswer Bool) (log : List ResumeEvent) :
    waitingCall.judge reader {} (waitingPorts verify) waitingTexts (some waitingCheckpoint) log =
      Run.andThen (validateEvidence (waitingPorts verify) waitingEvidence waitingBindings) (fun validation =>
        Run.done ⟨waitingCheckpoint, waitingContext,
          if validation.approvalGatePassed then validateCurrentIdentity waitingBindings waitingTexts else validation⟩) log := by
  have hrestore : ({} : CheckpointCoordinator).restore reader waitingCheckpoint waitingCall.skill waitingCall.request
      ((waitingPorts verify).monotonicNs log) = .ok waitingContext := waitingCheckpoint_restores reader
  have hbindings : resumeBindings waitingContext waitingTexts.approvalId.text waitingTexts.writeNodeId.text =
      .ok waitingBindings := waiting_bindings
  unfold ResumeCall.judge
  simp only [Run.bind_eq, Run.ofExcept, Run.andThen_done, Run.look_andThen, id, hrestore, hbindings]
  rfl

theorem waitingEvidence_bound : (bindingMismatches waitingEvidence waitingBindings).find? (·.1) = none := by
  simp [bindingMismatches, waitingEvidence, waitingBindings]

theorem waitingEvidence_decided : decideEvidence waitingEvidence draftNoon = ⟨.valid, .approved, none⟩ := by
  have hexpired : ¬ waitingEvidence.expiresAt.any (fun expiry => expiry.stamp ≤ draftNoon.stamp) = true := by
    have hlater : ¬ draftEvening.stamp ≤ draftNoon.stamp := by decide
    unfold waitingEvidence
    dsimp only
    rw [Option.any_some, decide_eq_true_eq]
    exact hlater
  unfold decideEvidence
  rw [if_neg hexpired]
  have hdecision : waitingEvidence.decision = .approved := rfl
  rw [hdecision]
  rfl

/-- Evidence the verifier accepts is judged to be an approval. -/
theorem waitingCall_accepted (log : List ResumeEvent) :
    (waitingCall.judge reader {} (waitingPorts (.answer true)) waitingTexts (some waitingCheckpoint) log).outcome =
      .ok ⟨waitingCheckpoint, waitingContext, ⟨.valid, .approved, none⟩⟩ := by
  have hnow : approvalUtc draftNoon.time "ApprovalClock.now" = .ok draftNoon := by
    unfold approvalUtc writeGuardUtc
    exact dif_pos draftNoon.ok
  have hcurrent : validateCurrentIdentity waitingBindings waitingTexts = ⟨.valid, .approved, none⟩ := by
    unfold validateCurrentIdentity
    exact (if_neg (not_not.2 rfl)).trans (if_neg (not_not.2 rfl))
  have hverify : ((waitingPorts (.answer true)).verify (log ++ [.verify waitingEvidence])).received
      (.type "ApprovalEvidenceVerifier.verify must return bool") = .ok true := rfl
  have hvalidated : (validateEvidence (waitingPorts (.answer true)) waitingEvidence waitingBindings log).outcome =
      .ok ⟨.valid, .approved, none⟩ := by
    unfold validateEvidence
    refine (askPort_andThen_ok hverify _).2.trans ?_
    rw [if_neg (by decide), waitingEvidence_bound]
    refine (askPort_andThen_ok (a := draftNoon) hnow _).2.trans ?_
    rw [waitingEvidence_decided]
    rfl
  rw [waitingCall_judge]
  rcases hrun : validateEvidence (waitingPorts (.answer true)) waitingEvidence waitingBindings log with ⟨w, after, o⟩
  rw [hrun] at hvalidated
  dsimp only at hvalidated
  subst hvalidated
  rw [Run.andThen_ok hrun]
  rw [hcurrent]
  rfl

/-- A verifier that is interrupted ends the judgement. -/
theorem waitingCall_interrupted (log : List ResumeEvent) :
    (waitingCall.judge reader {} (waitingPorts (.raises .exit)) waitingTexts (some waitingCheckpoint) log).outcome =
      .error .exit := by
  rw [waitingCall_judge]
  rfl

/-- **A claim is left open**: the verifier is interrupted while it looks at the evidence. -/
theorem waitingCall_leftOpen :
    (waitingPorts (.raises .exit)).claim [.claim waitingClaim] = .answer waitingCheckpoint ∧
    claimEnds (waitingCall.resume reader {} (waitingPorts (.raises .exit)) []).final = [] := by
  have hanswer : ((waitingPorts (.raises .exit)).claim ([] ++ [.claim (waitingCall.claimed waitingTexts.claimId)])).returned =
      .ok (some waitingCheckpoint) := rfl
  have hgiven := ResumeCall.resume_given reader {} (waitingPorts (.raises .exit)) waitingCall_texts hanswer
  have hends := waitingCall.settle_ends reader {} (waitingPorts (.raises .exit)) waitingTexts (some waitingCheckpoint)
    [.claim waitingClaim]
  refine ⟨rfl, ?_⟩
  rw [hgiven.1]
  refine hends.trans ?_
  rw [waitingCall_interrupted]
  rfl

def waitingOutcome : ApprovalResumeOutcome :=
  ⟨{ waitingContext with approvals := waitingContext.approvals.set "draft-approval" .approved }, waitingCheckpoint, waitingClaimId,
    ⟨.valid, .approved, none⟩, true⟩

/-- **The call is approved** when the verifier accepts its evidence. -/
theorem waitingCall_approved :
    (waitingCall.resume reader {} (waitingPorts (.answer true)) []).outcome = .ok waitingOutcome := by
  have hanswer : ((waitingPorts (.answer true)).claim ([] ++ [.claim (waitingCall.claimed waitingTexts.claimId)])).returned =
      .ok (some waitingCheckpoint) := rfl
  have hgiven := ResumeCall.resume_given reader {} (waitingPorts (.answer true)) waitingCall_texts hanswer
  have hjudge := waitingCall_accepted reader [.claim waitingClaim]
  rw [hgiven.2]
  unfold ResumeCall.settle
  rcases hrun : waitingCall.judge reader {} (waitingPorts (.answer true)) waitingTexts (some waitingCheckpoint)
    [.claim waitingClaim] with ⟨w, after, o⟩
  rw [hrun] at hjudge
  dsimp only at hjudge
  subst hjudge
  rw [Run.bind_eq]
  refine (congrArg Stateful.Trace.outcome (Run.andThen_ok (Run.handle_ok hrun))).trans ?_
  rfl

end Waiting

section Ascii

attribute [local instance] Platform.ascii

/-- A reader of documents without fractions, dates or types. -/
def plainReader : DocumentReader where
  number      := String.ofList
  floatEq _ _ := false
  render _    := ""
  dateTime _  := none
  date _      := none
  typeRef _   := .error (.value "no type")

end Ascii
end Nsl
