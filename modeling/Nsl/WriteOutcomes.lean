import Nsl.RuntimeModels
/-!
# Write outcomes — what becomes of a WRITE that was sent

The three outcomes of a provider, the decision a finalized WRITE ends in and the result of verifying it afterwards
(`write_execution.py`, `verification.py`). A decision whose parts disagree, and one that allows an automatic retry,
cannot be built.
-/
namespace Nsl

section Outcomes

variable [Platform]

structure WriteResultEnvelope where
  identity              : WriteOutcomeIdentity
  value                 : ValueEnvelope
  businessReference     : RequiredText
  providerTransactionId : Option RequiredText
  committedAt           : UtcInstant
  evidenceRefs          : EvidenceRefs
  deriving DecidableEq

/-- The fields `WriteNotCommitted` and `WriteCommitUnknown` share. -/
structure UncommittedWrite where
  identity              : WriteOutcomeIdentity
  reasonCode            : RequiredText
  message               : RequiredText
  providerTransactionId : Option RequiredText
  evidenceRefs          : EvidenceRefs
  deriving DecidableEq

/-- `WriteExecutionOutcome` -/
inductive WriteExecutionOutcome
  /-- `WriteCommitted` -/
  | committed (result : WriteResultEnvelope)
  /-- `WriteNotCommitted` -/
  | notCommitted (write : UncommittedWrite)
  /-- `WriteCommitUnknown` -/
  | commitUnknown (write : UncommittedWrite)
  deriving DecidableEq

namespace WriteExecutionOutcome

def identity : WriteExecutionOutcome → WriteOutcomeIdentity
  | .committed r     => r.identity
  | .notCommitted w  => w.identity
  | .commitUnknown w => w.identity

def commitState : WriteExecutionOutcome → CommitState
  | .committed _     => .committed
  | .notCommitted _  => .notCommitted
  | .commitUnknown _ => .unknownCommitState

end WriteExecutionOutcome

/-- The execution status of each commit state. -/
def CommitState.executionStatus : CommitState → ExecutionStatus
  | .committed          => .completed
  | .notCommitted       => .failed
  | .unknownCommitState => .reconciliationRequired

/-- `WriteCommitDecision` with what `__post_init__` asks of it. -/
structure WriteCommitDecision where
  executionStatus        : ExecutionStatus
  outcome                : WriteExecutionOutcome
  writeSummary           : WriteSummary
  automaticRetryAllowed  : Bool
  reconciliationRequired : Bool
  noRetry                : automaticRetryAllowed = false
  reconciliation         : reconciliationRequired = decide (writeSummary.commitState = .unknownCommitState)
  states                 : outcome.commitState = writeSummary.commitState
  status                 : executionStatus = writeSummary.commitState.executionStatus
  deriving DecidableEq

/-! ## Verification -/

/-- What `VerificationResult.__post_init__` asks of the fields of each status. -/
def verificationFieldsOk (status : VerificationStatus) (toolId reasonCode evidenceRef : Option RequiredText)
    (observedAt : Option UtcInstant) : Bool :=
  match status with
  | .notRequested => toolId.isNone && reasonCode.isNone && evidenceRef.isNone && observedAt.isNone
  | .verified     => toolId.isSome && reasonCode.isNone && evidenceRef.isSome && observedAt.isSome
  | .failed       => toolId.isSome && reasonCode.isSome
  | .unknown      => toolId.isSome && reasonCode.isSome

/-- `VerificationResult`; its commit state is always COMMITTED. -/
structure VerificationResult where
  identity           : WriteOutcomeIdentity
  status             : VerificationStatus
  businessReference  : RequiredText
  verificationToolId : Option RequiredText
  reasonCode         : Option RequiredText
  evidenceRef        : Option RequiredText
  observedAt         : Option UtcInstant
  ok                 : verificationFieldsOk status verificationToolId reasonCode evidenceRef observedAt = true
  deriving DecidableEq

/-- `to_summary` -/
def VerificationResult.toSummary (v : VerificationResult) : VerificationSummary :=
  ⟨v.status, v.reasonCode, v.evidenceRef⟩

end Outcomes
end Nsl
