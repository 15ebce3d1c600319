import Nsl.Security
/-!
# Write records — the evidence of a WRITE outcome

The identity of a WRITE, the record of what became of it and its journal entry (`write_execution.py`). Every text in
them was checked by a constructor, so their types say so.
-/
namespace Nsl

variable [Platform]

structure WriteOutcomeIdentity where
  tenantId            : RequiredText
  businessOperationId : RequiredText
  invocationId        : RequiredText
  nodeId              : RequiredText
  toolId              : RequiredText
  idempotencyKey      : IdempotencyKey
  payloadHash         : Digest
  approvalRequestId   : RequiredText
  writeIntentHash     : Digest
  deriving DecidableEq

/-- What `_validate_evidence_refs` lets pass. -/
def areEvidenceRefs (refs : List String) : Bool :=
  refs.all (fun r => !Text.isBlank r) && (findCredentialPath Platform.word "$" (.tuple (refs.map .str))).isNone

structure EvidenceRefs where
  refs : List String
  ok   : areEvidenceRefs refs = true
  deriving DecidableEq

structure WriteOutcomeRecord where
  requestedRecordHash   : Digest
  identity              : WriteOutcomeIdentity
  commitState           : CommitState
  reasonCode            : Option RequiredText
  providerTransactionId : Option RequiredText
  businessReference     : Option RequiredText
  evidenceRefs          : EvidenceRefs
  recordedAt            : UtcInstant
  deriving DecidableEq

def optionalText (t : Option RequiredText) : Json := (t.map (fun t => Json.str t.text)).getD .null

/-- `WriteOutcomeRecord.record_hash` -/
def WriteOutcomeRecord.recordHash (r : WriteOutcomeRecord) : String :=
  sha256Of ("NSL-WRITE-OUTCOME-V1\x00" ++ Json.dumps (.obj
    [("requested_record_hash", .str r.requestedRecordHash.text), ("tenant_id", .str r.identity.tenantId.text),
     ("business_operation_id", .str r.identity.businessOperationId.text),
     ("invocation_id", .str r.identity.invocationId.text), ("node_id", .str r.identity.nodeId.text),
     ("tool_id", .str r.identity.toolId.text), ("idempotency_key", .str r.identity.idempotencyKey.text),
     ("payload_hash", .str r.identity.payloadHash.text),
     ("approval_request_id", .str r.identity.approvalRequestId.text),
     ("write_intent_hash", .str r.identity.writeIntentHash.text),
     ("commit_state", .str (StrEnum.value r.commitState)), ("reason_code", optionalText r.reasonCode),
     ("provider_transaction_id", optionalText r.providerTransactionId),
     ("business_reference", optionalText r.businessReference),
     ("evidence_refs", .arr (r.evidenceRefs.refs.map .str)), ("recorded_at", .str r.recordedAt.time.isoformat)]))

structure WriteJournalEntry where
  record     : WriteOutcomeRecord
  durableRef : RequiredText
  deriving DecidableEq

/-- One item of the write journal: an entry a WRITE appended, or what a checkpoint gave back for one. -/
inductive JournalItem
  | entry (e : WriteJournalEntry)
  | restored (v : Value)
  deriving DecidableEq

end Nsl
