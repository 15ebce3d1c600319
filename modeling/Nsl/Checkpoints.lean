import Nsl.Audit
import Nsl.Base.Base64
import Nsl.Base.JsonParse
/-!
# Checkpoints — the durable state of a suspended execution

`checkpoints.py`: the document of a whole execution context, the checkpoint around it with its integrity hash, and
taking one. A context whose journal holds the entry of a WRITE has no document: the entry is no JSON value.
-/
namespace Nsl

def CHECKPOINT_SCHEMA_VERSION : Int := 1
def STATE_SCHEMA_VERSION : Int := 1

/-- `_error` -/
def checkpointError (path message : String) : Exn := .checkpoint (path ++ ": " ++ message)

/-- `_required_string` -/
def requiredString (text path : String) : Except Exn String :=
  if Text.isBlank text then .error (checkpointError path "expected a non-empty string") else .ok text

/-! ## The document of a context -/

def texts (items : List String) : Value := .list (items.map .str)

/-- `sorted(items)` of a set. -/
def sortedTexts (items : List String) : Value := texts (items.eraseDups.insertionSort (· ≤ ·))

def textMap (d : Dict String) : Value := .dict (d.entries.map (fun (k, v) => (k, .str v)))

/-- `_envelope_to_data` -/
def envelopeToData (e : ValueEnvelope) : Except Exn Value :=
  match e.typeInfo with
  | none   => .error (.attribute "'NoneType' object has no attribute 'to_data'")
  | some t => .ok (.dict
    [("value", encodeValue e.value), ("type", ofJson t.toData), ("presence", .str (StrEnum.value e.presence)),
     ("completeness", .str (StrEnum.value e.completeness)), ("classification", .str (StrEnum.value e.classification)),
     ("provenance_refs", texts e.provenanceRefs)])

def envelopesToData : List (String × ValueEnvelope) → Except Exn (List (String × Value))
  | []           => .ok []
  | (k, e) :: es => do return (k, ← envelopeToData e) :: (← envelopesToData es)

/-- `_namespace_to_data` -/
def namespaceToData (d : Dict ValueEnvelope) : Except Exn Value := (envelopesToData d.entries).map .dict

def namespacesToData : List (Dict ValueEnvelope) → Except Exn (List Value)
  | []      => .ok []
  | d :: ds => do return (← namespaceToData d) :: (← namespacesToData ds)

/-- `_check_to_data` -/
def checkToData (c : CheckResult) : Value :=
  .dict
    [("check_id", .str c.checkId), ("status", .str (StrEnum.value c.status)), ("severity", .str c.severity),
     ("message", .str c.message), ("condition_node_id", .str c.conditionNodeId),
     ("presence", .str (StrEnum.value c.presence)), ("completeness", .str (StrEnum.value c.completeness)),
     ("provenance_refs", texts c.provenanceRefs), ("reason_code", optionalStr c.reasonCode)]

/-- The security section, for a principal and a policy. -/
def securityData (p : ExecutionPrincipal) (policy : DataHandlingPolicy) : Value :=
  .dict
    [("principal", .dict
      [("tenant_id", .str p.tenantId), ("subject_id", .str p.subjectId), ("actor_type", .str p.actorType),
       ("roles", sortedTexts p.roles), ("scopes", sortedTexts p.scopes), ("auth_context_ref", .str p.authContextRef),
       ("verification", .str (StrEnum.value p.verification)), ("on_behalf_of", optionalStr p.onBehalfOf)]),
     ("data_policy", .dict
      [("max_trace_classification", .str (StrEnum.value policy.maxTraceClassification)),
       ("snapshot_retention_days", .int policy.snapshotRetentionDays),
       ("audit_retention_days", .int policy.auditRetentionDays)])]

def resourcesData (m : Meter) : Value :=
  .dict
    [("tool_calls", .int m.toolCalls), ("loop_iterations", .int m.loopIterations), ("emitted_rows", .int m.emittedRows),
     ("max_collection_size_seen", .int m.maxCollectionSizeSeen)]

def approvalsData (approvals : Dict ApprovalStatus) : Value :=
  .dict (approvals.entries.map (fun (k, status) => (k, .str (StrEnum.value status))))

def idempotencyData (s : IdempotencyState) : Value :=
  .dict
    [("keys_by_write_node", textMap s.keysByWriteNode),
     ("payload_hashes_by_write_node", textMap s.payloadHashesByWriteNode)]

def checkpointData (s : CheckpointState) (version : Nat) : Value :=
  .dict
    [("checkpoint_version", .int version), ("last_completed_node_id", optionalStr s.lastCompletedNodeId),
     ("suspended_at_node_id", optionalStr s.suspendedAtNodeId), ("trace_sequence", .int s.traceSequence),
     ("approval_request_published", .bool s.approvalRequestPublished),
     ("write_request_durable", .bool s.writeRequestDurable),
     ("approval_request_ids_by_write_node", textMap s.approvalRequestIdsByWriteNode),
     ("write_intent_hashes_by_write_node", textMap s.writeIntentHashesByWriteNode),
     ("payload_hashes_by_write_node", textMap s.payloadHashesByWriteNode)]

section State

variable [Platform]

/-- `encode_value` of a journal item: it leaves an entry the object it is. -/
def journalToData : JournalItem → Value
  | .entry _    => .foreign "WriteJournalEntry"
  | .restored v => encodeValue v

def executionData (ctx : Context) : Value :=
  .dict
    [("data_completeness", .str (StrEnum.value ctx.dataCompleteness)),
     ("invocation_counter", .int ctx.invocationCounter), ("foreach_depth", .int ctx.foreachDepth),
     ("current_node_id", optionalStr ctx.currentNodeId)]

/-- The payload of `_state_payload`, before it is text. -/
def stateData (ctx : Context) (version : Nat) : Except Exn Value := do
  let principal ← (match ctx.request.principal with
    | some p => .ok p
    | none   => .error (.type "principal must be an ExecutionPrincipal"))
  let inputs ← namespaceToData ctx.inputValues
  let contexts ← namespaceToData ctx.contextValues
  let frames ← namespacesToData ctx.frames.all.reverse
  let checkFrames ← namespacesToData ctx.checkFrames.all.reverse
  let outputs ← namespacesToData (ctx.outputs.map (·.fields))
  return .dict
    [("schema_version", .int STATE_SCHEMA_VERSION), ("checkpoint_version", .int version),
     ("security", securityData principal ctx.request.dataPolicy),
     ("symbols", .dict [("inputs", inputs), ("contexts", contexts), ("frames", .list frames),
       ("check_frames", .list checkFrames)]),
     ("checks", .list (ctx.checks.map checkToData)), ("outputs", .list outputs),
     ("resources", resourcesData ctx.resources), ("execution", executionData ctx),
     ("approvals", approvalsData ctx.approvals), ("writes", .list (ctx.writes.map journalToData)),
     ("idempotency", idempotencyData ctx.idempotency), ("checkpoint", checkpointData ctx.checkpoint version)]

/-- `_state_payload` -/
def statePayload (ctx : Context) (version : Nat) : Except Exn ByteArray := do
  let state ← stateData ctx version
  match canonicalJson state with
  | .ok text => .ok text.toUTF8
  | .error _ => .error (checkpointError "$.state_payload" "state is not serializable")

/-! ## Checkpoints -/

/-- The texts of a checkpoint with their paths. -/
def checkpointTexts (executionId businessOperationId skillId skillVersion semanticHash irVersion runtimeVersion : String) :
    List (String × String) :=
  [("$.execution_id", executionId), ("$.business_operation_id", businessOperationId), ("$.skill_id", skillId),
   ("$.skill_version", skillVersion), ("$.semantic_hash", semanticHash), ("$.ir_version", irVersion),
   ("$.runtime_version", runtimeVersion)]

structure ExecutionCheckpoint where
  executionId         : String
  businessOperationId : String
  checkpointVersion   : Nat
  skillId             : String
  skillVersion        : String
  semanticHash        : String
  irVersion           : String
  runtimeVersion      : String
  statePayload        : ByteArray
  integrityHash       : String
  textsThere          : ∀ t ∈ checkpointTexts executionId businessOperationId skillId skillVersion semanticHash irVersion
    runtimeVersion, Text.isBlank t.2 = false
  versionPositive     : 0 < checkpointVersion
  hashShape           : integrityHash.toList.take 7 = "sha256:".toList ∧ integrityHash.length = 71

/-- `_integrity_material` -/
def integrityMaterial (executionId businessOperationId : String) (checkpointVersion : Nat)
    (skillId skillVersion semanticHash irVersion runtimeVersion : String) (payload : ByteArray) : Json :=
  .obj
    [("schema_version", .int CHECKPOINT_SCHEMA_VERSION), ("execution_id", .str executionId),
     ("business_operation_id", .str businessOperationId), ("checkpoint_version", .int checkpointVersion),
     ("skill_id", .str skillId), ("skill_version", .str skillVersion), ("semantic_hash", .str semanticHash),
     ("ir_version", .str irVersion), ("runtime_version", .str runtimeVersion),
     ("state_payload", .str (Base64.encode payload))]

/-- `ExecutionCheckpoint.create` -/
def ExecutionCheckpoint.create (executionId businessOperationId : String) (checkpointVersion : Nat)
    (skillId skillVersion semanticHash irVersion runtimeVersion : String) (payload : ByteArray) :
    Except Exn ExecutionCheckpoint :=
  let fields := checkpointTexts executionId businessOperationId skillId skillVersion semanticHash irVersion runtimeVersion
  let hash := sha256Of (Json.dumps (integrityMaterial executionId businessOperationId checkpointVersion skillId
    skillVersion semanticHash irVersion runtimeVersion payload))
  match hblank : fields.find? (fun t => Text.isBlank t.2) with
  | some (path, _) => .error (checkpointError path "expected a non-empty string")
  | none           =>
    if hversion : 0 < checkpointVersion then
      .ok
        { executionId, businessOperationId, checkpointVersion, skillId, skillVersion, semanticHash, irVersion,
          runtimeVersion, statePayload := payload, integrityHash := hash,
          textsThere := fun t ht => by simpa using List.find?_eq_none.1 hblank t ht
          versionPositive := hversion
          hashShape := by
            have h := (sha256Of_digest (Json.dumps (integrityMaterial executionId businessOperationId checkpointVersion
              skillId skillVersion semanticHash irVersion runtimeVersion payload))).2
            simp only [isDigest, Bool.and_eq_true, decide_eq_true_eq] at h
            exact h.1 }
    else .error (checkpointError "$.checkpoint_version" "expected a positive integer")

/-- `ExecutionCheckpoint.verify` -/
def ExecutionCheckpoint.verify (c : ExecutionCheckpoint) : Except Exn Unit := do
  let expected ← ExecutionCheckpoint.create c.executionId c.businessOperationId c.checkpointVersion c.skillId
    c.skillVersion c.semanticHash c.irVersion c.runtimeVersion c.statePayload
  if c.integrityHash ≠ expected.integrityHash then
    throw (checkpointError "$.integrity_hash" "checkpoint integrity mismatch")

/-- `CheckpointCoordinator` -/
structure CheckpointCoordinator where
  runtimeVersion : String := RUNTIME_VERSION
  versionThere   : Text.isBlank runtimeVersion = false := by decide

/-- `CheckpointCoordinator.capture`: the checkpoint, and the context with its new version. -/
def CheckpointCoordinator.capture (c : CheckpointCoordinator) (ctx : Context) :
    Except Exn (ExecutionCheckpoint × Context) := do
  match ctx.request.businessOperationId with
  | none =>
    throw (checkpointError "$.business_operation_id" "checkpoint requires a business operation identity")
  | some businessOperationId =>
    let nextVersion := ctx.checkpoint.checkpointVersion + 1
    let payload ← statePayload ctx nextVersion
    let checkpoint ← ExecutionCheckpoint.create ctx.request.executionId.text businessOperationId.text nextVersion
      ctx.skill.skillId ctx.skill.skillVersion ctx.skill.semanticHash ctx.skill.irVersion c.runtimeVersion payload
    return (checkpoint, { ctx with checkpoint := { ctx.checkpoint with checkpointVersion := nextVersion } })

/-- A checkpoint can be made of texts that are there. -/
theorem ExecutionCheckpoint.create_ok {executionId businessOperationId : String} {checkpointVersion : Nat}
    {skillId skillVersion semanticHash irVersion runtimeVersion : String} (payload : ByteArray)
    (htexts : ∀ t ∈ checkpointTexts executionId businessOperationId skillId skillVersion semanticHash irVersion
      runtimeVersion, Text.isBlank t.2 = false) (hversion : 0 < checkpointVersion) :
    ∃ c, ExecutionCheckpoint.create executionId businessOperationId checkpointVersion skillId skillVersion semanticHash
      irVersion runtimeVersion payload = .ok c := by
  unfold create
  dsimp only
  split
  · rename_i path text hfind
    have hblank := List.find?_some hfind
    rw [htexts _ (List.mem_of_find?_eq_some hfind)] at hblank
    cases hblank
  · rw [dif_pos hversion]
    exact ⟨_, rfl⟩

/-- **A context whose document JSON takes can be captured.** -/
theorem CheckpointCoordinator.capture_ok (coordinator : CheckpointCoordinator) {ctx : Context} {op : RequiredText}
    {state : Value} (hop : ctx.request.businessOperationId = some op)
    (hstate : stateData ctx (ctx.checkpoint.checkpointVersion + 1) = .ok state) (hjson : state.isJson = true)
    (htexts : ∀ t ∈ checkpointTexts ctx.request.executionId.text op.text ctx.skill.skillId ctx.skill.skillVersion
      ctx.skill.semanticHash ctx.skill.irVersion coordinator.runtimeVersion, Text.isBlank t.2 = false) :
    ∃ c, coordinator.capture ctx = .ok (c, { ctx with
      checkpoint := { ctx.checkpoint with checkpointVersion := ctx.checkpoint.checkpointVersion + 1 } }) := by
  have hpayload : ∃ payload, statePayload ctx (ctx.checkpoint.checkpointVersion + 1) = .ok payload := by
    have hok := toJson_isOk state
    rw [hjson] at hok
    unfold statePayload canonicalJson
    rw [hstate]
    cases hj : toJson state with
    | ok j    => exact ⟨(Json.dumps j).toUTF8, by simp [hj, bind, Except.bind, Except.map]⟩
    | error e => rw [hj] at hok; cases hok
  obtain ⟨payload, hpayload⟩ := hpayload
  obtain ⟨c, hc⟩ := ExecutionCheckpoint.create_ok payload htexts (Nat.succ_pos ctx.checkpoint.checkpointVersion)
  refine ⟨c, ?_⟩
  unfold capture
  rw [hop]
  simp only [hpayload, hc, bind, Except.bind, pure, Except.pure]

end State
end Nsl
