import Nsl.Checkpoints
import Nsl.EngineReturns
import Nsl.WriteOutcomes
/-!
# Controlled — an execution around one approved WRITE

`execute_controlled_prefix` and `complete_controlled_execution` (`runtime.py`): the prefix runs as an execution of its
own and is sealed in a checkpoint; after the WRITE its outcome is projected into the restored context and the suffix
runs. The suffix runs without the handlers of the prefix: what goes wrong in it hides the committed WRITE.
-/
namespace Nsl

open Stateful (Run)

section Controlled

variable [Platform]

variable (env : Env)

/-! ## The prefix -/

/-- `execute_controlled_prefix`: the result, and the checkpoint of a completed prefix. -/
def executeControlledPrefix (coordinator : CheckpointCoordinator) (skill : SkillObject) (request : ExecutionRequest) :
    Run St Exn (ExecutionResult × Option ExecutionCheckpoint) := do
  if request.businessOperationId = none then
    Run.fail (.runtimeContract "controlled execution requires a business operation identity")
  else do
    let plan ← Run.ofExcept (ControlledExecutionPlan.fromSkill skill)
    let (result, ctx) ← executeWithContext env skill request plan.prefixBlock true
    if result.status ≠ .completed then Run.done (result, none)
    else
      match ctx with
      | none     => Run.fail (.runtimeContract "completed execution context is unavailable")
      | some ctx => do
        let (checkpoint, sealed) ← Run.ofExcept (coordinator.capture ctx)
        modifyCtx (fun _ => sealed)
        Run.done (result, some checkpoint)

/-! ## The suffix -/

/-- A verification after which the WRITE's value goes into the skill. -/
def VerificationStatus.projects (status : VerificationStatus) : Bool := status = .notRequested || status = .verified

/-- The checks of `complete_controlled_execution`, and the value it binds. -/
def admitCommit (ctx : Context) (approvalRequestId : String) (commit : WriteCommitDecision)
    (verification : Option VerificationResult) : Except Exn (ControlledExecutionPlan × Option ValueEnvelope) := do
  if Text.isBlank approvalRequestId then throw (.type "approval_request_id must be a non-empty string")
  let plan ← ControlledExecutionPlan.fromSkill ctx.skill
  if ctx.approvals.get? plan.approval.approvalId ≠ some .approved then
    throw (.runtimeContract "controlled WRITE requires valid Approval")
  if commit.outcome.identity.approvalRequestId.text ≠ approvalRequestId then
    throw (.runtimeContract "Approval and WRITE request binding mismatch")
  if commit.outcome.identity.nodeId.text ≠ plan.write.nodeId then
    throw (.runtimeContract "WRITE outcome node binding mismatch")
  match commit.outcome, verification with
  | .committed _, none             => throw (.type "committed WRITE requires VerificationResult")
  | .committed result, some v =>
    if v.identity ≠ result.identity then throw (.runtimeContract "verification identity binding mismatch")
    if v.status.projects then
      if result.value.typeInfo ≠ some plan.write.typeInfo then throw (.runtimeContract "WRITE result type mismatch")
      return (plan, some result.value)
    else return (plan, none)
  | _, some _ => throw (.runtimeContract "non-committed WRITE cannot contain verification evidence")
  | _, none   => return (plan, none)

/-- The surroundings of the suffix: a recorder of its own, and tools that nobody measures. -/
def Env.forSuffix (skill : SkillObject) (request : ExecutionRequest) : Env :=
  { env with measured := false, recorder := some (Recorder.make skill request) }

/-- The value of the WRITE is bound, and the suffix runs. -/
def projectWrite (ctx : Context) (plan : ControlledExecutionPlan) (value : ValueEnvelope) : Run St Exn Unit := do
  bindSymbol plan.writeStatement.statement.targetSymbolId value
  startChain
  executeBlock (env.forSuffix ctx.skill ctx.request) plan.suffixBlock

def projectOutcome (ctx : Context) (plan : ControlledExecutionPlan) : Option ValueEnvelope → Run St Exn Unit
  | some value => projectWrite env ctx plan value
  | none       => Run.done ()

/-- The result of a controlled execution. -/
def controlledResult (ctx : Context) (plan : ControlledExecutionPlan) (commit : WriteCommitDecision)
    (verification : Option VerificationResult) : Except Exn ExecutionResult := do
  let base ← resultOf ctx commit.executionStatus none
  let approvalId ← requiredIdentity plan.approval.approvalId "ApprovalSummary.approval_id"
  return { base with
    preWriteEligibility := some .allowed
    approval            := some ⟨.approved, approvalId.text, some commit.outcome.identity.approvalRequestId⟩
    write               := some commit.writeSummary
    verification        := verification.map (·.toSummary) }

/-- `complete_controlled_execution` -/
def completeControlled (approvalRequestId : String) (commit : WriteCommitDecision)
    (verification : Option VerificationResult) : Run St Exn ExecutionResult := do
  let ctx ← getCtx
  let (plan, value) ← Run.ofExcept (admitCommit ctx approvalRequestId commit verification)
  projectOutcome env ctx plan value
  let ctx ← getCtx
  Run.ofExcept (controlledResult ctx plan commit verification)

/-! ## After a commit -/

/-- A committed decision and its verification that pass the binding checks for a context. -/
structure CommitBound (ctx : Context) (approvalRequestId : String) (commit : WriteCommitDecision)
    (v : VerificationResult) (plan : ControlledExecutionPlan) (result : WriteResultEnvelope) : Prop where
  planned      : ControlledExecutionPlan.fromSkill ctx.skill = .ok plan
  approved     : ctx.approvals.get? plan.approval.approvalId = some .approved
  committed    : commit.outcome = .committed result
  request      : result.identity.approvalRequestId.text = approvalRequestId
  node         : result.identity.nodeId.text = plan.write.nodeId
  verification : v.identity = result.identity

/-- The state in which the suffix starts. -/
def suffixState (plan : ControlledExecutionPlan) (value : ValueEnvelope) (s : St) : St :=
  ⟨{ s.ctx with frames := s.ctx.frames.bind plan.writeStatement.statement.targetSymbolId value },
    { s.world with sequence := 0, previousEventHash := none }⟩

/-- Nothing goes wrong after the commit: no value is projected, or its type is the declared one, its symbol is free and
the suffix ends without an error; and the checks recorded allow a result. -/
def SuffixEnds (plan : ControlledExecutionPlan) (result : WriteResultEnvelope) (v : VerificationResult) (s : St) : Prop :=
  if v.status.projects then
    result.value.typeInfo = some plan.write.typeInfo ∧
    s.ctx.isBound plan.writeStatement.statement.targetSymbolId = false ∧
    (executeBlock (env.forSuffix s.ctx.skill s.ctx.request) plan.suffixBlock (suffixState plan result.value s)).outcome =
      .ok () ∧
    CheckIdsOk (executeBlock (env.forSuffix s.ctx.skill s.ctx.request) plan.suffixBlock
      (suffixState plan result.value s)).final.ctx.checks
  else CheckIdsOk s.ctx.checks

section Commit

variable {env} {approvalRequestId : String} {commit : WriteCommitDecision} {v : VerificationResult}
  {plan : ControlledExecutionPlan} {result : WriteResultEnvelope}

/-- What is bound to a context passes every check but the one of the type. -/
theorem CommitBound.admitted {ctx : Context} (h : CommitBound ctx approvalRequestId commit v plan result) :
    admitCommit ctx approvalRequestId commit (some v) =
      if v.status.projects then
        (if result.value.typeInfo = some plan.write.typeInfo then .ok (plan, some result.value)
         else .error (.runtimeContract "WRITE result type mismatch"))
      else .ok (plan, none) := by
  have hblank : Text.isBlank approvalRequestId = false := by
    rw [← h.request]
    exact isBlank_of_isRequiredText result.identity.approvalRequestId.ok
  unfold admitCommit
  rw [hblank, h.planned, h.committed]
  simp only [WriteExecutionOutcome.identity, bind, Except.bind, h.approved, h.request, h.node, h.verification]
  by_cases hp : v.status.projects = true <;> by_cases ht : result.value.typeInfo = some plan.write.typeInfo <;>
    simp [hp, ht, pure, Except.pure, throw, throwThe, MonadExceptOf.throw]

/-- The result of a controlled execution carries the summary of its WRITE. -/
theorem controlledResult_write {ctx : Context} {verification : Option VerificationResult} {r : ExecutionResult}
    (h : controlledResult ctx plan commit verification = .ok r) : r.write = some commit.writeSummary := by
  unfold controlledResult at h
  cases hbase : resultOf ctx commit.executionStatus none with
  | error e => rw [hbase] at h; cases h
  | ok base =>
    rw [hbase] at h
    cases hid : requiredIdentity plan.approval.approvalId "ApprovalSummary.approval_id" with
    | error e => simp only [hid, bind, Except.bind] at h; cases h
    | ok i    =>
      simp only [hid, bind, Except.bind, pure, Except.pure] at h
      cases h
      rfl

theorem controlledResult_isOk_iff (ctx : Context) (verification : Option VerificationResult) :
    (controlledResult ctx plan commit verification).isOk = true ↔
      ResultOk ctx ∧ isRequiredText plan.approval.approvalId = true := by
  rw [← resultOf_isOk_iff ctx commit.executionStatus none,
    ← requiredIdentity_isOk_iff plan.approval.approvalId "ApprovalSummary.approval_id"]
  unfold controlledResult
  cases resultOf ctx commit.executionStatus none with
  | error e => exact ⟨fun h => (by cases h), fun h => (by cases h.1)⟩
  | ok base =>
    cases requiredIdentity plan.approval.approvalId "ApprovalSummary.approval_id" with
    | error e => exact ⟨fun h => (by cases h), fun h => (by cases h.2)⟩
    | ok i    => exact ⟨fun _ => ⟨rfl, rfl⟩, fun _ => rfl⟩

theorem projectWrite_bound {s : St} {value : ValueEnvelope}
    (h : s.ctx.isBound plan.writeStatement.statement.targetSymbolId = true) :
    ∃ e, projectWrite env s.ctx plan value s = ⟨[], s, .error e⟩ := by
  refine ⟨.immutableBinding ("immutable symbol already bound: " ++ plan.writeStatement.statement.targetSymbolId), ?_⟩
  unfold projectWrite bindSymbol bindOnce getCtx
  simp only [Run.bind_eq]
  refine Run.andThen_error ?_
  rw [Run.look_andThen, if_pos h]
  rfl

theorem projectWrite_free {s : St} {value : ValueEnvelope}
    (h : s.ctx.isBound plan.writeStatement.statement.targetSymbolId = false) :
    ∃ w, projectWrite env s.ctx plan value s =
      let t := executeBlock (env.forSuffix s.ctx.skill s.ctx.request) plan.suffixBlock (suffixState plan value s)
      ⟨w ++ t.written, t.final, t.outcome⟩ := by
  let s₁ : St := ⟨(suffixState plan value s).ctx, s.world⟩
  have hbind : bindSymbol plan.writeStatement.statement.targetSymbolId value s = ⟨[s₁], s₁, .ok ()⟩ := by
    unfold bindSymbol bindOnce getCtx
    rw [Run.bind_eq, Run.look_andThen, if_neg (by rw [h]; simp)]
    rfl
  have hchain : startChain s₁ = ⟨[suffixState plan value s], suffixState plan value s, .ok ()⟩ := rfl
  refine ⟨[s₁] ++ [suffixState plan value s], ?_⟩
  unfold projectWrite
  simp only [Run.bind_eq]
  rw [Run.andThen_ok hbind, Run.andThen_ok hchain, List.append_assoc]

/-- A completion is its result built from the context that projecting the WRITE leaves. -/
theorem completeControlled_apply {s s' : St} {w : List St} {value : Option ValueEnvelope} {o : Except Exn Unit}
    (hadmitted : admitCommit s.ctx approvalRequestId commit (some v) = .ok (plan, value))
    (hproject : projectOutcome env s.ctx plan value s = ⟨w, s', o⟩) :
    (completeControlled env approvalRequestId commit (some v) s).outcome =
      o.bind (fun _ => controlledResult s'.ctx plan commit (some v)) := by
  unfold completeControlled getCtx
  rw [Run.bind_eq, Run.look_andThen, hadmitted]
  show (Run.andThen (projectOutcome env s.ctx plan value) (fun _ => Run.andThen (Run.look (·.ctx))
    (fun ctx => Run.ofExcept (controlledResult ctx plan commit (some v)))) s).outcome = _
  cases o with
  | error e => rw [Run.andThen_error hproject]; rfl
  | ok u    =>
    rw [Run.andThen_ok hproject]
    rw [Run.look_andThen, Run.ofExcept_apply]
    rfl

/-- The result is there, with the summary of the WRITE, exactly when the checks allow one and the approval has an
identifier. -/
theorem controlledResult_there_iff {s : St} {ctx : Context} (h : CommitBound s.ctx approvalRequestId commit v plan result)
    (hskill : ctx.skill = s.ctx.skill) :
    (∃ r, controlledResult ctx plan commit (some v) = .ok r ∧ r.write = some commit.writeSummary) ↔
      CheckIdsOk ctx.checks ∧ isRequiredText plan.approval.approvalId = true := by
  have hv02 : s.ctx.skill.isV02 = true := by
    have hplan := h.planned
    unfold ControlledExecutionPlan.fromSkill at hplan
    split at hplan
    · assumption
    · cases hplan
  have hok := @controlledResult_isOk_iff _ commit plan ctx (some v)
  unfold ResultOk at hok
  rw [hskill] at hok
  have hchecks : CheckIdsOk ctx.checks ↔ (s.ctx.skill.isV02 = true → CheckIdsOk ctx.checks) :=
    ⟨fun hc _ => hc, fun hc => hc hv02⟩
  rw [hchecks, ← hok]
  constructor
  · rintro ⟨r, hr, -⟩
    rw [hr]
    rfl
  · intro hisOk
    cases hr : controlledResult ctx plan commit (some v) with
    | ok r    => exact ⟨r, rfl, controlledResult_write hr⟩
    | error e => rw [hr] at hisOk; cases hisOk

end Commit

end Controlled

/-! ## A publication whose suffix comes too late -/

section Publication

/-- The contract of the tool that publishes. -/
def publishContract : ToolContract where
  toolId               := "report.publish"
  version              := "1.0.0"
  capability           := "WRITE"
  inputTypes           := []
  outputType           := STRING
  requiredScope        := "report:publish"
  outputClassification := .internal
  timeoutMs            := 1000
  risk                 := "R2"
  emptyIsValid         := false
  operationKind        := some .create
  riskLevel            := some .r2
  writeSemantics       := some ⟨⟨"TENANT", "P30D", "RETURN_ORIGINAL", "REJECT", by decide⟩, none⟩
  versionCanonical     := by decide
  capabilitySet        := by decide
  riskSet              := by decide
  namesSet             := by simp
  namesUnique          := by simp [KeysOnce]
  timeoutRange         := by decide
  writeDeclared        := fun _ => ⟨rfl, rfl, rfl⟩
  writeOnly            := fun h => absurd rfl h

variable [Platform]

def publishTool : RequiredTool :=
  ⟨"report.publish", "report.publish", "1.0.0", "WRITE", publishContract.contractHash, "report:publish", .internal,
    some .r2, fun _ => rfl⟩

/-- A skill that publishes and checks the budget afterwards. -/
def publishSkill : SkillObject :=
  SkillObject.sealHash
    { SkillObject.ofBody "1.1" "0.2" ⟨1, 1, 1, 1, 1000⟩
        [.approval publishApproval, .letBind publishWrite, .check budgetCheck] with
      requiredTools := [publishTool] }

def publishRequest : ExecutionRequest := .plain (.ofPlain "run-2") (some analyst) (some (.ofPlain "report-1"))

def publishIdentity : WriteOutcomeIdentity where
  tenantId            := .ofPlain "tenant"
  businessOperationId := .ofPlain "report-1"
  invocationId        := .ofPlain "inv0001"
  nodeId              := .ofPlain "n5"
  toolId              := .ofPlain "report.publish"
  idempotencyKey      := .ofText "report-1"
  payloadHash         := .ofText "payload"
  approvalRequestId   := .ofPlain "request-1"
  writeIntentHash     := .ofText "intent"

def publishResult : WriteResultEnvelope where
  identity              := publishIdentity
  value                 := .ofComplete (.str "receipt") STRING .internal []
  businessReference     := .ofPlain "receipt"
  providerTransactionId := none
  committedAt           := ⟨⟨⟨2026, 1, 1, by decide⟩, 0, 0, 0, 0, some 0, by decide, by simp⟩, by decide⟩
  evidenceRefs          := ⟨[], rfl⟩

def publishCommit : WriteCommitDecision where
  executionStatus        := .completed
  outcome                := .committed publishResult
  writeSummary           := ⟨.committed, publishIdentity.toolId, publishIdentity.nodeId, publishIdentity.idempotencyKey,
    publishIdentity.payloadHash, none, some publishResult.businessReference⟩
  automaticRetryAllowed  := false
  reconciliationRequired := false
  noRetry                := rfl
  reconciliation         := rfl
  states                 := rfl
  status                 := rfl

/-- No verification was asked for. -/
def publishVerification : VerificationResult :=
  ⟨publishIdentity, .notRequested, publishResult.businessReference, none, none, none, none, rfl⟩

/-- The context after the prefix, which has no statements, and the one that was sealed and approved then. -/
def startedContext : Context := { skill := publishSkill, request := publishRequest, startedNs := 0 }

def sealedContext : Context := { startedContext with checkpoint := { checkpointVersion := 1 } }

def approvedContext : Context := { sealedContext with approvals := Dict.empty.set "publish" .approved }

/-- An engine that knows the tool, and one whose clock stands at the second second, after the deadline of the skill. -/
def Env.publishing : Env := { Env.bare with catalog := ⟨[publishContract], by simp⟩ }

def Env.late : Env := { Env.publishing with clock := fun _ => 2000000000 }

def publishPlan : ControlledExecutionPlan where
  approval       := publishApproval
  writeStatement := ⟨publishWrite, _, rfl⟩
  prefixBlock    := []
  suffixBlock    := [.check budgetCheck]

theorem publish_bound :
    CommitBound approvedContext "request-1" publishCommit publishVerification publishPlan publishResult :=
  ⟨rfl, rfl, rfl, rfl, rfl, rfl⟩

theorem publish_admitted : admitCommit approvedContext "request-1" publishCommit (some publishVerification) =
    .ok (publishPlan, some publishResult.value) := by
  rw [publish_bound.admitted]
  rfl

/-- **The WRITE is committed and the caller gets an exception**: the deadline passed before the suffix. -/
theorem publish_late_raises :
    CommitBound approvedContext "request-1" publishCommit publishVerification publishPlan publishResult ∧
    (completeControlled Env.late "request-1" publishCommit (some publishVerification) ⟨approvedContext, {}⟩).outcome =
      .error (.limitExceeded DURATION_LIMIT_MESSAGE) := by
  refine ⟨publish_bound, ?_⟩
  let s : St := ⟨approvedContext, {}⟩
  obtain ⟨w, hproject⟩ := @projectWrite_free _ Env.late publishPlan s publishResult.value rfl
  obtain ⟨w', s', hdeadline, -⟩ := @checkDeadline_apply _ (Env.late.forSuffix s.ctx.skill s.ctx.request)
    (suffixState publishPlan publishResult.value s)
  have hlate : timeLeft (Env.late.forSuffix s.ctx.skill s.ctx.request) (suffixState publishPlan publishResult.value s) ≤ 0 := by
    show (1000 : Int) * 1000000 - (2000000000 - 0) ≤ 0
    decide
  rw [if_pos hlate] at hdeadline
  have hsuffix : executeBlock (Env.late.forSuffix s.ctx.skill s.ctx.request) publishPlan.suffixBlock
      (suffixState publishPlan publishResult.value s) = ⟨w', s', .error (.limitExceeded DURATION_LIMIT_MESSAGE)⟩ := by
    show executeBlock _ [.check budgetCheck] _ = _
    unfold executeBlock aroundStatement
    simp only [Run.bind_eq]
    exact Run.andThen_error (Run.andThen_error hdeadline)
  rw [hsuffix] at hproject
  have hadmitted : admitCommit s.ctx "request-1" publishCommit (some publishVerification) =
      .ok (publishPlan, some publishResult.value) := publish_admitted
  rw [completeControlled_apply hadmitted hproject]
  rfl

end Publication

section Ascii

attribute [local instance] Platform.ascii

end Ascii
end Nsl
