import Nsl.Base.Run
import Nsl.WriteIntents
/-!
# Write guard — whether a WRITE may be sent

`validation.py`: the evidence a WRITE is judged by, its evaluation and the guard around it. The guard binds tenant,
business operation, contract, policy and precondition to the intent; the evidence of the execution itself it takes as it
is given.
-/
namespace Nsl

/-! ## Decisions -/

/-- A reason code: a text that is there. -/
structure ReasonCode where
  text  : String
  there : Text.isBlank text = false

theorem ReasonCode.text_inj {a b : ReasonCode} : a.text = b.text ↔ a = b := by
  cases a
  cases b
  simp

instance : DecidableEq ReasonCode := fun _ _ => decidable_of_iff _ ReasonCode.text_inj

def ReasonCode.of (text : String) (there : Text.isBlank text = false := by decide) : ReasonCode := ⟨text, there⟩

structure WriteGuardDecision where
  eligibility : PreWriteEligibility
  reasonCode  : Option ReasonCode := none
  deriving DecidableEq

def WriteGuardDecision.blocked (reason : ReasonCode) : WriteGuardDecision := ⟨.blocked, some reason⟩

/-! ## The evidence of the execution -/

/-- `PreWriteEvidence` -/
structure PreWriteEvidence where
  validation                  : ValidationSummary
  approvalStatus              : ApprovalStatus := .notRequested
  approvalEvidenceValid       : Bool := false
  runtimePreflightPassed      : Bool := false
  currentPolicyAllowed        : Bool := false
  toolPreconditionsPassed     : Bool := false
  businessPreconditionsPassed : Bool := false
  intentBindingValid          : Bool := false
  idempotencyReady            : Bool := false
  durabilityReady             : Bool := false
  trustValid                  : Bool := false
  replayLiveWriteAllowed      : Bool := false
  summary                     : validation.postInit = .ok validation

namespace PreWriteEvidence

/-- The controls in the order of `_BLOCKING_REASONS`. -/
def controls (e : PreWriteEvidence) : List (ReasonCode × Bool) :=
  [(.of "RUNTIME_PREFLIGHT_FAILED", e.runtimePreflightPassed), (.of "PACKAGE_TRUST_INVALID", e.trustValid),
   (.of "POLICY_DENIED", e.currentPolicyAllowed), (.of "TOOL_PRECONDITION_FAILED", e.toolPreconditionsPassed),
   (.of "BUSINESS_PRECONDITION_FAILED", e.businessPreconditionsPassed), (.of "WRITE_BINDING_INVALID", e.intentBindingValid),
   (.of "IDEMPOTENCY_NOT_READY", e.idempotencyReady), (.of "DURABILITY_NOT_READY", e.durabilityReady),
   (.of "REPLAY_LIVE_WRITE_FORBIDDEN", e.replayLiveWriteAllowed)]

/-- The reason the checks or the approval give against the WRITE. -/
def refusal (e : PreWriteEvidence) : Option ReasonCode :=
  match e.validation.status with
  | .hasFailAndUnknown  => some (.of "REQUIRED_CHECK_FAILED_AND_UNKNOWN")
  | .hasFail            => some (.of "REQUIRED_CHECK_FAILED")
  | .hasUnknown         => some (.of "REQUIRED_CHECK_UNKNOWN")
  | .allPass | .noCheck =>
    if e.approvalStatus = .rejected then some (.of "APPROVAL_REJECTED")
    else if e.approvalStatus = .approved ∧ e.approvalEvidenceValid = false then some (.of "APPROVAL_EVIDENCE_INVALID")
    else none

end PreWriteEvidence

/-- `PreWriteEvaluator.evaluate` -/
def PreWriteEvaluator.evaluate (e : PreWriteEvidence) : WriteGuardDecision :=
  match e.refusal with
  | some reason => .blocked reason
  | none        =>
    match e.controls.find? (fun c => !c.2) with
    | some (reason, _) => .blocked reason
    | none             =>
      if e.approvalStatus = .notRequested ∨ e.approvalStatus = .pending ∨ e.approvalStatus = .expired then
        ⟨.requiresApproval, some (.of "APPROVAL_REQUIRED")⟩
      else ⟨.allowed, none⟩

theorem PreWriteEvidence.refusal_eq_none {e : PreWriteEvidence} (h : e.refusal = none) :
    (e.validation.status = .allPass ∨ e.validation.status = .noCheck) ∧ e.approvalStatus ≠ .rejected ∧
      (e.approvalStatus = .approved → e.approvalEvidenceValid = true) := by
  unfold refusal at h
  have hstatus : e.validation.status = .allPass ∨ e.validation.status = .noCheck := by
    cases hs : e.validation.status with
    | allPass => exact .inl rfl
    | noCheck => exact .inr rfl
    | hasFail | hasUnknown | hasFailAndUnknown =>
      rw [hs] at h
      cases h
  refine ⟨hstatus, ?_⟩
  have hrest : (if e.approvalStatus = .rejected then some (ReasonCode.of "APPROVAL_REJECTED")
      else if e.approvalStatus = .approved ∧ e.approvalEvidenceValid = false then some (.of "APPROVAL_EVIDENCE_INVALID")
      else none) = none := by
    rcases hstatus with hs | hs <;> simpa only [hs] using h
  split at hrest
  · cases hrest
  · rename_i hrejected
    split at hrest
    · cases hrest
    · rename_i hvalid
      refine ⟨hrejected, fun happroved => ?_⟩
      by_contra hfalse
      exact hvalid ⟨happroved, by simpa using hfalse⟩

/-- **A WRITE the evaluator allows**: no check against it, a valid approval and every control. -/
theorem PreWriteEvaluator.evaluate_allowed {e : PreWriteEvidence} (h : (evaluate e).eligibility = .allowed) :
    (e.validation.status = .allPass ∨ e.validation.status = .noCheck) ∧ e.approvalStatus = .approved ∧
      e.approvalEvidenceValid = true ∧ ∀ c ∈ e.controls, c.2 = true := by
  unfold evaluate at h
  cases hrefusal : e.refusal with
  | some reason =>
    rw [hrefusal] at h
    cases h
  | none =>
    rw [hrefusal] at h
    dsimp only at h
    obtain ⟨hstatus, hrejected, hvalid⟩ := PreWriteEvidence.refusal_eq_none hrefusal
    cases hcontrol : e.controls.find? (fun c => !c.2) with
    | some c =>
      rw [hcontrol] at h
      cases h
    | none =>
      rw [hcontrol] at h
      dsimp only at h
      have happroved : e.approvalStatus = .approved := by
        by_cases hopen : e.approvalStatus = .notRequested ∨ e.approvalStatus = .pending ∨ e.approvalStatus = .expired
        · rw [if_pos hopen] at h
          cases h
        · cases hs : e.approvalStatus with
          | approved => rfl
          | rejected => exact absurd hs hrejected
          | notRequested | pending | expired => exact absurd (by simp [hs]) hopen
      refine ⟨hstatus, happroved, hvalid happroved, fun c hc => ?_⟩
      simpa using List.find?_eq_none.1 hcontrol c hc

/-- A summary without a reason against a WRITE is one of checks that all passed. -/
theorem ValidationSummary.fromChecks_clear {checks : List CheckResult} {s : ValidationSummary}
    (h : fromChecks checks = .ok s) (hstatus : s.status = .allPass ∨ s.status = .noCheck) :
    ∀ c ∈ checks, c.status = .pass := by
  unfold fromChecks at h
  split at h
  · cases h
  · dsimp only at h
    unfold postInit at h
    repeat' split at h
    any_goals cases h
    have hcounts : idsOf .fail checks = [] ∧ idsOf .unknown checks = [] := by
      have hlength : ∀ status, (sortedIds (idsOf status checks)).length = (idsOf status checks).length :=
        fun status => List.length_insertionSort _ _
      simp only [summaryStatus, hlength] at hstatus
      have htotal := idsOf_length checks
      by_cases htotal0 : checks.length = 0
      · exact ⟨List.eq_nil_of_length_eq_zero (by omega), List.eq_nil_of_length_eq_zero (by omega)⟩
      · by_cases hf : (idsOf .fail checks).length = 0
        · by_cases hu : (idsOf .unknown checks).length = 0
          · exact ⟨List.eq_nil_of_length_eq_zero hf, List.eq_nil_of_length_eq_zero hu⟩
          · simp [htotal0, hf, hu] at hstatus
        · by_cases hu : (idsOf .unknown checks).length = 0 <;> simp [htotal0, hf, hu] at hstatus
    intro c hc
    have hnot : ∀ status, idsOf status checks = [] → c.status ≠ status := by
      intro status hempty heq
      have hmem : c.checkId ∈ idsOf status checks :=
        List.mem_map_of_mem (List.mem_filter.2 ⟨hc, by simpa using heq⟩)
      rw [hempty] at hmem
      exact List.not_mem_nil hmem
    cases hs : c.status with
    | pass    => rfl
    | fail    => exact absurd hs (hnot .fail hcounts.1)
    | unknown => exact absurd hs (hnot .unknown hcounts.2)

section Guard

variable [Platform]

/-! ## The evidence of the surroundings -/

/-- `_write_guard_utc` -/
def writeGuardUtc (t : Calendar.DateTime) (name : String) : Except Exn UtcInstant :=
  if h : t.isUtc = true then .ok ⟨t, h⟩
  else if t.offset = none then .error (.value (name ++ " must be timezone-aware UTC"))
  else .error (.value (name ++ " must use UTC"))

def UtcInstant.stamp (t : UtcInstant) : Nat := t.time.stamp

structure WriteContractEvidence where
  toolId                 : RequiredText
  contractHash           : Digest
  capability             : ToolCapability
  riskLevel              : RiskLevel
  preconditionsSupported : Bool
  deriving DecidableEq

/-- `WritePolicyRequest`; its action is always WRITE. -/
structure WritePolicyRequest where
  tenantId            : RequiredText
  subjectId           : RequiredText
  toolId              : RequiredText
  riskLevel           : RiskLevel
  businessOperationId : RequiredText
  writeNodeId         : RequiredText
  writeIntentHash     : Digest
  deriving DecidableEq

inductive PolicyEffect | allow | deny
  deriving DecidableEq, Repr

/-- `PolicyDecision`, with the request it answers and the time it is good for. -/
structure PolicyDecision where
  answers      : WritePolicyRequest
  effect       : PolicyEffect
  evaluatedAt  : UtcInstant
  expiresAt    : UtcInstant
  expiresLater : evaluatedAt.stamp < expiresAt.stamp

structure BusinessPreconditionEvidence where
  evidenceId                : RequiredText
  tenantId                  : RequiredText
  businessOperationId       : RequiredText
  writeNodeId               : RequiredText
  toolId                    : RequiredText
  contractHash              : Digest
  payloadHash               : Digest
  writeIntentHash           : Digest
  observedAt                : UtcInstant
  expiresAt                 : UtcInstant
  providerAtomicEnforcement : Bool
  expiresLater              : observedAt.stamp < expiresAt.stamp

/-- `RiskAcceptancePolicy` -/
structure RiskAcceptancePolicy where
  acceptedLevels : List RiskLevel
  nonEmpty       : acceptedLevels ≠ []

/-- `initial_v0_2` -/
def RiskAcceptancePolicy.initialV02 : RiskAcceptancePolicy := ⟨[.r3], List.cons_ne_nil _ _⟩

structure WriteGuardRequest where
  intent                : WriteIntent
  context               : Context
  contractEvidence      : WriteContractEvidence
  executionEvidence     : PreWriteEvidence
  policyDecision        : Option PolicyDecision
  businessPreconditions : Option BusinessPreconditionEvidence

/-- `write_policy_request` -/
def writePolicyRequest (intent : WriteIntent) (ctx : Context) (contract : WriteContractEvidence) :
    Except Exn WritePolicyRequest := do
  let tenantId ← requiredIdentity ctx.tenantId "WritePolicyRequest.tenant_id"
  let subjectId ← requiredIdentity ((ctx.request.principal.map (·.subjectId)).getD "") "WritePolicyRequest.subject_id"
  return ⟨tenantId, subjectId, intent.toolId, contract.riskLevel, intent.businessOperationId, intent.nodeId,
    intent.writeIntentHash⟩

/-! ## The guard -/

/-- `WriteGuard` with its risk policy. -/
structure WriteGuard where
  riskPolicy : RiskAcceptancePolicy := .initialV02

namespace WriteGuard

/-- The first checks of `evaluate`: what the intent, the context and the contract have against each other. -/
def bindingRefusal (g : WriteGuard) (intent : WriteIntent) (ctx : Context) (contract : WriteContractEvidence) :
    Option ReasonCode :=
  if ctx.tenantId ≠ intent.tenantId.text then some (.of "WRITE_TENANT_BINDING_MISMATCH")
  else if ctx.request.businessOperationId ≠ some intent.businessOperationId then some (.of "WRITE_BUSINESS_OPERATION_MISMATCH")
  else if contract.toolId ≠ intent.toolId ∨ contract.capability ≠ .write ∨ contract.preconditionsSupported = false then
    some (.of "WRITE_CONTRACT_INVALID")
  else if contract.riskLevel ∉ g.riskPolicy.acceptedLevels then some (.of "RISK_NOT_ACCEPTED")
  else none

def policyRefusal (policy : Option PolicyDecision) (expected : WritePolicyRequest) (current : UtcInstant) :
    Option ReasonCode :=
  match policy with
  | none        => some (.of "POLICY_EVIDENCE_MISSING")
  | some policy =>
    if policy.answers ≠ expected then some (.of "POLICY_BINDING_MISMATCH")
    else if current.stamp < policy.evaluatedAt.stamp ∨ policy.expiresAt.stamp ≤ current.stamp then some (.of "POLICY_NOT_CURRENT")
    else if policy.effect ≠ .allow then some (.of "POLICY_DENIED")
    else none

/-- `_precondition_matches` -/
def preconditionMatches (evidence : BusinessPreconditionEvidence) (intent : WriteIntent) (ctx : Context)
    (contract : WriteContractEvidence) : Bool :=
  evidence.tenantId.text = ctx.tenantId && ctx.tenantId = intent.tenantId.text &&
    evidence.businessOperationId = intent.businessOperationId && evidence.writeNodeId = intent.nodeId &&
    evidence.toolId = intent.toolId && intent.toolId = contract.toolId && evidence.contractHash = contract.contractHash &&
    evidence.payloadHash = intent.payloadHash && evidence.writeIntentHash = intent.writeIntentHash

def preconditionRefusal (evidence : Option BusinessPreconditionEvidence) (intent : WriteIntent) (ctx : Context)
    (contract : WriteContractEvidence) (current : UtcInstant) : Option ReasonCode :=
  match evidence with
  | none          => some (.of "BUSINESS_PRECONDITION_MISSING")
  | some evidence =>
    if preconditionMatches evidence intent ctx contract = false then some (.of "BUSINESS_PRECONDITION_BINDING_MISMATCH")
    else if current.stamp < evidence.observedAt.stamp ∨ evidence.expiresAt.stamp ≤ current.stamp then
      some (.of "BUSINESS_PRECONDITION_NOT_CURRENT")
    else if evidence.providerAtomicEnforcement = false then some (.of "PROVIDER_PRECONDITION_UNAVAILABLE")
    else none

/-- `WriteGuard.evaluate` -/
def evaluate (g : WriteGuard) (r : WriteGuardRequest) (now : Calendar.DateTime) : Except Exn WriteGuardDecision := do
  let current ← writeGuardUtc now "now"
  match g.bindingRefusal r.intent r.context r.contractEvidence with
  | some reason => return .blocked reason
  | none        =>
    let expected ← writePolicyRequest r.intent r.context r.contractEvidence
    match policyRefusal r.policyDecision expected current with
    | some reason => return .blocked reason
    | none        =>
      match preconditionRefusal r.businessPreconditions r.intent r.context r.contractEvidence current with
      | some reason => return .blocked reason
      | none        =>
        return PreWriteEvaluator.evaluate { r.executionEvidence with
          currentPolicyAllowed        := true
          toolPreconditionsPassed     := true
          businessPreconditionsPassed := true }

/-- A WRITE the guard allows was allowed by the evaluator. -/
theorem evaluate_ok {g : WriteGuard} {r : WriteGuardRequest} {now : Calendar.DateTime} {d : WriteGuardDecision}
    (h : g.evaluate r now = .ok d) (hd : d.eligibility = .allowed) :
    (PreWriteEvaluator.evaluate { r.executionEvidence with
      currentPolicyAllowed := true, toolPreconditionsPassed := true, businessPreconditionsPassed := true }).eligibility =
        .allowed := by
  unfold evaluate at h
  obtain ⟨current, -, h⟩ := Stateful.bind_eq_ok h
  split at h
  · cases h
    cases hd
  · obtain ⟨expected, -, h⟩ := Stateful.bind_eq_ok h
    split at h
    · cases h
      cases hd
    · split at h
      · cases h
        cases hd
      · cases h
        exact hd

end WriteGuard

/-! ## Whose evidence it is -/

/-- The evidence an ALLOWED decision should rest on: that of the request's own context. -/
structure WriteGuardRequest.Justified (r : WriteGuardRequest) : Prop where
  validation : ValidationSummary.fromChecks r.context.checks = .ok r.executionEvidence.validation
  checks     : ∀ c ∈ r.context.checks, c.status ≠ .fail ∧ c.status ≠ .unknown
  complete   : r.context.dataCompleteness = .complete
  approved   : r.context.approvals.get? r.intent.approvalId.text = some .approved

/-- The evidence was taken from the context, whose data is complete. -/
def WriteGuardRequest.TakenFromContext (r : WriteGuardRequest) : Prop :=
  ValidationSummary.fromChecks r.context.checks = .ok r.executionEvidence.validation ∧
    r.context.dataCompleteness = .complete ∧
    r.context.approvals.get? r.intent.approvalId.text = some r.executionEvidence.approvalStatus

end Guard

/-! ## A draft of a voucher -/

section Draft

variable [Platform]

omit [Platform] in
theorem draftDay_exists : (1 ≤ 2026 ∧ 2026 ≤ 9999) ∧ (1 ≤ 1 ∧ 1 ≤ 12) ∧ (1 ≤ 1 ∧ 1 ≤ Calendar.daysInMonth 2026 1) := by decide

omit [Platform] in
theorem draftOffset_within : ∀ o, some (0 : Int) = some o → -86400000000 < o ∧ o < 86400000000 := by simp

/-- An hour of the first day of 2026. -/
def draftHour (hour : Nat) (h : hour < 24) : UtcInstant :=
  ⟨⟨⟨2026, 1, 1, draftDay_exists⟩, hour, 0, 0, 0, some 0, ⟨h, by decide, by decide, by decide⟩, draftOffset_within⟩, rfl⟩

def draftMorning : UtcInstant := draftHour 8 (by decide)

def draftNoon : UtcInstant := draftHour 12 (by decide)

def draftEvening : UtcInstant := draftHour 20 (by decide)

omit [Platform] in
theorem draftMorning_before : draftMorning.stamp < draftEvening.stamp := by decide

theorem draftTenant_required : isRequiredText "tenant" = true := isRequiredText_plain (by decide +kernel) (by decide)

def draftTenant : RequiredText := ⟨"tenant", draftTenant_required⟩

def draftSubject : RequiredText := .ofPlain "analyst"

def draftOperation : RequiredText := .ofPlain "business-1"

def draftTool : RequiredText := .ofPlain "voucher.draft"

def draftContext : Context where
  skill     := SkillObject.ofBody "1.1" "0.2" ⟨1, 1, 1, 1, 1000⟩ []
  request   := .plain (.ofPlain "run-3") (some analyst) (some draftOperation)
  startedNs := 0
  approvals := Dict.empty.set "draft" .approved

def draftArguments (amount : Int) : Dict ValueEnvelope :=
  Dict.empty.set "amount" (.ofComplete (.int amount) INT .internal [])

def draftPayload (amount : Int) : Digest :=
  .ofText ("NSL-WRITE-PAYLOAD-V1\x00" ++ Json.dumps (.obj [("amount", .int amount)]))

theorem draftPayload_eq (amount : Int) : computePayloadHash (draftArguments amount) = .ok (draftPayload amount) := by
  simp [computePayloadHash, canonicalWriteArguments, draftArguments, draftPayload, Dict.set, Dict.empty, Dict.setEntry,
    encodeWriteFields, encodeWriteValue, ValueEnvelope.ofComplete, bind, Except.bind, pure, Except.pure, Except.map]

/-- The WRITE of one node that drafts a voucher of an amount. -/
def draftIntent (nodeId : RequiredText) (amount : Int) : WriteIntent where
  tenantId            := draftTenant
  businessOperationId := draftOperation
  nodeId              := nodeId
  toolRef             := .ofPlain "draft"
  toolId              := draftTool
  approvalId          := .ofPlain "draft"
  skillSemanticHash   := .ofText "skill"
  canonicalArguments  := draftArguments amount
  payloadHash         := draftPayload amount
  writeIntentHash     := computeWriteIntentHash (.ofText "skill") nodeId draftTool (draftPayload amount)
  payload             := draftPayload_eq amount
  intent              := rfl

def draftContract : WriteContractEvidence := ⟨draftTool, .ofText "contract", .write, .r3, true⟩

def draftPolicy (intent : WriteIntent) : PolicyDecision where
  answers      := ⟨draftTenant, draftSubject, intent.toolId, .r3, intent.businessOperationId, intent.nodeId,
    intent.writeIntentHash⟩
  effect       := .allow
  evaluatedAt  := draftMorning
  expiresAt    := draftEvening
  expiresLater := draftMorning_before

def draftPrecondition (intent : WriteIntent) : BusinessPreconditionEvidence where
  evidenceId                := .ofPlain "revision-7"
  tenantId                  := intent.tenantId
  businessOperationId       := intent.businessOperationId
  writeNodeId               := intent.nodeId
  toolId                    := intent.toolId
  contractHash              := draftContract.contractHash
  payloadHash               := intent.payloadHash
  writeIntentHash           := intent.writeIntentHash
  observedAt                := draftMorning
  expiresAt                 := draftEvening
  providerAtomicEnforcement := true
  expiresLater              := draftMorning_before

/-- Evidence of an execution without a check, approved and with every control. -/
def draftEvidence : PreWriteEvidence where
  validation             := ⟨.noCheck, 0, 0, 0, 0, [], []⟩
  approvalStatus         := .approved
  approvalEvidenceValid  := true
  runtimePreflightPassed := true
  intentBindingValid     := true
  idempotencyReady       := true
  durabilityReady        := true
  trustValid             := true
  replayLiveWriteAllowed := true
  summary                := rfl

def draftGuardRequest (intent : WriteIntent) (ctx : Context) : WriteGuardRequest :=
  ⟨intent, ctx, draftContract, draftEvidence, some (draftPolicy intent), some (draftPrecondition intent)⟩

omit [Platform] in
theorem noon_current :
    ¬ (draftNoon.stamp < draftMorning.stamp ∨ draftEvening.stamp ≤ draftNoon.stamp) := by decide

/-- The draft is allowed at noon, whatever the context recorded. -/
theorem draft_allowed (nodeId : RequiredText) (amount : Int) {ctx : Context} (h : ctx.request = draftContext.request) :
    WriteGuard.evaluate {} (draftGuardRequest (draftIntent nodeId amount) ctx) draftNoon.time = .ok ⟨.allowed, none⟩ := by
  have hnow : writeGuardUtc draftNoon.time "now" = .ok draftNoon := dif_pos draftNoon.ok
  have htenant : ctx.tenantId = "tenant" := by
    unfold Context.tenantId
    rw [h]
    rfl
  have hoperation : ctx.request.businessOperationId = some (draftIntent nodeId amount).businessOperationId := by
    rw [h]
    rfl
  have hsubject : (ctx.request.principal.map (·.subjectId)).getD "" = "analyst" := by
    rw [h]
    rfl
  have hbinding : WriteGuard.bindingRefusal {} (draftIntent nodeId amount) ctx draftContract = none := by
    unfold WriteGuard.bindingRefusal
    rw [htenant, hoperation]
    rfl
  have hrequest : writePolicyRequest (draftIntent nodeId amount) ctx draftContract =
      .ok (draftPolicy (draftIntent nodeId amount)).answers := by
    unfold writePolicyRequest
    rw [htenant, hsubject]
    have htext : ∀ name, requiredIdentity "tenant" name = .ok draftTenant := requiredIdentity_text draftTenant
    have hsubjectText : ∀ name, requiredIdentity "analyst" name = .ok draftSubject := requiredIdentity_text draftSubject
    rw [htext, hsubjectText]
    rfl
  have hpolicy : WriteGuard.policyRefusal (some (draftPolicy (draftIntent nodeId amount)))
      (draftPolicy (draftIntent nodeId amount)).answers draftNoon = none := by
    unfold WriteGuard.policyRefusal
    dsimp only
    rw [if_neg (not_not.2 rfl)]
    exact (if_neg noon_current).trans (if_neg (not_not.2 rfl))
  have hprecondition : WriteGuard.preconditionRefusal (some (draftPrecondition (draftIntent nodeId amount)))
      (draftIntent nodeId amount) ctx draftContract draftNoon = none := by
    have hmatches : WriteGuard.preconditionMatches (draftPrecondition (draftIntent nodeId amount))
        (draftIntent nodeId amount) ctx draftContract = true := by
      unfold WriteGuard.preconditionMatches
      rw [htenant]
      simp [draftPrecondition, draftIntent, draftContract, draftTenant]
    unfold WriteGuard.preconditionRefusal
    dsimp only
    rw [hmatches, if_neg (by decide)]
    exact (if_neg noon_current).trans rfl
  unfold WriteGuard.evaluate draftGuardRequest
  simp only [hnow, hbinding, hrequest, hpolicy, hprecondition, bind, Except.bind, pure, Except.pure]
  rfl

def draftNode : RequiredText := .ofPlain "draft-node"

/-- A context whose only check failed. -/
def failedDraft : Context :=
  { draftContext with checks := [⟨"BUDGET", .fail, "ERROR", "over budget", "n2", .present, .complete, [], none⟩] }

/-- **A WRITE is allowed although the check of its context failed.** -/
theorem failedDraft_allowed :
    WriteGuard.evaluate {} (draftGuardRequest (draftIntent draftNode 100) failedDraft) draftNoon.time =
      .ok ⟨.allowed, none⟩ ∧
    ¬ (draftGuardRequest (draftIntent draftNode 100) failedDraft).Justified := by
  refine ⟨draft_allowed draftNode 100 rfl, fun hj => ?_⟩
  exact (hj.checks _ (List.mem_singleton.2 rfl)).1 rfl

end Draft

section Ascii

attribute [local instance] Platform.ascii

end Ascii
end Nsl
