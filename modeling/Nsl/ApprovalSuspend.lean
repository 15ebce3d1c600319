import Nsl.Checkpoints
import Nsl.WriteGuard
/-!
# Approval suspend — persist, then publish

`ApprovalSuspensionCoordinator.suspend` (`approval.py`): the request is staged in the context, the context is saved as a
checkpoint and only then the request is published. The two ports may fail at any call. Staging looks at the request a node
is bound to already, but neither at the hashes of that binding nor at the status of the approval.
-/
namespace Nsl

open Stateful (Run)

section Suspend

variable [Platform]

/-! ## Requests -/

mutual
/-- What `_freeze_summary` takes. -/
def isSafeSummary : Value → Bool
  | .null | .str _ | .int _ | .bool _ => true
  | .float t                          => t ∉ ["nan", "inf", "-inf"]
  | .list items | .tuple items        => areSafeSummaries items
  | .dict items                       => areSafeFields items
  | _                                 => false
def areSafeSummaries : List Value → Bool
  | []      => true
  | v :: vs => isSafeSummary v && areSafeSummaries vs
def areSafeFields : List (String × Value) → Bool
  | []           => true
  | (k, v) :: vs => !Text.isBlank k && isSafeSummary v && areSafeFields vs
end

structure ApprovalRequest where
  tenantId            : RequiredText
  executionId         : RequiredText
  businessOperationId : RequiredText
  approvalId          : RequiredText
  approvalRequestId   : RequiredText
  skillId             : RequiredText
  skillVersion        : RequiredText
  skillSemanticHash   : Digest
  writeNodeId         : RequiredText
  toolId              : RequiredText
  payloadHash         : Digest
  writeIntentHash     : RequiredText
  riskLevel           : RiskLevel
  message             : RequiredText
  expiresAt           : Option UtcInstant
  displaySafeSummary  : Dict Value
  protectedPayloadRef : Option RequiredText
  dataClassification  : DataClassification
  summaryClean        : findCredentialPath Platform.word "$" (.dict displaySafeSummary.entries) = none
  summarySafe         : areSafeFields displaySafeSummary.entries = true

/-- What `_validate_bindings` compares, under the names of the fields. -/
def requestMismatches (ctx : Context) (r : ApprovalRequest) : List (String × Bool) :=
  [("tenant_id", r.tenantId.text ≠ ctx.tenantId), ("execution_id", r.executionId ≠ ctx.request.executionId),
   ("business_operation_id", some r.businessOperationId ≠ ctx.request.businessOperationId),
   ("skill_id", r.skillId.text ≠ ctx.skill.skillId), ("skill_version", r.skillVersion.text ≠ ctx.skill.skillVersion),
   ("skill_semantic_hash", r.skillSemanticHash.text ≠ ctx.skill.semanticHash)]

/-- `_validate_bindings` of a request. -/
def validateRequestBindings (ctx : Context) (r : ApprovalRequest) : Except Exn Unit :=
  match (requestMismatches ctx r).find? (·.2) with
  | some (name, _) => .error (.value ("ApprovalRequest." ++ name ++ " binding mismatch"))
  | none           => .ok ()

/-- `_validated_pre_write`: the validation and the eligibility of a v0.2 skill. -/
def validatedPreWrite (ctx : Context) (evidence : Option PreWriteEvidence) :
    Except Exn (Option (ValidationSummary × PreWriteEligibility)) :=
  if ctx.skill.languageVersion ≠ "0.2" then .ok none
  else
    match evidence with
    | none          => .error (.type "v0.2 approval requires PreWriteEvidence")
    | some evidence => do
      let validation ← ValidationSummary.fromChecks ctx.checks
      if evidence.validation ≠ validation then .error (.value "PreWriteEvidence validation binding mismatch")
      else if validation.status ≠ .allPass ∨ ctx.dataCompleteness ≠ .complete then
        .error (.value "v0.2 approval requires complete passing validation")
      else if (PreWriteEvaluator.evaluate evidence).eligibility ≠ .requiresApproval then
        .error (.value "v0.2 approval requires REQUIRES_APPROVAL eligibility")
      else .ok (some (validation, .requiresApproval))

/-! ## Staging -/

/-- What `_stage_suspend` writes. -/
def Context.staged (ctx : Context) (r : ApprovalRequest) : Context :=
  { ctx with
    approvals  := ctx.approvals.set r.approvalId.text .pending
    checkpoint := { ctx.checkpoint with
      suspendedAtNodeId             := some r.writeNodeId.text
      approvalRequestPublished      := false
      approvalRequestIdsByWriteNode :=
        ctx.checkpoint.approvalRequestIdsByWriteNode.set r.writeNodeId.text r.approvalRequestId.text
      writeIntentHashesByWriteNode  :=
        ctx.checkpoint.writeIntentHashesByWriteNode.set r.writeNodeId.text r.writeIntentHash.text
      payloadHashesByWriteNode      :=
        ctx.checkpoint.payloadHashesByWriteNode.set r.writeNodeId.text r.payloadHash.text } }

/-- `_stage_suspend` -/
def stageSuspend (ctx : Context) (r : ApprovalRequest) : Except Exn Context :=
  if (ctx.checkpoint.approvalRequestIdsByWriteNode.get? r.writeNodeId.text).any (· ≠ r.approvalRequestId.text) then
    .error (.value "write node is already bound to another ApprovalRequestId")
  else .ok (ctx.staged r)

/-! ## Suspending -/

inductive SuspendEvent
  | save (checkpoint : ExecutionCheckpoint)
  | publish (request : ApprovalRequest)

/-- What the ports answer, given all calls up to the one they answer. -/
structure SuspendPorts where
  save    : List SuspendEvent → Except Exn Unit
  publish : List SuspendEvent → Except Exn Unit

structure SuspendState where
  ctx : Context
  log : List SuspendEvent

abbrev SuspendRun (α : Type) := Run SuspendState Exn α

def noteEvent (event : SuspendEvent) : SuspendRun Unit := Run.write (fun s => { s with log := s.log ++ [event] })

def putContext (ctx : Context) : SuspendRun Unit := Run.write (fun s => { s with ctx })

/-- The arguments of one call of `suspend`. -/
structure SuspendCall where
  request  : ApprovalRequest
  evidence : Option PreWriteEvidence

structure ApprovalSuspension where
  checkpoint : ExecutionCheckpoint
  result     : ExecutionResult
  waiting    : result.status = .waitingForApproval

theorem approvalRequired_there : isRequiredText "APPROVAL_REQUIRED" = true :=
  isRequiredText_plain (by decide +kernel) (by decide)

def approvalRequired : RequiredText := ⟨"APPROVAL_REQUIRED", approvalRequired_there⟩

/-- What `suspend` returns. -/
def suspensionOf (ctx : Context) (r : ApprovalRequest) (checkpoint : ExecutionCheckpoint)
    (validated : Option (ValidationSummary × PreWriteEligibility)) : ApprovalSuspension where
  checkpoint := checkpoint
  result     :=
    { executionId         := ctx.request.executionId.text
      skillId             := ctx.skill.skillId
      skillVersion        := ctx.skill.skillVersion
      semanticHash        := ctx.skill.semanticHash
      status              := .waitingForApproval
      completeness        := ctx.resultCompleteness .waitingForApproval
      checks              := ctx.checks
      outputs             := ctx.outputs
      resources           := ctx.usage
      error               := none
      validation          := validated.map (·.1)
      preWriteEligibility := validated.map (·.2)
      approval            := some ⟨.pending, r.approvalId.text, some r.approvalRequestId⟩
      suspension          := some ⟨approvalRequired, checkpoint.checkpointVersion, r.approvalId, r.approvalRequestId,
        checkpoint.versionPositive⟩ }
  waiting    := rfl

/-- The checks of `suspend` and what staging makes of the context: nothing is written before they all pass. -/
def admitSuspend (ctx : Context) (call : SuspendCall) :
    Except Exn (Option (ValidationSummary × PreWriteEligibility) × Context) := do
  validateRequestBindings ctx call.request
  let validated ← validatedPreWrite ctx call.evidence
  let staged ← stageSuspend ctx call.request
  return (validated, staged)

variable (coordinator : CheckpointCoordinator) (ports : SuspendPorts)

/-- `ApprovalSuspensionCoordinator.suspend` -/
def suspend (call : SuspendCall) : SuspendRun ApprovalSuspension := do
  let ctx ← Run.look (·.ctx)
  let (validated, staged) ← Run.ofExcept (admitSuspend ctx call)
  putContext staged
  let (checkpoint, captured) ← Run.ofExcept (coordinator.capture staged)
  putContext captured
  noteEvent (.save checkpoint)
  let log ← Run.look (·.log)
  Run.ofExcept (ports.save log)
  noteEvent (.publish call.request)
  let log ← Run.look (·.log)
  Run.ofExcept (ports.publish log)
  putContext { captured with checkpoint := { captured.checkpoint with approvalRequestPublished := true } }
  Run.done (suspensionOf captured call.request checkpoint validated)

/-- Calls of `suspend` on one context, one after the other, however each of them ends. -/
def suspendAll (calls : List SuspendCall) (s : SuspendState) : SuspendState :=
  calls.foldl (fun s call => (suspend coordinator ports call s).final) s

/-! ## What is published -/

/-- A context binds the node of a request to the request, whose approval it awaits. -/
structure BindsRequest (ctx : Context) (r : ApprovalRequest) : Prop where
  requestId : ctx.checkpoint.approvalRequestIdsByWriteNode.get? r.writeNodeId.text = some r.approvalRequestId.text
  intent    : ctx.checkpoint.writeIntentHashesByWriteNode.get? r.writeNodeId.text = some r.writeIntentHash.text
  payload   : ctx.checkpoint.payloadHashesByWriteNode.get? r.writeNodeId.text = some r.payloadHash.text
  pending   : ctx.approvals.get? r.approvalId.text = some .pending

/-- The last call was a successful save of a checkpoint whose state binds the request. -/
def SavedFor (log : List SuspendEvent) (r : ApprovalRequest) : Prop :=
  ∃ earlier checkpoint ctx, log = earlier ++ [.save checkpoint] ∧ ports.save log = .ok () ∧
    statePayload ctx checkpoint.checkpointVersion = .ok checkpoint.statePayload ∧ BindsRequest ctx r

/-- **Every request was saved before it was published.** -/
def PublishesSaved (log : List SuspendEvent) : Prop :=
  ∀ before r after, log = before ++ .publish r :: after → SavedFor ports before r

variable {coordinator ports}

theorem staged_binds (ctx : Context) (r : ApprovalRequest) : BindsRequest (ctx.staged r) r where
  requestId := Dict.get?_set_self _ _ _
  intent    := Dict.get?_set_self _ _ _
  payload   := Dict.get?_set_self _ _ _
  pending   := Dict.get?_set_self _ _ _

theorem capture_eq_ok {ctx captured : Context} {checkpoint : ExecutionCheckpoint}
    (h : coordinator.capture ctx = .ok (checkpoint, captured)) :
    statePayload ctx checkpoint.checkpointVersion = .ok checkpoint.statePayload ∧
      captured = { ctx with checkpoint := { ctx.checkpoint with checkpointVersion := ctx.checkpoint.checkpointVersion + 1 } } := by
  unfold CheckpointCoordinator.capture at h
  split at h
  · cases h
  · obtain ⟨payload, hpayload, h⟩ := Stateful.bind_eq_ok h
    obtain ⟨c, hcreate, h⟩ := Stateful.bind_eq_ok h
    cases h
    unfold ExecutionCheckpoint.create at hcreate
    dsimp only at hcreate
    split at hcreate
    · cases hcreate
    · split at hcreate
      · cases hcreate
        exact ⟨hpayload, rfl⟩
      · cases hcreate

/-- How a call leaves the bindings and the approvals of a context: as they were staged, or, refused, as they were. -/
structure SameBindings (c d : Context) : Prop where
  requestIds : d.checkpoint.approvalRequestIdsByWriteNode = c.checkpoint.approvalRequestIdsByWriteNode
  intents    : d.checkpoint.writeIntentHashesByWriteNode = c.checkpoint.writeIntentHashesByWriteNode
  payloads   : d.checkpoint.payloadHashesByWriteNode = c.checkpoint.payloadHashesByWriteNode
  approvals  : d.approvals = c.approvals

theorem sameBindings_refl (c : Context) : SameBindings c c := ⟨rfl, rfl, rfl, rfl⟩

@[simp] theorem write_andThen_final {α : Type} (f : SuspendState → SuspendState) (g : Unit → SuspendRun α) (s : SuspendState) :
    (Run.andThen (Run.write f) g s).final = (g () (f s)).final := rfl

theorem admitSuspend_staged {ctx staged : Context} {call : SuspendCall}
    {validated : Option (ValidationSummary × PreWriteEligibility)} (h : admitSuspend ctx call = .ok (validated, staged)) :
    staged = ctx.staged call.request ∧ ∀ id,
      ctx.checkpoint.approvalRequestIdsByWriteNode.get? call.request.writeNodeId.text = some id →
      id = call.request.approvalRequestId.text := by
  unfold admitSuspend at h
  obtain ⟨u, -, h⟩ := Stateful.bind_eq_ok h
  obtain ⟨v, -, h⟩ := Stateful.bind_eq_ok h
  obtain ⟨d, hd, h⟩ := Stateful.bind_eq_ok h
  cases h
  unfold stageSuspend at hd
  split at hd
  · cases hd
  · rename_i hbound
    cases hd
    refine ⟨rfl, fun id hid => ?_⟩
    by_contra hne
    rw [hid, Option.any_some, decide_eq_true_eq] at hbound
    exact hbound hne

/-- A call that is refused leaves everything as it was. -/
theorem suspend_refused {call : SuspendCall} {s : SuspendState} {e : Exn} (h : admitSuspend s.ctx call = .error e) :
    (suspend coordinator ports call s).final = s := by
  unfold suspend
  simp only [Run.bind_eq, Run.look_andThen, h, Run.ofExcept, Run.andThen_fail]
  rfl

/-- What a call that is admitted leaves behind, wherever it stops. -/
structure SuspendDone (ports : SuspendPorts) (s t : SuspendState) (r : ApprovalRequest) : Prop where
  bindings : SameBindings (s.ctx.staged r) t.ctx
  kept     : t.ctx = { s.ctx.staged r with checkpoint := t.ctx.checkpoint }
  log      : t.log = s.log ∨ (∃ c, t.log = s.log ++ [.save c]) ∨
    ∃ c, SavedFor ports (s.log ++ [.save c]) r ∧ t.log = s.log ++ [.save c] ++ [.publish r]

/-- **An admitted call publishes what it saved**, and it stages its request whether or not it gets that far. -/
theorem suspend_admitted (coordinator : CheckpointCoordinator) (ports : SuspendPorts) {call : SuspendCall} {s : SuspendState} {staged : Context}
    {validated : Option (ValidationSummary × PreWriteEligibility)} (h : admitSuspend s.ctx call = .ok (validated, staged)) :
    SuspendDone ports s (suspend coordinator ports call s).final call.request := by
  obtain ⟨rfl, -⟩ := admitSuspend_staged h
  unfold suspend
  simp only [Run.bind_eq, Run.look_andThen, h, Run.ofExcept, Run.andThen_done, putContext, noteEvent, write_andThen_final]
  rcases hcapture : coordinator.capture (s.ctx.staged call.request) with e | ⟨checkpoint, captured⟩
  · exact ⟨sameBindings_refl _, rfl, .inl rfl⟩
  · obtain ⟨hpayload, rfl⟩ := capture_eq_ok hcapture
    simp only [Run.andThen_done, write_andThen_final, Run.look_andThen]
    rcases hsave : ports.save (s.log ++ [.save checkpoint]) with e | u
    · simp only [hsave, Run.andThen_fail]
      exact ⟨⟨rfl, rfl, rfl, rfl⟩, rfl, .inr (.inl ⟨checkpoint, rfl⟩)⟩
    · have hsaved : SavedFor ports (s.log ++ [.save checkpoint]) call.request :=
        ⟨s.log, checkpoint, _, rfl, hsave, hpayload, staged_binds _ _⟩
      simp only [hsave, Run.andThen_done, write_andThen_final, Run.look_andThen]
      rcases hpublish : ports.publish (s.log ++ [.save checkpoint] ++ [.publish call.request]) with e | u
      · simp only [hpublish, Run.andThen_fail]
        exact ⟨⟨rfl, rfl, rfl, rfl⟩, rfl, .inr (.inr ⟨checkpoint, hsaved, rfl⟩)⟩
      · simp only [hpublish, Run.andThen_done, write_andThen_final]
        exact ⟨⟨rfl, rfl, rfl, rfl⟩, rfl, .inr (.inr ⟨checkpoint, hsaved, rfl⟩)⟩

/-! ## What a call changes -/

/-- The bindings of a node. -/
def Context.nodeBindings (ctx : Context) (node : String) : Option String × Option String × Option String :=
  (ctx.checkpoint.approvalRequestIdsByWriteNode.get? node, ctx.checkpoint.writeIntentHashesByWriteNode.get? node,
    ctx.checkpoint.payloadHashesByWriteNode.get? node)

/-- An approval that a person or the time decided. -/
def ApprovalStatus.isDecided : ApprovalStatus → Bool
  | .approved | .rejected | .expired => true
  | .notRequested | .pending         => false

/-- **Nothing bound changes and nothing decided is pending again.** -/
structure KeepsBound (c d : Context) : Prop where
  bindings : ∀ node, c.checkpoint.approvalRequestIdsByWriteNode.get? node ≠ none → d.nodeBindings node = c.nodeBindings node
  decided  : ∀ approvalId status, c.approvals.get? approvalId = some status → status.isDecided = true →
    d.approvals.get? approvalId ≠ some .pending

/-- A request that repeats the binding of its node, if the node has one, and whose approval is not decided. -/
structure RepeatsBinding (ctx : Context) (r : ApprovalRequest) : Prop where
  bindings  : ctx.checkpoint.approvalRequestIdsByWriteNode.get? r.writeNodeId.text ≠ none →
    ctx.checkpoint.writeIntentHashesByWriteNode.get? r.writeNodeId.text = some r.writeIntentHash.text ∧
    ctx.checkpoint.payloadHashesByWriteNode.get? r.writeNodeId.text = some r.payloadHash.text
  undecided : ∀ status, ctx.approvals.get? r.approvalId.text = some status → status.isDecided = false

theorem staged_nodeBindings {ctx d : Context} {r : ApprovalRequest} (hd : SameBindings (ctx.staged r) d) :
    d.nodeBindings r.writeNodeId.text =
      (some r.approvalRequestId.text, some r.writeIntentHash.text, some r.payloadHash.text) := by
  unfold Context.nodeBindings
  rw [hd.requestIds, hd.intents, hd.payloads, (staged_binds ctx r).requestId, (staged_binds ctx r).intent,
    (staged_binds ctx r).payload]

/-- **Staging keeps what is bound and decided exactly for a request that repeats the binding of its node.** -/
theorem staged_keeps_iff {ctx d : Context} {r : ApprovalRequest} (hd : SameBindings (ctx.staged r) d)
    (hid : ∀ id, ctx.checkpoint.approvalRequestIdsByWriteNode.get? r.writeNodeId.text = some id →
      id = r.approvalRequestId.text) : KeepsBound ctx d ↔ RepeatsBinding ctx r := by
  have hnode := staged_nodeBindings hd
  constructor
  · intro hkeeps
    refine ⟨fun hbound => ?_, fun status hstatus => ?_⟩
    · have hsame := hkeeps.bindings _ hbound
      rw [hnode] at hsame
      unfold Context.nodeBindings at hsame
      simp only [Prod.mk.injEq] at hsame
      exact ⟨hsame.2.1.symm, hsame.2.2.symm⟩
    · by_contra hdecided
      rw [Bool.not_eq_false] at hdecided
      refine hkeeps.decided _ status hstatus hdecided ?_
      rw [hd.approvals]
      exact (staged_binds ctx r).pending
  · intro hrepeats
    refine ⟨fun node hbound => ?_, fun approvalId status hstatus hdecided hpending => ?_⟩
    · by_cases hn : node = r.writeNodeId.text
      · subst hn
        obtain ⟨hintent, hpayload⟩ := hrepeats.bindings hbound
        obtain ⟨id, hsome⟩ := Option.ne_none_iff_exists'.1 hbound
        rw [hnode]
        unfold Context.nodeBindings
        rw [hsome, hid id hsome, hintent, hpayload]
      · unfold Context.nodeBindings
        rw [hd.requestIds, hd.intents, hd.payloads]
        simp only [Context.staged, Dict.get?_set_other _ _ hn]
    · rw [hd.approvals] at hpending
      by_cases ha : approvalId = r.approvalId.text
      · subst ha
        rw [hrepeats.undecided status hstatus] at hdecided
        cases hdecided
      · simp only [Context.staged, Dict.get?_set_other _ _ ha, hstatus, Option.some.injEq] at hpending
        rw [hpending] at hdecided
        cases hdecided

/-- One call keeps what is bound and decided exactly when it is refused or repeats the binding of its node. -/
theorem suspend_keeps_iff (call : SuspendCall) (s : SuspendState) :
    KeepsBound s.ctx (suspend coordinator ports call s).final.ctx ↔
      ((admitSuspend s.ctx call).isOk = true → RepeatsBinding s.ctx call.request) := by
  rcases hadmit : admitSuspend s.ctx call with e | ⟨validated, staged⟩
  · rw [suspend_refused hadmit]
    constructor
    · intro _ hok
      cases hok
    · intro _
      refine ⟨fun _ _ => rfl, fun approvalId status hstatus hdecided hpending => ?_⟩
      rw [hstatus, Option.some_inj] at hpending
      rw [hpending] at hdecided
      cases hdecided
  · have hdone := suspend_admitted coordinator ports hadmit
    rw [staged_keeps_iff hdone.bindings (admitSuspend_staged hadmit).2]
    exact ⟨fun h _ => h, fun h => h rfl⟩

theorem publishesSaved_snoc {log : List SuspendEvent} {event : SuspendEvent} (h : PublishesSaved ports log)
    (hevent : ∀ r, event = .publish r → SavedFor ports log r) : PublishesSaved ports (log ++ [event]) := by
  intro before r after heq
  rcases List.eq_nil_or_concat after with rfl | ⟨rest, last, rfl⟩
  · obtain ⟨rfl, hlast⟩ := List.append_inj' heq rfl
    exact hevent r (List.singleton_inj.1 hlast)
  · rw [List.concat_eq_append, ← List.cons_append, ← List.append_assoc] at heq
    obtain ⟨rfl, -⟩ := List.append_inj' heq rfl
    exact h before r rest rfl

theorem suspend_publishesSaved {s : SuspendState} (h : PublishesSaved ports s.log) (call : SuspendCall) :
    PublishesSaved ports (suspend coordinator ports call s).final.log := by
  rcases hadmit : admitSuspend s.ctx call with e | ⟨validated, staged⟩
  · rw [suspend_refused hadmit]
    exact h
  · have hdone := suspend_admitted coordinator ports hadmit
    have hsave : ∀ c, PublishesSaved ports (s.log ++ [.save c]) := fun c =>
      publishesSaved_snoc h (fun r hr => by cases hr)
    rcases hdone.log with hlog | ⟨c, hlog⟩ | ⟨c, hsaved, hlog⟩
    · rw [hlog]
      exact h
    · rw [hlog]
      exact hsave c
    · rw [hlog]
      refine publishesSaved_snoc (hsave c) (fun r hr => ?_)
      cases hr
      exact hsaved

/-- **No sequence of calls publishes a request that was not saved before.** -/
theorem suspendAll_publishesSaved (calls : List SuspendCall) : ∀ {s : SuspendState}, PublishesSaved ports s.log →
    PublishesSaved ports (suspendAll coordinator ports calls s).log := by
  induction calls with
  | nil => exact fun h => h
  | cons call calls ih => exact fun h => ih (suspend_publishesSaved h call)

/-- A skill whose hash is a digest. -/
def requestedSkill : SkillObject :=
  { SkillObject.ofBody "1.1" "0.2" ⟨1, 1, 1, 1, 1000⟩ [] with
    skillId := "requested-skill", semanticHash := (Digest.ofText "skill").text }

def requestedSkillId : RequiredText := .ofPlain "requested-skill"

def requestedApproval : RequiredText := .ofPlain "draft-approval"

def requestedId : RequiredText := .ofPlain "approval-1"

def requestedVersion : RequiredText := .ofPlain "1.0.0"

def requestedChecks : List CheckResult :=
  [⟨"BUDGET", .pass, "ERROR", "within budget", "n2", .present, .complete, [], none⟩]

/-- A context whose one check passed. -/
def requestedContext (approvals : Dict ApprovalStatus) : Context where
  skill     := requestedSkill
  request   := draftContext.request
  startedNs := 0
  checks    := requestedChecks
  approvals := approvals

/-- Evidence that asks for an approval. -/
def requestedEvidence : PreWriteEvidence where
  validation                  := ⟨.allPass, 1, 1, 0, 0, [], []⟩
  runtimePreflightPassed      := true
  currentPolicyAllowed        := true
  toolPreconditionsPassed     := true
  businessPreconditionsPassed := true
  intentBindingValid          := true
  idempotencyReady            := true
  durabilityReady             := true
  trustValid                  := true
  replayLiveWriteAllowed      := true
  summary                     := rfl

theorem noSummary_clean : findCredentialPath Platform.word "$" (.dict (Dict.empty : Dict Value).entries) = none := rfl

omit [Platform] in
theorem noSummary_safe : areSafeFields (Dict.empty : Dict Value).entries = true := rfl

/-- The request of the draft, for an intent. -/
def requestedDraft (intent : RequiredText) : ApprovalRequest where
  tenantId            := draftTenant
  executionId         := draftContext.request.executionId
  businessOperationId := draftOperation
  approvalId          := requestedApproval
  approvalRequestId   := requestedId
  skillId             := requestedSkillId
  skillVersion        := requestedVersion
  skillSemanticHash   := .ofText "skill"
  writeNodeId         := draftNode
  toolId              := draftTool
  payloadHash         := .ofText intent.text
  writeIntentHash     := intent
  riskLevel           := .r3
  message             := requestedApproval
  expiresAt           := none
  displaySafeSummary  := Dict.empty
  protectedPayloadRef := none
  dataClassification  := .internal
  summaryClean        := noSummary_clean
  summarySafe         := noSummary_safe

def requestedCall (intent : RequiredText) : SuspendCall := ⟨requestedDraft intent, some requestedEvidence⟩

def firstIntent : RequiredText := .ofPlain "intent-1"

def secondIntent : RequiredText := .ofPlain "intent-2"

/-- The request is admitted as long as its node is bound to no other one. -/
theorem requestedCall_admitted (intent : RequiredText) {ctx : Context}
    (hskill : ctx.skill = requestedSkill) (hrequest : ctx.request = draftContext.request)
    (hchecks : ctx.checks = requestedChecks) (hcomplete : ctx.dataCompleteness = .complete)
    (hid : ∀ id, ctx.checkpoint.approvalRequestIdsByWriteNode.get? "draft-node" = some id → id = "approval-1") :
    admitSuspend ctx (requestedCall intent) =
      .ok (some (⟨.allPass, 1, 1, 0, 0, [], []⟩, .requiresApproval), ctx.staged (requestedDraft intent)) := by
  have hbound : validateRequestBindings ctx (requestedDraft intent) = .ok () := by
    unfold validateRequestBindings
    have hnone : (requestMismatches ctx (requestedDraft intent)).find? (·.2) = none := by
      unfold requestMismatches Context.tenantId
      rw [hskill, hrequest]
      simp [requestedDraft, draftContext, requestedSkill, requestedSkillId, ExecutionRequest.plain, ExecutionRequest.tenantId,
        SkillObject.ofBody, RequiredText.ofPlain, draftTenant, analyst, requestedVersion]
    rw [hnone]
  have hvalidated : validatedPreWrite ctx (some requestedEvidence) =
      .ok (some (⟨.allPass, 1, 1, 0, 0, [], []⟩, .requiresApproval)) := by
    have hsummary : ValidationSummary.fromChecks ctx.checks = .ok ⟨.allPass, 1, 1, 0, 0, [], []⟩ := by
      rw [hchecks]
      rfl
    have hversion : ctx.skill.languageVersion = "0.2" := by
      rw [hskill]
      rfl
    unfold validatedPreWrite
    rw [hversion, if_neg (not_not.2 rfl)]
    refine (Stateful.bind_ok hsummary _).trans ?_
    rw [hcomplete]
    rfl
  have hstaged : stageSuspend ctx (requestedDraft intent) = .ok (ctx.staged (requestedDraft intent)) := by
    unfold stageSuspend
    refine if_neg (fun hany => ?_)
    obtain ⟨id, hsome, hne⟩ := (Option.any_eq_true _ _).1 hany
    exact (of_decide_eq_true hne) (hid id hsome)
  unfold admitSuspend
  refine (Stateful.bind_ok hbound _).trans ?_
  refine (Stateful.bind_ok hvalidated _).trans ?_
  exact Stateful.bind_ok hstaged _

/-- What a call on the context leaves behind. -/
theorem requestedCall_done (coordinator : CheckpointCoordinator) (ports : SuspendPorts) (intent : RequiredText)
    (approvals : Dict ApprovalStatus) : SuspendDone ports ⟨requestedContext approvals, []⟩
      (suspend coordinator ports (requestedCall intent) ⟨requestedContext approvals, []⟩).final (requestedDraft intent) :=
  suspend_admitted coordinator ports (s := ⟨requestedContext approvals, []⟩)
    (requestedCall_admitted intent rfl rfl rfl rfl (fun id h => (by cases h)))

/-- **A second call binds the node to another intent**, under the same request id. -/
theorem requestedTwice_rebinds (coordinator : CheckpointCoordinator) (ports : SuspendPorts) :
    (suspendAll coordinator ports [requestedCall firstIntent] ⟨requestedContext Dict.empty, []⟩).ctx.nodeBindings "draft-node" =
      (some "approval-1", some "intent-1", some (Digest.ofText "intent-1").text) ∧
    (suspendAll coordinator ports [requestedCall firstIntent, requestedCall secondIntent]
      ⟨requestedContext Dict.empty, []⟩).ctx.nodeBindings "draft-node" =
      (some "approval-1", some "intent-2", some (Digest.ofText "intent-2").text) := by
  have hfirst := requestedCall_done coordinator ports firstIntent Dict.empty
  have hbound := staged_nodeBindings hfirst.bindings
  have hbefore := congrArg Prod.fst hbound
  have hid : ∀ id, ((suspend coordinator ports (requestedCall firstIntent)
      ⟨requestedContext Dict.empty, []⟩).final.ctx.nodeBindings "draft-node").1 = some id → id = "approval-1" :=
    fun id h => Option.some_inj.1 (h.symm.trans hbefore)
  have hskill := congrArg Context.skill hfirst.kept
  have hrequest := congrArg Context.request hfirst.kept
  have hchecks := congrArg Context.checks hfirst.kept
  have hcomplete := congrArg Context.dataCompleteness hfirst.kept
  have hsecond := suspend_admitted coordinator ports (requestedCall_admitted secondIntent hskill hrequest hchecks hcomplete hid)
  exact ⟨hbound, staged_nodeBindings hsecond.bindings⟩

/-- **A rejected approval is pending again.** -/
theorem requestedAgain_reopens (coordinator : CheckpointCoordinator) (ports : SuspendPorts) :
    (suspendAll coordinator ports [requestedCall firstIntent]
      ⟨requestedContext (Dict.empty.set "draft-approval" .rejected), []⟩).ctx.approvals.get? "draft-approval" = some .pending := by
  have hdone := requestedCall_done coordinator ports firstIntent (Dict.empty.set "draft-approval" .rejected)
  show ((suspend coordinator ports (requestedCall firstIntent) _).final.ctx.approvals).get? "draft-approval" = _
  rw [hdone.bindings.approvals]
  exact (staged_binds _ (requestedDraft firstIntent)).pending

end Suspend

section Ascii

attribute [local instance] Platform.ascii

/-- Ports that take everything. -/
def openPorts : SuspendPorts := ⟨fun _ => .ok (), fun _ => .ok ()⟩

end Ascii

end Nsl
