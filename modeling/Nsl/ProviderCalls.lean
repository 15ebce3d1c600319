import Nsl.WriteExecution
/-!
# Provider calls — what holds of every call of a provider

- a trusted executor calls it at most once, after the preflight, the decision and the durable record (`trustedWrite_order`);
- the decision binds no intent: a request is bound to the context, and to the intent it was built from (`invoked_bound`);
- a called provider ends in one recorded outcome exactly when its answer can be settled (`executeCommitAwareWrite_settles`);
- the runtime never sends a WRITE again on its own: every call of the provider is the caller's (`performAll_invocations`).
-/
namespace Nsl

open Stateful (Run)

section Boundary

variable [Platform]

/-! ## One call of an executor -/

/-- A run that calls the provider at most once, with its own request and an allowed decision, and keeps the journal. -/
def CallsOnce (request : WriteCallRequest) (decision : WriteGuardDecision) (s t : WriteState) : Prop :=
  s.ctx.writes <+: t.ctx.writes ∧ ∃ new, t.log = s.log ++ new ∧
    ((∀ ev ∈ new, ev.isInvocation = false) ∨
      decision.eligibility = .allowed ∧ ∃ before after, new = before ++ .invoked request :: after ∧
        (∀ ev ∈ before ++ after, ev.isInvocation = false))

section Calls

variable {ports : WritePorts} {request : WriteCallRequest} {decision : WriteGuardDecision}
  {requestedAt recordedAt : Calendar.DateTime} {s : WriteState}

theorem Stopped.final {α : Type} {t : Stateful.Trace WriteState WriteFault α} (h : Stopped s t) : t.final.ctx = s.ctx ∧
    ∃ new, t.final.log = s.log ++ new ∧ ∀ ev ∈ new, ev.isInvocation = false := by
  obtain ⟨w, e, more, rfl, hmore, -⟩ := h
  exact ⟨rfl, more, rfl, hmore⟩

theorem Stopped.callsOnce {α : Type} {t : Stateful.Trace WriteState WriteFault α} (h : Stopped s t) :
    CallsOnce request decision s t.final := by
  obtain ⟨hctx, new, hlog, hnew⟩ := h.final
  exact ⟨hctx ▸ List.prefix_rfl, new, hlog, .inl hnew⟩

/-- What was accepted before a call is no call. -/
theorem callsOnce_called {accepted : List WriteEvent} {record : WriteAttemptRecord} {t : WriteState}
    (haccepted : ∀ ev ∈ accepted, ev.isInvocation = false) (hd : decision.eligibility = .allowed)
    (h : Finalized (calledState request s accepted record) t) : CallsOnce request decision s t := by
  obtain ⟨more, hlog, hmore, -, hwrites⟩ := h
  refine ⟨hwrites, accepted ++ [.recordRequested record, .invoked request] ++ more, ?_, .inr ⟨hd,
    accepted ++ [.recordRequested record], more, by simp, ?_⟩⟩
  · rw [hlog, calledState, List.append_assoc]
  · intro ev hev
    rcases List.mem_append.1 hev with hev | hev
    · rcases List.mem_append.1 hev with hev | hev
      · exact haccepted ev hev
      · rw [List.mem_singleton.1 hev]
        rfl
    · exact hmore ev hev

theorem allowed_quiet (decision : WriteGuardDecision) : ∀ ev ∈ [WriteEvent.allowed decision], ev.isInvocation = false := by
  simp [WriteEvent.isInvocation]

theorem trusted_quiet (evidence : TrustPreflightEvidence) (decision : WriteGuardDecision) :
    ∀ ev ∈ [WriteEvent.trusted evidence, .allowed decision], ev.isInvocation = false := by
  simp [WriteEvent.isInvocation]

theorem executeWrite_callsOnce : CallsOnce request decision s (executeWrite ports request decision requestedAt s).final := by
  rcases executeWrite_cases ports request decision requestedAt s with hstop | ⟨record, receipt, hadmitted, hcalled⟩
  · exact hstop.callsOnce
  · rw [hcalled.final]
    exact callsOnce_called (allowed_quiet decision) hadmitted.decided (.refl _)

theorem executeCommitAwareWrite_callsOnce :
    CallsOnce request decision s (executeCommitAwareWrite ports request decision requestedAt recordedAt s).final := by
  rcases executeWrite_cases ports request decision requestedAt s with hstop | ⟨record, receipt, hadmitted, hcalled⟩
  · exact (executeCommitAware_stopped hstop).callsOnce
  · exact callsOnce_called (allowed_quiet decision) hadmitted.decided (executeCommitAware_final hcalled hadmitted.recorded)

theorem executeTrustedCommitAware_callsOnce {validateDocument : Value → Except Exn Unit}
    {trust : TrustCheck validateDocument} : CallsOnce request decision s
      (executeTrustedCommitAware trust ports request decision requestedAt recordedAt s).final := by
  rcases executeTrusted_cases trust ports request decision requestedAt s with
    hstop | ⟨evidence, record, receipt, -, -, hadmitted, hcalled⟩
  · exact (executeCommitAware_stopped hstop).callsOnce
  · exact callsOnce_called (trusted_quiet evidence decision) hadmitted.decided
      (executeCommitAware_final hcalled hadmitted.recorded)

end Calls

/-! ## The order of a trusted call -/

/-- **A trusted executor calls the provider at most once**, and only after the preflight accepted the artifact for this
context, the decision was allowed and a durable receipt of this request's record was given, in this order; without a call
the flag of the durable request stays as it was. -/
theorem trustedWrite_order {validateDocument : Value → Except Exn Unit} (trust : TrustCheck validateDocument)
    (ports : WritePorts) (request : WriteCallRequest) (decision : WriteGuardDecision)
    (requestedAt recordedAt : Calendar.DateTime) (s : WriteState) :
    ∃ new, (executeTrustedCommitAware trust ports request decision requestedAt recordedAt s).final.log = s.log ++ new ∧
      ((∀ ev ∈ new, ev.isInvocation = false) ∧
        (executeTrustedCommitAware trust ports request decision requestedAt recordedAt
          s).final.ctx.checkpoint.writeRequestDurable = s.ctx.checkpoint.writeRequestDurable ∨
      ∃ evidence record receipt after,
        new = .trusted evidence :: .allowed decision :: .recordRequested record :: .invoked request :: after ∧
        (∀ ev ∈ after, ev.isInvocation = false) ∧
        preflightValidate validateDocument trust.artifact trust.profile trust.checkedAt = .ok evidence ∧
        evidence.tenantId.text = s.ctx.tenantId ∧ evidence.skillSemanticHash = s.ctx.skill.semanticHash ∧
        decision.eligibility = .allowed ∧
        WriteAttemptRecord.fromRequest request requestedAt = .ok record ∧
        ports.recordRequested (s.log ++ [.trusted evidence, .allowed decision]) record = .answer receipt ∧
        receipt.recordHash = record.recordHash ∧ receipt.durable = true ∧
        record.requestedAt.stamp ≤ receipt.persistedAt.stamp) := by
  rcases executeTrusted_cases trust ports request decision requestedAt s with
    hstop | ⟨evidence, record, receipt, hpreflight, htrust, hadmitted, hcalled⟩
  · have hstopped : Stopped s (executeTrustedCommitAware trust ports request decision requestedAt recordedAt s) :=
      executeCommitAware_stopped hstop
    obtain ⟨hctx, new, hlog, hnew⟩ := hstopped.final
    exact ⟨new, hlog, .inl ⟨hnew, by rw [hctx]⟩⟩
  · have hfinal : Finalized (calledState request s [.trusted evidence, .allowed decision] record)
        (executeTrustedCommitAware trust ports request decision requestedAt recordedAt s).final :=
      executeCommitAware_final hcalled hadmitted.recorded
    obtain ⟨more, hlog, hmore, -, -⟩ := hfinal
    obtain ⟨htenant, hsemantic⟩ := requireTrust_ok htrust
    obtain ⟨hhash, hdurable, hlater⟩ := requireReceipt_ok hadmitted.faithful
    refine ⟨_, ?_, .inr ⟨evidence, record, receipt, more, rfl, hmore, hpreflight, htenant, hsemantic, hadmitted.decided,
      hadmitted.recorded, hadmitted.answered, hhash, hdurable, hlater⟩⟩
    rw [hlog, calledState, List.append_assoc]
    rfl

/-! ## Whose request is sent -/

/-- What the builder checked of a request it built. -/
theorem buildWriteCall_ok {intent : WriteIntent} {ctx : Context} {contract : WriteContractEvidence}
    {reservation : IdempotencyReservation} {approvalRequestId invocationId : RequiredText}
    {preconditions : BusinessPreconditionEvidence} {traceRefs : EvidenceRefs} {request : WriteCallRequest}
    (h : buildWriteCall intent ctx contract reservation approvalRequestId invocationId preconditions traceRefs = .ok request) :
    callPreconditionMatches preconditions intent contract = true ∧ request.businessPreconditions = preconditions ∧
      request.tenantId = intent.tenantId ∧ request.businessOperationId = intent.businessOperationId ∧
      request.nodeId = intent.nodeId ∧ request.payloadHash = intent.payloadHash ∧
      request.writeIntentHash = intent.writeIntentHash := by
  unfold buildWriteCall at h
  split at h
  · cases h
  split at h
  · cases h
  split at h
  · cases h
  split at h
  · cases h
  split at h
  · cases h
  · rename_i hprecondition
    rw [Bool.not_eq_false] at hprecondition
    cases h
    exact ⟨hprecondition, rfl, rfl, rfl, rfl, rfl, rfl⟩

/-- **A request that is sent is one of the coordinator's context, with an allowed decision and a durable record.** Which
intent the decision was made for is the caller's matter: where it is the one the request was built from, the request carries
its tenant, business operation, node, payload and intent, and preconditions bound to them. -/
theorem invoked_bound (ports : WritePorts) (request : WriteCallRequest) (decision : WriteGuardDecision)
    (requestedAt : Calendar.DateTime) (s : WriteState) :
    ∃ new, (executeWrite ports request decision requestedAt s).final.log = s.log ++ new ∧
      ∀ sent, WriteEvent.invoked sent ∈ new → sent = request ∧ decision.eligibility = .allowed ∧
        sent.executionId = s.ctx.request.executionId ∧ sent.tenantId.text = s.ctx.tenantId ∧
        s.ctx.request.businessOperationId = some sent.businessOperationId ∧
        computePayloadHash sent.arguments = .ok sent.payloadHash ∧
        (∃ record receipt, WriteAttemptRecord.fromRequest sent requestedAt = .ok record ∧
          receipt.recordHash = record.recordHash ∧ receipt.durable = true ∧
          ports.recordRequested (s.log ++ [.allowed decision]) record = .answer receipt) ∧
        ∀ (g : WriteGuard) r now ctx reservation approvalRequestId invocationId preconditions traceRefs,
          g.evaluate r now = .ok decision →
          buildWriteCall r.intent ctx r.contractEvidence reservation approvalRequestId invocationId preconditions traceRefs =
            .ok request →
          sent.tenantId = r.intent.tenantId ∧ sent.businessOperationId = r.intent.businessOperationId ∧
          sent.nodeId = r.intent.nodeId ∧ sent.payloadHash = r.intent.payloadHash ∧
          sent.writeIntentHash = r.intent.writeIntentHash ∧
          callPreconditionMatches sent.businessPreconditions r.intent r.contractEvidence = true := by
  rcases executeWrite_cases ports request decision requestedAt s with hstop | ⟨record, receipt, hadmitted, hcalled⟩
  · obtain ⟨-, new, hlog, hnew⟩ := hstop.final
    exact ⟨new, hlog, fun sent hsent => absurd (hnew _ hsent) (by simp [WriteEvent.isInvocation])⟩
  · obtain ⟨hexecution, htenant, hoperation⟩ := requireIdentity_ok hadmitted.identity
    obtain ⟨hhash, hdurable, -⟩ := requireReceipt_ok hadmitted.faithful
    refine ⟨_, by rw [hcalled.final]; rfl, fun sent hsent => ?_⟩
    have hsent : sent = request := by simpa using hsent
    subst hsent
    refine ⟨rfl, hadmitted.decided, hexecution, htenant, hoperation, sent.payload,
      ⟨record, receipt, hadmitted.recorded, hhash, hdurable, hadmitted.answered⟩, ?_⟩
    intro g r now ctx reservation approvalRequestId invocationId preconditions traceRefs _ hbuilt
    obtain ⟨hprecondition, hpreconditions, htenant', hoperation', hnode, hpayload, hintent⟩ := buildWriteCall_ok hbuilt
    exact ⟨htenant', hoperation', hnode, hpayload, hintent, hpreconditions ▸ hprecondition⟩

/-! ## How a call ends -/

/-- **A provider's answer that can be settled**: no interpreter exit, an outcome of this request where it is one, the
request's own reservation in the context and a time of record in UTC. -/
structure Settles (request : WriteCallRequest) (ctx : Context) (recordedAt : Calendar.DateTime) (answer : ProviderAnswer) :
    Prop where
  returns  : answer ≠ .exit
  identity : ∀ o, answer = .outcome o → o.identity = .fromRequest request
  key      : ctx.idempotency.keysByWriteNode.get? request.nodeId.text = some request.idempotencyKey.text
  payload  : ctx.idempotency.payloadHashesByWriteNode.get? request.nodeId.text = some request.payloadHash.text
  utc      : recordedAt.isUtc = true

/-- The port persists what it is given and answers with a faithful receipt. -/
def WritePorts.RecordsOutcomes (ports : WritePorts) : Prop :=
  ∀ log record, ∃ receipt, ports.recordOutcome log record = .answer receipt ∧ receipt.recordHash.text = record.recordHash ∧
    record.recordedAt.stamp ≤ receipt.persistedAt.stamp

section Settling

variable {ports : WritePorts} {request : WriteCallRequest} {recordedAt : Calendar.DateTime} {s : WriteState}
  {outcome : WriteExecutionOutcome} {h : Digest}

theorem requireOutcome_iff {ctx : Context} : requireOutcome request ctx outcome = .ok () ↔
    outcome.identity = .fromRequest request ∧ request.executionId = ctx.request.executionId ∧
      ctx.tenantId = request.tenantId.text ∧ ctx.request.businessOperationId = some request.businessOperationId ∧
      ctx.idempotency.keysByWriteNode.get? request.nodeId.text = some request.idempotencyKey.text ∧
      ctx.idempotency.payloadHashesByWriteNode.get? request.nodeId.text = some request.payloadHash.text := by
  unfold requireOutcome
  by_cases hidentity : outcome.identity = .fromRequest request
  swap
  · simp [hidentity]
  by_cases hexecution : request.executionId = ctx.request.executionId
  swap
  · simp [hidentity, hexecution]
  by_cases htenant : ctx.tenantId = request.tenantId.text
  swap
  · simp [hidentity, hexecution, htenant]
  by_cases hoperation : ctx.request.businessOperationId = some request.businessOperationId
  swap
  · simp [hidentity, hexecution, htenant, hoperation]
  by_cases hkey : ctx.idempotency.keysByWriteNode.get? request.nodeId.text = some request.idempotencyKey.text
  swap
  · simp [hidentity, hexecution, htenant, hoperation, hkey]
  by_cases hpayload : ctx.idempotency.payloadHashesByWriteNode.get? request.nodeId.text = some request.payloadHash.text
  · simp [hidentity, hexecution, htenant, hoperation, hkey, hpayload]
  · simp [hidentity, hexecution, htenant, hoperation, hkey, hpayload]

omit [Platform] in
theorem except_unit {ε : Type} {x : Except ε Unit} (hx : x ≠ .ok ()) : ∃ e, x = .error e := by
  cases x with
  | error e => exact ⟨e, rfl⟩
  | ok u    => exact absurd rfl hx

/-- An outcome that passes the checks is recorded, once, and is in the journal. -/
theorem finalizeWrite_settled (hports : ports.RecordsOutcomes) (hok : requireOutcome request s.ctx outcome = .ok ())
    (hutc : recordedAt.isUtc = true) : ∃ ref,
      (finalizeWrite ports request h outcome recordedAt s).final =
        ⟨{ s.ctx with writes := s.ctx.writes ++ [.entry ⟨outcomeRecord h outcome ⟨recordedAt, hutc⟩, ref⟩] },
          s.log ++ [.recordOutcome (outcomeRecord h outcome ⟨recordedAt, hutc⟩)]⟩ ∧
      (finalizeWrite ports request h outcome recordedAt s).outcome =
        .ok (commitDecision request outcome (outcomeRecord h outcome ⟨recordedAt, hutc⟩)) := by
  obtain ⟨receipt, hanswer, hhash, hlater⟩ := hports s.log (outcomeRecord h outcome ⟨recordedAt, hutc⟩)
  have hrecorded : writeUtc recordedAt "WriteOutcomeRecord.recorded_at" = .ok ⟨recordedAt, hutc⟩ := dif_pos hutc
  have hreceipt : receiptOf (ports.recordOutcome s.log (outcomeRecord h outcome ⟨recordedAt, hutc⟩))
      (.outcome "outcome persistence returned an invalid receipt") = .ok receipt := by
    rw [hanswer]
    rfl
  have hfaithful : requireOutcomeReceipt receipt (outcomeRecord h outcome ⟨recordedAt, hutc⟩) = .ok () := by
    unfold requireOutcomeReceipt
    rw [if_neg (not_not.2 hhash), if_neg (Nat.not_lt.2 hlater)]
  refine ⟨receipt.durableRef, ?_⟩
  unfold finalizeWrite
  simp only [Run.bind_eq]
  rw [Run.look_andThen, check_andThen hok, check_andThen hrecorded, Run.look_andThen, report_andThen]
  dsimp only
  rw [check_andThen hreceipt, check_andThen hfaithful, updateCtx_andThen]
  exact ⟨rfl, rfl⟩

/-- An outcome that does not pass leaves no trace. -/
theorem finalizeWrite_refused (hrefused : requireOutcome request s.ctx outcome ≠ .ok () ∨ recordedAt.isUtc = false) :
    (finalizeWrite ports request h outcome recordedAt s).final = s ∧
      ∃ e, (finalizeWrite ports request h outcome recordedAt s).outcome = .error e := by
  unfold finalizeWrite
  simp only [Run.bind_eq]
  rw [Run.look_andThen]
  by_cases hok : requireOutcome request s.ctx outcome = .ok ()
  · have hutc : recordedAt.isUtc = false := hrefused.resolve_left (not_not.2 hok)
    obtain ⟨e, he⟩ : ∃ e, writeUtc recordedAt "WriteOutcomeRecord.recorded_at" = .error e := by
      unfold writeUtc
      rw [dif_neg (by rw [hutc]; decide)]
      split <;> exact ⟨_, rfl⟩
    rw [check_andThen hok, he]
    exact ⟨rfl, e, rfl⟩
  · obtain ⟨e, he⟩ := except_unit hok
    rw [he]
    exact ⟨rfl, e, rfl⟩

theorem uncertainOutcome_identity (request : WriteCallRequest) (reason : RequiredText) :
    (uncertainOutcome request reason).identity = .fromRequest request := rfl

/-- The outcome an executor goes on with passes the checks exactly where the answer can be settled. -/
theorem settles_iff {answer : ProviderAnswer} {ctx : Context} (hidentity : requireIdentity request ctx = .ok ())
    (hsettled : answer.settled request = some outcome) : Settles request ctx recordedAt answer ↔
      requireOutcome request ctx outcome = .ok () ∧ recordedAt.isUtc = true := by
  obtain ⟨hexecution, htenant, hoperation⟩ := requireIdentity_ok hidentity
  have hsame : (∀ o, answer = .outcome o → o.identity = .fromRequest request) ↔
      outcome.identity = .fromRequest request := by
    cases answer with
    | outcome o =>
      cases hsettled
      exact ⟨fun ho => ho _ rfl, fun ho o' ho' => by cases ho'; exact ho⟩
    | exit => cases hsettled
    | _ =>
      cases hsettled
      exact ⟨fun _ => rfl, fun _ o' ho' => by cases ho'⟩
  have hreturns : answer ≠ .exit := by
    rintro rfl
    cases hsettled
  rw [requireOutcome_iff]
  constructor
  · rintro ⟨-, hid, hkey, hpayload, hutc⟩
    exact ⟨⟨hsame.1 hid, hexecution, htenant.symm, hoperation, hkey, hpayload⟩, hutc⟩
  · rintro ⟨⟨hid, -, -, -, hkey, hpayload⟩, hutc⟩
    exact ⟨hreturns, hsame.2 hid, hkey, hpayload, hutc⟩

variable {accepted : List WriteEvent} {attempt : WriteAttemptRecord} {requestedAt : Calendar.DateTime}
  {invocation : WriteRun (Option WriteExecutionOutcome)}

/-- The outcome a provider's answer is settled with is recorded once. -/
theorem executeCommitAware_recorded (hports : ports.RecordsOutcomes) (hidentity : requireIdentity request s.ctx = .ok ())
    (hattempt : WriteAttemptRecord.fromRequest request requestedAt = .ok attempt)
    (hcalled : Called ports request s accepted attempt (invocation s))
    (hsettles : Settles request s.ctx recordedAt (ports.answerTo request s accepted attempt)) :
    ∃ record ref d, record.requestedRecordHash = attempt.recordHash ∧
      (executeCommitAware invocation ports request requestedAt recordedAt s).final =
        ⟨{ s.ctx.writeRequested with writes := s.ctx.writes ++ [.entry ⟨record, ref⟩] },
          s.log ++ (accepted ++ [.recordRequested attempt, .invoked request, .recordOutcome record])⟩ ∧
      (executeCommitAware invocation ports request requestedAt recordedAt s).outcome = .ok d ∧
      d.writeSummary.commitState = record.commitState ∧
      (ports.answerTo request s accepted attempt).settled request = some d.outcome ∧ record.identity = d.outcome.identity := by
  have hended := @executeCommitAware_called _ ports request requestedAt recordedAt invocation s accepted attempt hcalled hattempt
  cases hsettled : (ports.answerTo request s accepted attempt).settled request with
  | none =>
    cases hanswer : ports.answerTo request s accepted attempt with
    | exit => exact absurd hanswer hsettles.returns
    | _    => rw [hanswer] at hsettled; cases hsettled
  | some outcome =>
    rw [hsettled] at hended
    obtain ⟨hfinal, houtcome⟩ := hended
    obtain ⟨hok, hutc⟩ := (settles_iff hidentity hsettled).1 hsettles
    -- the flag of the durable request is nothing the checks look at
    have hok' : requireOutcome request (calledState request s accepted attempt).ctx outcome = .ok () := hok
    obtain ⟨ref, hstate, hdecision⟩ := @finalizeWrite_settled _ ports request recordedAt
      (calledState request s accepted attempt) outcome attempt.recordHash hports hok' hutc
    refine ⟨outcomeRecord attempt.recordHash outcome ⟨recordedAt, hutc⟩, ref, _, ?_, ?_, houtcome.trans hdecision, ?_, rfl, ?_⟩
    · cases outcome <;> rfl
    · rw [hfinal, hstate]
      simp only [calledState, List.append_assoc]
      rfl
    · exact (outcomeRecord_commitState _ _ _).symm
    · cases outcome <;> rfl

/-- An answer that cannot be settled ends in an error and leaves no trace. -/
theorem executeCommitAware_refused (hidentity : requireIdentity request s.ctx = .ok ())
    (hattempt : WriteAttemptRecord.fromRequest request requestedAt = .ok attempt)
    (hcalled : Called ports request s accepted attempt (invocation s))
    (hnot : ¬ Settles request s.ctx recordedAt (ports.answerTo request s accepted attempt)) :
    (executeCommitAware invocation ports request requestedAt recordedAt s).final = calledState request s accepted attempt ∧
      ∃ e, (executeCommitAware invocation ports request requestedAt recordedAt s).outcome = .error e := by
  have hended := @executeCommitAware_called _ ports request requestedAt recordedAt invocation s accepted attempt hcalled hattempt
  cases hsettled : (ports.answerTo request s accepted attempt).settled request with
  | none =>
    rw [hsettled] at hended
    exact ⟨hended.1, _, hended.2⟩
  | some outcome =>
    rw [hsettled] at hended
    obtain ⟨hfinal, houtcome⟩ := hended
    rw [settles_iff hidentity hsettled] at hnot
    have hrefused : requireOutcome request (calledState request s accepted attempt).ctx outcome ≠ .ok () ∨
        recordedAt.isUtc = false := by
      by_cases hok : requireOutcome request s.ctx outcome = .ok ()
      · exact .inr (by simpa using fun hutc => hnot ⟨hok, hutc⟩)
      · exact .inl hok
    obtain ⟨hstate, e, he⟩ := @finalizeWrite_refused _ ports request recordedAt (calledState request s accepted attempt)
      outcome attempt.recordHash hrefused
    exact ⟨hfinal.trans hstate, e, houtcome.trans he⟩

end Settling

/-- **A called provider's answer ends in one recorded outcome, one journal entry and a decision where it can be settled**,
and otherwise in an error, with no outcome recorded and the journal as it was. -/
theorem executeCommitAwareWrite_settles {ports : WritePorts} (hports : ports.RecordsOutcomes) (request : WriteCallRequest)
    (decision : WriteGuardDecision) (requestedAt recordedAt : Calendar.DateTime) (s : WriteState) :
    (∃ new, (executeCommitAwareWrite ports request decision requestedAt recordedAt s).final.log = s.log ++ new ∧
      ∀ ev ∈ new, ev.isInvocation = false) ∨
    ∃ attempt, WriteAttemptRecord.fromRequest request requestedAt = .ok attempt ∧
      (Settles request s.ctx recordedAt (ports.answerTo request s [.allowed decision] attempt) →
        ∃ record ref d, record.requestedRecordHash = attempt.recordHash ∧
          (executeCommitAwareWrite ports request decision requestedAt recordedAt s).final.log =
            s.log ++ [.allowed decision, .recordRequested attempt, .invoked request, .recordOutcome record] ∧
          (executeCommitAwareWrite ports request decision requestedAt recordedAt s).final.ctx.writes =
            s.ctx.writes ++ [.entry ⟨record, ref⟩] ∧
          (executeCommitAwareWrite ports request decision requestedAt recordedAt s).outcome = .ok d ∧
          d.writeSummary.commitState = record.commitState) ∧
      (¬ Settles request s.ctx recordedAt (ports.answerTo request s [.allowed decision] attempt) →
        (executeCommitAwareWrite ports request decision requestedAt recordedAt s).final.log =
            s.log ++ [.allowed decision, .recordRequested attempt, .invoked request] ∧
          (executeCommitAwareWrite ports request decision requestedAt recordedAt s).final.ctx.writes = s.ctx.writes ∧
          ∃ e, (executeCommitAwareWrite ports request decision requestedAt recordedAt s).outcome = .error e) := by
  rcases executeWrite_cases ports request decision requestedAt s with hstop | ⟨attempt, receipt, hadmitted, hcalled⟩
  · exact .inl (executeCommitAware_stopped hstop).final.2
  refine .inr ⟨attempt, hadmitted.recorded, fun hsettles => ?_, fun hnot => ?_⟩
  · obtain ⟨record, ref, d, hhash, hfinal, houtcome, hstate, -, -⟩ :=
      executeCommitAware_recorded hports hadmitted.identity hadmitted.recorded hcalled hsettles
    exact ⟨record, ref, d, hhash, congrArg WriteState.log hfinal, congrArg (fun t => t.ctx.writes) hfinal, houtcome, hstate⟩
  · obtain ⟨hfinal, herror⟩ := executeCommitAware_refused hadmitted.identity hadmitted.recorded hcalled hnot
    exact ⟨congrArg WriteState.log hfinal, congrArg (fun t => t.ctx.writes) hfinal, herror⟩

/-! ## Calls one after another -/

/-- One call of a coordinator or an executor. -/
inductive WriteCall (validateDocument : Value → Except Exn Unit)
  /-- `WriteExecutionCoordinator.execute` -/
  | coordinate (request : WriteCallRequest) (decision : WriteGuardDecision) (requestedAt : Calendar.DateTime)
  /-- `CommitAwareWriteExecutor.execute` -/
  | commitAware (request : WriteCallRequest) (decision : WriteGuardDecision) (requestedAt recordedAt : Calendar.DateTime)
  /-- `TrustedCommitAwareWriteExecutor.execute` -/
  | trusted (trust : TrustCheck validateDocument) (request : WriteCallRequest) (decision : WriteGuardDecision)
      (requestedAt recordedAt : Calendar.DateTime)

namespace WriteCall

variable {validateDocument : Value → Except Exn Unit}

def request : WriteCall validateDocument → WriteCallRequest
  | .coordinate r _ _     => r
  | .commitAware r _ _ _  => r
  | .trusted _ r _ _ _    => r

def decision : WriteCall validateDocument → WriteGuardDecision
  | .coordinate _ d _     => d
  | .commitAware _ d _ _  => d
  | .trusted _ _ d _ _    => d

/-- The state a call leaves. -/
def perform (ports : WritePorts) : WriteCall validateDocument → WriteState → WriteState
  | .coordinate r d at', s     => (executeWrite ports r d at' s).final
  | .commitAware r d at' rec, s => (executeCommitAwareWrite ports r d at' rec s).final
  | .trusted t r d at' rec, s   => (executeTrustedCommitAware t ports r d at' rec s).final

/-- The caller asks for a WRITE of the node, with a decision that allows it. -/
def asksFor (nodeId : RequiredText) (c : WriteCall validateDocument) : Bool :=
  c.request.nodeId = nodeId && c.decision.eligibility = .allowed

theorem perform_callsOnce (ports : WritePorts) (c : WriteCall validateDocument) (s : WriteState) :
    CallsOnce c.request c.decision s (c.perform ports s) := by
  cases c with
  | coordinate r d at'      => exact executeWrite_callsOnce
  | commitAware r d at' rec => exact executeCommitAwareWrite_callsOnce
  | trusted t r d at' rec   => exact executeTrustedCommitAware_callsOnce

end WriteCall

/-- Calls one after another, on one context. -/
def performAll {validateDocument : Value → Except Exn Unit} (ports : WritePorts) :
    List (WriteCall validateDocument) → WriteState → WriteState
  | [], s      => s
  | c :: cs, s => performAll ports cs (c.perform ports s)

/-- A call of the provider for the node. -/
def WriteEvent.invokes (nodeId : RequiredText) : WriteEvent → Bool
  | .invoked request => request.nodeId = nodeId
  | _                => false

theorem countP_quiet (nodeId : RequiredText) {l : List WriteEvent} (h : ∀ ev ∈ l, ev.isInvocation = false) :
    l.countP (WriteEvent.invokes nodeId) = 0 := by
  refine List.countP_eq_zero.2 (fun ev hev => ?_)
  have hquiet := h ev hev
  cases ev with
  | invoked request => cases hquiet
  | _               => exact Bool.false_ne_true

/-- One call of the runtime sends one WRITE at most, the caller's own. -/
theorem CallsOnce.invocations {request : WriteCallRequest} {decision : WriteGuardDecision} {s t : WriteState}
    (h : CallsOnce request decision s t) (nodeId : RequiredText) :
    t.log.countP (WriteEvent.invokes nodeId) ≤ s.log.countP (WriteEvent.invokes nodeId) +
      if request.nodeId = nodeId ∧ decision.eligibility = .allowed then 1 else 0 := by
  obtain ⟨-, new, hlog, hnew⟩ := h
  rw [hlog, List.countP_append]
  refine Nat.add_le_add_left ?_ _
  rcases hnew with hquiet | ⟨hallowed, before, after, rfl, hquiet⟩
  · rw [countP_quiet nodeId hquiet]
    exact Nat.zero_le _
  · have hbefore := countP_quiet nodeId (fun ev hev => hquiet ev (List.mem_append_left _ hev))
    have hafter := countP_quiet nodeId (fun ev hev => hquiet ev (List.mem_append_right _ hev))
    rw [List.countP_append, List.countP_cons, hbefore, hafter]
    by_cases hnode : request.nodeId = nodeId <;> simp [WriteEvent.invokes, hnode, hallowed]

/-- **The runtime never sends a WRITE again on its own**: over any calls a node's provider calls are at most those the caller
asked for with an allowed decision, and what the journal holds stays in it. -/
theorem performAll_invocations {validateDocument : Value → Except Exn Unit} (ports : WritePorts) (nodeId : RequiredText) :
    ∀ (calls : List (WriteCall validateDocument)) (s : WriteState),
      (performAll ports calls s).log.countP (WriteEvent.invokes nodeId) ≤
        s.log.countP (WriteEvent.invokes nodeId) + calls.countP (WriteCall.asksFor nodeId) ∧
      s.ctx.writes <+: (performAll ports calls s).ctx.writes
  | [], _      => ⟨Nat.le_refl _, List.prefix_rfl⟩
  | c :: cs, s => by
    have hcall := c.perform_callsOnce ports s
    obtain ⟨hcount, hwrites⟩ := performAll_invocations ports nodeId cs (c.perform ports s)
    have hone := hcall.invocations nodeId
    refine ⟨?_, hcall.1.trans hwrites⟩
    have hasks : (if c.request.nodeId = nodeId ∧ c.decision.eligibility = .allowed then 1 else 0) =
        if c.asksFor nodeId = true then 1 else 0 := by
      simp [WriteCall.asksFor]
    rw [List.countP_cons, ← hasks]
    unfold performAll
    omega

/-! ## A draft that is sent -/

section Draft

def draftRef : RequiredText := .ofPlain "ref-1"

theorem noRefs_ok : areEvidenceRefs [] = true := rfl

def noRefs : EvidenceRefs := ⟨[], noRefs_ok⟩

def draftAfternoon : UtcInstant := draftHour 13 (by decide)

def sentReservation (nodeId : RequiredText) (amount : Int) : IdempotencyReservation :=
  .created ⟨draftTenant, draftOperation, nodeId, draftTool, draftContract.contractHash,
    createKey draftTenant draftOperation nodeId, draftPayload amount, draftRef, draftEvening⟩

/-- The request of a draft. -/
def sentDraft (nodeId : RequiredText) (amount : Int) : WriteCallRequest where
  tenantId              := draftTenant
  executionId           := draftContext.request.executionId
  businessOperationId   := draftOperation
  invocationId          := draftRef
  nodeId                := nodeId
  toolRef               := (draftIntent nodeId amount).toolRef
  toolId                := draftTool
  contractHash          := draftContract.contractHash
  arguments             := freezeArguments (draftArguments amount)
  idempotencyKey        := createKey draftTenant draftOperation nodeId
  payloadHash           := draftPayload amount
  approvalId            := (draftIntent nodeId amount).approvalId
  approvalRequestId     := draftRef
  writeIntentHash       := (draftIntent nodeId amount).writeIntentHash
  businessPreconditions := draftPrecondition (draftIntent nodeId amount)
  traceRefs             := noRefs
  payload               := (computePayloadHash_freeze _).trans (draftPayload_eq amount)

theorem sentDraft_built (nodeId : RequiredText) (amount : Int) :
    buildWriteCall (draftIntent nodeId amount) draftContext draftContract (sentReservation nodeId amount) draftRef draftRef
      (draftPrecondition (draftIntent nodeId amount)) noRefs = .ok (sentDraft nodeId amount) := by
  have htenant : draftContext.tenantId = (draftIntent nodeId amount).tenantId.text := rfl
  have hoperation : draftContext.request.businessOperationId = some (draftIntent nodeId amount).businessOperationId := rfl
  have hmatches : callPreconditionMatches (draftPrecondition (draftIntent nodeId amount)) (draftIntent nodeId amount)
      draftContract = true := by
    simp [callPreconditionMatches, draftPrecondition, draftIntent, draftContract]
  have hreserved : reservationMatches (sentReservation nodeId amount).evidence (draftIntent nodeId amount) draftContract = true := by
    simp [reservationMatches, sentReservation, IdempotencyReservation.created, draftIntent]
  unfold buildWriteCall
  rw [hmatches, hreserved, if_neg (not_not.2 htenant), if_neg (not_not.2 hoperation), if_neg (by simp [draftContract, draftIntent]),
    if_neg (by decide), if_neg (by decide)]
  rfl

def draftAttempt (nodeId : RequiredText) (amount : Int) : WriteAttemptRecord :=
  ⟨draftTenant, draftContext.request.executionId, draftOperation, draftRef, nodeId, draftTool, draftContract.contractHash,
    draftRef, createKey draftTenant draftOperation nodeId, draftPayload amount, (draftIntent nodeId amount).writeIntentHash,
    (draftPrecondition (draftIntent nodeId amount)).evidenceId, draftNoon⟩

theorem draftAttempt_recorded (nodeId : RequiredText) (amount : Int) :
    WriteAttemptRecord.fromRequest (sentDraft nodeId amount) draftNoon.time = .ok (draftAttempt nodeId amount) := by
  have hutc : writeUtc draftNoon.time "WriteAttemptRecord.requested_at" = .ok draftNoon := dif_pos draftNoon.ok
  unfold WriteAttemptRecord.fromRequest
  rw [Stateful.bind_ok hutc]
  rfl

/-- Ports that keep what they are given, around a provider that always ends in the same way. -/
def answeringPorts (answer : ProviderAnswer) : WritePorts where
  recordRequested _ r := .answer ⟨r.recordHash, draftRef, r.requestedAt, true⟩
  execute _ _         := answer
  recordOutcome _ r   := .answer ⟨⟨r.recordHash, sha256Of_digest _⟩, draftRef, r.recordedAt⟩

theorem answeringPorts_records (answer : ProviderAnswer) : (answeringPorts answer).RecordsOutcomes :=
  fun _ _ => ⟨_, rfl, rfl, Nat.le_refl _⟩

/-- A draft is sent from every context of its request. -/
theorem sentDraft_admitted (answer : ProviderAnswer) (nodeId : RequiredText) (amount : Int) {s : WriteState}
    (h : s.ctx.request = draftContext.request) : ∃ receipt, Admitted (answeringPorts answer) (sentDraft nodeId amount)
      ⟨.allowed, none⟩ draftNoon.time s [.allowed ⟨.allowed, none⟩] (draftAttempt nodeId amount) receipt := by
  have htenant : draftTenant.text = s.ctx.tenantId := by
    unfold Context.tenantId
    rw [h]
    rfl
  have hexecution : (sentDraft nodeId amount).executionId = s.ctx.request.executionId := by
    rw [h]
    rfl
  have hoperation : some (sentDraft nodeId amount).businessOperationId = s.ctx.request.businessOperationId := by
    rw [h]
    rfl
  refine ⟨_, rfl, ?_, draftAttempt_recorded nodeId amount, rfl, ?_⟩
  · exact (if_neg (not_not.2 hexecution)).trans ((if_neg (not_not.2 htenant)).trans (if_neg (not_not.2 hoperation)))
  · exact (if_neg (not_not.2 rfl)).trans ((if_neg Bool.noConfusion).trans (if_neg (Nat.lt_irrefl _)))

/-- The context in which the key and the payload of the draft are reserved. -/
def reservedDraft (nodeId : RequiredText) (amount : Int) : Context :=
  draftContext.reserved (sentReservation nodeId amount).evidence

theorem sentDraft_settles (nodeId : RequiredText) (amount : Int) {ctx : Context} {answer : ProviderAnswer}
    (hidempotency : ctx.idempotency = (reservedDraft nodeId amount).idempotency) (hreturns : answer ≠ .exit)
    (hidentity : ∀ o, answer = .outcome o → o.identity = .fromRequest (sentDraft nodeId amount)) :
    Settles (sentDraft nodeId amount) ctx draftAfternoon.time answer := by
  refine ⟨hreturns, hidentity, ?_, ?_, rfl⟩
  · rw [hidempotency]
    exact Dict.get?_set_self ..
  · rw [hidempotency]
    exact Dict.get?_set_self ..

def otherNode : RequiredText := .ofPlain "other-node"

theorem otherNode_ne : otherNode ≠ draftNode := by
  intro h
  have htext : "other-node" = "draft-node" := congrArg RequiredText.text h
  exact absurd htext (by decide)

/-- **The decision made for one draft sends another.** -/
theorem otherDraft_sent :
    WriteGuard.evaluate {} (draftGuardRequest (draftIntent draftNode 100) draftContext) draftNoon.time =
      .ok ⟨.allowed, none⟩ ∧
    buildWriteCall (draftIntent otherNode 900) draftContext draftContract (sentReservation otherNode 900) draftRef draftRef
      (draftPrecondition (draftIntent otherNode 900)) noRefs = .ok (sentDraft otherNode 900) ∧
    WriteEvent.invoked (sentDraft otherNode 900) ∈ (executeWrite (answeringPorts .other) (sentDraft otherNode 900)
      ⟨.allowed, none⟩ draftNoon.time ⟨draftContext, []⟩).final.log ∧
    (sentDraft otherNode 900).nodeId ≠ (draftIntent draftNode 100).nodeId := by
  refine ⟨draft_allowed draftNode 100 rfl, sentDraft_built otherNode 900, ?_, otherNode_ne⟩
  · obtain ⟨receipt, hadmitted⟩ := @sentDraft_admitted _ .other otherNode 900 ⟨draftContext, []⟩ rfl
    rw [hadmitted.called.final]
    exact List.mem_append_right _ (List.mem_append_right _ (List.mem_cons_of_mem _ (List.mem_singleton.2 rfl)))

/-- **The outcome of another request is not recorded**, although the provider was called. -/
theorem strayOutcome_lost :
    ∃ answer, (answeringPorts answer).RecordsOutcomes ∧
      (executeCommitAwareWrite (answeringPorts answer) (sentDraft draftNode 100) ⟨.allowed, none⟩ draftNoon.time
        draftAfternoon.time ⟨reservedDraft draftNode 100, []⟩).final.log = [.allowed ⟨.allowed, none⟩,
          .recordRequested (draftAttempt draftNode 100), .invoked (sentDraft draftNode 100)] ∧
      (executeCommitAwareWrite (answeringPorts answer) (sentDraft draftNode 100) ⟨.allowed, none⟩ draftNoon.time
        draftAfternoon.time ⟨reservedDraft draftNode 100, []⟩).final.ctx.writes = [] ∧
      ∃ e, (executeCommitAwareWrite (answeringPorts answer) (sentDraft draftNode 100) ⟨.allowed, none⟩ draftNoon.time
        draftAfternoon.time ⟨reservedDraft draftNode 100, []⟩).outcome = .error e := by
  have hnot : ¬ Settles (sentDraft draftNode 100) (reservedDraft draftNode 100) draftAfternoon.time
      (.outcome (uncertainOutcome (sentDraft otherNode 900) malformedReason)) := by
    intro h
    exact otherNode_ne (congrArg WriteOutcomeIdentity.nodeId (h.identity _ rfl))
  refine ⟨.outcome (uncertainOutcome (sentDraft otherNode 900) malformedReason), answeringPorts_records _, ?_⟩
  obtain ⟨receipt, hadmitted⟩ := @sentDraft_admitted _ (.outcome (uncertainOutcome (sentDraft otherNode 900) malformedReason))
    draftNode 100 ⟨reservedDraft draftNode 100, []⟩ rfl
  obtain ⟨hfinal, herror⟩ := executeCommitAware_refused hadmitted.identity hadmitted.recorded hadmitted.called hnot
  exact ⟨congrArg WriteState.log hfinal, congrArg (fun t => t.ctx.writes) hfinal, herror⟩

/-- A call for a draft whose provider times out. -/
def sendDraft (s : WriteState) : WriteState :=
  (executeCommitAwareWrite (answeringPorts .timeout) (sentDraft draftNode 100) ⟨.allowed, none⟩ draftNoon.time
    draftAfternoon.time s).final

theorem sendDraft_eq {s : WriteState} (hrequest : s.ctx.request = draftContext.request)
    (hidempotency : s.ctx.idempotency = (reservedDraft draftNode 100).idempotency) : ∃ record ref,
      record.identity.nodeId = draftNode ∧ record.commitState = .unknownCommitState ∧
      sendDraft s = ⟨{ s.ctx.writeRequested with writes := s.ctx.writes ++ [.entry ⟨record, ref⟩] }, s.log ++
        ([.allowed ⟨.allowed, none⟩] ++ [.recordRequested (draftAttempt draftNode 100), .invoked (sentDraft draftNode 100),
          .recordOutcome record])⟩ := by
  have hsettles : Settles (sentDraft draftNode 100) s.ctx draftAfternoon.time .timeout :=
    sentDraft_settles draftNode 100 hidempotency (fun h => by cases h) (fun o ho => by cases ho)
  obtain ⟨receipt, hadmitted⟩ := sentDraft_admitted .timeout draftNode 100 hrequest
  obtain ⟨record, ref, d, -, hfinal, -, hstate, hsettled, hidentity⟩ := executeCommitAware_recorded
    (answeringPorts_records .timeout) hadmitted.identity hadmitted.recorded hadmitted.called hsettles
  have houtcome : d.outcome = uncertainOutcome (sentDraft draftNode 100) (UncertainCause.reasonCode .timeout) :=
    (Option.some.inj hsettled).symm
  refine ⟨record, ref, ?_, ?_, hfinal⟩
  · rw [hidentity, houtcome]
    rfl
  · rw [← hstate, ← d.states, houtcome]
    rfl

/-- **A WRITE whose commit is unknown is sent again** by a second call of the same executor. -/
theorem lostDraft_resent : ∃ record ref,
    (sendDraft ⟨reservedDraft draftNode 100, []⟩).ctx.writes = [.entry ⟨record, ref⟩] ∧
    record.identity.nodeId = draftNode ∧ record.commitState = .unknownCommitState ∧
    (sendDraft ⟨reservedDraft draftNode 100, []⟩).log.countP (WriteEvent.invokes draftNode) = 1 ∧
    (sendDraft (sendDraft ⟨reservedDraft draftNode 100, []⟩)).log.countP (WriteEvent.invokes draftNode) = 2 := by
  obtain ⟨record, ref, hnode, hstate, hsent⟩ := @sendDraft_eq _ ⟨reservedDraft draftNode 100, []⟩ rfl rfl
  obtain ⟨record', ref', -, -, hsent'⟩ := @sendDraft_eq _ (sendDraft ⟨reservedDraft draftNode 100, []⟩)
    (by rw [hsent]; rfl) (by rw [hsent]; rfl)
  refine ⟨record, ref, by rw [hsent]; rfl, hnode, hstate, ?_, ?_⟩
  · rw [hsent]
    simp [WriteEvent.invokes, sentDraft]
  · rw [hsent', hsent]
    simp [WriteEvent.invokes, sentDraft]

/-- The call for a draft calls the provider. -/
theorem sendDraft_calls : ¬ ∃ new, (executeCommitAwareWrite (answeringPorts .timeout) (sentDraft draftNode 100) ⟨.allowed, none⟩
    draftNoon.time draftAfternoon.time ⟨reservedDraft draftNode 100, []⟩).final.log = [] ++ new ∧
      ∀ ev ∈ new, ev.isInvocation = false := by
  rintro ⟨new, hlog, hnew⟩
  obtain ⟨record, ref, -, -, hsent⟩ := @sendDraft_eq _ ⟨reservedDraft draftNode 100, []⟩ rfl rfl
  have hcalled : WriteEvent.invoked (sentDraft draftNode 100) ∈ [] ++ new := by
    rw [← hlog]
    change _ ∈ (sendDraft ⟨reservedDraft draftNode 100, []⟩).log
    rw [hsent]
    simp
  exact absurd (hnew _ hcalled) (by simp [WriteEvent.isInvocation])

theorem timeout_settles (attempt : WriteAttemptRecord) :
    Settles (sentDraft draftNode 100) (reservedDraft draftNode 100) draftAfternoon.time
      ((answeringPorts .timeout).answerTo (sentDraft draftNode 100) ⟨reservedDraft draftNode 100, []⟩
        [.allowed ⟨.allowed, none⟩] attempt) :=
  sentDraft_settles draftNode 100 rfl (fun h => by cases h) (fun o ho => by cases ho)

end Draft

end Boundary

section Ascii

attribute [local instance] Platform.ascii

theorem otherDraft_invoked :
    WriteGuard.evaluate {} (draftGuardRequest (draftIntent draftNode 100) draftContext) draftNoon.time =
      .ok ⟨.allowed, none⟩ ∧
    buildWriteCall (draftIntent otherNode 900) draftContext draftContract (sentReservation otherNode 900) draftRef draftRef
      (draftPrecondition (draftIntent otherNode 900)) noRefs = .ok (sentDraft otherNode 900) ∧
    WriteEvent.invoked (sentDraft otherNode 900) ∈ (executeWrite (answeringPorts .other) (sentDraft otherNode 900)
      ⟨.allowed, none⟩ draftNoon.time ⟨draftContext, []⟩).final.log ∧
    (sentDraft otherNode 900).nodeId ≠ (draftIntent draftNode 100).nodeId := otherDraft_sent

theorem executeCommitAwareWrite_settles_draft :
    ∃ attempt, WriteAttemptRecord.fromRequest (sentDraft draftNode 100) draftNoon.time = .ok attempt ∧
      ∃ record ref d, record.requestedRecordHash = attempt.recordHash ∧
        (executeCommitAwareWrite (answeringPorts .timeout) (sentDraft draftNode 100) ⟨.allowed, none⟩ draftNoon.time
          draftAfternoon.time ⟨reservedDraft draftNode 100, []⟩).final.log = [] ++ [.allowed ⟨.allowed, none⟩,
            .recordRequested attempt, .invoked (sentDraft draftNode 100), .recordOutcome record] ∧
        (executeCommitAwareWrite (answeringPorts .timeout) (sentDraft draftNode 100) ⟨.allowed, none⟩ draftNoon.time
          draftAfternoon.time ⟨reservedDraft draftNode 100, []⟩).final.ctx.writes =
            (reservedDraft draftNode 100).writes ++ [.entry ⟨record, ref⟩] ∧
        (executeCommitAwareWrite (answeringPorts .timeout) (sentDraft draftNode 100) ⟨.allowed, none⟩ draftNoon.time
          draftAfternoon.time ⟨reservedDraft draftNode 100, []⟩).outcome = .ok d ∧
        d.writeSummary.commitState = record.commitState := by
  obtain ⟨attempt, hattempt, hsettled, -⟩ := (executeCommitAwareWrite_settles (answeringPorts_records .timeout)
    (sentDraft draftNode 100) ⟨.allowed, none⟩ draftNoon.time draftAfternoon.time
    ⟨reservedDraft draftNode 100, []⟩).resolve_left sendDraft_calls
  exact ⟨attempt, hattempt, hsettled (timeout_settles attempt)⟩

theorem strayOutcome_unrecorded :
    ∃ answer, (answeringPorts answer).RecordsOutcomes ∧
      (executeCommitAwareWrite (answeringPorts answer) (sentDraft draftNode 100) ⟨.allowed, none⟩ draftNoon.time
        draftAfternoon.time ⟨reservedDraft draftNode 100, []⟩).final.log = [.allowed ⟨.allowed, none⟩,
          .recordRequested (draftAttempt draftNode 100), .invoked (sentDraft draftNode 100)] ∧
      (executeCommitAwareWrite (answeringPorts answer) (sentDraft draftNode 100) ⟨.allowed, none⟩ draftNoon.time
        draftAfternoon.time ⟨reservedDraft draftNode 100, []⟩).final.ctx.writes = [] ∧
      ∃ e, (executeCommitAwareWrite (answeringPorts answer) (sentDraft draftNode 100) ⟨.allowed, none⟩ draftNoon.time
        draftAfternoon.time ⟨reservedDraft draftNode 100, []⟩).outcome = .error e := strayOutcome_lost

theorem unknownDraft_resent : ∃ record ref,
    (sendDraft ⟨reservedDraft draftNode 100, []⟩).ctx.writes = [.entry ⟨record, ref⟩] ∧
    record.identity.nodeId = draftNode ∧ record.commitState = .unknownCommitState ∧
    (sendDraft ⟨reservedDraft draftNode 100, []⟩).log.countP (WriteEvent.invokes draftNode) = 1 ∧
    (sendDraft (sendDraft ⟨reservedDraft draftNode 100, []⟩)).log.countP (WriteEvent.invokes draftNode) = 2 :=
  lostDraft_resent

end Ascii

end Nsl
