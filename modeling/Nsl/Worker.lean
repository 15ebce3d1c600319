import Nsl.EngineReturns
/-!
# Worker — the progress of a job

`SkillExecutionWorker` (`worker.py`) with the parts of `integration.py` it works on. A job publishes that it started, that
its skill is resolved, that it runs, and how it ended. The resolver and the sink of the events are parameters.
-/
namespace Nsl

open Stateful

/-! ## Progress events -/

inductive ProgressState
  | started
  | skillResolved
  | running
  | completed
  | failed
  deriving DecidableEq

instance : StrEnum ProgressState where
  members  := [.started, .skillResolved, .running, .completed, .failed]
  value
    | .started       => "STARTED"
    | .skillResolved => "SKILL_RESOLVED"
    | .running       => "RUNNING"
    | .completed     => "COMPLETED"
    | .failed        => "FAILED"
  complete := by intro a; cases a <;> decide
  distinct := by intro a b; cases a <;> cases b <;> decide

def ProgressState.isTerminal : ProgressState → Bool
  | .completed | .failed => true
  | _                    => false

section Worker

variable [Platform]

/-- Text that is there, in ASCII, of at most 256 characters and without a credential. -/
def isSafeIdentifier (s : String) : Bool :=
  !Text.isBlank s && s.toList.all Char.isAscii && s.length ≤ 256 && (findCredentialPath Platform.word "$" (.str s)).isNone

/-- `_safe_identifier` -/
def safeIdentifier (text path : String) : Except Exn Unit :=
  if Text.isBlank text then .error (.value (path ++ " must be a non-empty string"))
  else if ¬ text.toList.all Char.isAscii ∨ 256 < text.length then
    .error (.value (path ++ " must be safe ASCII up to 256 bytes"))
  else if (findCredentialPath Platform.word "$" (.str text)).isSome then
    .error (.value ("credential material is forbidden in " ++ path))
  else .ok ()

/-- `_validate_selector_part` -/
def validateSelectorPart (text field : String) : Except Exn Unit :=
  if Text.isBlank text ∨ ¬ text.toList.all Char.isAscii ∨ 256 < text.length then
    .error (.value (field ++ " must be non-empty ASCII up to 256 bytes"))
  else if (findCredentialPath Platform.word "$" (.str text)).isSome then
    .error (.value ("credential material is forbidden in " ++ field))
  else .ok ()

/-- The two checks differ in what they say. -/
theorem safeIdentifier_ok_iff {text path : String} : safeIdentifier text path = .ok () ↔ isSafeIdentifier text = true := by
  unfold safeIdentifier isSafeIdentifier
  by_cases hblank : Text.isBlank text = true
  · simp [hblank]
  by_cases hascii : text.toList.all Char.isAscii = true
  · by_cases hlength : 256 < text.length
    · simp [hblank, hascii, hlength]
    · have hshort := not_lt.1 hlength
      cases hcredential : findCredentialPath Platform.word "$" (.str text) <;>
        simp [hblank, hascii, hlength, hshort]
  · simp [hblank, hascii]

theorem validateSelectorPart_ok_iff {text field : String} :
    validateSelectorPart text field = .ok () ↔ isSafeIdentifier text = true := by
  unfold validateSelectorPart isSafeIdentifier
  by_cases hblank : Text.isBlank text = true
  · simp [hblank]
  by_cases hascii : text.toList.all Char.isAscii = true
  · by_cases hlength : 256 < text.length
    · simp [hblank, hascii, hlength]
    · have hshort := not_lt.1 hlength
      cases hcredential : findCredentialPath Platform.word "$" (.str text) <;>
        simp [hblank, hascii, hlength, hshort]
  · simp [hblank, hascii]

structure SafeIdentifier where
  text : String
  ok   : isSafeIdentifier text = true

theorem isSafeIdentifier_required {s : String} (h : isSafeIdentifier s = true) : isRequiredText s = true := by
  unfold isSafeIdentifier at h
  unfold isRequiredText
  simp only [Bool.and_eq_true] at h ⊢
  exact ⟨h.1.1.1, h.2⟩

/-- A plain text within the bounds. -/
theorem isSafeIdentifier_plain {s : String} (h : isPlainText s = true)
    (hbounds : (!Text.isBlank s && s.toList.all Char.isAscii && decide (s.length ≤ 256)) = true) :
    isSafeIdentifier s = true := by
  have hblank : Text.isBlank s = false := by
    simp only [Bool.and_eq_true, Bool.not_eq_true'] at hbounds
    exact hbounds.1.1
  have hrequired := isRequiredText_plain h hblank
  unfold isRequiredText at hrequired
  unfold isSafeIdentifier
  rw [hbounds, Bool.true_and]
  simp only [Bool.and_eq_true] at hrequired
  exact hrequired.2

structure ProgressEvent where
  executionId   : String
  sequence      : Nat
  state         : ProgressState
  skillId       : String
  skillVersion  : String
  runtimeStatus : Option String
  errorCode     : Option String
  deriving DecidableEq

/-- A check of a field that may be absent. -/
def whenPresent (check : String → Except Exn Unit) : Option String → Except Exn Unit
  | none      => .ok ()
  | some text => check text

/-- `ProgressEvent(...)` -/
def ProgressEvent.create (e : ProgressEvent) : Except Exn ProgressEvent := do
  safeIdentifier e.executionId "progress.execution_id"
  validateSelectorPart e.skillId "progress.skill_id"
  validateSelectorPart e.skillVersion "progress.skill_version"
  if e.sequence = 0 ∨ 1000000 < e.sequence then .error (.value "progress.sequence must be between 1 and 1000000")
  else do
    whenPresent (safeIdentifier · "progress.runtime_status") e.runtimeStatus
    whenPresent (safeIdentifier · "progress.error_code") e.errorCode
    if e.runtimeStatus.isSome ∧ e.state.isTerminal = false then
      .error (.value "runtime status is only valid on terminal progress")
    else if e.errorCode.isSome ∧ e.state ≠ .failed then .error (.value "error code is only valid on failed progress")
    else .ok e

/-- What an event must be to be created. -/
structure ProgressEvent.Sound (e : ProgressEvent) : Prop where
  executionId   : isSafeIdentifier e.executionId = true
  skillId       : isSafeIdentifier e.skillId = true
  skillVersion  : isSafeIdentifier e.skillVersion = true
  sequence      : 0 < e.sequence ∧ e.sequence ≤ 1000000
  runtimeStatus : ∀ s, e.runtimeStatus = some s → isSafeIdentifier s = true ∧ e.state.isTerminal = true
  errorCode     : ∀ c, e.errorCode = some c → isSafeIdentifier c = true ∧ e.state = .failed

theorem ProgressEvent.Sound.create {e : ProgressEvent} (h : e.Sound) : e.create = .ok e := by
  have hstatus : whenPresent (safeIdentifier · "progress.runtime_status") e.runtimeStatus = .ok () := by
    cases hs : e.runtimeStatus with
    | none   => rfl
    | some s => exact safeIdentifier_ok_iff.2 (h.runtimeStatus s hs).1
  have hcode : whenPresent (safeIdentifier · "progress.error_code") e.errorCode = .ok () := by
    cases hc : e.errorCode with
    | none   => rfl
    | some c => exact safeIdentifier_ok_iff.2 (h.errorCode c hc).1
  have hsequence : ¬ (e.sequence = 0 ∨ 1000000 < e.sequence) := by
    have hs := h.sequence
    omega
  have hterminal : ¬ (e.runtimeStatus.isSome = true ∧ e.state.isTerminal = false) := by
    rintro ⟨hsome, hstate⟩
    obtain ⟨s, hs⟩ := Option.isSome_iff_exists.1 hsome
    rw [(h.runtimeStatus s hs).2] at hstate
    cases hstate
  have hfailed : ¬ (e.errorCode.isSome = true ∧ e.state ≠ .failed) := by
    rintro ⟨hsome, hstate⟩
    obtain ⟨c, hc⟩ := Option.isSome_iff_exists.1 hsome
    exact hstate (h.errorCode c hc).2
  unfold ProgressEvent.create
  rw [safeIdentifier_ok_iff.2 h.executionId, validateSelectorPart_ok_iff.2 h.skillId,
    validateSelectorPart_ok_iff.2 h.skillVersion, if_neg hsequence, hstatus, hcode, if_neg hterminal, if_neg hfailed]
  rfl

/-! ## Jobs -/

/-- `StructuredInputs` and `StructuredRuntimeContext`, already normalized. -/
structure StructuredMapping where
  values : Dict Value
  clean  : findCredentialPath Platform.word "$" (.dict values.entries) = none

structure VerifiedPrincipalContext where
  principal : ExecutionPrincipal
  verified  : principal.validate true = .ok ()

structure SkillExecutionJob where
  executionId          : SafeIdentifier
  skillId              : SafeIdentifier
  skillVersion         : SafeIdentifier
  expectedSemanticHash : String
  inputs               : StructuredMapping
  runtimeContext       : StructuredMapping
  principal            : VerifiedPrincipalContext
  dataPolicy           : DataHandlingPolicy

/-- `to_runtime_request` -/
def SkillExecutionJob.toRuntimeRequest (job : SkillExecutionJob) : ExecutionRequest where
  executionId         := ⟨job.executionId.text, isSafeIdentifier_required job.executionId.ok⟩
  inputs              := job.inputs.values
  runtimeContext      := job.runtimeContext.values
  principal           := some job.principal.principal
  dataPolicy          := job.dataPolicy
  businessOperationId := none
  inputsClean         := job.inputs.clean
  contextClean        := job.runtimeContext.clean

structure ResolvedSkill where
  skill       : SkillObject
  packageHash : String
  signerKeyId : Option String

/-- `SkillResolutionError`, or another exception of the resolver. -/
inductive SkillResolveError
  | resolution (message : String)
  | raised (e : Exn)

inductive WorkerBoundaryCode
  | skillResolutionFailed
  | semanticIdentityMismatch
  | progressDeliveryFailed
  deriving DecidableEq

instance : StrEnum WorkerBoundaryCode where
  members  := [.skillResolutionFailed, .semanticIdentityMismatch, .progressDeliveryFailed]
  value
    | .skillResolutionFailed    => "SKILL_RESOLUTION_FAILED"
    | .semanticIdentityMismatch => "SEMANTIC_IDENTITY_MISMATCH"
    | .progressDeliveryFailed   => "PROGRESS_DELIVERY_FAILED"
  complete := by intro a; cases a <;> decide
  distinct := by intro a b; cases a <;> cases b <;> decide

inductive WorkerError
  | boundary (code : WorkerBoundaryCode) (message : String)
  | raised (e : Exn)

structure RuntimeResultEnvelope where
  runtimeResult : ExecutionResult

/-- The events the sink took, and the state of the runtime. -/
structure WorkerState where
  progress : List ProgressEvent
  runtime  : St

/-- `SkillExecutionWorker`: its runtime, its resolver and its sink, which may answer by what it took before. -/
structure SkillExecutionWorker where
  runtime      : Env
  resolver     : String → String → Except SkillResolveError ResolvedSkill
  progressSink : List ProgressEvent → ProgressEvent → Except Exn Unit

abbrev WorkerRun := Run WorkerState WorkerError

/-- The event of a job. -/
def SkillExecutionJob.event (job : SkillExecutionJob) (sequence : Nat) (state : ProgressState)
    (runtimeStatus errorCode : Option String) : ProgressEvent :=
  ⟨job.executionId.text, sequence, state, job.skillId.text, job.skillVersion.text, runtimeStatus, errorCode⟩

namespace SkillExecutionWorker

variable (w : SkillExecutionWorker)

/-- `progress_sink.publish` -/
def deliver (event : ProgressEvent) : WorkerRun Unit := fun s =>
  match w.progressSink s.progress event with
  | .ok ()   => ⟨[{ s with progress := s.progress ++ [event] }], { s with progress := s.progress ++ [event] }, .ok ()⟩
  | .error e =>
    if e.isException then ⟨[], s, .error (.boundary .progressDeliveryFailed "Worker progress delivery failed")⟩
    else ⟨[], s, .error (.raised e)⟩

/-- `_publish` -/
def publish (job : SkillExecutionJob) (sequence : Nat) (state : ProgressState) (runtimeStatus errorCode : Option String) :
    WorkerRun Unit := do
  let event ← Run.ofExcept ((job.event sequence state runtimeStatus errorCode).create.mapError .raised)
  w.deliver event

/-- `runtime.execute` -/
def runRuntime (skill : SkillObject) (request : ExecutionRequest) : WorkerRun ExecutionResult := fun s =>
  let t := Nsl.execute w.runtime skill request s.runtime
  ⟨t.written.map (fun x => { s with runtime := x }), { s with runtime := t.final }, t.outcome.mapError .raised⟩

/-- The state, and the error code, of the last event of a job that ran. -/
def endState (result : ExecutionResult) : ProgressState := if result.status = .completed then .completed else .failed

def endErrorCode (result : ExecutionResult) : Option String :=
  if endState result = .completed then none
  else some (match result.error with
    | some info => info.code
    | none      => "RUNTIME_FAILED")

/-- `execute`, once the skill is resolved. -/
def executeResolved (job : SkillExecutionJob) (resolved : ResolvedSkill) : WorkerRun RuntimeResultEnvelope :=
  if resolved.skill.semanticHash ≠ job.expectedSemanticHash then do
    w.publish job 2 .failed none (some (StrEnum.value WorkerBoundaryCode.semanticIdentityMismatch))
    Run.fail (.boundary .semanticIdentityMismatch "resolved Skill semantic identity differs from the job")
  else do
    w.publish job 2 .skillResolved none none
    w.publish job 3 .running none none
    let result ← w.runRuntime resolved.skill job.toRuntimeRequest
    w.publish job 4 (endState result) (some (StrEnum.value result.status)) (endErrorCode result)
    Run.done ⟨result⟩

/-- `execute` -/
def execute (job : SkillExecutionJob) : WorkerRun RuntimeResultEnvelope := do
  w.publish job 1 .started none none
  match w.resolver job.skillId.text job.skillVersion.text with
  | .error (.resolution _) => do
    w.publish job 2 .failed none (some (StrEnum.value WorkerBoundaryCode.skillResolutionFailed))
    Run.fail (.boundary .skillResolutionFailed "Worker could not resolve a verified Skill")
  | .error (.raised e)     => Run.fail (.raised e)
  | .ok resolved           => w.executeResolved job resolved

end SkillExecutionWorker

/-! ## What a runtime result says of itself -/

/-- The codes the handlers of the runtime give. -/
def RUNTIME_CODES : List String :=
  ["NSL-E5201", "NSL-E5202", "NSL-E4001", "NSL-E4101", "NSL-E6001", "NSL-E8001", "NSL-E8002"]

/-- The error of the result, where it has one, carries a code of the runtime. -/
def CodedResult (r : ExecutionResult) : Prop := ∀ info, r.error = some info → info.code ∈ RUNTIME_CODES

omit [Platform] in
theorem failureOf_code {e : Exn} {f : Failure} (h : failureOf e = some f) : f.code ∈ RUNTIME_CODES := by
  cases e with
  | toolExecution code m =>
    cases h
    by_cases hcode : code = "TOOL_CONTRACT_MISMATCH" <;> simp [hcode, RUNTIME_CODES]
  | cancelled b          => cases h
  | exit                 => cases h
  | _                    =>
    cases h
    simp [RUNTIME_CODES]

theorem resultOf_coded {c : Context} {status : ExecutionStatus} {error : Option RuntimeErrorInfo}
    (h : ∀ info, error = some info → info.code ∈ RUNTIME_CODES) {r : ExecutionResult}
    (hr : resultOf c status error = .ok r) : CodedResult r := by
  obtain ⟨validation, -, h₁⟩ := bind_eq_ok hr
  cases h₁
  exact h

theorem failed_coded (env : Env) {f : Failure} (h : f.code ∈ RUNTIME_CODES) : Run.Gives CodedResult (failed env f) := by
  unfold failed
  refine Run.gives_after (fun ctx => Run.gives_after (fun _ => Run.gives_ofExcept (fun r hr => ?_)))
  refine resultOf_coded (fun info hinfo => ?_) hr
  cases hinfo
  exact h

theorem onFailure_coded (env : Env) (e : Exn) : Run.Gives CodedResult (onFailure env e) := by
  unfold onFailure
  cases hf : failureOf e with
  | none   => exact Run.gives_fail e
  | some f => exact failed_coded env (failureOf_code hf)

theorem executionEpilogue_coded (env : Env) (decision : AuthorizationDecision) :
    Run.Gives CodedResult (executionEpilogue env decision) := by
  refine Run.gives_after (fun _ => Run.gives_after (fun ctx => ?_))
  refine Run.Gives.andThen (Run.gives_ofExcept (fun r hr => resultOf_coded (by simp) hr)) (fun r hr => ?_)
  exact Run.gives_after (fun _ => Run.gives_done hr)

/-- **Every result of the runtime carries one of its codes**, if any. -/
theorem execute_coded (env : Env) (skill : SkillObject) (request : ExecutionRequest) :
    Run.Gives CodedResult (Nsl.execute env skill request) := by
  have hrejected : ∀ m ref, Run.Gives CodedResult (rejectExecution (env.forExecution skill request) skill request m ref) := by
    intro m ref
    refine Run.gives_after (fun _ => Run.gives_done (fun info hinfo => ?_))
    cases hinfo
    simp [RUNTIME_CODES]
  have htry : ∀ p d, Run.Gives CodedResult (executionTry (env.forExecution skill request) skill request p d skill.body
      false) := fun p d =>
    Run.Gives.handle (Run.gives_after (fun _ => Run.gives_after (fun _ => executionEpilogue_coded _ d)))
      (onFailure_coded _)
  have hcontext : Run.Gives (fun rc => CodedResult rc.1) (executeWithContext env skill request skill.body false) := by
    unfold executeWithContext
    refine Run.gives_after (fun _ => ?_)
    cases authorizeExecution (env.forExecution skill request) skill request.principal with
    | ok pd   =>
      exact Run.gives_after (fun _ => (htry pd.1 pd.2).andThen (fun r hr => Run.gives_after (fun _ => Run.gives_done hr)))
    | error e =>
      cases e with
      | authorization m ref => exact (hrejected m ref).andThen (fun r hr => Run.gives_done hr)
      | _                   => exact Run.gives_fail _
  exact hcontext.andThen (fun rc hrc => Run.gives_done hrc)

/-! ## One job -/

/-- The codes and statuses the worker puts into its events. -/
theorem worker_texts_safe : ∀ c ∈ RUNTIME_CODES ++ ["RUNTIME_FAILED", StrEnum.value WorkerBoundaryCode.skillResolutionFailed,
    StrEnum.value WorkerBoundaryCode.semanticIdentityMismatch] ++
      (StrEnum.members : List ExecutionStatus).map StrEnum.value, isSafeIdentifier c = true := by
  have hplain : (RUNTIME_CODES ++ ["RUNTIME_FAILED", StrEnum.value WorkerBoundaryCode.skillResolutionFailed,
      StrEnum.value WorkerBoundaryCode.semanticIdentityMismatch] ++
        (StrEnum.members : List ExecutionStatus).map StrEnum.value).all (fun c => isPlainText c &&
          (!Text.isBlank c && c.toList.all Char.isAscii && decide (c.length ≤ 256))) = true := by decide +kernel
  intro c hc
  have h := List.all_eq_true.1 hplain c hc
  rw [Bool.and_eq_true] at h
  exact isSafeIdentifier_plain h.1 h.2

namespace SkillExecutionWorker

variable {w : SkillExecutionWorker} {job : SkillExecutionJob}

theorem event_sound {n : Nat} {state : ProgressState} {status code : Option String} (hn : 0 < n ∧ n ≤ 1000000)
    (hstatus : ∀ s, status = some s → isSafeIdentifier s = true ∧ state.isTerminal = true)
    (hcode : ∀ c, code = some c → isSafeIdentifier c = true ∧ state = .failed) : (job.event n state status code).Sound :=
  ⟨job.executionId.ok, job.skillId.ok, job.skillVersion.ok, hn, hstatus, hcode⟩

/-- The last event of a job that ran is sound. -/
theorem endEvent_sound {result : ExecutionResult} (h : CodedResult result) :
    (job.event 4 (endState result) (some (StrEnum.value result.status)) (endErrorCode result)).Sound := by
  refine event_sound (by omega) (fun s hs => ?_) (fun c hc => ?_)
  · cases hs
    refine ⟨worker_texts_safe _ (List.mem_append_right _ (List.mem_map_of_mem (StrEnum.complete result.status))), ?_⟩
    unfold endState
    split <;> rfl
  · unfold endErrorCode at hc
    split at hc
    · cases hc
    · rename_i hstate
      have hfailed : endState result = .failed := by
        unfold endState at hstate ⊢
        split <;> simp_all
      refine ⟨?_, hfailed⟩
      cases hc
      cases herror : result.error with
      | none      => exact worker_texts_safe _ (by simp)
      | some info => exact worker_texts_safe _ (by simp [h info herror])

theorem runRuntime_apply (skill : SkillObject) (request : ExecutionRequest) (s : WorkerState) :
    w.runRuntime skill request s =
      ⟨(Nsl.execute w.runtime skill request s.runtime).written.map (fun x => { s with runtime := x }),
        { s with runtime := (Nsl.execute w.runtime skill request s.runtime).final },
        (Nsl.execute w.runtime skill request s.runtime).outcome.mapError .raised⟩ := rfl

section Accepting

variable (haccept : ∀ taken event, w.progressSink taken event = .ok ())
include haccept

theorem publish_apply {n : Nat} {state : ProgressState} {status code : Option String}
    (h : (job.event n state status code).Sound) (s : WorkerState) : ∃ ws, w.publish job n state status code s =
      ⟨ws, { s with progress := s.progress ++ [job.event n state status code] }, .ok ()⟩ := by
  have hdeliver : w.deliver (job.event n state status code) s =
      ⟨[{ s with progress := s.progress ++ [job.event n state status code] }],
        { s with progress := s.progress ++ [job.event n state status code] }, .ok ()⟩ := by
    unfold deliver
    rw [haccept]
  have hcreate : (Run.ofExcept ((job.event n state status code).create.mapError .raised) : WorkerRun ProgressEvent) s =
      ⟨[], s, .ok (job.event n state status code)⟩ := by
    rw [h.create, Run.ofExcept_apply]
    rfl
  refine ⟨[{ s with progress := s.progress ++ [job.event n state status code] }], ?_⟩
  unfold publish
  rw [Run.bind_eq, Run.andThen_ok hcreate, hdeliver]
  rfl

/-- A publication and what comes after it. -/
theorem publish_andThen {n : Nat} {state : ProgressState} {status code : Option String}
    (h : (job.event n state status code).Sound) (s : WorkerState) {α : Type} (m : WorkerRun α) :
    ∃ ws, (Run.andThen (w.publish job n state status code) (fun _ => m)) s =
      ⟨ws ++ (m { s with progress := s.progress ++ [job.event n state status code] }).written,
        (m { s with progress := s.progress ++ [job.event n state status code] }).final,
        (m { s with progress := s.progress ++ [job.event n state status code] }).outcome⟩ := by
  obtain ⟨ws, hws⟩ := publish_apply haccept h s
  exact ⟨ws, Run.andThen_ok hws⟩

omit haccept in
theorem started_sound : (job.event 1 .started none none).Sound := event_sound (by omega) (by simp) (by simp)

/-- What a publication adds, whatever comes after it. -/
theorem publish_adds {n : Nat} {state : ProgressState} {status code : Option String}
    (h : (job.event n state status code).Sound) {α : Type} {m : WorkerRun α} {s : WorkerState} {o : Except WorkerError α}
    {events : List ProgressEvent}
    (hm : ∀ s', s'.runtime = s.runtime → (m s').outcome = o ∧ (m s').final.progress = s'.progress ++ events) :
    (Run.andThen (w.publish job n state status code) (fun _ => m) s).outcome = o ∧
      (Run.andThen (w.publish job n state status code) (fun _ => m) s).final.progress =
        s.progress ++ job.event n state status code :: events := by
  obtain ⟨ws, hws⟩ := publish_andThen haccept h s m
  obtain ⟨houtcome, hprogress⟩ := hm { s with progress := s.progress ++ [job.event n state status code] } rfl
  rw [hws]
  refine ⟨houtcome, ?_⟩
  rw [hprogress]
  simp

omit haccept in
theorem resolved_sound : (job.event 2 .skillResolved none none).Sound := event_sound (by omega) (by simp) (by simp)

omit haccept in
theorem running_sound : (job.event 3 .running none none).Sound := event_sound (by omega) (by simp) (by simp)

omit haccept in
/-- A job that failed before it ran says so. -/
theorem failed_sound {code : WorkerBoundaryCode} (h : code ≠ .progressDeliveryFailed) :
    (job.event 2 .failed none (some (StrEnum.value code))).Sound := by
  refine event_sound (by omega) (by simp) (fun c hc => ?_)
  cases hc
  refine ⟨worker_texts_safe _ ?_, rfl⟩
  cases code with
  | progressDeliveryFailed => exact absurd rfl h
  | _                      => simp

theorem execute_raised {e : Exn} (h : w.resolver job.skillId.text job.skillVersion.text = .error (.raised e))
    (s : WorkerState) : (w.execute job s).outcome = .error (.raised e) ∧
      (w.execute job s).final.progress = s.progress ++ [job.event 1 .started none none] := by
  unfold execute
  rw [h]
  refine publish_adds haccept started_sound (fun s' _ => ⟨rfl, ?_⟩)
  simp [Run.fail]

theorem execute_unresolved {m : String} (h : w.resolver job.skillId.text job.skillVersion.text = .error (.resolution m))
    (s : WorkerState) :
    (w.execute job s).outcome = .error (.boundary .skillResolutionFailed "Worker could not resolve a verified Skill") ∧
      (w.execute job s).final.progress = s.progress ++ [job.event 1 .started none none,
        job.event 2 .failed none (some (StrEnum.value WorkerBoundaryCode.skillResolutionFailed))] := by
  unfold execute
  rw [h]
  refine publish_adds haccept started_sound (fun s₁ _ => ?_)
  refine publish_adds haccept (failed_sound (by simp)) (fun s₂ _ => ⟨rfl, ?_⟩)
  simp [Run.fail]

section Resolved

variable {resolved : ResolvedSkill} (hresolver : w.resolver job.skillId.text job.skillVersion.text = .ok resolved)
include hresolver

theorem execute_mismatched (h : resolved.skill.semanticHash ≠ job.expectedSemanticHash) (s : WorkerState) :
    (w.execute job s).outcome =
        .error (.boundary .semanticIdentityMismatch "resolved Skill semantic identity differs from the job") ∧
      (w.execute job s).final.progress = s.progress ++ [job.event 1 .started none none,
        job.event 2 .failed none (some (StrEnum.value WorkerBoundaryCode.semanticIdentityMismatch))] := by
  unfold execute
  rw [hresolver]
  refine publish_adds haccept started_sound (fun s₁ _ => ?_)
  change (w.executeResolved job resolved s₁).outcome = _ ∧ (w.executeResolved job resolved s₁).final.progress = _
  unfold executeResolved
  rw [if_pos h]
  refine publish_adds haccept (failed_sound (by simp)) (fun s₂ _ => ⟨rfl, ?_⟩)
  simp [Run.fail]

/-- A job whose skill is the one it asked for runs. -/
theorem execute_runs (h : resolved.skill.semanticHash = job.expectedSemanticHash) {s : WorkerState}
    {o : Except WorkerError RuntimeResultEnvelope} {events : List ProgressEvent}
    (hrun : ∀ s', s'.runtime = s.runtime →
      (Run.andThen (w.runRuntime resolved.skill job.toRuntimeRequest) (fun result =>
        Run.andThen (w.publish job 4 (endState result) (some (StrEnum.value result.status)) (endErrorCode result))
          (fun _ => Run.done (⟨result⟩ : RuntimeResultEnvelope))) s').outcome = o ∧
      (Run.andThen (w.runRuntime resolved.skill job.toRuntimeRequest) (fun result =>
        Run.andThen (w.publish job 4 (endState result) (some (StrEnum.value result.status)) (endErrorCode result))
          (fun _ => Run.done (⟨result⟩ : RuntimeResultEnvelope))) s').final.progress = s'.progress ++ events) :
    (w.execute job s).outcome = o ∧ (w.execute job s).final.progress = s.progress ++ job.event 1 .started none none ::
      job.event 2 .skillResolved none none :: job.event 3 .running none none :: events := by
  unfold execute
  rw [hresolver]
  refine publish_adds haccept started_sound (fun s₁ h₁ => ?_)
  change (w.executeResolved job resolved s₁).outcome = _ ∧ (w.executeResolved job resolved s₁).final.progress = _
  unfold executeResolved
  rw [if_neg (not_not_intro h)]
  refine publish_adds haccept resolved_sound (fun s₂ h₂ => ?_)
  refine publish_adds haccept running_sound (fun s₃ h₃ => ?_)
  exact hrun s₃ (by rw [h₃, h₂, h₁])

theorem execute_returned (h : resolved.skill.semanticHash = job.expectedSemanticHash) {s : WorkerState}
    {r : ExecutionResult} (hr : (Nsl.execute w.runtime resolved.skill job.toRuntimeRequest s.runtime).outcome = .ok r) :
    (w.execute job s).outcome = .ok ⟨r⟩ ∧ (w.execute job s).final.progress = s.progress ++
      [job.event 1 .started none none, job.event 2 .skillResolved none none, job.event 3 .running none none,
        job.event 4 (endState r) (some (StrEnum.value r.status)) (endErrorCode r)] := by
  have hcoded : CodedResult r := by
    refine execute_coded w.runtime resolved.skill job.toRuntimeRequest s.runtime
      (Nsl.execute w.runtime resolved.skill job.toRuntimeRequest s.runtime).written
      (Nsl.execute w.runtime resolved.skill job.toRuntimeRequest s.runtime).final r ?_
    rw [← hr]
  refine execute_runs haccept hresolver h (fun s' hs' => ?_)
  have hruntime : w.runRuntime resolved.skill job.toRuntimeRequest s' =
      ⟨(Nsl.execute w.runtime resolved.skill job.toRuntimeRequest s.runtime).written.map (fun x => { s' with runtime := x }),
        { s' with runtime := (Nsl.execute w.runtime resolved.skill job.toRuntimeRequest s.runtime).final }, .ok r⟩ := by
    rw [runRuntime_apply, hs', hr]
    rfl
  rw [Run.andThen_ok hruntime]
  refine publish_adds haccept (endEvent_sound hcoded) (fun s₄ _ => ⟨rfl, ?_⟩)
  simp [Run.done]

theorem execute_fell (h : resolved.skill.semanticHash = job.expectedSemanticHash) {s : WorkerState} {e : Exn}
    (he : (Nsl.execute w.runtime resolved.skill job.toRuntimeRequest s.runtime).outcome = .error e) :
    (w.execute job s).outcome = .error (.raised e) ∧ (w.execute job s).final.progress = s.progress ++
      [job.event 1 .started none none, job.event 2 .skillResolved none none, job.event 3 .running none none] := by
  refine execute_runs haccept hresolver h (fun s' hs' => ?_)
  have hruntime : w.runRuntime resolved.skill job.toRuntimeRequest s' =
      ⟨(Nsl.execute w.runtime resolved.skill job.toRuntimeRequest s.runtime).written.map (fun x => { s' with runtime := x }),
        { s' with runtime := (Nsl.execute w.runtime resolved.skill job.toRuntimeRequest s.runtime).final },
        .error (.raised e)⟩ := by
    rw [runRuntime_apply, hs', he]
    rfl
  rw [Run.andThen_error hruntime]
  refine ⟨rfl, ?_⟩
  simp

end Resolved

end Accepting

end SkillExecutionWorker

/-! ## The protocol -/

/-- The events of a whole job: counted from one, from STARTED to one terminal event. -/
structure Protocol (events : List ProgressEvent) : Prop where
  counted : events.map (·.sequence) = List.range' 1 events.length
  started : events.head?.map (·.state) = some .started
  closed  : ∃ before last, events = before ++ [last] ∧ last.state.isTerminal = true ∧
    ∀ e ∈ before, e.state.isTerminal = false

namespace SkillExecutionWorker

variable (w : SkillExecutionWorker) (job : SkillExecutionJob)

/-- The runtime was called for the job, and ended so. -/
def RuntimeEnded (s : WorkerState) (o : Except Exn ExecutionResult) : Prop :=
  ∃ resolved, w.resolver job.skillId.text job.skillVersion.text = .ok resolved ∧
    resolved.skill.semanticHash = job.expectedSemanticHash ∧
    (Nsl.execute w.runtime resolved.skill job.toRuntimeRequest s.runtime).outcome = o

/-- What a job owes its observers and its caller. -/
def Reports (s : WorkerState) : Prop :=
  ∃ events, (w.execute job s).final.progress = s.progress ++ events ∧ Protocol events ∧
    ((∃ e ∈ events, e.state = .completed) ↔ ∃ r, w.RuntimeEnded job s (.ok r) ∧ r.status = .completed) ∧
    ∀ r, w.RuntimeEnded job s (.ok r) → (w.execute job s).outcome = .ok ⟨r⟩

/-- The resolver raises nothing but its own error. -/
def Resolves : Prop := ∀ e, w.resolver job.skillId.text job.skillVersion.text ≠ .error (.raised e)

/-- The runtime gives a result for the resolved skill, if the job runs at all: no exception escapes the engine, and
under 0.2 no CHECK is recorded twice. -/
def Runs (s : WorkerState) : Prop :=
  ∀ resolved, w.resolver job.skillId.text job.skillVersion.text = .ok resolved →
    resolved.skill.semanticHash = job.expectedSemanticHash →
      (∀ e, (Nsl.execute w.runtime resolved.skill job.toRuntimeRequest s.runtime).outcome = .error e →
        e.isException = true) ∧
      (resolved.skill.isV02 = true →
        Run.Linked RecordsFresh s.runtime
          (Nsl.execute w.runtime resolved.skill job.toRuntimeRequest s.runtime).written
          (Nsl.execute w.runtime resolved.skill job.toRuntimeRequest s.runtime).final)

variable {w job}

omit [Platform] in
/-- Events whose last one is not terminal are no whole job. -/
theorem not_protocol (before : List ProgressEvent) {last : ProgressEvent} (h : last.state.isTerminal = false) :
    ¬ Protocol (before ++ [last]) := by
  rintro ⟨-, -, before', last', heq, hterminal, -⟩
  obtain ⟨-, hlast⟩ := List.append_inj' heq rfl
  cases hlast
  rw [h] at hterminal
  cases hterminal

/-- Where the job does not run, its two events tell it. -/
theorem reports_failed {s : WorkerState} {code : String} {error : WorkerError}
    (hran : ∀ o, ¬ w.RuntimeEnded job s o)
    (h : (w.execute job s).outcome = .error error ∧ (w.execute job s).final.progress =
      s.progress ++ [job.event 1 .started none none, job.event 2 .failed none (some code)]) : w.Reports job s := by
  refine ⟨_, h.2, ⟨rfl, rfl, [job.event 1 .started none none], _, rfl, rfl, ?_⟩, ⟨?_, ?_⟩, ?_⟩
  · intro e he
    rw [List.mem_singleton] at he
    rw [he]
    rfl
  · rintro ⟨e, he, hstate⟩
    simp only [List.mem_cons, List.not_mem_nil, or_false] at he
    rcases he with rfl | rfl <;> cases hstate
  · rintro ⟨r, hr, -⟩
    exact absurd hr (hran _)
  · intro r hr
    exact absurd hr (hran _)

/-- A result of the runtime is reported, and returned. -/
theorem reports_returned {s : WorkerState} {r : ExecutionResult} (hr : ∀ o, w.RuntimeEnded job s o ↔ o = .ok r)
    (h : (w.execute job s).outcome = .ok ⟨r⟩ ∧ (w.execute job s).final.progress = s.progress ++
      [job.event 1 .started none none, job.event 2 .skillResolved none none, job.event 3 .running none none,
        job.event 4 (endState r) (some (StrEnum.value r.status)) (endErrorCode r)]) : w.Reports job s := by
  have hterminal : (endState r).isTerminal = true := by
    unfold endState
    split <;> rfl
  refine ⟨_, h.2, ⟨rfl, rfl, [job.event 1 .started none none, job.event 2 .skillResolved none none,
    job.event 3 .running none none], _, rfl, hterminal, ?_⟩, ⟨?_, ?_⟩, ?_⟩
  · intro e he
    simp only [List.mem_cons, List.not_mem_nil, or_false] at he
    rcases he with rfl | rfl | rfl <;> rfl
  · rintro ⟨e, he, hstate⟩
    refine ⟨r, (hr _).2 rfl, ?_⟩
    simp only [List.mem_cons, List.not_mem_nil, or_false] at he
    rcases he with rfl | rfl | rfl | rfl
    · cases hstate
    · cases hstate
    · cases hstate
    · by_contra hstatus
      unfold SkillExecutionJob.event endState at hstate
      rw [if_neg hstatus] at hstate
      cases hstate
  · rintro ⟨r', hr', hstatus⟩
    cases (hr _).1 hr'
    refine ⟨job.event 4 (endState r) (some (StrEnum.value r.status)) (endErrorCode r), by simp, ?_⟩
    exact if_pos hstatus
  · intro r' hr'
    cases (hr _).1 hr'
    exact h.1

end SkillExecutionWorker

/-! ## A resolver that raises -/

def plainIdentifier : SafeIdentifier := ⟨"job-1", isSafeIdentifier_plain (by decide +kernel) (by decide +kernel)⟩

theorem noEntries_clean : findCredentialPath Platform.word "$" (.dict (Dict.empty : Dict Value).entries) = none := rfl

omit [Platform] in
theorem snapshotsRetained : 0 < 30 := by decide

omit [Platform] in
theorem auditRetained : 0 < 90 := by decide

/-- A job of a verified user, without inputs. -/
def plainJob : SkillExecutionJob where
  executionId          := plainIdentifier
  skillId              := plainIdentifier
  skillVersion         := plainIdentifier
  expectedSemanticHash := ""
  inputs               := ⟨Dict.empty, noEntries_clean⟩
  runtimeContext       := ⟨Dict.empty, noEntries_clean⟩
  principal            := ⟨analyst, analyst_validate true⟩
  dataPolicy           := { snapshotPositive := snapshotsRetained, auditPositive := auditRetained }

/-- A worker that takes every event and never finds a skill. -/
def SkillExecutionWorker.unresolving (e : SkillResolveError) : SkillExecutionWorker where
  runtime      := Env.bare
  resolver     := fun _ _ => .error e
  progressSink := fun _ _ => .ok ()

def WorkerState.start : WorkerState :=
  ⟨[], { skill := loopedCheckSkill, request := plainJob.toRuntimeRequest, startedNs := 0 }, {}⟩

theorem unresolving_raised (e : Exn) (s : WorkerState) :
    ¬ (SkillExecutionWorker.unresolving (.raised e)).Reports plainJob s := by
  rintro ⟨events, hevents, hprotocol, -⟩
  rw [(SkillExecutionWorker.execute_raised (fun _ _ => rfl) rfl s).2] at hevents
  cases List.append_cancel_left hevents
  exact SkillExecutionWorker.not_protocol [] rfl hprotocol

end Worker

section Ascii

attribute [local instance] Platform.ascii

end Ascii
end Nsl
