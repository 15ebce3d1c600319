import Nsl.Plan
import Nsl.SkillData
import Nsl.Writes
/-!
# Engine — one execution from its request to its result

`RuntimeEngine.execute` and `_execute_with_context` (`runtime.py`): authorize, check the skill, bind the inputs, run the
statements and build the result. What goes wrong inside is turned into a failed result by the handler of its class; the
result of a 0.2 skill summarizes its checks, and the summary refuses checks whose identifiers are not unique.
-/
namespace Nsl

open Stateful (Run)

/-! ## Preflight -/

/-- `_SUPPORTED_RUNTIME_PROFILES` -/
def supportedProfile (irVersion languageVersion : String) : Option String :=
  if irVersion = "1.0" ∧ languageVersion = "0.1" then some "NSL-0.1-STRICT"
  else if irVersion = "1.1" ∧ languageVersion = "0.2" then some "NSL-0.2-STRICT"
  else none

mutual
/-- `_contains_write_expression` -/
def containsWrite : Expression → Bool
  | .write ..                          => true
  | .field _ e _ _ | .project _ e _ _  => containsWrite e
  | .call _ _ es _                     => anyContainsWrite es
  | .binary _ _ l r _                  => containsWrite l || containsWrite r
  | .read _ _ es _ _                   => namedContainWrite es
  | .literal .. | .symbolRef ..        => false
def anyContainsWrite : List Expression → Bool
  | []      => false
  | e :: es => containsWrite e || anyContainsWrite es
def namedContainWrite : List (String × Expression) → Bool
  | []           => false
  | (_, e) :: es => containsWrite e || namedContainWrite es
end

mutual
/-- `_contains_controlled_operation` of one statement. -/
def isControlled : Statement → Bool
  | .approval _         => true
  | .letBind s          => containsWrite s.value
  | .foreach _ _ c _ ss => containsWrite c || containsControlled ss
  | .check s            => containsWrite s.condition
  | .emit s             => namedContainWrite s.fields
/-- `_contains_controlled_operation` -/
def containsControlled : List Statement → Bool
  | []      => false
  | s :: ss => isControlled s || containsControlled ss
end

section Engine

variable [Platform]

/-- What `_preflight` asks of one required tool. -/
def preflightTool (env : Env) (allowControlled : Bool) (r : RequiredTool) : Except Exn Unit := do
  let contract ← (match env.catalog.resolve r.toolId r.version with
    | .error (.toolContract m) => .error (.runtimeContract m)
    | other                    => other)
  if contract.contractHash ≠ r.contractHash then throw (.runtimeContract ("tool contract mismatch: " ++ r.toolId))
  if r.capability ≠ "READ" ∧ ¬ (allowControlled ∧ r.capability = "WRITE") then
    throw (.runtimeContract "WRITE capability is forbidden")

/-- `_preflight` -/
def preflight (env : Env) (skill : SkillObject) (allowControlled : Bool) : Except Exn Unit := do
  match supportedProfile skill.irVersion skill.languageVersion with
  | none         => throw (.runtimeContract "unsupported IR or language version")
  | some profile =>
    if skill.semanticsProfile ≠ profile then throw (.runtimeContract "unsupported semantics profile")
    let hash ← skill.computedHash
    if hash ≠ skill.semanticHash then throw (.runtimeContract "semantic hash mismatch")
    if skill.analysis.bounded = false then throw (.runtimeContract "unbounded skill")
    if containsControlled skill.body ∧ allowControlled = false then
      throw (.runtimeContract "Approval and WRITE require the controlled v0.2 execution pipeline")
    if allowControlled then
      let _ ← ControlledExecutionPlan.fromSkill skill
    skill.requiredTools.forM (preflightTool env allowControlled)

/-! ## Inputs and contexts -/

/-- A value that has the runtime type of its declaration, its size observed. -/
def checkedValue (observe : Nat → Run St Exn Unit) (value : Value) (t : TypeRef) (name : String) :
    Run St Exn Unit := do
  Run.ofExcept (validateRuntimeType value t name)
  onList observe value

/-- The declared inputs with their values. -/
def validatedInputs (observe : Nat → Run St Exn Unit) (inputs : Dict Value) :
    List InputSpec → Run St Exn (List (InputSpec × Value))
  | []            => Run.done []
  | spec :: specs =>
    match inputs.get? spec.name with
    | none       =>
      if spec.required then Run.fail (.runtimeContract ("missing required input: " ++ spec.name))
      else Run.fail (.lookup spec.name)
    | some value => do
      checkedValue observe value spec.typeInfo spec.name
      let rest ← validatedInputs observe inputs specs
      Run.done ((spec, value) :: rest)

/-- The declared contexts with their values. -/
def validatedContexts (observe : Nat → Run St Exn Unit) (context : Dict Value) :
    List ContextSpec → Run St Exn (List (ContextSpec × Value))
  | []            => Run.done []
  | spec :: specs =>
    match valueAt context spec.path with
    | .error _  => Run.fail (.runtimeContract ("missing runtime context path: " ++ Text.join "." spec.path))
    | .ok value => do
      checkedValue observe value spec.typeInfo spec.name
      let rest ← validatedContexts observe context specs
      Run.done ((spec, value) :: rest)

variable (env : Env)

/-- `_bind_inputs_and_contexts`, with `_validated_input_context_bindings` -/
def bindInputsAndContexts (skill : SkillObject) (request : ExecutionRequest) : Run St Exn Unit := do
  let inputs ← validatedInputs (observeCollection env) request.inputs skill.inputs
  let contexts ← validatedContexts (observeCollection env) request.runtimeContext skill.contexts
  Run.forEach (fun (spec, value) =>
    bindInput spec.symbolId (ValueEnvelope.ofComplete value spec.typeInfo spec.classification [])) inputs
  Run.forEach (fun (spec, value) =>
    bindContext spec.symbolId (ValueEnvelope.ofComplete value spec.typeInfo spec.classification [])) contexts

/-! ## Results -/

/-- `_result` -/
def resultOf (ctx : Context) (status : ExecutionStatus) (error : Option RuntimeErrorInfo) :
    Except Exn ExecutionResult := do
  let validation ← (if ctx.skill.isV02 then (ValidationSummary.fromChecks ctx.checks).map some else .ok none)
  return { executionId := ctx.request.executionId.text, skillId := ctx.skill.skillId,
           skillVersion := ctx.skill.skillVersion, semanticHash := ctx.skill.semanticHash, status,
           completeness := ctx.resultCompleteness status, checks := ctx.checks, outputs := ctx.outputs,
           resources := ctx.usage, error, validation }

def isSensitive (v : ValueEnvelope) : Bool := v.classification = .confidential || v.classification = .restricted

/-- `_sensitive_values` -/
def sensitiveValues (ctx : Context) : List String :=
  let namespaces := [ctx.inputValues, ctx.contextValues] ++ ctx.frames.all.reverse ++ ctx.checkFrames.all.reverse ++
    ctx.outputs.map (·.fields)
  ((namespaces.flatMap (fun d => d.values.filter isSensitive)).flatMap
    (fun v => collectSensitiveText (encodeValue v.value))).eraseDups

/-- What a handler of `_execute_with_context` passes to `_failed`. -/
structure Failure where
  code        : String
  category    : String
  message     : String
  status      : ExecutionStatus := .failed
  detailCode  : Option String := none
  nodeId      : Option String := none
  decisionRef : Option String := none

/-- The handler of each class of exceptions; none where no handler takes it. -/
def failureOf (error : Exn) : Option Failure :=
  match error with
  | .authorization m ref         => some { code := "NSL-E5201", category := "AUTHORIZATION", message := m, decisionRef := ref }
  | .permission m                => some { code := "NSL-E5202", category := "AUTHORIZATION", message := m }
  | .toolExecution code m        =>
    some { code := if code = "TOOL_CONTRACT_MISMATCH" then "NSL-E4001" else "NSL-E4101", category := "TOOL", message := m,
           status := .toolError, detailCode := some code }
  | .limitExceeded m             =>
    some { code := "NSL-E6001", category := "RESOURCE", message := m, status := .limitExceeded }
  | .immutableBinding m          =>
    some { code := "NSL-E8001", category := "RUNTIME", message := m, detailCode := some "IMMUTABLE_BINDING_ERROR" }
  | .expressionEvaluation n d _  =>
    some { code := "NSL-E8001", category := "RUNTIME", message := error.message, detailCode := some d, nodeId := some n }
  | .runtimeContract m           => some { code := "NSL-E8001", category := "RUNTIME", message := m }
  | .money m                     => some { code := "NSL-E8001", category := "RUNTIME", message := m }
  | .cancelled _ | .exit         => none
  | _                            =>
    some { code := "NSL-E8002", category := "RUNTIME", message := "An unexpected runtime error occurred." }

omit [Platform] in
/-- A handler takes every `Exception` and nothing else. -/
theorem failureOf_isSome (error : Exn) : (failureOf error).isSome = error.isException := by
  cases error <;> rfl

/-- The error a failed result carries, without what is sensitive. -/
def failureInfo (ctx : Context) (f : Failure) : RuntimeErrorInfo :=
  ⟨f.code, f.category, redact f.message (sensitiveValues ctx), f.nodeId,
    f.detailCode.map (fun d => redact d (sensitiveValues ctx))⟩

/-- The payload of `EXECUTION_FAILED`. -/
def failedPayload (ctx : Context) (f : Failure) (info : RuntimeErrorInfo) : List (String × Value) :=
  let node := optionalStr (f.nodeId.or ctx.currentNodeId)
  [("execution_id", .str ctx.request.executionId.text), ("status", .str (StrEnum.value f.status)),
   ("completeness", .str (StrEnum.value (ctx.resultCompleteness f.status))), ("error_code", .str f.code),
   ("category", .str f.category), ("message", .str info.message), ("detail_code", optionalStr info.detailCode),
   ("node_id", node), ("location", .dict [("phase", .str f.category), ("node_id", node)]),
   ("cause", .dict [("error_code", .str f.code), ("detail_code", optionalStr info.detailCode)]),
   ("authorization_decision_ref", optionalStr f.decisionRef)]

/-- `_failed` -/
def failed (f : Failure) : Run St Exn ExecutionResult := do
  let ctx ← getCtx
  emit env "EXECUTION_FAILED" (failedPayload ctx f (failureInfo ctx f))
  Run.ofExcept (resultOf ctx f.status (some (failureInfo ctx f)))

/-! ## Execution -/

/-- The payload of `EXECUTION_STARTED`. -/
def startedPayload (skill : SkillObject) (request : ExecutionRequest) (principal : ExecutionPrincipal)
    (decision : AuthorizationDecision) (inputRef contextRef : Option SnapshotRef)
    (inputHash contextHash : String) (inputClass contextClass : DataClassification) : List (String × Value) :=
  let carried (ref : Option SnapshotRef) (hash : String) (c : DataClassification) : Value :=
    .dict [("snapshot_ref", optionalStr (ref.map (·.snapshotId))), ("value_hash", .str hash),
      ("classification", .str (StrEnum.value c))]
  [("execution_id", .str request.executionId.text), ("skill_id", .str skill.skillId),
   ("skill_version", .str skill.skillVersion), ("semantic_hash", .str skill.semanticHash),
   ("runtime_version", .str RUNTIME_VERSION), ("tenant_id", .str principal.tenantId),
   ("subject_id", .str principal.subjectId), ("auth_context_ref", .str principal.authContextRef),
   ("authorization_decision_ref", .str decision.decisionId),
   ("input_snapshot_ref", optionalStr (inputRef.map (·.snapshotId))), ("input_hash", .str inputHash),
   ("input", carried inputRef inputHash inputClass),
   ("context_snapshot_ref", optionalStr (contextRef.map (·.snapshotId))), ("context_hash", .str contextHash),
   ("context", carried contextRef contextHash contextClass)]

/-- From the snapshots of the request to `EXECUTION_STARTED`. -/
def executionStarted (skill : SkillObject) (request : ExecutionRequest) (principal : ExecutionPrincipal)
    (decision : AuthorizationDecision) : Run St Exn Unit := do
  let declaredContext ← Run.ofExcept (projectDeclaredContext skill request.runtimeContext)
  let inputClass := carriedClassification (projectDeclaredInputs skill request.inputs) request.inputs
    (skill.inputs.map (·.classification))
  let contextClass := carriedClassification declaredContext request.runtimeContext
    (skill.contexts.map (·.classification))
  let inputRef ← putSnapshot env (.dict request.inputs.entries) inputClass
  let contextRef ← putSnapshot env (.dict request.runtimeContext.entries) contextClass
  let inputHash ← Run.ofExcept (valueHash (.dict request.inputs.entries))
  let contextHash ← Run.ofExcept (valueHash (.dict request.runtimeContext.entries))
  emit env "EXECUTION_STARTED"
    (startedPayload skill request principal decision inputRef contextRef inputHash contextHash inputClass contextClass)

/-- The payload of `EXECUTION_COMPLETED`. -/
def completedPayload (result : ExecutionResult) (decision : AuthorizationDecision) : List (String × Value) :=
  [("execution_id", .str result.executionId), ("status", .str (StrEnum.value result.status)),
   ("completeness", .str (StrEnum.value result.completeness)), ("output_count", .int result.outputs.length),
   ("check_count", .int result.checks.length), ("authorization_decision_ref", .str decision.decisionId)]

/-- The part of the `try` that records no check of its own: everything before the statements. -/
def executionPrologue (skill : SkillObject) (request : ExecutionRequest) (principal : ExecutionPrincipal)
    (decision : AuthorizationDecision) (allowControlled : Bool) : Run St Exn Unit := do
  checkDeadline env
  Run.ofExcept (preflight env skill allowControlled)
  executionStarted env skill request principal decision
  bindInputsAndContexts env skill request

/-- The end of the `try`. -/
def executionEpilogue (decision : AuthorizationDecision) : Run St Exn ExecutionResult := do
  checkDeadline env
  let ctx ← getCtx
  let result ← Run.ofExcept (resultOf ctx .completed none)
  emit env "EXECUTION_COMPLETED" (completedPayload result decision)
  Run.done result

/-- The `try` of `_execute_with_context`. -/
def executionBody (skill : SkillObject) (request : ExecutionRequest) (principal : ExecutionPrincipal)
    (decision : AuthorizationDecision) (statements : List Statement) (allowControlled : Bool) :
    Run St Exn ExecutionResult := do
  executionPrologue env skill request principal decision allowControlled
  executeBlock env statements
  executionEpilogue env decision

/-- The `except` clauses. -/
def onFailure (error : Exn) : Run St Exn ExecutionResult :=
  match failureOf error with
  | some f => failed env f
  | none   => Run.fail error

/-- The `try` with its handlers. -/
def executionTry (skill : SkillObject) (request : ExecutionRequest) (principal : ExecutionPrincipal)
    (decision : AuthorizationDecision) (statements : List Statement) (allowControlled : Bool) :
    Run St Exn ExecutionResult :=
  Run.handle (executionBody env skill request principal decision statements allowControlled) (onFailure env)

/-- `_validate_execution_principal` and the authorization of the skill. -/
def authorizeExecution (skill : SkillObject) (principal : Option ExecutionPrincipal) :
    Except Exn (ExecutionPrincipal × AuthorizationDecision) :=
  match principal with
  | none   => .error (.authorization "verified execution principal is required" none)
  | some p => do
    p.validate (env.environment = .production)
    let decision ← env.authorizer.authorize p ("skill:" ++ skill.skillId ++ ":execute") ["nsl:skill:execute"]
    return (p, decision)

/-- The payload of `EXECUTION_REJECTED`. -/
def rejectedPayload (skill : SkillObject) (request : ExecutionRequest) (message : String)
    (decisionRef : Option String) : List (String × Value) :=
  [("execution_id", .str request.executionId.text), ("skill_id", .str skill.skillId),
   ("skill_version", .str skill.skillVersion), ("semantic_hash", .str skill.semanticHash),
   ("runtime_version", .str RUNTIME_VERSION), ("error_code", .str "NSL-E5201"), ("category", .str "AUTHORIZATION"),
   ("message", .str message), ("location", .dict [("phase", .str "AUTHORIZATION"), ("node_id", .null)]),
   ("cause", .dict [("error_code", .str "NSL-E5201"), ("detail_code", .null)]),
   ("authorization_decision_ref", optionalStr decisionRef),
   ("authorization_decision_status", .str (if decisionRef = none then "NOT_EVALUATED" else "DENY"))]

/-- `_reject_execution` -/
def rejectExecution (skill : SkillObject) (request : ExecutionRequest) (message : String)
    (decisionRef : Option String) : Run St Exn ExecutionResult := do
  let message := redact message []
  emit env "EXECUTION_REJECTED"
    (rejectedPayload skill request message decisionRef)
  Run.done
    { executionId := request.executionId.text, skillId := skill.skillId, skillVersion := skill.skillVersion,
      semanticHash := skill.semanticHash, status := .failed, completeness := .unknown, checks := [], outputs := [],
      resources := ⟨0, 0, 0, 0⟩, error := some ⟨"NSL-E5201", "AUTHORIZATION", message, none, none⟩, validation := none }

/-- The engine's surroundings for one execution: its recorder, and its tools measured. -/
def Env.forExecution (skill : SkillObject) (request : ExecutionRequest) : Env :=
  { env with measured := true, recorder := some (Recorder.make skill request) }

/-- A new `AuditRecorder` starts its chain. -/
def startChain : Run St Exn Unit := modifyWorld (fun w => { w with sequence := 0, previousEventHash := none })

/-- `ExecutionContext(...)`: a fresh context takes the place of the one before it. -/
def newContext (skill : SkillObject) (request : ExecutionRequest) : Run St Exn Unit := do
  let now ← readClock env
  modifyCtx (fun _ => { skill, request, startedNs := now })

/-- `_execute_with_context`; the context is there unless the execution was rejected. -/
def executeWithContext (skill : SkillObject) (request : ExecutionRequest) (statements : List Statement)
    (allowControlled : Bool) : Run St Exn (ExecutionResult × Option Context) := do
  let env := env.forExecution skill request
  startChain
  match authorizeExecution env skill request.principal with
  | .error (.authorization message ref) => do
    let result ← rejectExecution env skill request message ref
    Run.done (result, none)
  | .error e                            => Run.fail e
  | .ok (principal, decision)           => do
    newContext env skill request
    let result ← executionTry env skill request principal decision statements allowControlled
    let ctx ← getCtx
    Run.done (result, some ctx)

/-- `execute` -/
def execute (skill : SkillObject) (request : ExecutionRequest) : Run St Exn ExecutionResult := do
  let (result, _) ← executeWithContext env skill request skill.body false
  Run.done result

/-! ## What an execution writes -/

variable {env}

theorem checkedValue_still {observe : Nat → Run St Exn Unit} (h : ∀ n, Stills env (observe n)) (value : Value)
    (t : TypeRef) (name : String) : Stills env (checkedValue observe value t name) :=
  (Stills.ofExcept _).bind (fun _ => onList_still env h value)

theorem validatedInputs_still {observe : Nat → Run St Exn Unit} (h : ∀ n, Stills env (observe n)) (inputs : Dict Value) :
    ∀ (specs : List InputSpec), Stills env (validatedInputs observe inputs specs)
  | []            => Stills.done _
  | spec :: specs => by
    unfold validatedInputs
    split
    · split
      · exact Stills.fail _
      · exact Stills.fail _
    · exact (checkedValue_still h _ _ _).bind (fun _ => (validatedInputs_still h inputs specs).bind
        (fun _ => Stills.done _))

theorem validatedContexts_still {observe : Nat → Run St Exn Unit} (h : ∀ n, Stills env (observe n)) (context : Dict Value) :
    ∀ (specs : List ContextSpec), Stills env (validatedContexts observe context specs)
  | []            => Stills.done _
  | spec :: specs => by
    unfold validatedContexts
    split
    · exact Stills.fail _
    · exact (checkedValue_still h _ _ _).bind (fun _ => (validatedContexts_still h context specs).bind
        (fun _ => Stills.done _))

variable (env)

theorem executionStarted_still (skill : SkillObject) (request : ExecutionRequest) (principal : ExecutionPrincipal)
    (decision : AuthorizationDecision) : Stills env (executionStarted env skill request principal decision) :=
  (Stills.ofExcept _).bind (fun _ => (putSnapshot_still env _ _).bind (fun _ => (putSnapshot_still env _ _).bind
    (fun _ => (Stills.ofExcept _).bind (fun _ => (Stills.ofExcept _).bind (fun _ => emit_still env _ _)))))

theorem executionEpilogue_still (decision : AuthorizationDecision) : Stills env (executionEpilogue env decision) :=
  (checkDeadline_still env).bind (fun _ => (Stills.look _).bind (fun _ => (Stills.ofExcept _).bind (fun _ =>
    (emit_still env _ _).bind (fun _ => Stills.done _))))

theorem onFailure_still (error : Exn) : Stills env (onFailure env error) := by
  unfold onFailure
  split
  · exact (Stills.look _).bind (fun _ => (emit_still env _ _).bind (fun _ => Stills.ofExcept _))
  · exact Stills.fail _

theorem executionPrologue_writes (skill : SkillObject) (request : ExecutionRequest) (principal : ExecutionPrincipal)
    (decision : AuthorizationDecision) (allowControlled : Bool) :
    Writes env (executionPrologue env skill request principal decision allowControlled) := by
  have hbind : Writes env (bindInputsAndContexts env skill request) :=
    (validatedInputs_still (observeCollection_still env) _ _).quiets.writes.bind (fun inputs =>
      (validatedContexts_still (observeCollection_still env) _ _).quiets.writes.bind (fun contexts =>
        (Writes.forEach (fun _ => bindInput_writes env _ _) inputs).bind (fun _ =>
          Writes.forEach (fun _ => bindContext_writes env _ _) contexts)))
  exact (checkDeadline_quiet env).writes.bind (fun _ => (Writes.ofExcept _).bind (fun _ =>
    (executionStarted_still env skill request principal decision).quiets.writes.bind (fun _ => hbind)))

theorem executionBody_writes (skill : SkillObject) (request : ExecutionRequest) (principal : ExecutionPrincipal)
    (decision : AuthorizationDecision) (statements : List Statement) (allowControlled : Bool) :
    Writes env (executionBody env skill request principal decision statements allowControlled) :=
  (executionPrologue_writes env skill request principal decision allowControlled).bind (fun _ =>
    (executeBlock_writes env statements).bind (fun _ => (executionEpilogue_still env decision).quiets.writes))

theorem executionTry_writes (skill : SkillObject) (request : ExecutionRequest) (principal : ExecutionPrincipal)
    (decision : AuthorizationDecision) (statements : List Statement) (allowControlled : Bool) :
    Writes env (executionTry env skill request principal decision statements allowControlled) :=
  (executionBody_writes env skill request principal decision statements allowControlled).handle
    (fun e => (onFailure_still env e).quiets.writes)

end Engine
end Nsl
