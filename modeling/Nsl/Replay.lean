import Nsl.CallsAnnounced
import Nsl.ReplayComparison
import Nsl.ResultCodec
/-!
# Replay — an execution recorded, and executed again from its record

`replay.py`: a recording executor keeps what the tools answer, a bundle keeps that with the inputs of the execution and the
semantic view of its result, and a replay executes the skill again on what was kept and compares the views. The store of
snapshots is a parameter: what it answers to a put may depend on the puts before.
-/
namespace Nsl

open Stateful (Run)

theorem dataHandlingPolicy_eq_iff (a b : DataHandlingPolicy) : (a.maxTraceClassification = b.maxTraceClassification ∧
    a.snapshotRetentionDays = b.snapshotRetentionDays ∧ a.auditRetentionDays = b.auditRetentionDays) ↔ a = b := by
  cases a
  cases b
  simp

instance : DecidableEq DataHandlingPolicy := fun a b => decidable_of_iff _ (dataHandlingPolicy_eq_iff a b)

/-! ## An object behind a port -/

section Replay

variable [Platform]

/-- An object that is called as a tool executor: its state at first, and what a call does. -/
structure ToolObject (σ : Type) where
  start   : σ
  execute : σ → ToolCallRequest → σ × PortAnswer

namespace ToolObject

variable {σ : Type} (o : ToolObject σ)

/-- The state after some calls. -/
def after (requests : List ToolCallRequest) : σ := requests.foldl (fun state q => (o.execute state q).1) o.start

/-- The object as a port. -/
def port : ToolPort := fun calls q => (o.execute (o.after (calls.map Prod.fst)) q).2

omit [Platform] in
theorem after_snoc (requests : List ToolCallRequest) (q : ToolCallRequest) :
    o.after (requests ++ [q]) = (o.execute (o.after requests) q).1 := by
  unfold after
  rw [List.foldl_append]
  rfl

end ToolObject

/-! ## Snapshots -/

/-- What a store keeps for a replay: a result of a tool, or a value. -/
inductive ReplayItem
  | result (r : RawToolResult)
  | value (v : Value)

/-- What was put, each with the reference to it. -/
abbrev Snapshots := List (SnapshotRef × ReplayItem)

/-- A `SnapshotStore`: the reference for a put after other puts, and what a reference gives a principal after them. A value
is hashed when it is put. -/
structure ReplayStore where
  put    : Snapshots → String → ReplayItem → Option DataClassification → Nat → Except Exn SnapshotRef
  get    : Snapshots → SnapshotRef → ExecutionPrincipal → Except Exn ReplayItem
  hashed : ∀ held tenantId v classification days ref, put held tenantId (.value v) classification days = .ok ref →
    (valueHash v).isOk = true

/-- What was put and its reference, beside the puts before. -/
def ReplayStore.add (store : ReplayStore) (held : Snapshots) (tenantId : String) (x : ReplayItem)
    (classification : Option DataClassification) (days : Nat) : Except Exn (SnapshotRef × Snapshots) := do
  let ref ← store.put held tenantId x classification days
  return (ref, held ++ [(ref, x)])

/-! ## Recording -/

structure RecordedToolCall where
  toolId       : String
  toolVersion  : String
  argumentHash : String
  resultRef    : SnapshotRef

structure RecordingToolExecutor where
  delegate : ToolPort
  store    : ReplayStore
  policy   : DataHandlingPolicy

/-- The state of a `RecordingToolExecutor`: what its delegate answered, what its store keeps, and its calls. -/
structure Recording where
  answered : List (ToolCallRequest × PortAnswer) := []
  held     : Snapshots := []
  calls    : List RecordedToolCall := []

/-- `RecordingToolExecutor.execute`, once the delegate returned a result. -/
def RecordingToolExecutor.record (x : RecordingToolExecutor) (state : Recording) (q : ToolCallRequest) (r : RawToolResult) :
    Recording × PortAnswer :=
  -- the material of the hash asks for the values of both enumerations first
  if r.presence = none ∨ r.completeness = none then (state, .raises (.attribute "object has no attribute 'value'"))
  else
    match x.store.add state.held q.principal.tenantId (.result r) r.classification x.policy.snapshotRetentionDays with
    | .error e        => (state, .raises e)
    | .ok (ref, held) =>
      match argumentHash q with
      | .error e => ({ state with held }, .raises e)
      | .ok hash =>
        ({ state with held, calls := state.calls ++ [⟨q.toolId, q.toolVersion, hash, ref⟩] },
          .returns { r with snapshotRef := some (some ref.snapshotId) })

/-- `RecordingToolExecutor.execute` -/
def RecordingToolExecutor.execute (x : RecordingToolExecutor) (state : Recording) (q : ToolCallRequest) :
    Recording × PortAnswer :=
  let answer := x.delegate state.answered q
  let state := { state with answered := state.answered ++ [(q, answer)] }
  match answer with
  | .raises e     => (state, .raises e)
  | .returnsOther => (state, .raises (.attribute "object has no attribute 'classification'"))
  | .returns r    => x.record state q r

def RecordingToolExecutor.object (x : RecordingToolExecutor) : ToolObject Recording := ⟨{}, x.execute⟩

/-- **A call that returned is on record**: what the delegate returned was put, and the answer refers to it. -/
theorem RecordingToolExecutor.execute_returns {x : RecordingToolExecutor} {state : Recording} {q : ToolCallRequest}
    {answer : RawToolResult} (h : (x.execute state q).2 = .returns answer) :
    ∃ r ref hash, argumentHash q = .ok hash ∧ answer = { r with snapshotRef := some (some ref.snapshotId) } ∧
      (x.execute state q).1.calls = state.calls ++ [⟨q.toolId, q.toolVersion, hash, ref⟩] ∧
      (x.execute state q).1.held = state.held ++ [(ref, .result r)] := by
  unfold RecordingToolExecutor.execute RecordingToolExecutor.record at h ⊢
  cases hdelegate : x.delegate state.answered q with
  | raises e     => rw [hdelegate] at h; cases h
  | returnsOther => rw [hdelegate] at h; cases h
  | returns r    =>
    rw [hdelegate] at h
    dsimp only at h ⊢
    split at h
    · cases h
    · rename_i hvalues
      rw [if_neg hvalues]
      cases hput : x.store.put state.held q.principal.tenantId (.result r) r.classification x.policy.snapshotRetentionDays with
      | error e => simp only [ReplayStore.add, hput] at h; cases h
      | ok ref  =>
        simp only [ReplayStore.add, hput] at h ⊢
        cases hhash : argumentHash q with
        | error e => rw [hhash] at h; cases h
        | ok hash =>
          rw [hhash] at h
          cases h
          exact ⟨r, ref, hash, rfl, rfl, rfl, rfl⟩

/-! ## Replaying -/

structure ReplayToolExecutor where
  calls : List RecordedToolCall
  get   : SnapshotRef → ExecutionPrincipal → Except Exn ReplayItem

/-- The state of a `ReplayToolExecutor`. -/
structure ReplayPosition where
  index     : Nat := 0
  callCount : Nat := 0

/-- What the recorded call answers to the request. -/
def ReplayToolExecutor.answer (x : ReplayToolExecutor) (expected : RecordedToolCall) (q : ToolCallRequest) : PortAnswer :=
  let mismatch : PortAnswer := .raises (.other "replay tool call does not match recorded invocation")
  if expected.toolId ≠ q.toolId ∨ expected.toolVersion ≠ q.toolVersion then mismatch
  else
    match argumentHash q with
    | .error e => .raises e
    | .ok hash =>
      if expected.argumentHash ≠ hash then mismatch
      else
        match x.get expected.resultRef q.principal with
        | .error e       => .raises e
        | .ok (.value _) => .raises (.type "invalid tool result snapshot")
        | .ok (.result r) =>
          .returns { r with invocationId := some q.invocationId, snapshotRef := some (some expected.resultRef.snapshotId) }

/-- `ReplayToolExecutor.execute` -/
def ReplayToolExecutor.execute (x : ReplayToolExecutor) (p : ReplayPosition) (q : ToolCallRequest) : ReplayPosition × PortAnswer :=
  let p := { p with callCount := p.callCount + 1 }
  match x.calls[p.index]? with
  | none          => (p, .raises (.other "replay requested more tool calls than recorded"))
  | some expected => ({ p with index := p.index + 1 }, x.answer expected q)

def ReplayToolExecutor.object (x : ReplayToolExecutor) : ToolObject ReplayPosition := ⟨{}, x.execute⟩

/-- After some calls the executor has taken as many of its own, as long as there are. -/
theorem ReplayToolExecutor.after_eq (x : ReplayToolExecutor) (requests : List ToolCallRequest) :
    x.object.after requests = ⟨min requests.length x.calls.length, requests.length⟩ := by
  induction requests using List.reverseRecOn with
  | nil               => exact congrArg (ReplayPosition.mk · 0) (Nat.zero_min _).symm
  | append_singleton requests q ih =>
    rw [x.object.after_snoc, ih]
    show (x.execute _ q).1 = _
    unfold ReplayToolExecutor.execute
    dsimp only
    rw [List.length_append, List.length_singleton]
    by_cases hlt : requests.length < x.calls.length
    · rw [Nat.min_eq_left hlt.le, Nat.min_eq_left hlt, List.getElem?_eq_getElem hlt]
    · rw [Nat.min_eq_right (not_lt.1 hlt), Nat.min_eq_right (by omega), List.getElem?_eq_none le_rfl]

/-- The call after some others is answered by the recorded one in its place. -/
theorem ReplayToolExecutor.port_apply {x : ReplayToolExecutor} {calls : List (ToolCallRequest × PortAnswer)}
    {expected : RecordedToolCall} (h : x.calls[calls.length]? = some expected) (q : ToolCallRequest) :
    x.object.port calls q = x.answer expected q := by
  have hlt : calls.length < x.calls.length := (List.getElem?_eq_some_iff.1 h).1
  show (x.execute (x.object.after (calls.map Prod.fst)) q).2 = _
  rw [x.after_eq, List.length_map, Nat.min_eq_left hlt.le]
  unfold ReplayToolExecutor.execute
  dsimp only
  rw [h]

/-- A call after all recorded ones is refused. -/
theorem ReplayToolExecutor.port_beyond {x : ReplayToolExecutor} {calls : List (ToolCallRequest × PortAnswer)}
    (h : x.calls.length ≤ calls.length) (q : ToolCallRequest) :
    x.object.port calls q = .raises (.other "replay requested more tool calls than recorded") := by
  show (x.execute (x.object.after (calls.map Prod.fst)) q).2 = _
  rw [x.after_eq, List.length_map, Nat.min_eq_right h]
  unfold ReplayToolExecutor.execute
  dsimp only
  rw [List.getElem?_eq_none le_rfl]

/-- `assert_consumed` -/
def ReplayToolExecutor.assertConsumed (x : ReplayToolExecutor) (p : ReplayPosition) : Except Exn Unit :=
  if p.index ≠ x.calls.length then .error (.other "replay did not consume all recorded tool calls") else .ok ()

/-! ## Bundles -/

/-- `ReplayBundle`: its texts are there, and its references are of one tenant. -/
structure ReplayBundle where
  semanticHash        : String
  tenantId            : String
  inputsRef           : SnapshotRef
  contextRef          : SnapshotRef
  toolCalls           : List RecordedToolCall
  originalExecutionId : String
  runtimeVersion      : String
  originalResultRef   : Option SnapshotRef
  hashed              : semanticHash ≠ ""
  tenant              : tenantId ≠ ""
  identified          : originalExecutionId ≠ ""
  versioned           : runtimeVersion ≠ ""
  oneTenant           : ∀ ref ∈ [inputsRef, contextRef] ++ toolCalls.map (·.resultRef) ++ originalResultRef.toList,
    ref.tenantId = tenantId

/-- `ReplayBundle(...)` -/
def ReplayBundle.create (semanticHash tenantId : String) (inputsRef contextRef : SnapshotRef) (toolCalls : List RecordedToolCall)
    (originalExecutionId runtimeVersion : String) (originalResultRef : Option SnapshotRef) : Except Exn ReplayBundle :=
  if hashed : semanticHash = "" then .error (.value "replay semantic_hash must be non-empty")
  else if tenant : tenantId = "" then .error (.value "replay tenant_id must be non-empty")
  else if identified : originalExecutionId = "" then .error (.value "replay original_execution_id must be non-empty")
  else if versioned : runtimeVersion = "" then .error (.value "replay runtime_version must be non-empty")
  else if oneTenant : ∀ ref ∈ [inputsRef, contextRef] ++ toolCalls.map (·.resultRef) ++ originalResultRef.toList,
      ref.tenantId = tenantId then
    .ok { semanticHash, tenantId, inputsRef, contextRef, toolCalls, originalExecutionId, runtimeVersion, originalResultRef,
          hashed, tenant, identified, versioned, oneTenant }
  else .error (.value "replay bundle contains a cross-tenant snapshot reference")

/-- What `create_replay_bundle` checks first. -/
def checkRecorded (skill : SkillObject) (request : ExecutionRequest) (originalResult : ExecutionResult)
    (recorder : RecordingToolExecutor) : Except Exn Unit :=
  if originalResult.executionId ≠ request.executionId.text then
    .error (.value "original result execution_id does not match request")
  else if originalResult.semanticHash ≠ skill.semanticHash then
    .error (.value "original result semantic hash does not match skill")
  else if recorder.policy ≠ request.dataPolicy then .error (.value "recording and execution data policies do not match")
  else .ok ()

def ExecutionRequest.principalTenant (request : ExecutionRequest) : Except Exn String :=
  match request.principal with
  | none   => .error (.attribute "'NoneType' object has no attribute 'tenant_id'")
  | some p => .ok p.tenantId

/-- `create_replay_bundle` for a recorder and its store, with what the store keeps then. -/
def createReplayBundle (skill : SkillObject) (request : ExecutionRequest) (originalResult : ExecutionResult)
    (recorder : RecordingToolExecutor) (recording : Recording) (runtimeVersion : String := RUNTIME_VERSION) :
    Except Exn (ReplayBundle × Snapshots) := do
  checkRecorded skill request originalResult recorder
  let inputs := Dict.ofList (projectDeclaredInputs skill request.inputs)
  let context ← projectDeclaredContext skill request.runtimeContext
  let tenantId ← request.principalTenant
  let days := request.dataPolicy.snapshotRetentionDays
  let (inputsRef, held) ← recorder.store.add recording.held tenantId (.value (.dict inputs.entries))
    (highestDeclared (skill.inputs.map (·.classification))) days
  let (contextRef, held) ← recorder.store.add held tenantId (.value (.dict context))
    (highestDeclared (skill.contexts.map (·.classification))) days
  let view ← semanticResultView originalResult
  let (originalResultRef, held) ← recorder.store.add held tenantId (.value (.dict view))
    (highestDeclared (skill.inputs.map (·.classification) ++ skill.contexts.map (·.classification) ++
      skill.outputs.map (·.classification))) days
  let bundle ← ReplayBundle.create skill.semanticHash tenantId inputsRef contextRef recording.calls originalResult.executionId
    runtimeVersion (some originalResultRef)
  return (bundle, held)

/-- A snapshot that has to be a mapping. -/
def mappingOf (stored : ReplayItem) (name : String) : Except Exn (Dict Value) :=
  match stored with
  | .value (.dict items) => .ok (Dict.ofList items)
  | _                    => .error (.value (name ++ " must be a mapping"))

/-- `load_replay_inputs` -/
def loadReplayInputs (bundle : ReplayBundle) (get : SnapshotRef → ExecutionPrincipal → Except Exn ReplayItem)
    (principal : ExecutionPrincipal) : Except Exn (ReplayItem × ReplayItem) := do
  if bundle.tenantId ≠ principal.tenantId then throw (.permission "cross-tenant replay is forbidden")
  let inputs ← get bundle.inputsRef principal
  let context ← get bundle.contextRef principal
  return (inputs, context)

/-- A mapping without credential material. -/
def credentialFree (d : Dict Value) (surface : String) :
    Except Exn { d : Dict Value // findCredentialPath Platform.word "$" (.dict d.entries) = none } :=
  match hclean : findCredentialPath Platform.word "$" (.dict d.entries) with
  | none      => .ok ⟨d, hclean⟩
  | some path => .error (.value ("credential material is forbidden in " ++ surface ++ " at " ++ path))

/-- `ExecutionRequest(...)` of a replay -/
def ExecutionRequest.ofStored (executionId : String) (inputs context : ReplayItem) (principal : ExecutionPrincipal)
    (policy : DataHandlingPolicy) : Except Exn ExecutionRequest := do
  let id ← requiredIdentity executionId "ExecutionRequest.execution_id"
  let inputs ← mappingOf inputs "inputs"
  let context ← mappingOf context "runtime_context"
  let ⟨inputs, inputsClean⟩ ← credentialFree inputs "ExecutionRequest.inputs"
  let ⟨runtimeContext, contextClean⟩ ← credentialFree context "ExecutionRequest.runtime_context"
  return { executionId := id, inputs, runtimeContext, principal := some principal, dataPolicy := policy,
           businessOperationId := none, inputsClean, contextClean }

/-! ## Replays -/

structure ReplayExecution where
  result        : ExecutionResult
  toolCallCount : Nat

structure ReplayReport where
  execution              : ReplayExecution
  matched                : Bool
  differences            : List ReplayDifference
  originalRuntimeVersion : String
  replayRuntimeVersion   : String
  runtimeVersionChanged  : Bool

/-- What `replay_previous_execution` does before it calls the runtime. -/
def replayExecutionRequest (bundle : ReplayBundle) (skill : SkillObject) (replayExecutionId : String) (principal : ExecutionPrincipal)
    (policy : DataHandlingPolicy) (get : SnapshotRef → ExecutionPrincipal → Except Exn ReplayItem) :
    Except Exn ExecutionRequest := do
  if Text.isBlank replayExecutionId then throw (.value "replay_execution_id must be non-empty")
  if bundle.semanticHash ≠ skill.semanticHash then throw (.value "replay bundle semantic hash does not match skill")
  let (inputs, context) ← loadReplayInputs bundle get principal
  ExecutionRequest.ofStored replayExecutionId inputs context principal policy

/-- `replay_previous_execution`, by an engine whose tools are the recorded ones: they have not been called yet. -/
def replayPreviousExecution (env : Env) (bundle : ReplayBundle) (skill : SkillObject) (replayExecutionId : String)
    (principal : ExecutionPrincipal) (policy : DataHandlingPolicy)
    (get : SnapshotRef → ExecutionPrincipal → Except Exn ReplayItem) : Run St Exn ReplayExecution := do
  let request ← Run.ofExcept (replayExecutionRequest bundle skill replayExecutionId principal policy get)
  let tools : ReplayToolExecutor := ⟨bundle.toolCalls, get⟩
  modifyWorld (fun w => { w with calls := [] })
  let result ← execute { env with port := tools.object.port } skill request
  let calls ← Run.look (fun s => s.world.calls)
  let position := tools.object.after (calls.map Prod.fst)
  Run.ofExcept (tools.assertConsumed position)
  Run.done ⟨result, position.callCount⟩

/-- `compare_replay_values` of two views, which are documents. -/
def compareViews (floatValue : String → ℚ) (original replayed : Value) : Except Exn (List ReplayDifference) := do
  let original ← toJson original
  let replayed ← toJson replayed
  return compareReplayValues floatValue original replayed

/-- `replay_and_compare` -/
def replayAndCompare (floatValue : String → ℚ) (env : Env) (bundle : ReplayBundle) (skill : SkillObject)
    (replayExecutionId : String) (principal : ExecutionPrincipal) (policy : DataHandlingPolicy)
    (get : SnapshotRef → ExecutionPrincipal → Except Exn ReplayItem) (runtimeVersion : String := RUNTIME_VERSION) :
    Run St Exn ReplayReport := do
  if runtimeVersion = "" then Run.fail (.value "replay runtime_version must be non-empty")
  else do
    let ref ← Run.ofExcept (match bundle.originalResultRef with
      | none     => .error (.value "replay bundle has no original result snapshot reference")
      | some ref => .ok ref)
    let original ← Run.ofExcept (do
      match ← get ref principal with
      | .value (.dict items) => return Value.dict items
      | _                    => throw (.type "invalid original result snapshot"))
    let execution ← replayPreviousExecution env bundle skill replayExecutionId principal policy get
    let replayed ← Run.ofExcept (semanticResultView execution.result)
    let differences ← Run.ofExcept (compareViews floatValue original (.dict replayed))
    Run.done { execution, matched := differences.isEmpty, differences, originalRuntimeVersion := bundle.runtimeVersion,
               replayRuntimeVersion := runtimeVersion, runtimeVersionChanged := bundle.runtimeVersion ≠ runtimeVersion }

end Replay
end Nsl
