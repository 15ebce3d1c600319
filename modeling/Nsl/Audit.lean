import Nsl.Base.Run
import Nsl.RuntimeModels
/-!
# Audit — what an execution reads from its surroundings and leaves behind

The audit events of `audit.py` with their hash chain, and the world of an execution: the events appended to the sink,
the calls made to the tool port, the readings taken of the clock and the snapshots put. Ports, clock and store are
functions of what was asked of them before, so that every behaviour of theirs is one of these functions.
-/
namespace Nsl

open Stateful (Run)

def AUDIT_SCHEMA_VERSION : String := "1.1"
def RUNTIME_VERSION : String := "0.1.0"

/-! ## Events -/

structure AuditEvent where
  executionId       : String
  sequence          : Nat
  eventType         : String
  skillId           : String
  skillVersion      : String
  semanticHash      : String
  runtimeVersion    : String
  tenantId          : Option String
  subjectId         : Option String
  authContextRef    : Option String
  retentionDays     : Nat
  classification    : DataClassification
  payload           : Value
  previousEventHash : Option String
  eventHash         : String

structure SnapshotRef where
  snapshotId     : String
  tenantId       : String
  classification : DataClassification
  valueHash      : String
  expiresAt      : Option String

def optionalStr (s : Option String) : Value := (s.map .str).getD .null

theorem optionalStr_isJson (s : Option String) : (optionalStr s).isJson = true := by
  cases s <;> rfl

/-- `dict.update` with one entry. -/
def updateDict (v : Value) (k : String) (w : Value) : Value :=
  match v with
  | .dict items => .dict (Dict.setEntry k w items)
  | v           => v

theorem updateDict_isJson {v w : Value} {k : String} (hv : v.isJson = true) (hw : w.isJson = true) :
    (updateDict v k w).isJson = true := by
  unfold updateDict
  split
  · exact fieldsJson_setEntry k hw hv
  · exact hv

section World

variable [Platform]

/-- What an execution leaves outside its context. -/
structure World where
  events            : List AuditEvent := []
  sequence          : Nat := 0
  previousEventHash : Option String := none
  calls             : List (ToolCallRequest × PortAnswer) := []
  readings          : Nat := 0
  puts              : Nat := 0

/-- The state of a run. -/
structure St where
  ctx   : Context
  world : World

/-- A tool port: its answer to a call after the calls it got before. -/
abbrev ToolPort := List (ToolCallRequest × PortAnswer) → ToolCallRequest → PortAnswer

inductive ToolExecutionOutcome | returned | error | cancelled
  deriving DecidableEq

structure ToolExecutionMeasurement where
  request    : ToolCallRequest
  outcome    : ToolExecutionOutcome
  durationNs : Nat

/-- `ToolExecutionMeasurement.__post_init__` -/
def ToolExecutionMeasurement.check (m : ToolExecutionMeasurement) : Except Exn Unit :=
  if [m.request.executionId, m.request.invocationId, m.request.nodeId, m.request.toolId, m.request.toolVersion,
      m.request.principal.tenantId].any Text.isBlank then
    .error (.value "tool measurement identifiers must be non-empty")
  else .ok ()

/-- Python's binary operators on two values. -/
structure Operators where
  apply      : String → Value → Value → Except Exn Value
  exceptions : ∀ o v w e, apply o v w = .error e → e.isException = true

/-- A snapshot store: the reference for a put after the puts before it. -/
abbrev SnapshotStore := Nat → String → Value → DataClassification → Nat → SnapshotRef

/-- The constants of an `AuditRecorder`. -/
structure Recorder where
  policy         : DataHandlingPolicy
  executionId    : String
  skillId        : String
  skillVersion   : String
  semanticHash   : String
  tenantId       : Option String
  subjectId      : Option String
  authContextRef : Option String

/-- `AuditRecorder(...)` of the engine. -/
def Recorder.make (skill : SkillObject) (request : ExecutionRequest) : Recorder :=
  { policy := request.dataPolicy, executionId := request.executionId.text, skillId := skill.skillId,
    skillVersion := skill.skillVersion, semanticHash := skill.semanticHash,
    tenantId := request.principal.map (fun p => redact p.tenantId []),
    subjectId := request.principal.map (fun p => redact p.subjectId []),
    authContextRef := request.principal.map (fun p => redact p.authContextRef []) }

/-- The engine with what one execution was given. -/
structure Env where
  catalog         : ToolContractCatalog
  authorizer      : StaticAuthorizer
  environment     : RuntimeEnvironment
  clock           : Nat → Int
  operators       : Operators
  port            : ToolPort
  /-- the port is behind a `MeasuringToolExecutor` -/
  measured        : Bool
  measurementSink : ToolExecutionMeasurement → Except Exn Unit
  recorder        : Option Recorder
  snapshots       : Option SnapshotStore

/-- An engine without tools, operators, audit and snapshots, whose clock stands still. -/
def Env.bare : Env where
  catalog         := ⟨[], List.nodup_nil⟩
  authorizer      := {}
  environment     := .development
  clock           := fun _ => 0
  operators       := ⟨fun _ _ _ => .error (.type "unsupported operand"), by simp +contextual [Exn.isException]⟩
  port            := fun _ _ => .raises (.other "no tools")
  measured        := true
  measurementSink := fun _ => .ok ()
  recorder        := none
  snapshots       := none

/-! ## Emitting -/

/-- The redacted payload, or its metadata where the policy hides the values. -/
def redactedPayload (policy : DataHandlingPolicy) (payload : Value) (classification : DataClassification)
    (metadata : Value) : Except Exn Value :=
  if classification.allows policy.maxTraceClassification then .ok (encodeValue (redactData Platform.word payload))
  else
    (valueHash payload).map (fun hash =>
      updateDict (updateDict (encodeValue (redactData Platform.word metadata)) "redacted" (.bool true))
        "value_hash" (.str hash))

/-- The payload an event carries, with the snapshot it refers to. -/
def safePayload (policy : DataHandlingPolicy) (payload : Value) (classification : DataClassification)
    (snapshotRef : Option SnapshotRef) (metadata : Value) : Except Exn Value :=
  (redactedPayload policy payload classification metadata).map (fun base =>
    match snapshotRef with
    | none     => base
    | some ref =>
      updateDict (updateDict (updateDict base "snapshot_ref" (.str ref.snapshotId))
        "snapshot_hash" (.str ref.valueHash)) "snapshot_classification" (.str (StrEnum.value ref.classification)))

/-- The data an event's hash is made of. -/
def eventData (r : Recorder) (eventType : String) (payload : Value) (classification : DataClassification)
    (sequence : Nat) (previous : Option String) : Value :=
  .dict
    [("schema_version", .str AUDIT_SCHEMA_VERSION), ("execution_id", .str r.executionId), ("sequence", .int sequence),
     ("event_type", .str eventType), ("skill_id", .str r.skillId), ("skill_version", .str r.skillVersion),
     ("semantic_hash", .str r.semanticHash), ("runtime_version", .str RUNTIME_VERSION),
     ("tenant_id", optionalStr r.tenantId), ("subject_id", optionalStr r.subjectId),
     ("auth_context_ref", optionalStr r.authContextRef), ("retention_days", .int r.policy.auditRetentionDays),
     ("classification", .str (StrEnum.value classification)), ("payload", payload),
     ("previous_event_hash", optionalStr previous)]

/-- `AuditEvent.create` for the recorder's next event. -/
def nextEvent (r : Recorder) (w : World) (eventType : String) (payload : Value) (classification : DataClassification)
    (snapshotRef : Option SnapshotRef) (metadata : Value) : Except Exn AuditEvent := do
  let safe ← safePayload r.policy payload classification snapshotRef metadata
  let hash ← valueHash (eventData r eventType safe classification (w.sequence + 1) w.previousEventHash)
  return ⟨r.executionId, w.sequence + 1, eventType, r.skillId, r.skillVersion, r.semanticHash, RUNTIME_VERSION,
    r.tenantId, r.subjectId, r.authContextRef, r.policy.auditRetentionDays, classification, safe, w.previousEventHash,
    hash⟩

def World.append (w : World) (e : AuditEvent) : World :=
  { w with events := w.events ++ [e], sequence := e.sequence, previousEventHash := some e.eventHash }

def modifyWorld (f : World → World) : Run St Exn Unit := Run.write (fun s => { s with world := f s.world })

/-- `AuditRecorder.emit`, over the sink of the world. -/
def emitWith (r : Recorder) (eventType : String) (payload : Value) (classification : DataClassification)
    (snapshotRef : Option SnapshotRef) (metadata : Value) : Run St Exn Unit := do
  let w ← Run.look (·.world)
  let e ← Run.ofExcept (nextEvent r w eventType payload classification snapshotRef metadata)
  modifyWorld (·.append e)

variable (env : Env)

/-- `_ExecutionServices.emit` of an event whose values the policy may hide. -/
def emitHidden (eventType : String) (payload : Value) (classification : DataClassification)
    (snapshotRef : Option SnapshotRef) (metadata : Value) : Run St Exn Unit :=
  match env.recorder with
  | none   => Run.done ()
  | some r => emitWith r eventType payload classification snapshotRef metadata

/-- `_ExecutionServices.emit` of an INTERNAL event. -/
def emit (eventType : String) (payload : List (String × Value)) : Run St Exn Unit :=
  emitHidden env eventType (.dict payload) .internal none (.dict [])

/-- The next event of a recorder, for some payload. -/
def IsNext (r : Recorder) (w : World) (e : AuditEvent) : Prop :=
  ∃ eventType payload classification snapshotRef metadata,
    nextEvent r w eventType payload classification snapshotRef metadata = .ok e

/-- Emitting appends the recorder's next event and does nothing else. -/
theorem emitHidden_steps {R : St → St → Prop}
    (hR : ∀ s r e, env.recorder = some r → IsNext r s.world e → R s { s with world := s.world.append e })
    (eventType : String) (payload : Value) (classification : DataClassification) (ref : Option SnapshotRef)
    (metadata : Value) : Run.Steps R (emitHidden env eventType payload classification ref metadata) := by
  unfold emitHidden
  cases hr : env.recorder with
  | none   => exact Run.steps_done ()
  | some r =>
    show Run.Steps R (emitWith r eventType payload classification ref metadata)
    intro s
    have hrun : emitWith r eventType payload classification ref metadata s =
        Run.andThen (Run.ofExcept (nextEvent r s.world eventType payload classification ref metadata))
          (fun e => modifyWorld (·.append e)) s := rfl
    rw [hrun]
    cases he : nextEvent r s.world eventType payload classification ref metadata with
    | error e => exact rfl
    | ok e    => exact ⟨hR s r e hr ⟨_, _, _, _, _, he⟩, rfl⟩

/-- `snapshots.put`, when there is a store. -/
def putSnapshot (value : Value) (classification : DataClassification) : Run St Exn (Option SnapshotRef) :=
  match env.snapshots with
  | none       => Run.done none
  | some store => do
    let s ← Run.look id
    modifyWorld (fun w => { w with puts := w.puts + 1 })
    Run.done (some (store s.world.puts s.ctx.request.tenantId value classification
      s.ctx.request.dataPolicy.snapshotRetentionDays))

/-! ## Events that cannot fail -/

/-- The payload an INTERNAL event carries. -/
theorem safePayload_ok (policy : DataHandlingPolicy) {payload : List (String × Value)} (h : fieldsJson payload = true) :
    ∃ v, safePayload policy (.dict payload) .internal none (.dict []) = .ok v ∧ v.isJson = true := by
  have hp : (Value.dict payload).isJson = true := h
  unfold safePayload redactedPayload
  split
  · exact ⟨_, rfl, encodeValue_isJson _ (redactData_isJson _ _ hp)⟩
  · obtain ⟨d, hd⟩ := valueHash_ok hp
    rw [hd]
    exact ⟨_, rfl, rfl⟩

theorem nextEvent_ok (r : Recorder) (w : World) (eventType : String) {payload : List (String × Value)}
    (h : fieldsJson payload = true) : ∃ e, nextEvent r w eventType (.dict payload) .internal none (.dict []) = .ok e := by
  obtain ⟨v, hv, hj⟩ := safePayload_ok r.policy h
  have hdata : (eventData r eventType v .internal (w.sequence + 1) w.previousEventHash).isJson = true := by
    simp only [eventData, Value.isJson, fieldsJson, optionalStr_isJson, hj, Bool.and_true]
  obtain ⟨d, hd⟩ := valueHash_ok hdata
  unfold nextEvent
  rw [hv]
  show ∃ e, (valueHash _ >>= _) = Except.ok e
  rw [hd]
  exact ⟨_, rfl⟩

/-- **An event whose payload JSON takes is emitted**, and the context stays. -/
theorem emit_ok (eventType : String) {payload : List (String × Value)} (h : fieldsJson payload = true) (s : St) :
    ∃ w s', emit env eventType payload s = ⟨w, s', .ok ()⟩ ∧ s'.ctx = s.ctx := by
  unfold emit emitHidden
  cases env.recorder with
  | none   => exact ⟨_, _, rfl, rfl⟩
  | some r =>
    obtain ⟨e, he⟩ := nextEvent_ok r s.world eventType h
    have hrun : emitWith r eventType (.dict payload) .internal none (.dict []) s =
        ⟨[{ s with world := s.world.append e }], { s with world := s.world.append e }, .ok ()⟩ := by
      show Run.andThen (Run.ofExcept (nextEvent r s.world eventType (.dict payload) .internal none (.dict [])))
        (fun e => modifyWorld (·.append e)) s = _
      rw [he]
      rfl
    exact ⟨_, _, hrun, rfl⟩

/-! ## Clock and tool port -/

/-- `clock.monotonic_ns()` -/
def readClock : Run St Exn Int := do
  let n ← Run.look (·.world.readings)
  modifyWorld (fun w => { w with readings := w.readings + 1 })
  Run.done (env.clock n)

/-- `tools.execute(request)` of the port itself. -/
def callPort (request : ToolCallRequest) : Run St Exn PortAnswer := do
  let calls ← Run.look (·.world.calls)
  modifyWorld (fun w => { w with calls := w.calls ++ [(request, env.port calls request)] })
  match env.port calls request with
  | .raises e => Run.fail e
  | answer    => Run.done answer

def outcomeOf : Except Exn PortAnswer → ToolExecutionOutcome
  | .ok _                  => .returned
  | .error (.cancelled _)  => .cancelled
  | .error _               => .error

/-- `MeasuringToolExecutor.execute`, or the port alone. -/
def callTools (request : ToolCallRequest) : Run St Exn PortAnswer :=
  if env.measured then do
    let started ← readClock env
    let outcome ← Run.attempt (callPort env request)
    let ended ← readClock env
    let measurement : ToolExecutionMeasurement := ⟨request, outcomeOf outcome, (ended - started).toNat⟩
    Run.ofExcept measurement.check
    Run.ofExcept (env.measurementSink measurement)
    Run.ofExcept outcome
  else callPort env request

end World
end Nsl
