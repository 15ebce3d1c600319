import Nsl.Checkpoints
/-!
# Restore — a context from its checkpoint

`CheckpointCoordinator.restore`: the hash, the bindings to the skill and the request, the security section and then the
state, section by section. What the standard library makes of a text or a number is a parameter, and so is
`TypeRef.from_data`, which takes any object for a part of a type.
-/
namespace Nsl

open Calendar (Date DateTime)

/-- What reading a document rests on. -/
structure DocumentReader where
  /-- the `repr` of a number with a fraction or an exponent -/
  number   : List Char → String
  /-- `float == int` -/
  floatEq  : String → Int → Bool
  /-- `str(value)` of what is no text -/
  render   : Value → String
  /-- `datetime.fromisoformat` -/
  dateTime : String → Option DateTime
  /-- `date.fromisoformat` -/
  date     : String → Option Date
  /-- `TypeRef.from_data` -/
  typeRef  : Value → Except Exn TypeRef

variable (reader : DocumentReader)

/-! ## Python's `==` -/

/-- `value == i` -/
def DocumentReader.isInt (value : Value) (i : Int) : Bool :=
  match value with
  | .int j   => j = i
  | .bool b  => (if b then 1 else 0) = i
  | .float t => reader.floatEq t i
  | _        => false

mutual
/-- `value == expected`, for an expected document of texts, integers and `None`. -/
def DocumentReader.equals (value : Value) : Value → Bool
  | .int i         => reader.isInt value i
  | .list expected =>
    match value with
    | .list items => DocumentReader.equalItems items expected
    | _           => false
  | .dict expected =>
    match value with
    | .dict items => items.length = expected.length && DocumentReader.equalFields items expected
    | _           => false
  | expected       => value = expected
def DocumentReader.equalItems : List Value → List Value → Bool
  | [],            []            => true
  | item :: items, e :: expected => DocumentReader.equals item e && DocumentReader.equalItems items expected
  | _,             _             => false
def DocumentReader.equalFields (items : List (String × Value)) : List (String × Value) → Bool
  | []                 => true
  | (k, e) :: expected =>
    (match items.lookup k with
      | some item => DocumentReader.equals item e
      | none      => false) && DocumentReader.equalFields items expected
end

/-! ## The shape of a document -/

/-- `_required_string` of any value -/
def requiredStringValue (value : Value) (path : String) : Except Exn String :=
  match value with
  | .str s => requiredString s path
  | _      => .error (checkpointError path "expected a non-empty string")

/-- `_optional_string` -/
def optionalStringValue (value : Value) (path : String) : Except Exn (Option String) :=
  if value = .null then .ok none else (requiredStringValue value path).map some

/-- `_non_negative_int` -/
def nonNegativeInt (value : Value) (path : String) : Except Exn Nat :=
  match value with
  | .int i => if 0 ≤ i then .ok i.toNat else .error (checkpointError path "expected a non-negative integer")
  | _      => .error (checkpointError path "expected a non-negative integer")

/-- `_positive_int` -/
def positiveInt (value : Value) (path : String) : Except Exn Nat := do
  let n ← nonNegativeInt value path
  if n = 0 then .error (checkpointError path "expected a positive integer") else return n

/-- `_exact_object` of a checkpoint document: its fields. -/
def exactFields (value : Value) (fields : List String) (path : String) : Except Exn (List (String × Value)) :=
  match value with
  | .dict items =>
    if (∀ k ∈ items.map Prod.fst, k ∈ fields) ∧ (∀ k ∈ fields, k ∈ items.map Prod.fst) then .ok items
    else .error (checkpointError path "invalid object schema")
  | _ => .error (checkpointError path "invalid object schema")

/-- `item[name]` of an object that has the field. -/
def fieldOf (items : List (String × Value)) (name : String) : Value := (items.lookup name).getD .null

/-- A dictionary comprehension over the fields of an object. -/
def readEntries {α : Type} (read : String → Value → Except Exn α) : List (String × Value) → Except Exn (List (String × α))
  | []           => .ok []
  | (k, v) :: es => do return (k, ← read k v) :: (← readEntries read es)

/-- A list comprehension with `enumerate`. -/
def readItems {α : Type} (read : String → Value → Except Exn α) (path : String) : Nat → List Value → Except Exn (List α)
  | _, []      => .ok []
  | i, v :: vs => do return (← read (path ++ "[" ++ toString i ++ "]") v) :: (← readItems read path (i + 1) vs)

/-- `_string_map` -/
def stringMap (value : Value) (path : String) : Except Exn (Dict String) :=
  match value with
  | .dict items => do
    let entries ← readEntries (fun k v => do
      let text ← requiredStringValue v (path ++ "." ++ k)
      let _ ← requiredString k (path ++ ".key")
      return text) items
    return Dict.ofList entries
  | _ => .error (checkpointError path "expected an object")

/-! ## Values -/

/-- `_decode_decimal_string` -/
def decodeDecimal (value : Option Value) (label : String) : Except Exn Decimal :=
  match value with
  | some (.str s) =>
    match Decimal.parse s with
    | some d => .ok d
    | none   => .error (.value ("encoded " ++ label ++ " must be a decimal string"))
  | _ => .error (.value ("encoded " ++ label ++ " must be a decimal string"))

/-- `_decode_iso_value` -/
def decodeIso {α : Type} (value : Option Value) (label : String) (parse : String → Option α) : Except Exn α :=
  match value with
  | some (.str s) =>
    match parse s with
    | some a => .ok a
    | none   => .error (.value ("encoded " ++ label ++ " must be an ISO string"))
  | _ => .error (.value ("encoded " ++ label ++ " must be an ISO string"))

/-- `Money(amount, currency)` for a currency that may be no text. -/
def decodeMoney (amount : Decimal) (currency : Option Value) : Except Exn Money :=
  match currency with
  | some (.str code) => Money.make amount code
  | none | some .null => Money.make amount ""
  | some _           => .error (.money "currency must be a 3-letter uppercase ISO 4217 code")

mutual
/-- `decode_value` -/
def DocumentReader.decodeValue : Value → Except Exn Value
  | .dict items =>
    match items.lookup "$type" with
    | some (.str "Money")    => do
      let amount ← decodeDecimal (items.lookup "amount") "Money amount"
      return .money (← decodeMoney amount (items.lookup "currency"))
    | some (.str "Decimal")  => (decodeDecimal (items.lookup "value") "Decimal value").map .decimal
    | some (.str "DateTime") => (decodeIso (items.lookup "value") "DateTime" reader.dateTime).map .datetime
    | some (.str "Date")     => (decodeIso (items.lookup "value") "Date" reader.date).map .date
    | _                      => (DocumentReader.decodeFields items).map .dict
  | .list items => (DocumentReader.decodeItems items).map .list
  | v           => .ok v
def DocumentReader.decodeItems : List Value → Except Exn (List Value)
  | []      => .ok []
  | v :: vs => do return (← DocumentReader.decodeValue v) :: (← DocumentReader.decodeItems vs)
def DocumentReader.decodeFields : List (String × Value) → Except Exn (List (String × Value))
  | []           => .ok []
  | (k, v) :: vs => do return (k, ← DocumentReader.decodeValue v) :: (← DocumentReader.decodeFields vs)
end

/-- The member of an enumeration with this value. -/
def memberOf {α : Type} [StrEnum α] (value : Value) : Except Exn α :=
  match value with
  | .str s =>
    match StrEnum.ofValue? s with
    | some a => .ok a
    | none   => .error (.value "not a member")
  | _ => .error (.value "not a member")

/-- `all(isinstance(ref, str) and ref for ref in refs)`: the texts. -/
def nonEmptyTexts : List Value → Option (List String)
  | []           => some []
  | .str s :: vs => if s = "" then none else (nonEmptyTexts vs).map (s :: ·)
  | _ :: _       => none

def envelopeFields : List String := ["value", "type", "presence", "completeness", "classification", "provenance_refs"]

/-- `_envelope_from_data` -/
def DocumentReader.envelope (path : String) (value : Value) : Except Exn ValueEnvelope := do
  let item ← exactFields value envelopeFields path
  let refs ← (match fieldOf item "provenance_refs" with
    | .list refs =>
      match nonEmptyTexts refs with
      | some refs => .ok refs
      | none      => .error (checkpointError (path ++ ".provenance_refs") "expected non-empty strings")
    | _ => .error (checkpointError (path ++ ".provenance_refs") "expected non-empty strings"))
  Except.mapError (fun _ => checkpointError path "invalid ValueEnvelope") (do
    let decoded ← reader.decodeValue (fieldOf item "value")
    let typeInfo ← reader.typeRef (fieldOf item "type")
    let presence ← memberOf (fieldOf item "presence")
    let completeness ← memberOf (fieldOf item "completeness")
    let classification ← memberOf (fieldOf item "classification")
    return ⟨decoded, some typeInfo, presence, completeness, classification, refs⟩)

/-- `_namespace_from_data` -/
def DocumentReader.readNamespace (path : String) (value : Value) : Except Exn (Dict ValueEnvelope) :=
  match value with
  | .dict items => do
    let entries ← readEntries (fun k v => do
      let _ ← requiredString k (path ++ ".key")
      reader.envelope (path ++ "." ++ k) v) items
    return Dict.ofList entries
  | _ => .error (checkpointError path "expected an object")

def checkFields : List String :=
  ["check_id", "status", "severity", "message", "condition_node_id", "presence", "completeness", "provenance_refs",
    "reason_code"]

/-- `str(value)` -/
def DocumentReader.text (value : Value) : String :=
  match value with
  | .str s => s
  | v      => reader.render v

/-- What `_check_from_data` makes of an exception. -/
def checkFault (path : String) (e : Exn) : Exn :=
  match e with
  | .type _ | .value _ => checkpointError path "invalid CheckResult"
  | e                  => e

/-- `_check_from_data` -/
def DocumentReader.check (path : String) (value : Value) : Except Exn CheckResult := do
  let item ← exactFields value checkFields path
  Except.mapError (checkFault path) (do
    let refs ← (fieldOf item "provenance_refs").iterate
    let refs ← (match nonEmptyTexts refs with
      | some refs => .ok refs
      | none      => .error (.value ""))
    let checkId ← requiredStringValue (fieldOf item "check_id") (path ++ ".check_id")
    let status ← memberOf (fieldOf item "status")
    let severity ← requiredStringValue (fieldOf item "severity") (path ++ ".severity")
    let message := reader.text (fieldOf item "message")
    let conditionNodeId ← requiredStringValue (fieldOf item "condition_node_id") (path ++ ".condition_node_id")
    let presence ← memberOf (fieldOf item "presence")
    let completeness ← memberOf (fieldOf item "completeness")
    let reasonCode ← optionalStringValue (fieldOf item "reason_code") (path ++ ".reason_code")
    return ⟨checkId, status, severity, message, conditionNodeId, presence, completeness, refs, reasonCode⟩)

/-! ## The state, section by section -/

section State

variable [Platform]

/-- The frames of a stack, the root first. -/
def Frames.ofList (frames : List (Dict ValueEnvelope)) : Frames :=
  match frames.reverse with
  | []            => Frames.root
  | top :: below  => ⟨top, below⟩

def restoreSymbols (ctx : Context) (value : Value) : Except Exn Context := do
  let symbols ← exactFields value ["inputs", "contexts", "frames", "check_frames"] "$.symbols"
  let frames ← (match fieldOf symbols "frames" with
    | .list (f :: fs) => .ok (f :: fs)
    | _               => .error (checkpointError "$.symbols.frames" "expected a non-empty array"))
  let checkFrames ← (match fieldOf symbols "check_frames" with
    | .list items => if items.length = frames.length then .ok items
      else .error (checkpointError "$.symbols.check_frames" "frame depth mismatch")
    | _ => .error (checkpointError "$.symbols.check_frames" "frame depth mismatch"))
  let inputs ← reader.readNamespace "$.symbols.inputs" (fieldOf symbols "inputs")
  let contexts ← reader.readNamespace "$.symbols.contexts" (fieldOf symbols "contexts")
  let frames ← readItems reader.readNamespace "$.symbols.frames" 0 frames
  let checkFrames ← readItems reader.readNamespace "$.symbols.check_frames" 0 checkFrames
  return { ctx with
    inputValues := inputs, contextValues := contexts, frames := .ofList frames, checkFrames := .ofList checkFrames }

def restoreRecords (ctx : Context) (checks outputs : Value) : Except Exn Context :=
  match checks, outputs with
  | .list checks, .list outputs => do
    let checks ← readItems reader.check "$.checks" 0 checks
    let outputs ← readItems reader.readNamespace "$.outputs" 0 outputs
    return { ctx with checks := checks, outputs := outputs.map (⟨·⟩) }
  | _, _ => .error (checkpointError "$" "checks and outputs must be arrays")

omit [Platform] in
/-- A section of `_restore_state` that holds counts. -/
def readCount (items : List (String × Value)) (section_ name : String) : Except Exn Nat :=
  nonNegativeInt (fieldOf items name) (section_ ++ "." ++ name)

def restoreResources (ctx : Context) (value : Value) : Except Exn Context := do
  let resources ← exactFields value ["tool_calls", "loop_iterations", "emitted_rows", "max_collection_size_seen"] "$.resources"
  let toolCalls ← readCount resources "$.resources" "tool_calls"
  let loopIterations ← readCount resources "$.resources" "loop_iterations"
  let emittedRows ← readCount resources "$.resources" "emitted_rows"
  let maxCollectionSizeSeen ← readCount resources "$.resources" "max_collection_size_seen"
  return { ctx with resources := ⟨toolCalls, loopIterations, emittedRows, maxCollectionSizeSeen⟩ }

def restoreExecution (ctx : Context) (value : Value) : Except Exn Context := do
  let execution ← exactFields value ["data_completeness", "invocation_counter", "foreach_depth", "current_node_id"] "$.execution"
  let dataCompleteness ← Except.mapError (fun _ => checkpointError "$.execution.data_completeness" "invalid value")
    (memberOf (fieldOf execution "data_completeness"))
  let invocationCounter ← readCount execution "$.execution" "invocation_counter"
  let foreachDepth ← readCount execution "$.execution" "foreach_depth"
  let currentNodeId ← optionalStringValue (fieldOf execution "current_node_id") "$.execution.current_node_id"
  return { ctx with
    dataCompleteness := dataCompleteness, invocationCounter := invocationCounter, foreachDepth := foreachDepth
    currentNodeId := currentNodeId }

def restoreApprovals (ctx : Context) (value : Value) : Except Exn Context :=
  match value with
  | .dict items => do
    let entries ← readEntries (fun k v => do
      let _ ← requiredString k "$.approvals.key"
      Except.mapError (fun _ => checkpointError "$.approvals" "invalid approval status") (memberOf v)) items
    return { ctx with approvals := Dict.ofList entries }
  | _ => .error (checkpointError "$.approvals" "expected an object")

def restoreWrites (ctx : Context) (value : Value) : Except Exn Context := do
  let writes ← Except.mapError (fun _ => checkpointError "$.writes" "invalid encoded value") (reader.decodeValue value)
  match writes with
  | .list entries => return { ctx with writes := entries.map .restored }
  | _             => throw (checkpointError "$.writes" "expected an array")

def restoreIdempotency (ctx : Context) (value : Value) : Except Exn Context := do
  let idempotency ← exactFields value ["keys_by_write_node", "payload_hashes_by_write_node"] "$.idempotency"
  let keys ← stringMap (fieldOf idempotency "keys_by_write_node") "$.idempotency.keys_by_write_node"
  let payloads ← stringMap (fieldOf idempotency "payload_hashes_by_write_node") "$.idempotency.payload_hashes_by_write_node"
  return { ctx with idempotency := ⟨keys, payloads⟩ }

omit [Platform] in
def readFlag (items : List (String × Value)) (name : String) : Except Exn Bool :=
  match fieldOf items name with
  | .bool b => .ok b
  | _       => .error (checkpointError ("$.checkpoint." ++ name) "expected a boolean")

def checkpointFields : List String :=
  ["checkpoint_version", "last_completed_node_id", "suspended_at_node_id", "trace_sequence", "approval_request_published",
    "write_request_durable", "approval_request_ids_by_write_node", "write_intent_hashes_by_write_node",
    "payload_hashes_by_write_node"]

def restoreCheckpoint (ctx : Context) (value version : Value) : Except Exn Context := do
  let checkpoint ← exactFields value checkpointFields "$.checkpoint"
  let restored ← positiveInt (fieldOf checkpoint "checkpoint_version") "$.checkpoint.checkpoint_version"
  if reader.isInt version restored = false then
    .error (checkpointError "$.checkpoint.checkpoint_version" "checkpoint binding mismatch")
  else do
    let lastCompletedNodeId ← optionalStringValue (fieldOf checkpoint "last_completed_node_id")
      "$.checkpoint.last_completed_node_id"
    let suspendedAtNodeId ← optionalStringValue (fieldOf checkpoint "suspended_at_node_id") "$.checkpoint.suspended_at_node_id"
    let traceSequence ← readCount checkpoint "$.checkpoint" "trace_sequence"
    let approvalRequestPublished ← readFlag checkpoint "approval_request_published"
    let writeRequestDurable ← readFlag checkpoint "write_request_durable"
    let requestIds ← stringMap (fieldOf checkpoint "approval_request_ids_by_write_node")
      "$.checkpoint.approval_request_ids_by_write_node"
    let intents ← stringMap (fieldOf checkpoint "write_intent_hashes_by_write_node")
      "$.checkpoint.write_intent_hashes_by_write_node"
    let payloads ← stringMap (fieldOf checkpoint "payload_hashes_by_write_node") "$.checkpoint.payload_hashes_by_write_node"
    return { ctx with checkpoint :=
      ⟨restored, lastCompletedNodeId, suspendedAtNodeId, traceSequence, approvalRequestPublished, writeRequestDurable,
        requestIds, intents, payloads⟩ }

/-- `_restore_state` -/
def restoreState (ctx : Context) (state : List (String × Value)) : Except Exn Context := do
  let ctx ← restoreSymbols reader ctx (fieldOf state "symbols")
  let ctx ← restoreRecords reader ctx (fieldOf state "checks") (fieldOf state "outputs")
  let ctx ← restoreResources ctx (fieldOf state "resources")
  let ctx ← restoreExecution ctx (fieldOf state "execution")
  let ctx ← restoreApprovals ctx (fieldOf state "approvals")
  let ctx ← restoreWrites reader ctx (fieldOf state "writes")
  let ctx ← restoreIdempotency ctx (fieldOf state "idempotency")
  restoreCheckpoint reader ctx (fieldOf state "checkpoint") (fieldOf state "checkpoint_version")

/-! ## Restoring -/

/-- `load_strict_json` -/
def DocumentReader.loadStrictJson (data : ByteArray) : Except Exn Value :=
  match String.fromUTF8? data with
  | none      => .error (checkpointError "$" "expected UTF-8 JSON")
  | some text =>
    match Json.loads reader.number text with
    | .ok document              => .ok (ofJson document)
    | .error (.duplicate key)   => .error (checkpointError "$" ("duplicate object field: " ++ key))
    | .error (.nonFinite text)  => .error (checkpointError "$" ("non-finite JSON number: " ++ text))
    | .error _                  => .error (checkpointError "$" "invalid JSON")

/-- What a checkpoint is compared with, under the names of its fields. -/
def CheckpointCoordinator.bindings (c : CheckpointCoordinator) (checkpoint : ExecutionCheckpoint) (skill : SkillObject)
    (request : ExecutionRequest) : List (String × Option String × String) :=
  [("execution_id", some request.executionId.text, checkpoint.executionId),
   ("business_operation_id", request.businessOperationId.map (·.text), checkpoint.businessOperationId),
   ("skill_id", some skill.skillId, checkpoint.skillId), ("skill_version", some skill.skillVersion, checkpoint.skillVersion),
   ("semantic_hash", some skill.semanticHash, checkpoint.semanticHash),
   ("ir_version", some skill.irVersion, checkpoint.irVersion),
   ("runtime_version", some c.runtimeVersion, checkpoint.runtimeVersion)]

/-- `_validate_bindings` -/
def CheckpointCoordinator.validateBindings (c : CheckpointCoordinator) (checkpoint : ExecutionCheckpoint)
    (skill : SkillObject) (request : ExecutionRequest) : Except Exn Unit :=
  match (c.bindings checkpoint skill request).find? (fun b => b.2.1 ≠ some b.2.2) with
  | some (name, _) => .error (checkpointError ("$." ++ name) "checkpoint binding mismatch")
  | none           => .ok ()

/-- `_validate_security` -/
def validateSecurity (value : Value) (request : ExecutionRequest) : Except Exn Unit := do
  let security ← exactFields value ["principal", "data_policy"] "$.security"
  match request.principal with
  | none           => throw (.attribute "'NoneType' object has no attribute 'tenant_id'")
  | some principal =>
    if reader.equals (.dict security) (securityData principal request.dataPolicy) = false then
      .error (checkpointError "$.security" "security context binding mismatch")
    else .ok ()

def stateFields : List String :=
  ["schema_version", "checkpoint_version", "security", "symbols", "checks", "outputs", "resources", "execution", "approvals",
    "writes", "idempotency", "checkpoint"]

/-- `_decode_state` -/
def decodeState (value : Value) (checkpoint : ExecutionCheckpoint) (request : ExecutionRequest) :
    Except Exn (List (String × Value)) := do
  let state ← exactFields value stateFields "$"
  if reader.isInt (fieldOf state "schema_version") STATE_SCHEMA_VERSION = false then
    .error (checkpointError "$.schema_version" "unsupported state schema")
  else if reader.isInt (fieldOf state "checkpoint_version") checkpoint.checkpointVersion = false then
    .error (checkpointError "$.checkpoint_version" "checkpoint binding mismatch")
  else do
    validateSecurity reader (fieldOf state "security") request
    return state

/-- `CheckpointCoordinator.restore`; `startedNs` is the reading of the runtime clock. -/
def CheckpointCoordinator.restore (c : CheckpointCoordinator) (checkpoint : ExecutionCheckpoint) (skill : SkillObject)
    (request : ExecutionRequest) (startedNs : Except Exn Int) : Except Exn Context := do
  checkpoint.verify
  c.validateBindings checkpoint skill request
  let document ← reader.loadStrictJson checkpoint.statePayload
  let state ← decodeState reader document checkpoint request
  let startedNs ← startedNs
  restoreState reader { skill, request, startedNs } state

/-! ## What a restored context is of -/

/-- Every value `x` ends with has `P`. -/
def Results {α : Type} (P : α → Prop) (x : Except Exn α) : Prop := ∀ a, x = .ok a → P a

omit [Platform] in
theorem results_ok {α : Type} {P : α → Prop} {a : α} (h : P a) : Results P (.ok a) := by
  intro b hb
  cases hb
  exact h

omit [Platform] in
theorem results_error {α : Type} {P : α → Prop} (e : Exn) : Results P (.error e : Except Exn α) := by
  intro b hb
  cases hb

omit [Platform] in
theorem results_bind {α β : Type} {P : β → Prop} {x : Except Exn α} {f : α → Except Exn β} (h : ∀ a, Results P (f a)) :
    Results P (x >>= f) := by
  intro b hb
  obtain ⟨a, -, hf⟩ := Stateful.bind_eq_ok hb
  exact h a b hf

/-- A context of the same skill and the same request. -/
def SameIdentity (c d : Context) : Prop := d.skill = c.skill ∧ d.request = c.request

variable {reader}

theorem restoreSymbols_same (ctx : Context) (value : Value) :
    Results (SameIdentity ctx) (restoreSymbols reader ctx value) := by
  unfold restoreSymbols
  repeat refine results_bind (fun _ => ?_)
  exact results_ok ⟨rfl, rfl⟩

theorem restoreRecords_same (ctx : Context) (checks outputs : Value) :
    Results (SameIdentity ctx) (restoreRecords reader ctx checks outputs) := by
  unfold restoreRecords
  split
  · repeat refine results_bind (fun _ => ?_)
    exact results_ok ⟨rfl, rfl⟩
  · exact results_error _

theorem restoreResources_same (ctx : Context) (value : Value) :
    Results (SameIdentity ctx) (restoreResources ctx value) := by
  unfold restoreResources
  repeat refine results_bind (fun _ => ?_)
  exact results_ok ⟨rfl, rfl⟩

theorem restoreExecution_same (ctx : Context) (value : Value) :
    Results (SameIdentity ctx) (restoreExecution ctx value) := by
  unfold restoreExecution
  repeat refine results_bind (fun _ => ?_)
  exact results_ok ⟨rfl, rfl⟩

theorem restoreApprovals_same (ctx : Context) (value : Value) :
    Results (SameIdentity ctx) (restoreApprovals ctx value) := by
  unfold restoreApprovals
  split
  · refine results_bind (fun _ => ?_)
    exact results_ok ⟨rfl, rfl⟩
  · exact results_error _

theorem restoreWrites_same (ctx : Context) (value : Value) :
    Results (SameIdentity ctx) (restoreWrites reader ctx value) := by
  unfold restoreWrites
  refine results_bind (fun writes => ?_)
  split
  · exact results_ok ⟨rfl, rfl⟩
  · exact results_error _

theorem restoreIdempotency_same (ctx : Context) (value : Value) :
    Results (SameIdentity ctx) (restoreIdempotency ctx value) := by
  unfold restoreIdempotency
  repeat refine results_bind (fun _ => ?_)
  exact results_ok ⟨rfl, rfl⟩

theorem restoreCheckpoint_same (ctx : Context) (value version : Value) :
    Results (SameIdentity ctx) (restoreCheckpoint reader ctx value version) := by
  unfold restoreCheckpoint
  refine results_bind (fun checkpoint => results_bind (fun restored => ?_))
  split
  · exact results_error _
  · repeat refine results_bind (fun _ => ?_)
    exact results_ok ⟨rfl, rfl⟩

/-- The state leaves the skill and the request of a context alone. -/
theorem restoreState_same (ctx : Context) (state : List (String × Value)) :
    Results (SameIdentity ctx) (restoreState reader ctx state) := by
  intro restored h
  unfold restoreState at h
  obtain ⟨c₁, h₁, h⟩ := Stateful.bind_eq_ok h
  obtain ⟨c₂, h₂, h⟩ := Stateful.bind_eq_ok h
  obtain ⟨c₃, h₃, h⟩ := Stateful.bind_eq_ok h
  obtain ⟨c₄, h₄, h⟩ := Stateful.bind_eq_ok h
  obtain ⟨c₅, h₅, h⟩ := Stateful.bind_eq_ok h
  obtain ⟨c₆, h₆, h⟩ := Stateful.bind_eq_ok h
  obtain ⟨c₇, h₇, h⟩ := Stateful.bind_eq_ok h
  have trans {a b c : Context} (hab : SameIdentity a b) (hbc : SameIdentity b c) : SameIdentity a c :=
    ⟨hbc.1.trans hab.1, hbc.2.trans hab.2⟩
  refine trans (restoreSymbols_same _ _ _ h₁) (trans (restoreRecords_same _ _ _ _ h₂) (trans (restoreResources_same _ _ _ h₃)
    (trans (restoreExecution_same _ _ _ h₄) (trans (restoreApprovals_same _ _ _ h₅) (trans (restoreWrites_same _ _ _ h₆)
      (trans (restoreIdempotency_same _ _ _ h₇) (restoreCheckpoint_same _ _ _ _ h)))))))

/-- **Whose a restored checkpoint is**: its hash is right, it belongs to this skill, request and runtime, and its state names
the principal and the policy of the request. -/
structure RestoredFor (reader : DocumentReader) (c : CheckpointCoordinator) (checkpoint : ExecutionCheckpoint)
    (skill : SkillObject) (request : ExecutionRequest) (ctx : Context) : Prop where
  verified   : checkpoint.verify = .ok ()
  bound      : ∀ b ∈ c.bindings checkpoint skill request, b.2.1 = some b.2.2
  ctxSkill   : ctx.skill = skill
  ctxRequest : ctx.request = request
  security   : ∃ document state principal, reader.loadStrictJson checkpoint.statePayload = .ok (.dict document) ∧
    request.principal = some principal ∧ document.lookup "security" = some (.dict state) ∧
    reader.equals (.dict state) (securityData principal request.dataPolicy) = true

omit [Platform] in
theorem exactFields_ok {value : Value} {fields : List String} {path : String} {items : List (String × Value)}
    (h : exactFields value fields path = .ok items) :
    value = .dict items ∧ ∀ f ∈ fields, items.lookup f = some (fieldOf items f) := by
  unfold exactFields at h
  split at h
  · rename_i entries
    split at h
    · rename_i hkeys
      cases h
      refine ⟨rfl, fun f hf => ?_⟩
      cases hlookup : items.lookup f with
      | some v => rw [fieldOf, hlookup, Option.getD_some]
      | none   =>
        obtain ⟨⟨k, v⟩, hkv, rfl⟩ := List.mem_map.1 (hkeys.2 f hf)
        exact absurd (List.lookup_eq_none_iff.1 hlookup (k, v) hkv) (by simp)
    · cases h
  · cases h

theorem CheckpointCoordinator.restore_ok {c : CheckpointCoordinator} {checkpoint : ExecutionCheckpoint} {skill : SkillObject}
    {request : ExecutionRequest} {startedNs : Except Exn Int} {ctx : Context}
    (h : c.restore reader checkpoint skill request startedNs = .ok ctx) :
    RestoredFor reader c checkpoint skill request ctx := by
  unfold restore at h
  obtain ⟨u, hverified, h⟩ := Stateful.bind_eq_ok h
  obtain ⟨u', hbound, h⟩ := Stateful.bind_eq_ok h
  obtain ⟨document, hdocument, h⟩ := Stateful.bind_eq_ok h
  obtain ⟨state, hstate, h⟩ := Stateful.bind_eq_ok h
  obtain ⟨started, -, h⟩ := Stateful.bind_eq_ok h
  obtain ⟨hskill, hrequest⟩ := restoreState_same _ _ _ h
  refine ⟨hverified, fun b hb => ?_, hskill, hrequest, ?_⟩
  · unfold validateBindings at hbound
    split at hbound
    · cases hbound
    · rename_i hnone
      simpa using List.find?_eq_none.1 hnone b hb
  · unfold decodeState at hstate
    obtain ⟨items, hitems, hrest⟩ := Stateful.bind_eq_ok hstate
    obtain ⟨rfl, hfields⟩ := exactFields_ok hitems
    split at hrest
    · cases hrest
    split at hrest
    · cases hrest
    obtain ⟨u'', hsecurity, -⟩ := Stateful.bind_eq_ok hrest
    unfold validateSecurity at hsecurity
    obtain ⟨security, hsecurityFields, hsecurity⟩ := Stateful.bind_eq_ok hsecurity
    obtain ⟨hsecurityField, -⟩ := exactFields_ok hsecurityFields
    cases hprincipal : request.principal with
    | none           => rw [hprincipal] at hsecurity; cases hsecurity
    | some principal =>
      rw [hprincipal] at hsecurity
      dsimp only at hsecurity
      refine ⟨items, security, principal, hdocument, rfl, ?_, ?_⟩
      · rw [hfields "security" (by decide), hsecurityField]
      · by_contra hunequal
        rw [Bool.not_eq_true] at hunequal
        rw [if_pos hunequal] at hsecurity
        cases hsecurity

omit [Platform] in
theorem fromUTF8?_toUTF8 (s : String) : String.fromUTF8? s.toUTF8 = some s := dif_pos s.isValidUTF8

/-- A checkpoint with the hash of its own fields. -/
theorem ExecutionCheckpoint.verify_of {c : ExecutionCheckpoint}
    (h : c.integrityHash = sha256Of (Json.dumps (integrityMaterial c.executionId c.businessOperationId c.checkpointVersion
      c.skillId c.skillVersion c.semanticHash c.irVersion c.runtimeVersion c.statePayload))) : c.verify = .ok () := by
  obtain ⟨expected, hexpected⟩ := ExecutionCheckpoint.create_ok c.statePayload c.textsThere c.versionPositive
  have hhash : expected.integrityHash = c.integrityHash := by
    unfold ExecutionCheckpoint.create at hexpected
    dsimp only at hexpected
    split at hexpected
    · cases hexpected
    · rw [dif_pos c.versionPositive] at hexpected
      cases hexpected
      exact h.symm
  unfold ExecutionCheckpoint.verify
  rw [Stateful.bind_ok hexpected, hhash]
  exact if_neg (not_not.2 rfl)

theorem requiredString_digest (d : Digest) (path : String) : requiredString d.text path = .ok d.text := by
  unfold requiredString
  rw [isBlank_of_isRequiredText d.ok.1]
  rfl

end State

end Nsl
