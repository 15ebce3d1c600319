import Nsl.Ir
import Nsl.Security
/-!
# Tools — contracts, calls and what a tool may answer

`tools.py`: the contract of a tool with everything its constructor checks, the catalog, the request of a call, the
answers a tool port may give (any object, any exception) and the checks an answer has to pass.
-/
namespace Nsl

/-! ## Contracts -/

structure IdempotencySemantics where
  scope                   : String
  retention               : String
  duplicateBehavior       : String
  payloadConflictBehavior : String
  declared : Text.isBlank scope = false ∧ Text.isBlank retention = false ∧ Text.isBlank duplicateBehavior = false ∧
    Text.isBlank payloadConflictBehavior = false
  deriving DecidableEq

structure PostWriteVerification where
  toolId          : Option String
  referenceSchema : Option TypeRef
  consistencyHint : Option String
  toolIdSet       : ∀ s, toolId = some s → Text.isBlank s = false
  hintSet         : ∀ s, consistencyHint = some s → Text.isBlank s = false
  declared        : toolId.isSome ∨ referenceSchema.isSome ∨ consistencyHint.isSome
  deriving DecidableEq

/-- `WriteSemantics`: a side effect that is atomic, idempotent, explicitly confirmed, approved and conditional. -/
structure WriteSemantics where
  idempotency  : IdempotencySemantics
  verification : Option PostWriteVerification
  deriving DecidableEq

inductive OperationKind | create | createDraft | update
  deriving DecidableEq, Repr

instance : StrEnum OperationKind where
  members  := [.create, .createDraft, .update]
  value    := fun | .create => "CREATE" | .createDraft => "CREATE_DRAFT" | .update => "UPDATE"
  complete := by intro a; cases a <;> decide
  distinct := by intro a b; cases a <;> cases b <;> decide

def MAX_TOOL_TIMEOUT_MS : Nat := 2147483647

/-- One part of a `major.minor.patch` version. -/
def isVersionPart (part : String) : Bool :=
  part ≠ "" && part.toList.all Char.isDigit && (part = "0" || part.toList.head? ≠ some '0')

def isVersion (version : String) : Bool :=
  let parts := (version.toList.splitOn '.').map String.ofList
  parts.length = 3 && parts.all isVersionPart

structure ToolContract where
  toolId               : String
  version              : String
  capability           : String
  inputTypes           : List (String × TypeRef)
  outputType           : TypeRef
  requiredScope        : String
  outputClassification : DataClassification
  timeoutMs            : Nat
  risk                 : String
  emptyIsValid         : Bool
  operationKind        : Option OperationKind
  riskLevel            : Option RiskLevel
  writeSemantics       : Option WriteSemantics
  versionCanonical     : isVersion version = true
  capabilitySet        : Text.isBlank capability = false
  riskSet              : Text.isBlank risk = false
  namesSet             : ∀ n ∈ inputTypes.map Prod.fst, Text.isBlank n = false
  namesUnique          : KeysOnce inputTypes
  timeoutRange         : 1 ≤ timeoutMs ∧ timeoutMs ≤ MAX_TOOL_TIMEOUT_MS
  writeDeclared        : capability = "WRITE" → operationKind.isSome ∧ riskLevel.isSome ∧ writeSemantics.isSome
  writeOnly            : capability ≠ "WRITE" → operationKind = none ∧ writeSemantics = none

def IdempotencySemantics.toData (s : IdempotencySemantics) : Json :=
  .obj [("required", .bool true), ("scope", .str s.scope), ("retention", .str s.retention),
    ("duplicate_behavior", .str s.duplicateBehavior), ("payload_conflict_behavior", .str s.payloadConflictBehavior)]

def PostWriteVerification.toData (v : PostWriteVerification) : Json :=
  .obj ((v.toolId.toList.map (fun t => ("tool_id", .str t))) ++
    (v.referenceSchema.toList.map (fun t => ("reference_schema", t.toData))) ++
    (v.consistencyHint.toList.map (fun h => ("consistency_hint", .str h))))

def WriteSemantics.toData (s : WriteSemantics) : Json :=
  .obj ([("side_effect", .bool true), ("atomicity", .str "ATOMIC"), ("idempotency", s.idempotency.toData),
    ("commit", .obj [("confirmation", .str "EXPLICIT")]), ("approval", .obj [("required", .bool true)]),
    ("preconditions", .obj [("supported", .bool true)])] ++
    (s.verification.toList.map (fun v => ("verification", v.toData))))

/-- `to_canonical_data` -/
def ToolContract.toCanonicalData (c : ToolContract) : Json :=
  .obj ([("tool_id", .str c.toolId), ("version", .str c.version), ("capability", .str c.capability),
    ("risk", .str c.risk),
    ("inputs", .arr (c.inputTypes.map (fun nt => .obj [("name", .str nt.1), ("type", nt.2.toData)]))),
    ("output", c.outputType.toData), ("required_scope", .str c.requiredScope),
    ("output_classification", .str (StrEnum.value c.outputClassification)), ("timeout_ms", .int c.timeoutMs),
    ("empty_is_valid", .bool c.emptyIsValid)] ++
    (c.operationKind.toList.map (fun k => ("operation_kind", .str (StrEnum.value k)))) ++
    (c.riskLevel.toList.map (fun r => ("risk_level", .str (StrEnum.value r)))) ++
    (c.writeSemantics.toList.map (fun s => ("write_semantics", s.toData))))

/-- **The canonical data of a contract says what it takes and what it answers.** -/
theorem ToolContract.toCanonicalData_inj {c c' : ToolContract} (h : c.toCanonicalData = c'.toCanonicalData) :
    c.inputTypes = c'.inputTypes ∧ c.outputType = c'.outputType ∧ c.outputClassification = c'.outputClassification := by
  have hat := fun key => congrArg (fun l => l.lookup key) (Json.obj.inj h)
  simp only [List.lookup_append, lookup_optional] at hat
  have hinputs : c.inputTypes.map (fun nt => Json.obj [("name", .str nt.1), ("type", nt.2.toData)]) =
      c'.inputTypes.map (fun nt => Json.obj [("name", .str nt.1), ("type", nt.2.toData)]) := by
    simpa [List.lookup_cons] using hat "inputs"
  have houtput : c.outputType.toData = c'.outputType.toData := by simpa [List.lookup_cons] using hat "output"
  have hclass : StrEnum.value c.outputClassification = StrEnum.value c'.outputClassification := by
    simpa [List.lookup_cons] using hat "output_classification"
  refine ⟨List.map_injective_iff.2 (fun nt mu hnt => ?_) hinputs, TypeRef.toData_inj houtput,
    StrEnum.distinct _ _ hclass⟩
  obtain ⟨n, t⟩ := nt
  obtain ⟨m, u⟩ := mu
  simp only [Json.obj.injEq, List.cons.injEq, Prod.mk.injEq, Json.str.injEq, true_and, and_true] at hnt
  rw [hnt.1, TypeRef.toData_inj hnt.2]

section Contracts

variable [Platform]

def ToolContract.contractHash (c : ToolContract) : String := sha256Of (Json.dumps c.toCanonicalData)

end Contracts

/-- `ToolContractCatalog`: each tool and version once. -/
structure ToolContractCatalog where
  contracts : List ToolContract
  unique    : (contracts.map (fun c => (c.toolId, c.version))).Nodup

/-- `ToolContractCatalog.resolve` -/
def ToolContractCatalog.resolve (catalog : ToolContractCatalog) (toolId version : String) : Except Exn ToolContract :=
  if catalog.contracts.all (fun c => c.toolId ≠ toolId) then
    .error (.toolContract ("unknown tool contract: " ++ toolId ++ "@" ++ version))
  else
    match catalog.contracts.find? (fun c => c.toolId = toolId && c.version = version) with
    | some c => .ok c
    | none   => .error (.toolContract ("incompatible tool version: " ++ toolId ++ "@" ++ version))

/-! ## Values of a type -/

mutual
/-- `value_conforms_to_type` -/
def conformsTo : TypeRef → Value → Bool
  | ⟨kind, name, currency, item, fields, enumValues, _⟩, value =>
    if kind = "primitive" then
      match name, value with
      | some "Bool", .bool _         => true
      | some "Date", .date _         => true
      | some "DateTime", .datetime _ => true
      | some "Decimal", .decimal _   => true
      | some "Int", .int _           => true
      | some "String", .str _        => true
      | some "Year", .int _          => true
      | _, _                         => false
    else if kind = "domain" then
      match value with
      | .str _ => true
      | _      => false
    else if kind = "money" then
      match value with
      | .money m => some m.currency = currency
      | _        => false
    else if kind = "list" then
      match value with
      | .list items => itemsConform item items
      | _           => false
    else if kind = "record" then
      match value with
      | .dict items =>
        items.all (fun kv => (fields.map Prod.fst).contains kv.1) && fieldsConform fields items
      | _ => false
    else if kind = "enum" then
      match value with
      | .str s => enumValues.contains s
      | _      => false
    else false
def itemsConform : Option TypeRef → List Value → Bool
  | none, _       => false
  | some t, items => items.all (conformsTo t)
/-- Each field of the record type has its value; of two fields of one name the later counts. -/
def fieldsConform : List (String × TypeRef) → List (String × Value) → Bool
  | [], _           => true
  | (n, t) :: fs, items =>
    (match items.lookup n with
      | some v => (fs.map Prod.fst).contains n || conformsTo t v
      | none   => false) && fieldsConform fs items
end

/-! ## Calls -/

structure ToolCallRequest where
  executionId              : String
  invocationId             : String
  nodeId                   : String
  toolId                   : String
  toolVersion              : String
  contractHash             : String
  arguments                : List (String × ValueEnvelope)
  principal                : ExecutionPrincipal
  authorizationDecisionRef : String

structure ToolResultEnvelope where
  invocationId   : String
  toolId         : String
  toolVersion    : String
  value          : Value
  typeInfo       : TypeRef
  presence       : Presence
  completeness   : Completeness
  classification : DataClassification
  resultHash     : String
  snapshotRef    : Option String

/-- An object of class `ToolResultEnvelope` as a tool built it: `none` is a field of the wrong class. -/
structure RawToolResult where
  invocationId   : Option String
  toolId         : Option String
  toolVersion    : Option String
  value          : Value
  typeInfo       : Option TypeRef
  presence       : Option Presence
  completeness   : Option Completeness
  classification : Option DataClassification
  resultHash     : Option String
  snapshotRef    : Option (Option String)

/-- What one call of the port ends in. -/
inductive PortAnswer
  | returns (result : RawToolResult)
  /-- an object of another class -/
  | returnsOther
  | raises (e : Exn)

/-- `ToolResultEnvelope.to_value` -/
def ToolResultEnvelope.toValue (r : ToolResultEnvelope) (provenanceRef : String) : ValueEnvelope :=
  { value := r.value, typeInfo := some r.typeInfo, presence := r.presence, completeness := r.completeness,
    classification := r.classification, provenanceRefs := [provenanceRef] }

section Validator

variable [Platform]

/-- Each expected argument has its type and a value of it. -/
def argumentsConform (request : ToolCallRequest) : List (String × TypeRef) → Except Exn Unit
  | []           => .ok ()
  | (n, t) :: ts =>
    match request.arguments.lookup n with
    | some a =>
      if a.typeInfo = some t ∧ conformsTo t a.value then argumentsConform request ts
      else .error (.toolExecution "TOOL_ARGUMENT_TYPE_MISMATCH"
        ("argument type does not match contract: " ++ request.toolId ++ "." ++ n))
    | none => .error (.lookup n)

/-- `ToolContractValidator.validate_request` -/
def validateRequest (request : ToolCallRequest) (contract : ToolContract) : Except Exn Unit :=
  if request.contractHash ≠ contract.contractHash then
    .error (.toolExecution "TOOL_CONTRACT_MISMATCH" ("contract changed: " ++ request.toolId))
  else if ¬ (∀ n, n ∈ request.arguments.map Prod.fst → n ∈ contract.inputTypes.map Prod.fst) ∨
      ¬ (∀ n, n ∈ contract.inputTypes.map Prod.fst → n ∈ request.arguments.map Prod.fst) then
    .error (.toolExecution "TOOL_ARGUMENT_MISMATCH" ("argument names do not match contract: " ++ request.toolId))
  else argumentsConform request contract.inputTypes

/-- `validate_result_structure` -/
def validateResultStructure (answer : PortAnswer) (request : ToolCallRequest) : Except Exn ToolResultEnvelope :=
  match answer with
  | .raises e     => .error e
  | .returnsOther => .error (.toolExecution "MALFORMED_TOOL_RESULT"
      ("tool result is not a structured envelope: " ++ request.toolId))
  | .returns r    =>
    if r.invocationId ≠ some request.invocationId ∨ r.toolId ≠ some request.toolId ∨
        r.toolVersion ≠ some request.toolVersion then
      .error (.toolExecution "TOOL_RESULT_IDENTITY_MISMATCH"
        ("tool result identity does not match request: " ++ request.toolId))
    else
      match r.typeInfo, r.presence, r.completeness, r.classification, r.snapshotRef with
      | some typeInfo, some presence, some completeness, some classification, some snapshotRef =>
        if snapshotRef = some "" then
          .error (.toolExecution "MALFORMED_TOOL_RESULT" ("tool result metadata is malformed: " ++ request.toolId))
        else .ok ⟨request.invocationId, request.toolId, request.toolVersion, r.value, typeInfo, presence, completeness,
          classification, r.resultHash.getD "", snapshotRef⟩
      | _, _, _, _, _ =>
        .error (.toolExecution "MALFORMED_TOOL_RESULT" ("tool result metadata is malformed: " ++ request.toolId))

/-- `validate_result` and `validate_result_value` -/
def validateResult (result : ToolResultEnvelope) (contract : ToolContract) : Except Exn Unit :=
  if result.typeInfo ≠ contract.outputType ∨ result.classification ≠ contract.outputClassification then
    .error (.toolExecution "OUTPUT_CONTRACT_VIOLATION" ("result metadata does not match contract: " ++ contract.toolId))
  else if conformsTo contract.outputType result.value then .ok ()
  else .error (.toolExecution "OUTPUT_CONTRACT_VIOLATION" ("result does not match contract: " ++ contract.toolId))

/-- `tool_result_hash` -/
def toolResultHash (value : Value) : Except Exn String := (canonicalJson (encodeValue value)).map sha256Of

/-- `validate_result_hash` -/
def validateResultHash (result : ToolResultEnvelope) : Except Exn Unit :=
  match toolResultHash result.value with
  | .error e => .error e
  | .ok h    =>
    if result.resultHash = h then .ok ()
    else .error (.toolExecution "TOOL_RESULT_HASH_MISMATCH" ("tool result hash does not match value: " ++ result.toolId))

end Validator
end Nsl
