import Nsl.Audit
/-!
# Runtime — the interpreter

`RuntimeEngine._execute_block` and everything below it (`runtime.py`), with the resource guard of `runtime_models.py` and
the built-ins of `builtins.py`. A run writes the execution context and the world; an exception leaves both as they are.
Recursion follows the expressions and statements: what is done around a part takes the run of the part as an argument.
-/
namespace Nsl

open Stateful (Run)

section Runtime

variable [Platform]

def modifyCtx (f : Context → Context) : Run St Exn Unit := Run.write (fun s => { s with ctx := f s.ctx })

def getCtx : Run St Exn Context := Run.look (·.ctx)

/-! ## Resource guard -/

def DURATION_LIMIT_MESSAGE : String := "execution duration limit exceeded"

variable (env : Env)

/-- `_remaining_duration_ns` -/
def remainingDurationNs : Run St Exn Int := do
  let now ← readClock env
  let ctx ← getCtx
  Run.done (ctx.skill.limits.durationMs * 1000000 - (now - ctx.startedNs))

/-- `check_deadline` -/
def checkDeadline : Run St Exn Unit := do
  let remaining ← remainingDurationNs env
  if remaining ≤ 0 then Run.fail (.limitExceeded DURATION_LIMIT_MESSAGE) else Run.done ()

/-- `remaining_duration_ms` -/
def remainingDurationMs : Run St Exn Int := do
  let remaining ← remainingDurationNs env
  if remaining ≤ 0 then Run.fail (.limitExceeded DURATION_LIMIT_MESSAGE)
  else Run.done ((remaining + 999999) / 1000000)

/-- `_consume`: one more of a count below its limit. -/
def consume (count limit : Context → Nat) (message : String) (bump : Meter → Meter) : Run St Exn Unit := do
  let ctx ← getCtx
  if limit ctx ≤ count ctx then Run.fail (.limitExceeded message)
  else modifyCtx (fun c => { c with resources := bump c.resources })

/-- `before_tool_call` -/
def beforeToolCall : Run St Exn Unit := do
  checkDeadline env
  consume (·.resources.toolCalls) (·.skill.limits.toolCalls) "tool call limit exceeded"
    (fun m => { m with toolCalls := m.toolCalls + 1 })

/-- `before_loop_iteration` -/
def beforeLoopIteration : Run St Exn Unit := do
  checkDeadline env
  consume (·.resources.loopIterations) (·.skill.limits.loopIterations) "loop iteration limit exceeded"
    (fun m => { m with loopIterations := m.loopIterations + 1 })

/-- `before_emit` -/
def beforeEmit : Run St Exn Unit := do
  checkDeadline env
  let ctx ← getCtx
  if ctx.skill.limits.emittedRows ≤ ctx.resources.emittedRows then
    Run.fail (.limitExceeded "emitted row limit exceeded")
  else Run.done ()

/-- `record_emit` -/
def recordEmit : Run St Exn Unit :=
  modifyCtx (fun c => { c with resources := { c.resources with emittedRows := c.resources.emittedRows + 1 } })

/-- `check_collection` -/
def checkCollection (size : Nat) : Run St Exn Unit := do
  checkDeadline env
  let ctx ← getCtx
  if ctx.skill.limits.collectionSize < size then Run.fail (.limitExceeded "collection size limit exceeded")
  else Run.done ()

/-- `observe_collection` -/
def observeCollection (size : Nat) : Run St Exn Unit := do
  modifyCtx (fun c => { c with resources :=
    { c.resources with maxCollectionSizeSeen := max c.resources.maxCollectionSizeSeen size } })
  checkCollection env size

/-- A check made of list values only. -/
def onList (check : Nat → Run St Exn Unit) (value : Value) : Run St Exn Unit :=
  match value with
  | .list items => check items.length
  | _           => Run.done ()

/-! ## Frames -/

/-- `_bind_once` -/
def bindOnce (symbolId : String) (put : Context → Context) : Run St Exn Unit := do
  let ctx ← getCtx
  if ctx.isBound symbolId then Run.fail (.immutableBinding ("immutable symbol already bound: " ++ symbolId))
  else modifyCtx put

def bindInput (symbolId : String) (v : ValueEnvelope) : Run St Exn Unit :=
  bindOnce symbolId (fun c => { c with inputValues := c.inputValues.set symbolId v })

def bindContext (symbolId : String) (v : ValueEnvelope) : Run St Exn Unit :=
  bindOnce symbolId (fun c => { c with contextValues := c.contextValues.set symbolId v })

/-- `bind` -/
def bindSymbol (symbolId : String) (v : ValueEnvelope) : Run St Exn Unit :=
  bindOnce symbolId (fun c => { c with frames := c.frames.bind symbolId v })

def bindCheck (symbolId : String) (v : ValueEnvelope) : Run St Exn Unit :=
  bindOnce symbolId (fun c => { c with checkFrames := c.checkFrames.bind symbolId v })

def pushFrame : Run St Exn Unit :=
  modifyCtx (fun c => { c with frames := c.frames.push, checkFrames := c.checkFrames.push })

/-- `pop_frame` -/
def popFrame : Run St Exn Unit := do
  let ctx ← getCtx
  match ctx.frames.below, ctx.checkFrames.below with
  | f :: fs, g :: gs => modifyCtx (fun c => { c with frames := ⟨f, fs⟩, checkFrames := ⟨g, gs⟩ })
  | _, _             => Run.fail (.other "cannot pop the root execution frame")

/-! ## Built-ins -/

/-- `bool(value)` -/
def truthy : Value → Bool
  | .null       => false
  | .bool b     => b
  | .int i      => i ≠ 0
  | .str s      => s ≠ ""
  | .list items => items ≠ []
  | .tuple items => items ≠ []
  | .dict items => items ≠ []
  | .decimal d  => match d with
    | .finite _ c _ => c ≠ 0
    | _             => true
  | .float t    => t ≠ "0.0" && t ≠ "-0.0"
  | _           => true

/-- `BuiltinRegistry.resolve`: the result type of a call. -/
def resolveBuiltin (name : String) (argumentTypes : List (Option TypeRef)) : Except Exn TypeRef :=
  if name ∉ ["count", "max", "min", "sum"] then .error (.builtin ("unsupported built-in call: " ++ name))
  else
    match argumentTypes with
    | [some t] =>
      match t.item with
      | none      => .error (.builtin (name ++ " requires a List argument"))
      | some item =>
        if t.kind ≠ "list" then .error (.builtin (name ++ " requires a List argument"))
        else if name = "sum" ∧ item ≠ INT ∧ item ≠ DECIMAL ∧ item.kind ≠ "money" then
          .error (.builtin "sum requires List<Int|Decimal|Money>")
        else .ok (if name = "count" then INT else item)
    | [none] => .error (.attribute "'NoneType' object has no attribute 'kind'")
    | _      => .error (.builtin (name ++ " requires exactly one argument"))

/-- `sum_money` -/
def sumMoney (ops : Operators) (values : Value) (currency : String) : Except Exn Value := do
  let zero ← Money.make (.finite false 0 0) currency
  (← values.iterate).foldlM (fun total v =>
    match v with
    | .money _ => ops.apply "ADD" total v
    | _        => .error (.money "Money sum requires Money values")) (.money zero)

/-- `min` and `max`: the first item no other one is beyond. -/
def extremum (ops : Operators) (beyond : String) (values : Value) : Except Exn Value := do
  match ← values.iterate with
  | []      => .error (.value "iterable argument is empty")
  | v :: vs => vs.foldlM (fun best w => return if truthy (← ops.apply beyond w best) then w else best) v

/-- The part of `evaluate` whose `TypeError` is reported as the built-in's. -/
def aggregate (ops : Operators) (name : String) (values : Value) (expected : TypeRef) : Except Exn Value :=
  if name = "count" then values.len.map (fun n => .int n)
  else if name = "min" then extremum ops "LT" values
  else if name = "max" then extremum ops "GT" values
  else do
    let start : Value := if expected = DECIMAL then .decimal (.finite false 0 0) else .int 0
    (← values.iterate).foldlM (fun total v => ops.apply "ADD" total v) start

/-- `BuiltinRegistry.evaluate` -/
def evaluateBuiltin (ops : Operators) (name : String) (arguments : List ValueEnvelope) (expected : TypeRef) :
    Except Exn Value := do
  let resultType ← resolveBuiltin name (arguments.map (·.typeInfo))
  if resultType ≠ expected then throw (.builtin ("invalid result type for built-in: " ++ name))
  let values := (arguments.head?.map (·.value)).getD .null
  if (name = "min" ∨ name = "max") ∧ !truthy values then
    throw (.builtin (name ++ " requires a non-empty collection"))
  if name = "sum" ∧ expected.kind = "money" then sumMoney ops values (expected.currency.getD "")
  else
    match aggregate ops name values expected with
    | .error (.type _) => throw (.builtin (name ++ " cannot evaluate the supplied collection"))
    | other            => other

/-! ## Expressions -/

/-- The classes `_evaluate` lets pass as they are. -/
def passesThrough : Exn → Bool
  | .authorization .. | .toolExecution .. | .limitExceeded _ | .runtimeContract _ | .expressionEvaluation .. | .money _ => true
  | _ => false

/-- `ArithmeticError`, `LookupError`, `TypeError` and `ValueError` with their subclasses. -/
def isValueMistake : Exn → Bool
  | .arithmetic _ | .lookup _ | .toolContract _ | .type _ | .value _ | .builtin _ | .integrity _ | .schema .. => true
  | _ => false

/-- The exception `_evaluate` raises for one of `_evaluate_ir`. -/
def evaluationError (e : Expression) (error : Exn) : Exn :=
  if passesThrough error then error
  else if isValueMistake error ∧ !e.isRead then
    .expressionEvaluation e.nodeId "EXPRESSION_EVALUATION_ERROR" "expression evaluation failed"
  else error

/-- `_evaluate` around `_evaluate_ir`. -/
def evaluated (e : Expression) (ir : Run St Exn ValueEnvelope) : Run St Exn ValueEnvelope :=
  if e.isWrite then Run.fail (.type "WriteExpression")
  else do
    let result ← Run.handle (do checkDeadline env; ir) (fun error => Run.fail (evaluationError e error))
    if result.typeInfo ≠ some e.typeInfo then
      Run.fail (.expressionEvaluation e.nodeId "EXPRESSION_TYPE_MISMATCH" "expression type mismatch")
    else do
      modifyCtx (fun c => c.observeCompleteness result.completeness)
      checkDeadline env
      onList (checkCollection env) result.value
      Run.done result

/-- `_combine_completeness` -/
def combineCompleteness (left right : Completeness) : Completeness :=
  if left = .unknown ∨ right = .unknown then .unknown
  else if left = .partly ∨ right = .partly then .partly
  else .complete

def operatorNames : List String := ["ADD", "SUB", "MUL", "DIV", "LT", "LE", "GT", "GE", "EQ", "NE"]

/-- The value of a binary expression. -/
def applyOperator (ops : Operators) (operator : String) (typeInfo : TypeRef) (left right : Value) : Except Exn Value :=
  if operator = "DIV" ∧ typeInfo = DECIMAL then ops.apply "DECIMAL_DIV" left right
  else if operator ∈ operatorNames then ops.apply operator left right
  else .error (.lookup operator)

def binaryValue (operator : String) (typeInfo : TypeRef) (left right : ValueEnvelope) :
    Except Exn ValueEnvelope := do
  let value ← applyOperator env.operators operator typeInfo left.value right.value
  return { value, typeInfo := some typeInfo, presence := .present,
           completeness := combineCompleteness left.completeness right.completeness,
           classification := left.classification.highest right.classification,
           provenanceRefs := (left.provenanceRefs ++ right.provenanceRefs).eraseDups }

def fieldValue (field : String) (typeInfo : TypeRef) (source : ValueEnvelope) : Except Exn ValueEnvelope := do
  let value ← source.value.item field
  return { source with value, typeInfo := some typeInfo, presence := .present }

def projectValue (field : String) (typeInfo : TypeRef) (source : ValueEnvelope) : Except Exn ValueEnvelope := do
  let items ← (← source.value.iterate).mapM (·.item field)
  return { source with value := .list items, typeInfo := some typeInfo,
                       presence := if items.isEmpty then .empty else .present }

def callValue (function : String) (typeInfo : TypeRef) (arguments : List ValueEnvelope) : Except Exn ValueEnvelope :=
  match evaluateBuiltin env.operators function arguments typeInfo with
  | .error (.builtin m) => .error (.runtimeContract m)
  | .error e            => .error e
  | .ok value           =>
    match arguments with
    | []          => .error (.lookup "tuple index out of range")
    | argument :: _ => .ok { argument with value, typeInfo := some typeInfo, presence := .present }

/-! ### READ -/

/-- What the events of one tool call say of it. -/
structure ToolCall where
  nodeId       : String
  invocationId : String
  required     : RequiredTool
  contract     : ToolContract
  decisionId   : String
  arguments    : List (String × ValueEnvelope)

def ToolCall.base (t : ToolCall) : List (String × Value) :=
  [("node_id", .str t.nodeId), ("invocation_id", .str t.invocationId), ("tool_id", .str t.required.toolId)]

def ToolCall.values (t : ToolCall) : Value := .dict (t.arguments.map (fun nv => (nv.1, nv.2.value)))

def ToolCall.classification (t : ToolCall) : DataClassification :=
  highestDeclared (t.arguments.map (·.2.classification))

def ToolCall.request (t : ToolCall) (ctx : Context) (principal : ExecutionPrincipal) : ToolCallRequest :=
  { executionId := ctx.request.executionId.text, invocationId := t.invocationId, nodeId := t.nodeId,
    toolId := t.required.toolId, toolVersion := t.required.version, contractHash := t.required.contractHash,
    arguments := t.arguments, principal, authorizationDecisionRef := t.decisionId }

def toolStarted (t : ToolCall) (argumentHash : String) (argumentRef : Option SnapshotRef) : Run St Exn Unit :=
  emit env "TOOL_STARTED" (t.base ++
    [("argument_hash", .str argumentHash),
     ("input", .dict
       [("argument_names", .list (t.arguments.map (fun nv => .str nv.1))), ("argument_hash", .str argumentHash),
        ("snapshot_ref", optionalStr (argumentRef.map (·.snapshotId))),
        ("classification", .str (StrEnum.value t.classification))]),
     ("authorization_decision_ref", .str t.decisionId)])

/-- The three `TOOL_FAILED` events of the source differ in these texts. -/
def toolFailed (t : ToolCall) (code : String) (detail : Option String) (status : String) : Run St Exn Unit :=
  emit env "TOOL_FAILED" (t.base ++
    [("error_code", .str code), ("authorization_decision_ref", .str t.decisionId),
     ("cause", .dict [("error_code", .str code), ("detail_code", optionalStr detail)]),
     ("output", .dict [("status", .str status), ("error_code", .str code)])])

def toolCompleted (t : ToolCall) (result : ToolResultEnvelope) (snapshotRef : Option String) : Run St Exn Unit :=
  emit env "TOOL_COMPLETED" (t.base ++
    [("authorization_decision_ref", .str t.decisionId), ("result_hash", .str result.resultHash),
     ("snapshot_ref", optionalStr snapshotRef), ("presence", .str (StrEnum.value result.presence)),
     ("completeness", .str (StrEnum.value result.completeness)),
     ("output", .dict
       [("result_hash", .str result.resultHash), ("snapshot_ref", optionalStr snapshotRef),
        ("type", ofJson result.typeInfo.toData), ("presence", .str (StrEnum.value result.presence)),
        ("completeness", .str (StrEnum.value result.completeness)),
        ("classification", .str (StrEnum.value result.classification))])])

/-- `execute_with_timeout` -/
def executeWithTimeout (request : ToolCallRequest) (timeoutMs : Int) : Run St Exn PortAnswer :=
  Run.handle (callTools env request) (fun error =>
    match error with
    | .timeout | .cancelled true => Run.fail (.toolExecution "TOOL_TIMEOUT"
        ("tool timed out after " ++ toString timeoutMs ++ " ms: " ++ request.toolId))
    | e => Run.fail e)

/-- The call and every check of its result. -/
def checkedCall (t : ToolCall) (request : ToolCallRequest) (timeoutMs : Int) (policy : ResultPolicy) :
    Run St Exn ToolResultEnvelope := do
  Run.ofExcept (validateRequest request t.contract)
  let answer ← executeWithTimeout env request timeoutMs
  let result ← Run.ofExcept (validateResultStructure answer request)
  Run.ofExcept (validateResult result t.contract)
  Run.ofExcept (validateResultHash result)
  if policy.required ∧ result.presence = .empty ∧ !policy.emptyIsValid then
    Run.fail (.toolExecution "REQUIRED_TOOL_RESULT_MISSING" ("required tool result is missing: " ++ t.required.toolId))
  else do
    checkDeadline env
    Run.done result

/-- The `except` clauses of `_execute_read`: report the failure, then raise it. -/
def reportFailure (t : ToolCall) (durationLimited : Bool) (error : Exn) : Run St Exn ToolResultEnvelope :=
  match error with
  | .limitExceeded m => do
    toolFailed env t "RESOURCE_LIMIT_EXCEEDED" none "LIMIT_EXCEEDED"
    Run.fail (.limitExceeded m)
  | .toolExecution code m =>
    if code = "TOOL_TIMEOUT" ∧ durationLimited then do
      toolFailed env t "RESOURCE_LIMIT_EXCEEDED" (some "TOOL_TIMEOUT") "LIMIT_EXCEEDED"
      Run.fail (.limitExceeded DURATION_LIMIT_MESSAGE)
    else do
      toolFailed env t code (some code) "TOOL_ERROR"
      Run.fail (.toolExecution code m)
  | .cancelled b => Run.fail (.cancelled b)
  | .exit        => Run.fail .exit
  | e            => do
    toolFailed env t "UNEXPECTED_TOOL_ERROR" none "FAILED"
    Run.fail e

/-- What is done with a result that passed. -/
def acceptResult (t : ToolCall) (result : ToolResultEnvelope) : Run St Exn ValueEnvelope := do
  let stored ← (match result.snapshotRef with
    | some ref => Run.done (some ref)
    | none     => do
      let ref ← putSnapshot env result.value result.classification
      Run.done (ref.map (·.snapshotId)))
  toolCompleted env t result stored
  onList (observeCollection env) result.value
  Run.done (result.toValue
    ("prov:" ++ t.invocationId ++ ":" ++ String.ofList ((result.resultHash.toList.take 19).drop 7)))

/-- From the first count of the call to its result. -/
def performCall (t : ToolCall) (principal : ExecutionPrincipal) (policy : ResultPolicy) : Run St Exn ValueEnvelope := do
  let argumentHash ← Run.ofExcept (valueHash t.values)
  let argumentRef ← putSnapshot env t.values t.classification
  toolStarted env t argumentHash argumentRef
  let ctx ← getCtx
  let request := t.request ctx principal
  let remaining ← remainingDurationMs env
  let result ← Run.handle (checkedCall env t request (min t.contract.timeoutMs remaining) policy)
    (reportFailure env t (remaining ≤ t.contract.timeoutMs))
  acceptResult env t result

/-- `f"inv{counter:04d}"` -/
def invocationId (counter : Nat) : String := "inv" ++ Text.zeroPad 4 counter

/-- What `_execute_read` looks up before it evaluates the arguments. -/
def resolveRead (ctx : Context) (toolRef : String) (argumentNames : List String) :
    Except Exn (RequiredTool × ToolContract × ExecutionPrincipal × AuthorizationDecision) := do
  match ctx.skill.requiredTools.find? (fun r => r.toolRef = toolRef) with
  | none          => .error (.runtimeContract ("read references unregistered tool: " ++ toolRef))
  | some required =>
    let contract ← env.catalog.resolve required.toolId required.version
    if ¬ (∀ n ∈ argumentNames, n ∈ contract.inputTypes.map Prod.fst) ∨
        ¬ (∀ n ∈ contract.inputTypes.map Prod.fst, n ∈ argumentNames) ∨ ¬ argumentNames.Nodup then
      throw (.toolExecution "TOOL_ARGUMENT_MISMATCH"
        ("argument names do not match contract: " ++ required.toolId))
    match ctx.request.principal with
    | none           => .error (.attribute "'NoneType' object has no attribute 'validate'")
    | some principal =>
      let decision ← env.authorizer.authorize principal ("tool:" ++ required.toolId ++ ":execute")
        [required.requiredScope]
      return (required, contract, principal, decision)

/-- `_execute_read`, given the run that evaluates its arguments. -/
def executeRead (nodeId toolRef : String) (argumentNames : List String)
    (arguments : Run St Exn (List (String × ValueEnvelope))) (policy : ResultPolicy) : Run St Exn ValueEnvelope := do
  let ctx ← getCtx
  let (required, contract, principal, decision) ← Run.ofExcept (resolveRead env ctx toolRef argumentNames)
  let args ← arguments
  beforeToolCall env
  modifyCtx (fun c => { c with invocationCounter := c.invocationCounter + 1 })
  let counted ← getCtx
  performCall env ⟨nodeId, invocationId counted.invocationCounter, required, contract, decision.decisionId, args⟩
    principal policy

mutual
/-- `_evaluate_ir` -/
def evaluateIr : Expression → Run St Exn ValueEnvelope
  | .literal _ value typeInfo => Run.done (ValueEnvelope.ofComplete value typeInfo .publicData [])
  | .symbolRef _ symbolId _ => do
    let ctx ← getCtx
    Run.ofExcept (ctx.resolve symbolId)
  | .field _ source field typeInfo => do
    let v ← evaluated env source (evaluateIr source)
    Run.ofExcept (fieldValue field typeInfo v)
  | .project _ source field typeInfo => do
    let v ← evaluated env source (evaluateIr source)
    Run.ofExcept (projectValue field typeInfo v)
  | .call _ function arguments typeInfo => do
    let vs ← evaluateItems arguments
    Run.ofExcept (callValue env function typeInfo vs)
  | .binary _ operator left right typeInfo => do
    let l ← evaluated env left (evaluateIr left)
    let r ← evaluated env right (evaluateIr right)
    Run.ofExcept (binaryValue env operator typeInfo l r)
  | .read nodeId toolRef arguments _ policy =>
    executeRead env nodeId toolRef (arguments.map Prod.fst) (evaluateArguments arguments) policy
  | .write .. => Run.fail (.type "WriteExpression")
def evaluateItems : List Expression → Run St Exn (List ValueEnvelope)
  | []      => Run.done []
  | e :: es => do
    let v ← evaluated env e (evaluateIr e)
    let vs ← evaluateItems es
    Run.done (v :: vs)
def evaluateArguments : List (String × Expression) → Run St Exn (List (String × ValueEnvelope))
  | []           => Run.done []
  | (n, e) :: es => do
    let v ← evaluated env e (evaluateIr e)
    let vs ← evaluateArguments es
    Run.done ((n, v) :: vs)
end

/-- `_evaluate` -/
def evaluate (e : Expression) : Run St Exn ValueEnvelope := evaluated env e (evaluateIr env e)

/-! ## Statements -/

/-- `_validate_runtime_type` -/
def validateRuntimeType (value : Value) (t : TypeRef) (name : String) : Except Exn Unit :=
  let valid : Bool :=
    if t.name = some "Year" ∨ t.name = some "Int" then
      match value with
      | .int _ => true
      | _      => false
    else if t.kind = "domain" ∨ t.name = some "String" then
      match value with
      | .str _ => true
      | _      => false
    else if t.name = some "Bool" then
      match value with
      | .bool _ => true
      | _       => false
    else if t = DECIMAL then
      match value with
      | .decimal _ => true
      | _          => false
    else if t = DATE then
      match value with
      | .date _ => true
      | _       => false
    else if t = DATETIME then
      match value with
      | .datetime _ => true
      | _           => false
    else if t.kind = "money" then
      match value with
      | .money m => some m.currency = t.currency
      | _        => false
    else if t.kind = "enum" then
      match value with
      | .str s => t.enumValues.contains s
      | _      => false
    else true
  if valid then .ok () else .error (.runtimeContract ("runtime type mismatch for " ++ name))

/-- `StrictRuleEvaluator.evaluate` -/
def evaluateCheck (s : CheckStatement) (predicate : ValueEnvelope) : Except Exn CheckResult :=
  match predicate.value with
  | .bool truth =>
    if predicate.typeInfo = some BOOL then
      .ok { checkId := s.checkId,
            status :=
              if predicate.completeness = .complete then (if truth then .pass else .fail) else .unknown,
            severity := s.severity, message := s.message, conditionNodeId := s.condition.nodeId,
            presence := predicate.presence, completeness := predicate.completeness,
            provenanceRefs := predicate.provenanceRefs,
            reasonCode :=
              match predicate.completeness with
              | .partly   => some "PARTIAL_INPUT"
              | .unknown  => some "UNKNOWN_COMPLETENESS"
              | .complete => none }
    else .error (.checkEvaluation "CHECK predicate is not Bool")
  | _ => .error (.checkEvaluation "CHECK predicate is not Bool")

def checkCompleted (s : CheckStatement) (check : CheckResult) : Run St Exn Unit :=
  emit env "CHECK_COMPLETED"
    [("node_id", .str s.nodeId), ("check_id", .str s.checkId), ("status", .str (StrEnum.value check.status)),
     ("condition_node_id", .str check.conditionNodeId), ("presence", .str (StrEnum.value check.presence)),
     ("completeness", .str (StrEnum.value check.completeness)), ("reason", optionalStr check.reasonCode),
     ("provenance_refs", .list (check.provenanceRefs.map .str))]

/-- `ctx.checks.append(check)` -/
def recordCheck (check : CheckResult) : Run St Exn Unit := modifyCtx (fun c => { c with checks := c.checks ++ [check] })

/-- `_execute_check` -/
def executeCheck (s : CheckStatement) : Run St Exn Unit := do
  let predicate ← evaluate env s.condition
  let check ← Run.ofExcept (match evaluateCheck s predicate with
    | .error (.checkEvaluation m) => .error (.runtimeContract m)
    | other                       => other)
  recordCheck check
  bindCheck s.resultSymbolId
    (ValueEnvelope.ofComplete (.dict [("status", .str (StrEnum.value check.status))]) CHECK_RESULT .internal
      predicate.provenanceRefs)
  checkCompleted env s check

/-- `_execute_let` -/
def executeLet (s : LetStatement) : Run St Exn Unit := do
  let value ← evaluate env s.value
  bindSymbol s.targetSymbolId value

/-- What `_execute_emit` checks of the declared outputs and the fields of the statement. -/
def emitFieldsMatch (outputs : List OutputField) (names : List String) : Bool :=
  (outputs.map (·.name)).Nodup && names.Nodup && names.all ((outputs.map (·.name)).contains ·) &&
    (outputs.map (·.name)).all (names.contains ·)

/-- One field of an EMIT. -/
def emitField (outputs : List OutputField) (name : String) (e : Expression) : Run St Exn ValueEnvelope :=
  match outputs.find? (fun o => o.name = name) with
  | none        => Run.fail (.lookup name)
  | some output =>
    if e.typeInfo ≠ output.typeInfo then
      Run.fail (.runtimeContract ("EMIT type does not match output schema: " ++ name))
    else do
      let result ← evaluate env e
      Run.ofExcept (validateRuntimeType result.value output.typeInfo ("output " ++ name))
      if result.classification.allows output.classification then Run.done result
      else Run.fail (.runtimeContract ("EMIT classification exceeds output schema: " ++ name))

def emitFields (outputs : List OutputField) : List (String × Expression) → Run St Exn (List (String × ValueEnvelope))
  | []           => Run.done []
  | (n, e) :: es => do
    let v ← emitField env outputs n e
    let vs ← emitFields outputs es
    Run.done ((n, v) :: vs)

/-- The record of an EMIT: the fields in the order of the outputs, none of them unnamed. -/
def emitRecord (outputs : List OutputField) (values : List (String × ValueEnvelope)) : Except Exn EmitRecord :=
  if outputs.any (fun o => o.name = "") then
    .error (.value "emit fields must map names to ValueEnvelope values")
  else .ok ⟨Dict.ofList (outputs.filterMap (fun o => (values.lookup o.name).map (fun v => (o.name, v))))⟩

/-- The snapshot and the event of an emitted row. -/
def reportRow (nodeId : String) (values : List (String × ValueEnvelope)) : Run St Exn Unit := do
  let maximum := highestDeclared (values.map (·.2.classification))
  let plain : Value := .dict (values.map (fun nv => (nv.1, nv.2.value)))
  let ref ← putSnapshot env plain maximum
  emitHidden env "EMIT_COMPLETED" (.dict [("node_id", .str nodeId), ("values", plain)]) maximum ref
    (.dict [("node_id", .str nodeId), ("field_names", .list (values.map (fun nv => .str nv.1)))])

/-- `ctx.outputs.append(record)` -/
def recordOutput (record : EmitRecord) : Run St Exn Unit := modifyCtx (fun c => { c with outputs := c.outputs ++ [record] })

/-- The end of `_execute_emit`: append the row, count it, report it. -/
def appendRow (nodeId : String) (outputs : List OutputField) (values : List (String × ValueEnvelope)) :
    Run St Exn Unit := do
  let record ← Run.ofExcept (emitRecord outputs values)
  recordOutput record
  recordEmit
  reportRow env nodeId values

/-- `_execute_emit` -/
def executeEmit (s : EmitStatement) : Run St Exn Unit := do
  beforeEmit env
  let ctx ← getCtx
  if emitFieldsMatch ctx.skill.outputs (s.fields.map Prod.fst) then do
    let values ← emitFields env ctx.skill.outputs s.fields
    appendRow env s.nodeId ctx.skill.outputs values
  else Run.fail (.runtimeContract "EMIT fields do not match output schema")

/-- One pass of a loop in a frame of its own. -/
def loopPass (iteratorSymbolId : String) (collection : ValueEnvelope) (body : Run St Exn Unit) (value : Value) :
    Run St Exn Unit := do
  beforeLoopIteration env
  pushFrame
  Run.lastly
    (do
      bindSymbol iteratorSymbolId
        { collection with value, typeInfo := collection.typeInfo.bind (·.item), presence := .present }
      body)
    popFrame

/-- `_execute_foreach_body` -/
def executeForeachBody (nodeId iteratorSymbolId : String) (collection : Expression) (maxIterations : Int)
    (body : Run St Exn Unit) : Run St Exn Unit := do
  let source ← evaluate env collection
  let size ← Run.ofExcept source.value.len
  if maxIterations < size then
    Run.fail (.limitExceeded ("foreach " ++ nodeId ++ " exceeds max " ++ toString maxIterations))
  else do
    let values ← Run.ofExcept source.value.iterate
    Run.forEach (loopPass env iteratorSymbolId source body) values

/-- `_execute_foreach` -/
def executeForeach (nodeId iteratorSymbolId : String) (collection : Expression) (maxIterations : Int)
    (body : Run St Exn Unit) : Run St Exn Unit := do
  let ctx ← getCtx
  if MAX_FOREACH_NESTING_DEPTH ≤ ctx.foreachDepth then
    Run.fail (.limitExceeded ("foreach nesting depth exceeds " ++ toString MAX_FOREACH_NESTING_DEPTH))
  else do
    modifyCtx (fun c => { c with foreachDepth := c.foreachDepth + 1 })
    Run.lastly (executeForeachBody env nodeId iteratorSymbolId collection maxIterations body)
      (modifyCtx (fun c => { c with foreachDepth := c.foreachDepth - 1 }))

/-- What `_execute_block` does around one statement. -/
def aroundStatement (s : Statement) (run : Run St Exn Unit) : Run St Exn Unit := do
  checkDeadline env
  let ctx ← getCtx
  modifyCtx (fun c => { c with currentNodeId := some s.nodeId })
  emit env "STATEMENT_STARTED" [("node_id", .str s.nodeId), ("kind", .str s.kind)]
  run
  emit env "STATEMENT_COMPLETED" [("node_id", .str s.nodeId), ("kind", .str s.kind)]
  modifyCtx (fun c => { c with currentNodeId := ctx.currentNodeId })

mutual
/-- The handler of each kind of statement. -/
def executeStatement : Statement → Run St Exn Unit
  | .letBind s => executeLet env s
  | .foreach nodeId iteratorSymbolId collection maxIterations body =>
    executeForeach env nodeId iteratorSymbolId collection maxIterations (executeBlock body)
  | .check s    => executeCheck env s
  | .emit s     => executeEmit env s
  | .approval _ => Run.fail (.type "ApprovalStatement")
/-- `_execute_block` -/
def executeBlock : List Statement → Run St Exn Unit
  | []      => Run.done ()
  | s :: ss => do
    aroundStatement env s (executeStatement s)
    executeBlock ss
end

end Runtime
end Nsl
