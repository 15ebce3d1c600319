import Nsl.ApprovalBindings
import Nsl.Bounds
import Nsl.SkillData
import Nsl.StaticTypes
/-!
# Lowering — from the tree of a skill to its object

`_Lowerer` (`compiler.py`). It walks over the tree once, gives each node its identifier, each declaration its symbol and
each expression its type and its classification; the state of the model also keeps every expression it has built with
the classification computed for it.
-/
namespace Nsl

open Stateful (Run)

/-! ## Profiles -/

structure LanguageLoweringProfile where
  sourceLanguageVersion : String
  irVersion             : String
  semanticsProfile      : String
  allowedRisks          : List String
  features              : List String
  featureSet            : features.Pairwise (· < ·)

def profileV01 : LanguageLoweringProfile where
  sourceLanguageVersion := "0.1"
  irVersion             := "1.0"
  semanticsProfile      := "NSL-0.1-STRICT"
  allowedRisks          := ["READ_ONLY", "READ_VALIDATE"]
  features              := ["CHECK", "EMIT", "FOREACH", "LET", "LIMITS", "READ"]
  featureSet            := by decide

def profileV02 : LanguageLoweringProfile where
  sourceLanguageVersion := "0.2"
  irVersion             := "1.1"
  semanticsProfile      := "NSL-0.2-STRICT"
  allowedRisks          := ["READ_ONLY", "READ_VALIDATE", "WRITE"]
  features              := ["APPROVAL", "CHECK", "EMIT", "FOREACH", "LET", "LIMITS", "READ", "WRITE"]
  featureSet            := by decide

/-- `_LANGUAGE_LOWERING_PROFILES.get` -/
def loweringProfile (languageVersion : String) : Option LanguageLoweringProfile :=
  [("0.1", profileV01), ("0.2", profileV02)].lookup languageVersion

/-! ## State -/

structure LowerState where
  nodeCounters : Dict Nat
  symbols      : SymbolTable
  labels       : List (Expression × DataClassification)

def LowerState.init : LowerState := ⟨Dict.empty, SymbolTable.init, []⟩

abbrev Lower (α : Type) := Run LowerState CompileFailure α

/-- `tools_by_id` -/
abbrev ToolsById := List (String × (RequiredTool × ToolContract))

namespace Lowerer

/-- `_node_id` -/
def nodeId (kind : String) : Lower String := do
  let n ← Run.look (fun s => (s.nodeCounters.get? kind).getD 0 + 1)
  Run.write (fun s => { s with nodeCounters := s.nodeCounters.set kind n })
  Run.done (kind ++ Text.zeroPad 4 n)

/-- An expression with its node and its classification. -/
def newExpression (kind : String) (node : String → Expression) (classification : DataClassification) :
    Lower (Expression × DataClassification) := do
  let n ← nodeId kind
  Run.write (fun s => { s with labels := s.labels ++ [(node n, classification)] })
  Run.done (node n, classification)

/-- `_add_binding` -/
def addBinding (name : String) (space : SymbolNamespace) (category : String) (typeInfo : TypeRef)
    (classification : DataClassification) : Lower SymbolBinding := do
  let symbols ← Run.look (·.symbols)
  let (b, symbols) ← Run.ofExcept (symbols.declare name space category typeInfo classification)
  Run.write (fun s => { s with symbols })
  Run.done b

/-- `symbol_table.resolve` -/
def resolveName (name : String) : Lower SymbolBinding := do
  let symbols ← Run.look (·.symbols)
  Run.ofExcept (symbols.resolve name)

/-! ## Expressions -/

/-- `list(DataClassification).index` -/
def classificationIndex (c : DataClassification) : Nat := (StrEnum.members : List DataClassification).idxOf c

/-- `max((left, right), key=index)` -/
def laterClassification (left right : DataClassification) : DataClassification :=
  if classificationIndex left < classificationIndex right then right else left

/-- `operator_map` -/
def operatorMap : List (String × String) :=
  [("+", "ADD"), ("-", "SUB"), ("*", "MUL"), ("/", "DIV"), ("<", "LT"), ("<=", "LE"), (">", "GT"), (">=", "GE"),
   ("==", "EQ"), ("!=", "NE")]

/-- The fields of a path, each taken of what is before it. -/
def lowerFields (classification : DataClassification) : List String → Expression → Lower (Expression × DataClassification)
  | [],          e => Run.done (e, classification)
  | field :: fs, e => do
    let (typeInfo, projected) ← Run.ofExcept (fieldResult e.typeInfo field)
    let (e, _) ← newExpression "expr"
      (fun n => if projected then .project n e field typeInfo else .field n e field typeInfo) classification
    lowerFields classification fs e

/-- The lowering of an `AstPath`. -/
def lowerPath : List String → Lower (Expression × DataClassification)
  | []             => Run.fail (.raised (.lookup "tuple index out of range"))
  | name :: fields => do
    let b ← resolveName name
    let (e, _) ← newExpression "expr" (fun n => .symbolRef n b.symbolId b.typeInfo) b.classification
    lowerFields b.classification fields e

/-- The lowering of an `AstCall`, given its arguments. -/
def lowerCall (name : String) (arguments : List (Expression × DataClassification)) :
    Lower (Expression × DataClassification) := do
  let typeInfo ← Run.ofExcept (builtinResult name (arguments.map (·.1.typeInfo)))
  match arguments with
  | []                      => Run.fail (.raised (.lookup "list index out of range"))
  | (_, classification) :: _ =>
    newExpression "expr" (fun n => .call n name (arguments.map Prod.fst) typeInfo) classification

/-- The lowering of an `AstBinary`, given its operands. -/
def lowerBinary (operator : String) (left right : Expression × DataClassification) :
    Lower (Expression × DataClassification) := do
  let typeInfo ← Run.ofExcept (binaryResult operator left.1.typeInfo right.1.typeInfo)
  match operatorMap.lookup operator with
  | none    => Run.fail (.raised (.lookup operator))
  | some op => newExpression "expr" (fun n => .binary n op left.1 right.1 typeInfo) (laterClassification left.2 right.2)

/-- `repr` of a list of plain names. -/
def listRepr (names : List String) : String := "[" ++ Text.join ", " (names.map (fun n => "'" ++ n ++ "'")) ++ "]"

/-- What `_lower_tool_arguments` asks of the names. -/
def checkArgumentNames (toolId : String) (contract : ToolContract) (names : List String) : Except CompileFailure Unit :=
  if (∀ n ∈ names, n ∈ contract.inputTypes.map Prod.fst) ∧ (∀ n ∈ contract.inputTypes.map Prod.fst, n ∈ names) ∧
      names.Nodup then .ok ()
  else .error (.diagnostic .semToolArguments
    ("tool arguments for " ++ toolId ++ " must be " ++
      listRepr ((contract.inputTypes.map Prod.fst).insertionSort (· ≤ ·))))

/-- The type check of one argument. -/
def checkArgument (toolId : String) (contract : ToolContract) (name : String) (value : Expression) :
    Except CompileFailure Unit :=
  match contract.inputTypes.lookup name with
  | none          => .error (.raised (.lookup name))
  | some expected => requireExact value.typeInfo expected .semToolArgumentType
      ("tool argument type mismatch: " ++ toolId ++ "." ++ name)

/-- The contract of a READ. -/
def readContract (tools : ToolsById) (toolId : String) : Except CompileFailure (RequiredTool × ToolContract) :=
  match tools.lookup toolId with
  | none                         =>
    .error (.diagnostic .semUndeclaredTool ("tool not declared in requires: " ++ toolId))
  | some (requirement, contract) =>
    if contract.capability ≠ "READ" then
      .error (.diagnostic .semWriteToolForbidden ("READ expression requires a READ tool contract: " ++ toolId))
    else .ok (requirement, contract)

/-- The contract of a WRITE. -/
def writeContract (tools : ToolsById) (toolId : String) : Except CompileFailure (RequiredTool × ToolContract) :=
  match tools.lookup toolId with
  | none   => .error (.raised (.lookup toolId))
  | some t => .ok t

variable (tools : ToolsById)

mutual
/-- `_lower_expr` -/
def lowerExpr : AstExpression → Lower (Expression × DataClassification)
  | .literal value typeInfo => newExpression "expr" (fun n => .literal n value typeInfo) .publicData
  | .path parts             => lowerPath parts
  | .call name arguments    => do
    let lowered ← lowerItems arguments
    lowerCall name lowered
  | .binary operator left right => do
    let l ← lowerExpr left
    let r ← lowerExpr right
    lowerBinary operator l r
  | .read toolId arguments => do
    let (requirement, contract) ← Run.ofExcept (readContract tools toolId)
    Run.ofExcept (checkArgumentNames toolId contract (arguments.map Prod.fst))
    let lowered ← lowerArguments toolId contract arguments
    newExpression "read" (fun n => .read n requirement.toolRef lowered contract.outputType
      { emptyIsValid := contract.emptyIsValid }) contract.outputClassification
  | .write toolId arguments approvalId => do
    let (requirement, contract) ← Run.ofExcept (writeContract tools toolId)
    Run.ofExcept (checkArgumentNames toolId contract (arguments.map Prod.fst))
    let lowered ← lowerArguments toolId contract arguments
    newExpression "write" (fun n => .write n requirement.toolRef lowered approvalId contract.outputType)
      contract.outputClassification
def lowerItems : List AstExpression → Lower (List (Expression × DataClassification))
  | []      => Run.done []
  | a :: as => do
    let e ← lowerExpr a
    let es ← lowerItems as
    Run.done (e :: es)
/-- The loop of `_lower_tool_arguments`. -/
def lowerArguments (toolId : String) (contract : ToolContract) :
    List (String × AstExpression) → Lower (List (String × Expression))
  | []              => Run.done []
  | (name, a) :: as => do
    let (e, _) ← lowerExpr a
    Run.ofExcept (checkArgument toolId contract name e)
    let es ← lowerArguments toolId contract as
    Run.done ((name, e) :: es)
end

/-! ## Statements -/

/-- What is asked of the names of an EMIT. -/
def checkEmitNames (outputs : List OutputField) (names : List String) : Except CompileFailure Unit :=
  if names.Nodup ∧ (∀ n ∈ names, n ∈ outputs.map OutputField.name) ∧ ∀ n ∈ outputs.map OutputField.name, n ∈ names then
    .ok ()
  else .error (.diagnostic .semEmitSchema "EMIT fields must exactly match output schema")

/-- What is asked of one field of an EMIT. -/
def checkEmitField (outputs : List OutputField) (name : String) (value : Expression × DataClassification) :
    Except CompileFailure Unit :=
  match outputs.find? (fun o => o.name = name) with
  | none        => .error (.raised (.lookup name))
  | some output => do
    requireExact value.1.typeInfo output.typeInfo .semOutputType ("output type mismatch for " ++ name)
    if value.2.allows output.classification then .ok ()
    else .error (.diagnostic .semOutputClassification ("output classification for " ++ name ++ " is too weak"))

/-- The fields of an EMIT. -/
def lowerEmitFields (outputs : List OutputField) : List (String × AstExpression) → Lower (List (String × Expression))
  | []              => Run.done []
  | (name, a) :: as => do
    let e ← lowerExpr tools a
    Run.ofExcept (checkEmitField outputs name e)
    let es ← lowerEmitFields outputs as
    Run.done ((name, e.1) :: es)

theorem noTtl : ∀ t, (none : Option Int) = some t → 1 ≤ t := by simp

/-- The constructor of an `ApprovalStatement`. -/
def approvalStatement (nodeId approvalId message : String) : Except CompileFailure ApprovalStatement :=
  if hn : Text.isBlank nodeId = false then
    if ha : Text.isBlank approvalId = false then .ok ⟨nodeId, approvalId, message, ⟨none, noTtl⟩, hn, ha⟩
    else .error (.raised (.value "approval_id must be a non-empty string"))
  else .error (.raised (.value "approval node_id must be a non-empty string"))

/-- `enter_scope(ScopeKind.FOREACH)` -/
def enterLoop : Lower String := do
  Run.write (fun s => { s with symbols := s.symbols.enterScope .foreach })
  Run.look (·.symbols.top.scopeId)

/-- `leave_scope` -/
def leaveLoop (scopeId : String) : Lower Unit := do
  let symbols ← Run.look (·.symbols)
  let symbols ← Run.ofExcept (symbols.leaveScope scopeId)
  Run.write (fun s => { s with symbols })

/-- The scope of a loop: its iterator and its body. -/
def inLoop (iterator : String) (itemType : TypeRef) (classification : DataClassification)
    (body : Lower (List Statement)) : Lower (SymbolBinding × List Statement) := do
  let scopeId ← enterLoop
  Run.lastly
    (do
      let b ← addBinding iterator .value "ITERATOR" itemType classification
      let statements ← body
      Run.done (b, statements))
    (leaveLoop scopeId)

mutual
/-- One statement of `_lower_block`. -/
def lowerStatement (outputs : List OutputField) : AstStatement → Lower Statement
  | .letBind name value => do
    let (e, classification) ← lowerExpr tools value
    let b ← addBinding name .value "VARIABLE" e.typeInfo classification
    let n ← nodeId "stmt"
    Run.done (.letBind ⟨n, b.symbolId, e⟩)
  | .foreach iterator collection maxIterations body => do
    let (c, classification) ← lowerExpr tools collection
    let itemType ← Run.ofExcept
      (requireList c.typeInfo .semForeachCollectionType "foreach collection must be List<T>")
    let (b, statements) ← inLoop iterator itemType classification (lowerBlock outputs body)
    let n ← nodeId "stmt"
    Run.done (.foreach n b.symbolId c maxIterations statements)
  | .check checkId condition severity onFail message => do
    let (e, _) ← lowerExpr tools condition
    Run.ofExcept (requireBool e.typeInfo)
    let b ← addBinding checkId .check "CHECK" CHECK_RESULT .internal
    let n ← nodeId "check"
    Run.done (.check ⟨n, checkId, e, severity, onFail, message, b.symbolId⟩)
  | .emit fields => do
    Run.ofExcept (checkEmitNames outputs (fields.map Prod.fst))
    let es ← lowerEmitFields tools outputs fields
    let n ← nodeId "emit"
    Run.done (.emit ⟨n, es⟩)
  | .approve approvalId message => do
    let n ← nodeId "approval"
    let s ← Run.ofExcept (approvalStatement n approvalId message)
    Run.done (.approval s)
/-- `_lower_block` -/
def lowerBlock (outputs : List OutputField) : List AstStatement → Lower (List Statement)
  | []      => Run.done []
  | s :: ss => do
    let statement ← lowerStatement outputs s
    let statements ← lowerBlock outputs ss
    Run.done (statement :: statements)
end

/-! ## Declarations -/

/-- The contracts of the required tools. -/
def requiredContracts (catalog : ToolContractCatalog) (profile : LanguageLoweringProfile) :
    List (String × ToolContract) → List AstRequiredTool → Except CompileFailure (List (String × ToolContract))
  | contracts, []      => .ok contracts
  | contracts, d :: ds =>
    if (contracts.map Prod.fst).contains d.toolId then
      .error (.diagnostic .semDuplicateTool ("duplicate required tool: " ++ d.toolId))
    else
      match catalog.resolve d.toolId d.version with
      | .error _     =>
        if catalog.contracts.all (fun c => c.toolId ≠ d.toolId) then
          .error (.diagnostic .semUnknownToolContract ("unknown tool contract: " ++ d.toolId ++ "@" ++ d.version))
        else .error (.diagnostic .semIncompatibleToolVersion
          ("incompatible tool version: " ++ d.toolId ++ "@" ++ d.version))
      | .ok contract =>
        if profile.sourceLanguageVersion = "0.1" ∧ contract.capability ≠ "READ" then
          .error (.diagnostic .semWriteToolForbidden
            (contract.capability ++ " tool capability is forbidden in v0.1: " ++ d.toolId))
        else requiredContracts catalog profile (contracts ++ [(d.toolId, contract)]) ds

/-- The inputs of a skill. -/
def lowerInputs : List AstFieldSpec → Lower (List InputSpec)
  | []            => Run.done []
  | item :: items => do
    let b ← addBinding item.name .value "INPUT" item.typeInfo item.classification
    let rest ← lowerInputs items
    Run.done (⟨b.symbolId, item.name, item.typeInfo, true, item.classification⟩ :: rest)

/-- The contexts of a skill. -/
def lowerContexts : List AstFieldSpec → Lower (List ContextSpec)
  | []            => Run.done []
  | item :: items => do
    let b ← addBinding item.name .value "CONTEXT" item.typeInfo item.classification
    let rest ← lowerContexts items
    Run.done (⟨b.symbolId, item.name, item.typeInfo, item.path, item.classification⟩ :: rest)

/-- The outputs of a skill, each name once. -/
def lowerOutputs (items : List AstFieldSpec) : Except CompileFailure (List OutputField) :=
  match items.find? (fun i => 1 < (items.map (·.name)).count i.name) with
  | some duplicate => .error (.diagnostic .semEmitSchema ("duplicate output field: " ++ duplicate.name))
  | none           => .ok (items.map (fun i => ⟨i.name, i.typeInfo, i.classification⟩))

/-- The analysis of a body within its limits. -/
def boundedAnalysis (limits : ResourceLimits) (body : List Statement) : Except CompileFailure StaticAnalysis :=
  match analyze body with
  | .error e     => .error (.diagnostic .semUnboundedStructure ("static execution bound cannot be proven: " ++ e.message))
  | .ok analysis =>
    if limits.toolCalls < analysis.maxToolCalls then
      .error (.diagnostic .semToolCallBound ("static tool call bound " ++ toString analysis.maxToolCalls ++
        " exceeds declared limit " ++ toString limits.toolCalls))
    else if limits.loopIterations < analysis.maxLoopIterations then
      .error (.diagnostic .semLoopBound ("static loop bound " ++ toString analysis.maxLoopIterations ++
        " exceeds declared limit " ++ toString limits.loopIterations))
    else if limits.emittedRows < analysis.maxEmitRecords then
      .error (.diagnostic .semEmitBound ("static emit bound " ++ toString analysis.maxEmitRecords ++
        " exceeds declared limit " ++ toString limits.emittedRows))
    else .ok analysis

/-- `SymbolSpec` of a binding. -/
def symbolSpec (b : SymbolBinding) : SymbolSpec := ⟨b.symbolId, b.name, b.category, b.typeInfo, b.classification⟩

/-- `ResourceLimits` of a limits block. -/
def resourceLimits (l : AstLimits) : ResourceLimits :=
  ⟨l.toolCalls, l.loopIterations, l.emittedRows, l.collectionSize, l.durationMs⟩

/-- The checks `lower` starts with: includes, limits, language and risk. -/
def checkHeader (ast : AstSkill) : Except CompileFailure (AstLimits × LanguageLoweringProfile) :=
  if ast.includes ≠ [] then
    .error (.diagnostic .semIncludeRequiresComposition
      "include declarations require Source composition before lowering")
  else
    match ast.limits with
    | none        => .error (.diagnostic .incRequiredLimitsMissing "composed skill must define exactly one limits block")
    | some limits =>
      match loweringProfile ast.languageVersion with
      | none         => .error (.diagnostic .semUnsupportedLanguageVersion
          ("unsupported NSL version: " ++ ast.languageVersion))
      | some profile =>
        if profile.allowedRisks.contains ast.risk then .ok (limits, profile)
        else .error (.diagnostic .semUnsupportedRisk ("unsupported risk profile: " ++ ast.risk))

section Tools

variable [Platform]

/-- `RequiredTool` of the `index`-th declaration. -/
def requirement (profile : LanguageLoweringProfile) (index : Nat) (d : AstRequiredTool) (contract : ToolContract) :
    Except CompileFailure RequiredTool :=
  let riskLevel := if profile.irVersion = "1.1" then some (contract.riskLevel.getD .r1) else none
  if h : contract.capability = "WRITE" → riskLevel.isSome then
    .ok ⟨"tool" ++ Text.zeroPad 4 index, d.toolId, d.version, contract.capability, contract.contractHash,
      contract.requiredScope, contract.outputClassification, riskLevel, h⟩
  else .error (.raised (.value "WRITE required tool must declare risk_level"))

/-- `tools_by_id`, from the `index`-th declaration. -/
def requiredTools (profile : LanguageLoweringProfile) (contracts : List (String × ToolContract)) :
    Nat → List AstRequiredTool → Except CompileFailure ToolsById
  | _,     []      => .ok []
  | index, d :: ds =>
    match contracts.lookup d.toolId with
    | none          => .error (.raised (.lookup d.toolId))
    | some contract => do
      let r ← requirement profile index d contract
      let rest ← requiredTools profile contracts (index + 1) ds
      return (d.toolId, r, contract) :: rest

/-- What `lower` prepares before it declares anything. -/
structure Preparation where
  limits      : AstLimits
  profile     : LanguageLoweringProfile
  writeSafety : WriteSafetyAnalysis
  tools       : ToolsById

/-- The part of `lower` before the inputs. -/
def prepare (catalog : ToolContractCatalog) (ast : AstSkill) (approvals : ApprovalBindingAnalysis) :
    Except CompileFailure Preparation := do
  let (limits, profile) ← checkHeader ast
  let contracts ← requiredContracts catalog profile [] ast.requires
  let writeSafety ← analyzeWriteSafety approvals contracts
  let tools ← requiredTools profile contracts 1 ast.requires
  return ⟨limits, profile, writeSafety, tools⟩

/-- The rest of `lower`. -/
def lowerPrepared (p : Preparation) (ast : AstSkill) (build : BuildMetadata) : Lower SkillObject := do
  let inputs ← lowerInputs ast.inputs
  let contexts ← lowerContexts ast.contexts
  let outputs ← Run.ofExcept (lowerOutputs ast.outputs)
  let body ← lowerBlock p.tools outputs ast.body
  let analysis ← Run.ofExcept (boundedAnalysis (resourceLimits p.limits) body)
  let symbols ← Run.look (·.symbols)
  Run.done
    { irVersion := p.profile.irVersion, languageVersion := ast.languageVersion, skillId := ast.skillId,
      skillVersion := ast.skillVersion, risk := ast.risk, semanticsProfile := p.profile.semanticsProfile,
      semanticHash := "", features := p.profile.features, symbols := symbols.bindings.map symbolSpec,
      requiredTools := p.tools.map (·.2.1), limits := resourceLimits p.limits, inputs, contexts, outputs, body, analysis,
      build, featureSet := p.profile.featureSet }

end Tools
end Lowerer

/-! ## Compilation -/

section Compilation

variable [Platform]

/-- What the front end makes of a composed tree: the skill with its hash, and the classification computed for each of
its expressions. -/
structure Compilation where
  skill       : SkillObject
  writeSafety : WriteSafetyAnalysis
  labels      : List (Expression × DataClassification)

/-- `NslCompiler.compile` from the composed tree to the skill object: the approval analysis, the lowering, the hash. -/
def compileTree (catalog : ToolContractCatalog) (ast : AstSkill) (build : BuildMetadata) :
    Except CompileFailure Compilation := do
  let approvals ← analyzeApprovals ast
  let p ← Lowerer.prepare catalog ast approvals
  match Lowerer.lowerPrepared p ast build LowerState.init with
  | ⟨_, _, .error e⟩     => .error e
  | ⟨_, s, .ok skill⟩ =>
    match skill.withComputedHash with
    | .error e => .error (.raised e)
    | .ok skill => .ok ⟨skill, p.writeSafety, s.labels⟩

/-! ### What was accepted -/

namespace Lowerer

omit [Platform] in
theorem checkHeader_ok {ast : AstSkill} {limits : AstLimits} {profile : LanguageLoweringProfile}
    (h : checkHeader ast = .ok (limits, profile)) :
    ast.includes = [] ∧ ast.limits = some limits ∧ loweringProfile ast.languageVersion = some profile := by
  unfold checkHeader at h
  by_cases hincludes : ast.includes = []
  · rw [if_neg (not_not.2 hincludes)] at h
    cases hlimits : ast.limits with
    | none   => simp only [hlimits] at h; cases h
    | some l =>
      simp only [hlimits] at h
      cases hprofile : loweringProfile ast.languageVersion with
      | none   => simp only [hprofile] at h; cases h
      | some p =>
        simp only [hprofile] at h
        split at h
        · cases h
          exact ⟨hincludes, rfl, rfl⟩
        · cases h
  · rw [if_pos hincludes] at h
    cases h

theorem prepare_ok {catalog : ToolContractCatalog} {ast : AstSkill} {approvals : ApprovalBindingAnalysis}
    {p : Preparation} (h : prepare catalog ast approvals = .ok p) :
    checkHeader ast = .ok (p.limits, p.profile) ∧ ∃ contracts,
      requiredContracts catalog p.profile [] ast.requires = .ok contracts ∧
      analyzeWriteSafety approvals contracts = .ok p.writeSafety ∧
      requiredTools p.profile contracts 1 ast.requires = .ok p.tools := by
  obtain ⟨⟨limits, profile⟩, hheader, h⟩ := Stateful.bind_eq_ok h
  obtain ⟨contracts, hcontracts, h⟩ := Stateful.bind_eq_ok h
  obtain ⟨safety, hsafety, h⟩ := Stateful.bind_eq_ok h
  obtain ⟨tools, htools, h⟩ := Stateful.bind_eq_ok h
  cases h
  exact ⟨hheader, contracts, hcontracts, hsafety, htools⟩

end Lowerer

/-- **A compiled skill, unpacked**: analysed, prepared, lowered and given its hash. -/
theorem compileTree_ok {catalog : ToolContractCatalog} {ast : AstSkill} {build : BuildMetadata} {c : Compilation}
    (h : compileTree catalog ast build = .ok c) :
    ∃ approvals p w s skill hash, analyzeApprovals ast = .ok approvals ∧
      Lowerer.prepare catalog ast approvals = .ok p ∧
      Lowerer.lowerPrepared p ast build LowerState.init = ⟨w, s, .ok skill⟩ ∧ skill.computedHash = .ok hash ∧
      c.skill = { skill with semanticHash := hash } ∧ c.labels = s.labels := by
  obtain ⟨approvals, happrovals, h⟩ := Stateful.bind_eq_ok h
  obtain ⟨p, hp, h⟩ := Stateful.bind_eq_ok h
  rcases hl : Lowerer.lowerPrepared p ast build LowerState.init with ⟨w, s, e | skill⟩
  · simp only [hl] at h
    cases h
  · simp only [hl, SkillObject.withComputedHash] at h
    cases hhash : skill.computedHash with
    | error e => rw [hhash] at h; cases h
    | ok hash =>
      rw [hhash] at h
      cases h
      exact ⟨approvals, p, w, s, skill, hash, happrovals, hp, hl, hhash, rfl, rfl⟩

end Compilation
end Nsl
