import Nsl.Ir
import Nsl.Security
/-!
# Skill data — the document of a skill and its semantic hash

`_expr_to_data`, `_statement_to_data` and `skill_to_data` of `ir.py`. A document is a Python dictionary here, as it is
in the source: a literal of a class that JSON does not know stays in it, and the hash refuses it.
-/
namespace Nsl

def stringList (items : List String) : Value := .list (items.map .str)

def typeData (t : TypeRef) : Value := ofJson t.toData

/-- `result_policy` of a READ. -/
def ResultPolicy.toData (p : ResultPolicy) : Value :=
  .dict [("required", .bool p.required), ("accept_partial", .bool p.acceptPartial),
    ("empty_is_valid", .bool p.emptyIsValid)]

mutual
/-- `_expr_to_data` -/
def exprToData : Expression → Value
  | .literal n v t =>
    .dict [("node_id", .str n), ("type", typeData t), ("kind", .str "literal"), ("value", encodeValue v)]
  | .symbolRef n s t =>
    .dict [("node_id", .str n), ("type", typeData t), ("kind", .str "symbol_ref"), ("symbol_id", .str s)]
  | .field n e f t =>
    .dict [("node_id", .str n), ("type", typeData t), ("kind", .str "field"), ("source", exprToData e),
      ("field", .str f)]
  | .project n e f t =>
    .dict [("node_id", .str n), ("type", typeData t), ("kind", .str "project"), ("source", exprToData e),
      ("field", .str f)]
  | .call n f es t =>
    .dict [("node_id", .str n), ("type", typeData t), ("kind", .str "call"), ("function", .str f),
      ("arguments", .list (exprsToData es))]
  | .binary n o l r t =>
    .dict [("node_id", .str n), ("type", typeData t), ("kind", .str "binary"), ("operator", .str o),
      ("left", exprToData l), ("right", exprToData r)]
  | .read n u es t p =>
    .dict [("node_id", .str n), ("type", typeData t), ("kind", .str "read"), ("tool_ref", .str u),
      ("arguments", .list (namedToData es)), ("result_policy", p.toData)]
  | .write n u es a t =>
    .dict [("node_id", .str n), ("type", typeData t), ("kind", .str "write"), ("tool_ref", .str u),
      ("approval_ref", .str a), ("arguments", .list (namedToData es))]
def exprsToData : List Expression → List Value
  | []      => []
  | e :: es => exprToData e :: exprsToData es
/-- The arguments of a call, or the fields of an EMIT. -/
def namedToData : List (String × Expression) → List Value
  | []           => []
  | (n, e) :: es => .dict [("name", .str n), ("value", exprToData e)] :: namedToData es
end

/-- `data_policy` of every CHECK. -/
def checkDataPolicy : Value :=
  .dict [("require_complete", .bool true), ("on_partial", .str "UNKNOWN"), ("on_unknown", .str "UNKNOWN")]

def ApprovalPolicy.toData (p : ApprovalPolicy) : Value :=
  .dict (("required", .bool true) :: p.ttlSeconds.toList.map (fun ttl => ("ttl_seconds", .int ttl)))

mutual
/-- `_statement_to_data` -/
def statementToData : Statement → Value
  | .letBind s =>
    .dict [("node_id", .str s.nodeId), ("kind", .str "let"), ("target_symbol_id", .str s.targetSymbolId),
      ("value", exprToData s.value)]
  | .foreach n i c m body =>
    .dict [("node_id", .str n), ("kind", .str "foreach"), ("iterator_symbol_id", .str i),
      ("collection", exprToData c), ("max_iterations", .int m), ("body", .list (blockToData body))]
  | .check s =>
    .dict [("node_id", .str s.nodeId), ("kind", .str "check"), ("check_id", .str s.checkId),
      ("condition", exprToData s.condition), ("severity", .str s.severity), ("on_fail", .str s.onFail),
      ("message", .str s.message), ("result_symbol_id", .str s.resultSymbolId), ("data_policy", checkDataPolicy)]
  | .emit s =>
    .dict [("node_id", .str s.nodeId), ("kind", .str "emit"), ("fields", .list (namedToData s.fields))]
  | .approval s =>
    .dict [("node_id", .str s.nodeId), ("kind", .str "approval"), ("approval_id", .str s.approvalId),
      ("message", .str s.message), ("policy", s.policy.toData)]
def blockToData : List Statement → List Value
  | []      => []
  | s :: ss => statementToData s :: blockToData ss
end

def SymbolSpec.toData (s : SymbolSpec) : Value :=
  .dict [("symbol_id", .str s.symbolId), ("name", .str s.name), ("category", .str s.category),
    ("type", typeData s.typeInfo), ("classification", .str (StrEnum.value s.classification))]

/-- One entry of `requires`; the risk level is there in IR 1.1 only. -/
def RequiredTool.toData (irVersion : String) (r : RequiredTool) : Value :=
  .dict ([("tool_ref", .str r.toolRef), ("tool_id", .str r.toolId), ("version", .str r.version),
    ("capability", .str r.capability), ("contract_hash", .str r.contractHash),
    ("required_scope", .str r.requiredScope),
    ("output_classification", .str (StrEnum.value r.outputClassification))] ++
    (if irVersion = "1.1" then r.riskLevel.toList.map (fun l => ("risk_level", .str (StrEnum.value l))) else []))

def ResourceLimits.toData (l : ResourceLimits) : Value :=
  .dict [("tool_calls", .int l.toolCalls), ("loop_iterations", .int l.loopIterations),
    ("emitted_rows", .int l.emittedRows), ("collection_size", .int l.collectionSize),
    ("duration_ms", .int l.durationMs)]

def InputSpec.toData (i : InputSpec) : Value :=
  .dict [("symbol_id", .str i.symbolId), ("name", .str i.name), ("type", typeData i.typeInfo),
    ("required", .bool i.required), ("classification", .str (StrEnum.value i.classification))]

def ContextSpec.toData (c : ContextSpec) : Value :=
  .dict [("symbol_id", .str c.symbolId), ("name", .str c.name), ("type", typeData c.typeInfo),
    ("path", stringList c.path), ("classification", .str (StrEnum.value c.classification))]

def OutputField.toData (o : OutputField) : Value :=
  .dict [("name", .str o.name), ("type", typeData o.typeInfo),
    ("classification", .str (StrEnum.value o.classification))]

def StaticAnalysis.toData (a : StaticAnalysis) : Value :=
  .dict [("max_tool_calls", .int a.maxToolCalls), ("max_loop_iterations", .int a.maxLoopIterations),
    ("max_emit_records", .int a.maxEmitRecords), ("bounded", .bool a.bounded)]

def BuildSource.toData (s : BuildSource) : Value :=
  .dict [("logical_path", .str s.logicalPath), ("sha256", .str s.contentHash), ("size_bytes", .int s.sizeBytes),
    ("is_root", .bool s.isRoot)]

def BuildMetadata.toData (b : BuildMetadata) : Value :=
  .dict [("source_bundle_sha256", .str b.sourceBundleSha256), ("root_source", .str b.rootSource),
    ("sources", .list (b.sources.map BuildSource.toData))]

namespace SkillObject

/-- What the semantic hash is made of: `skill_to_data` without build and hashes. -/
def semanticFields (s : SkillObject) : List (String × Value) :=
  [("format", .str "NSO"), ("ir_version", .str s.irVersion),
   ("language", .dict [("name", .str "NSL"), ("version", .str s.languageVersion)]),
   ("skill", .dict [("id", .str s.skillId), ("version", .str s.skillVersion), ("risk", .str s.risk)]),
   ("semantics_profile", .str s.semanticsProfile), ("features", stringList s.features),
   ("symbols", .list (s.symbols.map SymbolSpec.toData)),
   ("requires", .list (s.requiredTools.map (RequiredTool.toData s.irVersion))), ("limits", s.limits.toData),
   ("inputs", .list (s.inputs.map InputSpec.toData)), ("contexts", .list (s.contexts.map ContextSpec.toData)),
   ("output", .list (s.outputs.map OutputField.toData)), ("body", .list (blockToData s.body)),
   ("analysis", s.analysis.toData)]

/-- `skill_to_data` -/
def toData (s : SkillObject) : Value :=
  .dict (s.semanticFields ++
    [("build", s.build.toData),
     ("hashes", .dict [("source_bundle_sha256", .str s.build.sourceBundleSha256),
       ("semantic_sha256", .str s.semanticHash)])])

section Hash

variable [Platform]

/-- `with_computed_hash().semantic_hash` -/
def computedHash (s : SkillObject) : Except Exn String := (canonicalJson (.dict s.semanticFields)).map sha256Of

/-- `with_computed_hash` -/
def withComputedHash (s : SkillObject) : Except Exn SkillObject :=
  s.computedHash.map (fun h => { s with semanticHash := h })

/-- **The computed hash is a fixed point**: computing it again gives the same one. -/
theorem withComputedHash_fixed {s t : SkillObject} (h : s.withComputedHash = .ok t) :
    t.computedHash = .ok t.semanticHash := by
  unfold withComputedHash at h
  cases hs : s.computedHash with
  | error e => rw [hs] at h; cases h
  | ok d =>
    rw [hs] at h
    cases h
    exact hs

/-- The skill with its computed hash, when JSON takes all its literals. -/
def sealHash (s : SkillObject) : SkillObject := { s with semanticHash := s.computedHash.toOption.getD s.semanticHash }

theorem sealHash_computedHash {s : SkillObject} (h : (Value.dict s.semanticFields).isJson = true) :
    s.sealHash.computedHash = .ok s.sealHash.semanticHash := by
  have hok := toJson_isOk (.dict s.semanticFields)
  rw [h] at hok
  have hhash : ∃ d, s.computedHash = .ok d := by
    unfold computedHash canonicalJson
    cases hj : toJson (.dict s.semanticFields) with
    | ok j    => exact ⟨_, rfl⟩
    | error e => rw [hj] at hok; cases hok
  obtain ⟨d, hd⟩ := hhash
  have hseal : s.sealHash.semanticHash = d := by
    unfold sealHash
    rw [hd]
    rfl
  rw [hseal]
  exact hd

theorem computedHash_there {s : SkillObject} {h : String} (hs : s.computedHash = .ok h) : Text.isBlank h = false := by
  unfold computedHash canonicalJson at hs
  cases hj : toJson (.dict s.semanticFields) with
  | error e => rw [hj] at hs; cases hs
  | ok j    =>
    rw [hj] at hs
    cases hs
    exact isBlank_of_isRequiredText (sha256Of_digest (Json.dumps j)).1

end Hash
end SkillObject
end Nsl
