import Nsl.DryRun
/-!
# ResultCodec — the document of a result, and what counts of it

`result_codec.py`: an `ExecutionResult` as a document, and its semantic view, which leaves out what names the one execution.
-/
namespace Nsl

/-! ## What is encoded is a document -/

mutual
theorem encodeValue_again : ∀ (v : Value), encodeValue (encodeValue v) = encodeValue v
  | .null | .bool _ | .int _ | .float _ | .str _ | .decimal _ | .money _ | .date _ | .datetime _ | .foreign _ => rfl
  | .dict items  => congrArg Value.dict (encodeFields_again items)
  | .list items  => congrArg Value.list (encodeItems_again items)
  | .tuple items => congrArg Value.list (encodeItems_again items)
theorem encodeItems_again : ∀ (vs : List Value), encodeItems (encodeItems vs) = encodeItems vs
  | []      => rfl
  | v :: vs => by rw [encodeItems, encodeItems, encodeValue_again v, encodeItems_again vs]
theorem encodeFields_again : ∀ (vs : List (String × Value)), encodeFields (encodeFields vs) = encodeFields vs
  | []           => rfl
  | (k, v) :: vs => by rw [encodeFields, encodeFields, encodeValue_again v, encodeFields_again vs]
end

/-- What can be encoded is a document. -/
def Documented (v : Value) : Prop := v.encodable = true → v.isJson = true

theorem documented_encoded (v : Value) : Documented (encodeValue v) := by
  intro h
  rw [← encodeValue_isJson_eq, encodeValue_again] at h
  exact h

theorem documented_list : ∀ {vs : List Value}, (∀ v ∈ vs, Documented v) → Documented (.list vs)
  | [], _      => fun _ => rfl
  | v :: vs, h => by
    intro hencodable
    have hboth : v.encodable = true ∧ itemsEncodable vs = true := by simpa [Value.encodable, itemsEncodable] using hencodable
    have hrest : (Value.list vs).isJson = true := documented_list (fun w hw => h w (List.mem_cons_of_mem _ hw)) hboth.2
    show (v.isJson && itemsJson vs) = true
    rw [h v (List.mem_cons_self ..) hboth.1]
    exact hrest

theorem documented_dict : ∀ {vs : List (String × Value)}, (∀ kv ∈ vs, Documented kv.2) → Documented (.dict vs)
  | [], _           => fun _ => rfl
  | (k, v) :: vs, h => by
    intro hencodable
    have hboth : v.encodable = true ∧ fieldsEncodable vs = true := by simpa [Value.encodable, fieldsEncodable] using hencodable
    have hrest : (Value.dict vs).isJson = true := documented_dict (fun w hw => h w (List.mem_cons_of_mem _ hw)) hboth.2
    show (v.isJson && fieldsJson vs) = true
    rw [h (k, v) (List.mem_cons_self ..) hboth.1]
    exact hrest

/-! ## The parts of a result -/

/-- `_check_to_data` -/
def resultCheckToData (check : CheckResult) : List (String × Value) :=
  [("check_id", .str check.checkId), ("status", .str (StrEnum.value check.status)), ("severity", .str check.severity),
   ("message", .str check.message), ("condition_node_id", .str check.conditionNodeId),
   ("presence", .str (StrEnum.value check.presence)), ("completeness", .str (StrEnum.value check.completeness)),
   ("provenance_refs", .list (check.provenanceRefs.map .str)), ("reason_code", optionalStr check.reasonCode)]

/-- A field of an emitted row, with its name. -/
def outputFieldToData (name : String) (field : ValueEnvelope) : Except Exn Value :=
  match field.typeInfo with
  | none          => .error (.attribute "'NoneType' object has no attribute 'to_data'")
  | some typeInfo => .ok (.dict
      [("name", .str name), ("type", ofJson typeInfo.toData), ("value", encodeValue field.value),
       ("presence", .str (StrEnum.value field.presence)), ("completeness", .str (StrEnum.value field.completeness)),
       ("classification", .str (StrEnum.value field.classification)),
       ("provenance_refs", .list (field.provenanceRefs.map .str))])

/-- `_output_to_data` -/
def outputToData (record : EmitRecord) : Except Exn Value := do
  let fields ← record.fields.entries.mapM (fun nf => outputFieldToData nf.1 nf.2)
  return .dict [("fields", .list fields)]

/-- `_resources_to_data` -/
def resourcesToData (resources : ResourceUsage) : Value :=
  .dict [("tool_calls", .int resources.toolCalls), ("loop_iterations", .int resources.loopIterations),
    ("emitted_rows", .int resources.emittedRows), ("max_collection_size_seen", .int resources.maxCollectionSizeSeen)]

/-- `_error_to_data` -/
def errorToData : Option RuntimeErrorInfo → Value
  | none       => .null
  | some error => .dict
      [("code", .str error.code), ("category", .str error.category), ("message", .str error.message),
       ("node_id", optionalStr error.nodeId), ("detail_code", optionalStr error.detailCode)]

def ValidationSummary.toData (s : ValidationSummary) : Value :=
  .dict [("status", .str (StrEnum.value s.status)), ("total_count", .int s.totalCount), ("pass_count", .int s.passCount),
    ("fail_count", .int s.failCount), ("unknown_count", .int s.unknownCount),
    ("failed_check_ids", .list (s.failedCheckIds.map .str)), ("unknown_check_ids", .list (s.unknownCheckIds.map .str))]

section Summaries

variable [Platform]

def optionalIdentity (t : Option RequiredText) : Value := optionalStr (t.map (·.text))

def ApprovalSummary.toData (s : ApprovalSummary) : Value :=
  .dict [("status", .str (StrEnum.value s.status)), ("approval_id", .str s.approvalId),
    ("approval_request_id", optionalIdentity s.approvalRequestId)]

def WriteSummary.toData (s : WriteSummary) : Value :=
  .dict [("commit_state", .str (StrEnum.value s.commitState)), ("tool_id", .str s.toolId.text), ("node_id", .str s.nodeId.text),
    ("idempotency_key", .str s.idempotencyKey.text), ("payload_hash", .str s.payloadHash.text),
    ("provider_transaction_id", optionalIdentity s.providerTransactionId),
    ("business_reference", optionalIdentity s.businessReference)]

def VerificationSummary.toData (s : VerificationSummary) : Value :=
  .dict [("status", .str (StrEnum.value s.status)), ("reason_code", optionalIdentity s.reasonCode),
    ("evidence_ref", optionalIdentity s.evidenceRef)]

def SuspensionInfo.toData (s : SuspensionInfo) : Value :=
  .dict [("reason", .str s.reason.text), ("checkpoint_version", .int s.checkpointVersion), ("approval_id", .str s.approvalId.text),
    ("approval_request_id", .str s.approvalRequestId.text)]

/-! ## A result -/

def RESULT_SCHEMA_VERSION : String := "1.0"

def RESULT_V02_SCHEMA_VERSION : String := "1.1"

/-- The parts of a 0.2 result. -/
def ExecutionResult.extensions (r : ExecutionResult) : List (String × Value) :=
  let part {α : Type} (data : α → Value) (a : Option α) : Value := (a.map data).getD .null
  [("validation", part ValidationSummary.toData r.validation),
   ("pre_write_eligibility", part (fun e => .str (StrEnum.value e)) r.preWriteEligibility),
   ("approval", part ApprovalSummary.toData r.approval), ("write", part WriteSummary.toData r.write),
   ("verification", part VerificationSummary.toData r.verification), ("suspension", part SuspensionInfo.toData r.suspension)]

/-- A result of a 0.2 skill has one of them. -/
def ExecutionResult.extended (r : ExecutionResult) : Bool := r.extensions.any (fun kv => kv.2 ≠ .null)

/-- The parts every result has. -/
def ExecutionResult.parts (r : ExecutionResult) (outputs : List Value) : List (String × Value) :=
  [("schema_version", .str (if r.extended then RESULT_V02_SCHEMA_VERSION else RESULT_SCHEMA_VERSION)),
   ("execution_id", .str r.executionId), ("skill_id", .str r.skillId), ("skill_version", .str r.skillVersion),
   ("semantic_hash", .str r.semanticHash), ("status", .str (StrEnum.value r.status)),
   ("completeness", .str (StrEnum.value r.completeness)), ("checks", .list (r.checks.map (fun c => .dict (resultCheckToData c)))),
   ("outputs", .list outputs), ("resources", resourcesToData r.resources), ("error", errorToData r.error)]

/-- `execution_result_to_data` -/
def executionResultToData (r : ExecutionResult) : Except Exn (List (String × Value)) := do
  let outputs ← r.outputs.mapM outputToData
  return r.parts outputs ++ (if r.extended then r.extensions else [])

/-- The parts that say what the execution came to, of any result. -/
def ExecutionResult.semanticParts (r : ExecutionResult) : List (String × Value) :=
  [("skill_id", .str r.skillId), ("skill_version", .str r.skillVersion), ("semantic_hash", .str r.semanticHash),
   ("status", .str (StrEnum.value r.status)), ("completeness", .str (StrEnum.value r.completeness)),
   ("checks", .list (r.checks.map (fun c => .dict ((resultCheckToData c).filter (fun kv => kv.1 ≠ "provenance_refs"))))),
   ("outputs", .list (r.outputs.map (fun o => encodeValue (.dict (o.fields.entries.map (fun nf => (nf.1, nf.2.value))))))),
   ("resources", resourcesToData r.resources), ("error", errorToData r.error)]

def SEMANTIC_EXTENSIONS : List String :=
  ["validation", "pre_write_eligibility", "approval", "write", "verification", "suspension"]

/-- `semantic_result_view` -/
def semanticResultView (r : ExecutionResult) : Except Exn (List (String × Value)) := do
  let serialized ← executionResultToData r
  if serialized.lookup "schema_version" = some (.str RESULT_V02_SCHEMA_VERSION) then
    return r.semanticParts ++ SEMANTIC_EXTENSIONS.filterMap (fun name => (serialized.lookup name).map (fun v => (name, v)))
  else return r.semanticParts

/-- **The view does not tell one execution from another.** -/
theorem semanticResultView_executionId (r : ExecutionResult) (id : String) :
    semanticResultView { r with executionId := id } = semanticResultView r := by
  unfold semanticResultView executionResultToData
  cases r.outputs.mapM outputToData with
  | error e    => rfl
  | ok outputs => rfl

/-! ## The view is a document -/

theorem extensions_json (r : ExecutionResult) : ∀ kv ∈ r.extensions, kv.2.isJson = true := by
  have hpart : ∀ {α : Type} (data : α → Value) (a : Option α), (∀ a, (data a).isJson = true) →
      ((a.map data).getD .null).isJson = true := by
    intro α data a h
    cases a with
    | none   => rfl
    | some a => exact h a
  have hid : ∀ t : Option RequiredText, (optionalIdentity t).isJson = true := fun t => optionalStr_isJson _
  have htexts : ∀ xs : List String, itemsJson (xs.map .str) = true := itemsJson_texts id
  unfold ExecutionResult.extensions
  simp only [List.forall_mem_cons]
  refine ⟨hpart _ _ (fun s => ?_), hpart _ _ (fun s => rfl), hpart _ _ (fun s => ?_), hpart _ _ (fun s => ?_),
    hpart _ _ (fun s => ?_), hpart _ _ (fun s => rfl), fun _ h => (List.not_mem_nil h).elim⟩
  · simp [ValidationSummary.toData, Value.isJson, fieldsJson, htexts]
  · simp [ApprovalSummary.toData, Value.isJson, fieldsJson, hid]
  · simp [WriteSummary.toData, Value.isJson, fieldsJson, hid]
  · simp [VerificationSummary.toData, Value.isJson, fieldsJson, hid]

/-- What a name of a 0.2 result leads to. -/
theorem extensions_lookup {r : ExecutionResult} {data : List (String × Value)} {name : String} {v : Value}
    (hname : name ∉ data.map Prod.fst)
    (h : (data ++ (if r.extended then r.extensions else [])).lookup name = some v) : v.isJson = true := by
  rcases List.mem_append.1 (mem_of_lookup h) with hdata | hpart
  · exact absurd (List.mem_map_of_mem hdata) hname
  · split at hpart
    · exact extensions_json r _ hpart
    · exact (List.not_mem_nil hpart).elim

theorem semanticParts_documented (r : ExecutionResult) : ∀ kv ∈ r.semanticParts, Documented kv.2 := by
  have hchecks : Documented (.list (r.checks.map (fun c => .dict ((resultCheckToData c).filter (fun kv => kv.1 ≠ "provenance_refs"))))) := by
    refine documented_list (fun v hv => ?_)
    obtain ⟨c, -, rfl⟩ := List.mem_map.1 hv
    refine documented_dict (fun kv hkv _ => ?_)
    have hrefs : itemsJson (c.provenanceRefs.map .str) = true := itemsJson_texts id _
    have hall : ∀ kv ∈ resultCheckToData c, kv.2.isJson = true := by
      simp [resultCheckToData, Value.isJson, optionalStr_isJson, hrefs]
    exact hall kv (List.mem_of_mem_filter hkv)
  have houtputs : Documented (.list (r.outputs.map (fun o => encodeValue (.dict (o.fields.entries.map (fun nf =>
      (nf.1, nf.2.value))))))) := by
    refine documented_list (fun v hv => ?_)
    obtain ⟨o, -, rfl⟩ := List.mem_map.1 hv
    exact documented_encoded _
  have herror : (errorToData r.error).isJson = true := by
    cases r.error with
    | none   => rfl
    | some e => simp [errorToData, Value.isJson, fieldsJson, optionalStr_isJson]
  unfold ExecutionResult.semanticParts
  simp only [List.forall_mem_cons]
  exact ⟨fun _ => rfl, fun _ => rfl, fun _ => rfl, fun _ => rfl, fun _ => rfl, hchecks, houtputs, fun _ => rfl, fun _ => herror,
    fun _ h => (List.not_mem_nil h).elim⟩

/-- **A view that can be encoded is a document.** -/
theorem semanticResultView_json {r : ExecutionResult} {view : List (String × Value)} (h : semanticResultView r = .ok view)
    (hencodable : (Value.dict view).encodable = true) : (Value.dict view).isJson = true := by
  refine documented_dict (fun kv hkv => ?_) hencodable
  obtain ⟨serialized, hserialized, hview⟩ := Stateful.bind_eq_ok h
  obtain ⟨outputs, -, hparts⟩ := Stateful.bind_eq_ok hserialized
  split at hview
  · cases hview
    rcases List.mem_append.1 hkv with hpart | hextension
    · exact semanticParts_documented r kv hpart
    · obtain ⟨name, hname, hfound⟩ := List.mem_filterMap.1 hextension
      obtain ⟨v, hv, rfl⟩ := Option.map_eq_some_iff.1 hfound
      cases hparts
      have hnew : ∀ name ∈ SEMANTIC_EXTENSIONS, name ∉ (r.parts outputs).map Prod.fst := by
        show ∀ name ∈ SEMANTIC_EXTENSIONS, name ∉ ["schema_version", "execution_id", "skill_id", "skill_version",
          "semantic_hash", "status", "completeness", "checks", "outputs", "resources", "error"]
        decide
      exact fun _ => extensions_lookup (hnew name hname) hv
  · cases hview
    exact semanticParts_documented r kv hkv

end Summaries
end Nsl
