import Nsl.JsonBoundary
import Nsl.Preflight
import Nsl.SafeSummary
import Nsl.WriteReplay
/-!
# ApprovalDocuments — approval requests and evidence in files

`FileControlledStatePort.publish`, `write_approval_evidence` and their readers (`cli_controlled.py`), with the constructors
that the readers call (`approval.py`). A document is written once: under a name that is taken nothing is written, and what is
there stays.
-/
namespace Nsl

open Value
open Calendar (DateTime)
open Stateful (Run bind_eq_ok bind_ok)
open Claims (CONTROLLED_DOCUMENT_VERSION)

section Documents

variable [Platform]

/-! ## Documents -/

/-- An instant as `isoformat` writes it, or `None`. -/
def isoText (t : Option UtcInstant) : Value := optionalStr (t.map (·.time.isoformat))

/-- The summary as the request keeps it. -/
def ApprovalRequest.summary (r : ApprovalRequest) : Value := frozen (.dict r.displaySafeSummary.entries)

/-- `ApprovalRequest.to_data` -/
def ApprovalRequest.toData (r : ApprovalRequest) : Value :=
  .dict [("tenant_id", .str r.tenantId.text), ("execution_id", .str r.executionId.text),
    ("business_operation_id", .str r.businessOperationId.text), ("approval_id", .str r.approvalId.text),
    ("approval_request_id", .str r.approvalRequestId.text), ("skill_id", .str r.skillId.text),
    ("skill_version", .str r.skillVersion.text), ("skill_semantic_hash", .str r.skillSemanticHash.text),
    ("write_node_id", .str r.writeNodeId.text), ("tool_id", .str r.toolId.text), ("payload_hash", .str r.payloadHash.text),
    ("write_intent_hash", .str r.writeIntentHash.text), ("risk_level", .str (StrEnum.value r.riskLevel)),
    ("message", .str r.message.text), ("expires_at", isoText r.expiresAt),
    ("display_safe_summary", summaryToData r.summary), ("protected_payload_ref", optionalTextValue r.protectedPayloadRef),
    ("data_classification", .str (StrEnum.value r.dataClassification))]

/-- `ApprovalEvidence.to_data` -/
def ApprovalEvidence.toData (e : ApprovalEvidence) : Value :=
  .dict [("tenant_id", .str e.tenantId.text), ("execution_id", .str e.executionId.text),
    ("business_operation_id", .str e.businessOperationId.text), ("approval_id", .str e.approvalId.text),
    ("approval_request_id", .str e.approvalRequestId.text), ("skill_semantic_hash", .str e.skillSemanticHash.text),
    ("decision", .str (StrEnum.value e.decision)), ("approver_id", .str e.approverId.text),
    ("decided_at", .str e.decidedAt.time.isoformat), ("expires_at", isoText e.expiresAt),
    ("payload_hash", .str e.payloadHash.text), ("write_intent_hash", .str e.writeIntentHash.text),
    ("evidence_integrity", .str e.evidenceIntegrity.text)]

def controlledDocument (name : String) (data : Value) : Value :=
  .dict [("schema_version", .str CONTROLLED_DOCUMENT_VERSION), (name, data)]

/-! ## Files -/

structure FilePath where
  folder : String
  name   : String
  deriving DecidableEq

/-- What the files hold. -/
abbrev Files := FilePath → Option ByteArray

/-- `path.with_name(f".{path.name}.nsl-tmp")` -/
def FilePath.temporary (p : FilePath) : FilePath := ⟨p.folder, "." ++ p.name ++ ".nsl-tmp"⟩

def Files.put (p : FilePath) (data : Option ByteArray) (files : Files) : Files := Function.update files p data

/-- `temporary.open("xb")`, the write and `temporary.replace(path)`. -/
def replaceFile (path : FilePath) (data : ByteArray) : Run Files Exn Unit :=
  (Run.look (· path.temporary)).andThen fun taken =>
  match taken with
  | some _ => .fail (.other "File exists")
  | none   =>
    (Run.write (Files.put path.temporary (some .empty))).andThen fun _ =>
    (Run.write (Files.put path.temporary (some data))).andThen fun _ =>
    Run.write fun files => (files.put path (files path.temporary)).put path.temporary none

variable (reader : DocumentReader)

/-- `load_nso_json` -/
def loadNsoJson (data : ByteArray) : Except Exn Json := loadStrictJson reader.number .schema data

/-- `_write_once` -/
def writeOnce (path : FilePath) (data : ByteArray) : Run Files Exn Unit :=
  (Run.ofExcept (loadNsoJson reader data >>= fun value =>
    ensureNoCredentialMaterial Platform.word (ofJson value) "CLI controlled evidence")).andThen fun _ =>
  (Run.look (· path)).andThen fun stored =>
  match stored with
  | some bytes => if sameBytes bytes data then .done () else .fail (.value ("durable evidence collision: " ++ path.name))
  | none       => (replaceFile path data).lastly (Run.write (Files.put path.temporary none))

/-- Writes a document with `canonical_json`. -/
def writeDocument (path : FilePath) (document : Value) : Run Files Exn Unit :=
  (Run.ofExcept (canonicalJson document)).andThen fun text => writeOnce reader path text.toUTF8

/-- `publish` -/
def publish (path : FilePath) (request : ApprovalRequest) : Run Files Exn Unit :=
  writeDocument reader path (controlledDocument "approval_request" request.toData)

/-- `write_approval_evidence` -/
def writeApprovalEvidence (path : FilePath) (evidence : ApprovalEvidence) : Run Files Exn Unit :=
  writeDocument reader path (controlledDocument "approval_evidence" evidence.toData)

/-! ## Constructors -/

/-- What `ApprovalRequest` is called with, beside the summary. -/
structure RequestFields where
  tenantId            : String
  executionId         : String
  businessOperationId : String
  approvalId          : String
  approvalRequestId   : String
  skillId             : String
  skillVersion        : String
  skillSemanticHash   : String
  writeNodeId         : String
  toolId              : String
  payloadHash         : String
  writeIntentHash     : String
  riskLevel           : RiskLevel
  message             : String
  expiresAt           : Option DateTime
  protectedPayloadRef : Option String
  dataClassification  : DataClassification

def ApprovalRequest.fields (r : ApprovalRequest) : RequestFields where
  tenantId            := r.tenantId.text
  executionId         := r.executionId.text
  businessOperationId := r.businessOperationId.text
  approvalId          := r.approvalId.text
  approvalRequestId   := r.approvalRequestId.text
  skillId             := r.skillId.text
  skillVersion        := r.skillVersion.text
  skillSemanticHash   := r.skillSemanticHash.text
  writeNodeId         := r.writeNodeId.text
  toolId              := r.toolId.text
  payloadHash         := r.payloadHash.text
  writeIntentHash     := r.writeIntentHash.text
  riskLevel           := r.riskLevel
  message             := r.message.text
  expiresAt           := r.expiresAt.map (·.time)
  protectedPayloadRef := r.protectedPayloadRef.map (·.text)
  dataClassification  := r.dataClassification

/-- **Equal requests**: equal fields, and summaries that are equal as they are kept. -/
def ApprovalRequest.Same (r r' : ApprovalRequest) : Prop := r.fields = r'.fields ∧ r.summary.Equal r'.summary

/-- A check of a value that may be missing. -/
def optionally {α β : Type} (check : α → Except Exn β) : Option α → Except Exn (Option β)
  | none   => .ok none
  | some a => (check a).map some

/-- A summary the constructor takes. -/
abbrev CheckedSummary :=
  { d : Dict Value // findCredentialPath Platform.word "$" (.dict d.entries) = none ∧ areSafeFields d.entries = true }

def checkSummary (summary : Dict Value) : Except Exn CheckedSummary :=
  match hclean : findCredentialPath Platform.word "$" (.dict summary.entries) with
  | some path => .error (.value ("credential material is forbidden in ApprovalRequest.display_safe_summary at " ++ path))
  | none      =>
    match hfrozen : freezeSummary "display_safe_summary" (.dict summary.entries) with
    | .error error => .error error
    | .ok _        => .ok ⟨summary, hclean, safe_of_freezeSummary hfrozen⟩

/-- `ApprovalRequest.__post_init__` -/
def ApprovalRequest.make (f : RequestFields) (summary : Dict Value) : Except Exn ApprovalRequest := do
  let tenantId ← requiredIdentity f.tenantId "ApprovalRequest.tenant_id"
  let executionId ← requiredIdentity f.executionId "ApprovalRequest.execution_id"
  let businessOperationId ← requiredIdentity f.businessOperationId "ApprovalRequest.business_operation_id"
  let approvalId ← requiredIdentity f.approvalId "ApprovalRequest.approval_id"
  let approvalRequestId ← requiredIdentity f.approvalRequestId "ApprovalRequest.approval_request_id"
  let skillId ← requiredIdentity f.skillId "ApprovalRequest.skill_id"
  let skillVersion ← requiredIdentity f.skillVersion "ApprovalRequest.skill_version"
  let writeNodeId ← requiredIdentity f.writeNodeId "ApprovalRequest.write_node_id"
  let toolId ← requiredIdentity f.toolId "ApprovalRequest.tool_id"
  let writeIntentHash ← requiredIdentity f.writeIntentHash "ApprovalRequest.write_intent_hash"
  let message ← requiredIdentity f.message "ApprovalRequest.message"
  let skillSemanticHash ← requiredDigest f.skillSemanticHash "ApprovalRequest.skill_semantic_hash"
  let payloadHash ← requiredDigest f.payloadHash "ApprovalRequest.payload_hash"
  let expiresAt ← optionally (approvalUtc · "ApprovalRequest.expires_at") f.expiresAt
  let protectedPayloadRef ← optionally (requiredIdentity · "ApprovalRequest.protected_payload_ref") f.protectedPayloadRef
  let displaySafeSummary ← checkSummary summary
  return ⟨tenantId, executionId, businessOperationId, approvalId, approvalRequestId, skillId, skillVersion,
    skillSemanticHash, writeNodeId, toolId, payloadHash, writeIntentHash, f.riskLevel, message, expiresAt,
    displaySafeSummary.1, protectedPayloadRef, f.dataClassification, displaySafeSummary.2.1, displaySafeSummary.2.2⟩

/-- What `ApprovalEvidence` is called with. -/
structure EvidenceFields where
  tenantId            : String
  executionId         : String
  businessOperationId : String
  approvalId          : String
  approvalRequestId   : String
  skillSemanticHash   : String
  decision            : ApprovalDecision
  approverId          : String
  decidedAt           : DateTime
  expiresAt           : Option DateTime
  payloadHash         : String
  writeIntentHash     : String
  evidenceIntegrity   : String

def ApprovalEvidence.fields (e : ApprovalEvidence) : EvidenceFields where
  tenantId            := e.tenantId.text
  executionId         := e.executionId.text
  businessOperationId := e.businessOperationId.text
  approvalId          := e.approvalId.text
  approvalRequestId   := e.approvalRequestId.text
  skillSemanticHash   := e.skillSemanticHash.text
  decision            := e.decision
  approverId          := e.approverId.text
  decidedAt           := e.decidedAt.time
  expiresAt           := e.expiresAt.map (·.time)
  payloadHash         := e.payloadHash.text
  writeIntentHash     := e.writeIntentHash.text
  evidenceIntegrity   := e.evidenceIntegrity.text

/-- `expires_at` is not before `decided_at`. -/
def expiryInOrder (decidedAt : UtcInstant) (expiresAt : Option UtcInstant) : Bool :=
  expiresAt.all (fun expiry => decidedAt.stamp ≤ expiry.stamp)

omit [Platform] in
theorem expiryInOrder_iff {decidedAt : UtcInstant} {expiresAt : Option UtcInstant} : expiryInOrder decidedAt expiresAt = true ↔
    ∀ expiry, expiresAt = some expiry → decidedAt.stamp ≤ expiry.stamp := by
  cases expiresAt with
  | none   => exact ⟨fun _ _ h => (by cases h), fun _ => rfl⟩
  | some e =>
    rw [expiryInOrder, Option.all_some, decide_eq_true_eq]
    refine ⟨fun h expiry he => ?_, fun h => h e rfl⟩
    rw [← Option.some.inj he]
    exact h

/-- `ApprovalEvidence.__post_init__` -/
def ApprovalEvidence.make (f : EvidenceFields) : Except Exn ApprovalEvidence := do
  let tenantId ← requiredIdentity f.tenantId "ApprovalEvidence.tenant_id"
  let executionId ← requiredIdentity f.executionId "ApprovalEvidence.execution_id"
  let businessOperationId ← requiredIdentity f.businessOperationId "ApprovalEvidence.business_operation_id"
  let approvalId ← requiredIdentity f.approvalId "ApprovalEvidence.approval_id"
  let approvalRequestId ← requiredIdentity f.approvalRequestId "ApprovalEvidence.approval_request_id"
  let approverId ← requiredIdentity f.approverId "ApprovalEvidence.approver_id"
  let writeIntentHash ← requiredIdentity f.writeIntentHash "ApprovalEvidence.write_intent_hash"
  let evidenceIntegrity ← requiredIdentity f.evidenceIntegrity "ApprovalEvidence.evidence_integrity"
  let skillSemanticHash ← requiredDigest f.skillSemanticHash "ApprovalEvidence.skill_semantic_hash"
  let payloadHash ← requiredDigest f.payloadHash "ApprovalEvidence.payload_hash"
  let decidedAt ← approvalUtc f.decidedAt "ApprovalEvidence.decided_at"
  let expiresAt ← optionally (approvalUtc · "ApprovalEvidence.expires_at") f.expiresAt
  if h : expiryInOrder decidedAt expiresAt = true then
    return ⟨tenantId, executionId, businessOperationId, approvalId, approvalRequestId, skillSemanticHash, f.decision,
      approverId, decidedAt, expiresAt, payloadHash, writeIntentHash, evidenceIntegrity, expiryInOrder_iff.1 h⟩
  else .error (.value "ApprovalEvidence.expires_at precedes decided_at")

/-! ## Readers -/

namespace ApprovalDocuments

/-- `_string` -/
def string (value : Json) (path : String) : Except Exn String :=
  match value with
  | .str s => if Text.isBlank s then .error (.schema path "expected non-empty string") else .ok s
  | _      => .error (.schema path "expected non-empty string")

/-- What may be `None`. -/
def nullable {α : Type} (read : Json → String → Except Exn α) (value : Json) (path : String) : Except Exn (Option α) :=
  if value = .null then .ok none else (read value path).map some

/-- `_mapping` -/
def mapping (value : Json) (path : String) : Except Exn (Dict Value) :=
  match value with
  | .obj entries => .ok (Dict.ofList (ofJsonFields entries))
  | _            => .error (.schema path "expected object")

/-- `_instant` -/
def instant (value : Json) (path : String) : Except Exn DateTime :=
  match value with
  | .str s =>
    match reader.dateTime s with
    | none   => .error (.schema path "invalid date-time")
    | some t => if t.isUtc then .ok t else .error (.schema path "expected UTC date-time string")
  | _      => .error (.schema path "expected UTC date-time string")

/-- `_schema_version` -/
def schemaVersion (root : List (String × Json)) : Except Exn Unit :=
  if entry root "schema_version" ≠ .str CONTROLLED_DOCUMENT_VERSION then .error (.schema "$.schema_version" "expected '1.0'")
  else .ok ()

/-- The part of a document that the reader goes through. -/
def item (name : String) (fields : List String) (data : ByteArray) : Except Exn (List (String × Json)) := do
  let document ← loadNsoJson reader data
  let root ← exactEntries .schema document "$" ["schema_version", name]
  let _ ← schemaVersion root
  exactEntries .schema (entry root name) ("$." ++ name) fields

/-- `str(error)` -/
def errorText : Exn → String
  | .schema path reason => "invalid NSO schema at " ++ path ++ ": " ++ reason
  | error               => error.message

/-- `except ValueError as error: raise NsoSchemaError(path, str(error)) from error` -/
def asSchemaError {α : Type} (path : String) (x : Except Exn α) : Except Exn α :=
  x.mapError (fun error => if error.isValueError then .schema path (errorText error) else error)

def requestNames : List String :=
  ["tenant_id", "execution_id", "business_operation_id", "approval_id", "approval_request_id", "skill_id", "skill_version",
    "skill_semantic_hash", "write_node_id", "tool_id", "payload_hash", "write_intent_hash", "risk_level", "message",
    "expires_at", "display_safe_summary", "protected_payload_ref", "data_classification"]

def evidenceNames : List String :=
  ["tenant_id", "execution_id", "business_operation_id", "approval_id", "approval_request_id", "skill_semantic_hash",
    "decision", "approver_id", "decided_at", "expires_at", "payload_hash", "write_intent_hash", "evidence_integrity"]

/-- What the reader of a request calls the constructor with. -/
def requestFields (item : List (String × Json)) : Except Exn (RequestFields × Dict Value) := do
  let text := fun name => string (entry item name) ("$.approval_request." ++ name)
  let tenantId ← text "tenant_id"
  let executionId ← text "execution_id"
  let businessOperationId ← text "business_operation_id"
  let approvalId ← text "approval_id"
  let approvalRequestId ← text "approval_request_id"
  let skillId ← text "skill_id"
  let skillVersion ← text "skill_version"
  let skillSemanticHash ← text "skill_semantic_hash"
  let writeNodeId ← text "write_node_id"
  let toolId ← text "tool_id"
  let payloadHash ← text "payload_hash"
  let writeIntentHash ← text "write_intent_hash"
  let riskLevel ← memberOf (ofJson (entry item "risk_level"))
  let message ← text "message"
  let expiresAt ← nullable (instant reader) (entry item "expires_at") "$.approval_request.expires_at"
  let summary ← mapping (entry item "display_safe_summary") "$.approval_request.display_safe_summary"
  let protectedPayloadRef ← nullable string (entry item "protected_payload_ref") "$.approval_request.protected_payload_ref"
  let dataClassification ← memberOf (ofJson (entry item "data_classification"))
  return (⟨tenantId, executionId, businessOperationId, approvalId, approvalRequestId, skillId, skillVersion,
    skillSemanticHash, writeNodeId, toolId, payloadHash, writeIntentHash, riskLevel, message, expiresAt,
    protectedPayloadRef, dataClassification⟩, summary)

/-- What the reader of evidence calls the constructor with. -/
def evidenceFields (item : List (String × Json)) : Except Exn EvidenceFields := do
  let text := fun name => string (entry item name) ("$.approval_evidence." ++ name)
  let tenantId ← text "tenant_id"
  let executionId ← text "execution_id"
  let businessOperationId ← text "business_operation_id"
  let approvalId ← text "approval_id"
  let approvalRequestId ← text "approval_request_id"
  let skillSemanticHash ← text "skill_semantic_hash"
  let decision ← memberOf (ofJson (entry item "decision"))
  let approverId ← text "approver_id"
  let decidedAt ← instant reader (entry item "decided_at") "$.approval_evidence.decided_at"
  let expiresAt ← nullable (instant reader) (entry item "expires_at") "$.approval_evidence.expires_at"
  let payloadHash ← text "payload_hash"
  let writeIntentHash ← text "write_intent_hash"
  let evidenceIntegrity ← text "evidence_integrity"
  return ⟨tenantId, executionId, businessOperationId, approvalId, approvalRequestId, skillSemanticHash, decision,
    approverId, decidedAt, expiresAt, payloadHash, writeIntentHash, evidenceIntegrity⟩

/-- `path.read_bytes()` -/
def readBytes (files : Files) (path : FilePath) : Except Exn ByteArray :=
  match files path with
  | some data => .ok data
  | none      => .error (.other "No such file or directory")

end ApprovalDocuments

open ApprovalDocuments

def readApprovalRequest (data : ByteArray) : Except Exn ApprovalRequest := do
  let fields ← item reader "approval_request" requestNames data
  asSchemaError "$.approval_request" (requestFields reader fields >>= fun f => ApprovalRequest.make f.1 f.2)

def readApprovalEvidence (data : ByteArray) : Except Exn ApprovalEvidence := do
  let fields ← item reader "approval_evidence" evidenceNames data
  asSchemaError "$.approval_evidence" (evidenceFields reader fields >>= ApprovalEvidence.make)

/-- `load_approval_request` -/
def loadApprovalRequest (files : Files) (path : FilePath) : Except Exn ApprovalRequest :=
  readBytes files path >>= readApprovalRequest reader

/-- `load_approval_evidence` -/
def loadApprovalEvidence (files : Files) (path : FilePath) : Except Exn ApprovalEvidence :=
  readBytes files path >>= readApprovalEvidence reader

/-! ## Writing once -/

variable {reader} {path : FilePath} {data : ByteArray} {files files' : Files} {w : List Files}

omit [Platform] in
theorem FilePath.temporary_ne (p : FilePath) : p.temporary ≠ p := by
  intro h
  have hname := congrArg (fun q : FilePath => q.name.length) h
  have hlength : p.temporary.name.length = 1 + p.name.length + 8 := by
    unfold FilePath.temporary
    rw [String.length_append, String.length_append]
    rfl
  omega

omit [Platform] in
theorem Files.put_self (p : FilePath) (d : Option ByteArray) (files : Files) : files.put p d p = d := Function.update_self ..

omit [Platform] in
theorem Files.put_other {p q : FilePath} (h : q ≠ p) (d : Option ByteArray) (files : Files) : files.put p d q = files q :=
  Function.update_of_ne h ..

omit [Platform] in
theorem replaceFile_ok (h : replaceFile path data files = ⟨w, files', .ok ()⟩) : files' path = some data := by
  unfold replaceFile at h
  rw [Run.look_andThen] at h
  cases htaken : files path.temporary with
  | some _ =>
    rw [htaken] at h
    cases h
  | none   =>
    rw [htaken] at h
    cases h
    calc ((_ : Files).put path.temporary none) path = _ := Files.put_other path.temporary_ne.symm ..
      _ = _ := Files.put_self ..
      _ = some data := Files.put_self ..

/-- **What a write that succeeds leaves** is the document. -/
theorem writeOnce_ok (h : (writeOnce reader path data files).outcome = .ok ()) :
    (writeOnce reader path data files).final path = some data := by
  rcases hrun : writeOnce reader path data files with ⟨w, files', outcome⟩
  rw [hrun] at h
  cases h
  unfold writeOnce at hrun
  obtain ⟨w₁, s₁, u, w₂, hcheck, hrun, -⟩ := Run.andThen_eq_ok hrun
  obtain ⟨-, hstart⟩ := Run.ofExcept_eq_ok hcheck
  subst hstart
  rw [Run.look_andThen] at hrun
  cases hstored : files path with
  | some bytes =>
    rw [hstored] at hrun
    dsimp only at hrun
    split at hrun
    · rename_i hsame
      cases hrun
      exact hstored.trans (congrArg some (sameBytes_iff.1 hsame))
    · cases hrun
  | none       =>
    rw [hstored] at hrun
    obtain ⟨w₃, s₃, w₄, hreplace, hfinal, -⟩ := Run.lastly_eq_ok hrun
    cases hfinal
    exact (Files.put_other path.temporary_ne.symm ..).trans (replaceFile_ok hreplace)

/-- **A name that is taken by something else** stays as it is. -/
theorem writeOnce_taken {bytes : ByteArray} (hstored : files path = some bytes) (hne : bytes ≠ data) :
    ∃ error, writeOnce reader path data files = ⟨[], files, .error error⟩ := by
  unfold writeOnce
  cases hcheck : (loadNsoJson reader data >>= fun value =>
      ensureNoCredentialMaterial Platform.word (ofJson value) "CLI controlled evidence") with
  | error error => exact ⟨error, rfl⟩
  | ok u        =>
    refine ⟨.value ("durable evidence collision: " ++ path.name), ?_⟩
    rw [show (Run.ofExcept (Except.ok u) : Run Files Exn Unit) = Run.done u from rfl, Run.andThen_done, Run.look_andThen,
      hstored]
    dsimp only
    rw [if_neg (fun hsame => hne (sameBytes_iff.1 hsame))]
    rfl

omit [Platform] in
theorem replaceFile_taken {bytes : ByteArray} (h : files path.temporary = some bytes) :
    replaceFile path data files = ⟨[], files, .error (.other "File exists")⟩ := by
  unfold replaceFile
  rw [Run.look_andThen, h]
  rfl

omit [Platform] in
theorem replaceFile_free (h : files path.temporary = none) : (replaceFile path data files).outcome = .ok () := by
  unfold replaceFile
  rw [Run.look_andThen, h]
  rfl

/-- **When a document is written**: its name is free, or holds it already. -/
theorem writeOnce_ok_iff {value : Json} (hload : loadNsoJson reader data = .ok value)
    (hclean : findCredentialPath Platform.word "$" (ofJson value) = none) :
    (writeOnce reader path data files).outcome = .ok () ↔
      files path = some data ∨ files path = none ∧ files path.temporary = none := by
  have hcheck : (loadNsoJson reader data >>= fun value =>
      ensureNoCredentialMaterial Platform.word (ofJson value) "CLI controlled evidence") = .ok () := by
    rw [bind_ok hload, ensureNoCredentialMaterial, hclean]
  unfold writeOnce
  rw [hcheck, show (Run.ofExcept (Except.ok ()) : Run Files Exn Unit) = Run.done () from rfl, Run.andThen_done,
    Run.look_andThen]
  cases hstored : files path with
  | some bytes =>
    dsimp only
    by_cases hsame : bytes = data
    · rw [if_pos (sameBytes_iff.2 hsame), hsame]
      exact ⟨fun _ => .inl rfl, fun _ => rfl⟩
    · rw [if_neg (fun h => hsame (sameBytes_iff.1 h))]
      refine ⟨fun h => (by cases h), fun h => ?_⟩
      rcases h with h | h
      · exact absurd (Option.some.inj h) hsame
      · cases h.1
  | none       =>
    dsimp only
    cases htaken : files path.temporary with
    | some bytes =>
      rw [Run.lastly_ok (replaceFile_taken htaken) rfl]
      refine ⟨fun h => (by cases h), fun h => ?_⟩
      rcases h with h | h
      · cases h
      · cases h.2
    | none       =>
      rcases hreplace : replaceFile path data files with ⟨w, files', outcome⟩
      have hok : (replaceFile path data files).outcome = .ok () := replaceFile_free htaken
      rw [hreplace] at hok
      rw [Run.lastly_ok hreplace rfl]
      exact ⟨fun _ => .inr ⟨rfl, rfl⟩, fun _ => hok⟩

theorem writeDocument_eq {document : Value} (h : document.isJson = true) :
    writeDocument reader path document = writeOnce reader path (canonicalBytes document.wire) := by
  unfold writeDocument canonicalJson
  rw [toJson_wire h]
  rfl

end Documents

end Nsl
