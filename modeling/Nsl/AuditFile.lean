import Nsl.AuditStore
import Nsl.Base.Lines
import Nsl.Preflight
import Nsl.SafeSummary
/-!
# AuditFile — audit events in a file

`JsonlAuditStore` (`audit_persistence.py`): each event it takes is one line of a file, with the time it was stored and the
time it expires. The file is read whole and checked when the store starts and after every deletion; a line is an event only
if `AuditEvent.from_data` takes it, hash included.
-/
namespace Nsl

open Calendar (DateTime)
open Stateful (Run)

section AuditFile

variable [Platform]

/-! ## Events as documents -/

/-- The version of a document is the one that is written. -/
def checkVersion (entries : List (String × Json)) (name expected message : String) : Except Exn Unit :=
  if entry entries name = .str expected then .ok () else .error (.value message)

namespace AuditEvent

/-- `to_data` -/
def toData (e : AuditEvent) : Value := updateDict e.hashData "event_hash" (.str e.eventHash)

def FIELDS : List String :=
  ["schema_version", "execution_id", "sequence", "event_type", "skill_id", "skill_version", "semantic_hash",
   "runtime_version", "tenant_id", "subject_id", "auth_context_ref", "retention_days", "classification", "payload",
   "previous_event_hash", "event_hash"]

/-- A text that is not empty. -/
def textField (entries : List (String × Json)) (name : String) : Except Exn String :=
  match entry entries name with
  | .str s => if s = "" then .error (.value ("audit event " ++ name ++ " must be non-empty")) else .ok s
  | _      => .error (.value ("audit event " ++ name ++ " must be non-empty"))

/-- `None`, or a text that is not empty. -/
def optionalField (entries : List (String × Json)) (name : String) : Except Exn (Option String) :=
  match entry entries name with
  | .null  => .ok none
  | .str s => if s = "" then .error (.value ("audit event " ++ name ++ " must be null or non-empty")) else .ok (some s)
  | _      => .error (.value ("audit event " ++ name ++ " must be null or non-empty"))

/-- An integer above zero. -/
def positiveField (value : Json) (message : String) : Except Exn Nat :=
  match value with
  | .int (.ofNat (n + 1)) => .ok (n + 1)
  | _                     => .error (.value message)

def payloadField (value : Json) : Except Exn Value :=
  match value with
  | .obj fields => .ok (ofJson (.obj fields))
  | _           => .error (.value "audit event payload must be an object")

def classificationField (value : Json) : Except Exn DataClassification :=
  (memberOf (ofJson value)).mapError fun _ => .value "invalid audit event classification"

/-- `from_data`; the number of days is looked at by `verify`, with the hash. -/
def fromData (data : Json) : Except Exn AuditEvent := do
  let entries ← exactEntries (fun _ _ => .value "invalid audit event schema") data "$" FIELDS
  checkVersion entries "schema_version" AUDIT_SCHEMA_VERSION "unsupported audit event schema version"
  let executionId ← textField entries "execution_id"
  let eventType ← textField entries "event_type"
  let skillId ← textField entries "skill_id"
  let skillVersion ← textField entries "skill_version"
  let semanticHash ← textField entries "semantic_hash"
  let runtimeVersion ← textField entries "runtime_version"
  let eventHash ← textField entries "event_hash"
  let tenantId ← optionalField entries "tenant_id"
  let subjectId ← optionalField entries "subject_id"
  let authContextRef ← optionalField entries "auth_context_ref"
  let previousEventHash ← optionalField entries "previous_event_hash"
  let sequence ← positiveField (entry entries "sequence") "audit event sequence must be a positive integer"
  let payload ← payloadField (entry entries "payload")
  let classification ← classificationField (entry entries "classification")
  let retentionDays ← positiveField (entry entries "retention_days") "audit event retention_days must be positive"
  let event : AuditEvent :=
    { executionId, sequence, eventType, skillId, skillVersion, semanticHash, runtimeVersion, tenantId, subjectId,
      authContextRef, retentionDays, classification, payload, previousEventHash, eventHash }
  event.verify
  return event

end AuditEvent

/-! ## Records -/

def AUDIT_STORAGE_SCHEMA_VERSION : String := "1.0"

/-- `_StoredAuditRecord` -/
structure StoredAuditRecord where
  event     : AuditEvent
  storedAt  : DateTime
  expiresAt : DateTime

/-- `stored_at + timedelta(days=...)` -/
def expiry (storedAt : DateTime) (days : Nat) : Except Exn DateTime :=
  match storedAt.plusDays days with
  | some t => .ok t
  | none   => .error (.arithmetic "date value out of range")

/-- `_validate_time` -/
def validateTime (t : DateTime) (message : String) : Except Exn DateTime :=
  if t.offset.isSome then .ok t else .error (.value message)

/-- What the store reads its lines with. Of `json.loads` it is asked that it reads what `json.dumps` prints. -/
structure LineReader where
  /-- the `repr` of a number with a fraction or an exponent -/
  number   : List Char → String
  /-- `json.loads` -/
  loads    : String → Except Exn Json
  /-- `datetime.fromisoformat` -/
  dateTime : String → Option DateTime
  reads    : ∀ x, Json.Printed number x → loads (Json.dumps x) = .ok x.sorted

namespace StoredAuditRecord

/-- `_record_to_data` -/
def toData (r : StoredAuditRecord) : Value :=
  .dict [("storage_schema_version", .str AUDIT_STORAGE_SCHEMA_VERSION), ("stored_at", .str r.storedAt.isoformat),
    ("expires_at", .str r.expiresAt.isoformat), ("event", r.event.toData)]

variable (reader : LineReader)

/-- `_parse_time` -/
def parseTime (value : Json) (name : String) : Except Exn DateTime :=
  match value with
  | .str s =>
    if s = "" then .error (.value ("stored audit " ++ name ++ " must be non-empty"))
    else match reader.dateTime s with
      | some t => validateTime t ("stored audit " ++ name ++ " must include a timezone")
      | none   => .error (.value ("stored audit " ++ name ++ " must be ISO-8601"))
  | _ => .error (.value ("stored audit " ++ name ++ " must be non-empty"))

/-- `_record_from_data` -/
def fromData (data : Json) : Except Exn StoredAuditRecord := do
  let entries ← exactEntries (fun _ _ => .value "invalid stored audit record schema") data "$"
    ["storage_schema_version", "stored_at", "expires_at", "event"]
  checkVersion entries "storage_schema_version" AUDIT_STORAGE_SCHEMA_VERSION
    "unsupported stored audit record schema version"
  let event ← AuditEvent.fromData (entry entries "event")
  let storedAt ← parseTime reader (entry entries "stored_at") "stored_at"
  let expiresAt ← parseTime reader (entry entries "expires_at") "expires_at"
  let expected ← expiry storedAt event.retentionDays
  if expiresAt.instant = expected.instant then return ⟨event, storedAt, expiresAt⟩
  else throw (.value "stored audit retention metadata mismatch")

/-- One line, by its number; what is raised that is no `ValueError` goes through. -/
def fromLine (line : List Char) (number : Nat) : Except Exn StoredAuditRecord :=
  if line = [] then .error (.integrity ("empty audit record at line " ++ toString number))
  else (reader.loads (String.ofList line) >>= fromData reader).mapError fun error =>
    if error.isValueError then .integrity ("invalid audit record at line " ++ toString number) else error

/-- `_read_records` -/
def readAll (text : List Char) : Except Exn (List StoredAuditRecord) :=
  ((Lines.splitlines text).zipIdx 1).mapM fun line => fromLine reader line.1 line.2

/-- The line that is written for a record. -/
def line (r : StoredAuditRecord) : Except Exn (List Char) := (canonicalJson r.toData).map String.toList

end StoredAuditRecord

/-! ## The store -/

/-- What `append` and `_load_and_verify` check of an event behind the last one of its execution. -/
def AuditStore.follow (store : AuditStore) (e : AuditEvent) : Except Exn AuditStore := do
  let previous := store.tails e.key
  if e.sequence ≠ ((previous.map (·.sequence + 1)).getD 1) then
    throw (.integrity ("audit sequence discontinuity for " ++ e.executionId))
  if e.previousEventHash ≠ previous.map (·.eventHash) then
    throw (.integrity ("audit hash chain discontinuity for " ++ e.executionId))
  return ⟨Function.update store.tails e.key (some e)⟩

/-- The file, empty where there is none, and `_tails`. -/
structure JsonlAuditStore where
  text  : List Char
  index : AuditStore

namespace JsonlAuditStore

def withText (text : List Char) (s : JsonlAuditStore) : JsonlAuditStore := { s with text }

def withIndex (index : AuditStore) (s : JsonlAuditStore) : JsonlAuditStore := { s with index }

variable (reader : LineReader)

/-- What `append` writes for an event at a reading of the clock. -/
def recordOf (e : AuditEvent) (now : DateTime) : Except Exn StoredAuditRecord := do
  let storedAt ← validateTime now "audit storage clock must be timezone-aware"
  return ⟨e, storedAt, ← expiry storedAt e.retentionDays⟩

/-- `append`, at a reading of the clock. -/
def append (e : AuditEvent) (now : DateTime) : Run JsonlAuditStore Exn Unit :=
  (Run.look (fun s => s.index.append e)).andThen fun checked =>
  (Run.ofExcept checked).andThen fun index =>
  (Run.ofExcept (recordOf e now >>= StoredAuditRecord.line)).andThen fun line =>
  (Run.write (fun s => s.withText (s.text ++ (line ++ ['\n'])))).andThen fun _ =>
  Run.write (withIndex index)

/-- One pass of the loop of `_load_and_verify`. -/
def loadRecord (r : StoredAuditRecord) : Run JsonlAuditStore Exn Unit :=
  (Run.look (fun s => s.index.follow r.event)).andThen fun checked =>
  (Run.ofExcept checked).andThen fun index => Run.write (withIndex index)

/-- `_load_and_verify` -/
def loadAndVerify : Run JsonlAuditStore Exn Unit :=
  (Run.write (withIndex .empty)).andThen fun _ =>
  (Run.look (fun s => StoredAuditRecord.readAll reader s.text)).andThen fun read =>
  (Run.ofExcept read).andThen fun records => Run.forEach loadRecord records

/-- `_read_records` of the file as it is. -/
def readRecords : Run JsonlAuditStore Exn (List StoredAuditRecord) :=
  (Run.look (fun s => StoredAuditRecord.readAll reader s.text)).andThen Run.ofExcept

/-- `_write_records` -/
def writeRecords (records : List StoredAuditRecord) : Run JsonlAuditStore Exn Unit :=
  (Run.ofExcept (records.mapM StoredAuditRecord.line)).andThen fun lines => Run.write (withText (Lines.join lines))

/-- `_write_records` and `_load_and_verify`, where any record is left out; the number of those. -/
def retain (keeps : StoredAuditRecord → Bool) (records : List StoredAuditRecord) : Run JsonlAuditStore Exn Nat :=
  let retained := records.filter keeps
  let deletedCount := records.length - retained.length
  if deletedCount = 0 then .done 0
  else (writeRecords retained).andThen fun _ => (loadAndVerify reader).andThen fun _ => .done deletedCount

/-- The names that `read_execution` and `delete_execution` want. -/
def checkNames (tenantId executionId : String) : Except Exn Unit :=
  if tenantId = "" then .error (.value "tenant_id must be non-empty")
  else if executionId = "" then .error (.value "execution_id must be non-empty")
  else .ok ()

/-- `read_execution` -/
def readExecution (tenantId executionId : String) : Run JsonlAuditStore Exn (List AuditEvent) :=
  (Run.ofExcept (checkNames tenantId executionId)).andThen fun _ =>
  (readRecords reader).andThen fun records =>
  .done ((records.map (·.event)).filter (·.key = (some tenantId, executionId)))

/-- `delete_execution` -/
def deleteExecution (tenantId executionId : String) : Run JsonlAuditStore Exn Nat :=
  (Run.ofExcept (checkNames tenantId executionId)).andThen fun _ =>
  (readRecords reader).andThen fun records =>
  retain reader (fun r => !decide (r.event.key = (some tenantId, executionId))) records

/-- A key is one of `expired_keys` when every record of its execution has expired. -/
def expiredKey (records : List StoredAuditRecord) (now : DateTime) (key : ChainKey) : Bool :=
  (records.filter (·.event.key = key)).all fun r => r.expiresAt.instant ≤ now.instant

/-- `purge_expired`; where no time is given the clock is read. -/
def purgeExpired (time : Option DateTime) (clock : DateTime) : Run JsonlAuditStore Exn Nat :=
  (Run.ofExcept (match time with
    | some t => validateTime t "audit purge time must be timezone-aware"
    | none   => validateTime clock "audit storage clock must be timezone-aware")).andThen fun now =>
  (readRecords reader).andThen fun records =>
  retain reader (fun r => !expiredKey records now r.event.key) records

/-- `JsonlAuditStore(path)` over a file with this text. -/
def make (text : List Char) : Except Exn JsonlAuditStore :=
  let started := loadAndVerify reader ⟨text, .empty⟩
  started.outcome.map fun _ => started.final

end JsonlAuditStore

end AuditFile
end Nsl
