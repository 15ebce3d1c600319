import Nsl.ProviderCalls
import Nsl.Reservations
import Nsl.Base.JsonParse
/-!
# Verification — reading a committed WRITE back

`verification.py`: the request a verification port gets, what it may observe and the answer `PostWriteVerifier.verify`
makes of it. The tool id and the hint come from a contract, which does not look for credential material in them; the
request does, and it is built after the WRITE was committed.

What is hashed for a request is that of no other request (`VerificationRequest.hashed_inj`), and every behaviour of a port
gives an answer about this commit, exactly when the contract's two texts hold no credential (`verify_answers_iff`).
-/
namespace Nsl

/-! ## Types and their canonical text -/

theorem TypeRef.toData_keys {t : TypeRef} {fields : List (String × Json)} (h : t.toData = .obj fields) :
    KeysOnce fields := by
  obtain ⟨kind, name, currency, item, nested, values, m⟩ := t
  unfold TypeRef.toData at h
  cases h
  unfold KeysOnce
  rcases name with _ | n <;> rcases currency with _ | c <;> rcases item with _ | i <;> rcases nested with _ | ⟨f, fs⟩ <;>
    rcases values with _ | ⟨v, vs⟩ <;> simp [itemToData]

theorem printedItems_texts (float : List Char → String) : ∀ (ts : List String),
    Json.PrintedItems float (ts.map .str)
  | []      => trivial
  | _ :: ts => ⟨trivial, printedItems_texts float ts⟩

mutual
/-- The data of a type is read back. -/
theorem TypeRef.toData_printed (float : List Char → String) : ∀ (t : TypeRef), Json.Printed float t.toData
  | ⟨kind, name, currency, item, fields, values, m⟩ => by
    have hkeys := TypeRef.toData_keys (t := ⟨kind, name, currency, item, fields, values, m⟩) (by rw [TypeRef.toData])
    rw [TypeRef.toData]
    refine ⟨hkeys, (Json.printedFields_iff float _).2 (fun f hf => ?_)⟩
    simp only [List.mem_append, List.mem_singleton, List.mem_map, Option.mem_toList] at hf
    rcases hf with ((((rfl | ⟨n, -, rfl⟩) | ⟨c, -, rfl⟩) | hf) | hf) | hf
    · trivial
    · trivial
    · trivial
    · exact itemToData_printed float item f hf
    · split at hf
      · cases hf
      · rw [List.mem_singleton] at hf
        subst hf
        exact fieldsToData_printed float fields
    · split at hf
      · cases hf
      · rw [List.mem_singleton] at hf
        subst hf
        exact printedItems_texts float values
theorem itemToData_printed (float : List Char → String) : ∀ (i : Option TypeRef), ∀ f ∈ itemToData i,
    Json.Printed float f.2
  | none, _, hf   => by cases hf
  | some t, f, hf => by
    rw [itemToData, List.mem_singleton] at hf
    subst hf
    exact TypeRef.toData_printed float t
theorem fieldsToData_printed (float : List Char → String) : ∀ (fs : List (String × TypeRef)),
    Json.PrintedItems float (fieldsToData fs)
  | []           => trivial
  | (_, t) :: fs => by
    rw [fieldsToData]
    refine ⟨⟨?_, trivial, TypeRef.toData_printed float t, trivial⟩, fieldsToData_printed float fs⟩
    show List.Nodup ["name", "type"]
    decide
end

theorem sorted_str_injective {o o' : Option String} (h : (o.map Json.str).map Json.sorted = (o'.map Json.str).map Json.sorted) :
    o = o' := by
  rw [Option.map_map, Option.map_map] at h
  exact Option.map_injective (fun _ _ hs => Json.str.inj hs) h

/-- A list of texts is not touched. -/
theorem sortedItems_texts : ∀ (ts : List String), Json.sortedItems (ts.map .str) = ts.map .str
  | []      => rfl
  | _ :: ts => congrArg _ (sortedItems_texts ts)

mutual
/-- **The data of a type is that of no other**, in whatever order its keys stand. -/
theorem TypeRef.toData_same : ∀ {t u : TypeRef}, t.toData.Same u.toData → t = u
  | ⟨k, n, c, i, fs, es, m⟩, ⟨k', n', c', i', fs', es', m'⟩, h => by
    have hkeys := TypeRef.toData_keys (t := ⟨k, n, c, i, fs, es, m⟩) (by rw [TypeRef.toData])
    have hkeys' := TypeRef.toData_keys (t := ⟨k', n', c', i', fs', es', m'⟩) (by rw [TypeRef.toData])
    unfold TypeRef.toData at h
    have hat := Json.Same.lookup h hkeys hkeys'
    simp only [List.lookup_append, lookup_optional, lookup_unless, itemToData_lookup] at hat
    have hkind : k = k' := by simpa [Json.sorted] using hat "kind"
    have hname : n = n' := sorted_str_injective (by simpa [List.lookup_cons] using hat "name")
    have hcurrency : c = c' := sorted_str_injective (by simpa [List.lookup_cons] using hat "currency")
    have hitem : (i.map TypeRef.toData).map Json.sorted = (i'.map TypeRef.toData).map Json.sorted := by
      simpa [List.lookup_cons] using hat "item"
    have hfields : (if fs = [] then none else some (Json.arr (fieldsToData fs)).sorted) =
        if fs' = [] then none else some (Json.arr (fieldsToData fs')).sorted := by
      simpa [List.lookup_cons, apply_ite (Option.map Json.sorted)] using hat "fields"
    have hvalues : (if es = [] then none else some (Json.arr (es.map Json.str)).sorted) =
        if es' = [] then none else some (Json.arr (es'.map Json.str)).sorted := by
      simpa [List.lookup_cons, apply_ite (Option.map Json.sorted)] using hat "values"
    have hi : i = i' := itemToData_same hitem
    have hfs : fs = fs' := unless_empty_inj (f := fun fs => (Json.arr (fieldsToData fs)).sorted)
      (fun hf => fieldsToData_same (Json.arr.inj hf)) hfields
    have hes : es = es' := by
      refine unless_empty_inj (f := fun es => (Json.arr (es.map Json.str)).sorted) (fun hf => ?_) hvalues
      have hf := Json.arr.inj hf
      rw [sortedItems_texts, sortedItems_texts] at hf
      exact List.map_injective_iff.2 (fun _ _ hs => Json.str.inj hs) hf
    subst hkind hname hcurrency hi hfs hes
    rfl
theorem itemToData_same : ∀ {i j : Option TypeRef},
    (i.map TypeRef.toData).map Json.sorted = (j.map TypeRef.toData).map Json.sorted → i = j
  | none, none, _     => rfl
  | some t, some u, h => by rw [TypeRef.toData_same (Option.some.inj h)]
  | none, some _, h   => by cases h
  | some _, none, h   => by cases h
theorem fieldsToData_same : ∀ {fs gs : List (String × TypeRef)},
    Json.sortedItems (fieldsToData fs) = Json.sortedItems (fieldsToData gs) → fs = gs
  | [], [], _                     => rfl
  | (n, t) :: fs, (m, u) :: gs, h => by
    unfold fieldsToData Json.sortedItems at h
    obtain ⟨hhead, htail⟩ := List.cons.inj h
    have hat := Json.Same.lookup hhead (by simp [KeysOnce]) (by simp [KeysOnce])
    have hname : n = m := by simpa [Json.sorted] using hat "name"
    have htype : t.toData.sorted = u.toData.sorted := by simpa [List.lookup_cons] using hat "type"
    rw [hname, TypeRef.toData_same htype, fieldsToData_same htail]
  | [], (_, _) :: _, h            => by
    unfold fieldsToData Json.sortedItems at h
    cases h
  | (_, _) :: _, [], h            => by
    unfold fieldsToData Json.sortedItems at h
    cases h
end

section Verification

variable [Platform]

/-! ## Checked arguments -/

/-- `_required_text` -/
def verificationText (text name : String) : Except Exn RequiredText :=
  if h : isRequiredText text = true then .ok ⟨text, h⟩
  else if Text.isBlank text then .error (.other (name ++ " must be a non-empty string"))
  else .error (.value ("credential material is forbidden in " ++ name ++ " at $"))

/-- `_optional_text` -/
def verificationOption (text : Option String) (name : String) : Except Exn (Option RequiredText) :=
  match text with
  | none   => .ok none
  | some t => (verificationText t name).map some

/-- `_utc_instant`, for a time that may be absent -/
def verificationInstant (time : Option Calendar.DateTime) (name : String) : Except Exn (Option UtcInstant) :=
  match time with
  | none   => .ok none
  | some t =>
    if h : t.isUtc = true then .ok (some ⟨t, h⟩) else .error (.other (name ++ " must use timezone-aware UTC"))

theorem verificationText_ok (t : RequiredText) (name : String) : verificationText t.text name = .ok t := dif_pos t.ok

theorem verificationText_isOk_iff (text name : String) :
    (verificationText text name).isOk = true ↔ isRequiredText text = true := by
  unfold verificationText
  split
  · rename_i h
    exact ⟨fun _ => h, fun _ => rfl⟩
  · rename_i h
    split <;> exact ⟨fun hok => (by cases hok), fun hok => absurd hok h⟩

theorem verificationOption_ok (t : Option RequiredText) (name : String) :
    verificationOption (t.map (·.text)) name = .ok t := by
  cases t with
  | none   => rfl
  | some t =>
    show (verificationText t.text name).map some = _
    rw [verificationText_ok]
    rfl

omit [Platform] in
theorem verificationInstant_ok (t : Option UtcInstant) (name : String) :
    verificationInstant (t.map (·.time)) name = .ok t := by
  cases t with
  | none   => rfl
  | some t => exact dif_pos t.ok

/-! ## Requests -/

structure VerificationRequest where
  identity              : WriteOutcomeIdentity
  verificationToolId    : RequiredText
  businessReference     : RequiredText
  providerTransactionId : Option RequiredText
  referenceSchema       : Option TypeRef
  consistencyHint       : Option RequiredText
  deriving DecidableEq

/-- `VerificationRequest(...)` -/
def VerificationRequest.make (identity : WriteOutcomeIdentity) (verificationToolId businessReference : String)
    (providerTransactionId : Option String) (referenceSchema : Option TypeRef) (consistencyHint : Option String) :
    Except Exn VerificationRequest := do
  let toolId ← verificationText verificationToolId "verification_tool_id"
  let reference ← verificationText businessReference "business_reference"
  let transactionId ← verificationOption providerTransactionId "provider_transaction_id"
  let hint ← verificationOption consistencyHint "consistency_hint"
  return ⟨identity, toolId, reference, transactionId, referenceSchema, hint⟩

/-- The payload of `request_hash`. -/
def VerificationRequest.payload (r : VerificationRequest) : List (String × Json) :=
  [("tenant_id", .str r.identity.tenantId.text), ("business_operation_id", .str r.identity.businessOperationId.text),
   ("invocation_id", .str r.identity.invocationId.text), ("node_id", .str r.identity.nodeId.text),
   ("write_tool_id", .str r.identity.toolId.text), ("idempotency_key", .str r.identity.idempotencyKey.text),
   ("payload_hash", .str r.identity.payloadHash.text), ("approval_request_id", .str r.identity.approvalRequestId.text),
   ("write_intent_hash", .str r.identity.writeIntentHash.text),
   ("verification_tool_id", .str r.verificationToolId.text), ("business_reference", .str r.businessReference.text),
   ("provider_transaction_id", optionalText r.providerTransactionId),
   ("reference_schema", (r.referenceSchema.map TypeRef.toData).getD .null),
   ("consistency_hint", optionalText r.consistencyHint)]

/-- The text that is hashed for a request. -/
def VerificationRequest.hashed (r : VerificationRequest) : String :=
  "NSL-POST-WRITE-VERIFY-V1\x00" ++ Json.dumps (.obj r.payload)

/-- `request_hash` -/
def VerificationRequest.requestHash (r : VerificationRequest) : String := sha256Of r.hashed

theorem RequiredText.text_injective {t u : RequiredText} (h : t.text = u.text) : t = u := by
  obtain ⟨t, ht⟩ := t
  cases h
  rfl

theorem IdempotencyKey.text_injective {k l : IdempotencyKey} (h : k.text = l.text) : k = l := by
  obtain ⟨k, hk⟩ := k
  cases h
  rfl

theorem optionalText_printed (float : List Char → String) (t : Option RequiredText) :
    Json.Printed float (optionalText t) := by cases t <;> trivial

theorem optionalText_same {t u : Option RequiredText} (h : (optionalText t).sorted = (optionalText u).sorted) : t = u := by
  cases t with
  | none   =>
    cases u with
    | none   => rfl
    | some u => cases h
  | some t =>
    cases u with
    | none   => cases h
    | some u => rw [RequiredText.text_injective (Json.str.inj h)]

omit [Platform] in
/-- The data of a type is an object, and so not `null`. -/
theorem optionalType_same {t u : Option TypeRef}
    (h : ((t.map TypeRef.toData).getD .null).sorted = ((u.map TypeRef.toData).getD .null).sorted) : t = u := by
  rcases t with _ | ⟨k, n, c, i, fs, es, m⟩ <;> rcases u with _ | ⟨k', n', c', i', fs', es', m'⟩
  · rfl
  · simp [TypeRef.toData, Json.sorted] at h
  · simp [TypeRef.toData, Json.sorted] at h
  · rw [TypeRef.toData_same h]

namespace VerificationRequest

theorem payload_keys (r : VerificationRequest) : KeysOnce r.payload := by
  show List.Nodup ["tenant_id", "business_operation_id", "invocation_id", "node_id", "write_tool_id", "idempotency_key",
    "payload_hash", "approval_request_id", "write_intent_hash", "verification_tool_id", "business_reference",
    "provider_transaction_id", "reference_schema", "consistency_hint"]
  decide

theorem payload_printed (float : List Char → String) (r : VerificationRequest) :
    Json.Printed float (.obj r.payload) := by
  have hschema : Json.Printed float ((r.referenceSchema.map TypeRef.toData).getD .null) := by
    cases r.referenceSchema with
    | none   => trivial
    | some t => exact TypeRef.toData_printed float t
  exact ⟨r.payload_keys, trivial, trivial, trivial, trivial, trivial, trivial, trivial, trivial, trivial, trivial, trivial,
    optionalText_printed float _, hschema, optionalText_printed float _, trivial⟩

/-- **What is hashed for a request is hashed for no other.** -/
theorem hashed_inj {r r' : VerificationRequest} (h : r.hashed = r'.hashed) : r = r' := by
  have hdumps : Json.dumps (.obj r.payload) = Json.dumps (.obj r'.payload) := by
    have hlists := congrArg String.toList h
    unfold hashed at hlists
    rw [String.toList_append, String.toList_append] at hlists
    exact String.toList_injective (List.append_cancel_left hlists)
  have hsame := Json.dumps_inj String.ofList (r.payload_printed _) (r'.payload_printed _) hdumps
  have hat := Json.Same.lookup hsame r.payload_keys r'.payload_keys
  have htext : ∀ (k : String) {s s' : String}, r.payload.lookup k = some (.str s) →
      r'.payload.lookup k = some (.str s') → s = s' := by
    intro k s s' hs hs'
    have hk := hat k
    rw [hs, hs'] at hk
    exact Json.str.inj (Option.some.inj hk)
  have hidentity : r.identity = r'.identity := by
    rw [WriteOutcomeIdentity.mk.injEq]
    exact ⟨RequiredText.text_injective (htext "tenant_id" rfl rfl),
      RequiredText.text_injective (htext "business_operation_id" rfl rfl),
      RequiredText.text_injective (htext "invocation_id" rfl rfl), RequiredText.text_injective (htext "node_id" rfl rfl),
      RequiredText.text_injective (htext "write_tool_id" rfl rfl),
      IdempotencyKey.text_injective (htext "idempotency_key" rfl rfl), Digest.ext (htext "payload_hash" rfl rfl),
      RequiredText.text_injective (htext "approval_request_id" rfl rfl), Digest.ext (htext "write_intent_hash" rfl rfl)⟩
  have htool := RequiredText.text_injective (htext "verification_tool_id" rfl rfl)
  have hreference := RequiredText.text_injective (htext "business_reference" rfl rfl)
  have htransaction := optionalText_same (Option.some.inj (hat "provider_transaction_id"))
  have hschema := optionalType_same (Option.some.inj (hat "reference_schema"))
  have hhint := optionalText_same (Option.some.inj (hat "consistency_hint"))
  obtain ⟨i, t, b, p, s, c⟩ := r
  cases hidentity
  cases htool
  cases hreference
  cases htransaction
  cases hschema
  cases hhint
  rfl

end VerificationRequest

/-! ## Observations and results -/

/-- `VerificationObservation` with what `__post_init__` asks of it. -/
structure VerificationObservation where
  requestHash       : Digest
  businessReference : RequiredText
  isMatched         : Bool
  evidenceRef       : RequiredText
  observedAt        : UtcInstant
  reasonCode        : Option RequiredText
  reasoned          : reasonCode.isSome = !isMatched
  deriving DecidableEq

/-- What `__post_init__` says of fields that do not go with their status. -/
def verificationRefusal (status : VerificationStatus) (toolId : Option RequiredText) : String :=
  match status with
  | .notRequested     => "NOT_REQUESTED verification cannot contain outcome evidence"
  | .verified         =>
    if toolId.isNone then "requested verification requires verification_tool_id"
    else "VERIFIED requires evidence and no failure reason"
  | .failed | .unknown =>
    if toolId.isNone then "requested verification requires verification_tool_id"
    else "FAILED or UNKNOWN verification requires reason_code"

/-- `VerificationResult(...)` -/
def VerificationResult.make (identity : WriteOutcomeIdentity) (commitState : CommitState) (status : VerificationStatus)
    (businessReference : String) (verificationToolId reasonCode evidenceRef : Option String)
    (observedAt : Option Calendar.DateTime) : Except Exn VerificationResult := do
  if commitState ≠ .committed then throw (.other "post-WRITE verification cannot change COMMITTED state")
  let reference ← verificationText businessReference "business_reference"
  let toolId ← verificationOption verificationToolId "verification_tool_id"
  let reason ← verificationOption reasonCode "reason_code"
  let evidence ← verificationOption evidenceRef "evidence_ref"
  let observed ← verificationInstant observedAt "observed_at"
  if h : verificationFieldsOk status toolId reason evidence observed = true then
    return ⟨identity, status, reference, toolId, reason, evidence, observed, h⟩
  else throw (.other (verificationRefusal status toolId))

/-- The commit state of a result, the only one `__post_init__` lets pass. -/
def VerificationResult.commitState (_ : VerificationResult) : CommitState := .committed

/-- **Checked texts make a result**, when they go with its status. -/
theorem VerificationResult.make_ok (identity : WriteOutcomeIdentity) {status : VerificationStatus}
    (reference : RequiredText) {toolId reason evidence : Option RequiredText} {observed : Option UtcInstant}
    (h : verificationFieldsOk status toolId reason evidence observed = true) :
    VerificationResult.make identity .committed status reference.text (toolId.map (·.text)) (reason.map (·.text))
      (evidence.map (·.text)) (observed.map (·.time)) =
        .ok ⟨identity, status, reference, toolId, reason, evidence, observed, h⟩ := by
  unfold VerificationResult.make
  rw [if_neg (not_not.2 rfl)]
  show (verificationText reference.text _ >>= _) = _
  simp only [verificationText_ok, verificationOption_ok, verificationInstant_ok, Stateful.bind_ok rfl]
  exact dif_pos h

/-! ## The verifier -/

/-- What becomes of the request that `read` gets. -/
abbrev VerificationPort : Type := VerificationRequest → EvidenceAnswer VerificationObservation

/-- The port raises nothing that is no `Exception`. -/
def VerificationPort.OnlyExceptions (port : VerificationPort) : Prop :=
  ∀ request e, port request = .raises e → e.isException = true

/-- The tool that verifies and what the contract says of it: none when nothing is declared or no tool is. -/
def ToolContract.verificationMethod (contract : ToolContract) : Option (String × PostWriteVerification) :=
  (contract.writeSemantics.bind (·.verification)).bind (fun v => v.toolId.map (fun toolId => (toolId, v)))

/-- `_validate_inputs` -/
def validateCommitted (result : WriteResultEnvelope) (contract : ToolContract) (ctx : Context) : Except Exn Unit := do
  if contract.capability ≠ "WRITE" ∨ contract.writeSemantics.isNone ∨ contract.toolId ≠ result.identity.toolId.text then
    throw (.other "verification requires the exact canonical WRITE contract")
  if ctx.tenantId ≠ result.identity.tenantId.text ∨
      ctx.request.businessOperationId ≠ some result.identity.businessOperationId then
    throw (.other "verification context does not match committed WRITE identity")
  if ctx.idempotency.keysByWriteNode.get? result.identity.nodeId.text ≠ some result.identity.idempotencyKey.text ∨
      ctx.idempotency.payloadHashesByWriteNode.get? result.identity.nodeId.text ≠ some result.identity.payloadHash.text then
    throw (.other "verification idempotency state does not match committed WRITE")

/-- `_request` -/
def verificationRequest (result : WriteResultEnvelope) (toolId : String) (verification : PostWriteVerification) :
    Except Exn VerificationRequest :=
  VerificationRequest.make result.identity toolId result.businessReference.text (result.providerTransactionId.map (·.text))
    verification.referenceSchema verification.consistencyHint

/-- `_unknown` -/
def unknownVerification (result : WriteResultEnvelope) (request : VerificationRequest) (reasonCode : String) :
    Except Exn VerificationResult :=
  VerificationResult.make result.identity .committed .unknown result.businessReference.text (some request.verificationToolId.text)
    (some reasonCode) none none

/-- `verify` from its await on. -/
def settleVerification (result : WriteResultEnvelope) (request : VerificationRequest) :
    EvidenceAnswer VerificationObservation → Except Exn VerificationResult
  | .raises e =>
    if e = .timeout then unknownVerification result request "VERIFICATION_TIMEOUT"
    else if e.isException then unknownVerification result request "VERIFICATION_DEPENDENCY_FAILURE"
    else .error e
  | .other    => unknownVerification result request "VERIFICATION_RESPONSE_MALFORMED"
  | .answer o =>
    if o.requestHash.text ≠ request.requestHash ∨ o.businessReference ≠ result.businessReference then
      unknownVerification result request "VERIFICATION_BINDING_MISMATCH"
    else if o.isMatched then
      VerificationResult.make result.identity .committed .verified result.businessReference.text (some request.verificationToolId.text) none
        (some o.evidenceRef.text) (some o.observedAt.time)
    else
      VerificationResult.make result.identity .committed .failed result.businessReference.text (some request.verificationToolId.text)
        (o.reasonCode.map (·.text)) (some o.evidenceRef.text) (some o.observedAt.time)

/-- `verify`; a port that is none stands for an object without a `read`. -/
def verify (result : WriteResultEnvelope) (contract : ToolContract) (ctx : Context) (port : Option VerificationPort) :
    Except Exn VerificationResult := do
  validateCommitted result contract ctx
  match contract.verificationMethod with
  | none                        =>
    VerificationResult.make result.identity .committed .notRequested result.businessReference.text none none none none
  | some (toolId, verification) =>
    match port with
    | none      => throw (.type "port must provide the read-only PostWriteVerificationPort")
    | some port =>
      let request ← verificationRequest result toolId verification
      settleVerification result request (port request)

/-! ## What an answer says -/

/-- **The observation is about this request of this commit.** -/
def VerificationObservation.BoundTo (o : VerificationObservation) (result : WriteResultEnvelope)
    (request : VerificationRequest) : Prop :=
  o.requestHash.text = request.requestHash ∧ o.businessReference = result.businessReference

/-- The status an answer has to have: what a bound observation says, and UNKNOWN without one. -/
structure StatusOf (result : WriteResultEnvelope) (request : VerificationRequest)
    (answer : EvidenceAnswer VerificationObservation) (status : VerificationStatus) : Prop where
  verified : status = .verified ↔ ∃ o, answer = .answer o ∧ o.BoundTo result request ∧ o.isMatched = true
  failed   : status = .failed ↔ ∃ o, answer = .answer o ∧ o.BoundTo result request ∧ o.isMatched = false
  unknown  : status = .unknown ↔ ¬ ∃ o, answer = .answer o ∧ o.BoundTo result request

/-- **An answer about the commit**: its identity, COMMITTED, and the status of what the port observed; NOT_REQUESTED where
the contract declares no tool to ask. -/
structure CommitAnswer (result : WriteResultEnvelope) (contract : ToolContract) (port : VerificationPort)
    (v : VerificationResult) : Prop where
  identity     : v.identity = result.identity
  commitState  : v.commitState = .committed
  notRequested : contract.verificationMethod = none → v.status = .notRequested
  requested    : ∀ toolId verification, contract.verificationMethod = some (toolId, verification) →
    ∃ request, verificationRequest result toolId verification = .ok request ∧
      StatusOf result request (port request) v.status

/-- The texts a request takes from the contract hold no credential material. -/
def ToolContract.VerificationClean (contract : ToolContract) : Prop :=
  ∀ toolId verification, contract.verificationMethod = some (toolId, verification) →
    findCredentialPath Platform.word "$" (.str toolId) = none ∧
      ∀ hint, verification.consistencyHint = some hint → findCredentialPath Platform.word "$" (.str hint) = none

/-! ## Every behaviour of a port is answered -/

theorem isRequiredText_iff (s : String) : isRequiredText s = true ↔
    Text.isBlank s = false ∧ findCredentialPath Platform.word "$" (.str s) = none := by
  unfold isRequiredText
  rw [Bool.and_eq_true, Bool.not_eq_true', Option.isNone_iff_eq_none]

theorem verificationOption_isOk_iff (t : Option String) (name : String) :
    (verificationOption t name).isOk = true ↔ ∀ s, t = some s → isRequiredText s = true := by
  cases t with
  | none   => exact ⟨fun _ _ h => (by cases h), fun _ => rfl⟩
  | some s =>
    have hs := verificationText_isOk_iff s name
    unfold verificationOption
    constructor
    · intro h s' hs'
      cases hs'
      refine hs.1 ?_
      cases ht : verificationText s name with
      | error e => simp only [ht, Except.map] at h; cases h
      | ok t    => rfl
    · intro h
      have hok := hs.2 (h s rfl)
      cases ht : verificationText s name with
      | error e => rw [ht] at hok; cases hok
      | ok t    => simp only [ht, Except.map]; rfl

/-- **A request is built exactly of texts of the contract that hold no credential.** -/
theorem verificationRequest_isOk_iff (result : WriteResultEnvelope) {contract : ToolContract} {toolId : String}
    {verification : PostWriteVerification} (hmethod : contract.verificationMethod = some (toolId, verification)) :
    (verificationRequest result toolId verification).isOk = true ↔ contract.VerificationClean := by
  have htool : verification.toolId = some toolId := by
    unfold ToolContract.verificationMethod at hmethod
    obtain ⟨v, -, hv⟩ := Option.bind_eq_some_iff.1 hmethod
    obtain ⟨t, ht, hpair⟩ := Option.map_eq_some_iff.1 hv
    cases hpair
    exact ht
  have hclean : contract.VerificationClean ↔ isRequiredText toolId = true ∧
      ∀ hint, verification.consistencyHint = some hint → isRequiredText hint = true := by
    constructor
    · intro h
      obtain ⟨ht, hh⟩ := h toolId verification hmethod
      exact ⟨(isRequiredText_iff _).2 ⟨verification.toolIdSet _ htool, ht⟩,
        fun hint hhint => (isRequiredText_iff _).2 ⟨verification.hintSet _ hhint, hh hint hhint⟩⟩
    · rintro ⟨ht, hh⟩ t v hv
      rw [hmethod] at hv
      cases hv
      exact ⟨((isRequiredText_iff _).1 ht).2, fun hint hhint => ((isRequiredText_iff _).1 (hh hint hhint)).2⟩
  rw [hclean]
  unfold verificationRequest VerificationRequest.make
  simp only [verificationText_ok, verificationOption_ok, Stateful.bind_ok rfl]
  rw [Stateful.bind_isOk_iff]
  constructor
  · rintro ⟨t, ht, hrest⟩
    obtain ⟨hint, hhint, -⟩ := Stateful.bind_isOk_iff.1 hrest
    exact ⟨(verificationText_isOk_iff _ _).1 (by rw [ht]; rfl),
      (verificationOption_isOk_iff _ _).1 (by rw [hhint]; rfl)⟩
  · rintro ⟨ht, hh⟩
    refine ⟨⟨toolId, ht⟩, verificationText_ok ⟨toolId, ht⟩ _, Stateful.bind_isOk_iff.2 ?_⟩
    have hok := (verificationOption_isOk_iff verification.consistencyHint "consistency_hint").2 hh
    cases hhint : verificationOption verification.consistencyHint "consistency_hint" with
    | error e => rw [hhint] at hok; cases hok
    | ok hint => exact ⟨hint, rfl, rfl⟩

/-- **A request that was built is answered**, whatever the port does with it. -/
theorem settleVerification_ok (result : WriteResultEnvelope) (request : VerificationRequest)
    {answer : EvidenceAnswer VerificationObservation} (h : ∀ e, answer = .raises e → e.isException = true) :
    ∃ v, settleVerification result request answer = .ok v ∧ v.identity = result.identity ∧
      StatusOf result request answer v.status := by
  have hunknown : ∀ (reason : RequiredText), (¬ ∃ o, answer = .answer o ∧ o.BoundTo result request) →
      ∃ v, unknownVerification result request reason.text = .ok v ∧ v.identity = result.identity ∧
        StatusOf result request answer v.status := by
    intro reason hnone
    have hfields : verificationFieldsOk .unknown (some request.verificationToolId) (some reason) none none = true := rfl
    have hmade := VerificationResult.make_ok result.identity result.businessReference hfields
    refine ⟨_, hmade, rfl, ⟨⟨fun hs => (by cases hs), ?_⟩, ⟨fun hs => (by cases hs), ?_⟩, ⟨fun _ => hnone, fun _ => rfl⟩⟩⟩
    · rintro ⟨o, ho, hbound, -⟩
      exact (hnone ⟨o, ho, hbound⟩).elim
    · rintro ⟨o, ho, hbound, -⟩
      exact (hnone ⟨o, ho, hbound⟩).elim
  cases answer with
  | raises e =>
    have hnone : ¬ ∃ o, (.raises e : EvidenceAnswer VerificationObservation) = .answer o ∧ o.BoundTo result request := by
      rintro ⟨o, ho, -⟩
      cases ho
    simp only [settleVerification]
    by_cases htimeout : e = .timeout
    · rw [if_pos htimeout]
      exact hunknown (.ofPlain "VERIFICATION_TIMEOUT") hnone
    · rw [if_neg htimeout, if_pos (h e rfl)]
      exact hunknown (.ofPlain "VERIFICATION_DEPENDENCY_FAILURE") hnone
  | other    => exact hunknown (.ofPlain "VERIFICATION_RESPONSE_MALFORMED") (by rintro ⟨o, ho, -⟩; cases ho)
  | answer o =>
    simp only [settleVerification]
    by_cases hbound : o.BoundTo result request
    · have hno : ¬ (o.requestHash.text ≠ request.requestHash ∨ o.businessReference ≠ result.businessReference) := by
        rw [not_or, not_not, not_not]
        exact hbound
      rw [if_neg hno]
      have honly : ∀ {o'}, (.answer o : EvidenceAnswer VerificationObservation) = .answer o' → o = o' := by
        intro o' ho'
        cases ho'
        rfl
      cases hmatched : o.isMatched with
      | true  =>
        have hfields : verificationFieldsOk .verified (some request.verificationToolId) none (some o.evidenceRef)
            (some o.observedAt) = true := rfl
        have hmade := VerificationResult.make_ok result.identity result.businessReference hfields
        refine ⟨_, hmade, rfl, ⟨fun _ => ⟨o, rfl, hbound, hmatched⟩, fun _ => rfl⟩, ⟨fun hs => (by cases hs), ?_⟩,
          ⟨fun hs => (by cases hs), fun hn => (hn ⟨o, rfl, hbound⟩).elim⟩⟩
        rintro ⟨o', ho', -, hm⟩
        rw [← honly ho', hmatched] at hm
        cases hm
      | false =>
        have hreason : o.reasonCode.isSome = true := by rw [o.reasoned, hmatched]; rfl
        have hfields : verificationFieldsOk .failed (some request.verificationToolId) o.reasonCode (some o.evidenceRef)
            (some o.observedAt) = true := hreason
        have hmade := VerificationResult.make_ok result.identity result.businessReference hfields
        refine ⟨_, hmade, rfl, ⟨fun hs => (by cases hs), ?_⟩, ⟨fun _ => ⟨o, rfl, hbound, hmatched⟩, fun _ => rfl⟩,
          ⟨fun hs => (by cases hs), fun hn => (hn ⟨o, rfl, hbound⟩).elim⟩⟩
        rintro ⟨o', ho', -, hm⟩
        rw [← honly ho', hmatched] at hm
        cases hm
    · have hyes : o.requestHash.text ≠ request.requestHash ∨ o.businessReference ≠ result.businessReference := by
        by_contra hcon
        rw [not_or, not_not, not_not] at hcon
        exact hbound hcon
      rw [if_pos hyes]
      refine hunknown (.ofPlain "VERIFICATION_BINDING_MISMATCH") ?_
      rintro ⟨o', ho', hb⟩
      cases ho'
      exact hbound hb

/-- **After a commit every behaviour of a port is answered about that commit, exactly when the contract's verification
texts hold no credential**; and an observation is bound to one request, unless two texts have one hash. -/
theorem verify_answers_iff (result : WriteResultEnvelope) (contract : ToolContract) (ctx : Context)
    (h : validateCommitted result contract ctx = .ok ()) :
    ((∀ port : VerificationPort, port.OnlyExceptions →
        ∃ v, verify result contract ctx (some port) = .ok v ∧ CommitAnswer result contract port v) ↔
      contract.VerificationClean) ∧
    ∀ (o : VerificationObservation) (result' result'' : WriteResultEnvelope) (request request' : VerificationRequest),
      o.BoundTo result' request → o.BoundTo result'' request' →
        request = request' ∨
          request.hashed ≠ request'.hashed ∧ Platform.sha256 request.hashed = Platform.sha256 request'.hashed := by
  refine ⟨?_, ?_⟩
  · cases hmethod : contract.verificationMethod with
    | none      =>
      have hclean : contract.VerificationClean := fun t v hv => by
        rw [hmethod] at hv
        cases hv
      refine iff_of_true (fun port _ => ?_) hclean
      have hfields : verificationFieldsOk .notRequested none none none none = true := rfl
      have hmade := VerificationResult.make_ok result.identity result.businessReference hfields
      refine ⟨⟨result.identity, .notRequested, result.businessReference, none, none, none, none, hfields⟩, ?_, rfl, rfl,
        fun _ => rfl, fun t v hv => ?_⟩
      · unfold verify
        rw [Stateful.bind_ok h, hmethod]
        exact hmade
      · rw [hmethod] at hv
        cases hv
    | some pair =>
      obtain ⟨toolId, verification⟩ := pair
      have hverify : ∀ port, verify result contract ctx (some port) = (verificationRequest result toolId verification >>=
          fun request => settleVerification result request (port request)) := by
        intro port
        unfold verify
        rw [Stateful.bind_ok h, hmethod]
      rw [← verificationRequest_isOk_iff result hmethod]
      constructor
      · -- one port that raises shows that the request is built
        intro hall
        obtain ⟨v, hv, -⟩ := hall (fun _ => .raises .timeout) (fun _ e he => by cases he; rfl)
        rw [hverify] at hv
        obtain ⟨request, hrequest, -⟩ := Stateful.bind_eq_ok hv
        rw [hrequest]
        rfl
      · intro hok port hport
        cases hrequest : verificationRequest result toolId verification with
        | error e    => rw [hrequest] at hok; cases hok
        | ok request =>
          obtain ⟨v, hv, hidentity, hstatus⟩ := settleVerification_ok result request (hport request)
          refine ⟨v, ?_, hidentity, rfl, fun hnone => ?_, fun t w hw => ?_⟩
          · rw [hverify, Stateful.bind_ok hrequest]
            exact hv
          · rw [hmethod] at hnone
            cases hnone
          · rw [hmethod] at hw
            cases hw
            exact ⟨request, hrequest, hstatus⟩
  · intro o result' result'' request request' hbound hbound'
    by_cases hhashed : request.hashed = request'.hashed
    · exact .inl (VerificationRequest.hashed_inj hhashed)
    · refine .inr ⟨hhashed, ?_⟩
      have hdigests : sha256Of request.hashed = sha256Of request'.hashed := hbound.1.symm.trans hbound'.1
      unfold sha256Of at hdigests
      have hlists := congrArg String.toList hdigests
      rw [String.toList_append, String.toList_append] at hlists
      exact String.toList_injective (List.append_cancel_left hlists)

/-! ## A draft that is read back -/

section Draft

def readingTool : RequiredText := .ofPlain "voucher.read"

omit [Platform] in
theorem hinted_texts : Text.isBlank "TOOL_AND_TENANT" = false ∧ Text.isBlank "P30D" = false ∧
    Text.isBlank "RETURN_ORIGINAL_RESULT" = false ∧ Text.isBlank "IDEMPOTENCY_CONFLICT" = false := by decide

omit [Platform] in
theorem hinted_tool : ∀ s, some "voucher.read" = some s → Text.isBlank s = false := by
  rintro _ ⟨⟩
  decide

omit [Platform] in
theorem hinted_hint {hint : String} (h : Text.isBlank hint = false) : ∀ s, some hint = some s → Text.isBlank s = false := by
  rintro _ ⟨⟩
  exact h

omit [Platform] in
theorem hinted_declared (hint : String) :
    (some "voucher.read").isSome ∨ (none : Option TypeRef).isSome ∨ (some hint).isSome := .inl rfl

/-- What is said of the draft, which `voucher.read` reads back. -/
def hintedSemantics (hint : String) (h : Text.isBlank hint = false) : WriteSemantics where
  idempotency  := ⟨"TOOL_AND_TENANT", "P30D", "RETURN_ORIGINAL_RESULT", "IDEMPOTENCY_CONFLICT", hinted_texts⟩
  verification := some ⟨some "voucher.read", none, some hint, hinted_tool, hinted_hint h, hinted_declared hint⟩

omit [Platform] in
theorem hinted_writes (hint : String) (h : Text.isBlank hint = false) : "WRITE" = "WRITE" →
    (some OperationKind.createDraft).isSome ∧ (some RiskLevel.r3).isSome ∧ (some (hintedSemantics hint h)).isSome :=
  fun _ => ⟨rfl, rfl, rfl⟩

omit [Platform] in
theorem hinted_reads (hint : String) (h : Text.isBlank hint = false) : "WRITE" ≠ "WRITE" →
    (some OperationKind.createDraft) = none ∧ some (hintedSemantics hint h) = none := fun hne => absurd rfl hne

/-- The contract of the draft with a hint for the tool that reads it back. -/
def hintedContract (hint : String) (h : Text.isBlank hint = false) : ToolContract :=
  { Reservations.draftToolContract with
    writeSemantics := some (hintedSemantics hint h)
    writeDeclared  := hinted_writes hint h
    writeOnly      := hinted_reads hint h }

/-- The draft is committed. -/
def committedDraft : WriteResultEnvelope where
  identity              := .fromRequest (sentDraft draftNode 100)
  value                 := .ofComplete (.str "voucher-1") STRING .internal []
  businessReference     := .ofPlain "voucher-1"
  providerTransactionId := none
  committedAt           := draftAfternoon
  evidenceRefs          := noRefs

theorem committedDraft_valid (hint : String) (h : Text.isBlank hint = false) :
    validateCommitted committedDraft (hintedContract hint h) (reservedDraft draftNode 100) = .ok () := by
  have hkey : (reservedDraft draftNode 100).idempotency.keysByWriteNode.get? committedDraft.identity.nodeId.text =
      some committedDraft.identity.idempotencyKey.text := Dict.get?_set_self ..
  have hpayload : (reservedDraft draftNode 100).idempotency.payloadHashesByWriteNode.get?
      committedDraft.identity.nodeId.text = some committedDraft.identity.payloadHash.text := Dict.get?_set_self ..
  have hcontract : ¬ ((hintedContract hint h).capability ≠ "WRITE" ∨ (hintedContract hint h).writeSemantics.isNone ∨
      (hintedContract hint h).toolId ≠ committedDraft.identity.toolId.text) := by
    rintro (hc | hc | hc)
    · exact hc rfl
    · cases hc
    · exact hc rfl
  have hcontext : ¬ ((reservedDraft draftNode 100).tenantId ≠ committedDraft.identity.tenantId.text ∨
      (reservedDraft draftNode 100).request.businessOperationId ≠ some committedDraft.identity.businessOperationId) := by
    rintro (hc | hc) <;> exact hc rfl
  unfold validateCommitted
  rw [if_neg hcontract, if_neg hcontext, hkey, hpayload, if_neg (by simp)]
  rfl

end Draft

end Verification

section Ascii

attribute [local instance] Platform.ascii

/-- **A hint of the contract makes every verification of the committed draft raise.** -/
theorem committedDraft_hint_raises :
    validateCommitted committedDraft (hintedContract "token=abc" (by decide)) (reservedDraft draftNode 100) = .ok () ∧
    ∀ port, verify committedDraft (hintedContract "token=abc" (by decide)) (reservedDraft draftNode 100) (some port) =
      .error (.value "credential material is forbidden in consistency_hint at $") := by
  have hhint : ¬ isRequiredText "token=abc" = true := by decide +kernel
  have hrefused : verificationOption (some "token=abc") "consistency_hint" =
      .error (.value "credential material is forbidden in consistency_hint at $") := by
    show (verificationText "token=abc" "consistency_hint").map some = _
    unfold verificationText
    rw [dif_neg hhint]
    rfl
  refine ⟨committedDraft_valid _ _, fun port => ?_⟩
  have hmethod : (hintedContract "token=abc" (by decide)).verificationMethod = some ("voucher.read", _) := rfl
  have htool : verificationText "voucher.read" "verification_tool_id" = .ok readingTool := verificationText_ok readingTool _
  unfold verify
  rw [Stateful.bind_ok (committedDraft_valid _ _), hmethod]
  show (VerificationRequest.make _ "voucher.read" (RequiredText.text _) (Option.map _ none) none (some "token=abc") >>= _) = _
  unfold VerificationRequest.make
  rw [Stateful.bind_ok htool, verificationText_ok, hrefused]
  rfl

theorem committedDraft_answered :
    ∃ v, verify committedDraft (hintedContract "EVENTUAL" (by decide)) (reservedDraft draftNode 100)
        (some (fun _ => .raises .timeout)) = .ok v ∧
      CommitAnswer committedDraft (hintedContract "EVENTUAL" (by decide)) (fun _ => .raises .timeout) v := by
  refine (verify_answers_iff committedDraft (hintedContract "EVENTUAL" (by decide)) (reservedDraft draftNode 100)
    (committedDraft_valid _ _)).1.2 ?_ _ (fun _ e he => by cases he; rfl)
  intro toolId verification hmethod
  cases hmethod
  exact ⟨by decide +kernel, fun hint hhint => by cases hhint; decide +kernel⟩

end Ascii
end Nsl
