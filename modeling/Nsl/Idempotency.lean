import Mathlib.Logic.Function.Basic
import Mathlib.Logic.Relation
import Nsl.Base.Run
import Nsl.WriteGuard
/-!
# Idempotency — one key and one payload for each WRITE

`idempotency.py`: the key of a WRITE, the guarantee its provider gives and `IdempotencyCoordinator.reserve`. A call of
`reserve` reads the context, awaits the evidence port and then writes the context; other calls on the same context go on
while it waits.
-/
namespace Nsl

section Idempotency

variable [Platform]

/-! ## Keys -/

/-- The key of a tenant, a business operation and a node. -/
def idempotencyKeyOf (tenantId businessOperationId nodeId : String) : IdempotencyKey :=
  .ofText ("NSL-IDEMPOTENCY-KEY-V1\x00" ++ Json.dumps (.obj
    [("tenant_id", .str tenantId), ("business_operation_id", .str businessOperationId), ("write_node_id", .str nodeId)]))

/-- `IdempotencyKeyFactory.create` -/
def createKey (tenantId businessOperationId nodeId : RequiredText) : IdempotencyKey :=
  idempotencyKeyOf tenantId.text businessOperationId.text nodeId.text

structure IdempotencyIdentity where
  tenantId            : RequiredText
  businessOperationId : RequiredText
  writeNodeId         : RequiredText
  idempotencyKey      : IdempotencyKey
  payloadHash         : Digest
  deriving DecidableEq

/-- `idempotency_identity` -/
def idempotencyIdentity (intent : WriteIntent) : IdempotencyIdentity :=
  ⟨intent.tenantId, intent.businessOperationId, intent.nodeId,
    createKey intent.tenantId intent.businessOperationId intent.nodeId, intent.payloadHash⟩

/-! ## The guarantee of the provider -/

structure ProviderIdempotencyEvidence where
  toolId                    : RequiredText
  contractHash              : Digest
  retentionPolicy           : RequiredText
  providerGuaranteeRef      : RequiredText
  verifiedAt                : UtcInstant
  guaranteedUntil           : UtcInstant
  durableDuplicateGuarantee : Bool
  endsLater                 : verifiedAt.stamp < guaranteedUntil.stamp

/-- `_utc_instant` of `idempotency.py` -/
def idempotencyUtc (t : Calendar.DateTime) (name : String) : Except Exn UtcInstant := writeGuardUtc t name

/-- What the contract of a WRITE has to promise. -/
def durableSemantics (s : IdempotencySemantics) : Bool :=
  s.scope = "TOOL_AND_TENANT" && s.duplicateBehavior = "RETURN_ORIGINAL_RESULT" &&
    s.payloadConflictBehavior = "IDEMPOTENCY_CONFLICT"

/-- The checks of `IdempotencyRetentionValidator.validate` before those of the contract's semantics. -/
def retentionBindings (intent : WriteIntent) (contract : ToolContract) (evidence : ProviderIdempotencyEvidence)
    (current horizon : UtcInstant) : List (Bool × String) :=
  [(horizon.stamp ≤ current.stamp, "required idempotency horizon must end after now"),
   (contract.toolId ≠ intent.toolId.text || evidence.toolId ≠ intent.toolId, "idempotency evidence tool binding mismatch"),
   (evidence.contractHash.text ≠ contract.contractHash, "idempotency evidence contract binding mismatch")]

/-- And those that follow. -/
def retentionGuarantees (semantics : WriteSemantics) (evidence : ProviderIdempotencyEvidence)
    (current horizon : UtcInstant) : List (Bool × String) :=
  [(!durableSemantics semantics.idempotency, "Tool Contract lacks the required durable duplicate semantics"),
   (evidence.retentionPolicy.text ≠ semantics.idempotency.retention, "idempotency retention policy binding mismatch"),
   (!evidence.durableDuplicateGuarantee, "provider durable duplicate guarantee is absent"),
   (current.stamp < evidence.verifiedAt.stamp, "provider idempotency evidence is from the future"),
   (evidence.guaranteedUntil.stamp ≤ current.stamp, "provider idempotency guarantee has expired"),
   (evidence.guaranteedUntil.stamp < horizon.stamp, "provider idempotency guarantee does not cover recovery horizon")]

/-- The first check that fails raises. -/
def firstRefusal (checks : List (Bool × String)) : Except Exn Unit :=
  match checks.find? (·.1) with
  | some (_, message) => .error (.value message)
  | none              => .ok ()

omit [Platform] in
theorem firstRefusal_none {checks : List (Bool × String)} (h : ∀ c ∈ checks, c.1 = false) : firstRefusal checks = .ok () := by
  have hfind : checks.find? (·.1) = none := List.find?_eq_none.2 (fun c hc => by rw [h c hc]; decide)
  unfold firstRefusal
  rw [hfind]

/-- The semantics of a contract that is one of a WRITE. -/
def writeSemanticsOf (contract : ToolContract) : Except Exn WriteSemantics :=
  match contract.writeSemantics with
  | some semantics =>
    if contract.capability = "WRITE" then .ok semantics
    else .error (.value "idempotency requires a WRITE Tool Contract")
  | none => .error (.value "idempotency requires a WRITE Tool Contract")

/-- `IdempotencyRetentionValidator.validate` -/
def validateRetention (intent : WriteIntent) (contract : ToolContract) (evidence : ProviderIdempotencyEvidence)
    (now requiredUntil : Calendar.DateTime) : Except Exn ProviderIdempotencyEvidence := do
  let current ← idempotencyUtc now "now"
  let horizon ← idempotencyUtc requiredUntil "required_until"
  firstRefusal (retentionBindings intent contract evidence current horizon)
  let semantics ← writeSemanticsOf contract
  firstRefusal (retentionGuarantees semantics evidence current horizon)
  return evidence

/-- What a guarantee that is accepted has passed, put together. -/
theorem validateRetention_of {intent : WriteIntent} {contract : ToolContract} {evidence : ProviderIdempotencyEvidence}
    {current horizon : UtcInstant} {semantics : WriteSemantics}
    (hbindings : ∀ c ∈ retentionBindings intent contract evidence current horizon, c.1 = false)
    (hcapability : contract.capability = "WRITE") (hsemantics : contract.writeSemantics = some semantics)
    (hguarantees : ∀ c ∈ retentionGuarantees semantics evidence current horizon, c.1 = false) :
    validateRetention intent contract evidence current.time horizon.time = .ok evidence := by
  have htime : ∀ (t : UtcInstant) name, idempotencyUtc t.time name = .ok t := fun t name => by
    unfold idempotencyUtc writeGuardUtc
    exact dif_pos t.ok
  have hsemantics' : writeSemanticsOf contract = .ok semantics := by
    unfold writeSemanticsOf
    rw [hsemantics]
    exact if_pos hcapability
  unfold validateRetention
  rw [Stateful.bind_ok (htime current _), Stateful.bind_ok (htime horizon _), Stateful.bind_ok (firstRefusal_none hbindings),
    Stateful.bind_ok hsemantics', Stateful.bind_ok (firstRefusal_none hguarantees)]
  rfl

/-! ## Reservations -/

inductive IdempotencyDisposition | created | reused | conflict
  deriving DecidableEq, Repr

structure IdempotencyEvidenceRecord where
  tenantId             : RequiredText
  businessOperationId  : RequiredText
  writeNodeId          : RequiredText
  toolId               : RequiredText
  contractHash         : Digest
  idempotencyKey       : IdempotencyKey
  payloadHash          : Digest
  providerGuaranteeRef : RequiredText
  retainedUntil        : UtcInstant
  deriving DecidableEq

structure IdempotencyReservation where
  disposition       : IdempotencyDisposition
  evidence          : IdempotencyEvidenceRecord
  businessResultRef : Option RequiredText
  noResult          : disposition = .conflict → businessResultRef = none
  deriving DecidableEq

/-- A reservation of new evidence. -/
def IdempotencyReservation.created (evidence : IdempotencyEvidenceRecord) : IdempotencyReservation where
  disposition       := .created
  evidence          := evidence
  businessResultRef := none
  noResult _        := rfl

/-- The arguments of one call of `reserve`. -/
structure ReserveCall where
  intent           : WriteIntent
  contract         : ToolContract
  providerEvidence : ProviderIdempotencyEvidence
  now              : Calendar.DateTime
  requiredUntil    : Calendar.DateTime

/-- The contract hash of a record, which is that of the contract. -/
def ToolContract.contractDigest (c : ToolContract) : Digest := .ofText (Json.dumps c.toCanonicalData)

/-- What the context has against the identity of a call. -/
def stateRefusal (state : IdempotencyState) (identity : IdempotencyIdentity) : Except Exn Unit :=
  if (state.keysByWriteNode.get? identity.writeNodeId.text).any (· ≠ identity.idempotencyKey.text) then
    .error (.value "checkpoint idempotency key does not match semantic identity")
  else if (state.payloadHashesByWriteNode.get? identity.writeNodeId.text).any (· ≠ identity.payloadHash.text) then
    .error (.value "idempotency key is already bound to a different payload")
  else .ok ()

/-- `reserve` up to its await: the record it sends to the port. A key the context had before is that of the identity. -/
def reserveRecord (ctx : Context) (call : ReserveCall) : Except Exn IdempotencyEvidenceRecord := do
  let intent := call.intent
  if ctx.tenantId ≠ intent.tenantId.text then throw (.value "idempotency tenant binding mismatch")
  if ctx.request.businessOperationId = none then throw (.value "execution context lacks a business operation id")
  if ctx.request.businessOperationId ≠ some intent.businessOperationId then
    throw (.value "idempotency business operation binding mismatch")
  let evidence ← validateRetention intent call.contract call.providerEvidence call.now call.requiredUntil
  let identity := idempotencyIdentity intent
  stateRefusal ctx.idempotency identity
  return ⟨intent.tenantId, intent.businessOperationId, intent.nodeId, intent.toolId, call.contract.contractDigest,
    identity.idempotencyKey, intent.payloadHash, evidence.providerGuaranteeRef, evidence.guaranteedUntil⟩

/-- What a port may give back: an object of the class it promises, any other one, or an exception. -/
inductive EvidenceAnswer (α : Type)
  | answer (a : α)
  | other
  | raises (e : Exn)

/-- What `reserve` writes when the port agreed. -/
def Context.reserved (ctx : Context) (record : IdempotencyEvidenceRecord) : Context :=
  { ctx with idempotency :=
    { keysByWriteNode          := ctx.idempotency.keysByWriteNode.set record.writeNodeId.text record.idempotencyKey.text
      payloadHashesByWriteNode :=
        ctx.idempotency.payloadHashesByWriteNode.set record.writeNodeId.text record.payloadHash.text } }

/-- `reserve` from its await on. -/
def settleReservation (ctx : Context) (record : IdempotencyEvidenceRecord) :
    EvidenceAnswer IdempotencyReservation → Except Exn (IdempotencyReservation × Context)
  | .raises e => .error e
  | .other    => .error (.value "idempotency evidence port returned an invalid reservation")
  | .answer r =>
    if r.evidence ≠ record then .error (.value "idempotency evidence port returned mismatched evidence")
    else if r.disposition = .conflict then .error (.value "idempotency key is already bound to a different payload")
    else .ok (r, ctx.reserved record)

end Idempotency
end Nsl
