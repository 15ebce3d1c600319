import Nsl.WriteOutcomes
/-!
# Write intents — what a WRITE would do, by its hashes

`write_intent.py`: the canonical text of the arguments of a WRITE, the payload hash made of it and the intent hash that
binds the payload to a skill, a node and a tool. An intent whose hashes are not those of its arguments cannot be built.
-/
namespace Nsl

/-! ## Canonical arguments -/

/-- `CanonicalWriteValueError` -/
def canonicalWriteError (message path : String) : Exn := .value (message ++ " at " ++ path)

mutual
/-- `_encode_write_value` -/
def encodeWriteValue (path : String) : Value → Except Exn Json
  | .null        => .ok .null
  | .bool b      => .ok (.bool b)
  | .int i       => .ok (.int i)
  | .str s       => .ok (.str s)
  | .money m     =>
    .ok (.obj [("$type", .str "Money"), ("amount", .str m.amount.formatF), ("currency", .str m.currency)])
  | .decimal d   =>
    if d.isFinite then .ok (.obj [("$type", .str "Decimal"), ("value", .str d.formatF)])
    else .error (canonicalWriteError "WRITE Decimal must be finite" path)
  | .datetime t  =>
    if t.offset.isSome then .ok (.obj [("$type", .str "DateTime"), ("value", .str t.isoformat)])
    else .error (canonicalWriteError "WRITE DateTime must be timezone-aware" path)
  | .date d      => .ok (.obj [("$type", .str "Date"), ("value", .str d.isoformat)])
  | .dict items  => (encodeWriteFields path items).map .obj
  | .list items  => (encodeWriteItems path 0 items).map .arr
  | .tuple items => (encodeWriteItems path 0 items).map .arr
  | .float _     => .error (canonicalWriteError "unsupported WRITE value type" (path ++ ": float"))
  | .foreign l   => .error (canonicalWriteError "unsupported WRITE value type" (path ++ ": " ++ l))
def encodeWriteItems (path : String) : Nat → List Value → Except Exn (List Json)
  | _, []      => .ok []
  | n, v :: vs => do
    return (← encodeWriteValue (path ++ "[" ++ toString n ++ "]") v) :: (← encodeWriteItems path (n + 1) vs)
def encodeWriteFields (path : String) : List (String × Value) → Except Exn (List (String × Json))
  | []           => .ok []
  | (k, v) :: vs => do return (k, ← encodeWriteValue (path ++ "." ++ k) v) :: (← encodeWriteFields path vs)
end

/-- `canonical_write_arguments`: the envelopes of the arguments are no part of the payload. -/
def canonicalWriteArguments (arguments : Dict ValueEnvelope) : Except Exn String :=
  (encodeWriteFields "$" (arguments.entries.map (fun (k, e) => (k, e.value)))).map (fun items => Json.dumps (.obj items))

mutual
/-- `_freeze_value` -/
def freezeValue : Value → Value
  | .dict items  => .dict (freezeFields items)
  | .list items  => .tuple (freezeItems items)
  | .tuple items => .tuple (freezeItems items)
  | v            => v
def freezeItems : List Value → List Value
  | []      => []
  | v :: vs => freezeValue v :: freezeItems vs
def freezeFields : List (String × Value) → List (String × Value)
  | []           => []
  | (k, v) :: vs => (k, freezeValue v) :: freezeFields vs
end

theorem freezeArguments_once {entries : List (String × ValueEnvelope)} (h : KeysOnce entries) :
    KeysOnce (entries.map (fun (k, e) => (k, { e with value := freezeValue e.value }))) := by
  unfold KeysOnce at *
  rw [List.map_map]
  exact h

/-- `_freeze_arguments` -/
def freezeArguments (arguments : Dict ValueEnvelope) : Dict ValueEnvelope :=
  ⟨arguments.entries.map (fun (k, e) => (k, { e with value := freezeValue e.value })), freezeArguments_once arguments.once⟩

mutual
/-- **A frozen value has the canonical text of the value it was made of.** -/
theorem encodeWriteValue_freeze (path : String) : ∀ v, encodeWriteValue path (freezeValue v) = encodeWriteValue path v
  | .dict items  => by
    unfold freezeValue encodeWriteValue
    rw [encodeWriteFields_freeze path items]
  | .list items  => by
    unfold freezeValue encodeWriteValue
    rw [encodeWriteItems_freeze path 0 items]
  | .tuple items => by
    unfold freezeValue encodeWriteValue
    rw [encodeWriteItems_freeze path 0 items]
  | .null | .bool _ | .int _ | .float _ | .str _ | .decimal _ | .money _ | .date _ | .datetime _ | .foreign _ => rfl
theorem encodeWriteItems_freeze (path : String) : ∀ n vs, encodeWriteItems path n (freezeItems vs) = encodeWriteItems path n vs
  | _, []      => rfl
  | n, v :: vs => by
    unfold freezeItems encodeWriteItems
    rw [encodeWriteValue_freeze, encodeWriteItems_freeze path (n + 1) vs]
theorem encodeWriteFields_freeze (path : String) : ∀ vs, encodeWriteFields path (freezeFields vs) = encodeWriteFields path vs
  | []           => rfl
  | (k, v) :: vs => by
    unfold freezeFields encodeWriteFields
    rw [encodeWriteValue_freeze, encodeWriteFields_freeze path vs]
end

theorem freezeFields_eq : ∀ (entries : List (String × ValueEnvelope)),
    entries.map (fun (k, e) => (k, freezeValue e.value)) = freezeFields (entries.map (fun (k, e) => (k, e.value)))
  | []           => rfl
  | (k, e) :: es => by
    simp only [List.map_cons, freezeFields]
    rw [freezeFields_eq es]

theorem canonicalWriteArguments_freeze (arguments : Dict ValueEnvelope) :
    canonicalWriteArguments (freezeArguments arguments) = canonicalWriteArguments arguments := by
  have hvalues : (freezeArguments arguments).entries.map (fun (k, e) => (k, e.value)) =
      freezeFields (arguments.entries.map (fun (k, e) => (k, e.value))) := by
    unfold freezeArguments
    rw [List.map_map]
    exact freezeFields_eq arguments.entries
  unfold canonicalWriteArguments
  rw [hvalues, encodeWriteFields_freeze]

/-! ## Hashes -/

section Intents

variable [Platform]

/-- `compute_payload_hash` -/
def computePayloadHash (arguments : Dict ValueEnvelope) : Except Exn Digest :=
  (canonicalWriteArguments arguments).map (fun text => Digest.ofText ("NSL-WRITE-PAYLOAD-V1\x00" ++ text))

theorem computePayloadHash_freeze (arguments : Dict ValueEnvelope) :
    computePayloadHash (freezeArguments arguments) = computePayloadHash arguments := by
  unfold computePayloadHash
  rw [canonicalWriteArguments_freeze]

/-- `compute_write_intent_hash` -/
def computeWriteIntentHash (skillSemanticHash : Digest) (writeNodeId toolId : RequiredText) (payloadHash : Digest) : Digest :=
  Digest.ofText ("NSL-WRITE-INTENT-V1\x00" ++ Json.dumps (.obj
    [("skill_semantic_hash", .str skillSemanticHash.text), ("write_node_id", .str writeNodeId.text),
     ("tool_id", .str toolId.text), ("payload_hash", .str payloadHash.text)]))

/-! ## Intents -/

/-- `WriteIntent` with what `__post_init__` asks of it. -/
structure WriteIntent where
  tenantId            : RequiredText
  businessOperationId : RequiredText
  nodeId              : RequiredText
  toolRef             : RequiredText
  toolId              : RequiredText
  approvalId          : RequiredText
  skillSemanticHash   : Digest
  canonicalArguments  : Dict ValueEnvelope
  payloadHash         : Digest
  writeIntentHash     : Digest
  payload             : computePayloadHash canonicalArguments = .ok payloadHash
  intent              : writeIntentHash = computeWriteIntentHash skillSemanticHash nodeId toolId payloadHash

end Intents
end Nsl
