import Nsl.Base.Sha256
import Nsl.DataProtection
/-!
# Security — principals and the default-deny authorizer

`security.py` and the hash every identity in the source is made with. SHA-256 and the Unicode word class are read off a
`Platform`: what is proved holds for every one.
-/
namespace Nsl

/-- What the standard library gives the source. -/
class Platform where
  /-- `sha256(text.encode("utf-8")).hexdigest()` -/
  sha256 : String → String
  /-- `\w` -/
  word : Char → Bool
  sha256_length : ∀ text, (sha256 text).toList.length = 64
  sha256_digits : ∀ text, ∀ c ∈ (sha256 text).toList, c ∈ "0123456789abcdef".toList

/-- The platform of ASCII texts: SHA-256 itself and the word class below U+0080. -/
@[reducible] def Platform.ascii : Platform where
  sha256        := Sha256.hexdigest
  word c        := c.isAlphanum || c = '_'
  sha256_length := Sha256.hexdigest_length
  sha256_digits := Sha256.hexdigest_digits

variable [Platform]

/-- The hash of a text with its label. -/
def sha256Of (text : String) : String := "sha256:" ++ Platform.sha256 text

/-- `asdict(value) if is_dataclass(value) else value` -/
def hashable : Value → Value
  | .money m => .dict [("amount", .decimal m.amount), ("currency", .str m.currency)]
  | v        => v

/-- `value_hash` -/
def valueHash (value : Value) : Except Exn String := (canonicalJson (encodeValue (hashable value))).map sha256Of

theorem valueHash_ok {v : Value} (h : v.isJson = true) : ∃ d, valueHash v = .ok d := by
  have hh : hashable v = v := by
    cases v with
    | money m => cases h
    | _       => rfl
  have hj := toJson_isOk (encodeValue v)
  rw [encodeValue_isJson v h] at hj
  unfold valueHash canonicalJson
  rw [hh]
  cases ht : toJson (encodeValue v) with
  | error e => rw [ht] at hj; cases hj
  | ok j    => exact ⟨_, rfl⟩

def redact (text : String) (sensitiveValues : List String) : String := redactText Platform.word text sensitiveValues

/-! ## Checked texts -/

/-- What `_required_text` and `_required_identity` let pass: text that is there and holds no credential. -/
def isRequiredText (s : String) : Bool := !Text.isBlank s && (findCredentialPath Platform.word "$" (.str s)).isNone

structure RequiredText where
  text : String
  ok   : isRequiredText text = true
  deriving DecidableEq

theorem isBlank_of_isRequiredText {s : String} (h : isRequiredText s = true) : Text.isBlank s = false := by
  unfold isRequiredText at h
  simp only [Bool.and_eq_true, Bool.not_eq_true'] at h
  exact h.1

theorem isRequiredText_of_redact {s : String} (h : redactText Platform.word s [] = s) (hblank : Text.isBlank s = false) :
    isRequiredText s = true := by
  unfold isRequiredText findCredentialPath
  rw [h, if_pos rfl, hblank]
  rfl

theorem isRequiredText_plain {s : String} (h : isPlainText s = true) (hblank : Text.isBlank s = false) :
    isRequiredText s = true := isRequiredText_of_redact (redactText_plain Platform.word h) hblank

/-- A plain text that is there. -/
def RequiredText.ofPlain (s : String) (h : isPlainText s = true := by decide +kernel)
    (hblank : Text.isBlank s = false := by decide) : RequiredText := ⟨s, isRequiredText_plain h hblank⟩

/-- `_required_identity`, `_required_text` and `_required_evidence_text` -/
def requiredIdentity (text name : String) : Except Exn RequiredText :=
  if h : isRequiredText text = true then .ok ⟨text, h⟩
  else if Text.isBlank text then .error (.value (name ++ " must be a non-empty string"))
  else .error (.value ("credential material is forbidden in " ++ name ++ " at $"))

theorem requiredIdentity_text (t : RequiredText) (name : String) : requiredIdentity t.text name = .ok t := dif_pos t.ok

theorem requiredIdentity_isOk_iff (text name : String) :
    (requiredIdentity text name).isOk = true ↔ isRequiredText text = true := by
  unfold requiredIdentity
  split
  · rename_i h
    exact ⟨fun _ => h, fun _ => rfl⟩
  · rename_i h
    split
    · exact ⟨fun hok => (by cases hok), fun hok => absurd hok h⟩
    · exact ⟨fun hok => (by cases hok), fun hok => absurd hok h⟩

def isLowerHex (cs : List Char) : Bool := cs.all (fun c => "0123456789abcdef".toList.contains c)

/-- What `_sha256_text` asks beyond that. -/
def isDigest (s : String) : Bool :=
  s.toList.take 7 = "sha256:".toList && s.length = 71 && isLowerHex (s.toList.drop 7)

@[ext] structure Digest where
  text : String
  ok   : isRequiredText text = true ∧ isDigest text = true
  deriving DecidableEq

def hexAlphabet : List Char := "0123456789abcdef".toList

/-- The characters of a digest with the labels the source gives it. -/
def digestAlphabet : List Char := "idem:sha256:".toList ++ hexAlphabet

theorem digestAlphabet_harmless : harmless Platform.word digestAlphabet = true := rfl

/-- **Every hash of the source is a digest.** -/
theorem sha256Of_digest (text : String) : isRequiredText (sha256Of text) = true ∧ isDigest (sha256Of text) = true := by
  have hlist : (sha256Of text).toList = "sha256:".toList ++ (Platform.sha256 text).toList := by
    unfold sha256Of
    exact String.toList_append
  constructor
  · refine isRequiredText_of_redact (redactText_harmless Platform.word digestAlphabet_harmless (fun c hc => ?_)) ?_
    · rw [hlist] at hc
      rcases List.mem_append.1 hc with hc | hc
      · have hlabel : "sha256:".toList.all digestAlphabet.contains = true := rfl
        exact List.contains_iff_mem.1 (List.all_eq_true.1 hlabel c hc)
      · exact List.mem_append_right _ (Platform.sha256_digits text c hc)
    · unfold Text.isBlank
      rw [hlist]
      rfl
  · have hlength : (sha256Of text).length = 71 := by
      rw [← String.length_toList, hlist, List.length_append, Platform.sha256_length]
      rfl
    have hdigits : isLowerHex (Platform.sha256 text).toList = true := by
      refine List.all_eq_true.2 (fun c hc => ?_)
      simpa using Platform.sha256_digits text c hc
    unfold isDigest
    rw [hlist, hlength]
    exact Bool.and_eq_true_iff.2 ⟨Bool.and_eq_true_iff.2 ⟨decide_eq_true rfl, decide_eq_true rfl⟩, hdigits⟩

/-- The digest of a text. -/
def Digest.ofText (text : String) : Digest := ⟨sha256Of text, sha256Of_digest text⟩

def isIdempotencyKey (s : String) : Bool := s.toList.take 12 = "idem:sha256:".toList && s.length = 76

structure IdempotencyKey where
  text : String
  ok   : isRequiredText text = true ∧ isIdempotencyKey text = true
  deriving DecidableEq

/-- The key of a text. -/
def IdempotencyKey.ofText (text : String) : IdempotencyKey where
  text := "idem:" ++ sha256Of text
  ok   := by
    have hlist : ("idem:" ++ sha256Of text).toList = "idem:sha256:".toList ++ (Platform.sha256 text).toList := by
      unfold sha256Of
      rw [String.toList_append, String.toList_append, ← List.append_assoc]
      rfl
    constructor
    · refine isRequiredText_of_redact (redactText_harmless Platform.word digestAlphabet_harmless (fun c hc => ?_)) ?_
      · rw [hlist] at hc
        rcases List.mem_append.1 hc with hc | hc
        · exact List.mem_append_left _ hc
        · exact List.mem_append_right _ (Platform.sha256_digits text c hc)
      · unfold Text.isBlank
        rw [hlist]
        rfl
    · have hlength : ("idem:" ++ sha256Of text).length = 76 := by
        rw [← String.length_toList, hlist, List.length_append, Platform.sha256_length]
        rfl
      unfold isIdempotencyKey
      rw [hlist, hlength]
      exact Bool.and_eq_true_iff.2 ⟨decide_eq_true rfl, decide_eq_true rfl⟩

/-- What `_utc_instant` lets pass. -/
structure UtcInstant where
  time : Calendar.DateTime
  ok   : time.isUtc = true
  deriving DecidableEq

/-! ## Principals -/

inductive PrincipalVerification | unverified | verified
  deriving DecidableEq, Repr

instance : StrEnum PrincipalVerification where
  members  := [.unverified, .verified]
  value    := fun | .unverified => "UNVERIFIED" | .verified => "VERIFIED"
  complete := by intro a; cases a <;> decide
  distinct := by intro a b; cases a <;> cases b <;> decide

inductive RuntimeEnvironment | production | development
  deriving DecidableEq, Repr

structure ExecutionPrincipal where
  tenantId       : String
  subjectId      : String
  actorType      : String
  roles          : List String
  scopes         : List String
  authContextRef : String
  verification   : PrincipalVerification
  onBehalfOf     : Option String
  deriving DecidableEq

structure DataHandlingPolicy where
  maxTraceClassification : DataClassification := .internal
  snapshotRetentionDays  : Nat := 30
  auditRetentionDays     : Nat := 90
  snapshotPositive       : 0 < snapshotRetentionDays := by decide
  auditPositive          : 0 < auditRetentionDays := by decide

/-- A verified user who may execute skills. -/
def analyst : ExecutionPrincipal :=
  ⟨"tenant", "analyst", "USER", [], ["nsl:skill:execute"], "session", .verified, none⟩

/-- What `validate` searches for credential material. -/
def ExecutionPrincipal.material (p : ExecutionPrincipal) : Value :=
  .dict
    [("tenant_id", .str p.tenantId), ("subject_id", .str p.subjectId), ("actor_type", .str p.actorType),
     ("roles", .tuple (p.roles.map .str)), ("scopes", .tuple (p.scopes.map .str)),
     ("auth_context_ref", .str p.authContextRef), ("on_behalf_of", (p.onBehalfOf.map .str).getD .null)]

/-- `ExecutionPrincipal.validate` -/
def ExecutionPrincipal.validate (p : ExecutionPrincipal) (requireVerified : Bool) : Except Exn Unit :=
  if Text.isBlank p.tenantId ∨ Text.isBlank p.subjectId then
    .error (.authorization "tenant_id and subject_id are required" none)
  else if p.actorType ≠ "USER" ∧ p.actorType ≠ "SERVICE" then
    .error (.authorization "actor_type must be USER or SERVICE" none)
  else if Text.isBlank p.authContextRef then .error (.authorization "auth_context_ref is required" none)
  else if p.roles.any Text.isBlank then .error (.authorization "roles must be a set of non-empty strings" none)
  else if p.scopes.any Text.isBlank then .error (.authorization "scopes must be a set of non-empty strings" none)
  else if p.onBehalfOf.any Text.isBlank then .error (.authorization "on_behalf_of must be a non-empty string" none)
  else if requireVerified ∧ p.verification ≠ .verified then
    .error (.authorization "verified execution principal is required" none)
  else
    match ensureNoCredentialMaterial Platform.word p.material "ExecutionPrincipal" with
    | .ok ()   => .ok ()
    | .error _ => .error (.authorization "credential material is forbidden in ExecutionPrincipal" none)

/-- A principal is refused with an `AuthorizationError`. -/
theorem ExecutionPrincipal.validate_error {p : ExecutionPrincipal} {requireVerified : Bool} {e : Exn}
    (h : p.validate requireVerified = .error e) : ∃ m ref, e = .authorization m ref := by
  unfold validate at h
  repeat' split at h
  all_goals cases h
  all_goals exact ⟨_, _, rfl⟩

/-! ## Authorization -/

structure AuthorizationDecision where
  decisionId    : String
  policyId      : String
  policyVersion : String
  effect        : String
  grantedScopes : List String
  deriving DecidableEq

structure StaticAuthorizer where
  policyId      : String := "NSL-VS-DEFAULT-DENY"
  policyVersion : String := "1"

/-- `StaticAuthorizer.authorize`; the time of the decision is nothing the source reads again. -/
def StaticAuthorizer.authorize (a : StaticAuthorizer) (p : ExecutionPrincipal) (action : String)
    (requiredScopes : List String) : Except Exn AuthorizationDecision := do
  p.validate false
  if Text.isBlank action then throw (.authorization "authorization action is required" none)
  if requiredScopes = [] then throw (.authorization "explicit required scopes are required" none)
  if requiredScopes.any Text.isBlank then throw (.authorization "required scopes must be non-empty strings" none)
  let missing  := requiredScopes.filter (fun s => !p.scopes.contains s)
  let effect   := if missing = [] then "ALLOW" else "DENY"
  let material := Text.join "|"
    [a.policyId, a.policyVersion, p.tenantId, p.subjectId, action, Text.join "," requiredScopes, effect]
  let decisionId := "authz-" ++ String.ofList ((Platform.sha256 material).toList.take 16)
  if missing ≠ [] then
    throw (.authorization ("missing required scope(s) for " ++ action ++ ": " ++ Text.join ", " missing)
      (some decisionId))
  return ⟨decisionId, a.policyId, a.policyVersion, effect, p.scopes.filter requiredScopes.contains⟩

/-- The authorizer refuses with an `AuthorizationError`. -/
theorem StaticAuthorizer.authorize_error {a : StaticAuthorizer} {p : ExecutionPrincipal} {action : String}
    {scopes : List String} {e : Exn} (h : a.authorize p action scopes = .error e) :
    ∃ m ref, e = .authorization m ref := by
  unfold authorize at h
  cases hv : p.validate false with
  | error e' =>
    rw [hv] at h
    cases h
    exact p.validate_error hv
  | ok u =>
    rw [hv] at h
    simp only [bind, Except.bind, throw, throwThe, MonadExceptOf.throw, pure, Except.pure] at h
    repeat' split at h
    all_goals cases h
    all_goals exact ⟨_, _, rfl⟩
end Nsl
