import Nsl.Base.Run
import Nsl.SkillData
import Nsl.WriteGuard
/-!
# Preflight — the trust an artifact needs before it may WRITE

`preflight.py` and the identities of `trust.py`: an artifact is a skill with the hash of its document, trust evidence
names a package and who signed it, a profile says whom a tenant trusts. The check of a skill document against its schema
is a parameter here.
-/
namespace Nsl

/-- Why the provider's end of a WRITE is not known. -/
inductive UncertainCause | cancelled | timeout | connectionLost | exception
  deriving DecidableEq, Repr

/-- What the boundary of a WRITE raises. -/
inductive WriteFault
  /-- `TrustPreflightError` -/
  | trust (reasonCode message : String)
  /-- `WriteEligibilityError` -/
  | eligibility (message : String)
  /-- `ProviderInvocationUncertainError` -/
  | uncertain (cause : UncertainCause)
  /-- `WriteEvidenceError` -/
  | evidence (message : String)
  /-- `WriteOutcomeError` -/
  | outcome (message : String)
  | raised (e : Exn)
  deriving DecidableEq

/-- What `except ValueError` catches. -/
def Exn.isValueError : Exn → Bool
  | .value _ | .money _ | .builtin _ | .schema .. | .integrity _ => true
  | _                                                            => false

def MAX_TRUST_AGE_SECONDS : Nat := 31536000

inductive TrustStatus | verified | unverified | revoked
  deriving DecidableEq, Repr

inductive TrustPreflightStatus | verified | notRequired
  deriving DecidableEq, Repr

section Preflight

variable [Platform]

/-- `package_id_for` -/
def packageIdFor (packageHash : Digest) : String := "nsp:" ++ packageHash.text

structure PackageTrustEvidence where
  packageId     : String
  packageHash   : Digest
  publisherId   : RequiredText
  signingKeyId  : RequiredText
  verifiedAt    : UtcInstant
  trustStatus   : TrustStatus
  trustPolicyId : RequiredText
  identity      : packageId = packageIdFor packageHash

/-- `ExecutionTrustProfile`; a production profile leaves nothing open. -/
structure ExecutionTrustProfile where
  tenantId                 : RequiredText
  environment              : RuntimeEnvironment
  trustPolicyId            : Option RequiredText
  expectedPackageId        : Option RequiredText
  expectedArtifactHash     : Option Digest
  expectedSemanticHash     : Option Digest
  trustedPublisherIds      : List RequiredText
  trustedSigningKeyIds     : List RequiredText
  maxTrustAgeSeconds       : Option Nat
  allowUnsignedDevelopment : Bool
  ageRange                 : ∀ a, maxTrustAgeSeconds = some a → 1 ≤ a ∧ a ≤ MAX_TRUST_AGE_SECONDS
  production               : environment = .production → trustPolicyId.isSome ∧ expectedPackageId.isSome ∧
    expectedArtifactHash.isSome ∧ expectedSemanticHash.isSome ∧ trustedPublisherIds ≠ [] ∧ trustedSigningKeyIds ≠ [] ∧
    maxTrustAgeSeconds.isSome ∧ allowUnsignedDevelopment = false

structure TrustPreflightEvidence where
  tenantId          : RequiredText
  environment       : RuntimeEnvironment
  status            : TrustPreflightStatus
  checkedAt         : UtcInstant
  artifactHash      : Digest
  skillSemanticHash : String
  packageId         : Option String
  trustPolicyId     : Option RequiredText
  deriving DecidableEq

/-- `_contains_write` -/
def preflightContainsWrite (skill : SkillObject) : Bool :=
  skill.requiredTools.any (·.capability = "WRITE") ||
    (withinBlock skill.body).any (fun s =>
      match s with
      | .letBind l => l.value.isWrite
      | _          => false)

variable (validateDocument : Value → Except Exn Unit)

/-- `NsoCodec.encode`, with the schema of skill documents. -/
def encodeSkill (skill : SkillObject) : Except Exn String := do
  ensureNoCredentialMaterial Platform.word skill.toData ".nso"
  validateDocument skill.toData
  canonicalJson skill.toData

/-- `VerifiedSkillArtifact` -/
structure VerifiedSkillArtifact where
  skill        : SkillObject
  artifactHash : Digest
  trust        : Option PackageTrustEvidence
  canonical    : (encodeSkill validateDocument skill).map sha256Of = .ok artifactHash.text

def trustBlocked {α : Type} (reasonCode message : String) : Except WriteFault α := .error (.trust reasonCode message)

/-- What `_validate_artifact_identity` makes of an exception. -/
def artifactFault (e : Exn) : WriteFault :=
  if e.isValueError then .trust "ARTIFACT_INVALID" "Skill artifact is not canonical" else .raised e

/-- `_validate_artifact_identity` -/
def validateArtifactIdentity (artifact : VerifiedSkillArtifact validateDocument) : Except WriteFault Unit := do
  let canonical ← (encodeSkill validateDocument artifact.skill).mapError artifactFault
  let semanticHash ← artifact.skill.computedHash.mapError artifactFault
  if artifact.artifactHash.text ≠ sha256Of canonical then
    trustBlocked "ARTIFACT_HASH_MISMATCH" "Skill artifact hash does not match canonical content"
  else if artifact.skill.semanticHash ≠ semanticHash then
    trustBlocked "SEMANTIC_HASH_MISMATCH" "Skill semantic hash does not match canonical semantics"
  else return ()

/-- The time from which on trust is stale; `timedelta` goes no further than the year 9999. -/
def staleFrom (verifiedAt : UtcInstant) (ageSeconds : Nat) : Except WriteFault Int :=
  let deadline := verifiedAt.time.instant + ageSeconds * 1000000
  if (Calendar.MAX_ORDINAL + 1) * 86400 * 1000000 ≤ deadline then
    .error (.raised (.arithmetic "date value out of range"))
  else .ok deadline

/-- The checks of `_validate_trust_identity` before that of the age, with what each raises. -/
def trustChecks (artifact : VerifiedSkillArtifact validateDocument) (trust : PackageTrustEvidence)
    (profile : ExecutionTrustProfile) (checkedAt : UtcInstant) : List (Bool × String × String) :=
  [(trust.trustStatus ≠ .verified, "TRUST_NOT_VERIFIED", "package trust evidence is not verified"),
   (trust.packageId ≠ packageIdFor trust.packageHash, "PACKAGE_ID_MISMATCH", "package trust identity is inconsistent"),
   (profile.expectedPackageId.any (·.text ≠ trust.packageId), "PACKAGE_BINDING_MISMATCH",
     "package trust evidence does not match the execution profile"),
   (profile.expectedArtifactHash.any (· ≠ artifact.artifactHash), "ARTIFACT_BINDING_MISMATCH",
     "artifact does not match the execution profile"),
   (profile.expectedSemanticHash.any (·.text ≠ artifact.skill.semanticHash), "SEMANTIC_BINDING_MISMATCH",
     "semantic identity does not match the execution profile"),
   (profile.trustPolicyId.any (· ≠ trust.trustPolicyId), "TRUST_POLICY_MISMATCH",
     "trust policy does not match the execution profile"),
   (profile.trustedPublisherIds ≠ [] && trust.publisherId ∉ profile.trustedPublisherIds, "PUBLISHER_NOT_TRUSTED",
     "publisher is not trusted by the execution profile"),
   (profile.trustedSigningKeyIds ≠ [] && trust.signingKeyId ∉ profile.trustedSigningKeyIds, "SIGNING_KEY_NOT_TRUSTED",
     "signing key is not trusted by the execution profile"),
   (checkedAt.time.instant < trust.verifiedAt.time.instant, "TRUST_EVIDENCE_FROM_FUTURE",
     "trust evidence verification time is in the future")]

/-- `_validate_trust_identity` -/
def validateTrustIdentity (artifact : VerifiedSkillArtifact validateDocument) (trust : PackageTrustEvidence)
    (profile : ExecutionTrustProfile) (checkedAt : UtcInstant) : Except WriteFault Unit :=
  match (trustChecks validateDocument artifact trust profile checkedAt).find? (·.1) with
  | some (_, reasonCode, message) => trustBlocked reasonCode message
  | none =>
    match profile.maxTrustAgeSeconds with
    | none     => .ok ()
    | some age => do
      let deadline ← staleFrom trust.verifiedAt age
      if deadline ≤ checkedAt.time.instant then
        trustBlocked "TRUST_EVIDENCE_STALE" "trust evidence is no longer current"

theorem validateTrustIdentity_ok {artifact : VerifiedSkillArtifact validateDocument} {trust : PackageTrustEvidence}
    {profile : ExecutionTrustProfile} {checkedAt : UtcInstant}
    (h : validateTrustIdentity validateDocument artifact trust profile checkedAt = .ok ()) :
    ∀ c ∈ trustChecks validateDocument artifact trust profile checkedAt, c.1 = false := by
  unfold validateTrustIdentity at h
  cases hfind : (trustChecks validateDocument artifact trust profile checkedAt).find? (·.1) with
  | some c =>
    rw [hfind] at h
    cases h
  | none =>
    intro c hc
    simpa using List.find?_eq_none.1 hfind c hc

/-- `_utc_instant` of `preflight.py` -/
def preflightUtc (t : Calendar.DateTime) : Except WriteFault UtcInstant :=
  if h : t.isUtc = true then .ok ⟨t, h⟩ else .error (.raised (.value "now must use timezone-aware UTC"))

/-- `RuntimePreflightValidator.validate` -/
def preflightValidate (artifact : VerifiedSkillArtifact validateDocument) (profile : ExecutionTrustProfile)
    (now : Calendar.DateTime) : Except WriteFault TrustPreflightEvidence := do
  let checkedAt ← preflightUtc now
  validateArtifactIdentity validateDocument artifact
  let evidence := fun (status : TrustPreflightStatus) (packageId : Option String) (trustPolicyId : Option RequiredText) =>
    (⟨profile.tenantId, profile.environment, status, checkedAt, artifact.artifactHash, artifact.skill.semanticHash,
      packageId, trustPolicyId⟩ : TrustPreflightEvidence)
  match artifact.trust with
  | none       =>
    if profile.environment = .production ∧ preflightContainsWrite artifact.skill then
      trustBlocked "TRUST_EVIDENCE_MISSING" "Production WRITE requires verified package trust evidence"
    else if profile.environment = .development ∧ preflightContainsWrite artifact.skill ∧
        profile.allowUnsignedDevelopment = false then
      trustBlocked "UNSIGNED_DEVELOPMENT_NOT_ALLOWED" "unsigned development WRITE is not allowed by the profile"
    else return evidence .notRequired none none
  | some trust => do
    validateTrustIdentity validateDocument artifact trust profile checkedAt
    return evidence .verified (some trust.packageId) (some trust.trustPolicyId)

/-- **A production WRITE passes with verified trust only**, that of its own package, artifact, policy and signer. -/
theorem preflightValidate_production {artifact : VerifiedSkillArtifact validateDocument} {profile : ExecutionTrustProfile}
    {now : Calendar.DateTime} {evidence : TrustPreflightEvidence} (hproduction : profile.environment = .production)
    (hwrite : preflightContainsWrite artifact.skill = true) (h : preflightValidate validateDocument artifact profile now = .ok evidence) :
    evidence.status = .verified ∧ ∃ trust, artifact.trust = some trust ∧ trust.trustStatus = .verified ∧
      profile.expectedArtifactHash = some artifact.artifactHash ∧ trust.publisherId ∈ profile.trustedPublisherIds ∧
      trust.signingKeyId ∈ profile.trustedSigningKeyIds := by
  obtain ⟨-, -, hartifact, -, hpublishers, hkeys, -, -⟩ := profile.production hproduction
  unfold preflightValidate at h
  obtain ⟨checkedAt, -, h⟩ := Stateful.bind_eq_ok h
  obtain ⟨u, -, h⟩ := Stateful.bind_eq_ok h
  dsimp only at h
  cases htrust : artifact.trust with
  | none =>
    rw [htrust] at h
    simp only [hproduction, hwrite, true_and, if_true] at h
    cases h
  | some trust =>
    rw [htrust] at h
    obtain ⟨u', hidentity, h⟩ := Stateful.bind_eq_ok h
    cases h
    have hchecks := validateTrustIdentity_ok validateDocument hidentity
    simp only [trustChecks, List.forall_mem_cons] at hchecks
    obtain ⟨hstatus, -, -, hexpected, -, -, hpublisher, hkey, -⟩ := hchecks
    obtain ⟨d, hd⟩ := Option.isSome_iff_exists.1 hartifact
    refine ⟨rfl, trust, rfl, by simpa using hstatus, ?_, ?_, ?_⟩
    · rw [hd] at hexpected ⊢
      simpa using hexpected
    · simpa [hpublishers] using hpublisher
    · simpa [hkeys] using hkey

end Preflight
end Nsl
