import Nsl.Tools
import Nsl.WriteRecords
/-!
# Runtime models — the state of an execution

`runtime_models.py`: requests, results, the summary of the checks, the resource guard and the execution context. The
innermost frame of a context stands on top, and there is always one.
-/
namespace Nsl

def MAX_FOREACH_NESTING_DEPTH : Nat := 16

/-! ## Checks -/

structure CheckResult where
  checkId         : String
  status          : CheckStatus
  severity        : String
  message         : String
  conditionNodeId : String
  presence        : Presence
  completeness    : Completeness
  provenanceRefs  : List String
  reasonCode      : Option String
  deriving DecidableEq

inductive ValidationSummaryStatus | allPass | hasFail | hasUnknown | hasFailAndUnknown | noCheck
  deriving DecidableEq, Repr

instance : StrEnum ValidationSummaryStatus where
  members  := [.allPass, .hasFail, .hasUnknown, .hasFailAndUnknown, .noCheck]
  value
    | .allPass           => "ALL_PASS"
    | .hasFail           => "HAS_FAIL"
    | .hasUnknown        => "HAS_UNKNOWN"
    | .hasFailAndUnknown => "HAS_FAIL_AND_UNKNOWN"
    | .noCheck           => "NO_CHECK"
  complete := by intro a; cases a <;> decide
  distinct := by intro a b; cases a <;> cases b <;> decide

/-- `_summary_status` -/
def summaryStatus (total fail unknown : Nat) : ValidationSummaryStatus :=
  if total = 0 then .noCheck
  else if fail ≠ 0 ∧ unknown ≠ 0 then .hasFailAndUnknown
  else if fail ≠ 0 then .hasFail
  else if unknown ≠ 0 then .hasUnknown
  else .allPass

structure ValidationSummary where
  status          : ValidationSummaryStatus
  totalCount      : Nat
  passCount       : Nat
  failCount       : Nat
  unknownCount    : Nat
  failedCheckIds  : List String
  unknownCheckIds : List String
  deriving DecidableEq

/-- What the summary asks of the recorded checks: identifiers that are there, each once. -/
def CheckIdsOk (checks : List CheckResult) : Prop :=
  (∀ c ∈ checks, Text.isBlank c.checkId = false) ∧ (checks.map (·.checkId)).Nodup

theorem checkIdsOk_append (checks : List CheckResult) (c : CheckResult) : CheckIdsOk (checks ++ [c]) ↔
    CheckIdsOk checks ∧ Text.isBlank c.checkId = false ∧ c.checkId ∉ checks.map (·.checkId) := by
  unfold CheckIdsOk
  rw [List.map_append, List.nodup_append]
  constructor
  · rintro ⟨hblank, hchecks, -, hdisjoint⟩
    refine ⟨⟨fun d hd => hblank d (List.mem_append_left _ hd), hchecks⟩, hblank c (by simp), fun hmem => ?_⟩
    exact hdisjoint _ hmem _ (by simp) rfl
  · rintro ⟨⟨hblank, hchecks⟩, hc, hfresh⟩
    refine ⟨fun d hd => ?_, hchecks, List.nodup_singleton _, fun i hi j hj hij => ?_⟩
    · rcases List.mem_append.1 hd with hd | hd
      · exact hblank d hd
      · rw [List.mem_singleton.1 hd]
        exact hc
    · rw [List.map_singleton, List.mem_singleton] at hj
      exact hfresh (hj ▸ hij ▸ hi)

theorem CheckIdsOk.of_prefix {checks checks' : List CheckResult} (hp : checks <+: checks') (h : CheckIdsOk checks') :
    CheckIdsOk checks :=
  ⟨fun c hc => h.1 c (hp.subset hc), h.2.sublist (hp.sublist.map _)⟩

namespace ValidationSummary

/-- One list of identifiers of `__post_init__`: as many as counted, in order, each once, none blank. -/
def IdsOk (ids : List String) (count : Nat) : Prop :=
  ids.length = count ∧ ids.Pairwise (· ≤ ·) ∧ ids.Nodup ∧ ∀ i ∈ ids, Text.isBlank i = false

instance (ids : List String) (count : Nat) : Decidable (IdsOk ids count) :=
  inferInstanceAs (Decidable (_ ∧ _ ∧ _ ∧ ∀ i ∈ ids, Text.isBlank i = false))

/-- `ValidationSummary.__post_init__` -/
def postInit (s : ValidationSummary) : Except Exn ValidationSummary :=
  if s.totalCount ≠ s.passCount + s.failCount + s.unknownCount then
    .error (.value "ValidationSummary counts do not add up")
  else if s.status ≠ summaryStatus s.totalCount s.failCount s.unknownCount then
    .error (.value "ValidationSummary status does not match counts")
  else if ¬ IdsOk s.failedCheckIds s.failCount then
    .error (.value "ValidationSummary.failed_check_ids is invalid")
  else if ¬ IdsOk s.unknownCheckIds s.unknownCount then
    .error (.value "ValidationSummary.unknown_check_ids is invalid")
  else if ∃ i ∈ s.failedCheckIds, i ∈ s.unknownCheckIds then
    .error (.value "ValidationSummary check outcomes overlap")
  else .ok s

/-- The identifiers of the checks of one status. -/
def idsOf (status : CheckStatus) (checks : List CheckResult) : List String :=
  (checks.filter (fun c => c.status = status)).map (·.checkId)

def sortedIds (ids : List String) : List String := ids.insertionSort (· ≤ ·)

/-- `ValidationSummary.from_checks` -/
def fromChecks (checks : List CheckResult) : Except Exn ValidationSummary :=
  if (checks.map (·.checkId)).any Text.isBlank ∨ ¬ (checks.map (·.checkId)).Nodup then
    .error (.value "check IDs must be unique non-empty strings")
  else
    let failed  := sortedIds (idsOf .fail checks)
    let unknown := sortedIds (idsOf .unknown checks)
    postInit
      { status := summaryStatus checks.length failed.length unknown.length, totalCount := checks.length,
        passCount := (idsOf .pass checks).length, failCount := failed.length, unknownCount := unknown.length,
        failedCheckIds := failed, unknownCheckIds := unknown }

theorem idsOf_length (checks : List CheckResult) :
    checks.length = (idsOf .pass checks).length + (idsOf .fail checks).length + (idsOf .unknown checks).length := by
  induction checks with
  | nil => rfl
  | cons c checks ih =>
    simp only [idsOf, List.length_map, List.length_cons] at ih ⊢
    cases hc : c.status <;> simp [hc] <;> omega

theorem mem_idsOf {status : CheckStatus} {checks : List CheckResult} {i : String} (h : i ∈ idsOf status checks) :
    ∃ c ∈ checks, c.status = status ∧ c.checkId = i := by
  unfold idsOf at h
  obtain ⟨c, hc, hi⟩ := List.mem_map.1 h
  have hmem := List.mem_filter.1 hc
  exact ⟨c, hmem.1, by simpa using hmem.2, hi⟩

/-- The identifiers of one status, sorted, pass the check of their list. -/
theorem sortedIds_ok (status : CheckStatus) {checks : List CheckResult} (h : CheckIdsOk checks) :
    IdsOk (sortedIds (idsOf status checks)) (sortedIds (idsOf status checks)).length := by
  have hperm : (sortedIds (idsOf status checks)).Perm (idsOf status checks) := List.perm_insertionSort _ _
  refine ⟨rfl, List.pairwise_insertionSort _ _, ?_, fun i hi => ?_⟩
  · have hsub : (idsOf status checks).Sublist (checks.map (·.checkId)) := List.filter_sublist.map _
    exact hperm.nodup_iff.2 (h.2.sublist hsub)
  · obtain ⟨c, hc, -, rfl⟩ := mem_idsOf (hperm.mem_iff.1 hi)
    exact h.1 c hc

theorem postInit_error {s : ValidationSummary} {e : Exn} (h : postInit s = .error e) : ∃ m, e = .value m := by
  unfold postInit at h
  repeat' split at h
  all_goals cases h
  all_goals exact ⟨_, rfl⟩

/-- What refuses a summary is a `ValueError`. -/
theorem fromChecks_error {checks : List CheckResult} {e : Exn} (h : fromChecks checks = .error e) :
    ∃ m, e = .value m := by
  unfold fromChecks at h
  split at h
  · cases h
    exact ⟨_, rfl⟩
  · exact postInit_error h

/-- **The summary is built exactly of checks with unique identifiers.** -/
theorem fromChecks_isOk_iff (checks : List CheckResult) : (fromChecks checks).isOk = true ↔ CheckIdsOk checks := by
  unfold fromChecks
  by_cases h : CheckIdsOk checks
  · have hguard : ¬ ((checks.map (·.checkId)).any Text.isBlank = true ∨ ¬ (checks.map (·.checkId)).Nodup) := by
      rw [not_or, not_not, List.any_eq_true]
      refine ⟨?_, h.2⟩
      rintro ⟨i, hi, hblank⟩
      obtain ⟨c, hc, rfl⟩ := List.mem_map.1 hi
      rw [h.1 c hc] at hblank
      cases hblank
    have hlen : ∀ status, (sortedIds (idsOf status checks)).length = (idsOf status checks).length := fun status =>
      (List.perm_insertionSort _ _).length_eq
    have hdisjoint : ¬ ∃ i ∈ sortedIds (idsOf .fail checks), i ∈ sortedIds (idsOf .unknown checks) := by
      rintro ⟨i, hfail, hunknown⟩
      obtain ⟨c, hc, hcs, hci⟩ := mem_idsOf ((List.perm_insertionSort _ _).mem_iff.1 hfail)
      obtain ⟨d, hd, hds, hdi⟩ := mem_idsOf ((List.perm_insertionSort _ _).mem_iff.1 hunknown)
      have hcd : c = d := List.inj_on_of_nodup_map h.2 hc hd (hci.trans hdi.symm)
      rw [hcd, hds] at hcs
      cases hcs
    rw [if_neg hguard]
    unfold postInit
    rw [if_neg (by rw [hlen, hlen, not_not]; exact idsOf_length checks), if_neg (by simp),
      if_neg (not_not.2 (sortedIds_ok .fail h)), if_neg (not_not.2 (sortedIds_ok .unknown h)), if_neg hdisjoint]
    exact ⟨fun _ => h, fun _ => rfl⟩
  · have hguard : (checks.map (·.checkId)).any Text.isBlank = true ∨ ¬ (checks.map (·.checkId)).Nodup := by
      by_contra hcon
      rw [not_or, not_not] at hcon
      refine h ⟨fun c hc => ?_, hcon.2⟩
      by_contra hblank
      exact hcon.1 (List.any_eq_true.2 ⟨_, List.mem_map_of_mem hc, by simpa using hblank⟩)
    rw [if_pos hguard]
    exact ⟨fun hok => (by cases hok), fun hok => absurd hok h⟩

end ValidationSummary

/-! ## Requests -/

section Requests

variable [Platform]

structure ExecutionRequest where
  executionId         : RequiredText
  inputs              : Dict Value
  runtimeContext      : Dict Value
  principal           : Option ExecutionPrincipal
  dataPolicy          : DataHandlingPolicy
  businessOperationId : Option RequiredText
  inputsClean         : findCredentialPath Platform.word "$" (.dict inputs.entries) = none
  contextClean        : findCredentialPath Platform.word "$" (.dict runtimeContext.entries) = none

/-- A request without inputs. -/
def ExecutionRequest.plain (executionId : RequiredText) (principal : Option ExecutionPrincipal)
    (businessOperationId : Option RequiredText) : ExecutionRequest where
  executionId         := executionId
  inputs              := Dict.empty
  runtimeContext      := Dict.empty
  principal           := principal
  dataPolicy          := {}
  businessOperationId := businessOperationId
  inputsClean         := rfl
  contextClean        := rfl

/-- The tenant of a request; an execution context exists only for a request with a principal. -/
def ExecutionRequest.tenantId (r : ExecutionRequest) : String := (r.principal.map (·.tenantId)).getD ""

/-- `highest_declared_classification` -/
def highestDeclared (classifications : List DataClassification) : DataClassification :=
  classifications.foldl DataClassification.highest .publicData

/-- `project_declared_inputs` -/
def projectDeclaredInputs (skill : SkillObject) (inputs : Dict Value) : List (String × Value) :=
  skill.inputs.filterMap (fun spec => (inputs.get? spec.name).map (fun v => (spec.name, v)))

mutual
/-- `==` of values that share their leaves: the order of the keys is no part of a dictionary. -/
def sameValue : Value → Value → Bool
  | .dict xs, .dict ys => xs.length = ys.length && sameFields xs ys
  | v,        w        => v = w
def sameFields : List (String × Value) → List (String × Value) → Bool
  | [],           _  => true
  | (k, v) :: xs, ys =>
    (match ys.lookup k with
      | some w => sameValue v w
      | none   => false) && sameFields xs ys
end

/-- `value[part]` along a path, from the runtime context. -/
def valueAt (context : Dict Value) (path : List String) : Except Exn Value :=
  path.foldlM (fun v part => v.item part) (.dict context.entries)

/-- `target[path[-1]] = value` in the nested dictionaries of `project_declared_context`. -/
def setPath (value : Value) : List String → List (String × Value) → Except Exn (List (String × Value))
  | [], _                => .error (.lookup "tuple index out of range")
  | [last], target       => .ok (Dict.setEntry last value target)
  | part :: path, target =>
    match (target.lookup part).getD (.dict []) with
    | .dict inner => (setPath value path inner).map (fun inner' => Dict.setEntry part (.dict inner') target)
    | other       => .error (.attribute ("'" ++ other.className ++ "' object has no attribute 'setdefault'"))

/-- `project_declared_context`: a path that is not there is left out. -/
def projectDeclaredContext (skill : SkillObject) (context : Dict Value) : Except Exn (List (String × Value)) :=
  skill.contexts.foldlM (fun projected spec =>
    match valueAt context spec.path with
    | .ok value => setPath value spec.path projected
    | .error _  => .ok projected) []

/-- The classification of what a request carries: RESTRICTED when the skill did not declare all of it. -/
def carriedClassification (declared : List (String × Value)) (carried : Dict Value)
    (classifications : List DataClassification) : DataClassification :=
  if sameValue (.dict declared) (.dict carried.entries) then highestDeclared classifications else .restricted

end Requests

/-! ## Results -/

structure EmitRecord where
  fields : Dict ValueEnvelope
  deriving DecidableEq

structure ResourceUsage where
  toolCalls             : Nat
  loopIterations        : Nat
  emittedRows           : Nat
  maxCollectionSizeSeen : Nat
  deriving DecidableEq

structure RuntimeErrorInfo where
  code       : String
  category   : String
  message    : String
  nodeId     : Option String
  detailCode : Option String
  deriving DecidableEq

section Results

variable [Platform]

structure ApprovalSummary where
  status            : ApprovalStatus
  approvalId        : String
  approvalRequestId : Option RequiredText
  deriving DecidableEq

structure WriteSummary where
  commitState           : CommitState
  toolId                : RequiredText
  nodeId                : RequiredText
  idempotencyKey        : IdempotencyKey
  payloadHash           : Digest
  providerTransactionId : Option RequiredText
  businessReference     : Option RequiredText
  deriving DecidableEq

structure VerificationSummary where
  status      : VerificationStatus
  reasonCode  : Option RequiredText
  evidenceRef : Option RequiredText
  deriving DecidableEq

structure SuspensionInfo where
  reason            : RequiredText
  checkpointVersion : Nat
  approvalId        : RequiredText
  approvalRequestId : RequiredText
  versionPositive   : 0 < checkpointVersion
  deriving DecidableEq

/-- `ExecutionResult`; the last five are set by a controlled execution only. -/
structure ExecutionResult where
  executionId         : String
  skillId             : String
  skillVersion        : String
  semanticHash        : String
  status              : ExecutionStatus
  completeness        : Completeness
  checks              : List CheckResult
  outputs             : List EmitRecord
  resources           : ResourceUsage
  error               : Option RuntimeErrorInfo
  validation          : Option ValidationSummary
  preWriteEligibility : Option PreWriteEligibility := none
  approval            : Option ApprovalSummary := none
  write               : Option WriteSummary := none
  verification        : Option VerificationSummary := none
  suspension          : Option SuspensionInfo := none
  deriving DecidableEq

end Results

/-! ## Frames -/

/-- A stack of namespaces; the innermost is on top and the root never goes. -/
structure Frames where
  top   : Dict ValueEnvelope
  below : List (Dict ValueEnvelope)
  deriving DecidableEq

namespace Frames

def root : Frames := ⟨Dict.empty, []⟩

/-- From the innermost to the root. -/
def all (f : Frames) : List (Dict ValueEnvelope) := f.top :: f.below

def push (f : Frames) : Frames := ⟨Dict.empty, f.all⟩

def bind (f : Frames) (symbolId : String) (v : ValueEnvelope) : Frames := { f with top := f.top.set symbolId v }

/-- The innermost value of a symbol. -/
def find? (f : Frames) (symbolId : String) : Option ValueEnvelope := f.all.findSome? (·.get? symbolId)

end Frames

/-! ## Context -/

/-- `_ResourceMeter` -/
structure Meter where
  toolCalls             : Nat := 0
  loopIterations        : Nat := 0
  emittedRows           : Nat := 0
  maxCollectionSizeSeen : Nat := 0
  deriving DecidableEq

structure IdempotencyState where
  keysByWriteNode          : Dict String := Dict.empty
  payloadHashesByWriteNode : Dict String := Dict.empty
  deriving DecidableEq

structure CheckpointState where
  checkpointVersion             : Nat := 0
  lastCompletedNodeId           : Option String := none
  suspendedAtNodeId             : Option String := none
  traceSequence                 : Nat := 0
  approvalRequestPublished      : Bool := false
  writeRequestDurable           : Bool := false
  approvalRequestIdsByWriteNode : Dict String := Dict.empty
  writeIntentHashesByWriteNode  : Dict String := Dict.empty
  payloadHashesByWriteNode      : Dict String := Dict.empty
  deriving DecidableEq

section Context

variable [Platform]

/-- `ExecutionContext`; `startedNs` is the resource guard's. -/
structure Context where
  skill             : SkillObject
  request           : ExecutionRequest
  startedNs         : Int
  inputValues       : Dict ValueEnvelope := Dict.empty
  contextValues     : Dict ValueEnvelope := Dict.empty
  frames            : Frames := Frames.root
  checkFrames       : Frames := Frames.root
  checks            : List CheckResult := []
  outputs           : List EmitRecord := []
  resources         : Meter := {}
  dataCompleteness  : Completeness := .complete
  invocationCounter : Nat := 0
  foreachDepth      : Nat := 0
  currentNodeId     : Option String := none
  approvals         : Dict ApprovalStatus := Dict.empty
  writes            : List JournalItem := []
  idempotency       : IdempotencyState := {}
  checkpoint        : CheckpointState := {}

namespace Context

/-- `_is_bound` -/
def isBound (c : Context) (symbolId : String) : Bool :=
  c.inputValues.contains symbolId || c.contextValues.contains symbolId || c.frames.all.any (·.contains symbolId) ||
    c.checkFrames.all.any (·.contains symbolId)

/-- `resolve` -/
def resolve (c : Context) (symbolId : String) : Except Exn ValueEnvelope :=
  match (c.frames.find? symbolId).or ((c.checkFrames.find? symbolId).or
      ((c.contextValues.get? symbolId).or (c.inputValues.get? symbolId))) with
  | some v => .ok v
  | none   => .error (.other ("unknown symbol: " ++ symbolId))

/-- `observe_completeness` -/
def observeCompleteness (c : Context) (completeness : Completeness) : Context :=
  match completeness with
  | .unknown  => { c with dataCompleteness := .unknown }
  | .partly   => if c.dataCompleteness = .complete then { c with dataCompleteness := .partly } else c
  | .complete => c

/-- `result_completeness` -/
def resultCompleteness (c : Context) (status : ExecutionStatus) : Completeness :=
  if status = .completed then c.dataCompleteness
  else if c.checks ≠ [] ∨ c.outputs ≠ [] then .partly
  else .unknown

def usage (c : Context) : ResourceUsage :=
  ⟨c.resources.toolCalls, c.resources.loopIterations, c.resources.emittedRows, c.resources.maxCollectionSizeSeen⟩

def tenantId (c : Context) : String := c.request.tenantId

end Context
end Context
end Nsl
