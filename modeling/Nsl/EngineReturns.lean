import Nsl.Engine
import Nsl.Reaches
/-!
# Engine returns — when an execution ends in a result

The handlers of `_execute_with_context` turn every `Exception` into a failed result, and building that result can fail
in one way only: the summary of the checks of a 0.2 skill refuses identifiers that are blank or not unique. A CHECK that
a loop runs twice is recorded twice. So an execution returns exactly when each CHECK it ran was recorded under an
identifier that is **fresh** in the state before.
-/
namespace Nsl

open Stateful (Run)

section EngineReturns

variable [Platform]

/-! ## Fresh checks -/

variable {env : Env}

/-- A CHECK that this step records has an identifier that is there and that no recorded check has. -/
def RecordsFresh (s x : St) : Prop :=
  ∀ c, x.ctx.checks = s.ctx.checks ++ [c] →
    Text.isBlank c.checkId = false ∧ c.checkId ∉ s.ctx.checks.map (·.checkId)

/-- One write records at most one CHECK, and it leaves the identifiers unique exactly when it is fresh. -/
theorem Write.checkIdsOk_iff {s x : St} (h : Write env s x) (hs : CheckIdsOk s.ctx.checks) :
    CheckIdsOk x.ctx.checks ↔ RecordsFresh s x := by
  rcases h.checks with hx | ⟨c, hx⟩
  · rw [hx]
    refine ⟨fun _ c hc => ?_, fun _ => hs⟩
    have hlen := congrArg List.length (hx.symm.trans hc)
    rw [List.length_append, List.length_singleton] at hlen
    omega
  · rw [hx, checkIdsOk_append]
    constructor
    · rintro ⟨-, hfresh⟩ d hd
      have hcd : [c] = [d] := List.append_cancel_left (hx.symm.trans hd)
      rw [← List.singleton_inj.1 hcd]
      exact hfresh
    · intro hfresh
      exact ⟨hs, hfresh c hx⟩

/-- Along the writes of the interpreter the recorded checks only grow. -/
theorem linked_checks_grow : ∀ {w : List St} {s s' : St}, Run.Linked (Write env) s w s' → s.ctx.checks <+: s'.ctx.checks
  | [], s, s', h     => by
    have hs' : s' = s := h
    exact hs' ▸ List.prefix_rfl
  | x :: w, s, s', h => by
    refine List.IsPrefix.trans ?_ (linked_checks_grow h.2)
    rcases h.1.checks with hx | ⟨c, hx⟩
    · exact hx ▸ List.prefix_rfl
    · rw [hx]
      exact List.prefix_append _ _

/-- **Along the writes of the interpreter the recorded identifiers are unique exactly when each step was fresh.** -/
theorem checkIdsOk_iff_fresh : ∀ {w : List St} {s s' : St}, Run.Linked (Write env) s w s' → CheckIdsOk s.ctx.checks →
    (CheckIdsOk s'.ctx.checks ↔ Run.Linked RecordsFresh s w s')
  | [], s, s', h, hs     => by
    have hs' : s' = s := h
    rw [hs']
    exact ⟨fun _ => rfl, fun _ => hs⟩
  | x :: w, s, s', h, hs => by
    obtain ⟨hstep, hrest⟩ := h
    have hx := hstep.checkIdsOk_iff hs
    constructor
    · intro hs'
      have hxok : CheckIdsOk x.ctx.checks := hs'.of_prefix (linked_checks_grow hrest)
      exact ⟨hx.1 hxok, (checkIdsOk_iff_fresh hrest hxok).1 hs'⟩
    · rintro ⟨hfresh, hfreshRest⟩
      exact (checkIdsOk_iff_fresh hrest (hx.2 hfresh)).2 hfreshRest

/-- No write of the interpreter changes the skill. -/
theorem linked_skill : ∀ {w : List St} {s s' : St}, Run.Linked (Write env) s w s' → s'.ctx.skill = s.ctx.skill
  | [], s, s', h     => by
    have hs' : s' = s := h
    rw [hs']
  | _ :: _, _, _, h => (linked_skill h.2).trans h.1.fixed.1

variable (env)

/-! ## Results -/

/-- What building a result asks of a context. -/
def ResultOk (ctx : Context) : Prop := ctx.skill.isV02 = true → CheckIdsOk ctx.checks

theorem resultOf_isOk_iff (ctx : Context) (status : ExecutionStatus) (error : Option RuntimeErrorInfo) :
    (resultOf ctx status error).isOk = true ↔ ResultOk ctx := by
  unfold resultOf ResultOk
  by_cases hv : ctx.skill.isV02 = true
  · rw [if_pos hv, ← ValidationSummary.fromChecks_isOk_iff]
    cases ValidationSummary.fromChecks ctx.checks with
    | ok summary => exact ⟨fun _ _ => rfl, fun _ => rfl⟩
    | error e    => exact ⟨fun h => (by cases h), fun h => (h hv)⟩
  · rw [if_neg hv]
    exact ⟨fun _ h => absurd h hv, fun _ => rfl⟩

theorem resultOf_status {ctx : Context} {status : ExecutionStatus} {error : Option RuntimeErrorInfo}
    {result : ExecutionResult} (h : resultOf ctx status error = .ok result) : result.status = status := by
  obtain ⟨validation, -, h⟩ := Stateful.bind_eq_ok h
  cases h
  rfl

theorem resultOf_error {ctx : Context} {status : ExecutionStatus} {error : Option RuntimeErrorInfo} {e : Exn}
    (h : resultOf ctx status error = .error e) : ∃ m, e = .value m := by
  unfold resultOf at h
  split at h
  · cases hs : ValidationSummary.fromChecks ctx.checks with
    | ok summary => rw [hs] at h; cases h
    | error e'   =>
      rw [hs] at h
      cases h
      exact ValidationSummary.fromChecks_error hs
  · cases h

theorem failedPayload_json (ctx : Context) (f : Failure) (info : RuntimeErrorInfo) :
    fieldsJson (failedPayload ctx f info) = true := by
  simp [failedPayload, fieldsJson, Value.isJson, optionalStr_isJson]

theorem completedPayload_json (result : ExecutionResult) (decision : AuthorizationDecision) :
    fieldsJson (completedPayload result decision) = true := by
  simp [completedPayload, fieldsJson, Value.isJson]

theorem rejectedPayload_json (skill : SkillObject) (request : ExecutionRequest) (message : String)
    (ref : Option String) : fieldsJson (rejectedPayload skill request message ref) = true := by
  simp [rejectedPayload, fieldsJson, Value.isJson, optionalStr_isJson]

/-- **`_failed` fails where its result does, and nowhere else.** -/
theorem failed_eq (f : Failure) (s : St) : ∃ w s', s'.ctx = s.ctx ∧
    failed env f s = ⟨w, s', resultOf s.ctx f.status (some (failureInfo s.ctx f))⟩ := by
  obtain ⟨w, s', hemit, hctx⟩ := emit_ok env "EXECUTION_FAILED" (failedPayload_json s.ctx f (failureInfo s.ctx f)) s
  refine ⟨w, s', hctx, ?_⟩
  unfold failed getCtx
  rw [Run.bind_eq, Run.look_andThen, Run.bind_eq, Run.andThen_ok hemit, Run.ofExcept_apply]
  simp

/-- The end of the `try` gives a result only where the checks allow one. -/
theorem executionEpilogue_ok {decision : AuthorizationDecision} {s s' : St} {w : List St} {r : ExecutionResult}
    (h : executionEpilogue env decision s = ⟨w, s', .ok r⟩) : ResultOk s'.ctx := by
  unfold executionEpilogue getCtx at h
  obtain ⟨_, s₁, _, _, -, h₁, -⟩ := Run.andThen_eq_ok h
  rw [Run.bind_eq, Run.look_andThen] at h₁
  obtain ⟨_, s₂, result, _, hresult, h₂, -⟩ := Run.andThen_eq_ok h₁
  rw [Run.ofExcept_apply] at hresult
  obtain ⟨-, hs₂, hok⟩ := Stateful.Trace.mk.inj hresult
  obtain ⟨we, s₃, hemit, hctx⟩ := emit_ok env "EXECUTION_COMPLETED" (completedPayload_json result decision) s₂
  rw [Run.bind_eq, Run.andThen_ok hemit] at h₂
  obtain ⟨-, hs', -⟩ := Stateful.Trace.mk.inj h₂
  have hs₃ : s'.ctx = s₁.ctx := by
    rw [← hs', hs₂]
    exact hctx
  rw [hs₃, ← resultOf_isOk_iff s₁.ctx .completed none, hok]
  rfl

/-- **The `try` with its handlers returns exactly when its body ends in no interrupt and the checks recorded allow a
result.** -/
theorem executionTry_isOk_iff (skill : SkillObject) (request : ExecutionRequest) (principal : ExecutionPrincipal)
    (decision : AuthorizationDecision) (statements : List Statement) (allowControlled : Bool) (s : St) :
    let t := executionTry env skill request principal decision statements allowControlled s
    t.outcome.isOk = true ↔ (∀ e, t.outcome = .error e → e.isException = true) ∧ ResultOk t.final.ctx := by
  unfold executionTry
  rcases hbody : executionBody env skill request principal decision statements allowControlled s with ⟨w, s', e | r⟩
  · rw [Run.handle_error hbody]
    cases hf : failureOf e with
    | none =>
      have hfail : onFailure env e = Run.fail e := by
        unfold onFailure
        rw [hf]
      have he : e.isException = false := by
        rw [← failureOf_isSome, hf]
        rfl
      rw [hfail]
      refine ⟨fun h => (by cases h), fun h => ?_⟩
      rw [h.1 e rfl] at he
      cases he
    | some f =>
      have hhandler : onFailure env e = failed env f := by
        unfold onFailure
        rw [hf]
      obtain ⟨w', s'', hctx, hfailed⟩ := failed_eq env f s'
      rw [hhandler, hfailed]
      dsimp only
      rw [resultOf_isOk_iff, hctx]
      refine ⟨fun h => ⟨fun e' he' => ?_, h⟩, fun h => h.2⟩
      obtain ⟨m, rfl⟩ := resultOf_error he'
      rfl
  · rw [Run.handle_ok hbody]
    refine ⟨fun _ => ⟨fun e he => (by cases he), ?_⟩, fun _ => rfl⟩
    obtain ⟨_, s₁, _, _, -, h₁, -⟩ := Run.andThen_eq_ok hbody
    obtain ⟨_, s₂, _, _, -, h₂, -⟩ := Run.andThen_eq_ok h₁
    exact executionEpilogue_ok env h₂

/-! ## The theorem -/

/-- The state in which an authorized execution starts its `try`. -/
def tryState (env : Env) (skill : SkillObject) (request : ExecutionRequest) (s : St) : St :=
  ⟨{ skill, request, startedNs := env.clock s.world.readings },
    { s.world with sequence := 0, previousEventHash := none, readings := s.world.readings + 1 }⟩

/-- The state in which the chain of an execution starts. -/
def chainState (s : St) : St := ⟨s.ctx, { s.world with sequence := 0, previousEventHash := none }⟩

/-- A write that leaves the context records no CHECK. -/
theorem recordsFresh_of_ctx {s x : St} (h : x.ctx = s.ctx) : RecordsFresh s x := by
  intro c hc
  have hlen := congrArg List.length hc
  rw [h, List.length_append, List.length_singleton] at hlen
  omega

/-- An authorized execution is its `try` from that state, after three writes. -/
theorem execute_started {skill : SkillObject} {request : ExecutionRequest} {p : ExecutionPrincipal}
    {d : AuthorizationDecision}
    (h : authorizeExecution (env.forExecution skill request) skill request.principal = .ok (p, d)) (s : St) :
    let t := executionTry (env.forExecution skill request) skill request p d skill.body false
      (tryState env skill request s)
    execute env skill request s = ⟨[chainState s, ⟨s.ctx, (tryState env skill request s).world⟩,
      tryState env skill request s] ++ t.written, t.final, t.outcome⟩ := by
  let s₂ : St := ⟨s.ctx, (tryState env skill request s).world⟩
  have hchain : startChain s = ⟨[chainState s], chainState s, .ok ()⟩ := rfl
  have hnew : newContext (env.forExecution skill request) skill request (chainState s) =
      ⟨[s₂, tryState env skill request s], tryState env skill request s, .ok ()⟩ := rfl
  unfold execute executeWithContext
  simp only [h, Run.bind_eq]
  rcases ht : executionTry (env.forExecution skill request) skill request p d skill.body false
      (tryState env skill request s) with ⟨w, s', e | r⟩
  · refine Run.andThen_error (w := [chainState s, s₂, tryState env skill request s] ++ w) ?_
    rw [Run.andThen_ok hchain, Run.andThen_ok hnew, Run.andThen_error ht]
    rfl
  · have hinner : Run.andThen startChain (fun _ => Run.andThen (newContext (env.forExecution skill request) skill request)
        (fun _ => Run.andThen (executionTry (env.forExecution skill request) skill request p d skill.body false)
          (fun result => Run.andThen getCtx (fun ctx => Run.done (result, some ctx))))) s =
        ⟨[chainState s, s₂, tryState env skill request s] ++ w, s', .ok (r, some s'.ctx)⟩ := by
      rw [Run.andThen_ok hchain, Run.andThen_ok hnew, Run.andThen_ok ht]
      simp [getCtx, Run.done]
    rw [Run.andThen_ok hinner]
    simp [Run.done, s₂]

/-- None of the three records a CHECK. -/
theorem execute_authorized {skill : SkillObject} {request : ExecutionRequest} {p : ExecutionPrincipal}
    {d : AuthorizationDecision}
    (h : authorizeExecution (env.forExecution skill request) skill request.principal = .ok (p, d)) (s : St) :
    ∃ w, Run.Linked RecordsFresh s w (tryState env skill request s) ∧
      let t := executionTry (env.forExecution skill request) skill request p d skill.body false
        (tryState env skill request s)
      execute env skill request s = ⟨w ++ t.written, t.final, t.outcome⟩ := by
  refine ⟨[chainState s, ⟨s.ctx, (tryState env skill request s).world⟩, tryState env skill request s],
    ⟨recordsFresh_of_ctx rfl, recordsFresh_of_ctx rfl, ?_, rfl⟩, execute_started env h s⟩
  intro c hc
  simp [tryState] at hc

/-- Authorizing fails with an `AuthorizationError`. -/
theorem authorizeExecution_error {skill : SkillObject} {principal : Option ExecutionPrincipal} {e : Exn}
    (h : authorizeExecution env skill principal = .error e) : ∃ m ref, e = .authorization m ref := by
  unfold authorizeExecution at h
  split at h
  · cases h
    exact ⟨_, _, rfl⟩
  · rename_i p
    cases hv : p.validate (env.environment = .production) with
    | error e' =>
      rw [hv] at h
      cases h
      exact p.validate_error hv
    | ok u =>
      rw [hv] at h
      cases ha : env.authorizer.authorize p ("skill:" ++ skill.skillId ++ ":execute") ["nsl:skill:execute"] with
      | error e' =>
        simp only [ha, bind, Except.bind] at h
        cases h
        exact StaticAuthorizer.authorize_error ha
      | ok d =>
        simp only [ha, bind, Except.bind] at h
        cases h

theorem rejectExecution_ok (skill : SkillObject) (request : ExecutionRequest) (message : String) (ref : Option String)
    (s : St) : ∃ w s' r, rejectExecution env skill request message ref s = ⟨w, s', .ok r⟩ := by
  obtain ⟨w, s', hemit, -⟩ := emit_ok env "EXECUTION_REJECTED"
    (rejectedPayload_json skill request (redact message []) ref) s
  exact ⟨_, s', _, Run.andThen_ok hemit⟩

/-- A refused execution is its rejection, after one write. -/
theorem execute_refused {skill : SkillObject} {request : ExecutionRequest} {m : String} {ref : Option String}
    (h : authorizeExecution (env.forExecution skill request) skill request.principal = .error (.authorization m ref))
    (s : St) :
    let t := rejectExecution (env.forExecution skill request) skill request m ref (chainState s)
    execute env skill request s = ⟨[chainState s] ++ t.written, t.final, t.outcome⟩ := by
  have hchain : startChain s = ⟨[chainState s], chainState s, .ok ()⟩ := rfl
  obtain ⟨w, s', r, hr⟩ := rejectExecution_ok (env.forExecution skill request) skill request m ref (chainState s)
  have hinner : Run.andThen startChain (fun _ => Run.andThen
      (rejectExecution (env.forExecution skill request) skill request m ref)
      (fun result => Run.done (result, (none : Option Context)))) s =
      ⟨[chainState s] ++ w, s', .ok (r, none)⟩ := by
    rw [Run.andThen_ok hchain, Run.andThen_ok hr]
    simp [Run.done]
  unfold execute executeWithContext
  simp only [h, Run.bind_eq]
  rw [Run.andThen_ok hinner, hr]
  simp [Run.done]

/-- A rejected execution returns, and records nothing. -/
theorem execute_rejected {skill : SkillObject} {request : ExecutionRequest} {e : Exn}
    (h : authorizeExecution (env.forExecution skill request) skill request.principal = .error e) (s : St) :
    (execute env skill request s).outcome.isOk = true ∧
      Run.Linked RecordsFresh s (execute env skill request s).written (execute env skill request s).final := by
  obtain ⟨m, ref, rfl⟩ := authorizeExecution_error _ h
  have hreject : Run.Steps RecordsFresh (rejectExecution (env.forExecution skill request) skill request m ref) :=
    (emitHidden_steps _ (fun _ _ _ _ _ => recordsFresh_of_ctx rfl) _ _ _ _ _).andThen (fun _ => Run.steps_done _)
  rw [execute_refused env h s]
  obtain ⟨w, s', r, hr⟩ := rejectExecution_ok (env.forExecution skill request) skill request m ref (chainState s)
  refine ⟨?_, recordsFresh_of_ctx rfl, hreject (chainState s)⟩
  dsimp only
  rw [hr]
  rfl

variable {env}

/-- A request that can be projected and hashed is recorded. -/
theorem executionStarted_reaches {c : Context} {skill : SkillObject} {request : ExecutionRequest}
    {principal : ExecutionPrincipal} {decision : AuthorizationDecision} {projected : List (String × Value)}
    {inputHash contextHash : String} (hsnapshots : env.snapshots = none)
    (hprojected : projectDeclaredContext skill request.runtimeContext = .ok projected)
    (hinputs : valueHash (.dict request.inputs.entries) = .ok inputHash)
    (hcontext : valueHash (.dict request.runtimeContext.entries) = .ok contextHash) :
    Reaches c (executionStarted env skill request principal decision) () c := by
  refine Reaches.bind (Reaches.ofExcept hprojected) ?_
  refine Reaches.bind (putSnapshot_reaches hsnapshots _ _) (Reaches.bind (putSnapshot_reaches hsnapshots _ _) ?_)
  refine Reaches.bind (Reaches.ofExcept hinputs) (Reaches.bind (Reaches.ofExcept hcontext) (emit_reaches _ ?_))
  simp [startedPayload, fieldsJson, Value.isJson, optionalStr_isJson]

/-- The `try` of a skill that declares no inputs and no contexts reaches its statements. -/
theorem executionPrologue_reaches {c : Context} {skill : SkillObject} {request : ExecutionRequest}
    {principal : ExecutionPrincipal} {decision : AuthorizationDecision} {allowControlled : Bool} (h : InTime env c)
    (hpreflight : preflight env skill allowControlled = .ok ()) (hsnapshots : env.snapshots = none) (hskillInputs : skill.inputs = [])
    (hcontexts : skill.contexts = []) (hinputs : request.inputs = Dict.empty) (hcontext : request.runtimeContext = Dict.empty) :
    Reaches c (executionPrologue env skill request principal decision allowControlled) () c := by
  obtain ⟨hash, hhash⟩ := valueHash_ok (v := .dict []) rfl
  have hprojected : projectDeclaredContext skill request.runtimeContext = .ok [] := by
    unfold projectDeclaredContext
    rw [hcontexts]
    rfl
  have hinputHash : valueHash (.dict request.inputs.entries) = .ok hash := by
    rw [hinputs]
    exact hhash
  have hcontextHash : valueHash (.dict request.runtimeContext.entries) = .ok hash := by
    rw [hcontext]
    exact hhash
  refine Reaches.bind (checkDeadline_reaches h) (Reaches.bind (Reaches.ofExcept hpreflight) ?_)
  refine Reaches.bind (executionStarted_reaches hsnapshots hprojected hinputHash hcontextHash) ?_
  unfold bindInputsAndContexts
  rw [hskillInputs, hcontexts]
  exact Reaches.bind (Reaches.done []) (Reaches.bind (Reaches.done []) (Reaches.bind (Reaches.done ()) (Reaches.done ())))

/-- **Where the statements leave checks without a summary, the `try` and its handler both fail.** -/
theorem executionTry_escapes {c c' : Context} {skill : SkillObject} {request : ExecutionRequest}
    {principal : ExecutionPrincipal} {decision : AuthorizationDecision} {statements : List Statement} {m : String}
    (hprologue : Reaches c (executionPrologue env skill request principal decision false) () c)
    (hblock : Reaches c (executeBlock env statements) () c') (h : InTime env c') (hv : c'.skill.isV02 = true)
    (hsummary : ValidationSummary.fromChecks c'.checks = .error (.value m)) (s : St) (hs : s.ctx = c) :
    (executionTry env skill request principal decision statements false s).outcome = .error (.value m) := by
  have hresult : ∀ status error, resultOf c' status error = .error (.value m) := by
    intro status error
    unfold resultOf
    rw [if_pos hv, hsummary]
    rfl
  obtain ⟨w₁, s₁, h₁, hs₁⟩ := hprologue s hs
  obtain ⟨w₂, s₂, h₂, hs₂⟩ := hblock s₁ hs₁
  obtain ⟨w₃, s₃, h₃, hs₃⟩ := checkDeadline_reaches h s₂ hs₂
  have hepilogue : executionEpilogue env decision s₂ = ⟨w₃ ++ [], s₃, .error (.value m)⟩ := by
    unfold executionEpilogue getCtx
    rw [Run.bind_eq, Run.andThen_ok h₃, Run.bind_eq, Run.look_andThen]
    simp only [hs₃, hresult]
    rfl
  have hbody : executionBody env skill request principal decision statements false s =
      ⟨w₁ ++ (w₂ ++ (w₃ ++ [])), s₃, .error (.value m)⟩ := by
    unfold executionBody
    rw [Run.bind_eq, Run.andThen_ok h₁, Run.bind_eq, Run.andThen_ok h₂, hepilogue]
  obtain ⟨w₄, s₄, -, hfailed⟩ := failed_eq env
    { code := "NSL-E8002", category := "RUNTIME", message := "An unexpected runtime error occurred." } s₃
  have hhandler : onFailure env (.value m) s₃ = ⟨w₄, s₄, .error (.value m)⟩ := by
    rw [hs₃, hresult] at hfailed
    exact hfailed
  unfold executionTry
  rw [Run.handle_error hbody, hhandler]

end EngineReturns

section Counterexample

/-- A 0.2 skill whose loop runs its CHECK on each of two numbers. -/
def loopedCheckBody : List Statement :=
  [.foreach "n1" "item" (.literal "n2" (.list [.int 1, .int 2]) (listType INT)) 2
    [.check { nodeId := "n3", checkId := "POSITIVE", condition := .literal "n4" (.bool true) BOOL, severity := "ERROR",
              onFail := "CONTINUE", message := "not positive", resultSymbolId := "check.POSITIVE" }]]

variable [Platform]

def loopedCheckSkill : SkillObject := (SkillObject.ofBody "1.1" "0.2" ⟨1, 2, 1, 2, 1000⟩ loopedCheckBody).sealHash

def analystRequest : ExecutionRequest := .plain (.ofPlain "run-1") (some analyst) none

theorem analyst_validate (requireVerified : Bool) : analyst.validate requireVerified = .ok () := by
  unfold ExecutionPrincipal.validate ensureNoCredentialMaterial
  rw [findCredentialPath_plain _ _ _ (by decide +kernel)]
  cases requireVerified <;> decide

theorem analyst_authorized (env : Env) {skill : SkillObject} (h : skill.skillId = "skill") :
    ∃ d, authorizeExecution env skill (some analyst) = .ok (analyst, d) := by
  have hauthorize : ∃ d, env.authorizer.authorize analyst ("skill:" ++ skill.skillId ++ ":execute")
      ["nsl:skill:execute"] = .ok d := by
    unfold StaticAuthorizer.authorize
    rw [analyst_validate, h]
    exact ⟨_, rfl⟩
  obtain ⟨d, hd⟩ := hauthorize
  refine ⟨d, ?_⟩
  unfold authorizeExecution
  simp only [analyst_validate, bind, Except.bind]
  rw [hd]
  rfl

theorem loopedCheck_preflight (env : Env) : preflight env loopedCheckSkill false = .ok () := by
  have hhash : loopedCheckSkill.computedHash = .ok loopedCheckSkill.semanticHash := SkillObject.sealHash_computedHash rfl
  have hprofile : supportedProfile loopedCheckSkill.irVersion loopedCheckSkill.languageVersion =
      some loopedCheckSkill.semanticsProfile := rfl
  have hcontrolled : containsControlled loopedCheckSkill.body = false := rfl
  have hbounded : loopedCheckSkill.analysis.bounded = true := rfl
  have htools : loopedCheckSkill.requiredTools = [] := rfl
  unfold preflight
  rw [hprofile, hhash, hcontrolled, hbounded, htools]
  simp [bind, Except.bind, pure, Except.pure]

/-- **The run of that skill ends in an exception and no result**: its second CHECK is recorded under the same identifier. -/
theorem loopedCheck_escapes (w : World) (c : Context) :
    (execute Env.bare loopedCheckSkill analystRequest ⟨c, w⟩).outcome =
      .error (.value "check IDs must be unique non-empty strings") := by
  let env := Env.bare.forExecution loopedCheckSkill analystRequest
  obtain ⟨d, hd⟩ := @analyst_authorized _ env loopedCheckSkill rfl
  obtain ⟨w', -, hrun⟩ := @execute_authorized _ Env.bare loopedCheckSkill analystRequest _ _ hd ⟨c, w⟩
  rw [hrun]
  let start := (tryState Env.bare loopedCheckSkill analystRequest ⟨c, w⟩).ctx
  have htime : InTime env start := fun n => by
    show (0 : Int) < 1000 * 1000000 - (0 - 0)
    decide
  have hprologue : Reaches start (executionPrologue env loopedCheckSkill analystRequest analyst d false) () start :=
    executionPrologue_reaches htime (loopedCheck_preflight env) rfl rfl rfl rfl rfl
  have hblock : Reaches start (executeBlock env loopedCheckSkill.body) () _ :=
    foreach_check_reaches rfl (by decide) ⟨htime, show 0 + 2 ≤ 2 by decide, rfl, rfl⟩
      (show 0 < 16 by decide) (show 2 ≤ 2 by decide) (by decide)
  exact executionTry_escapes hprologue hblock htime rfl rfl _ rfl

end Counterexample

section Ascii

attribute [local instance] Platform.ascii

end Ascii
end Nsl
