import Nsl.CallNumbers
import Nsl.EngineReturns
import Nsl.PassComplete
import Nsl.Twins
/-!
# TwinExecutions — two executions that end the same

Part by part the interpreter ends the same in both of two `Twins`: its READs, since the calls are the same and the answers
differ in their snapshots at most; its expressions and statements; and the execution, whose result is the same but for the
identifier of the execution.
-/
namespace Nsl

open Stateful (Run)
open Stateful.Run (Mirrors Agree)

mutual
/-- JSON refuses a value with a `TypeError`. -/
theorem toJson_type : ∀ {v : Value} {e : Exn}, toJson v = .error e → ∃ m, e = .type m
  | .null, _, h | .bool _, _, h | .int _, _, h | .float _, _, h | .str _, _, h => by cases h
  | .list items, e, h | .tuple items, e, h => by
    rw [toJson] at h
    cases hitems : toJsonItems items with
    | ok js   => rw [hitems] at h; cases h
    | error f => rw [hitems] at h; cases h; exact toJsonItems_type hitems
  | .dict items, e, h => by
    rw [toJson] at h
    cases hitems : toJsonFields items with
    | ok js   => rw [hitems] at h; cases h
    | error f => rw [hitems] at h; cases h; exact toJsonFields_type hitems
  | .decimal _, _, h | .money _, _, h | .date _, _, h | .datetime _, _, h | .foreign _, _, h => by
    cases h
    exact ⟨_, rfl⟩
theorem toJsonItems_type : ∀ {vs : List Value} {e : Exn}, toJsonItems vs = .error e → ∃ m, e = .type m
  | [], _, h      => by cases h
  | v :: vs, e, h => by
    rw [toJsonItems] at h
    cases hv : toJson v with
    | error f => rw [hv] at h; cases h; exact toJson_type hv
    | ok j    =>
      cases hvs : toJsonItems vs with
      | error f => rw [hv, hvs] at h; cases h; exact toJsonItems_type hvs
      | ok js   => rw [hv, hvs] at h; cases h
theorem toJsonFields_type : ∀ {vs : List (String × Value)} {e : Exn}, toJsonFields vs = .error e → ∃ m, e = .type m
  | [], _, h           => by cases h
  | (k, v) :: vs, e, h => by
    rw [toJsonFields] at h
    cases hv : toJson v with
    | error f => rw [hv] at h; cases h; exact toJson_type hv
    | ok j    =>
      cases hvs : toJsonFields vs with
      | error f => rw [hv, hvs] at h; cases h; exact toJsonFields_type hvs
      | ok js   => rw [hv, hvs] at h; cases h
end

section TwinExecutions

variable [Platform]

theorem Stills.callsGrow {α : Type} {env : Env} {m : Run St Exn α} (h : Stills env m) (s : St) : CallsGrow s (m s).final := by
  show s.world.calls <+: (m s).final.world.calls
  exact (h.same s).2.1 ▸ List.prefix_rfl

namespace Twins

variable {α β γ δ : Type} {Q : α → β → Prop} {T : γ → δ → Prop} {E : Exn → Prop} {W : Twins}

/-! ## Calls -/

/-- The errors of a call that is checked: none of them is of a timeout. -/
def NoTimeout (e : Exn) : Prop := isTimeout e = false

/-- Two answers a port returned. -/
def SameReturn (a b : PortAnswer) : Prop := SameAnswer a b ∧ ∀ e, a ≠ .raises e

theorem callPort {q q' : ToolCallRequest} (hq : q.Same q') :
    W.Mirror (Nsl.callPort W.env q) (Nsl.callPort W.env' q') SameReturn NoTimeout := by
  refine ⟨fun s => ?_, fun s s' hs hok => ?_⟩
  · rw [(callPort_apply W.env q s).1]
    exact List.prefix_append _ _
  · rw [(callPort_apply W.env q s).1] at hok
    obtain ⟨hanswer, htimeout⟩ := W.ports s.world.calls s'.world.calls q q' hs.calls hq hok
    rw [(callPort_apply W.env q s).1, (callPort_apply W.env q s).2, (callPort_apply W.env' q' s').1,
      (callPort_apply W.env' q' s').2]
    have hcalls : List.Forall₂ AlikeCall (s.world.calls ++ [(q, W.env.port s.world.calls q)])
        (s'.world.calls ++ [(q', W.port' s'.world.calls q')]) :=
      List.rel_append hs.calls (.cons ⟨hq, hanswer⟩ .nil)
    refine ⟨?_, hs.ctx, hs.skill, hs.request, hs.started, hcalls⟩
    rw [show W.env'.port s'.world.calls q' = W.port' s'.world.calls q' from rfl]
    generalize W.env.port s.world.calls q = a at hanswer htimeout ⊢
    generalize W.port' s'.world.calls q' = b at hanswer ⊢
    cases hanswer with
    | returns r ref href => exact .ok ⟨.returns r ref href, fun _ h => by cases h⟩
    | other              => exact .ok ⟨.other, fun _ h => by cases h⟩
    | raises e           => exact .error (htimeout e rfl)

omit [Platform] in
theorem measured_same {q q' : ToolCallRequest} (hq : q.Same q') (o o' : ToolExecutionOutcome) (n n' : Nat) :
    (⟨q', o', n'⟩ : ToolExecutionMeasurement).check = (⟨q, o, n⟩ : ToolExecutionMeasurement).check := by
  obtain ⟨hid, id, hid', rfl⟩ := hq
  unfold ToolExecutionMeasurement.check
  simp only [List.any_cons, hid, hid']

theorem callTools {q q' : ToolCallRequest} (hq : q.Same q') :
    W.Mirror (Nsl.callTools W.env q) (Nsl.callTools W.env' q') SameReturn NoTimeout := by
  unfold Nsl.callTools
  show W.Mirror (if W.env.measured then _ else _) (if W.env.measured then _ else _) SameReturn NoTimeout
  split
  · refine after readClock (fun started started' => andThenGrowing (callPort hq).attempt (fun outcome s => ?_)
      (fun outcome outcome' houtcome => ?_))
    · exact Stills.callsGrow ((readClock_still W.env).bind (fun _ => (Stills.ofExcept _).bind (fun _ =>
        (Stills.ofExcept _).bind (fun _ => Stills.ofExcept _)))) s
    · refine after readClock (fun ended ended' => ?_)
      dsimp only
      rw [measured_same hq (outcomeOf outcome) (outcomeOf outcome')]
      refine andThen (ofExcept (fun e he => ?_)) (fun _ => ?_)
      · unfold ToolExecutionMeasurement.check at he
        split at he
        · cases he
          rfl
        · cases he
      · rw [(W.measured _).1]
        show W.Mirror (Run.andThen (Run.ofExcept (.ok ())) _) (Run.andThen (Run.ofExcept (W.sink' _)) _) _ _
        rw [(W.measured _).2]
        exact andThen (done ()) (fun _ => Run.mirrors_ofExcept houtcome)
  · exact callPort hq

/-! ## The checks of a call -/

omit [Platform] in
theorem argumentsConform_same (q : ToolCallRequest) (id : String) (ts : List (String × TypeRef)) :
    argumentsConform { q with executionId := id } ts = argumentsConform q ts := by
  induction ts with
  | nil             => rfl
  | cons entry ts ih =>
    obtain ⟨n, t⟩ := entry
    unfold argumentsConform
    rw [ih]

omit [Platform] in
theorem argumentsConform_noTimeout {q : ToolCallRequest} : ∀ {ts : List (String × TypeRef)} {e : Exn},
    argumentsConform q ts = .error e → NoTimeout e
  | [], _, h           => by cases h
  | (n, t) :: ts, e, h => by
    unfold argumentsConform at h
    split at h
    · split at h
      · exact argumentsConform_noTimeout h
      · cases h
        rfl
    · cases h
      rfl

theorem validateRequest_same {q q' : ToolCallRequest} (hq : q.Same q') (contract : ToolContract) :
    validateRequest q' contract = validateRequest q contract := by
  obtain ⟨-, id, -, rfl⟩ := hq
  unfold validateRequest
  rw [argumentsConform_same]

theorem validateRequest_noTimeout {q : ToolCallRequest} {contract : ToolContract} {e : Exn}
    (h : validateRequest q contract = .error e) : NoTimeout e := by
  unfold validateRequest at h
  split at h
  · cases h
    rfl
  · split at h
    · cases h
      rfl
    · exact argumentsConform_noTimeout h

omit [Platform] in
theorem isRef_iff {x : Option (Option String)} : isRef x = true ↔ ∃ t, x = some t ∧ t ≠ some "" := by
  cases x <;> simp [isRef]

omit [Platform] in
theorem not_isRef {x : Option (Option String)} (h : ¬ isRef x = true) : x = none ∨ x = some (some "") := by
  cases x with
  | none   => exact .inl rfl
  | some t => exact .inr (by simpa [isRef] using h)

omit [Platform] in
theorem validateResultStructure_same {a b : PortAnswer} (hab : SameReturn a b) {q q' : ToolCallRequest} (hq : q.Same q') :
    Agree SameResult NoTimeout (validateResultStructure a q) (validateResultStructure b q') := by
  obtain ⟨-, id, -, rfl⟩ := hq
  obtain ⟨hab, hreturned⟩ := hab
  cases hab with
  | raises e           => exact absurd rfl (hreturned e)
  | other              => exact .error rfl
  | returns r ref href =>
    unfold validateResultStructure
    dsimp only
    split
    · exact .error rfl
    · rcases r.typeInfo with _ | typeInfo <;> rcases r.presence with _ | presence <;>
        rcases r.completeness with _ | completeness <;> rcases r.classification with _ | classification <;>
        try exact .error rfl
      -- the metadata is there: what decides is whether the reference is one
      by_cases hr : isRef r.snapshotRef = true
      · obtain ⟨u, rfl, hu⟩ := isRef_iff.1 (href.trans hr)
        obtain ⟨t, ht, hne⟩ := isRef_iff.1 hr
        rw [ht]
        dsimp only
        rw [if_neg hne, if_neg hu]
        exact .ok ⟨u, rfl⟩
      · rcases not_isRef hr with ht | ht <;> rw [ht] <;>
          rcases not_isRef (href ▸ hr) with rfl | rfl <;> exact .error rfl

/-! ## A READ -/

theorem executeWithTimeout {q q' : ToolCallRequest} (hq : q.Same q') (timeoutMs timeoutMs' : Int) :
    W.Mirror (Nsl.executeWithTimeout W.env q timeoutMs) (Nsl.executeWithTimeout W.env' q' timeoutMs') SameReturn NoTimeout := by
  refine (callTools hq).handle W.closedState (fun e s => ?_) (fun e he => ?_)
  · split <;> exact List.prefix_rfl
  · split
    · cases he
    · cases he
    · exact Run.mirrors_fail he

theorem resultChecks {r r' : ToolResultEnvelope} (hr : SameResult r r') (contract : ToolContract) :
    validateResult r' contract = validateResult r contract ∧ validateResultHash r' = validateResultHash r ∧
      r'.presence = r.presence ∧ r'.value = r.value ∧ ∀ ref, r'.toValue ref = r.toValue ref := by
  obtain ⟨ref, rfl⟩ := hr
  exact ⟨rfl, rfl, rfl, rfl, fun _ => rfl⟩

omit [Platform] in
theorem validateResult_noTimeout {r : ToolResultEnvelope} {contract : ToolContract} {e : Exn}
    (h : validateResult r contract = .error e) : NoTimeout e := by
  unfold validateResult at h
  split at h
  · cases h
    rfl
  · split at h
    · cases h
    · cases h
      rfl

theorem validateResultHash_noTimeout {r : ToolResultEnvelope} {e : Exn} (h : validateResultHash r = .error e) : NoTimeout e := by
  unfold validateResultHash at h
  split at h
  · rename_i hhash
    cases h
    unfold toolResultHash canonicalJson at hhash
    cases hjson : toJson (encodeValue r.value) with
    | ok j    => rw [hjson] at hhash; cases hhash
    | error f =>
      rw [hjson] at hhash
      cases hhash
      obtain ⟨m, rfl⟩ := toJson_type hjson
      rfl
  · split at h
    · cases h
    · cases h
      rfl

theorem checkedCall (t : ToolCall) {q q' : ToolCallRequest} (hq : q.Same q') (timeoutMs timeoutMs' : Int) (policy : ResultPolicy) :
    W.Mirror (Nsl.checkedCall W.env t q timeoutMs policy) (Nsl.checkedCall W.env' t q' timeoutMs' policy) SameResult NoTimeout := by
  have hrest : ∀ r, Stills W.env (do
      Run.ofExcept (validateResult r t.contract)
      Run.ofExcept (validateResultHash r)
      if policy.required ∧ r.presence = .empty ∧ !policy.emptyIsValid then
        Run.fail (.toolExecution "REQUIRED_TOOL_RESULT_MISSING" ("required tool result is missing: " ++ t.required.toolId))
      else do
        Nsl.checkDeadline W.env
        Run.done r) := by
    refine fun r => (Stills.ofExcept _).bind (fun _ => (Stills.ofExcept _).bind (fun _ => ?_))
    split
    · exact Stills.fail _
    · exact (checkDeadline_still W.env).bind (fun _ => Stills.done _)
  unfold Nsl.checkedCall
  rw [validateRequest_same hq]
  refine andThen (ofExcept (fun e he => validateRequest_noTimeout he)) (fun _ => ?_)
  refine andThenGrowing (executeWithTimeout hq timeoutMs timeoutMs') (fun answer s => ?_) (fun a b hab => ?_)
  · exact Stills.callsGrow ((Stills.ofExcept (validateResultStructure answer q)).bind hrest) s
  · refine andThenGrowing (Run.mirrors_ofExcept (validateResultStructure_same hab hq))
      (fun r s => Stills.callsGrow (hrest r) s) (fun r r' hr => ?_)
    obtain ⟨hresult, hhash, hpresence, -, -⟩ := resultChecks hr t.contract
    rw [hresult, hhash, hpresence]
    refine andThen (ofExcept (fun e he => validateResult_noTimeout he)) (fun _ =>
      andThen (ofExcept (fun e he => validateResultHash_noTimeout he)) (fun _ => ?_))
    split
    · exact Run.mirrors_fail rfl
    · exact andThen checkDeadline (fun _ => Run.mirrors_done hr)

theorem toolFailed (t : ToolCall) (code : String) (detail : Option String) (status : String) :
    W.Mirror (Nsl.toolFailed W.env t code detail status) (Nsl.toolFailed W.env' t code detail status) Eq E :=
  emit _ (by simp [ToolCall.base, fieldsJson, Value.isJson, optionalStr_isJson])
    (by simp [ToolCall.base, fieldsJson, Value.isJson, optionalStr_isJson])

/-- The report of a failure does not depend on the time left, unless a timeout is reported. -/
theorem reportFailure (t : ToolCall) (limited limited' : Bool) {e : Exn} (he : NoTimeout e) :
    W.Mirror (Nsl.reportFailure W.env t limited e) (Nsl.reportFailure W.env' t limited' e) SameResult := by
  cases e with
  | limitExceeded m      => exact andThen (toolFailed t _ _ _) (fun _ => fail _)
  | toolExecution code m =>
    have hcode : ¬ code = "TOOL_TIMEOUT" := of_decide_eq_false he
    unfold Nsl.reportFailure
    dsimp only
    rw [if_neg (fun h => hcode h.1), if_neg (fun h => hcode h.1)]
    exact andThen (toolFailed t _ _ _) (fun _ => fail _)
  | cancelled b          => exact fail _
  | exit                 => exact fail _
  | _                    => exact andThen (toolFailed t _ _ _) (fun _ => fail _)

/-- The snapshot a result has leaves the context and the calls as they are. -/
theorem storedRef_aside (env : Env) (r : ToolResultEnvelope) (s : St) :
    ∃ w y a, storedRef env r s = ⟨w, y, .ok a⟩ ∧ y.ctx = s.ctx ∧ y.world.calls = s.world.calls := by
  unfold storedRef
  cases r.snapshotRef with
  | some ref => exact ⟨_, _, _, rfl, rfl, rfl⟩
  | none     =>
    obtain ⟨w, y, a, hrun, hctx, hcalls⟩ := putSnapshot_aside env r.value r.classification s
    exact ⟨_, _, _, Run.andThen_ok hrun, hctx, hcalls⟩

theorem acceptResult (t : ToolCall) {r r' : ToolResultEnvelope} (hr : SameResult r r') :
    W.Mirror (Nsl.acceptResult W.env t r) (Nsl.acceptResult W.env' t r') Eq := by
  obtain ⟨ref, rfl⟩ := hr
  have hjson : ∀ x : Option String, fieldsJson (t.base ++
      [("authorization_decision_ref", .str t.decisionId), ("result_hash", .str r.resultHash),
       ("snapshot_ref", optionalStr x), ("presence", .str (StrEnum.value r.presence)),
       ("completeness", .str (StrEnum.value r.completeness)),
       ("output", .dict
         [("result_hash", .str r.resultHash), ("snapshot_ref", optionalStr x),
          ("type", ofJson r.typeInfo.toData), ("presence", .str (StrEnum.value r.presence)),
          ("completeness", .str (StrEnum.value r.completeness)),
          ("classification", .str (StrEnum.value r.classification))])]) = true := fun x => by
    simp [ToolCall.base, fieldsJson, Value.isJson, optionalStr_isJson, ofJson_isJson]
  refine after (aside (storedRef_aside W.env r) (storedRef_aside W.env' { r with snapshotRef := ref })) (fun stored stored' => ?_)
  exact andThen (emit _ (hjson stored) (hjson stored')) (fun _ => andThen (onList observeCollection _) (fun _ => done _))

theorem toolStarted (t : ToolCall) (hash : String) (ref ref' : Option SnapshotRef) :
    W.Mirror (Nsl.toolStarted W.env t hash ref) (Nsl.toolStarted W.env' t hash ref') Eq :=
  emit _ (by simp [ToolCall.base, fieldsJson, Value.isJson, optionalStr_isJson, itemsJson_texts])
    (by simp [ToolCall.base, fieldsJson, Value.isJson, optionalStr_isJson, itemsJson_texts])

theorem request_same (t : ToolCall) (c : Context) (principal : ExecutionPrincipal) (startedNs : Int) (request : ExecutionRequest) :
    (t.request c principal).Same (t.request (c.moved startedNs request) principal) :=
  ⟨isBlank_of_isRequiredText c.request.executionId.ok, request.executionId.text,
    isBlank_of_isRequiredText request.executionId.ok, rfl⟩

/-- **A call ends the same.** -/
theorem performCall (t : ToolCall) (principal : ExecutionPrincipal) (policy : ResultPolicy) :
    W.Mirror (Nsl.performCall W.env t principal policy) (Nsl.performCall W.env' t principal policy) Eq := by
  refine andThen (pure _) (fun hash => after (putSnapshot _ _ _ _) (fun ref ref' => andThen (toolStarted t hash ref ref')
    (fun _ => getCtx_andThen (fun c => after remainingDurationMs (fun remaining remaining' => ?_)))))
  have hcall := (checkedCall (W := W) t (request_same t c principal W.startedNs' W.request')
    (min t.contract.timeoutMs remaining) (min t.contract.timeoutMs remaining') policy).handle W.closedState
      (fun e s => Stills.callsGrow (reportFailure_still W.env t (remaining ≤ t.contract.timeoutMs) e) s)
      (fun e he => reportFailure t _ (remaining' ≤ t.contract.timeoutMs) he)
  exact andThenWith hcall (fun r => ⟨r, r.snapshotRef, rfl⟩) (fun r r' hr => acceptResult t hr)

theorem resolveRead_same {c : Context} (hc : c.request.principal = W.request'.principal) (startedNs : Int) (toolRef : String)
    (names : List String) : resolveRead W.env' (c.moved startedNs W.request') toolRef names = resolveRead W.env c toolRef names := by
  unfold resolveRead
  rw [show (c.moved startedNs W.request').skill = c.skill from rfl]
  rw [show (c.moved startedNs W.request').request.principal = c.request.principal from hc.symm]
  rfl

/-- **A READ ends the same**, where its arguments do. -/
theorem executeRead (nodeId toolRef : String) (names : List String) {arguments arguments' : Run St Exn (List (String × ValueEnvelope))}
    (h : W.Mirror arguments arguments' Eq) (policy : ResultPolicy) :
    W.Mirror (Nsl.executeRead W.env nodeId toolRef names arguments policy)
      (Nsl.executeRead W.env' nodeId toolRef names arguments' policy) Eq := by
  let rest (env : Env) (arguments : Run St Exn (List (String × ValueEnvelope)))
      (found : RequiredTool × ToolContract × ExecutionPrincipal × AuthorizationDecision) : Run St Exn ValueEnvelope := do
    let args ← arguments
    Nsl.beforeToolCall env
    numberedCall env nodeId found.1 found.2.1 found.2.2.2.decisionId found.2.2.1 policy args
  have hasks : ∀ (env : Env) (arguments : Run St Exn (List (String × ValueEnvelope))),
      Nsl.executeRead env nodeId toolRef names arguments policy =
        Run.andThen (Run.ask (fun s => resolveRead env s.ctx toolRef names)) (rest env arguments) := by
    intro env arguments
    funext s
    show Run.andThen (Run.ofExcept (resolveRead env s.ctx toolRef names)) (rest env arguments) s =
      Run.andThen (Run.ask (fun s => resolveRead env s.ctx toolRef names)) (rest env arguments) s
    unfold Run.andThen Run.ask
    rw [Run.ofExcept_apply]
  rw [hasks, hasks]
  have hask : W.Mirror (Run.ask (fun s => resolveRead W.env s.ctx toolRef names))
      (Run.ask (fun s => resolveRead W.env' s.ctx toolRef names)) Eq := by
    refine Run.mirrors_ask (fun s s' hs => ?_)
    rw [hs.ctx, resolveRead_same (hs.request ▸ W.principal.symm)]
    exact Run.agree_self (fun _ _ => trivial)
  refine andThen hask (fun found => andThen h (fun args => andThen beforeToolCall (fun _ => ?_)))
  exact andThen (modifyCtx (fun _ _ _ => rfl) (fun _ => ⟨rfl, rfl, rfl⟩)) (fun _ => getCtx_andThen (fun counted =>
    performCall _ _ policy))

/-! ## Expressions -/

/-- What is around an expression. -/
theorem evaluated (e : Expression) {ir ir' : Run St Exn ValueEnvelope} (h : W.Mirror ir ir' Eq) :
    W.Mirror (Nsl.evaluated W.env e ir) (Nsl.evaluated W.env' e ir') Eq := by
  unfold Nsl.evaluated
  split
  · exact fail _
  · refine andThen ((andThen checkDeadline (fun _ => h)).handle W.closedState (fun _ _ => List.prefix_rfl) (fun _ _ => fail _))
      (fun result => ?_)
    split
    · exact fail _
    · exact andThen (observeCompleteness _) (fun _ => andThen checkDeadline (fun _ =>
        andThen (onList checkCollection _) (fun _ => done _)))

mutual
theorem evaluateIr : ∀ (e : Expression), W.Mirror (Nsl.evaluateIr W.env e) (Nsl.evaluateIr W.env' e) Eq
  | .literal n value t => by
    unfold Nsl.evaluateIr
    exact done _
  | .symbolRef n i t   => by
    unfold Nsl.evaluateIr
    exact getCtx_andThen (fun c => pure (c.resolve i))
  | .field n e f t     => by
    unfold Nsl.evaluateIr
    exact andThen (evaluated e (evaluateIr e)) (fun _ => pure _)
  | .project n e f t   => by
    unfold Nsl.evaluateIr
    exact andThen (evaluated e (evaluateIr e)) (fun _ => pure _)
  | .call n f es t     => by
    unfold Nsl.evaluateIr
    exact andThen (evaluateItems es) (fun vs => pure (callValue W.env f t vs))
  | .binary n op l r t => by
    unfold Nsl.evaluateIr
    exact andThen (evaluated l (evaluateIr l)) (fun v => andThen (evaluated r (evaluateIr r)) (fun w =>
      pure (binaryValue W.env op t v w)))
  | .read n u es t p   => by
    unfold Nsl.evaluateIr
    exact executeRead n u _ (evaluateArguments es) p
  | .write ..          => by
    unfold Nsl.evaluateIr
    exact fail _
theorem evaluateItems : ∀ (es : List Expression), W.Mirror (Nsl.evaluateItems W.env es) (Nsl.evaluateItems W.env' es) Eq
  | []      => by
    unfold Nsl.evaluateItems
    exact done _
  | e :: es => by
    unfold Nsl.evaluateItems
    exact andThen (evaluated e (evaluateIr e)) (fun _ => andThen (evaluateItems es) (fun _ => done _))
theorem evaluateArguments : ∀ (es : List (String × Expression)),
    W.Mirror (Nsl.evaluateArguments W.env es) (Nsl.evaluateArguments W.env' es) Eq
  | []           => by
    unfold Nsl.evaluateArguments
    exact done _
  | (n, e) :: es => by
    unfold Nsl.evaluateArguments
    exact andThen (evaluated e (evaluateIr e)) (fun _ => andThen (evaluateArguments es) (fun _ => done _))
end

theorem evaluate (e : Expression) : W.Mirror (Nsl.evaluate W.env e) (Nsl.evaluate W.env' e) Eq := evaluated e (evaluateIr e)

/-! ## Statements -/

theorem bindSymbol (symbolId : String) (v : ValueEnvelope) : W.Mirror (Nsl.bindSymbol symbolId v) (Nsl.bindSymbol symbolId v) Eq :=
  bindOnce (fun _ _ _ => rfl) (fun _ => ⟨rfl, rfl, rfl⟩)

theorem executeLet (s : LetStatement) : W.Mirror (Nsl.executeLet W.env s) (Nsl.executeLet W.env' s) Eq :=
  andThen (evaluate s.value) (fun v => bindSymbol s.targetSymbolId v)

theorem checkCompleted (s : CheckStatement) (check : CheckResult) :
    W.Mirror (Nsl.checkCompleted W.env s check) (Nsl.checkCompleted W.env' s check) Eq := by
  have hrefs : itemsJson (check.provenanceRefs.map .str) = true := itemsJson_texts id _
  exact emit _ (by simp [fieldsJson, Value.isJson, optionalStr_isJson, hrefs])
    (by simp [fieldsJson, Value.isJson, optionalStr_isJson, hrefs])

theorem executeCheck (s : CheckStatement) : W.Mirror (Nsl.executeCheck W.env s) (Nsl.executeCheck W.env' s) Eq :=
  andThen (evaluate s.condition) (fun _ => andThen (pure _) (fun check =>
    andThen (modifyCtx (fun _ _ _ => rfl) (fun _ => ⟨rfl, rfl, rfl⟩)) (fun _ =>
      andThen (bindOnce (fun _ _ _ => rfl) (fun _ => ⟨rfl, rfl, rfl⟩)) (fun _ => checkCompleted s check))))

theorem emitField (outputs : List OutputField) (name : String) (e : Expression) :
    W.Mirror (Nsl.emitField W.env outputs name e) (Nsl.emitField W.env' outputs name e) Eq := by
  unfold Nsl.emitField
  split
  · exact fail _
  · split
    · exact fail _
    · refine andThen (evaluate e) (fun result => andThen (pure _) (fun _ => ?_))
      split
      · exact done _
      · exact fail _

theorem emitFields (outputs : List OutputField) : ∀ (fields : List (String × Expression)),
    W.Mirror (Nsl.emitFields W.env outputs fields) (Nsl.emitFields W.env' outputs fields) Eq
  | []           => done _
  | (n, e) :: es => andThen (emitField outputs n e) (fun _ => andThen (emitFields outputs es) (fun _ => done _))

theorem reportRow (nodeId : String) (values : List (String × ValueEnvelope)) :
    W.Mirror (Nsl.reportRow W.env nodeId values) (Nsl.reportRow W.env' nodeId values) Eq :=
  after (putSnapshot _ _ _ _) (fun _ _ => emitRow _ rfl (by simp [fieldsJson, Value.isJson, itemsJson_texts]) _ _ _ _)

theorem appendRow (nodeId : String) (outputs : List OutputField) (values : List (String × ValueEnvelope)) :
    W.Mirror (Nsl.appendRow W.env nodeId outputs values) (Nsl.appendRow W.env' nodeId outputs values) Eq :=
  andThen (pure _) (fun _ => andThen (modifyCtx (fun _ _ _ => rfl) (fun _ => ⟨rfl, rfl, rfl⟩)) (fun _ =>
    andThen recordEmit (fun _ => reportRow nodeId values)))

theorem executeEmit (s : EmitStatement) : W.Mirror (Nsl.executeEmit W.env s) (Nsl.executeEmit W.env' s) Eq := by
  refine andThen beforeEmit (fun _ => getCtx_andThen (fun c => ?_))
  rw [show (c.moved W.startedNs' W.request').skill = c.skill from rfl]
  split
  · exact andThen (emitFields _ _) (fun values => appendRow s.nodeId c.skill.outputs values)
  · exact fail _

theorem loopPass (symbolId : String) (collection : ValueEnvelope) {body body' : Run St Exn Unit} (h : W.Mirror body body' Eq)
    (value : Value) : W.Mirror (Nsl.loopPass W.env symbolId collection body value) (Nsl.loopPass W.env' symbolId collection body' value) Eq :=
  andThen beforeLoopIteration (fun _ => andThen pushFrame (fun _ =>
    (andThen (bindSymbol _ _) (fun _ => h)).lastly W.closedState popFrame))

theorem executeForeachBody (nodeId symbolId : String) (collection : Expression) (maxIterations : Int)
    {body body' : Run St Exn Unit} (h : W.Mirror body body' Eq) :
    W.Mirror (Nsl.executeForeachBody W.env nodeId symbolId collection maxIterations body)
      (Nsl.executeForeachBody W.env' nodeId symbolId collection maxIterations body') Eq := by
  refine andThen (evaluate collection) (fun source => andThen (pure _) (fun size => ?_))
  split
  · exact fail _
  · exact andThen (pure _) (fun values => Run.mirrors_forEach W.closedState (fun value => loopPass symbolId source h value) values)

theorem executeForeach (nodeId symbolId : String) (collection : Expression) (maxIterations : Int)
    {body body' : Run St Exn Unit} (h : W.Mirror body body' Eq) :
    W.Mirror (Nsl.executeForeach W.env nodeId symbolId collection maxIterations body)
      (Nsl.executeForeach W.env' nodeId symbolId collection maxIterations body') Eq := by
  refine getCtx_andThen (fun c => ?_)
  rw [show (c.moved W.startedNs' W.request').foreachDepth = c.foreachDepth from rfl]
  split
  · exact fail _
  · exact andThen (modifyCtx (fun _ _ _ => rfl) (fun _ => ⟨rfl, rfl, rfl⟩)) (fun _ =>
      (executeForeachBody nodeId symbolId collection maxIterations h).lastly W.closedState
        (modifyCtx (fun _ _ _ => rfl) (fun _ => ⟨rfl, rfl, rfl⟩)))

theorem aroundStatement (s : Statement) {run run' : Run St Exn Unit} (h : W.Mirror run run' Eq) :
    W.Mirror (Nsl.aroundStatement W.env s run) (Nsl.aroundStatement W.env' s run') Eq := by
  have hnode : ∀ n, W.Mirror (Nsl.modifyCtx (fun c => { c with currentNodeId := n }))
      (Nsl.modifyCtx (fun c => { c with currentNodeId := n })) Eq := fun _ =>
    modifyCtx (fun _ _ _ => rfl) (fun _ => ⟨rfl, rfl, rfl⟩)
  exact andThen checkDeadline (fun _ => getCtx_andThen (fun c => andThen (hnode _) (fun _ => andThen (emit _ rfl rfl) (fun _ =>
    andThen h (fun _ => andThen (emit _ rfl rfl) (fun _ => hnode c.currentNodeId))))))

mutual
theorem executeStatement : ∀ (s : Statement), W.Mirror (Nsl.executeStatement W.env s) (Nsl.executeStatement W.env' s) Eq
  | .letBind s                                  => by
    unfold Nsl.executeStatement
    exact executeLet s
  | .foreach nodeId i collection maximum body   => by
    unfold Nsl.executeStatement
    exact executeForeach nodeId i collection maximum (executeBlock body)
  | .check s                                    => by
    unfold Nsl.executeStatement
    exact executeCheck s
  | .emit s                                     => by
    unfold Nsl.executeStatement
    exact executeEmit s
  | .approval _                                 => by
    unfold Nsl.executeStatement
    exact fail _
/-- **A block ends the same.** -/
theorem executeBlock : ∀ (ss : List Statement), W.Mirror (Nsl.executeBlock W.env ss) (Nsl.executeBlock W.env' ss) Eq
  | []      => by
    unfold Nsl.executeBlock
    exact done _
  | s :: ss => by
    unfold Nsl.executeBlock
    exact andThen (aroundStatement s (executeStatement s)) (fun _ => executeBlock ss)
end

/-! ## The execution -/

end Twins

/-- **The skill sees the same in both requests**: the same inputs and contexts of those it declares, and both requests can
be put on record, or neither. -/
structure SameDeclared (skill : SkillObject) (request request' : ExecutionRequest) : Prop where
  inputs    : ∀ spec ∈ skill.inputs, request'.inputs.get? spec.name = request.inputs.get? spec.name
  contexts  : ∀ spec ∈ skill.contexts, (valueAt request'.runtimeContext spec.path).toOption =
    (valueAt request.runtimeContext spec.path).toOption
  projected : SameEnd (projectDeclaredContext skill request.runtimeContext) (projectDeclaredContext skill request'.runtimeContext)
  hashed    : SameEnd (valueHash (.dict request.inputs.entries)) (valueHash (.dict request'.inputs.entries))
  hashed'   : SameEnd (valueHash (.dict request.runtimeContext.entries)) (valueHash (.dict request'.runtimeContext.entries))

/-- The results of two executions of one skill differ in the identifier of the execution at most. -/
def ExecutionResult.Same (r r' : ExecutionResult) : Prop := ∃ id, r' = { r with executionId := id }

namespace Twins

variable {α β γ δ : Type} {Q : α → β → Prop} {T : γ → δ → Prop} {E : Exn → Prop} {W : Twins}

theorem validatedInputs {inputs inputs' : Dict Value} : ∀ {specs : List InputSpec},
    (∀ spec ∈ specs, inputs'.get? spec.name = inputs.get? spec.name) →
      W.Mirror (Nsl.validatedInputs (Nsl.observeCollection W.env) inputs specs)
        (Nsl.validatedInputs (Nsl.observeCollection W.env') inputs' specs) Eq
  | [], _            => done _
  | spec :: specs, h => by
    unfold Nsl.validatedInputs
    rw [h spec (List.mem_cons_self ..)]
    split
    · split
      · exact fail _
      · exact fail _
    · exact andThen (andThen (pure _) (fun _ => onList observeCollection _)) (fun _ =>
        andThen (validatedInputs (fun s hs => h s (List.mem_cons_of_mem _ hs))) (fun _ => done _))

theorem validatedContexts {context context' : Dict Value} : ∀ {specs : List ContextSpec},
    (∀ spec ∈ specs, (valueAt context' spec.path).toOption = (valueAt context spec.path).toOption) →
      W.Mirror (Nsl.validatedContexts (Nsl.observeCollection W.env) context specs)
        (Nsl.validatedContexts (Nsl.observeCollection W.env') context' specs) Eq
  | [], _            => done _
  | spec :: specs, h => by
    have hspec := h spec (List.mem_cons_self ..)
    unfold Nsl.validatedContexts
    cases hv : valueAt context spec.path with
    | error e  =>
      cases hv' : valueAt context' spec.path with
      | error e' => exact fail _
      | ok v'    => rw [hv, hv'] at hspec; cases hspec
    | ok value =>
      cases hv' : valueAt context' spec.path with
      | error e' => rw [hv, hv'] at hspec; cases hspec
      | ok value' =>
        rw [hv, hv'] at hspec
        cases hspec
        exact andThen (andThen (pure _) (fun _ => onList observeCollection _)) (fun _ =>
          andThen (validatedContexts (fun s hs => h s (List.mem_cons_of_mem _ hs))) (fun _ => done _))

theorem bindInput (symbolId : String) (v : ValueEnvelope) : W.Mirror (Nsl.bindInput symbolId v) (Nsl.bindInput symbolId v) Eq :=
  bindOnce (fun _ _ _ => rfl) (fun _ => ⟨rfl, rfl, rfl⟩)

theorem bindContext (symbolId : String) (v : ValueEnvelope) :
    W.Mirror (Nsl.bindContext symbolId v) (Nsl.bindContext symbolId v) Eq :=
  bindOnce (fun _ _ _ => rfl) (fun _ => ⟨rfl, rfl, rfl⟩)

theorem bindInputsAndContexts (h : SameDeclared W.skill W.request W.request') :
    W.Mirror (Nsl.bindInputsAndContexts W.env W.skill W.request) (Nsl.bindInputsAndContexts W.env' W.skill W.request') Eq :=
  andThen (validatedInputs h.inputs) (fun inputs => andThen (validatedContexts h.contexts) (fun contexts =>
    andThen (Run.mirrors_forEach W.closedState (fun _ => bindInput _ _) inputs) (fun _ =>
      Run.mirrors_forEach W.closedState (fun _ => bindContext _ _) contexts)))

theorem executionStarted (h : SameDeclared W.skill W.request W.request') (principal : ExecutionPrincipal)
    (decision : AuthorizationDecision) :
    W.Mirror (Nsl.executionStarted W.env W.skill W.request principal decision)
      (Nsl.executionStarted W.env' W.skill W.request' principal decision) Eq := by
  refine after (Run.mirrors_ofExcept h.projected) (fun context context' => after (putSnapshot _ _ _ _) (fun ref ref' =>
    after (putSnapshot _ _ _ _) (fun contextRef contextRef' => after (Run.mirrors_ofExcept h.hashed) (fun hash hash' =>
      after (Run.mirrors_ofExcept h.hashed') (fun contextHash contextHash' => ?_)))))
  exact emit _ (by simp [startedPayload, fieldsJson, Value.isJson, optionalStr_isJson])
    (by simp [startedPayload, fieldsJson, Value.isJson, optionalStr_isJson])

theorem executionPrologue (h : SameDeclared W.skill W.request W.request') (principal : ExecutionPrincipal)
    (decision : AuthorizationDecision) (allowControlled : Bool) :
    W.Mirror (Nsl.executionPrologue W.env W.skill W.request principal decision allowControlled)
      (Nsl.executionPrologue W.env' W.skill W.request' principal decision allowControlled) Eq :=
  andThen checkDeadline (fun _ => andThen (pure (preflight W.env W.skill allowControlled)) (fun _ =>
    andThen (executionStarted h principal decision) (fun _ => bindInputsAndContexts h)))

theorem resultOf_same (c : Context) (startedNs : Int) (request : ExecutionRequest) (status : ExecutionStatus)
    (error : Option RuntimeErrorInfo) :
    Agree ExecutionResult.Same (fun _ => True) (resultOf c status error) (resultOf (c.moved startedNs request) status error) := by
  have hends : ∀ (x : Except Exn (Option ValidationSummary)) (f g : Option ValidationSummary → ExecutionResult),
      (∀ v, (f v).Same (g v)) → Agree ExecutionResult.Same (fun _ => True) (x >>= fun v => .ok (f v)) (x >>= fun v => .ok (g v)) := by
    intro x f g h
    cases x with
    | error e => exact .error trivial
    | ok v    => exact .ok (h v)
  exact hends _ _ _ (fun v => ⟨_, rfl⟩)

theorem same_total (r : ExecutionResult) : ∃ r', r.Same r' := ⟨r, r.executionId, rfl⟩

theorem executionEpilogue (decision : AuthorizationDecision) :
    W.Mirror (Nsl.executionEpilogue W.env decision) (Nsl.executionEpilogue W.env' decision) ExecutionResult.Same := by
  refine andThen checkDeadline (fun _ => getCtx_andThen (fun c =>
    andThenWith (Run.mirrors_ofExcept (resultOf_same c _ _ _ _)) same_total (fun r r' hr => ?_)))
  exact andThen (emit _ rfl rfl) (fun _ => Run.mirrors_done hr)

theorem failed (f : Failure) : W.Mirror (Nsl.failed W.env f) (Nsl.failed W.env' f) ExecutionResult.Same := by
  have hjson : ∀ (c : Context) (info : RuntimeErrorInfo), fieldsJson (failedPayload c f info) = true := fun c info => by
    simp [failedPayload, fieldsJson, Value.isJson, optionalStr_isJson]
  exact getCtx_andThen (fun c => andThen (emit _ (hjson _ _) (hjson _ _)) (fun _ =>
    Run.mirrors_ofExcept (resultOf_same c _ _ _ _)))

theorem onFailure (e : Exn) : W.Mirror (Nsl.onFailure W.env e) (Nsl.onFailure W.env' e) ExecutionResult.Same := by
  unfold Nsl.onFailure
  split
  · exact failed _
  · exact fail _

/-- **The `try` of an execution ends the same.** -/
theorem executionTry (h : SameDeclared W.skill W.request W.request') (principal : ExecutionPrincipal)
    (decision : AuthorizationDecision) (statements : List Statement) (allowControlled : Bool) :
    W.Mirror (Nsl.executionTry W.env W.skill W.request principal decision statements allowControlled)
      (Nsl.executionTry W.env' W.skill W.request' principal decision statements allowControlled) ExecutionResult.Same := by
  refine (andThen (executionPrologue h principal decision allowControlled) (fun _ => andThen (executeBlock statements) (fun _ =>
    executionEpilogue decision))).handle W.closedState (fun e s => Stills.callsGrow (onFailure_still W.env e) s) (fun e _ => onFailure e)

end Twins
/-! ## Engines that differ in what they observe -/

/-- The engines run skills by the same contracts, rules and operators. -/
structure SameEngine (env env' : Env) : Prop where
  catalog     : env'.catalog = env.catalog
  authorizer  : env'.authorizer = env.authorizer
  environment : env'.environment = env.environment
  operators   : env'.operators = env.operators
  sink        : ∀ m, env.measurementSink m = .ok ()
  sink'       : ∀ m, env'.measurementSink m = .ok ()

/-- The skill is asked for the same by the same principal. -/
structure SameRequest (skill : SkillObject) (request request' : ExecutionRequest) : Prop extends
    SameDeclared skill request request' where
  principal : request'.principal = request.principal
  policy    : request'.dataPolicy = request.dataPolicy

/-- As long as the calls are `upTo`, the tools answer the same calls alike, and no call times out. -/
def AnswerAlike (upTo : List (ToolCallRequest × PortAnswer) → Prop) (port port' : ToolPort) : Prop :=
  ∀ calls calls' q q', List.Forall₂ AlikeCall calls calls' → q.Same q' → upTo (calls ++ [(q, port calls q)]) →
    SameAnswer (port calls q) (port' calls' q') ∧ ∀ e, port calls q = .raises e → isTimeout e = false

/-- No reading of the clock shows that the duration of an execution started in `s` is used up. -/
def NeverLate (env : Env) (skill : SkillObject) (s : St) : Prop :=
  ∀ n, 0 < (skill.limits.durationMs : Int) * 1000000 - (env.clock n - env.clock s.world.readings)

/-- Both executions as twins. -/
def Twins.ofEngines {env env' : Env} {skill : SkillObject} {request request' : ExecutionRequest} {s s' : St}
    {upTo : List (ToolCallRequest × PortAnswer) → Prop} (hengine : SameEngine env env') (hrequest : SameRequest skill request request')
    (hports : AnswerAlike upTo env.port env'.port) (hclosed : ∀ xs ys, xs <+: ys → upTo ys → upTo xs)
    (htime : NeverLate env skill s) (htime' : NeverLate env' skill s') : Twins where
  env        := env.forExecution skill request
  skill      := skill
  request    := request
  startedNs  := env.clock s.world.readings
  clock'     := env'.clock
  port'      := env'.port
  sink'      := env'.measurementSink
  snapshots' := env'.snapshots
  request'   := request'
  startedNs' := env'.clock s'.world.readings
  upTo       := upTo
  recorder   := rfl
  measured   := fun m => ⟨hengine.sink m, hengine.sink' m⟩
  closed     := hclosed
  ports      := hports
  principal  := hrequest.principal
  policy     := hrequest.policy
  time       := fun n => ⟨htime n, htime' n⟩

theorem forExecution_other {env env' : Env} (h : SameEngine env env') (skill : SkillObject) (request request' : ExecutionRequest) :
    env'.forExecution skill request' = { env.forExecution skill request with
      clock := env'.clock, port := env'.port, measurementSink := env'.measurementSink,
      recorder := some (Recorder.make skill request'), snapshots := env'.snapshots } := by
  obtain ⟨hcatalog, hauthorizer, henvironment, hoperators, -, -⟩ := h
  unfold Env.forExecution
  rw [hcatalog, hauthorizer, henvironment, hoperators]

theorem authorizeExecution_same {env env' : Env} (h : SameEngine env env') (skill : SkillObject) (request request' : ExecutionRequest)
    (principal : Option ExecutionPrincipal) :
    authorizeExecution (env'.forExecution skill request') skill principal =
      authorizeExecution (env.forExecution skill request) skill principal := by
  rw [forExecution_other h skill request request']
  rfl

/-- A rejection makes no call, and its result is made of the skill and the message. -/
theorem rejectExecution_result (env : Env) (skill : SkillObject) (request : ExecutionRequest) (message : String) (ref : Option String)
    (s : St) : ∃ w s', s'.world.calls = s.world.calls ∧ rejectExecution env skill request message ref s = ⟨w, s', .ok
      { executionId := request.executionId.text, skillId := skill.skillId, skillVersion := skill.skillVersion,
        semanticHash := skill.semanticHash, status := .failed, completeness := .unknown, checks := [], outputs := [],
        resources := ⟨0, 0, 0, 0⟩, error := some ⟨"NSL-E5201", "AUTHORIZATION", redact message [], none, none⟩,
        validation := none }⟩ := by
  obtain ⟨w, s', hemit, -⟩ := emit_ok env "EXECUTION_REJECTED" (rejectedPayload_json skill request (redact message []) ref) s
  have hcalls := ((emit_still env "EXECUTION_REJECTED" (rejectedPayload skill request (redact message []) ref)).same s).2.1
  rw [hemit] at hcalls
  exact ⟨_, s', hcalls, Run.andThen_ok hemit⟩

/-- **Executions of one skill in two engines end the same**, as long as the calls are `upTo`. -/
theorem execute_alike {env env' : Env} {skill : SkillObject} {request request' : ExecutionRequest} {s s' : St}
    {upTo : List (ToolCallRequest × PortAnswer) → Prop} (hengine : SameEngine env env') (hrequest : SameRequest skill request request')
    (hports : AnswerAlike upTo env.port env'.port) (hclosed : ∀ xs ys, xs <+: ys → upTo ys → upTo xs)
    (htime : NeverLate env skill s) (htime' : NeverLate env' skill s') (hcalls : List.Forall₂ AlikeCall s.world.calls s'.world.calls)
    (hupTo : upTo (execute env skill request s).final.world.calls) :
    Agree ExecutionResult.Same (fun _ => True) (execute env skill request s).outcome (execute env' skill request' s').outcome ∧
      List.Forall₂ AlikeCall (execute env skill request s).final.world.calls (execute env' skill request' s').final.world.calls := by
  have hauth' := authorizeExecution_same hengine skill request request' request'.principal
  rw [show request'.principal = request.principal from hrequest.principal] at hauth'
  cases hauth : authorizeExecution (env.forExecution skill request) skill request.principal with
  | error e =>
    obtain ⟨m, ref, rfl⟩ := authorizeExecution_error _ hauth
    obtain ⟨w, x, hx, hreject⟩ := rejectExecution_result (env.forExecution skill request) skill request m ref (chainState s)
    obtain ⟨w', x', hx', hreject'⟩ := rejectExecution_result (env'.forExecution skill request') skill request' m ref (chainState s')
    rw [hauth, ← show request'.principal = request.principal from hrequest.principal] at hauth'
    rw [execute_refused env hauth s, execute_refused env' hauth' s', hreject, hreject']
    exact ⟨.ok ⟨_, rfl⟩, hx.symm ▸ hx'.symm ▸ hcalls⟩
  | ok granted =>
    obtain ⟨p, d⟩ := granted
    rw [hauth, ← show request'.principal = request.principal from hrequest.principal] at hauth'
    have hstarted := execute_started env hauth s
    have hstarted' := execute_started env' hauth' s'
    rw [hstarted] at hupTo ⊢
    rw [hstarted']
    let W := Twins.ofEngines hengine hrequest hports hclosed htime htime'
    have henv : W.env' = env'.forExecution skill request' := (forExecution_other hengine skill request request').symm
    have halike : W.Alike (tryState env skill request s) (tryState env' skill request' s') := ⟨rfl, rfl, rfl, rfl, hcalls⟩
    have hends := (Twins.executionTry (W := W) hrequest.toSameDeclared p d skill.body false).ends _ _ halike hupTo
    rw [henv] at hends
    exact ⟨hends.1, hends.2.calls⟩

end TwinExecutions

/-! ## The flag read twice -/

section Ascii

attribute [local instance] Platform.ascii

/-- The tools that answer with the flag, elsewhere: another clock, other answers' snapshots and a store of its own. -/
def Env.flaggedElsewhere : Env :=
  { Env.flagged with
    clock     := fun _ => 5
    port      := fun _ q => .returns { flagAnswer q with snapshotRef := some (some "snapshot-000009") }
    snapshots := some (fun n tenantId _ classification _ => ⟨"snapshot-" ++ Text.zeroPad 6 n, tenantId, classification, "", none⟩) }

theorem notedRequest_clean : findCredentialPath Platform.word "$" (.dict [("note", .str "seen")]) = none := by
  decide +kernel

/-- A request under another identifier, with an input the skill does not declare. -/
def notedRequest : ExecutionRequest :=
  { ExecutionRequest.plain (.ofPlain "run-noted") (some analyst) none with
    inputs := ⟨[("note", .str "seen")], List.nodup_singleton _⟩, inputsClean := notedRequest_clean }

theorem notedRequest_same : SameRequest readCheckSkill analystRequest notedRequest where
  inputs    := fun _ h => by cases h
  contexts  := fun _ h => by cases h
  projected := .ok trivial
  hashed    := .ok trivial
  hashed'   := .ok trivial
  principal := rfl
  policy    := rfl

theorem flaggedElsewhere_alike : AnswerAlike (fun _ => True) Env.flagged.port Env.flaggedElsewhere.port := by
  rintro calls calls' q q' - ⟨-, id, -, rfl⟩ -
  exact ⟨.returns _ _ rfl, fun e h => by cases h⟩

end Ascii
end Nsl
