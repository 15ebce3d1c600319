import Nsl.AuditTrace
import Nsl.CallNumbers
import Nsl.PassComplete
/-!
# CompletedCalls — the calls of a completed execution

Whatever goes wrong with a call ends the execution: no part of the interpreter goes on after it. So an execution completes
only if each call it made was of a tool the skill requires, by the contract of the tool, and was answered with a result
that passed every check.
-/
namespace Nsl

open Stateful (Run)

section CompletedCalls

variable [Platform]

/-- **A call the skill may make**, for the principal of the request: of a tool it requires, in the scope of the tool. -/
def Allowed (env : Env) (skill : SkillObject) (request : ExecutionRequest) (q : ToolCallRequest) (contract : ToolContract) : Prop :=
  request.principal = some q.principal ∧ ∃ required ∈ skill.requiredTools,
    env.catalog.resolve required.toolId required.version = .ok contract ∧ q.toolId = required.toolId ∧
    q.toolVersion = required.version ∧ q.contractHash = required.contractHash ∧
    ∃ decision, env.authorizer.authorize q.principal ("tool:" ++ required.toolId ++ ":execute") [required.requiredScope] = .ok decision ∧
      q.authorizationDecisionRef = decision.decisionId

/-- **A call that went well.** -/
def WentWell (env : Env) (skill : SkillObject) (request : ExecutionRequest) (q : ToolCallRequest) (answer : PortAnswer) : Prop :=
  ∃ contract result, Allowed env skill request q contract ∧ validateRequest q contract = .ok () ∧
    validateResultStructure answer q = .ok result ∧ validateResult result contract = .ok () ∧
    validateResultHash result = .ok ()

/-- One more call, and it went well. -/
def NextCall (env : Env) (skill : SkillObject) (request : ExecutionRequest) (calls calls' : List (ToolCallRequest × PortAnswer)) :
    Prop :=
  ∃ q, WentWell env skill request q (env.port calls q) ∧ calls' = calls ++ [(q, env.port calls q)]

/-- More calls, and each went well. -/
abbrev WellCalled (env : Env) (skill : SkillObject) (request : ExecutionRequest) :
    List (ToolCallRequest × PortAnswer) → List (ToolCallRequest × PortAnswer) → Prop :=
  Relation.ReflTransGen (NextCall env skill request)

variable (env : Env) (skill : SkillObject) (request : ExecutionRequest) (start : List (ToolCallRequest × PortAnswer))

/-- The skill is executed for the request, and every call made went well. -/
structure AllWell (s : St) : Prop where
  executed : s.ctx.skill = skill ∧ s.ctx.request = request
  called   : WellCalled env skill request start s.world.calls

/-- The last call was answered with `answer`, and every call before it went well. -/
structure JustAnswered (q : ToolCallRequest) (answer : PortAnswer) (s : St) : Prop where
  executed : s.ctx.skill = skill ∧ s.ctx.request = request
  called   : ∃ before, WellCalled env skill request start before ∧ answer = env.port before q ∧ s.world.calls = before ++ [(q, answer)]

/-- As long as the run ends with values, all goes well. -/
abbrev GoesWell {α : Type} (m : Run St Exn α) : Prop :=
  Run.Ends (AllWell env skill request start) m (fun _ => AllWell env skill request start)

variable {env skill request start}

variable {α β : Type}

/-! ## Parts that make no call -/

theorem fixed_executed {s x : St} (h : x.ctx.skill = s.ctx.skill ∧ x.ctx.request = s.ctx.request)
    (hs : s.ctx.skill = skill ∧ s.ctx.request = request) : x.ctx.skill = skill ∧ x.ctx.request = request :=
  ⟨h.1.trans hs.1, h.2.trans hs.2⟩

theorem AllWell.still {s x : St} (h : Still env s x) (hs : AllWell env skill request start s) : AllWell env skill request start x :=
  ⟨fixed_executed h.quiet.write.fixed hs.executed, h.calls.1 ▸ hs.called⟩

theorem JustAnswered.still {q : ToolCallRequest} {answer : PortAnswer} {s x : St} (h : Still env s x)
    (hs : JustAnswered env skill request start q answer s) : JustAnswered env skill request start q answer x :=
  ⟨fixed_executed h.quiet.write.fixed hs.executed, h.calls.1 ▸ hs.called⟩

theorem Stills.goesWell {m : Run St Exn α} (h : Stills env m) : GoesWell env skill request start m :=
  (Run.Steps.preserves (fun _ _ hx hs => AllWell.still hx hs) h).ends

theorem Stills.answered {m : Run St Exn α} (h : Stills env m) {q : ToolCallRequest} {answer : PortAnswer} :
    Run.Ends (JustAnswered env skill request start q answer) m (fun _ => JustAnswered env skill request start q answer) :=
  (Run.Steps.preserves (fun _ _ hx hs => JustAnswered.still hx hs) h).ends

namespace GoesWell

theorem andThen {m : Run St Exn α} {f : α → Run St Exn β} (hm : GoesWell env skill request start m)
    (hf : ∀ a, GoesWell env skill request start (f a)) : GoesWell env skill request start (m >>= f) := Run.Triple.andThen hm hf

theorem done (a : α) : GoesWell env skill request start (Run.done a) := Run.triple_done (fun _ h => h)

theorem fail (e : Exn) : GoesWell env skill request start (Run.fail e : Run St Exn α) := Run.ends_fail e

theorem pure (x : Except Exn α) : GoesWell env skill request start (Run.ofExcept x) := (Stills.ofExcept x).goesWell

theorem getCtx : GoesWell env skill request start Nsl.getCtx := (Stills.look _).goesWell

theorem modifyCtx {f : Context → Context} (hf : ∀ c, (f c).skill = c.skill ∧ (f c).request = c.request) :
    GoesWell env skill request start (Nsl.modifyCtx f) :=
  Run.triple_write (fun s hs => ⟨fixed_executed (hf s.ctx) hs.executed, hs.called⟩)

theorem bindOnce {symbolId : String} {put : Context → Context} (hput : ∀ c, (put c).skill = c.skill ∧ (put c).request = c.request) :
    GoesWell env skill request start (Nsl.bindOnce symbolId put) := by
  refine andThen getCtx (fun ctx => ?_)
  split
  · exact fail _
  · exact modifyCtx hput

theorem bindInput (symbolId : String) (v : ValueEnvelope) : GoesWell env skill request start (Nsl.bindInput symbolId v) :=
  bindOnce (fun _ => ⟨rfl, rfl⟩)

theorem bindContext (symbolId : String) (v : ValueEnvelope) : GoesWell env skill request start (Nsl.bindContext symbolId v) :=
  bindOnce (fun _ => ⟨rfl, rfl⟩)

theorem forEach {f : α → Run St Exn Unit} (hf : ∀ a, GoesWell env skill request start (f a)) (xs : List α) :
    GoesWell env skill request start (Run.forEach f xs) := Run.triple_forEach hf xs

end GoesWell

/-! ## A call -/

theorem callPort_ends (q : ToolCallRequest) :
    Run.Ends (AllWell env skill request start) (callPort env q) (JustAnswered env skill request start q) := by
  intro s hs
  obtain ⟨hfinal, houtcome⟩ := callPort_apply env q s
  rw [hfinal, houtcome]
  cases hanswer : env.port s.world.calls q with
  | raises e => trivial
  | _        => exact ⟨hs.executed, _, hs.called, hanswer.symm, rfl⟩

theorem callTools_ends (q : ToolCallRequest) :
    Run.Ends (AllWell env skill request start) (callTools env q) (JustAnswered env skill request start q) := by
  unfold callTools
  split
  · refine Run.Triple.andThen (readClock_still env).goesWell (fun _ => (callPort_ends q).attempt.andThen (fun outcome => ?_))
    cases outcome with
    | error e   =>
      refine Run.Triple.andThen (Run.triple_trivial _) (fun _ => Run.Triple.andThen (Run.triple_trivial _) (fun _ =>
        Run.Triple.andThen (Run.triple_trivial _) (fun _ => ?_)))
      exact Run.ends_fail e
    | ok answer =>
      exact (readClock_still env).answered.andThen (fun _ => (Stills.ofExcept _).answered.andThen (fun _ =>
        (Stills.ofExcept _).answered.andThen (fun _ => Run.triple_done (fun _ h => h))))
  · exact callPort_ends q

theorem executeWithTimeout_ends (q : ToolCallRequest) (timeoutMs : Int) :
    Run.Ends (AllWell env skill request start) (executeWithTimeout env q timeoutMs) (JustAnswered env skill request start q) := by
  refine (callTools_ends q).handle (fun e => ?_)
  split <;> exact Run.ends_fail _

/-- **A call that ends with a result went well.** -/
theorem checkedCall_ends {t : ToolCall} {q : ToolCallRequest} (h : Allowed env skill request q t.contract) (timeoutMs : Int)
    (policy : ResultPolicy) : GoesWell env skill request start (checkedCall env t q timeoutMs policy) := by
  refine Run.ends_ofExcept_andThen (fun _ hrequest => (executeWithTimeout_ends q timeoutMs).andThen (fun answer =>
    Run.ends_ofExcept_andThen (fun result hstructure => Run.ends_ofExcept_andThen (fun _ hresult =>
      Run.ends_ofExcept_andThen (fun _ hhash => ?_)))))
  have hwell : ∀ s, JustAnswered env skill request start q answer s → AllWell env skill request start s := by
    rintro s ⟨hexecuted, before, hbefore, rfl, hcalls⟩
    have hwent : WentWell env skill request q (env.port before q) := ⟨t.contract, result, h, hrequest, hstructure, hresult, hhash⟩
    exact ⟨hexecuted, hcalls ▸ hbefore.tail ⟨q, hwent, rfl⟩⟩
  split
  · exact Run.ends_fail _
  · exact (checkDeadline_still env).answered.andThen (fun _ => Run.triple_done hwell)

/-- What a READ calls is authorized for the principal of the request. -/
theorem resolveRead_principal {ctx : Context} {toolRef : String} {names : List String} {required : RequiredTool}
    {contract : ToolContract} {principal : ExecutionPrincipal} {decision : AuthorizationDecision}
    (h : resolveRead env ctx toolRef names = .ok (required, contract, principal, decision)) :
    ctx.request.principal = some principal ∧
      env.authorizer.authorize principal ("tool:" ++ required.toolId ++ ":execute") [required.requiredScope] = .ok decision := by
  unfold resolveRead at h
  cases hfind : ctx.skill.requiredTools.find? (fun r => r.toolRef = toolRef) with
  | none   => simp only [hfind] at h; cases h
  | some r =>
    simp only [hfind] at h
    obtain ⟨_, -, hchecked⟩ := Stateful.bind_eq_ok h
    split at hchecked
    · cases hchecked
    · cases hprincipal : ctx.request.principal with
      | none   => simp only [hprincipal] at hchecked; cases hchecked
      | some p =>
        simp only [hprincipal] at hchecked
        obtain ⟨_, hdecision, hfound⟩ := Stateful.bind_eq_ok hchecked
        cases hfound
        exact ⟨rfl, hdecision⟩

/-- A failure that was reported is raised. -/
theorem reportFailure_raises (env : Env) (t : ToolCall) (durationLimited : Bool) (e : Exn) :
    Run.Ends (fun _ => True) (reportFailure env t durationLimited e) (fun _ _ => False) := by
  have hreported : ∀ (code : String) (detail : Option String) (status : String) (raised : Exn),
      Run.Ends (fun _ => True) (do
        toolFailed env t code detail status
        Run.fail raised : Run St Exn ToolResultEnvelope) (fun _ _ => False) :=
    fun _ _ _ _ => Run.Triple.andThen (Run.triple_trivial _) (fun _ => Run.ends_fail _)
  unfold reportFailure
  split
  · exact hreported _ _ _ _
  · split
    · exact hreported _ _ _ _
    · exact hreported _ _ _ _
  · exact Run.ends_fail _
  · exact Run.ends_fail _
  · exact hreported _ _ _ _

namespace GoesWell

theorem performCall {t : ToolCall} {principal : ExecutionPrincipal}
    (h : ∀ c, Allowed env skill request (t.request c principal) t.contract) (policy : ResultPolicy) :
    GoesWell env skill request start (Nsl.performCall env t principal policy) := by
  refine andThen (pure _) (fun _ => andThen (putSnapshot_still env _ _).goesWell (fun _ =>
    andThen (emit_still env _ _).goesWell (fun _ => andThen getCtx (fun c =>
      andThen (remainingDurationMs_still env).goesWell (fun remaining => ?_)))))
  have hcall : GoesWell env skill request start (checkedCall env t (t.request c principal) (min t.contract.timeoutMs remaining) policy) :=
    checkedCall_ends (h c) _ policy
  exact andThen (Run.Ends.handle hcall (reportFailure_raises env t (remaining ≤ t.contract.timeoutMs)))
    (fun result => (acceptResult_still env t result).goesWell)

/-- **A READ that ends with a value made its call well**, where its arguments make theirs. -/
theorem executeRead (nodeId toolRef : String) (names : List String) {arguments : Run St Exn (List (String × ValueEnvelope))}
    (h : GoesWell env skill request start arguments) (policy : ResultPolicy) :
    GoesWell env skill request start (Nsl.executeRead env nodeId toolRef names arguments policy) := by
  refine Run.ends_look_andThen (fun c => Run.ends_ofExcept_andThen (fun found hfound s hs => ?_))
  obtain ⟨required, contract, principal, decision⟩ := found
  obtain ⟨hfind, hcontract⟩ := resolveRead_ok _ hfound
  obtain ⟨hprincipal, hdecision⟩ := resolveRead_principal hfound
  rw [hs.2, hs.1.executed.2] at hprincipal
  rw [hs.2, hs.1.executed.1] at hfind
  have hallowed : ∀ (t : ToolCall), t.required = required → t.contract = contract → t.decisionId = decision.decisionId → ∀ c,
      Allowed env skill request (t.request c principal) t.contract := by
    rintro t rfl rfl hid c
    exact ⟨hprincipal, t.required, List.mem_of_find?_eq_some hfind, hcontract, rfl, rfl, rfl, decision, hdecision, hid⟩
  have hrest : GoesWell env skill request start (do
      let args ← arguments
      beforeToolCall env
      numberedCall env nodeId required contract decision.decisionId principal policy args) :=
    andThen h (fun _ => andThen (beforeToolCall_still env).goesWell (fun _ => andThen (modifyCtx (fun _ => ⟨rfl, rfl⟩)) (fun _ =>
      andThen getCtx (fun _ => performCall (hallowed _ rfl rfl rfl) policy))))
  exact hrest s hs.1

/-! ## Expressions -/

theorem evaluated (e : Expression) {ir : Run St Exn ValueEnvelope} (h : GoesWell env skill request start ir) :
    GoesWell env skill request start (Nsl.evaluated env e ir) := by
  unfold Nsl.evaluated
  split
  · exact fail _
  · have hhandled : GoesWell env skill request start
        (Run.handle (do checkDeadline env; ir) (fun error => Run.fail (evaluationError e error))) :=
      Run.Ends.handle (andThen (checkDeadline_still env).goesWell (fun _ => h)) (fun _ => Run.ends_fail _)
    refine andThen hhandled (fun result => ?_)
    split
    · exact fail _
    · exact andThen (observeCompleteness_still env _).goesWell (fun _ => andThen (checkDeadline_still env).goesWell (fun _ =>
        andThen (onList_still env (checkCollection_still env) _).goesWell (fun _ => done _)))

mutual
theorem evaluateIr : ∀ (e : Expression), GoesWell env skill request start (Nsl.evaluateIr env e)
  | .literal n value t => by
    unfold Nsl.evaluateIr
    exact done _
  | .symbolRef n i t   => by
    unfold Nsl.evaluateIr
    exact andThen getCtx (fun _ => pure _)
  | .field n e f t     => by
    unfold Nsl.evaluateIr
    exact andThen (evaluated e (evaluateIr e)) (fun _ => pure _)
  | .project n e f t   => by
    unfold Nsl.evaluateIr
    exact andThen (evaluated e (evaluateIr e)) (fun _ => pure _)
  | .call n f es t     => by
    unfold Nsl.evaluateIr
    exact andThen (evaluateItems es) (fun _ => pure _)
  | .binary n op l r t => by
    unfold Nsl.evaluateIr
    exact andThen (evaluated l (evaluateIr l)) (fun _ => andThen (evaluated r (evaluateIr r)) (fun _ => pure _))
  | .read n u es t p   => by
    unfold Nsl.evaluateIr
    exact executeRead n u _ (evaluateArguments es) p
  | .write ..          => by
    unfold Nsl.evaluateIr
    exact fail _
theorem evaluateItems : ∀ (es : List Expression), GoesWell env skill request start (Nsl.evaluateItems env es)
  | []      => by
    unfold Nsl.evaluateItems
    exact done _
  | e :: es => by
    unfold Nsl.evaluateItems
    exact andThen (evaluated e (evaluateIr e)) (fun _ => andThen (evaluateItems es) (fun _ => done _))
theorem evaluateArguments : ∀ (es : List (String × Expression)), GoesWell env skill request start (Nsl.evaluateArguments env es)
  | []           => by
    unfold Nsl.evaluateArguments
    exact done _
  | (n, e) :: es => by
    unfold Nsl.evaluateArguments
    exact andThen (evaluated e (evaluateIr e)) (fun _ => andThen (evaluateArguments es) (fun _ => done _))
end

theorem evaluate (e : Expression) : GoesWell env skill request start (Nsl.evaluate env e) := evaluated e (evaluateIr e)

/-! ## Statements -/

theorem executeCheck (s : CheckStatement) : GoesWell env skill request start (Nsl.executeCheck env s) :=
  andThen (evaluate s.condition) (fun _ => andThen (pure _) (fun _ => andThen (modifyCtx (fun _ => ⟨rfl, rfl⟩)) (fun _ =>
    andThen (bindOnce (fun _ => ⟨rfl, rfl⟩)) (fun _ => (emit_still env _ _).goesWell))))

theorem emitField (outputs : List OutputField) (name : String) (e : Expression) :
    GoesWell env skill request start (Nsl.emitField env outputs name e) := by
  unfold Nsl.emitField
  split
  · exact fail _
  · split
    · exact fail _
    · refine andThen (evaluate e) (fun result => andThen (pure _) (fun _ => ?_))
      split
      · exact done _
      · exact fail _

theorem emitFields (outputs : List OutputField) : ∀ (fields : List (String × Expression)),
    GoesWell env skill request start (Nsl.emitFields env outputs fields)
  | []           => done _
  | (n, e) :: es => andThen (emitField outputs n e) (fun _ => andThen (emitFields outputs es) (fun _ => done _))

theorem executeEmit (s : EmitStatement) : GoesWell env skill request start (Nsl.executeEmit env s) := by
  have hreport : ∀ values, Stills env (reportRow env s.nodeId values) := fun values =>
    (putSnapshot_still env _ _).bind (fun _ => emitHidden_still env _ _ _ _ _)
  refine andThen (beforeEmit_still env).goesWell (fun _ => andThen getCtx (fun c => ?_))
  split
  · exact andThen (emitFields _ _) (fun values => andThen (pure _) (fun _ => andThen (modifyCtx (fun _ => ⟨rfl, rfl⟩)) (fun _ =>
      andThen (modifyCtx (fun _ => ⟨rfl, rfl⟩)) (fun _ => (hreport values).goesWell))))
  · exact fail _

theorem popFrame : GoesWell env skill request start Nsl.popFrame := by
  refine andThen getCtx (fun c => ?_)
  split
  · exact modifyCtx (fun _ => ⟨rfl, rfl⟩)
  · exact fail _

theorem loopPass (symbolId : String) (collection : ValueEnvelope) {body : Run St Exn Unit} (h : GoesWell env skill request start body)
    (value : Value) : GoesWell env skill request start (Nsl.loopPass env symbolId collection body value) :=
  andThen (beforeLoopIteration_still env).goesWell (fun _ => andThen (modifyCtx (fun _ => ⟨rfl, rfl⟩)) (fun _ =>
    Run.Ends.lastly (andThen (bindOnce (fun _ => ⟨rfl, rfl⟩)) (fun _ => h)) (fun _ => popFrame)))

theorem executeForeach (nodeId symbolId : String) (collection : Expression) (maxIterations : Int) {body : Run St Exn Unit}
    (h : GoesWell env skill request start body) :
    GoesWell env skill request start (Nsl.executeForeach env nodeId symbolId collection maxIterations body) := by
  have hbody : GoesWell env skill request start (executeForeachBody env nodeId symbolId collection maxIterations body) := by
    refine andThen (evaluate collection) (fun source => andThen (pure _) (fun size => ?_))
    split
    · exact fail _
    · exact andThen (pure _) (fun values => forEach (fun value => loopPass symbolId source h value) values)
  refine andThen getCtx (fun c => ?_)
  split
  · exact fail _
  · exact andThen (modifyCtx (fun _ => ⟨rfl, rfl⟩)) (fun _ => Run.Ends.lastly hbody (fun _ => modifyCtx (fun _ => ⟨rfl, rfl⟩)))

theorem aroundStatement (s : Statement) {run : Run St Exn Unit} (h : GoesWell env skill request start run) :
    GoesWell env skill request start (Nsl.aroundStatement env s run) :=
  andThen (checkDeadline_still env).goesWell (fun _ => andThen getCtx (fun _ => andThen (modifyCtx (fun _ => ⟨rfl, rfl⟩)) (fun _ =>
    andThen (emit_still env _ _).goesWell (fun _ => andThen h (fun _ => andThen (emit_still env _ _).goesWell (fun _ =>
      modifyCtx (fun _ => ⟨rfl, rfl⟩)))))))

mutual
theorem executeStatement : ∀ (s : Statement), GoesWell env skill request start (Nsl.executeStatement env s)
  | .letBind s                                  => by
    unfold Nsl.executeStatement
    exact andThen (evaluate s.value) (fun _ => bindOnce (fun _ => ⟨rfl, rfl⟩))
  | .foreach nodeId i collection maximum body   => by
    unfold Nsl.executeStatement
    exact executeForeach nodeId i collection maximum (executeBlock body)
  | .check s                                    => by
    unfold Nsl.executeStatement
    exact executeCheck s
  | .emit s                                     => by
    unfold Nsl.executeStatement
    exact executeEmit s
  | .approval _                                 => by
    unfold Nsl.executeStatement
    exact fail _
/-- **A block that ends made its calls well.** -/
theorem executeBlock : ∀ (ss : List Statement), GoesWell env skill request start (Nsl.executeBlock env ss)
  | []      => by
    unfold Nsl.executeBlock
    exact done _
  | s :: ss => by
    unfold Nsl.executeBlock
    exact andThen (aroundStatement s (executeStatement s)) (fun _ => executeBlock ss)
end

end GoesWell

/-! ## Executions -/

theorem resultOf_named {c : Context} {status : ExecutionStatus} {error : Option RuntimeErrorInfo} {r : ExecutionResult}
    (h : resultOf c status error = .ok r) : r.executionId = c.request.executionId.text ∧ r.semanticHash = c.skill.semanticHash := by
  obtain ⟨_, -, h⟩ := Stateful.bind_eq_ok h
  cases h
  exact ⟨rfl, rfl⟩

/-- A failure gives no completed result. -/
theorem onFailure_gives (env : Env) (e : Exn) : Run.Gives (fun r => r.status ≠ .completed) (onFailure env e) := by
  unfold onFailure
  split
  · rename_i f hf
    intro s w x r hrun
    obtain ⟨_, s', _, w', -, hresult, -⟩ := Run.andThen_eq_ok hrun
    have hr : Run.Gives (fun r => r.status = f.status) (Run.ofExcept (resultOf s.ctx f.status (some (failureInfo s.ctx f))) :
        Run St Exn ExecutionResult) := Run.gives_ofExcept (fun _ => resultOf_status)
    rw [hr s' w' x r hresult]
    exact failureOf_status hf
  · exact Run.gives_fail _

/-- What a completed `try` ends in is what its body ended in. -/
theorem executionTry_completes {principal : ExecutionPrincipal} {decision : AuthorizationDecision} {statements : List Statement}
    {allowControlled : Bool} {P : St → Prop} {Q : ExecutionResult → St → Prop}
    (h : Run.Ends P (executionBody env skill request principal decision statements allowControlled) Q) :
    Run.Ends P (executionTry env skill request principal decision statements allowControlled)
      (fun r s => r.status = .completed → Q r s) :=
  Run.Triple.handle (h.conseq (fun _ h => h) (fun _ _ h _ => h) (fun _ _ h => h)) (fun e =>
    (onFailure_gives env e).ends.conseq (fun _ h => h) (fun _ _ h hcompleted => absurd hcompleted h) (fun _ _ h => h))

/-- The result names the request. -/
theorem executionEpilogue_ends (decision : AuthorizationDecision) :
    Run.Ends (AllWell env skill request start) (executionEpilogue env decision)
      (fun r s => AllWell env skill request start s ∧ r.executionId = request.executionId.text) := by
  refine Run.Triple.andThen (checkDeadline_still env).goesWell (fun _ => Run.ends_look_andThen (fun c =>
    Run.ends_ofExcept_andThen (fun result hresult s hs => ?_)))
  have hnamed : result.executionId = request.executionId.text := by
    rw [(resultOf_named hresult).1, hs.2, hs.1.executed.2]
  have hrest : Run.Ends (AllWell env skill request start) (do
      emit env "EXECUTION_COMPLETED" (completedPayload result decision)
      Run.done result : Run St Exn ExecutionResult)
      (fun r s => AllWell env skill request start s ∧ r.executionId = request.executionId.text) :=
    Run.Triple.andThen (emit_still env _ _).goesWell (fun _ => Run.triple_done (fun _ h => ⟨h, hnamed⟩))
  exact hrest s hs.1

theorem executionTry_wentWell (principal : ExecutionPrincipal) (decision : AuthorizationDecision)
    (statements : List Statement) (allowControlled : Bool) :
    Run.Ends (AllWell env skill request start) (executionTry env skill request principal decision statements allowControlled)
      (fun r s => r.status = .completed → AllWell env skill request start s ∧ r.executionId = request.executionId.text) := by
  have hbind : GoesWell env skill request start (bindInputsAndContexts env skill request) :=
    GoesWell.andThen (validatedInputs_still (observeCollection_still env) _ _).goesWell (fun inputs =>
      GoesWell.andThen (validatedContexts_still (observeCollection_still env) _ _).goesWell (fun contexts =>
        GoesWell.andThen (GoesWell.forEach (fun _ => GoesWell.bindInput _ _) inputs) (fun _ =>
          GoesWell.forEach (fun _ => GoesWell.bindContext _ _) contexts)))
  have hprologue : GoesWell env skill request start (executionPrologue env skill request principal decision allowControlled) :=
    GoesWell.andThen (checkDeadline_still env).goesWell (fun _ => GoesWell.andThen (GoesWell.pure _) (fun _ =>
      GoesWell.andThen (executionStarted_still env skill request principal decision).goesWell (fun _ => hbind)))
  exact executionTry_completes (Run.Triple.andThen hprologue (fun _ => Run.Triple.andThen (GoesWell.executeBlock statements) (fun _ =>
    executionEpilogue_ends decision)))

/-- An authorized execution ends as its `try`. -/
theorem execute_outcome {env : Env} {skill : SkillObject} {request : ExecutionRequest} {p : ExecutionPrincipal}
    {d : AuthorizationDecision} (h : authorizeExecution (env.forExecution skill request) skill request.principal = .ok (p, d))
    {s : St} {w : List St} {x : St} {o : Except Exn ExecutionResult}
    (hrun : executionTry (env.forExecution skill request) skill request p d skill.body false (tryState env skill request s) =
      ⟨w, x, o⟩) : (execute env skill request s).outcome = o := by
  rw [execute_started env h s, hrun]

/-- **A completed execution was authorized**, and ended as its `try`. -/
theorem execute_completed {env : Env} {skill : SkillObject} {request : ExecutionRequest} {s : St} {r : ExecutionResult}
    (h : (execute env skill request s).outcome = .ok r) (hcompleted : r.status = .completed) :
    ∃ p d w x, executionTry (env.forExecution skill request) skill request p d skill.body false (tryState env skill request s) =
      ⟨w, x, .ok r⟩ ∧ (execute env skill request s).final.world.calls = x.world.calls := by
  cases hauth : authorizeExecution (env.forExecution skill request) skill request.principal with
  | error e =>
    obtain ⟨m, ref, rfl⟩ := authorizeExecution_error _ hauth
    have hreject : Run.Gives (fun r => r.status ≠ .completed)
        (rejectExecution (env.forExecution skill request) skill request m ref) :=
      Run.gives_after (fun _ => Run.gives_done (fun h => by cases h))
    rw [execute_refused env hauth s] at h
    obtain ⟨w, x, r', hrun⟩ := rejectExecution_ok (env.forExecution skill request) skill request m ref (chainState s)
    rw [hrun] at h
    cases h
    exact absurd hcompleted (hreject _ w x r hrun)
  | ok granted =>
    obtain ⟨p, d⟩ := granted
    rw [execute_started env hauth s] at h ⊢
    rcases htry : executionTry (env.forExecution skill request) skill request p d skill.body false (tryState env skill request s)
      with ⟨w, x, o⟩
    rw [htry] at h
    cases h
    exact ⟨p, d, w, x, htry, rfl⟩

theorem execute_wellCalled {env : Env} {skill : SkillObject} {request : ExecutionRequest} {s : St} {r : ExecutionResult}
    (h : (execute env skill request s).outcome = .ok r) (hcompleted : r.status = .completed) :
    WellCalled env skill request s.world.calls (execute env skill request s).final.world.calls ∧
      r.executionId = request.executionId.text := by
  obtain ⟨p, d, w, x, htry, hcalls⟩ := execute_completed h hcompleted
  have hstart : AllWell (env.forExecution skill request) skill request s.world.calls (tryState env skill request s) :=
    ⟨⟨rfl, rfl⟩, .refl⟩
  obtain ⟨hwell, hnamed⟩ := (executionTry_wentWell p d skill.body false).ok hstart htry hcompleted
  rw [hcalls]
  exact ⟨hwell.called, hnamed⟩

theorem WellCalled.made {calls calls' : List (ToolCallRequest × PortAnswer)} (h : WellCalled env skill request calls calls') :
    ∃ made, calls' = calls ++ made ∧ ∀ call ∈ made, WentWell env skill request call.1 call.2 := by
  induction h with
  | refl          => exact ⟨[], (List.append_nil _).symm, fun _ hc => (List.not_mem_nil hc).elim⟩
  | tail _ hnext ih =>
    obtain ⟨made, rfl, hmade⟩ := ih
    obtain ⟨q, hq, rfl⟩ := hnext
    refine ⟨_, List.append_assoc .., fun call hcall => ?_⟩
    rcases List.mem_append.1 hcall with hcall | hcall
    · exact hmade call hcall
    · rw [List.mem_singleton.1 hcall]
      exact hq

/-- **Every call of a completed execution went well**: it was of a tool the skill requires, by the contract of the tool, and
the tool returned a result of that call that passed every check. -/
theorem completed_calls_went_well {env : Env} {skill : SkillObject} {request : ExecutionRequest} {s : St} {r : ExecutionResult}
    (h : (execute env skill request s).outcome = .ok r) (hcompleted : r.status = .completed) :
    ∀ call ∈ callsSince s (execute env skill request s).final, WentWell env skill request call.1 call.2 := by
  obtain ⟨made, hcalls, hmade⟩ := (execute_wellCalled h hcompleted).1.made
  unfold callsSince
  rw [hcalls, List.drop_left]
  exact hmade

end CompletedCalls

/-! ## The flag is read -/

section Ascii

attribute [local instance] Platform.ascii

/-- The context once the flag is checked. -/
def readCheckChecked : Context :=
  { readCheckStart with
    invocationCounter := 1, resources := { toolCalls := 1 }, checks := [readCheckPassed],
    checkFrames       := Frames.root.bind "s0001" (.ofComplete (.dict [("status", .str "PASS")]) CHECK_RESULT .internal [readCheckRef]) }

/-- The execution that checks the flag completes. -/
theorem readCheck_completes : ∃ r, (execute Env.flagged readCheckSkill analystRequest ⟨readCheckStart, {}⟩).outcome = .ok r ∧
    resultOf readCheckChecked .completed none = .ok r := by
  let env := Env.flagged.forExecution readCheckSkill analystRequest
  obtain ⟨d, hd⟩ := @analyst_authorized _ env readCheckSkill rfl
  have htime : InTime env readCheckStart := fun n => by
    show (0 : Int) < 1000 * 1000000 - (0 - 0)
    decide
  have hprologue : Reaches readCheckStart (executionPrologue env readCheckSkill analystRequest analyst d false) () readCheckStart :=
    executionPrologue_reaches htime (readCheckSkill_preflight env rfl) rfl rfl rfl rfl rfl
  let value : ValueEnvelope :=
    { value := .bool true, typeInfo := some BOOL, presence := .present, completeness := .complete,
      classification := .internal, provenanceRefs := [readCheckRef] }
  have hverdict : evaluateCheck readCheck value = .ok readCheckPassed := rfl
  have hcheck := executeCheck_reaches (readCheck_reads htime rfl rfl (fun _ => rfl) rfl) hverdict rfl
  have hstatement : Reaches readCheckStart (aroundStatement env (.check readCheck) (executeCheck env readCheck)) () readCheckChecked :=
    aroundStatement_reaches (s := .check readCheck) htime hcheck
  have hblock : Reaches readCheckStart (executeBlock env readCheckSkill.body) () readCheckChecked := by
    rw [show readCheckSkill.body = [.check readCheck] from rfl, executeBlock, executeStatement, executeBlock]
    exact Reaches.bind hstatement (Reaches.done ())
  obtain ⟨r, hr⟩ : ∃ r, resultOf readCheckChecked .completed none = .ok r := ⟨_, rfl⟩
  have hchecked : InTime env readCheckChecked := htime
  have hepilogue : Reaches readCheckChecked (executionEpilogue env d) r readCheckChecked :=
    Reaches.bind (checkDeadline_reaches hchecked) (Reaches.bind Reaches.getCtx (Reaches.bind (Reaches.ofExcept hr)
      (Reaches.bind (emit_reaches _ rfl) (Reaches.done r))))
  have htry : Reaches readCheckStart (executionTry env readCheckSkill analystRequest analyst d readCheckSkill.body false) r
      readCheckChecked := Reaches.handle (Reaches.bind hprologue (Reaches.bind hblock hepilogue))
  obtain ⟨w, x, hrun, -⟩ := htry (tryState Env.flagged readCheckSkill analystRequest ⟨readCheckStart, {}⟩) rfl
  have hauth : authorizeExecution (Env.flagged.forExecution readCheckSkill analystRequest) readCheckSkill
      analystRequest.principal = .ok (analyst, d) := hd
  exact ⟨r, execute_outcome hauth hrun, hr⟩

/-- The flag's call went well. -/
theorem completed_calls_went_well_flag : ∃ r, (execute Env.flagged readCheckSkill analystRequest ⟨readCheckStart, {}⟩).outcome = .ok r ∧
    r.status = .completed ∧
    ∀ call ∈ callsSince ⟨readCheckStart, {}⟩ (execute Env.flagged readCheckSkill analystRequest ⟨readCheckStart, {}⟩).final,
      WentWell Env.flagged readCheckSkill analystRequest call.1 call.2 := by
  obtain ⟨r, hr, hresult⟩ := readCheck_completes
  exact ⟨r, hr, resultOf_status hresult, completed_calls_went_well hr (resultOf_status hresult)⟩

end Ascii
end Nsl
