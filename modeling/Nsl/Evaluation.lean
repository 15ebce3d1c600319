import Nsl.Engine
/-!
# Evaluation — one rule for each kind of expression and statement

What is to hold of the value of every expression follows from what each kind of expression makes of the values of its
parts (`EvaluationRules`), and an invariant of all that is bound from what each kind of statement binds
(`ExecutionRules`). The value of a READ is a result that passed the checks of its contract.
-/
namespace Nsl

open Stateful (Run)

section Evaluation

variable [Platform]

/-! ## What is bound -/

/-- Every namespace a symbol is looked up in. -/
def Recorded.namespaces (r : Recorded) : List (Dict ValueEnvelope) :=
  r.inputValues :: r.contextValues :: (r.frames.all ++ r.checkFrames.all)

/-- Each bound value has the property for its symbol. -/
def Recorded.Bound (r : Recorded) (B : String → ValueEnvelope → Prop) : Prop :=
  ∀ d ∈ r.namespaces, ∀ i v, d.get? i = some v → B i v

section Bound

variable {B : String → ValueEnvelope → Prop} {c : Context} {i : String} {v : ValueEnvelope}

/-- A resolved symbol is bound in one of the namespaces. -/
theorem resolve_bound (h : c.resolve i = .ok v) : ∃ d ∈ c.recorded.namespaces, d.get? i = some v := by
  have hframes : ∀ {f : Frames}, f.find? i = some v → ∃ d ∈ f.all, d.get? i = some v := fun hf =>
    List.exists_of_findSome?_eq_some hf
  unfold Context.resolve at h
  cases hall : (c.frames.find? i).or ((c.checkFrames.find? i).or ((c.contextValues.get? i).or (c.inputValues.get? i))) with
  | none   => rw [hall] at h; cases h
  | some w =>
    rw [hall] at h
    cases h
    unfold Recorded.namespaces Context.recorded
    rcases Option.or_eq_some_iff.1 hall with hf | ⟨-, hrest⟩
    · obtain ⟨d, hd, hget⟩ := hframes hf
      exact ⟨d, by simp [hd], hget⟩
    · rcases Option.or_eq_some_iff.1 hrest with hg | ⟨-, hrest⟩
      · obtain ⟨d, hd, hget⟩ := hframes hg
        exact ⟨d, by simp [hd], hget⟩
      · rcases Option.or_eq_some_iff.1 hrest with hctx | ⟨-, hin⟩
        · exact ⟨c.contextValues, by simp, hctx⟩
        · exact ⟨c.inputValues, by simp, hin⟩

theorem Recorded.Bound.resolve (h : c.recorded.Bound B) (hv : c.resolve i = .ok v) : B i v := by
  obtain ⟨d, hd, hget⟩ := resolve_bound hv
  exact h d hd i v hget

omit [Platform] in
/-- One more value in one namespace. -/
theorem bound_set {d : Dict ValueEnvelope} (hd : ∀ j w, d.get? j = some w → B j w) (hv : B i v) :
    ∀ j w, (d.set i v).get? j = some w → B j w := by
  intro j w hget
  rcases Dict.get?_set_or hget with ⟨rfl, rfl⟩ | hget
  · exact hv
  · exact hd j w hget

/-- The namespaces, one by one. -/
theorem bound_iff {r : Recorded} : r.Bound B ↔ (∀ j w, r.inputValues.get? j = some w → B j w) ∧
    (∀ j w, r.contextValues.get? j = some w → B j w) ∧
    (∀ d ∈ r.frames.all, ∀ j w, d.get? j = some w → B j w) ∧ ∀ d ∈ r.checkFrames.all, ∀ j w, d.get? j = some w → B j w := by
  unfold Recorded.Bound Recorded.namespaces
  simp only [List.forall_mem_cons, List.forall_mem_append]

theorem Recorded.Bound.input (h : c.recorded.Bound B) (hv : B i v) :
    ({ c with inputValues := c.inputValues.set i v }).recorded.Bound B := by
  obtain ⟨hin, hctx, hf, hg⟩ := bound_iff.1 h
  exact bound_iff.2 ⟨bound_set hin hv, hctx, hf, hg⟩

theorem Recorded.Bound.context (h : c.recorded.Bound B) (hv : B i v) :
    ({ c with contextValues := c.contextValues.set i v }).recorded.Bound B := by
  obtain ⟨hin, hctx, hf, hg⟩ := bound_iff.1 h
  exact bound_iff.2 ⟨hin, bound_set hctx hv, hf, hg⟩

theorem Recorded.Bound.symbol (h : c.recorded.Bound B) (hv : B i v) :
    ({ c with frames := c.frames.bind i v }).recorded.Bound B := by
  obtain ⟨hin, hctx, hf, hg⟩ := bound_iff.1 h
  obtain ⟨htop, hbelow⟩ := List.forall_mem_cons.1 hf
  exact bound_iff.2 ⟨hin, hctx, List.forall_mem_cons.2 ⟨bound_set htop hv, hbelow⟩, hg⟩

theorem Recorded.Bound.check (h : c.recorded.Bound B) (hv : B i v) :
    ({ c with checkFrames := c.checkFrames.bind i v }).recorded.Bound B := by
  obtain ⟨hin, hctx, hf, hg⟩ := bound_iff.1 h
  obtain ⟨htop, hbelow⟩ := List.forall_mem_cons.1 hg
  exact bound_iff.2 ⟨hin, hctx, hf, List.forall_mem_cons.2 ⟨bound_set htop hv, hbelow⟩⟩

theorem Recorded.Bound.push (h : c.recorded.Bound B) :
    ({ c with frames := c.frames.push, checkFrames := c.checkFrames.push }).recorded.Bound B := by
  obtain ⟨hin, hctx, hf, hg⟩ := bound_iff.1 h
  have hempty : ∀ j w, (Dict.empty : Dict ValueEnvelope).get? j = some w → B j w := fun j w hget => by cases hget
  exact bound_iff.2 ⟨hin, hctx, List.forall_mem_cons.2 ⟨hempty, hf⟩, List.forall_mem_cons.2 ⟨hempty, hg⟩⟩

/-- Frames that are taken off leave what was below. -/
theorem Recorded.Bound.pop {f g : Dict ValueEnvelope} {fs gs : List (Dict ValueEnvelope)} (h : c.recorded.Bound B)
    (hbelow : c.frames.below = f :: fs) (hchecks : c.checkFrames.below = g :: gs) :
    ({ c with frames := ⟨f, fs⟩, checkFrames := ⟨g, gs⟩ }).recorded.Bound B := by
  obtain ⟨hin, hctx, hf, hg⟩ := bound_iff.1 h
  have hfs := (List.forall_mem_cons.1 hf).2
  have hgs := (List.forall_mem_cons.1 hg).2
  rw [show c.recorded.frames.below = f :: fs from hbelow] at hfs
  rw [show c.recorded.checkFrames.below = g :: gs from hchecks] at hgs
  exact bound_iff.2 ⟨hin, hctx, hfs, hgs⟩

end Bound

/-- Taking the innermost frames off, where there are frames below. -/
theorem popFrame_preserves {I : St → Prop} (h : ∀ s f fs g gs, s.ctx.frames.below = f :: fs →
    s.ctx.checkFrames.below = g :: gs → I s → I { s with ctx := { s.ctx with frames := ⟨f, fs⟩, checkFrames := ⟨g, gs⟩ } }) :
    Run.Preserves I popFrame := by
  intro s
  unfold popFrame getCtx
  rw [Run.bind_eq, Run.look_andThen]
  cases hf : s.ctx.frames.below with
  | nil       => exact ⟨fun x hx => (List.not_mem_nil hx).elim, fun hs => hs⟩
  | cons f fs =>
    cases hg : s.ctx.checkFrames.below with
    | nil       => exact ⟨fun x hx => (List.not_mem_nil hx).elim, fun hs => hs⟩
    | cons g gs =>
      refine ⟨fun x hx hs => ?_, h s f fs g gs hf hg⟩
      rw [List.mem_singleton.1 hx]
      exact h s f fs g gs hf hg hs

/-! ## Expressions -/

/-- **What an invariant `I` and a property `Q` of values have to bring**, kind by kind. -/
structure EvaluationRules (env : Env) (I : St → Prop) (Q : Expression → ValueEnvelope → Prop) : Prop where
  quiet   : ∀ s x, Quiet env s x → I s → I x
  literal : ∀ n value t, Q (.literal n value t) (.ofComplete value t .publicData [])
  symbol  : ∀ n i t s v, I s → s.ctx.resolve i = .ok v → Q (.symbolRef n i t) v
  field   : ∀ n e f t v x, Q e v → fieldValue f t v = .ok x → Q (.field n e f t) x
  project : ∀ n e f t v x, Q e v → projectValue f t v = .ok x → Q (.project n e f t) x
  call    : ∀ n f es t vs x, List.Forall₂ Q es vs → callValue env f t vs = .ok x → Q (.call n f es t) x
  binary  : ∀ n op l r t v w x, Q l v → Q r w → binaryValue env op t v w = .ok x → Q (.binary n op l r t) x
  read    : ∀ n u es t p,
    Run.Keeps I (Q (.read n u es t p)) (executeRead env n u (es.map Prod.fst) (evaluateArguments env es) p)

section Rules

variable {env : Env} {I : St → Prop} {Q : Expression → ValueEnvelope → Prop}

theorem Quiets.preserves_of {α : Type} {m : Run St Exn α} (hI : ∀ s x, Quiet env s x → I s → I x) (h : Quiets env m) :
    Run.Preserves I m := Run.Steps.preserves hI h

/-- What is around every expression keeps what is said of its value. -/
theorem evaluated_keeps {e : Expression} {ir : Run St Exn ValueEnvelope} {P : ValueEnvelope → Prop}
    (hI : ∀ s x, Quiet env s x → I s → I x) (h : Run.Keeps I P ir) : Run.Keeps I P (evaluated env e ir) := by
  have hpre : ∀ {α : Type} {m : Run St Exn α}, Quiets env m → Run.Preserves I m := fun hm => hm.preserves_of hI
  unfold evaluated
  split
  · exact Run.keeps_fail _
  · have hhandled : Run.Keeps I P (Run.handle (do checkDeadline env; ir) (fun error => Run.fail (evaluationError e error))) :=
      (Run.keeps_after (hpre (checkDeadline_quiet env)) (fun _ => h)).handle (fun _ => Run.keeps_fail _)
    refine hhandled.andThen (fun result hresult => ?_)
    split
    · exact Run.keeps_fail _
    · refine Run.keeps_after (hpre (observeCompleteness_still env _).quiets) (fun _ => Run.keeps_after (hpre (checkDeadline_quiet env)) (fun _ =>
        Run.keeps_after (hpre (onList_quiet env (checkCollection_quiet env) _)) (fun _ => Run.keeps_done hresult)))

mutual
theorem evaluateIr_keeps (h : EvaluationRules env I Q) : ∀ (e : Expression), Run.Keeps I (Q e) (evaluateIr env e)
  | .literal n value t => by
    unfold evaluateIr
    exact Run.keeps_done (h.literal n value t)
  | .symbolRef n i t => by
    unfold evaluateIr
    intro s hs
    have hlook : ∀ v, s.ctx.resolve i = .ok v → Q (.symbolRef n i t) v := fun v hv => h.symbol n i t s v hs hv
    exact Run.keeps_ofExcept (I := I) hlook s hs
  | .field n source f t => by
    unfold evaluateIr
    exact (evaluated_keeps h.quiet (evaluateIr_keeps h source)).andThen (fun v hv =>
      Run.keeps_ofExcept (fun x hx => h.field n source f t v x hv hx))
  | .project n source f t => by
    unfold evaluateIr
    exact (evaluated_keeps h.quiet (evaluateIr_keeps h source)).andThen (fun v hv =>
      Run.keeps_ofExcept (fun x hx => h.project n source f t v x hv hx))
  | .call n f arguments t => by
    unfold evaluateIr
    exact (evaluateItems_keeps h arguments).andThen (fun vs hvs =>
      Run.keeps_ofExcept (fun x hx => h.call n f arguments t vs x hvs hx))
  | .binary n op left right t => by
    unfold evaluateIr
    exact (evaluated_keeps h.quiet (evaluateIr_keeps h left)).andThen (fun v hv =>
      (evaluated_keeps h.quiet (evaluateIr_keeps h right)).andThen (fun w hw =>
        Run.keeps_ofExcept (fun x hx => h.binary n op left right t v w x hv hw hx)))
  | .read n u arguments t p => by
    unfold evaluateIr
    exact h.read n u arguments t p
  | .write .. => by
    unfold evaluateIr
    exact Run.keeps_fail _
theorem evaluateItems_keeps (h : EvaluationRules env I Q) : ∀ (es : List Expression),
    Run.Keeps I (List.Forall₂ Q es) (evaluateItems env es)
  | [] => by
    unfold evaluateItems
    exact Run.keeps_done List.Forall₂.nil
  | e :: es => by
    unfold evaluateItems
    exact (evaluated_keeps h.quiet (evaluateIr_keeps h e)).andThen (fun v hv =>
      (evaluateItems_keeps h es).andThen (fun vs hvs => Run.keeps_done (List.Forall₂.cons hv hvs)))
end

/-- **The evaluator keeps the invariant and gives values with the property.** -/
theorem evaluate_keeps (h : EvaluationRules env I Q) (e : Expression) : Run.Keeps I (Q e) (evaluate env e) :=
  evaluated_keeps h.quiet (evaluateIr_keeps h e)

end Rules

/-! ## Statements -/

/-- What a CHECK does with the value of its condition. -/
def recordVerdict (env : Env) (s : CheckStatement) (predicate : ValueEnvelope) : Run St Exn Unit := do
  let check ← Run.ofExcept (match evaluateCheck s predicate with
    | .error (.checkEvaluation m) => .error (.runtimeContract m)
    | other                       => other)
  recordCheck check
  bindCheck s.resultSymbolId
    (ValueEnvelope.ofComplete (.dict [("status", .str (StrEnum.value check.status))]) CHECK_RESULT .internal
      predicate.provenanceRefs)
  checkCompleted env s check

theorem executeCheck_eq (env : Env) (s : CheckStatement) :
    executeCheck env s = Run.andThen (evaluate env s.condition) (recordVerdict env s) := rfl

/-- **What an invariant has to bring for the statements with `P`**, kind by kind. -/
structure ExecutionRules (env : Env) (I : St → Prop) (Q : Expression → ValueEnvelope → Prop) (P : Statement → Prop) :
    Prop extends EvaluationRules env I Q where
  push  : Run.Preserves I pushFrame
  pop   : Run.Preserves I popFrame
  node  : ∀ s n, I s → I { s with ctx := { s.ctx with currentNodeId := n } }
  depth : ∀ s n, I s → I { s with ctx := { s.ctx with foreachDepth := n } }
  bind  : ∀ s v, P (.letBind s) → Q s.value v → Run.Preserves I (bindSymbol s.targetSymbolId v)
  item  : ∀ n i c m body v value, P (.foreach n i c m body) → Q c v →
    Run.Preserves I (bindSymbol i { v with value, typeInfo := v.typeInfo.bind (·.item), presence := .present })
  check : ∀ s v, P (.check s) → Q s.condition v → Run.Preserves I (recordVerdict env s v)
  emit  : ∀ s, P (.emit s) → Run.Preserves I (executeEmit env s)

section Statements

variable {env : Env} {I : St → Prop} {Q : Expression → ValueEnvelope → Prop} {P : Statement → Prop}

theorem ExecutionRules.around (h : ExecutionRules env I Q P) (s : Statement) {run : Run St Exn Unit}
    (hrun : Run.Preserves I run) : Run.Preserves I (aroundStatement env s run) := by
  have hpre : ∀ {α : Type} {m : Run St Exn α}, Quiets env m → Run.Preserves I m := fun hm => hm.preserves_of h.quiet
  have hnode : ∀ n, Run.Preserves I (modifyCtx (fun c => { c with currentNodeId := n })) := fun n =>
    Run.preserves_write (fun x hx => h.node x n hx)
  exact (hpre (checkDeadline_quiet env)).andThen (fun _ => (Run.preserves_look _).andThen (fun ctx =>
    (hnode _).andThen (fun _ => (hpre (emit_quiet env _ _)).andThen (fun _ => hrun.andThen (fun _ =>
      (hpre (emit_quiet env _ _)).andThen (fun _ => hnode _))))))

theorem ExecutionRules.pass (h : ExecutionRules env I Q P) {n i : String} {c : Expression} {m : Int}
    {body : List Statement} {source : ValueEnvelope} {run : Run St Exn Unit} (hP : P (.foreach n i c m body))
    (hsource : Q c source) (hrun : Run.Preserves I run) (value : Value) :
    Run.Preserves I (loopPass env i source run value) :=
  ((beforeLoopIteration_quiet env).preserves_of h.quiet).andThen (fun _ => h.push.andThen (fun _ =>
    ((h.item n i c m body source value hP hsource).andThen (fun _ => hrun)).lastly h.pop))

theorem ExecutionRules.loop (h : ExecutionRules env I Q P) {n i : String} {c : Expression} {m : Int}
    {body : List Statement} {run : Run St Exn Unit} (hP : P (.foreach n i c m body)) (hrun : Run.Preserves I run) :
    Run.Preserves I (executeForeach env n i c m run) := by
  have hdepth : ∀ f : Context → Nat, Run.Preserves I (modifyCtx (fun c => { c with foreachDepth := f c })) := fun f =>
    Run.preserves_write (fun x hx => h.depth x (f x.ctx) hx)
  have hbody : Run.Preserves I (executeForeachBody env n i c m run) := by
    refine ((evaluate_keeps h.toEvaluationRules c).andThen (R := fun _ => True) (fun source hsource => ?_)).preserves
    refine Run.keeps_after (Run.preserves_ofExcept _) (fun size => ?_)
    split
    · exact Run.keeps_fail _
    · refine Run.keeps_after (Run.preserves_ofExcept _) (fun values => Run.Preserves.keeps ?_)
      exact Run.preserves_forEach (fun value => h.pass hP hsource hrun value) values
  refine (Run.preserves_look _).andThen (fun ctx => ?_)
  split
  · exact Run.preserves_fail _
  · exact (hdepth _).andThen (fun _ => hbody.lastly (hdepth _))

mutual
theorem executeStatement_preserves (h : ExecutionRules env I Q P) : ∀ (s : Statement), (∀ t ∈ s.within, P t) →
    Run.Preserves I (executeStatement env s)
  | .letBind s, hP                                             => by
    unfold executeStatement
    have hs : P (.letBind s) := hP _ (Statement.mem_within _)
    refine ((evaluate_keeps h.toEvaluationRules s.value).andThen (R := fun _ => True) (fun v hv => ?_)).preserves
    exact (h.bind s v hs hv).keeps
  | .foreach nodeId iterator collection maxIterations body, hP => by
    unfold executeStatement
    have hbody : ∀ t ∈ withinBlock body, P t := by
      intro t ht
      refine hP t ?_
      unfold Statement.within
      exact List.mem_cons_of_mem _ ht
    exact h.loop (hP _ (Statement.mem_within _)) (executeBlock_preserves h body hbody)
  | .check s, hP                                               => by
    unfold executeStatement
    have hs : P (.check s) := hP _ (Statement.mem_within _)
    rw [executeCheck_eq]
    refine ((evaluate_keeps h.toEvaluationRules s.condition).andThen (R := fun _ => True) (fun v hv => ?_)).preserves
    exact (h.check s v hs hv).keeps
  | .emit s, hP                                                => by
    unfold executeStatement
    exact h.emit s (hP _ (Statement.mem_within _))
  | .approval _, _                                             => by
    unfold executeStatement
    exact Run.preserves_fail _
/-- **A block keeps the invariant**, at every point of every run of it. -/
theorem executeBlock_preserves (h : ExecutionRules env I Q P) : ∀ (ss : List Statement), (∀ t ∈ withinBlock ss, P t) →
    Run.Preserves I (executeBlock env ss)
  | [], _       => by
    unfold executeBlock
    exact Run.preserves_done ()
  | s :: ss, hP => by
    unfold executeBlock
    have hs : ∀ t ∈ s.within, P t := fun t ht => hP t (List.mem_append_left _ ht)
    have hss : ∀ t ∈ withinBlock ss, P t := fun t ht => hP t (List.mem_append_right _ ht)
    exact (h.around s (executeStatement_preserves h s hs)).andThen (fun _ => executeBlock_preserves h ss hss)
end

end Statements

/-! ## Executions -/

section Executions

variable {env : Env} {I : St → Prop} {Q : Expression → ValueEnvelope → Prop} {P : Statement → Prop}

theorem validatedInputs_gives (observe : Nat → Run St Exn Unit) (inputs : Dict Value) : ∀ (specs : List InputSpec),
    Run.Gives (fun ps => ∀ p ∈ ps, p.1 ∈ specs) (validatedInputs observe inputs specs)
  | []            => Run.gives_done (by simp)
  | spec :: specs => by
    unfold validatedInputs
    split
    · split
      · exact Run.gives_fail _
      · exact Run.gives_fail _
    · refine Run.gives_after (fun _ => (validatedInputs_gives observe inputs specs).andThen (fun ps hps =>
        Run.gives_done (List.forall_mem_cons.2 ⟨List.mem_cons_self .., fun p hp => List.mem_cons_of_mem _ (hps p hp)⟩)))

theorem validatedContexts_gives (observe : Nat → Run St Exn Unit) (context : Dict Value) : ∀ (specs : List ContextSpec),
    Run.Gives (fun ps => ∀ p ∈ ps, p.1 ∈ specs) (validatedContexts observe context specs)
  | []            => Run.gives_done (by simp)
  | spec :: specs => by
    unfold validatedContexts
    split
    · exact Run.gives_fail _
    · refine Run.gives_after (fun _ => (validatedContexts_gives observe context specs).andThen (fun ps hps =>
        Run.gives_done (List.forall_mem_cons.2 ⟨List.mem_cons_self .., fun p hp => List.mem_cons_of_mem _ (hps p hp)⟩)))

/-- **An execution keeps the invariant** once binding the inputs and contexts does. -/
theorem executionTry_preserves (h : ExecutionRules env I Q P) {skill : SkillObject} {request : ExecutionRequest}
    {principal : ExecutionPrincipal} {decision : AuthorizationDecision} {statements : List Statement}
    {allowControlled : Bool}
    (hin : ∀ spec ∈ skill.inputs, ∀ value, Run.Preserves I
      (bindInput spec.symbolId (ValueEnvelope.ofComplete value spec.typeInfo spec.classification [])))
    (hctx : ∀ spec ∈ skill.contexts, ∀ value, Run.Preserves I
      (bindContext spec.symbolId (ValueEnvelope.ofComplete value spec.typeInfo spec.classification [])))
    (hP : ∀ t ∈ withinBlock statements, P t) :
    Run.Preserves I (executionTry env skill request principal decision statements allowControlled) := by
  have hpre : ∀ {α : Type} {m : Run St Exn α}, Quiets env m → Run.Preserves I m := fun hm => hm.preserves_of h.quiet
  have hbind : Run.Preserves I (bindInputsAndContexts env skill request) := by
    have hinputs := (hpre (validatedInputs_still (observeCollection_still env) request.inputs skill.inputs).quiets).keeps_gives
      (validatedInputs_gives (observeCollection env) request.inputs skill.inputs)
    have hcontexts := (hpre (validatedContexts_still (observeCollection_still env) request.runtimeContext
      skill.contexts).quiets).keeps_gives (validatedContexts_gives (observeCollection env) request.runtimeContext skill.contexts)
    refine (hinputs.andThen (R := fun _ => True) (fun ps hps => hcontexts.andThen (fun qs hqs => ?_))).preserves
    refine Run.Preserves.keeps ((Run.preserves_forEach_mem _ (fun p hp => ?_)).andThen (fun _ =>
      Run.preserves_forEach_mem _ (fun q hq => ?_)))
    · exact hin p.1 (hps p hp) p.2
    · exact hctx q.1 (hqs q hq) q.2
  have hprologue : Run.Preserves I (executionPrologue env skill request principal decision allowControlled) :=
    (hpre (checkDeadline_quiet env)).andThen (fun _ => (Run.preserves_ofExcept _).andThen (fun _ =>
      (hpre (executionStarted_still env skill request principal decision).quiets).andThen (fun _ => hbind)))
  exact (hprologue.andThen (fun _ => (executeBlock_preserves h statements hP).andThen (fun _ =>
    hpre (executionEpilogue_still env decision).quiets))).handle (fun e => hpre (onFailure_still env e).quiets)

end Executions

/-! ## READ -/

variable (env : Env)

/-- A result that its contract lets through. -/
structure Validated (t : ToolCall) (result : ToolResultEnvelope) : Prop where
  contract : t.required.contractHash = t.contract.contractHash
  result   : validateResult result t.contract = .ok ()

theorem validateRequest_ok {request : ToolCallRequest} {contract : ToolContract}
    (h : validateRequest request contract = .ok ()) : request.contractHash = contract.contractHash := by
  unfold validateRequest at h
  by_cases heq : request.contractHash = contract.contractHash
  · exact heq
  · rw [if_pos heq] at h
    cases h

omit [Platform] in
theorem validateResult_ok {result : ToolResultEnvelope} {contract : ToolContract}
    (h : validateResult result contract = .ok ()) : result.typeInfo = contract.outputType ∧
      result.classification = contract.outputClassification ∧ conformsTo contract.outputType result.value = true := by
  unfold validateResult at h
  by_cases hmeta : result.typeInfo ≠ contract.outputType ∨ result.classification ≠ contract.outputClassification
  · rw [if_pos hmeta] at h
    cases h
  · rw [if_neg hmeta] at h
    rw [not_or, not_not, not_not] at hmeta
    split at h
    · rename_i hconforms
      exact ⟨hmeta.1, hmeta.2, hconforms⟩
    · cases h

theorem checkedCall_gives (t : ToolCall) (ctx : Context) (principal : ExecutionPrincipal) (timeoutMs : Int)
    (policy : ResultPolicy) :
    Run.Gives (Validated t) (checkedCall env t (t.request ctx principal) timeoutMs policy) := by
  unfold checkedCall
  refine Run.Gives.andThen (Run.gives_ofExcept (P := fun _ => t.required.contractHash = t.contract.contractHash)
    (fun _ h => validateRequest_ok h)) (fun _ hcontract => Run.gives_after (fun answer => Run.gives_after (fun result => ?_)))
  refine Run.Gives.andThen (Run.gives_ofExcept (P := fun _ => validateResult result t.contract = .ok ()) (fun _ h => h))
    (fun _ hresult => Run.gives_after (fun _ => ?_))
  split
  · exact Run.gives_fail _
  · exact Run.gives_after (fun _ => Run.gives_done ⟨hcontract, hresult⟩)

theorem reportFailure_gives (t : ToolCall) (durationLimited : Bool) (error : Exn) :
    Run.Gives (Validated t) (reportFailure env t durationLimited error) := by
  unfold reportFailure
  split
  · exact Run.gives_after (fun _ => Run.gives_fail _)
  · split
    · exact Run.gives_after (fun _ => Run.gives_fail _)
    · exact Run.gives_after (fun _ => Run.gives_fail _)
  · exact Run.gives_fail _
  · exact Run.gives_fail _
  · exact Run.gives_after (fun _ => Run.gives_fail _)

/-- **The value of a tool call is a validated result.** -/
theorem performCall_gives (t : ToolCall) (principal : ExecutionPrincipal) (policy : ResultPolicy) :
    Run.Gives (fun v => ∃ result ref, v = result.toValue ref ∧ Validated t result) (performCall env t principal policy) := by
  unfold performCall
  refine Run.gives_after (fun _ => Run.gives_after (fun _ => Run.gives_after (fun _ => Run.gives_after (fun ctx =>
    Run.gives_after (fun remaining => ?_)))))
  refine Run.Gives.andThen ((checkedCall_gives env t ctx principal _ policy).handle (fun e => reportFailure_gives env t _ e))
    (fun result hresult => ?_)
  exact Run.gives_after (fun _ => Run.gives_after (fun _ => Run.gives_after (fun _ =>
    Run.gives_done ⟨result, _, rfl, hresult⟩)))

/-- What resolving a READ finds: the required tool of the reference, and the contract of its version. -/
theorem resolveRead_ok {ctx : Context} {toolRef : String} {names : List String} {required : RequiredTool}
    {contract : ToolContract} {principal : ExecutionPrincipal} {decision : AuthorizationDecision}
    (h : resolveRead env ctx toolRef names = .ok (required, contract, principal, decision)) :
    ctx.skill.requiredTools.find? (fun r => r.toolRef = toolRef) = some required ∧
      env.catalog.resolve required.toolId required.version = .ok contract := by
  unfold resolveRead at h
  cases hfind : ctx.skill.requiredTools.find? (fun r => r.toolRef = toolRef) with
  | none   => simp only [hfind] at h; cases h
  | some r =>
    simp only [hfind] at h
    obtain ⟨k, hk, h₁⟩ := Stateful.bind_eq_ok h
    split at h₁
    · cases h₁
    · cases hp : ctx.request.principal with
      | none   => simp only [hp] at h₁; cases h₁
      | some p =>
        simp only [hp] at h₁
        obtain ⟨d, -, h₂⟩ := Stateful.bind_eq_ok h₁
        cases h₂
        exact ⟨rfl, hk⟩

/-- **The value of a READ**: a validated result, of the contract of the tool it resolves to in the state it starts in. -/
theorem executeRead_value {nodeId toolRef : String} {names : List String}
    {arguments : Run St Exn (List (String × ValueEnvelope))} {policy : ResultPolicy} {s s' : St} {w : List St}
    {v : ValueEnvelope} (h : executeRead env nodeId toolRef names arguments policy s = ⟨w, s', .ok v⟩) :
    ∃ required contract principal decision result ref,
      resolveRead env s.ctx toolRef names = .ok (required, contract, principal, decision) ∧
      required.contractHash = contract.contractHash ∧ validateResult result contract = .ok () ∧
      v = result.toValue ref := by
  unfold executeRead at h
  obtain ⟨_, _, ctx, _, hlook, h₁, -⟩ := Run.andThen_eq_ok h
  cases hlook
  obtain ⟨_, _, ⟨required, contract, principal, decision⟩, _, hresolve, h₂, -⟩ := Run.andThen_eq_ok h₁
  obtain ⟨hresolved, rfl⟩ := Run.ofExcept_eq_ok hresolve
  obtain ⟨_, s₁, args, _, -, h₃, -⟩ := Run.andThen_eq_ok h₂
  obtain ⟨_, s₂, _, _, -, h₄, -⟩ := Run.andThen_eq_ok h₃
  obtain ⟨_, s₃, _, _, -, h₅, -⟩ := Run.andThen_eq_ok h₄
  obtain ⟨_, s₄, counted, _, -, h₆, -⟩ := Run.andThen_eq_ok h₅
  obtain ⟨result, ref, hv, hvalid⟩ := performCall_gives env _ principal policy _ _ _ _ h₆
  exact ⟨required, contract, principal, decision, result, ref, hresolved, hvalid.contract, hvalid.result, hv⟩

end Evaluation
end Nsl
