import Nsl.EventTrace
/-!
# Audit trace — the events of an execution

`RuntimeEngine.execute` appends a word of brackets and one end. The word is well formed, and the statements it leaves
open are those that enclose the failure, exactly when each tool call was started in time (`execute_trace`).
-/
namespace Nsl

open Stateful (Run)
open Brackets (Leaves Stops)

/-! ## What encloses a failure -/

section Enclosing

variable [Platform] (env : Env)

/-- What `_execute_block` does before the handler of a statement. -/
def enterStatement (s : Statement) : Run St Exn Context := do
  checkDeadline env
  let ctx ← getCtx
  modifyCtx (fun c => { c with currentNodeId := some s.nodeId })
  emit env "STATEMENT_STARTED" [("node_id", .str s.nodeId), ("kind", .str s.kind)]
  Run.done ctx

/-- What it does after. -/
def leaveStatement (s : Statement) (ctx : Context) : Run St Exn Unit := do
  emit env "STATEMENT_COMPLETED" [("node_id", .str s.nodeId), ("kind", .str s.kind)]
  modifyCtx (fun c => { c with currentNodeId := ctx.currentNodeId })

/-- What a FOREACH does before its first pass. -/
def loopHead (nodeId : String) (collection : Expression) (maxIterations : Int) :
    Run St Exn (ValueEnvelope × List Value) := do
  let source ← evaluate env collection
  let size ← Run.ofExcept source.value.len
  if maxIterations < size then
    Run.fail (.limitExceeded ("foreach " ++ nodeId ++ " exceeds max " ++ toString maxIterations))
  else do
    let values ← Run.ofExcept source.value.iterate
    Run.done (source, values)

/-- What a pass does before the body. -/
def enterPass (iteratorSymbolId : String) (collection : ValueEnvelope) (value : Value) : Run St Exn Unit := do
  beforeLoopIteration env
  pushFrame
  bindSymbol iteratorSymbolId
    { collection with value, typeInfo := collection.typeInfo.bind (·.item), presence := .present }

/-- What `after` says of the state a run ends in; nothing when it fails. -/
def fromEnd {α : Type} (m : Run St Exn α) (after : α → St → List String) (s : St) : List String :=
  match m s with
  | ⟨_, s', .ok a⟩    => after a s'
  | ⟨_, _, .error _⟩ => []

/-- What `inside` says of the first pass that fails. -/
def failingPass (pass : Value → Run St Exn Unit) (inside : Value → St → List String) : List Value → St → List String
  | [], _      => []
  | v :: vs, s =>
    match pass v s with
    | ⟨_, s', .ok ()⟩  => failingPass pass inside vs s'
    | ⟨_, _, .error _⟩ => inside v s

mutual
/-- **The statements inside a statement that its failure goes through**, innermost first. -/
def enclosing : Statement → St → List String
  | .foreach nodeId iterator collection maxIterations body, s =>
    if MAX_FOREACH_NESTING_DEPTH ≤ s.ctx.foreachDepth then []
    else
      fromEnd (loopHead env nodeId collection maxIterations) (fun head s' =>
        failingPass (loopPass env iterator head.1 (executeBlock env body))
          (fun value => fromEnd (enterPass env iterator head.1 value) (fun _ s'' => enclosingBlock body s'')) head.2 s')
        { s with ctx := { s.ctx with foreachDepth := s.ctx.foreachDepth + 1 } }
  | .letBind _, _ | .check _, _ | .emit _, _ | .approval _, _ => []
/-- **The statements of a block that the failure of its run goes through**, innermost first. -/
def enclosingBlock : List Statement → St → List String
  | [], _            => []
  | st :: ss, s =>
    match aroundStatement env st (executeStatement env st) s with
    | ⟨_, s', .ok ()⟩  => enclosingBlock ss s'
    | ⟨_, _, .error _⟩ => fromEnd (enterStatement env st) (fun _ s' => enclosing st s' ++ [st.nodeId]) s
end

variable {env} {r : Recorder} {α β : Type}

/-- A first part that leaves nothing open, and the rest. -/
theorem Calls.goes {m : Run St Exn α} {f : α → Run St Exn β} {after : α → St → List String} (hm : Calls env r m)
    (hf : ∀ a s', Goes env r s' (f a s') (after a s')) (s : St) :
    Goes env r s (Run.andThen m f s) (fromEnd m after s) := by
  rcases hms : m s with ⟨w, s', e | a⟩
  · have hpath : fromEnd m after s = [] := by
      unfold fromEnd
      rw [hms]
    rw [hpath]
    exact (hm s).andThen_error hms
  · have hpath : fromEnd m after s = after a s' := by
      unfold fromEnd
      rw [hms]
    rw [hpath]
    exact (hm s).andThen hms (hf a s')

/-- A loop fails in its first pass that does. -/
theorem goes_forEach {pass : Value → Run St Exn Unit} {inside : Value → St → List String}
    (hpass : ∀ v s, Goes env r s (pass v s) (inside v s)) : ∀ (vs : List Value) (s : St),
    Goes env r s (Run.forEach pass vs s) (failingPass pass inside vs s)
  | [], s      => Calls.done () s
  | v :: vs, s => by
    have hv := hpass v s
    unfold failingPass
    rcases hms : pass v s with ⟨w, s', e | u⟩
    · exact hv.andThen_error hms
    · exact hv.andThen hms (goes_forEach hpass vs s')

/-- What is done before STATEMENT_STARTED. -/
def prepareStatement (env : Env) (s : Statement) : Run St Exn Context := do
  checkDeadline env
  let ctx ← getCtx
  modifyCtx (fun c => { c with currentNodeId := some s.nodeId })
  Run.done ctx

theorem prepareStatement_silent (s : Statement) : Silent (prepareStatement env s) :=
  checkDeadline_silent.bind (fun _ => (Silent.look _).bind (fun _ => (Silent.modifyCtx _).bind (fun _ => Silent.done _)))

theorem enterStatement_eq (s : Statement) : enterStatement env s = Run.andThen (prepareStatement env s) (fun ctx =>
    Run.andThen (emit env "STATEMENT_STARTED" [("node_id", .str s.nodeId), ("kind", .str s.kind)])
      (fun _ => Run.done ctx)) := by
  unfold enterStatement prepareStatement
  simp only [Run.bind_eq, Run.andThen_assoc, Run.andThen_done]

theorem aroundStatement_eq (s : Statement) (run : Run St Exn Unit) : aroundStatement env s run =
    Run.andThen (prepareStatement env s) (fun ctx =>
      Run.andThen (emit env "STATEMENT_STARTED" [("node_id", .str s.nodeId), ("kind", .str s.kind)])
        (fun _ => Run.andThen run (fun _ => leaveStatement env s ctx))) := by
  unfold aroundStatement prepareStatement leaveStatement
  simp only [Run.bind_eq, Run.andThen_assoc, Run.andThen_done]

/-- The event around a statement. -/
theorem statementEvent (hr : env.recorder = some r) (st : Statement) (eventType : String) (s : St) :
    ∃ e : AuditEvent, e.eventType = eventType ∧ e.shows "node_id" = shown r st.nodeId ∧
      emit env eventType [("node_id", .str st.nodeId), ("kind", .str st.kind)] s =
        ⟨[{ s with world := s.world.append e }], { s with world := s.world.append e }, .ok ()⟩ := by
  have hjson : fieldsJson [("node_id", .str st.nodeId), ("kind", .str st.kind)] = true := rfl
  obtain ⟨e, he, hrun⟩ := emit_event hr eventType hjson s
  have hplain : plainKeys ["node_id", "kind"] = true := by decide +kernel
  obtain ⟨hty, hshows⟩ := @nextEvent_shows _ _ _ _ _ _ he hplain "node_id" st.nodeId rfl (by decide)
  exact ⟨e, hty, hshows, hrun⟩

/-! ## Statements -/

/-- What is said of the end of a first part and of the rest. -/
theorem fromEnd_andThen (m : Run St Exn α) (f : α → Run St Exn β) (after : β → St → List String) (s : St) :
    fromEnd (Run.andThen m f) after s = fromEnd m (fun a s' => fromEnd (f a) after s') s := by
  rcases hms : m s with ⟨w, s', e | a⟩
  · unfold fromEnd
    rw [Run.andThen_error hms, hms]
  · unfold fromEnd
    rw [Run.andThen_ok hms, hms]
    dsimp only
    rcases f a s' with ⟨w', s'', e | b⟩ <;> rfl

/-- The event that opens a statement, its handler and the event that closes it. -/
theorem goes_between (hr : env.recorder = some r) (st : Statement) (ctx : Context) {run : Run St Exn Unit}
    {inner : St → List String} (hrun : ∀ s, Goes env r s (run s) (inner s)) (s : St) :
    let t := Run.andThen (emit env "STATEMENT_STARTED" [("node_id", .str st.nodeId), ("kind", .str st.kind)])
      (fun _ => Run.andThen run (fun _ => leaveStatement env st ctx)) s
    ∃ path, Goes env r s t path ∧ (t.outcome.isOk = false → path =
      fromEnd (emit env "STATEMENT_STARTED" [("node_id", .str st.nodeId), ("kind", .str st.kind)])
        (fun _ s' => inner s' ++ [st.nodeId]) s) := by
  dsimp only
  obtain ⟨e, hty, hshows, hemit⟩ := statementEvent hr st "STATEMENT_STARTED" s
  have hmark : e.mark = .enter (shown r st.nodeId) := by
    unfold AuditEvent.mark
    rw [if_pos hty, hshows]
  let s₁ : St := { s with world := s.world.append e }
  have hopen : StartsInTime env s s₁ := startsInTime_of_type rfl (by rw [hty]; decide) _
  have hevent : fromEnd (emit env "STATEMENT_STARTED" [("node_id", .str st.nodeId), ("kind", .str st.kind)])
      (fun _ s' => inner s' ++ [st.nodeId]) s = inner s₁ ++ [st.nodeId] := by
    unfold fromEnd
    rw [hemit]
  have hin := hrun s₁
  obtain ⟨evs, running, hevs, hleaves, hlinked, hok⟩ := hin.trace
  rw [hevent, Run.andThen_ok hemit]
  rcases hms : run s₁ with ⟨w, s₂, x | u⟩ <;> rw [hms] at hin hevs hlinked hok
  · -- the handler failed: the statement stays open
    rw [Run.andThen_error hms]
    refine ⟨inner s₁ ++ [st.nodeId], ⟨⟨e :: evs, running, ?_, ?_, ?_, fun h => (by cases h)⟩, ⟨trivial, hin.linked⟩,
      fun h => (by cases h), hin.mild⟩, fun _ => rfl⟩
    · rw [hevs]
      exact List.append_assoc ..
    · have h := (Brackets.leaves_enter (shown r st.nodeId)).append hleaves
      rw [List.map_append, List.map_singleton, List.map_cons, hmark]
      exact h
    · exact ⟨fun h => hlinked.1 h.2, fun h => ⟨hopen, hlinked.2 h⟩⟩
  · -- the handler ended: the statement is closed
    obtain ⟨e', hty', hshows', hemit'⟩ := statementEvent hr st "STATEMENT_COMPLETED" s₂
    have hmark' : e'.mark = .leave (shown r st.nodeId) := by
      unfold AuditEvent.mark
      rw [if_neg (by rw [hty']; decide), if_pos hty', hshows']
    have hclose : StartsInTime env s₂ ⟨s₂.ctx, s₂.world.append e'⟩ := startsInTime_of_type rfl (by rw [hty']; decide) _
    have hnone := hok rfl
    have hpath := hin.path rfl
    subst hnone
    rw [hpath] at hleaves
    rw [Run.andThen_ok hms]
    unfold leaveStatement
    rw [Run.bind_eq, Run.andThen_ok hemit']
    refine ⟨[], ⟨⟨e :: (evs ++ [e']), none, ?_, ?_, ?_, fun _ => rfl⟩, ⟨trivial, hin.linked.append ⟨trivial, trivial, rfl⟩⟩,
      fun _ => rfl, .ok ()⟩, fun h => (by cases h)⟩
    · show s₂.world.events ++ [e'] = _
      rw [hevs]
      show s.world.events ++ [e] ++ evs ++ [e'] = _
      simp
    · rw [List.map_cons, List.map_append, List.map_singleton, hmark, hmark']
      exact hleaves.closed
    · refine iff_of_true ⟨hopen, (hlinked.2 rfl).append ⟨hclose, startsInTime_of_sameLog ?_, rfl⟩⟩ rfl
      rfl

/-- **One statement of a block**: when it fails it stays open, around what its handler leaves open. -/
theorem goes_around (hr : env.recorder = some r) (st : Statement) {run : Run St Exn Unit} {inner : St → List String}
    (hrun : ∀ s, Goes env r s (run s) (inner s)) (s : St) :
    let t := aroundStatement env st run s
    ∃ path, Goes env r s t path ∧ (t.outcome.isOk = false →
      path = fromEnd (enterStatement env st) (fun _ s' => inner s' ++ [st.nodeId]) s) := by
  rw [aroundStatement_eq, enterStatement_eq, fromEnd_andThen]
  dsimp only
  have hprep : Goes env r s (prepareStatement env st s) [] := (prepareStatement_silent st).calls s
  rcases hms : prepareStatement env st s with ⟨w, s', e | ctx⟩
  · refine ⟨[], hprep.andThen_error hms, fun _ => ?_⟩
    unfold fromEnd
    rw [hms]
  · obtain ⟨path, hgoes, hpath⟩ := goes_between hr st ctx hrun s'
    refine ⟨path, hprep.andThen hms hgoes, fun hfail => ?_⟩
    rw [Run.andThen_ok hms] at hfail
    rw [hpath hfail]
    unfold fromEnd
    rw [hms]
    dsimp only
    obtain ⟨e, -, -, hemit⟩ := statementEvent hr st "STATEMENT_STARTED" s'
    rw [Run.andThen_ok hemit, hemit]
    rfl

/-- One pass of a loop. -/
theorem goes_loopPass (iterator : String) (collection : ValueEnvelope) {body : Run St Exn Unit} {inner : St → List String}
    (hbody : ∀ s, Goes env r s (body s) (inner s)) (value : Value) (s : St) :
    Goes env r s (loopPass env iterator collection body value s)
      (fromEnd (enterPass env iterator collection value) (fun _ s' => inner s') s) := by
  unfold loopPass enterPass
  simp only [Run.bind_eq, fromEnd_andThen]
  refine beforeLoopIteration_silent.calls.goes (fun _ s₁ => ?_) s
  refine (Silent.modifyCtx _).calls.goes (fun _ s₂ => ?_) s₁
  exact ((bindOnce_silent _ _).calls.goes (fun _ s₃ => hbody s₃) s₂).lastly popFrame_silent

theorem executeForeachBody_eq (nodeId iterator : String) (collection : Expression) (maxIterations : Int)
    (body : Run St Exn Unit) : executeForeachBody env nodeId iterator collection maxIterations body =
      Run.andThen (loopHead env nodeId collection maxIterations)
        (fun head => Run.forEach (loopPass env iterator head.1 body) head.2) := by
  unfold executeForeachBody loopHead
  simp only [Run.bind_eq, Run.andThen_assoc]
  congr 1
  funext source
  congr 1
  funext size
  split
  · rfl
  · rw [Run.andThen_assoc]
    rfl

theorem loopHead_calls (h : OnlyExceptions env) (hr : env.recorder = some r) (nodeId : String) (collection : Expression)
    (maxIterations : Int) : Calls env r (loopHead env nodeId collection maxIterations) := by
  refine (evaluate_calls h hr collection).bind (fun source => (Calls.ofExcept (len_mild _)).bind (fun size => ?_))
  split
  · exact Calls.fail rfl
  · exact (Calls.ofExcept (iterate_mild _)).bind (fun _ => Calls.done _)

mutual
/-- **The handler of a statement leaves open what `enclosing` says.** -/
theorem executeStatement_goes (h : OnlyExceptions env) (hr : env.recorder = some r) :
    ∀ (st : Statement) (s : St), Goes env r s (executeStatement env st s) (enclosing env st s)
  | .letBind st, s => by
    unfold executeStatement enclosing
    exact executeLet_calls h hr st s
  | .check st, s => by
    unfold executeStatement enclosing
    exact executeCheck_calls h hr st s
  | .emit st, s => by
    unfold executeStatement enclosing
    exact executeEmit_calls h hr st s
  | .approval _, s => by
    unfold executeStatement enclosing
    exact Calls.fail rfl s
  | .foreach nodeId iterator collection maxIterations body, s => by
    unfold executeStatement enclosing executeForeach
    rw [Run.bind_eq]
    show Goes env r s ((if _ then _ else _ : Run St Exn Unit) s) _
    split
    · exact Calls.fail rfl s
    · have hloop : ∀ s', Goes env r s'
          (Run.lastly (executeForeachBody env nodeId iterator collection maxIterations (executeBlock env body))
            (modifyCtx (fun c => { c with foreachDepth := c.foreachDepth - 1 })) s')
          (fromEnd (loopHead env nodeId collection maxIterations) (fun head s' =>
            failingPass (loopPass env iterator head.1 (executeBlock env body))
              (fun value => fromEnd (enterPass env iterator head.1 value) (fun _ s'' => enclosingBlock env body s''))
              head.2 s') s') := by
        intro s'
        rw [executeForeachBody_eq]
        refine Goes.lastly ?_ (Silent.modifyCtx _)
        exact (loopHead_calls h hr nodeId collection maxIterations).goes (fun head s'' => goes_forEach
          (goes_loopPass iterator head.1 (executeBlock_goes h hr body)) head.2 s'') s'
      exact ((Silent.modifyCtx _).calls s).andThen rfl (hloop _)
/-- **A block leaves open the statements its failure goes through.** -/
theorem executeBlock_goes (h : OnlyExceptions env) (hr : env.recorder = some r) :
    ∀ (ss : List Statement) (s : St), Goes env r s (executeBlock env ss s) (enclosingBlock env ss s)
  | [], s => by
    unfold executeBlock enclosingBlock
    exact Calls.done () s
  | st :: ss, s => by
    obtain ⟨path, hgoes, hpath⟩ := goes_around hr st (executeStatement_goes h hr st) s
    unfold executeBlock enclosingBlock
    rw [Run.bind_eq]
    rcases hms : aroundStatement env st (executeStatement env st) s with ⟨w, s', e | u⟩
    · dsimp only
      rw [← hpath (by rw [hms]; rfl)]
      exact hgoes.andThen_error hms
    · exact hgoes.andThen hms (executeBlock_goes h hr ss s')
end

end Enclosing
/-! ## The whole execution -/

section Execution

variable [Platform] {env : Env} {r : Recorder}

theorem checkedValue_silent (observe : Nat → Run St Exn Unit) (h : ∀ n, Silent (observe n)) (value : Value)
    (t : TypeRef) (name : String) : Silent (checkedValue observe value t name) :=
  (Silent.ofExcept (validateRuntimeType_mild _ _ _)).bind (fun _ => onList_silent h value)

theorem validatedInputs_silent {observe : Nat → Run St Exn Unit} (h : ∀ n, Silent (observe n)) (inputs : Dict Value) :
    ∀ (specs : List InputSpec), Silent (validatedInputs observe inputs specs)
  | []            => Silent.done _
  | spec :: specs => by
    unfold validatedInputs
    split
    · split
      · exact Silent.fail rfl
      · exact Silent.fail rfl
    · exact (checkedValue_silent observe h _ _ _).bind (fun _ => (validatedInputs_silent h inputs specs).bind
        (fun _ => Silent.done _))

theorem validatedContexts_silent {observe : Nat → Run St Exn Unit} (h : ∀ n, Silent (observe n)) (context : Dict Value) :
    ∀ (specs : List ContextSpec), Silent (validatedContexts observe context specs)
  | []            => Silent.done _
  | spec :: specs => by
    unfold validatedContexts
    split
    · exact Silent.fail rfl
    · exact (checkedValue_silent observe h _ _ _).bind (fun _ => (validatedContexts_silent h context specs).bind
        (fun _ => Silent.done _))

theorem Silent.forEach {α : Type} {f : α → Run St Exn Unit} (h : ∀ a, Silent (f a)) : ∀ (xs : List α),
    Silent (Run.forEach f xs)
  | []      => Silent.done ()
  | x :: xs => (h x).bind (fun _ => Silent.forEach h xs)

theorem bindInputsAndContexts_silent (skill : SkillObject) (request : ExecutionRequest) :
    Silent (bindInputsAndContexts env skill request) :=
  (validatedInputs_silent observeCollection_silent _ _).bind (fun _ =>
    (validatedContexts_silent observeCollection_silent _ _).bind (fun _ =>
      (Silent.forEach (fun _ => bindOnce_silent _ _) _).bind (fun _ => Silent.forEach (fun _ => bindOnce_silent _ _) _)))

theorem executionPrologue_calls (skill : SkillObject) (request : ExecutionRequest) (principal : ExecutionPrincipal)
    (decision : AuthorizationDecision) : Calls env r (executionPrologue env skill request principal decision false) := by
  refine checkDeadline_silent.calls.bind (fun _ => (Calls.ofExcept (preflight_mild _ _)).bind (fun _ =>
    Calls.bind ?_ (fun _ => (bindInputsAndContexts_silent skill request).calls)))
  refine (Calls.ofExcept (projectDeclaredContext_mild _ _)).bind (fun _ => (putSnapshot_silent env _ _).calls.bind (fun _ =>
    (putSnapshot_silent env _ _).calls.bind (fun _ => (Calls.ofExcept (valueHash_mild _)).bind (fun _ =>
      (Calls.ofExcept (valueHash_mild _)).bind (fun _ => emitHidden_calls _ _ _ _ _ (fun e he => by
        simp [AuditEvent.mark, he, TERMINAL_EVENTS]))))))

/-- The `try` up to the result of an execution that completes. -/
def gathered (env : Env) (skill : SkillObject) (request : ExecutionRequest) (principal : ExecutionPrincipal)
    (decision : AuthorizationDecision) : Run St Exn ExecutionResult := do
  executionPrologue env skill request principal decision false
  executeBlock env skill.body
  checkDeadline env
  let ctx ← getCtx
  Run.ofExcept (resultOf ctx .completed none)

theorem executionBody_eq (skill : SkillObject) (request : ExecutionRequest) (principal : ExecutionPrincipal)
    (decision : AuthorizationDecision) : executionBody env skill request principal decision skill.body false =
      Run.andThen (gathered env skill request principal decision) (fun result =>
        Run.andThen (emit env "EXECUTION_COMPLETED" (completedPayload result decision)) (fun _ => Run.done result)) := by
  unfold executionBody executionEpilogue gathered
  simp only [Run.bind_eq, Run.andThen_assoc]

variable (env)

/-- The statements that enclose the failure of an authorized execution, innermost first. -/
def enclosingBody (skill : SkillObject) (request : ExecutionRequest) (principal : ExecutionPrincipal)
    (decision : AuthorizationDecision) : St → List String :=
  fromEnd (executionPrologue env skill request principal decision false) (fun _ s => enclosingBlock env skill.body s)

variable {env}

theorem gathered_goes (h : OnlyExceptions env) (hr : env.recorder = some r) (skill : SkillObject)
    (request : ExecutionRequest) (principal : ExecutionPrincipal) (decision : AuthorizationDecision) (s : St) :
    Goes env r s (gathered env skill request principal decision s) (enclosingBody env skill request principal decision s) := by
  unfold gathered enclosingBody
  refine (executionPrologue_calls skill request principal decision).goes (fun _ s' => ?_) s
  have hblock := executeBlock_goes h hr skill.body s'
  have hrest : Calls env r (do
      checkDeadline env
      let ctx ← getCtx
      Run.ofExcept (resultOf ctx .completed none)) :=
    checkDeadline_silent.calls.bind (fun _ => (Calls.look _).bind (fun _ => Calls.ofExcept (resultOf_mild _ _ _)))
  rcases hms : executeBlock env skill.body s' with ⟨w, s'', e | u⟩
  · exact hblock.andThen_error hms
  · rw [hms] at hblock
    have hpath := hblock.path rfl
    rw [hpath] at hblock ⊢
    rw [← hms] at hblock
    exact hblock.andThen hms (hrest s'')

theorem gathered_status {skill : SkillObject} {request : ExecutionRequest} {principal : ExecutionPrincipal}
    {decision : AuthorizationDecision} {s s' : St} {w : List St} {result : ExecutionResult}
    (h : gathered env skill request principal decision s = ⟨w, s', .ok result⟩) : result.status = .completed := by
  unfold gathered at h
  obtain ⟨_, _, _, _, -, h, -⟩ := Run.andThen_eq_ok h
  obtain ⟨_, _, _, _, -, h, -⟩ := Run.andThen_eq_ok h
  obtain ⟨_, _, _, _, -, h, -⟩ := Run.andThen_eq_ok h
  obtain ⟨_, _, _, _, -, h, -⟩ := Run.andThen_eq_ok h
  exact resultOf_status (Run.ofExcept_eq_ok h).1

/-- A terminal event says what the result says. -/
def Agrees (r : Recorder) (last : AuditEvent) (outcome : Except Exn ExecutionResult) : Prop :=
  ∀ result, outcome = .ok result →
    (last.eventType = "EXECUTION_COMPLETED" ↔ result.status = .completed) ∧
    (last.eventType = "EXECUTION_REJECTED" → result.status = .failed) ∧
    (last.eventType ≠ "EXECUTION_REJECTED" → last.shows "status" = shown r (StrEnum.value result.status))

/-- **What a whole execution appends**: what its parts do, and one terminal event. -/
def Ends (env : Env) (r : Recorder) (s : St) (t : Stateful.Trace St Exn ExecutionResult) (path : List String) : Prop :=
  ∃ events last running, t.final.world.events = s.world.events ++ (events ++ [last]) ∧
    Leaves (events.map AuditEvent.mark) (path.map (shown r)) running ∧ last.mark = .finish ∧
    (Run.Linked (StartsInTime env) s t.written t.final ↔ running = none) ∧ Agrees r last t.outcome

omit [Platform] in
theorem failureOf_status {e : Exn} {f : Failure} (h : failureOf e = some f) : f.status ≠ .completed := by
  unfold failureOf at h
  split at h <;> cases h <;> exact fun hstatus => by cases hstatus

/-- The terminal event of an execution. -/
theorem terminalEvent (hr : env.recorder = some r) (eventType : String) (htype : eventType ∈ TERMINAL_EVENTS)
    {payload : List (String × Value)} (hjson : fieldsJson payload = true) (s : St) :
    ∃ e : AuditEvent, e.eventType = eventType ∧ e.mark = .finish ∧
      (plainKeys (payload.map Prod.fst) = true → ∀ key text, payload.lookup key = some (.str text) →
        key ∉ ["redacted", "value_hash"] → e.shows key = shown r text) ∧
      StartsInTime env s { s with world := s.world.append e } ∧
      emit env eventType payload s =
        ⟨[{ s with world := s.world.append e }], { s with world := s.world.append e }, .ok ()⟩ := by
  obtain ⟨e, he, hrun⟩ := emit_event hr eventType hjson s
  have hty : e.eventType = eventType := nextEvent_type he
  refine ⟨e, hty, ?_, fun hplain key text hkey hhidden => (nextEvent_shows he hplain hkey hhidden).2,
    startsInTime_of_type rfl ?_ _, hrun⟩
  · unfold AuditEvent.mark
    rw [hty]
    simp only [TERMINAL_EVENTS, List.mem_cons, List.not_mem_nil, or_false] at htype
    rcases htype with rfl | rfl | rfl <;> rfl
  · rw [hty]
    simp only [TERMINAL_EVENTS, List.mem_cons, List.not_mem_nil, or_false] at htype
    rcases htype with rfl | rfl | rfl <;> decide

theorem failed_ends (hr : env.recorder = some r) {e : Exn} {f : Failure} (hf : failureOf e = some f) {s s' : St}
    {t : Stateful.Trace St Exn ExecutionResult} {w : List St} {path : List String} (ht : t = ⟨w, s', .error e⟩)
    (hgoes : Goes env r s t path) :
    Ends env r s ⟨w ++ (failed env f s').written, (failed env f s').final, (failed env f s').outcome⟩ path := by
  subst ht
  obtain ⟨evs, running, hevs, hleaves, hlinked, -⟩ := hgoes.trace
  obtain ⟨last, hty, hmark, hshows, htime, hemit⟩ := terminalEvent hr "EXECUTION_FAILED"
    (by decide) (failedPayload_json s'.ctx f (failureInfo s'.ctx f)) s'
  have hrun : failed env f s' = ⟨[{ s' with world := s'.world.append last }],
      { s' with world := s'.world.append last }, resultOf s'.ctx f.status (some (failureInfo s'.ctx f))⟩ := by
    unfold failed getCtx
    rw [Run.bind_eq, Run.look_andThen, Run.bind_eq, Run.andThen_ok hemit, Run.ofExcept_apply]
    rfl
  rw [hrun]
  refine ⟨evs, last, running, ?_, hleaves, hmark, ?_, ?_⟩
  · show s'.world.events ++ [last] = _
    rw [hevs, List.append_assoc]
  · constructor
    · intro h
      exact hlinked.1 (hgoes.linked.of_append h).1
    · intro h
      exact (hlinked.2 h).append ⟨htime, rfl⟩
  · intro result hresult
    have hstatus : result.status = f.status := resultOf_status hresult
    refine ⟨⟨fun hcompleted => absurd (hty.symm.trans hcompleted) (by decide), fun hcompleted => ?_⟩,
      fun hrejected => absurd (hty.symm.trans hrejected) (by decide), fun _ => ?_⟩
    · exact absurd (hstatus.symm.trans hcompleted) (failureOf_status hf)
    · rw [hstatus]
      exact hshows (by show plainKeys ["execution_id", "status", "completeness", "error_code", "category", "message",
        "detail_code", "node_id", "location", "cause", "authorization_decision_ref"] = true; decide +kernel) "status" _ rfl
        (by decide)

/-- **The `try` with its handlers ends the trace.** -/
theorem executionTry_ends (h : OnlyExceptions env) (hr : env.recorder = some r) (skill : SkillObject)
    (request : ExecutionRequest) (principal : ExecutionPrincipal) (decision : AuthorizationDecision) (s : St) :
    Ends env r s (executionTry env skill request principal decision skill.body false s)
      (enclosingBody env skill request principal decision s) := by
  have hgoes := gathered_goes h hr skill request principal decision s
  unfold executionTry
  rw [executionBody_eq]
  rcases hms : gathered env skill request principal decision s with ⟨w, s', e | result⟩
  · have hmild : e.isException = true := hgoes.mild e (by rw [hms])
    rw [Run.handle_error (Run.andThen_error hms)]
    cases hf : failureOf e with
    | none   =>
      have hsome := failureOf_isSome e
      rw [hf, hmild] at hsome
      cases hsome
    | some f =>
      have hhandler : onFailure env e = failed env f := by
        unfold onFailure
        rw [hf]
      rw [hhandler]
      exact failed_ends hr hf hms hgoes
  · rw [hms] at hgoes
    obtain ⟨evs, running, hevs, hleaves, hlinked, hok⟩ := hgoes.trace
    obtain ⟨last, hty, hmark, hshows, htime, hemit⟩ := terminalEvent hr "EXECUTION_COMPLETED"
      (by decide) (completedPayload_json result decision) s'
    have hstatus : result.status = .completed := gathered_status hms
    have hrun : Run.andThen (gathered env skill request principal decision) (fun result =>
        Run.andThen (emit env "EXECUTION_COMPLETED" (completedPayload result decision)) (fun _ => Run.done result)) s =
        ⟨w ++ [{ s' with world := s'.world.append last }], { s' with world := s'.world.append last }, .ok result⟩ := by
      rw [Run.andThen_ok hms, Run.andThen_ok hemit]
      rfl
    rw [Run.handle_ok hrun]
    refine ⟨evs, last, running, ?_, hleaves, hmark, ?_, ?_⟩
    · show s'.world.events ++ [last] = _
      rw [hevs, List.append_assoc]
    · constructor
      · intro hlink
        exact hlinked.1 (hgoes.linked.of_append hlink).1
      · intro hnone
        exact (hlinked.2 hnone).append ⟨htime, rfl⟩
    · intro result' hresult
      cases hresult
      refine ⟨iff_of_true hty hstatus, fun hrejected => absurd (hty.symm.trans hrejected) (by decide), fun _ => ?_⟩
      exact hshows (by show plainKeys ["execution_id", "status", "completeness", "output_count", "check_count",
        "authorization_decision_ref"] = true; decide +kernel) "status" _ rfl (by decide)

variable (env)

/-- The statements that enclose the failure of an execution, innermost first. -/
def enclosingFailure (skill : SkillObject) (request : ExecutionRequest) (s : St) : List String :=
  match authorizeExecution (env.forExecution skill request) skill request.principal with
  | .error _               => []
  | .ok (principal, decision) =>
    enclosingBody (env.forExecution skill request) skill request principal decision (tryState env skill request s)

variable {env}

/-- Silent steps before the rest. -/
theorem Ends.after {s s' : St} {w : List St} {t : Stateful.Trace St Exn ExecutionResult} {path : List String}
    (hw : Run.Linked SameLog s w s') (h : Ends env r s' t path) : Ends env r s ⟨w ++ t.written, t.final, t.outcome⟩ path := by
  obtain ⟨evs, last, running, hevs, hleaves, hmark, hlinked, hagrees⟩ := h
  refine ⟨evs, last, running, ?_, hleaves, hmark, ?_, hagrees⟩
  · show t.final.world.events = _
    rw [hevs, linked_sameLog hw]
  · rw [Run.linked_append_iff (hw.mono (fun _ _ => startsInTime_of_sameLog))]
    exact hlinked

theorem reject_ends (hr : env.recorder = some r) (skill : SkillObject) (request : ExecutionRequest) (message : String)
    (ref : Option String) (s : St) : Ends env r s (rejectExecution env skill request message ref s) [] := by
  obtain ⟨last, hty, hmark, -, htime, hemit⟩ := terminalEvent hr "EXECUTION_REJECTED"
    (by decide) (rejectedPayload_json skill request (redact message []) ref) s
  unfold rejectExecution
  rw [Run.bind_eq, Run.andThen_ok hemit]
  refine ⟨[], last, none, rfl, Brackets.leaves_nil, hmark, iff_of_true ⟨htime, rfl⟩ rfl, ?_⟩
  intro result hresult
  cases hresult
  exact ⟨iff_of_false (fun hc => absurd (hty.symm.trans hc) (by decide)) (fun hc => by cases hc), fun _ => rfl,
    fun hne => absurd hty hne⟩

/-- What `execute` does after the parts that append nothing. -/
theorem execute_ends (h : OnlyExceptions env) (skill : SkillObject) (request : ExecutionRequest) (s : St) :
    Ends (env.forExecution skill request) (Recorder.make skill request) s (execute env skill request s)
      (enclosingFailure env skill request s) := by
  unfold enclosingFailure
  cases hauth : authorizeExecution (env.forExecution skill request) skill request.principal with
  | error e =>
    obtain ⟨m, ref, rfl⟩ := authorizeExecution_error _ hauth
    rw [execute_refused env hauth s]
    exact (reject_ends rfl skill request m ref _).after ⟨rfl, rfl⟩
  | ok pd   =>
    obtain ⟨p, d⟩ := pd
    have hstart : Run.Linked SameLog s [chainState s, ⟨s.ctx, (tryState env skill request s).world⟩,
        tryState env skill request s] (tryState env skill request s) := ⟨rfl, rfl, rfl, rfl⟩
    have hr : (env.forExecution skill request).recorder = some (Recorder.make skill request) := rfl
    have honly : OnlyExceptions (env.forExecution skill request) := ⟨h.port, h.sink⟩
    have hends := executionTry_ends honly hr skill request p d (tryState env skill request s)
    rw [execute_started env hauth s]
    exact hends.after hstart

end Execution

/-! ## The theorem -/

section Trace

variable [Platform]

/-- **A well-formed audit trace** around the statements `enclosing`, which a failure left open: calls closed, statements
nested, one terminal event at the end that says what the result says. -/
structure WellFormedTrace (r : Recorder) (events : List AuditEvent) (enclosing : List String)
    (outcome : Except Exn ExecutionResult) : Prop where
  brackets : Brackets.WellFormed (events.map AuditEvent.mark) (enclosing.map (shown r))
  agrees   : ∀ last, events.getLast? = some last → Agrees r last outcome

/-- An execution keeps the clock. -/
theorem startsInTime_forExecution (env : Env) (skill : SkillObject) (request : ExecutionRequest) :
    StartsInTime (env.forExecution skill request) = StartsInTime env := rfl

/-- What `Ends` leaves well formed. -/
theorem Ends.wellFormed_iff {env : Env} {r : Recorder} {s : St} {t : Stateful.Trace St Exn ExecutionResult}
    {path : List String} (h : Ends env r s t path) : ∃ events, t.final.world.events = s.world.events ++ events ∧
      (WellFormedTrace r events path t.outcome ↔ Run.Linked (StartsInTime env) s t.written t.final) := by
  obtain ⟨evs, last, running, hevs, hleaves, hmark, hlinked, hagrees⟩ := h
  have hmarks : (evs ++ [last]).map AuditEvent.mark = evs.map AuditEvent.mark ++ [.finish] := by
    rw [List.map_append, List.map_singleton, hmark]
  refine ⟨evs ++ [last], hevs, ?_⟩
  rw [hlinked, ← Brackets.wellFormed_iff hleaves, ← hmarks]
  refine ⟨fun hwell => hwell.brackets, fun hbrackets => ⟨hbrackets, fun last' hlast => ?_⟩⟩
  rw [List.getLast?_append, List.getLast?_singleton] at hlast
  cases hlast
  exact hagrees

end Trace

/-! ## A call that is started too late -/

section Late

variable [Platform] {env : Env} {α β : Type}

/-- The context and the readings of the clock. -/
def St.atReading (s : St) : Context × Nat := (s.ctx, s.world.readings)

theorem checkDeadline_at {c : Context} {n : Nat}
    (h : env.clock n - c.startedNs < c.skill.limits.durationMs * 1000000) :
    Run.Reaches St.atReading (c, n) (checkDeadline env) () (c, n + 1) := by
  rintro ⟨c', w⟩ hs
  obtain ⟨rfl, rfl⟩ := Prod.mk.inj hs
  have hns : remainingDurationNs env ⟨c', w⟩ = ⟨[ticked ⟨c', w⟩], ticked ⟨c', w⟩, .ok (timeLeftNs env ⟨c', w⟩)⟩ := rfl
  have hpos : ¬ timeLeftNs env ⟨c', w⟩ ≤ 0 := by
    unfold timeLeftNs
    dsimp only at h ⊢
    omega
  unfold checkDeadline
  rw [Run.bind_eq, Run.andThen_ok hns, if_neg hpos]
  exact ⟨_, _, rfl, rfl⟩

theorem modifyCtx_at (f : Context → Context) (c : Context) (n : Nat) :
    Run.Reaches St.atReading (c, n) (modifyCtx f) () (f c, n) := by
  refine Run.reaches_write ?_
  rintro ⟨c', w⟩ hs
  obtain ⟨rfl, hn⟩ := Prod.mk.inj hs
  exact Prod.ext rfl hn

theorem consume_at {count limit : Context → Nat} {message : String} {bump : Meter → Meter} {c : Context} {n : Nat}
    (h : count c < limit c) : Run.Reaches St.atReading (c, n) (consume count limit message bump) ()
      ({ c with resources := bump c.resources }, n) := by
  have hlook : Run.Reaches St.atReading (c, n) getCtx c (c, n) := Run.reaches_look (fun s hs => (Prod.mk.inj hs).1)
  unfold consume
  rw [Run.bind_eq]
  refine hlook.andThen ?_
  rw [if_neg (not_le.2 h)]
  exact modifyCtx_at _ c n

theorem emit_at {r : Recorder} (hr : env.recorder = some r) (eventType : String) {payload : List (String × Value)}
    (h : fieldsJson payload = true) (c : Context × Nat) :
    Run.Reaches St.atReading c (emit env eventType payload) () c := by
  intro s hs
  obtain ⟨e, -, hrun⟩ := emit_event hr eventType h s
  exact ⟨_, _, hrun, hs⟩

/-- The run starts a call too late. -/
def Late (env : Env) (s : St) (t : Stateful.Trace St Exn α) : Prop :=
  ¬ Run.Linked (StartsInTime env) s t.written t.final

theorem Late.after {c c' : Context × Nat} {m : Run St Exn α} {f : α → Run St Exn β} {a : α} {s : St}
    (hlinked : Run.Steps (fun _ _ => True) m) (hm : Run.Reaches St.atReading c m a c') (hs : s.atReading = c)
    (hf : ∀ s', s'.atReading = c' → Late env s' (f a s')) : Late env s (Run.andThen m f s) := by
  obtain ⟨w, s', hms, hs'⟩ := hm s hs
  have hfirst := hlinked s
  rw [hms] at hfirst
  rw [Run.andThen_ok hms]
  exact fun h => hf s' hs' (hfirst.of_append h).2

theorem Late.first {m : Run St Exn α} {f : α → Run St Exn β} {s : St} (hlinked : Run.Steps (fun _ _ => True) m)
    (hm : Late env s (m s)) : Late env s (Run.andThen m f s) := by
  have hfirst := hlinked s
  rcases hms : m s with ⟨w, s', e | a⟩ <;> rw [hms] at hfirst hm
  · rw [Run.andThen_error hms]
    exact hm
  · rw [Run.andThen_ok hms]
    exact fun h => hm (hfirst.of_append h).1

theorem Late.handled {m : Run St Exn α} {f : Exn → Run St Exn α} {s : St} (hlinked : Run.Steps (fun _ _ => True) m)
    (hm : Late env s (m s)) : Late env s (Run.handle m f s) := by
  have hfirst := hlinked s
  rcases hms : m s with ⟨w, s', e | a⟩ <;> rw [hms] at hfirst hm
  · rw [Run.handle_error hms]
    exact fun h => hm (hfirst.of_append h).1
  · rw [Run.handle_ok hms]
    exact hm

end Late

section Counterexample

/-- The contract of a tool that reads a number. -/
theorem readContract_version : isVersion "1.0.0" = true := by decide

theorem readContract_texts : Text.isBlank "READ" = false ∧ Text.isBlank "R0" = false := by decide

theorem readContract_timeout : 1 ≤ 1000 ∧ 1000 ≤ MAX_TOOL_TIMEOUT_MS := by decide

theorem readContract_read : "READ" = "WRITE" → (none : Option OperationKind).isSome ∧ (none : Option RiskLevel).isSome ∧
    (none : Option WriteSemantics).isSome := fun h => absurd h (by decide)

theorem readContract_writes : "READ" ≠ "WRITE" → (none : Option OperationKind) = none ∧
    (none : Option WriteSemantics) = none := fun _ => ⟨rfl, rfl⟩

theorem readContract_names : ∀ n ∈ ([] : List (String × TypeRef)).map Prod.fst, Text.isBlank n = false := by simp

theorem readContract_once : KeysOnce ([] : List (String × TypeRef)) := List.nodup_nil

def readContract : ToolContract where
  toolId               := "number.read"
  version              := "1.0.0"
  capability           := "READ"
  inputTypes           := []
  outputType           := INT
  requiredScope        := "nsl:skill:execute"
  outputClassification := .internal
  timeoutMs            := 1000
  risk                 := "R0"
  emptyIsValid         := false
  operationKind        := none
  riskLevel            := none
  writeSemantics       := none
  versionCanonical     := readContract_version
  capabilitySet        := readContract_texts.1
  riskSet              := readContract_texts.2
  namesSet             := readContract_names
  namesUnique          := readContract_once
  timeoutRange         := readContract_timeout
  writeDeclared        := readContract_read
  writeOnly            := readContract_writes

variable [Platform]

def readTool : RequiredTool where
  toolRef              := "tool-1"
  toolId               := "number.read"
  version              := "1.0.0"
  capability           := "READ"
  contractHash         := readContract.contractHash
  requiredScope        := "nsl:skill:execute"
  outputClassification := .internal
  riskLevel            := none
  writeHasRisk         := fun h => by simp at h

/-- A skill that reads the number once. -/
def readSkill : SkillObject :=
  { SkillObject.ofBody "1.1" "0.2" ⟨1, 1, 1, 1, 1000⟩ [.letBind ⟨"n1", "local.number", .read "n2" "tool-1" [] INT {}⟩] with
    requiredTools := [readTool] }.sealHash

/-- Its tools, and a clock that has used the duration up at its sixth reading. -/
def Env.readLate : Env :=
  { Env.bare with catalog := ⟨[readContract], by simp⟩, clock := fun n => if n < 5 then 0 else 2000000000 }

theorem readSkill_duration : (readSkill.limits.durationMs : Int) = 1000 := rfl

theorem readSkill_preflight (env : Env) (h : env.catalog = Env.readLate.catalog) : preflight env readSkill false = .ok () := by
  have hhash : readSkill.computedHash = .ok readSkill.semanticHash := SkillObject.sealHash_computedHash rfl
  have hprofile : supportedProfile readSkill.irVersion readSkill.languageVersion = some readSkill.semanticsProfile := rfl
  have hcontrolled : containsControlled readSkill.body = false := rfl
  have hbounded : readSkill.analysis.bounded = true := rfl
  have htools : readSkill.requiredTools = [readTool] := rfl
  have htool : preflightTool env false readTool = .ok () := by
    have hresolve : env.catalog.resolve readTool.toolId readTool.version = .ok readContract := by
      rw [h]
      rfl
    unfold preflightTool
    rw [hresolve]
    simp [bind, Except.bind, pure, Except.pure, readTool]
  unfold preflight
  rw [hprofile, hhash, hcontrolled, hbounded, htools]
  simp [bind, Except.bind, pure, Except.pure, htool]

theorem readSkill_resolves (env : Env) (h : env.catalog = Env.readLate.catalog) (ctx : Context)
    (hskill : ctx.skill = readSkill) (hrequest : ctx.request = analystRequest) :
    ∃ d, resolveRead env ctx "tool-1" [] = .ok (readTool, readContract, analyst, d) := by
  have hauthorize : ∃ d, env.authorizer.authorize analyst ("tool:" ++ "number.read" ++ ":execute")
      ["nsl:skill:execute"] = .ok d := by
    unfold StaticAuthorizer.authorize
    rw [analyst_validate]
    exact ⟨_, rfl⟩
  obtain ⟨d, hd⟩ := hauthorize
  have hfind : readSkill.requiredTools.find? (fun r => r.toolRef = "tool-1") = some readTool := rfl
  have hresolve : env.catalog.resolve readTool.toolId readTool.version = .ok readContract := by
    rw [h]
    rfl
  refine ⟨d, ?_⟩
  unfold resolveRead
  rw [hskill, hfind]
  dsimp only
  rw [hresolve]
  simp only [bind, Except.bind]
  rw [if_neg (by simp [readContract]), hrequest]
  exact Stateful.bind_ok hd (fun d => .ok (readTool, readContract, analyst, d))

/-- The call itself: nothing is read of the clock before its TOOL_STARTED, and too much after. -/
theorem performCall_late {env : Env} {r : Recorder} (hr : env.recorder = some r) (hsnapshots : env.snapshots = none)
    (t : ToolCall) (harguments : t.values = .dict []) (principal : ExecutionPrincipal) (policy : ResultPolicy) {s : St}
    (hlate : s.ctx.skill.limits.durationMs * 1000000 ≤ env.clock s.world.readings - s.ctx.startedNs) :
    Late env s (performCall env t principal policy s) := by
  obtain ⟨hash, hhash⟩ := valueHash_ok (v := .dict []) rfl
  obtain ⟨e, he, hrun⟩ : ∃ e, nextEvent r s.world "TOOL_STARTED" _ .internal none (.dict []) = .ok e ∧
      toolStarted env t hash none s = _ :=
    emit_event hr "TOOL_STARTED" (by simp [ToolCall.base, fieldsJson, Value.isJson, optionalStr_isJson, itemsJson_texts]) s
  have hty : e.eventType = "TOOL_STARTED" := nextEvent_type he
  have hput : putSnapshot env t.values t.classification = Run.done none := by
    unfold putSnapshot
    rw [hsnapshots]
  unfold performCall
  rw [hput, harguments, hhash]
  show Late env s (Run.andThen (toolStarted env t hash none) _ s)
  rw [Run.andThen_ok hrun]
  intro hlinked
  have hstart := hlinked.1 e rfl hty
  omega

/-- The statement that reads the number. -/
def readStatement : Statement := .letBind ⟨"n1", "local.number", .read "n2" "tool-1" [] INT {}⟩

/-- A run of the interpreter is a chain of writes. -/
theorem Writes.chain {env : Env} {α : Type} {m : Run St Exn α} (h : Writes env m) : Run.Steps (fun _ _ => True) m :=
  h.mono (fun _ _ _ => trivial)

/-- What the surroundings of the skill are for one execution. -/
structure ReadLate (env : Env) (r : Recorder) : Prop where
  catalog   : env.catalog = Env.readLate.catalog
  clock     : ∀ n, env.clock n = if n < 5 then 0 else 2000000000
  recorder  : env.recorder = some r
  snapshots : env.snapshots = none

/-- A context of the skill at the start of the clock. -/
structure ReadContext (c : Context) : Prop where
  skill     : c.skill = readSkill
  request   : c.request = analystRequest
  startedNs : c.startedNs = 0
  counts    : c.resources.toolCalls = 0

section ReadLate

variable {env : Env} {r : Recorder} (h : ReadLate env r)
include h

theorem readDeadline {c : Context} (hc : ReadContext c) {n : Nat} (hn : n < 5) :
    Run.Reaches St.atReading (c, n) (checkDeadline env) () (c, n + 1) := by
  refine checkDeadline_at ?_
  rw [h.clock n, if_pos hn, hc.startedNs, hc.skill, readSkill_duration]
  decide

theorem executeRead_late {c : Context} (hc : ReadContext c) {s : St} (hs : s.atReading = (c, 4)) :
    Late env s (executeRead env "n2" "tool-1" [] (evaluateArguments env []) {} s) := by
  obtain ⟨d, hd⟩ := readSkill_resolves env h.catalog c hc.skill hc.request
  obtain ⟨hctx, hreadings⟩ := Prod.mk.inj hs
  unfold executeRead evaluateArguments getCtx
  simp only [Run.bind_eq, Run.look_andThen]
  rw [hctx, hd]
  show Late env s (Run.andThen (beforeToolCall env) _ s)
  let counted : Context := { c with resources := { c.resources with toolCalls := c.resources.toolCalls + 1 } }
  have hbefore : Run.Reaches St.atReading (c, 4) (beforeToolCall env) () (counted, 5) := by
    refine (readDeadline h hc (by decide)).andThen (consume_at ?_)
    rw [hc.skill, hc.counts]
    exact Nat.one_pos
  refine Late.after (beforeToolCall_quiet env).writes.chain hbefore hs (fun s₁ hs₁ => ?_)
  refine Late.after (Run.steps_write (fun _ => trivial)) (modifyCtx_at _ counted 5) hs₁ (fun s₂ hs₂ => ?_)
  obtain ⟨hctx₂, hreadings₂⟩ := Prod.mk.inj hs₂
  rw [Run.look_andThen]
  refine performCall_late h.recorder h.snapshots _ rfl _ _ ?_
  rw [hctx₂, hreadings₂, h.clock 5]
  show (c.skill.limits.durationMs : Int) * 1000000 ≤ (if 5 < 5 then 0 else 2000000000) - c.startedNs
  rw [hc.startedNs, hc.skill, readSkill_duration]
  decide

theorem readStatement_late {c : Context} (hc : ReadContext c) {s : St} (hs : s.atReading = (c, 2)) :
    Late env s (executeBlock env [readStatement] s) := by
  let entered : Context := { c with currentNodeId := some "n1" }
  have hentered : ReadContext entered := ⟨hc.skill, hc.request, hc.startedNs, hc.counts⟩
  have hevaluate : ∀ s', s'.atReading = (entered, 3) →
      Late env s' (evaluate env (.read "n2" "tool-1" [] INT {}) s') := by
    intro s' hs'
    unfold evaluate evaluated
    rw [if_neg (by simp [Expression.isWrite])]
    have hir := evaluateIr_quiet env (.read "n2" "tool-1" [] INT {})
    refine Late.first ((checkDeadline_quiet env).bind (fun _ => hir) |>.handle (fun _ => Quiets.fail _)).writes.chain ?_
    refine Late.handled ((checkDeadline_quiet env).bind (fun _ => hir)).writes.chain ?_
    refine Late.after (checkDeadline_quiet env).writes.chain (readDeadline h hentered (by decide)) hs' (fun s₁ hs₁ => ?_)
    unfold evaluateIr
    exact executeRead_late h hentered hs₁
  unfold executeBlock
  refine Late.first (aroundStatement_writes env readStatement (executeStatement_writes env readStatement)).chain ?_
  unfold aroundStatement getCtx
  simp only [Run.bind_eq]
  refine Late.after (checkDeadline_quiet env).writes.chain (readDeadline h hc (by decide)) hs (fun s₁ hs₁ => ?_)
  rw [Run.look_andThen]
  refine Late.after (Run.steps_write (fun _ => trivial)) (modifyCtx_at _ c 3) hs₁ (fun s₂ hs₂ => ?_)
  refine Late.after (emit_quiet env _ _).writes.chain (emit_at h.recorder _ rfl _) hs₂ (fun s₃ hs₃ => ?_)
  refine Late.first (executeStatement_writes env readStatement).chain ?_
  unfold readStatement executeStatement executeLet
  exact Late.first (evaluate_quiet env _).writes.chain (hevaluate s₃ hs₃)

theorem readPrologue_at {c : Context} (hc : ReadContext c) (d : AuthorizationDecision) :
    Run.Reaches St.atReading (c, 1) (executionPrologue env readSkill analystRequest analyst d false) () (c, 2) := by
  obtain ⟨hash, hhash⟩ := valueHash_ok (v := .dict []) rfl
  have hput : ∀ value classification, putSnapshot env value classification = Run.done none := by
    intro value classification
    unfold putSnapshot
    rw [h.snapshots]
  have hstarted : Run.Reaches St.atReading (c, 2) (executionStarted env readSkill analystRequest analyst d) () (c, 2) := by
    unfold executionStarted
    simp only [Run.bind_eq, hput]
    refine (Run.reaches_ofExcept (a := []) rfl).andThen ((Run.reaches_done none).andThen ((Run.reaches_done none).andThen ?_))
    refine (Run.reaches_ofExcept (a := hash) hhash).andThen ((Run.reaches_ofExcept (a := hash) hhash).andThen ?_)
    exact emit_at h.recorder _ (by simp [startedPayload, fieldsJson, Value.isJson, optionalStr_isJson]) _
  unfold executionPrologue
  simp only [Run.bind_eq]
  refine (readDeadline h hc (by decide)).andThen ((Run.reaches_ofExcept (readSkill_preflight env h.catalog)).andThen ?_)
  have hbind : bindInputsAndContexts env readSkill analystRequest = Run.done () := rfl
  rw [hbind]
  exact hstarted.andThen (Run.reaches_done ())

theorem readTry_late {c : Context} (hc : ReadContext c) (d : AuthorizationDecision) {s : St} (hs : s.atReading = (c, 1)) :
    Late env s (executionTry env readSkill analystRequest analyst d readSkill.body false s) := by
  unfold executionTry
  refine Late.handled (executionBody_writes env readSkill analystRequest analyst d readSkill.body false).chain ?_
  unfold executionBody
  simp only [Run.bind_eq]
  refine Late.after (executionPrologue_writes env readSkill analystRequest analyst d false).chain
    (readPrologue_at h hc d) hs (fun s₁ hs₁ => ?_)
  exact Late.first (executeBlock_writes env readSkill.body).chain (readStatement_late h hc hs₁)

end ReadLate

/-- The state it starts in. -/
def readStart : St := ⟨{ skill := readSkill, request := analystRequest, startedNs := 0 }, {}⟩

/-- **The call of that skill is started too late.** -/
theorem execute_readLate : Late Env.readLate readStart (execute Env.readLate readSkill analystRequest readStart) := by
  let started := tryState Env.readLate readSkill analystRequest readStart
  obtain ⟨d, hd⟩ := @analyst_authorized _ (Env.readLate.forExecution readSkill analystRequest) readSkill rfl
  have henv : ReadLate (Env.readLate.forExecution readSkill analystRequest) (Recorder.make readSkill analystRequest) :=
    ⟨rfl, fun _ => rfl, rfl, rfl⟩
  have hcontext : ReadContext started.ctx := ⟨rfl, rfl, rfl, rfl⟩
  have hlate := readTry_late henv hcontext d (s := started) rfl
  rw [execute_started Env.readLate hd readStart]
  exact fun hlinked => hlate hlinked.2.2.2

end Counterexample

section Ascii

attribute [local instance] Platform.ascii

end Ascii

end Nsl
