import Nsl.CompletedCalls
import Nsl.Projections
import Nsl.Replay
/-!
# ReplayRuns — what was recorded, replayed

A completed execution behind a recorder is replayed from its bundle without a difference. The recorder kept an answer for
each call, in their order; the declared inputs and contexts ask for the same as the request did; and nothing else counts
for the result.
-/
namespace Nsl

open Stateful (Run)

/-! ## Comparing a document with itself -/

section Documents

variable {floatValue : String → ℚ}

theorem documentsEqual_self (x : Json) : DocumentsEqual floatValue x x := by
  induction x using part_induction with
  | step x ih =>
    cases hcontainer : bothContainers x x with
    | true  =>
      obtain ⟨names, -, -, -, hequal⟩ := @collect_parts floatValue _ _ hcontainer
      refine hequal.2 (fun name _ => ?_)
      cases hpart : part name x with
      | none   => exact .none
      | some v => exact .some (ih name v hpart)
    | false =>
      cases x with
      | null    => exact .null
      | bool b  => exact .number rfl rfl
      | int i   => exact .number rfl rfl
      | float t => exact .number rfl rfl
      | str s   => exact .str s
      | _       => cases hcontainer

/-- A document has no difference from itself. -/
theorem compareViews_self {v : Value} (h : v.isJson = true) : compareViews floatValue v v = .ok [] := by
  obtain ⟨j, hj⟩ := toJson_ok h
  unfold compareViews
  rw [hj]
  exact congrArg Except.ok ((collect_nil_iff j "" j).2 (documentsEqual_self j))

end Documents

section ReplayRuns

variable [Platform]

/-! ## The calls on record -/

/-- The call is on record, with what it was answered. -/
structure OnRecord (held : Snapshots) (call : ToolCallRequest × PortAnswer) (recorded : RecordedToolCall) : Prop where
  tool    : recorded.toolId = call.1.toolId ∧ recorded.toolVersion = call.1.toolVersion
  hash    : argumentHash call.1 = .ok recorded.argumentHash
  result  : ∃ r, (recorded.resultRef, .result r) ∈ held ∧ r.invocationId = some call.1.invocationId ∧
    call.2 = .returns { r with snapshotRef := some (some recorded.resultRef.snapshotId) }

theorem OnRecord.mono {held held' : Snapshots} {call : ToolCallRequest × PortAnswer} {recorded : RecordedToolCall}
    (hsub : ∀ x ∈ held, x ∈ held') (h : OnRecord held call recorded) : OnRecord held' call recorded := by
  obtain ⟨r, hmem, hrest⟩ := h.result
  exact ⟨h.tool, h.hash, r, hsub _ hmem, hrest⟩

omit [Platform] in
theorem validateResultStructure_returns {answer : PortAnswer} {q : ToolCallRequest} {result : ToolResultEnvelope}
    (h : validateResultStructure answer q = .ok result) : ∃ r, answer = .returns r ∧ r.invocationId = some q.invocationId := by
  unfold validateResultStructure at h
  split at h
  · cases h
  · cases h
  · rename_i r
    split at h
    · cases h
    · rename_i hidentity
      exact ⟨r, rfl, by simpa using (not_or.1 hidentity).1⟩

variable {env : Env} {skill : SkillObject} {request : ExecutionRequest} {recorder : RecordingToolExecutor}

omit [Platform] in
theorem forall₂_getElem? {α β : Type} {R : α → β → Prop} {xs : List α} {ys : List β} (h : List.Forall₂ R xs ys) :
    ∀ {i : Nat} {a : α}, xs[i]? = some a → ∃ b, ys[i]? = some b ∧ R a b := by
  induction h with
  | nil             => exact fun ha => by cases ha
  | cons hone _ ih =>
    intro i a ha
    cases i with
    | zero   =>
      cases ha
      exact ⟨_, rfl, hone⟩
    | succ i => exact ih ha

/-- **The recorder has each call on record**, in their order. -/
theorem recorder_onRecord (hport : env.port = recorder.object.port) {calls : List (ToolCallRequest × PortAnswer)}
    (h : WellCalled env skill request [] calls) :
    List.Forall₂ (OnRecord (recorder.object.after (calls.map Prod.fst)).held) calls
      (recorder.object.after (calls.map Prod.fst)).calls := by
  induction h with
  | refl                      => exact .nil
  | @tail before _ _ hnext ih =>
    obtain ⟨q, ⟨_, _, _, _, hstructure, _⟩, rfl⟩ := hnext
    obtain ⟨answer, hanswer, hid⟩ := validateResultStructure_returns hstructure
    have hstate : ∀ answer, recorder.object.after ((before ++ [(q, answer)]).map Prod.fst) =
        (recorder.execute (recorder.object.after (before.map Prod.fst)) q).1 := fun answer => by
      rw [List.map_append, List.map_singleton, recorder.object.after_snoc]
      rfl
    rw [hanswer, hstate]
    rw [hport] at hanswer
    obtain ⟨r, ref, hash, hhash, rfl, hcalls, hheld⟩ := recorder.execute_returns hanswer
    rw [hcalls, hheld]
    refine List.rel_append (ih.imp (fun _ _ h => h.mono (fun _ hx => List.mem_append_left _ hx))) (.cons ?_ .nil)
    exact ⟨⟨rfl, rfl⟩, hhash, r, List.mem_append_right _ (List.mem_singleton_self _), hid, rfl⟩

/-- **The replayed tools answer as the recorded ones did**, in the calls on record. -/
theorem replayed_alike {held : Snapshots} {calls : List (ToolCallRequest × PortAnswer)} {tools : ReplayToolExecutor}
    {principal : ExecutionPrincipal} {port : ToolPort} (hrecord : List.Forall₂ (OnRecord held) calls tools.calls)
    (hget : ∀ x ∈ held, tools.get x.1 principal = .ok x.2) (hprincipal : ∀ call ∈ calls, call.1.principal = principal) :
    AnswerAlike (· <+: calls) port tools.object.port := by
  rintro made made' q q' hmade ⟨-, id, -, rfl⟩ hprefix
  obtain ⟨rest, rfl⟩ := hprefix
  have hcall : ((made ++ [(q, port made q)]) ++ rest)[made'.length]? = some (q, port made q) := by
    rw [← hmade.length_eq, List.append_assoc, List.getElem?_append_right le_rfl, Nat.sub_self]
    rfl
  obtain ⟨expected, hexpected, hone⟩ := forall₂_getElem? hrecord hcall
  have hmem : (q, port made q) ∈ (made ++ [(q, port made q)]) ++ rest := List.mem_of_getElem? hcall
  obtain ⟨r, hheld, hid, hanswer⟩ := hone.result
  have hstored : tools.get expected.resultRef q.principal = .ok (.result r) := by
    rw [show q.principal = principal from hprincipal _ hmem]
    exact hget _ hheld
  have hhash : argumentHash { q with executionId := id } = .ok expected.argumentHash := hone.hash
  have hreplayed : tools.object.port made' { q with executionId := id } = port made q := by
    rw [tools.port_apply hexpected, show port made q = _ from hanswer]
    unfold ReplayToolExecutor.answer
    dsimp only
    rw [if_neg (not_or.2 ⟨not_not.2 hone.tool.1, not_not.2 hone.tool.2⟩), hhash]
    dsimp only
    rw [if_neg (not_not.2 rfl), hstored, ← show r.invocationId = some q.invocationId from hid]
  rw [hreplayed, show port made q = _ from hanswer]
  exact ⟨.refl _, fun e he => by cases he⟩

/-! ## The bundle -/

/-- What a bundle is made of. -/
structure Bundled (skill : SkillObject) (request : ExecutionRequest) (result : ExecutionResult) (recording : Recording)
    (principal : ExecutionPrincipal) (context view : List (String × Value)) (viewRef : SnapshotRef) (bundle : ReplayBundle)
    (held : Snapshots) : Prop where
  semantic  : bundle.semanticHash = skill.semanticHash
  tenant    : bundle.tenantId = principal.tenantId
  calls     : bundle.toolCalls = recording.calls
  viewed    : bundle.originalResultRef = some viewRef
  projected : projectDeclaredContext skill request.runtimeContext = .ok context
  seen      : semanticResultView result = .ok view
  hashed    : (valueHash (.dict view)).isOk = true
  held      : held = recording.held ++ [(bundle.inputsRef, .value (.dict (Dict.ofList (projectDeclaredInputs skill request.inputs)).entries)),
    (bundle.contextRef, .value (.dict context)), (viewRef, .value (.dict view))]

theorem ReplayStore.add_ok {store : ReplayStore} {held held' : Snapshots} {tenantId : String} {x : ReplayItem}
    {classification : Option DataClassification} {days : Nat} {ref : SnapshotRef}
    (h : store.add held tenantId x classification days = .ok (ref, held')) :
    store.put held tenantId x classification days = .ok ref ∧ held' = held ++ [(ref, x)] := by
  obtain ⟨ref, hput, h⟩ := Stateful.bind_eq_ok h
  cases h
  exact ⟨hput, rfl⟩

omit [Platform] in
theorem ReplayBundle.create_ok {semanticHash tenantId : String} {inputsRef contextRef : SnapshotRef}
    {toolCalls : List RecordedToolCall} {originalExecutionId runtimeVersion : String} {originalResultRef : Option SnapshotRef}
    {bundle : ReplayBundle} (h : ReplayBundle.create semanticHash tenantId inputsRef contextRef toolCalls originalExecutionId
      runtimeVersion originalResultRef = .ok bundle) :
    bundle.semanticHash = semanticHash ∧ bundle.tenantId = tenantId ∧ bundle.inputsRef = inputsRef ∧
      bundle.contextRef = contextRef ∧ bundle.toolCalls = toolCalls ∧ bundle.originalResultRef = originalResultRef := by
  unfold ReplayBundle.create at h
  split at h
  · cases h
  · split at h
    · cases h
    · split at h
      · cases h
      · split at h
        · cases h
        · split at h
          · cases h
            exact ⟨rfl, rfl, rfl, rfl, rfl, rfl⟩
          · cases h

theorem createReplayBundle_ok {result : ExecutionResult} {recording : Recording} {version : String} {principal : ExecutionPrincipal}
    {bundle : ReplayBundle} {held : Snapshots} (hprincipal : request.principal = some principal)
    (h : createReplayBundle skill request result recorder recording version = .ok (bundle, held)) :
    ∃ context view viewRef, Bundled skill request result recording principal context view viewRef bundle held := by
  obtain ⟨_, -, h⟩ := Stateful.bind_eq_ok h
  obtain ⟨context, hcontext, h⟩ := Stateful.bind_eq_ok h
  obtain ⟨tenantId, htenantId, h⟩ := Stateful.bind_eq_ok h
  obtain ⟨⟨inputsRef, held₁⟩, hinputs, h⟩ := Stateful.bind_eq_ok h
  obtain ⟨⟨contextRef, held₂⟩, hstored, h⟩ := Stateful.bind_eq_ok h
  obtain ⟨view, hview, h⟩ := Stateful.bind_eq_ok h
  obtain ⟨⟨viewRef, held₃⟩, hresult, h⟩ := Stateful.bind_eq_ok h
  obtain ⟨created, hcreated, h⟩ := Stateful.bind_eq_ok h
  cases h
  unfold ExecutionRequest.principalTenant at htenantId
  rw [hprincipal] at htenantId
  cases htenantId
  obtain ⟨-, rfl⟩ := ReplayStore.add_ok hinputs
  obtain ⟨-, rfl⟩ := ReplayStore.add_ok hstored
  obtain ⟨hput, rfl⟩ := ReplayStore.add_ok hresult
  obtain ⟨hsemantic, htenant, rfl, rfl, hcalls, hviewed⟩ := ReplayBundle.create_ok hcreated
  refine ⟨context, view, viewRef, hsemantic, htenant, hcalls, hviewed, hcontext, hview,
    recorder.store.hashed _ _ _ _ _ _ hput, ?_⟩
  rw [List.append_assoc, List.append_assoc]
  rfl

/-- A bundle, from what its parts came to. -/
theorem createReplayBundle_of {result : ExecutionResult} {recording : Recording} {version tenantId : String}
    {context view : List (String × Value)} {inputsRef contextRef viewRef : SnapshotRef} {held₁ held₂ held₃ : Snapshots}
    {bundle : ReplayBundle} (hchecked : checkRecorded skill request result recorder = .ok ())
    (hprojected : projectDeclaredContext skill request.runtimeContext = .ok context)
    (htenant : request.principalTenant = .ok tenantId)
    (hinputs : recorder.store.add recording.held tenantId
      (.value (.dict (Dict.ofList (projectDeclaredInputs skill request.inputs)).entries))
      (highestDeclared (skill.inputs.map (·.classification))) request.dataPolicy.snapshotRetentionDays = .ok (inputsRef, held₁))
    (hcontext : recorder.store.add held₁ tenantId (.value (.dict context)) (highestDeclared (skill.contexts.map (·.classification)))
      request.dataPolicy.snapshotRetentionDays = .ok (contextRef, held₂))
    (hview : semanticResultView result = .ok view)
    (hstored : recorder.store.add held₂ tenantId (.value (.dict view)) (highestDeclared (skill.inputs.map (·.classification) ++
      skill.contexts.map (·.classification) ++ skill.outputs.map (·.classification))) request.dataPolicy.snapshotRetentionDays =
        .ok (viewRef, held₃))
    (hcreated : ReplayBundle.create skill.semanticHash tenantId inputsRef contextRef recording.calls result.executionId version
      (some viewRef) = .ok bundle) :
    createReplayBundle skill request result recorder recording version = .ok (bundle, held₃) := by
  unfold createReplayBundle
  simp only [hchecked, hprojected, htenant, hinputs, hcontext, hview, hstored, hcreated, bind, Except.bind, pure, Except.pure]

/-! ## The request of a replay -/

/-- Both mappings of the request can be encoded. -/
def Encodable (request : ExecutionRequest) : Prop :=
  (Value.dict request.inputs.entries).encodable = true ∧ (Value.dict request.runtimeContext.entries).encodable = true

theorem executionStarted_encodable {principal : ExecutionPrincipal} {decision : AuthorizationDecision} :
    Run.Ends (fun _ => True) (executionStarted env skill request principal decision) (fun _ _ => Encodable request) := by
  have hhash : ∀ {items : List (String × Value)} {d : String}, valueHash (.dict items) = .ok d → (Value.dict items).encodable = true :=
    fun h => (valueHash_dict_iff _).1 ⟨_, h⟩
  refine Run.ends_ofExcept_andThen (fun context _ => Run.Triple.andThen (Run.triple_trivial _) (fun _ =>
    Run.Triple.andThen (Run.triple_trivial _) (fun _ => Run.ends_ofExcept_andThen (fun _ hinputs =>
      Run.ends_ofExcept_andThen (fun _ hcontext => ?_)))))
  exact (Run.triple_trivial _).conseq (fun _ h => h) (fun _ _ _ => ⟨hhash hinputs, hhash hcontext⟩) (fun _ _ h => h)

/-- **The request of a completed execution can be encoded.** -/
theorem completed_encodable {s : St} {r : ExecutionResult} (h : (execute env skill request s).outcome = .ok r)
    (hcompleted : r.status = .completed) : Encodable request := by
  obtain ⟨p, d, w, x, htry, -⟩ := execute_completed h hcompleted
  have hprologue : Run.Ends (fun _ => True) (executionPrologue (env.forExecution skill request) skill request p d false)
      (fun _ _ => Encodable request) :=
    Run.Triple.andThen (Run.triple_trivial _) (fun _ => Run.Triple.andThen (Run.triple_trivial _) (fun _ =>
      Run.Triple.andThen executionStarted_encodable (fun _ => Run.ends_const _)))
  have hbody : Run.Ends (fun _ => True) (executionBody (env.forExecution skill request) skill request p d skill.body false)
      (fun _ _ => Encodable request) := hprologue.andThen (fun _ => Run.ends_const _)
  exact (executionTry_completes hbody).ok trivial htry hcompleted

theorem credentialFree_clean {d : Dict Value} (h : findCredentialPath Platform.word "$" (.dict d.entries) = none) (surface : String) :
    credentialFree d surface = .ok ⟨d, h⟩ := by
  unfold credentialFree
  split
  · rfl
  · rename_i path hpath
    rw [h] at hpath
    cases hpath

theorem sameEnd_hash {items items' : List (String × Value)} (h : (Value.dict items).encodable = true)
    (h' : (Value.dict items').encodable = true) : SameEnd (valueHash (.dict items)) (valueHash (.dict items')) := by
  obtain ⟨d, hd⟩ := (valueHash_dict_iff items).2 h
  obtain ⟨d', hd'⟩ := (valueHash_dict_iff items').2 h'
  rw [hd, hd']
  exact .ok trivial

/-- **The request of a replay asks for the same** as the request that was recorded. -/
theorem replayExecutionRequest_same {result : ExecutionResult} {recording : Recording} {principal : ExecutionPrincipal}
    {context view : List (String × Value)} {viewRef : SnapshotRef} {bundle : ReplayBundle} {held : Snapshots}
    {get : SnapshotRef → ExecutionPrincipal → Except Exn ReplayItem} {id : String}
    (hbundled : Bundled skill request result recording principal context view viewRef bundle held)
    (hget : ∀ x ∈ held, get x.1 principal = .ok x.2) (hprincipal : request.principal = some principal)
    (hencodable : Encodable request) (hid : isRequiredText id = true) :
    ∃ request', replayExecutionRequest bundle skill id principal request.dataPolicy get = .ok request' ∧
      SameRequest skill request request' ∧ request'.executionId.text = id := by
  let inputs := Dict.ofList (projectDeclaredInputs skill request.inputs)
  have hinputs : get bundle.inputsRef principal = .ok (.value (.dict inputs.entries)) :=
    hget (bundle.inputsRef, .value (.dict inputs.entries)) (by simp [hbundled.held, inputs])
  have hcontext : get bundle.contextRef principal = .ok (.value (.dict context)) :=
    hget (bundle.contextRef, .value (.dict context)) (by simp [hbundled.held])
  have hsame : Dict.ofList inputs.entries = inputs := Dict.ofList_self inputs
  have hinputsClean : findCredentialPath Platform.word "$" (.dict inputs.entries) = none :=
    (clean_hereditary Platform.word).projectedInputs request.inputsClean
  have hcontextClean : findCredentialPath Platform.word "$" (.dict (Dict.ofList context).entries) = none :=
    (clean_hereditary Platform.word).projectedContext hbundled.projected request.contextClean
  refine ⟨{ executionId := ⟨id, hid⟩, inputs, runtimeContext := Dict.ofList context, principal := some principal,
            dataPolicy := request.dataPolicy, businessOperationId := none, inputsClean := hinputsClean,
            contextClean := hcontextClean }, ?_, ?_, rfl⟩
  · have hloaded : loadReplayInputs bundle get principal = .ok (.value (.dict inputs.entries), .value (.dict context)) := by
      unfold loadReplayInputs
      rw [if_neg (not_not.2 hbundled.tenant), hinputs, hcontext]
      rfl
    unfold replayExecutionRequest
    rw [if_neg (by simp [isBlank_of_isRequiredText hid]), if_neg (not_not.2 hbundled.semantic), hloaded]
    show ExecutionRequest.ofStored id (.value (.dict inputs.entries)) (.value (.dict context)) principal request.dataPolicy = _
    have hinputs' : mappingOf (.value (.dict inputs.entries)) "inputs" = .ok inputs := congrArg Except.ok hsame
    unfold ExecutionRequest.ofStored
    rw [show requiredIdentity id "ExecutionRequest.execution_id" = .ok ⟨id, hid⟩ from dif_pos hid, hinputs']
    dsimp only [bind, Except.bind, mappingOf]
    rw [credentialFree_clean hinputsClean, credentialFree_clean hcontextClean]
    rfl
  · obtain ⟨hcontexts, context', hcontext'⟩ := projectDeclaredContext_same hbundled.projected
    refine { inputs := fun spec hspec => projectDeclaredInputs_same hspec, contexts := hcontexts, projected := ?_,
             hashed := ?_, hashed' := ?_, principal := hprincipal.symm, policy := rfl }
    · rw [hbundled.projected, hcontext']
      exact .ok trivial
    · exact sameEnd_hash hencodable.1 (encodable_hereditary.projectedInputs hencodable.1)
    · exact sameEnd_hash hencodable.2 (encodable_hereditary.projectedContext hbundled.projected hencodable.2)

/-! ## The replay -/

variable {env' : Env} {principal : ExecutionPrincipal} {s s' : St} {r : ExecutionResult} {version : String} {bundle : ReplayBundle}
  {held : Snapshots} {get : SnapshotRef → ExecutionPrincipal → Except Exn ReplayItem} {id : String}

/-- The engine of a replay, and its state. -/
def replayEnv (env : Env) (tools : ReplayToolExecutor) : Env := { env with port := tools.object.port }

def replayState (s : St) : St := { s with world := { s.world with calls := [] } }

/-- An execution that ends as a completed one has its result, under its own identifier. -/
theorem completes_same {request' : ExecutionRequest} (hcompleted : r.status = .completed)
    (h : Run.Agree ExecutionResult.Same (fun _ => True) (.ok r) (execute env' skill request' s').outcome) :
    (execute env' skill request' s').outcome = .ok { r with executionId := request'.executionId.text } := by
  cases houtcome : (execute env' skill request' s').outcome with
  | error e =>
    rw [houtcome] at h
    cases h
  | ok r'   =>
    rw [houtcome] at h
    obtain ⟨id, rfl⟩ : r.Same r' := by
      cases h with
      | ok hsame => exact hsame
    rw [← (execute_wellCalled houtcome hcompleted).2]

/-- **The recorded execution and its replay are alike.** -/
theorem replay_alike (tools : ReplayToolExecutor) (hport : env.port = recorder.object.port) (hfresh : s.world.calls = [])
    (hprincipal : request.principal = some principal) (hrun : (execute env skill request s).outcome = .ok r)
    (hcompleted : r.status = .completed) {request' : ExecutionRequest} (hrequest : SameRequest skill request request')
    (hcalls : tools.calls = (recorder.object.after ((execute env skill request s).final.world.calls.map Prod.fst)).calls)
    (hget : ∀ x ∈ (recorder.object.after ((execute env skill request s).final.world.calls.map Prod.fst)).held,
      tools.get x.1 principal = .ok x.2)
    (hengine : SameEngine env env') (htime : NeverLate env skill s) (htime' : NeverLate env' skill s') :
    (execute (replayEnv env' tools) skill request' (replayState s')).outcome = .ok { r with executionId := request'.executionId.text } ∧
      tools.object.after ((execute (replayEnv env' tools) skill request' (replayState s')).final.world.calls.map Prod.fst) =
        ⟨tools.calls.length, tools.calls.length⟩ := by
  have hwell := (execute_wellCalled hrun hcompleted).1
  rw [hfresh] at hwell
  have hrecord := recorder_onRecord hport hwell
  rw [← hcalls] at hrecord
  have hprincipals : ∀ call ∈ (execute env skill request s).final.world.calls, call.1.principal = principal := by
    obtain ⟨made, hmade, hwent⟩ := hwell.made
    intro call hcall
    rw [hmade, List.nil_append] at hcall
    obtain ⟨_, _, hallowed, -⟩ := hwent call hcall
    exact Option.some.inj (hallowed.1.symm.trans hprincipal)
  have hengine' : SameEngine env (replayEnv env' tools) :=
    ⟨hengine.catalog, hengine.authorizer, hengine.environment, hengine.operators, hengine.sink, hengine.sink'⟩
  have hcalled : List.Forall₂ AlikeCall s.world.calls (replayState s').world.calls := hfresh ▸ .nil
  have hlate : NeverLate (replayEnv env' tools) skill (replayState s') := htime'
  obtain ⟨houtcome, hfinal⟩ := execute_alike hengine' hrequest (replayed_alike hrecord hget hprincipals)
    (fun _ _ h h' => h.trans h') htime hlate hcalled List.prefix_rfl
  rw [hrun] at houtcome
  have hlength : (execute (replayEnv env' tools) skill request' (replayState s')).final.world.calls.length = tools.calls.length :=
    hfinal.length_eq.symm.trans hrecord.length_eq
  refine ⟨completes_same hcompleted houtcome, ?_⟩
  rw [tools.after_eq, List.length_map, hlength, Nat.min_self]

/-- A replay whose execution ends with a result and takes every recorded call. -/
theorem replayPreviousExecution_ok {policy : DataHandlingPolicy} {request' : ExecutionRequest} {r' : ExecutionResult}
    (hrequest : replayExecutionRequest bundle skill id principal policy get = .ok request')
    (hrun : (execute (replayEnv env' ⟨bundle.toolCalls, get⟩) skill request' (replayState s')).outcome = .ok r')
    (hposition : (ReplayToolExecutor.mk bundle.toolCalls get).object.after
      ((execute (replayEnv env' ⟨bundle.toolCalls, get⟩) skill request' (replayState s')).final.world.calls.map Prod.fst) =
        ⟨bundle.toolCalls.length, bundle.toolCalls.length⟩) :
    (replayPreviousExecution env' bundle skill id principal policy get s').outcome = .ok ⟨r', bundle.toolCalls.length⟩ := by
  have hconsumed : (ReplayToolExecutor.mk bundle.toolCalls get).assertConsumed ⟨bundle.toolCalls.length, bundle.toolCalls.length⟩ =
      .ok () := if_neg (not_not.2 rfl)
  have hexecuted : ∀ (rest : ExecutionResult → Run St Exn ReplayExecution),
      (Run.andThen (execute (replayEnv env' ⟨bundle.toolCalls, get⟩) skill request') rest (replayState s')).outcome =
        (rest r' (execute (replayEnv env' ⟨bundle.toolCalls, get⟩) skill request' (replayState s')).final).outcome :=
    fun rest => Run.andThen_outcome hrun
  unfold replayPreviousExecution
  rw [hrequest]
  refine (hexecuted _).trans ?_
  show (Run.andThen (Run.ofExcept ((ReplayToolExecutor.mk bundle.toolCalls get).assertConsumed
    ((ReplayToolExecutor.mk bundle.toolCalls get).object.after _))) _ _).outcome = _
  rw [hposition, hconsumed]
  rfl

/-- The replay of a completed execution ends with its result, under its own identifier. -/
theorem replayPreviousExecution_same {context view : List (String × Value)} {viewRef : SnapshotRef}
    (hport : env.port = recorder.object.port) (hfresh : s.world.calls = []) (hprincipal : request.principal = some principal)
    (hrun : (execute env skill request s).outcome = .ok r) (hcompleted : r.status = .completed)
    (hbundled : Bundled skill request r (recorder.object.after ((execute env skill request s).final.world.calls.map Prod.fst))
      principal context view viewRef bundle held)
    (hget : ∀ x ∈ held, get x.1 principal = .ok x.2) (hid : isRequiredText id = true) (hengine : SameEngine env env')
    (htime : NeverLate env skill s) (htime' : NeverLate env' skill s') :
    (replayPreviousExecution env' bundle skill id principal request.dataPolicy get s').outcome =
      .ok ⟨{ r with executionId := id }, bundle.toolCalls.length⟩ := by
  obtain ⟨request', hrequest', hsame, rfl⟩ := replayExecutionRequest_same hbundled hget hprincipal
    (completed_encodable hrun hcompleted) hid
  have hheld : ∀ x ∈ (recorder.object.after ((execute env skill request s).final.world.calls.map Prod.fst)).held,
      get x.1 principal = .ok x.2 := fun x hx => hget x (by rw [hbundled.held]; exact List.mem_append_left _ hx)
  obtain ⟨hreplayed, hposition⟩ := replay_alike ⟨bundle.toolCalls, get⟩ hport hfresh hprincipal hrun hcompleted hsame
    hbundled.calls hheld hengine htime htime'
  exact replayPreviousExecution_ok hrequest' hreplayed hposition

/-- The view of the original is what the store gives for it. -/
theorem originalView_ok {viewRef : SnapshotRef} {view : List (String × Value)}
    (hviewed : get viewRef principal = .ok (.value (.dict view))) (s : St) :
    ((Run.ofExcept (do
      match ← get viewRef principal with
      | .value (.dict items) => return Value.dict items
      | _                    => throw (.type "invalid original result snapshot")) : Run St Exn Value) s).outcome =
      .ok (.dict view) := by
  rw [hviewed]
  rfl

/-- The call is the recorded one, and it was answered with what the store gives for it. -/
def Replayed (get : SnapshotRef → ExecutionPrincipal → Except Exn ReplayItem) (call : ToolCallRequest × PortAnswer)
    (recorded : RecordedToolCall) : Prop :=
  recorded.toolId = call.1.toolId ∧ recorded.toolVersion = call.1.toolVersion ∧ argumentHash call.1 = .ok recorded.argumentHash ∧
    ∃ r, get recorded.resultRef call.1.principal = .ok (.result r) ∧
      call.2 = .returns { r with invocationId := some call.1.invocationId, snapshotRef := some (some recorded.resultRef.snapshotId) }

theorem ReplayToolExecutor.answer_returns {tools : ReplayToolExecutor} {expected : RecordedToolCall} {q : ToolCallRequest}
    {r : RawToolResult} (h : tools.answer expected q = .returns r) : Replayed tools.get (q, .returns r) expected := by
  unfold ReplayToolExecutor.answer at h
  dsimp only at h
  split at h
  · cases h
  · rename_i htool
    cases hhash : argumentHash q with
    | error e => rw [hhash] at h; cases h
    | ok hash =>
      rw [hhash] at h
      dsimp only at h
      split at h
      · cases h
      · rename_i hsame
        cases hstored : tools.get expected.resultRef q.principal with
        | error e => rw [hstored] at h; cases h
        | ok item =>
          rw [hstored] at h
          cases item with
          | value v   => cases h
          | result r' =>
            cases h
            refine ⟨not_not.1 (not_or.1 htool).1, not_not.1 (not_or.1 htool).2, ?_, r', hstored, rfl⟩
            rw [hhash, not_not.1 hsame]

/-- **Calls that went well are the first recorded ones**, in their order. -/
theorem replayed_calls {tools : ReplayToolExecutor} {calls : List (ToolCallRequest × PortAnswer)}
    (h : WellCalled (replayEnv env tools) skill request [] calls) :
    ∃ taken rest, tools.calls = taken ++ rest ∧ List.Forall₂ (Replayed tools.get) calls taken := by
  induction h with
  | refl                      => exact ⟨[], tools.calls, rfl, .nil⟩
  | @tail before _ _ hnext ih =>
    obtain ⟨q, ⟨_, _, _, _, hstructure, _⟩, rfl⟩ := hnext
    obtain ⟨taken, rest, hcalls, htaken⟩ := ih
    obtain ⟨r, hanswer, -⟩ := validateResultStructure_returns hstructure
    have hport : tools.object.port before q = .returns r := hanswer
    cases rest with
    | nil                =>
      rw [List.append_nil] at hcalls
      rw [tools.port_beyond (by rw [hcalls, htaken.length_eq])] at hport
      cases hport
    | cons expected rest =>
      have hexpected : tools.calls[before.length]? = some expected := by
        rw [hcalls, htaken.length_eq, List.getElem?_append_right le_rfl, Nat.sub_self]
        rfl
      rw [tools.port_apply hexpected] at hport
      refine ⟨taken ++ [expected], rest, by rw [hcalls, List.append_assoc]; rfl, ?_⟩
      rw [hanswer]
      exact List.rel_append htaken (.cons (tools.answer_returns hport) .nil)

/-- **A replay that completes makes the recorded calls**: all of them, in their order, each of the recorded tool and version
with arguments of the recorded hash, and each is answered with what the store gives for it. -/
theorem completed_replay_calls {policy : DataHandlingPolicy} {result : ExecutionResult} {count : Nat}
    (h : (replayPreviousExecution env bundle skill id principal policy get s).outcome = .ok ⟨result, count⟩)
    (hcompleted : result.status = .completed) :
    count = bundle.toolCalls.length ∧
      List.Forall₂ (Replayed get) (replayPreviousExecution env bundle skill id principal policy get s).final.world.calls
        bundle.toolCalls := by
  rcases hrun : replayPreviousExecution env bundle skill id principal policy get s with ⟨w, x, o⟩
  rw [hrun] at h
  cases h
  obtain ⟨_, _, request', _, hrequest, hreset, -⟩ := Run.andThen_eq_ok hrun
  obtain ⟨-, rfl⟩ := Run.ofExcept_eq_ok hrequest
  obtain ⟨_, _, _, _, hstart, hexecute, -⟩ := Run.andThen_eq_ok hreset
  cases hstart
  obtain ⟨_, _, _, _, hexecuted, hlook, -⟩ := Run.andThen_eq_ok hexecute
  obtain ⟨_, _, calls, _, hcalls, hassert, -⟩ := Run.andThen_eq_ok hlook
  cases hcalls
  obtain ⟨_, _, _, _, hconsumed, hdone, -⟩ := Run.andThen_eq_ok hassert
  obtain ⟨hconsumed, rfl⟩ := Run.ofExcept_eq_ok hconsumed
  cases hdone
  have houtcome : (execute (replayEnv env ⟨bundle.toolCalls, get⟩) skill request' (replayState s)).outcome = .ok result :=
    congrArg Stateful.Trace.outcome hexecuted
  have hfinal : (execute (replayEnv env ⟨bundle.toolCalls, get⟩) skill request' (replayState s)).final = x :=
    congrArg Stateful.Trace.final hexecuted
  have hwell := (execute_wellCalled houtcome hcompleted).1
  rw [hfinal] at hwell
  obtain ⟨taken, rest, htaken, hreplayed⟩ := replayed_calls hwell
  have hindex : min x.world.calls.length bundle.toolCalls.length = bundle.toolCalls.length := by
    rw [ReplayToolExecutor.after_eq, List.length_map] at hconsumed
    by_contra hne
    rw [ReplayToolExecutor.assertConsumed, if_pos hne] at hconsumed
    cases hconsumed
  have hrest : rest = [] := by
    have hlength := congrArg List.length htaken
    rw [List.length_append, ← hreplayed.length_eq] at hlength
    dsimp only at hlength
    exact List.length_eq_zero_iff.1 (by omega)
  have htools : bundle.toolCalls = taken := by
    rw [hrest, List.append_nil] at htaken
    exact htaken
  refine ⟨?_, htools ▸ hreplayed⟩
  rw [ReplayToolExecutor.after_eq, List.length_map, htools]
  exact hreplayed.length_eq

end ReplayRuns

/-! ## A store that numbers its snapshots -/

def numberedId (n : Nat) : String := "snapshot-" ++ Text.zeroPad 6 n

theorem numberedId_injective {m n : Nat} (h : numberedId m = numberedId n) : m = n :=
  Text.zeroPad_injective 6 ((String.append_right_inj _).1 h)

section NumberedStore

variable [Platform]

/-- Values are hashed, and the snapshots are numbered in their order. -/
def ReplayStore.numbered : ReplayStore where
  put held tenantId x classification _ := do
    let digest ← (match x with
      | .value v  => valueHash v
      | .result r => .ok (r.resultHash.getD ""))
    return ⟨numberedId (held.length + 1), tenantId, classification.getD .restricted, digest, none⟩
  get held ref principal :=
    match held.find? (fun x => x.1.snapshotId = ref.snapshotId) with
    | none         => .error (.lookup ("snapshot not found: " ++ ref.snapshotId))
    | some (kept, x) =>
      if kept.tenantId = principal.tenantId then .ok x else .error (.permission "cross-tenant snapshot access is forbidden")
  hashed held tenantId v classification days ref h := by
    obtain ⟨digest, hdigest, -⟩ := Stateful.bind_eq_ok h
    rw [show valueHash v = .ok digest from hdigest]
    rfl

/-- What such a store keeps for one tenant. -/
def Numbered (tenantId : String) (held : Snapshots) : Prop :=
  ∀ i x, held[i]? = some x → x.1.snapshotId = numberedId (i + 1) ∧ x.1.tenantId = tenantId

theorem Numbered.add {tenantId : String} {held held' : Snapshots} {x : ReplayItem} {classification : Option DataClassification}
    {days : Nat} {ref : SnapshotRef} (h : Numbered tenantId held)
    (hadd : ReplayStore.numbered.add held tenantId x classification days = .ok (ref, held')) : Numbered tenantId held' := by
  obtain ⟨hput, rfl⟩ := ReplayStore.add_ok hadd
  obtain ⟨digest, -, href⟩ := Stateful.bind_eq_ok hput
  cases href
  intro i y hy
  rcases lt_or_ge i held.length with hlt | hge
  · rw [List.getElem?_append_left hlt] at hy
    exact h i y hy
  · rw [List.getElem?_append_right hge, List.getElem?_singleton] at hy
    split at hy
    · cases hy
      rw [show i = held.length by omega]
      exact ⟨rfl, rfl⟩
    · cases hy

theorem Numbered.put {tenantId : String} {held : Snapshots} (h : Numbered tenantId held) {v : Value} (hhash : ∃ d, valueHash v = .ok d)
    (classification : Option DataClassification) (days : Nat) :
    ∃ ref held', ReplayStore.numbered.add held tenantId (.value v) classification days = .ok (ref, held') ∧
      Numbered tenantId held' ∧ ref.tenantId = tenantId := by
  obtain ⟨d, hd⟩ := hhash
  let ref : SnapshotRef := ⟨numberedId (held.length + 1), tenantId, classification.getD .restricted, d, none⟩
  have hput : ReplayStore.numbered.put held tenantId (.value v) classification days = .ok ref := by
    show (valueHash v >>= _) = _
    rw [hd]
    rfl
  have hadd : ReplayStore.numbered.add held tenantId (.value v) classification days = .ok (ref, held ++ [(ref, .value v)]) := by
    unfold ReplayStore.add
    rw [hput]
    rfl
  exact ⟨_, _, hadd, h.add hadd, rfl⟩

/-- **The store gives what was put.** -/
theorem Numbered.gives {held : Snapshots} {principal : ExecutionPrincipal} (h : Numbered principal.tenantId held) :
    ∀ x ∈ held, ReplayStore.numbered.get held x.1 principal = .ok x.2 := by
  intro x hx
  obtain ⟨i, hi⟩ := List.getElem?_of_mem hx
  cases hfind : held.find? (fun y => y.1.snapshotId = x.1.snapshotId) with
  | none   => exact absurd (List.find?_eq_none.1 hfind x hx) (by simp)
  | some y =>
    obtain ⟨j, hj⟩ := List.getElem?_of_mem (List.mem_of_find?_eq_some hfind)
    have hname : y.1.snapshotId = x.1.snapshotId := by simpa using List.find?_some hfind
    rw [(h i x hi).1, (h j y hj).1] at hname
    obtain rfl : j = i := by simpa using numberedId_injective hname
    rw [hi] at hj
    cases hj
    unfold ReplayStore.numbered
    dsimp only
    rw [hfind]
    exact if_pos (h _ x hi).2

/-- A recording in such a store, for one tenant. -/
structure NumberedRecording (tenantId : String) (state : Recording) : Prop where
  held  : Numbered tenantId state.held
  calls : ∀ recorded ∈ state.calls, recorded.resultRef.tenantId = tenantId

theorem NumberedRecording.next {recorder : RecordingToolExecutor} (hstore : recorder.store = .numbered) {tenantId : String}
    {state : Recording} (h : NumberedRecording tenantId state) {q : ToolCallRequest} (hq : q.principal.tenantId = tenantId) :
    NumberedRecording tenantId (recorder.execute state q).1 := by
  unfold RecordingToolExecutor.execute RecordingToolExecutor.record
  rw [hstore, hq]
  dsimp only
  cases recorder.delegate state.answered q with
  | raises e     => exact ⟨h.held, h.calls⟩
  | returnsOther => exact ⟨h.held, h.calls⟩
  | returns r    =>
    dsimp only
    split
    · exact ⟨h.held, h.calls⟩
    · cases hadd : ReplayStore.numbered.add state.held tenantId (.result r) r.classification recorder.policy.snapshotRetentionDays with
      | error e => exact ⟨h.held, h.calls⟩
      | ok kept =>
        obtain ⟨ref, held⟩ := kept
        cases argumentHash q with
        | error e => exact ⟨h.held.add hadd, h.calls⟩
        | ok hash =>
          refine ⟨h.held.add hadd, fun recorded hrecorded => ?_⟩
          rcases List.mem_append.1 hrecorded with hbefore | hnew
          · exact h.calls recorded hbefore
          · rw [List.mem_singleton.1 hnew]
            obtain ⟨hput, -⟩ := ReplayStore.add_ok hadd
            obtain ⟨_, -, href⟩ := Stateful.bind_eq_ok hput
            cases href
            rfl

theorem numberedRecording_after (recorder : RecordingToolExecutor) (hstore : recorder.store = .numbered) {tenantId : String}
    (requests : List ToolCallRequest) (h : ∀ q ∈ requests, q.principal.tenantId = tenantId) :
    NumberedRecording tenantId (recorder.object.after requests) := by
  induction requests using List.reverseRecOn with
  | nil                           => exact ⟨fun i x hx => (by cases hx), fun _ hc => (List.not_mem_nil hc).elim⟩
  | append_singleton requests q ih =>
    rw [recorder.object.after_snoc]
    exact (ih (fun q hq => h q (List.mem_append_left _ hq))).next hstore (h q (List.mem_append_right _ (List.mem_singleton_self _)))

end NumberedStore

/-! ## The flag on record -/

section Ascii

attribute [local instance] Platform.ascii

def flagRecorder : RecordingToolExecutor := ⟨Env.flagged.port, .numbered, analystRequest.dataPolicy⟩

/-- The tools that answer with the flag, on record. -/
def Env.flagRecorded : Env := { Env.flagged with port := flagRecorder.object.port }

/-- The flag is asked for without arguments. -/
theorem flagged_arguments : ∀ call ∈ (execute Env.flagged readCheckSkill analystRequest ⟨readCheckStart, {}⟩).final.world.calls,
    call.1.arguments = [] := by
  obtain ⟨r, hr, hresult⟩ := readCheck_completes
  obtain ⟨made, hcalls, hmade⟩ := (execute_wellCalled hr (resultOf_status hresult)).1.made
  intro call hcall
  rw [hcalls] at hcall
  obtain ⟨contract, _, ⟨-, required, hrequired, hcontract, -⟩, hvalid, -⟩ := hmade call hcall
  obtain rfl : required = flagTool := List.mem_singleton.1 hrequired
  have hflag : Env.flagged.catalog.resolve flagTool.toolId flagTool.version = .ok flagContract := rfl
  rw [hflag] at hcontract
  cases hcontract
  unfold validateRequest at hvalid
  split at hvalid
  · cases hvalid
  · split at hvalid
    · cases hvalid
    · rename_i hnames
      have hnone : ∀ n, n ∉ call.1.arguments.map Prod.fst := fun n hn =>
        List.not_mem_nil ((not_not.1 (not_or.1 hnames).1) n hn)
      exact List.map_eq_nil_iff.1 (List.eq_nil_iff_forall_not_mem.2 hnone)

/-- What the recorder answers to a call without arguments. -/
theorem flagRecorder_answers {q : ToolCallRequest} (h : q.arguments = []) (state : Recording) :
    ∃ n, (flagRecorder.execute state q).2 = .returns { flagAnswer q with snapshotRef := some (some (numberedId n)) } := by
  have hhash : argumentHash q = valueHash (.dict []) := by
    unfold argumentHash
    rw [h]
    rfl
  obtain ⟨d, hd⟩ := valueHash_ok (v := .dict []) rfl
  refine ⟨state.held.length + 1, ?_⟩
  show (flagRecorder.record { state with answered := state.answered ++ [(q, .returns (flagAnswer q))] } q (flagAnswer q)).2 = _
  unfold RecordingToolExecutor.record
  rw [if_neg (by simp [flagAnswer]), hhash, hd]
  rfl

theorem flagRecorded_alike : AnswerAlike
    (· <+: (execute Env.flagged readCheckSkill analystRequest ⟨readCheckStart, {}⟩).final.world.calls)
    Env.flagged.port Env.flagRecorded.port := by
  rintro calls calls' q q' - ⟨-, id, -, rfl⟩ hleads
  have harguments : q.arguments = [] :=
    flagged_arguments (q, Env.flagged.port calls q) (hleads.subset (List.mem_append_right _ (List.mem_singleton_self _)))
  obtain ⟨n, hn⟩ := flagRecorder_answers (q := { q with executionId := id }) harguments
    (flagRecorder.object.after (calls'.map Prod.fst))
  have hanswer : Env.flagRecorded.port calls' { q with executionId := id } =
      .returns { flagAnswer q with snapshotRef := some (some (numberedId n)) } := hn
  rw [hanswer]
  have href : isRef (some (some (numberedId n))) = true := by simp [isRef, numberedId]
  exact ⟨.returns (flagAnswer q) _ href, fun e he => by cases he⟩

/-- The result of the execution that checks the flag. -/
def readCheckResult : ExecutionResult :=
  (resultOf readCheckChecked .completed none).toOption.getD
    { executionId := "", skillId := "", skillVersion := "", semanticHash := "", status := .failed, completeness := .unknown,
      checks := [], outputs := [], resources := ⟨0, 0, 0, 0⟩, error := none, validation := none }

theorem readCheckResult_eq : resultOf readCheckChecked .completed none = .ok readCheckResult := by
  obtain ⟨r, hr⟩ : ∃ r, resultOf readCheckChecked .completed none = .ok r := ⟨_, rfl⟩
  unfold readCheckResult
  rw [hr]
  rfl

theorem readCheck_late {env : Env} (h : env.clock = Env.flagged.clock) : NeverLate env readCheckSkill ⟨readCheckStart, {}⟩ := by
  intro n
  rw [h]
  show (0 : Int) < 1000 * 1000000 - (0 - 0)
  decide

/-- The execution on record ends as the other one. -/
theorem flagRecorded_completes :
    (execute Env.flagRecorded readCheckSkill analystRequest ⟨readCheckStart, {}⟩).outcome = .ok readCheckResult := by
  obtain ⟨r, hr, hresult⟩ := readCheck_completes
  obtain rfl : r = readCheckResult := Except.ok.inj (hresult.symm.trans readCheckResult_eq)
  have hrequest : SameRequest readCheckSkill analystRequest analystRequest :=
    { inputs := fun _ _ => rfl, contexts := fun _ _ => rfl, projected := .ok trivial, hashed := .ok trivial,
      hashed' := .ok trivial, principal := rfl, policy := rfl }
  have hengine : SameEngine Env.flagged Env.flagRecorded := ⟨rfl, rfl, rfl, rfl, fun _ => rfl, fun _ => rfl⟩
  obtain ⟨houtcome, -⟩ := execute_alike hengine hrequest flagRecorded_alike
    (fun _ _ h h' => h.trans h') (readCheck_late rfl) (readCheck_late rfl) .nil List.prefix_rfl
  rw [hr] at houtcome
  exact completes_same (resultOf_status hresult) houtcome

theorem readCheckResult_view : ∃ view, semanticResultView readCheckResult = .ok view ∧ (Value.dict view).isJson = true :=
  ⟨_, rfl, rfl⟩

/-- The bundle of the execution on record. -/
theorem readCheck_bundled {recording : Recording} (h : NumberedRecording "tenant" recording) : ∃ bundle held,
    createReplayBundle readCheckSkill analystRequest readCheckResult flagRecorder recording = .ok (bundle, held) ∧
      Numbered "tenant" held := by
  obtain ⟨view, hview, hjson⟩ := readCheckResult_view
  obtain ⟨inputsRef, held₁, hinputs, hheld₁, hinputsTenant⟩ := h.held.put (valueHash_ok (v := .dict []) rfl)
    (highestDeclared (readCheckSkill.inputs.map (·.classification))) 30
  obtain ⟨contextRef, held₂, hcontext, hheld₂, hcontextTenant⟩ := hheld₁.put (valueHash_ok (v := .dict []) rfl)
    (highestDeclared (readCheckSkill.contexts.map (·.classification))) 30
  obtain ⟨viewRef, held₃, hstored, hheld₃, hviewTenant⟩ := hheld₂.put (valueHash_ok hjson)
    (highestDeclared (readCheckSkill.inputs.map (·.classification) ++ readCheckSkill.contexts.map (·.classification) ++
      readCheckSkill.outputs.map (·.classification))) 30
  have htenant : ∀ ref ∈ [inputsRef, contextRef] ++ recording.calls.map (·.resultRef) ++ (some viewRef).toList, ref.tenantId = "tenant" := by
    intro ref href
    rcases List.mem_append.1 href with href | href
    · rcases List.mem_append.1 href with href | href
      · rcases List.mem_cons.1 href with rfl | href
        · exact hinputsTenant
        · rw [List.mem_singleton.1 href]
          exact hcontextTenant
      · obtain ⟨recorded, hrecorded, rfl⟩ := List.mem_map.1 href
        exact h.calls recorded hrecorded
    · rw [show ref = viewRef by simpa using href]
      exact hviewTenant
  have hnamed := resultOf_named readCheckResult_eq
  have hchecked : checkRecorded readCheckSkill analystRequest readCheckResult flagRecorder = .ok () := by
    have hid : readCheckResult.executionId = analystRequest.executionId.text := hnamed.1
    have hsemantic : readCheckResult.semanticHash = readCheckSkill.semanticHash := hnamed.2
    have hpolicy : flagRecorder.policy = analystRequest.dataPolicy := rfl
    unfold checkRecorded
    rw [if_neg (not_not.2 hid), if_neg (not_not.2 hsemantic), if_neg (not_not.2 hpolicy)]
  have hsealed : readCheckSkill.semanticHash ≠ "" := by
    have hhash : readCheckSkill.computedHash = .ok readCheckSkill.semanticHash := SkillObject.sealHash_computedHash rfl
    have hthere := SkillObject.computedHash_there hhash
    intro hempty
    rw [hempty] at hthere
    cases hthere
  obtain ⟨bundle, hcreated⟩ : ∃ bundle, ReplayBundle.create readCheckSkill.semanticHash "tenant" inputsRef contextRef recording.calls
      readCheckResult.executionId RUNTIME_VERSION (some viewRef) = .ok bundle := by
    have hidentified : readCheckResult.executionId ≠ "" := by
      rw [hnamed.1]
      decide
    unfold ReplayBundle.create
    rw [dif_neg hsealed, dif_neg (by decide), dif_neg hidentified, dif_neg (by decide), dif_pos htenant]
    exact ⟨_, rfl⟩
  refine ⟨bundle, held₃, ?_, hheld₃⟩
  have hprojected : projectDeclaredContext readCheckSkill analystRequest.runtimeContext = .ok [] := rfl
  have htenantId : analystRequest.principalTenant = .ok "tenant" := rfl
  have hinputs' : flagRecorder.store.add recording.held "tenant"
      (.value (.dict (Dict.ofList (projectDeclaredInputs readCheckSkill analystRequest.inputs)).entries))
      (highestDeclared (readCheckSkill.inputs.map (·.classification))) analystRequest.dataPolicy.snapshotRetentionDays =
        .ok (inputsRef, held₁) := hinputs
  exact createReplayBundle_of hchecked hprojected htenantId hinputs' hcontext hview hstored hcreated

/-- What the recorder holds once the flag is checked. -/
def flagRecording : Recording :=
  flagRecorder.object.after ((execute Env.flagRecorded readCheckSkill analystRequest ⟨readCheckStart, {}⟩).final.world.calls.map Prod.fst)

theorem flagRecording_bundled : ∃ bundle held,
    createReplayBundle readCheckSkill analystRequest readCheckResult flagRecorder flagRecording = .ok (bundle, held) ∧
      Numbered "tenant" held := by
  have hprincipals : ∀ q ∈ (execute Env.flagRecorded readCheckSkill analystRequest ⟨readCheckStart, {}⟩).final.world.calls.map Prod.fst,
      q.principal.tenantId = "tenant" := by
    obtain ⟨made, hcalls, hmade⟩ := (execute_wellCalled flagRecorded_completes rfl).1.made
    intro q hq
    obtain ⟨call, hcall, rfl⟩ := List.mem_map.1 hq
    rw [hcalls] at hcall
    obtain ⟨_, _, hallowed, -⟩ := hmade call hcall
    rw [← Option.some.inj hallowed.1]
    rfl
  exact readCheck_bundled (numberedRecording_after flagRecorder rfl _ hprincipals)

theorem flaggedElsewhere_late : NeverLate Env.flaggedElsewhere readCheckSkill ⟨readCheckStart, {}⟩ := fun _ => by
  show (0 : Int) < 1000 * 1000000 - (5 - 5)
  decide

/-- The replay of the flag's execution calls for the flag. -/
theorem completed_replay_calls_flag : ∃ bundle held count,
    createReplayBundle readCheckSkill analystRequest readCheckResult flagRecorder flagRecording = .ok (bundle, held) ∧
    count = bundle.toolCalls.length ∧ List.Forall₂ (Replayed (ReplayStore.numbered.get held))
      (replayPreviousExecution Env.flaggedElsewhere bundle readCheckSkill "replay-1" analyst analystRequest.dataPolicy
        (ReplayStore.numbered.get held) ⟨readCheckStart, {}⟩).final.world.calls bundle.toolCalls := by
  obtain ⟨bundle, held, hbundle, hnumbered⟩ := flagRecording_bundled
  have hprincipal : analystRequest.principal = some analyst := rfl
  have hport : Env.flagRecorded.port = flagRecorder.object.port := rfl
  obtain ⟨_, _, _, hbundled⟩ := createReplayBundle_ok hprincipal hbundle
  have hreplayed : (replayPreviousExecution Env.flaggedElsewhere bundle readCheckSkill "replay-1" analyst analystRequest.dataPolicy
      (ReplayStore.numbered.get held) ⟨readCheckStart, {}⟩).outcome =
        .ok ⟨{ readCheckResult with executionId := "replay-1" }, bundle.toolCalls.length⟩ :=
    replayPreviousExecution_same hport rfl hprincipal flagRecorded_completes rfl hbundled (Numbered.gives hnumbered)
      (by decide +kernel) ⟨rfl, rfl, rfl, rfl, fun _ => rfl, fun _ => rfl⟩ (readCheck_late rfl) flaggedElsewhere_late
  exact ⟨bundle, held, _, hbundle, completed_replay_calls hreplayed rfl⟩

end Ascii
end Nsl
