import Nsl.AuditStore
import Nsl.Controlled
/-!
# Controlled chain — the audit events of a controlled execution

The prefix and the suffix of a controlled execution have a recorder each, and both start their chain at one. What the
prefix leaves is a chain; the first event of the suffix breaks it, and the store of the execution refuses that event.
-/
namespace Nsl

open Stateful (Run)

section ControlledChain

variable [Platform]

variable (env : Env)

/-- The events of one tenant and execution, as they were appended. -/
def executionEvents (key : ChainKey) (w : World) : List AuditEvent := w.events.filter (fun e => e.key = key)

/-- The suffix gets to its first statement: the commit is admitted with a value, the symbol of the WRITE is free, and the
deadline has not passed. -/
def SuffixStarts (approvalRequestId : String) (commit : WriteCommitDecision) (verification : Option VerificationResult)
    (s : St) : Prop :=
  ∃ plan value, admitCommit s.ctx approvalRequestId commit verification = .ok (plan, some value) ∧
    s.ctx.isBound plan.writeStatement.statement.targetSymbolId = false ∧ plan.suffixBlock ≠ [] ∧
    0 < timeLeft env s

section Chain

variable {env}

/-- What was emitted is the next event of the recorder. -/
theorem emit_appends {eventType : String} {payload : List (String × Value)} {r : Recorder} (hr : env.recorder = some r)
    {s s' : St} {w : List St} (h : emit env eventType payload s = ⟨w, s', .ok ()⟩) :
    ∃ e, IsNext r s.world e ∧ s'.world = s.world.append e := by
  have hrun : emit env eventType payload s =
      Run.andThen (Run.ofExcept (nextEvent r s.world eventType (.dict payload) .internal none (.dict [])))
        (fun e => modifyWorld (·.append e)) s := by
    unfold emit emitHidden
    cases env with
    | mk =>
      cases hr
      rfl
  rw [hrun] at h
  cases he : nextEvent r s.world eventType (.dict payload) .internal none (.dict []) with
  | error e => rw [he] at h; cases h
  | ok e    =>
    rw [he] at h
    cases h
    exact ⟨e, ⟨_, _, _, _, _, he⟩, rfl⟩

/-- A recorder that has emitted stays so. -/
theorem Write.sequence {s x : St} (h : Write env s x) (hs : 0 < s.world.sequence) : 0 < x.world.sequence := by
  cases h with
  | world w hw      => exact hw.2.1 ▸ hs
  | event r e hr he =>
    have hseq : e.sequence = s.world.sequence + 1 := he.spec.1
    show 0 < e.sequence
    omega
  | _               => exact hs

theorem Writes.sequence {α : Type} {m : Run St Exn α} (hm : Writes env m) {s : St} (hs : 0 < s.world.sequence) :
    0 < (m s).final.world.sequence :=
  (@Run.Steps.preserves _ _ _ _ (fun x => 0 < x.world.sequence) m (fun _ _ h => h.sequence) hm s).2 hs

theorem emit_sequence {eventType : String} {payload : List (String × Value)} {r : Recorder} (hr : env.recorder = some r)
    {s s' : St} {w : List St} (h : emit env eventType payload s = ⟨w, s', .ok ()⟩) : 0 < s'.world.sequence := by
  obtain ⟨e, he, hs'⟩ := emit_appends hr h
  have hseq : e.sequence = s.world.sequence + 1 := he.spec.1
  rw [hs']
  show 0 < e.sequence
  omega

/-- A chain on which something was emitted has events. -/
theorem OnChain.events_ne_nil {r : Recorder} {base : List AuditEvent} {w : World} (hw : 0 < w.sequence)
    (h : OnChain r base w) : ∃ events, events ≠ [] ∧ w.events = base ++ events ∧ Chained 0 none events ∧
      ∀ e ∈ events, e.key = r.key ∧ e.verify = .ok () := by
  obtain ⟨events, hevents, hchain, hplace, hall⟩ := h
  refine ⟨events, ?_, hevents, hchain, hall⟩
  rintro rfl
  have hzero : 0 = w.sequence := (Prod.mk.inj hplace).1
  omega

/-! ## The prefix leaves a chain -/

/-- What a handler makes of a failure is no completed result. -/
theorem onFailure_status {error : Exn} {s s' : St} {w : List St} {r : ExecutionResult}
    (h : onFailure env error s = ⟨w, s', .ok r⟩) : r.status ≠ .completed := by
  cases hf : failureOf error with
  | none   =>
    have hfail : onFailure env error = Run.fail error := by
      unfold onFailure
      rw [hf]
    rw [hfail] at h
    cases h
  | some f =>
    have hhandler : onFailure env error = failed env f := by
      unfold onFailure
      rw [hf]
    obtain ⟨w', s'', -, hfailed⟩ := failed_eq env f s
    rw [hhandler, hfailed] at h
    have hr : resultOf s.ctx f.status (some (failureInfo s.ctx f)) = .ok r := (Stateful.Trace.mk.inj h).2.2
    rw [resultOf_status hr]
    unfold failureOf at hf
    split at hf <;> cases hf <;> simp

/-- A completed result was reported. -/
theorem executionTry_completed {skill : SkillObject} {request : ExecutionRequest} {principal : ExecutionPrincipal}
    {decision : AuthorizationDecision} {statements : List Statement} {allowControlled : Bool} {r : Recorder}
    (hr : env.recorder = some r) {s s' : St} {w : List St} {result : ExecutionResult}
    (h : executionTry env skill request principal decision statements allowControlled s = ⟨w, s', .ok result⟩)
    (hstatus : result.status = .completed) : 0 < s'.world.sequence := by
  unfold executionTry at h
  rcases hbody : executionBody env skill request principal decision statements allowControlled s with ⟨w₁, s₁, e | a⟩
  · rw [Run.handle_error hbody] at h
    obtain ⟨-, hfinal, hok⟩ := Stateful.Trace.mk.inj h
    have hrun : onFailure env e s₁ = ⟨(onFailure env e s₁).written, s', .ok result⟩ := by
      rw [← hfinal, ← hok]
    exact absurd hstatus (onFailure_status hrun)
  · rw [Run.handle_ok hbody] at h
    cases h
    obtain ⟨_, s₂, _, _, -, h₂, -⟩ := Run.andThen_eq_ok hbody
    obtain ⟨_, s₃, _, _, -, h₃, -⟩ := Run.andThen_eq_ok h₂
    unfold executionEpilogue getCtx at h₃
    obtain ⟨_, s₄, _, _, -, h₄, -⟩ := Run.andThen_eq_ok h₃
    rw [Run.bind_eq, Run.look_andThen] at h₄
    obtain ⟨_, s₅, _, _, -, h₅, -⟩ := Run.andThen_eq_ok h₄
    obtain ⟨_, s₆, _, _, hemit, h₆, -⟩ := Run.andThen_eq_ok h₅
    cases h₆
    exact emit_sequence hr hemit

/-- **A completed prefix leaves a chain of its own**, after what was there before. -/
theorem executeControlledPrefix_chain {coordinator : CheckpointCoordinator} {skill : SkillObject}
    {request : ExecutionRequest} {s s' : St} {w : List St} {result : ExecutionResult} {checkpoint : ExecutionCheckpoint}
    (h : executeControlledPrefix env coordinator skill request s = ⟨w, s', .ok (result, some checkpoint)⟩) :
    ∃ events, events ≠ [] ∧ s'.world.events = s.world.events ++ events ∧ Chained 0 none events ∧
      ∀ e ∈ events, e.key = (Recorder.make skill request).key ∧ e.verify = .ok () := by
  unfold executeControlledPrefix at h
  split at h
  · cases h
  obtain ⟨_, s₁, plan, _, hplan, hplanned, -⟩ := Run.andThen_eq_ok h
  have hs₁ : s₁ = s := by
    rw [Run.ofExcept_apply] at hplan
    exact (Stateful.Trace.mk.inj hplan).2.1.symm
  rw [hs₁] at hplanned
  obtain ⟨_, s₂, ⟨r, ctx⟩, _, hrun, hsealed, -⟩ := Run.andThen_eq_ok hplanned
  dsimp only at hsealed
  split at hsealed
  · cases hsealed
  rename_i hstatus
  rw [not_not] at hstatus
  split at hsealed
  · cases hsealed
  rename_i ctx
  obtain ⟨_, s₃, ⟨c, sealed⟩, _, hcapture, hdone, -⟩ := Run.andThen_eq_ok hsealed
  have hs₃ : s₃ = s₂ := by
    rw [Run.ofExcept_apply] at hcapture
    exact (Stateful.Trace.mk.inj hcapture).2.1.symm
  have hworld : s'.world = s₂.world := by
    rw [hs₃] at hdone
    cases hdone
    rfl
  rw [hworld]
  unfold executeWithContext at hrun
  obtain ⟨_, s₄, _, _, hstart, hauthorize, -⟩ := Run.andThen_eq_ok hrun
  have hs₄ : s₄ = { s with world := { s.world with sequence := 0, previousEventHash := none } } :=
    (Stateful.Trace.mk.inj hstart).2.1.symm
  have hchain : OnChain (Recorder.make skill request) s.world.events s₄.world := by
    rw [hs₄]
    exact onChain_start _ _
  cases hauth : authorizeExecution (env.forExecution skill request) skill request.principal with
  | error e =>
    simp only [hauth] at hauthorize
    cases e with
    | authorization m ref =>
      obtain ⟨_, _, _, _, -, hrejected, -⟩ := Run.andThen_eq_ok hauthorize
      cases hrejected
    | _ => cases hauthorize
  | ok pd =>
    simp only [hauth] at hauthorize
    obtain ⟨_, s₅, _, _, hnew, hexecute, -⟩ := Run.andThen_eq_ok hauthorize
    obtain ⟨_, s₆, a, _, htry, hend, -⟩ := Run.andThen_eq_ok hexecute
    have hnewChain : OnChain (Recorder.make skill request) s.world.events s₅.world := by
      cases hnew
      exact hchain
    have hwrites := executionTry_writes (env.forExecution skill request) skill request pd.1 pd.2 plan.prefixBlock true
    have htryChain := (hwrites.onChain rfl s.world.events s₅).2 hnewChain
    rw [htry] at htryChain
    cases hend
    exact htryChain.events_ne_nil (executionTry_completed rfl htry hstatus)

/-! ## The suffix starts a chain of its own -/

theorem andThen_sequence {α β : Type} {m : Run St Exn α} {f : α → Run St Exn β} {s : St}
    (hm : 0 < (m s).final.world.sequence) (hf : ∀ a, Writes env (f a)) :
    0 < (Run.andThen m f s).final.world.sequence := by
  rcases hms : m s with ⟨w, s', e | a⟩ <;> rw [hms] at hm
  · rw [Run.andThen_error hms]
    exact hm
  · rw [Run.andThen_ok hms]
    exact (hf a).sequence hm

/-- A statement in time is reported. -/
theorem aroundStatement_sequence {r : Recorder} (hr : env.recorder = some r) {st : Statement} {run : Run St Exn Unit}
    (hrun : Writes env run) {s : St} (h : 0 < timeLeft env s) :
    0 < (aroundStatement env st run s).final.world.sequence := by
  obtain ⟨w₁, s₁, hdeadline, -, -⟩ := @checkDeadline_apply _ env s
  rw [if_neg (not_le.2 h)] at hdeadline
  let s₂ : St := { s₁ with ctx := { s₁.ctx with currentNodeId := some st.nodeId } }
  have hpayload : fieldsJson [("node_id", .str st.nodeId), ("kind", .str st.kind)] = true := rfl
  obtain ⟨w₃, s₃, hemit, -⟩ := emit_ok env "STATEMENT_STARTED" hpayload s₂
  have hnode : modifyCtx (fun c => { c with currentNodeId := some st.nodeId }) s₁ = ⟨[s₂], s₂, .ok ()⟩ := rfl
  unfold aroundStatement getCtx
  rw [Run.bind_eq, Run.andThen_ok hdeadline, Run.bind_eq, Run.look_andThen, Run.bind_eq, Run.andThen_ok hnode,
    Run.bind_eq, Run.andThen_ok hemit]
  refine @andThen_sequence _ env _ _ run _ s₃ (hrun.sequence (emit_sequence hr hemit)) (fun _ => ?_)
  exact (emit_quiet env _ _).writes.bind (fun _ => Writes.modifyCtx (fun s => Write.node s _))

/-- **A block that is not empty and starts in time emits; one that starts too late does not.** -/
theorem executeBlock_emits {r : Recorder} (hr : env.recorder = some r) {ss : List Statement} {s : St}
    (h : ss ≠ [] ∧ 0 < timeLeft env s) : 0 < (executeBlock env ss s).final.world.sequence := by
  obtain ⟨hne, htime⟩ := h
  cases ss with
  | nil        => exact absurd rfl hne
  | cons st ss =>
    unfold executeBlock
    exact @andThen_sequence _ env _ _ _ _ s (aroundStatement_sequence hr (executeStatement_writes env st) htime)
      (fun _ => executeBlock_writes env ss)

theorem executeBlock_silent {ss : List Statement} {s : St} (h : ¬ (ss ≠ [] ∧ 0 < timeLeft env s)) :
    (executeBlock env ss s).final.world.events = s.world.events := by
  cases ss with
  | nil        =>
    unfold executeBlock
    rfl
  | cons st ss =>
    have htime : ¬ 0 < timeLeft env s := fun htime => h ⟨List.cons_ne_nil _ _, htime⟩
    obtain ⟨w, s', hdeadline, -, hevents⟩ := @checkDeadline_apply _ env s
    rw [if_pos (not_lt.1 htime)] at hdeadline
    have haround : aroundStatement env st (executeStatement env st) s =
        ⟨w, s', .error (.limitExceeded DURATION_LIMIT_MESSAGE)⟩ := by
      unfold aroundStatement
      rw [Run.bind_eq, Run.andThen_error hdeadline]
    unfold executeBlock
    rw [Run.bind_eq, Run.andThen_error haround]
    exact hevents

theorem completeControlled_final {s : St} {approvalRequestId : String} {commit : WriteCommitDecision}
    {verification : Option VerificationResult} {plan : ControlledExecutionPlan} {value : Option ValueEnvelope}
    (h : admitCommit s.ctx approvalRequestId commit verification = .ok (plan, value)) :
    (completeControlled env approvalRequestId commit verification s).final =
      (projectOutcome env s.ctx plan value s).final := by
  unfold completeControlled getCtx
  rw [Run.bind_eq, Run.look_andThen, h]
  show (Run.andThen (projectOutcome env s.ctx plan value) (fun _ => Run.andThen (Run.look (·.ctx))
    (fun ctx => Run.ofExcept (controlledResult ctx plan commit verification))) s).final = _
  rcases hproject : projectOutcome env s.ctx plan value s with ⟨w, s', e | u⟩
  · rw [Run.andThen_error hproject]
  · rw [Run.andThen_ok hproject, Run.look_andThen, Run.ofExcept_apply]

theorem completeControlled_refused {s : St} {approvalRequestId : String} {commit : WriteCommitDecision}
    {verification : Option VerificationResult} {e : Exn}
    (h : admitCommit s.ctx approvalRequestId commit verification = .error e) :
    (completeControlled env approvalRequestId commit verification s).final = s := by
  unfold completeControlled getCtx
  rw [Run.bind_eq, Run.look_andThen, h]
  rfl

/-- **Completing an execution appends a chain that starts at one, exactly when the suffix starts.** -/
theorem completeControlled_events (s : St) (approvalRequestId : String) (commit : WriteCommitDecision)
    (verification : Option VerificationResult) :
    ∃ more, (completeControlled env approvalRequestId commit verification s).final.world.events =
        s.world.events ++ more ∧ Chained 0 none more ∧
      (∀ e ∈ more, e.key = (Recorder.make s.ctx.skill s.ctx.request).key ∧ e.verify = .ok ()) ∧
      (more ≠ [] ↔ SuffixStarts env approvalRequestId commit verification s) := by
  have hsilent : ∀ {s' : St}, s'.world.events = s.world.events →
      ¬ SuffixStarts env approvalRequestId commit verification s → ∃ more, s'.world.events = s.world.events ++ more ∧
        Chained 0 none more ∧ (∀ e ∈ more, e.key = (Recorder.make s.ctx.skill s.ctx.request).key ∧ e.verify = .ok ()) ∧
        (more ≠ [] ↔ SuffixStarts env approvalRequestId commit verification s) := by
    intro s' hs' hnot
    refine ⟨[], by rw [hs', List.append_nil], trivial, fun _ he => (List.not_mem_nil he).elim, ?_⟩
    exact ⟨fun h => absurd rfl h, fun h => absurd h hnot⟩
  cases hadmitted : admitCommit s.ctx approvalRequestId commit verification with
  | error e =>
    rw [completeControlled_refused hadmitted]
    refine hsilent rfl ?_
    rintro ⟨plan, value, h, -⟩
    rw [hadmitted] at h
    cases h
  | ok admitted =>
    obtain ⟨plan, value⟩ := admitted
    rw [completeControlled_final hadmitted]
    cases value with
    | none       =>
      refine hsilent rfl ?_
      rintro ⟨plan', value, h, -⟩
      rw [hadmitted] at h
      cases h
    | some value =>
      have hstarts : SuffixStarts env approvalRequestId commit verification s ↔
          s.ctx.isBound plan.writeStatement.statement.targetSymbolId = false ∧ plan.suffixBlock ≠ [] ∧
            0 < timeLeft env s := by
        constructor
        · rintro ⟨plan', value', h, hrest⟩
          rw [hadmitted] at h
          cases h
          exact hrest
        · exact fun h => ⟨plan, value, hadmitted, h⟩
      cases hbound : s.ctx.isBound plan.writeStatement.statement.targetSymbolId with
      | true  =>
        obtain ⟨e, hproject⟩ := @projectWrite_bound _ env plan s value hbound
        refine hsilent (congrArg (fun t => t.final.world.events) hproject) ?_
        rw [hstarts, hbound]
        exact fun h => (by cases h.1)
      | false =>
        obtain ⟨w, hproject⟩ := @projectWrite_free _ env plan s value hbound
        have hfinal : (projectOutcome env s.ctx plan (some value) s).final =
            (executeBlock (env.forSuffix s.ctx.skill s.ctx.request) plan.suffixBlock (suffixState plan value s)).final :=
          congrArg (·.final) hproject
        rw [hfinal]
        by_cases hgo : plan.suffixBlock ≠ [] ∧ 0 < timeLeft env s
        · have hchain := ((executeBlock_writes (env.forSuffix s.ctx.skill s.ctx.request) plan.suffixBlock).onChain rfl
            s.world.events (suffixState plan value s)).2 (onChain_start _ s.world)
          have hemits := @executeBlock_emits _ (env.forSuffix s.ctx.skill s.ctx.request) _ rfl _
            (suffixState plan value s) hgo
          obtain ⟨more, hne, hmore, hchained, hall⟩ := hchain.events_ne_nil hemits
          exact ⟨more, hmore, hchained, hall, fun _ => hstarts.2 ⟨hbound, hgo⟩, fun _ => hne⟩
        · refine hsilent (@executeBlock_silent _ (env.forSuffix s.ctx.skill s.ctx.request) _ (suffixState plan value s) hgo) ?_
          rw [hstarts]
          exact fun h => hgo h.2

omit [Platform] in
/-- A chain that goes on from events does not start at one. -/
theorem not_chained_restart {events more : List AuditEvent} (h : Chained 0 none events) (hne : events ≠ [])
    (hmore : Chained 0 none more) (hmoreNe : more ≠ []) : ¬ Chained 0 none (events ++ more) := by
  intro hall
  have hrest := ((@chained_append events more (0, none)).1 hall).2
  cases more with
  | nil       => exact hmoreNe rfl
  | cons e es =>
    obtain ⟨init, last, rfl⟩ : ∃ init last, events = init ++ [last] :=
      ⟨_, _, (List.dropLast_append_getLast hne).symm⟩
    have hplace : placeAfter (0, none) (init ++ [last]) = (last.sequence, some last.eventHash) := by
      unfold placeAfter
      rw [List.foldl_append]
      rfl
    rw [hplace] at hrest
    have hprevious : some last.eventHash = none := hrest.2.1.symm.trans hmore.2.1
    cases hprevious

section Phases

variable {coordinator : CheckpointCoordinator} {skill : SkillObject} {request : ExecutionRequest} {s s₁ s₂ : St}
  {w : List St} {result : ExecutionResult} {checkpoint : ExecutionCheckpoint} {env' : Env}
  (hnew : executionEvents (Recorder.make skill request).key s.world = [])
  (hphase : executeControlledPrefix env coordinator skill request s = ⟨w, s₁, .ok (result, some checkpoint)⟩)
  (hskill : s₂.ctx.skill = skill) (hrequest : s₂.ctx.request = request)
  (hsink : executionEvents (Recorder.make skill request).key s₂.world =
    executionEvents (Recorder.make skill request).key s₁.world)
  (approvalRequestId : String) (commit : WriteCommitDecision) (verification : Option VerificationResult)

include hnew hphase hskill hrequest hsink

/-- The events of an execution are those of its prefix and those of its suffix, each a chain from one. -/
theorem controlled_events : ∃ first more,
    executionEvents (Recorder.make skill request).key
      (completeControlled env' approvalRequestId commit verification s₂).final.world = first ++ more ∧
    first ≠ [] ∧ Chained 0 none first ∧ Chained 0 none more ∧
    (∀ e ∈ first ++ more, e.key = (Recorder.make skill request).key ∧ e.verify = .ok ()) ∧
    (more ≠ [] ↔ SuffixStarts env' approvalRequestId commit verification s₂) := by
  have hfilter : ∀ {es : List AuditEvent}, (∀ e ∈ es, e.key = (Recorder.make skill request).key ∧ e.verify = .ok ()) →
      es.filter (fun e => e.key = (Recorder.make skill request).key) = es :=
    fun h => List.filter_eq_self.2 (fun e he => by simp [(h e he).1])
  obtain ⟨first, hfirstNe, hfirst, hchain, hall⟩ := executeControlledPrefix_chain hphase
  obtain ⟨more, hmore, hmoreChain, hmoreAll, hstarts⟩ := @completeControlled_events _ env' s₂ approvalRequestId commit
    verification
  rw [hskill, hrequest] at hmoreAll
  refine ⟨first, more, ?_, hfirstNe, hchain, hmoreChain, fun e he => ?_, hstarts⟩
  · have hs₁ : executionEvents (Recorder.make skill request).key s₁.world = first := by
      unfold executionEvents at hnew ⊢
      rw [hfirst, List.filter_append, hnew, hfilter hall, List.nil_append]
    unfold executionEvents at hsink hs₁ ⊢
    rw [hmore, List.filter_append, hsink, hs₁, hfilter hmoreAll]
  · exact (List.mem_append.1 he).elim (hall e) (hmoreAll e)

/-- **The two phases of a controlled execution leave one chain, which its store takes, exactly when the suffix does not
start.** The sink may hold the events of other executions, and between the phases others may write to it. -/
theorem controlled_chain_iff {store : AuditStore} (hstore : store.tails (Recorder.make skill request).key = none) :
    let events := executionEvents (Recorder.make skill request).key
      (completeControlled env' approvalRequestId commit verification s₂).final.world
    (Chained 0 none events ↔ ¬ SuffixStarts env' approvalRequestId commit verification s₂) ∧
    ((store.appendAll events).isOk = true ↔ ¬ SuffixStarts env' approvalRequestId commit verification s₂) := by
  obtain ⟨first, more, hevents, hfirst, hchain, hmore, hall, hstarts⟩ := @controlled_events _ env coordinator skill request
    s s₁ s₂ w result checkpoint env' hnew hphase hskill hrequest hsink approvalRequestId commit verification
  have hiff : Chained 0 none (first ++ more) ↔ ¬ SuffixStarts env' approvalRequestId commit verification s₂ := by
    rw [← hstarts, not_not]
    constructor
    · intro hchained
      by_contra hne
      exact not_chained_restart hchain hfirst hmore hne hchained
    · rintro rfl
      rw [List.append_nil]
      exact hchain
  have hplace : store.place (Recorder.make skill request).key = (0, none) := by
    unfold AuditStore.place
    rw [hstore]
    rfl
  dsimp only
  rw [hevents]
  refine ⟨hiff, ?_⟩
  rw [AuditStore.appendAll_isOk_iff hall, hplace]
  exact hiff

end Phases

/-! ## A publication in two phases -/

theorem executionEpilogue_reaches {c : Context} {decision : AuthorizationDecision} {r : ExecutionResult}
    (h : InTime env c) (hr : resultOf c .completed none = .ok r) : Reaches c (executionEpilogue env decision) r c := by
  refine Reaches.bind (checkDeadline_reaches h) (Reaches.bind Reaches.getCtx (Reaches.bind (Reaches.ofExcept hr) ?_))
  exact Reaches.bind (emit_reaches _ (completedPayload_json r decision)) (Reaches.done r)

/-- A prefix that goes through is sealed. -/
theorem executeControlledPrefix_reaches {coordinator : CheckpointCoordinator} {skill : SkillObject}
    {request : ExecutionRequest} {plan : ControlledExecutionPlan} {p : ExecutionPrincipal} {d : AuthorizationDecision}
    {r : ExecutionResult} {c sealed : Context} {checkpoint : ExecutionCheckpoint}
    (hop : request.businessOperationId ≠ none) (hplan : ControlledExecutionPlan.fromSkill skill = .ok plan)
    (hauth : authorizeExecution (env.forExecution skill request) skill request.principal = .ok (p, d)) {s : St}
    (htry : Reaches (tryState env skill request s).ctx
      (executionTry (env.forExecution skill request) skill request p d plan.prefixBlock true) r c)
    (hstatus : r.status = .completed) (hcapture : coordinator.capture c = .ok (checkpoint, sealed)) :
    ∃ w s', executeControlledPrefix env coordinator skill request s = ⟨w, s', .ok (r, some checkpoint)⟩ ∧
      s'.ctx = sealed := by
  obtain ⟨w, s', hrun, hs'⟩ := htry (tryState env skill request s) rfl
  let s₁ : St := ⟨s.ctx, { s.world with sequence := 0, previousEventHash := none }⟩
  have hchain : startChain s = ⟨[s₁], s₁, .ok ()⟩ := rfl
  have hnew : newContext (env.forExecution skill request) skill request s₁ =
      ⟨[⟨s.ctx, { s₁.world with readings := s.world.readings + 1 }⟩, tryState env skill request s],
        tryState env skill request s, .ok ()⟩ := rfl
  have hcontext : ∃ w', executeWithContext env skill request plan.prefixBlock true s = ⟨w', s', .ok (r, some s'.ctx)⟩ := by
    refine ⟨[s₁] ++ ([⟨s.ctx, { s₁.world with readings := s.world.readings + 1 }⟩, tryState env skill request s] ++
      (w ++ [])), ?_⟩
    unfold executeWithContext
    simp only [hauth, Run.bind_eq]
    rw [Run.andThen_ok hchain, Run.andThen_ok hnew, Run.andThen_ok hrun]
    rfl
  obtain ⟨w', hcontext⟩ := hcontext
  refine ⟨w' ++ [{ s' with ctx := sealed }], { s' with ctx := sealed }, ?_, rfl⟩
  unfold executeControlledPrefix
  rw [if_neg hop, hplan]
  show Run.andThen (executeWithContext env skill request plan.prefixBlock true) _ s = _
  rw [Run.andThen_ok hcontext, hs']
  simp only [hstatus, hcapture]
  rfl

theorem publish_hash : publishSkill.computedHash = .ok publishSkill.semanticHash := SkillObject.sealHash_computedHash rfl

theorem publish_preflight {env : Env} (h : env.catalog = Env.publishing.catalog) :
    preflight env publishSkill true = .ok () := by
  have hprofile : supportedProfile publishSkill.irVersion publishSkill.languageVersion =
      some publishSkill.semanticsProfile := rfl
  have hbounded : publishSkill.analysis.bounded = true := rfl
  have htools : publishSkill.requiredTools = [publishTool] := rfl
  have hplan : ControlledExecutionPlan.fromSkill publishSkill = .ok publishPlan := rfl
  have hresolve : env.catalog.resolve publishTool.toolId publishTool.version = .ok publishContract := by
    rw [h]
    rfl
  have htool : preflightTool env true publishTool = .ok () := by
    have hcontract : publishContract.contractHash = publishTool.contractHash := rfl
    have hcapability : publishTool.capability = "WRITE" := rfl
    unfold preflightTool
    rw [hresolve]
    simp [hcontract, hcapability, bind, Except.bind, pure, Except.pure]
  unfold preflight
  rw [hprofile, publish_hash, hbounded, htools, hplan]
  simp [htool, bind, Except.bind, pure, Except.pure]

theorem startedContext_captured : ∃ c, CheckpointCoordinator.capture {} startedContext = .ok (c, sealedContext) := by
  have hstate : stateData startedContext 1 = .ok _ := rfl
  refine CheckpointCoordinator.capture_ok {} rfl hstate ?_ ?_
  · rfl
  · intro t ht
    simp only [checkpointTexts, List.mem_cons, List.not_mem_nil, or_false] at ht
    rcases ht with rfl | rfl | rfl | rfl | rfl | rfl | rfl
    · exact isBlank_of_isRequiredText publishRequest.executionId.ok
    · exact isBlank_of_isRequiredText publishIdentity.businessOperationId.ok
    · show Text.isBlank "skill" = false
      decide
    · show Text.isBlank "1.0.0" = false
      decide
    · exact SkillObject.computedHash_there publish_hash
    · show Text.isBlank "1.1" = false
      decide
    · exact CheckpointCoordinator.versionThere {}

/-- The prefix of the publication is sealed in a checkpoint. -/
theorem publish_prefix (s : St) : ∃ w s' r c,
    executeControlledPrefix Env.publishing {} publishSkill publishRequest s = ⟨w, s', .ok (r, some c)⟩ ∧
      s'.ctx = sealedContext := by
  let env := Env.publishing.forExecution publishSkill publishRequest
  obtain ⟨d, hd⟩ := @analyst_authorized _ env publishSkill rfl
  obtain ⟨c, hc⟩ := startedContext_captured
  have htime : InTime env startedContext := fun n => by
    show (0 : Int) < 1000 * 1000000 - (0 - 0)
    decide
  have hprologue : Reaches startedContext (executionPrologue env publishSkill publishRequest analyst d true) ()
      startedContext := executionPrologue_reaches htime (publish_preflight rfl) rfl rfl rfl rfl rfl
  have hblock : Reaches startedContext (executeBlock env []) () startedContext := by
    unfold executeBlock
    exact Reaches.done ()
  have htry : Reaches startedContext (executionTry env publishSkill publishRequest analyst d [] true) _ startedContext :=
    Reaches.handle (hprologue.bind (hblock.bind (executionEpilogue_reaches htime rfl)))
  have hstart : (tryState Env.publishing publishSkill publishRequest s).ctx = startedContext := rfl
  obtain ⟨w, s', hrun, hs'⟩ := @executeControlledPrefix_reaches _ Env.publishing {} publishSkill publishRequest
    publishPlan analyst d _ _ _ c (by simp [publishRequest, ExecutionRequest.plain]) rfl hd s htry rfl hc
  exact ⟨w, s', _, c, hrun, hs'⟩

/-- The suffix of the publication starts. -/
theorem publish_starts (w : World) :
    SuffixStarts Env.publishing "request-1" publishCommit (some publishVerification) ⟨approvedContext, w⟩ := by
  refine ⟨publishPlan, publishResult.value, publish_admitted, rfl, by simp [publishPlan], ?_⟩
  show (0 : Int) < 1000 * 1000000 - (0 - 0)
  decide

/-- **The events of the publication are no chain**, and an empty store refuses one of them. -/
theorem publish_breaks : ∃ w s' r c,
    executeControlledPrefix Env.publishing {} publishSkill publishRequest ⟨startedContext, {}⟩ = ⟨w, s', .ok (r, some c)⟩ ∧
      let events := executionEvents (Recorder.make publishSkill publishRequest).key (completeControlled Env.publishing
        "request-1" publishCommit (some publishVerification) ⟨approvedContext, s'.world⟩).final.world
      ¬ Chained 0 none events ∧ (AuditStore.empty.appendAll events).isOk = false := by
  obtain ⟨w, s', r, c, hphase, -⟩ := publish_prefix ⟨startedContext, {}⟩
  refine ⟨w, s', r, c, hphase, ?_⟩
  obtain ⟨first, more, hevents, hfirst, hchain, hmore, hall, hstarts⟩ := @controlled_events _ Env.publishing {}
    publishSkill publishRequest ⟨startedContext, {}⟩ s' ⟨approvedContext, s'.world⟩ w r c Env.publishing rfl hphase rfl
    rfl rfl "request-1" publishCommit (some publishVerification)
  have hbroken := not_chained_restart hchain hfirst hmore (hstarts.2 (publish_starts s'.world))
  dsimp only
  rw [hevents]
  refine ⟨hbroken, ?_⟩
  cases hok : (AuditStore.empty.appendAll (first ++ more)).isOk with
  | false => rfl
  | true  => exact absurd ((AuditStore.appendAll_isOk_iff hall).1 hok) hbroken

end Chain

end ControlledChain

section Ascii

attribute [local instance] Platform.ascii

theorem publication_no_chain : ∃ w s' r c,
    executeControlledPrefix Env.publishing {} publishSkill publishRequest ⟨startedContext, {}⟩ = ⟨w, s', .ok (r, some c)⟩ ∧
      let events := executionEvents (Recorder.make publishSkill publishRequest).key (completeControlled Env.publishing
        "request-1" publishCommit (some publishVerification) ⟨approvedContext, s'.world⟩).final.world
      ¬ Chained 0 none events ∧ (AuditStore.empty.appendAll events).isOk = false := publish_breaks

theorem controlled_chain_publication : ∃ s' : St,
    let events := executionEvents (Recorder.make publishSkill publishRequest).key (completeControlled Env.publishing
      "request-1" publishCommit (some publishVerification) ⟨approvedContext, s'.world⟩).final.world
    (Chained 0 none events ↔
      ¬ SuffixStarts Env.publishing "request-1" publishCommit (some publishVerification) ⟨approvedContext, s'.world⟩) ∧
    ((AuditStore.empty.appendAll events).isOk = true ↔
      ¬ SuffixStarts Env.publishing "request-1" publishCommit (some publishVerification) ⟨approvedContext, s'.world⟩) := by
  obtain ⟨w, s', r, c, hphase, -⟩ := publish_prefix ⟨startedContext, {}⟩
  exact ⟨s', @controlled_chain_iff _ Env.publishing {} publishSkill publishRequest ⟨startedContext, {}⟩ s'
    ⟨approvedContext, s'.world⟩ w r c Env.publishing rfl hphase rfl rfl rfl "request-1" publishCommit
    (some publishVerification) AuditStore.empty rfl⟩

end Ascii
end Nsl
