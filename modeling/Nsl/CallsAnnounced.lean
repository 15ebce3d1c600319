import Nsl.EventTrace
import Nsl.PassComplete
/-!
# CallsAnnounced — every call is on record before it is made

The calls of an execution carry numbers that rise. Each is announced by a TOOL_STARTED that shows its identifier and the
hash of its arguments; the event was there before the call was, since both are so at every point of the execution.
-/
namespace Nsl

open Stateful (Run)

section CallsAnnounced

variable [Platform]

/-- `_argument_hash` -/
def argumentHash (request : ToolCallRequest) : Except Exn String :=
  valueHash (.dict (request.arguments.map (fun nv => (nv.1, nv.2.value))))

/-- The event says that the call starts, and with which arguments. -/
def AuditEvent.Announces (e : AuditEvent) (r : Recorder) (request : ToolCallRequest) : Prop :=
  e.eventType = "TOOL_STARTED" ∧ e.shows "invocation_id" = shown r request.invocationId ∧
    ∃ hash, argumentHash request = .ok hash ∧ e.shows "argument_hash" = shown r hash

/-- The events appended since `s₀`. -/
def eventsSince (s₀ s : St) : List AuditEvent := s.world.events.drop s₀.world.events.length

/-- The call was announced since `s₀`. -/
def AnnouncedCall (r : Recorder) (s₀ : St) (request : ToolCallRequest) (s : St) : Prop :=
  ∃ e ∈ eventsSince s₀ s, e.Announces r request

/-- **Every call since `s₀` was announced.** -/
structure Announced (r : Recorder) (s₀ s : St) : Prop where
  events : s₀.world.events <+: s.world.events
  calls  : s₀.world.calls <+: s.world.calls
  all    : ∀ call ∈ callsSince s₀ s, AnnouncedCall r s₀ call.1 s

/-- The events of before are still there. -/
def Later (s x : St) : Prop := s.world.events <+: x.world.events

instance : IsPreorder St Later where
  refl _ := List.prefix_rfl
  trans _ _ _ h h' := h.trans h'

variable {env : Env} {r : Recorder} {s₀ s x : St}

theorem Still.later (h : Still env s x) : Later s x := by
  cases h with
  | world w hw hc      =>
    show s.world.events <+: w.events
    rw [hw.1]
  | event r e hr he    => exact List.prefix_append _ _
  | meter m            => exact List.prefix_rfl
  | completeness c     => exact List.prefix_rfl

theorem announcedCall_lasts (q : ToolCallRequest) : Run.Lasts Later (AnnouncedCall r s₀ q) :=
  fun _ _ ⟨e, he, h⟩ hx => ⟨e, (List.IsPrefix.drop hx _).subset he, h⟩

/-- Where no call is made. -/
theorem Announced.same (h : Announced r s₀ s) (hx : Later s x) (hcalls : x.world.calls = s.world.calls) :
    Announced r s₀ x where
  events := h.events.trans hx
  calls  := hcalls ▸ h.calls
  all    := by
    intro call hcall
    rw [callsSince, hcalls] at hcall
    exact announcedCall_lasts _ _ _ (h.all call hcall) hx

/-- One more call, which was announced. -/
theorem Announced.next (h : Announced r s₀ s) {call : ToolCallRequest × PortAnswer} (hcall : AnnouncedCall r s₀ call.1 s)
    (hx : Later s x) (hcalls : x.world.calls = s.world.calls ++ [call]) : Announced r s₀ x where
  events := h.events.trans hx
  calls  := hcalls ▸ h.calls.trans (List.prefix_append _ _)
  all    := by
    intro c hc
    rw [callsSince, hcalls, List.drop_append_of_le_length h.calls.length_le] at hc
    rcases List.mem_append.1 hc with hc | hc
    · exact announcedCall_lasts _ _ _ (h.all c hc) hx
    · rw [List.mem_singleton.1 hc]
      exact announcedCall_lasts _ _ _ hcall hx

theorem announced_still (hx : Still env s x) (h : Announced r s₀ s) : Announced r s₀ x := h.same hx.later hx.calls.1

/-! ## A READ -/

/-- Keeps the announcements, and announces nothing that matters here. -/
def Announcing (r : Recorder) (s₀ : St) {α : Type} (m : Run St Exn α) : Prop :=
  Run.Leads (Announced r s₀) Later (fun _ => True) m (fun _ _ => True)

theorem Stills.announcing {α : Type} {m : Run St Exn α} (h : Stills env m) : Announcing r s₀ m :=
  (Run.Steps.preserves (fun _ _ hx hs => announced_still hx hs) h).leads (h.always (fun _ _ => Still.later))

theorem ofExcept_announcing {α : Type} (x : Except Exn α) : Announcing r s₀ (Run.ofExcept x) :=
  Run.leads_ofExcept (fun _ _ _ _ _ => trivial)

variable (env)

theorem callPort_announced (q : ToolCallRequest) :
    Run.Leads (Announced r s₀) Later (AnnouncedCall r s₀ q) (callPort env q) (fun _ _ => True) := by
  intro s hs hq
  let call : ToolCallRequest × PortAnswer := (q, env.port s.world.calls q)
  have hcall : Announced r s₀ { s with world := { s.world with calls := s.world.calls ++ [call] } } :=
    @Announced.next _ _ _ _ _ hs call hq List.prefix_rfl rfl
  dsimp only [call] at hcall
  unfold callPort
  rw [Run.bind_eq, Run.look_andThen]
  cases hanswer : env.port s.world.calls q with
  | _ =>
    rw [hanswer] at hcall
    exact ⟨fun x hx => (List.mem_singleton.1 hx) ▸ ⟨hcall, List.prefix_rfl⟩, ⟨hcall, List.prefix_rfl⟩, fun _ _ => trivial⟩

theorem callTools_announced (q : ToolCallRequest) :
    Run.Leads (Announced r s₀) Later (AnnouncedCall r s₀ q) (callTools env q) (fun _ _ => True) := by
  unfold callTools
  split
  · refine (readClock_still env).announcing.andThen_keeping (announcedCall_lasts q) (fun _ =>
      Run.Leads.andThen (Q := fun _ _ => True) ?_ (fun outcome => ?_))
    · exact (callPort_announced env q).attempt.conseq (fun _ _ hp => hp) (fun _ _ _ _ => trivial)
    · exact (readClock_still env).announcing.andThen (fun _ => (ofExcept_announcing _).andThen (fun _ =>
        (ofExcept_announcing _).andThen (fun _ => ofExcept_announcing _)))
  · exact callPort_announced env q

theorem checkedCall_announced (t : ToolCall) (q : ToolCallRequest) (timeoutMs : Int) (policy : ResultPolicy) :
    Run.Leads (Announced r s₀) Later (AnnouncedCall r s₀ q) (checkedCall env t q timeoutMs policy) (fun _ _ => True) := by
  have hcall : Run.Leads (Announced r s₀) Later (AnnouncedCall r s₀ q) (executeWithTimeout env q timeoutMs)
      (fun _ _ => True) := by
    refine (callTools_announced env q).handle (fun e => ?_)
    split <;> exact Run.leads_fail _
  refine (ofExcept_announcing _).andThen_keeping (announcedCall_lasts q) (fun _ => hcall.andThen (fun answer => ?_))
  refine (ofExcept_announcing _).andThen (fun result => (ofExcept_announcing _).andThen (fun _ =>
    (ofExcept_announcing _).andThen (fun _ => ?_)))
  split
  · exact Run.leads_fail _
  · exact (checkDeadline_still env).announcing.andThen (fun _ => Run.leads_done (fun _ _ _ => trivial))

/-- **TOOL_STARTED announces the call** made from it. -/
theorem toolStarted_announces (hr : env.recorder = some r) (t : ToolCall) {hash : String}
    (hhash : valueHash t.values = .ok hash) (ref : Option SnapshotRef) :
    Run.Leads (Announced r s₀) Later (fun _ => True) (toolStarted env t hash ref)
      (fun _ s => ∀ q : ToolCallRequest, q.invocationId = t.invocationId → q.arguments = t.arguments →
        AnnouncedCall r s₀ q s) := by
  have hkeeps : Announcing r s₀ (toolStarted env t hash ref) := (emit_still env "TOOL_STARTED" _).announcing
  intro s hs _
  obtain ⟨hwritten, hfinal, -⟩ := hkeeps s hs trivial
  refine ⟨hwritten, hfinal, fun _ _ q hid harguments => ?_⟩
  obtain ⟨e, he, hrun⟩ : ∃ e, nextEvent r s.world "TOOL_STARTED" _ .internal none (.dict []) = .ok e ∧
      toolStarted env t hash ref s = _ :=
    emit_event hr "TOOL_STARTED" (by simp [ToolCall.base, fieldsJson, Value.isJson, optionalStr_isJson, itemsJson_texts]) s
  have hkeys : plainKeys ["node_id", "invocation_id", "tool_id", "argument_hash", "input",
      "authorization_decision_ref"] = true := by decide +kernel
  have hshows : e.eventType = "TOOL_STARTED" ∧ e.shows "invocation_id" = shown r t.invocationId :=
    nextEvent_shows he hkeys rfl (by decide)
  have hshown : e.eventType = "TOOL_STARTED" ∧ e.shows "argument_hash" = shown r hash :=
    nextEvent_shows he hkeys rfl (by decide)
  rw [hrun]
  refine ⟨e, ?_, hshows.1, hid ▸ hshows.2, hash, ?_, hshown.2⟩
  · show e ∈ (s.world.events ++ [e]).drop s₀.world.events.length
    rw [List.drop_append_of_le_length hs.events.length_le]
    exact List.mem_append_right _ (List.mem_singleton_self _)
  · unfold argumentHash
    rw [harguments]
    exact hhash

theorem performCall_announced (hr : env.recorder = some r) (t : ToolCall) (principal : ExecutionPrincipal)
    (policy : ResultPolicy) : Announcing r s₀ (performCall env t principal policy) := by
  refine Run.Leads.andThen (Q := fun hash _ => valueHash t.values = .ok hash)
    (Run.leads_ofExcept (fun hash hhash _ _ _ => hhash)) (fun hash => ?_)
  intro s hs hhash
  have hrest : Announcing r s₀ (do
      let argumentRef ← putSnapshot env t.values t.classification
      toolStarted env t hash argumentRef
      let ctx ← getCtx
      let request := t.request ctx principal
      let remaining ← remainingDurationMs env
      let result ← Run.handle (checkedCall env t request (min t.contract.timeoutMs remaining) policy)
        (reportFailure env t (remaining ≤ t.contract.timeoutMs))
      acceptResult env t result) := by
    refine (putSnapshot_still env _ _).announcing.andThen (fun ref =>
      (toolStarted_announces env hr t hhash ref).andThen (fun _ => Run.leads_look_andThen (fun ctx => ?_)))
    have hlasts : Run.Lasts Later (AnnouncedCall r s₀ (t.request ctx principal)) := announcedCall_lasts _
    have hkept : Run.Leads (Announced r s₀) Later (AnnouncedCall r s₀ (t.request ctx principal)) _ (fun _ _ => True) :=
      (remainingDurationMs_still env).announcing.andThen_keeping hlasts (fun remaining =>
        ((checkedCall_announced env t (t.request ctx principal) (min t.contract.timeoutMs remaining) policy).handle
          (fun e => (reportFailure_still env t (remaining ≤ t.contract.timeoutMs) e).announcing)).andThen
            (fun result => (acceptResult_still env t result).announcing))
    exact hkept.conseq (fun s _ hq => hq _ rfl rfl) (fun _ _ _ _ => trivial)
  exact hrest s hs trivial

theorem numberedCall_announced (hr : env.recorder = some r) (nodeId : String) (required : RequiredTool)
    (contract : ToolContract) (decisionId : String) (principal : ExecutionPrincipal) (policy : ResultPolicy)
    (arguments : List (String × ValueEnvelope)) :
    Tracks (Announced r s₀) (numberedCall env nodeId required contract decisionId principal policy arguments) := by
  have hcall : Run.Leads (Announced r s₀) Later (fun _ => True)
      (numberedCall env nodeId required contract decisionId principal policy arguments) (fun _ _ => True) := by
    unfold numberedCall
    rw [Run.bind_eq]
    refine Run.Leads.andThen (Q := fun _ _ => True)
      (Run.leads_write (fun s hs _ => ⟨hs.same List.prefix_rfl rfl, List.prefix_rfl, trivial⟩)) (fun _ => ?_)
    exact Run.leads_look_andThen (fun counted => performCall_announced env hr _ principal policy)
  have hquiet : Quiets env (numberedCall env nodeId required contract decisionId principal policy arguments) :=
    numberedCall_quiet _ _ _ _ _ _ _
  exact hcall.preserves.leads (hquiet.always (fun _ _ => Quiet.grows))

theorem executeRead_announced (hr : env.recorder = some r) (n u : String) (es : List (String × Expression)) (p : ResultPolicy)
    (h : Tracks (Announced r s₀) (evaluateArguments env es)) :
    Tracks (Announced r s₀) (executeRead env n u (es.map Prod.fst) (evaluateArguments env es) p) := by
  rw [executeRead_eq]
  refine Run.leads_look_andThen (fun ctx => Run.Leads.andThen (Q := fun _ _ => True)
    (Run.leads_ofExcept (fun _ _ _ _ _ => trivial)) (fun found => h.andThen (fun args => ?_)))
  exact ((beforeToolCall_still env).tracks (fun _ _ => announced_still)).andThen (fun _ =>
    numberedCall_announced env hr _ _ _ _ _ p args)

/-! ## Executions -/

theorem announced_rules (hr : env.recorder = some r) (s₀ : St) :
    TrackingRules env (Announced r s₀) (fun _ _ _ => True) (fun _ => True) where
  still   := fun _ _ => announced_still
  lasts   := fun _ _ => Run.lasts_true
  literal := fun _ _ _ _ => trivial
  symbol  := fun _ _ _ _ _ _ _ => trivial
  field   := fun _ _ _ _ _ _ _ _ _ => trivial
  project := fun _ _ _ _ _ _ _ _ _ => trivial
  call    := fun _ _ _ _ _ _ _ _ _ => trivial
  binary  := fun _ _ _ _ _ _ _ _ _ _ _ _ => trivial
  read    := fun n u es _ p h => executeRead_announced env hr n u es p h
  input   := fun _ _ _ _ _ hs => hs.same List.prefix_rfl rfl
  context := fun _ _ _ _ _ hs => hs.same List.prefix_rfl rfl
  push    := fun _ hs => hs.same List.prefix_rfl rfl
  pop     := fun _ _ _ _ _ _ _ hs => hs.same List.prefix_rfl rfl
  node    := fun _ _ hs => hs.same List.prefix_rfl rfl
  depth   := fun _ _ hs => hs.same List.prefix_rfl rfl
  output  := fun _ _ hs => hs.same List.prefix_rfl rfl
  bind    := fun _ _ _ _ hs _ => hs.same List.prefix_rfl rfl
  item    := fun _ _ _ _ _ _ _ _ _ hs _ => hs.same List.prefix_rfl rfl
  record  := fun _ _ _ _ _ hs _ _ => hs.same List.prefix_rfl rfl
  status  := fun _ _ _ _ _ hs _ _ => hs.same List.prefix_rfl rfl

variable {env}

/-- **The calls of an execution are numbered.** At every point of every execution the calls made carry the identifiers of
numbers that rise and are at most the counter, and each answer on record is one the port gave to that call. -/
theorem calls_numbered {skill : SkillObject} {request : ExecutionRequest} {s x : St}
    (h : Passes env skill request s x) :
    ∃ numbers : List Nat, (callsSince s x).map (·.1.invocationId) = numbers.map invocationId ∧
      numbers.Pairwise (· < ·) ∧ (∀ k ∈ numbers, 0 < k ∧ k ≤ x.ctx.invocationCounter) ∧
      ((callsSince s x).map (·.1.invocationId)).Nodup ∧
      ∀ call ∈ callsSince s x, ∃ calls, call.2 = env.port calls call.1 := by
  obtain ⟨hle, made, numbers, hmade, hids, hrise, hbounds, hanswers⟩ := h.accounted.fresh
  have hsince : callsSince s x = made := by
    unfold callsSince
    rw [hmade]
    exact List.drop_left
  exact ⟨numbers, hsince ▸ hids, hrise, fun k hk => hbounds k hk, h.accounted.fresh.nodup, fun call hcall =>
    hanswers call (hsince ▸ hcall)⟩

/-- **Every call is announced.** At every point of every execution each call made has its TOOL_STARTED among the events
appended: it shows the identifier of the call and the hash of its arguments. -/
theorem calls_announced {skill : SkillObject} {request : ExecutionRequest} {s x : St}
    (h : Passes env skill request s x) {call : ToolCallRequest × PortAnswer} (hcall : call ∈ callsSince s x) :
    ∃ e ∈ eventsSince s x, e.Announces (Recorder.make skill request) call.1 := by
  let start := tryState env skill request s
  have hstart : Announced (Recorder.make skill request) start start := by
    refine ⟨List.prefix_rfl, List.prefix_rfl, fun call hcall => ?_⟩
    rw [callsSince, List.drop_length] at hcall
    exact absurd hcall List.not_mem_nil
  have hpassed : Announced (Recorder.make skill request) start x := h.invariant hstart (fun _ _ =>
    ((announced_rules (env.forExecution skill request) rfl start).executionTry (fun _ _ => trivial)).preserves)
  exact hpassed.all call hcall

end CallsAnnounced

section Ascii

attribute [local instance] Platform.ascii

/-- The one call of a CHECK of a flag has a number. -/
theorem calls_numbered_flag : ∃ x call, call ∈ callsSince ⟨readCheckStart, {}⟩ x ∧
    ∃ k, 0 < k ∧ k ≤ x.ctx.invocationCounter ∧ call.1.invocationId = invocationId k := by
  obtain ⟨x, call, hpasses, -, hcall⟩ := readCheck_passes
  obtain ⟨numbers, hids, -, hbounds, -, -⟩ := calls_numbered hpasses
  have hid : call.1.invocationId ∈ numbers.map invocationId := hids ▸ List.mem_map_of_mem hcall
  obtain ⟨k, hk, hkid⟩ := List.mem_map.1 hid
  exact ⟨x, call, hcall, k, (hbounds k hk).1, (hbounds k hk).2, hkid.symm⟩

/-- And it was announced. -/
theorem calls_announced_flag : ∃ x call, call ∈ callsSince ⟨readCheckStart, {}⟩ x ∧
    ∃ e ∈ eventsSince ⟨readCheckStart, {}⟩ x, e.Announces (Recorder.make readCheckSkill analystRequest) call.1 := by
  obtain ⟨x, call, hpasses, -, hcall⟩ := readCheck_passes
  exact ⟨x, call, hcall, calls_announced hpasses hcall⟩

end Ascii

end Nsl
