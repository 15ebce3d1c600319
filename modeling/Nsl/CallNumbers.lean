import Nsl.Tracking
/-!
# CallNumbers — a number of its own for each call

A READ raises the counter before it calls, and makes one call at most under the number it got. So the calls of an
execution carry numbers that rise, and each answer is one the port gave.
-/
namespace Nsl

open Stateful (Run)

section CallNumbers

variable [Platform]

/-- The calls and their counter are as they were. -/
def SameCalls (s x : St) : Prop :=
  x.world.calls = s.world.calls ∧ x.ctx.invocationCounter = s.ctx.invocationCounter

instance : IsPreorder St SameCalls where
  refl _ := ⟨rfl, rfl⟩
  trans _ _ _ h h' := ⟨h'.1.trans h.1, h'.2.trans h.2⟩

variable (env : Env)

/-- One call at most, under this identifier; the counter is as it was. -/
def Once (i : String) (s x : St) : Prop :=
  x.ctx.invocationCounter = s.ctx.invocationCounter ∧
    (x.world.calls = s.world.calls ∨
      ∃ q, q.invocationId = i ∧ x.world.calls = s.world.calls ++ [(q, env.port s.world.calls q)])

/-- **The calls made since `s₀`** have numbers of their own that rise with the counter, and answers of the port. -/
def Fresh (s₀ s : St) : Prop :=
  s₀.ctx.invocationCounter ≤ s.ctx.invocationCounter ∧
    ∃ made, ∃ numbers : List Nat, s.world.calls = s₀.world.calls ++ made ∧ made.map (·.1.invocationId) = numbers.map invocationId ∧
      numbers.Pairwise (· < ·) ∧
      (∀ k ∈ numbers, s₀.ctx.invocationCounter < k ∧ k ≤ s.ctx.invocationCounter) ∧
      ∀ call ∈ made, ∃ calls, call.2 = env.port calls call.1

/-- The calls made since `s₀`. -/
def callsSince (s₀ s : St) : List (ToolCallRequest × PortAnswer) := s.world.calls.drop s₀.world.calls.length

variable {env} {s₀ s x y : St} {i : String}

theorem SameCalls.once (h : SameCalls s x) : Once env i s x := ⟨h.2, .inl h.1⟩

theorem SameCalls.andThen_once (h : SameCalls s x) (h' : Once env i x y) : Once env i s y := by
  obtain ⟨hcalls, hcounter⟩ := h
  unfold Once at h' ⊢
  rwa [hcalls, hcounter] at h'

theorem Once.andThen_same (h : Once env i s x) (h' : SameCalls x y) : Once env i s y := by
  obtain ⟨hcalls, hcounter⟩ := h'
  unfold Once at h ⊢
  rwa [hcalls, hcounter]

theorem Stills.same {α : Type} {m : Run St Exn α} (h : Stills env m) : Run.Always SameCalls m :=
  h.always (fun _ _ => Still.calls)

theorem Stills.andThen_once {α β : Type} {m : Run St Exn α} {f : α → Run St Exn β} (hm : Stills env m)
    (hf : ∀ a, Run.Always (Once env i) (f a)) : Run.Always (Once env i) (m >>= f) :=
  hm.same.andThen hf (fun _ _ h => h.once) (fun _ _ _ h h' => h.andThen_once h')

theorem once_andThen {α β : Type} {m : Run St Exn α} {f : α → Run St Exn β} (hm : Run.Always (Once env i) m)
    (hf : ∀ a, Stills env (f a)) : Run.Always (Once env i) (m >>= f) :=
  hm.andThen (fun a => (hf a).same) (fun _ _ h => h) (fun _ _ _ h h' => h.andThen_same h')

variable (env)

/-- What a call leaves behind, and ends in. -/
theorem callPort_apply (q : ToolCallRequest) (s : St) :
    (callPort env q s).final =
        { s with world := { s.world with calls := s.world.calls ++ [(q, env.port s.world.calls q)] } } ∧
      (callPort env q s).outcome = (match env.port s.world.calls q with
        | .raises e => .error e
        | answer    => .ok answer) := by
  unfold callPort
  rw [Run.bind_eq, Run.look_andThen]
  cases env.port s.world.calls q with
  | _ => exact ⟨rfl, rfl⟩

theorem callPort_once (request : ToolCallRequest) : Run.Always (Once env request.invocationId) (callPort env request) := by
  intro s
  have hcall : Once env request.invocationId s
      { s with world := { s.world with calls := s.world.calls ++ [(request, env.port s.world.calls request)] } } :=
    ⟨rfl, .inr ⟨request, rfl, rfl⟩⟩
  unfold callPort
  rw [Run.bind_eq, Run.look_andThen]
  cases hanswer : env.port s.world.calls request with
  | _ =>
    rw [hanswer] at hcall
    exact ⟨fun x hx => (List.mem_singleton.1 hx) ▸ hcall, hcall⟩

theorem callTools_once (request : ToolCallRequest) :
    Run.Always (Once env request.invocationId) (callTools env request) := by
  unfold callTools
  split
  · exact (readClock_still env).andThen_once (fun _ => once_andThen (callPort_once env request).attempt (fun _ =>
      (readClock_still env).bind (fun _ => (Stills.ofExcept _).bind (fun _ => (Stills.ofExcept _).bind (fun _ =>
        Stills.ofExcept _)))))
  · exact callPort_once env request

/-- A call that is too late makes no other. -/
theorem timedOut_same (request : ToolCallRequest) (timeoutMs : Int) (e : Exn) : Run.Always SameCalls (match e with
    | .timeout | .cancelled true => Run.fail (.toolExecution "TOOL_TIMEOUT"
        ("tool timed out after " ++ toString timeoutMs ++ " ms: " ++ request.toolId))
    | e => Run.fail e : Run St Exn PortAnswer) := by
  split <;> exact Run.always_fail (fun _ => ⟨rfl, rfl⟩) _

theorem checkedCall_once (t : ToolCall) (request : ToolCallRequest) (timeoutMs : Int) (policy : ResultPolicy) :
    Run.Always (Once env request.invocationId) (checkedCall env t request timeoutMs policy) := by
  have hcall : Run.Always (Once env request.invocationId) (executeWithTimeout env request timeoutMs) :=
    (callTools_once env request).handle (timedOut_same request timeoutMs) (fun _ _ h => h) (fun _ _ _ h h' => h.andThen_same h')
  refine Stills.andThen_once (Stills.ofExcept _) (fun _ => once_andThen hcall (fun answer => ?_))
  refine (Stills.ofExcept _).bind (fun result => (Stills.ofExcept _).bind (fun _ => (Stills.ofExcept _).bind
    (fun _ => ?_)))
  split
  · exact Stills.fail _
  · exact (checkDeadline_still env).bind (fun _ => Stills.done _)

/-- **A READ calls once at most, under the identifier it was given.** -/
theorem performCall_once (t : ToolCall) (principal : ExecutionPrincipal) (policy : ResultPolicy) :
    Run.Always (Once env t.invocationId) (performCall env t principal policy) := by
  refine Stills.andThen_once (Stills.ofExcept _) (fun _ => (putSnapshot_still env _ _).andThen_once (fun _ =>
    (emit_still env _ _).andThen_once (fun _ => (Stills.look _).andThen_once (fun ctx => ?_))))
  refine (remainingDurationMs_still env).andThen_once (fun remaining => ?_)
  have hcall := (checkedCall_once env t (t.request ctx principal) (min t.contract.timeoutMs remaining) policy).handle
    (fun e => (reportFailure_still env t (remaining ≤ t.contract.timeoutMs) e).same) (fun _ _ h => h)
    (fun _ _ _ h h' => h.andThen_same h')
  exact once_andThen hcall (fun result => acceptResult_still env t result)

variable {env}

/-! ## The numbers of the calls -/

theorem Fresh.refl (s : St) : Fresh env s s :=
  ⟨le_rfl, [], [], (List.append_nil _).symm, rfl, List.Pairwise.nil, fun _ hk => (List.not_mem_nil hk).elim,
    fun _ hc => (List.not_mem_nil hc).elim⟩

/-- Nothing that makes no call is seen. -/
theorem Fresh.same (h : Fresh env s₀ s) (hx : SameCalls s x) : Fresh env s₀ x := by
  unfold Fresh at h ⊢
  rwa [hx.1, hx.2]

/-- One more call, under the next number. -/
theorem Fresh.next (h : Fresh env s₀ s) (hcalls : x.world.calls = s.world.calls)
    (hcounter : x.ctx.invocationCounter = s.ctx.invocationCounter + 1)
    (hy : Once env (invocationId x.ctx.invocationCounter) x y) : Fresh env s₀ y := by
  obtain ⟨hle, made, numbers, hmade, hids, hrise, hbounds, hanswers⟩ := h
  obtain ⟨hsame, hy⟩ := hy
  rw [hcalls, hmade] at hy
  refine ⟨by omega, ?_⟩
  rcases hy with hy | ⟨q, hq, hy⟩
  · exact ⟨made, numbers, hy, hids, hrise, fun k hk => ⟨(hbounds k hk).1, by have := (hbounds k hk).2; omega⟩, hanswers⟩
  · refine ⟨made ++ [(q, env.port (s₀.world.calls ++ made) q)], numbers ++ [s.ctx.invocationCounter + 1], ?_, ?_, ?_, ?_, ?_⟩
    · rw [hy, List.append_assoc]
    · rw [List.map_append, List.map_append, hids]
      simp [hq, hcounter]
    · refine List.pairwise_append.2 ⟨hrise, List.pairwise_singleton _ _, fun k hk l hl => ?_⟩
      rw [List.mem_singleton.1 hl]
      have := (hbounds k hk).2
      omega
    · intro k hk
      rcases List.mem_append.1 hk with hk | hk
      · exact ⟨(hbounds k hk).1, by have := (hbounds k hk).2; omega⟩
      · rw [List.mem_singleton.1 hk]
        omega
    · intro call hcall
      rcases List.mem_append.1 hcall with hcall | hcall
      · exact hanswers call hcall
      · rw [List.mem_singleton.1 hcall]
        exact ⟨_, rfl⟩

/-- The end of `_execute_read`: count, and call under the number counted to. -/
def numberedCall (env : Env) (nodeId : String) (required : RequiredTool) (contract : ToolContract) (decisionId : String)
    (principal : ExecutionPrincipal) (policy : ResultPolicy) (arguments : List (String × ValueEnvelope)) :
    Run St Exn ValueEnvelope := do
  modifyCtx (fun c => { c with invocationCounter := c.invocationCounter + 1 })
  let counted ← getCtx
  performCall env ⟨nodeId, invocationId counted.invocationCounter, required, contract, decisionId, arguments⟩ principal policy

theorem executeRead_eq (nodeId toolRef : String) (names : List String)
    (arguments : Run St Exn (List (String × ValueEnvelope))) (policy : ResultPolicy) :
    executeRead env nodeId toolRef names arguments policy = (do
      let ctx ← getCtx
      let (required, contract, principal, decision) ← Run.ofExcept (resolveRead env ctx toolRef names)
      let args ← arguments
      beforeToolCall env
      numberedCall env nodeId required contract decision.decisionId principal policy args) := rfl

theorem numberedCall_quiet (nodeId : String) (required : RequiredTool) (contract : ToolContract) (decisionId : String)
    (principal : ExecutionPrincipal) (policy : ResultPolicy) (arguments : List (String × ValueEnvelope)) :
    Quiets env (numberedCall env nodeId required contract decisionId principal policy arguments) :=
  Quiets.bind (Quiets.modifyCtx (fun s => Quiet.counter s)) (fun _ => (Quiets.look _).bind (fun _ =>
    performCall_quiet env _ _ policy))

/-- The call of a READ under the number it counts to. -/
theorem numberedCall_fresh (nodeId : String) (required : RequiredTool) (contract : ToolContract) (decisionId : String)
    (principal : ExecutionPrincipal) (policy : ResultPolicy) (arguments : List (String × ValueEnvelope)) :
    Run.Preserves (Fresh env s₀) (numberedCall env nodeId required contract decisionId principal policy arguments) := by
  intro s
  let counted : St := { s with ctx := { s.ctx with invocationCounter := s.ctx.invocationCounter + 1 } }
  have hcall := performCall_once env ⟨nodeId, invocationId counted.ctx.invocationCounter, required, contract, decisionId,
    arguments⟩ principal policy counted
  have hnext : ∀ y, Once env (invocationId counted.ctx.invocationCounter) counted y → Fresh env s₀ s → Fresh env s₀ y :=
    fun y hy hs => hs.next (x := counted) rfl rfl hy
  refine ⟨fun y hy hs => ?_, hnext _ hcall.2⟩
  rcases List.mem_cons.1 hy with rfl | hy
  · exact hnext _ ⟨rfl, .inl rfl⟩ hs
  · exact hnext y (hcall.1 y hy) hs

/-- The identifier of each call is one of a number. -/
theorem Fresh.numbered (h : Fresh env s₀ s) {call : ToolCallRequest × PortAnswer} (hcall : call ∈ callsSince s₀ s) :
    ∃ k, call.1.invocationId = invocationId k := by
  obtain ⟨-, made, numbers, hmade, hids, -⟩ := h
  rw [callsSince, hmade, List.drop_left] at hcall
  have hid : call.1.invocationId ∈ numbers.map invocationId := hids ▸ List.mem_map_of_mem hcall
  obtain ⟨k, -, hk⟩ := List.mem_map.1 hid
  exact ⟨k, hk.symm⟩

omit [Platform] in
theorem invocationId_injective : Function.Injective invocationId := fun _ _ h =>
  Text.zeroPad_injective 4 ((String.append_right_inj _).1 h)

/-- **No two calls carry the same identifier.** -/
theorem Fresh.nodup (h : Fresh env s₀ s) : ((callsSince s₀ s).map (·.1.invocationId)).Nodup := by
  obtain ⟨-, made, numbers, hmade, hids, hrise, -, -⟩ := h
  rw [callsSince, hmade, List.drop_left, hids]
  exact (List.nodup_map_iff invocationId_injective).2 (hrise.imp (fun hlt => hlt.ne))

end CallNumbers
end Nsl
