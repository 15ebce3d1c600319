import Mathlib.Algebra.Order.Monoid.Prod
import Mathlib.Algebra.Order.Ring.Nat
import Nsl.Bounds
import Nsl.Runtime
/-!
# Bounds sound — the interpreter counts no more than the static analysis

The analysis multiplies and the interpreter counts one by one, and may stop anywhere. What carries the comparison is one
fact about every run of a part: **it spends at most the counts of the part, and never passes a declared limit it had not
passed** (`Spends`). It is proved once for each thing the interpreter does, along its own recursion.
-/
namespace Nsl

open Stateful (Run)

section BoundsSound

variable [Platform]

/-- The three counts of the meter. -/
def counts (s : St) : Counts :=
  (s.ctx.resources.toolCalls, s.ctx.resources.loopIterations, s.ctx.resources.emittedRows)

/-- The declared limits of the three. -/
def limitCounts (l : ResourceLimits) : Counts := (l.toolCalls, l.loopIterations, l.emittedRows)

/-- The skill stays, and each count is within its declared limit. -/
def WithinLimits (skill : SkillObject) (s : St) : Prop := s.ctx.skill = skill ∧ counts s ≤ limitCounts skill.limits

/-- Neither the counts nor the skill change. -/
def SameCounts (s x : St) : Prop := x.ctx.skill = s.ctx.skill ∧ counts x = counts s

theorem SameCounts.refl (s : St) : SameCounts s s := ⟨rfl, rfl⟩

theorem SameCounts.trans {s x y : St} (h : SameCounts s x) (h' : SameCounts x y) : SameCounts s y :=
  ⟨h'.1.trans h.1, h'.2.trans h.2⟩

/-- A run that counts nothing, at every point of it. -/
def Free {α : Type} (m : Run St Exn α) : Prop := Run.Always SameCounts m

/-- **A run that spends at most `c`** and keeps to the declared limits, at every point of it. -/
structure Spends {α : Type} (c : Counts) (m : Run St Exn α) : Prop where
  cost   : Run.Costs counts c m
  limits : ∀ skill, Run.Preserves (WithinLimits skill) m

/-! ## Rules -/

namespace Free

variable {α β : Type}

theorem done (a : α) : Free (Run.done a) := Run.always_done SameCounts.refl a

theorem fail (e : Exn) : Free (Run.fail e : Run St Exn α) := Run.always_fail SameCounts.refl e

theorem look (f : St → α) : Free (Run.look f) := Run.always_look SameCounts.refl f

theorem ofExcept (x : Except Exn α) : Free (Run.ofExcept x) := Run.always_ofExcept SameCounts.refl x

theorem modifyWorld (f : World → World) : Free (Nsl.modifyWorld f) := Run.always_write (fun _ => ⟨rfl, rfl⟩)

theorem bind {m : Run St Exn α} {f : α → Run St Exn β} (hm : Free m) (hf : ∀ a, Free (f a)) : Free (m >>= f) :=
  Run.Always.andThen hm hf (fun _ _ h => h) (fun _ _ _ => SameCounts.trans)

theorem attempt {m : Run St Exn α} (hm : Free m) : Free (Run.attempt m) := Run.Always.attempt hm

theorem handle {m : Run St Exn α} {h : Exn → Run St Exn α} (hm : Free m) (hh : ∀ e, Free (h e)) :
    Free (Run.handle m h) := Run.Always.handle hm hh (fun _ _ h => h) (fun _ _ _ => SameCounts.trans)

/-- A write of the context that leaves skill and counts. -/
theorem modifyCtx {f : Context → Context} (hs : ∀ c, (f c).skill = c.skill)
    (hr : ∀ c, (f c).resources.toolCalls = c.resources.toolCalls ∧
      (f c).resources.loopIterations = c.resources.loopIterations ∧
      (f c).resources.emittedRows = c.resources.emittedRows) : Free (Nsl.modifyCtx f) := by
  refine Run.always_write (fun s => ⟨hs s.ctx, ?_⟩)
  obtain ⟨ht, hl, he⟩ := hr s.ctx
  show ((f s.ctx).resources.toolCalls, (f s.ctx).resources.loopIterations, (f s.ctx).resources.emittedRows) = _
  rw [ht, hl, he]
  rfl

theorem spends {m : Run St Exn α} (hm : Free m) : Spends 0 m where
  cost := Run.Always.mono hm (fun s x h => by rw [h.2]; exact Run.costs_refl le_rfl s)
  limits := fun skill => Run.Always.mono hm (fun s x h hs => ⟨h.1.trans hs.1, by rw [h.2]; exact hs.2⟩)

end Free

namespace Spends

variable {α β : Type} {c d : Counts}

theorem mono {m : Run St Exn α} (h : Spends c m) (hcd : c ≤ d) : Spends d m := ⟨h.cost.mono hcd, h.limits⟩

theorem bind {m : Run St Exn α} {f : α → Run St Exn β} (hm : Spends c m) (hf : ∀ a, Spends d (f a)) :
    Spends (c + d) (m >>= f) :=
  ⟨hm.cost.andThen zero_le (fun a => (hf a).cost), fun skill =>
    (hm.limits skill).andThen (fun a => (hf a).limits skill)⟩

/-- A first part that counts nothing. -/
theorem after {m : Run St Exn α} {f : α → Run St Exn β} (hm : Free m) (hf : ∀ a, Spends c (f a)) :
    Spends c (m >>= f) := by
  have h := hm.spends.bind hf
  rwa [zero_add] at h

/-- A last part that counts nothing. -/
theorem before {m : Run St Exn α} {f : α → Run St Exn β} (hm : Spends c m) (hf : ∀ a, Free (f a)) :
    Spends c (m >>= f) := by
  have h := hm.bind (fun a => (hf a).spends)
  rwa [add_zero] at h

theorem handle {m : Run St Exn α} {h : Exn → Run St Exn α} (hm : Spends c m) (hh : ∀ e, Free (h e)) :
    Spends c (Run.handle m h) :=
  ⟨hm.cost.handle_free (fun e => (hh e).spends.cost), fun skill =>
    (hm.limits skill).handle (fun e => (hh e).spends.limits skill)⟩

theorem lastly {m : Run St Exn α} {fin : Run St Exn Unit} (hm : Spends c m) (hfin : Free fin) :
    Spends c (Run.lastly m fin) :=
  ⟨hm.cost.lastly_free hfin.spends.cost, fun skill => (hm.limits skill).lastly (hfin.spends.limits skill)⟩

theorem forEach {f : α → Run St Exn Unit} (hf : ∀ a, Spends c (f a)) (xs : List α) :
    Spends (xs.length • c) (Run.forEach f xs) :=
  ⟨Run.costs_forEach zero_le (fun a => (hf a).cost) xs, fun skill =>
    Run.preserves_forEach (fun a => (hf a).limits skill) xs⟩

end Spends

/-! ## What counts nothing -/

variable (env : Env)

theorem readClock_free : Free (readClock env) :=
  (Free.look _).bind (fun _ => (Free.modifyWorld _).bind (fun _ => Free.done _))

theorem emitWith_free (r : Recorder) (eventType : String) (payload : Value) (classification : DataClassification)
    (ref : Option SnapshotRef) (metadata : Value) :
    Free (emitWith r eventType payload classification ref metadata) :=
  (Free.look _).bind (fun _ => (Free.ofExcept _).bind (fun _ => Free.modifyWorld _))

theorem emitHidden_free (eventType : String) (payload : Value) (classification : DataClassification)
    (ref : Option SnapshotRef) (metadata : Value) :
    Free (emitHidden env eventType payload classification ref metadata) := by
  unfold emitHidden
  cases env.recorder with
  | none   => exact Free.done ()
  | some r => exact emitWith_free r eventType payload classification ref metadata

theorem emit_free (eventType : String) (payload : List (String × Value)) : Free (emit env eventType payload) :=
  emitHidden_free env eventType _ _ _ _

theorem putSnapshot_free (value : Value) (classification : DataClassification) :
    Free (putSnapshot env value classification) := by
  unfold putSnapshot
  cases env.snapshots with
  | none       => exact Free.done none
  | some store =>
    exact (Free.look _).bind (fun _ => (Free.modifyWorld _).bind (fun _ => Free.done _))

theorem callPort_free (request : ToolCallRequest) : Free (callPort env request) := by
  refine (Free.look _).bind (fun calls => (Free.modifyWorld _).bind (fun _ => ?_))
  cases env.port calls request with
  | raises e => exact Free.fail e
  | returns _ => exact Free.done _
  | returnsOther => exact Free.done _

theorem callTools_free (request : ToolCallRequest) : Free (callTools env request) := by
  unfold callTools
  split
  · exact (readClock_free env).bind (fun _ => (callPort_free env request).attempt.bind (fun _ =>
      (readClock_free env).bind (fun _ => (Free.ofExcept _).bind (fun _ => (Free.ofExcept _).bind (fun _ =>
        Free.ofExcept _)))))
  · exact callPort_free env request

theorem remainingDurationNs_free : Free (remainingDurationNs env) :=
  (readClock_free env).bind (fun _ => (Free.look _).bind (fun _ => Free.done _))

theorem checkDeadline_free : Free (checkDeadline env) := by
  refine (remainingDurationNs_free env).bind (fun remaining => ?_)
  split
  · exact Free.fail _
  · exact Free.done ()

theorem remainingDurationMs_free : Free (remainingDurationMs env) := by
  refine (remainingDurationNs_free env).bind (fun remaining => ?_)
  split
  · exact Free.fail _
  · exact Free.done _

theorem beforeEmit_free : Free (beforeEmit env) := by
  refine (checkDeadline_free env).bind (fun _ => (Free.look _).bind (fun ctx => ?_))
  split
  · exact Free.fail _
  · exact Free.done ()

theorem checkCollection_free (size : Nat) : Free (checkCollection env size) := by
  refine (checkDeadline_free env).bind (fun _ => (Free.look _).bind (fun ctx => ?_))
  split
  · exact Free.fail _
  · exact Free.done ()

theorem observeCollection_free (size : Nat) : Free (observeCollection env size) :=
  Free.bind (Free.modifyCtx (fun _ => rfl) (fun _ => ⟨rfl, rfl, rfl⟩)) (fun _ => checkCollection_free env size)

theorem onList_free {check : Nat → Run St Exn Unit} (h : ∀ n, Free (check n)) (value : Value) :
    Free (onList check value) := by
  cases value <;> first | exact h _ | exact Free.done ()

theorem bindOnce_free (symbolId : String) {put : Context → Context} (hs : ∀ c, (put c).skill = c.skill)
    (hr : ∀ c, (put c).resources = c.resources) : Free (bindOnce symbolId put) := by
  refine (Free.look _).bind (fun ctx => ?_)
  split
  · exact Free.fail _
  · exact Free.modifyCtx hs (fun c => by rw [hr c]; exact ⟨rfl, rfl, rfl⟩)

theorem bindSymbol_free (symbolId : String) (v : ValueEnvelope) : Free (bindSymbol symbolId v) :=
  bindOnce_free symbolId (fun _ => rfl) (fun _ => rfl)

theorem bindCheck_free (symbolId : String) (v : ValueEnvelope) : Free (bindCheck symbolId v) :=
  bindOnce_free symbolId (fun _ => rfl) (fun _ => rfl)

theorem pushFrame_free : Free pushFrame := Free.modifyCtx (fun _ => rfl) (fun _ => ⟨rfl, rfl, rfl⟩)

theorem popFrame_free : Free popFrame := by
  refine (Free.look _).bind (fun ctx => ?_)
  split
  · exact Free.modifyCtx (fun _ => rfl) (fun _ => ⟨rfl, rfl, rfl⟩)
  · exact Free.fail _

theorem executeWithTimeout_free (request : ToolCallRequest) (timeoutMs : Int) :
    Free (executeWithTimeout env request timeoutMs) := by
  refine (callTools_free env request).handle (fun e => ?_)
  split <;> exact Free.fail _

theorem checkedCall_free (t : ToolCall) (request : ToolCallRequest) (timeoutMs : Int) (policy : ResultPolicy) :
    Free (checkedCall env t request timeoutMs policy) := by
  refine (Free.ofExcept _).bind (fun _ => (executeWithTimeout_free env request timeoutMs).bind (fun _ =>
    (Free.ofExcept _).bind (fun _ => (Free.ofExcept _).bind (fun _ => (Free.ofExcept _).bind (fun _ => ?_)))))
  split
  · exact Free.fail _
  · exact (checkDeadline_free env).bind (fun _ => Free.done _)

theorem toolFailed_free (t : ToolCall) (code : String) (detail : Option String) (status : String) :
    Free (toolFailed env t code detail status) := emit_free env _ _

theorem reportFailure_free (t : ToolCall) (durationLimited : Bool) (error : Exn) :
    Free (reportFailure env t durationLimited error) := by
  have report : ∀ code detail status e, Free (do toolFailed env t code detail status; Run.fail e :
      Run St Exn ToolResultEnvelope) :=
    fun code detail status e => (toolFailed_free env t code detail status).bind (fun _ => Free.fail e)
  unfold reportFailure
  split
  · exact report _ _ _ _
  · split
    · exact report _ _ _ _
    · exact report _ _ _ _
  · exact Free.fail _
  · exact Free.fail _
  · exact report _ _ _ _

theorem acceptResult_free (t : ToolCall) (result : ToolResultEnvelope) : Free (acceptResult env t result) := by
  refine Free.bind ?_ (fun _ => (emit_free env _ _).bind (fun _ =>
    (onList_free (observeCollection_free env) result.value).bind (fun _ => Free.done _)))
  split
  · exact Free.done _
  · exact (putSnapshot_free env _ _).bind (fun _ => Free.done _)

theorem performCall_free (t : ToolCall) (principal : ExecutionPrincipal) (policy : ResultPolicy) :
    Free (performCall env t principal policy) :=
  (Free.ofExcept _).bind (fun _ => (putSnapshot_free env _ _).bind (fun _ => (emit_free env _ _).bind (fun _ =>
    (Free.look _).bind (fun _ => (remainingDurationMs_free env).bind (fun _ =>
      ((checkedCall_free env _ _ _ _).handle (fun _ => reportFailure_free env _ _ _)).bind (fun _ =>
        acceptResult_free env _ _))))))

/-! ## What counts -/

/-- A count goes up by one only below its limit. -/
theorem consume_spends {count limit : Context → Nat} {message : String} {bump : Meter → Meter} {c : Counts}
    (hc : ∀ s, counts { s with ctx := { s.ctx with resources := bump s.ctx.resources } } = counts s + c)
    (hl : ∀ s, count s.ctx < limit s.ctx → counts s ≤ limitCounts s.ctx.skill.limits →
      counts s + c ≤ limitCounts s.ctx.skill.limits) :
    Spends c (consume count limit message bump) where
  cost := by
    refine Run.Costs.andThen_free (zero_le) (Run.costs_look _) (fun ctx => ?_)
    split
    · exact (Run.costs_fail _).mono zero_le
    · exact Run.costs_write_add zero_le hc
  limits := fun skill => by
    refine Run.Preserves.andThen_from (P := fun ctx s => ctx = s.ctx) (Run.preserves_look _) ?_ ?_
    · intro s w s' a h
      cases h
      rfl
    · rintro ctx s rfl hs
      split
      · exact ⟨fun x hx => (List.not_mem_nil hx).elim, hs⟩
      · rename_i hlt
        obtain ⟨rfl, hs⟩ := hs
        have hstep : WithinLimits s.ctx.skill { s with ctx := { s.ctx with resources := bump s.ctx.resources } } := by
          refine ⟨rfl, ?_⟩
          rw [hc s]
          exact hl s (by omega) hs
        refine ⟨fun x hx => ?_, hstep⟩
        rw [List.mem_singleton.1 hx]
        exact hstep

theorem beforeToolCall_spends : Spends (1, 0, 0) (beforeToolCall env) := by
  refine Spends.after (checkDeadline_free env) (fun _ => consume_spends (fun s => ?_) (fun s h hs => ?_))
  · simp [counts]
  · simp only [counts, limitCounts, Prod.mk_add_mk, Prod.mk_le_mk] at *
    omega

theorem beforeLoopIteration_spends : Spends (0, 1, 0) (beforeLoopIteration env) := by
  refine Spends.after (checkDeadline_free env) (fun _ => consume_spends (fun s => ?_) (fun s h hs => ?_))
  · simp [counts]
  · simp only [counts, limitCounts, Prod.mk_add_mk, Prod.mk_le_mk] at *
    omega

/-! ## Expressions -/

/-- `n` tool calls and nothing else. -/
def toolCallCounts (n : Nat) : Counts := (n, 0, 0)

omit [Platform] in
theorem toolCallCounts_add (m n : Nat) : toolCallCounts (m + n) = toolCallCounts m + toolCallCounts n := by
  simp [toolCallCounts]

theorem evaluated_spends {e : Expression} {ir : Run St Exn ValueEnvelope} {c : Counts} (h : Spends c ir) :
    Spends c (evaluated env e ir) := by
  unfold evaluated
  split
  · exact (Free.fail _).spends.mono zero_le
  · refine Spends.before ((Spends.after (checkDeadline_free env) (fun _ => h)).handle (fun _ => Free.fail _))
      (fun result => ?_)
    split
    · exact Free.fail _
    · refine Free.bind (Free.modifyCtx (fun c => ?_) (fun c => ?_)) (fun _ => (checkDeadline_free env).bind (fun _ =>
        (onList_free (checkCollection_free env) result.value).bind (fun _ => Free.done result)))
      · unfold Context.observeCompleteness
        split <;> first | rfl | (split <;> rfl)
      · unfold Context.observeCompleteness
        split <;> first | exact ⟨rfl, rfl, rfl⟩ | (split <;> exact ⟨rfl, rfl, rfl⟩)

/-- A READ spends its arguments and one call. -/
theorem executeRead_spends {nodeId toolRef : String} {names : List String} {policy : ResultPolicy}
    {arguments : Run St Exn (List (String × ValueEnvelope))} {n : Nat} (h : Spends (toolCallCounts n) arguments) :
    Spends (toolCallCounts (1 + n)) (executeRead env nodeId toolRef names arguments policy) := by
  rw [Nat.add_comm 1 n, toolCallCounts_add]
  refine Spends.after (Free.look _) (fun ctx => Spends.after (Free.ofExcept _) (fun r => ?_))
  obtain ⟨required, contract, principal, decision⟩ := r
  refine h.bind (fun args => (beforeToolCall_spends env).before (fun _ => ?_))
  exact Free.bind (Free.modifyCtx (fun _ => rfl) (fun _ => ⟨rfl, rfl, rfl⟩)) (fun _ => (Free.look _).bind (fun _ =>
    performCall_free env _ _ _))

mutual
/-- **An expression spends at most its static tool calls.** -/
theorem evaluateIr_spends : ∀ (e : Expression), Spends (toolCallCounts (expressionToolCalls e)) (evaluateIr env e)
  | .literal _ _ _   => (Free.done _).spends
  | .symbolRef _ _ _ => ((Free.look _).bind (fun _ => Free.ofExcept _)).spends
  | .field _ e _ _   => (evaluated_spends env (evaluateIr_spends e)).before (fun _ => Free.ofExcept _)
  | .project _ e _ _ => (evaluated_spends env (evaluateIr_spends e)).before (fun _ => Free.ofExcept _)
  | .call _ _ as _   => (evaluateItems_spends as).before (fun _ => Free.ofExcept _)
  | .binary _ _ l r _ => by
    rw [expressionToolCalls, toolCallCounts_add]
    exact (evaluated_spends env (evaluateIr_spends l)).bind (fun _ =>
      (evaluated_spends env (evaluateIr_spends r)).before (fun _ => Free.ofExcept _))
  | .read _ _ as _ _  => executeRead_spends env (evaluateArguments_spends as)
  | .write _ _ _ _ _  => (Free.fail _).spends.mono zero_le
theorem evaluateItems_spends : ∀ (es : List Expression),
    Spends (toolCallCounts (itemsToolCalls es)) (evaluateItems env es)
  | []      => (Free.done _).spends
  | e :: es => by
    rw [itemsToolCalls, toolCallCounts_add]
    exact (evaluated_spends env (evaluateIr_spends e)).bind (fun _ =>
      (evaluateItems_spends es).before (fun _ => Free.done _))
theorem evaluateArguments_spends : ∀ (es : List (String × Expression)),
    Spends (toolCallCounts (argumentsToolCalls es)) (evaluateArguments env es)
  | []           => (Free.done _).spends
  | (_, e) :: es => by
    rw [argumentsToolCalls, toolCallCounts_add]
    exact (evaluated_spends env (evaluateIr_spends e)).bind (fun _ =>
      (evaluateArguments_spends es).before (fun _ => Free.done _))
end

theorem evaluate_spends (e : Expression) : Spends (toolCallCounts (expressionToolCalls e)) (evaluate env e) :=
  evaluated_spends env (evaluateIr_spends env e)

/-! ## Statements -/

theorem executeLet_spends (s : LetStatement) :
    Spends (toolCallCounts (expressionToolCalls s.value)) (executeLet env s) :=
  (evaluate_spends env s.value).before (fun _ => bindSymbol_free _ _)

theorem executeCheck_spends (s : CheckStatement) :
    Spends (toolCallCounts (expressionToolCalls s.condition)) (executeCheck env s) :=
  (evaluate_spends env s.condition).before (fun _ => (Free.ofExcept _).bind (fun _ =>
    Free.bind (Free.modifyCtx (fun _ => rfl) (fun _ => ⟨rfl, rfl, rfl⟩)) (fun _ => (bindCheck_free _ _).bind (fun _ =>
      emit_free env _ _))))

theorem emitField_spends (outputs : List OutputField) (name : String) (e : Expression) :
    Spends (toolCallCounts (expressionToolCalls e)) (emitField env outputs name e) := by
  unfold emitField
  split
  · exact (Free.fail _).spends.mono zero_le
  · split
    · exact (Free.fail _).spends.mono zero_le
    · refine (evaluate_spends env e).before (fun result => (Free.ofExcept _).bind (fun _ => ?_))
      split
      · exact Free.done _
      · exact Free.fail _

theorem emitFields_spends (outputs : List OutputField) : ∀ (es : List (String × Expression)),
    Spends (toolCallCounts (argumentsToolCalls es)) (emitFields env outputs es)
  | []           => (Free.done _).spends
  | (n, e) :: es => by
    rw [argumentsToolCalls, toolCallCounts_add]
    exact (emitField_spends env outputs n e).bind (fun _ =>
      (emitFields_spends outputs es).before (fun _ => Free.done _))

/-! ### EMIT

The row is counted when the fields are evaluated, and its limit is checked before. What the check found still holds then,
since evaluating a field emits nothing. -/

/-- Within the limits, with room for one more row. -/
def Roomy (skill : SkillObject) (s : St) : Prop :=
  WithinLimits skill s ∧ s.ctx.resources.emittedRows < skill.limits.emittedRows

/-- From a state with room for a row the run keeps to the limits. -/
def KeepsFromRoom {α : Type} (m : Run St Exn α) : Prop :=
  ∀ skill, Run.Always (fun s x => Roomy skill s → WithinLimits skill x) m

theorem Spends.roomy {α : Type} {m : Run St Exn α} {n : Nat} (h : Spends (toolCallCounts n) m) (skill : SkillObject) :
    Run.Preserves (Roomy skill) m := by
  refine Run.Always.mono (h.cost.and (h.limits skill)) (fun s x hx hs => ⟨hx.2 hs.1, ?_⟩)
  have hc := hx.1.2
  simp only [counts, toolCallCounts, Prod.mk_add_mk, Prod.mk_le_mk] at hc
  have := hs.2
  omega

theorem KeepsFromRoom.after {α β : Type} {m : Run St Exn α} {f : α → Run St Exn β} {n : Nat}
    (hm : Spends (toolCallCounts n) m) (hf : ∀ a, KeepsFromRoom (f a)) : KeepsFromRoom (m >>= f) := fun skill =>
  Run.Always.andThen (hm.roomy skill) (fun a => hf a skill) (fun _ _ h hs => (h hs).1) (fun _ _ _ h h' hs => h' (h hs))

theorem Free.keepsFromRoom {α : Type} {m : Run St Exn α} (hm : Free m) : KeepsFromRoom m := fun skill =>
  Run.Always.mono (hm.spends.limits skill) (fun _ _ h hs => h hs.1)

theorem reportRow_free (nodeId : String) (values : List (String × ValueEnvelope)) : Free (reportRow env nodeId values) :=
  (putSnapshot_free env _ _).bind (fun _ => emitHidden_free env _ _ _ _ _)

theorem recordOutput_free (record : EmitRecord) : Free (recordOutput record) :=
  Free.modifyCtx (fun _ => rfl) (fun _ => ⟨rfl, rfl, rfl⟩)

theorem appendRow_cost (nodeId : String) (outputs : List OutputField) (values : List (String × ValueEnvelope)) :
    Run.Costs counts (0, 0, 1) (appendRow env nodeId outputs values) := by
  refine Run.Costs.andThen_free zero_le (Run.costs_ofExcept _) (fun record => ?_)
  refine Run.Costs.andThen_free zero_le (recordOutput_free record).spends.cost (fun _ => ?_)
  have hrecord : Run.Costs counts (0, 0, 1) recordEmit := Run.costs_write_add zero_le (fun s => by simp [counts])
  exact hrecord.andThen le_rfl (fun _ => (reportRow_free env nodeId values).spends.cost)

theorem appendRow_keepsFromRoom (nodeId : String) (outputs : List OutputField)
    (values : List (String × ValueEnvelope)) : KeepsFromRoom (appendRow env nodeId outputs values) := by
  refine KeepsFromRoom.after (n := 0) (Free.ofExcept _).spends (fun record => ?_)
  refine KeepsFromRoom.after (n := 0) (recordOutput_free record).spends (fun _ => ?_)
  intro skill
  refine Run.Always.andThen (R := fun s x => Roomy skill s → WithinLimits skill x) (Run.always_write ?_)
    (fun _ => (reportRow_free env nodeId values).spends.limits skill) (fun _ _ h => h) (fun _ _ _ h h' hs => h' (h hs))
  rintro s ⟨⟨rfl, hs⟩, hroom⟩
  refine ⟨rfl, ?_⟩
  simp only [counts, limitCounts, Prod.mk_le_mk] at *
  omega

theorem beforeEmit_room :
    Run.Triple (fun _ => True) (beforeEmit env)
      (fun _ s => s.ctx.resources.emittedRows < s.ctx.skill.limits.emittedRows) (fun _ _ => True) := by
  refine Run.Triple.andThen (Q := fun _ _ => True) (Run.triple_trivial _) (fun _ => ?_)
  refine Run.Triple.andThen (Q := fun ctx s => ctx = s.ctx) (Run.triple_look (fun _ _ => rfl)) (fun ctx => ?_)
  split
  · exact Run.triple_fail (fun _ _ => trivial)
  · rename_i h
    refine Run.triple_done (fun s hs => ?_)
    subst hs
    omega

/-- What follows the check of the row limit keeps to it. -/
theorem emitRest_keepsFromRoom (s : EmitStatement) (ctx : Context) :
    KeepsFromRoom (if emitFieldsMatch ctx.skill.outputs (s.fields.map Prod.fst) then do
        let values ← emitFields env ctx.skill.outputs s.fields
        appendRow env s.nodeId ctx.skill.outputs values
      else Run.fail (.runtimeContract "EMIT fields do not match output schema")) := by
  split
  · exact KeepsFromRoom.after (emitFields_spends env _ _) (fun values => appendRow_keepsFromRoom env _ _ values)
  · exact (Free.fail _).keepsFromRoom

theorem executeEmit_spends (s : EmitStatement) : Spends (argumentsToolCalls s.fields, 0, 1) (executeEmit env s) where
  cost := by
    refine Run.Costs.andThen_free zero_le (beforeEmit_free env).spends.cost (fun _ =>
      Run.Costs.andThen_free zero_le (Run.costs_look _) (fun ctx => ?_))
    split
    · have h := (emitFields_spends env ctx.skill.outputs s.fields).cost.andThen zero_le (fun values =>
        appendRow_cost env s.nodeId ctx.skill.outputs values)
      exact h.mono (le_of_eq (by simp [toolCallCounts]))
    · exact (Run.costs_fail _).mono zero_le
  limits := fun skill => by
    refine Run.Preserves.andThen_from ((beforeEmit_free env).spends.limits skill)
      (fun s w s' a h => (beforeEmit_room env).ok trivial h) (fun _ x hroom hx => ?_)
    have hrest := KeepsFromRoom.after (n := 0) (Free.look (·.ctx)).spends (emitRest_keepsFromRoom env s) skill x
    obtain ⟨rfl, hx⟩ := hx
    exact ⟨fun y hy => hrest.1 y hy ⟨⟨rfl, hx⟩, hroom⟩, hrest.2 ⟨⟨rfl, hx⟩, hroom⟩⟩

/-! ### FOREACH -/

theorem loopPass_spends {iteratorSymbolId : String} {collection : ValueEnvelope} {body : Run St Exn Unit} {c : Counts}
    (h : Spends c body) (value : Value) :
    Spends ((0, 1, 0) + c) (loopPass env iteratorSymbolId collection body value) :=
  (beforeLoopIteration_spends env).bind (fun _ => Spends.after pushFrame_free (fun _ =>
    (Spends.after (bindSymbol_free _ _) (fun _ => h)).lastly popFrame_free))

/-- **A loop spends its collection and, as often as it may run, one iteration and its body.** -/
theorem executeForeach_spends {nodeId iteratorSymbolId : String} {collection : Expression} {maxIterations : Int}
    {body : Run St Exn Unit} {c : Counts} (h : Spends c body) :
    Spends (toolCallCounts (expressionToolCalls collection) + maxIterations.toNat • ((0, 1, 0) + c))
      (executeForeach env nodeId iteratorSymbolId collection maxIterations body) := by
  refine Spends.after (Free.look _) (fun ctx => ?_)
  split
  · exact (Free.fail _).spends.mono zero_le
  · refine Spends.after (Free.modifyCtx (fun _ => rfl) (fun _ => ⟨rfl, rfl, rfl⟩)) (fun _ => Spends.lastly ?_
      (Free.modifyCtx (fun _ => rfl) (fun _ => ⟨rfl, rfl, rfl⟩)))
    refine (evaluate_spends env collection).bind (fun source => ?_)
    cases hlen : source.value.len with
    | error e => exact (Free.fail e).spends.mono zero_le
    | ok size =>
      show Spends _ (if maxIterations < size then _ else _)
      split
      · exact (Free.fail _).spends.mono zero_le
      · cases hvalues : source.value.iterate with
        | error e   => exact (Free.fail e).spends.mono zero_le
        | ok values =>
          -- the loop runs over as many values as `len` counted
          have hsize := Value.iterate_length hvalues hlen
          have hle : values.length ≤ maxIterations.toNat := by omega
          exact (Spends.forEach (loopPass_spends env h) values).mono (nsmul_le_nsmul_left zero_le hle)

/-! ### Blocks -/

theorem aroundStatement_spends (s : Statement) {run : Run St Exn Unit} {c : Counts} (h : Spends c run) :
    Spends c (aroundStatement env s run) := by
  refine Spends.after (checkDeadline_free env) (fun _ => Spends.after (Free.look _) (fun ctx => ?_))
  refine Spends.after (Free.modifyCtx (fun _ => rfl) (fun _ => ⟨rfl, rfl, rfl⟩)) (fun _ =>
    Spends.after (emit_free env _ _) (fun _ => h.before (fun _ => ?_)))
  exact (emit_free env _ _).bind (fun _ => Free.modifyCtx (fun _ => rfl) (fun _ => ⟨rfl, rfl, rfl⟩))

mutual
/-- **An accepted statement spends at most its static counts.** -/
theorem executeStatement_spends : ∀ (s : Statement) {c : Counts}, analyzeStatement s = .ok c →
    Spends c (executeStatement env s)
  | .letBind s, c, h  => by cases h; exact executeLet_spends env s
  | .check s, c, h    => by cases h; exact executeCheck_spends env s
  | .emit s, c, h     => by cases h; exact executeEmit_spends env s
  | .approval s, c, h => by cases h; exact (Free.fail _).spends
  | .foreach nodeId iteratorSymbolId collection maxIterations body, c, h => by
    obtain ⟨-, d, hd, rfl⟩ := analyzeStatement_foreach h
    obtain ⟨d₁, d₂, d₃⟩ := d
    refine (executeForeach_spends env (executeBlock_spends body hd)).mono (le_of_eq ?_)
    simp [toolCallCounts, Nat.mul_add]
/-- **An accepted block spends at most its static counts.** -/
theorem executeBlock_spends : ∀ (ss : List Statement) {b : Counts}, analyzeBlock ss = .ok b →
    Spends b (executeBlock env ss)
  | [], b, h      => by cases h; exact (Free.done ()).spends
  | s :: ss, b, h => by
    obtain ⟨c, d, hc, hd, rfl⟩ := analyzeBlock_cons h
    exact (aroundStatement_spends env s (executeStatement_spends s hc)).bind (fun _ => executeBlock_spends ss hd)
end

/-! ## The theorem -/

/-- The counts of a state are within the static ones and within the declared ones. -/
def WithinBounds (a : StaticAnalysis) (l : ResourceLimits) (s : St) : Prop :=
  (s.ctx.resources.toolCalls ≤ a.maxToolCalls ∧ s.ctx.resources.loopIterations ≤ a.maxLoopIterations ∧
    s.ctx.resources.emittedRows ≤ a.maxEmitRecords) ∧
  (s.ctx.resources.toolCalls ≤ l.toolCalls ∧ s.ctx.resources.loopIterations ≤ l.loopIterations ∧
    s.ctx.resources.emittedRows ≤ l.emittedRows)

/-- **Static bounds are sound.** From a context with a zeroed meter, at every point of the run of an accepted block, the
meter is within the static counts and within the declared limits, whatever the tools answer and however the run ends. -/
theorem staticBounds_sound (body : List Statement) (a : StaticAnalysis) (h : analyze body = .ok a) (s : St)
    (hs : s.ctx.resources = {}) :
    (∀ x ∈ (executeBlock env body s).written, WithinBounds a s.ctx.skill.limits x) ∧
      WithinBounds a s.ctx.skill.limits (executeBlock env body s).final := by
  unfold analyze at h
  cases hb : analyzeBlock body with
  | error e => rw [hb] at h; cases h
  | ok b =>
    rw [hb] at h
    cases h
    have hspends := executeBlock_spends env body hb
    have hzero : counts s = 0 := by unfold counts; rw [hs]; rfl
    have hin : WithinLimits s.ctx.skill s := ⟨rfl, by rw [hzero]; exact zero_le⟩
    have point : ∀ x, (counts s ≤ counts x ∧ counts x ≤ counts s + b) →
        (WithinLimits s.ctx.skill s → WithinLimits s.ctx.skill x) →
        WithinBounds ⟨b.1, b.2.1, b.2.2, true⟩ s.ctx.skill.limits x := by
      intro x hcost hlim
      have hc := hcost.2
      rw [hzero, zero_add] at hc
      exact ⟨hc, (hlim hin).2⟩
    have hpoints := hspends.cost.and (hspends.limits s.ctx.skill) s
    exact ⟨fun x hx => point x (hpoints.1 x hx).1 (hpoints.1 x hx).2, point _ hpoints.2.1 hpoints.2.2⟩

end BoundsSound

section Witness

attribute [local instance] Platform.ascii

/-- A loop over one number. -/
def loopBody : List Statement :=
  [.foreach "n1" "item" (.literal "n2" (.list [.int 7]) (listType INT)) 2 []]

def loopState : St :=
  ⟨{ skill := .ofBody "1.0" "0.1" ⟨1, 1, 1, 1, 1000⟩ loopBody,
     request := .plain ⟨"run-1", by decide +kernel⟩ none none, startedNs := 0 }, {}⟩

theorem staticBounds_sound_loop :
    (∀ x ∈ (executeBlock Env.bare loopBody loopState).written,
      WithinBounds ⟨0, 2, 0, true⟩ ⟨1, 1, 1, 1, 1000⟩ x) ∧
    WithinBounds ⟨0, 2, 0, true⟩ ⟨1, 1, 1, 1, 1000⟩ (executeBlock Env.bare loopBody loopState).final :=
  staticBounds_sound Env.bare loopBody ⟨0, 2, 0, true⟩ rfl loopState rfl

end Witness
end Nsl
