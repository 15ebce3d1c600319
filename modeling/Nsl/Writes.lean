import Nsl.Runtime
/-!
# Writes — what one write of the interpreter can do

The interpreter changes its state by single writes, and there are few kinds of them (`Write`). Every run of a part is a
sequence of such writes: proved here once, along the recursion of the interpreter. What holds in every state of a run is
then a matter of one case for each kind.
-/
namespace Nsl

open Stateful (Run)

section Writes

variable [Platform]

/-- The audit events stay, and so does the place of the next one. -/
def World.SameEvents (w w' : World) : Prop :=
  w'.events = w.events ∧ w'.sequence = w.sequence ∧ w'.previousEventHash = w.previousEventHash

variable (env : Env)

/-- **One write that binds and records nothing.** -/
inductive Quiet : St → St → Prop
  | world (s : St) (w : World) (h : s.world.SameEvents w) (hc : s.world.calls <+: w.calls) : Quiet s { s with world := w }
  | event (s : St) (r : Recorder) (e : AuditEvent) (hr : env.recorder = some r) (he : IsNext r s.world e) :
      Quiet s { s with world := s.world.append e }
  | meter (s : St) (m : Meter) : Quiet s { s with ctx := { s.ctx with resources := m } }
  | completeness (s : St) (c : Completeness) : Quiet s { s with ctx := { s.ctx with dataCompleteness := c } }
  | counter (s : St) : Quiet s { s with ctx := { s.ctx with invocationCounter := s.ctx.invocationCounter + 1 } }

/-- A run of such writes. -/
def Quiets {α : Type} (m : Run St Exn α) : Prop := Run.Steps (Quiet env) m

/-- One write that makes no call either, and leaves the counter of the calls. -/
inductive Still : St → St → Prop
  | world (s : St) (w : World) (h : s.world.SameEvents w) (hc : w.calls = s.world.calls) : Still s { s with world := w }
  | event (s : St) (r : Recorder) (e : AuditEvent) (hr : env.recorder = some r) (he : IsNext r s.world e) :
      Still s { s with world := s.world.append e }
  | meter (s : St) (m : Meter) : Still s { s with ctx := { s.ctx with resources := m } }
  | completeness (s : St) (c : Completeness) : Still s { s with ctx := { s.ctx with dataCompleteness := c } }

/-- A run of such writes. -/
def Stills {α : Type} (m : Run St Exn α) : Prop := Run.Steps (Still env) m

/-- **One write of the interpreter.** -/
inductive Write : St → St → Prop
  | world (s : St) (w : World) (h : s.world.SameEvents w) : Write s { s with world := w }
  | event (s : St) (r : Recorder) (e : AuditEvent) (hr : env.recorder = some r) (he : IsNext r s.world e) :
      Write s { s with world := s.world.append e }
  | meter (s : St) (m : Meter) : Write s { s with ctx := { s.ctx with resources := m } }
  | frames (s : St) (f g : Frames) : Write s { s with ctx := { s.ctx with frames := f, checkFrames := g } }
  | inputs (s : St) (d : Dict ValueEnvelope) : Write s { s with ctx := { s.ctx with inputValues := d } }
  | contexts (s : St) (d : Dict ValueEnvelope) : Write s { s with ctx := { s.ctx with contextValues := d } }
  | completeness (s : St) (c : Completeness) : Write s { s with ctx := { s.ctx with dataCompleteness := c } }
  | counter (s : St) (n : Nat) : Write s { s with ctx := { s.ctx with invocationCounter := n } }
  | depth (s : St) (n : Nat) : Write s { s with ctx := { s.ctx with foreachDepth := n } }
  | node (s : St) (n : Option String) : Write s { s with ctx := { s.ctx with currentNodeId := n } }
  | check (s : St) (c : CheckResult) : Write s { s with ctx := { s.ctx with checks := s.ctx.checks ++ [c] } }
  | output (s : St) (r : EmitRecord) : Write s { s with ctx := { s.ctx with outputs := s.ctx.outputs ++ [r] } }

/-- A run of writes of the interpreter. -/
def Writes {α : Type} (m : Run St Exn α) : Prop := Run.Steps (Write env) m

variable {env}

theorem Quiet.write {s x : St} (h : Quiet env s x) : Write env s x := by
  cases h with
  | world w hw hc    => exact Write.world s w hw
  | event r e hr he => exact Write.event s r e hr he
  | meter m        => exact Write.meter s m
  | completeness c => exact Write.completeness s c
  | counter        => exact Write.counter s _

theorem Still.quiet {s x : St} (h : Still env s x) : Quiet env s x := by
  cases h with
  | world w hw hc    => exact Quiet.world s w hw (hc ▸ List.prefix_rfl)
  | event r e hr he  => exact Quiet.event s r e hr he
  | meter m          => exact Quiet.meter s m
  | completeness c   => exact Quiet.completeness s c

/-- The calls and their counter are as they were. -/
theorem Still.calls {s x : St} (h : Still env s x) :
    x.world.calls = s.world.calls ∧ x.ctx.invocationCounter = s.ctx.invocationCounter := by
  cases h with
  | world w hw hc => exact ⟨hc, rfl⟩
  | _             => exact ⟨rfl, rfl⟩

namespace Stills

variable {α β : Type}

theorem quiets {m : Run St Exn α} (h : Stills env m) : Quiets env m := h.mono (fun _ _ => Still.quiet)

theorem done (a : α) : Stills env (Run.done a) := Run.steps_done a

theorem fail (e : Exn) : Stills env (Run.fail e : Run St Exn α) := Run.steps_fail e

theorem look (f : St → α) : Stills env (Run.look f) := Run.steps_look f

theorem ofExcept (x : Except Exn α) : Stills env (Run.ofExcept x) := Run.steps_ofExcept x

theorem modifyWorld {f : World → World}
    (h : ∀ w : World, w.SameEvents (f w) := by exact fun _ => ⟨rfl, rfl, rfl⟩)
    (hc : ∀ w : World, (f w).calls = w.calls := by exact fun _ => rfl) : Stills env (Nsl.modifyWorld f) :=
  Run.steps_write (fun s => Still.world s (f s.world) (h s.world) (hc s.world))

theorem modifyCtx {f : Context → Context} (h : ∀ s, Still env s { s with ctx := f s.ctx }) : Stills env (Nsl.modifyCtx f) :=
  Run.steps_write h

theorem bind {m : Run St Exn α} {f : α → Run St Exn β} (hm : Stills env m) (hf : ∀ a, Stills env (f a)) :
    Stills env (m >>= f) := Run.Steps.andThen hm hf

end Stills

namespace Quiets

variable {α β : Type}

theorem writes {m : Run St Exn α} (h : Quiets env m) : Writes env m := h.mono (fun _ _ => Quiet.write)

theorem done (a : α) : Quiets env (Run.done a) := Run.steps_done a

theorem fail (e : Exn) : Quiets env (Run.fail e : Run St Exn α) := Run.steps_fail e

theorem look (f : St → α) : Quiets env (Run.look f) := Run.steps_look f

theorem ofExcept (x : Except Exn α) : Quiets env (Run.ofExcept x) := Run.steps_ofExcept x

theorem modifyWorld {f : World → World}
    (h : ∀ w : World, w.SameEvents (f w) := by exact fun _ => ⟨rfl, rfl, rfl⟩)
    (hc : ∀ w : World, w.calls <+: (f w).calls := by exact fun _ => List.prefix_rfl) : Quiets env (Nsl.modifyWorld f) :=
  Run.steps_write (fun s => Quiet.world s (f s.world) (h s.world) (hc s.world))

theorem modifyCtx {f : Context → Context} (h : ∀ s, Quiet env s { s with ctx := f s.ctx }) : Quiets env (Nsl.modifyCtx f) :=
  Run.steps_write h

theorem bind {m : Run St Exn α} {f : α → Run St Exn β} (hm : Quiets env m) (hf : ∀ a, Quiets env (f a)) :
    Quiets env (m >>= f) := Run.Steps.andThen hm hf

theorem attempt {m : Run St Exn α} (hm : Quiets env m) : Quiets env (Run.attempt m) := Run.Steps.attempt hm

theorem handle {m : Run St Exn α} {h : Exn → Run St Exn α} (hm : Quiets env m) (hh : ∀ e, Quiets env (h e)) :
    Quiets env (Run.handle m h) := Run.Steps.handle hm hh

end Quiets

/-- No write changes the skill or the request. -/
theorem Write.fixed {s x : St} (h : Write env s x) : x.ctx.skill = s.ctx.skill ∧ x.ctx.request = s.ctx.request := by
  cases h <;> exact ⟨rfl, rfl⟩

/-- The recorded checks stay, or get one more. -/
theorem Write.checks {s x : St} (h : Write env s x) :
    x.ctx.checks = s.ctx.checks ∨ ∃ c, x.ctx.checks = s.ctx.checks ++ [c] := by
  cases h with
  | check c => exact .inr ⟨c, rfl⟩
  | _       => exact .inl rfl

namespace Writes

variable {α β : Type}

theorem done (a : α) : Writes env (Run.done a) := Run.steps_done a

theorem fail (e : Exn) : Writes env (Run.fail e : Run St Exn α) := Run.steps_fail e

theorem look (f : St → α) : Writes env (Run.look f) := Run.steps_look f

theorem ofExcept (x : Except Exn α) : Writes env (Run.ofExcept x) := Run.steps_ofExcept x

theorem modifyWorld {f : World → World}
    (h : ∀ w : World, w.SameEvents (f w) := by exact fun _ => ⟨rfl, rfl, rfl⟩) : Writes env (Nsl.modifyWorld f) :=
  Run.steps_write (fun s => Write.world s (f s.world) (h s.world))

theorem modifyCtx {f : Context → Context} (h : ∀ s, Write env s { s with ctx := f s.ctx }) : Writes env (Nsl.modifyCtx f) :=
  Run.steps_write h

theorem bind {m : Run St Exn α} {f : α → Run St Exn β} (hm : Writes env m) (hf : ∀ a, Writes env (f a)) :
    Writes env (m >>= f) := Run.Steps.andThen hm hf

theorem attempt {m : Run St Exn α} (hm : Writes env m) : Writes env (Run.attempt m) := Run.Steps.attempt hm

theorem handle {m : Run St Exn α} {h : Exn → Run St Exn α} (hm : Writes env m) (hh : ∀ e, Writes env (h e)) :
    Writes env (Run.handle m h) := Run.Steps.handle hm hh

theorem lastly {m : Run St Exn α} {fin : Run St Exn Unit} (hm : Writes env m) (hfin : Writes env fin) :
    Writes env (Run.lastly m fin) := Run.Steps.lastly hm hfin

theorem forEach {f : α → Run St Exn Unit} (hf : ∀ a, Writes env (f a)) (xs : List α) : Writes env (Run.forEach f xs) :=
  Run.steps_forEach hf xs

end Writes

/-! ## What a quiet run leaves -/

/-- What is bound and recorded. -/
structure Recorded where
  skill         : SkillObject
  request       : ExecutionRequest
  inputValues   : Dict ValueEnvelope
  contextValues : Dict ValueEnvelope
  frames        : Frames
  checkFrames   : Frames
  checks        : List CheckResult
  outputs       : List EmitRecord

def Context.recorded (c : Context) : Recorded :=
  ⟨c.skill, c.request, c.inputValues, c.contextValues, c.frames, c.checkFrames, c.checks, c.outputs⟩

theorem Quiet.recorded {s x : St} (h : Quiet env s x) : x.ctx.recorded = s.ctx.recorded := by
  cases h <;> rfl

/-- **A quiet run keeps what is said of the recorded part.** -/
theorem Quiets.preserves {α : Type} {I : Recorded → Prop} {m : Run St Exn α} (h : Quiets env m) :
    Run.Preserves (fun s => I s.ctx.recorded) m :=
  Run.Steps.preserves (fun s x hx hs => by rw [hx.recorded]; exact hs) h

/-! ## Events, clock and ports -/

variable (env : Env)

theorem readClock_still : Stills env (readClock env) :=
  (Stills.look _).bind (fun _ => Stills.bind Stills.modifyWorld (fun _ => Stills.done _))

theorem readClock_quiet : Quiets env (readClock env) := (readClock_still env).quiets

theorem emitHidden_still (eventType : String) (payload : Value) (classification : DataClassification)
    (ref : Option SnapshotRef) (metadata : Value) :
    Stills env (emitHidden env eventType payload classification ref metadata) :=
  emitHidden_steps env Still.event eventType payload classification ref metadata

theorem emitHidden_quiet (eventType : String) (payload : Value) (classification : DataClassification)
    (ref : Option SnapshotRef) (metadata : Value) :
    Quiets env (emitHidden env eventType payload classification ref metadata) :=
  (emitHidden_still env eventType payload classification ref metadata).quiets

theorem emit_still (eventType : String) (payload : List (String × Value)) : Stills env (emit env eventType payload) :=
  emitHidden_still env eventType _ _ _ _

theorem emit_quiet (eventType : String) (payload : List (String × Value)) : Quiets env (emit env eventType payload) :=
  (emit_still env eventType payload).quiets

theorem putSnapshot_still (value : Value) (classification : DataClassification) :
    Stills env (putSnapshot env value classification) := by
  unfold putSnapshot
  cases env.snapshots with
  | none       => exact Stills.done none
  | some store => exact (Stills.look _).bind (fun _ => Stills.bind Stills.modifyWorld (fun _ => Stills.done _))

theorem putSnapshot_quiet (value : Value) (classification : DataClassification) :
    Quiets env (putSnapshot env value classification) := (putSnapshot_still env value classification).quiets

theorem callPort_quiet (request : ToolCallRequest) : Quiets env (callPort env request) := by
  have hcalls : ∀ (calls : List (ToolCallRequest × PortAnswer)) (w : World),
      w.calls <+: w.calls ++ [(request, env.port calls request)] := fun _ _ => List.prefix_append _ _
  refine (Quiets.look _).bind (fun calls => Quiets.bind (Quiets.modifyWorld (fun _ => ⟨rfl, rfl, rfl⟩) (hcalls calls))
    (fun _ => ?_))
  cases env.port calls request with
  | raises e     => exact Quiets.fail e
  | returns _    => exact Quiets.done _
  | returnsOther => exact Quiets.done _

theorem callTools_quiet (request : ToolCallRequest) : Quiets env (callTools env request) := by
  unfold callTools
  split
  · exact (readClock_quiet env).bind (fun _ => (callPort_quiet env request).attempt.bind (fun _ =>
      (readClock_quiet env).bind (fun _ => (Quiets.ofExcept _).bind (fun _ => (Quiets.ofExcept _).bind (fun _ =>
        Quiets.ofExcept _)))))
  · exact callPort_quiet env request

/-! ## The resource guard -/

theorem remainingDurationNs_still : Stills env (remainingDurationNs env) :=
  (readClock_still env).bind (fun _ => (Stills.look _).bind (fun _ => Stills.done _))

theorem checkDeadline_still : Stills env (checkDeadline env) := by
  refine (remainingDurationNs_still env).bind (fun remaining => ?_)
  split
  · exact Stills.fail _
  · exact Stills.done ()

theorem checkDeadline_quiet : Quiets env (checkDeadline env) := (checkDeadline_still env).quiets

theorem remainingDurationMs_still : Stills env (remainingDurationMs env) := by
  refine (remainingDurationNs_still env).bind (fun remaining => ?_)
  split
  · exact Stills.fail _
  · exact Stills.done _

theorem remainingDurationMs_quiet : Quiets env (remainingDurationMs env) := (remainingDurationMs_still env).quiets

theorem consume_still (count limit : Context → Nat) (message : String) (bump : Meter → Meter) :
    Stills env (consume count limit message bump) := by
  refine (Stills.look _).bind (fun ctx => ?_)
  split
  · exact Stills.fail _
  · exact Stills.modifyCtx (fun s => Still.meter s _)

theorem beforeToolCall_still : Stills env (beforeToolCall env) :=
  (checkDeadline_still env).bind (fun _ => consume_still env _ _ _ _)

theorem beforeToolCall_quiet : Quiets env (beforeToolCall env) := (beforeToolCall_still env).quiets

theorem beforeLoopIteration_still : Stills env (beforeLoopIteration env) :=
  (checkDeadline_still env).bind (fun _ => consume_still env _ _ _ _)

theorem beforeLoopIteration_quiet : Quiets env (beforeLoopIteration env) := (beforeLoopIteration_still env).quiets

theorem beforeEmit_still : Stills env (beforeEmit env) := by
  refine (checkDeadline_still env).bind (fun _ => (Stills.look _).bind (fun ctx => ?_))
  split
  · exact Stills.fail _
  · exact Stills.done ()

theorem beforeEmit_quiet : Quiets env (beforeEmit env) := (beforeEmit_still env).quiets

theorem checkCollection_still (size : Nat) : Stills env (checkCollection env size) := by
  refine (checkDeadline_still env).bind (fun _ => (Stills.look _).bind (fun ctx => ?_))
  split
  · exact Stills.fail _
  · exact Stills.done ()

theorem checkCollection_quiet (size : Nat) : Quiets env (checkCollection env size) := (checkCollection_still env size).quiets

theorem observeCollection_still (size : Nat) : Stills env (observeCollection env size) :=
  Stills.bind (Stills.modifyCtx (fun s => Still.meter s _)) (fun _ => checkCollection_still env size)

theorem observeCollection_quiet (size : Nat) : Quiets env (observeCollection env size) :=
  (observeCollection_still env size).quiets

theorem onList_still {check : Nat → Run St Exn Unit} (h : ∀ n, Stills env (check n)) (value : Value) :
    Stills env (onList check value) := by
  unfold onList
  split
  · exact h _
  · exact Stills.done ()

theorem observeCompleteness_still (completeness : Completeness) :
    Stills env (modifyCtx (fun c => c.observeCompleteness completeness)) := by
  refine Stills.modifyCtx (fun s => ?_)
  unfold Context.observeCompleteness
  split
  · exact Still.completeness s _
  · split
    · exact Still.completeness s _
    · exact Still.world s s.world ⟨rfl, rfl, rfl⟩ rfl
  · exact Still.world s s.world ⟨rfl, rfl, rfl⟩ rfl

theorem onList_quiet {check : Nat → Run St Exn Unit} (h : ∀ n, Quiets env (check n)) (value : Value) :
    Quiets env (onList check value) := by
  unfold onList
  split
  · exact h _
  · exact Quiets.done ()

/-! ## Frames -/

theorem bindOnce_writes {symbolId : String} {put : Context → Context} (h : ∀ s, Write env s { s with ctx := put s.ctx }) :
    Writes env (bindOnce symbolId put) := by
  refine (Writes.look _).bind (fun ctx => ?_)
  split
  · exact Writes.fail _
  · exact Writes.modifyCtx h

theorem bindInput_writes (symbolId : String) (v : ValueEnvelope) : Writes env (bindInput symbolId v) :=
  bindOnce_writes env (fun s => Write.inputs s _)

theorem bindContext_writes (symbolId : String) (v : ValueEnvelope) : Writes env (bindContext symbolId v) :=
  bindOnce_writes env (fun s => Write.contexts s _)

theorem bindSymbol_writes (symbolId : String) (v : ValueEnvelope) : Writes env (bindSymbol symbolId v) :=
  bindOnce_writes env (fun s => Write.frames s _ s.ctx.checkFrames)

theorem bindCheck_writes (symbolId : String) (v : ValueEnvelope) : Writes env (bindCheck symbolId v) :=
  bindOnce_writes env (fun s => Write.frames s s.ctx.frames _)

theorem pushFrame_writes : Writes env pushFrame := Writes.modifyCtx (fun s => Write.frames s _ _)

theorem popFrame_writes : Writes env popFrame := by
  refine (Writes.look _).bind (fun ctx => ?_)
  split
  · exact Writes.modifyCtx (fun s => Write.frames s _ _)
  · exact Writes.fail _

/-! ## Expressions -/

theorem toolFailed_still (t : ToolCall) (code : String) (detail : Option String) (status : String) :
    Stills env (toolFailed env t code detail status) := emit_still env _ _

theorem reportFailure_still (t : ToolCall) (durationLimited : Bool) (error : Exn) :
    Stills env (reportFailure env t durationLimited error) := by
  unfold reportFailure
  split
  · exact (toolFailed_still env t _ _ _).bind (fun _ => Stills.fail _)
  · split
    · exact (toolFailed_still env t _ _ _).bind (fun _ => Stills.fail _)
    · exact (toolFailed_still env t _ _ _).bind (fun _ => Stills.fail _)
  · exact Stills.fail _
  · exact Stills.fail _
  · exact (toolFailed_still env t _ _ _).bind (fun _ => Stills.fail _)

theorem reportFailure_quiet (t : ToolCall) (durationLimited : Bool) (error : Exn) :
    Quiets env (reportFailure env t durationLimited error) := (reportFailure_still env t durationLimited error).quiets

theorem executeWithTimeout_quiet (request : ToolCallRequest) (timeoutMs : Int) :
    Quiets env (executeWithTimeout env request timeoutMs) := by
  refine (callTools_quiet env request).handle (fun e => ?_)
  split
  · exact Quiets.fail _
  · exact Quiets.fail _
  · exact Quiets.fail _

theorem checkedCall_quiet (t : ToolCall) (request : ToolCallRequest) (timeoutMs : Int) (policy : ResultPolicy) :
    Quiets env (checkedCall env t request timeoutMs policy) := by
  refine (Quiets.ofExcept _).bind (fun _ => (executeWithTimeout_quiet env request timeoutMs).bind (fun answer => ?_))
  refine (Quiets.ofExcept _).bind (fun result => (Quiets.ofExcept _).bind (fun _ => (Quiets.ofExcept _).bind
    (fun _ => ?_)))
  split
  · exact Quiets.fail _
  · exact (checkDeadline_quiet env).bind (fun _ => Quiets.done _)

theorem acceptResult_still (t : ToolCall) (result : ToolResultEnvelope) : Stills env (acceptResult env t result) := by
  refine Stills.bind ?_ (fun stored => (emit_still env _ _).bind (fun _ =>
    (onList_still env (observeCollection_still env) _).bind (fun _ => Stills.done _)))
  split
  · exact Stills.done _
  · exact (putSnapshot_still env _ _).bind (fun _ => Stills.done _)

theorem acceptResult_quiet (t : ToolCall) (result : ToolResultEnvelope) : Quiets env (acceptResult env t result) :=
  (acceptResult_still env t result).quiets

theorem performCall_quiet (t : ToolCall) (principal : ExecutionPrincipal) (policy : ResultPolicy) :
    Quiets env (performCall env t principal policy) := by
  refine (Quiets.ofExcept _).bind (fun _ => (putSnapshot_quiet env _ _).bind (fun _ =>
    (emit_quiet env _ _).bind (fun _ => (Quiets.look _).bind (fun ctx => ?_))))
  refine (remainingDurationMs_quiet env).bind (fun remaining => ?_)
  exact ((checkedCall_quiet env t _ _ policy).handle (fun e => reportFailure_quiet env t _ e)).bind
    (fun result => acceptResult_quiet env t result)

theorem executeRead_quiet (nodeId toolRef : String) (names : List String)
    {arguments : Run St Exn (List (String × ValueEnvelope))} (h : Quiets env arguments) (policy : ResultPolicy) :
    Quiets env (executeRead env nodeId toolRef names arguments policy) := by
  refine (Quiets.look _).bind (fun ctx => (Quiets.ofExcept _).bind (fun resolved => h.bind (fun args => ?_)))
  refine (beforeToolCall_quiet env).bind (fun _ => Quiets.bind (Quiets.modifyCtx (fun s => Quiet.counter s))
    (fun _ => (Quiets.look _).bind (fun counted => ?_)))
  exact performCall_quiet env _ _ policy

theorem evaluated_quiet (e : Expression) {ir : Run St Exn ValueEnvelope} (h : Quiets env ir) :
    Quiets env (evaluated env e ir) := by
  unfold evaluated
  split
  · exact Quiets.fail _
  · refine (((checkDeadline_quiet env).bind (fun _ => h)).handle (fun _ => Quiets.fail _)).bind (fun result => ?_)
    split
    · exact Quiets.fail _
    · exact (observeCompleteness_still env _).quiets.bind (fun _ => (checkDeadline_quiet env).bind (fun _ =>
        (onList_quiet env (checkCollection_quiet env) _).bind (fun _ => Quiets.done _)))

mutual
theorem evaluateIr_quiet : ∀ (e : Expression), Quiets env (evaluateIr env e)
  | .literal .. => by
    unfold evaluateIr
    exact Quiets.done _
  | .symbolRef .. => by
    unfold evaluateIr
    exact (Quiets.look _).bind (fun _ => Quiets.ofExcept _)
  | .field _ source _ _ => by
    unfold evaluateIr
    exact (evaluated_quiet env source (evaluateIr_quiet source)).bind (fun _ => Quiets.ofExcept _)
  | .project _ source _ _ => by
    unfold evaluateIr
    exact (evaluated_quiet env source (evaluateIr_quiet source)).bind (fun _ => Quiets.ofExcept _)
  | .call _ _ arguments _ => by
    unfold evaluateIr
    exact (evaluateItems_quiet arguments).bind (fun _ => Quiets.ofExcept _)
  | .binary _ _ left right _ => by
    unfold evaluateIr
    exact (evaluated_quiet env left (evaluateIr_quiet left)).bind (fun _ =>
      (evaluated_quiet env right (evaluateIr_quiet right)).bind (fun _ => Quiets.ofExcept _))
  | .read nodeId toolRef arguments _ policy => by
    unfold evaluateIr
    exact executeRead_quiet env nodeId toolRef _ (evaluateArguments_quiet arguments) policy
  | .write .. => by
    unfold evaluateIr
    exact Quiets.fail _
theorem evaluateItems_quiet : ∀ (es : List Expression), Quiets env (evaluateItems env es)
  | [] => by
    unfold evaluateItems
    exact Quiets.done _
  | e :: es => by
    unfold evaluateItems
    exact (evaluated_quiet env e (evaluateIr_quiet e)).bind (fun _ => (evaluateItems_quiet es).bind
      (fun _ => Quiets.done _))
theorem evaluateArguments_quiet : ∀ (es : List (String × Expression)), Quiets env (evaluateArguments env es)
  | [] => by
    unfold evaluateArguments
    exact Quiets.done _
  | (_, e) :: es => by
    unfold evaluateArguments
    exact (evaluated_quiet env e (evaluateIr_quiet e)).bind (fun _ => (evaluateArguments_quiet es).bind
      (fun _ => Quiets.done _))
end

theorem evaluate_quiet (e : Expression) : Quiets env (evaluate env e) := evaluated_quiet env e (evaluateIr_quiet env e)

/-! ## Statements -/

theorem executeCheck_writes (s : CheckStatement) : Writes env (executeCheck env s) := by
  refine (evaluate_quiet env s.condition).writes.bind (fun predicate => (Writes.ofExcept _).bind (fun check => ?_))
  refine Writes.bind (Writes.modifyCtx (fun s => Write.check s check)) (fun _ => ?_)
  exact (bindCheck_writes env _ _).bind (fun _ => (emit_quiet env _ _).writes)

theorem executeLet_writes (s : LetStatement) : Writes env (executeLet env s) :=
  (evaluate_quiet env s.value).writes.bind (fun value => bindSymbol_writes env _ value)

theorem emitField_quiet (outputs : List OutputField) (name : String) (e : Expression) :
    Quiets env (emitField env outputs name e) := by
  unfold emitField
  split
  · exact Quiets.fail _
  · split
    · exact Quiets.fail _
    · refine (evaluate_quiet env e).bind (fun result => (Quiets.ofExcept _).bind (fun _ => ?_))
      split
      · exact Quiets.done _
      · exact Quiets.fail _

theorem emitFields_quiet (outputs : List OutputField) : ∀ (fields : List (String × Expression)),
    Quiets env (emitFields env outputs fields)
  | []           => Quiets.done _
  | (n, e) :: es => (emitField_quiet env outputs n e).bind (fun _ => (emitFields_quiet outputs es).bind
      (fun _ => Quiets.done _))

theorem appendRow_writes (nodeId : String) (outputs : List OutputField) (values : List (String × ValueEnvelope)) :
    Writes env (appendRow env nodeId outputs values) := by
  refine (Writes.ofExcept _).bind (fun record => Writes.bind (Writes.modifyCtx (fun s => Write.output s record))
    (fun _ => Writes.bind (Writes.modifyCtx (fun s => Write.meter s _)) (fun _ => ?_)))
  exact (putSnapshot_quiet env _ _).writes.bind (fun _ => (emitHidden_quiet env _ _ _ _ _).writes)

theorem executeEmit_writes (s : EmitStatement) : Writes env (executeEmit env s) := by
  refine (beforeEmit_quiet env).writes.bind (fun _ => (Writes.look _).bind (fun ctx => ?_))
  split
  · exact (emitFields_quiet env _ _).writes.bind (fun values => appendRow_writes env _ _ values)
  · exact Writes.fail _

theorem loopPass_writes (iterator : String) (collection : ValueEnvelope) {body : Run St Exn Unit} (h : Writes env body)
    (value : Value) : Writes env (loopPass env iterator collection body value) :=
  (beforeLoopIteration_quiet env).writes.bind (fun _ => (pushFrame_writes env).bind (fun _ =>
    ((bindSymbol_writes env _ _).bind (fun _ => h)).lastly (popFrame_writes env)))

theorem executeForeach_writes (nodeId iterator : String) (collection : Expression) (maxIterations : Int)
    {body : Run St Exn Unit} (h : Writes env body) :
    Writes env (executeForeach env nodeId iterator collection maxIterations body) := by
  refine (Writes.look _).bind (fun ctx => ?_)
  split
  · exact Writes.fail _
  · refine Writes.bind (Writes.modifyCtx (fun s => Write.depth s _)) (fun _ => Writes.lastly ?_
      (Writes.modifyCtx (fun s => Write.depth s _)))
    refine (evaluate_quiet env collection).writes.bind (fun source => (Writes.ofExcept _).bind (fun size => ?_))
    split
    · exact Writes.fail _
    · exact (Writes.ofExcept _).bind (fun values => Writes.forEach (loopPass_writes env iterator source h) values)

theorem aroundStatement_writes (s : Statement) {run : Run St Exn Unit} (h : Writes env run) :
    Writes env (aroundStatement env s run) :=
  (checkDeadline_quiet env).writes.bind (fun _ => (Writes.look _).bind (fun _ =>
    Writes.bind (Writes.modifyCtx (fun s => Write.node s _)) (fun _ => (emit_quiet env _ _).writes.bind (fun _ =>
      h.bind (fun _ => (emit_quiet env _ _).writes.bind (fun _ => Writes.modifyCtx (fun s => Write.node s _)))))))

mutual
theorem executeStatement_writes : ∀ (s : Statement), Writes env (executeStatement env s)
  | .letBind s => by
    unfold executeStatement
    exact executeLet_writes env s
  | .foreach nodeId iterator collection maxIterations body => by
    unfold executeStatement
    exact executeForeach_writes env nodeId iterator collection maxIterations (executeBlock_writes body)
  | .check s => by
    unfold executeStatement
    exact executeCheck_writes env s
  | .emit s => by
    unfold executeStatement
    exact executeEmit_writes env s
  | .approval _ => by
    unfold executeStatement
    exact Writes.fail _
/-- **Every run of a block is a sequence of the writes above.** -/
theorem executeBlock_writes : ∀ (ss : List Statement), Writes env (executeBlock env ss)
  | [] => by
    unfold executeBlock
    exact Writes.done _
  | s :: ss => by
    unfold executeBlock
    exact (aroundStatement_writes env s (executeStatement_writes s)).bind (fun _ => executeBlock_writes ss)
end

end Writes
end Nsl
