import Nsl.Runtime
/-!
# Reaches — runs that go through

What a part of the interpreter does to the context when nothing stops it: the clock stays before the deadline, the
counts are below their limits, the symbols are free. The world may change on the way, the context is known.
-/
namespace Nsl

open Stateful (Run)

section Reaches

variable [Platform]

/-- From the context `c` the run ends with `a` in the context `c'`. -/
def Reaches {α : Type} (c : Context) (m : Run St Exn α) (a : α) (c' : Context) : Prop := Run.Reaches St.ctx c m a c'

/-- No reading of the clock is past the deadline of the context. -/
def InTime (env : Env) (c : Context) : Prop :=
  ∀ n, 0 < (c.skill.limits.durationMs : Int) * 1000000 - (env.clock n - c.startedNs)

namespace Reaches

variable {α β : Type} {c c' c'' : Context}

theorem done (a : α) : Reaches c (Run.done a) a c := Run.reaches_done a

theorem getCtx : Reaches c Nsl.getCtx c c := Run.reaches_look (fun _ hs => hs)

theorem ofExcept {x : Except Exn α} {a : α} (h : x = .ok a) : Reaches c (Run.ofExcept x) a c := Run.reaches_ofExcept h

theorem modifyWorld (f : World → World) : Reaches c (Nsl.modifyWorld f) () c := Run.reaches_write (fun _ hs => hs)

theorem modifyCtx (f : Context → Context) : Reaches c (Nsl.modifyCtx f) () (f c) :=
  Run.reaches_write (fun s hs => by rw [← hs])

theorem bind {m : Run St Exn α} {f : α → Run St Exn β} {a : α} {b : β} (hm : Reaches c m a c')
    (hf : Reaches c' (f a) b c'') : Reaches c (m >>= f) b c'' := Run.Reaches.andThen hm hf

theorem handle {m : Run St Exn α} {h : Exn → Run St Exn α} {a : α} (hm : Reaches c m a c') :
    Reaches c (Run.handle m h) a c' := Run.Reaches.handle hm

theorem lastly {m : Run St Exn α} {fin : Run St Exn Unit} {a : α} (hm : Reaches c m a c')
    (hfin : Reaches c' fin () c'') : Reaches c (Run.lastly m fin) a c'' := Run.Reaches.lastly hm hfin

end Reaches

variable {env : Env} {c c' c'' : Context}

theorem emit_reaches (eventType : String) {payload : List (String × Value)} (h : fieldsJson payload = true) :
    Reaches c (emit env eventType payload) () c := by
  intro s hs
  obtain ⟨w, s', hemit, hctx⟩ := emit_ok env eventType h s
  exact ⟨w, s', hemit, hctx.trans hs⟩

/-- The time left at the next reading of the clock. -/
def timeLeft (env : Env) (s : St) : Int :=
  s.ctx.skill.limits.durationMs * 1000000 - (env.clock s.world.readings - s.ctx.startedNs)

/-- The check of the deadline passes where there is time left, and changes neither the context nor the events. -/
theorem checkDeadline_apply (s : St) : ∃ w s', checkDeadline env s =
      ⟨w, s', if timeLeft env s ≤ 0 then .error (.limitExceeded DURATION_LIMIT_MESSAGE) else .ok ()⟩ ∧
    s'.ctx = s.ctx ∧ s'.world.events = s.world.events := by
  obtain ⟨w, s', hclock, hctx, hevents⟩ : ∃ w s', readClock env s = ⟨w, s', .ok (env.clock s.world.readings)⟩ ∧
      s'.ctx = s.ctx ∧ s'.world.events = s.world.events := ⟨_, _, rfl, rfl, rfl⟩
  have hremaining : remainingDurationNs env s = ⟨w ++ [], s', .ok (timeLeft env s)⟩ := by
    unfold remainingDurationNs getCtx
    rw [Run.bind_eq, Run.andThen_ok hclock, Run.bind_eq, Run.look_andThen, hctx]
    rfl
  refine ⟨w ++ [] ++ [], s', ?_, hctx, hevents⟩
  unfold checkDeadline
  rw [Run.bind_eq, Run.andThen_ok hremaining]
  by_cases h : timeLeft env s ≤ 0
  · rw [if_pos h, if_pos h]
    rfl
  · rw [if_neg h, if_neg h]
    rfl

theorem checkDeadline_reaches (h : InTime env c) : Reaches c (checkDeadline env) () c := by
  intro s hs
  obtain ⟨w, s', hdeadline, hctx, -⟩ := @checkDeadline_apply _ env s
  have htime : ¬ timeLeft env s ≤ 0 := by
    unfold timeLeft
    rw [hs]
    exact not_le.2 (h _)
  rw [if_neg htime] at hdeadline
  exact ⟨w, s', hdeadline, hctx.trans hs⟩

theorem consume_reaches {count limit : Context → Nat} {message : String} {bump : Meter → Meter}
    (h : count c < limit c) : Reaches c (consume count limit message bump) () { c with resources := bump c.resources } := by
  refine Reaches.getCtx.bind ?_
  rw [if_neg (not_le.2 h)]
  exact Reaches.modifyCtx _

theorem checkCollection_reaches (h : InTime env c) {size : Nat} (hs : size ≤ c.skill.limits.collectionSize) :
    Reaches c (checkCollection env size) () c := by
  refine (checkDeadline_reaches h).bind (Reaches.getCtx.bind ?_)
  rw [if_neg (not_lt.2 hs)]
  exact Reaches.done ()

theorem bindOnce_reaches {symbolId : String} {put : Context → Context} (h : c.isBound symbolId = false) :
    Reaches c (bindOnce symbolId put) () (put c) := by
  refine Reaches.getCtx.bind ?_
  rw [if_neg (by rw [h]; exact Bool.false_ne_true)]
  exact Reaches.modifyCtx put

theorem onList_reaches {check : Nat → Run St Exn Unit} {value : Value}
    (h : ∀ items, value = .list items → Reaches c (check items.length) () c) : Reaches c (onList check value) () c := by
  unfold onList
  split
  · exact h _ rfl
  · exact Reaches.done ()

/-- What is around an expression lets a complete value of its type through. -/
theorem evaluated_passes {e : Expression} {ir : Run St Exn ValueEnvelope} {v : ValueEnvelope} (hwrite : e.isWrite = false)
    (h : InTime env c) (hir : Reaches c ir v c') (h' : InTime env c') (htype : v.typeInfo = some e.typeInfo)
    (hcomplete : v.completeness = .complete)
    (hs : ∀ items, v.value = .list items → items.length ≤ c'.skill.limits.collectionSize) :
    Reaches c (evaluated env e ir) v c' := by
  unfold evaluated
  rw [if_neg (by rw [hwrite]; exact Bool.false_ne_true)]
  refine Reaches.bind (Reaches.handle (Reaches.bind (checkDeadline_reaches h) hir)) ?_
  rw [if_neg (not_not.2 htype)]
  have hobserve : c'.observeCompleteness v.completeness = c' := by rw [hcomplete]; rfl
  have hsame : Reaches c' (Nsl.modifyCtx (fun c => c.observeCompleteness v.completeness)) () c' := by
    conv => rhs; rw [← hobserve]
    exact Reaches.modifyCtx _
  refine Reaches.bind hsame (Reaches.bind (checkDeadline_reaches h') ?_)
  exact Reaches.bind (onList_reaches (fun items hv => checkCollection_reaches h' (hs items hv))) (Reaches.done _)

theorem evaluated_reaches {e : Expression} {ir : Run St Exn ValueEnvelope} {v : ValueEnvelope} (hwrite : e.isWrite = false)
    (h : InTime env c) (hir : Reaches c ir v c) (htype : v.typeInfo = some e.typeInfo) (hcomplete : v.completeness = .complete)
    (hs : ∀ items, v.value = .list items → items.length ≤ c.skill.limits.collectionSize) :
    Reaches c (evaluated env e ir) v c := evaluated_passes hwrite h hir h htype hcomplete hs

/-- The value of a literal, as it is. -/
theorem evaluate_literal_reaches (n : String) {v : Value} {t : TypeRef} (h : InTime env c)
    (hs : ∀ items, v = .list items → items.length ≤ c.skill.limits.collectionSize) :
    Reaches c (evaluate env (.literal n v t)) (ValueEnvelope.ofComplete v t .publicData []) c := by
  unfold evaluate evaluateIr
  exact evaluated_reaches rfl h (Reaches.done _) rfl rfl hs

/-- The value of a symbol, as it is bound. -/
theorem evaluate_symbolRef_reaches (n : String) {i : String} {t : TypeRef} {v : ValueEnvelope} (h : InTime env c)
    (hv : c.resolve i = .ok v) (htype : v.typeInfo = some t) (hcomplete : v.completeness = .complete)
    (hs : ∀ items, v.value = .list items → items.length ≤ c.skill.limits.collectionSize) :
    Reaches c (evaluate env (.symbolRef n i t)) v c := by
  unfold evaluate evaluateIr
  exact evaluated_reaches rfl h (Reaches.bind Reaches.getCtx (Reaches.ofExcept hv)) htype hcomplete hs

/-- The field of a value. -/
theorem evaluate_field_reaches (n : String) {e : Expression} {f : String} {t : TypeRef} {v x : ValueEnvelope}
    (h : InTime env c) (he : Reaches c (evaluate env e) v c) (hx : fieldValue f t v = .ok x)
    (hcomplete : v.completeness = .complete)
    (hs : ∀ items, x.value = .list items → items.length ≤ c.skill.limits.collectionSize) :
    Reaches c (evaluate env (.field n e f t)) x c := by
  obtain ⟨y, -, hy⟩ := Stateful.bind_eq_ok hx
  cases hy
  unfold evaluate evaluateIr
  exact evaluated_reaches rfl h (Reaches.bind he (Reaches.ofExcept hx)) rfl hcomplete hs

/-- What `executeCheck` records and binds for a literal condition. -/
def literalCheck (s : CheckStatement) (truth : Bool) : CheckResult :=
  { checkId := s.checkId, status := if truth then .pass else .fail, severity := s.severity, message := s.message,
    conditionNodeId := s.condition.nodeId, presence := .present, completeness := .complete, provenanceRefs := [],
    reasonCode := none }

def literalCheckResult (s : CheckStatement) (truth : Bool) : ValueEnvelope :=
  .ofComplete (.dict [("status", .str (StrEnum.value (literalCheck s truth).status))]) CHECK_RESULT .internal []

/-- What a CHECK records and binds, once the value of its condition is known. -/
theorem executeCheck_reaches {s : CheckStatement} {v : ValueEnvelope} {check : CheckResult}
    (hv : Reaches c (evaluate env s.condition) v c') (hcheck : evaluateCheck s v = .ok check)
    (hfree : c'.isBound s.resultSymbolId = false) :
    Reaches c (executeCheck env s) ()
      { c' with checks := c'.checks ++ [check],
                checkFrames := c'.checkFrames.bind s.resultSymbolId
                  (.ofComplete (.dict [("status", .str (StrEnum.value check.status))]) CHECK_RESULT .internal
                    v.provenanceRefs) } := by
  unfold executeCheck
  refine Reaches.bind hv (Reaches.bind (Reaches.ofExcept (a := check) (by rw [hcheck])) ?_)
  refine Reaches.bind (Reaches.modifyCtx _) (Reaches.bind (bindOnce_reaches hfree) (emit_reaches _ ?_))
  have hrefs : itemsJson (check.provenanceRefs.map .str) = true := itemsJson_texts id _
  simp [fieldsJson, Value.isJson, hrefs, optionalStr_isJson]

theorem executeCheck_literal_reaches {s : CheckStatement} {n : String} {truth : Bool}
    (hs : s.condition = .literal n (.bool truth) BOOL) (h : InTime env c) (hfree : c.isBound s.resultSymbolId = false) :
    Reaches c (executeCheck env s) ()
      { c with checks := c.checks ++ [literalCheck s truth],
               checkFrames := c.checkFrames.bind s.resultSymbolId (literalCheckResult s truth) } := by
  have hvalue : Reaches c (evaluate env s.condition) (.ofComplete (.bool truth) BOOL .publicData []) c :=
    hs ▸ evaluate_literal_reaches n h (by simp)
  exact executeCheck_reaches hvalue (by simp [evaluateCheck, ValueEnvelope.ofComplete, literalCheck]) hfree

/-! ## A READ that is answered -/

/-- Without a store of snapshots nothing is put. -/
theorem putSnapshot_reaches {c : Context} (h : env.snapshots = none) (value : Value) (classification : DataClassification) :
    Reaches c (putSnapshot env value classification) none c := by
  unfold putSnapshot
  rw [h]
  exact Reaches.done none

theorem remainingDurationMs_reaches (h : InTime env c) : ∀ s : St, s.ctx = c →
    ∃ w s' n, remainingDurationMs env s = ⟨w, s', .ok n⟩ ∧ s'.ctx = c := by
  intro s hs
  obtain ⟨w, s', hclock, hctx⟩ : ∃ w s', readClock env s = ⟨w, s', .ok (env.clock s.world.readings)⟩ ∧ s'.ctx = s.ctx :=
    ⟨_, _, rfl, rfl⟩
  have hremaining : remainingDurationNs env s = ⟨w ++ [], s', .ok (timeLeft env s)⟩ := by
    unfold remainingDurationNs getCtx
    rw [Run.bind_eq, Run.andThen_ok hclock, Run.bind_eq, Run.look_andThen, hctx]
    rfl
  have htime : ¬ timeLeft env s ≤ 0 := by
    unfold timeLeft
    rw [hs]
    exact not_le.2 (h _)
  refine ⟨w ++ [] ++ [], s', (timeLeft env s + 999999) / 1000000, ?_, hctx.trans hs⟩
  unfold remainingDurationMs
  rw [Run.bind_eq, Run.andThen_ok hremaining, if_neg htime]
  rfl

/-- What a port answers a call, and what passes every check of the answer. -/
structure AnswersWith (env : Env) (t : ToolCall) (q : ToolCallRequest) (raw : RawToolResult) (result : ToolResultEnvelope)
    (policy : ResultPolicy) : Prop where
  port      : ∀ calls, env.port calls q = .returns raw
  sink      : ∀ m, env.measurementSink m = .ok ()
  measured  : ∀ outcome n, ToolExecutionMeasurement.check ⟨q, outcome, n⟩ = .ok ()
  request   : validateRequest q t.contract = .ok ()
  structured : validateResultStructure (.returns raw) q = .ok result
  contract  : validateResult result t.contract = .ok ()
  hashed    : validateResultHash result = .ok ()
  present   : ¬ (policy.required ∧ result.presence = .empty ∧ !policy.emptyIsValid)

section Answered

variable {t : ToolCall} {q : ToolCallRequest} {raw : RawToolResult} {result : ToolResultEnvelope} {policy : ResultPolicy}

theorem callTools_reaches (ha : AnswersWith env t q raw result policy) : Reaches c (callTools env q) (.returns raw) c := by
  have hport : Reaches c (callPort env q) (.returns raw) c := by
    intro s hs
    unfold callPort
    rw [Run.bind_eq, Run.look_andThen, ha.port s.world.calls]
    exact ⟨_, _, rfl, hs⟩
  have hattempt : Reaches c (Run.attempt (callPort env q)) (.ok (.returns raw)) c := by
    intro s hs
    obtain ⟨w, s', hrun, hs'⟩ := hport s hs
    refine ⟨w, s', ?_, hs'⟩
    unfold Run.attempt
    rw [hrun]
  unfold callTools
  split
  · intro s hs
    obtain ⟨w, s₁, hclock, hs₁⟩ : ∃ w s₁, readClock env s = ⟨w, s₁, .ok (env.clock s.world.readings)⟩ ∧ s₁.ctx = c :=
      ⟨_, _, rfl, hs⟩
    obtain ⟨w', s₂, hrun, hs₂⟩ := hattempt s₁ hs₁
    obtain ⟨w'', s₃, hclock', hs₃⟩ : ∃ w'' s₃, readClock env s₂ = ⟨w'', s₃, .ok (env.clock s₂.world.readings)⟩ ∧
        s₃.ctx = c := ⟨_, _, rfl, hs₂⟩
    simp only [Run.bind_eq]
    rw [Run.andThen_ok hclock, Run.andThen_ok hrun, Run.andThen_ok hclock', ha.measured]
    rw [show Run.ofExcept (Except.ok () : Except Exn Unit) = Run.done () from rfl, Run.andThen_done, ha.sink]
    exact ⟨_, _, rfl, hs₃⟩
  · exact hport

/-- The snapshot an accepted result is reported with: the one it names, or the one that is put. -/
def storedRef (env : Env) (result : ToolResultEnvelope) : Run St Exn (Option String) :=
  match result.snapshotRef with
  | some ref => Run.done (some ref)
  | none     => do
    let ref ← putSnapshot env result.value result.classification
    Run.done (ref.map (·.snapshotId))

theorem storedRef_reaches (hsnapshots : env.snapshots = none) (result : ToolResultEnvelope) :
    ∃ stored, Reaches c (storedRef env result) stored c := by
  unfold storedRef
  cases result.snapshotRef with
  | some ref => exact ⟨some ref, Reaches.done _⟩
  | none     => exact ⟨none, Reaches.bind (putSnapshot_reaches hsnapshots _ _) (Reaches.done _)⟩

theorem performCall_reaches (h : InTime env c) (hsnapshots : env.snapshots = none) {principal : ExecutionPrincipal}
    (ha : AnswersWith env t (t.request c principal) raw result policy) (hvalues : t.values.isJson = true)
    (hbool : ∀ items, result.value ≠ .list items) :
    Reaches c (performCall env t principal policy) (result.toValue
      ("prov:" ++ t.invocationId ++ ":" ++ String.ofList ((result.resultHash.toList.take 19).drop 7))) c := by
  obtain ⟨hash, hhash⟩ := valueHash_ok hvalues
  have hstarted : Reaches c (toolStarted env t hash none) () c :=
    emit_reaches _ (by simp [ToolCall.base, fieldsJson, Value.isJson, optionalStr_isJson, itemsJson_texts])
  have hcompleted : ∀ ref, Reaches c (toolCompleted env t result ref) () c := fun ref =>
    emit_reaches _ (by simp [ToolCall.base, fieldsJson, Value.isJson, optionalStr_isJson, ofJson_isJson])
  have haccept : Reaches c (acceptResult env t result) (result.toValue
      ("prov:" ++ t.invocationId ++ ":" ++ String.ofList ((result.resultHash.toList.take 19).drop 7))) c := by
    unfold acceptResult
    obtain ⟨stored, hstored⟩ := @storedRef_reaches _ env c hsnapshots result
    exact Reaches.bind hstored (Reaches.bind (hcompleted stored) (Reaches.bind
      (onList_reaches (fun items hv => absurd hv (hbool items))) (Reaches.done _)))
  have hchecked : ∀ n, Reaches c (checkedCall env t (t.request c principal) n policy) result c := by
    intro n
    have hcall : Reaches c (executeWithTimeout env (t.request c principal) n) (.returns raw) c :=
      (callTools_reaches ha).handle
    refine Reaches.bind (Reaches.ofExcept ha.request) (Reaches.bind hcall (Reaches.bind (Reaches.ofExcept ha.structured)
      (Reaches.bind (Reaches.ofExcept ha.contract) (Reaches.bind (Reaches.ofExcept ha.hashed) ?_))))
    rw [if_neg ha.present]
    exact Reaches.bind (checkDeadline_reaches h) (Reaches.done _)
  have hrest : Reaches c (do
      let ctx ← getCtx
      let request := t.request ctx principal
      let remaining ← remainingDurationMs env
      let result ← Run.handle (checkedCall env t request (min t.contract.timeoutMs remaining) policy)
        (reportFailure env t (remaining ≤ t.contract.timeoutMs))
      acceptResult env t result) (result.toValue
        ("prov:" ++ t.invocationId ++ ":" ++ String.ofList ((result.resultHash.toList.take 19).drop 7))) c := by
    refine Reaches.bind Reaches.getCtx (Run.reaches_after (remainingDurationMs_reaches h) (fun n => ?_))
    exact Reaches.bind (hchecked _).handle haccept
  unfold performCall
  exact Reaches.bind (Reaches.ofExcept hhash) (Reaches.bind (putSnapshot_reaches hsnapshots _ _)
    (Reaches.bind hstarted hrest))

/-- The whole READ, once it is resolved and its arguments are there. -/
theorem executeRead_reaches {nodeId toolRef : String} {names : List String} {required : RequiredTool}
    {contract : ToolContract} {principal : ExecutionPrincipal} {decision : AuthorizationDecision}
    {arguments : Run St Exn (List (String × ValueEnvelope))} {args : List (String × ValueEnvelope)} (h : InTime env c)
    (hresolve : resolveRead env c toolRef names = .ok (required, contract, principal, decision))
    (hargs : Reaches c arguments args c) (hroom : c.resources.toolCalls < c.skill.limits.toolCalls)
    (hsnapshots : env.snapshots = none) {c' : Context}
    (hc' : c' = { c with resources := { c.resources with toolCalls := c.resources.toolCalls + 1 },
                         invocationCounter := c.invocationCounter + 1 })
    (ht : t = ⟨nodeId, invocationId (c.invocationCounter + 1), required, contract, decision.decisionId, args⟩)
    (ha : AnswersWith env t (t.request c' principal) raw result policy) (hvalues : t.values.isJson = true)
    (hlist : ∀ items, result.value ≠ .list items) :
    Reaches c (executeRead env nodeId toolRef names arguments policy) (result.toValue
      ("prov:" ++ t.invocationId ++ ":" ++ String.ofList ((result.resultHash.toList.take 19).drop 7))) c' := by
  have hcall := performCall_reaches (c := c') (by rw [hc']; exact h) hsnapshots ha hvalues hlist
  subst hc' ht
  unfold executeRead
  refine Reaches.bind Reaches.getCtx (Reaches.bind (Reaches.ofExcept hresolve) (Reaches.bind hargs ?_))
  refine Reaches.bind (Reaches.bind (checkDeadline_reaches h) (consume_reaches hroom)) ?_
  exact Reaches.bind (Reaches.modifyCtx _) (Reaches.bind Reaches.getCtx hcall)

end Answered

/-! ## A loop over literals -/

theorem aroundStatement_reaches {s : Statement} {run : Run St Exn Unit} (h : InTime env c)
    (hrun : Reaches { c with currentNodeId := some s.nodeId } run () c') :
    Reaches c (aroundStatement env s run) () { c' with currentNodeId := c.currentNodeId } := by
  have hpayload : fieldsJson [("node_id", .str s.nodeId), ("kind", .str s.kind)] = true := rfl
  refine Reaches.bind (checkDeadline_reaches h) (Reaches.bind Reaches.getCtx ?_)
  refine Reaches.bind (Reaches.modifyCtx _) (Reaches.bind (emit_reaches _ hpayload) (Reaches.bind hrun ?_))
  exact Reaches.bind (emit_reaches _ hpayload) (Reaches.modifyCtx _)

theorem popFrame_reaches {f g : Dict ValueEnvelope} {fs gs : List (Dict ValueEnvelope)} (hf : c.frames.below = f :: fs)
    (hg : c.checkFrames.below = g :: gs) :
    Reaches c popFrame () { c with frames := ⟨f, fs⟩, checkFrames := ⟨g, gs⟩ } := by
  refine Reaches.bind Reaches.getCtx ?_
  rw [hf, hg]
  exact Reaches.modifyCtx _

/-- The context after `k` passes of a loop that runs one literal CHECK. -/
def checkedPasses (c : Context) (s : CheckStatement) (truth : Bool) (k : Nat) : Context :=
  { c with checks := c.checks ++ List.replicate k (literalCheck s truth),
           resources := { c.resources with loopIterations := c.resources.loopIterations + k } }

theorem checkedPasses_succ (c : Context) (s : CheckStatement) (truth : Bool) (k : Nat) :
    checkedPasses (checkedPasses c s truth 1) s truth k = checkedPasses c s truth (k + 1) := by
  unfold checkedPasses
  simp only [List.append_assoc, List.replicate_one, List.singleton_append, ← List.replicate_succ]
  congr 2
  omega

section Loop

variable {s : CheckStatement} {n iterator : String} {truth : Bool} (hs : s.condition = .literal n (.bool truth) BOOL)
  (hiterator : s.resultSymbolId ≠ iterator)

/-- What keeps such a loop going in a context. -/
structure LoopReady (env : Env) (c : Context) (s : CheckStatement) (iterator : String) (k : Nat) : Prop where
  inTime    : InTime env c
  room      : c.resources.loopIterations + k ≤ c.skill.limits.loopIterations
  iterator  : c.isBound iterator = false
  result    : c.isBound s.resultSymbolId = false

/-- The context inside a pass. -/
def insidePass (c : Context) (iterator : String) (item : ValueEnvelope) : Context :=
  { c with resources := { c.resources with loopIterations := c.resources.loopIterations + 1 },
           frames := c.frames.push.bind iterator item, checkFrames := c.checkFrames.push }

theorem insidePass_isBound {c : Context} {symbolId iterator : String} {item : ValueEnvelope}
    (h : c.isBound symbolId = false) (hne : symbolId ≠ iterator) :
    (insidePass c iterator item).isBound symbolId = false := by
  have htop : (Dict.empty.set iterator item).contains symbolId = false := by
    unfold Dict.contains
    rw [Dict.get?_set_other _ _ hne]
    rfl
  unfold Context.isBound at h ⊢
  simp only [Bool.or_eq_false_iff] at h
  obtain ⟨⟨hvalues, hframes⟩, hchecks⟩ := h
  have hframes' : (insidePass c iterator item).frames.all.any (·.contains symbolId) = false := by
    simp only [insidePass, Frames.all, Frames.push, Frames.bind, List.any_cons]
    rw [htop]
    exact hframes
  have hchecks' : (insidePass c iterator item).checkFrames.all.any (·.contains symbolId) = false := hchecks
  rw [hframes', hchecks', Bool.or_false, Bool.or_false, Bool.or_eq_false_iff]
  exact hvalues

include hs hiterator

theorem loopPass_check_reaches {collection : ValueEnvelope} {value : Value} (h : LoopReady env c s iterator 1) :
    Reaches c (loopPass env iterator collection (executeBlock env [.check s]) value) () (checkedPasses c s truth 1) := by
  let item : ValueEnvelope :=
    { collection with value, typeInfo := collection.typeInfo.bind (·.item), presence := .present }
  let inside := insidePass c iterator item
  let ended : Context :=
    { inside with checks := c.checks ++ [literalCheck s truth],
                  checkFrames := inside.checkFrames.bind s.resultSymbolId (literalCheckResult s truth) }
  have hbody : Reaches inside (executeBlock env [.check s]) () ended := by
    have hcheck : Reaches { inside with currentNodeId := some s.nodeId } (executeCheck env s) ()
        { ended with currentNodeId := some s.nodeId } :=
      executeCheck_literal_reaches hs h.inTime (insidePass_isBound h.result hiterator)
    have haround : Reaches inside (aroundStatement env (.check s) (executeCheck env s)) () ended :=
      aroundStatement_reaches (c := inside) (s := .check s) h.inTime hcheck
    unfold executeBlock executeBlock executeStatement
    exact Reaches.bind haround (Reaches.done ())
  have hpop : Reaches ended popFrame () (checkedPasses c s truth 1) := popFrame_reaches rfl rfl
  unfold loopPass
  refine Reaches.bind (Reaches.bind (checkDeadline_reaches h.inTime) (consume_reaches (by have := h.room; omega))) ?_
  refine Reaches.bind (Reaches.modifyCtx _) (Reaches.lastly (Reaches.bind (bindOnce_reaches ?_) hbody) hpop)
  exact h.iterator

/-- **A loop over literals records its CHECK once for each item.** -/
theorem forEach_check_reaches (collection : ValueEnvelope) : ∀ (values : List Value) {c : Context},
    LoopReady env c s iterator values.length →
    Reaches c (Run.forEach (loopPass env iterator collection (executeBlock env [.check s])) values) ()
      (checkedPasses c s truth values.length)
  | [], c, _           => by
    have hc : checkedPasses c s truth 0 = c := by simp [checkedPasses]
    rw [List.length_nil, hc]
    exact Reaches.done ()
  | value :: values, c, h => by
    have hroom := h.room
    rw [List.length_cons] at hroom
    have hone : LoopReady env c s iterator 1 := ⟨h.inTime, by omega, h.iterator, h.result⟩
    have hready : LoopReady env (checkedPasses c s truth 1) s iterator values.length := by
      refine ⟨h.inTime, ?_, h.iterator, h.result⟩
      show c.resources.loopIterations + 1 + values.length ≤ c.skill.limits.loopIterations
      omega
    have hrest := forEach_check_reaches collection values hready
    rw [checkedPasses_succ] at hrest
    exact Reaches.bind (loopPass_check_reaches hs hiterator hone) hrest

/-- The same of the whole statement. -/
theorem foreach_check_reaches {nodeId m : String} {values : List Value} {t : TypeRef} {maxIterations : Int}
    (h : LoopReady env c s iterator values.length) (hdepth : c.foreachDepth < MAX_FOREACH_NESTING_DEPTH)
    (hsize : values.length ≤ c.skill.limits.collectionSize) (hmax : values.length ≤ maxIterations) :
    Reaches c (executeBlock env [.foreach nodeId iterator (.literal m (.list values) t) maxIterations [.check s]]) ()
      (checkedPasses c s truth values.length) := by
  let started : Context := { c with currentNodeId := some nodeId, foreachDepth := c.foreachDepth + 1 }
  have hready : LoopReady env started s iterator values.length := ⟨h.inTime, h.room, h.iterator, h.result⟩
  have hforeach : Reaches started (executeForeachBody env nodeId iterator (.literal m (.list values) t) maxIterations
      (executeBlock env [.check s])) () (checkedPasses started s truth values.length) := by
    unfold executeForeachBody
    have hliteral : Reaches started (evaluate env (.literal m (.list values) t))
        (.ofComplete (.list values) t .publicData []) started :=
      evaluate_literal_reaches m h.inTime (fun items hv => by cases hv; exact hsize)
    refine Reaches.bind hliteral (Reaches.bind (Reaches.ofExcept (a := values.length) rfl) ?_)
    rw [if_neg (not_lt.2 hmax)]
    exact Reaches.bind (Reaches.ofExcept (a := values) rfl) (forEach_check_reaches hs hiterator _ values hready)
  have hend : Reaches (checkedPasses started s truth values.length)
      (modifyCtx (fun c => { c with foreachDepth := c.foreachDepth - 1 })) ()
      { checkedPasses c s truth values.length with currentNodeId := some nodeId } := Reaches.modifyCtx _
  have hstatement : Reaches { c with currentNodeId := some nodeId }
      (executeForeach env nodeId iterator (.literal m (.list values) t) maxIterations (executeBlock env [.check s])) ()
      { checkedPasses c s truth values.length with currentNodeId := some nodeId } := by
    unfold executeForeach
    refine Reaches.bind Reaches.getCtx ?_
    rw [if_neg (not_le.2 hdepth)]
    exact Reaches.bind (Reaches.modifyCtx _) (Reaches.lastly hforeach hend)
  have haround := aroundStatement_reaches (s := .foreach nodeId iterator (.literal m (.list values) t) maxIterations
    [.check s]) h.inTime hstatement
  rw [executeBlock, executeBlock, executeStatement]
  exact Reaches.bind haround (Reaches.done ())

end Loop
end Reaches
end Nsl
