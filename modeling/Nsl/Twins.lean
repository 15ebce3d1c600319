import Nsl.Base.Mirror
import Nsl.EventTrace
import Nsl.Reaches
/-!
# Twins — one skill executed twice, in other surroundings

Two executions of a skill see the same contracts, operators and rules of authorization. Their clocks, their records,
their stores of snapshots and their measurements differ, and so may the requests in what the skill does not declare. Where
the tools answer the same calls alike and no deadline is near, each part of the interpreter ends the same in both.
-/
namespace Nsl

open Stateful (Run)
open Stateful.Run (Mirrors Agree)

section Twins

variable [Platform]

/-! ## The events of rows -/

/-- The two pure steps end with values, or with one exception. -/
abbrev SameEnd {α β : Type} (x : Except Exn α) (y : Except Exn β) : Prop := Agree (fun _ _ => True) (fun _ => True) x y

omit [Platform] in
theorem sameEnd_map {α β γ δ : Type} {x : Except Exn α} {y : Except Exn β} (h : SameEnd x y) (f : α → γ) (g : β → δ) :
    SameEnd (x.map f) (y.map g) := by
  cases h with
  | ok h    => exact .ok trivial
  | error e => exact .error trivial

omit [Platform] in
theorem SameEnd.trans {α β γ : Type} {x : Except Exn α} {y : Except Exn β} {z : Except Exn γ} (h : SameEnd x y)
    (h' : SameEnd y z) : SameEnd x z := by
  cases h with
  | ok _    => cases h' with | ok _ => exact .ok trivial
  | error e => cases h' with | error _ => exact .error trivial

omit [Platform] in
theorem SameEnd.symm {α β : Type} {x : Except Exn α} {y : Except Exn β} (h : SameEnd x y) : SameEnd y x := by
  cases h with
  | ok _    => exact .ok trivial
  | error e => exact .error trivial

omit [Platform] in
/-- Fields JSON takes decide nothing beside one other. -/
theorem toJsonFields_one {k : String} {v : Value} {post : List (String × Value)} (hpost : fieldsJson post = true) :
    ∀ {pre : List (String × Value)}, fieldsJson pre = true → SameEnd (toJsonFields (pre ++ (k, v) :: post)) (toJson v) := by
  intro pre hpre
  induction pre with
  | nil           =>
    have hrest := toJsonFields_isOk post
    rw [hpost] at hrest
    show SameEnd (toJsonFields ((k, v) :: post)) (toJson v)
    unfold toJsonFields
    cases toJson v with
    | error e => exact .error trivial
    | ok j    =>
      cases hr : toJsonFields post with
      | error e  => rw [hr] at hrest; cases hrest
      | ok rest  => exact .ok trivial
  | cons entry pre ih =>
    obtain ⟨k', w⟩ := entry
    simp only [fieldsJson, Bool.and_eq_true] at hpre
    have hw := toJson_isOk w
    rw [hpre.1] at hw
    have hsame : SameEnd (toJsonFields (pre ++ (k, v) :: post)) (toJson v) := ih hpre.2
    rw [List.cons_append]
    unfold toJsonFields
    cases hjson : toJson w with
    | error e => rw [hjson] at hw; cases hw
    | ok j    =>
      generalize toJsonFields (pre ++ (k, v) :: post) = x at hsame ⊢
      generalize toJson v = y at hsame ⊢
      cases hsame with
      | ok _    => exact .ok trivial
      | error e => exact .error trivial

omit [Platform] in
theorem toJson_ok {v : Value} (h : v.isJson = true) : ∃ j, toJson v = .ok j := by
  have hok := toJson_isOk v
  rw [h] at hok
  cases hj : toJson v with
  | ok j    => exact ⟨j, rfl⟩
  | error e => rw [hj] at hok; cases hok

/-- What an event of a row says of its snapshot. -/
def rowSnapshot : Option SnapshotRef → List (String × Value)
  | none     => []
  | some ref => [("snapshot_ref", .str ref.snapshotId), ("snapshot_hash", .str ref.valueHash),
      ("snapshot_classification", .str (StrEnum.value ref.classification))]

/-- The payload of a row, where the policy shows it. -/
theorem safePayload_shown {policy : DataHandlingPolicy} {c : DataClassification} (hc : c.allows policy.maxTraceClassification = true)
    (node plain metadata : Value) (ref : Option SnapshotRef) :
    safePayload policy (.dict [("node_id", node), ("values", plain)]) c ref metadata =
      .ok (.dict ([("node_id", encodeValue (redactData Platform.word node))] ++
        ("values", encodeValue (redactData Platform.word plain)) :: rowSnapshot ref)) := by
  have hplain : plainKeys ["node_id", "values"] = true := by decide +kernel
  obtain ⟨hnode, hnode', -, hrest⟩ := plainKeys_cons hplain
  obtain ⟨hvalues, hvalues', -, -⟩ := plainKeys_cons hrest
  have hredacted : redactData Platform.word (.dict [("node_id", node), ("values", plain)]) =
      .dict [("node_id", redactData Platform.word node), ("values", redactData Platform.word plain)] := by
    simp [redactData, redactFields, hnode, hnode', hvalues, hvalues', Dict.setEntry]
  unfold safePayload redactedPayload
  rw [if_pos hc, hredacted]
  cases ref with
  | none     => rfl
  | some ref => rfl

/-- And where it does not, JSON takes what there is. -/
theorem safePayload_hidden {policy : DataHandlingPolicy} {c : DataClassification} (hc : ¬ c.allows policy.maxTraceClassification = true)
    (payload : Value) {metadata : Value} (hmetadata : metadata.isJson = true) (ref : Option SnapshotRef) {v : Value}
    (h : safePayload policy payload c ref metadata = .ok v) : v.isJson = true := by
  have hbase : (encodeValue (redactData Platform.word metadata)).isJson = true :=
    encodeValue_isJson _ (redactData_isJson _ _ hmetadata)
  unfold safePayload redactedPayload at h
  rw [if_neg hc] at h
  cases hhash : valueHash payload with
  | error e   => rw [hhash] at h; cases h
  | ok hash   =>
    rw [hhash] at h
    cases h
    have hupdated := updateDict_isJson (k := "value_hash") (w := .str hash)
      (updateDict_isJson (k := "redacted") (w := .bool true) hbase rfl) rfl
    cases ref with
    | none     => exact hupdated
    | some ref => exact updateDict_isJson (updateDict_isJson (updateDict_isJson hupdated rfl) rfl) rfl

/-- The hash of an event ends as its payload does. -/
theorem eventHash_sameEnd (r : Recorder) (eventType : String) (v : Value) (c : DataClassification) (sequence : Nat)
    (previous : Option String) : SameEnd (valueHash (eventData r eventType v c sequence previous)) (toJson (encodeValue v)) := by
  have hbefore : fieldsJson (encodeFields
      [("schema_version", .str AUDIT_SCHEMA_VERSION), ("execution_id", .str r.executionId), ("sequence", .int sequence),
       ("event_type", .str eventType), ("skill_id", .str r.skillId), ("skill_version", .str r.skillVersion),
       ("semantic_hash", .str r.semanticHash), ("runtime_version", .str RUNTIME_VERSION),
       ("tenant_id", optionalStr r.tenantId), ("subject_id", optionalStr r.subjectId),
       ("auth_context_ref", optionalStr r.authContextRef), ("retention_days", .int r.policy.auditRetentionDays),
       ("classification", .str (StrEnum.value c))]) = true :=
    encodeFields_json _ (by simp [fieldsJson, Value.isJson, optionalStr_isJson])
  have hafter : fieldsJson [("previous_event_hash", encodeValue (optionalStr previous))] = true := by
    simp [fieldsJson, encodeValue_isJson, optionalStr_isJson]
  have hone := toJsonFields_one (k := "payload") (v := encodeValue v) hafter hbefore
  have hmap := sameEnd_map (sameEnd_map (sameEnd_map hone Json.obj id) Json.dumps id) sha256Of id
  refine SameEnd.trans (y := (((toJson (encodeValue v)).map id).map id).map id) hmap ?_
  cases toJson (encodeValue v) with
  | ok j    => exact .ok trivial
  | error e => exact .error trivial

/-- Where JSON takes the payload, the next event is there. -/
theorem nextEvent_sameEnd {r r' : Recorder} {w w' : World} {eventType : String} {payload metadata : Value}
    {c : DataClassification} {ref ref' : Option SnapshotRef}
    (hsafe : SameEnd (safePayload r.policy payload c ref metadata) (safePayload r'.policy payload c ref' metadata))
    (hends : ∀ v v', safePayload r.policy payload c ref metadata = .ok v →
      safePayload r'.policy payload c ref' metadata = .ok v' → SameEnd (toJson (encodeValue v)) (toJson (encodeValue v'))) :
    SameEnd (nextEvent r w eventType payload c ref metadata) (nextEvent r' w' eventType payload c ref' metadata) := by
  unfold nextEvent
  cases hv : safePayload r.policy payload c ref metadata with
  | error e =>
    rw [hv] at hsafe
    generalize safePayload r'.policy payload c ref' metadata = y at hsafe ⊢
    cases hsafe
    exact .error trivial
  | ok v    =>
    cases hv' : safePayload r'.policy payload c ref' metadata with
    | error e => rw [hv, hv'] at hsafe; cases hsafe
    | ok v'   =>
      have hleft := eventHash_sameEnd r eventType v c (w.sequence + 1) w.previousEventHash
      have hright := eventHash_sameEnd r' eventType v' c (w'.sequence + 1) w'.previousEventHash
      have hhash := (hleft.trans (hends v v' hv hv')).trans hright.symm
      show SameEnd (valueHash (eventData r eventType v c (w.sequence + 1) w.previousEventHash) >>= _)
        (valueHash (eventData r' eventType v' c (w'.sequence + 1) w'.previousEventHash) >>= _)
      generalize valueHash (eventData r eventType v c (w.sequence + 1) w.previousEventHash) = x at hhash ⊢
      generalize valueHash (eventData r' eventType v' c (w'.sequence + 1) w'.previousEventHash) = y at hhash ⊢
      cases hhash with
      | ok _    => exact .ok trivial
      | error e => exact .error trivial

/-- **The event of a row ends the same in every record with the same policy.** -/
theorem nextEvent_row {r r' : Recorder} (hpolicy : r'.policy = r.policy) (w w' : World) (eventType : String)
    {node metadata : Value} (hnode : node.isJson = true) (hmetadata : metadata.isJson = true) (plain : Value)
    (c : DataClassification) (ref ref' : Option SnapshotRef) :
    SameEnd (nextEvent r w eventType (.dict [("node_id", node), ("values", plain)]) c ref metadata)
      (nextEvent r' w' eventType (.dict [("node_id", node), ("values", plain)]) c ref' metadata) := by
  refine nextEvent_sameEnd ?_ (fun v v' hv hv' => ?_)
  · rw [hpolicy]
    unfold safePayload
    cases redactedPayload r.policy (.dict [("node_id", node), ("values", plain)]) c metadata with
    | ok base => exact .ok trivial
    | error e => exact .error trivial
  · rw [hpolicy] at hv'
    by_cases hc : c.allows r.policy.maxTraceClassification = true
    · rw [safePayload_shown hc] at hv hv'
      cases hv
      cases hv'
      have hbefore : fieldsJson (encodeFields [("node_id", encodeValue (redactData Platform.word node))]) = true :=
        encodeFields_json _ (by simp [fieldsJson, encodeValue_isJson, redactData_isJson, hnode])
      have hone : ∀ ref : Option SnapshotRef, SameEnd
          (toJson (encodeValue (.dict ([("node_id", encodeValue (redactData Platform.word node))] ++
            ("values", encodeValue (redactData Platform.word plain)) :: rowSnapshot ref))))
          ((toJson (encodeValue (encodeValue (redactData Platform.word plain)))).map id) := by
        intro ref
        have hafter : fieldsJson (encodeFields (rowSnapshot ref)) = true := by
          cases ref <;> rfl
        exact sameEnd_map (toJsonFields_one hafter hbefore) Json.obj id
      exact (hone ref).trans (hone ref').symm
    · obtain ⟨j, hj⟩ := toJson_ok (encodeValue_isJson v (safePayload_hidden hc _ hmetadata ref hv))
      obtain ⟨j', hj'⟩ := toJson_ok (encodeValue_isJson v' (safePayload_hidden hc _ hmetadata ref' hv'))
      rw [hj, hj']
      exact .ok trivial

/-! ## What differs -/

/-- The same call, of another execution. -/
def ToolCallRequest.Same (q q' : ToolCallRequest) : Prop :=
  Text.isBlank q.executionId = false ∧ ∃ id, Text.isBlank id = false ∧ q' = { q with executionId := id }

/-- What the engine takes for a reference to a snapshot. -/
def isRef : Option (Option String) → Bool
  | none     => false
  | some ref => ref ≠ some ""

/-- The same answer, but for the reference to a snapshot. -/
inductive SameAnswer : PortAnswer → PortAnswer → Prop
  | returns (r : RawToolResult) (ref : Option (Option String)) (href : isRef ref = isRef r.snapshotRef) :
      SameAnswer (.returns r) (.returns { r with snapshotRef := ref })
  | other : SameAnswer .returnsOther .returnsOther
  | raises (e : Exn) : SameAnswer (.raises e) (.raises e)

/-- The exception of a call that timed out, or what the engine takes for one. -/
def isTimeout : Exn → Bool
  | .timeout | .cancelled true => true
  | .toolExecution code _      => code = "TOOL_TIMEOUT"
  | _                          => false

omit [Platform] in
theorem SameAnswer.refl : ∀ (a : PortAnswer), SameAnswer a a
  | .returns r    => .returns r r.snapshotRef rfl
  | .returnsOther => .other
  | .raises e     => .raises e

/-- The same call with the same answer. -/
def AlikeCall (call call' : ToolCallRequest × PortAnswer) : Prop := call.1.Same call'.1 ∧ SameAnswer call.2 call'.2

/-- The results differ in the reference to a snapshot at most. -/
def SameResult (r r' : ToolResultEnvelope) : Prop := ∃ ref, r' = { r with snapshotRef := ref }

/-- A context of another execution. -/
def Context.moved (c : Context) (startedNs : Int) (request : ExecutionRequest) : Context := { c with startedNs, request }

/-- **Two executions of one skill**, with the calls up to which their ports are asked to agree. -/
structure Twins where
  env        : Env
  skill      : SkillObject
  request    : ExecutionRequest
  startedNs  : Int
  clock'     : Nat → Int
  port'      : ToolPort
  sink'      : ToolExecutionMeasurement → Except Exn Unit
  snapshots' : Option SnapshotStore
  request'   : ExecutionRequest
  startedNs' : Int
  upTo       : List (ToolCallRequest × PortAnswer) → Prop
  recorder   : env.recorder = some (Recorder.make skill request)
  measured   : ∀ m, env.measurementSink m = .ok () ∧ sink' m = .ok ()
  closed     : ∀ xs ys, xs <+: ys → upTo ys → upTo xs
  ports      : ∀ calls calls' q q', List.Forall₂ AlikeCall calls calls' → q.Same q' →
    upTo (calls ++ [(q, env.port calls q)]) →
      SameAnswer (env.port calls q) (port' calls' q') ∧ ∀ e, env.port calls q = .raises e → isTimeout e = false
  principal  : request'.principal = request.principal
  policy     : request'.dataPolicy = request.dataPolicy
  time       : ∀ n, 0 < (skill.limits.durationMs : Int) * 1000000 - (env.clock n - startedNs) ∧
    0 < (skill.limits.durationMs : Int) * 1000000 - (clock' n - startedNs')

/-- The surroundings of the other execution. -/
def Twins.env' (W : Twins) : Env :=
  { W.env with clock := W.clock', port := W.port', measurementSink := W.sink', recorder := some (Recorder.make W.skill W.request'),
               snapshots := W.snapshots' }

/-- The states of both, at one point. -/
structure Twins.Alike (W : Twins) (s s' : St) : Prop where
  ctx     : s'.ctx = s.ctx.moved W.startedNs' W.request'
  skill   : s.ctx.skill = W.skill
  request : s.ctx.request = W.request
  started : s.ctx.startedNs = W.startedNs
  calls   : List.Forall₂ AlikeCall s.world.calls s'.world.calls

/-- The calls made before are still there. -/
def CallsGrow (s x : St) : Prop := s.world.calls <+: x.world.calls

instance : IsPreorder St CallsGrow where
  refl _ := List.prefix_rfl
  trans _ _ _ h h' := h.trans h'

/-- The run of the other execution goes as this one. -/
abbrev Twins.Mirror (W : Twins) {α β : Type} (m : Run St Exn α) (m' : Run St Exn β) (Q : α → β → Prop)
    (E : Exn → Prop := fun _ => True) : Prop :=
  Mirrors W.Alike CallsGrow (fun s => W.upTo s.world.calls) m m' Q E

namespace Twins

variable {α β γ δ : Type} {Q : α → β → Prop} {T : γ → δ → Prop} {E : Exn → Prop}

/-! ## Rules -/

theorem closedState (W : Twins) : ∀ s x, CallsGrow s x → W.upTo x.world.calls → W.upTo s.world.calls :=
  fun _ _ h hx => W.closed _ _ h hx

variable {W : Twins}

/-- The rest starts with one value in both. -/
theorem andThen {m m' : Run St Exn α} {f : α → Run St Exn γ} {f' : α → Run St Exn δ} (hm : W.Mirror m m' Eq E)
    (hf : ∀ a, W.Mirror (f a) (f' a) T E) : W.Mirror (m >>= f) (m' >>= f') T E :=
  hm.andThen_total W.closedState (fun a => ⟨a, rfl⟩) (fun a _ hab => hab ▸ hf a)

/-- The rest starts with values that `Q` relates, which tell more than one of the two. -/
theorem andThenGrowing {m : Run St Exn α} {m' : Run St Exn β} {f : α → Run St Exn γ} {f' : β → Run St Exn δ}
    (hm : W.Mirror m m' Q E) (hgrows : ∀ a s, CallsGrow s (f a s).final) (hf : ∀ a b, Q a b → W.Mirror (f a) (f' b) T E) :
    W.Mirror (m >>= f) (m' >>= f') T E := hm.andThen W.closedState hgrows hf

/-- The rest starts with values that `Q` relates. -/
theorem andThenWith {m : Run St Exn α} {m' : Run St Exn β} {f : α → Run St Exn γ} {f' : β → Run St Exn δ}
    (hm : W.Mirror m m' Q E) (hQ : ∀ a, ∃ b, Q a b) (hf : ∀ a b, Q a b → W.Mirror (f a) (f' b) T E) :
    W.Mirror (m >>= f) (m' >>= f') T E := hm.andThen_total W.closedState hQ hf

/-- The rest starts with values of which nothing is known. -/
theorem after [Nonempty β] {m : Run St Exn α} {m' : Run St Exn β} {f : α → Run St Exn γ} {f' : β → Run St Exn δ}
    (hm : W.Mirror m m' (fun _ _ => True) E) (hf : ∀ a b, W.Mirror (f a) (f' b) T E) : W.Mirror (m >>= f) (m' >>= f') T E :=
  andThenWith hm (fun _ => ⟨Classical.arbitrary β, trivial⟩) (fun a b _ => hf a b)

theorem ofExcept {x : Except Exn α} (h : ∀ e, x = .error e → E e) : W.Mirror (Run.ofExcept x) (Run.ofExcept x) Eq E :=
  Run.mirrors_ofExcept (Run.agree_self h)

theorem pure (x : Except Exn α) : W.Mirror (Run.ofExcept x) (Run.ofExcept x) Eq := ofExcept (fun _ _ => trivial)

theorem done (a : α) : W.Mirror (Run.done a) (Run.done a) Eq E := Run.mirrors_done rfl

theorem fail (e : Exn) : W.Mirror (Run.fail e : Run St Exn α) (Run.fail e : Run St Exn β) Q := Run.mirrors_fail trivial

theorem getCtx_andThen {f : Context → Run St Exn γ} {f' : Context → Run St Exn δ}
    (h : ∀ c, W.Mirror (f c) (f' (c.moved W.startedNs' W.request')) T E) : W.Mirror (getCtx >>= f) (getCtx >>= f') T E :=
  andThenWith (Q := fun c c' => c' = c.moved W.startedNs' W.request') (Run.mirrors_look (fun _ _ hs => hs.ctx))
    (fun _ => ⟨_, rfl⟩) (fun c _ hc => hc ▸ h c)

/-- A write of the context that leaves what differs. -/
theorem modifyCtx {f : Context → Context} (hf : ∀ c t r, f (c.moved t r) = (f c).moved t r)
    (hkeep : ∀ c, (f c).skill = c.skill ∧ (f c).request = c.request ∧ (f c).startedNs = c.startedNs) :
    W.Mirror (Nsl.modifyCtx f) (Nsl.modifyCtx f) Eq E :=
  Run.mirrors_write (fun _ => List.prefix_rfl)
    (fun _ _ hs => ⟨(congrArg f hs.ctx).trans (hf _ _ _), (hkeep _).1.trans hs.skill, (hkeep _).2.1.trans hs.request,
      (hkeep _).2.2.trans hs.started, hs.calls⟩)

/-- Parts that end with a value, and write neither the context nor the calls. -/
theorem aside {m : Run St Exn α} {m' : Run St Exn β}
    (hm : ∀ s, ∃ w x a, m s = ⟨w, x, .ok a⟩ ∧ x.ctx = s.ctx ∧ x.world.calls = s.world.calls)
    (hm' : ∀ s, ∃ w x b, m' s = ⟨w, x, .ok b⟩ ∧ x.ctx = s.ctx ∧ x.world.calls = s.world.calls) :
    W.Mirror m m' (fun _ _ => True) E := by
  refine ⟨fun s => ?_, fun s s' hs _ => ?_⟩
  · obtain ⟨w, x, a, hrun, -, hcalls⟩ := hm s
    rw [hrun]
    show s.world.calls <+: x.world.calls
    exact hcalls ▸ List.prefix_rfl
  · obtain ⟨w, x, a, hrun, hctx, hcalls⟩ := hm s
    obtain ⟨w', x', b, hrun', hctx', hcalls'⟩ := hm' s'
    rw [hrun, hrun']
    refine ⟨.ok trivial, ?_, ?_, ?_, ?_, ?_⟩
    · rw [hctx, hctx', hs.ctx]
    · rw [hctx, hs.skill]
    · rw [hctx, hs.request]
    · rw [hctx, hs.started]
    · rw [hcalls, hcalls']
      exact hs.calls

theorem asideUnit {m m' : Run St Exn Unit} (h : W.Mirror m m' (fun _ _ => True) E) : W.Mirror m m' Eq E :=
  h.conseq (fun _ _ _ => rfl) (fun _ he => he)

/-! ## The clock -/

theorem readClock : W.Mirror (Nsl.readClock W.env) (Nsl.readClock W.env') (fun _ _ => True) E :=
  aside (fun _ => ⟨_, _, _, rfl, rfl, rfl⟩) (fun _ => ⟨_, _, _, rfl, rfl, rfl⟩)

theorem Alike.timeLeft {s s' : St} (hs : W.Alike s s') :
    timeLeftNs W.env s = W.skill.limits.durationMs * 1000000 - (W.env.clock s.world.readings - W.startedNs) ∧
      timeLeftNs W.env' s' = W.skill.limits.durationMs * 1000000 - (W.clock' s'.world.readings - W.startedNs') := by
  unfold timeLeftNs
  rw [hs.ctx, ← hs.skill, ← hs.started]
  exact ⟨rfl, rfl⟩

theorem remainingDurationNs :
    W.Mirror (Nsl.remainingDurationNs W.env) (Nsl.remainingDurationNs W.env') (fun a b => ¬ a ≤ 0 ∧ ¬ b ≤ 0) E := by
  refine ⟨fun _ => List.prefix_rfl, fun s s' hs _ => ⟨.ok ?_, hs.ctx, hs.skill, hs.request, hs.started, hs.calls⟩⟩
  show ¬ timeLeftNs W.env s ≤ 0 ∧ ¬ timeLeftNs W.env' s' ≤ 0
  rw [hs.timeLeft.1, hs.timeLeft.2]
  exact ⟨not_le.2 (W.time _).1, not_le.2 (W.time _).2⟩

theorem checkDeadline : W.Mirror (Nsl.checkDeadline W.env) (Nsl.checkDeadline W.env') Eq E := by
  refine andThenGrowing remainingDurationNs (fun a s => ?_) (fun a b hab => ?_)
  · split <;> exact List.prefix_rfl
  · rw [if_neg hab.1, if_neg hab.2]
    exact done ()

theorem remainingDurationMs :
    W.Mirror (Nsl.remainingDurationMs W.env) (Nsl.remainingDurationMs W.env') (fun _ _ => True) E := by
  refine ⟨fun s => ?_, fun s s' hs _ => ?_⟩
  · rw [remainingDurationMs_eq]
    exact List.prefix_rfl
  · rw [remainingDurationMs_eq, remainingDurationMs_eq, hs.timeLeft.1, hs.timeLeft.2]
    rw [if_neg (not_le.2 (W.time _).1), if_neg (not_le.2 (W.time _).2)]
    exact ⟨.ok trivial, hs.ctx, hs.skill, hs.request, hs.started, hs.calls⟩

/-! ## Resources and frames -/

theorem consume {count limit : Context → Nat} {message : String} {bump : Meter → Meter}
    (hcount : ∀ c t r, count (c.moved t r) = count c) (hlimit : ∀ c t r, limit (c.moved t r) = limit c) :
    W.Mirror (Nsl.consume count limit message bump) (Nsl.consume count limit message bump) Eq := by
  refine getCtx_andThen (fun c => ?_)
  rw [hcount, hlimit]
  split
  · exact fail _
  · exact modifyCtx (fun _ _ _ => rfl) (fun _ => ⟨rfl, rfl, rfl⟩)

theorem beforeToolCall : W.Mirror (Nsl.beforeToolCall W.env) (Nsl.beforeToolCall W.env') Eq :=
  andThen checkDeadline (fun _ => consume (fun _ _ _ => rfl) (fun _ _ _ => rfl))

theorem beforeLoopIteration : W.Mirror (Nsl.beforeLoopIteration W.env) (Nsl.beforeLoopIteration W.env') Eq :=
  andThen checkDeadline (fun _ => consume (fun _ _ _ => rfl) (fun _ _ _ => rfl))

/-- A check of the context that does not look at what differs. -/
theorem require {P : Context → Prop} [DecidablePred P] {e : Exn} (hP : ∀ c t r, P (c.moved t r) ↔ P c) :
    W.Mirror (getCtx >>= fun c => if P c then Run.fail e else Run.done ())
      (getCtx >>= fun c => if P c then Run.fail e else Run.done ()) Eq := by
  refine getCtx_andThen (fun c => ?_)
  by_cases hc : P c
  · rw [if_pos hc, if_pos ((hP c _ _).2 hc)]
    exact fail e
  · rw [if_neg hc, if_neg (fun h => hc ((hP c _ _).1 h))]
    exact done ()

theorem beforeEmit : W.Mirror (Nsl.beforeEmit W.env) (Nsl.beforeEmit W.env') Eq :=
  andThen checkDeadline (fun _ => require (fun _ _ _ => Iff.rfl))

theorem recordEmit : W.Mirror Nsl.recordEmit Nsl.recordEmit Eq :=
  modifyCtx (fun _ _ _ => rfl) (fun _ => ⟨rfl, rfl, rfl⟩)

theorem checkCollection (size : Nat) : W.Mirror (Nsl.checkCollection W.env size) (Nsl.checkCollection W.env' size) Eq :=
  andThen checkDeadline (fun _ => require (fun _ _ _ => Iff.rfl))

theorem observeCollection (size : Nat) :
    W.Mirror (Nsl.observeCollection W.env size) (Nsl.observeCollection W.env' size) Eq :=
  andThen (modifyCtx (fun _ _ _ => rfl) (fun _ => ⟨rfl, rfl, rfl⟩)) (fun _ => checkCollection size)

theorem onList {check check' : Nat → Run St Exn Unit} (h : ∀ n, W.Mirror (check n) (check' n) Eq) (value : Value) :
    W.Mirror (Nsl.onList check value) (Nsl.onList check' value) Eq := by
  unfold Nsl.onList
  split
  · exact h _
  · exact done ()

theorem bindOnce {symbolId : String} {put : Context → Context} (hput : ∀ c t r, put (c.moved t r) = (put c).moved t r)
    (hkeep : ∀ c, (put c).skill = c.skill ∧ (put c).request = c.request ∧ (put c).startedNs = c.startedNs) :
    W.Mirror (Nsl.bindOnce symbolId put) (Nsl.bindOnce symbolId put) Eq := by
  refine getCtx_andThen (fun c => ?_)
  by_cases hc : c.isBound symbolId = true
  · rw [if_pos hc, if_pos (show (c.moved W.startedNs' W.request').isBound symbolId = true from hc)]
    exact fail _
  · rw [if_neg hc, if_neg (show ¬ (c.moved W.startedNs' W.request').isBound symbolId = true from hc)]
    exact modifyCtx hput hkeep

theorem pushFrame : W.Mirror Nsl.pushFrame Nsl.pushFrame Eq :=
  modifyCtx (fun _ _ _ => rfl) (fun _ => ⟨rfl, rfl, rfl⟩)

theorem popFrame : W.Mirror Nsl.popFrame Nsl.popFrame Eq := by
  refine getCtx_andThen (fun c => ?_)
  rw [show (c.moved W.startedNs' W.request').frames = c.frames from rfl,
    show (c.moved W.startedNs' W.request').checkFrames = c.checkFrames from rfl]
  rcases c.frames.below with _ | ⟨f, fs⟩
  · exact fail _
  · rcases c.checkFrames.below with _ | ⟨g, gs⟩
    · exact fail _
    · exact modifyCtx (fun _ _ _ => rfl) (fun _ => ⟨rfl, rfl, rfl⟩)

theorem observeCompleteness (completeness : Completeness) :
    W.Mirror (Nsl.modifyCtx (fun c => c.observeCompleteness completeness))
      (Nsl.modifyCtx (fun c => c.observeCompleteness completeness)) Eq := by
  refine modifyCtx (fun c t r => ?_) (fun c => ?_)
  · cases completeness with
    | partly =>
      unfold Context.observeCompleteness
      by_cases h : c.dataCompleteness = .complete
      · rw [if_pos h, if_pos (show (c.moved t r).dataCompleteness = .complete from h)]
        rfl
      · rw [if_neg h, if_neg (show ¬ (c.moved t r).dataCompleteness = .complete from h)]
    | _      => rfl
  · unfold Context.observeCompleteness
    split
    · exact ⟨rfl, rfl, rfl⟩
    · split <;> exact ⟨rfl, rfl, rfl⟩
    · exact ⟨rfl, rfl, rfl⟩

/-! ## Events and snapshots -/

theorem emit (eventType : String) {payload payload' : List (String × Value)} (h : fieldsJson payload = true)
    (h' : fieldsJson payload' = true) : W.Mirror (Nsl.emit W.env eventType payload) (Nsl.emit W.env' eventType payload') Eq E := by
  refine asideUnit (aside (fun s => ?_) (fun s => ?_))
  · obtain ⟨e, -, hrun⟩ := emit_event W.recorder eventType h s
    exact ⟨_, _, (), hrun, rfl, rfl⟩
  · obtain ⟨e, -, hrun⟩ := @emit_event _ W.env' _ rfl eventType _ h' s
    exact ⟨_, _, (), hrun, rfl, rfl⟩

theorem putSnapshot_aside (env : Env) (value : Value) (c : DataClassification) (s : St) :
    ∃ w x a, Nsl.putSnapshot env value c s = ⟨w, x, .ok a⟩ ∧ x.ctx = s.ctx ∧ x.world.calls = s.world.calls := by
  unfold Nsl.putSnapshot
  cases env.snapshots with
  | none       => exact ⟨_, _, _, rfl, rfl, rfl⟩
  | some store => exact ⟨_, _, _, rfl, rfl, rfl⟩

theorem putSnapshot (value value' : Value) (c c' : DataClassification) :
    W.Mirror (Nsl.putSnapshot W.env value c) (Nsl.putSnapshot W.env' value' c') (fun _ _ => True) E :=
  aside (putSnapshot_aside _ _ _) (putSnapshot_aside _ _ _)

/-- The event of a row. -/
theorem emitRow (eventType : String) {node metadata : Value} (hnode : node.isJson = true) (hmetadata : metadata.isJson = true)
    (plain : Value) (c : DataClassification) (ref ref' : Option SnapshotRef) :
    W.Mirror (emitHidden W.env eventType (.dict [("node_id", node), ("values", plain)]) c ref metadata)
      (emitHidden W.env' eventType (.dict [("node_id", node), ("values", plain)]) c ref' metadata) Eq := by
  have hrun : ∀ (env : Env) (r : Recorder), env.recorder = some r → ∀ (payload : Value) (ref : Option SnapshotRef) (s : St),
      emitHidden env eventType payload c ref metadata s =
        match nextEvent r s.world eventType payload c ref metadata with
        | .ok e    => ⟨[{ s with world := s.world.append e }], { s with world := s.world.append e }, .ok ()⟩
        | .error e => ⟨[], s, .error e⟩ := by
    intro env r hr payload ref s
    unfold emitHidden
    rw [hr]
    show Run.andThen (Run.ofExcept (nextEvent r s.world eventType payload c ref metadata)) (fun e => modifyWorld (·.append e)) s = _
    cases nextEvent r s.world eventType payload c ref metadata <;> rfl
  refine ⟨fun s => ?_, fun s s' hs _ => ?_⟩
  · rw [hrun _ _ W.recorder]
    split <;> exact List.prefix_rfl
  · have hends := @nextEvent_row _ (Recorder.make W.skill W.request) (Recorder.make W.skill W.request') W.policy s.world
      s'.world eventType _ _ hnode hmetadata plain c ref ref'
    rw [hrun _ _ W.recorder, hrun W.env' _ rfl]
    generalize nextEvent (Recorder.make W.skill W.request) s.world eventType _ c ref metadata = x at hends ⊢
    generalize nextEvent (Recorder.make W.skill W.request') s'.world eventType _ c ref' metadata = y at hends ⊢
    cases hends with
    | ok _    => exact ⟨.ok rfl, hs.ctx, hs.skill, hs.request, hs.started, hs.calls⟩
    | error _ => exact ⟨.error trivial, hs⟩

end Twins
end Twins
end Nsl
