import Nsl.EngineReturns
import Nsl.LabelsSound
import Nsl.LoweringLabels
/-!
# LabelsAgree — the labels of a whole execution

At every point of an execution of a compiled skill the value of an expression has the classification the compiler wrote
down for it, and a row that was emitted holds nothing that came in above the classification of its output. The status of
a CHECK counts as INTERNAL there, whatever its condition reads.
-/
namespace Nsl

open Stateful (Run)

/-! ## What reaches an expression -/

/-- **The labels that reach an expression**: of an input, a context or the answers of a tool, through what is bound on
the way. `opened`: a CHECK passes on what reaches its condition; else its status counts as INTERNAL. -/
inductive Contributes (skill : SkillObject) (opened : Bool) : Expression → DataClassification → Prop
  | input {n : String} {t : TypeRef} {i : InputSpec} (h : i ∈ skill.inputs) :
      Contributes skill opened (.symbolRef n i.symbolId t) i.classification
  | context {n : String} {t : TypeRef} {i : ContextSpec} (h : i ∈ skill.contexts) :
      Contributes skill opened (.symbolRef n i.symbolId t) i.classification
  | bound {n : String} {t : TypeRef} {s : LetStatement} {c : DataClassification} (h : .letBind s ∈ withinBlock skill.body)
      (hc : Contributes skill opened s.value c) : Contributes skill opened (.symbolRef n s.targetSymbolId t) c
  | item {n m i : String} {t : TypeRef} {e : Expression} {bound : Int} {body : List Statement} {c : DataClassification}
      (h : .foreach m i e bound body ∈ withinBlock skill.body) (hc : Contributes skill opened e c) :
      Contributes skill opened (.symbolRef n i t) c
  | status {n : String} {t : TypeRef} {s : CheckStatement} (h : .check s ∈ withinBlock skill.body) (hopened : opened = false) :
      Contributes skill opened (.symbolRef n s.resultSymbolId t) .internal
  | condition {n : String} {t : TypeRef} {s : CheckStatement} {c : DataClassification}
      (h : .check s ∈ withinBlock skill.body) (hopened : opened = true) (hc : Contributes skill opened s.condition c) :
      Contributes skill opened (.symbolRef n s.resultSymbolId t) c
  | field {n f : String} {t : TypeRef} {e : Expression} {c : DataClassification} (hc : Contributes skill opened e c) :
      Contributes skill opened (.field n e f t) c
  | project {n f : String} {t : TypeRef} {e : Expression} {c : DataClassification} (hc : Contributes skill opened e c) :
      Contributes skill opened (.project n e f t) c
  | call {n f : String} {t : TypeRef} {es : List Expression} {e : Expression} {c : DataClassification} (h : e ∈ es)
      (hc : Contributes skill opened e c) : Contributes skill opened (.call n f es t) c
  | left {n op : String} {t : TypeRef} {l r : Expression} {c : DataClassification} (hc : Contributes skill opened l c) :
      Contributes skill opened (.binary n op l r t) c
  | right {n op : String} {t : TypeRef} {l r : Expression} {c : DataClassification} (hc : Contributes skill opened r c) :
      Contributes skill opened (.binary n op l r t) c
  | answer {n : String} {t : TypeRef} {r : RequiredTool} {es : List (String × Expression)} {p : ResultPolicy}
      (h : r ∈ skill.requiredTools) : Contributes skill opened (.read n r.toolRef es t p) r.outputClassification

section LabelsAgree

variable [Platform] {catalog : ToolContractCatalog} {tools : ToolsById} {skill : SkillObject} {env : Env}

omit [Platform] in
/-- The label of a built-in is that of its one argument. -/
theorem typedCall_argument {n f : String} {es : List Expression} {t : TypeRef} {c : DataClassification} {e : Expression}
    (h : Typed skill.symbols tools (.call n f es t) c) (he : e ∈ es) : Typed skill.symbols tools e c := by
  obtain ⟨cs, hcs, hhead, hbuiltin⟩ := h
  obtain ⟨u, hu⟩ := resolveBuiltin_one hbuiltin
  obtain ⟨e', rfl, -⟩ := List.map_eq_singleton_iff.1 hu
  rw [List.mem_singleton.1 he]
  cases cs with
  | nil       => cases hhead
  | cons d ds =>
    cases hhead
    exact hcs.1

/-- The answers of the tool of a READ have the classification of its required tool. -/
theorem answers_required (hsound : Lowerer.SoundSkill catalog tools skill) {r : RequiredTool} {t : TypeRef}
    {c : DataClassification} (hr : r ∈ skill.requiredTools) (ha : Answers tools r.toolRef t c) :
    r.outputClassification = c := by
  obtain ⟨x, hx, hxref, -, rfl⟩ := ha
  rw [hsound.required] at hr
  obtain ⟨y, hy, rfl⟩ := List.mem_map.1 hr
  have hxy : x = y := List.inj_on_of_nodup_map hsound.bindings.refs hx hy hxref
  obtain ⟨-, -, -, -, hclass⟩ := hsound.bindings.contracts y hy
  rw [hxy]
  exact hclass

/-- **What reaches an expression is allowed at its classification.** -/
theorem contributes_allowed (hsound : Lowerer.SoundSkill catalog tools skill) {e : Expression} {d : DataClassification}
    (h : Contributes skill false e d) : ∀ {c : DataClassification}, Typed skill.symbols tools e c → d.allows c = true := by
  have htyped := TypedBlock.within hsound.typed
  induction h with
  | input hi             =>
    intro c hc
    rw [((hsound.inputs _ hi).unique hsound.ids hc).2]
    exact allows_refl c
  | context hi           =>
    intro c hc
    rw [((hsound.contexts _ hi).unique hsound.ids hc).2]
    exact allows_refl c
  | bound hs _ ih        =>
    intro c hc
    obtain ⟨c', hc', hd⟩ := htyped _ hs
    rw [← (hd.unique hsound.ids hc).2]
    exact ih hc'
  | item hs _ ih         =>
    intro c hc
    obtain ⟨⟨c', t', hc', -, -, hd⟩, -⟩ := htyped _ hs
    rw [← (hd.unique hsound.ids hc).2]
    exact ih hc'
  | status hs            =>
    intro c hc
    obtain ⟨-, -, hd⟩ := htyped _ hs
    rw [(hd.unique hsound.ids hc).2]
    exact allows_refl c
  | condition _ hopened  => cases hopened
  | field _ ih           => exact fun hc => ih hc.1
  | project _ ih         => exact fun hc => ih hc.1
  | call he _ ih         => exact fun hc => ih (typedCall_argument hc he)
  | left _ ih            =>
    rintro c ⟨cl, cr, o, hl, hr, -, -, -, rfl⟩
    rw [laterClassification_eq]
    exact allows_trans (ih hl) (allows_highest cl cr).1
  | right _ ih           =>
    rintro c ⟨cl, cr, o, hl, hr, -, -, -, rfl⟩
    rw [laterClassification_eq]
    exact allows_trans (ih hr) (allows_highest cl cr).2
  | answer hr            =>
    intro c hc
    rw [answers_required hsound hr hc.2]
    exact allows_refl c

/-! ## Where rows come from -/

/-- The row holds values of the fields of an EMIT of the block. -/
def RowOf (env : Env) (body : List Statement) (row : EmitRecord) : Prop :=
  ∃ t, .emit t ∈ withinBlock body ∧ ∀ name v, row.fields.get? name = some v →
    ∃ e y, (name, e) ∈ t.fields ∧ (evaluate env e y).outcome = .ok v

/-- Each row emitted so far is of an EMIT of the block. -/
def RowsOf (env : Env) (body : List Statement) (s : St) : Prop := ∀ row ∈ s.ctx.outputs, RowOf env body row

theorem RowsOf.of_outputs {body : List Statement} {s x : St} (h : RowsOf env body s) (hx : x.ctx.outputs = s.ctx.outputs) :
    RowsOf env body x := by
  unfold RowsOf
  rw [hx]
  exact h

theorem bindOnce_rows {body : List Statement} {symbolId : String} {put : Context → Context}
    (hput : ∀ c, (put c).outputs = c.outputs) : Run.Preserves (RowsOf env body) (bindOnce symbolId put) := by
  refine (Run.preserves_look _).andThen (fun ctx => ?_)
  split
  · exact Run.preserves_fail _
  · exact Run.preserves_write (fun s hs => hs.of_outputs (hput s.ctx))

/-- The values of the fields of an EMIT. -/
def FieldValues (env : Env) (fields : List (String × Expression)) (values : List (String × ValueEnvelope)) : Prop :=
  ∀ nv ∈ values, ∃ e y, (nv.1, e) ∈ fields ∧ (evaluate env e y).outcome = .ok nv.2

theorem emitField_evaluates (outputs : List OutputField) (name : String) (e : Expression) :
    Run.Gives (fun v => ∃ y, (evaluate env e y).outcome = .ok v) (emitField env outputs name e) := by
  unfold emitField
  split
  · exact Run.gives_fail _
  · split
    · exact Run.gives_fail _
    · have hevaluate : Run.Gives (fun v => ∃ y, (evaluate env e y).outcome = .ok v) (evaluate env e) := by
        intro s w s' v h
        exact ⟨s, by rw [h]⟩
      refine hevaluate.andThen (fun v hv => Run.gives_after (fun _ => ?_))
      split
      · exact Run.gives_done hv
      · exact Run.gives_fail _

theorem emitFields_evaluates (outputs : List OutputField) (fields : List (String × Expression)) :
    Run.Gives (FieldValues env fields) (emitFields env outputs fields) := by
  induction fields with
  | nil          => exact Run.gives_done (fun nv hnv => (List.not_mem_nil hnv).elim)
  | cons f es ih =>
    obtain ⟨n, e⟩ := f
    unfold emitFields
    refine (emitField_evaluates outputs n e).andThen (fun v hv => ih.andThen
      (fun vs hvs => Run.gives_done (List.forall_mem_cons.2 ⟨?_, fun nv hnv => ?_⟩)))
    · obtain ⟨y, hy⟩ := hv
      exact ⟨e, y, List.mem_cons_self .., hy⟩
    · obtain ⟨e', y, he', hy⟩ := hvs nv hnv
      exact ⟨e', y, List.mem_cons_of_mem _ he', hy⟩

omit [Platform] in
/-- A field of the record is one of the values. -/
theorem emitRecord_mem {outputs : List OutputField} {values : List (String × ValueEnvelope)} {record : EmitRecord}
    (h : emitRecord outputs values = .ok record) {name : String} {v : ValueEnvelope}
    (hv : record.fields.get? name = some v) : (name, v) ∈ values := by
  unfold emitRecord at h
  split at h
  · cases h
  · cases h
    obtain ⟨o, -, ho⟩ := List.mem_filterMap.1 (Dict.mem_of_get?_ofList hv)
    obtain ⟨x, hx, heq⟩ := Option.map_eq_some_iff.1 ho
    cases heq
    exact mem_of_lookup hx

theorem executeEmit_rows {body : List Statement} {t : EmitStatement} (ht : .emit t ∈ withinBlock body) :
    Run.Preserves (RowsOf env body) (executeEmit env t) := by
  have hpre : ∀ {α : Type} {m : Run St Exn α}, Quiets env m → Run.Preserves (RowsOf env body) m := fun hm =>
    hm.preserves_of (fun _ _ hx hs => hs.of_outputs (congrArg Recorded.outputs hx.recorded))
  have happend : ∀ outputs values, FieldValues env t.fields values →
      Run.Preserves (RowsOf env body) (appendRow env t.nodeId outputs values) := by
    intro outputs values hvalues
    have hrecord : Run.Keeps (RowsOf env body) (RowOf env body) (Run.ofExcept (emitRecord outputs values) : Run St Exn _) :=
      Run.keeps_ofExcept (fun record h => ⟨t, ht, fun name v hv => hvalues _ (emitRecord_mem h hv)⟩)
    refine (hrecord.andThen (R := fun _ => True) (fun record hrow => ?_)).preserves
    have hput : Run.Preserves (RowsOf env body) (recordOutput record) := by
      refine Run.preserves_write (fun x hx row hmem => ?_)
      rcases List.mem_append.1 hmem with hmem | hmem
      · exact hx row hmem
      · rw [List.mem_singleton.1 hmem]
        exact hrow
    have hcount : Quiets env recordEmit := Quiets.modifyCtx (fun x => Quiet.meter x _)
    have hreport : Quiets env (reportRow env t.nodeId values) :=
      (putSnapshot_quiet env _ _).bind (fun _ => emitHidden_quiet env _ _ _ _ _)
    exact (hput.andThen (fun _ => (hpre hcount).andThen (fun _ => hpre hreport))).keeps
  refine (hpre (beforeEmit_quiet env)).andThen (fun _ => (Run.preserves_look _).andThen (fun ctx => ?_))
  split
  · have hvalues := (hpre (emitFields_quiet env ctx.skill.outputs t.fields)).keeps_gives
      (emitFields_evaluates ctx.skill.outputs t.fields)
    exact (hvalues.andThen (R := fun _ => True) (fun values hv => (happend _ values hv).keeps)).preserves
  · exact Run.preserves_fail _

theorem recordVerdict_rows {body : List Statement} (s : CheckStatement) (v : ValueEnvelope) :
    Run.Preserves (RowsOf env body) (recordVerdict env s v) := by
  refine (Run.preserves_ofExcept _).andThen (fun check => ?_)
  have hrecord : Run.Preserves (RowsOf env body) (recordCheck check) := Run.preserves_write (fun _ hs => hs)
  refine hrecord.andThen (fun _ => Run.Preserves.andThen (bindOnce_rows (fun _ => rfl)) (fun _ => ?_))
  exact (emit_quiet env _ _).preserves_of (fun _ _ hx hs => RowsOf.of_outputs hs (congrArg Recorded.outputs hx.recorded))

theorem rows_rules (body : List Statement) :
    ExecutionRules env (RowsOf env body) (fun _ _ => True) (fun s => s ∈ withinBlock body) where
  quiet   := fun _ _ hx hs => hs.of_outputs (congrArg Recorded.outputs hx.recorded)
  literal := fun _ _ _ => trivial
  symbol  := fun _ _ _ _ _ _ _ => trivial
  field   := fun _ _ _ _ _ _ _ _ => trivial
  project := fun _ _ _ _ _ _ _ _ => trivial
  call    := fun _ _ _ _ _ _ _ _ => trivial
  binary  := fun _ _ _ _ _ _ _ _ _ _ _ => trivial
  read    := fun n u es _ p => ((executeRead_quiet env n u (es.map Prod.fst) (evaluateArguments_quiet env es) p).preserves_of
    (fun _ _ hx hs => RowsOf.of_outputs hs (congrArg Recorded.outputs hx.recorded))).keeps
  push    := Run.preserves_write (fun _ hs => hs)
  pop     := popFrame_preserves (fun _ _ _ _ _ _ _ hs => hs)
  node    := fun _ _ hs => hs
  depth   := fun _ _ hs => hs
  bind    := fun _ _ _ _ => bindOnce_rows (fun _ => rfl)
  item    := fun _ _ _ _ _ _ _ _ _ => bindOnce_rows (fun _ => rfl)
  check   := fun s v _ _ => recordVerdict_rows s v
  emit    := fun _ hs => executeEmit_rows hs

/-! ## The execution -/

/-- The execution passes through the state: it is the one its `try` starts in, or one of those after it. -/
def Passes (env : Env) (skill : SkillObject) (request : ExecutionRequest) (s x : St) : Prop :=
  ∃ principal decision,
    authorizeExecution (env.forExecution skill request) skill request.principal = .ok (principal, decision) ∧
    let t := executionTry (env.forExecution skill request) skill request principal decision skill.body false
      (tryState env skill request s)
    x = tryState env skill request s ∨ x ∈ t.written ∨ x = t.final

/-- What an execution keeps holds wherever it passes. -/
theorem Passes.invariant {request : ExecutionRequest} {s x : St} {I : St → Prop} (h : Passes env skill request s x)
    (hstart : I (tryState env skill request s))
    (hI : ∀ principal decision, Run.Preserves I (executionTry (env.forExecution skill request) skill request principal
      decision skill.body false)) : I x := by
  obtain ⟨principal, decision, -, rfl | hx | rfl⟩ := h
  · exact hstart
  · exact (hI principal decision (tryState env skill request s)).1 x hx hstart
  · exact (hI principal decision (tryState env skill request s)).2 hstart

/-- **No row holds what came in above the classification of its output**: each is a row of an EMIT of the skill, and what
reaches a field of that EMIT is allowed at the classification of the output. -/
def RowsContained (env : Env) (skill : SkillObject) (opened : Bool) (x : St) : Prop :=
  ∀ row ∈ x.ctx.outputs, ∃ t, .emit t ∈ withinBlock skill.body ∧ ∀ name v, row.fields.get? name = some v →
    ∃ e o, (name, e) ∈ t.fields ∧ (∃ y, (evaluate env e y).outcome = .ok v) ∧
      skill.outputs.find? (fun o => o.name = name) = some o ∧ v.classification.allows o.classification = true ∧
      ∀ d, Contributes skill opened e d → d.allows o.classification = true

/-- **Where the labels agree**: the value of an expression would have the classification computed for it, an EMIT would
pass its check, and the rows hold what they may. -/
structure LabelsAgree (env : Env) (c : Compilation) (opened : Bool) (x : St) : Prop where
  values : ∀ e label, (e, label) ∈ c.labels → ∀ v, (evaluate env e x).outcome = .ok v → v.classification = label
  fields : ∀ t, .emit t ∈ withinBlock c.skill.body → ∀ f ∈ t.fields, ∀ v, (evaluate env f.2 x).outcome = .ok v →
    ∃ o, c.skill.outputs.find? (fun o => o.name = f.1) = some o ∧ v.classification.allows o.classification = true
  rows   : RowsContained env c.skill opened x

/-- In a state whose values are labelled, so is the value of an expression. -/
theorem evaluate_label (hsound : Lowerer.SoundSkill catalog tools skill) (hbind : HashesBind catalog env.catalog) {x : St}
    (hx : Labelled skill x.ctx.recorded) {e : Expression} {c : DataClassification} {v : ValueEnvelope}
    (hc : Typed skill.symbols tools e c) (hv : (evaluate env e x).outcome = .ok v) : v.classification = c :=
  (evaluate_keeps (labels_rules hsound hbind) e x hx).2.2 v hv c hc

/-- The bindings of an execution are labelled from its start. -/
theorem execution_labelled (hsound : Lowerer.SoundSkill catalog tools skill) (hbind : HashesBind catalog env.catalog)
    {request : ExecutionRequest} {s x : St} (h : Passes env skill request s x) : Labelled skill x.ctx.recorded := by
  have hstart : Labelled skill (tryState env skill request s).ctx.recorded := by
    have hempty : ∀ j w, (Dict.empty : Dict ValueEnvelope).get? j = some w →
        ∃ t, Declares skill.symbols j t w.classification := fun j w hget => by cases hget
    have hroot : ∀ d ∈ Frames.root.all, ∀ j w, d.get? j = some w → ∃ t, Declares skill.symbols j t w.classification :=
      fun d hd => by rw [List.mem_singleton.1 hd]; exact hempty
    exact ⟨rfl, bound_iff.2 ⟨hempty, hempty, hroot, hroot⟩, fun row hrow => (List.not_mem_nil hrow).elim⟩
  refine h.invariant (I := fun s => Labelled skill s.ctx.recorded) hstart (fun principal decision => ?_)
  have hrules : ExecutionRules (env.forExecution skill request) (fun s => Labelled skill s.ctx.recorded)
      (HasLabel skill tools) (TypedStatement skill.symbols tools skill.outputs) := labels_execution hsound hbind
  refine executionTry_preserves hrules (fun i hi value => ?_) (fun i hi value => ?_) (TypedBlock.within hsound.typed)
  · exact bindOnce_labelled (fun _ hc => ⟨hc.same, hc.bound.input ⟨_, hsound.inputs i hi⟩, hc.rows⟩)
  · exact bindOnce_labelled (fun _ hc => ⟨hc.same, hc.bound.context ⟨_, hsound.contexts i hi⟩, hc.rows⟩)

theorem execution_rows {request : ExecutionRequest} {s x : St} (h : Passes env skill request s x) :
    RowsOf (env.forExecution skill request) skill.body x := by
  refine h.invariant (fun row hrow => (List.not_mem_nil hrow).elim) (fun principal decision => ?_)
  exact executionTry_preserves (rows_rules skill.body) (fun _ _ _ => bindOnce_rows (fun _ => rfl))
    (fun _ _ _ => bindOnce_rows (fun _ => rfl)) (fun _ ht => ht)

/-- **Static and runtime labels agree.** Each expression of a compiled skill, with each of its parts, has a label; and
wherever an execution of the skill passes, over a catalog whose contracts are known by their hashes, the labels agree. -/
theorem compiled_labels_agree {ast : AstSkill} {build : BuildMetadata} {c : Compilation}
    (h : compileTree catalog ast build = .ok c) (hbind : HashesBind catalog env.catalog) (request : ExecutionRequest)
    (s : St) :
    (∀ st ∈ withinBlock c.skill.body, ∀ e ∈ st.expressions, ∀ p ∈ e.parts, ∃ label, (p, label) ∈ c.labels) ∧
      ∀ x, Passes env c.skill request s x → LabelsAgree (env.forExecution c.skill request) c false x := by
  obtain ⟨tools, hsound, hlabels⟩ := compileTree_sound h
  refine ⟨compileTree_labels h, fun x hx => ?_⟩
  have hlabelled := execution_labelled hsound hbind hx
  have hbinds : HashesBind catalog (env.forExecution c.skill request).catalog := hbind
  have hfield : ∀ t, .emit t ∈ withinBlock c.skill.body → ∀ f ∈ t.fields,
      TypedField c.skill.symbols tools c.skill.outputs f.1 f.2 := fun t ht => (TypedBlock.within hsound.typed _ ht).2
  refine ⟨fun e label he v hv => ?_, fun t ht f hf v hv => ?_, fun row hrow => ?_⟩
  · exact evaluate_label hsound hbinds hlabelled (hlabels _ he) hv
  · obtain ⟨o, label, ho, htyped, -, hallows⟩ := hfield t ht f hf
    rw [← evaluate_label hsound hbinds hlabelled htyped hv] at hallows
    exact ⟨o, ho, hallows⟩
  · obtain ⟨t, ht, hvalues⟩ := execution_rows hx row hrow
    refine ⟨t, ht, fun name v hv => ?_⟩
    obtain ⟨e, y, he, hy⟩ := hvalues name v hv
    obtain ⟨o, label, ho, htyped, -, hallows⟩ := hfield t ht (name, e) he
    obtain ⟨o', ho', hvallows⟩ := hlabelled.rows row hrow name v hv
    rw [ho] at ho'
    cases ho'
    exact ⟨e, o, he, ⟨y, hy⟩, ho, hvallows, fun d hd => allows_trans (contributes_allowed hsound hd htyped) hallows⟩

end LabelsAgree

/-! ## A status that gives a flag away -/

section Flagged

/-- A source whose CHECK asks for a flag of the request, and whose EMIT gives its status away. -/
def flagTree : AstSkill :=
  { languageVersion := "0.1", skillId := "skill", skillVersion := "1.0.0", risk := "READ_VALIDATE", includes := [],
    requires := [], limits := some ⟨1, 1, 1, 1, 1000⟩, inputs := [⟨"flag", BOOL, .confidential, []⟩], contexts := [],
    outputs := [⟨"verdict", CHECK_STATUS, .internal, []⟩],
    body := [.check "FLAG" (.path ["flag"]) "ERROR" "CONTINUE" "not flagged", .emit [("verdict", .path ["FLAG", "status"])]] }

def flagCheck : CheckStatement :=
  { nodeId := "check0001", checkId := "FLAG", condition := .symbolRef "expr0001" "s0001" BOOL, severity := "ERROR",
    onFail := "CONTINUE", message := "not flagged", resultSymbolId := "s0002" }

/-- The status of that CHECK. -/
def flagStatus : Expression := .field "expr0003" (.symbolRef "expr0002" "s0002" CHECK_RESULT) "status" CHECK_STATUS

def flagEmit : EmitStatement := ⟨"emit0001", [("verdict", flagStatus)]⟩

variable [Platform]

def flagSkill : SkillObject :=
  { SkillObject.ofBody "1.0" "0.1" ⟨1, 1, 1, 1, 1000⟩ [.check flagCheck, .emit flagEmit] with
    risk := "READ_VALIDATE", features := profileV01.features, featureSet := profileV01.featureSet,
    symbols := [⟨"s0001", "flag", "INPUT", BOOL, .confidential⟩, ⟨"s0002", "FLAG", "CHECK", CHECK_RESULT, .internal⟩],
    inputs := [⟨"s0001", "flag", BOOL, true, .confidential⟩], outputs := [⟨"verdict", CHECK_STATUS, .internal⟩],
    analysis := ⟨0, 0, 1, true⟩, build := ⟨"", "", []⟩ }.sealHash

theorem flagTree_compiles :
    ∃ safety labels, compileTree Env.bare.catalog flagTree ⟨"", "", []⟩ = .ok ⟨flagSkill, safety, labels⟩ := ⟨_, _, rfl⟩

theorem flagSkill_preflight (env : Env) : preflight env flagSkill false = .ok () := by
  have hhash : flagSkill.computedHash = .ok flagSkill.semanticHash := SkillObject.sealHash_computedHash rfl
  have hprofile : supportedProfile flagSkill.irVersion flagSkill.languageVersion = some flagSkill.semanticsProfile := rfl
  have hcontrolled : containsControlled flagSkill.body = false := rfl
  have hbounded : flagSkill.analysis.bounded = true := rfl
  have htools : flagSkill.requiredTools = [] := rfl
  unfold preflight
  rw [hprofile, hhash, hcontrolled, hbounded, htools]
  simp [bind, Except.bind, pure, Except.pure]

def flagValue : ValueEnvelope := .ofComplete (.bool true) BOOL .confidential []

def flagPassed : CheckResult :=
  { checkId := "FLAG", status := .pass, severity := "ERROR", message := "not flagged", conditionNodeId := "expr0001",
    presence := .present, completeness := .complete, provenanceRefs := [], reasonCode := none }

def flagResult : ValueEnvelope := .ofComplete (.dict [("status", .str "PASS")]) CHECK_RESULT .internal []

def flagVerdict : ValueEnvelope := .ofComplete (.str "PASS") CHECK_STATUS .internal []

def flagRow : EmitRecord := ⟨Dict.ofList [("verdict", flagVerdict)]⟩

section Run

variable (request : ExecutionRequest)

def flagStart : Context := { skill := flagSkill, request, startedNs := 0 }

def flagBound : Context := { flagStart request with inputValues := Dict.empty.set "s0001" flagValue }

def flagChecked : Context :=
  { flagBound request with checks := [flagPassed], checkFrames := Frames.root.bind "s0002" flagResult }

def flagEmitted : Context := { flagChecked request with currentNodeId := some "emit0001", outputs := [flagRow] }

variable {request} {env : Env}

theorem flagSkill_prologue {p : ExecutionPrincipal} {d : AuthorizationDecision} (h : InTime env (flagStart request))
    (hsnapshots : env.snapshots = none) (hinput : request.inputs.entries = [("flag", .bool true)])
    (hcontext : request.runtimeContext = Dict.empty) :
    Reaches (flagStart request) (executionPrologue env flagSkill request p d false) () (flagBound request) := by
  obtain ⟨hash, hhash⟩ := valueHash_ok (v := .dict request.inputs.entries) (by rw [hinput]; rfl)
  obtain ⟨hash', hhash'⟩ := valueHash_ok (v := .dict request.runtimeContext.entries) (by rw [hcontext]; rfl)
  have hget : request.inputs.get? "flag" = some (.bool true) := by
    unfold Dict.get?
    rw [hinput]
    rfl
  have hprojected : projectDeclaredContext flagSkill request.runtimeContext = .ok [] := rfl
  refine Reaches.bind (checkDeadline_reaches h) (Reaches.bind (Reaches.ofExcept (flagSkill_preflight env)) ?_)
  refine Reaches.bind (executionStarted_reaches hsnapshots hprojected hhash hhash') ?_
  have hchecked : Reaches (flagStart request) (checkedValue (observeCollection env) (.bool true) BOOL "flag") ()
      (flagStart request) := Reaches.bind (Reaches.ofExcept (a := ()) rfl) (Reaches.done ())
  have hvalidated : Reaches (flagStart request) (validatedInputs (observeCollection env) request.inputs flagSkill.inputs)
      [(⟨"s0001", "flag", BOOL, true, .confidential⟩, .bool true)] (flagStart request) := by
    rw [show flagSkill.inputs = [⟨"s0001", "flag", BOOL, true, .confidential⟩] from rfl]
    unfold validatedInputs
    rw [hget]
    exact Reaches.bind hchecked (Reaches.bind (Reaches.done []) (Reaches.done _))
  have hbind : Reaches (flagStart request) (bindInput "s0001" flagValue) () (flagBound request) := bindOnce_reaches rfl
  exact Reaches.bind hvalidated (Reaches.bind (Reaches.done []) (Reaches.bind (Reaches.bind hbind (Reaches.done ()))
    (Reaches.done ())))

theorem flagSkill_checks (h : InTime env (flagStart request)) :
    Reaches (flagBound request) (aroundStatement env (.check flagCheck) (executeCheck env flagCheck)) ()
      (flagChecked request) := by
  have hflag : Reaches { flagBound request with currentNodeId := some "check0001" } (evaluate env flagCheck.condition)
      flagValue { flagBound request with currentNodeId := some "check0001" } :=
    evaluate_symbolRef_reaches "expr0001" h rfl rfl rfl (by simp [flagValue, ValueEnvelope.ofComplete])
  have hcheck : Reaches { flagBound request with currentNodeId := some "check0001" } (executeCheck env flagCheck) ()
      { flagChecked request with currentNodeId := some "check0001" } :=
    executeCheck_reaches hflag (show evaluateCheck flagCheck flagValue = .ok flagPassed from rfl) rfl
  exact aroundStatement_reaches (c := flagBound request) (s := .check flagCheck) h hcheck

/-- The row is there, whatever comes after it. -/
theorem flagSkill_emits (h : InTime env (flagStart request)) :
    Run.Meets St.ctx (flagChecked request) (aroundStatement env (.emit flagEmit) (executeEmit env flagEmit))
      (flagEmitted request) := by
  let emitting : Context := { flagChecked request with currentNodeId := some "emit0001" }
  have hresult : Reaches emitting (evaluate env (.symbolRef "expr0002" "s0002" CHECK_RESULT)) flagResult emitting :=
    evaluate_symbolRef_reaches "expr0002" h rfl rfl rfl (by simp [flagResult, ValueEnvelope.ofComplete])
  have hstatus : Reaches emitting (evaluate env flagStatus) flagVerdict emitting :=
    evaluate_field_reaches "expr0003" h hresult rfl rfl (by simp [flagVerdict, ValueEnvelope.ofComplete])
  have hfield : Reaches emitting (emitField env flagSkill.outputs "verdict" flagStatus) flagVerdict emitting := by
    rw [show flagSkill.outputs = [⟨"verdict", CHECK_STATUS, .internal⟩] from rfl]
    exact Reaches.bind hstatus (Reaches.bind (Reaches.ofExcept (a := ()) rfl) (Reaches.done _))
  have hvalues : Reaches emitting (emitFields env flagSkill.outputs flagEmit.fields) [("verdict", flagVerdict)] emitting :=
    Reaches.bind hfield (Reaches.bind (Reaches.done []) (Reaches.done _))
  have happend : Run.Meets St.ctx emitting (appendRow env "emit0001" flagSkill.outputs [("verdict", flagVerdict)])
      (flagEmitted request) :=
    (Reaches.ofExcept (a := flagRow) rfl).meets (Run.Meets.andThen (Run.meets_write (fun s hs => by rw [hs]; rfl)))
  have hbefore : Reaches emitting (beforeEmit env) () emitting := by
    refine Reaches.bind (checkDeadline_reaches h) (Reaches.bind Reaches.getCtx ?_)
    exact Reaches.done ()
  have hemit : Run.Meets St.ctx emitting (executeEmit env flagEmit) (flagEmitted request) :=
    hbefore.meets (Reaches.getCtx.meets (hvalues.meets happend))
  refine (checkDeadline_reaches (c := flagChecked request) h).meets (Reaches.getCtx.meets ((Reaches.modifyCtx _).meets ?_))
  exact (emit_reaches _ rfl).meets (Run.Meets.andThen hemit)

/-- **The row is met in the execution.** -/
theorem flagSkill_meets {p : ExecutionPrincipal} {d : AuthorizationDecision} (h : InTime env (flagStart request))
    (hsnapshots : env.snapshots = none) (hinput : request.inputs.entries = [("flag", .bool true)])
    (hcontext : request.runtimeContext = Dict.empty) :
    Run.Meets St.ctx (flagStart request) (executionTry env flagSkill request p d flagSkill.body false)
      (flagEmitted request) := by
  have hblock : Run.Meets St.ctx (flagBound request) (executeBlock env flagSkill.body) (flagEmitted request) := by
    rw [show flagSkill.body = [.check flagCheck, .emit flagEmit] from rfl, executeBlock, executeBlock, executeStatement,
      executeStatement]
    exact (flagSkill_checks h).meets (Run.Meets.andThen (flagSkill_emits h))
  exact Run.Meets.handle ((flagSkill_prologue h hsnapshots hinput hcontext).meets (Run.Meets.andThen hblock))

end Run
end Flagged

section Ascii

attribute [local instance] Platform.ascii

theorem flagRequest_clean : findCredentialPath Platform.word "$" (.dict [("flag", .bool true)]) = none := by
  decide +kernel

def flagRequest : ExecutionRequest :=
  { ExecutionRequest.plain (.ofPlain "run-flag") (some analyst) none with
    inputs := ⟨[("flag", .bool true)], List.nodup_singleton _⟩, inputsClean := flagRequest_clean }

def flagState : St := ⟨flagStart flagRequest, {}⟩

theorem compiled_labels_agree_flag : ∃ c, compileTree Env.bare.catalog flagTree ⟨"", "", []⟩ = .ok c ∧
    ((∀ st ∈ withinBlock c.skill.body, ∀ e ∈ st.expressions, ∀ p ∈ e.parts, ∃ label, (p, label) ∈ c.labels) ∧
      ∀ x, Passes Env.bare c.skill flagRequest flagState x →
        LabelsAgree (Env.bare.forExecution c.skill flagRequest) c false x) := by
  obtain ⟨safety, labels, h⟩ := flagTree_compiles
  exact ⟨_, h, compiled_labels_agree h (HashesBind.refl _) flagRequest flagState⟩

/-- **The status of a CHECK carries a CONFIDENTIAL flag into an INTERNAL output.** -/
theorem flagTree_leaks : ∃ c x, compileTree Env.bare.catalog flagTree ⟨"", "", []⟩ = .ok c ∧
    Passes Env.bare c.skill flagRequest flagState x ∧
    ¬ RowsContained (Env.bare.forExecution c.skill flagRequest) c.skill true x := by
  obtain ⟨safety, labels, hcompiles⟩ := flagTree_compiles
  obtain ⟨d, hd⟩ := @analyst_authorized _ (Env.bare.forExecution flagSkill flagRequest) flagSkill rfl
  have htime : InTime (Env.bare.forExecution flagSkill flagRequest) (flagStart flagRequest) := fun n => by
    show (0 : Int) < 1000 * 1000000 - (0 - 0)
    decide
  obtain ⟨x, hx, hctx⟩ := flagSkill_meets (p := analyst) (d := d) htime rfl rfl rfl
    (tryState Env.bare flagSkill flagRequest flagState) rfl
  refine ⟨_, x, hcompiles, ⟨analyst, d, hd, Or.inr (Or.inl hx)⟩, fun hcontained => ?_⟩
  have hrow : flagRow ∈ x.ctx.outputs := by
    rw [hctx]
    exact List.mem_singleton_self _
  obtain ⟨t, ht, hvalues⟩ := hcontained flagRow hrow
  obtain ⟨e, o, he, -, ho, -, hallowed⟩ := hvalues "verdict" flagVerdict rfl
  have hbody : t = flagEmit := by
    have hmem : (.emit t : Statement) ∈ [.check flagCheck, .emit flagEmit] := ht
    simpa using hmem
  subst hbody
  have hstatus : e = flagStatus := by
    have hmem : ("verdict", e) ∈ [("verdict", flagStatus)] := he
    simpa using hmem
  subst hstatus
  cases ho
  have hflag : Contributes flagSkill true (.symbolRef "expr0001" "s0001" BOOL) .confidential :=
    Contributes.input (i := ⟨"s0001", "flag", BOOL, true, .confidential⟩) (List.mem_singleton_self _)
  have hcheck : (.check flagCheck : Statement) ∈ withinBlock flagSkill.body := List.mem_cons_self ..
  exact absurd (hallowed _ (.field (.condition hcheck rfl hflag))) (by decide)

end Ascii
end Nsl
