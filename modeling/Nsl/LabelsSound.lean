import Nsl.Evaluation
import Nsl.LoweringTyped
/-!
# Labels sound — the classification of a value is the one its expression was compiled with

The compiler takes the later of two classifications in the order of the enumeration, the interpreter the higher of two
ranks; both take that of the first argument of a call. What carries their agreement through a run is that every bound
value has the classification its symbol is declared with.
-/
namespace Nsl

open Stateful (Run)

section LabelsSound

variable [Platform]

/-! ## The two orders -/

omit [Platform] in
/-- The order of the enumeration is that of the ranks. -/
theorem laterClassification_eq (l r : DataClassification) : Lowerer.laterClassification l r = l.highest r := by
  cases l <;> cases r <;> decide

omit [Platform] in
theorem allows_refl (c : DataClassification) : c.allows c = true := by cases c <;> decide

omit [Platform] in
theorem allows_trans {a b c : DataClassification} (h : a.allows b = true) (h' : b.allows c = true) : a.allows c = true := by
  unfold DataClassification.allows at *
  simp only [decide_eq_true_eq] at *
  omega

omit [Platform] in
theorem allows_highest (l r : DataClassification) : l.allows (l.highest r) = true ∧ r.allows (l.highest r) = true := by
  cases l <;> cases r <;> decide

/-! ## Contracts by their hash -/

/-- The hash of a contract a skill is compiled with stands for that contract where the skill runs. -/
def HashesBind (compiled running : ToolContractCatalog) : Prop :=
  ∀ k ∈ compiled.contracts, ∀ k' ∈ running.contracts, k.toolId = k'.toolId → k.version = k'.version →
    k.contractHash = k'.contractHash → k.toCanonicalData = k'.toCanonicalData

/-- The same catalog needs nothing of the hash. -/
theorem HashesBind.refl (catalog : ToolContractCatalog) : HashesBind catalog catalog := by
  intro k hk k' hk' hid hversion _
  have hkey : (k.toolId, k.version) = (k'.toolId, k'.version) := by rw [hid, hversion]
  rw [List.inj_on_of_nodup_map catalog.unique hk hk' hkey]

variable {catalog : ToolContractCatalog} {tools : ToolsById} {skill : SkillObject} {env : Env}

/-- **The contract a READ is checked against is the one it was compiled with.** -/
theorem read_contract (hsound : Lowerer.SoundSkill catalog tools skill) (hbind : HashesBind catalog env.catalog)
    {toolRef : String} {required : RequiredTool} {contract : ToolContract} {t : TypeRef} {c : DataClassification}
    (hfind : skill.requiredTools.find? (fun r => r.toolRef = toolRef) = some required)
    (hresolve : env.catalog.resolve required.toolId required.version = .ok contract)
    (hhash : required.contractHash = contract.contractHash) (ha : Answers tools toolRef t c) :
    contract.outputType = t ∧ contract.outputClassification = c := by
  obtain ⟨x, hx, hxref, rfl, rfl⟩ := ha
  have hmem : required ∈ tools.map (·.2.1) := by
    rw [← hsound.required]
    exact List.mem_of_find?_eq_some hfind
  obtain ⟨y, hy, rfl⟩ := List.mem_map.1 hmem
  have href : y.2.1.toolRef = toolRef := by simpa using List.find?_some hfind
  have hxy : x = y := List.inj_on_of_nodup_map hsound.bindings.refs hx hy (hxref.trans href.symm)
  rw [← hxy] at hresolve hhash
  obtain ⟨hk, hid, hversion, hkhash, -⟩ := hsound.bindings.contracts x hx
  obtain ⟨hk', hid', hversion'⟩ := Lowerer.resolve_ok hresolve
  have hdata := hbind x.2.2 hk contract hk' (hid.trans hid'.symm) (hversion.trans hversion'.symm) (hkhash.symm.trans hhash)
  obtain ⟨-, htype, hclass⟩ := ToolContract.toCanonicalData_inj hdata
  exact ⟨htype.symm, hclass.symm⟩

/-! ## The invariant -/

/-- **Each bound value has the classification its symbol is declared with, and each emitted one a classification that
its output allows.** -/
structure Labelled (skill : SkillObject) (r : Recorded) : Prop where
  same  : r.skill = skill
  bound : r.Bound (fun i v => ∃ t, Declares skill.symbols i t v.classification)
  rows  : ∀ row ∈ r.outputs, ∀ name v, row.fields.get? name = some v →
    ∃ o, skill.outputs.find? (fun o => o.name = name) = some o ∧ v.classification.allows o.classification = true

/-- The value has the classification of its expression. -/
def HasLabel (skill : SkillObject) (tools : ToolsById) (e : Expression) (v : ValueEnvelope) : Prop :=
  ∀ c, Typed skill.symbols tools e c → v.classification = c

theorem Labelled.of_recorded {c c' : Context} (h : Labelled skill c.recorded) (hc : c'.recorded = c.recorded) :
    Labelled skill c'.recorded := by
  rw [hc]
  exact h

/-- Binding a value with the classification of its symbol. -/
theorem bindOnce_labelled {symbolId : String} {put : Context → Context}
    (hput : ∀ c, Labelled skill c.recorded → Labelled skill (put c).recorded) :
    Run.Preserves (fun s => Labelled skill s.ctx.recorded) (bindOnce symbolId put) := by
  refine (Run.preserves_look _).andThen (fun ctx => ?_)
  split
  · exact Run.preserves_fail _
  · exact Run.preserves_write (fun s hs => hput s.ctx hs)

theorem bindSymbol_labelled {i : String} {v : ValueEnvelope} (hv : ∃ t, Declares skill.symbols i t v.classification) :
    Run.Preserves (fun s => Labelled skill s.ctx.recorded) (bindSymbol i v) :=
  bindOnce_labelled (fun _ h => ⟨h.same, h.bound.symbol hv, h.rows⟩)

theorem popFrame_labelled : Run.Preserves (fun s => Labelled skill s.ctx.recorded) popFrame :=
  popFrame_preserves (fun _ _ _ _ _ hf hg h => ⟨h.same, h.bound.pop hf hg, h.rows⟩)

/-! ## Expressions -/

omit [Platform] in
/-- A built-in has one argument. -/
theorem resolveBuiltin_one {name : String} {ts : List (Option TypeRef)} {t : TypeRef}
    (h : resolveBuiltin name ts = .ok t) : ∃ u, ts = [u] := by
  unfold resolveBuiltin at h
  split at h
  · cases h
  · split at h
    · exact ⟨_, rfl⟩
    · cases h
    · cases h

/-- A read value has the classification of its contract. -/
theorem executeRead_label (hsound : Lowerer.SoundSkill catalog tools skill) (hbind : HashesBind catalog env.catalog)
    (n u : String) (es : List (String × Expression)) (t : TypeRef) (p : ResultPolicy) :
    Run.Keeps (fun s => Labelled skill s.ctx.recorded) (HasLabel skill tools (.read n u es t p))
      (executeRead env n u (es.map Prod.fst) (evaluateArguments env es) p) := by
  intro s hs
  have hquiet := (executeRead_quiet env n u (es.map Prod.fst) (evaluateArguments_quiet env es) p).preserves
    (I := Labelled skill) s
  refine ⟨fun x hx => hquiet.1 x hx hs, hquiet.2 hs, fun v hv c hc => ?_⟩
  rcases hrun : executeRead env n u (es.map Prod.fst) (evaluateArguments env es) p s with ⟨w, s', o⟩
  rw [hrun] at hv
  subst hv
  obtain ⟨required, contract, principal, decision, result, ref, hresolve, hhash, hresult, rfl⟩ := executeRead_value env hrun
  obtain ⟨hfind, hcontract⟩ := resolveRead_ok env hresolve
  have hskill : s.ctx.skill = skill := hs.same
  rw [hskill] at hfind
  obtain ⟨-, hclass, -⟩ := validateResult_ok hresult
  obtain ⟨-, hlabel⟩ := read_contract hsound hbind hfind hcontract hhash hc.2
  exact hclass.trans hlabel

omit [Platform] in
theorem callValue_label {f : String} {t : TypeRef} {vs : List ValueEnvelope} {x : ValueEnvelope}
    (h : callValue env f t vs = .ok x) : ∃ v, vs.head? = some v ∧ x.classification = v.classification := by
  unfold callValue at h
  split at h
  · cases h
  · cases h
  · cases vs with
    | nil       => cases h
    | cons v vs =>
      cases h
      exact ⟨v, rfl, rfl⟩

omit [Platform] in
theorem typedItems_label : ∀ {es : List Expression} {vs : List ValueEnvelope} {cs : List DataClassification},
    List.Forall₂ (HasLabel skill tools) es vs → TypedItems skill.symbols tools es cs → vs.map (·.classification) = cs := by
  intro es vs cs h
  induction h generalizing cs with
  | nil                 =>
    intro hcs
    cases cs with
    | nil      => rfl
    | cons _ _ => exact hcs.elim
  | @cons e v es vs hv _ ih =>
    intro hcs
    cases cs with
    | nil       => exact hcs.elim
    | cons c cs => rw [List.map_cons, hv c hcs.1, ih hcs.2]

theorem labels_rules (hsound : Lowerer.SoundSkill catalog tools skill) (hbind : HashesBind catalog env.catalog) :
    EvaluationRules env (fun s => Labelled skill s.ctx.recorded) (HasLabel skill tools) where
  quiet   := fun s x hx h => h.of_recorded hx.recorded
  literal := fun n value t c hc => hc.symm
  symbol  := fun n i t s v hs hv c hc => by
    obtain ⟨t', hd⟩ := hs.bound.resolve hv
    exact (hd.unique hsound.ids hc).2
  field   := fun n e f t v x hv hx c hc => by
    obtain ⟨y, -, hy⟩ := Stateful.bind_eq_ok hx
    cases hy
    exact hv c hc.1
  project := fun n e f t v x hv hx c hc => by
    obtain ⟨ys, -, hy⟩ := Stateful.bind_eq_ok hx
    obtain ⟨zs, -, hz⟩ := Stateful.bind_eq_ok hy
    cases hz
    exact hv c hc.1
  call    := fun n f es t vs x hvs hx c hc => by
    obtain ⟨cs, hcs, hhead, -⟩ := hc
    obtain ⟨v, hv, hclass⟩ := callValue_label hx
    rw [← typedItems_label hvs hcs, List.head?_map, hv] at hhead
    rw [hclass]
    exact Option.some.inj hhead
  binary  := fun n op l r t v w x hv hw hx c hc => by
    obtain ⟨cl, cr, o, hl, hr, -, -, -, rfl⟩ := hc
    obtain ⟨y, -, hy⟩ := Stateful.bind_eq_ok hx
    cases hy
    show v.classification.highest w.classification = _
    rw [hv cl hl, hw cr hr, laterClassification_eq]
  read    := executeRead_label hsound hbind

/-! ## Statements -/

/-- What an EMIT lets through: values whose classification their output allows. -/
def RowAllowed (outputs : List OutputField) (values : List (String × ValueEnvelope)) : Prop :=
  ∀ nv ∈ values, ∃ o, outputs.find? (fun o => o.name = nv.1) = some o ∧ nv.2.classification.allows o.classification = true

theorem emitField_gives (outputs : List OutputField) (name : String) (e : Expression) :
    Run.Gives (fun v => ∃ o, outputs.find? (fun o => o.name = name) = some o ∧
      v.classification.allows o.classification = true) (emitField env outputs name e) := by
  unfold emitField
  cases hfind : outputs.find? (fun o => o.name = name) with
  | none   => exact Run.gives_fail _
  | some o =>
    simp only []
    split
    · exact Run.gives_fail _
    · refine Run.gives_after (fun v => Run.gives_after (fun _ => ?_))
      split
      · rename_i hallows
        exact Run.gives_done ⟨o, rfl, hallows⟩
      · exact Run.gives_fail _

theorem emitFields_gives (outputs : List OutputField) (fields : List (String × Expression)) :
    Run.Gives (RowAllowed outputs) (emitFields env outputs fields) := by
  induction fields with
  | nil => exact Run.gives_done (fun nv hnv => (List.not_mem_nil hnv).elim)
  | cons x es ih =>
    obtain ⟨n, e⟩ := x
    unfold emitFields
    exact (emitField_gives outputs n e).andThen (fun v hv => ih.andThen (fun vs hvs =>
      Run.gives_done (List.forall_mem_cons.2 ⟨hv, hvs⟩)))

omit [Platform] in
/-- The record of allowed values holds allowed values. -/
theorem emitRecord_allowed {outputs : List OutputField} {values : List (String × ValueEnvelope)} {record : EmitRecord}
    (hvalues : RowAllowed outputs values) (h : emitRecord outputs values = .ok record) :
    ∀ name v, record.fields.get? name = some v →
      ∃ o, outputs.find? (fun o => o.name = name) = some o ∧ v.classification.allows o.classification = true := by
  intro name v hv
  unfold emitRecord at h
  split at h
  · cases h
  · cases h
    obtain ⟨o, -, ho⟩ := List.mem_filterMap.1 (Dict.mem_of_get?_ofList hv)
    obtain ⟨x, hx, heq⟩ := Option.map_eq_some_iff.1 ho
    cases heq
    exact hvalues _ (mem_of_lookup hx)

theorem executeEmit_labelled (s : EmitStatement) :
    Run.Preserves (fun x => Labelled skill x.ctx.recorded) (executeEmit env s) := by
  have hpre : ∀ {α : Type} {m : Run St Exn α}, Quiets env m → Run.Preserves (fun x => Labelled skill x.ctx.recorded) m :=
    fun hm => hm.preserves
  have hctx : Run.Keeps (fun x : St => Labelled skill x.ctx.recorded) (fun c : Context => c.skill = skill) getCtx :=
    Run.keeps_look (fun x hx => hx.same)
  have happend : ∀ values, RowAllowed skill.outputs values →
      Run.Preserves (fun x => Labelled skill x.ctx.recorded) (appendRow env s.nodeId skill.outputs values) := by
    intro values hvalues
    refine ((Run.keeps_ofExcept (fun record hrecord => emitRecord_allowed hvalues hrecord)).andThen (R := fun _ => True)
      (fun record hrecord => ?_)).preserves
    have hrow : Run.Preserves (fun x => Labelled skill x.ctx.recorded) (recordOutput record) := by
      refine Run.preserves_write (fun x hx => ⟨hx.same, hx.bound, fun row hmem => ?_⟩)
      rcases List.mem_append.1 hmem with hmem | hmem
      · exact hx.rows row hmem
      · rw [List.mem_singleton.1 hmem]
        exact hrecord
    have hcount : Quiets env recordEmit := Quiets.modifyCtx (fun x => Quiet.meter x _)
    have hreport : Quiets env (reportRow env s.nodeId values) :=
      (putSnapshot_quiet env _ _).bind (fun _ => emitHidden_quiet env _ _ _ _ _)
    exact (hrow.andThen (fun _ => (hpre hcount).andThen (fun _ => hpre hreport))).keeps
  refine (Run.keeps_after (hpre (beforeEmit_quiet env)) (R := fun _ => True) (fun _ => hctx.andThen
    (fun ctx hskill => ?_))).preserves
  subst hskill
  split
  · have hvalues := (hpre (emitFields_quiet env ctx.skill.outputs s.fields)).keeps_gives
      (emitFields_gives ctx.skill.outputs s.fields)
    exact hvalues.andThen (fun values hv => (happend values hv).keeps)
  · exact Run.keeps_fail _

theorem recordVerdict_labelled {s : CheckStatement} (v : ValueEnvelope)
    (hd : Declares skill.symbols s.resultSymbolId CHECK_RESULT .internal) :
    Run.Preserves (fun x => Labelled skill x.ctx.recorded) (recordVerdict env s v) := by
  refine (Run.preserves_ofExcept _).andThen (fun check => ?_)
  have hrecord : Run.Preserves (fun x => Labelled skill x.ctx.recorded) (recordCheck check) :=
    Run.preserves_write (fun x hx => ⟨hx.same, hx.bound, hx.rows⟩)
  refine hrecord.andThen (fun _ => Run.Preserves.andThen ?_ (fun _ => (emit_quiet env _ _).preserves))
  exact bindOnce_labelled (fun _ h => ⟨h.same, h.bound.check ⟨_, hd⟩, h.rows⟩)

theorem labels_execution (hsound : Lowerer.SoundSkill catalog tools skill) (hbind : HashesBind catalog env.catalog) :
    ExecutionRules env (fun s => Labelled skill s.ctx.recorded) (HasLabel skill tools)
      (TypedStatement skill.symbols tools skill.outputs) where
  toEvaluationRules := labels_rules hsound hbind
  push  := Run.preserves_write (fun x hx => ⟨hx.same, hx.bound.push, hx.rows⟩)
  pop   := popFrame_labelled
  node  := fun s n h => h
  depth := fun s n h => h
  bind  := fun s v hs hv => by
    obtain ⟨c, hc, hd⟩ := hs
    rw [← hv c hc] at hd
    exact bindSymbol_labelled ⟨_, hd⟩
  item  := fun n i e m body v value hs hv => by
    obtain ⟨⟨c, t, hc, -, -, hd⟩, -⟩ := hs
    rw [← hv c hc] at hd
    exact bindSymbol_labelled ⟨t, hd⟩
  check := fun s v hs _ => recordVerdict_labelled v hs.2.2
  emit  := fun s _ => executeEmit_labelled s

end LabelsSound
end Nsl
