import Nsl.Evaluation
/-!
# Tracking — what is so of a value in the state it is in

As `Evaluation`, for what is said of a value by the calls made and the CHECKs recorded so far. Both only grow in an
execution, so what is said of a value lasts.
-/
namespace Nsl

open Stateful (Run)

section Tracking

variable [Platform]

/-- The calls made and the CHECKs recorded before are still there. -/
def Grows (s x : St) : Prop := s.world.calls <+: x.world.calls ∧ s.ctx.checks <+: x.ctx.checks

instance : IsPreorder St Grows where
  refl _ := ⟨List.prefix_rfl, List.prefix_rfl⟩
  trans _ _ _ h h' := ⟨h.1.trans h'.1, h.2.trans h'.2⟩

/-- A run that keeps `I` and lets nothing shrink. -/
def Tracks {α : Type} (I : St → Prop) (m : Run St Exn α) : Prop :=
  Run.Leads I Grows (fun _ => True) m (fun _ _ => True)

variable {env : Env} {I : St → Prop}

theorem Still.grows {s x : St} (h : Still env s x) : Grows s x := by
  cases h with
  | world w hw hc => exact ⟨hc ▸ List.prefix_rfl, List.prefix_rfl⟩
  | _             => exact ⟨List.prefix_rfl, List.prefix_rfl⟩

theorem Stills.tracks {α : Type} {m : Run St Exn α} (h : Stills env m) (hI : ∀ s x, Still env s x → I s → I x) :
    Tracks I m := (Run.Steps.preserves hI h).leads (h.always (fun _ _ => Still.grows))

/-- One write that keeps `I`, of neither calls nor CHECKs. -/
theorem tracks_modifyCtx {f : Context → Context} (hI : ∀ s, I s → I { s with ctx := f s.ctx })
    (hf : ∀ c, (f c).checks = c.checks) : Tracks I (modifyCtx f) :=
  Run.leads_write (fun s hs _ => ⟨hI s hs, ⟨List.prefix_rfl, hf s.ctx ▸ List.prefix_rfl⟩, trivial⟩)

/-- A binding keeps `I` where putting the value does. -/
theorem bindOnce_leads {P : St → Prop} {symbolId : String} {put : Context → Context} (hput : ∀ c, (put c).checks = c.checks)
    (h : ∀ s, I s → P s → I { s with ctx := put s.ctx }) :
    Run.Leads I Grows P (bindOnce symbolId put) (fun _ _ => True) := by
  unfold bindOnce getCtx
  refine Run.leads_look_andThen (fun ctx => ?_)
  split
  · exact Run.leads_fail _
  · exact Run.leads_write (fun s hs hp => ⟨h s hs hp, ⟨List.prefix_rfl, hput s.ctx ▸ List.prefix_rfl⟩, trivial⟩)

/-! ## Expressions -/

/-- An item of a collection, as a loop binds it. -/
def ValueEnvelope.itemOf (v : ValueEnvelope) (value : Value) : ValueEnvelope :=
  { v with value, typeInfo := v.typeInfo.bind (·.item), presence := .present }

/-- **What an invariant `I` and a property `Q` of values in a state have to bring**, kind by kind, for the statements
with `P`. -/
structure TrackingRules (env : Env) (I : St → Prop) (Q : Expression → ValueEnvelope → St → Prop)
    (P : Statement → Prop) : Prop where
  still   : ∀ s x, Still env s x → I s → I x
  lasts   : ∀ e v, Run.Lasts Grows (Q e v)
  literal : ∀ n value t s, Q (.literal n value t) (.ofComplete value t .publicData []) s
  symbol  : ∀ n i t s v, I s → s.ctx.resolve i = .ok v → Q (.symbolRef n i t) v s
  field   : ∀ n e f t v x s, Q e v s → fieldValue f t v = .ok x → Q (.field n e f t) x s
  project : ∀ n e f t v x s, Q e v s → projectValue f t v = .ok x → Q (.project n e f t) x s
  call    : ∀ n f es t vs x s, List.Forall₂ (fun e v => Q e v s) es vs → callValue env f t vs = .ok x →
    Q (.call n f es t) x s
  binary  : ∀ n op l r t v w x s, Q l v s → Q r w s → binaryValue env op t v w = .ok x → Q (.binary n op l r t) x s
  read    : ∀ n u es t p, Tracks I (evaluateArguments env es) →
    Run.Leads I Grows (fun _ => True) (executeRead env n u (es.map Prod.fst) (evaluateArguments env es) p)
      (Q (.read n u es t p))
  input   : ∀ s i value t c, I s →
    I { s with ctx := { s.ctx with inputValues := s.ctx.inputValues.set i (.ofComplete value t c []) } }
  context : ∀ s i value t c, I s →
    I { s with ctx := { s.ctx with contextValues := s.ctx.contextValues.set i (.ofComplete value t c []) } }
  push    : ∀ s, I s →
    I { s with ctx := { s.ctx with frames := s.ctx.frames.push, checkFrames := s.ctx.checkFrames.push } }
  pop     : ∀ s f fs g gs, s.ctx.frames.below = f :: fs → s.ctx.checkFrames.below = g :: gs → I s →
    I { s with ctx := { s.ctx with frames := ⟨f, fs⟩, checkFrames := ⟨g, gs⟩ } }
  node    : ∀ s n, I s → I { s with ctx := { s.ctx with currentNodeId := n } }
  depth   : ∀ s n, I s → I { s with ctx := { s.ctx with foreachDepth := n } }
  output  : ∀ s r, I s → I { s with ctx := { s.ctx with outputs := s.ctx.outputs ++ [r] } }
  bind    : ∀ s t v, P (.letBind t) → I s → Q t.value v s →
    I { s with ctx := { s.ctx with frames := s.ctx.frames.bind t.targetSymbolId v } }
  item    : ∀ s n i c m body v value, P (.foreach n i c m body) → I s → Q c v s →
    I { s with ctx := { s.ctx with frames := s.ctx.frames.bind i (v.itemOf value) } }
  record  : ∀ s t v r, P (.check t) → I s → Q t.condition v s → evaluateCheck t v = .ok r →
    I { s with ctx := { s.ctx with checks := s.ctx.checks ++ [r] } }
  status  : ∀ s t v r, P (.check t) → I s → Q t.condition v s → evaluateCheck t v = .ok r →
    I { s with ctx := { s.ctx with
      checks := s.ctx.checks ++ [r], checkFrames := s.ctx.checkFrames.bind t.resultSymbolId
        (.ofComplete (.dict [("status", .str (StrEnum.value r.status))]) CHECK_RESULT .internal v.provenanceRefs) } }

namespace TrackingRules

variable {Q : Expression → ValueEnvelope → St → Prop} {P : Statement → Prop}

theorem stills {α : Type} {m : Run St Exn α} (h : TrackingRules env I Q P) (hm : Stills env m) : Tracks I m :=
  hm.tracks h.still

/-- What is around every expression keeps what is said of its value. -/
theorem around (h : TrackingRules env I Q P) {e : Expression} {ir : Run St Exn ValueEnvelope}
    (hir : Run.Leads I Grows (fun _ => True) ir (Q e)) : Run.Leads I Grows (fun _ => True) (evaluated env e ir) (Q e) := by
  unfold evaluated
  split
  · exact Run.leads_fail _
  · have hhandled : Run.Leads I Grows (fun _ => True)
        (Run.handle (do checkDeadline env; ir) (fun error => Run.fail (evaluationError e error))) (Q e) :=
      ((h.stills (checkDeadline_still env)).andThen (fun _ => hir)).handle (fun _ => Run.leads_fail _)
    refine hhandled.andThen (fun result => ?_)
    split
    · exact Run.leads_fail _
    · refine (h.stills (observeCompleteness_still env _)).andThen_keeping (h.lasts e result) (fun _ => ?_)
      refine (h.stills (checkDeadline_still env)).andThen_keeping (h.lasts e result) (fun _ => ?_)
      refine (h.stills (onList_still env (checkCollection_still env) _)).andThen_keeping (h.lasts e result) (fun _ => ?_)
      exact Run.leads_done (fun _ _ hq => hq)

mutual
theorem evaluateIr (h : TrackingRules env I Q P) : ∀ (e : Expression),
    Run.Leads I Grows (fun _ => True) (Nsl.evaluateIr env e) (Q e)
  | .literal n value t => by
    unfold Nsl.evaluateIr
    exact Run.leads_done (fun s _ _ => h.literal n value t s)
  | .symbolRef n i t => by
    unfold Nsl.evaluateIr
    intro s hs hp
    have hlook : ∀ v, s.ctx.resolve i = .ok v → ∀ x, I x → x = s → Q (.symbolRef n i t) v x := by
      rintro v hv _ hx rfl
      exact h.symbol n i t _ v hx hv
    exact Run.leads_ofExcept (G := Grows) hlook s hs rfl
  | .field n source f t => by
    unfold Nsl.evaluateIr
    exact (h.around (evaluateIr h source)).andThen (fun v =>
      Run.leads_ofExcept (fun x hx s _ hv => h.field n source f t v x s hv hx))
  | .project n source f t => by
    unfold Nsl.evaluateIr
    exact (h.around (evaluateIr h source)).andThen (fun v =>
      Run.leads_ofExcept (fun x hx s _ hv => h.project n source f t v x s hv hx))
  | .call n f arguments t => by
    unfold Nsl.evaluateIr
    exact (evaluateItems h arguments).andThen (fun vs =>
      Run.leads_ofExcept (fun x hx s _ hvs => h.call n f arguments t vs x s hvs hx))
  | .binary n op left right t => by
    unfold Nsl.evaluateIr
    refine (h.around (evaluateIr h left)).andThen (fun v => ?_)
    have hright := ((h.around (evaluateIr h right)).frame (h.lasts left v)).conseq (S := Q left v)
      (fun _ _ hv => ⟨trivial, hv⟩) (fun _ _ _ hq => hq)
    exact hright.andThen (fun w => Run.leads_ofExcept (fun x hx s _ hq =>
      h.binary n op left right t v w x s hq.2 hq.1 hx))
  | .read n u arguments t p => by
    unfold Nsl.evaluateIr
    exact h.read n u arguments t p (evaluateArguments h arguments)
  | .write .. => by
    unfold Nsl.evaluateIr
    exact Run.leads_fail _
theorem evaluateItems (h : TrackingRules env I Q P) : ∀ (es : List Expression),
    Run.Leads I Grows (fun _ => True) (Nsl.evaluateItems env es) (fun vs s => List.Forall₂ (fun e v => Q e v s) es vs)
  | [] => by
    unfold Nsl.evaluateItems
    exact Run.leads_done (fun _ _ _ => List.Forall₂.nil)
  | e :: es => by
    unfold Nsl.evaluateItems
    refine (h.around (evaluateIr h e)).andThen (fun v => ?_)
    have hrest := ((evaluateItems h es).frame (h.lasts e v)).conseq (S := Q e v) (fun _ _ hv => ⟨trivial, hv⟩)
      (fun _ _ _ hq => hq)
    exact hrest.andThen (fun vs => Run.leads_done (fun _ _ hq => List.Forall₂.cons hq.2 hq.1))
theorem evaluateArguments (h : TrackingRules env I Q P) : ∀ (es : List (String × Expression)),
    Tracks I (Nsl.evaluateArguments env es)
  | [] => by
    unfold Nsl.evaluateArguments
    exact Run.leads_done (fun _ _ _ => trivial)
  | (_, e) :: es => by
    unfold Nsl.evaluateArguments
    refine ((h.around (evaluateIr h e)).conseq (fun _ _ hp => hp) (fun _ _ _ _ => trivial)).andThen (fun v => ?_)
    exact Run.Leads.andThen (evaluateArguments h es) (fun vs => Run.leads_done (fun _ _ _ => trivial))
end

/-- **The evaluator lets nothing shrink, keeps the invariant and gives values with the property.** -/
theorem evaluate (h : TrackingRules env I Q P) (e : Expression) :
    Run.Leads I Grows (fun _ => True) (Nsl.evaluate env e) (Q e) := h.around (h.evaluateIr e)

/-- Where only the state matters. -/
theorem evaluate_tracks (h : TrackingRules env I Q P) (e : Expression) : Tracks I (Nsl.evaluate env e) :=
  (h.evaluate e).conseq (fun _ _ hp => hp) (fun _ _ _ _ => trivial)

/-! ## Statements -/

theorem pushes (h : TrackingRules env I Q P) : Tracks I pushFrame := tracks_modifyCtx h.push (fun _ => rfl)

theorem pops (h : TrackingRules env I Q P) : Tracks I popFrame := by
  intro s hs _
  have hgrows : ∀ f g : Frames, Grows s { s with ctx := { s.ctx with frames := f, checkFrames := g } } := fun _ _ =>
    ⟨List.prefix_rfl, List.prefix_rfl⟩
  unfold popFrame getCtx
  rw [Run.bind_eq, Run.look_andThen]
  cases hf : s.ctx.frames.below with
  | nil       => exact ⟨fun x hx => (List.not_mem_nil hx).elim, ⟨hs, Std.Refl.refl s⟩, fun _ _ => trivial⟩
  | cons f fs =>
    cases hg : s.ctx.checkFrames.below with
    | nil       => exact ⟨fun x hx => (List.not_mem_nil hx).elim, ⟨hs, Std.Refl.refl s⟩, fun _ _ => trivial⟩
    | cons g gs =>
      have hpop := h.pop s f fs g gs hf hg hs
      exact ⟨fun x hx => List.mem_singleton.1 hx ▸ ⟨hpop, hgrows _ _⟩, ⟨hpop, hgrows _ _⟩, fun _ _ => trivial⟩

/-- Where a CHECK goes on, it was evaluated. -/
theorem evaluatedCheck_leads (t : CheckStatement) (v : ValueEnvelope) :
    Run.Leads I Grows (Q t.condition v) (Run.ofExcept (match evaluateCheck t v with
      | .error (.checkEvaluation m) => .error (.runtimeContract m)
      | other                       => other) : Run St Exn CheckResult)
      (fun r s => evaluateCheck t v = .ok r ∧ Q t.condition v s) := by
  refine Run.leads_ofExcept (fun r hr s _ hq => ⟨?_, hq⟩)
  split at hr
  · cases hr
  · exact hr

/-- **A CHECK records its verdict, and then binds its status.** -/
theorem recordVerdict (h : TrackingRules env I Q P) {t : CheckStatement} (hP : P (.check t)) (v : ValueEnvelope) :
    Run.Leads I Grows (Q t.condition v) (Nsl.recordVerdict env t v) (fun _ _ => True) := by
  refine (evaluatedCheck_leads t v).andThen (fun r => ?_)
  -- what the record leaves for the binding after it
  have hrecord : Run.Leads I Grows (fun s => evaluateCheck t v = .ok r ∧ Q t.condition v s) (recordCheck r) (fun _ x =>
      ∃ s, I s ∧ evaluateCheck t v = .ok r ∧ Q t.condition v s ∧
        x = { s with ctx := { s.ctx with checks := s.ctx.checks ++ [r] } }) :=
    Run.leads_write (fun s hs hq => ⟨h.record s t v r hP hs hq.2 hq.1, ⟨List.prefix_rfl, List.prefix_append _ _⟩,
      s, hs, hq.1, hq.2, rfl⟩)
  refine hrecord.andThen (fun _ => Run.Leads.andThen (Q := fun _ _ => True) ?_ (fun _ => h.stills (emit_still env _ _)))
  refine bindOnce_leads (fun _ => rfl) ?_
  rintro _ - ⟨s, hs, hr, hq, rfl⟩
  exact h.status s t v r hP hs hq hr

theorem aroundStatement (h : TrackingRules env I Q P) (s : Statement) {run : Run St Exn Unit} (hrun : Tracks I run) :
    Tracks I (Nsl.aroundStatement env s run) := by
  have hnode : ∀ n, Tracks I (modifyCtx (fun c => { c with currentNodeId := n })) := fun n =>
    tracks_modifyCtx (fun x hx => h.node x n hx) (fun _ => rfl)
  have hemit : ∀ t p, Tracks I (emit env t p) := fun t p => h.stills (emit_still env t p)
  exact (h.stills (checkDeadline_still env)).andThen (fun _ => Run.leads_look_andThen (fun ctx =>
    (hnode _).andThen (fun _ => (hemit _ _).andThen (fun _ => hrun.andThen (fun _ => (hemit _ _).andThen (fun _ =>
      hnode _))))))

theorem loopPass (h : TrackingRules env I Q P) {n i : String} {c : Expression} {m : Int} {body : List Statement}
    {source : ValueEnvelope} {run : Run St Exn Unit} (hP : P (.foreach n i c m body)) (hrun : Tracks I run) (value : Value) :
    Run.Leads I Grows (Q c source) (Nsl.loopPass env i source run value) (fun _ _ => True) := by
  refine (h.stills (beforeLoopIteration_still env)).andThen_keeping (h.lasts c source) (fun _ => ?_)
  refine h.pushes.andThen_keeping (h.lasts c source) (fun _ => ?_)
  have hitem : Run.Leads I Grows (Q c source) (bindSymbol i (source.itemOf value)) (fun _ _ => True) :=
    bindOnce_leads (fun _ => rfl) (fun s hs hq => h.item s n i c m body source value hP hs hq)
  exact (hitem.andThen (fun _ => hrun)).lastly h.pops (fun _ => Run.lasts_true)

theorem executeForeach (h : TrackingRules env I Q P) {n i : String} {c : Expression} {m : Int} {body : List Statement}
    {run : Run St Exn Unit} (hP : P (.foreach n i c m body)) (hrun : Tracks I run) :
    Tracks I (Nsl.executeForeach env n i c m run) := by
  have hdepth : ∀ f : Context → Nat, Tracks I (modifyCtx (fun c => { c with foreachDepth := f c })) := fun f =>
    tracks_modifyCtx (fun x hx => h.depth x (f x.ctx) hx) (fun _ => rfl)
  have hbody : Tracks I (executeForeachBody env n i c m run) := by
    refine (h.evaluate c).andThen (fun source => ?_)
    refine Run.Leads.andThen_keeping (Run.leads_ofExcept (fun _ _ _ _ _ => trivial)) (h.lasts c source) (fun size => ?_)
    split
    · exact Run.leads_fail _
    · refine Run.Leads.andThen_keeping (Run.leads_ofExcept (fun _ _ _ _ _ => trivial)) (h.lasts c source) (fun values => ?_)
      exact Run.leads_forEach (h.lasts c source) (fun value => h.loopPass hP hrun value) values
  unfold Nsl.executeForeach Tracks
  refine Run.leads_look_andThen (fun ctx => ?_)
  split
  · exact Run.leads_fail _
  · exact (hdepth _).andThen (fun _ => hbody.lastly (hdepth _) (fun _ => Run.lasts_true))

theorem emitFields (h : TrackingRules env I Q P) (outputs : List OutputField) (fields : List (String × Expression)) :
    Tracks I (Nsl.emitFields env outputs fields) := by
  induction fields with
  | nil          => exact Run.leads_done (fun _ _ _ => trivial)
  | cons f es ih =>
    obtain ⟨n, e⟩ := f
    have hfield : Tracks I (emitField env outputs n e) := by
      unfold emitField
      split
      · exact Run.leads_fail _
      · split
        · exact Run.leads_fail _
        · refine (h.evaluate_tracks e).andThen (fun v => Run.Leads.andThen (Q := fun _ _ => True)
            (Run.leads_ofExcept (fun _ _ _ _ _ => trivial)) (fun _ => ?_))
          split
          · exact Run.leads_done (fun _ _ _ => trivial)
          · exact Run.leads_fail _
    exact hfield.andThen (fun v => ih.andThen (fun vs => Run.leads_done (fun _ _ _ => trivial)))

theorem executeEmit (h : TrackingRules env I Q P) (s : EmitStatement) : Tracks I (Nsl.executeEmit env s) := by
  have happend : ∀ outputs values, Tracks I (appendRow env s.nodeId outputs values) := by
    intro outputs values
    refine Run.Leads.andThen (Q := fun _ _ => True) (Run.leads_ofExcept (fun _ _ _ _ _ => trivial)) (fun record => ?_)
    have hput : Tracks I (recordOutput record) := tracks_modifyCtx (fun x hx => h.output x record hx) (fun _ => rfl)
    have hcount : Stills env recordEmit := Stills.modifyCtx (fun x => Still.meter x _)
    have hreport : Stills env (reportRow env s.nodeId values) :=
      (putSnapshot_still env _ _).bind (fun _ => emitHidden_still env _ _ _ _ _)
    exact hput.andThen (fun _ => (h.stills hcount).andThen (fun _ => h.stills hreport))
  refine (h.stills (beforeEmit_still env)).andThen (fun _ => Run.leads_look_andThen (fun ctx => ?_))
  split
  · exact (h.emitFields _ _).andThen (fun values => happend _ values)
  · exact Run.leads_fail _

mutual
theorem executeStatement (h : TrackingRules env I Q P) : ∀ (s : Statement), (∀ t ∈ s.within, P t) →
    Tracks I (Nsl.executeStatement env s)
  | .letBind s, hP                                             => by
    unfold Nsl.executeStatement
    exact (h.evaluate s.value).andThen (fun v => bindOnce_leads (fun _ => rfl)
      (fun x hx hq => h.bind x s v (hP _ (Statement.mem_within _)) hx hq))
  | .foreach nodeId iterator collection maxIterations body, hP => by
    unfold Nsl.executeStatement
    have hbody : ∀ t ∈ withinBlock body, P t := by
      intro t ht
      refine hP t ?_
      unfold Statement.within
      exact List.mem_cons_of_mem _ ht
    exact h.executeForeach (hP _ (Statement.mem_within _)) (executeBlock h body hbody)
  | .check s, hP                                               => by
    unfold Nsl.executeStatement
    rw [executeCheck_eq]
    exact (h.evaluate s.condition).andThen (fun v => h.recordVerdict (hP _ (Statement.mem_within _)) v)
  | .emit s, _                                                 => by
    unfold Nsl.executeStatement
    exact h.executeEmit s
  | .approval _, _                                             => by
    unfold Nsl.executeStatement
    exact Run.leads_fail _
/-- **A block lets nothing shrink and keeps the invariant**, at every point of every run of it. -/
theorem executeBlock (h : TrackingRules env I Q P) : ∀ (ss : List Statement), (∀ t ∈ withinBlock ss, P t) →
    Tracks I (Nsl.executeBlock env ss)
  | [], _       => by
    unfold Nsl.executeBlock
    exact Run.leads_done (fun _ _ _ => trivial)
  | s :: ss, hP => by
    unfold Nsl.executeBlock
    have hs : ∀ t ∈ s.within, P t := fun t ht => hP t (List.mem_append_left _ ht)
    have hss : ∀ t ∈ withinBlock ss, P t := fun t ht => hP t (List.mem_append_right _ ht)
    exact (h.aroundStatement s (executeStatement h s hs)).andThen (fun _ => executeBlock h ss hss)
end

/-! ## Executions -/

/-- **An execution lets nothing shrink and keeps the invariant.** -/
theorem executionTry (h : TrackingRules env I Q P) {skill : SkillObject} {request : ExecutionRequest}
    {principal : ExecutionPrincipal} {decision : AuthorizationDecision} {statements : List Statement}
    {allowControlled : Bool} (hP : ∀ t ∈ withinBlock statements, P t) :
    Tracks I (Nsl.executionTry env skill request principal decision statements allowControlled) := by
  have hinput : ∀ i value t c, Tracks I (bindInput i (.ofComplete value t c [])) := fun i value t c =>
    bindOnce_leads (fun _ => rfl) (fun s hs _ => h.input s i value t c hs)
  have hcontext : ∀ i value t c, Tracks I (bindContext i (.ofComplete value t c [])) := fun i value t c =>
    bindOnce_leads (fun _ => rfl) (fun s hs _ => h.context s i value t c hs)
  have hbind : Tracks I (bindInputsAndContexts env skill request) :=
    (h.stills (validatedInputs_still (observeCollection_still env) _ _)).andThen (fun ps =>
      (h.stills (validatedContexts_still (observeCollection_still env) _ _)).andThen (fun qs =>
        (Run.leads_forEach Run.lasts_true (fun _ => hinput _ _ _ _) ps).andThen (fun _ =>
          Run.leads_forEach Run.lasts_true (fun _ => hcontext _ _ _ _) qs)))
  have hprologue : Tracks I (executionPrologue env skill request principal decision allowControlled) :=
    (h.stills (checkDeadline_still env)).andThen (fun _ => Run.Leads.andThen (Q := fun _ _ => True)
      (Run.leads_ofExcept (fun _ _ _ _ _ => trivial)) (fun _ =>
        (h.stills (executionStarted_still env skill request principal decision)).andThen (fun _ => hbind)))
  exact (hprologue.andThen (fun _ => (h.executeBlock statements hP).andThen (fun _ =>
    h.stills (executionEpilogue_still env decision)))).handle (fun e => h.stills (onFailure_still env e))

end TrackingRules
end Tracking
end Nsl
