import Nsl.Bindings
import Nsl.EngineReturns
/-!
# DryRun — the validation of a request against its execution

`validate_execution_request` (`runtime.py`) asks what the execution asks up to its first statement, apart from one part:
the execution also projects the declared contexts, hashes the mappings of the request as they stand and binds each
symbol once. A READ is authorized where the dry run was.
-/
namespace Nsl

open Stateful

/-! ## What the encoders carry -/

mutual
/-- A value without an object of another class, at any depth. -/
def Value.encodable : Value → Bool
  | .foreign _   => false
  | .list items  => itemsEncodable items
  | .tuple items => itemsEncodable items
  | .dict items  => fieldsEncodable items
  | _            => true
def itemsEncodable : List Value → Bool
  | []      => true
  | v :: vs => v.encodable && itemsEncodable vs
def fieldsEncodable : List (String × Value) → Bool
  | []           => true
  | (_, v) :: vs => v.encodable && fieldsEncodable vs
end

mutual
/-- **What is encoded is JSON exactly where there is no object of another class.** -/
theorem encodeValue_isJson_eq : ∀ (v : Value), (encodeValue v).isJson = v.encodable
  | .null | .bool _ | .int _ | .float _ | .str _ | .decimal _ | .money _ | .date _ | .datetime _ | .foreign _ => rfl
  | .list items  => encodeItems_isJson_eq items
  | .tuple items => encodeItems_isJson_eq items
  | .dict items  => encodeFields_isJson_eq items
theorem encodeItems_isJson_eq : ∀ (vs : List Value), itemsJson (encodeItems vs) = itemsEncodable vs
  | []      => rfl
  | v :: vs => by
    rw [encodeItems, itemsJson, itemsEncodable, encodeValue_isJson_eq v, encodeItems_isJson_eq vs]
theorem encodeFields_isJson_eq : ∀ (vs : List (String × Value)), fieldsJson (encodeFields vs) = fieldsEncodable vs
  | []           => rfl
  | (k, v) :: vs => by
    rw [encodeFields, fieldsJson, fieldsEncodable, encodeValue_isJson_eq v, encodeFields_isJson_eq vs]
end

/-- A mapping has a hash exactly where it can be encoded. -/
theorem valueHash_dict_iff [Platform] (items : List (String × Value)) :
    (∃ d, valueHash (.dict items) = .ok d) ↔ fieldsEncodable items = true := by
  have hjson : (toJson (encodeValue (.dict items))).isOk = fieldsEncodable items := by
    rw [toJson_isOk, encodeValue_isJson_eq]
    rfl
  unfold valueHash canonicalJson hashable
  rw [← hjson]
  cases toJson (encodeValue (.dict items)) with
  | error e => simp [Except.map, Except.isOk, Except.toBool]
  | ok j    => simp [Except.map, Except.isOk, Except.toBool]

/-! ## Projected contexts -/

/-- What is projected of a value: the value itself, or a dictionary of projections of its fields. -/
inductive ProjectsTo : Value → Value → Prop
  | same (v : Value) : ProjectsTo v v
  | fields {items target : List (String × Value)} (source : String → Value)
      (hsource : ∀ k w, target.lookup k = some w → items.lookup k = some (source k))
      (hfields : ∀ k w, target.lookup k = some w → ProjectsTo (source k) w) : ProjectsTo (.dict items) (.dict target)

theorem ProjectsTo.field {items target : List (String × Value)} {k : String} {w : Value}
    (h : ProjectsTo (.dict items) (.dict target)) (hw : target.lookup k = some w) :
    ∃ v, items.lookup k = some v ∧ ProjectsTo v w := by
  cases h with
  | same                         => exact ⟨w, hw, .same w⟩
  | fields source hsource hfields => exact ⟨source k, hsource k w hw, hfields k w hw⟩

theorem ProjectsTo.of_fields {items target : List (String × Value)}
    (h : ∀ k w, target.lookup k = some w → ∃ v, items.lookup k = some v ∧ ProjectsTo v w) :
    ProjectsTo (.dict items) (.dict target) := by
  refine .fields (fun k => (items.lookup k).getD .null) (fun k w hw => ?_) (fun k w hw => ?_)
  · obtain ⟨v, hv, -⟩ := h k w hw
    simp [hv]
  · obtain ⟨v, hv, hvw⟩ := h k w hw
    simpa [hv] using hvw

/-- One more field, a projection of the same field. -/
theorem ProjectsTo.set {items target : List (String × Value)} {k : String} {v w : Value}
    (h : ProjectsTo (.dict items) (.dict target)) (hv : items.lookup k = some v) (hw : ProjectsTo v w) :
    ProjectsTo (.dict items) (.dict (Dict.setEntry k w target)) := by
  refine .of_fields (fun k₀ w₀ hw₀ => ?_)
  by_cases hk : k₀ = k
  · subst hk
    rw [Dict.setEntry_lookup_self] at hw₀
    cases hw₀
    exact ⟨v, hv, hw⟩
  · rw [Dict.setEntry_lookup_other w (by simpa using hk)] at hw₀
    exact h.field hw₀

theorem item_eq_ok {v w : Value} {k : String} (h : v.item k = .ok w) : ∃ items, v = .dict items ∧ items.lookup k = some w := by
  unfold Value.item at h
  split at h
  · rename_i items
    split at h
    · rename_i hw
      cases h
      exact ⟨items, rfl, hw⟩
    · cases h
  all_goals cases h

/-- **A path that is there is set in the projection**: what stands on its way are dictionaries. -/
theorem setPath_projects {value : Value} : ∀ {path : List String} {items target : List (String × Value)}, path ≠ [] →
    ProjectsTo (.dict items) (.dict target) → path.foldlM Value.item (Value.dict items) = Except.ok value →
    ∃ target', setPath value path target = .ok target' ∧ ProjectsTo (.dict items) (.dict target')
  | [], _, _, hne, _, _                  => absurd rfl hne
  | [last], items, target, _, h, hvalue  => by
    obtain ⟨w, hw, hrest⟩ := bind_eq_ok hvalue
    cases hrest
    obtain ⟨_, hitems, hlast⟩ := item_eq_ok hw
    cases hitems
    exact ⟨_, rfl, h.set hlast (.same value)⟩
  | part :: next :: path, items, target, _, h, hvalue => by
    rw [List.foldlM_cons] at hvalue
    obtain ⟨w, hw, hrest⟩ := bind_eq_ok hvalue
    obtain ⟨_, hitems, hpart⟩ := item_eq_ok hw
    cases hitems
    obtain ⟨inner, hinner⟩ : ∃ inner, w = .dict inner := by
      rw [List.foldlM_cons] at hrest
      obtain ⟨_, hnext, -⟩ := bind_eq_ok hrest
      obtain ⟨inner, hinner, -⟩ := item_eq_ok hnext
      exact ⟨inner, hinner⟩
    subst hinner
    have hbelow : ∃ below, (target.lookup part).getD (.dict []) = .dict below ∧
        ProjectsTo (.dict inner) (.dict below) := by
      cases htarget : target.lookup part with
      | none   => exact ⟨[], rfl, .of_fields (fun k w hw => by cases hw)⟩
      | some w =>
        obtain ⟨v, hv, hvw⟩ := h.field htarget
        rw [hpart] at hv
        cases hv
        cases hvw with
        | same             => exact ⟨inner, rfl, .same _⟩
        | fields s hs hfields => exact ⟨_, rfl, .fields s hs hfields⟩
    obtain ⟨below, hlookup, hprojects⟩ := hbelow
    obtain ⟨below', hset, hprojects'⟩ := setPath_projects (by simp) hprojects hrest
    refine ⟨Dict.setEntry part (.dict below') target, ?_, h.set hpart hprojects'⟩
    unfold setPath
    rw [hlookup]
    simp only [hset]
    rfl

/-- The contexts whose paths are there are projected exactly when each has a path. -/
theorem projectContexts_ok_iff {context : Dict Value} : ∀ {specs : List ContextSpec} {projected : List (String × Value)},
    (∀ spec ∈ specs, ∃ value, valueAt context spec.path = .ok value) →
    ProjectsTo (.dict context.entries) (.dict projected) →
    ((∃ q, specs.foldlM (fun projected spec =>
      match valueAt context spec.path with
      | .ok value => setPath value spec.path projected
      | .error _  => .ok projected) projected = .ok q) ↔ ∀ spec ∈ specs, spec.path ≠ [])
  | [], projected, _, _             => ⟨fun _ => by simp, fun _ => ⟨projected, rfl⟩⟩
  | spec :: specs, projected, hthere, h => by
    obtain ⟨value, hvalue⟩ := hthere spec (List.mem_cons_self ..)
    rw [List.foldlM_cons]
    simp only [hvalue]
    by_cases hpath : spec.path = []
    · refine ⟨fun ⟨q, hq⟩ => ?_, fun hall => absurd hpath (hall spec (List.mem_cons_self ..))⟩
      rw [hpath] at hq
      cases hq
    · obtain ⟨target, hset, hprojects⟩ := setPath_projects hpath h hvalue
      have hrest := projectContexts_ok_iff (fun s hs => hthere s (List.mem_cons_of_mem _ hs)) hprojects
      simp only [hset, List.forall_mem_cons]
      exact ⟨fun hq => ⟨hpath, hrest.1 hq⟩, fun hall => hrest.2 hall.2⟩

theorem projectDeclaredContext_ok_iff [Platform] {skill : SkillObject} {context : Dict Value}
    (h : ∀ spec ∈ skill.contexts, ∃ value, valueAt context spec.path = .ok value) :
    (∃ q, projectDeclaredContext skill context = .ok q) ↔ ∀ spec ∈ skill.contexts, spec.path ≠ [] :=
  projectContexts_ok_iff h (.of_fields (fun k w hw => by cases hw))

/-! ## Symbols bound once -/

section Execution

variable [Platform]

/-- The context where the symbol is bound as well. -/
structure Binds (symbolId : String) (c c' : Context) : Prop where
  bound : ∀ i, c'.isBound i = (c.isBound i || i = symbolId)

theorem bindOnce_apply (symbolId : String) (put : Context → Context) (s : St) : bindOnce symbolId put s =
    if s.ctx.isBound symbolId then ⟨[], s, .error (.immutableBinding ("immutable symbol already bound: " ++ symbolId))⟩
    else ⟨[{ s with ctx := put s.ctx }], { s with ctx := put s.ctx }, .ok ()⟩ := by
  unfold bindOnce getCtx
  rw [Run.bind_eq, Run.look_andThen]
  split <;> rfl

theorem binds_input (symbolId : String) (v : ValueEnvelope) (c : Context) :
    Binds symbolId c { c with inputValues := c.inputValues.set symbolId v } where
  bound i := by
    unfold Context.isBound
    simp only [Dict.contains_set]
    cases c.inputValues.contains i <;> simp [Bool.or_comm, Bool.or_assoc]

theorem binds_context (symbolId : String) (v : ValueEnvelope) (c : Context) :
    Binds symbolId c { c with contextValues := c.contextValues.set symbolId v } where
  bound i := by
    unfold Context.isBound
    simp only [Dict.contains_set]
    cases c.contextValues.contains i <;> simp [Bool.or_comm, Bool.or_assoc]

/-- **A loop of bindings goes through exactly when the symbols are distinct and none is bound yet.** -/
theorem forEach_bindOnce {α : Type} {f : α → String} {put : α → Context → Context}
    (hput : ∀ a c, Binds (f a) c (put a c)) : ∀ (items : List α) (s : St),
    ((Run.forEach (fun a => bindOnce (f a) (put a)) items s).outcome = .ok () ↔
      (items.map f).Nodup ∧ ∀ a ∈ items, s.ctx.isBound (f a) = false) ∧
    ((Run.forEach (fun a => bindOnce (f a) (put a)) items s).outcome = .ok () →
      ∀ i, (Run.forEach (fun a => bindOnce (f a) (put a)) items s).final.ctx.isBound i =
        (s.ctx.isBound i || i ∈ items.map f))
  | [], s            => by simp [Run.forEach, Run.done]
  | a :: items, s => by
    have hfirst := bindOnce_apply (f a) (put a) s
    by_cases hbound : s.ctx.isBound (f a) = true
    · rw [if_pos hbound] at hfirst
      have hrun : Run.forEach (fun a => bindOnce (f a) (put a)) (a :: items) s =
          ⟨[], s, .error (.immutableBinding ("immutable symbol already bound: " ++ f a))⟩ := Run.andThen_error hfirst
      rw [hrun]
      refine ⟨⟨fun h => (by cases h), fun h => ?_⟩, fun h => by cases h⟩
      have hfree := h.2 a (List.mem_cons_self ..)
      rw [hbound] at hfree
      cases hfree
    · have hfree : s.ctx.isBound (f a) = false := Bool.eq_false_iff.2 hbound
      rw [hfree, if_neg (by simp)] at hfirst
      have hrun := Run.andThen_ok (f := fun _ => Run.forEach (fun a => bindOnce (f a) (put a)) items) hfirst
      have hnext := (hput a s.ctx).bound
      obtain ⟨hiff, hfinal⟩ := forEach_bindOnce hput items { s with ctx := put a s.ctx }
      have heq : Run.forEach (fun a => bindOnce (f a) (put a)) (a :: items) s = _ := hrun
      rw [heq]
      refine ⟨?_, fun h i => ?_⟩
      · rw [hiff, List.map_cons, List.nodup_cons, List.forall_mem_cons]
        simp only [hnext]
        constructor
        · rintro ⟨hnodup, hall⟩
          have hsplit : ∀ b ∈ items, s.ctx.isBound (f b) = false ∧ f b ≠ f a := by
            intro b hb
            simpa using hall b hb
          refine ⟨⟨fun hmem => ?_, hnodup⟩, hfree, fun b hb => (hsplit b hb).1⟩
          obtain ⟨b, hb, hkey⟩ := List.mem_map.1 hmem
          exact (hsplit b hb).2 hkey
        · rintro ⟨⟨hnew, hnodup⟩, -, hall⟩
          refine ⟨hnodup, fun b hb => ?_⟩
          have hne : f b ≠ f a := fun hkey => hnew (hkey ▸ List.mem_map_of_mem hb)
          simp [hall b hb, hne]
      · rw [hfinal h i]
        simp only [hnext, List.map_cons, List.mem_cons]
        cases s.ctx.isBound i <;> simp

/-! ## The two validations -/

/-- `validate_execution_request` -/
def validateExecutionRequest (env : Env) (skill : SkillObject) (request : ExecutionRequest) : Run St Exn Unit := do
  let (principal, _) ← Run.ofExcept (authorizeExecution env skill request.principal)
  Run.ofExcept (preflight env skill false)
  let _ ← validatedInputContextBindings (BindingsCaller.dryRun.observe skill) skill request
  Run.forEach (fun required => do
    let _ ← Run.ofExcept (env.authorizer.authorize principal ("tool:" ++ required.toolId ++ ":execute")
      [required.requiredScope])
    Run.done ()) skill.requiredTools

/-- What a successful dry run found. -/
structure DryRunPassed (env : Env) (skill : SkillObject) (request : ExecutionRequest) (principal : ExecutionPrincipal)
    (decision : AuthorizationDecision) (inputs : List (InputSpec × Value)) (contexts : List (ContextSpec × Value)) :
    Prop where
  authorized : authorizeExecution env skill request.principal = .ok (principal, decision)
  preflight  : preflight env skill false = .ok ()
  inputs     : BoundInputs skill request.inputs skill.inputs inputs
  contexts   : BoundContexts skill request.runtimeContext skill.contexts contexts
  tools      : ∀ r ∈ skill.requiredTools, ∃ d,
    env.authorizer.authorize principal ("tool:" ++ r.toolId ++ ":execute") [r.requiredScope] = .ok d

variable {env : Env} {skill : SkillObject} {request : ExecutionRequest}

theorem forEach_authorized {principal : ExecutionPrincipal} : ∀ {tools : List RequiredTool} {s s' : St} {w : List St},
    Run.forEach (fun required => (do
      let _ ← Run.ofExcept (env.authorizer.authorize principal ("tool:" ++ required.toolId ++ ":execute")
        [required.requiredScope])
      Run.done () : Run St Exn Unit)) tools s = ⟨w, s', .ok ()⟩ →
    ∀ r ∈ tools, ∃ d, env.authorizer.authorize principal ("tool:" ++ r.toolId ++ ":execute") [r.requiredScope] = .ok d
  | [], _, _, _, _        => by simp
  | r :: tools, _, _, _, h => by
    obtain ⟨_, _, _, _, hfirst, hrest, -⟩ := Run.andThen_eq_ok h
    obtain ⟨_, _, d, _, hauthorize, -, -⟩ := Run.andThen_eq_ok hfirst
    obtain ⟨hd, -⟩ := Run.ofExcept_eq_ok hauthorize
    exact List.forall_mem_cons.2 ⟨⟨d, hd⟩, forEach_authorized hrest⟩

/-- **A dry run that succeeds**, unpacked. -/
theorem validateExecutionRequest_ok {s : St} (h : (validateExecutionRequest env skill request s).outcome = .ok ()) :
    ∃ principal decision inputs contexts, DryRunPassed env skill request principal decision inputs contexts := by
  rcases hrun : validateExecutionRequest env skill request s with ⟨w, s', e | u⟩ <;> rw [hrun] at h
  · cases h
  · obtain ⟨_, s₁, ⟨principal, decision⟩, _, hauthorize, h₁, -⟩ := Run.andThen_eq_ok hrun
    obtain ⟨_, s₂, _, _, hpreflight, h₂, -⟩ := Run.andThen_eq_ok h₁
    obtain ⟨_, s₃, ⟨inputs, contexts⟩, _, hbindings, h₃, -⟩ := Run.andThen_eq_ok h₂
    obtain ⟨hinputs, hcontexts⟩ := validatedInputContextBindings_bound (I := fun _ => True) dryRun_bounds trivial hbindings
    exact ⟨principal, decision, inputs, contexts, (Run.ofExcept_eq_ok hauthorize).1, (Run.ofExcept_eq_ok hpreflight).1,
      hinputs, hcontexts, forEach_authorized h₃⟩

/-! ## Up to the first statement -/

/-- What an execution asks of the request beyond the dry run: both mappings can be encoded, each declared context has a
path, each symbol is declared once. -/
structure BeyondDryRun (skill : SkillObject) (request : ExecutionRequest) : Prop where
  inputs  : fieldsEncodable request.inputs.entries = true
  context : fieldsEncodable request.runtimeContext.entries = true
  paths   : ∀ spec ∈ skill.contexts, spec.path ≠ []
  symbols : (skill.inputs.map (·.symbolId) ++ skill.contexts.map (·.symbolId)).Nodup

/-- The contexts of one execution differ in what was counted so far. -/
def SameBut (c c' : Context) : Prop := ∃ m, c' = { c with resources := m }

theorem onList_observe_reaches {c : Context} (htime : InTime env c) {value : Value}
    (hsize : ∀ items, value = .list items → items.length ≤ c.skill.limits.collectionSize) :
    ∃ c', SameBut c c' ∧ Reaches c (onList (observeCollection env) value) () c' := by
  unfold onList
  split
  · rename_i items
    let seen : Meter := { c.resources with maxCollectionSizeSeen := max c.resources.maxCollectionSizeSeen items.length }
    have hseen : InTime env { c with resources := seen } := htime
    exact ⟨_, ⟨seen, rfl⟩, (Reaches.modifyCtx _).bind (checkCollection_reaches hseen (hsize items rfl))⟩
  · exact ⟨c, ⟨c.resources, rfl⟩, Reaches.done ()⟩

theorem checkedValue_reaches {c : Context} (htime : InTime env c) (hskill : c.skill = skill) {value : Value} {t : TypeRef}
    {name : String} (h : AdmittedValue skill t name value) :
    ∃ c', SameBut c c' ∧ Reaches c (checkedValue (observeCollection env) value t name) () c' := by
  obtain ⟨c', hsame, hlist⟩ := onList_observe_reaches htime (hskill ▸ h.bounded)
  exact ⟨c', hsame, (Reaches.ofExcept h.checked).bind hlist⟩

theorem validatedInputs_reaches {inputs : Dict Value} {specs : List InputSpec} {bound : List (InputSpec × Value)} {c : Context}
    (htime : InTime env c) (hskill : c.skill = skill) (h : BoundInputs skill inputs specs bound) :
    ∃ c', SameBut c c' ∧ Reaches c (validatedInputs (observeCollection env) inputs specs) bound c' := by
  induction bound generalizing specs c with
  | nil             =>
    have hnil : specs = [] := h.declared.symm
    subst hnil
    exact ⟨c, ⟨c.resources, rfl⟩, Reaches.done []⟩
  | cons b bound ih =>
    have hcons : specs = b.1 :: bound.map Prod.fst := h.declared.symm
    subst hcons
    obtain ⟨hgiven, hrestGiven⟩ := List.forall_mem_cons.1 h.given
    obtain ⟨hadmitted, hrestAdmitted⟩ := List.forall_mem_cons.1 h.admitted
    obtain ⟨_, ⟨m, rfl⟩, hchecked⟩ := checkedValue_reaches htime hskill hadmitted
    obtain ⟨_, ⟨m', rfl⟩, hrest⟩ := ih (c := { c with resources := m }) htime hskill ⟨rfl, hrestGiven, hrestAdmitted⟩
    refine ⟨_, ⟨m', rfl⟩, ?_⟩
    unfold validatedInputs
    simp only [hgiven]
    exact hchecked.bind (hrest.bind (Reaches.done _))

theorem validatedContexts_reaches {context : Dict Value} {specs : List ContextSpec} {bound : List (ContextSpec × Value)} {c : Context}
    (htime : InTime env c) (hskill : c.skill = skill) (h : BoundContexts skill context specs bound) :
    ∃ c', SameBut c c' ∧ Reaches c (validatedContexts (observeCollection env) context specs) bound c' := by
  induction bound generalizing specs c with
  | nil             =>
    have hnil : specs = [] := h.declared.symm
    subst hnil
    exact ⟨c, ⟨c.resources, rfl⟩, Reaches.done []⟩
  | cons b bound ih =>
    have hcons : specs = b.1 :: bound.map Prod.fst := h.declared.symm
    subst hcons
    obtain ⟨hgiven, hrestGiven⟩ := List.forall_mem_cons.1 h.given
    obtain ⟨hadmitted, hrestAdmitted⟩ := List.forall_mem_cons.1 h.admitted
    obtain ⟨_, ⟨m, rfl⟩, hchecked⟩ := checkedValue_reaches htime hskill hadmitted
    obtain ⟨_, ⟨m', rfl⟩, hrest⟩ := ih (c := { c with resources := m }) htime hskill ⟨rfl, hrestGiven, hrestAdmitted⟩
    refine ⟨_, ⟨m', rfl⟩, ?_⟩
    unfold validatedContexts
    simp only [hgiven]
    exact hchecked.bind (hrest.bind (Reaches.done _))

/-- **The values of a dry run are those of the execution**, whose context only counts them. -/
theorem validatedInputContextBindings_reaches {c : Context} {inputs : List (InputSpec × Value)}
    {contexts : List (ContextSpec × Value)} (htime : InTime env c) (hskill : c.skill = skill)
    (hinputs : BoundInputs skill request.inputs skill.inputs inputs)
    (hcontexts : BoundContexts skill request.runtimeContext skill.contexts contexts) :
    ∃ c', SameBut c c' ∧ Reaches c (validatedInputContextBindings (BindingsCaller.observe skill (.execution env)) skill
      request) (inputs, contexts) c' := by
  obtain ⟨_, ⟨m, rfl⟩, hfirst⟩ := validatedInputs_reaches htime hskill hinputs
  obtain ⟨_, ⟨m', rfl⟩, hsecond⟩ := validatedContexts_reaches (c := { c with resources := m }) htime hskill hcontexts
  exact ⟨_, ⟨m', rfl⟩, hfirst.bind (hsecond.bind (Reaches.done _))⟩

/-- Each declared input and context bound, from a context where nothing is. -/
theorem bindAll_ok_iff {inputs : List (InputSpec × Value)} {contexts : List (ContextSpec × Value)} {s : St}
    (hempty : ∀ i, s.ctx.isBound i = false) :
    (Run.andThen (Run.forEach (fun b : InputSpec × Value =>
        bindInput b.1.symbolId (ValueEnvelope.ofComplete b.2 b.1.typeInfo b.1.classification [])) inputs)
      (fun _ => Run.forEach (fun b : ContextSpec × Value =>
        bindContext b.1.symbolId (ValueEnvelope.ofComplete b.2 b.1.typeInfo b.1.classification [])) contexts)
      s).outcome = .ok () ↔ (inputs.map (·.1.symbolId) ++ contexts.map (·.1.symbolId)).Nodup := by
  obtain ⟨hinputs, hbound⟩ := forEach_bindOnce (f := fun b : InputSpec × Value => b.1.symbolId)
    (fun b c => binds_input b.1.symbolId (ValueEnvelope.ofComplete b.2 b.1.typeInfo b.1.classification []) c) inputs s
  rw [List.nodup_append]
  rcases hrun : Run.forEach (fun b : InputSpec × Value =>
    bindInput b.1.symbolId (ValueEnvelope.ofComplete b.2 b.1.typeInfo b.1.classification [])) inputs s with ⟨w, s₁, e | u⟩
  · rw [Run.andThen_error hrun]
    refine ⟨fun h => (by cases h), fun h => ?_⟩
    have hok := hinputs.2 ⟨h.1, fun b _ => hempty _⟩
    unfold bindInput at hrun
    rw [hrun] at hok
    cases hok
  · rw [Run.andThen_ok hrun]
    obtain ⟨hcontexts, -⟩ := forEach_bindOnce (f := fun b : ContextSpec × Value => b.1.symbolId)
      (fun b c => binds_context b.1.symbolId (ValueEnvelope.ofComplete b.2 b.1.typeInfo b.1.classification []) c) contexts s₁
    unfold bindInput at hrun
    rw [hrun] at hinputs hbound
    have hafter : ∀ i, s₁.ctx.isBound i = decide (i ∈ inputs.map (·.1.symbolId)) := by
      intro i
      simpa [hempty] using hbound rfl i
    show (Run.forEach _ contexts s₁).outcome = .ok () ↔ _
    unfold bindContext
    rw [hcontexts]
    simp only [hafter, decide_eq_false_iff_not]
    constructor
    · rintro ⟨hnodup, hfree⟩
      refine ⟨(hinputs.1 rfl).1, hnodup, fun i hi j hj hij => ?_⟩
      obtain ⟨b, hb, rfl⟩ := List.mem_map.1 hj
      exact hfree b hb (hij ▸ hi)
    · rintro ⟨-, hnodup, hdisjoint⟩
      exact ⟨hnodup, fun b hb hmem => hdisjoint _ hmem _ (List.mem_map_of_mem hb) rfl⟩

/-- A recorded execution: its contexts were projected and its mappings hashed. -/
theorem executionStarted_ok {principal : ExecutionPrincipal} {decision : AuthorizationDecision} {s s' : St} {w : List St}
    (h : executionStarted env skill request principal decision s = ⟨w, s', .ok ()⟩) :
    (∃ q, projectDeclaredContext skill request.runtimeContext = .ok q) ∧
      (∃ d, valueHash (.dict request.inputs.entries) = .ok d) ∧
      ∃ d, valueHash (.dict request.runtimeContext.entries) = .ok d := by
  obtain ⟨_, _, q, _, hproject, h₁, -⟩ := Run.andThen_eq_ok h
  obtain ⟨_, _, _, _, -, h₂, -⟩ := Run.andThen_eq_ok h₁
  obtain ⟨_, _, _, _, -, h₃, -⟩ := Run.andThen_eq_ok h₂
  obtain ⟨_, _, d, _, hinputs, h₄, -⟩ := Run.andThen_eq_ok h₃
  obtain ⟨_, _, d', _, hcontext, -, -⟩ := Run.andThen_eq_ok h₄
  exact ⟨⟨q, (Run.ofExcept_eq_ok hproject).1⟩, ⟨d, (Run.ofExcept_eq_ok hinputs).1⟩, ⟨d', (Run.ofExcept_eq_ok hcontext).1⟩⟩

/-- The two mappings can be encoded and each declared context has a path. -/
def CanBeRecorded (skill : SkillObject) (request : ExecutionRequest) : Prop :=
  fieldsEncodable request.inputs.entries = true ∧ fieldsEncodable request.runtimeContext.entries = true ∧
    ∀ spec ∈ skill.contexts, spec.path ≠ []

/-- **EXECUTION_STARTED is written exactly where the request can be recorded**, and leaves the context. -/
theorem executionStarted_ok_iff {principal : ExecutionPrincipal} {decision : AuthorizationDecision} {s : St}
    (hsnapshots : env.snapshots = none)
    (hthere : ∀ spec ∈ skill.contexts, ∃ value, valueAt request.runtimeContext spec.path = .ok value) :
    (∃ w s', executionStarted env skill request principal decision s = ⟨w, s', .ok ()⟩ ∧ s'.ctx = s.ctx) ↔
      CanBeRecorded skill request := by
  constructor
  · rintro ⟨w, s', h, -⟩
    obtain ⟨hproject, hinputs, hcontext⟩ := executionStarted_ok h
    exact ⟨(valueHash_dict_iff _).1 hinputs, (valueHash_dict_iff _).1 hcontext,
      (projectDeclaredContext_ok_iff hthere).1 hproject⟩
  · rintro ⟨hinputs, hcontext, hpaths⟩
    obtain ⟨q, hq⟩ := (projectDeclaredContext_ok_iff hthere).2 hpaths
    obtain ⟨d, hd⟩ := (valueHash_dict_iff _).2 hinputs
    obtain ⟨d', hd'⟩ := (valueHash_dict_iff _).2 hcontext
    exact executionStarted_reaches hsnapshots hq hd hd' s rfl

/-- The bindings of a request that passed the dry run go through exactly where each symbol is declared once. -/
theorem bindInputsAndContexts_ok_iff {inputs : List (InputSpec × Value)} {contexts : List (ContextSpec × Value)} {s : St}
    (htime : InTime env s.ctx) (hskill : s.ctx.skill = skill) (hempty : ∀ i, s.ctx.isBound i = false)
    (hinputs : BoundInputs skill request.inputs skill.inputs inputs)
    (hcontexts : BoundContexts skill request.runtimeContext skill.contexts contexts) :
    (bindInputsAndContexts env skill request s).outcome = .ok () ↔
      (skill.inputs.map (·.symbolId) ++ skill.contexts.map (·.symbolId)).Nodup := by
  obtain ⟨_, ⟨m, rfl⟩, hvalidated⟩ := validatedInputContextBindings_reaches htime hskill hinputs hcontexts
  obtain ⟨w, s₁, hrun, hctx⟩ := hvalidated s rfl
  have hbound : ∀ i, s₁.ctx.isBound i = false := by
    intro i
    rw [hctx]
    exact hempty i
  have hids : skill.inputs.map (·.symbolId) = inputs.map (·.1.symbolId) := by
    rw [← hinputs.declared, List.map_map]
    rfl
  have hids' : skill.contexts.map (·.symbolId) = contexts.map (·.1.symbolId) := by
    rw [← hcontexts.declared, List.map_map]
    rfl
  rw [bindInputsAndContexts_eq, Run.bind_eq, Run.andThen_ok hrun, hids, hids', ← bindAll_ok_iff hbound]
  rfl

/-- **An execution that passed the dry run reaches its first statement exactly where the request can be recorded and
each symbol is declared once.** -/
theorem executionPrologue_ok_iff {principal : ExecutionPrincipal} {decision : AuthorizationDecision}
    {inputs : List (InputSpec × Value)} {contexts : List (ContextSpec × Value)} {s : St}
    (hpassed : DryRunPassed env skill request principal decision inputs contexts) (hsnapshots : env.snapshots = none)
    (htime : InTime env s.ctx) (hskill : s.ctx.skill = skill) (hempty : ∀ i, s.ctx.isBound i = false) :
    (executionPrologue env skill request principal decision false s).outcome = .ok () ↔ BeyondDryRun skill request := by
  have hthere : ∀ spec ∈ skill.contexts, ∃ value, valueAt request.runtimeContext spec.path = .ok value := by
    intro spec hspec
    obtain ⟨b, hb, rfl⟩ := mem_bound hpassed.contexts.declared hspec
    exact ⟨b.2, hpassed.contexts.given b hb⟩
  have hchecked : Reaches s.ctx (checkDeadline env) () s.ctx := checkDeadline_reaches htime
  obtain ⟨w₁, s₁, h₁, hs₁⟩ := hchecked s rfl
  have hpreflight : Run.ofExcept (preflight env skill false) s₁ = ⟨[], s₁, .ok ()⟩ := by
    rw [Run.ofExcept_apply, hpassed.preflight]
  unfold executionPrologue
  rw [Run.bind_eq, Run.andThen_ok h₁, Run.bind_eq, Run.andThen_ok hpreflight]
  show (Run.andThen (executionStarted env skill request principal decision)
    (fun _ => bindInputsAndContexts env skill request) s₁).outcome = .ok () ↔ _
  by_cases hrecorded : CanBeRecorded skill request
  · have hstarted : ∃ w s', executionStarted env skill request principal decision s₁ = ⟨w, s', .ok ()⟩ ∧ s'.ctx = s₁.ctx :=
      (executionStarted_ok_iff hsnapshots hthere).2 hrecorded
    obtain ⟨w₂, s₂, h₂, hs₂⟩ := hstarted
    have hctx : s₂.ctx = s.ctx := hs₂.trans hs₁
    rw [Run.andThen_ok h₂]
    show (bindInputsAndContexts env skill request s₂).outcome = .ok () ↔ _
    rw [bindInputsAndContexts_ok_iff (by rw [hctx]; exact htime) (by rw [hctx]; exact hskill)
      (fun i => by rw [hctx]; exact hempty i) hpassed.inputs hpassed.contexts]
    exact ⟨fun hsymbols => ⟨hrecorded.1, hrecorded.2.1, hrecorded.2.2, hsymbols⟩, fun h => h.symbols⟩
  · refine ⟨fun h => ?_, fun h => absurd ⟨h.inputs, h.context, h.paths⟩ hrecorded⟩
    rcases hrun : Run.andThen (executionStarted env skill request principal decision)
      (fun _ => bindInputsAndContexts env skill request) s₁ with ⟨w, s', e | u⟩ <;> rw [hrun] at h
    · cases h
    · obtain ⟨_, _, _, _, hstarted, -, -⟩ := Run.andThen_eq_ok hrun
      obtain ⟨hproject, hinputs, hcontext⟩ := executionStarted_ok hstarted
      exact absurd ⟨(valueHash_dict_iff _).1 hinputs, (valueHash_dict_iff _).1 hcontext,
        (projectDeclaredContext_ok_iff hthere).1 hproject⟩ hrecorded

/-! ## The run -/

/-- The skill and the request of a run stay. -/
theorem Write.stays {s x : St} (h : Write env s x) (hs : s.ctx.skill = skill ∧ s.ctx.request = request) :
    x.ctx.skill = skill ∧ x.ctx.request = request := by
  cases h <;> exact hs

/-- A READ of a tool that was authorized is not refused. -/
theorem resolveRead_authorized {principal : ExecutionPrincipal} {c : Context}
    (htools : ∀ r ∈ c.skill.requiredTools, ∃ d,
      env.authorizer.authorize principal ("tool:" ++ r.toolId ++ ":execute") [r.requiredScope] = .ok d)
    (hprincipal : c.request.principal = some principal) (toolRef : String) (names : List String) (m : String)
    (ref : Option String) : resolveRead env c toolRef names ≠ .error (.authorization m ref) := by
  intro h
  unfold resolveRead at h
  split at h
  · cases h
  · rename_i required hfind
    obtain ⟨d, hd⟩ := htools required (List.mem_of_find?_eq_some hfind)
    unfold ToolContractCatalog.resolve at h
    split at h
    · cases h
    · split at h
      · simp only [hprincipal, hd, bind, Except.bind, pure, Except.pure, throw, throwThe, MonadExceptOf.throw] at h
        split at h <;> cases h
      · cases h

/-- The execution passes everything before its first statement: the principal, the authorization, the preflight, the
record of its start and the bindings. -/
def ReachesFirstStatement (env : Env) (skill : SkillObject) (request : ExecutionRequest) (s : St) : Prop :=
  ∃ principal decision,
    authorizeExecution (env.forExecution skill request) skill request.principal = .ok (principal, decision) ∧
    (executionPrologue (env.forExecution skill request) skill request principal decision false
      (tryState env skill request s)).outcome = .ok ()

/-- At no point of the execution the authorizer refuses a READ. -/
def ReadsAuthorized (env : Env) (skill : SkillObject) (request : ExecutionRequest) (s : St) : Prop :=
  ∀ principal decision,
    authorizeExecution (env.forExecution skill request) skill request.principal = .ok (principal, decision) →
    ∀ x ∈ tryState env skill request s :: (executionTry (env.forExecution skill request) skill request principal decision
        skill.body false (tryState env skill request s)).written,
      ∀ toolRef names m ref,
        resolveRead (env.forExecution skill request) x.ctx toolRef names ≠ .error (.authorization m ref)

theorem authorizeExecution_principal {principal : ExecutionPrincipal} {decision : AuthorizationDecision}
    (h : authorizeExecution env skill request.principal = .ok (principal, decision)) :
    request.principal = some principal := by
  unfold authorizeExecution at h
  split at h
  · cases h
  · rename_i p hp
    obtain ⟨_, -, h₁⟩ := bind_eq_ok h
    obtain ⟨_, -, h₂⟩ := bind_eq_ok h₁
    cases h₂
    exact hp

/-- **What the dry run authorized is authorized at every point of the execution.** -/
theorem DryRunPassed.reads {principal : ExecutionPrincipal} {decision : AuthorizationDecision}
    {inputs : List (InputSpec × Value)} {contexts : List (ContextSpec × Value)}
    (h : DryRunPassed env skill request principal decision inputs contexts) (s : St) : ReadsAuthorized env skill request s := by
  intro principal' decision' hauthorized x hx toolRef names m ref
  have hsame : principal' = principal := by
    have hp := authorizeExecution_principal hauthorized
    rw [authorizeExecution_principal h.authorized] at hp
    exact (Option.some.inj hp).symm
  subst hsame
  have hstays := Run.Steps.preserves (I := fun s => s.ctx.skill = skill ∧ s.ctx.request = request)
    (fun _ _ hw hs => hw.stays hs) (executionTry_writes (env.forExecution skill request) skill request principal' decision'
      skill.body false)
  have hx' : x.ctx.skill = skill ∧ x.ctx.request = request := by
    rcases List.mem_cons.1 hx with rfl | hx
    · exact ⟨rfl, rfl⟩
    · exact (hstays (tryState env skill request s)).1 x hx ⟨rfl, rfl⟩
  refine resolveRead_authorized (fun r hr => h.tools r ?_) ?_ toolRef names m ref
  · rwa [hx'.1] at hr
  · rw [hx'.2]
    exact authorizeExecution_principal hauthorized

end Execution

/-! ## A value that has no hash -/

theorem loopedCheck_dryRun [Platform] {request : ExecutionRequest} (hprincipal : request.principal = some analyst) (s : St) :
    (validateExecutionRequest Env.bare loopedCheckSkill request s).outcome = .ok () := by
  obtain ⟨d, hd⟩ := @analyst_authorized _ Env.bare loopedCheckSkill rfl
  have hauthorize : Run.ofExcept (authorizeExecution Env.bare loopedCheckSkill request.principal) s =
      ⟨[], s, .ok (analyst, d)⟩ := by
    rw [hprincipal, hd, Run.ofExcept_apply]
  have hpreflight : Run.ofExcept (preflight Env.bare loopedCheckSkill false) s = ⟨[], s, .ok ()⟩ := by
    rw [loopedCheck_preflight, Run.ofExcept_apply]
  unfold validateExecutionRequest
  rw [Run.bind_eq, Run.andThen_ok hauthorize]
  show (Run.andThen (Run.ofExcept (preflight Env.bare loopedCheckSkill false)) _ s).outcome = .ok ()
  rw [Run.andThen_ok hpreflight]
  rfl

section Ascii

attribute [local instance] Platform.ascii

theorem looseNote_clean :
    findCredentialPath Platform.word "$" (.dict [("note", .foreign "bytes")]) = none := by
  decide +kernel

/-- A request with a value of another class under a name the skill does not declare. -/
def looseNoteRequest : ExecutionRequest :=
  { ExecutionRequest.plain (.ofPlain "run-note") (some analyst) none with
    inputs := ⟨[("note", .foreign "bytes")], List.nodup_singleton _⟩, inputsClean := looseNote_clean }

def noteState : St := ⟨{ skill := loopedCheckSkill, request := looseNoteRequest, startedNs := 0 }, {}⟩

theorem analyst_inTime : InTime Env.bare (tryState Env.bare loopedCheckSkill analystRequest noteState).ctx := by
  intro n
  show (0 : Int) < (1000 : Nat) * 1000000 - (0 - 0)
  omega

end Ascii
end Nsl
