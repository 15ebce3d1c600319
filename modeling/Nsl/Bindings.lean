import Nsl.BoundsSound
import Nsl.Engine
/-!
# Bindings — the values bound for an execution

`_validated_input_context_bindings` (`runtime.py`) and the type check it makes. `_validate_runtime_type` is a second
definition of typing beside `value_conforms_to_type`: the two agree on the types it decides, and it lets every value of
any other type pass.
-/
namespace Nsl

open Stateful

/-! ## The types that are decided at run time -/

/-- `_validate_runtime_type` decides these types. A list, a record, and a type that carries the name of another are not
among them. -/
def TypeRef.checkedAtRuntime (t : TypeRef) : Bool :=
  if t.kind = "primitive" then
    [some "Year", some "Int", some "String", some "Bool"].contains t.name || t = DECIMAL || t = DATE || t = DATETIME
  else if t.kind = "domain" then !([some "Year", some "Int"].contains t.name)
  else if t.kind = "money" ∨ t.kind = "enum" then
    !([some "Year", some "Int", some "String", some "Bool"].contains t.name)
  else false

section Agreement

variable {t : TypeRef} {v : Value} {name : String}

theorem validate_domain (hkind : t.kind = "domain") (hname : t.checkedAtRuntime = true) :
    validateRuntimeType v t name = .ok () ↔ conformsTo t v = true := by
  obtain ⟨kind, typeName, currency, item, fields, enumValues, hmoney⟩ := t
  subst hkind
  simp only [TypeRef.checkedAtRuntime, List.contains_cons, List.contains_nil] at hname
  cases v <;> simp_all [validateRuntimeType, conformsTo]

theorem validate_money (hkind : t.kind = "money") (hname : t.checkedAtRuntime = true) :
    validateRuntimeType v t name = .ok () ↔ conformsTo t v = true := by
  obtain ⟨kind, typeName, currency, item, fields, enumValues, hmoney⟩ := t
  subst hkind
  simp only [TypeRef.checkedAtRuntime, List.contains_cons, List.contains_nil] at hname
  cases v <;> simp_all [validateRuntimeType, conformsTo, DECIMAL, DATE, DATETIME, primitive]

theorem validate_enum (hkind : t.kind = "enum") (hname : t.checkedAtRuntime = true) :
    validateRuntimeType v t name = .ok () ↔ conformsTo t v = true := by
  obtain ⟨kind, typeName, currency, item, fields, enumValues, hmoney⟩ := t
  subst hkind
  simp only [TypeRef.checkedAtRuntime, List.contains_cons, List.contains_nil] at hname
  cases v <;> simp_all [validateRuntimeType, conformsTo, DECIMAL, DATE, DATETIME, primitive]

theorem validate_primitive (hkind : t.kind = "primitive") (hname : t.checkedAtRuntime = true) :
    validateRuntimeType v t name = .ok () ↔ conformsTo t v = true := by
  have hcases : (t.name = some "Year" ∨ t.name = some "Int" ∨ t.name = some "String" ∨ t.name = some "Bool") ∨
      t = DECIMAL ∨ t = DATE ∨ t = DATETIME := by
    simp only [TypeRef.checkedAtRuntime, hkind, if_true] at hname
    simpa [or_assoc] using hname
  rcases hcases with hnamed | rfl | rfl | rfl
  · obtain ⟨kind, typeName, currency, item, fields, enumValues, hmoney⟩ := t
    subst hkind
    rcases hnamed with hn | hn | hn | hn <;> subst hn <;> cases v <;> simp [validateRuntimeType, conformsTo]
  all_goals cases v <;> simp [validateRuntimeType, conformsTo, DECIMAL, DATE, DATETIME, primitive]

/-- **Where the runtime decides a type, its two definitions of typing agree.** -/
theorem validate_iff_conforms (h : t.checkedAtRuntime = true) :
    validateRuntimeType v t name = .ok () ↔ conformsTo t v = true := by
  by_cases hprimitive : t.kind = "primitive"
  · exact validate_primitive hprimitive h
  by_cases hdomain : t.kind = "domain"
  · exact validate_domain hdomain h
  by_cases hmoney : t.kind = "money"
  · exact validate_money hmoney h
  by_cases henum : t.kind = "enum"
  · exact validate_enum henum h
  · unfold TypeRef.checkedAtRuntime at h
    rw [if_neg hprimitive, if_neg hdomain, if_neg (not_or.2 ⟨hmoney, henum⟩)] at h
    cases h

end Agreement

/-! ## The bindings -/

section Bindings

variable [Platform]

/-- `_validate_collection_size` -/
def validateCollectionSize (skill : SkillObject) (size : Nat) : Except Exn Unit :=
  if skill.limits.collectionSize < size then .error (.limitExceeded "collection size limit exceeded") else .ok ()

/-- `_validated_input_context_bindings` -/
def validatedInputContextBindings (observe : Nat → Run St Exn Unit) (skill : SkillObject) (request : ExecutionRequest) :
    Run St Exn (List (InputSpec × Value) × List (ContextSpec × Value)) := do
  let inputs ← validatedInputs observe request.inputs skill.inputs
  let contexts ← validatedContexts observe request.runtimeContext skill.contexts
  Run.done (inputs, contexts)

/-- Who asks for the bindings: a dry run, or an execution with its resource guard. -/
inductive BindingsCaller
  | dryRun
  | execution (env : Env)

/-- What the caller does with the size of a list. -/
def BindingsCaller.observe (skill : SkillObject) : BindingsCaller → Nat → Run St Exn Unit
  | .dryRun        => fun size => Run.ofExcept (validateCollectionSize skill size)
  | .execution env => observeCollection env

/-- `_bind_inputs_and_contexts` asks for them with its resource guard. -/
theorem bindInputsAndContexts_eq (env : Env) (skill : SkillObject) (request : ExecutionRequest) :
    bindInputsAndContexts env skill request =
      (do
        let (inputs, contexts) ← validatedInputContextBindings (BindingsCaller.observe skill (.execution env)) skill request
        Run.forEach (fun (spec, value) =>
          bindInput spec.symbolId (ValueEnvelope.ofComplete value spec.typeInfo spec.classification [])) inputs
        Run.forEach (fun (spec, value) =>
          bindContext spec.symbolId (ValueEnvelope.ofComplete value spec.typeInfo spec.classification [])) contexts) := by
  unfold bindInputsAndContexts validatedInputContextBindings
  simp only [Run.bind_eq, Run.andThen_assoc]
  rfl

/-- The value passed the runtime check of the type, and is no list over the limit. -/
structure AdmittedValue (skill : SkillObject) (t : TypeRef) (name : String) (value : Value) : Prop where
  checked : validateRuntimeType value t name = .ok ()
  bounded : ∀ items, value = .list items → items.length ≤ skill.limits.collectionSize

/-- The declared inputs, each with its value in the request. -/
structure BoundInputs (skill : SkillObject) (inputs : Dict Value) (specs : List InputSpec)
    (bound : List (InputSpec × Value)) : Prop where
  declared : bound.map Prod.fst = specs
  given    : ∀ b ∈ bound, inputs.get? b.1.name = some b.2
  admitted : ∀ b ∈ bound, AdmittedValue skill b.1.typeInfo b.1.name b.2

/-- The declared contexts, each with its value in the request. -/
structure BoundContexts (skill : SkillObject) (context : Dict Value) (specs : List ContextSpec)
    (bound : List (ContextSpec × Value)) : Prop where
  declared : bound.map Prod.fst = specs
  given    : ∀ b ∈ bound, valueAt context b.1.path = .ok b.2
  admitted : ∀ b ∈ bound, AdmittedValue skill b.1.typeInfo b.1.name b.2

/-- A run of the skill, and what the value it ends with is. -/
def GivesOf {α : Type} (skill : SkillObject) (Q : α → Prop) (m : Run St Exn α) : Prop :=
  Run.Keeps (fun s => s.ctx.skill = skill) Q m

variable {skill : SkillObject} {observe : Nat → Run St Exn Unit}

omit [Platform] in
theorem validateCollectionSize_ok {size : Nat} (h : validateCollectionSize skill size = .ok ()) :
    size ≤ skill.limits.collectionSize := by
  unfold validateCollectionSize at h
  split at h
  · cases h
  · omega

/-- A run that counts nothing stays with its skill. -/
theorem Free.stays {α : Type} {m : Run St Exn α} (h : Free m) : GivesOf skill (fun _ => True) m := by
  refine Run.Preserves.keeps (Run.Always.mono h (fun s x hx hs => ?_))
  exact hx.1.trans hs

theorem checkCollection_bounds (env : Env) (size : Nat) :
    GivesOf skill (fun _ => size ≤ skill.limits.collectionSize) (checkCollection env size) := by
  refine (checkDeadline_free env).stays.andThen (fun _ _ => ?_)
  refine (Run.keeps_look (Q := fun ctx : Context => ctx.skill = skill) (fun _ hs => hs)).andThen (fun ctx hctx => ?_)
  split
  · exact Run.keeps_fail _
  · rename_i hsize
    rw [hctx] at hsize
    exact Run.keeps_done (not_lt.1 hsize)

/-- A dry run needs no context for it. -/
theorem dryRun_bounds {I : St → Prop} (size : Nat) :
    Run.Keeps I (fun _ => size ≤ skill.limits.collectionSize) (BindingsCaller.dryRun.observe skill size) :=
  Run.keeps_ofExcept (fun _ h => validateCollectionSize_ok h)

/-- **Both callers stop at a list over the limit.** -/
theorem observe_bounds (caller : BindingsCaller) (size : Nat) :
    GivesOf skill (fun _ => size ≤ skill.limits.collectionSize) (caller.observe skill size) := by
  cases caller with
  | dryRun        => exact dryRun_bounds size
  | execution env =>
    have hcount : Free (modifyCtx (fun c => { c with resources :=
        { c.resources with maxCollectionSizeSeen := max c.resources.maxCollectionSizeSeen size } })) :=
      Free.modifyCtx (fun _ => rfl) (fun _ => ⟨rfl, rfl, rfl⟩)
    exact hcount.stays.andThen (fun _ _ => checkCollection_bounds env size)

section Observed

variable {I : St → Prop} (hobserve : ∀ size, Run.Keeps I (fun _ => size ≤ skill.limits.collectionSize) (observe size))
include hobserve

theorem checkedValue_admits (value : Value) (t : TypeRef) (name : String) :
    Run.Keeps I (fun _ => AdmittedValue skill t name value) (checkedValue observe value t name) := by
  have hchecked : Run.Keeps I (fun _ => validateRuntimeType value t name = .ok ())
      (Run.ofExcept (validateRuntimeType value t name)) := Run.keeps_ofExcept (fun _ h => h)
  refine hchecked.andThen (fun _ htype => ?_)
  unfold onList
  split
  · refine (hobserve _).mono (fun _ hsize => ⟨htype, fun items hitems => ?_⟩)
    cases hitems
    exact hsize
  · rename_i hlist
    exact Run.keeps_done ⟨htype, fun items hitems => (hlist items hitems).elim⟩

theorem validatedInputs_admits (inputs : Dict Value) : ∀ (specs : List InputSpec),
    Run.Keeps I (BoundInputs skill inputs specs) (validatedInputs observe inputs specs)
  | []            => Run.keeps_done ⟨rfl, by simp, by simp⟩
  | spec :: specs => by
    unfold validatedInputs
    split
    · split
      · exact Run.keeps_fail _
      · exact Run.keeps_fail _
    · rename_i value hvalue
      refine (checkedValue_admits hobserve value spec.typeInfo spec.name).andThen (fun _ hadmitted => ?_)
      refine (validatedInputs_admits inputs specs).andThen (fun bound hbound => Run.keeps_done ⟨?_, ?_, ?_⟩)
      · rw [List.map_cons, hbound.declared]
      · exact List.forall_mem_cons.2 ⟨hvalue, hbound.given⟩
      · exact List.forall_mem_cons.2 ⟨hadmitted, hbound.admitted⟩

theorem validatedContexts_admits (context : Dict Value) : ∀ (specs : List ContextSpec),
    Run.Keeps I (BoundContexts skill context specs) (validatedContexts observe context specs)
  | []            => Run.keeps_done ⟨rfl, by simp, by simp⟩
  | spec :: specs => by
    unfold validatedContexts
    split
    · exact Run.keeps_fail _
    · rename_i value hvalue
      refine (checkedValue_admits hobserve value spec.typeInfo spec.name).andThen (fun _ hadmitted => ?_)
      refine (validatedContexts_admits context specs).andThen (fun bound hbound => Run.keeps_done ⟨?_, ?_, ?_⟩)
      · rw [List.map_cons, hbound.declared]
      · exact List.forall_mem_cons.2 ⟨hvalue, hbound.given⟩
      · exact List.forall_mem_cons.2 ⟨hadmitted, hbound.admitted⟩

/-- **Successful bindings**: every declared input and context, each with its own value, admitted. -/
theorem validatedInputContextBindings_bound {request : ExecutionRequest} {s s' : St} {w : List St}
    {inputs : List (InputSpec × Value)} {contexts : List (ContextSpec × Value)} (hs : I s)
    (h : validatedInputContextBindings observe skill request s = ⟨w, s', .ok (inputs, contexts)⟩) :
    BoundInputs skill request.inputs skill.inputs inputs ∧
      BoundContexts skill request.runtimeContext skill.contexts contexts := by
  obtain ⟨_, s₁, is, _, hinputs, h₁, -⟩ := Run.andThen_eq_ok h
  obtain ⟨_, s₂, cs, _, hcontexts, h₂, -⟩ := Run.andThen_eq_ok h₁
  cases h₂
  have hfirst := validatedInputs_admits hobserve request.inputs skill.inputs s hs
  rw [hinputs] at hfirst
  have hsecond := validatedContexts_admits hobserve request.runtimeContext skill.contexts s₁ hfirst.2.1
  rw [hcontexts] at hsecond
  exact ⟨hfirst.2.2 _ rfl, hsecond.2.2 _ rfl⟩

end Observed

/-! ## What conforms -/

/-- Every bound value is a value of the type of its declaration. -/
def AllConform (inputs : List (InputSpec × Value)) (contexts : List (ContextSpec × Value)) : Prop :=
  (∀ b ∈ inputs, conformsTo b.1.typeInfo b.2 = true) ∧ ∀ b ∈ contexts, conformsTo b.1.typeInfo b.2 = true

/-- Every bound list is within the collection size of the skill. -/
def ListsBounded (skill : SkillObject) (inputs : List (InputSpec × Value)) (contexts : List (ContextSpec × Value)) : Prop :=
  (∀ b ∈ inputs, ∀ items, b.2 = .list items → items.length ≤ skill.limits.collectionSize) ∧
    ∀ b ∈ contexts, ∀ items, b.2 = .list items → items.length ≤ skill.limits.collectionSize

/-- Where the runtime does not decide the declared type, what the request gives is of that type. -/
def UncheckedConform (skill : SkillObject) (request : ExecutionRequest) : Prop :=
  (∀ spec ∈ skill.inputs, spec.typeInfo.checkedAtRuntime = false → ∀ value,
    request.inputs.get? spec.name = some value → conformsTo spec.typeInfo value = true) ∧
  ∀ spec ∈ skill.contexts, spec.typeInfo.checkedAtRuntime = false → ∀ value,
    valueAt request.runtimeContext spec.path = .ok value → conformsTo spec.typeInfo value = true

omit [Platform] in
/-- An admitted value conforms when the request is right about it. -/
theorem AdmittedValue.conforms {t : TypeRef} {name : String} {value : Value} (h : AdmittedValue skill t name value)
    (hrequest : t.checkedAtRuntime = false → conformsTo t value = true) : conformsTo t value = true := by
  by_cases hdecided : t.checkedAtRuntime = true
  · exact (validate_iff_conforms hdecided).1 h.checked
  · exact hrequest (Bool.eq_false_iff.2 hdecided)

omit [Platform] in
theorem mem_bound {α : Type} {bound : List (α × Value)} {specs : List α} (h : bound.map Prod.fst = specs) {spec : α}
    (hspec : spec ∈ specs) : ∃ b ∈ bound, b.1 = spec := by
  rw [← h] at hspec
  obtain ⟨b, hb, heq⟩ := List.mem_map.1 hspec
  exact ⟨b, hb, heq⟩

end Bindings

section Ascii

attribute [local instance] Platform.ascii

/-- A skill with one input, a list of integers. -/
def amountsSkill : SkillObject :=
  { SkillObject.ofBody "1.0" "0.1" ⟨1, 1, 1, 2, 1000⟩ [] with
    inputs := [⟨"s0001", "amounts", listType INT, true, .internal⟩] }

def amountsRequest (amounts : Value)
    (hclean : findCredentialPath Platform.word "$" (.dict [("amounts", amounts)]) = none) : ExecutionRequest :=
  { ExecutionRequest.plain (.ofPlain "run-amounts") none none with
    inputs := ⟨[("amounts", amounts)], List.nodup_singleton _⟩, inputsClean := hclean }

theorem plainAmounts_clean : findCredentialPath Platform.word "$" (.dict [("amounts", .str "many")]) = none := by
  decide +kernel

theorem listedAmounts_clean :
    findCredentialPath Platform.word "$" (.dict [("amounts", .list [.int 1, .int 2])]) = none := by
  decide +kernel

/-- A request with a text where the list should be. -/
def textRequest : ExecutionRequest := amountsRequest (.str "many") plainAmounts_clean

def listRequest : ExecutionRequest := amountsRequest (.list [.int 1, .int 2]) listedAmounts_clean

end Ascii
end Nsl
