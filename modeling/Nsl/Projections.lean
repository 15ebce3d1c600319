import Nsl.DryRun
import Nsl.SafeSummary
import Nsl.TwinExecutions
/-!
# Projections — what a skill declares of a request

The declared inputs and contexts of a request are a request by themselves: the skill sees the same in both. A projection
has no value the request does not have, in its place, so it is as clean and can be hashed where the request can.
-/
namespace Nsl

/-! ## Fields set along a path -/

theorem setEntry_there {k : String} {v : Value} : ∀ {es : List (String × Value)}, es.lookup k = some v → Dict.setEntry k v es = es
  | [], h             => by cases h
  | (k', v') :: es, h => by
    unfold Dict.setEntry
    by_cases hk : k' = k
    · subst hk
      rw [List.lookup_cons_self] at h
      cases h
      rw [if_pos rfl]
    · rw [List.lookup_cons, show (k == k') = false by simpa using Ne.symm hk] at h
      rw [if_neg hk, setEntry_there h]

/-- What stands at a path. -/
abbrev At (v : Value) (path : List String) (w : Value) : Prop := path.foldlM Value.item v = Except.ok w

theorem at_cons {v w : Value} {k : String} {path : List String} :
    At v (k :: path) w ↔ ∃ items x, v = .dict items ∧ items.lookup k = some x ∧ At x path w := by
  constructor
  · intro h
    obtain ⟨x, hx, hrest⟩ := Stateful.bind_eq_ok h
    obtain ⟨items, rfl, hlookup⟩ := item_eq_ok hx
    exact ⟨items, x, rfl, hlookup, hrest⟩
  · rintro ⟨items, x, rfl, hlookup, hrest⟩
    have hitem : (Value.dict items).item k = .ok x := by
      unfold Value.item
      dsimp only
      rw [hlookup]
    show (Value.dict items).item k >>= _ = _
    rw [hitem]
    exact hrest

/-- A path that is there in a projection is there in what it was projected from. -/
theorem ProjectsTo.path : ∀ {path : List String} {v w x : Value}, ProjectsTo v w → At w path x → ∃ y, At v path y
  | [], v, _, _, _, _         => ⟨v, rfl⟩
  | k :: path, v, w, x, h, hx => by
    obtain ⟨target, below, rfl, hlookup, hrest⟩ := at_cons.1 hx
    cases h with
    | same => exact ⟨x, hx⟩
    | fields source hsource hfields =>
      obtain ⟨y, hy⟩ := ProjectsTo.path (hfields k below hlookup) hrest
      exact ⟨y, at_cons.2 ⟨_, _, rfl, hsource k below hlookup, hy⟩⟩

/-- **What is set stands in its place, and everything set right before is still there.** -/
theorem setPath_at {value : Value} : ∀ {path : List String} {items target target' : List (String × Value)},
    ProjectsTo (.dict items) (.dict target) → At (.dict items) path value → setPath value path target = .ok target' →
    At (.dict target') path value ∧
      ∀ p w, At (.dict items) p w → At (.dict target) p w → At (.dict target') p w
  | [], _, _, _, _, _, hset                                   => by cases hset
  | [last], items, target, target', h, hvalue, hset           => by
    cases hset
    obtain ⟨_, x, hitems, hlast, hx⟩ := at_cons.1 hvalue
    cases hitems
    cases hx
    refine ⟨at_cons.2 ⟨_, _, rfl, Dict.setEntry_lookup_self last value target, rfl⟩, fun p w horiginal htarget => ?_⟩
    cases p with
    | nil    =>
      cases horiginal
      cases htarget
      rw [setEntry_there hlast]
      rfl
    | cons k p =>
      obtain ⟨_, y, hitems, hy, hrest⟩ := at_cons.1 horiginal
      cases hitems
      by_cases hk : k = last
      · subst hk
        rw [hlast] at hy
        cases hy
        exact at_cons.2 ⟨_, _, rfl, Dict.setEntry_lookup_self k value target, hrest⟩
      · obtain ⟨_, z, hz, hlookup, hrest'⟩ := at_cons.1 htarget
        cases hz
        refine at_cons.2 ⟨_, z, rfl, ?_, hrest'⟩
        rw [Dict.setEntry_lookup_other value (by simpa using hk)]
        exact hlookup
  | part :: next :: path, items, target, target', h, hvalue, hset => by
    obtain ⟨_, x, hitems, hpart, hx⟩ := at_cons.1 hvalue
    cases hitems
    obtain ⟨inner, y, rfl, -, -⟩ := at_cons.1 hx
    have hbelow : ∃ below, (target.lookup part).getD (.dict []) = .dict below ∧ ProjectsTo (.dict inner) (.dict below) ∧
        (∀ z, target.lookup part = some z → z = .dict below) := by
      cases htarget : target.lookup part with
      | none   => exact ⟨[], rfl, .of_fields (fun k w hw => by cases hw), fun _ hz => by cases hz⟩
      | some z =>
        obtain ⟨v, hv, hvz⟩ := h.field htarget
        rw [hpart] at hv
        cases hv
        cases hvz with
        | same              => exact ⟨inner, rfl, .same _, fun _ hz => (Option.some.inj hz).symm⟩
        | fields s hs hfields => exact ⟨_, rfl, .fields s hs hfields, fun _ hz => (Option.some.inj hz).symm⟩
    obtain ⟨below, hlookup, hprojects, hsame⟩ := hbelow
    unfold setPath at hset
    rw [hlookup] at hset
    dsimp only at hset
    cases hinner : setPath value (next :: path) below with
    | error e => rw [hinner] at hset; cases hset
    | ok below' =>
      rw [hinner] at hset
      cases hset
      obtain ⟨hthere, hkept⟩ := setPath_at hprojects hx hinner
      refine ⟨at_cons.2 ⟨_, _, rfl, Dict.setEntry_lookup_self part _ target, hthere⟩, fun p w horiginal htarget => ?_⟩
      cases p with
      | nil      =>
        cases horiginal
        cases htarget
        cases hsame _ hpart
        cases hkept [] _ rfl rfl
        show At (.dict (Dict.setEntry part (.dict inner) items)) [] _
        rw [setEntry_there hpart]
        rfl
      | cons k p =>
        obtain ⟨_, y, hitems, hy, hrest⟩ := at_cons.1 horiginal
        cases hitems
        obtain ⟨_, z, hz, hlookup', hrest'⟩ := at_cons.1 htarget
        cases hz
        by_cases hk : k = part
        · subst hk
          rw [hpart] at hy
          cases hy
          cases hsame z hlookup'
          exact at_cons.2 ⟨_, _, rfl, Dict.setEntry_lookup_self k _ target, hkept p w hrest hrest'⟩
        · refine at_cons.2 ⟨_, z, rfl, ?_, hrest'⟩
          rw [Dict.setEntry_lookup_other _ (by simpa using hk)]
          exact hlookup'

theorem setPath_once {value : Value} : ∀ {path : List String} {target target' : List (String × Value)}, KeysOnce target →
    setPath value path target = .ok target' → KeysOnce target'
  | [], _, _, _, hset                   => by cases hset
  | [last], target, _, h, hset          => by
    cases hset
    exact Dict.setEntry_once last value h
  | part :: next :: path, target, _, h, hset => by
    unfold setPath at hset
    split at hset
    · rename_i inner _
      cases hinner : setPath value (next :: path) inner with
      | error e => rw [hinner] at hset; cases hset
      | ok _    =>
        rw [hinner] at hset
        cases hset
        exact Dict.setEntry_once part _ h
    · cases hset

/-! ## Declared contexts -/

/-- What is projected of a context so far: nothing is made up, and what is set stands in its place. -/
structure Projected (context : Dict Value) (specs : List ContextSpec) (q : List (String × Value)) : Prop where
  part  : ProjectsTo (.dict context.entries) (.dict q)
  once  : KeysOnce q
  there : ∀ spec ∈ specs, ∀ w, At (.dict context.entries) spec.path w → At (.dict q) spec.path w

/-- One more path. -/
theorem Projected.next {context : Dict Value} {specs : List ContextSpec} {q q' : List (String × Value)} {spec : ContextSpec}
    {value : Value} (h : Projected context specs q) (hvalue : valueAt context spec.path = .ok value)
    (hset : setPath value spec.path q = .ok q') : Projected context (specs ++ [spec]) q' := by
  have hpath : spec.path ≠ [] := fun hnil => by rw [hnil] at hset; cases hset
  obtain ⟨q'', hset', hpart⟩ := setPath_projects hpath h.part hvalue
  rw [hset] at hset'
  cases hset'
  obtain ⟨hthere, hkept⟩ := setPath_at h.part hvalue hset
  refine ⟨hpart, setPath_once h.once hset, fun s hs w hw => ?_⟩
  rcases List.mem_append.1 hs with hs | hs
  · exact hkept _ w hw (h.there s hs w hw)
  · rw [List.mem_singleton.1 hs] at hw ⊢
    have hsame : (Except.ok value : Except Exn Value) = .ok w := hvalue.symm.trans hw
    cases hsame
    exact hthere

/-- A path that is not there. -/
theorem Projected.skip {context : Dict Value} {specs : List ContextSpec} {q : List (String × Value)} {spec : ContextSpec} {e : Exn}
    (h : Projected context specs q) (hvalue : valueAt context spec.path = .error e) : Projected context (specs ++ [spec]) q := by
  refine ⟨h.part, h.once, fun s hs w hw => ?_⟩
  rcases List.mem_append.1 hs with hs | hs
  · exact h.there s hs w hw
  · rw [List.mem_singleton.1 hs] at hw
    exact absurd (hvalue.symm.trans hw) (by simp)

/-- One step of `project_declared_context`. -/
def projectSpec (context : Dict Value) (projected : List (String × Value)) (spec : ContextSpec) :
    Except Exn (List (String × Value)) :=
  match valueAt context spec.path with
  | .ok value => setPath value spec.path projected
  | .error _  => .ok projected

theorem projectSpec_projected {context : Dict Value} : ∀ {specs before : List ContextSpec} {q q' : List (String × Value)},
    Projected context before q → specs.foldlM (projectSpec context) q = .ok q' → Projected context (before ++ specs) q'
  | [], before, q, q', h, hfold            => by
    cases hfold
    rw [List.append_nil]
    exact h
  | spec :: specs, before, q, q', h, hfold => by
    obtain ⟨q₁, hstep, hrest⟩ := Stateful.bind_eq_ok hfold
    have hnext : Projected context (before ++ [spec]) q₁ := by
      unfold projectSpec at hstep
      split at hstep
      · exact h.next ‹_› hstep
      · cases hstep
        exact h.skip ‹_›
    have hall := projectSpec_projected hnext hrest
    rwa [List.append_assoc, List.singleton_append] at hall

/-- **A projection never fails where each declared path names something.** -/
theorem projectSpec_total {context : Dict Value} : ∀ {specs : List ContextSpec} {q : List (String × Value)},
    (∀ spec ∈ specs, spec.path ≠ []) → ProjectsTo (.dict context.entries) (.dict q) →
    ∃ q', specs.foldlM (projectSpec context) q = .ok q'
  | [], q, _, _            => ⟨q, rfl⟩
  | spec :: specs, q, hpaths, h => by
    obtain ⟨q₁, hstep, hnext⟩ : ∃ q₁, projectSpec context q spec = .ok q₁ ∧ ProjectsTo (.dict context.entries) (.dict q₁) := by
      unfold projectSpec
      split
      · exact setPath_projects (hpaths spec (List.mem_cons_self ..)) h ‹_›
      · exact ⟨q, rfl, h⟩
    obtain ⟨q', hq'⟩ := projectSpec_total (fun s hs => hpaths s (List.mem_cons_of_mem _ hs)) hnext
    refine ⟨q', ?_⟩
    rw [List.foldlM_cons, hstep]
    exact hq'

theorem projectSpec_paths {context : Dict Value} : ∀ {specs : List ContextSpec} {q q' : List (String × Value)},
    specs.foldlM (projectSpec context) q = .ok q' → ∀ spec ∈ specs, spec.path ≠ []
  | [], _, _, _                  => fun _ hs => (List.not_mem_nil hs).elim
  | spec :: specs, q, q', hfold => by
    obtain ⟨q₁, hstep, hrest⟩ := Stateful.bind_eq_ok hfold
    refine List.forall_mem_cons.2 ⟨fun hnil => ?_, projectSpec_paths hrest⟩
    unfold projectSpec valueAt at hstep
    rw [hnil] at hstep
    cases hstep

section Requests

variable [Platform] {skill : SkillObject} {context : Dict Value} {q : List (String × Value)}

omit [Platform] in
theorem projectDeclaredContext_projected (h : projectDeclaredContext skill context = .ok q) :
    Projected context skill.contexts q := by
  have hstart : Projected context [] [] :=
    ⟨.of_fields (fun k w hw => by cases hw), List.nodup_nil, fun _ hs => (List.not_mem_nil hs).elim⟩
  exact projectSpec_projected hstart h

omit [Platform] in
/-- **The skill sees of the projection what it sees of the context.** -/
theorem projectDeclaredContext_same (h : projectDeclaredContext skill context = .ok q) :
    (∀ spec ∈ skill.contexts, (valueAt (Dict.ofList q) spec.path).toOption = (valueAt context spec.path).toOption) ∧
      ∃ q', projectDeclaredContext skill (Dict.ofList q) = .ok q' := by
  have hprojected := projectDeclaredContext_projected h
  have hentries := Dict.ofList_entries hprojected.once
  refine ⟨fun spec hspec => ?_, ?_⟩
  · unfold valueAt
    rw [hentries]
    cases hvalue : valueAt context spec.path with
    | ok w    =>
      have hthere := hprojected.there spec hspec w hvalue
      rw [hthere, show spec.path.foldlM Value.item (.dict context.entries) = .ok w from hvalue]
    | error e =>
      cases hthere : spec.path.foldlM Value.item (.dict q) with
      | error e' =>
        rw [show spec.path.foldlM Value.item (.dict context.entries) = .error e from hvalue]
        rfl
      | ok x     =>
        obtain ⟨y, hy⟩ := hprojected.part.path hthere
        exact absurd (hvalue.symm.trans hy) (by simp)
  · exact projectSpec_total (projectSpec_paths h) (.of_fields (fun k w hw => by cases hw))

/-! ## Declared inputs -/

omit [Platform] in
theorem mem_projectDeclaredInputs {inputs : Dict Value} {k : String} {v : Value} :
    (k, v) ∈ projectDeclaredInputs skill inputs ↔ (∃ spec ∈ skill.inputs, spec.name = k) ∧ inputs.get? k = some v := by
  unfold projectDeclaredInputs
  rw [List.mem_filterMap]
  constructor
  · rintro ⟨spec, hspec, hv⟩
    obtain ⟨w, hw, heq⟩ := Option.map_eq_some_iff.1 hv
    cases heq
    exact ⟨⟨spec, hspec, rfl⟩, hw⟩
  · rintro ⟨⟨spec, hspec, rfl⟩, hv⟩
    exact ⟨spec, hspec, by rw [hv]; rfl⟩

omit [Platform] in
theorem contains_foldl_set {pairs : List (String × Value)} : ∀ {d : Dict Value} {k : String},
    ((∃ v, (k, v) ∈ pairs) ∨ d.contains k = true) → (pairs.foldl (fun d kv => d.set kv.1 kv.2) d).contains k = true := by
  induction pairs with
  | nil           => exact fun h => h.resolve_left (fun ⟨_, hv⟩ => (List.not_mem_nil hv).elim)
  | cons kv pairs ih =>
    intro d k h
    refine ih ?_
    rw [Dict.contains_set]
    rcases h with ⟨v, hv⟩ | h
    · rcases List.mem_cons.1 hv with rfl | hv
      · exact .inr (by simp)
      · exact .inl ⟨v, hv⟩
    · exact .inr (by simp [h])

omit [Platform] in
/-- **The skill sees of the declared inputs what it sees of the inputs.** -/
theorem projectDeclaredInputs_same {inputs : Dict Value} {spec : InputSpec} (h : spec ∈ skill.inputs) :
    (Dict.ofList (projectDeclaredInputs skill inputs)).get? spec.name = inputs.get? spec.name := by
  cases hv : inputs.get? spec.name with
  | some v =>
    have hthere : (Dict.ofList (projectDeclaredInputs skill inputs)).contains spec.name = true :=
      contains_foldl_set (.inl ⟨v, mem_projectDeclaredInputs.2 ⟨⟨spec, h, rfl⟩, hv⟩⟩)
    obtain ⟨w, hw⟩ := Option.isSome_iff_exists.1 hthere
    have hsame := (mem_projectDeclaredInputs.1 (Dict.mem_of_get?_ofList hw)).2
    rw [hv] at hsame
    rw [hw, hsame]
  | none   =>
    cases hw : (Dict.ofList (projectDeclaredInputs skill inputs)).get? spec.name with
    | none   => rfl
    | some w =>
      have hsame := (mem_projectDeclaredInputs.1 (Dict.mem_of_get?_ofList hw)).2
      rw [hv] at hsame
      cases hsame

end Requests

/-! ## What a projection has of a request -/

/-- A property of values that a dictionary has by its entries, and an entry's key says of no dictionary more than of another. -/
structure Hereditary (P : Value → Prop) (F : String → Value → Prop) : Prop where
  dict : ∀ items, P (.dict items) ↔ ∀ kv ∈ items, F kv.1 kv.2 ∧ P kv.2
  key  : ∀ k items items', F k (.dict items) → F k (.dict items')

section Hereditary

variable {P : Value → Prop} {F : String → Value → Prop}

theorem Hereditary.entry (h : Hereditary P F) {items : List (String × Value)} {k : String} {v : Value} (hitems : P (.dict items))
    (hv : items.lookup k = some v) : F k v ∧ P v := (h.dict items).1 hitems (k, v) (mem_of_lookup hv)

theorem Hereditary.set (h : Hereditary P F) {items : List (String × Value)} {k : String} {v : Value} (hitems : P (.dict items))
    (hv : F k v ∧ P v) : P (.dict (Dict.setEntry k v items)) := by
  refine (h.dict _).2 (fun kv hkv => ?_)
  rcases Dict.mem_setEntry hkv with rfl | hkv
  · exact hv
  · exact (h.dict items).1 hitems kv hkv

theorem Hereditary.setPath (h : Hereditary P F) {value : Value} : ∀ {path : List String} {items target target' : List (String × Value)},
    P (.dict items) → P (.dict target) → At (.dict items) path value → Nsl.setPath value path target = .ok target' →
    P (.dict target')
  | [], _, _, _, _, _, _, hset                                             => by cases hset
  | [last], items, target, _, hitems, htarget, hvalue, hset                => by
    cases hset
    obtain ⟨_, x, heq, hlast, hx⟩ := at_cons.1 hvalue
    cases heq
    cases hx
    exact h.set htarget (h.entry hitems hlast)
  | part :: next :: path, items, target, target', hitems, htarget, hvalue, hset => by
    obtain ⟨_, x, heq, hpart, hx⟩ := at_cons.1 hvalue
    cases heq
    obtain ⟨inner, y, rfl, -, -⟩ := at_cons.1 hx
    obtain ⟨hkey, hinner⟩ := h.entry hitems hpart
    unfold Nsl.setPath at hset
    split at hset
    · rename_i below hbelow
      have hbelow' : P (.dict below) := by
        cases hlookup : target.lookup part with
        | none   =>
          rw [hlookup] at hbelow
          cases hbelow
          exact (h.dict []).2 (fun _ hkv => (List.not_mem_nil hkv).elim)
        | some w =>
          rw [hlookup] at hbelow
          cases hbelow
          exact (h.entry htarget hlookup).2
      cases hbelow'' : Nsl.setPath value (next :: path) below with
      | error e => rw [hbelow''] at hset; cases hset
      | ok _    =>
        rw [hbelow''] at hset
        cases hset
        exact h.set htarget ⟨h.key _ _ _ hkey, h.setPath hinner hbelow' hx hbelow''⟩
    · cases hset

theorem Hereditary.projectSpecs (h : Hereditary P F) {context : Dict Value} (hcontext : P (.dict context.entries)) :
    ∀ {specs : List ContextSpec} {q q' : List (String × Value)}, P (.dict q) → specs.foldlM (projectSpec context) q = .ok q' →
    P (.dict q')
  | [], _, _, hq, hfold            => by
    cases hfold
    exact hq
  | spec :: specs, q, q', hq, hfold => by
    obtain ⟨q₁, hstep, hrest⟩ := Stateful.bind_eq_ok hfold
    refine h.projectSpecs hcontext ?_ hrest
    unfold projectSpec at hstep
    split at hstep
    · exact h.setPath hcontext hq ‹_› hstep
    · cases hstep
      exact hq

variable [Platform] {skill : SkillObject}

omit [Platform] in
/-- The projection of a context has the property. -/
theorem Hereditary.projectedContext (h : Hereditary P F) {context : Dict Value} {q : List (String × Value)}
    (hq : projectDeclaredContext skill context = .ok q) (hcontext : P (.dict context.entries)) :
    P (.dict (Dict.ofList q).entries) := by
  rw [Dict.ofList_entries (projectDeclaredContext_projected hq).once]
  exact h.projectSpecs hcontext ((h.dict []).2 (fun _ hkv => (List.not_mem_nil hkv).elim)) hq

omit [Platform] in
/-- The declared inputs have the property. -/
theorem Hereditary.projectedInputs (h : Hereditary P F) {inputs : Dict Value} (hinputs : P (.dict inputs.entries)) :
    P (.dict (Dict.ofList (projectDeclaredInputs skill inputs)).entries) := by
  refine (h.dict _).2 (fun kv hkv => ?_)
  have hget := (lookup_iff_mem (Dict.ofList (projectDeclaredInputs skill inputs)).once).2 hkv
  exact h.entry hinputs (mem_projectDeclaredInputs.1 (Dict.mem_of_get?_ofList hget)).2

end Hereditary

/-- A value that can be encoded. -/
theorem encodable_hereditary : Hereditary (fun v => v.encodable = true) (fun _ _ => True) where
  dict items := by
    show fieldsEncodable items = true ↔ _
    induction items with
    | nil           => simp [fieldsEncodable]
    | cons kv items ih => simp [fieldsEncodable, ih]
  key _ _ _ _ := trivial

/-- A value without credential material. -/
theorem clean_hereditary (word : Char → Bool) : Hereditary (fun v => findCredentialPath word "$" v = none)
    (fun k v => redactText word k [] = k ∧ (isCredentialKey k = true → v = .null ∨ v = .str "")) where
  dict items := by
    show findInFields word "$" items = none ↔ _
    rw [findInFields_none_iff]
    exact forall₂_congr (fun kv _ => and_assoc.symm)
  key k items items' h := ⟨h.1, fun hk => by simpa using h.2 hk⟩

end Nsl
