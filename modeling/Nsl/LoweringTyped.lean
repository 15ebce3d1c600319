import Nsl.Typing
/-!
# LoweringTyped — the compiler makes well-typed, well-scoped bodies

Along the lowering the symbol table only grows, the expressions built so far are well-typed in it, and a new one refers
to visible symbols. From one step to the next these carry the judgements of `Typing` from the parts to the whole body.
-/
namespace Nsl

open Stateful (Run)

/-- The symbols declared so far. -/
def SymbolTable.specs (t : SymbolTable) : List SymbolSpec := t.bindings.map Lowerer.symbolSpec

/-- The identifiers of the visible symbols. -/
def SymbolTable.scope (t : SymbolTable) : List String := t.visible.map (·.symbolId)

theorem SymbolTable.specs_nodup (t : SymbolTable) : (t.specs.map (·.symbolId)).Nodup := by
  have hids : t.specs.map (·.symbolId) = t.bindings.map (·.symbolId) := by
    rw [specs, List.map_map]
    rfl
  rw [hids]
  exact t.ids_nodup

theorem declares_binding {t : SymbolTable} {b : SymbolBinding} (h : b ∈ t.bindings) :
    Declares t.specs b.symbolId b.typeInfo b.classification :=
  ⟨Lowerer.symbolSpec b, List.mem_map_of_mem h, rfl, rfl, rfl⟩

/-- The symbols of a later table. -/
theorem specs_subset {t t' : SymbolTable} (h : t.bindings <+: t'.bindings) : t.specs ⊆ t'.specs :=
  fun _ hx => (List.map_subset _ h.subset) hx

/-- What is in scope is among the declared symbols. -/
theorem scope_listed {t : SymbolTable} {i : String} (h : i ∈ t.scope) : i ∈ t.bindings.map (·.symbolId) := by
  obtain ⟨b, hb, rfl⟩ := List.mem_map.1 h
  exact List.mem_map_of_mem (SymbolTable.visible_listed hb)

/-- A declaration brings one new identifier into scope. -/
theorem declare_scope {t t' : SymbolTable} {b : SymbolBinding} {name category : String} {space : SymbolNamespace}
    {typeInfo : TypeRef} {c : DataClassification} (h : t.declare name space category typeInfo c = .ok (b, t')) :
    b.symbolId ∉ t.scope ∧ ∀ i, i ∈ t'.scope ↔ i = b.symbolId ∨ i ∈ t.scope := by
  obtain ⟨hfree, rfl, -, hbelow, htop⟩ := SymbolTable.declare_ok h
  have hname : t.top.bindings.contains name = false := by
    have hany := List.any_eq_false.1 hfree t.top (List.mem_cons_self ..)
    simpa using hany
  have hvisible : t'.visible = (t.top.bindings.values ++ [t.bindingFor name space category typeInfo c]) ++
      t.below.flatMap (·.bindings.values) := by
    unfold SymbolTable.visible SymbolTable.frames
    rw [htop, hbelow, List.flatMap_cons, Dict.values_set_new hname]
  refine ⟨fun hi => t.next_fresh (scope_listed hi), fun i => ?_⟩
  unfold SymbolTable.scope
  rw [hvisible, show t.visible = t.top.bindings.values ++ t.below.flatMap (·.bindings.values) from rfl]
  simp only [List.map_append, List.map_singleton, List.mem_append, List.mem_singleton]
  tauto

theorem leaveScope_ok {t t' : SymbolTable} {scopeId : String} (h : t.leaveScope scopeId = .ok t') :
    t'.frames = t.below ∧ t'.bindings = t.bindings := by
  unfold SymbolTable.leaveScope at h
  split at h
  · cases h
  · rename_i f below hbelow
    split at h
    · cases h
    · cases h
      exact ⟨hbelow.symm, rfl⟩

namespace Lowerer

variable {tools : ToolsById} {outputs : List OutputField}

/-- A built expression is well-typed and refers to visible symbols. -/
def Built (tools : ToolsById) (t : SymbolTable) (x : Expression × DataClassification) : Prop :=
  Typed t.specs tools x.1 x.2 ∧ x.1.refs ⊆ t.scope

/-- Every expression built so far is well-typed. -/
def LabelsTyped (tools : ToolsById) (s : LowerState) : Prop := ∀ x ∈ s.labels, Typed s.symbols.specs tools x.1 x.2

/-- What building an expression keeps: the symbols, and that the labels are typed. -/
def Holds (tools : ToolsById) (s s' : LowerState) : Prop := s'.symbols = s.symbols ∧ LabelsTyped tools s'

/-! ## Steps -/

theorem nodeId_ok {kind n : String} {s s' : LowerState} {w : List LowerState}
    (h : nodeId kind s = ⟨w, s', .ok n⟩) : s'.symbols = s.symbols ∧ s'.labels = s.labels := by
  unfold nodeId at h
  obtain ⟨_, _, m, _, hlook, h₁, -⟩ := Run.andThen_eq_ok h
  cases hlook
  obtain ⟨_, _, _, _, hwrite, h₂, -⟩ := Run.andThen_eq_ok h₁
  cases hwrite
  cases h₂
  exact ⟨rfl, rfl⟩

/-- A new expression, well-typed, with its label. -/
theorem newExpression_ok {kind : String} {node : String → Expression} {c : DataClassification} {s s' : LowerState}
    {w : List LowerState} {r : Expression × DataClassification} (hl : LabelsTyped tools s)
    (hn : ∀ n, Built tools s.symbols (node n, c)) (h : newExpression kind node c s = ⟨w, s', .ok r⟩) :
    Holds tools s s' ∧ Built tools s.symbols r ∧ r.2 = c := by
  unfold newExpression at h
  obtain ⟨_, s₁, n, _, hid, h₁, -⟩ := Run.andThen_eq_ok h
  obtain ⟨_, _, _, _, hwrite, h₂, -⟩ := Run.andThen_eq_ok h₁
  cases hwrite
  cases h₂
  obtain ⟨hsymbols, hlabels⟩ := nodeId_ok hid
  refine ⟨⟨hsymbols, fun x hx => ?_⟩, hn n, rfl⟩
  show Typed s₁.symbols.specs tools x.1 x.2
  rw [hsymbols]
  rcases List.mem_append.1 hx with hx | hx
  · rw [hlabels] at hx
    exact hl x hx
  · rw [List.mem_singleton.1 hx]
    exact (hn n).1

theorem resolveName_ok {name : String} {s s' : LowerState} {w : List LowerState} {b : SymbolBinding}
    (h : resolveName name s = ⟨w, s', .ok b⟩) : s = s' ∧ b ∈ s.symbols.visible := by
  unfold resolveName at h
  obtain ⟨_, _, t, _, hlook, h₁, -⟩ := Run.andThen_eq_ok h
  cases hlook
  obtain ⟨hb, rfl⟩ := Run.ofExcept_eq_ok h₁
  exact ⟨rfl, SymbolTable.resolve_visible hb⟩

/-! ## Expressions -/

theorem Holds.trans {s s' s'' : LowerState} (h : Holds tools s s') (h' : Holds tools s' s'') : Holds tools s s'' :=
  ⟨h'.1.trans h.1, h'.2⟩

theorem lowerFields_ok {c : DataClassification} : ∀ {fields : List String} {e : Expression} {s s' : LowerState}
    {w : List LowerState} {r : Expression × DataClassification}, LabelsTyped tools s → Built tools s.symbols (e, c) →
    lowerFields c fields e s = ⟨w, s', .ok r⟩ → Holds tools s s' ∧ Built tools s.symbols r
  | [], _, _, _, _, _, hl, he, h               => by
    cases h
    exact ⟨⟨rfl, hl⟩, he⟩
  | field :: fields, e, s, s', w, r, hl, he, h => by
    obtain ⟨_, _, ⟨t, projected⟩, _, hresult, h₁, -⟩ := Run.andThen_eq_ok h
    obtain ⟨hfield, rfl⟩ := Run.ofExcept_eq_ok hresult
    obtain ⟨_, s₁, ⟨e', c'⟩, _, hnew, h₂, -⟩ := Run.andThen_eq_ok h₁
    have hn : ∀ n, Built tools s.symbols
        (if projected then Expression.project n e field t else Expression.field n e field t, c) := by
      intro n
      rcases fieldResult_ok hfield with ⟨rfl, hkind, item, t', hitem, ht', ht⟩ | ⟨rfl, hkind, ht⟩
      · exact ⟨⟨he.1, hkind, item, t', hitem, ht', ht⟩, he.2⟩
      · exact ⟨⟨he.1, hkind, ht⟩, he.2⟩
    obtain ⟨hs₁, hx, rfl⟩ := newExpression_ok hl hn hnew
    rw [← hs₁.1] at hx
    obtain ⟨hs', hr⟩ := lowerFields_ok hs₁.2 hx h₂
    rw [hs₁.1] at hr
    exact ⟨hs₁.trans hs', hr⟩

theorem lowerPath_ok {parts : List String} {s s' : LowerState} {w : List LowerState}
    {r : Expression × DataClassification} (hl : LabelsTyped tools s) (h : lowerPath parts s = ⟨w, s', .ok r⟩) :
    Holds tools s s' ∧ Built tools s.symbols r := by
  cases parts with
  | nil => cases h
  | cons name fields =>
    obtain ⟨_, _, b, _, hresolve, h₁, -⟩ := Run.andThen_eq_ok h
    obtain ⟨rfl, hvisible⟩ := resolveName_ok hresolve
    obtain ⟨_, s₁, ⟨e', c'⟩, _, hnew, h₂, -⟩ := Run.andThen_eq_ok h₁
    have hn : ∀ n, Built tools s.symbols (.symbolRef n b.symbolId b.typeInfo, b.classification) := by
      intro n
      refine ⟨declares_binding (SymbolTable.visible_listed hvisible), fun i hi => ?_⟩
      rw [List.mem_singleton.1 hi]
      exact List.mem_map_of_mem hvisible
    obtain ⟨hs₁, hx, rfl⟩ := newExpression_ok hl hn hnew
    rw [← hs₁.1] at hx
    obtain ⟨hs', hr⟩ := lowerFields_ok hs₁.2 hx h₂
    rw [hs₁.1] at hr
    exact ⟨hs₁.trans hs', hr⟩

/-- Expressions built one by one. -/
theorem built_items {t : SymbolTable} : ∀ {xs : List (Expression × DataClassification)}, (∀ x ∈ xs, Built tools t x) →
    TypedItems t.specs tools (xs.map Prod.fst) (xs.map Prod.snd) ∧ refsOfItems (xs.map Prod.fst) ⊆ t.scope
  | [], _      => ⟨trivial, List.nil_subset _⟩
  | x :: xs, h => by
    obtain ⟨hx, hxs⟩ := List.forall_mem_cons.1 h
    obtain ⟨htyped, hrefs⟩ := built_items hxs
    exact ⟨⟨hx.1, htyped⟩, List.append_subset.2 ⟨hx.2, hrefs⟩⟩

theorem lowerCall_ok {name : String} {xs : List (Expression × DataClassification)} {s s' : LowerState}
    {w : List LowerState} {r : Expression × DataClassification} (hl : LabelsTyped tools s)
    (hxs : ∀ x ∈ xs, Built tools s.symbols x) (h : lowerCall name xs s = ⟨w, s', .ok r⟩) :
    Holds tools s s' ∧ Built tools s.symbols r := by
  obtain ⟨_, _, t, _, hresult, h₁, -⟩ := Run.andThen_eq_ok h
  obtain ⟨ht, rfl⟩ := Run.ofExcept_eq_ok hresult
  obtain ⟨htyped, hrefs⟩ := built_items hxs
  have hbuiltin : resolveBuiltin name ((xs.map Prod.fst).map (fun e => some e.typeInfo)) = .ok t := by
    have hb := builtinResult_ok ht
    rw [List.map_map] at hb ⊢
    exact hb
  cases xs with
  | nil => cases h₁
  | cons x xs =>
    have hn : ∀ n, Built tools s.symbols (.call n name ((x :: xs).map Prod.fst) t, x.2) :=
      fun n => ⟨⟨_, htyped, rfl, hbuiltin⟩, hrefs⟩
    obtain ⟨hs', hr, -⟩ := newExpression_ok hl hn h₁
    exact ⟨hs', hr⟩

theorem lowerBinary_ok {operator : String} {x y : Expression × DataClassification} {s s' : LowerState}
    {w : List LowerState} {r : Expression × DataClassification} (hl : LabelsTyped tools s)
    (hx : Built tools s.symbols x) (hy : Built tools s.symbols y) (h : lowerBinary operator x y s = ⟨w, s', .ok r⟩) :
    Holds tools s s' ∧ Built tools s.symbols r := by
  obtain ⟨_, _, t, _, hresult, h₁, -⟩ := Run.andThen_eq_ok h
  obtain ⟨ht, rfl⟩ := Run.ofExcept_eq_ok hresult
  obtain ⟨heq, htype⟩ := binaryResult_ok ht
  cases hop : operatorMap.lookup operator with
  | none =>
    simp only [hop] at h₁
    cases h₁
  | some op =>
    simp only [hop] at h₁
    have hn : ∀ n, Built tools s.symbols (.binary n op x.1 y.1 t, laterClassification x.2 y.2) :=
      fun n => ⟨⟨x.2, y.2, operator, hx.1, hy.1, heq, hop, htype, rfl⟩, List.append_subset.2 ⟨hx.2, hy.2⟩⟩
    obtain ⟨hs', hr, -⟩ := newExpression_ok hl hn h₁
    exact ⟨hs', hr⟩

theorem readContract_ok {toolId : String} {x : RequiredTool × ToolContract} (h : readContract tools toolId = .ok x) :
    (toolId, x) ∈ tools := by
  unfold readContract at h
  cases hl : tools.lookup toolId with
  | none   => rw [hl] at h; cases h
  | some y =>
    simp only [hl] at h
    split at h
    · cases h
    · cases h
      exact mem_of_lookup hl

theorem writeContract_ok {toolId : String} {x : RequiredTool × ToolContract} (h : writeContract tools toolId = .ok x) :
    (toolId, x) ∈ tools := by
  unfold writeContract at h
  cases hl : tools.lookup toolId with
  | none   => rw [hl] at h; cases h
  | some y =>
    simp only [hl] at h
    cases h
    exact mem_of_lookup hl

mutual
/-- **What `_lower_expr` returns is well-typed in the symbols, with the classification it returns.** -/
theorem lowerExpr_ok : ∀ {a : AstExpression} {s s' : LowerState} {w : List LowerState}
    {r : Expression × DataClassification}, LabelsTyped tools s → lowerExpr tools a s = ⟨w, s', .ok r⟩ →
    Holds tools s s' ∧ Built tools s.symbols r
  | .literal value typeInfo, s, s', w, r, hl, h => by
    have hn : ∀ n, Built tools s.symbols (.literal n value typeInfo, .publicData) := fun n => ⟨rfl, List.nil_subset _⟩
    obtain ⟨hs', hr, -⟩ := newExpression_ok hl hn h
    exact ⟨hs', hr⟩
  | .path parts, s, s', w, r, hl, h             => lowerPath_ok hl h
  | .call name as, s, s', w, r, hl, h           => by
    obtain ⟨_, s₁, xs, _, hitems, h₁, -⟩ := Run.andThen_eq_ok h
    obtain ⟨hs₁, hxs⟩ := lowerItems_ok hl hitems
    rw [← hs₁.1] at hxs
    obtain ⟨hs', hr⟩ := lowerCall_ok hs₁.2 hxs h₁
    rw [hs₁.1] at hr
    exact ⟨hs₁.trans hs', hr⟩
  | .binary operator left right, s, s', w, r, hl, h => by
    obtain ⟨_, s₁, x, _, hleft, h₁, -⟩ := Run.andThen_eq_ok h
    obtain ⟨hs₁, hx⟩ := lowerExpr_ok hl hleft
    obtain ⟨_, s₂, y, _, hright, h₂, -⟩ := Run.andThen_eq_ok h₁
    obtain ⟨hs₂, hy⟩ := lowerExpr_ok hs₁.2 hright
    have hsymbols : s₂.symbols = s.symbols := (hs₁.trans hs₂).1
    rw [hs₁.1, ← hsymbols] at hy
    rw [← hsymbols] at hx
    obtain ⟨hs', hr⟩ := lowerBinary_ok hs₂.2 hx hy h₂
    rw [hsymbols] at hr
    exact ⟨(hs₁.trans hs₂).trans hs', hr⟩
  | .read toolId as, s, s', w, r, hl, h         => by
    obtain ⟨_, _, ⟨requirement, contract⟩, _, hcontract, h₁, -⟩ := Run.andThen_eq_ok h
    obtain ⟨hmem, rfl⟩ := Run.ofExcept_eq_ok hcontract
    obtain ⟨_, _, u, _, hnames, h₂, -⟩ := Run.andThen_eq_ok h₁
    obtain ⟨-, rfl⟩ := Run.ofExcept_eq_ok hnames
    obtain ⟨_, s₁, es, _, hargs, h₃, -⟩ := Run.andThen_eq_ok h₂
    obtain ⟨hs₁, htyped, hrefs⟩ := lowerArguments_ok hl hargs
    have hn : ∀ n, Built tools s₁.symbols (.read n requirement.toolRef es contract.outputType
        { emptyIsValid := contract.emptyIsValid }, contract.outputClassification) := by
      intro n
      rw [hs₁.1]
      exact ⟨⟨htyped, _, readContract_ok hmem, rfl, rfl, rfl⟩, hrefs⟩
    obtain ⟨hs', hr, -⟩ := newExpression_ok hs₁.2 hn h₃
    rw [hs₁.1] at hr
    exact ⟨hs₁.trans hs', hr⟩
  | .write toolId as approvalId, s, s', w, r, hl, h => by
    obtain ⟨_, _, ⟨requirement, contract⟩, _, hcontract, h₁, -⟩ := Run.andThen_eq_ok h
    obtain ⟨hmem, rfl⟩ := Run.ofExcept_eq_ok hcontract
    obtain ⟨_, _, u, _, hnames, h₂, -⟩ := Run.andThen_eq_ok h₁
    obtain ⟨-, rfl⟩ := Run.ofExcept_eq_ok hnames
    obtain ⟨_, s₁, es, _, hargs, h₃, -⟩ := Run.andThen_eq_ok h₂
    obtain ⟨hs₁, htyped, hrefs⟩ := lowerArguments_ok hl hargs
    have hn : ∀ n, Built tools s₁.symbols (.write n requirement.toolRef es approvalId contract.outputType,
        contract.outputClassification) := by
      intro n
      rw [hs₁.1]
      exact ⟨⟨htyped, _, writeContract_ok hmem, rfl, rfl, rfl⟩, hrefs⟩
    obtain ⟨hs', hr, -⟩ := newExpression_ok hs₁.2 hn h₃
    rw [hs₁.1] at hr
    exact ⟨hs₁.trans hs', hr⟩
theorem lowerItems_ok : ∀ {as : List AstExpression} {s s' : LowerState} {w : List LowerState}
    {xs : List (Expression × DataClassification)}, LabelsTyped tools s → lowerItems tools as s = ⟨w, s', .ok xs⟩ →
    Holds tools s s' ∧ ∀ x ∈ xs, Built tools s.symbols x
  | [], _, _, _, _, hl, h             => by
    cases h
    exact ⟨⟨rfl, hl⟩, by simp⟩
  | a :: as, s, s', w, xs, hl, h => by
    obtain ⟨_, s₁, x, _, ha, h₁, -⟩ := Run.andThen_eq_ok h
    obtain ⟨hs₁, hx⟩ := lowerExpr_ok hl ha
    obtain ⟨_, s₂, ys, _, has, h₂, -⟩ := Run.andThen_eq_ok h₁
    obtain ⟨hs₂, hys⟩ := lowerItems_ok hs₁.2 has
    cases h₂
    rw [hs₁.1] at hys
    exact ⟨hs₁.trans hs₂, List.forall_mem_cons.2 ⟨hx, hys⟩⟩
theorem lowerArguments_ok : ∀ {toolId : String} {contract : ToolContract} {as : List (String × AstExpression)}
    {s s' : LowerState} {w : List LowerState} {es : List (String × Expression)}, LabelsTyped tools s →
    lowerArguments tools toolId contract as s = ⟨w, s', .ok es⟩ →
    Holds tools s s' ∧ TypedArguments s.symbols.specs tools es ∧ refsOfNamed es ⊆ s.symbols.scope
  | _, _, [], _, _, _, _, hl, h                           => by
    cases h
    exact ⟨⟨rfl, hl⟩, trivial, List.nil_subset _⟩
  | toolId, contract, (name, a) :: as, s, s', w, es, hl, h => by
    obtain ⟨_, s₁, x, _, ha, h₁, -⟩ := Run.andThen_eq_ok h
    obtain ⟨hs₁, hx⟩ := lowerExpr_ok hl ha
    obtain ⟨_, _, u, _, hcheck, h₂, -⟩ := Run.andThen_eq_ok h₁
    obtain ⟨-, rfl⟩ := Run.ofExcept_eq_ok hcheck
    obtain ⟨_, s₂, fs, _, has, h₃, -⟩ := Run.andThen_eq_ok h₂
    obtain ⟨hs₂, htyped, hrefs⟩ := lowerArguments_ok hs₁.2 has
    cases h₃
    rw [hs₁.1] at htyped hrefs
    exact ⟨hs₁.trans hs₂, ⟨⟨x.2, hx.1⟩, htyped⟩, List.append_subset.2 ⟨hx.2, hrefs⟩⟩
end


/-! ## Declarations -/

/-- What a step that may declare keeps: the bindings made before, the outer scopes, and that the labels are typed. -/
def Grows (tools : ToolsById) (s s' : LowerState) : Prop :=
  s.symbols.bindings <+: s'.symbols.bindings ∧ s'.symbols.below = s.symbols.below ∧ LabelsTyped tools s'

theorem Holds.grows {s s' : LowerState} (h : Holds tools s s') : Grows tools s s' := by
  obtain ⟨hsymbols, hl⟩ := h
  exact ⟨hsymbols ▸ List.prefix_refl _, congrArg SymbolTable.below hsymbols, hl⟩

theorem Grows.trans {s s' s'' : LowerState} (h : Grows tools s s') (h' : Grows tools s' s'') : Grows tools s s'' :=
  ⟨h.1.trans h'.1, h'.2.1.trans h.2.1, h'.2.2⟩

/-- The labels stay typed when only symbols are added. -/
theorem LabelsTyped.mono {s s' : LowerState} (h : LabelsTyped tools s) (hsub : s.symbols.bindings <+: s'.symbols.bindings)
    (hlabels : s'.labels = s.labels) : LabelsTyped tools s' := by
  intro x hx
  rw [hlabels] at hx
  exact (h x hx).mono (specs_subset hsub)

/-- **A declaration**: one more binding, whose identifier is new and comes into scope. -/
theorem addBinding_ok {name category : String} {space : SymbolNamespace} {t : TypeRef} {c : DataClassification}
    {s s' : LowerState} {w : List LowerState} {b : SymbolBinding} (hl : LabelsTyped tools s)
    (h : addBinding name space category t c s = ⟨w, s', .ok b⟩) :
    Grows tools s s' ∧ s'.symbols.bindings = s.symbols.bindings ++ [b] ∧ b = s.symbols.bindingFor name space category t c ∧
      b.symbolId ∉ s.symbols.scope ∧ ∀ i, i ∈ s'.symbols.scope ↔ i = b.symbolId ∨ i ∈ s.symbols.scope := by
  unfold addBinding at h
  obtain ⟨_, _, symbols, _, hlook, h₁, -⟩ := Run.andThen_eq_ok h
  cases hlook
  obtain ⟨_, _, ⟨b', symbols'⟩, _, hdeclare, h₂, -⟩ := Run.andThen_eq_ok h₁
  obtain ⟨hd, rfl⟩ := Run.ofExcept_eq_ok hdeclare
  obtain ⟨_, _, _, _, hwrite, h₃, -⟩ := Run.andThen_eq_ok h₂
  cases hwrite
  cases h₃
  obtain ⟨hfree, hb, hbindings, hbelow, htop⟩ := SymbolTable.declare_ok hd
  have hsub : s.symbols.bindings <+: symbols'.bindings := ⟨[b], hbindings.symm⟩
  obtain ⟨hnew, hscope⟩ := declare_scope hd
  exact ⟨⟨hsub, hbelow, hl.mono hsub rfl⟩, hbindings, hb, hnew, hscope⟩

theorem addBinding_declares {name category : String} {space : SymbolNamespace} {t : TypeRef} {c : DataClassification}
    {s s' : LowerState} {w : List LowerState} {b : SymbolBinding} (hl : LabelsTyped tools s)
    (h : addBinding name space category t c s = ⟨w, s', .ok b⟩) : Declares s'.symbols.specs b.symbolId t c := by
  obtain ⟨-, hbindings, hb, -⟩ := addBinding_ok hl h
  have hmem : b ∈ s'.symbols.bindings := by
    rw [hbindings]
    simp
  have hdeclares := declares_binding hmem
  rw [hb] at hdeclares ⊢
  exact hdeclares

theorem nodeId_holds {kind n : String} {s s' : LowerState} {w : List LowerState} (hl : LabelsTyped tools s)
    (h : nodeId kind s = ⟨w, s', .ok n⟩) : Holds tools s s' := by
  obtain ⟨hsymbols, hlabels⟩ := nodeId_ok h
  exact ⟨hsymbols, hl.mono (hsymbols ▸ List.prefix_refl _) hlabels⟩

/-- A declaration and the node of the statement that makes it. -/
theorem declaration_ok {name category kind n : String} {space : SymbolNamespace} {t : TypeRef} {c : DataClassification}
    {s s₁ s' : LowerState} {w w' : List LowerState} {b : SymbolBinding} (hl : LabelsTyped tools s)
    (hadd : addBinding name space category t c s = ⟨w, s₁, .ok b⟩) (hid : nodeId kind s₁ = ⟨w', s', .ok n⟩) :
    Grows tools s s' ∧ Declares s'.symbols.specs b.symbolId t c ∧ b.symbolId ∉ s.symbols.scope ∧
      ∀ i, i ∈ s'.symbols.scope ↔ i = b.symbolId ∨ i ∈ s.symbols.scope := by
  obtain ⟨hgrows, -, -, hnew, hscope⟩ := addBinding_ok hl hadd
  have hs' := nodeId_holds hgrows.2.2 hid
  have hd := addBinding_declares hl hadd
  rw [hs'.1]
  exact ⟨hgrows.trans hs'.grows, hd, hnew, hscope⟩

/-! ## Statements -/

/-- The list has the identifiers in scope. -/
def SameScope (scope : List String) (t : SymbolTable) : Prop := ∀ i, i ∈ scope ↔ i ∈ t.scope

theorem SameScope.covers {scope refs : List String} {t : SymbolTable} (h : SameScope scope t) (hrefs : refs ⊆ t.scope) :
    refs ⊆ scope := fun i hi => (h i).2 (hrefs hi)

/-- **What lowering a statement gives**: it is well-typed and well-scoped, and leaves in scope what it binds. -/
structure LoweredStatement (tools : ToolsById) (outputs : List OutputField) (s s' : LowerState) (st : Statement) :
    Prop where
  grows   : Grows tools s s'
  typed   : TypedStatement s'.symbols.specs tools outputs st
  inScope : ∀ scope, SameScope scope s.symbols → ScopedStatement scope st
  binds   : ∀ scope, SameScope scope s.symbols → SameScope (st.binds ++ scope) s'.symbols

structure LoweredBlock (tools : ToolsById) (outputs : List OutputField) (s s' : LowerState) (ss : List Statement) :
    Prop where
  grows   : Grows tools s s'
  typed   : TypedBlock s'.symbols.specs tools outputs ss
  inScope : ∀ scope, SameScope scope s.symbols → ScopedBlock scope ss

theorem checkEmitNames_ok {names : List String} (hout : (outputs.map OutputField.name).Nodup)
    (h : checkEmitNames outputs names = .ok ()) : emitFieldsMatch outputs names = true := by
  unfold checkEmitNames at h
  split at h
  · rename_i hnames
    obtain ⟨hnodup, hin, hall⟩ := hnames
    unfold emitFieldsMatch
    simp only [Bool.and_eq_true, decide_eq_true_eq, List.all_eq_true, List.contains_iff_mem]
    exact ⟨⟨⟨hout, hnodup⟩, hin⟩, hall⟩
  · cases h

theorem checkEmitField_ok {name : String} {x : Expression × DataClassification}
    (h : checkEmitField outputs name x = .ok ()) : ∃ o, outputs.find? (fun o => o.name = name) = some o ∧
      x.1.typeInfo = o.typeInfo ∧ x.2.allows o.classification = true := by
  unfold checkEmitField at h
  cases hfind : outputs.find? (fun o => o.name = name) with
  | none   => simp only [hfind] at h; cases h
  | some o =>
    simp only [hfind] at h
    obtain ⟨_, htype, h₁⟩ := Stateful.bind_eq_ok h
    split at h₁
    · rename_i hallows
      exact ⟨o, rfl, requireExact_ok htype, hallows⟩
    · cases h₁

theorem lowerEmitFields_ok : ∀ {as : List (String × AstExpression)} {s s' : LowerState} {w : List LowerState}
    {es : List (String × Expression)}, LabelsTyped tools s → lowerEmitFields tools outputs as s = ⟨w, s', .ok es⟩ →
    Holds tools s s' ∧ es.map Prod.fst = as.map Prod.fst ∧
      (∀ x ∈ es, TypedField s.symbols.specs tools outputs x.1 x.2) ∧ refsOfNamed es ⊆ s.symbols.scope
  | [], _, _, _, _, hl, h                => by
    cases h
    exact ⟨⟨rfl, hl⟩, rfl, by simp, List.nil_subset _⟩
  | (name, a) :: as, s, s', w, es, hl, h => by
    obtain ⟨_, s₁, x, _, ha, h₁, -⟩ := Run.andThen_eq_ok h
    obtain ⟨hs₁, hx⟩ := lowerExpr_ok hl ha
    obtain ⟨_, _, u, _, hcheck, h₂, -⟩ := Run.andThen_eq_ok h₁
    obtain ⟨hfield, rfl⟩ := Run.ofExcept_eq_ok hcheck
    obtain ⟨_, s₂, fs, _, has, h₃, -⟩ := Run.andThen_eq_ok h₂
    obtain ⟨hs₂, hnames, htyped, hrefs⟩ := lowerEmitFields_ok hs₁.2 has
    cases h₃
    rw [hs₁.1] at htyped hrefs
    obtain ⟨o, ho, htype, hallows⟩ := checkEmitField_ok hfield
    refine ⟨hs₁.trans hs₂, ?_, List.forall_mem_cons.2 ⟨⟨o, x.2, ho, hx.1, htype, hallows⟩, htyped⟩,
      List.append_subset.2 ⟨hx.2, hrefs⟩⟩
    rw [List.map_cons, List.map_cons, hnames]

/-- **The scope of a loop**: the iterator is declared in it, and its end restores the scopes around it. -/
theorem inLoop_ok {iterator : String} {itemType : TypeRef} {c : DataClassification} {body : Lower (List Statement)}
    {s s' : LowerState} {w : List LowerState} {b : SymbolBinding} {ss : List Statement} (hl : LabelsTyped tools s)
    (h : inLoop iterator itemType c body s = ⟨w, s', .ok (b, ss)⟩) :
    ∃ s₁ s₂ w₁, LabelsTyped tools s₁ ∧ body s₁ = ⟨w₁, s₂, .ok ss⟩ ∧ s.symbols.bindings <+: s₁.symbols.bindings ∧
      Declares s₁.symbols.specs b.symbolId itemType c ∧ b.symbolId ∉ s.symbols.scope ∧
      (∀ i, i ∈ s₁.symbols.scope ↔ i = b.symbolId ∨ i ∈ s.symbols.scope) ∧
      (Grows tools s₁ s₂ → s'.symbols.bindings = s₂.symbols.bindings ∧ s'.symbols.frames = s.symbols.frames ∧
        s'.labels = s₂.labels) := by
  unfold inLoop enterLoop at h
  obtain ⟨_, s₀, scopeId, _, henter, h₁, -⟩ := Run.andThen_eq_ok h
  obtain ⟨_, _, _, _, hwrite, henter₁, -⟩ := Run.andThen_eq_ok henter
  cases hwrite
  cases henter₁
  obtain ⟨_, s₂, _, hmain, hleave, -⟩ := Run.lastly_eq_ok h₁
  obtain ⟨_, s₁, b', _, hadd, hmain₁, -⟩ := Run.andThen_eq_ok hmain
  obtain ⟨_, s₃, ss', _, hbody, hmain₂, -⟩ := Run.andThen_eq_ok hmain₁
  cases hmain₂
  have hl₀ : LabelsTyped tools { s with symbols := s.symbols.enterScope .foreach } := hl
  obtain ⟨hgrows, -, -, hnew, hscope⟩ := addBinding_ok hl₀ hadd
  have hin : ∀ i, i ∈ (s.symbols.enterScope .foreach).scope ↔ i ∈ s.symbols.scope := fun i => Iff.rfl
  refine ⟨s₁, s₂, _, hgrows.2.2, hbody, hgrows.1, addBinding_declares hl₀ hadd, fun hi => hnew ((hin _).2 hi),
    fun i => ?_, fun hbodyGrows => ?_⟩
  · rw [hscope i, hin i]
  · unfold leaveLoop at hleave
    obtain ⟨_, _, symbols, _, hlook, hleave₁, -⟩ := Run.andThen_eq_ok hleave
    cases hlook
    obtain ⟨_, _, symbols', _, hresult, hleave₂, -⟩ := Run.andThen_eq_ok hleave₁
    obtain ⟨hout, rfl⟩ := Run.ofExcept_eq_ok hresult
    cases hleave₂
    obtain ⟨hframes, hkept⟩ := leaveScope_ok hout
    refine ⟨hkept, ?_, rfl⟩
    show symbols'.frames = _
    rw [hframes, hbodyGrows.2.1, hgrows.2.1]
    rfl

theorem requireBool_ok {t : TypeRef} (h : requireBool t = .ok ()) : t = BOOL := requireExact_ok h

mutual
/-- **What `_lower_block` makes of one statement.** -/
theorem lowerStatement_ok (hout : (outputs.map OutputField.name).Nodup) : ∀ {a : AstStatement} {s s' : LowerState}
    {w : List LowerState} {st : Statement}, LabelsTyped tools s → lowerStatement tools outputs a s = ⟨w, s', .ok st⟩ →
    LoweredStatement tools outputs s s' st
  | .letBind name value, s, s', w, st, hl, h                              => by
    obtain ⟨_, s₁, x, _, hvalue, h₁, -⟩ := Run.andThen_eq_ok h
    obtain ⟨_, s₂, b, _, hadd, h₂, -⟩ := Run.andThen_eq_ok h₁
    obtain ⟨_, s₃, n, _, hid, h₃, -⟩ := Run.andThen_eq_ok h₂
    cases h₃
    obtain ⟨hs₁, hx⟩ := lowerExpr_ok hl hvalue
    obtain ⟨hgrows, hd, hnew, hscope⟩ := declaration_ok hs₁.2 hadd hid
    have hall : Grows tools s s' := hs₁.grows.trans hgrows
    rw [hs₁.1] at hnew hscope
    refine ⟨hall, ⟨x.2, hx.1.mono (specs_subset hall.1), hd⟩, fun scope hsame => ?_, fun scope hsame i => ?_⟩
    · exact ⟨hsame.covers hx.2, fun hi => hnew ((hsame _).1 hi)⟩
    · rw [hscope i, ← hsame i]
      exact List.mem_cons
  | .foreach iterator collection maxIterations body, s, s', w, st, hl, h => by
    obtain ⟨_, s₁, x, _, hcollection, h₁, -⟩ := Run.andThen_eq_ok h
    obtain ⟨_, _, itemType, _, hlist, h₂, -⟩ := Run.andThen_eq_ok h₁
    obtain ⟨hitem, rfl⟩ := Run.ofExcept_eq_ok hlist
    obtain ⟨_, s₂, ⟨b, ss⟩, _, hloop, h₃, -⟩ := Run.andThen_eq_ok h₂
    obtain ⟨_, s₃, n, _, hid, h₄, -⟩ := Run.andThen_eq_ok h₃
    cases h₄
    obtain ⟨hs₁, hx⟩ := lowerExpr_ok hl hcollection
    obtain ⟨t₁, t₂, _, hlt, hbody, hbindings, hd, hnew, hscope, hend⟩ := inLoop_ok hs₁.2 hloop
    have hblock : LoweredBlock tools outputs t₁ t₂ ss := lowerBlock_ok hout hlt hbody
    obtain ⟨hkept, hframes, hlabels₂⟩ := hend hblock.grows
    obtain ⟨hsymbols, hlabels⟩ := nodeId_ok hid
    rw [hs₁.1] at hbindings hnew hscope hframes
    have hspecs : s'.symbols.specs = t₂.symbols.specs := by
      unfold SymbolTable.specs
      rw [hsymbols, hkept]
    have hall : Grows tools s s' := by
      refine ⟨?_, ?_, ?_⟩
      · rw [hsymbols, hkept]
        exact hbindings.trans hblock.grows.1
      · rw [hsymbols]
        exact (List.cons.inj hframes).2
      · intro y hy
        rw [hlabels, hlabels₂] at hy
        rw [hspecs]
        exact hblock.grows.2.2 y hy
    obtain ⟨hkind, hitem⟩ := requireList_ok hitem
    refine ⟨hall, ⟨⟨x.2, itemType, hx.1.mono (specs_subset hall.1), hkind, hitem, ?_⟩, ?_⟩, fun scope hsame => ?_,
      fun scope hsame i => ?_⟩
    · rw [hspecs]
      exact hd.mono (specs_subset hblock.grows.1)
    · rw [hspecs]
      exact hblock.typed
    · refine ⟨hsame.covers hx.2, fun hi => hnew ((hsame _).1 hi), hblock.inScope _ (fun i => ?_)⟩
      rw [hscope i, ← hsame i]
      exact List.mem_cons
    · have hback : s'.symbols.scope = s.symbols.scope := by
        unfold SymbolTable.scope SymbolTable.visible
        rw [hsymbols, hframes]
      rw [hback]
      exact hsame i
  | .check checkId condition severity onFail message, s, s', w, st, hl, h => by
    obtain ⟨_, s₁, x, _, hcondition, h₁, -⟩ := Run.andThen_eq_ok h
    obtain ⟨_, _, u, _, hbool, h₂, -⟩ := Run.andThen_eq_ok h₁
    obtain ⟨hb₁, rfl⟩ := Run.ofExcept_eq_ok hbool
    obtain ⟨_, s₂, b, _, hadd, h₃, -⟩ := Run.andThen_eq_ok h₂
    obtain ⟨_, s₃, n, _, hid, h₄, -⟩ := Run.andThen_eq_ok h₃
    cases h₄
    obtain ⟨hs₁, hx⟩ := lowerExpr_ok hl hcondition
    obtain ⟨hgrows, hd, hnew, hscope⟩ := declaration_ok hs₁.2 hadd hid
    have hall : Grows tools s s' := hs₁.grows.trans hgrows
    rw [hs₁.1] at hnew hscope
    refine ⟨hall, ⟨⟨x.2, hx.1.mono (specs_subset hall.1)⟩, requireBool_ok hb₁, hd⟩, fun scope hsame => ?_,
      fun scope hsame i => ?_⟩
    · exact ⟨hsame.covers hx.2, fun hi => hnew ((hsame _).1 hi)⟩
    · rw [hscope i, ← hsame i]
      exact List.mem_cons
  | .emit fields, s, s', w, st, hl, h                                     => by
    obtain ⟨_, _, u, _, hnames, h₁, -⟩ := Run.andThen_eq_ok h
    obtain ⟨hmatch, rfl⟩ := Run.ofExcept_eq_ok hnames
    obtain ⟨_, s₁, es, _, hfields, h₂, -⟩ := Run.andThen_eq_ok h₁
    obtain ⟨_, s₂, n, _, hid, h₃, -⟩ := Run.andThen_eq_ok h₂
    cases h₃
    obtain ⟨hs₁, hnames, htyped, hrefs⟩ := lowerEmitFields_ok hl hfields
    have hs' : Holds tools s s' := hs₁.trans (nodeId_holds hs₁.2 hid)
    refine ⟨hs'.grows, ⟨?_, ?_⟩, fun scope hsame => hsame.covers hrefs, fun scope hsame => ?_⟩
    · show emitFieldsMatch outputs (es.map Prod.fst) = true
      rw [hnames]
      exact checkEmitNames_ok hout hmatch
    · rw [hs'.1]
      exact htyped
    · rw [hs'.1]
      exact hsame
  | .approve approvalId message, s, s', w, st, hl, h                      => by
    unfold lowerStatement at h
    obtain ⟨_, s₁, n, _, hid, h₁, -⟩ := Run.andThen_eq_ok h
    obtain ⟨_, _, a, _, hstatement, h₂, -⟩ := Run.andThen_eq_ok h₁
    obtain ⟨-, rfl⟩ := Run.ofExcept_eq_ok hstatement
    cases h₂
    have hs' := nodeId_holds hl hid
    refine ⟨hs'.grows, trivial, fun scope _ => trivial, fun scope hsame => ?_⟩
    rw [hs'.1]
    exact hsame
theorem lowerBlock_ok (hout : (outputs.map OutputField.name).Nodup) : ∀ {as : List AstStatement} {s s' : LowerState}
    {w : List LowerState} {ss : List Statement}, LabelsTyped tools s → lowerBlock tools outputs as s = ⟨w, s', .ok ss⟩ →
    LoweredBlock tools outputs s s' ss
  | [], s, s', w, ss, hl, h      => by
    cases h
    exact ⟨⟨List.prefix_refl _, rfl, hl⟩, trivial, fun _ _ => trivial⟩
  | a :: as, s, s', w, ss, hl, h => by
    obtain ⟨_, s₁, st, _, hstatement, h₁, -⟩ := Run.andThen_eq_ok h
    obtain ⟨_, s₂, rest, _, hrest, h₂, -⟩ := Run.andThen_eq_ok h₁
    cases h₂
    have hst : LoweredStatement tools outputs s s₁ st := lowerStatement_ok hout hl hstatement
    have hss : LoweredBlock tools outputs s₁ s' rest := lowerBlock_ok hout hst.grows.2.2 hrest
    exact ⟨hst.grows.trans hss.grows, ⟨hst.typed.mono (specs_subset hss.grows.1), hss.typed⟩,
      fun scope hsame => ⟨hst.inScope scope hsame, hss.inScope _ (hst.binds scope hsame)⟩⟩
end

/-! ## Inputs, contexts and outputs -/

/-- **A list of declarations**: their identifiers follow those made before and come into scope. -/
structure DeclaresAll (tools : ToolsById) (s s' : LowerState) (ids : List String) : Prop where
  grows   : Grows tools s s'
  follow  : s'.symbols.bindings.map (·.symbolId) = s.symbols.bindings.map (·.symbolId) ++ ids
  inScope : ∀ scope, SameScope scope s.symbols → SameScope (ids ++ scope) s'.symbols

theorem DeclaresAll.nil {s : LowerState} (hl : LabelsTyped tools s) : DeclaresAll tools s s [] :=
  ⟨⟨List.prefix_refl _, rfl, hl⟩, by simp, fun _ hsame => hsame⟩

theorem DeclaresAll.cons {name category : String} {space : SymbolNamespace} {t : TypeRef} {c : DataClassification}
    {s s₁ s' : LowerState} {w : List LowerState} {b : SymbolBinding} {ids : List String} (hl : LabelsTyped tools s)
    (hadd : addBinding name space category t c s = ⟨w, s₁, .ok b⟩) (hrest : DeclaresAll tools s₁ s' ids) :
    DeclaresAll tools s s' (b.symbolId :: ids) := by
  obtain ⟨hgrows, hbindings, -, -, hscope⟩ := addBinding_ok hl hadd
  refine ⟨hgrows.trans hrest.grows, ?_, fun scope hsame i => ?_⟩
  · rw [hrest.follow, hbindings]
    simp
  · have hfirst : SameScope (b.symbolId :: scope) s₁.symbols := by
      intro i
      rw [hscope i, ← hsame i]
      exact List.mem_cons
    rw [← hrest.inScope _ hfirst i]
    simp only [List.cons_append, List.mem_cons, List.mem_append]
    tauto

theorem lowerInputs_ok : ∀ {items : List AstFieldSpec} {s s' : LowerState} {w : List LowerState}
    {specs : List InputSpec}, LabelsTyped tools s → lowerInputs items s = ⟨w, s', .ok specs⟩ →
    DeclaresAll tools s s' (specs.map (·.symbolId)) ∧
      ∀ i ∈ specs, Declares s'.symbols.specs i.symbolId i.typeInfo i.classification
  | [], _, _, _, _, hl, h                  => by
    cases h
    exact ⟨DeclaresAll.nil hl, by simp⟩
  | item :: items, s, s', w, specs, hl, h => by
    obtain ⟨_, s₁, b, _, hadd, h₁, -⟩ := Run.andThen_eq_ok h
    obtain ⟨_, s₂, rest, _, hrest, h₂, -⟩ := Run.andThen_eq_ok h₁
    cases h₂
    have hl₁ : LabelsTyped tools s₁ := (addBinding_ok hl hadd).1.2.2
    obtain ⟨hall, hdeclares⟩ := lowerInputs_ok hl₁ hrest
    have hd := (addBinding_declares hl hadd).mono (specs_subset hall.grows.1)
    exact ⟨DeclaresAll.cons hl hadd hall, List.forall_mem_cons.2 ⟨hd, hdeclares⟩⟩

theorem lowerContexts_ok : ∀ {items : List AstFieldSpec} {s s' : LowerState} {w : List LowerState}
    {specs : List ContextSpec}, LabelsTyped tools s → lowerContexts items s = ⟨w, s', .ok specs⟩ →
    DeclaresAll tools s s' (specs.map (·.symbolId)) ∧
      ∀ i ∈ specs, Declares s'.symbols.specs i.symbolId i.typeInfo i.classification
  | [], _, _, _, _, hl, h                  => by
    cases h
    exact ⟨DeclaresAll.nil hl, by simp⟩
  | item :: items, s, s', w, specs, hl, h => by
    obtain ⟨_, s₁, b, _, hadd, h₁, -⟩ := Run.andThen_eq_ok h
    obtain ⟨_, s₂, rest, _, hrest, h₂, -⟩ := Run.andThen_eq_ok h₁
    cases h₂
    have hl₁ : LabelsTyped tools s₁ := (addBinding_ok hl hadd).1.2.2
    obtain ⟨hall, hdeclares⟩ := lowerContexts_ok hl₁ hrest
    have hd := (addBinding_declares hl hadd).mono (specs_subset hall.grows.1)
    exact ⟨DeclaresAll.cons hl hadd hall, List.forall_mem_cons.2 ⟨hd, hdeclares⟩⟩

theorem lowerOutputs_ok {items : List AstFieldSpec} {fields : List OutputField} (h : lowerOutputs items = .ok fields) :
    (fields.map OutputField.name).Nodup := by
  unfold lowerOutputs at h
  cases hfind : items.find? (fun i => 1 < (items.map (·.name)).count i.name) with
  | some duplicate => rw [hfind] at h; cases h
  | none           =>
    rw [hfind] at h
    cases h
    have hnames : (items.map (fun i => (⟨i.name, i.typeInfo, i.classification⟩ : OutputField))).map OutputField.name =
        items.map (·.name) := by
      rw [List.map_map]
      rfl
    rw [hnames, List.nodup_iff_count_le_one]
    intro name
    by_cases hmem : name ∈ items.map (·.name)
    · obtain ⟨i, hi, rfl⟩ := List.mem_map.1 hmem
      have hcount := List.find?_eq_none.1 hfind i hi
      simpa using hcount
    · rw [List.count_eq_zero_of_not_mem hmem]
      omega

/-! ## Tools -/

theorem resolve_ok {catalog : ToolContractCatalog} {toolId version : String} {k : ToolContract}
    (h : catalog.resolve toolId version = .ok k) : k ∈ catalog.contracts ∧ k.toolId = toolId ∧ k.version = version := by
  unfold ToolContractCatalog.resolve at h
  split at h
  · cases h
  · cases hfind : catalog.contracts.find? (fun c => c.toolId = toolId && c.version = version) with
    | none   => rw [hfind] at h; cases h
    | some c =>
      rw [hfind] at h
      cases h
      have hc := List.find?_some hfind
      simp only [Bool.and_eq_true, decide_eq_true_eq] at hc
      exact ⟨List.mem_of_find?_eq_some hfind, hc⟩

/-- Each required tool once, with the contract its version resolves to. -/
theorem requiredContracts_ok {catalog : ToolContractCatalog} {profile : LanguageLoweringProfile} :
    ∀ {ds : List AstRequiredTool} {contracts cs : List (String × ToolContract)}, KeysOnce contracts →
      requiredContracts catalog profile contracts ds = .ok cs →
      KeysOnce cs ∧ contracts <+: cs ∧ ∀ d ∈ ds, ∃ k, (d.toolId, k) ∈ cs ∧ catalog.resolve d.toolId d.version = .ok k
  | [], contracts, cs, honce, h      => by
    cases h
    exact ⟨honce, List.prefix_refl _, by simp⟩
  | d :: ds, contracts, cs, honce, h => by
    unfold requiredContracts at h
    by_cases hdup : (contracts.map Prod.fst).contains d.toolId = true
    · rw [if_pos hdup] at h
      cases h
    · rw [if_neg hdup] at h
      cases hresolve : catalog.resolve d.toolId d.version with
      | error e =>
        simp only [hresolve] at h
        split at h <;> cases h
      | ok k =>
        simp only [hresolve] at h
        split at h
        · cases h
        · have hnew : d.toolId ∉ contracts.map Prod.fst := by simpa using hdup
          have honce' : KeysOnce (contracts ++ [(d.toolId, k)]) := by
            unfold KeysOnce
            rw [List.map_append]
            exact List.Nodup.append honce (List.nodup_singleton _) (by simpa using hnew)
          obtain ⟨hcs, hsub, hall⟩ := requiredContracts_ok honce' h
          refine ⟨hcs, (List.prefix_append _ _).trans hsub, List.forall_mem_cons.2 ⟨⟨k, ?_, hresolve⟩, hall⟩⟩
          exact hsub.subset (by simp)

section Tools

variable [Platform]

/-- The tools of a skill: a reference for each, and for each the contract of the catalog that its hash is of. -/
structure ToolsBound (catalog : ToolContractCatalog) (tools : ToolsById) : Prop where
  refs      : (tools.map (·.2.1.toolRef)).Nodup
  contracts : ∀ x ∈ tools, x.2.2 ∈ catalog.contracts ∧ x.2.2.toolId = x.2.1.toolId ∧ x.2.2.version = x.2.1.version ∧
    x.2.1.contractHash = x.2.2.contractHash ∧ x.2.1.outputClassification = x.2.2.outputClassification

theorem requirement_ok {profile : LanguageLoweringProfile} {index : Nat} {d : AstRequiredTool} {k : ToolContract}
    {r : RequiredTool} (h : requirement profile index d k = .ok r) : r.toolRef = "tool" ++ Text.zeroPad 4 index ∧
      r.toolId = d.toolId ∧ r.version = d.version ∧ r.contractHash = k.contractHash ∧
      r.outputClassification = k.outputClassification := by
  unfold requirement at h
  extract_lets riskLevel at h
  by_cases hrisk : k.capability = "WRITE" → riskLevel.isSome
  · rw [dif_pos hrisk] at h
    cases h
    exact ⟨rfl, rfl, rfl, rfl, rfl⟩
  · rw [dif_neg hrisk] at h
    cases h

theorem requiredTools_ok {catalog : ToolContractCatalog} {profile : LanguageLoweringProfile}
    {contracts : List (String × ToolContract)} (honce : KeysOnce contracts) : ∀ {ds : List AstRequiredTool} {index : Nat}
      {tools : ToolsById},
      (∀ d ∈ ds, ∃ k, (d.toolId, k) ∈ contracts ∧ catalog.resolve d.toolId d.version = .ok k) →
      requiredTools profile contracts index ds = .ok tools → ToolsBound catalog tools ∧
        ∀ x ∈ tools, ∃ i, index ≤ i ∧ x.2.1.toolRef = "tool" ++ Text.zeroPad 4 i
  | [], index, tools, _, h         => by
    cases h
    exact ⟨⟨List.nodup_nil, by simp⟩, by simp⟩
  | d :: ds, index, tools, hall, h => by
    obtain ⟨⟨k, hk, hresolve⟩, hrest⟩ := List.forall_mem_cons.1 hall
    have hlookup : contracts.lookup d.toolId = some k := (lookup_iff_mem honce).2 hk
    unfold requiredTools at h
    simp only [hlookup] at h
    obtain ⟨r, hr, h₁⟩ := Stateful.bind_eq_ok h
    obtain ⟨rest, hds, h₂⟩ := Stateful.bind_eq_ok h₁
    cases h₂
    obtain ⟨hbound, hlater⟩ := requiredTools_ok honce hrest hds
    obtain ⟨href, hid, hversion, hhash, hclass⟩ := requirement_ok hr
    obtain ⟨hmem, hkid, hkversion⟩ := resolve_ok hresolve
    refine ⟨⟨?_, ?_⟩, List.forall_mem_cons.2 ⟨⟨index, le_refl _, href⟩, fun x hx => ?_⟩⟩
    · rw [List.map_cons, List.nodup_cons]
      refine ⟨fun hin => ?_, hbound.refs⟩
      obtain ⟨x, hx, hxref⟩ := List.mem_map.1 hin
      obtain ⟨i, hi, hxi⟩ := hlater x hx
      have heq : i = index := by
        rw [hxi, href] at hxref
        exact Text.zeroPad_injective 4 ((String.append_right_inj _).1 hxref)
      omega
    · exact List.forall_mem_cons.2 ⟨⟨hmem, hkid.trans hid.symm, hkversion.trans hversion.symm, hhash, hclass⟩,
        hbound.contracts⟩
    · obtain ⟨i, hi, hxi⟩ := hlater x hx
      exact ⟨i, by omega, hxi⟩

/-! ## The whole tree -/

/-- **A sound skill**: its declarations, its tools and its body agree. -/
structure SoundSkill (catalog : ToolContractCatalog) (tools : ToolsById) (skill : SkillObject) : Prop where
  ids      : (skill.symbols.map (·.symbolId)).Nodup
  inputs   : ∀ i ∈ skill.inputs, Declares skill.symbols i.symbolId i.typeInfo i.classification
  contexts : ∀ i ∈ skill.contexts, Declares skill.symbols i.symbolId i.typeInfo i.classification
  bound    : (skill.inputs.map (·.symbolId) ++ skill.contexts.map (·.symbolId)).Nodup
  outputs  : (skill.outputs.map (·.name)).Nodup
  required : skill.requiredTools = tools.map (·.2.1)
  bindings : ToolsBound catalog tools
  typed    : TypedBlock skill.symbols tools skill.outputs skill.body
  inScope  : ScopedBlock (skill.contexts.map (·.symbolId) ++ skill.inputs.map (·.symbolId)) skill.body

theorem lowerPrepared_ok {catalog : ToolContractCatalog} {p : Preparation} {ast : AstSkill} {build : BuildMetadata}
    {w : List LowerState} {s : LowerState} {skill : SkillObject} (htools : ToolsBound catalog p.tools)
    (h : lowerPrepared p ast build LowerState.init = ⟨w, s, .ok skill⟩) :
    SoundSkill catalog p.tools skill ∧ ∀ x ∈ s.labels, Typed skill.symbols p.tools x.1 x.2 := by
  have hl : LabelsTyped p.tools LowerState.init := fun x hx => (List.not_mem_nil hx).elim
  obtain ⟨_, s₁, inputs, _, hinputs, h₁, -⟩ := Run.andThen_eq_ok h
  obtain ⟨_, s₂, contexts, _, hcontexts, h₂, -⟩ := Run.andThen_eq_ok h₁
  obtain ⟨_, _, outputs, _, houtputs, h₃, -⟩ := Run.andThen_eq_ok h₂
  obtain ⟨hout, rfl⟩ := Run.ofExcept_eq_ok houtputs
  obtain ⟨_, s₃, body, _, hbody, h₄, -⟩ := Run.andThen_eq_ok h₃
  obtain ⟨_, _, analysis, _, hanalysis, h₅, -⟩ := Run.andThen_eq_ok h₄
  obtain ⟨-, rfl⟩ := Run.ofExcept_eq_ok hanalysis
  obtain ⟨_, _, symbols, _, hlook, h₆, -⟩ := Run.andThen_eq_ok h₅
  cases hlook
  cases h₆
  obtain ⟨hall₁, hdeclares₁⟩ := lowerInputs_ok hl hinputs
  obtain ⟨hall₂, hdeclares₂⟩ := lowerContexts_ok hall₁.grows.2.2 hcontexts
  have hblock : LoweredBlock p.tools outputs s₂ s body := lowerBlock_ok (lowerOutputs_ok hout) hall₂.grows.2.2 hbody
  have hstart : SameScope [] LowerState.init.symbols := fun i => Iff.rfl
  have hscope := hall₂.inScope _ (hall₁.inScope _ hstart)
  rw [List.append_nil] at hscope
  refine ⟨⟨s.symbols.specs_nodup, fun i hi => ?_, fun i hi => ?_, ?_, lowerOutputs_ok hout, rfl, htools, hblock.typed,
    hblock.inScope _ hscope⟩, hblock.grows.2.2⟩
  · exact (hdeclares₁ i hi).mono (specs_subset (hall₂.grows.1.trans hblock.grows.1))
  · exact (hdeclares₂ i hi).mono (specs_subset hblock.grows.1)
  · have hnodup := s₂.symbols.ids_nodup
    rw [hall₂.follow, hall₁.follow] at hnodup
    exact hnodup

end Tools

end Lowerer

section Compiled

variable [Platform]

/-- **What compiles is sound**: each expression has the type it is annotated with and the classification computed for
it, each EMIT matches the outputs, and a reference stands where its symbol is in scope. -/
theorem compileTree_sound {catalog : ToolContractCatalog} {ast : AstSkill} {build : BuildMetadata} {c : Compilation}
    (h : compileTree catalog ast build = .ok c) : ∃ tools, Lowerer.SoundSkill catalog tools c.skill ∧
      ∀ x ∈ c.labels, Typed c.skill.symbols tools x.1 x.2 := by
  obtain ⟨approvals, p, w, s, skill, hash, -, hp, hlower, -, hskill, hlabels⟩ := compileTree_ok h
  obtain ⟨-, contracts, hcontracts, -, hrequired⟩ := Lowerer.prepare_ok hp
  have hnone : KeysOnce ([] : List (String × ToolContract)) := List.nodup_nil
  obtain ⟨honce, -, hall⟩ := Lowerer.requiredContracts_ok hnone hcontracts
  obtain ⟨htools, -⟩ := Lowerer.requiredTools_ok honce hall hrequired
  obtain ⟨hsound, htyped⟩ := Lowerer.lowerPrepared_ok htools hlower
  rw [hskill, hlabels]
  exact ⟨p.tools, ⟨hsound.ids, hsound.inputs, hsound.contexts, hsound.bound, hsound.outputs, hsound.required,
    hsound.bindings, hsound.typed, hsound.inScope⟩, htyped⟩

end Compiled
end Nsl
