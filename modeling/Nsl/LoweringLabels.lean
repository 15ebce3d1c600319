import Nsl.LoweringTyped
/-!
# LoweringLabels — every expression of a compiled body has a label

Whatever the lowering builds it writes down with the classification it computes for it. So each expression of a compiled
body and each part of it is among the labels of the compilation.
-/
namespace Nsl

open Stateful (Run)

mutual
/-- An expression with all it is made of. -/
def Expression.parts : Expression → List Expression
  | .literal n v t       => [.literal n v t]
  | .symbolRef n i t     => [.symbolRef n i t]
  | .field n e f t       => .field n e f t :: e.parts
  | .project n e f t     => .project n e f t :: e.parts
  | .call n f es t       => .call n f es t :: partsOfItems es
  | .binary n op l r t   => .binary n op l r t :: (l.parts ++ r.parts)
  | .read n u es t p     => .read n u es t p :: partsOfNamed es
  | .write n u es a t    => .write n u es a t :: partsOfNamed es
def partsOfItems : List Expression → List Expression
  | []      => []
  | e :: es => e.parts ++ partsOfItems es
def partsOfNamed : List (String × Expression) → List Expression
  | []           => []
  | (_, e) :: es => e.parts ++ partsOfNamed es
end

/-- The expressions a statement evaluates itself. -/
def Statement.expressions : Statement → List Expression
  | .letBind s         => [s.value]
  | .foreach _ _ c _ _ => [c]
  | .check s           => [s.condition]
  | .emit s            => s.fields.map Prod.snd
  | .approval _        => []

namespace Lowerer

variable {tools : ToolsById} {outputs : List OutputField}

/-! ## Expressions -/

/-- Each of the expressions has a label. -/
def Marked (s : LowerState) (ps : List Expression) : Prop := ps ⊆ s.labels.map Prod.fst

/-- A step from `s` to `s'` keeps the labels and gives one to each of the expressions. -/
def Marks (s s' : LowerState) (ps : List Expression) : Prop := s.labels ⊆ s'.labels ∧ Marked s' ps

theorem Marked.mono {s s' : LowerState} {ps : List Expression} (hsub : s.labels ⊆ s'.labels) (h : Marked s ps) :
    Marked s' ps := fun _ hp => List.map_subset _ hsub (h hp)

theorem Marks.nil {s s' : LowerState} (h : s'.labels = s.labels) : Marks s s' [] :=
  ⟨by rw [h]; exact List.Subset.refl _, List.nil_subset _⟩

/-- What the second of two steps labels. -/
theorem Marks.trans {s s' s'' : LowerState} {ps qs : List Expression} (h : Marks s s' ps) (h' : Marks s' s'' qs) :
    Marks s s'' qs := ⟨List.Subset.trans h.1 h'.1, h'.2⟩

theorem Marks.append {s s' s'' : LowerState} {ps qs : List Expression} (h : Marks s s' ps) (h' : Marks s' s'' qs) :
    Marks s s'' (ps ++ qs) := ⟨(h.trans h').1, List.append_subset.2 ⟨h.2.mono h'.1, h'.2⟩⟩

/-- A step that leaves the labels. -/
theorem Marks.after {s s' s'' : LowerState} {ps : List Expression} (h : Marks s s' ps) (h' : s''.labels = s'.labels) :
    Marks s s'' ps := by
  have hall := h.append (Marks.nil h')
  rwa [List.append_nil] at hall

/-- A new expression has its label; what it is made of had one before. -/
theorem newExpression_marks {kind : String} {node : String → Expression} {c : DataClassification} {s s' : LowerState}
    {w : List LowerState} {r : Expression × DataClassification} {l : List Expression}
    (hparts : ∀ n, (node n).parts = node n :: l) (hps : Marked s l)
    (h : newExpression kind node c s = ⟨w, s', .ok r⟩) : Marks s s' r.1.parts := by
  unfold newExpression at h
  obtain ⟨_, s₁, n, _, hid, h₁, -⟩ := Run.andThen_eq_ok h
  obtain ⟨_, _, _, _, hwrite, h₂, -⟩ := Run.andThen_eq_ok h₁
  cases hwrite
  cases h₂
  obtain ⟨-, hlabels⟩ := nodeId_ok hid
  have hsub : s.labels ⊆ s₁.labels ++ [(node n, c)] := by
    rw [hlabels]
    exact List.subset_append_left _ _
  refine ⟨hsub, ?_⟩
  show (node n).parts ⊆ (s₁.labels ++ [(node n, c)]).map Prod.fst
  rw [hparts n]
  exact List.cons_subset.2 ⟨by simp, fun p hp => List.map_subset _ hsub (hps hp)⟩

theorem lowerFields_marks {c : DataClassification} : ∀ {fields : List String} {e : Expression} {s s' : LowerState}
    {w : List LowerState} {r : Expression × DataClassification}, Marked s e.parts →
    lowerFields c fields e s = ⟨w, s', .ok r⟩ → Marks s s' r.1.parts
  | [], _, _, _, _, _, he, h               => by
    cases h
    exact ⟨List.Subset.refl _, he⟩
  | field :: fields, e, s, s', w, r, he, h => by
    obtain ⟨_, _, ⟨t, projected⟩, _, hresult, h₁, -⟩ := Run.andThen_eq_ok h
    obtain ⟨-, rfl⟩ := Run.ofExcept_eq_ok hresult
    obtain ⟨_, s₁, ⟨e', c'⟩, _, hnew, h₂, -⟩ := Run.andThen_eq_ok h₁
    have hparts : ∀ n, (if projected then Expression.project n e field t else Expression.field n e field t).parts =
        (if projected then Expression.project n e field t else Expression.field n e field t) :: e.parts := by
      intro n
      cases projected <;> rfl
    have hs₁ := newExpression_marks hparts he hnew
    have hs' := lowerFields_marks hs₁.2 h₂
    exact hs₁.trans hs'

theorem lowerPath_marks {parts : List String} {s s' : LowerState} {w : List LowerState}
    {r : Expression × DataClassification} (h : lowerPath parts s = ⟨w, s', .ok r⟩) : Marks s s' r.1.parts := by
  cases parts with
  | nil => cases h
  | cons name fields =>
    obtain ⟨_, _, b, _, hresolve, h₁, -⟩ := Run.andThen_eq_ok h
    obtain ⟨rfl, -⟩ := resolveName_ok hresolve
    obtain ⟨_, s₁, ⟨e', c'⟩, _, hnew, h₂, -⟩ := Run.andThen_eq_ok h₁
    have hs₁ := newExpression_marks (l := []) (fun _ => rfl) (List.nil_subset _) hnew
    have hs' := lowerFields_marks hs₁.2 h₂
    exact hs₁.trans hs'

theorem lowerCall_marks {name : String} {xs : List (Expression × DataClassification)} {s s' : LowerState}
    {w : List LowerState} {r : Expression × DataClassification} (hxs : Marked s (partsOfItems (xs.map Prod.fst)))
    (h : lowerCall name xs s = ⟨w, s', .ok r⟩) : Marks s s' r.1.parts := by
  obtain ⟨_, _, t, _, hresult, h₁, -⟩ := Run.andThen_eq_ok h
  obtain ⟨-, rfl⟩ := Run.ofExcept_eq_ok hresult
  cases xs with
  | nil       => cases h₁
  | cons x xs => exact newExpression_marks (fun _ => rfl) hxs h₁

theorem lowerBinary_marks {operator : String} {x y : Expression × DataClassification} {s s' : LowerState}
    {w : List LowerState} {r : Expression × DataClassification} (hxy : Marked s (x.1.parts ++ y.1.parts))
    (h : lowerBinary operator x y s = ⟨w, s', .ok r⟩) : Marks s s' r.1.parts := by
  obtain ⟨_, _, t, _, hresult, h₁, -⟩ := Run.andThen_eq_ok h
  obtain ⟨-, rfl⟩ := Run.ofExcept_eq_ok hresult
  cases hop : operatorMap.lookup operator with
  | none    =>
    simp only [hop] at h₁
    cases h₁
  | some op =>
    simp only [hop] at h₁
    exact newExpression_marks (fun _ => rfl) hxy h₁

mutual
/-- **What `_lower_expr` returns has a label, and so has each part of it.** -/
theorem lowerExpr_marks : ∀ {a : AstExpression} {s s' : LowerState} {w : List LowerState}
    {r : Expression × DataClassification}, lowerExpr tools a s = ⟨w, s', .ok r⟩ → Marks s s' r.1.parts
  | .literal value typeInfo, s, s', w, r, h     =>
    newExpression_marks (l := []) (fun _ => rfl) (List.nil_subset _) h
  | .path parts, s, s', w, r, h                 => lowerPath_marks h
  | .call name as, s, s', w, r, h               => by
    obtain ⟨_, s₁, xs, _, hitems, h₁, -⟩ := Run.andThen_eq_ok h
    have hs₁ : Marks s s₁ (partsOfItems (xs.map Prod.fst)) := lowerItems_marks hitems
    have hs' := lowerCall_marks hs₁.2 h₁
    exact hs₁.trans hs'
  | .binary operator left right, s, s', w, r, h => by
    obtain ⟨_, s₁, x, _, hleft, h₁, -⟩ := Run.andThen_eq_ok h
    obtain ⟨_, s₂, y, _, hright, h₂, -⟩ := Run.andThen_eq_ok h₁
    have hs₂ := (lowerExpr_marks hleft).append (lowerExpr_marks hright)
    have hs' := lowerBinary_marks hs₂.2 h₂
    exact hs₂.trans hs'
  | .read toolId as, s, s', w, r, h             => by
    obtain ⟨_, _, ⟨requirement, contract⟩, _, hcontract, h₁, -⟩ := Run.andThen_eq_ok h
    obtain ⟨-, rfl⟩ := Run.ofExcept_eq_ok hcontract
    obtain ⟨_, _, u, _, hnames, h₂, -⟩ := Run.andThen_eq_ok h₁
    obtain ⟨-, rfl⟩ := Run.ofExcept_eq_ok hnames
    obtain ⟨_, s₁, es, _, hargs, h₃, -⟩ := Run.andThen_eq_ok h₂
    have hs₁ := lowerArguments_marks hargs
    have hs' := newExpression_marks (fun _ => rfl) hs₁.2 h₃
    exact hs₁.trans hs'
  | .write toolId as approvalId, s, s', w, r, h => by
    obtain ⟨_, _, ⟨requirement, contract⟩, _, hcontract, h₁, -⟩ := Run.andThen_eq_ok h
    obtain ⟨-, rfl⟩ := Run.ofExcept_eq_ok hcontract
    obtain ⟨_, _, u, _, hnames, h₂, -⟩ := Run.andThen_eq_ok h₁
    obtain ⟨-, rfl⟩ := Run.ofExcept_eq_ok hnames
    obtain ⟨_, s₁, es, _, hargs, h₃, -⟩ := Run.andThen_eq_ok h₂
    have hs₁ := lowerArguments_marks hargs
    have hs' := newExpression_marks (fun _ => rfl) hs₁.2 h₃
    exact hs₁.trans hs'
theorem lowerItems_marks : ∀ {as : List AstExpression} {s s' : LowerState} {w : List LowerState}
    {xs : List (Expression × DataClassification)}, lowerItems tools as s = ⟨w, s', .ok xs⟩ →
    Marks s s' (partsOfItems (xs.map Prod.fst))
  | [], _, _, _, _, h             => by
    cases h
    exact Marks.nil rfl
  | a :: as, s, s', w, xs, h => by
    obtain ⟨_, s₁, x, _, ha, h₁, -⟩ := Run.andThen_eq_ok h
    obtain ⟨_, s₂, ys, _, has, h₂, -⟩ := Run.andThen_eq_ok h₁
    cases h₂
    exact (lowerExpr_marks ha).append (lowerItems_marks has)
theorem lowerArguments_marks : ∀ {toolId : String} {contract : ToolContract} {as : List (String × AstExpression)}
    {s s' : LowerState} {w : List LowerState} {es : List (String × Expression)},
    lowerArguments tools toolId contract as s = ⟨w, s', .ok es⟩ → Marks s s' (partsOfNamed es)
  | _, _, [], _, _, _, _, h                           => by
    cases h
    exact Marks.nil rfl
  | toolId, contract, (name, a) :: as, s, s', w, es, h => by
    obtain ⟨_, s₁, x, _, ha, h₁, -⟩ := Run.andThen_eq_ok h
    obtain ⟨_, _, u, _, hcheck, h₂, -⟩ := Run.andThen_eq_ok h₁
    obtain ⟨-, rfl⟩ := Run.ofExcept_eq_ok hcheck
    obtain ⟨_, s₂, fs, _, has, h₃, -⟩ := Run.andThen_eq_ok h₂
    cases h₃
    exact (lowerExpr_marks ha).append (lowerArguments_marks has)
end

/-! ## Statements -/

/-- The expressions of a block with their parts. -/
def blockParts (ss : List Statement) : List Expression :=
  (withinBlock ss).flatMap (fun st => st.expressions.flatMap Expression.parts)

theorem addBinding_labels {name category : String} {space : SymbolNamespace} {t : TypeRef} {c : DataClassification}
    {s s' : LowerState} {w : List LowerState} {b : SymbolBinding}
    (h : addBinding name space category t c s = ⟨w, s', .ok b⟩) : s'.labels = s.labels := by
  unfold addBinding at h
  obtain ⟨_, _, symbols, _, hlook, h₁, -⟩ := Run.andThen_eq_ok h
  cases hlook
  obtain ⟨_, _, ⟨b', symbols'⟩, _, hdeclare, h₂, -⟩ := Run.andThen_eq_ok h₁
  obtain ⟨-, rfl⟩ := Run.ofExcept_eq_ok hdeclare
  obtain ⟨_, _, _, _, hwrite, h₃, -⟩ := Run.andThen_eq_ok h₂
  cases hwrite
  cases h₃
  rfl

/-- A loop adds the labels of its body. -/
theorem inLoop_labels {iterator : String} {itemType : TypeRef} {c : DataClassification} {body : Lower (List Statement)}
    {s s' : LowerState} {w : List LowerState} {b : SymbolBinding} {ss : List Statement}
    (h : inLoop iterator itemType c body s = ⟨w, s', .ok (b, ss)⟩) :
    ∃ s₁ s₂ w₁, body s₁ = ⟨w₁, s₂, .ok ss⟩ ∧ s₁.labels = s.labels ∧ s'.labels = s₂.labels := by
  unfold inLoop enterLoop at h
  obtain ⟨_, s₀, scopeId, _, henter, h₁, -⟩ := Run.andThen_eq_ok h
  obtain ⟨_, _, _, _, hwrite, henter₁, -⟩ := Run.andThen_eq_ok henter
  cases hwrite
  cases henter₁
  obtain ⟨_, s₂, _, hmain, hleave, -⟩ := Run.lastly_eq_ok h₁
  obtain ⟨_, s₁, b', _, hadd, hmain₁, -⟩ := Run.andThen_eq_ok hmain
  obtain ⟨_, s₃, ss', _, hbody, hmain₂, -⟩ := Run.andThen_eq_ok hmain₁
  cases hmain₂
  have hstart : s₁.labels = s.labels := by
    rw [addBinding_labels hadd]
  refine ⟨s₁, s₂, _, hbody, hstart, ?_⟩
  unfold leaveLoop at hleave
  obtain ⟨_, _, symbols, _, hlook, hleave₁, -⟩ := Run.andThen_eq_ok hleave
  cases hlook
  obtain ⟨_, _, symbols', _, hresult, hleave₂, -⟩ := Run.andThen_eq_ok hleave₁
  obtain ⟨-, rfl⟩ := Run.ofExcept_eq_ok hresult
  cases hleave₂
  rfl

theorem lowerEmitFields_marks : ∀ {as : List (String × AstExpression)} {s s' : LowerState} {w : List LowerState}
    {es : List (String × Expression)}, lowerEmitFields tools outputs as s = ⟨w, s', .ok es⟩ →
    Marks s s' ((es.map Prod.snd).flatMap Expression.parts)
  | [], _, _, _, _, h                => by
    cases h
    exact Marks.nil rfl
  | (name, a) :: as, s, s', w, es, h => by
    obtain ⟨_, s₁, x, _, ha, h₁, -⟩ := Run.andThen_eq_ok h
    obtain ⟨_, _, u, _, hcheck, h₂, -⟩ := Run.andThen_eq_ok h₁
    obtain ⟨-, rfl⟩ := Run.ofExcept_eq_ok hcheck
    obtain ⟨_, s₂, fs, _, has, h₃, -⟩ := Run.andThen_eq_ok h₂
    cases h₃
    exact (lowerExpr_marks ha).append (lowerEmitFields_marks has)

theorem blockParts_cons (st : Statement) (ss : List Statement) :
    blockParts (st :: ss) = st.within.flatMap (fun st => st.expressions.flatMap Expression.parts) ++ blockParts ss := by
  unfold blockParts
  rw [withinBlock, List.flatMap_append]

theorem blockParts_single {st : Statement} (h : st.within = [st]) :
    blockParts [st] = st.expressions.flatMap Expression.parts := by
  rw [blockParts_cons, h, List.flatMap_singleton]
  exact List.append_nil _

theorem blockParts_foreach (n i : String) (c : Expression) (m : Int) (ss : List Statement) :
    blockParts [.foreach n i c m ss] = c.parts ++ blockParts ss := by
  rw [blockParts_cons, Statement.within, List.flatMap_cons]
  simp [blockParts, withinBlock, Statement.expressions]

mutual
theorem lowerStatement_marks : ∀ {a : AstStatement} {s s' : LowerState} {w : List LowerState} {st : Statement},
    lowerStatement tools outputs a s = ⟨w, s', .ok st⟩ → Marks s s' (blockParts [st])
  | .letBind name value, s, s', w, st, h                              => by
    obtain ⟨_, s₁, x, _, hvalue, h₁, -⟩ := Run.andThen_eq_ok h
    obtain ⟨_, s₂, b, _, hadd, h₂, -⟩ := Run.andThen_eq_ok h₁
    obtain ⟨_, s₃, n, _, hid, h₃, -⟩ := Run.andThen_eq_ok h₂
    cases h₃
    have hs' := (lowerExpr_marks hvalue).after ((nodeId_ok hid).2.trans (addBinding_labels hadd))
    rw [blockParts_single (by rw [Statement.within])]
    simpa [Statement.expressions] using hs'
  | .foreach iterator collection maxIterations body, s, s', w, st, h => by
    obtain ⟨_, s₁, x, _, hcollection, h₁, -⟩ := Run.andThen_eq_ok h
    obtain ⟨_, _, itemType, _, hlist, h₂, -⟩ := Run.andThen_eq_ok h₁
    obtain ⟨-, rfl⟩ := Run.ofExcept_eq_ok hlist
    obtain ⟨_, s₂, ⟨b, ss⟩, _, hloop, h₃, -⟩ := Run.andThen_eq_ok h₂
    obtain ⟨_, s₃, n, _, hid, h₄, -⟩ := Run.andThen_eq_ok h₃
    cases h₄
    obtain ⟨t₁, t₂, w₁, hbody, hstart, hend⟩ := inLoop_labels hloop
    have hs₁ : Marks s t₁ x.1.parts := (lowerExpr_marks hcollection).after hstart
    have hblock : Marks t₁ t₂ (blockParts ss) := lowerBlock_marks hbody
    rw [blockParts_foreach]
    exact (hs₁.append hblock).after ((nodeId_ok hid).2.trans hend)
  | .check checkId condition severity onFail message, s, s', w, st, h => by
    obtain ⟨_, s₁, x, _, hcondition, h₁, -⟩ := Run.andThen_eq_ok h
    obtain ⟨_, _, u, _, hbool, h₂, -⟩ := Run.andThen_eq_ok h₁
    obtain ⟨-, rfl⟩ := Run.ofExcept_eq_ok hbool
    obtain ⟨_, s₂, b, _, hadd, h₃, -⟩ := Run.andThen_eq_ok h₂
    obtain ⟨_, s₃, n, _, hid, h₄, -⟩ := Run.andThen_eq_ok h₃
    cases h₄
    have hs' := (lowerExpr_marks hcondition).after ((nodeId_ok hid).2.trans (addBinding_labels hadd))
    rw [blockParts_single (by rw [Statement.within])]
    simpa [Statement.expressions] using hs'
  | .emit fields, s, s', w, st, h                                     => by
    obtain ⟨_, _, u, _, hnames, h₁, -⟩ := Run.andThen_eq_ok h
    obtain ⟨-, rfl⟩ := Run.ofExcept_eq_ok hnames
    obtain ⟨_, s₁, es, _, hfields, h₂, -⟩ := Run.andThen_eq_ok h₁
    obtain ⟨_, s₂, n, _, hid, h₃, -⟩ := Run.andThen_eq_ok h₂
    cases h₃
    rw [blockParts_single (by rw [Statement.within])]
    exact (lowerEmitFields_marks hfields).after (nodeId_ok hid).2
  | .approve approvalId message, s, s', w, st, h                      => by
    unfold lowerStatement at h
    obtain ⟨_, s₁, n, _, hid, h₁, -⟩ := Run.andThen_eq_ok h
    obtain ⟨_, _, a, _, hstatement, h₂, -⟩ := Run.andThen_eq_ok h₁
    obtain ⟨-, rfl⟩ := Run.ofExcept_eq_ok hstatement
    cases h₂
    rw [blockParts_single (by rw [Statement.within])]
    exact Marks.nil (nodeId_ok hid).2
theorem lowerBlock_marks : ∀ {as : List AstStatement} {s s' : LowerState} {w : List LowerState} {ss : List Statement},
    lowerBlock tools outputs as s = ⟨w, s', .ok ss⟩ → Marks s s' (blockParts ss)
  | [], s, s', w, ss, h      => by
    cases h
    exact Marks.nil rfl
  | a :: as, s, s', w, ss, h => by
    obtain ⟨_, s₁, st, _, hstatement, h₁, -⟩ := Run.andThen_eq_ok h
    obtain ⟨_, s₂, rest, _, hrest, h₂, -⟩ := Run.andThen_eq_ok h₁
    cases h₂
    have hst := lowerStatement_marks hstatement
    rw [blockParts_cons, show blockParts [] = [] from rfl, List.append_nil] at hst
    rw [blockParts_cons]
    exact hst.append (lowerBlock_marks hrest)
end

end Lowerer

section Compiled

variable [Platform]

/-- **Every expression of a compiled body has a label**, and so has each part of it. -/
theorem compileTree_labels {catalog : ToolContractCatalog} {ast : AstSkill} {build : BuildMetadata} {c : Compilation}
    (h : compileTree catalog ast build = .ok c) :
    ∀ st ∈ withinBlock c.skill.body, ∀ e ∈ st.expressions, ∀ p ∈ e.parts, ∃ label, (p, label) ∈ c.labels := by
  obtain ⟨approvals, p, w, s, skill, hash, -, -, hlower, -, hskill, hlabels⟩ := compileTree_ok h
  obtain ⟨_, s₁, inputs, _, -, h₁, -⟩ := Run.andThen_eq_ok hlower
  obtain ⟨_, s₂, contexts, _, -, h₂, -⟩ := Run.andThen_eq_ok h₁
  obtain ⟨_, _, outputs, _, -, h₃, -⟩ := Run.andThen_eq_ok h₂
  obtain ⟨_, s₃, body, _, hbody, h₄, -⟩ := Run.andThen_eq_ok h₃
  obtain ⟨_, _, analysis, _, hanalysis, h₅, -⟩ := Run.andThen_eq_ok h₄
  obtain ⟨-, rfl⟩ := Run.ofExcept_eq_ok hanalysis
  obtain ⟨_, _, symbols, _, hlook, h₆, -⟩ := Run.andThen_eq_ok h₅
  cases hlook
  cases h₆
  have hmarked := (Lowerer.lowerBlock_marks hbody).2
  rw [hskill, hlabels]
  intro st hst e he q hq
  have hin : q ∈ Lowerer.blockParts body := List.mem_flatMap.2 ⟨st, hst, List.mem_flatMap.2 ⟨e, he, hq⟩⟩
  obtain ⟨⟨q', label⟩, hlabel, rfl⟩ := List.mem_map.1 (hmarked hin)
  exact ⟨label, hlabel⟩

end Compiled
end Nsl
