import Nsl.Lowering
/-!
# Typing — well-typed, well-labelled, well-scoped

What a compiled body is, stated apart from the compiler: each expression has a type and a classification from the symbols
and the tools it uses, each statement declares its symbol with those of its value, and a reference stands only where its
symbol is in scope.
-/
namespace Nsl

/-! ## Symbols -/

/-- The symbols have this type and this classification under the identifier. -/
def Declares (symbols : List SymbolSpec) (symbolId : String) (t : TypeRef) (c : DataClassification) : Prop :=
  ∃ s ∈ symbols, s.symbolId = symbolId ∧ s.typeInfo = t ∧ s.classification = c

theorem Declares.mono {symbols symbols' : List SymbolSpec} {i : String} {t : TypeRef} {c : DataClassification}
    (hsub : symbols ⊆ symbols') (h : Declares symbols i t c) : Declares symbols' i t c := by
  obtain ⟨s, hs, hd⟩ := h
  exact ⟨s, hsub hs, hd⟩

/-- **An identifier given once has one type and one classification.** -/
theorem Declares.unique {symbols : List SymbolSpec} (hnodup : (symbols.map (·.symbolId)).Nodup) {i : String}
    {t t' : TypeRef} {c c' : DataClassification} (h : Declares symbols i t c) (h' : Declares symbols i t' c') :
    t = t' ∧ c = c' := by
  obtain ⟨s, hs, hid, rfl, rfl⟩ := h
  obtain ⟨s', hs', hid', rfl, rfl⟩ := h'
  have heq : s = s' := List.inj_on_of_nodup_map hnodup hs hs' (hid.trans hid'.symm)
  rw [heq]
  exact ⟨rfl, rfl⟩

/-! ## Expressions -/

section Expressions

variable (symbols : List SymbolSpec) (tools : ToolsById)

/-- The tool of the reference answers with this type and this classification. -/
def Answers (toolRef : String) (t : TypeRef) (c : DataClassification) : Prop :=
  ∃ x ∈ tools, x.2.1.toolRef = toolRef ∧ x.2.2.outputType = t ∧ x.2.2.outputClassification = c

mutual
/-- **An expression of this classification**, its type annotations those of the rules. -/
def Typed : Expression → DataClassification → Prop
  | .literal _ _ _, c             => c = .publicData
  | .symbolRef _ i t, c           => Declares symbols i t c
  | .field _ e f t, c             => Typed e c ∧ e.typeInfo.kind = "record" ∧ e.typeInfo.field? f = some t
  | .project _ e f t, c           =>
    Typed e c ∧ e.typeInfo.kind = "list" ∧
      ∃ item t', e.typeInfo.item = some item ∧ item.field? f = some t' ∧ t = listType t'
  | .call _ name es t, c          =>
    ∃ cs, TypedItems es cs ∧ cs.head? = some c ∧ resolveBuiltin name (es.map (fun e => some e.typeInfo)) = .ok t
  | .binary _ op l r t, c         =>
    ∃ cl cr o, Typed l cl ∧ Typed r cr ∧ l.typeInfo = r.typeInfo ∧ Lowerer.operatorMap.lookup o = some op ∧
      operatorType o l.typeInfo = some t ∧ c = Lowerer.laterClassification cl cr
  | .read _ toolRef es t _, c     => TypedArguments es ∧ Answers tools toolRef t c
  | .write _ toolRef es _ t, c    => TypedArguments es ∧ Answers tools toolRef t c
def TypedItems : List Expression → List DataClassification → Prop
  | [],      []      => True
  | e :: es, c :: cs => Typed e c ∧ TypedItems es cs
  | _,       _       => False
def TypedArguments : List (String × Expression) → Prop
  | []           => True
  | (_, e) :: es => (∃ c, Typed e c) ∧ TypedArguments es
end

end Expressions

section Weakening

variable {symbols symbols' : List SymbolSpec} {tools : ToolsById}

mutual
/-- More symbols, the same types. -/
theorem Typed.mono (hsub : symbols ⊆ symbols') : ∀ {e : Expression} {c : DataClassification},
    Typed symbols tools e c → Typed symbols' tools e c
  | .literal _ _ _, _, h     => h
  | .symbolRef _ _ _, _, h   => Declares.mono hsub h
  | .field _ _ _ _, _, h     => ⟨Typed.mono hsub h.1, h.2⟩
  | .project _ _ _ _, _, h   => ⟨Typed.mono hsub h.1, h.2⟩
  | .call _ _ _ _, _, h      => by
    obtain ⟨cs, hes, hc, ht⟩ := h
    exact ⟨cs, TypedItems.mono hsub hes, hc, ht⟩
  | .binary _ _ _ _ _, _, h  => by
    obtain ⟨cl, cr, o, hl, hr, hrest⟩ := h
    exact ⟨cl, cr, o, Typed.mono hsub hl, Typed.mono hsub hr, hrest⟩
  | .read _ _ _ _ _, _, h    => ⟨TypedArguments.mono hsub h.1, h.2⟩
  | .write _ _ _ _ _, _, h   => ⟨TypedArguments.mono hsub h.1, h.2⟩
theorem TypedItems.mono (hsub : symbols ⊆ symbols') : ∀ {es : List Expression} {cs : List DataClassification},
    TypedItems symbols tools es cs → TypedItems symbols' tools es cs
  | [], [], _          => trivial
  | _ :: _, _ :: _, h  => ⟨Typed.mono hsub h.1, TypedItems.mono hsub h.2⟩
  | [], _ :: _, h      => h.elim
  | _ :: _, [], h      => h.elim
theorem TypedArguments.mono (hsub : symbols ⊆ symbols') : ∀ {es : List (String × Expression)},
    TypedArguments symbols tools es → TypedArguments symbols' tools es
  | [], _          => trivial
  | (_, _) :: _, h => by
    obtain ⟨⟨c, hc⟩, hes⟩ := h
    exact ⟨⟨c, Typed.mono hsub hc⟩, TypedArguments.mono hsub hes⟩
end

end Weakening

mutual
/-- The symbols an expression refers to. -/
def Expression.refs : Expression → List String
  | .literal ..                           => []
  | .symbolRef _ i _                      => [i]
  | .field _ e _ _ | .project _ e _ _     => e.refs
  | .call _ _ es _                        => refsOfItems es
  | .binary _ _ l r _                     => l.refs ++ r.refs
  | .read _ _ es _ _ | .write _ _ es _ _  => refsOfNamed es
def refsOfItems : List Expression → List String
  | []      => []
  | e :: es => e.refs ++ refsOfItems es
def refsOfNamed : List (String × Expression) → List String
  | []           => []
  | (_, e) :: es => e.refs ++ refsOfNamed es
end

/-! ## Statements -/

section Statements

variable (symbols : List SymbolSpec) (tools : ToolsById) (outputs : List OutputField)

/-- A field of an EMIT has the type of its output, and no higher classification. -/
def TypedField (name : String) (e : Expression) : Prop :=
  ∃ o c, outputs.find? (fun o => o.name = name) = some o ∧ Typed symbols tools e c ∧ e.typeInfo = o.typeInfo ∧
    c.allows o.classification = true

/-- The fields of an EMIT are those of the outputs. -/
def TypedEmit (s : EmitStatement) : Prop :=
  emitFieldsMatch outputs (s.fields.map Prod.fst) = true ∧ ∀ x ∈ s.fields, TypedField symbols tools outputs x.1 x.2

mutual
/-- A statement declares its symbol with the type and the classification of what it binds. -/
def TypedStatement : Statement → Prop
  | .letBind s                => ∃ c, Typed symbols tools s.value c ∧ Declares symbols s.targetSymbolId s.value.typeInfo c
  | .foreach _ i e _ body     =>
    (∃ c item, Typed symbols tools e c ∧ e.typeInfo.kind = "list" ∧ e.typeInfo.item = some item ∧
      Declares symbols i item c) ∧ TypedBlock body
  | .check s                  =>
    (∃ c, Typed symbols tools s.condition c) ∧ s.condition.typeInfo = BOOL ∧
      Declares symbols s.resultSymbolId CHECK_RESULT .internal
  | .emit s                   => TypedEmit symbols tools outputs s
  | .approval _               => True
def TypedBlock : List Statement → Prop
  | []      => True
  | s :: ss => TypedStatement s ∧ TypedBlock ss
end

end Statements

section Weakening

variable {symbols symbols' : List SymbolSpec} {tools : ToolsById} {outputs : List OutputField}

theorem TypedEmit.mono (hsub : symbols ⊆ symbols') {s : EmitStatement} (h : TypedEmit symbols tools outputs s) :
    TypedEmit symbols' tools outputs s := by
  refine ⟨h.1, fun x hx => ?_⟩
  obtain ⟨o, c, ho, hc, hrest⟩ := h.2 x hx
  exact ⟨o, c, ho, hc.mono hsub, hrest⟩

mutual
theorem TypedStatement.mono (hsub : symbols ⊆ symbols') : ∀ {s : Statement},
    TypedStatement symbols tools outputs s → TypedStatement symbols' tools outputs s
  | .letBind _, h         => by
    obtain ⟨c, hc, hd⟩ := h
    exact ⟨c, hc.mono hsub, hd.mono hsub⟩
  | .foreach _ _ _ _ _, h => by
    obtain ⟨⟨c, item, hc, hkind, hitem, hd⟩, hbody⟩ := h
    exact ⟨⟨c, item, hc.mono hsub, hkind, hitem, hd.mono hsub⟩, TypedBlock.mono hsub hbody⟩
  | .check _, h           => by
    obtain ⟨⟨c, hc⟩, ht, hd⟩ := h
    exact ⟨⟨c, hc.mono hsub⟩, ht, hd.mono hsub⟩
  | .emit _, h            => TypedEmit.mono hsub h
  | .approval _, _        => trivial
theorem TypedBlock.mono (hsub : symbols ⊆ symbols') : ∀ {ss : List Statement},
    TypedBlock symbols tools outputs ss → TypedBlock symbols' tools outputs ss
  | [], _     => trivial
  | _ :: _, h => ⟨TypedStatement.mono hsub h.1, TypedBlock.mono hsub h.2⟩
end

end Weakening

section Within

variable {symbols : List SymbolSpec} {tools : ToolsById} {outputs : List OutputField}

mutual
/-- Each statement inside a well-typed one is well-typed. -/
theorem TypedStatement.within : ∀ {s : Statement}, TypedStatement symbols tools outputs s →
    ∀ t ∈ s.within, TypedStatement symbols tools outputs t
  | .foreach n i c m body, h, t, ht => by
    unfold Statement.within at ht
    rcases List.mem_cons.1 ht with rfl | ht
    · exact h
    · exact TypedBlock.within h.2 t ht
  | .letBind s, h, t, ht            => by
    unfold Statement.within at ht
    rw [List.mem_singleton.1 ht]
    exact h
  | .check s, h, t, ht              => by
    unfold Statement.within at ht
    rw [List.mem_singleton.1 ht]
    exact h
  | .emit s, h, t, ht               => by
    unfold Statement.within at ht
    rw [List.mem_singleton.1 ht]
    exact h
  | .approval s, h, t, ht           => by
    unfold Statement.within at ht
    rw [List.mem_singleton.1 ht]
    exact h
theorem TypedBlock.within : ∀ {ss : List Statement}, TypedBlock symbols tools outputs ss →
    ∀ t ∈ withinBlock ss, TypedStatement symbols tools outputs t
  | [], _, t, ht      => by
    unfold withinBlock at ht
    cases ht
  | s :: ss, h, t, ht => by
    unfold withinBlock at ht
    rcases List.mem_append.1 ht with ht | ht
    · exact TypedStatement.within h.1 t ht
    · exact TypedBlock.within h.2 t ht
end

end Within

/-- The symbol a statement leaves in scope. -/
def Statement.binds : Statement → List String
  | .letBind s                          => [s.targetSymbolId]
  | .check s                            => [s.resultSymbolId]
  | .foreach .. | .emit _ | .approval _ => []

mutual
/-- A statement refers to what is in scope and declares what is not. -/
def ScopedStatement (scope : List String) : Statement → Prop
  | .letBind s            => s.value.refs ⊆ scope ∧ s.targetSymbolId ∉ scope
  | .foreach _ i e _ body => e.refs ⊆ scope ∧ i ∉ scope ∧ ScopedBlock (i :: scope) body
  | .check s              => s.condition.refs ⊆ scope ∧ s.resultSymbolId ∉ scope
  | .emit s               => refsOfNamed s.fields ⊆ scope
  | .approval _           => True
def ScopedBlock (scope : List String) : List Statement → Prop
  | []      => True
  | s :: ss => ScopedStatement scope s ∧ ScopedBlock (s.binds ++ scope) ss
end

end Nsl
