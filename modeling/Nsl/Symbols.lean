import Nsl.Value
/-!
# Symbols — the names of a source and their scopes

`symbols.py`: a stack of scopes, each from names to bindings, and the list of every binding made. A name that is visible
cannot be declared again, and the identifier of a binding is never given twice.
-/
namespace Nsl

/-! ## Diagnostics -/

/-- The codes the compiler reports after parsing (`diagnostics.py`). -/
inductive DiagnosticCode
  | semUnknownIdentifier | semDuplicateSymbol | semUnsupportedLanguageVersion | semUnsupportedRisk | semUnknownField
  | semUnsupportedBuiltin | semUndeclaredTool | semDuplicateTool | semIncludeRequiresComposition
  | incRequiredLimitsMissing | semBinaryType | semForeachCollectionType | semCheckConditionType | semSumArgumentType
  | semToolArgumentType | semUnknownToolContract | semIncompatibleToolVersion | semToolArguments
  | semWriteToolForbidden | semUnknownApproval | semApprovalOrder | semApprovalWriteNotOneToOne | semUnusedApproval
  | semApprovalScope | semWriteInForeach | semTooManyWrites | semWriteCapabilityRequired | semWriteAtomicityRequired
  | semWriteIdempotencyRequired | semUnsupportedWriteOperation | semWriteRiskMetadataRequired | semToolCallBound
  | semLoopBound | semEmitBound | semUnboundedStructure | semEmitSchema | semOutputType | semOutputClassification
  deriving DecidableEq, Repr

def DiagnosticCode.value : DiagnosticCode → String
  | .semUnknownIdentifier          => "NSL-E2001"
  | .semDuplicateSymbol            => "NSL-E2002"
  | .semUnsupportedLanguageVersion => "NSL-E2003"
  | .semUnsupportedRisk            => "NSL-E2004"
  | .semUnknownField               => "NSL-E2005"
  | .semUnsupportedBuiltin         => "NSL-E2006"
  | .semUndeclaredTool             => "NSL-E2201"
  | .semDuplicateTool              => "NSL-E2202"
  | .semIncludeRequiresComposition => "NSL-E2300"
  | .incRequiredLimitsMissing      => "NSL-E2310"
  | .semBinaryType                 => "NSL-E3001"
  | .semForeachCollectionType      => "NSL-E3002"
  | .semCheckConditionType         => "NSL-E3003"
  | .semSumArgumentType            => "NSL-E3004"
  | .semToolArgumentType           => "NSL-E3005"
  | .semUnknownToolContract        => "NSL-E4001"
  | .semIncompatibleToolVersion    => "NSL-E4002"
  | .semToolArguments              => "NSL-E4201"
  | .semWriteToolForbidden         => "NSL-E5001"
  | .semUnknownApproval            => "NSL-E5301"
  | .semApprovalOrder              => "NSL-E5302"
  | .semApprovalWriteNotOneToOne   => "NSL-E5303"
  | .semUnusedApproval             => "NSL-E5304"
  | .semApprovalScope              => "NSL-E5305"
  | .semWriteInForeach             => "NSL-E5201"
  | .semTooManyWrites              => "NSL-E5202"
  | .semWriteCapabilityRequired    => "NSL-E5401"
  | .semWriteAtomicityRequired     => "NSL-E5402"
  | .semWriteIdempotencyRequired   => "NSL-E5403"
  | .semUnsupportedWriteOperation  => "NSL-E5404"
  | .semWriteRiskMetadataRequired  => "NSL-E5405"
  | .semToolCallBound              => "NSL-E6101"
  | .semLoopBound                  => "NSL-E6102"
  | .semEmitBound                  => "NSL-E6103"
  | .semUnboundedStructure         => "NSL-E6104"
  | .semEmitSchema                 => "NSL-E7001"
  | .semOutputType                 => "NSL-E7002"
  | .semOutputClassification       => "NSL-E7003"

/-- How a compilation fails: a `CompileError` with its diagnostic, or an exception of another class. -/
inductive CompileFailure
  | diagnostic (code : DiagnosticCode) (message : String)
  | raised (e : Exn)
  deriving DecidableEq

/-! ## Bindings and scopes -/

inductive SymbolNamespace | value | check | approval
  deriving DecidableEq, Repr

inductive ScopeKind | skill | foreach
  deriving DecidableEq, Repr

structure SymbolBinding where
  symbolId       : String
  name           : String
  space          : SymbolNamespace
  category       : String
  typeInfo       : TypeRef
  classification : DataClassification
  scopeId        : String
  deriving DecidableEq

structure ScopeFrame where
  scopeId  : String
  kind     : ScopeKind
  bindings : Dict SymbolBinding
  deriving DecidableEq

/-- `f"s{counter:04d}"` -/
def symbolIdOf (counter : Nat) : String := "s" ++ Text.zeroPad 4 counter

/-- `f"scope{counter:04d}"` -/
def scopeIdOf (counter : Nat) : String := "scope" ++ Text.zeroPad 4 counter

theorem symbolIdOf_injective {m n : Nat} (h : symbolIdOf m = symbolIdOf n) : m = n :=
  Text.zeroPad_injective 4 ((String.append_right_inj _).1 h)

/-- `SymbolTable`: the innermost scope is on top and the root never goes. The identifiers of the bindings are those of
the counter's values so far, and what a scope binds is among the bindings. -/
structure SymbolTable where
  scopeCounter  : Nat
  symbolCounter : Nat
  top           : ScopeFrame
  below         : List ScopeFrame
  bindings      : List SymbolBinding
  counted       : bindings.map (·.symbolId) = (List.range symbolCounter).map (fun i => symbolIdOf (i + 1))
  listed        : ∀ f ∈ top :: below, ∀ b ∈ f.bindings.values, b ∈ bindings

namespace SymbolTable

def init : SymbolTable where
  scopeCounter  := 1
  symbolCounter := 0
  top           := ⟨"scope0001", .skill, Dict.empty⟩
  below         := []
  bindings      := []
  counted       := rfl
  listed        := by simp [Dict.empty, Dict.values]

/-- `_frames`, from the innermost to the root. -/
def frames (t : SymbolTable) : List ScopeFrame := t.top :: t.below

/-- What the names in scope are bound to. -/
def visible (t : SymbolTable) : List SymbolBinding := t.frames.flatMap (·.bindings.values)

theorem visible_listed {t : SymbolTable} {b : SymbolBinding} (h : b ∈ t.visible) : b ∈ t.bindings := by
  obtain ⟨f, hf, hb⟩ := List.mem_flatMap.1 h
  exact t.listed f hf b hb

/-- **No identifier is given twice.** -/
theorem ids_nodup (t : SymbolTable) : (t.bindings.map (·.symbolId)).Nodup := by
  rw [t.counted]
  refine List.Nodup.map_on (fun m _ n _ h => ?_) List.nodup_range
  have hsucc := symbolIdOf_injective h
  omega

/-- The identifier of the next binding is new. -/
theorem next_fresh (t : SymbolTable) : symbolIdOf (t.symbolCounter + 1) ∉ t.bindings.map (·.symbolId) := by
  rw [t.counted]
  intro h
  obtain ⟨i, hi, hid⟩ := List.mem_map.1 h
  have hlt := List.mem_range.1 hi
  have hsucc := symbolIdOf_injective hid
  omega

/-- `enter_scope`; the new scope's identifier is that of its top. -/
def enterScope (t : SymbolTable) (kind : ScopeKind) : SymbolTable where
  scopeCounter  := t.scopeCounter + 1
  symbolCounter := t.symbolCounter
  top           := ⟨scopeIdOf (t.scopeCounter + 1), kind, Dict.empty⟩
  below         := t.frames
  bindings      := t.bindings
  counted       := t.counted
  listed        := by
    intro f hf b hb
    rcases List.mem_cons.1 hf with rfl | hf
    · cases hb
    · exact t.listed f hf b hb

/-- `leave_scope` -/
def leaveScope (t : SymbolTable) (scopeId : String) : Except CompileFailure SymbolTable :=
  match hbelow : t.below with
  | []         => .error (.raised (.value "cannot leave the root symbol scope"))
  | f :: below =>
    if t.top.scopeId ≠ scopeId then .error (.raised (.value "symbol scopes must be left in stack order"))
    else .ok
      { scopeCounter  := t.scopeCounter
        symbolCounter := t.symbolCounter
        top           := f
        below         := below
        bindings      := t.bindings
        counted       := t.counted
        listed        := fun g hg => t.listed g (List.mem_cons_of_mem _ (hbelow ▸ hg)) }

/-- The binding `declare` makes. -/
def bindingFor (t : SymbolTable) (name : String) (space : SymbolNamespace) (category : String) (typeInfo : TypeRef)
    (classification : DataClassification) : SymbolBinding :=
  ⟨symbolIdOf (t.symbolCounter + 1), name, space, category, typeInfo, classification, t.top.scopeId⟩

/-- One more binding, in the innermost scope. -/
def add (t : SymbolTable) (b : SymbolBinding) (hb : b.symbolId = symbolIdOf (t.symbolCounter + 1)) : SymbolTable where
  scopeCounter  := t.scopeCounter
  symbolCounter := t.symbolCounter + 1
  top           := { t.top with bindings := t.top.bindings.set b.name b }
  below         := t.below
  bindings      := t.bindings ++ [b]
  counted       := by simp [t.counted, List.range_succ, hb]
  listed        := by
    intro f hf c hc
    rcases List.mem_cons.1 hf with rfl | hf
    · rcases Dict.mem_values_set hc with rfl | hc
      · simp
      · exact List.mem_append_left _ (t.listed t.top (List.mem_cons_self ..) c hc)
    · exact List.mem_append_left _ (t.listed f (List.mem_cons_of_mem _ hf) c hc)

/-- `declare` -/
def declare (t : SymbolTable) (name : String) (space : SymbolNamespace) (category : String) (typeInfo : TypeRef)
    (classification : DataClassification) : Except CompileFailure (SymbolBinding × SymbolTable) :=
  if t.frames.any (·.bindings.contains name) then
    .error (.diagnostic .semDuplicateSymbol ("duplicate symbol or shadowing is forbidden: " ++ name))
  else
    let b := t.bindingFor name space category typeInfo classification
    .ok (b, t.add b rfl)

/-- `_resolve`: the innermost binding of the name, of the namespace where one is asked for. -/
def find? (t : SymbolTable) (name : String) (space : Option SymbolNamespace) : Option SymbolBinding :=
  t.frames.findSome? (fun f => (f.bindings.get? name).filter (fun b => space.all (fun s => b.space = s)))

/-- `resolve` -/
def resolve (t : SymbolTable) (name : String) : Except CompileFailure SymbolBinding :=
  match t.find? name none with
  | some b => .ok b
  | none   => .error (.diagnostic .semUnknownIdentifier ("unknown identifier: " ++ name))

/-- `resolve_in_namespace` -/
def resolveInNamespace (t : SymbolTable) (name : String) (space : SymbolNamespace) (code : DiagnosticCode)
    (message : String) : Except CompileFailure SymbolBinding :=
  match t.find? name (some space) with
  | some b => .ok b
  | none   => .error (.diagnostic code message)

/-! ## What they give -/

variable {t t' : SymbolTable} {b : SymbolBinding} {name category : String} {space : SymbolNamespace} {typeInfo : TypeRef}
  {classification : DataClassification}

theorem declare_ok (h : t.declare name space category typeInfo classification = .ok (b, t')) :
    t.frames.any (·.bindings.contains name) = false ∧ b = t.bindingFor name space category typeInfo classification ∧
      t'.bindings = t.bindings ++ [b] ∧ t'.below = t.below ∧
      t'.top = { t.top with bindings := t.top.bindings.set name b } := by
  unfold declare at h
  split at h
  · cases h
  · rename_i hfree
    cases h
    exact ⟨by simpa using hfree, rfl, rfl, rfl, rfl⟩

/-- What a name resolves to is visible, under that name. -/
theorem find?_visible {space : Option SymbolNamespace} (h : t.find? name space = some b) : b ∈ t.visible := by
  obtain ⟨f, hf, hb⟩ := List.exists_of_findSome?_eq_some h
  obtain ⟨hget, -⟩ := Option.filter_eq_some_iff.1 hb
  exact List.mem_flatMap.2 ⟨f, hf, Dict.mem_values_of_get? hget⟩

theorem resolve_visible (h : t.resolve name = .ok b) : b ∈ t.visible := by
  unfold resolve at h
  cases hf : t.find? name none with
  | none   => rw [hf] at h; cases h
  | some c =>
    rw [hf] at h
    cases h
    exact find?_visible hf

end SymbolTable
end Nsl
