import Nsl.Value
/-!
# Ir — the skill object

The expressions, statements and declarations of a compiled skill (`ir.py`). What the constructors of the source check is
a field here: an approval has its identifiers, a WRITE tool has a risk level.
-/
namespace Nsl

structure ResultPolicy where
  required      : Bool := true
  acceptPartial : Bool := false
  emptyIsValid  : Bool := true
  deriving DecidableEq

/-! ## Expressions -/

inductive Expression
  | literal (nodeId : String) (value : Value) (typeInfo : TypeRef)
  | symbolRef (nodeId symbolId : String) (typeInfo : TypeRef)
  | field (nodeId : String) (source : Expression) (field : String) (typeInfo : TypeRef)
  | project (nodeId : String) (source : Expression) (field : String) (typeInfo : TypeRef)
  | call (nodeId function : String) (arguments : List Expression) (typeInfo : TypeRef)
  | binary (nodeId operator : String) (left right : Expression) (typeInfo : TypeRef)
  | read (nodeId toolRef : String) (arguments : List (String × Expression)) (typeInfo : TypeRef)
      (resultPolicy : ResultPolicy)
  | write (nodeId toolRef : String) (arguments : List (String × Expression)) (approvalRef : String) (typeInfo : TypeRef)

namespace Expression

def nodeId : Expression → String
  | .literal n .. | .symbolRef n .. | .field n .. | .project n .. | .call n .. | .binary n .. | .read n ..
  | .write n .. => n

def typeInfo : Expression → TypeRef
  | .literal _ _ t | .symbolRef _ _ t | .field _ _ _ t | .project _ _ _ t | .call _ _ _ t | .binary _ _ _ _ t
  | .read _ _ _ t _ | .write _ _ _ _ t => t

def isRead : Expression → Bool
  | .read .. => true
  | _        => false

def isWrite : Expression → Bool
  | .write .. => true
  | _         => false

mutual
def beq : Expression → Expression → Bool
  | .literal n v t,      .literal n' v' t'        => n = n' && v = v' && t = t'
  | .symbolRef n s t,    .symbolRef n' s' t'      => n = n' && s = s' && t = t'
  | .field n e f t,      .field n' e' f' t'       => n = n' && beq e e' && f = f' && t = t'
  | .project n e f t,    .project n' e' f' t'     => n = n' && beq e e' && f = f' && t = t'
  | .call n f as t,      .call n' f' as' t'       => n = n' && f = f' && beqItems as as' && t = t'
  | .binary n o l r t,   .binary n' o' l' r' t'   => n = n' && o = o' && beq l l' && beq r r' && t = t'
  | .read n u as t p,    .read n' u' as' t' p'    => n = n' && u = u' && beqArguments as as' && t = t' && p = p'
  | .write n u as a t,   .write n' u' as' a' t'   => n = n' && u = u' && beqArguments as as' && a = a' && t = t'
  | _,                   _                        => false
def beqItems : List Expression → List Expression → Bool
  | [],      []        => true
  | e :: es, e' :: es' => beq e e' && beqItems es es'
  | _,       _         => false
def beqArguments : List (String × Expression) → List (String × Expression) → Bool
  | [],           []             => true
  | (n, e) :: es, (n', e') :: es' => n = n' && beq e e' && beqArguments es es'
  | _,            _              => false
end

mutual
theorem beq_iff : ∀ (e e' : Expression), beq e e' = true ↔ e = e'
  | .literal _ _ _, e'     => by cases e' <;> simp [beq, and_assoc]
  | .symbolRef _ _ _, e'   => by cases e' <;> simp [beq, and_assoc]
  | .field _ e _ _, e'     => by cases e' <;> simp [beq, beq_iff e, and_assoc]
  | .project _ e _ _, e'   => by cases e' <;> simp [beq, beq_iff e, and_assoc]
  | .call _ _ as _, e'     => by cases e' <;> simp [beq, beqItems_iff as, and_assoc]
  | .binary _ _ l r _, e'  => by cases e' <;> simp [beq, beq_iff l, beq_iff r, and_assoc]
  | .read _ _ as _ _, e'   => by cases e' <;> simp [beq, beqArguments_iff as, and_assoc]
  | .write _ _ as _ _, e'  => by cases e' <;> simp [beq, beqArguments_iff as, and_assoc]
theorem beqItems_iff : ∀ (es es' : List Expression), beqItems es es' = true ↔ es = es'
  | [], es'      => by cases es' <;> simp [beqItems]
  | e :: es, es' => by cases es' <;> simp [beqItems, beq_iff e, beqItems_iff es]
theorem beqArguments_iff : ∀ (es es' : List (String × Expression)), beqArguments es es' = true ↔ es = es'
  | [], es'           => by cases es' <;> simp [beqArguments]
  | (n, e) :: es, es' => by
    rcases es' with _ | ⟨⟨n', e'⟩, es'⟩
    · simp [beqArguments]
    · simp [beqArguments, beq_iff e, beqArguments_iff es, and_assoc]
end

instance : DecidableEq Expression := fun e e' => decidable_of_iff _ (beq_iff e e')

end Expression

/-! ## Statements -/

/-- `ApprovalPolicy`; `required` is always true. -/
structure ApprovalPolicy where
  ttlSeconds : Option Int
  positive   : ∀ t, ttlSeconds = some t → 1 ≤ t
  deriving DecidableEq

structure ApprovalStatement where
  nodeId     : String
  approvalId : String
  message    : String
  policy     : ApprovalPolicy
  nodeIdSet  : Text.isBlank nodeId = false
  idSet      : Text.isBlank approvalId = false
  deriving DecidableEq

structure LetStatement where
  nodeId         : String
  targetSymbolId : String
  value          : Expression
  deriving DecidableEq

structure CheckStatement where
  nodeId         : String
  checkId        : String
  condition      : Expression
  severity       : String
  onFail         : String
  message        : String
  resultSymbolId : String
  deriving DecidableEq

structure EmitStatement where
  nodeId : String
  fields : List (String × Expression)
  deriving DecidableEq

inductive Statement
  | letBind (s : LetStatement)
  | foreach (nodeId iteratorSymbolId : String) (collection : Expression) (maxIterations : Int) (body : List Statement)
  | check (s : CheckStatement)
  | emit (s : EmitStatement)
  | approval (s : ApprovalStatement)

namespace Statement

def nodeId : Statement → String
  | .letBind s     => s.nodeId
  | .foreach n ..  => n
  | .check s       => s.nodeId
  | .emit s        => s.nodeId
  | .approval s    => s.nodeId

/-- `type(statement).__name__` -/
def kind : Statement → String
  | .letBind _   => "LetStatement"
  | .foreach ..  => "ForeachStatement"
  | .check _     => "CheckStatement"
  | .emit _      => "EmitStatement"
  | .approval _  => "ApprovalStatement"

def isApproval : Statement → Bool
  | .approval _ => true
  | _           => false

/-- `let name = write …` -/
def isWrite : Statement → Bool
  | .letBind s => s.value.isWrite
  | _          => false

mutual
def beq : Statement → Statement → Bool
  | .letBind s,         .letBind s'           => s = s'
  | .foreach n i c m b, .foreach n' i' c' m' b' => n = n' && i = i' && c = c' && m = m' && beqBlock b b'
  | .check s,           .check s'             => s = s'
  | .emit s,            .emit s'              => s = s'
  | .approval s,        .approval s'          => s = s'
  | _,                  _                     => false
def beqBlock : List Statement → List Statement → Bool
  | [],      []        => true
  | s :: ss, s' :: ss' => beq s s' && beqBlock ss ss'
  | _,       _         => false
end

mutual
theorem beq_iff : ∀ (s s' : Statement), beq s s' = true ↔ s = s'
  | .letBind _, s'         => by cases s' <;> simp [beq]
  | .foreach _ _ _ _ b, s' => by cases s' <;> simp [beq, beqBlock_iff b, and_assoc]
  | .check _, s'           => by cases s' <;> simp [beq]
  | .emit _, s'            => by cases s' <;> simp [beq]
  | .approval _, s'        => by cases s' <;> simp [beq]
theorem beqBlock_iff : ∀ (ss ss' : List Statement), beqBlock ss ss' = true ↔ ss = ss'
  | [], ss'      => by cases ss' <;> simp [beqBlock]
  | s :: ss, ss' => by cases ss' <;> simp [beqBlock, beq_iff s, beqBlock_iff ss]
end

instance : DecidableEq Statement := fun s s' => decidable_of_iff _ (beq_iff s s')

end Statement

/-! ## The statements of a block -/

mutual
/-- A statement and the statements inside it. -/
def Statement.within : Statement → List Statement
  | .foreach n i c m body => .foreach n i c m body :: withinBlock body
  | .letBind s            => [.letBind s]
  | .check s              => [.check s]
  | .emit s               => [.emit s]
  | .approval s           => [.approval s]
def withinBlock : List Statement → List Statement
  | []      => []
  | s :: ss => s.within ++ withinBlock ss
end

theorem Statement.mem_within : ∀ (s : Statement), s ∈ s.within
  | .foreach .. => by
    unfold within
    exact List.mem_cons_self ..
  | .letBind _ | .check _ | .emit _ | .approval _ => List.mem_singleton.2 rfl

/-! ## Declarations -/

structure SymbolSpec where
  symbolId       : String
  name           : String
  category       : String
  typeInfo       : TypeRef
  classification : DataClassification
  deriving DecidableEq

structure InputSpec where
  symbolId       : String
  name           : String
  typeInfo       : TypeRef
  required       : Bool
  classification : DataClassification
  deriving DecidableEq

structure ContextSpec where
  symbolId       : String
  name           : String
  typeInfo       : TypeRef
  path           : List String
  classification : DataClassification
  deriving DecidableEq

structure OutputField where
  name           : String
  typeInfo       : TypeRef
  classification : DataClassification
  deriving DecidableEq

/-- A capability is its text; it need not be one of `ToolCapability`. -/
structure RequiredTool where
  toolRef              : String
  toolId               : String
  version              : String
  capability           : String
  contractHash         : String
  requiredScope        : String
  outputClassification : DataClassification
  riskLevel            : Option RiskLevel
  writeHasRisk         : capability = "WRITE" → riskLevel.isSome
  deriving DecidableEq

/-- Declared limits: the parser and the schema of skill documents let no other numbers through. -/
structure ResourceLimits where
  toolCalls      : Nat
  loopIterations : Nat
  emittedRows    : Nat
  collectionSize : Nat
  durationMs     : Nat
  deriving DecidableEq

structure StaticAnalysis where
  maxToolCalls      : Nat
  maxLoopIterations : Nat
  maxEmitRecords    : Nat
  bounded           : Bool
  deriving DecidableEq

structure BuildSource where
  logicalPath : String
  contentHash : String
  sizeBytes   : Nat
  isRoot      : Bool
  deriving DecidableEq

structure BuildMetadata where
  sourceBundleSha256 : String
  rootSource         : String
  sources            : List BuildSource
  deriving DecidableEq

/-- A skill. Its features are a set: in order, each once. -/
structure SkillObject where
  irVersion        : String
  languageVersion  : String
  skillId          : String
  skillVersion     : String
  risk             : String
  semanticsProfile : String
  semanticHash     : String
  features         : List String
  symbols          : List SymbolSpec
  requiredTools    : List RequiredTool
  limits           : ResourceLimits
  inputs           : List InputSpec
  contexts         : List ContextSpec
  outputs          : List OutputField
  body             : List Statement
  analysis         : StaticAnalysis
  build            : BuildMetadata
  featureSet       : features.Pairwise (· < ·)
  deriving DecidableEq

/-- A skill of one body that declares nothing: no tools, no inputs, no outputs. -/
def SkillObject.ofBody (irVersion languageVersion : String) (limits : ResourceLimits) (body : List Statement) :
    SkillObject where
  irVersion        := irVersion
  languageVersion  := languageVersion
  skillId          := "skill"
  skillVersion     := "1.0.0"
  risk             := "R0"
  semanticsProfile := "NSL-" ++ languageVersion ++ "-STRICT"
  semanticHash     := ""
  features         := []
  symbols          := []
  requiredTools    := []
  limits           := limits
  inputs           := []
  contexts         := []
  outputs          := []
  body             := body
  analysis         := ⟨0, 0, 0, true⟩
  build            := ⟨"", "", []⟩
  featureSet       := List.Pairwise.nil

/-- A skill of language 0.2 in IR 1.1. -/
def SkillObject.isV02 (skill : SkillObject) : Bool := skill.irVersion = "1.1" && skill.languageVersion = "0.2"

end Nsl
