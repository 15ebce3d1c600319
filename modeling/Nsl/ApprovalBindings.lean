import Nsl.Ast
import Nsl.Symbols
import Nsl.Tools
/-!
# ApprovalBindings — approvals, WRITEs and what links them

`ApprovalBindingAnalyzer` and `WriteSafetyAnalyzer` (`compiler.py`). The approvals and WRITEs of a body are its events, in
the order in which the source has them and with whether they stand inside a loop. Each approval is declared outside of
loops and linked to exactly one later WRITE; of WRITEs there is at most one.
-/
namespace Nsl

/-! ## Events -/

/-- What the analysis needs of an `AstWrite`. -/
structure WriteNode where
  toolId     : String
  approvalId : String
  deriving DecidableEq

mutual
/-- The WRITEs of an expression, the outer one first. -/
def AstExpression.writes : AstExpression → List WriteNode
  | .literal .. | .path _   => []
  | .call _ es              => writesOfItems es
  | .read _ es              => writesOfNamed es
  | .write toolId es a      => ⟨toolId, a⟩ :: writesOfNamed es
  | .binary _ l r           => l.writes ++ r.writes
def writesOfItems : List AstExpression → List WriteNode
  | []      => []
  | e :: es => e.writes ++ writesOfItems es
def writesOfNamed : List (String × AstExpression) → List WriteNode
  | []           => []
  | (_, e) :: es => e.writes ++ writesOfNamed es
end

inductive ApprovalEvent
  | approve (approvalId : String)
  | write (node : WriteNode)
  deriving DecidableEq

def writeEvents (insideForeach : Bool) (writes : List WriteNode) : List (ApprovalEvent × Bool) :=
  writes.map (fun w => (.write w, insideForeach))

mutual
/-- `_walk` of one statement. -/
def AstStatement.events (insideForeach : Bool) : AstStatement → List (ApprovalEvent × Bool)
  | .letBind _ value      => writeEvents insideForeach value.writes
  | .foreach _ c _ body   => writeEvents insideForeach c.writes ++ eventsOfBlock true body
  | .check _ condition .. => writeEvents insideForeach condition.writes
  | .emit fields          => writeEvents insideForeach (writesOfNamed fields)
  | .approve approvalId _ => [(.approve approvalId, insideForeach)]
/-- `_walk` -/
def eventsOfBlock (insideForeach : Bool) : List AstStatement → List (ApprovalEvent × Bool)
  | []      => []
  | s :: ss => s.events insideForeach ++ eventsOfBlock insideForeach ss
end

/-! ## Approval bindings -/

structure ApprovalSymbol where
  approvalId       : String
  symbolId         : String
  declarationOrder : Nat

structure ApprovalWriteBinding where
  approval      : ApprovalSymbol
  write         : WriteNode
  writeOrder    : Nat
  insideForeach : Bool

structure ApprovalBindingAnalysis where
  approvals : List ApprovalSymbol
  bindings  : List ApprovalWriteBinding

/-- What the first loop of `analyze` has gathered. -/
structure ApprovalEvents where
  symbols   : SymbolTable
  approvals : List ApprovalSymbol
  writes    : List (Nat × WriteNode × Bool)

/-- One event, the `order`-th. -/
def ApprovalEvents.add (g : ApprovalEvents) (order : Nat) : ApprovalEvent × Bool → Except CompileFailure ApprovalEvents
  | (.approve approvalId, insideForeach) =>
    if insideForeach then .error (.diagnostic .semApprovalScope "approval declarations must be in skill scope")
    else if g.approvals.any (fun a => a.approvalId = approvalId) then
      .error (.diagnostic .semDuplicateSymbol ("duplicate approval ID: " ++ approvalId))
    else do
      let (b, symbols) ← g.symbols.declare approvalId .approval "APPROVAL" (domain "Approval") .internal
      return { g with symbols, approvals := g.approvals ++ [⟨approvalId, b.symbolId, order⟩] }
  | (.write node, insideForeach) => .ok { g with writes := g.writes ++ [(order, node, insideForeach)] }

/-- The first loop of `analyze`, from the `order`-th event. -/
def gatherEvents (g : ApprovalEvents) (order : Nat) : List (ApprovalEvent × Bool) → Except CompileFailure ApprovalEvents
  | []      => .ok g
  | e :: es => do
    let g ← g.add order e
    gatherEvents g (order + 1) es

/-- One WRITE of the second loop, after the WRITEs linked before it. -/
def linkWrite (g : ApprovalEvents) (linked : List ApprovalWriteBinding) (order : Nat) (write : WriteNode)
    (insideForeach : Bool) : Except CompileFailure ApprovalWriteBinding := do
  let _ ← g.symbols.resolveInNamespace write.approvalId .approval .semUnknownApproval
    ("unknown approval ID: " ++ write.approvalId)
  match g.approvals.find? (fun a => a.approvalId = write.approvalId) with
  | none          => throw (.raised (.lookup write.approvalId))
  | some approval =>
    if order ≤ approval.declarationOrder then
      throw (.diagnostic .semApprovalOrder ("approval must be declared before WRITE: " ++ write.approvalId))
    if linked.any (fun b => b.approval.approvalId = write.approvalId) then
      throw (.diagnostic .semApprovalWriteNotOneToOne
        ("approval must be linked to exactly one WRITE: " ++ write.approvalId))
    return ⟨approval, write, order, insideForeach⟩

/-- The second loop of `analyze`. -/
def linkWrites (g : ApprovalEvents) (linked : List ApprovalWriteBinding) :
    List (Nat × WriteNode × Bool) → Except CompileFailure (List ApprovalWriteBinding)
  | []                           => .ok linked
  | (order, write, inside) :: ws => do
    let b ← linkWrite g linked order write inside
    linkWrites g (linked ++ [b]) ws

/-- `ApprovalBindingAnalyzer.analyze` -/
def analyzeApprovals (skill : AstSkill) : Except CompileFailure ApprovalBindingAnalysis :=
  if skill.languageVersion ≠ "0.2" then .ok ⟨[], []⟩
  else do
    let g ← gatherEvents ⟨SymbolTable.init, [], []⟩ 1 (eventsOfBlock false skill.body)
    let bindings ← linkWrites g [] g.writes
    match g.approvals.find? (fun a => bindings.all (fun b => b.approval.approvalId ≠ a.approvalId)) with
    | some a => throw (.diagnostic .semUnusedApproval ("approval is not linked to a WRITE: " ++ a.approvalId))
    | none   => return ⟨g.approvals, bindings⟩

/-! ## Write safety -/

/-- `WriteSafetyAnalysis`, less its fields that are always the same. -/
structure WriteSafetyAnalysis where
  writeNodeCount            : Nat
  approvalNodeCount         : Nat
  approvalWriteMappingCount : Nat
  maxWriteCalls             : Nat
  requiresVerifiedPackage   : Bool
  deriving DecidableEq

/-- What `WriteSafetyAnalyzer` asks of the tool of one WRITE. Write semantics are atomic and idempotent. -/
def checkWriteTool (contracts : List (String × ToolContract)) (write : WriteNode) : Except CompileFailure Unit :=
  match contracts.lookup write.toolId with
  | none          => .error (.diagnostic .semUndeclaredTool ("tool not declared in requires: " ++ write.toolId))
  | some contract =>
    if contract.capability ≠ "WRITE" then
      .error (.diagnostic .semWriteCapabilityRequired ("WRITE requires a WRITE tool contract: " ++ write.toolId))
    else if contract.operationKind.isNone then
      .error (.diagnostic .semUnsupportedWriteOperation ("unsupported WRITE operation: " ++ write.toolId))
    else if contract.writeSemantics.isNone then
      .error (.diagnostic .semWriteAtomicityRequired ("WRITE tool must be ATOMIC: " ++ write.toolId))
    else if contract.riskLevel.isNone then
      .error (.diagnostic .semWriteRiskMetadataRequired ("WRITE tool risk metadata is invalid: " ++ write.toolId))
    else .ok ()

/-- `WriteSafetyAnalyzer.analyze` -/
def analyzeWriteSafety (approvals : ApprovalBindingAnalysis) (contracts : List (String × ToolContract)) :
    Except CompileFailure WriteSafetyAnalysis := do
  let count := approvals.bindings.length
  if 1 < count then
    throw (.diagnostic .semTooManyWrites "only one WRITE is allowed per skill in NSL-0.2-STRICT")
  if approvals.bindings.any (·.insideForeach) then
    throw (.diagnostic .semWriteInForeach "WRITE is not allowed inside FOREACH in NSL-0.2-STRICT")
  approvals.bindings.forM (fun b => checkWriteTool contracts b.write)
  return ⟨count, approvals.approvals.length, count, count, decide (0 < count)⟩

end Nsl
