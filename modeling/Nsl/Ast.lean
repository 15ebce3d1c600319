import Nsl.Value
/-!
# Ast — the trees the parser builds

The nodes of `syntax.py`, without their places in the source, which no comparison of nodes looks at.
-/
namespace Nsl

inductive AstExpression
  /-- `AstLiteral` -/
  | literal (value : Value) (typeInfo : TypeRef)
  /-- `AstPath` -/
  | path (parts : List String)
  /-- `AstCall` -/
  | call (name : String) (arguments : List AstExpression)
  /-- `AstRead` -/
  | read (toolId : String) (arguments : List (String × AstExpression))
  /-- `AstWrite` -/
  | write (toolId : String) (arguments : List (String × AstExpression)) (approvalId : String)
  /-- `AstBinary` -/
  | binary (operator : String) (left right : AstExpression)

inductive AstStatement
  /-- `AstLet` -/
  | letBind (name : String) (value : AstExpression)
  /-- `AstForeach` -/
  | foreach (iterator : String) (collection : AstExpression) (maxIterations : Nat) (body : List AstStatement)
  /-- `AstCheck` -/
  | check (checkId : String) (condition : AstExpression) (severity onFail message : String)
  /-- `AstEmit` -/
  | emit (fields : List (String × AstExpression))
  /-- `AstApprove` -/
  | approve (approvalId message : String)

structure AstFieldSpec where
  name           : String
  typeInfo       : TypeRef
  classification : DataClassification
  path           : List String
  deriving DecidableEq

structure AstLimits where
  toolCalls      : Nat
  loopIterations : Nat
  emittedRows    : Nat
  collectionSize : Nat
  durationMs     : Nat
  deriving DecidableEq

structure AstRequiredTool where
  toolId  : String
  version : String
  deriving DecidableEq

/-- `AstIncludeFragment`; an include declaration is its path. -/
structure AstIncludeFragment where
  includes : List String
  requires : List AstRequiredTool
  contexts : List AstFieldSpec
  limits   : List AstLimits

structure AstSkill where
  languageVersion : String
  skillId         : String
  skillVersion    : String
  risk            : String
  includes        : List String
  requires        : List AstRequiredTool
  limits          : Option AstLimits
  inputs          : List AstFieldSpec
  contexts        : List AstFieldSpec
  outputs         : List AstFieldSpec
  body            : List AstStatement

end Nsl
