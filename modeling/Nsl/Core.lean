import Nsl.Base.Decimal
import Nsl.Base.Dict
/-!
# Core — the vocabulary every component shares

The enumerations of `core.py`, `Money`, the types of values (`TypeRef`), the values themselves and the envelope a value
travels in. A `Money` has a finite amount and a currency code, a money type has a currency code: the constructors of the
source refuse the others, so no proof below meets them.
-/
namespace Nsl

/-! ## Exceptions -/

/-- What the source raises, by class. `str` of each is its message. -/
inductive Exn
  /-- `AuthorizationError` with its decision reference -/
  | authorization (message : String) (decisionRef : Option String)
  | permission (message : String)
  | toolExecution (code message : String)
  | limitExceeded (message : String)
  | immutableBinding (message : String)
  | runtimeContract (message : String)
  /-- `ExpressionEvaluationError`, a `RuntimeContractError` -/
  | expressionEvaluation (nodeId detailCode message : String)
  /-- `MoneyError`, a `ValueError` -/
  | money (message : String)
  /-- `BuiltinError`, a `ValueError` -/
  | builtin (message : String)
  | checkEvaluation (message : String)
  | checkpoint (message : String)
  | approval (message : String)
  | writeExecution (message : String)
  | schema (path message : String)
  | integrity (message : String)
  | arithmetic (message : String)
  | lookup (message : String)
  /-- `UnknownToolContractError` and `IncompatibleToolVersionError`, `KeyError`s -/
  | toolContract (message : String)
  | type (message : String)
  | value (message : String)
  | attribute (message : String)
  | timeout
  /-- any other subclass of `Exception` -/
  | other (message : String)
  /-- `CancelledError`, no subclass of `Exception`; `byTimeout` is the one a timeout of the caller's own sends -/
  | cancelled (byTimeout : Bool)
  /-- `KeyboardInterrupt`, `SystemExit`: no subclass of `Exception` -/
  | exit
  deriving DecidableEq, Repr

/-- What `except Exception` catches. -/
def Exn.isException : Exn → Bool
  | .cancelled _ | .exit => false
  | _                    => true

def Exn.message : Exn → String
  | .authorization m _ | .permission m | .toolExecution _ m | .limitExceeded m | .immutableBinding m
  | .runtimeContract m | .money m | .builtin m | .checkEvaluation m | .checkpoint m | .approval m
  | .writeExecution m | .integrity m | .arithmetic m | .lookup m | .toolContract m | .type m | .value m
  | .attribute m | .other m                  => m
  | .schema path m                           => path ++ ": " ++ m
  | .expressionEvaluation nodeId _ m         => m ++ " at " ++ nodeId
  | .timeout | .cancelled _ | .exit          => ""

/-! ## Enumerations -/

/-- A `StrEnum`: each member is its own text. -/
class StrEnum (α : Type) where
  members  : List α
  value    : α → String
  complete : ∀ a, a ∈ members
  distinct : ∀ a b, value a = value b → a = b

namespace StrEnum

variable {α : Type} [StrEnum α]

/-- `Enum(text)`, or none for its `ValueError`. -/
def ofValue? (text : String) : Option α := members.find? (fun a => value a = text)

theorem ofValue?_value (a : α) : ofValue? (value a) = some a := by
  cases h : ofValue? (α := α) (value a) with
  | none =>
    have := List.find?_eq_none.1 h a (complete a)
    simp at this
  | some b =>
    have hb : value b = value a := by simpa using List.find?_some h
    rw [distinct b a hb]

theorem value_of_ofValue? {text : String} {a : α} (h : ofValue? text = some a) : value a = text := by
  simpa using List.find?_some h

end StrEnum

inductive Presence | present | empty
  deriving DecidableEq, Repr

instance : StrEnum Presence where
  members  := [.present, .empty]
  value    := fun | .present => "PRESENT" | .empty => "EMPTY"
  complete := by intro a; cases a <;> decide
  distinct := by intro a b; cases a <;> cases b <;> decide

inductive Completeness | complete | partly | unknown
  deriving DecidableEq, Repr

instance : StrEnum Completeness where
  members  := [.complete, .partly, .unknown]
  value    := fun | .complete => "COMPLETE" | .partly => "PARTIAL" | .unknown => "UNKNOWN"
  complete := by intro a; cases a <;> decide
  distinct := by intro a b; cases a <;> cases b <;> decide

inductive CheckStatus | pass | fail | unknown
  deriving DecidableEq, Repr

instance : StrEnum CheckStatus where
  members  := [.pass, .fail, .unknown]
  value    := fun | .pass => "PASS" | .fail => "FAIL" | .unknown => "UNKNOWN"
  complete := by intro a; cases a <;> decide
  distinct := by intro a b; cases a <;> cases b <;> decide

inductive ExecutionStatus
  | created | running | completed | failed | toolError | validationError | limitExceeded | cancelled
  | waitingForApproval | reconciliationRequired
  deriving DecidableEq, Repr

instance : StrEnum ExecutionStatus where
  members  := [.created, .running, .completed, .failed, .toolError, .validationError, .limitExceeded, .cancelled,
               .waitingForApproval, .reconciliationRequired]
  value
    | .created                => "CREATED"
    | .running                => "RUNNING"
    | .completed              => "COMPLETED"
    | .failed                 => "FAILED"
    | .toolError              => "TOOL_ERROR"
    | .validationError        => "VALIDATION_ERROR"
    | .limitExceeded          => "LIMIT_EXCEEDED"
    | .cancelled              => "CANCELLED"
    | .waitingForApproval     => "WAITING_FOR_APPROVAL"
    | .reconciliationRequired => "RECONCILIATION_REQUIRED"
  complete := by intro a; cases a <;> decide
  distinct := by intro a b; cases a <;> cases b <;> decide

inductive ToolCapability | read | write | transaction
  deriving DecidableEq, Repr

instance : StrEnum ToolCapability where
  members  := [.read, .write, .transaction]
  value    := fun | .read => "READ" | .write => "WRITE" | .transaction => "TRANSACTION"
  complete := by intro a; cases a <;> decide
  distinct := by intro a b; cases a <;> cases b <;> decide

inductive RiskLevel | r0 | r1 | r2 | r3 | r4 | r5
  deriving DecidableEq, Repr

instance : StrEnum RiskLevel where
  members  := [.r0, .r1, .r2, .r3, .r4, .r5]
  value    := fun | .r0 => "R0" | .r1 => "R1" | .r2 => "R2" | .r3 => "R3" | .r4 => "R4" | .r5 => "R5"
  complete := by intro a; cases a <;> decide
  distinct := by intro a b; cases a <;> cases b <;> decide

inductive ApprovalStatus | notRequested | pending | approved | rejected | expired
  deriving DecidableEq, Repr

instance : StrEnum ApprovalStatus where
  members  := [.notRequested, .pending, .approved, .rejected, .expired]
  value
    | .notRequested => "NOT_REQUESTED"
    | .pending      => "PENDING"
    | .approved     => "APPROVED"
    | .rejected     => "REJECTED"
    | .expired      => "EXPIRED"
  complete := by intro a; cases a <;> decide
  distinct := by intro a b; cases a <;> cases b <;> decide

inductive PreWriteEligibility | allowed | blocked | requiresApproval
  deriving DecidableEq, Repr

instance : StrEnum PreWriteEligibility where
  members  := [.allowed, .blocked, .requiresApproval]
  value    := fun | .allowed => "ALLOWED" | .blocked => "BLOCKED" | .requiresApproval => "REQUIRES_APPROVAL"
  complete := by intro a; cases a <;> decide
  distinct := by intro a b; cases a <;> cases b <;> decide

inductive CommitState | committed | notCommitted | unknownCommitState
  deriving DecidableEq, Repr

instance : StrEnum CommitState where
  members  := [.committed, .notCommitted, .unknownCommitState]
  value
    | .committed          => "COMMITTED"
    | .notCommitted       => "NOT_COMMITTED"
    | .unknownCommitState => "UNKNOWN_COMMIT_STATE"
  complete := by intro a; cases a <;> decide
  distinct := by intro a b; cases a <;> cases b <;> decide

inductive VerificationStatus | notRequested | verified | failed | unknown
  deriving DecidableEq, Repr

instance : StrEnum VerificationStatus where
  members  := [.notRequested, .verified, .failed, .unknown]
  value    := fun | .notRequested => "NOT_REQUESTED" | .verified => "VERIFIED" | .failed => "FAILED" | .unknown => "UNKNOWN"
  complete := by intro a; cases a <;> decide
  distinct := by intro a b; cases a <;> cases b <;> decide

inductive DataClassification | publicData | internal | confidential | restricted
  deriving DecidableEq, Repr

instance : StrEnum DataClassification where
  members  := [.publicData, .internal, .confidential, .restricted]
  value
    | .publicData   => "PUBLIC"
    | .internal     => "INTERNAL"
    | .confidential => "CONFIDENTIAL"
    | .restricted   => "RESTRICTED"
  complete := by intro a; cases a <;> decide
  distinct := by intro a b; cases a <;> cases b <;> decide

namespace DataClassification

/-- `_CLASSIFICATION_RANK` -/
def rank : DataClassification → Nat
  | .publicData   => 0
  | .internal     => 1
  | .confidential => 2
  | .restricted   => 3

/-- `highest_classification` of two: the first where the ranks agree. -/
def highest (a b : DataClassification) : DataClassification := if a.rank < b.rank then b else a

/-- `classification_allows(actual, maximum)` -/
def allows (actual maximum : DataClassification) : Bool := actual.rank ≤ maximum.rank

end DataClassification

/-! ## Money -/

/-- What `_require_currency_code` lets pass. -/
def isCurrencyCode (currency : String) : Bool :=
  currency.toList.length = 3 && currency.toList.all (fun c => 'A' ≤ c && c ≤ 'Z')

structure Money where
  amount   : Decimal
  currency : String
  finite   : amount.isFinite = true
  code     : isCurrencyCode currency = true
  deriving DecidableEq

/-- `Money(amount, currency)` with `__post_init__`. -/
def Money.make (amount : Decimal) (currency : String) : Except Exn Money :=
  if hf : amount.isFinite = true then
    if hc : isCurrencyCode currency = true then .ok ⟨amount, currency, hf, hc⟩
    else if currency = "" then .error (.money "currency is required")
    else .error (.money "currency must be a 3-letter uppercase ISO 4217 code")
  else .error (.money "Money amount must be a finite Decimal")

/-! ## Types -/

/-- A type of values. A money type has a currency code (`__post_init__`). -/
structure TypeRef where
  kind       : String
  name       : Option String
  currency   : Option String
  item       : Option TypeRef
  fields     : List (String × TypeRef)
  enumValues : List String
  money      : kind = "money" → ∃ c, currency = some c ∧ isCurrencyCode c = true

namespace TypeRef

mutual
/-- Equality of types, field by field. -/
def dec : (t u : TypeRef) → Decidable (t = u)
  | ⟨k, n, c, i, fs, es, m⟩, ⟨k', n', c', i', fs', es', m'⟩ =>
    have := decItem i i'
    have := decFields fs fs'
    decidable_of_iff (k = k' ∧ n = n' ∧ c = c' ∧ i = i' ∧ fs = fs' ∧ es = es') (by simp)
def decItem : (i j : Option TypeRef) → Decidable (i = j)
  | none,   none   => .isTrue rfl
  | none,   some _ => .isFalse (by simp)
  | some _, none   => .isFalse (by simp)
  | some t, some u =>
    have := dec t u
    decidable_of_iff (t = u) (by simp)
def decFields : (fs gs : List (String × TypeRef)) → Decidable (fs = gs)
  | [],           []           => .isTrue rfl
  | [],           _ :: _       => .isFalse (by simp)
  | _ :: _,       []           => .isFalse (by simp)
  | (n, t) :: fs, (m, u) :: gs =>
    have := dec t u
    have := decFields fs gs
    decidable_of_iff (n = m ∧ t = u ∧ fs = gs) (by simp [and_assoc])
end

instance : DecidableEq TypeRef := dec

end TypeRef

def primitive (name : String) : TypeRef := ⟨"primitive", some name, none, none, [], [], by simp⟩

def domain (name : String) : TypeRef := ⟨"domain", some name, none, none, [], [], by simp⟩

def listType (item : TypeRef) : TypeRef := ⟨"list", none, none, some item, [], [], by simp⟩

def recordType (name : String) (fields : List (String × TypeRef)) : TypeRef :=
  ⟨"record", some name, none, none, fields, [], by simp⟩

def enumType (name : String) (values : List String) : TypeRef := ⟨"enum", some name, none, none, [], values, by simp⟩

/-- `money_type(currency)` -/
def moneyType (currency : String) (code : isCurrencyCode currency = true) : TypeRef :=
  ⟨"money", none, some currency, none, [], [], fun _ => ⟨currency, rfl, code⟩⟩

def BOOL     : TypeRef := primitive "Bool"
def INT      : TypeRef := primitive "Int"
def STRING   : TypeRef := primitive "String"
def DECIMAL  : TypeRef := primitive "Decimal"
def DATE     : TypeRef := primitive "Date"
def DATETIME : TypeRef := primitive "DateTime"
def YEAR     : TypeRef := primitive "Year"

def CHECK_STATUS : TypeRef := enumType "CheckStatus" ["PASS", "FAIL", "UNKNOWN"]
def CHECK_RESULT : TypeRef := recordType "CheckResult" [("status", CHECK_STATUS)]

end Nsl
