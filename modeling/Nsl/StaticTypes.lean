import Nsl.Runtime
import Nsl.Symbols
/-!
# StaticTypes — the type rules of the compiler

`StaticTypeChecker` (`type_system.py`): the type of a field, of a call and of a binary operator, or the diagnostic that
refuses it. Calls take their rule from the built-in registry that the interpreter uses.
-/
namespace Nsl

/-- `TypeRef.field`: of two fields of one name the first counts. -/
def TypeRef.field? (t : TypeRef) (name : String) : Option TypeRef := t.fields.lookup name

/-- `require_exact` -/
def requireExact (actual expected : TypeRef) (code : DiagnosticCode) (message : String) : Except CompileFailure Unit :=
  if actual ≠ expected then .error (.diagnostic code message) else .ok ()

/-- `require_bool` -/
def requireBool (actual : TypeRef) : Except CompileFailure Unit :=
  requireExact actual BOOL .semCheckConditionType "CHECK assert must have Bool type"

/-- The item type of a list type. -/
def TypeRef.listItem? (t : TypeRef) : Option TypeRef := if t.kind = "list" then t.item else none

/-- `require_list` -/
def requireList (actual : TypeRef) (code : DiagnosticCode) (message : String) : Except CompileFailure TypeRef :=
  match actual.listItem? with
  | some item => .ok item
  | none      => .error (.diagnostic code message)

/-- `field_result`: the type of a field, and whether it is taken of each item of a list. -/
def fieldResult (source : TypeRef) (field : String) : Except CompileFailure (TypeRef × Bool) :=
  let unknown : CompileFailure := .diagnostic .semUnknownField ("type " ++ source.kind ++ " has no field " ++ field)
  match source.listItem? with
  | some item =>
    match item.field? field with
    | some t => .ok (listType t, true)
    | none   => .error unknown
  | none =>
    match source.field? field with
    | some t => if source.kind = "record" then .ok (t, false) else .error unknown
    | none   => .error unknown

/-- `builtin_result` -/
def builtinResult (name : String) (argumentTypes : List TypeRef) : Except CompileFailure TypeRef :=
  match resolveBuiltin name (argumentTypes.map some) with
  | .ok t    => .ok t
  | .error e => .error (.diagnostic (if name = "sum" then .semSumArgumentType else .semUnsupportedBuiltin) e.message)

def comparisons : List String := ["<", "<=", ">", ">="]

def arithmetic : List String := ["+", "-", "*", "/"]

/-- The type of an operator on two operands of one type. -/
def operatorType (operator : String) (operand : TypeRef) : Option TypeRef :=
  if operator = "==" ∨ operator = "!=" then some BOOL
  else if operator ∈ comparisons then
    if operand = INT ∨ operand = DECIMAL ∨ operand.kind = "money" then some BOOL else none
  else if operator ∈ arithmetic then
    if operand = INT then some (if operator = "/" then DECIMAL else INT)
    else if operand = DECIMAL then some DECIMAL
    else if operand.kind = "money" ∧ (operator = "+" ∨ operator = "-") then some operand
    else none
  else none

/-- `left.name or left.kind` -/
def TypeRef.spoken (t : TypeRef) : String := if t.name.getD "" = "" then t.kind else t.name.getD ""

/-- `binary_result` -/
def binaryResult (operator : String) (left right : TypeRef) : Except CompileFailure TypeRef := do
  requireExact left right .semBinaryType ("binary type mismatch for " ++ operator)
  match operatorType operator left with
  | some t => .ok t
  | none   => .error (.diagnostic .semBinaryType ("operator " ++ operator ++ " is not defined for " ++ left.spoken))

/-! ## What they let through -/

theorem requireExact_ok {actual expected : TypeRef} {code : DiagnosticCode} {message : String}
    (h : requireExact actual expected code message = .ok ()) : actual = expected := by
  unfold requireExact at h
  by_cases heq : actual = expected
  · exact heq
  · rw [if_pos heq] at h
    cases h

theorem requireList_ok {actual item : TypeRef} {code : DiagnosticCode} {message : String}
    (h : requireList actual code message = .ok item) : actual.kind = "list" ∧ actual.item = some item := by
  unfold requireList TypeRef.listItem? at h
  by_cases hkind : actual.kind = "list"
  · rw [if_pos hkind] at h
    cases hitem : actual.item with
    | none   => rw [hitem] at h; cases h
    | some t =>
      rw [hitem] at h
      cases h
      exact ⟨hkind, rfl⟩
  · rw [if_neg hkind] at h
    cases h

/-- A field of each item of a list, or the field of a record. -/
theorem fieldResult_ok {source t : TypeRef} {field : String} {projected : Bool}
    (h : fieldResult source field = .ok (t, projected)) :
    (projected = true ∧ source.kind = "list" ∧ ∃ item t', source.item = some item ∧ item.field? field = some t' ∧
        t = listType t') ∨
      (projected = false ∧ source.kind = "record" ∧ source.field? field = some t) := by
  unfold fieldResult at h
  cases hitem : source.listItem? with
  | some item =>
    rw [hitem] at h
    have hlist : source.kind = "list" ∧ source.item = some item := by
      unfold TypeRef.listItem? at hitem
      by_cases hkind : source.kind = "list"
      · exact ⟨hkind, by rwa [if_pos hkind] at hitem⟩
      · rw [if_neg hkind] at hitem
        cases hitem
    cases hfield : item.field? field with
    | none    => simp only [hfield] at h; cases h
    | some t' =>
      simp only [hfield] at h
      cases h
      exact Or.inl ⟨rfl, hlist.1, item, t', hlist.2, hfield, rfl⟩
  | none =>
    rw [hitem] at h
    cases hfield : source.field? field with
    | none    => simp only [hfield] at h; cases h
    | some t' =>
      simp only [hfield] at h
      by_cases hkind : source.kind = "record"
      · rw [if_pos hkind] at h
        cases h
        exact Or.inr ⟨rfl, hkind, rfl⟩
      · rw [if_neg hkind] at h
        cases h

theorem builtinResult_ok {name : String} {argumentTypes : List TypeRef} {t : TypeRef}
    (h : builtinResult name argumentTypes = .ok t) : resolveBuiltin name (argumentTypes.map some) = .ok t := by
  unfold builtinResult at h
  cases hr : resolveBuiltin name (argumentTypes.map some) with
  | error e => rw [hr] at h; cases h
  | ok t'   => rw [hr] at h; cases h; rfl

/-- A call that has a type has one argument, a list. -/
theorem resolveBuiltin_ok {name : String} {argumentTypes : List (Option TypeRef)} {t : TypeRef}
    (h : resolveBuiltin name argumentTypes = .ok t) : ∃ u item, argumentTypes = [some u] ∧ u.kind = "list" ∧
      u.item = some item ∧ name ∈ ["count", "max", "min", "sum"] ∧
      (name = "sum" → item = INT ∨ item = DECIMAL ∨ item.kind = "money") ∧
      t = if name = "count" then INT else item := by
  unfold resolveBuiltin at h
  split at h
  · cases h
  rename_i hname
  split at h
  · rename_i u
    split at h
    · cases h
    rename_i item hitem
    split at h
    · cases h
    rename_i hkind
    split at h
    · cases h
    rename_i hsum
    cases h
    refine ⟨u, item, rfl, not_not.1 hkind, hitem, not_not.1 hname, fun hs => ?_, rfl⟩
    by_contra hcon
    rw [not_or, not_or] at hcon
    exact hsum ⟨hs, hcon.1, hcon.2.1, hcon.2.2⟩
  · cases h
  · cases h

theorem binaryResult_ok {operator : String} {left right t : TypeRef} (h : binaryResult operator left right = .ok t) :
    left = right ∧ operatorType operator left = some t := by
  unfold binaryResult at h
  cases hexact : requireExact left right .semBinaryType ("binary type mismatch for " ++ operator) with
  | error e => rw [hexact] at h; cases h
  | ok u =>
    rw [hexact] at h
    refine ⟨requireExact_ok hexact, ?_⟩
    cases ht : operatorType operator left with
    | none    => simp only [ht] at h; cases h
    | some t' => simp only [ht] at h; cases h; rfl

end Nsl
