import Nsl.Ir
/-!
# Bounds — the static count of what a block can do

`bounds.py`: each expression counts its tool calls, each block adds up tool calls, loop iterations and emitted records,
and a loop multiplies its body by its declared maximum. A loop without a positive maximum is refused.
-/
namespace Nsl

/-- Tool calls, loop iterations, emitted records. -/
abbrev Counts := Nat × Nat × Nat

mutual
/-- `_expression_tool_calls` -/
def expressionToolCalls : Expression → Nat
  | .literal .. | .symbolRef ..      => 0
  | .field _ e _ _ | .project _ e _ _ => expressionToolCalls e
  | .call _ _ as _                   => itemsToolCalls as
  | .binary _ _ l r _                => expressionToolCalls l + expressionToolCalls r
  | .read _ _ as _ _ | .write _ _ as _ _ => 1 + argumentsToolCalls as
def itemsToolCalls : List Expression → Nat
  | []      => 0
  | e :: es => expressionToolCalls e + itemsToolCalls es
def argumentsToolCalls : List (String × Expression) → Nat
  | []           => 0
  | (_, e) :: es => expressionToolCalls e + argumentsToolCalls es
end

mutual
/-- One statement's share of `_analyze_block`. -/
def analyzeStatement : Statement → Except Exn Counts
  | .letBind s  => .ok (expressionToolCalls s.value, 0, 0)
  | .check s    => .ok (expressionToolCalls s.condition, 0, 0)
  | .emit s     => .ok (argumentsToolCalls s.fields, 0, 1)
  | .approval _ => .ok (0, 0, 0)
  | .foreach nodeId _ collection maxIterations body =>
    if 0 < maxIterations then
      (analyzeBlock body).map (fun b =>
        (expressionToolCalls collection + maxIterations.toNat * b.1, maxIterations.toNat * (1 + b.2.1),
          maxIterations.toNat * b.2.2))
    else .error (.value ("foreach " ++ nodeId ++ " requires a positive static max"))
/-- `_analyze_block` -/
def analyzeBlock : List Statement → Except Exn Counts
  | []      => .ok (0, 0, 0)
  | s :: ss => do return (← analyzeStatement s) + (← analyzeBlock ss)
end

/-- `StaticBoundAnalyzer.analyze` -/
def analyze (statements : List Statement) : Except Exn StaticAnalysis :=
  (analyzeBlock statements).map (fun b => ⟨b.1, b.2.1, b.2.2, true⟩)

/-- The counts of an accepted block are those of its first statement and of the rest. -/
theorem analyzeBlock_cons {s : Statement} {ss : List Statement} {b : Counts} (h : analyzeBlock (s :: ss) = .ok b) :
    ∃ c d, analyzeStatement s = .ok c ∧ analyzeBlock ss = .ok d ∧ b = c + d := by
  unfold analyzeBlock at h
  cases hc : analyzeStatement s with
  | error e => rw [hc] at h; cases h
  | ok c =>
    cases hd : analyzeBlock ss with
    | error e => rw [hc, hd] at h; cases h
    | ok d =>
      rw [hc, hd] at h
      cases h
      exact ⟨c, d, rfl, rfl, rfl⟩

/-- An accepted loop has a positive maximum and an accepted body. -/
theorem analyzeStatement_foreach {n i : String} {c : Expression} {m : Int} {body : List Statement} {b : Counts}
    (h : analyzeStatement (.foreach n i c m body) = .ok b) :
    0 < m ∧ ∃ d, analyzeBlock body = .ok d ∧
      b = (expressionToolCalls c + m.toNat * d.1, m.toNat * (1 + d.2.1), m.toNat * d.2.2) := by
  unfold analyzeStatement at h
  by_cases hm : 0 < m
  · rw [if_pos hm] at h
    cases hd : analyzeBlock body with
    | error e => rw [hd] at h; cases h
    | ok d =>
      rw [hd] at h
      cases h
      exact ⟨hm, d, rfl, rfl⟩
  · rw [if_neg hm] at h
    cases h

end Nsl
