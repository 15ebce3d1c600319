import Nsl.EngineReturns
/-!
# Raises — the pure parts of the interpreter raise nothing but an `Exception`

A cancellation or an interpreter exit reaches the interpreter through its port only: every pure function it calls is
`Mild`.
-/
namespace Nsl

/-- Nothing but an `Exception` is raised. -/
def Mild {α : Type} (x : Except Exn α) : Prop := ∀ e, x = .error e → e.isException = true

namespace Mild

variable {α β : Type}

theorem ok (a : α) : Mild (.ok a) := fun _ h => by cases h

theorem error {e : Exn} (h : e.isException = true) : Mild (.error e : Except Exn α) := fun e' h' => by
  cases h'
  exact h

theorem bind {x : Except Exn α} {f : α → Except Exn β} (hx : Mild x) (hf : ∀ a, Mild (f a)) : Mild (x >>= f) := by
  cases x with
  | ok a    => exact hf a
  | error e => exact error (hx e rfl)

theorem map {x : Except Exn α} (hx : Mild x) (f : α → β) : Mild (x.map f) := by
  cases x with
  | ok a    => exact ok (f a)
  | error e => exact error (hx e rfl)

theorem foldlM {f : β → α → Except Exn β} (hf : ∀ b a, Mild (f b a)) : ∀ (xs : List α) (b : β), Mild (xs.foldlM f b)
  | [], b      => ok b
  | x :: xs, b => by
    rw [List.foldlM_cons]
    exact (hf b x).bind (fun b' => foldlM hf xs b')

theorem mapM {f : α → Except Exn β} (hf : ∀ a, Mild (f a)) : ∀ (xs : List α), Mild (xs.mapM f)
  | []      => ok []
  | x :: xs => by
    rw [List.mapM_cons]
    exact (hf x).bind (fun _ => (mapM hf xs).bind (fun _ => ok _))

theorem forM {f : α → Except Exn PUnit} (hf : ∀ a, Mild (f a)) : ∀ (xs : List α), Mild (xs.forM f)
  | []      => ok _
  | x :: xs => by
    exact (hf x).bind (fun _ => forM hf xs)

/-- A check, and what is done where it lets pass. -/
theorem guard {c : Prop} [Decidable c] {e : Exn} (h : e.isException = true) {k : PUnit → Except Exn α}
    (hk : Mild (k ⟨⟩)) : Mild (if c then throw e >>= k else k ⟨⟩) := by
  split
  · exact error h
  · exact hk

end Mild

mutual
theorem toJson_mild : ∀ (v : Value), Mild (toJson v)
  | .null | .bool _ | .int _ | .float _ | .str _ => .ok _
  | .list items                                  => (toJsonItems_mild items).map _
  | .tuple items                                 => (toJsonItems_mild items).map _
  | .dict items                                  => (toJsonFields_mild items).map _
  | .decimal _ | .money _ | .date _ | .datetime _ | .foreign _ => .error rfl
theorem toJsonItems_mild : ∀ (vs : List Value), Mild (toJsonItems vs)
  | []      => .ok _
  | v :: vs => (toJson_mild v).bind (fun _ => (toJsonItems_mild vs).bind (fun _ => .ok _))
theorem toJsonFields_mild : ∀ (vs : List (String × Value)), Mild (toJsonFields vs)
  | []           => .ok _
  | (_, v) :: vs => (toJson_mild v).bind (fun _ => (toJsonFields_mild vs).bind (fun _ => .ok _))
end

theorem canonicalJson_mild (v : Value) : Mild (canonicalJson v) := (toJson_mild v).map _

theorem item_mild (v : Value) (field : String) : Mild (v.item field) := by
  unfold Value.item
  repeat' split
  all_goals first | exact .ok _ | exact .error rfl

theorem iterate_mild (v : Value) : Mild v.iterate := by
  unfold Value.iterate
  split <;> first | exact .ok _ | exact .error rfl

theorem len_mild (v : Value) : Mild v.len := by
  unfold Value.len
  split <;> first | exact .ok _ | exact .error rfl

theorem valueAt_mild (context : Dict Value) (path : List String) : Mild (valueAt context path) :=
  Mild.foldlM (fun v part => item_mild v part) path _

theorem setPath_mild (value : Value) : ∀ (path : List String) (target : List (String × Value)),
    Mild (setPath value path target)
  | [], _                     => .error rfl
  | [_], _                    => .ok _
  | part :: p :: path, target => by
    unfold setPath
    split
    · exact (setPath_mild value (p :: path) _).map _
    · exact .error rfl

theorem projectDeclaredContext_mild (skill : SkillObject) (context : Dict Value) :
    Mild (projectDeclaredContext skill context) := by
  refine Mild.foldlM (fun projected spec => ?_) _ _
  split
  · exact setPath_mild _ _ _
  · exact .ok _

/-! ## Values, types and expressions -/

theorem catalogResolve_mild (catalog : ToolContractCatalog) (toolId version : String) :
    Mild (catalog.resolve toolId version) := by
  unfold ToolContractCatalog.resolve
  repeat' split
  all_goals first | exact .ok _ | exact .error rfl

theorem resolveBuiltin_mild (name : String) (types : List (Option TypeRef)) : Mild (resolveBuiltin name types) := by
  unfold resolveBuiltin
  repeat' split
  all_goals first | exact .ok _ | exact .error rfl

theorem moneyMake_mild (amount : Decimal) (currency : String) : Mild (Money.make amount currency) := by
  unfold Money.make
  repeat' split
  all_goals first | exact .ok _ | exact .error rfl

theorem sumMoney_mild (ops : Operators) (values : Value) (currency : String) : Mild (sumMoney ops values currency) := by
  refine (moneyMake_mild _ _).bind (fun zero => (iterate_mild _).bind (fun items => Mild.foldlM (fun total v => ?_) _ _))
  split
  · exact ops.exceptions _ _ _
  · exact .error rfl

theorem extremum_mild (ops : Operators) (beyond : String) (values : Value) : Mild (extremum ops beyond values) := by
  refine (iterate_mild _).bind (fun items => ?_)
  split
  · exact .error rfl
  · exact Mild.foldlM (fun best w => Mild.bind (ops.exceptions _ _ _) (fun _ => .ok _)) _ _

theorem aggregate_mild (ops : Operators) (name : String) (values : Value) (expected : TypeRef) :
    Mild (aggregate ops name values expected) := by
  have hsum : ∀ start, Mild (do (← values.iterate).foldlM (fun total v => ops.apply "ADD" total v) start) := fun start =>
    (iterate_mild _).bind (fun items => Mild.foldlM (fun total v => ops.exceptions _ _ _) _ _)
  unfold aggregate
  split
  · exact Mild.map ((len_mild _).bind (fun _ => .ok _)) _
  · split
    · exact extremum_mild ops _ _
    · split
      · exact extremum_mild ops _ _
      · exact hsum _

theorem evaluateBuiltin_mild (ops : Operators) (name : String) (arguments : List ValueEnvelope) (expected : TypeRef) :
    Mild (evaluateBuiltin ops name arguments expected) := by
  unfold evaluateBuiltin
  refine (resolveBuiltin_mild _ _).bind (fun resultType => Mild.guard rfl (Mild.guard rfl ?_))
  split
  · exact sumMoney_mild ops _ _
  · split
    · exact .error rfl
    · exact aggregate_mild ops _ _ _

theorem fieldValue_mild (field : String) (t : TypeRef) (source : ValueEnvelope) : Mild (fieldValue field t source) :=
  (item_mild _ _).bind (fun _ => .ok _)

theorem projectValue_mild (field : String) (t : TypeRef) (source : ValueEnvelope) : Mild (projectValue field t source) :=
  (iterate_mild _).bind (fun _ => (Mild.mapM (fun v => item_mild v field) _).bind (fun _ => .ok _))

theorem validateRuntimeType_mild (value : Value) (t : TypeRef) (name : String) :
    Mild (validateRuntimeType value t name) := by
  have hif : ∀ valid : Bool, Mild (if valid then (.ok () : Except Exn Unit)
      else .error (.runtimeContract ("runtime type mismatch for " ++ name))) := by
    intro valid
    cases valid with
    | true  => exact .ok _
    | false => exact .error rfl
  exact hif _

theorem evaluateCheck_mild (s : CheckStatement) (predicate : ValueEnvelope) :
    Mild (match evaluateCheck s predicate with
      | .error (.checkEvaluation m) => .error (.runtimeContract m)
      | other                       => other) := by
  have hcheck : Mild (evaluateCheck s predicate) := by
    unfold evaluateCheck
    repeat' split
    all_goals first | exact .ok _ | exact .error rfl
  split
  · exact .error rfl
  · exact hcheck

theorem emitRecord_mild (outputs : List OutputField) (values : List (String × ValueEnvelope)) :
    Mild (emitRecord outputs values) := by
  unfold emitRecord
  split
  · exact .error rfl
  · exact .ok _

theorem applyOperator_mild (env : Env) (operator : String) (t : TypeRef) (l r : Value) :
    Mild (applyOperator env.operators operator t l r) := by
  unfold applyOperator
  repeat' split
  · exact env.operators.exceptions _ _ _
  · exact env.operators.exceptions _ _ _
  · exact .error rfl

theorem binaryValue_mild (env : Env) (operator : String) (t : TypeRef) (l r : ValueEnvelope) :
    Mild (binaryValue env operator t l r) := (applyOperator_mild env _ _ _ _).bind (fun _ => .ok _)

theorem callValue_mild (env : Env) (function : String) (t : TypeRef) (arguments : List ValueEnvelope) :
    Mild (callValue env function t arguments) := by
  unfold callValue
  split
  · exact .error rfl
  · rename_i e _ he
    exact .error (evaluateBuiltin_mild _ _ _ _ e he)
  · split
    · exact .error rfl
    · exact .ok _

theorem measurementCheck_mild (m : ToolExecutionMeasurement) : Mild m.check := by
  unfold ToolExecutionMeasurement.check
  split
  · exact .error rfl
  · exact .ok _

theorem validateResult_mild (result : ToolResultEnvelope) (contract : ToolContract) :
    Mild (validateResult result contract) := by
  unfold validateResult
  repeat' split
  all_goals first | exact .ok _ | exact .error rfl

/-! ## Hashes, authorization and tools -/

theorem evaluationError_isException {e : Expression} {error : Exn} (h : error.isException = true) :
    (evaluationError e error).isException = true := by
  unfold evaluationError
  repeat' split
  · exact h
  · rfl
  · exact h

section Raises

variable [Platform]

theorem contextResolve_mild (ctx : Context) (symbolId : String) : Mild (ctx.resolve symbolId) := by
  unfold Context.resolve
  split
  · exact .ok _
  · exact .error rfl

theorem valueHash_mild (v : Value) : Mild (valueHash v) := (canonicalJson_mild _).map _

theorem authorize_mild (a : StaticAuthorizer) (p : ExecutionPrincipal) (action : String) (scopes : List String) :
    Mild (a.authorize p action scopes) := fun e h => by
  obtain ⟨m, ref, rfl⟩ := StaticAuthorizer.authorize_error h
  rfl

theorem preflightTool_mild (env : Env) (r : RequiredTool) : Mild (preflightTool env false r) := by
  unfold preflightTool
  refine Mild.bind ?_ (fun contract => Mild.guard rfl ?_)
  · split
    · exact .error rfl
    · exact catalogResolve_mild _ _ _
  · split
    · exact .error rfl
    · exact .ok _

theorem preflight_mild (env : Env) (skill : SkillObject) : Mild (preflight env skill false) := by
  unfold preflight
  split
  · exact .error rfl
  · refine Mild.guard rfl ((Mild.map (canonicalJson_mild _) _).bind (fun hash => Mild.guard rfl (Mild.guard rfl
      (Mild.guard rfl ?_))))
    exact Mild.forM (fun r => preflightTool_mild env r) _

theorem resolveRead_mild (env : Env) (ctx : Context) (toolRef : String) (names : List String) :
    Mild (resolveRead env ctx toolRef names) := by
  unfold resolveRead
  split
  · exact .error rfl
  · refine (catalogResolve_mild _ _ _).bind (fun contract => ?_)
    refine Mild.guard rfl ?_
    split
    · exact .error rfl
    · exact (authorize_mild _ _ _ _).bind (fun _ => .ok _)

omit [Platform] in
theorem argumentsConform_mild (request : ToolCallRequest) (types : List (String × TypeRef)) :
    Mild (argumentsConform request types) := by
  induction types with
  | nil             => exact .ok _
  | cons named _ ih =>
    unfold argumentsConform
    split
    · split
      · exact ih
      · exact .error rfl
    · exact .error rfl

theorem validateRequest_mild (request : ToolCallRequest) (contract : ToolContract) :
    Mild (validateRequest request contract) := by
  unfold validateRequest
  repeat' split
  · exact .error rfl
  · exact .error rfl
  · exact argumentsConform_mild _ _

omit [Platform] in
theorem validateResultStructure_mild {answer : PortAnswer} (h : ∀ e, answer = .raises e → e.isException = true)
    (request : ToolCallRequest) : Mild (validateResultStructure answer request) := by
  unfold validateResultStructure
  split
  · rename_i e
    exact .error (h e rfl)
  · exact .error rfl
  · split
    · exact .error rfl
    · split
      · split
        · exact .error rfl
        · exact .ok _
      · exact .error rfl

theorem validateResultHash_mild (result : ToolResultEnvelope) : Mild (validateResultHash result) := by
  unfold validateResultHash
  split
  · rename_i e he
    exact .error ((canonicalJson_mild _).map _ e he)
  · split
    · exact .ok _
    · exact .error rfl

theorem nextEvent_mild (r : Recorder) (w : World) (eventType : String) (payload : Value) (c : DataClassification)
    (ref : Option SnapshotRef) (metadata : Value) : Mild (nextEvent r w eventType payload c ref metadata) := by
  have hbase : Mild (redactedPayload r.policy payload c metadata) := by
    unfold redactedPayload
    split
    · exact .ok _
    · exact (valueHash_mild _).map _
  exact (hbase.map _).bind (fun _ => (valueHash_mild _).bind (fun _ => .ok _))

theorem resultOf_mild (ctx : Context) (status : ExecutionStatus) (error : Option RuntimeErrorInfo) :
    Mild (resultOf ctx status error) := fun e h => by
  obtain ⟨m, rfl⟩ := resultOf_error h
  rfl

end Raises
end Nsl
