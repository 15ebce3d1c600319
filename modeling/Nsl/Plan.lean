import Nsl.Ir
/-!
# Plan — the partition of a skill around its approved WRITE

`ControlledExecutionPlan` (`runtime.py`). A controlled execution runs the statements before the approval, performs the
WRITE and runs the statements after it. What stands between the approval and the WRITE is in neither part.
-/
namespace Nsl

/-- `WriteExpression` -/
structure WriteExpression where
  nodeId      : String
  toolRef     : String
  arguments   : List (String × Expression)
  approvalRef : String
  typeInfo    : TypeRef

def Expression.asWrite? : Expression → Option WriteExpression
  | .write n u es a t => some ⟨n, u, es, a, t⟩
  | _                 => none

/-- A `let` that binds the result of a WRITE. -/
structure WriteLet where
  statement : LetStatement
  write     : WriteExpression
  binds     : statement.value.asWrite? = some write

theorem WriteLet.isWrite (w : WriteLet) : w.statement.value.isWrite = true := by
  have hbinds := w.binds
  cases hv : w.statement.value with
  | write => rfl
  | _     => rw [hv] at hbinds; cases hbinds

/-- The WRITE of a `let`. -/
def LetStatement.asWrite? (s : LetStatement) : Option WriteLet :=
  match h : s.value.asWrite? with
  | some w => some ⟨s, w, h⟩
  | none   => none

theorem LetStatement.asWrite?_eq {s : LetStatement} {w : WriteLet} (h : s.asWrite? = some w) : s = w.statement := by
  unfold asWrite? at h
  split at h
  · cases h
    rfl
  · cases h

theorem LetStatement.asWrite?_of_isWrite {s : LetStatement} (h : s.value.isWrite = true) : s.asWrite? ≠ none := by
  intro hn
  unfold asWrite? at hn
  split at hn
  · cases hn
  · rename_i hv
    cases hs : s.value <;> rw [hs] at h hv
    case write => cases hv
    all_goals cases h

namespace Statement

def asApproval? : Statement → Option ApprovalStatement
  | .approval a => some a
  | _           => none

def asWrite? : Statement → Option WriteLet
  | .letBind s => s.asWrite?
  | _          => none

theorem asApproval?_eq {s : Statement} {a : ApprovalStatement} (h : s.asApproval? = some a) : s = .approval a := by
  cases s with
  | approval b => cases h; rfl
  | _          => cases h

theorem asWrite?_eq {s : Statement} {w : WriteLet} (h : s.asWrite? = some w) : s = .letBind w.statement := by
  cases s with
  | letBind l => rw [LetStatement.asWrite?_eq h]
  | _         => cases h

/-- Neither the approval nor the WRITE of a controlled execution. -/
def isPlain (s : Statement) : Bool := s.asApproval?.isNone && s.asWrite?.isNone

theorem isPlain_iff (s : Statement) : s.isPlain = true ↔ s.asApproval? = none ∧ s.asWrite? = none := by
  simp [isPlain]

theorem isPlain_letBind {s : LetStatement} (h : s.value.isWrite = true) : isPlain (.letBind s) = false := by
  have hw : asWrite? (.letBind s) ≠ none := LetStatement.asWrite?_of_isWrite h
  cases hp : isPlain (.letBind s) with
  | false => rfl
  | true  => exact absurd ((isPlain_iff _).1 hp).2 hw

end Statement

/-! ## The plan -/

/-- The places of a list where `f` finds something, counted from `n`. -/
def indexedFrom {α β : Type} (f : α → Option β) : Nat → List α → List (Nat × β)
  | _, []     => []
  | n, x :: l => (f x).toList.map (fun b => (n, b)) ++ indexedFrom f (n + 1) l

/-- `ControlledExecutionPlan`; `write` is its `write_expression`. -/
structure ControlledExecutionPlan where
  approval       : ApprovalStatement
  writeStatement : WriteLet
  prefixBlock    : List Statement
  suffixBlock    : List Statement

namespace ControlledExecutionPlan

/-- `write_expression` -/
def write (plan : ControlledExecutionPlan) : WriteExpression := plan.writeStatement.write

/-- `ControlledExecutionPlan.from_skill` -/
def fromSkill (skill : SkillObject) : Except Exn ControlledExecutionPlan :=
  if skill.isV02 then
    match indexedFrom Statement.asApproval? 0 skill.body, indexedFrom Statement.asWrite? 0 skill.body with
    | [(i, approval)], [(j, w)] =>
      if j ≤ i ∨ w.write.approvalRef ≠ approval.approvalId then
        .error (.runtimeContract "controlled execution Approval/WRITE binding is invalid")
      else .ok ⟨approval, w, skill.body.take i, skill.body.drop (j + 1)⟩
    | _, _ => .error (.runtimeContract "controlled execution requires exactly one top-level Approval and WRITE")
  else .error (.runtimeContract "controlled execution requires NSL 0.2 and IR 1.1")

/-- The parts of a plan in the order in which a controlled execution takes them. -/
def parts (plan : ControlledExecutionPlan) : List Statement :=
  plan.prefixBlock ++ [.approval plan.approval, .letBind plan.writeStatement.statement] ++ plan.suffixBlock

/-- The statements a controlled execution hands to the interpreter: the prefix, and the suffix after the WRITE. -/
def executed (plan : ControlledExecutionPlan) : List Statement := plan.prefixBlock ++ plan.suffixBlock

end ControlledExecutionPlan

/-! ## What a plan leaves out -/

theorem indexedFrom_nil {α β : Type} {f : α → Option β} : ∀ {l : List α} {n : Nat}, indexedFrom f n l = [] →
    ∀ x ∈ l, f x = none
  | [], _, _     => by simp
  | x :: l, n, h => by
    obtain ⟨hx, hl⟩ := List.append_eq_nil_iff.1 h
    intro y hy
    rcases List.mem_cons.1 hy with rfl | hy
    · cases hf : f y with
      | none   => rfl
      | some b => rw [hf] at hx; cases hx
    · exact indexedFrom_nil hl y hy

/-- **A single place**: nothing before it and nothing after it is another one. -/
theorem indexedFrom_singleton {α β : Type} {f : α → Option β} {i : Nat} {b : β} : ∀ {l : List α} {n : Nat},
    indexedFrom f n l = [(i, b)] → ∃ before x after, l = before ++ x :: after ∧ i = n + before.length ∧
      f x = some b ∧ (∀ y ∈ before, f y = none) ∧ ∀ y ∈ after, f y = none
  | [], _, h     => by cases h
  | x :: l, n, h => by
    unfold indexedFrom at h
    cases hx : f x with
    | none =>
      rw [hx] at h
      obtain ⟨before, y, after, rfl, hi, hy, hb, ha⟩ := indexedFrom_singleton (l := l) (n := n + 1) h
      refine ⟨x :: before, y, after, rfl, ?_, hy, ?_, ha⟩
      · rw [hi, List.length_cons]
        omega
      · intro z hz
        rcases List.mem_cons.1 hz with rfl | hz
        · exact hx
        · exact hb z hz
    | some c =>
      rw [hx] at h
      obtain ⟨hhead, hrest⟩ := List.cons.inj h
      cases hhead
      exact ⟨[], x, l, rfl, rfl, hx, by simp, indexedFrom_nil hrest⟩

section Partition

variable {skill : SkillObject} {plan : ControlledExecutionPlan}

/-- **The shape of a body with a plan**: some statements stand between the approval and the WRITE, and none of the
others is an approval or a WRITE. -/
theorem fromSkill_shape (h : ControlledExecutionPlan.fromSkill skill = .ok plan) :
    ∃ between, skill.body = plan.prefixBlock ++ .approval plan.approval :: between ++
        .letBind plan.writeStatement.statement :: plan.suffixBlock ∧
      ∀ s ∈ plan.prefixBlock ++ between ++ plan.suffixBlock, s.isPlain = true := by
  unfold ControlledExecutionPlan.fromSkill at h
  split at h
  swap
  · cases h
  split at h
  swap
  · cases h
  rename_i i approval j w happrovals hwrites
  split at h
  · cases h
  rename_i hbinding
  cases h
  obtain ⟨before, x, after, hbody, hi, hx, hbefore, hafter⟩ := indexedFrom_singleton happrovals
  obtain ⟨before', y, after', hbody', hj, hy, hbefore', hafter'⟩ := indexedFrom_singleton hwrites
  rw [Nat.zero_add] at hi hj
  have hx' := Statement.asApproval?_eq hx
  have hy' := Statement.asWrite?_eq hy
  subst hx' hy'
  have hij : i < j := by
    rcases not_or.1 hbinding with ⟨hlt, -⟩
    omega
  have htake : skill.body.take i = before := by
    rw [hbody, hi, List.take_left']
    rfl
  have hdrop : skill.body.drop (j + 1) = after' := by
    rw [hbody', hj, ← List.singleton_append, ← List.append_assoc]
    exact List.drop_left' (by simp)
  -- the WRITE stands after the approval, so the part before it starts with the part before the approval
  obtain ⟨between, hbetween⟩ : ∃ between, before' = before ++ .approval approval :: between := by
    have heq : before ++ ([Statement.approval approval] ++ after) =
        before' ++ .letBind w.statement :: after' := by
      rw [← hbody', hbody]
      rfl
    rw [← List.append_assoc] at heq
    rcases List.append_eq_append_iff.1 heq with ⟨between, hb, -⟩ | ⟨rest, hb, hr⟩
    · exact ⟨between, by rw [hb, List.append_assoc]; rfl⟩
    · have hlen := congrArg List.length hb
      simp only [List.length_append, List.length_singleton] at hlen
      have hrest : rest = [] := List.eq_nil_of_length_eq_zero (by omega)
      subst hrest
      rw [List.append_nil] at hb
      exact ⟨[], hb.symm⟩
  have hrest : after = between ++ .letBind w.statement :: after' := by
    have heq : before ++ .approval approval :: after = before ++ .approval approval :: (between ++
        .letBind w.statement :: after') := by
      rw [← hbody, hbody', hbetween]
      simp
    have := List.append_cancel_left heq
    exact (List.cons.inj this).2
  refine ⟨between, ?_, ?_⟩
  · rw [htake, hdrop, ← hbetween]
    exact hbody'
  · intro s hs
    rw [htake, hdrop] at hs
    have hplain : s.asApproval? = none ∧ s.asWrite? = none := by
      rcases List.mem_append.1 hs with hs | hs
      · rcases List.mem_append.1 hs with hs | hs
        · exact ⟨hbefore s hs, hbefore' s (by rw [hbetween]; exact List.mem_append_left _ hs)⟩
        · exact ⟨hafter s (by rw [hrest]; exact List.mem_append_left _ hs), hbefore' s (by
            rw [hbetween]
            exact List.mem_append_right _ (List.mem_cons_of_mem _ hs))⟩
      · exact ⟨hafter s (by
          rw [hrest]
          exact List.mem_append_right _ (List.mem_cons_of_mem _ hs)), hafter' s hs⟩
    rw [Statement.isPlain, hplain.1, hplain.2]
    rfl

/-- The WRITE is the statement right after the approval. -/
def WriteFollowsApproval (body : List Statement) : Prop :=
  ∃ before approval write after, body = before ++ .approval approval :: .letBind write :: after ∧
    write.value.isWrite = true

/-- The one element without `P` stands at one place. -/
theorem split_unique {α : Type} {P : α → Prop} {x y : α} : ∀ {p p' q q' : List α}, p ++ x :: q = p' ++ y :: q' →
    (∀ z ∈ p, P z) → (∀ z ∈ q, P z) → ¬ P y → p = p' ∧ x = y ∧ q = q'
  | [], [], _, _, h, _, _, _           => ⟨rfl, (List.cons.inj h).1, (List.cons.inj h).2⟩
  | [], z :: p', q, q', h, _, hq, hy   => by
    have hmem : y ∈ q := by
      rw [(List.cons.inj h).2]
      exact List.mem_append_right _ (List.mem_cons_self ..)
    exact absurd (hq y hmem) hy
  | z :: p, [], q, q', h, hp, _, hy    => by
    have hz : z = y := (List.cons.inj h).1
    exact absurd (hp y (by rw [← hz]; exact List.mem_cons_self ..)) hy
  | z :: p, w :: p', q, q', h, hp, hq, hy => by
    obtain ⟨hzw, hrest⟩ := List.cons.inj h
    obtain ⟨hpp, hxy, hqq⟩ := split_unique hrest (fun v hv => hp v (List.mem_cons_of_mem _ hv)) hq hy
    exact ⟨by rw [hzw, hpp], hxy, hqq⟩

/-- The WRITE follows its approval exactly when nothing stands between them. -/
theorem writeFollowsApproval_iff {before between after : List Statement} {approval : ApprovalStatement} {w : WriteLet}
    (hplain : ∀ s ∈ before ++ between ++ after, s.isPlain = true) :
    WriteFollowsApproval (before ++ .approval approval :: between ++ .letBind w.statement :: after) ↔ between = [] := by
  constructor
  · rintro ⟨before', approval', write', after', hbody, hwrite⟩
    rw [List.append_assoc, List.cons_append] at hbody
    have hnone : ∀ s ∈ between ++ .letBind w.statement :: after, s.asApproval? = none := by
      intro s hs
      rcases List.mem_append.1 hs with hs | hs
      · exact ((Statement.isPlain_iff s).1 (hplain s (by simp [hs]))).1
      · rcases List.mem_cons.1 hs with rfl | hs
        · rfl
        · exact ((Statement.isPlain_iff s).1 (hplain s (by simp [hs]))).1
    obtain ⟨-, -, hrest⟩ := split_unique (P := fun s => s.asApproval? = none) hbody
      (fun s hs => ((Statement.isPlain_iff s).1 (hplain s (by simp [hs]))).1) hnone (by simp [Statement.asApproval?])
    cases between with
    | nil => rfl
    | cons s between =>
      obtain ⟨hs, -⟩ := List.cons.inj hrest
      have hp := hplain s (by simp)
      rw [hs] at hp
      exact Bool.noConfusion (hp.symm.trans (Statement.isPlain_letBind hwrite))
  · rintro rfl
    exact ⟨before, approval, w.statement, after, by simp, w.isWrite⟩

/-- **A plan partitions the body exactly when the WRITE directly follows the approval**: then, and only then, the
statements a controlled execution runs are all the others of the body. -/
theorem fromSkill_partition_iff (h : ControlledExecutionPlan.fromSkill skill = .ok plan) :
    (plan.parts = skill.body ↔ WriteFollowsApproval skill.body) ∧
      (plan.executed = skill.body.filter Statement.isPlain ↔ WriteFollowsApproval skill.body) := by
  obtain ⟨between, hbody, hplain⟩ := fromSkill_shape h
  have hfollows := @writeFollowsApproval_iff _ _ _ plan.approval plan.writeStatement hplain
  rw [← hbody] at hfollows
  constructor
  · rw [hfollows]
    constructor
    · intro hparts
      have hlen := congrArg List.length hparts
      rw [hbody] at hlen
      refine List.eq_nil_of_length_eq_zero ?_
      simp only [ControlledExecutionPlan.parts, List.length_append, List.length_cons, List.length_nil] at hlen
      omega
    · rintro rfl
      rw [hbody]
      simp [ControlledExecutionPlan.parts]
  · rw [hfollows]
    have hfilter : skill.body.filter Statement.isPlain = plan.prefixBlock ++ between ++ plan.suffixBlock := by
      have hwrite := Statement.isPlain_letBind plan.writeStatement.isWrite
      have happroval : Statement.isPlain (.approval plan.approval) = false := rfl
      rw [hbody, List.filter_append, List.filter_append, List.filter_cons_of_neg (by simp [happroval]),
        List.filter_cons_of_neg (by simp [hwrite])]
      rw [← List.filter_append, ← List.filter_append]
      exact List.filter_eq_self.2 hplain
    rw [hfilter]
    constructor
    · intro hexecuted
      have hlen := congrArg List.length hexecuted
      refine List.eq_nil_of_length_eq_zero ?_
      simp only [ControlledExecutionPlan.executed, List.length_append] at hlen
      omega
    · rintro rfl
      simp [ControlledExecutionPlan.executed]

end Partition

/-! ## A check between the approval and the WRITE -/

def publishApproval : ApprovalStatement :=
  ⟨"n1", "publish", "publish the report?", ⟨none, by simp⟩, by decide, by decide⟩

def budgetCheck : CheckStatement :=
  { nodeId := "n2", checkId := "BUDGET", condition := .literal "n3" (.bool false) BOOL, severity := "ERROR",
    onFail := "CONTINUE", message := "over budget", resultSymbolId := "check.BUDGET" }

def publishWrite : LetStatement := ⟨"n4", "let.receipt", .write "n5" "report.publish" [] "publish" STRING⟩

/-- A skill whose CHECK stands between its approval and its WRITE. -/
def lateCheckSkill : SkillObject :=
  .ofBody "1.1" "0.2" ⟨1, 1, 1, 1, 1000⟩ [.approval publishApproval, .check budgetCheck, .letBind publishWrite]

/-- The plan of that skill leaves the CHECK out. -/
theorem fromSkill_drops_check : ∃ plan, ControlledExecutionPlan.fromSkill lateCheckSkill = .ok plan ∧
    plan.parts ≠ lateCheckSkill.body ∧ Statement.check budgetCheck ∈ lateCheckSkill.body ∧
    Statement.check budgetCheck ∉ plan.executed :=
  ⟨_, rfl, by decide, by decide, by decide⟩

/-- The same statements with the CHECK first. -/
def earlyCheckSkill : SkillObject :=
  .ofBody "1.1" "0.2" ⟨1, 1, 1, 1, 1000⟩ [.check budgetCheck, .approval publishApproval, .letBind publishWrite]

theorem fromSkill_partition_early : ∃ plan, ControlledExecutionPlan.fromSkill earlyCheckSkill = .ok plan ∧
    (plan.parts = earlyCheckSkill.body ↔ WriteFollowsApproval earlyCheckSkill.body) ∧
    (plan.executed = earlyCheckSkill.body.filter Statement.isPlain ↔ WriteFollowsApproval earlyCheckSkill.body) :=
  ⟨_, rfl, fromSkill_partition_iff rfl⟩

end Nsl
