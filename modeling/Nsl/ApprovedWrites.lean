import Nsl.Controlled
import Nsl.Lowering
/-!
# ApprovedWrites — which compiled WRITE has a plan

The analyses let through a body with a WRITE only when its events are one approval and, after it, one WRITE outside of
loops; the lowering keeps the statements one for one. So a compiled skill with a WRITE has a plan exactly when the WRITE
is the whole value of a `let` of the body itself.
-/
namespace Nsl

open Stateful (Run bind_eq_ok)

/-! ## Events -/

def approveOf? : ApprovalEvent × Bool → Option String
  | (.approve approvalId, _) => some approvalId
  | (.write _, _)            => none

def writeOf? : ApprovalEvent × Bool → Option (WriteNode × Bool)
  | (.approve _, _)       => none
  | (.write node, inside) => some (node, inside)

/-- An event is an approval or a WRITE. -/
theorem length_events : ∀ (es : List (ApprovalEvent × Bool)) (n : Nat),
    es.length = (indexedFrom approveOf? n es).length + (indexedFrom writeOf? n es).length
  | [], _                      => rfl
  | (.approve a, inside) :: es, n => by
    have ih := length_events es (n + 1)
    simp only [indexedFrom, approveOf?, writeOf?, Option.toList, List.map, List.length_cons, List.length_append,
      List.length_nil]
    omega
  | (.write w, inside) :: es, n   => by
    have ih := length_events es (n + 1)
    simp only [indexedFrom, approveOf?, writeOf?, Option.toList, List.map, List.length_cons, List.length_append,
      List.length_nil]
    omega

/-- The order and the name of each approval. -/
def ApprovalEvents.declared (g : ApprovalEvents) : List (Nat × String) :=
  g.approvals.map (fun a => (a.declarationOrder, a.approvalId))

theorem ApprovalEvents.add_ok {g g' : ApprovalEvents} {n : Nat} {e : ApprovalEvent × Bool} (h : g.add n e = .ok g') :
    g'.declared = g.declared ++ (approveOf? e).toList.map (fun a => (n, a)) ∧
      g'.writes = g.writes ++ (writeOf? e).toList.map (fun w => (n, w)) ∧
      ((approveOf? e).isSome = true → e.2 = false) ∧ ((g.approvals.map (·.approvalId)).Nodup → (g'.approvals.map (·.approvalId)).Nodup) := by
  rcases e with ⟨approvalId | node, inside⟩
  · unfold ApprovalEvents.add at h
    cases inside with
    | true  => simp at h
    | false =>
      simp only [Bool.false_eq_true, if_false] at h
      split at h
      · cases h
      rename_i hfresh
      obtain ⟨⟨b, t⟩, -, hg⟩ := bind_eq_ok h
      cases hg
      refine ⟨by simp [declared, approveOf?], by simp [writeOf?], fun _ => rfl, fun hnodup => ?_⟩
      rw [List.map_append, List.nodup_append]
      refine ⟨hnodup, List.nodup_singleton _, fun i hi j hj hij => ?_⟩
      obtain ⟨a, ha, rfl⟩ := List.mem_map.1 hi
      rw [List.map_singleton, List.mem_singleton] at hj
      exact hfresh (List.any_eq_true.2 ⟨a, ha, by simpa using hij.trans hj⟩)
  · cases h
    exact ⟨by simp [declared, approveOf?], by simp [writeOf?], fun hsome => (by cases hsome), fun hnodup => hnodup⟩

/-- **What the first loop gathers**: the approvals and the WRITEs in their order, no approval twice or inside a loop. -/
theorem gatherEvents_ok : ∀ {es : List (ApprovalEvent × Bool)} {g g' : ApprovalEvents} {n : Nat},
    gatherEvents g n es = .ok g' →
    g'.declared = g.declared ++ indexedFrom approveOf? n es ∧ g'.writes = g.writes ++ indexedFrom writeOf? n es ∧
      (∀ e ∈ es, (approveOf? e).isSome = true → e.2 = false) ∧ ((g.approvals.map (·.approvalId)).Nodup → (g'.approvals.map (·.approvalId)).Nodup)
  | [], g, g', n, h      => by
    cases h
    simp [indexedFrom]
  | e :: es, g, g', n, h => by
    obtain ⟨g₁, hadd, hrest⟩ := bind_eq_ok h
    obtain ⟨hdeclared, hwrites, hflat, hnodup⟩ := ApprovalEvents.add_ok hadd
    obtain ⟨hdeclared', hwrites', hflat', hnodup'⟩ := gatherEvents_ok hrest
    refine ⟨?_, ?_, List.forall_mem_cons.2 ⟨hflat, hflat'⟩, fun hg => hnodup' (hnodup hg)⟩
    · rw [hdeclared', hdeclared, List.append_assoc]
      rfl
    · rw [hwrites', hwrites, List.append_assoc]
      rfl

theorem linkWrite_ok {g : ApprovalEvents} {linked : List ApprovalWriteBinding} {n : Nat} {w : WriteNode} {inside : Bool}
    {b : ApprovalWriteBinding} (h : linkWrite g linked n w inside = .ok b) :
    b.approval ∈ g.approvals ∧ b.approval.approvalId = w.approvalId ∧ b.approval.declarationOrder < n ∧
      b.insideForeach = inside := by
  obtain ⟨_, -, h⟩ := bind_eq_ok h
  cases hf : g.approvals.find? (fun a => a.approvalId = w.approvalId) with
  | none          => simp only [hf] at h; cases h
  | some approval =>
    simp only [hf] at h
    by_cases horder : n ≤ approval.declarationOrder
    · rw [if_pos horder] at h
      cases h
    rw [if_neg horder] at h
    split at h
    · cases h
    · cases h
      exact ⟨List.mem_of_find?_eq_some hf, by simpa using List.find?_some hf, Nat.lt_of_not_le horder, rfl⟩

theorem linkWrites_length : ∀ {ws : List (Nat × WriteNode × Bool)} {g : ApprovalEvents}
    {linked bs : List ApprovalWriteBinding}, linkWrites g linked ws = .ok bs → bs.length = linked.length + ws.length
  | [], _, _, _, h                         => by cases h; rfl
  | (n, w, inside) :: ws, g, linked, bs, h => by
    obtain ⟨b, -, h⟩ := bind_eq_ok h
    rw [linkWrites_length h, List.length_append, List.length_singleton, List.length_cons]
    omega

theorem analyzeApprovals_ok {ast : AstSkill} {analysis : ApprovalBindingAnalysis} (hv : ast.languageVersion = "0.2")
    (h : analyzeApprovals ast = .ok analysis) :
    ∃ g, gatherEvents ⟨SymbolTable.init, [], []⟩ 1 (eventsOfBlock false ast.body) = .ok g ∧
      linkWrites g [] g.writes = .ok analysis.bindings ∧
      ∀ a ∈ g.approvals, ∃ b ∈ analysis.bindings, b.approval.approvalId = a.approvalId := by
  unfold analyzeApprovals at h
  rw [if_neg (not_not.2 hv)] at h
  obtain ⟨g, hgather, h⟩ := bind_eq_ok h
  obtain ⟨bs, hlink, h⟩ := bind_eq_ok h
  cases hf : g.approvals.find? (fun a => bs.all (fun b => b.approval.approvalId ≠ a.approvalId)) with
  | some a => simp only [hf] at h; cases h
  | none   =>
    simp only [hf] at h
    cases h
    refine ⟨g, hgather, hlink, fun a ha => ?_⟩
    have hused := List.find?_eq_none.1 hf a ha
    rw [List.all_eq_true, not_forall] at hused
    obtain ⟨b, hb⟩ := hused
    obtain ⟨hmem, heq⟩ := Classical.not_imp.1 hb
    exact ⟨b, hmem, by simpa using heq⟩

theorem analyzeWriteSafety_ok {analysis : ApprovalBindingAnalysis} {contracts : List (String × ToolContract)}
    {safety : WriteSafetyAnalysis} (h : analyzeWriteSafety analysis contracts = .ok safety) :
    analysis.bindings.length ≤ 1 ∧ ∀ b ∈ analysis.bindings, b.insideForeach = false := by
  unfold analyzeWriteSafety at h
  by_cases hcount : 1 < analysis.bindings.length
  · simp only [if_pos hcount] at h
    cases h
  simp only [if_neg hcount] at h
  by_cases hinside : analysis.bindings.any (·.insideForeach) = true
  · simp only [if_pos hinside] at h
    cases h
  refine ⟨by omega, fun b hb => ?_⟩
  cases hi : b.insideForeach with
  | false => rfl
  | true  => exact absurd (List.any_eq_true.2 ⟨b, hb, hi⟩) hinside

/-- **The events of an accepted body with a WRITE**: its approval, then the WRITE, both outside of loops. -/
theorem events_of_accepted {ast : AstSkill} {analysis : ApprovalBindingAnalysis}
    {contracts : List (String × ToolContract)} {safety : WriteSafetyAnalysis} (hv : ast.languageVersion = "0.2")
    (ha : analyzeApprovals ast = .ok analysis) (hs : analyzeWriteSafety analysis contracts = .ok safety)
    (hw : ∃ e ∈ eventsOfBlock false ast.body, (writeOf? e).isSome = true) :
    ∃ node : WriteNode, eventsOfBlock false ast.body = [(.approve node.approvalId, false), (.write node, false)] := by
  obtain ⟨g, hgather, hlink, hused⟩ := analyzeApprovals_ok hv ha
  obtain ⟨hcount, hinside⟩ := analyzeWriteSafety_ok hs
  obtain ⟨hdeclared, hwrites, houter, hnodup⟩ := gatherEvents_ok hgather
  have hlen := linkWrites_length hlink
  have hdeclared : g.declared = indexedFrom approveOf? 1 (eventsOfBlock false ast.body) := hdeclared
  have hwrites : g.writes = indexedFrom writeOf? 1 (eventsOfBlock false ast.body) := hwrites
  have hnodup := hnodup List.nodup_nil
  -- one WRITE is there, and no second one is accepted
  obtain ⟨⟨n, node, inside⟩, hone⟩ : ∃ w, g.writes = [w] := by
    cases hg : g.writes with
    | nil =>
      rw [hg] at hwrites
      obtain ⟨e, he, hsome⟩ := hw
      rw [indexedFrom_nil hwrites.symm e he] at hsome
      cases hsome
    | cons w ws =>
      rw [hg, List.length_nil, List.length_cons] at hlen
      rw [List.eq_nil_of_length_eq_zero (l := ws) (by omega)]
      exact ⟨w, rfl⟩
  rw [hone] at hlink hwrites
  obtain ⟨b, hb, hbs⟩ := bind_eq_ok hlink
  have hbindings : analysis.bindings = [b] := (Except.ok.inj hbs).symm
  obtain ⟨hmem, hid, horder, hin⟩ := linkWrite_ok hb
  have hflat : inside = false := by
    rw [← hin]
    exact hinside b (by rw [hbindings]; exact List.mem_singleton_self b)
  -- each approval is the one of that WRITE
  have hids : ∀ a ∈ g.approvals, a.approvalId = node.approvalId := by
    intro a ha
    obtain ⟨c, hc, hca⟩ := hused a ha
    rw [hbindings, List.mem_singleton] at hc
    rw [← hca, hc, hid]
  have happrovals : g.approvals = [b.approval] := by
    cases hg : g.approvals with
    | nil =>
      rw [hg] at hmem
      cases hmem
    | cons a as =>
      cases as with
      | nil =>
        rw [hg, List.mem_singleton] at hmem
        rw [hmem]
      | cons a' as =>
        rw [hg] at hnodup hids
        have heq : a.approvalId = a'.approvalId := by rw [hids a (by simp), hids a' (by simp)]
        simp [heq] at hnodup
  have hsingle : indexedFrom approveOf? 1 (eventsOfBlock false ast.body) =
      [(b.approval.declarationOrder, node.approvalId)] := by
    rw [← hdeclared, ApprovalEvents.declared, happrovals, List.map_singleton, hid]
  have htwo := length_events (eventsOfBlock false ast.body) 1
  rw [hsingle, ← hwrites] at htwo
  -- two events, the approval the earlier one
  match hes : eventsOfBlock false ast.body with
  | [] | [_] | _ :: _ :: _ :: _ => rw [hes] at htwo; simp at htwo
  | [(.approve a, i), (.write w, j)] =>
    rw [hes] at hsingle hwrites houter
    simp [indexedFrom, approveOf?] at hsingle
    simp [indexedFrom, writeOf?] at hwrites
    obtain ⟨-, hnode, hj⟩ := hwrites
    have hi : i = false := houter _ (List.mem_cons_self ..) rfl
    rw [hsingle.2, hnode, ← hj, hflat, hi]
    exact ⟨w, rfl⟩
  | [(.write w, i), (.approve a, j)] =>
    rw [hes] at hsingle hwrites
    simp [indexedFrom, approveOf?] at hsingle
    simp [indexedFrom, writeOf?] at hwrites
    omega
  | [(.approve a, i), (.approve a', j)] =>
    rw [hes] at hsingle
    simp [indexedFrom, approveOf?] at hsingle
  | [(.write w, i), (.write w', j)] =>
    rw [hes] at hwrites
    simp [indexedFrom, writeOf?] at hwrites

/-! ## Statements one for one -/

/-- The approval of an expression that is a WRITE. -/
def AstExpression.writeApproval? : AstExpression → Option String
  | .write _ _ approvalId => some approvalId
  | _                     => none

/-- The name an approval declares. -/
def AstStatement.approval? : AstStatement → Option String
  | .approve approvalId _ => some approvalId
  | _                     => none

/-- The approval of a `let` whose whole value is a WRITE. -/
def AstStatement.letWrite? : AstStatement → Option String
  | .letBind _ value => value.writeApproval?
  | _                => none

/-- A statement and what it is lowered to: the same approval, or a `let` of a WRITE of the same approval. -/
def LoweredTo (a : AstStatement) (s : Statement) : Prop :=
  s.asApproval?.map (·.approvalId) = a.approval? ∧ s.asWrite?.map (·.write.approvalRef) = a.letWrite?

namespace Lowerer

variable {tools : ToolsById} {outputs : List OutputField}

theorem newExpression_gives {P : Expression × DataClassification → Prop} {kind : String} {node : String → Expression}
    {c : DataClassification} (h : ∀ n, P (node n, c)) : Run.Gives P (newExpression kind node c) := by
  unfold newExpression
  refine Run.gives_after (fun n => Run.gives_after (fun _ => ?_))
  exact Run.gives_done (h n)

theorem lowerFields_gives {c : DataClassification} : ∀ {fields : List String} {e : Expression}, e.asWrite? = none →
    Run.Gives (fun r => r.1.asWrite? = none) (lowerFields c fields e)
  | [], _, he    => Run.gives_done he
  | _ :: _, _, _ => by
    refine Run.gives_after (fun tp => ?_)
    obtain ⟨t, projected⟩ := tp
    refine Run.Gives.andThen (newExpression_gives (P := fun r => r.1.asWrite? = none) (fun n => ?_))
      (fun r hr => lowerFields_gives hr)
    cases projected <;> rfl

/-- A lowered expression is a WRITE exactly when the expression is one. -/
theorem lowerExpr_gives (a : AstExpression) :
    Run.Gives (fun r => r.1.asWrite?.map (·.approvalRef) = a.writeApproval?) (lowerExpr tools a) := by
  have hnone : ∀ {m : Lower (Expression × DataClassification)}, Run.Gives (fun r => r.1.asWrite? = none) m →
      Run.Gives (fun r => r.1.asWrite?.map (·.approvalRef) = none) m :=
    fun h s w s' r hr => congrArg (Option.map WriteExpression.approvalRef) (h s w s' r hr)
  cases a with
  | literal value typeInfo => exact hnone (newExpression_gives (fun _ => rfl))
  | path parts =>
    refine hnone ?_
    cases parts with
    | nil              => exact Run.gives_fail _
    | cons name fields =>
      exact Run.gives_after (fun b => Run.Gives.andThen (newExpression_gives (P := fun r => r.1.asWrite? = none)
        (fun _ => rfl)) (fun r hr => lowerFields_gives hr))
  | call name arguments =>
    refine hnone (Run.gives_after (fun lowered => Run.gives_after (fun t => ?_)))
    cases lowered with
    | nil => exact Run.gives_fail _
    | cons => exact newExpression_gives (fun _ => rfl)
  | binary operator left right =>
    refine hnone (Run.gives_after (fun l => Run.gives_after (fun r => Run.gives_after (fun t => ?_))))
    split
    · exact Run.gives_fail _
    · exact newExpression_gives (fun _ => rfl)
  | read toolId arguments =>
    exact hnone (Run.gives_after (fun _ => Run.gives_after (fun _ => Run.gives_after (fun _ =>
      newExpression_gives (fun _ => rfl)))))
  | write toolId arguments approvalId =>
    exact Run.gives_after (fun _ => Run.gives_after (fun _ => Run.gives_after (fun _ =>
      newExpression_gives (fun _ => rfl))))

theorem approvalStatement_ok {n a m : String} {s : ApprovalStatement} (h : approvalStatement n a m = .ok s) :
    s.approvalId = a := by
  unfold approvalStatement at h
  split at h
  · split at h
    · cases h; rfl
    · cases h
  · cases h

theorem asWrite?_map (s : LetStatement) :
    s.asWrite?.map (·.write.approvalRef) = s.value.asWrite?.map (·.approvalRef) := by
  unfold LetStatement.asWrite?
  split
  · rename_i w hw
    exact (congrArg (Option.map (·.approvalRef)) hw).symm
  · rename_i hw
    exact (congrArg (Option.map (·.approvalRef)) hw).symm

theorem lowerStatement_gives (a : AstStatement) : Run.Gives (LoweredTo a) (lowerStatement tools outputs a) := by
  cases a with
  | letBind name value =>
    refine Run.Gives.andThen (lowerExpr_gives value) (fun e he => ?_)
    refine Run.gives_after (fun b => Run.gives_after (fun n => ?_))
    exact Run.gives_done ⟨rfl, (asWrite?_map _).trans he⟩
  | «foreach» iterator collection maxIterations body =>
    refine Run.gives_after (fun _ => Run.gives_after (fun _ => Run.gives_after (fun _ => Run.gives_after (fun _ => ?_))))
    exact Run.gives_done ⟨rfl, rfl⟩
  | check checkId condition severity onFail message =>
    refine Run.gives_after (fun _ => Run.gives_after (fun _ => Run.gives_after (fun _ => Run.gives_after (fun _ => ?_))))
    exact Run.gives_done ⟨rfl, rfl⟩
  | emit fields =>
    refine Run.gives_after (fun _ => Run.gives_after (fun _ => Run.gives_after (fun _ => ?_)))
    exact Run.gives_done ⟨rfl, rfl⟩
  | approve approvalId message =>
    unfold lowerStatement
    refine Run.gives_after (fun n => ?_)
    refine Run.Gives.andThen (Run.gives_ofExcept (fun s hs => approvalStatement_ok hs)) (fun s hs => ?_)
    exact Run.gives_done ⟨congrArg some hs, rfl⟩

/-- **The lowering keeps the statements of a block one for one.** -/
theorem lowerBlock_gives : ∀ (as : List AstStatement),
    Run.Gives (List.Forall₂ LoweredTo as) (lowerBlock tools outputs as)
  | []      => Run.gives_done .nil
  | a :: as => by
    refine Run.Gives.andThen (lowerStatement_gives a) (fun s hs => ?_)
    refine Run.Gives.andThen (lowerBlock_gives as) (fun ss hss => ?_)
    exact Run.gives_done (.cons hs hss)

end Lowerer

/-! ## Where the events stand -/

theorem writeEvents_head {inside inside' : Bool} {a : String} {ws : List WriteNode}
    {rest : List (ApprovalEvent × Bool)} : writeEvents inside ws ≠ (.approve a, inside') :: rest := by
  cases ws <;> simp [writeEvents]

theorem writeEvents_inside {inside : Bool} {ws : List WriteNode} {e : ApprovalEvent × Bool}
    (h : e ∈ writeEvents inside ws) : e.2 = inside := by
  obtain ⟨w, -, rfl⟩ := List.mem_map.1 h
  rfl

mutual
/-- What stands inside a loop is said to. -/
theorem events_inside : ∀ (s : AstStatement), ∀ e ∈ s.events true, e.2 = true
  | .letBind _ _, _, he | .check _ _ _ _ _, _, he | .emit _, _, he => writeEvents_inside he
  | .approve _ _, _, he        => by rw [List.mem_singleton.1 he]
  | .foreach _ _ _ body, e, he => (List.mem_append.1 he).elim writeEvents_inside (eventsOfBlock_inside body e)
theorem eventsOfBlock_inside : ∀ (ss : List AstStatement), ∀ e ∈ eventsOfBlock true ss, e.2 = true
  | [], _, he      => (List.not_mem_nil he).elim
  | s :: ss, e, he => (List.mem_append.1 he).elim (events_inside s e) (eventsOfBlock_inside ss e)
end

namespace AstStatement

variable {s : AstStatement} {a : String} {rest : List (ApprovalEvent × Bool)}

/-- Only an approval starts with one. -/
theorem approval?_of_events (h : s.events false = (.approve a, false) :: rest) :
    s.approval? = some a ∧ s.letWrite? = none ∧ rest = [] := by
  cases s with
  | approve approvalId message =>
    cases h
    exact ⟨rfl, rfl, rfl⟩
  | «foreach» iterator c maxIterations body =>
    rcases List.append_eq_cons_iff.1 h with ⟨-, hbody⟩ | ⟨tail, hhead, -⟩
    · have hinside := eventsOfBlock_inside body (.approve a, false) (by rw [hbody]; exact List.mem_cons_self ..)
      cases hinside
    · exact absurd hhead writeEvents_head
  | _ => exact absurd h writeEvents_head

/-- A `let` of a WRITE starts with it. -/
theorem events_of_letWrite (h : s.letWrite? = some a) :
    s.approval? = none ∧ ∃ node rest, node.approvalId = a ∧ s.events false = (.write node, false) :: rest := by
  cases s with
  | letBind name value =>
    cases value with
    | write toolId arguments approvalId =>
      cases h
      exact ⟨rfl, ⟨toolId, _⟩, _, rfl, rfl⟩
    | _ => cases h
  | _ => cases h

theorem events_of_approval (h : s.approval? = some a) : s.events false = [(.approve a, false)] := by
  cases s with
  | approve approvalId message =>
    cases h
    rfl
  | _ => cases h

/-- A statement without events is none of the two. -/
theorem quiet (h : s.events false = []) : s.approval? = none ∧ s.letWrite? = none := by
  constructor
  · cases ha : s.approval? with
    | none   => rfl
    | some a =>
      rw [events_of_approval ha] at h
      cases h
  · cases hw : s.letWrite? with
    | none   => rfl
    | some a =>
      obtain ⟨-, node, rest, -, he⟩ := events_of_letWrite hw
      rw [he] at h
      cases h

end AstStatement

theorem indexedFrom_quiet {α β : Type} {f : α → Option β} {x : α} {l : List α} {n : Nat} (h : f x = none) :
    indexedFrom f n (x :: l) = indexedFrom f (n + 1) l := by
  rw [indexedFrom, h]
  rfl

theorem indexedFrom_none {α β : Type} {f : α → Option β} : ∀ {l : List α} {n : Nat}, (∀ x ∈ l, f x = none) →
    indexedFrom f n l = []
  | [], _, _     => rfl
  | x :: l, n, h => by
    rw [indexedFrom_quiet (h x (List.mem_cons_self ..))]
    exact indexedFrom_none (fun y hy => h y (List.mem_cons_of_mem _ hy))

theorem quiet_block : ∀ {ss : List AstStatement}, eventsOfBlock false ss = [] →
    ∀ s ∈ ss, s.approval? = none ∧ s.letWrite? = none
  | [], _      => by simp
  | s :: ss, h => by
    obtain ⟨hs, hss⟩ := List.append_eq_nil_iff.1 h
    exact List.forall_mem_cons.2 ⟨AstStatement.quiet hs, quiet_block hss⟩

/-- The statements after the approval: the WRITE is bound by one `let`, or by none. -/
theorem letWrites_after {node : WriteNode} : ∀ {ss : List AstStatement} {n : Nat},
    eventsOfBlock false ss = [(.write node, false)] → indexedFrom AstStatement.approval? n ss = [] ∧
      (indexedFrom AstStatement.letWrite? n ss = [] ∨
        ∃ j, n ≤ j ∧ indexedFrom AstStatement.letWrite? n ss = [(j, node.approvalId)])
  | [], _, h      => by cases h
  | s :: ss, n, h => by
    rcases List.append_eq_cons_iff.1 h with ⟨hs, hss⟩ | ⟨tail, hs, htail⟩
    · obtain ⟨happroval, hwrite⟩ := AstStatement.quiet hs
      obtain ⟨ha, hw⟩ := letWrites_after (n := n + 1) hss
      rw [indexedFrom_quiet happroval, indexedFrom_quiet hwrite]
      refine ⟨ha, hw.imp_right ?_⟩
      rintro ⟨j, hj, hjw⟩
      exact ⟨j, by omega, hjw⟩
    · obtain ⟨rfl, hss⟩ := List.append_eq_nil_iff.1 htail.symm
      have hquiet := quiet_block hss
      have happroval : s.approval? = none := by
        cases ha : s.approval? with
        | none   => rfl
        | some a =>
          rw [AstStatement.events_of_approval ha] at hs
          cases hs
      rw [indexedFrom_quiet happroval, indexedFrom_none (fun x hx => (hquiet x hx).1)]
      refine ⟨rfl, ?_⟩
      cases hw : s.letWrite? with
      | none =>
        rw [indexedFrom_quiet hw, indexedFrom_none (fun x hx => (hquiet x hx).2)]
        exact Or.inl rfl
      | some a =>
        obtain ⟨-, node', rest, ha, he⟩ := AstStatement.events_of_letWrite hw
        rw [he] at hs
        obtain ⟨hnode, -⟩ := List.cons.inj hs
        cases hnode
        rw [indexedFrom, hw, indexedFrom_none (fun x hx => (hquiet x hx).2), ← ha]
        exact Or.inr ⟨n, le_rfl, rfl⟩

/-- **In an accepted body the approval is one statement, and a `let` of the WRITE stands after it.** -/
theorem letWrites_of_events {node : WriteNode} : ∀ {ss : List AstStatement} {n : Nat},
    eventsOfBlock false ss = [(.approve node.approvalId, false), (.write node, false)] →
    ∃ i, indexedFrom AstStatement.approval? n ss = [(i, node.approvalId)] ∧
      (indexedFrom AstStatement.letWrite? n ss = [] ∨
        ∃ j, i < j ∧ indexedFrom AstStatement.letWrite? n ss = [(j, node.approvalId)])
  | [], _, h      => by cases h
  | s :: ss, n, h => by
    rcases List.append_eq_cons_iff.1 h with ⟨hs, hss⟩ | ⟨tail, hs, htail⟩
    · obtain ⟨happroval, hwrite⟩ := AstStatement.quiet hs
      rw [indexedFrom_quiet happroval, indexedFrom_quiet hwrite]
      exact letWrites_of_events hss
    · obtain ⟨happroval, hwrite, rfl⟩ := AstStatement.approval?_of_events hs
      obtain ⟨ha, hw⟩ := letWrites_after (n := n + 1) htail.symm
      rw [indexedFrom, happroval, ha, indexedFrom_quiet hwrite]
      refine ⟨n, rfl, hw.imp_right ?_⟩
      rintro ⟨j, hj, hjw⟩
      exact ⟨j, by omega, hjw⟩

/-- What is found in one list is found in the other, at the same places. -/
theorem indexedFrom_forall₂ {α β γ δ : Type} {f : α → Option γ} {g : β → Option δ} {v : δ → γ} {as : List α}
    {bs : List β} (h : List.Forall₂ (fun a b => (g b).map v = f a) as bs) :
    ∀ (n : Nat), (indexedFrom g n bs).map (fun x => (x.1, v x.2)) = indexedFrom f n as := by
  induction h with
  | nil => exact fun _ => rfl
  | @cons a b as bs hab _ ih =>
    intro n
    unfold indexedFrom
    rw [List.map_append, ih (n + 1), ← hab]
    cases g b <;> rfl

/-! ## Plans -/

section Plans

variable [Platform] {catalog : ToolContractCatalog} {ast : AstSkill} {build : BuildMetadata} {c : Compilation}

omit [Platform] in
theorem Lowerer.lowerPrepared_gives (p : Preparation) (ast : AstSkill) (build : BuildMetadata) :
    Run.Gives (fun skill => List.Forall₂ LoweredTo ast.body skill.body ∧ skill.irVersion = p.profile.irVersion ∧
      skill.languageVersion = ast.languageVersion) (lowerPrepared p ast build) := by
  refine Run.gives_after (fun inputs => Run.gives_after (fun contexts => Run.gives_after (fun outputs => ?_)))
  refine Run.Gives.andThen (lowerBlock_gives ast.body) (fun body hbody => ?_)
  refine Run.gives_after (fun analysis => Run.gives_after (fun symbols => ?_))
  exact Run.gives_done ⟨hbody, rfl, rfl⟩

/-- The body contains a WRITE expression. -/
def AstSkill.ContainsWrite (ast : AstSkill) : Prop := ∃ e ∈ eventsOfBlock false ast.body, (writeOf? e).isSome = true

/-- The body has a `let` of its own whose whole value is a WRITE. -/
def AstSkill.BindsWrite (ast : AstSkill) : Prop := ∃ s ∈ ast.body, s.letWrite?.isSome = true

/-- **A compiled skill with a WRITE has a plan exactly when a `let` of its body is that WRITE**; otherwise the planner
refuses it for the WRITE it does not find. -/
theorem compileTree_fromSkill_iff (h : compileTree catalog ast build = .ok c) (hv : ast.languageVersion = "0.2")
    (hw : ast.ContainsWrite) :
    ((ControlledExecutionPlan.fromSkill c.skill).isOk = true ↔ ast.BindsWrite) ∧
      (¬ ast.BindsWrite → ControlledExecutionPlan.fromSkill c.skill =
        .error (.runtimeContract "controlled execution requires exactly one top-level Approval and WRITE")) := by
  obtain ⟨approvals, p, w, s, skill, hash, happrovals, hp, hlower, -, hskill, -⟩ := compileTree_ok h
  obtain ⟨hheader, contracts, -, hsafety, -⟩ := Lowerer.prepare_ok hp
  obtain ⟨-, -, hprofile⟩ := Lowerer.checkHeader_ok hheader
  obtain ⟨hbody, hir, hlang⟩ := Lowerer.lowerPrepared_gives p ast build _ _ _ _ hlower
  obtain ⟨node, hevents⟩ := events_of_accepted hv happrovals hsafety hw
  obtain ⟨i, happroval, hwrites⟩ := letWrites_of_events (n := 0) hevents
  have hv02 : c.skill.isV02 = true := by
    have h11 : p.profile.irVersion = "1.1" := by
      rw [hv] at hprofile
      rw [← Option.some.inj hprofile]
      rfl
    rw [hskill, SkillObject.isV02]
    simp only [hir, hlang, hv, h11]
    rfl
  have hsame : c.skill.body = skill.body := by rw [hskill]
  have hA := indexedFrom_forall₂ (hbody.imp (fun _ _ hab => hab.1)) 0
  have hW := indexedFrom_forall₂ (hbody.imp (fun _ _ hab => hab.2)) 0
  rw [← hsame, happroval] at hA
  obtain ⟨approval, hApproval, hid⟩ : ∃ approval : ApprovalStatement,
      indexedFrom Statement.asApproval? 0 c.skill.body = [(i, approval)] ∧ approval.approvalId = node.approvalId := by
    obtain ⟨x, hx, hpair⟩ := List.map_eq_singleton_iff.1 hA
    obtain ⟨hi, hid⟩ := Prod.mk.inj hpair
    exact ⟨x.2, by rw [hx, ← hi], hid⟩
  unfold ControlledExecutionPlan.fromSkill
  rw [if_pos hv02, hApproval]
  rcases hwrites with hnone | ⟨j, hij, hone⟩
  · rw [← hsame, hnone, List.map_eq_nil_iff] at hW
    have hunbound : ¬ ast.BindsWrite := by
      rintro ⟨t, ht, hsome⟩
      rw [indexedFrom_nil hnone t ht] at hsome
      cases hsome
    rw [hW]
    exact ⟨⟨fun hok => (by cases hok), fun hbinds => absurd hbinds hunbound⟩, fun _ => rfl⟩
  · rw [← hsame, hone] at hW
    obtain ⟨x, hx, hpair⟩ := List.map_eq_singleton_iff.1 hW
    obtain ⟨hj, hwriteId⟩ := Prod.mk.inj hpair
    have hbinds : ast.BindsWrite := by
      by_contra hcon
      have hnil : indexedFrom AstStatement.letWrite? 0 ast.body = [] := indexedFrom_none (fun t ht => by
        cases ht' : t.letWrite? with
        | none   => rfl
        | some a => exact absurd ⟨t, ht, by rw [ht']; rfl⟩ hcon)
      rw [hone] at hnil
      cases hnil
    rw [hx]
    have hguard : ¬ (x.1 ≤ i ∨ x.2.write.approvalRef ≠ approval.approvalId) := by
      rw [hid]
      rintro (hle | hne)
      · omega
      · exact hne hwriteId
    simp only [if_neg hguard]
    exact ⟨⟨fun _ => hbinds, fun _ => rfl⟩, fun hcon => absurd hbinds hcon⟩

end Plans

/-! ### Two sources that publish -/

section Publishing

attribute [local instance] Platform.ascii

theorem publishContract_once : ([publishContract].map (fun c => (c.toolId, c.version))).Nodup := by decide

def publishCatalog : ToolContractCatalog := ⟨[publishContract], publishContract_once⟩

/-- A source of an approval and one statement that publishes. -/
def publishingTree (outputs : List AstFieldSpec) (statement : AstStatement) : AstSkill :=
  { languageVersion := "0.2", skillId := "demo.publish", skillVersion := "1.0.0", risk := "WRITE", includes := [],
    requires := [⟨"report.publish", "1.0.0"⟩], limits := some ⟨1, 1, 1, 1, 1000⟩, inputs := [], contexts := [], outputs,
    body := [.approve "publish" "publish the report?", statement] }

def publishCall : AstExpression := .write "report.publish" [] "publish"

/-- `let receipt = write report.publish() approved_by publish;` -/
def boundWrite : AstSkill := publishingTree [] (.letBind "receipt" publishCall)

/-- `emit … receipt: write report.publish() approved_by publish; …` -/
def emittedWrite : AstSkill :=
  publishingTree [⟨"receipt", STRING, .internal, []⟩] (.emit [("receipt", publishCall)])

theorem boundWrite_compiles : (compileTree publishCatalog boundWrite ⟨"", "", []⟩).isOk = true := rfl

theorem compileTree_fromSkill_iff_bound : ∃ c, compileTree publishCatalog boundWrite ⟨"", "", []⟩ = .ok c ∧
    ((ControlledExecutionPlan.fromSkill c.skill).isOk = true ↔ boundWrite.BindsWrite) ∧
      (¬ boundWrite.BindsWrite → ControlledExecutionPlan.fromSkill c.skill =
        .error (.runtimeContract "controlled execution requires exactly one top-level Approval and WRITE")) := by
  cases h : compileTree publishCatalog boundWrite ⟨"", "", []⟩ with
  | error e =>
    have hok := boundWrite_compiles
    rw [h] at hok
    cases hok
  | ok c =>
    exact ⟨c, rfl, compileTree_fromSkill_iff h rfl ⟨(.write ⟨"report.publish", "publish"⟩, false), by decide, rfl⟩⟩

/-- The compiler accepts the source that emits its WRITE, and the planner does not. -/
theorem emittedWrite_without_plan : emittedWrite.ContainsWrite ∧
    (compileTree publishCatalog emittedWrite ⟨"", "", []⟩).map
      (fun c => (ControlledExecutionPlan.fromSkill c.skill).isOk) = .ok false :=
  ⟨⟨(.write ⟨"report.publish", "publish"⟩, false), by decide, rfl⟩, rfl⟩

end Publishing
end Nsl
