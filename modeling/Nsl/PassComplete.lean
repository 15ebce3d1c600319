import Mathlib.Data.List.Infix
import Nsl.AuditTrace
import Nsl.CallNumbers
import Nsl.LabelsAgree
/-!
# PassComplete — a PASS rests on complete results

A value carries a reference for each tool result it was computed from, and so does the record of a CHECK. Every such
reference names one call of the execution (`Tracked`), and a complete value rests on complete results, except where it
was computed from the status of a CHECK: that counts as complete, whatever the CHECK knew.
-/
namespace Nsl

open Stateful (Run)

/-! ## What a condition reads -/

mutual
/-- The symbols an expression reads, other than in the arguments of a READ. -/
def Expression.reads : Expression → List String
  | .literal ..         => []
  | .symbolRef _ i _    => [i]
  | .field _ e _ _      => e.reads
  | .project _ e _ _    => e.reads
  | .call _ _ es _      => readsOfItems es
  | .binary _ _ l r _   => l.reads ++ r.reads
  | .read .. | .write .. => []
def readsOfItems : List Expression → List String
  | []      => []
  | e :: es => e.reads ++ readsOfItems es
end

/-- **The status of the CHECK reaches the symbol**: it is its result, or it is bound to what reads the status, through
other CHECKs too. -/
inductive Feeds (body : List Statement) (t : CheckStatement) : String → Prop
  | result (h : .check t ∈ withinBlock body) : Feeds body t t.resultSymbolId
  | bound {s : LetStatement} {i : String} (h : .letBind s ∈ withinBlock body) (hi : i ∈ s.value.reads)
      (ht : Feeds body t i) : Feeds body t s.targetSymbolId
  | item {n i j : String} {e : Expression} {bound : Int} {inner : List Statement}
      (h : .foreach n j e bound inner ∈ withinBlock body) (hi : i ∈ e.reads) (ht : Feeds body t i) : Feeds body t j
  | condition {s : CheckStatement} {i : String} (h : .check s ∈ withinBlock body) (hi : i ∈ s.condition.reads)
      (ht : Feeds body t i) : Feeds body t s.resultSymbolId

/-- The status of the CHECK reaches the expression. -/
def FeedsInto (body : List Statement) (t : CheckStatement) (e : Expression) : Prop := ∃ i ∈ e.reads, Feeds body t i

/-- The record is one of the statement. -/
def RecordOf (s : CheckStatement) (r : CheckResult) : Prop :=
  r.checkId = s.checkId ∧ r.conditionNodeId = s.condition.nodeId

/-- One of the CHECKs was recorded UNKNOWN. -/
def AnyUnknown (which : CheckStatement → Prop) (records : List CheckResult) : Prop :=
  ∃ t, which t ∧ ∃ r ∈ records, RecordOf t r ∧ r.status = .unknown

theorem AnyUnknown.mono {which which' : CheckStatement → Prop} {records records' : List CheckResult}
    (h : AnyUnknown which records) (hwhich : ∀ t, which t → which' t) (hrecords : records ⊆ records') :
    AnyUnknown which' records' := by
  obtain ⟨t, ht, r, hr, hof, hunknown⟩ := h
  exact ⟨t, hwhich t ht, r, hrecords hr, hof, hunknown⟩

/-! ## References to calls -/

/-- The reference of a value to the result of a call. -/
def provenanceRef (i hash : String) : String := "prov:" ++ i ++ ":" ++ String.ofList ((hash.toList.take 19).drop 7)

/-- The reference of the answer of a call, when it is a result. -/
def callRef (call : ToolCallRequest × PortAnswer) : Option String :=
  match call.2 with
  | .returns raw => some (provenanceRef call.1.invocationId (raw.resultHash.getD ""))
  | _            => none

/-- The answer is a complete result. -/
def AnsweredComplete (call : ToolCallRequest × PortAnswer) : Prop :=
  ∃ raw, call.2 = .returns raw ∧ raw.completeness = some .complete

theorem invocationId_noColon (n : Nat) : ∀ c ∈ (invocationId n).toList, (c != ':') = true := by
  intro c hc
  have hpad : (Text.zeroPad 4 n).toList = List.replicate (4 - (Nat.toDigits 10 n).length) '0' ++ Nat.toDigits 10 n :=
    String.toList_ofList
  rw [invocationId, String.toList_append, hpad] at hc
  have hdigit : ∀ c : Char, c.isDigit = true → (c != ':') = true := by
    intro c hc
    rw [bne_iff_ne]
    rintro rfl
    cases hc
  rcases List.mem_append.1 hc with hc | hc
  · have hinv : ∀ c ∈ "inv".toList, (c != ':') = true := List.all_eq_true.1 rfl
    exact hinv c hc
  · rcases List.mem_append.1 hc with hc | hc
    · rw [List.eq_of_mem_replicate hc]
      rfl
    · exact hdigit c (Nat.isDigit_of_mem_toDigits (by decide) (by decide) hc)

/-- Results of different calls have different references. -/
theorem provenanceRef_inj {m n : Nat} {hash hash' : String}
    (h : provenanceRef (invocationId m) hash = provenanceRef (invocationId n) hash') : invocationId m = invocationId n := by
  have hchars := congrArg (fun s => ((String.toList s).drop 5).takeWhile (· != ':')) h
  have hread : ∀ (k : Nat) (t : String),
      ((provenanceRef (invocationId k) t).toList.drop 5).takeWhile (· != ':') = (invocationId k).toList := by
    intro k t
    have hsplit : (provenanceRef (invocationId k) t).toList.drop 5 =
        (invocationId k).toList ++ ':' :: (t.toList.take 19).drop 7 := by
      simp [provenanceRef, String.toList_append]
    rw [hsplit, List.takeWhile_append_of_pos (invocationId_noColon k)]
    simp
  rw [hread, hread] at hchars
  exact String.toList_injective hchars

/-- **What was computed rests on calls**: each reference is one of a call, whose answer is complete if what was computed
is, unless one of the CHECKs was recorded UNKNOWN. -/
def RestsOn (calls : List (ToolCallRequest × PortAnswer)) (which : CheckStatement → Prop) (records : List CheckResult)
    (refs : List String) (complete : Prop) : Prop :=
  ∀ ref ∈ refs, ∃ call ∈ calls, callRef call = some ref ∧ (complete → AnsweredComplete call ∨ AnyUnknown which records)

theorem RestsOn.nil {calls : List (ToolCallRequest × PortAnswer)} {which : CheckStatement → Prop}
    {records : List CheckResult} {complete : Prop} : RestsOn calls which records [] complete :=
  fun _ h => (List.not_mem_nil h).elim

theorem RestsOn.mono {calls calls' : List (ToolCallRequest × PortAnswer)} {which which' : CheckStatement → Prop}
    {records records' : List CheckResult} {refs refs' : List String} {complete complete' : Prop}
    (h : RestsOn calls which records refs complete) (hcalls : calls ⊆ calls') (hwhich : ∀ t, which t → which' t)
    (hrecords : records ⊆ records') (hrefs : refs' ⊆ refs) (hcomplete : complete' → complete) :
    RestsOn calls' which' records' refs' complete' := by
  intro ref href
  obtain ⟨call, hcall, hcallRef, hanswer⟩ := h ref (hrefs href)
  refine ⟨call, hcalls hcall, hcallRef, fun hc => ?_⟩
  rcases hanswer (hcomplete hc) with hanswered | hunknown
  · exact .inl hanswered
  · exact .inr (hunknown.mono hwhich hrecords)

/-! ## What the parts pass on -/

section Parts

variable {env : Env}

theorem fieldValue_ok {f : String} {t : TypeRef} {v x : ValueEnvelope} (h : fieldValue f t v = .ok x) :
    x.provenanceRefs = v.provenanceRefs ∧ x.completeness = v.completeness := by
  obtain ⟨value, -, hx⟩ := Stateful.bind_eq_ok h
  cases hx
  exact ⟨rfl, rfl⟩

theorem projectValue_ok {f : String} {t : TypeRef} {v x : ValueEnvelope} (h : projectValue f t v = .ok x) :
    x.provenanceRefs = v.provenanceRefs ∧ x.completeness = v.completeness := by
  obtain ⟨items, -, h₁⟩ := Stateful.bind_eq_ok h
  obtain ⟨values, -, hx⟩ := Stateful.bind_eq_ok h₁
  cases hx
  exact ⟨rfl, rfl⟩

/-- A built-in has one argument, and passes on what that carries. -/
theorem callValue_ok {f : String} {t : TypeRef} {vs : List ValueEnvelope} {x : ValueEnvelope}
    (h : callValue env f t vs = .ok x) :
    ∃ v ∈ vs, x.provenanceRefs = v.provenanceRefs ∧ x.completeness = v.completeness := by
  unfold callValue at h
  split at h
  · cases h
  · cases h
  · cases vs with
    | nil         => cases h
    | cons v rest =>
      cases h
      exact ⟨v, List.mem_cons_self .., rfl, rfl⟩

theorem combineCompleteness_complete {c d : Completeness} (h : combineCompleteness c d = .complete) :
    c = .complete ∧ d = .complete := by
  cases c <;> cases d <;> simp [combineCompleteness] at h ⊢

theorem binaryValue_ok {op : String} {t : TypeRef} {v w x : ValueEnvelope} (h : binaryValue env op t v w = .ok x) :
    x.provenanceRefs = (v.provenanceRefs ++ w.provenanceRefs).eraseDups ∧
      x.completeness = combineCompleteness v.completeness w.completeness := by
  obtain ⟨value, -, hx⟩ := Stateful.bind_eq_ok h
  cases hx
  exact ⟨rfl, rfl⟩

theorem reads_subset_items {e : Expression} : ∀ {es : List Expression}, e ∈ es → e.reads ⊆ readsOfItems es
  | [], h       => (List.not_mem_nil h).elim
  | e' :: es, h => by
    unfold readsOfItems
    rcases List.mem_cons.1 h with rfl | h
    · exact List.subset_append_left _ _
    · exact fun i hi => List.mem_append_right _ (reads_subset_items h hi)

/-- Where a value in a list comes from. -/
theorem forall₂_mem {α β : Type} {R : α → β → Prop} {as : List α} {bs : List β} (h : List.Forall₂ R as bs) {b : β}
    (hb : b ∈ bs) : ∃ a ∈ as, R a b := by
  induction h with
  | nil              => cases hb
  | cons hab _ ih    =>
    rcases List.mem_cons.1 hb with rfl | hb
    · exact ⟨_, List.mem_cons_self .., hab⟩
    · obtain ⟨a, ha, hr⟩ := ih hb
      exact ⟨a, List.mem_cons_of_mem _ ha, hr⟩

theorem validateResultStructure_ok {answer : PortAnswer} {q : ToolCallRequest} {result : ToolResultEnvelope}
    (h : validateResultStructure answer q = .ok result) :
    ∃ raw, answer = .returns raw ∧ raw.completeness = some result.completeness ∧ raw.resultHash.getD "" = result.resultHash := by
  unfold validateResultStructure at h
  split at h
  · cases h
  · cases h
  · rename_i raw
    split at h
    · cases h
    · split at h
      · rename_i hcompleteness _ _
        split at h
        · cases h
        · cases h
          exact ⟨raw, rfl, hcompleteness, rfl⟩
      · cases h

theorem evaluateCheck_ok {t : CheckStatement} {v : ValueEnvelope} {r : CheckResult} (h : evaluateCheck t v = .ok r) :
    RecordOf t r ∧ r.provenanceRefs = v.provenanceRefs ∧ (r.status = .pass → v.completeness = .complete) ∧
      (v.completeness ≠ .complete → r.status = .unknown) := by
  unfold evaluateCheck at h
  split at h
  · split at h
    · cases h
      refine ⟨⟨rfl, rfl⟩, rfl, fun hpass => ?_, fun hincomplete => if_neg hincomplete⟩
      by_contra hincomplete
      rw [show (_ : CheckStatus) = .unknown from if_neg hincomplete] at hpass
      cases hpass
    · cases h
  · cases h

end Parts

section PassComplete

variable [Platform]

/-! ## What holds at every point -/

/-- What the value of an expression rests on, in a state. -/
def ValueRests (body : List Statement) (s₀ : St) (e : Expression) (v : ValueEnvelope) (s : St) : Prop :=
  RestsOn (callsSince s₀ s) (FeedsInto body · e) s.ctx.checks v.provenanceRefs (v.completeness = .complete)

/-- What the value bound to a symbol rests on, in a state. -/
def SymbolRests (body : List Statement) (s₀ s : St) (i : String) (v : ValueEnvelope) : Prop :=
  RestsOn (callsSince s₀ s) (Feeds body · i) s.ctx.checks v.provenanceRefs (v.completeness = .complete)

/-- **The execution accounts for its values**: what is bound and what is recorded rests on its calls, and a record on the
CHECKs recorded before it. -/
structure Accounted (env : Env) (body : List Statement) (s₀ s : St) : Prop where
  fresh  : Fresh env s₀ s
  bound  : s.ctx.recorded.Bound (SymbolRests body s₀ s)
  checks : ∀ before r after, s.ctx.checks = before ++ r :: after → ∃ t, .check t ∈ withinBlock body ∧ RecordOf t r ∧
    RestsOn (callsSince s₀ s) (FeedsInto body · t.condition) before r.provenanceRefs (r.status = .pass)

section Account

variable {env : Env} {body : List Statement} {s₀ s x : St}

theorem Grows.callsSince (h : Grows s x) : callsSince s₀ s ⊆ callsSince s₀ x := (List.IsPrefix.drop h.1 _).subset

theorem valueRests_lasts (e : Expression) (v : ValueEnvelope) : Run.Lasts Grows (ValueRests body s₀ e v) :=
  fun _ _ h hx => h.mono hx.callsSince (fun _ ht => ht) hx.2.subset (fun _ hr => hr) (fun hc => hc)

/-- What is bound stays accounted for as the execution goes on. -/
theorem SymbolRests.grows {i : String} {v : ValueEnvelope} (h : SymbolRests body s₀ s i v) (hx : Grows s x) :
    SymbolRests body s₀ x i v :=
  h.mono hx.callsSince (fun _ ht => ht) hx.2.subset (fun _ hr => hr) (fun hc => hc)

theorem Accounted.bound_grows (h : Accounted env body s₀ s) (hx : Grows s x) :
    s.ctx.recorded.Bound (SymbolRests body s₀ x) := fun d hd i v hv => (h.bound d hd i v hv).grows hx

/-- Where nothing is bound or recorded the account stays. -/
theorem Accounted.keep (h : Accounted env body s₀ s) (hrecorded : x.ctx.recorded = s.ctx.recorded) (hx : Grows s x)
    (hfresh : Fresh env s₀ x) : Accounted env body s₀ x where
  fresh  := hfresh
  bound  := hrecorded ▸ h.bound_grows hx
  checks := by
    intro before r after hsplit
    rw [show x.ctx.checks = s.ctx.checks from congrArg Recorded.checks hrecorded] at hsplit
    obtain ⟨t, ht, hof, hrests⟩ := h.checks before r after hsplit
    exact ⟨t, ht, hof, hrests.mono hx.callsSince (fun _ ht => ht) (fun _ hr => hr) (fun _ hr => hr) (fun hc => hc)⟩

/-- Where only a binding is new. -/
theorem Accounted.rebound (h : Accounted env body s₀ s) {c : Context} (hchecks : c.checks = s.ctx.checks)
    (hcounter : c.invocationCounter = s.ctx.invocationCounter) (hbound : c.recorded.Bound (SymbolRests body s₀ s)) :
    Accounted env body s₀ { s with ctx := c } where
  fresh  := h.fresh.same ⟨rfl, hcounter⟩
  bound  := by
    have hsame : Grows s { s with ctx := c } := ⟨List.prefix_rfl, hchecks ▸ List.prefix_rfl⟩
    exact fun d hd i v hv => (hbound d hd i v hv).grows hsame
  checks := fun before r after hsplit => h.checks before r after (hchecks ▸ hsplit)

/-! ### Values of the parts -/

theorem rests_literal (n : String) (value : Value) (t : TypeRef) (s : St) :
    ValueRests body s₀ (.literal n value t) (.ofComplete value t .publicData []) s := RestsOn.nil

theorem rests_symbol (h : Accounted env body s₀ s) {n i : String} {t : TypeRef} {v : ValueEnvelope}
    (hv : s.ctx.resolve i = .ok v) : ValueRests body s₀ (.symbolRef n i t) v s :=
  RestsOn.mono (h.bound.resolve hv) (fun _ hc => hc) (fun _ ht => ⟨i, List.mem_singleton_self _, ht⟩) (fun _ hr => hr)
    (fun _ hr => hr) (fun hc => hc)

/-- A value that keeps references and completeness rests on what it was made of. -/
theorem rests_same {e e' : Expression} {v v' : ValueEnvelope} (h : ValueRests body s₀ e v s) (he : e.reads ⊆ e'.reads)
    (hrefs : v'.provenanceRefs = v.provenanceRefs) (hcomplete : v'.completeness = v.completeness) :
    ValueRests body s₀ e' v' s :=
  h.mono (fun _ hc => hc) (fun _ ⟨i, hi, ht⟩ => ⟨i, he hi, ht⟩) (fun _ hr => hr) (hrefs ▸ fun _ hr => hr)
    (fun hc => hcomplete ▸ hc)

theorem rests_call {n f : String} {es : List Expression} {t : TypeRef} {vs : List ValueEnvelope} {x : ValueEnvelope}
    (h : List.Forall₂ (fun e v => ValueRests body s₀ e v s) es vs) (hx : callValue env f t vs = .ok x) :
    ValueRests body s₀ (.call n f es t) x s := by
  obtain ⟨v, hv, hrefs, hcomplete⟩ := callValue_ok hx
  obtain ⟨e, he, hrests⟩ := forall₂_mem h hv
  exact rests_same hrests (reads_subset_items he) hrefs hcomplete

theorem rests_binary {n op : String} {l r : Expression} {t : TypeRef} {v w x : ValueEnvelope}
    (hv : ValueRests body s₀ l v s) (hw : ValueRests body s₀ r w s) (hx : binaryValue env op t v w = .ok x) :
    ValueRests body s₀ (.binary n op l r t) x s := by
  obtain ⟨hrefs, hcomplete⟩ := binaryValue_ok hx
  have hboth : x.completeness = .complete → v.completeness = .complete ∧ w.completeness = .complete := fun hc =>
    combineCompleteness_complete (hcomplete ▸ hc)
  intro ref href
  rw [hrefs, List.mem_eraseDups] at href
  rcases List.mem_append.1 href with href | href
  · exact hv.mono (fun _ hc => hc) (fun _ ⟨i, hi, ht⟩ => ⟨i, List.mem_append_left _ hi, ht⟩) (fun _ hr => hr)
      (fun _ hr => hr) (fun hc => (hboth hc).1) ref href
  · exact hw.mono (fun _ hc => hc) (fun _ ⟨i, hi, ht⟩ => ⟨i, List.mem_append_right _ hi, ht⟩) (fun _ hr => hr)
      (fun _ hr => hr) (fun hc => (hboth hc).2) ref href

theorem Fresh.after (h : Fresh env s₀ s) : s₀.world.calls <+: s.world.calls := by
  obtain ⟨-, made, -, hmade, -⟩ := h
  exact ⟨made, hmade.symm⟩

end Account

/-! ## The result of a READ -/

section Read

variable {s₀ : St} (env : Env)

/-- The call was answered with this result. -/
def Answered (s₀ : St) (q : ToolCallRequest) (result : ToolResultEnvelope) (s : St) : Prop :=
  ∃ raw, (q, .returns raw) ∈ callsSince s₀ s ∧ raw.completeness = some result.completeness ∧
    raw.resultHash.getD "" = result.resultHash

theorem answered_lasts (q : ToolCallRequest) (result : ToolResultEnvelope) : Run.Lasts Grows (Answered s₀ q result) :=
  fun _ _ ⟨raw, hraw, h⟩ hx => ⟨raw, hx.callsSince hraw, h⟩

/-- The calls made up to `s₀` are the first ones. -/
def After (s₀ s : St) : Prop := s₀.world.calls <+: s.world.calls

variable {env} in
theorem Stills.growing {α : Type} {m : Run St Exn α} (h : Stills env m) : Tracks (After s₀) m :=
  h.tracks (fun _ _ hx hs => hs.trans hx.grows.1)

theorem ofExcept_growing {α : Type} (x : Except Exn α) : Tracks (After s₀) (Run.ofExcept x) := Run.leads_ofExcept (fun _ _ _ _ _ => trivial)

theorem callPort_answers (q : ToolCallRequest) :
    Run.Leads (After s₀) Grows (fun _ => True) (callPort env q) (fun a s => (q, a) ∈ callsSince s₀ s) := by
  intro s hs _
  let called : St :=
    { s with world := { s.world with calls := s.world.calls ++ [(q, env.port s.world.calls q)] } }
  have hgrows : Grows s called := ⟨List.prefix_append _ _, List.prefix_rfl⟩
  have hcalled : After s₀ called := hs.trans hgrows.1
  have hmem : (q, env.port s.world.calls q) ∈ callsSince s₀ called := by
    show _ ∈ (s.world.calls ++ [(q, env.port s.world.calls q)]).drop s₀.world.calls.length
    rw [List.drop_append_of_le_length hs.length_le]
    exact List.mem_append_right _ (List.mem_singleton_self _)
  unfold callPort
  rw [Run.bind_eq, Run.look_andThen]
  cases hanswer : env.port s.world.calls q with
  | raises e     =>
    simp only [called, hanswer] at hgrows hcalled
    exact ⟨fun x hx => List.mem_singleton.1 hx ▸ ⟨hcalled, hgrows⟩, ⟨hcalled, hgrows⟩, fun a ha => by cases ha⟩
  | returns raw  =>
    simp only [called, hanswer] at hgrows hcalled hmem
    exact ⟨fun x hx => List.mem_singleton.1 hx ▸ ⟨hcalled, hgrows⟩, ⟨hcalled, hgrows⟩, fun a ha => by cases ha; exact hmem⟩
  | returnsOther =>
    simp only [called, hanswer] at hgrows hcalled hmem
    exact ⟨fun x hx => List.mem_singleton.1 hx ▸ ⟨hcalled, hgrows⟩, ⟨hcalled, hgrows⟩, fun a ha => by cases ha; exact hmem⟩

theorem callTools_answers (q : ToolCallRequest) :
    Run.Leads (After s₀) Grows (fun _ => True) (callTools env q) (fun a s => (q, a) ∈ callsSince s₀ s) := by
  unfold callTools
  split
  · refine (readClock_still env).growing.andThen (fun _ => (callPort_answers env q).attempt.andThen (fun outcome => ?_))
    have hlasts : Run.Lasts Grows (fun s => ∀ a, outcome = .ok a → (q, a) ∈ callsSince s₀ s) := fun _ _ h hx a ha =>
      hx.callsSince (h a ha)
    exact (readClock_still env).growing.andThen_keeping hlasts (fun _ => (ofExcept_growing _).andThen_keeping hlasts (fun _ =>
      (ofExcept_growing _).andThen_keeping hlasts (fun _ => Run.leads_ofExcept (fun a ha _ _ hq => hq a ha))))
  · exact callPort_answers env q

theorem checkedCall_answers (t : ToolCall) (q : ToolCallRequest) (timeoutMs : Int) (policy : ResultPolicy) :
    Run.Leads (After s₀) Grows (fun _ => True) (checkedCall env t q timeoutMs policy) (Answered s₀ q) := by
  have hcall : Run.Leads (After s₀) Grows (fun _ => True) (executeWithTimeout env q timeoutMs)
      (fun a s => (q, a) ∈ callsSince s₀ s) := by
    refine (callTools_answers env q).handle (fun e => ?_)
    split <;> exact Run.leads_fail _
  refine (ofExcept_growing _).andThen (fun _ => hcall.andThen (fun answer => ?_))
  have hresult : Run.Leads (After s₀) Grows (fun s => (q, answer) ∈ callsSince s₀ s)
      (Run.ofExcept (validateResultStructure answer q) : Run St Exn _) (Answered s₀ q) := by
    refine Run.leads_ofExcept (fun result hr s _ hq => ?_)
    obtain ⟨raw, rfl, hcompleteness, hhash⟩ := validateResultStructure_ok hr
    exact ⟨raw, hq, hcompleteness, hhash⟩
  refine hresult.andThen (fun result => (ofExcept_growing _).andThen_keeping (answered_lasts q result) (fun _ =>
    (ofExcept_growing _).andThen_keeping (answered_lasts q result) (fun _ => ?_)))
  split
  · exact Run.leads_fail _
  · exact (checkDeadline_still env).growing.andThen_keeping (answered_lasts q result) (fun _ =>
      Run.leads_done (fun _ _ hq => hq))

/-- The value rests on one call, whose answer has its completeness. -/
def RestsOnOne (s₀ : St) (v : ValueEnvelope) (s : St) : Prop :=
  ∃ call ∈ callsSince s₀ s, ∃ ref, callRef call = some ref ∧ v.provenanceRefs = [ref] ∧
    (v.completeness = .complete → AnsweredComplete call)

theorem storedRef_still (result : ToolResultEnvelope) : Stills env (storedRef env result) := by
  unfold storedRef
  split
  · exact Stills.done _
  · exact (putSnapshot_still env _ _).bind (fun _ => Stills.done _)

theorem performCall_answers (t : ToolCall) (principal : ExecutionPrincipal) (policy : ResultPolicy) :
    Run.Leads (After s₀) Grows (fun _ => True) (performCall env t principal policy) (RestsOnOne s₀) := by
  refine (ofExcept_growing _).andThen (fun _ => (putSnapshot_still env _ _).growing.andThen (fun _ =>
    (emit_still env _ _).growing.andThen (fun _ => Run.leads_look_andThen (fun ctx =>
      (remainingDurationMs_still env).growing.andThen (fun remaining => ?_)))))
  have hreport : ∀ e, Run.Leads (After s₀) Grows (fun _ => True)
      (reportFailure env t (remaining ≤ t.contract.timeoutMs) e) (Answered s₀ (t.request ctx principal)) := by
    intro e
    have hfailed : ∀ code detail status, Tracks (After s₀) (toolFailed env t code detail status) := fun _ _ _ =>
      (toolFailed_still env t _ _ _).growing
    unfold reportFailure
    split
    · exact (hfailed _ _ _).andThen (fun _ => Run.leads_fail _)
    · split
      · exact (hfailed _ _ _).andThen (fun _ => Run.leads_fail _)
      · exact (hfailed _ _ _).andThen (fun _ => Run.leads_fail _)
    · exact Run.leads_fail _
    · exact Run.leads_fail _
    · exact (hfailed _ _ _).andThen (fun _ => Run.leads_fail _)
  refine ((checkedCall_answers env t (t.request ctx principal) _ policy).handle hreport).andThen (fun result => ?_)
  have hlasts := @answered_lasts _ s₀ (t.request ctx principal) result
  refine (storedRef_still env result).growing.andThen_keeping hlasts (fun stored =>
    (emit_still env _ _).growing.andThen_keeping hlasts (fun _ =>
    (onList_still env (observeCollection_still env) _).growing.andThen_keeping hlasts (fun _ => ?_)))
  refine Run.leads_done (fun s _ hanswered => ?_)
  obtain ⟨raw, hraw, hcompleteness, hhash⟩ := hanswered
  refine ⟨_, hraw, provenanceRef t.invocationId result.resultHash, ?_, rfl, fun hc => ⟨raw, rfl, ?_⟩⟩
  · rw [← hhash]
    rfl
  · rw [hcompleteness]
    exact congrArg some hc

end Read

/-! ## Executions -/

section Executions

variable {env : Env} {body : List Statement} {s₀ s x : St}

theorem Quiet.grows (h : Quiet env s x) : Grows s x := by
  cases h with
  | world w hw hc => exact ⟨hc, List.prefix_rfl⟩
  | _             => exact ⟨List.prefix_rfl, List.prefix_rfl⟩

/-- A quiet run that numbers its calls keeps the account. -/
theorem Quiets.accounted {α : Type} {m : Run St Exn α} (h : Quiets env m) (hfresh : Run.Preserves (Fresh env s₀) m) :
    Run.Preserves (Accounted env body s₀) m := by
  intro s
  have hgrows := h.always (fun _ _ => Quiet.grows) s
  have hrecorded : ∀ c, Run.Preserves (fun s => s.ctx.recorded = c) m := fun c =>
    Quiets.preserves (I := (· = c)) h
  exact ⟨fun x hx hs => hs.keep ((hrecorded _ s).1 x hx rfl) (hgrows.1 x hx) ((hfresh s).1 x hx hs.fresh),
    fun hs => hs.keep ((hrecorded _ s).2 rfl) hgrows.2 ((hfresh s).2 hs.fresh)⟩

theorem still_accounted (hx : Still env s x) (hs : Accounted env body s₀ s) : Accounted env body s₀ x :=
  hs.keep hx.quiet.recorded hx.grows (hs.fresh.same hx.calls)

/-- **The value of a READ rests on its call.** -/
theorem executeRead_rests (n u : String) (es : List (String × Expression)) (t : TypeRef) (p : ResultPolicy)
    (h : Tracks (Accounted env body s₀) (evaluateArguments env es)) :
    Run.Leads (Accounted env body s₀) Grows (fun _ => True)
      (executeRead env n u (es.map Prod.fst) (evaluateArguments env es) p) (ValueRests body s₀ (.read n u es t p)) := by
  rw [executeRead_eq]
  refine Run.leads_look_andThen (fun ctx => ?_)
  refine Run.Leads.andThen (Q := fun _ _ => True) (Run.leads_ofExcept (fun _ _ _ _ _ => trivial)) (fun found => ?_)
  refine h.andThen (fun args => ((beforeToolCall_still env).tracks (fun _ _ => still_accounted)).andThen (fun _ => ?_))
  have hcall : Run.Leads (After s₀) Grows (fun _ => True)
      (numberedCall env n found.1 found.2.1 found.2.2.2.decisionId found.2.2.1 p args) (RestsOnOne s₀) := by
    refine Run.Leads.andThen (Q := fun _ _ => True) (Run.leads_write (fun s hs _ => ⟨hs, ⟨List.prefix_rfl, List.prefix_rfl⟩, trivial⟩))
      (fun _ => Run.leads_look_andThen (fun counted => performCall_answers env _ _ p))
  have hkeeps : Run.Preserves (Accounted env body s₀)
      (numberedCall env n found.1 found.2.1 found.2.2.2.decisionId found.2.2.1 p args) :=
    Quiets.accounted (numberedCall_quiet _ _ _ _ _ _ _) (numberedCall_fresh _ _ _ _ _ _ _)
  refine (hcall.strengthen hkeeps (fun s hs => hs.fresh.after)).conseq (fun _ _ hp => hp) ?_
  rintro v s - ⟨call, hcall, ref, hcallRef, hrefs, hanswer⟩ ref' href'
  rw [hrefs, List.mem_singleton] at href'
  exact ⟨call, hcall, href' ▸ hcallRef, fun hc => .inl (hanswer hc)⟩

/-- What the bindings of a statement rest on, once the value does. -/
theorem ValueRests.bound {e : Expression} {v w : ValueEnvelope} {i : String} (h : ValueRests body s₀ e v s)
    (hfeeds : ∀ t, FeedsInto body t e → Feeds body t i) (hrefs : w.provenanceRefs = v.provenanceRefs)
    (hcomplete : w.completeness = v.completeness) : SymbolRests body s₀ s i w :=
  h.mono (fun _ hc => hc) hfeeds (fun _ hr => hr) (hrefs ▸ fun _ hr => hr) (fun hc => hcomplete ▸ hc)

/-- **A record rests on what the condition of its CHECK does**, and on the records before it. -/
theorem Accounted.recorded {t : CheckStatement} {v : ValueEnvelope} {r : CheckResult} (ht : .check t ∈ withinBlock body)
    (h : Accounted env body s₀ s) (hv : ValueRests body s₀ t.condition v s) (hr : evaluateCheck t v = .ok r) :
    Accounted env body s₀ { s with ctx := { s.ctx with checks := s.ctx.checks ++ [r] } } where
  fresh  := h.fresh.same ⟨rfl, rfl⟩
  bound  := h.bound_grows ⟨List.prefix_rfl, List.prefix_append _ _⟩
  checks := by
    intro before r' after hsplit
    rcases List.eq_nil_or_concat after with rfl | ⟨after, last, rfl⟩
    · obtain ⟨rfl, hlast⟩ := List.append_inj' hsplit rfl
      obtain rfl := List.singleton_injective hlast
      obtain ⟨hof, hrefs, hpass, -⟩ := evaluateCheck_ok hr
      exact ⟨t, ht, hof, hv.mono (fun _ hc => hc) (fun _ ht => ht) (fun _ hr => hr) (hrefs ▸ fun _ hr => hr) hpass⟩
    · rw [List.concat_eq_append, ← List.cons_append, ← List.append_assoc] at hsplit
      exact h.checks before r' after (List.append_inj' hsplit rfl).1

/-- **The status of a CHECK rests on what its condition does**; it is complete where its CHECK is the one that was
UNKNOWN. -/
theorem status_rests {t : CheckStatement} {v : ValueEnvelope} {r : CheckResult} (ht : .check t ∈ withinBlock body)
    (hv : ValueRests body s₀ t.condition v s) (hr : evaluateCheck t v = .ok r) {value : Value} {ty : TypeRef}
    {c : DataClassification} :
    SymbolRests body s₀ { s with ctx := { s.ctx with checks := s.ctx.checks ++ [r] } } t.resultSymbolId
      (.ofComplete value ty c v.provenanceRefs) := by
  obtain ⟨hof, -, -, hunknown⟩ := evaluateCheck_ok hr
  intro ref href
  obtain ⟨call, hcall, hcallRef, hanswer⟩ := hv ref href
  refine ⟨call, hcall, hcallRef, fun _ => ?_⟩
  by_cases hcomplete : v.completeness = .complete
  · refine (hanswer hcomplete).imp_right (fun h => h.mono ?_ (List.subset_append_left _ _))
    exact fun u ⟨i, hi, hu⟩ => Feeds.condition ht hi hu
  · exact .inr ⟨t, .result ht, r, List.mem_append_right _ (List.mem_singleton_self r), hof, hunknown hcomplete⟩

theorem accounted_rules (env : Env) (body : List Statement) (s₀ : St) :
    TrackingRules env (Accounted env body s₀) (ValueRests body s₀) (fun s => s ∈ withinBlock body) where
  still   := fun _ _ => still_accounted
  lasts   := valueRests_lasts
  literal := rests_literal
  symbol  := fun _ _ _ _ _ hs hv => rests_symbol hs hv
  field   := fun _ _ _ _ _ _ _ hv hx =>
    rests_same hv (fun _ hi => hi) (fieldValue_ok hx).1 (fieldValue_ok hx).2
  project := fun _ _ _ _ _ _ _ hv hx =>
    rests_same hv (fun _ hi => hi) (projectValue_ok hx).1 (projectValue_ok hx).2
  call    := fun _ _ _ _ _ _ _ hvs hx => rests_call hvs hx
  binary  := fun _ _ _ _ _ _ _ _ _ hv hw hx => rests_binary hv hw hx
  read    := fun n u es t p h => executeRead_rests n u es t p h
  input   := fun _ _ _ _ _ hs => hs.rebound rfl rfl (hs.bound.input RestsOn.nil)
  context := fun _ _ _ _ _ hs => hs.rebound rfl rfl (hs.bound.context RestsOn.nil)
  push    := fun _ hs => hs.rebound rfl rfl hs.bound.push
  pop     := fun _ _ _ _ _ hf hg hs => hs.rebound rfl rfl (hs.bound.pop hf hg)
  node    := fun _ _ hs => hs.rebound rfl rfl hs.bound
  depth   := fun _ _ hs => hs.rebound rfl rfl hs.bound
  output  := fun _ _ hs => hs.rebound rfl rfl hs.bound
  bind    := fun _ _ _ ht hs hv => hs.rebound rfl rfl
    (hs.bound.symbol (hv.bound (fun _ ⟨_, hi, hu⟩ => Feeds.bound ht hi hu) rfl rfl))
  item    := fun _ _ _ _ _ _ _ _ ht hs hv => hs.rebound rfl rfl
    (hs.bound.symbol (hv.bound (fun _ ⟨_, hi, hu⟩ => Feeds.item ht hi hu) rfl rfl))
  record  := fun _ _ _ _ ht hs hv hr => hs.recorded ht hv hr
  status  := fun _ _ _ _ ht hs hv hr =>
    (hs.recorded ht hv hr).rebound rfl rfl ((hs.recorded ht hv hr).bound.check (status_rests ht hv hr))

/-- Two calls of one execution with one reference are the same. -/
theorem Fresh.sameCall (h : Fresh env s₀ s) {call call' : ToolCallRequest × PortAnswer} (hcall : call ∈ callsSince s₀ s)
    (hcall' : call' ∈ callsSince s₀ s) {ref : String} (href : callRef call = some ref) (href' : callRef call' = some ref) :
    call = call' := by
  have hids : ∀ {c : ToolCallRequest × PortAnswer}, callRef c = some ref →
      ∃ hash, ref = provenanceRef c.1.invocationId hash := by
    intro c hc
    unfold callRef at hc
    split at hc
    · cases hc
      exact ⟨_, rfl⟩
    · cases hc
  obtain ⟨k, hk⟩ := h.numbered hcall
  obtain ⟨l, hl⟩ := h.numbered hcall'
  obtain ⟨hash, hhash⟩ := hids href
  obtain ⟨hash', hhash'⟩ := hids href'
  rw [hhash, hk, hl] at hhash'
  have hsame : call.1.invocationId = call'.1.invocationId := by
    rw [hk, hl]
    exact provenanceRef_inj hhash'
  exact List.inj_on_of_nodup_map h.nodup hcall hcall' hsame

/-- Wherever an execution passes, it accounts for its values. -/
theorem Passes.accounted {env : Env} {skill : SkillObject} {request : ExecutionRequest} {s x : St}
    (h : Passes env skill request s x) :
    Accounted (env.forExecution skill request) skill.body (tryState env skill request s) x := by
  let start := tryState env skill request s
  have hstart : Accounted (env.forExecution skill request) skill.body start start := by
    have hempty : ∀ j w, (Dict.empty : Dict ValueEnvelope).get? j = some w → SymbolRests skill.body start start j w :=
      fun j w hget => by cases hget
    have hroot : ∀ d ∈ Frames.root.all, ∀ j w, d.get? j = some w → SymbolRests skill.body start start j w := fun d hd => by
      rw [List.mem_singleton.1 hd]
      exact hempty
    refine ⟨Fresh.refl _, bound_iff.2 ⟨hempty, hempty, hroot, hroot⟩, fun before r after hsplit => ?_⟩
    exact absurd hsplit.symm (List.append_ne_nil_of_right_ne_nil _ (List.cons_ne_nil _ _))
  exact h.invariant hstart (fun principal decision =>
    ((accounted_rules _ skill.body start).executionTry (fun _ ht => ht)).preserves)

/-- **A PASS rests on complete results.** At every point of every execution, each reference of a recorded CHECK names
exactly one call of that execution; and where a CHECK passed and no CHECK whose status reaches its condition was UNKNOWN
before it, every call it names was answered with a complete result. -/
theorem pass_rests_on_complete {env : Env} {skill : SkillObject} {request : ExecutionRequest} {s x : St}
    (h : Passes env skill request s x) {before after : List CheckResult} {r : CheckResult}
    (hr : x.ctx.checks = before ++ r :: after) :
    (∀ ref ∈ r.provenanceRefs, ∃! call, call ∈ callsSince s x ∧ callRef call = some ref) ∧
      (r.status = .pass →
        (∀ t, .check t ∈ withinBlock skill.body → RecordOf t r →
          ¬ AnyUnknown (FeedsInto skill.body · t.condition) before) →
        ∀ call ∈ callsSince s x, ∀ ref ∈ r.provenanceRefs, callRef call = some ref → AnsweredComplete call) := by
  have haccount := h.accounted
  obtain ⟨t, ht, hof, hrests⟩ := haccount.checks before r after hr
  refine ⟨fun ref href => ?_, fun hpass hknown call hcall ref href hcallRef => ?_⟩
  · obtain ⟨call, hcall, hcallRef, -⟩ := hrests ref href
    exact ⟨call, ⟨hcall, hcallRef⟩, fun call' h' => haccount.fresh.sameCall h'.1 hcall h'.2 hcallRef⟩
  · obtain ⟨call', hcall', hcallRef', hanswer⟩ := hrests ref href
    rw [haccount.fresh.sameCall hcall hcall' hcallRef hcallRef']
    exact (hanswer hpass).resolve_right (hknown t ht hof)

end Executions

/-! ## A CHECK of what a tool answers -/

section Checked

/-- The contract of a tool that reads a flag. -/
def flagContract : ToolContract := { readContract with toolId := "flag.read", outputType := BOOL }

def flagTool : RequiredTool :=
  { readTool with toolId := "flag.read", contractHash := flagContract.contractHash, writeHasRisk := fun h => by simp [readTool] at h }

/-- A CHECK that asks for the flag. -/
def readCheck : CheckStatement :=
  { nodeId := "check0001", checkId := "FLAG", condition := .read "expr0001" "tool-1" [] BOOL {}, severity := "ERROR",
    onFail := "CONTINUE", message := "not flagged", resultSymbolId := "s0001" }

def readCheckSkill : SkillObject :=
  { SkillObject.ofBody "1.1" "0.2" ⟨1, 1, 1, 1, 1000⟩ [.check readCheck] with requiredTools := [flagTool] }.sealHash

/-- The hash of the flag. -/
def flagHash : String := (toolResultHash (.bool true)).toOption.getD ""

def flagAnswer (q : ToolCallRequest) : RawToolResult :=
  { invocationId := some q.invocationId, toolId := some q.toolId, toolVersion := some q.toolVersion, value := .bool true,
    typeInfo := some BOOL, presence := some .present, completeness := some .complete, classification := some .internal,
    resultHash := some flagHash, snapshotRef := some none }

/-- Its tools, which answer every call with the flag. -/
def Env.flagged : Env :=
  { Env.bare with catalog := ⟨[flagContract], by simp⟩, port := fun _ q => .returns (flagAnswer q) }

theorem readCheckSkill_preflight (env : Env) (h : env.catalog = Env.flagged.catalog) :
    preflight env readCheckSkill false = .ok () := by
  have hhash : readCheckSkill.computedHash = .ok readCheckSkill.semanticHash := SkillObject.sealHash_computedHash rfl
  have hprofile : supportedProfile readCheckSkill.irVersion readCheckSkill.languageVersion =
      some readCheckSkill.semanticsProfile := rfl
  have hcontrolled : containsControlled readCheckSkill.body = false := rfl
  have hbounded : readCheckSkill.analysis.bounded = true := rfl
  have htools : readCheckSkill.requiredTools = [flagTool] := rfl
  have htool : preflightTool env false flagTool = .ok () := by
    have hresolve : env.catalog.resolve flagTool.toolId flagTool.version = .ok flagContract := by
      rw [h]
      rfl
    unfold preflightTool
    rw [hresolve]
    simp [bind, Except.bind, pure, Except.pure, flagTool, readTool]
  unfold preflight
  rw [hprofile, hhash, hcontrolled, hbounded, htools]
  simp [bind, Except.bind, pure, Except.pure, htool]

theorem readCheckSkill_resolves (env : Env) (h : env.catalog = Env.flagged.catalog) (ctx : Context)
    (hskill : ctx.skill = readCheckSkill) (hrequest : ctx.request = analystRequest) :
    ∃ d, resolveRead env ctx "tool-1" [] = .ok (flagTool, flagContract, analyst, d) := by
  have hauthorize : ∃ d, env.authorizer.authorize analyst ("tool:" ++ "flag.read" ++ ":execute")
      ["nsl:skill:execute"] = .ok d := by
    unfold StaticAuthorizer.authorize
    rw [analyst_validate]
    exact ⟨_, rfl⟩
  obtain ⟨d, hd⟩ := hauthorize
  have hfind : readCheckSkill.requiredTools.find? (fun r => r.toolRef = "tool-1") = some flagTool := rfl
  have hresolve : env.catalog.resolve flagTool.toolId flagTool.version = .ok flagContract := by
    rw [h]
    rfl
  refine ⟨d, ?_⟩
  unfold resolveRead
  rw [hskill, hfind]
  dsimp only
  rw [hresolve]
  simp only [bind, Except.bind]
  rw [if_neg (by simp [flagContract, readContract]), hrequest]
  exact Stateful.bind_ok hd (fun d => .ok (flagTool, flagContract, analyst, d))

def readCheckStart : Context := { skill := readCheckSkill, request := analystRequest, startedNs := 0 }

/-- The context once the flag is read. -/
def readCheckRead : Context :=
  { readCheckStart with currentNodeId := some "check0001", invocationCounter := 1, resources := { toolCalls := 1 } }

def readCheckRef : String := provenanceRef (invocationId 1) flagHash

def readCheckPassed : CheckResult :=
  { checkId := "FLAG", status := .pass, severity := "ERROR", message := "not flagged", conditionNodeId := "expr0001",
    presence := .present, completeness := .complete, provenanceRefs := [readCheckRef], reasonCode := none }

/-- The flag is read, wherever the surroundings are those. -/
theorem readCheck_reads {env : Env} (h : InTime env readCheckStart) (hcatalog : env.catalog = Env.flagged.catalog)
    (hport : env.port = Env.flagged.port) (hsink : ∀ m, env.measurementSink m = .ok ())
    (hsnapshots : env.snapshots = none) :
    Reaches { readCheckStart with currentNodeId := some "check0001" } (evaluate env readCheck.condition)
      { value := .bool true, typeInfo := some BOOL, presence := .present, completeness := .complete,
        classification := .internal, provenanceRefs := [readCheckRef] } readCheckRead := by
  let entered : Context := { readCheckStart with currentNodeId := some "check0001" }
  obtain ⟨d, hd⟩ := readCheckSkill_resolves env hcatalog entered rfl rfl
  let t : ToolCall := ⟨"expr0001", invocationId 1, flagTool, flagContract, d.decisionId, []⟩
  let q : ToolCallRequest := t.request readCheckRead analyst
  let result : ToolResultEnvelope :=
    ⟨q.invocationId, q.toolId, q.toolVersion, .bool true, BOOL, .present, .complete, .internal, flagHash, none⟩
  have hhash : toolResultHash (.bool true) = .ok flagHash := by
    obtain ⟨text, htext⟩ : ∃ x, toolResultHash (.bool true) = .ok x := ⟨_, rfl⟩
    unfold flagHash
    rw [htext]
    rfl
  have ha : AnswersWith env t q (flagAnswer q) result {} := by
    refine ⟨fun calls => by rw [hport]; rfl, hsink, fun outcome n => ?_, ?_, ?_, ?_, ?_, by simp [result]⟩
    · unfold ToolExecutionMeasurement.check
      have htexts : ¬ (["run-1", "inv0001", "expr0001", "flag.read", "1.0.0", "tenant"].any Text.isBlank = true) := by decide
      exact if_neg htexts
    · unfold validateRequest
      have hsame : ¬ q.contractHash ≠ t.contract.contractHash := not_not.2 rfl
      rw [if_neg hsame, if_neg (by simp [q, t, ToolCall.request, flagContract, readContract])]
      rfl
    · rfl
    · rfl
    · unfold validateResultHash
      rw [hhash]
      exact if_pos rfl
  have htime : InTime env entered := h
  have hread : Reaches entered (executeRead env "expr0001" "tool-1" [] (Run.done []) {}) (result.toValue readCheckRef)
      readCheckRead :=
    executeRead_reaches htime hd (Reaches.done []) Nat.one_pos hsnapshots rfl (t := t) rfl ha rfl (by simp [result])
  unfold evaluate readCheck evaluateIr evaluateArguments
  exact evaluated_passes rfl h hread h rfl rfl (by simp)

/-- The CHECK is recorded PASS, whatever comes after it. -/
theorem readCheck_meets {env : Env} (h : InTime env readCheckStart) (hcatalog : env.catalog = Env.flagged.catalog)
    (hport : env.port = Env.flagged.port) (hsink : ∀ m, env.measurementSink m = .ok ()) (hsnapshots : env.snapshots = none)
    (d : AuthorizationDecision) :
    Run.Meets St.ctx readCheckStart (executionTry env readCheckSkill analystRequest analyst d readCheckSkill.body false)
      { readCheckRead with checks := [readCheckPassed] } := by
  let value : ValueEnvelope :=
    { value := .bool true, typeInfo := some BOOL, presence := .present, completeness := .complete,
      classification := .internal, provenanceRefs := [readCheckRef] }
  have hcheck : Run.Meets St.ctx { readCheckStart with currentNodeId := some "check0001" } (executeCheck env readCheck)
      { readCheckRead with checks := [readCheckPassed] } := by
    have hverdict : evaluateCheck readCheck value = .ok readCheckPassed := rfl
    refine (readCheck_reads h hcatalog hport hsink hsnapshots).meets ?_
    refine (Reaches.ofExcept (a := readCheckPassed) (by rw [hverdict])).meets (Run.Meets.andThen ?_)
    exact Run.meets_write (fun s hs => by rw [hs]; rfl)
  have hstatement : Run.Meets St.ctx readCheckStart
      (aroundStatement env (.check readCheck) (executeCheck env readCheck)) { readCheckRead with checks := [readCheckPassed] } := by
    refine (checkDeadline_reaches h).meets (Reaches.getCtx.meets ((Reaches.modifyCtx _).meets ?_))
    exact (emit_reaches _ rfl).meets (Run.Meets.andThen hcheck)
  have hblock : Run.Meets St.ctx readCheckStart (executeBlock env readCheckSkill.body)
      { readCheckRead with checks := [readCheckPassed] } := by
    rw [show readCheckSkill.body = [.check readCheck] from rfl, executeBlock, executeStatement]
    exact Run.Meets.andThen hstatement
  have hprologue : Reaches readCheckStart (executionPrologue env readCheckSkill analystRequest analyst d false) ()
      readCheckStart :=
    executionPrologue_reaches h (readCheckSkill_preflight env hcatalog) hsnapshots rfl rfl rfl rfl
  exact Run.Meets.handle (hprologue.meets (Run.Meets.andThen hblock))

end Checked

end PassComplete

section Ascii

attribute [local instance] Platform.ascii

/-- An execution of that skill passes through the PASS, and has made a call by then. -/
theorem readCheck_passes : ∃ x call, Passes Env.flagged readCheckSkill analystRequest ⟨readCheckStart, {}⟩ x ∧
    x.ctx.checks = [readCheckPassed] ∧ call ∈ callsSince ⟨readCheckStart, {}⟩ x := by
  let start : St := ⟨readCheckStart, {}⟩
  obtain ⟨d, hd⟩ := @analyst_authorized _ (Env.flagged.forExecution readCheckSkill analystRequest) readCheckSkill rfl
  have htime : InTime (Env.flagged.forExecution readCheckSkill analystRequest) readCheckStart := fun n => by
    show (0 : Int) < 1000 * 1000000 - (0 - 0)
    decide
  obtain ⟨x, hx, hctx⟩ := readCheck_meets htime rfl rfl (fun _ => rfl) rfl d
    (tryState Env.flagged readCheckSkill analystRequest start) rfl
  have hpasses : Passes Env.flagged readCheckSkill analystRequest start x := ⟨analyst, d, hd, .inr (.inl hx)⟩
  have hchecks : x.ctx.checks = [readCheckPassed] := by rw [hctx]
  obtain ⟨t, -, -, hrests⟩ := hpasses.accounted.checks [] readCheckPassed [] hchecks
  obtain ⟨call, hcall, -, -⟩ := hrests readCheckRef (List.mem_singleton_self _)
  exact ⟨x, call, hpasses, hchecks, hcall⟩

/-- An execution of that skill records the PASS, and its one reference is of a complete result. -/
theorem pass_rests_on_complete_flag : ∃ x, Passes Env.flagged readCheckSkill analystRequest ⟨readCheckStart, {}⟩ x ∧
    x.ctx.checks = [readCheckPassed] ∧ (∃! call, call ∈ callsSince ⟨readCheckStart, {}⟩ x ∧ callRef call = some readCheckRef) ∧
    ∀ call ∈ callsSince ⟨readCheckStart, {}⟩ x, callRef call = some readCheckRef → AnsweredComplete call := by
  obtain ⟨x, -, hpasses, hchecks, -⟩ := readCheck_passes
  have hsplit : x.ctx.checks = [] ++ readCheckPassed :: [] := hchecks
  obtain ⟨hrefs, hpass⟩ := pass_rests_on_complete hpasses hsplit
  have href : readCheckRef ∈ readCheckPassed.provenanceRefs := List.mem_singleton_self _
  refine ⟨x, hpasses, hchecks, hrefs readCheckRef href, fun call hcall hcallRef => ?_⟩
  exact hpass rfl (fun _ _ _ ⟨_, _, _, hr, _⟩ => (List.not_mem_nil hr).elim) call hcall readCheckRef href hcallRef

end Ascii

end Nsl
