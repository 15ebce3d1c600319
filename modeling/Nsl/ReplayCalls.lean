import Mathlib.Order.Bounds.Defs
import Nsl.ProviderCalls
import Nsl.WriteReplay
/-!
# Replay calls — what the recorded WRITE executor answers

`_StrictRecordedWriteExecutor` of `write_replay_execution.py`: each call has to be the next recorded one, and the first
that is not closes the executor. Over any sequence of calls it answers **the longest prefix that agrees with what was
recorded, and nothing after it** (`execute_calls`).
-/
namespace Nsl

section ReplayCalls

variable [Platform]

/-! ## The executor -/

inductive ReplayWriteSource | recorded | mock
  deriving DecidableEq

/-- `ReplayWriteDecision`: no retry and no side effect. -/
structure ReplayWriteDecision where
  outcome               : WriteOutcomeRecord
  source                : ReplayWriteSource
  automaticRetryAllowed : Bool := false
  sideEffectPerformed   : Bool := false
  noRetry               : automaticRetryAllowed = false := by rfl
  noSideEffect          : sideEffectPerformed = false := by rfl

/-- `_StrictRecordedWriteExecutor` between two calls. -/
structure StrictRecordedWriteExecutor where
  recorded : RecordedWriteExecutor
  source   : ReplayWriteSource
  index    : Nat
  failed   : Bool

namespace StrictRecordedWriteExecutor

/-- `__init__` -/
def create (exchanges : List RecordedWriteExchange) (source : ReplayWriteSource) :
    Except Exn StrictRecordedWriteExecutor :=
  (RecordedWriteExecutor.create exchanges).map (fun recorded => ⟨recorded, source, 0, false⟩)

end StrictRecordedWriteExecutor

/-- `RecordedWriteExchange.matches` -/
def RecordedWriteExchange.matchesCall (x : RecordedWriteExchange) (request : WriteCallRequest) : Except WriteFault Bool := do
  let candidate ← WriteAttemptRecord.fromRequest request x.request.requestedAt.time
  return candidate = x.request

namespace StrictRecordedWriteExecutor

/-- `execute`: the executor after the call, and the call's end. -/
def execute (x : StrictRecordedWriteExecutor) (request : WriteCallRequest) :
    StrictRecordedWriteExecutor × Except WriteFault ReplayWriteDecision :=
  if x.failed then (x, .error (.raised (.other "Replay WRITE executor is failed closed")))
  else
    match x.recorded.exchanges[x.index]? with
    | none          =>
      ({ x with failed := true }, .error (.raised (.other "Replay requested more WRITE calls than recorded")))
    | some expected =>
      match expected.matchesCall request with
      | .error e   => (x, .error e)
      | .ok false  =>
        ({ x with failed := true },
          .error (.raised (.other "Replay WRITE call does not match recorded invocation order")))
      | .ok true   => ({ x with index := x.index + 1 }, .ok { outcome := expected.outcome, source := x.source })

/-- `assert_consumed` -/
def assertConsumed (x : StrictRecordedWriteExecutor) : Except Exn Unit :=
  if x.failed then .error (.other "Replay WRITE executor is failed closed")
  else if x.index ≠ x.recorded.exchanges.length then .error (.other "Replay did not consume every recorded WRITE call")
  else .ok ()

/-- A sequence of calls: the executor after it, and how each call ended. -/
def calls (x : StrictRecordedWriteExecutor) : List WriteCallRequest →
    StrictRecordedWriteExecutor × List (Except WriteFault ReplayWriteDecision)
  | []      => (x, [])
  | q :: qs => (((x.execute q).1.calls qs).1, (x.execute q).2 :: ((x.execute q).1.calls qs).2)

theorem calls_cons (x : StrictRecordedWriteExecutor) (q : WriteCallRequest) (qs : List WriteCallRequest) :
    x.calls (q :: qs) = (((x.execute q).1.calls qs).1, (x.execute q).2 :: ((x.execute q).1.calls qs).2) := rfl

end StrictRecordedWriteExecutor

/-! ## What a call agrees with -/

/-- A call agrees with a recorded attempt in every field of the record but the time. -/
structure Agreeing (r : WriteAttemptRecord) (q : WriteCallRequest) : Prop where
  tenantId               : q.tenantId = r.tenantId
  executionId            : q.executionId = r.executionId
  businessOperationId    : q.businessOperationId = r.businessOperationId
  invocationId           : q.invocationId = r.invocationId
  nodeId                 : q.nodeId = r.nodeId
  toolId                 : q.toolId = r.toolId
  contractHash           : q.contractHash = r.contractHash
  approvalRequestId      : q.approvalRequestId = r.approvalRequestId
  idempotencyKey         : q.idempotencyKey = r.idempotencyKey
  payloadHash            : q.payloadHash = r.payloadHash
  writeIntentHash        : q.writeIntentHash = r.writeIntentHash
  preconditionEvidenceId : q.businessPreconditions.evidenceId = r.preconditionEvidenceId

/-- **Matching never fails, and matches what agrees.** -/
theorem matchesCall_eq (x : RecordedWriteExchange) (q : WriteCallRequest) :
    ∃ b, x.matchesCall q = .ok b ∧ (b = true ↔ Agreeing x.request q) := by
  have hutc : writeUtc x.request.requestedAt.time "WriteAttemptRecord.requested_at" = .ok x.request.requestedAt :=
    dif_pos x.request.requestedAt.ok
  unfold RecordedWriteExchange.matchesCall WriteAttemptRecord.fromRequest
  rw [Stateful.bind_ok hutc]
  refine ⟨_, rfl, ?_⟩
  rw [decide_eq_true_eq]
  constructor
  · intro h
    rw [← h]
    exact ⟨rfl, rfl, rfl, rfl, rfl, rfl, rfl, rfl, rfl, rfl, rfl, rfl⟩
  · rintro ⟨h₁, h₂, h₃, h₄, h₅, h₆, h₇, h₈, h₉, h₁₀, h₁₁, h₁₂⟩
    rw [h₁, h₂, h₃, h₄, h₅, h₆, h₇, h₈, h₉, h₁₀, h₁₁, h₁₂]

/-! ## One call -/

variable {x : StrictRecordedWriteExecutor} {q : WriteCallRequest}

theorem execute_failed (h : x.failed = true) : ∃ e, x.execute q = (x, .error e) := by
  unfold StrictRecordedWriteExecutor.execute
  rw [if_pos h]
  exact ⟨_, rfl⟩

/-- A call beyond the recorded ones closes the executor. -/
theorem execute_excess (h : x.failed = false) (hnone : x.recorded.exchanges[x.index]? = none) :
    ∃ e, x.execute q = ({ x with failed := true }, .error e) := by
  unfold StrictRecordedWriteExecutor.execute
  rw [if_neg (by rw [h]; exact Bool.false_ne_true), hnone]
  exact ⟨_, rfl⟩

/-- **A call that is the next recorded one is answered with its outcome, any other one closes the executor.** -/
theorem execute_next {exchange : RecordedWriteExchange} (h : x.failed = false)
    (hnext : x.recorded.exchanges[x.index]? = some exchange) :
    (Agreeing exchange.request q →
      x.execute q = ({ x with index := x.index + 1 }, .ok { outcome := exchange.outcome, source := x.source })) ∧
    (¬ Agreeing exchange.request q → ∃ e, x.execute q = ({ x with failed := true }, .error e)) := by
  obtain ⟨b, hmatches, hb⟩ := matchesCall_eq exchange q
  unfold StrictRecordedWriteExecutor.execute
  rw [if_neg (by rw [h]; exact Bool.false_ne_true), hnext]
  dsimp only
  rw [hmatches]
  cases b with
  | true  => exact ⟨fun _ => rfl, fun hne => absurd (hb.1 rfl) hne⟩
  | false => exact ⟨fun ha => absurd (hb.2 ha) Bool.false_ne_true, fun _ => ⟨_, rfl⟩⟩

/-! ## A sequence of calls -/

/-- What a call is answered with. -/
def answered (source : ReplayWriteSource) (exchange : RecordedWriteExchange) : Except WriteFault ReplayWriteDecision :=
  .ok { outcome := exchange.outcome, source }

/-- What becomes of the calls `qs` when `rest` is still recorded: the first `n` are answered, every other one fails, and
everything is consumed when the calls are the recorded ones. -/
structure ReplayAnswers (x : StrictRecordedWriteExecutor) (rest : List RecordedWriteExchange) (qs : List WriteCallRequest)
    (n : Nat) : Prop where
  few      : n ≤ qs.length
  agree    : List.Forall₂ (fun e q => Agreeing e.request q) (rest.take n) (qs.take n)
  longest  : ∀ k, k ≤ qs.length → List.Forall₂ (fun e q => Agreeing e.request q) (rest.take k) (qs.take k) → k ≤ n
  results  : ∃ failures, (x.calls qs).2 = (rest.take n).map (answered x.source) ++ failures ∧
    failures.length = qs.length - n ∧ ∀ f ∈ failures, ∃ e, f = .error e
  consumed : (x.calls qs).1.assertConsumed = .ok () ↔ List.Forall₂ (fun e q => Agreeing e.request q) rest qs

/-- **A closed executor fails every call, and was not consumed.** -/
theorem calls_failed : ∀ (qs : List WriteCallRequest) {x : StrictRecordedWriteExecutor}, x.failed = true →
    (x.calls qs).1 = x ∧ (x.calls qs).2.length = qs.length ∧ ∀ f ∈ (x.calls qs).2, ∃ e, f = .error e
  | [], x, _      => ⟨rfl, rfl, fun _ hf => by cases hf⟩
  | q :: qs, x, h => by
    obtain ⟨e, he⟩ := execute_failed (q := q) h
    obtain ⟨hsame, hlength, hfails⟩ := calls_failed qs h
    rw [StrictRecordedWriteExecutor.calls_cons, he]
    refine ⟨hsame, by rw [List.length_cons, hlength, List.length_cons], fun f hf => ?_⟩
    rcases List.mem_cons.1 hf with rfl | hf
    · exact ⟨e, rfl⟩
    · exact hfails f hf

theorem assertConsumed_failed (h : x.failed = true) : x.assertConsumed ≠ .ok () := by
  unfold StrictRecordedWriteExecutor.assertConsumed
  rw [if_pos h]
  exact fun hok => by cases hok

/-- The first call closes the executor. -/
theorem answers_none {rest : List RecordedWriteExchange} {qs : List WriteCallRequest} {e : WriteFault}
    (he : x.execute q = ({ x with failed := true }, .error e))
    (hfirst : ∀ exchange rest', rest = exchange :: rest' → ¬ Agreeing exchange.request q) :
    ReplayAnswers x rest (q :: qs) 0 := by
  obtain ⟨hsame, hlength, hfails⟩ := calls_failed qs (x := { x with failed := true }) rfl
  have hnot : ∀ k, List.Forall₂ (fun e q => Agreeing e.request q) (rest.take k) ((q :: qs).take k) → k = 0 := by
    intro k hk
    cases k with
    | zero   => rfl
    | succ k =>
      cases rest with
      | nil                  => cases hk
      | cons exchange rest' =>
        cases hk with
        | cons hagree _ => exact absurd hagree (hfirst exchange rest' rfl)
  refine ⟨Nat.zero_le _, .nil, fun k _ hk => (hnot k hk).le, ⟨.error e :: ({ x with failed := true }.calls qs).2, ?_, ?_, ?_⟩, ?_⟩
  · rw [StrictRecordedWriteExecutor.calls_cons, he]
    rfl
  · rw [List.length_cons, hlength]
    rfl
  · intro f hf
    rcases List.mem_cons.1 hf with rfl | hf
    · exact ⟨e, rfl⟩
    · exact hfails f hf
  · rw [StrictRecordedWriteExecutor.calls_cons, he]
    dsimp only
    rw [hsame]
    refine iff_of_false (assertConsumed_failed rfl) (fun hall => ?_)
    cases hall with
    | cons hagree _ => exact hfirst _ _ rfl hagree

/-- **What an open executor does with a sequence of calls**, by induction on it. -/
theorem calls_answers : ∀ (qs : List WriteCallRequest) {x : StrictRecordedWriteExecutor}, x.failed = false →
    x.index ≤ x.recorded.exchanges.length → ∃ n, ReplayAnswers x (x.recorded.exchanges.drop x.index) qs n
  | [], x, h, hindex      => by
    refine ⟨0, le_rfl, .nil, fun k hk _ => hk, ⟨[], rfl, rfl, fun _ hf => by cases hf⟩, ?_⟩
    have hconsumed : x.assertConsumed = .ok () ↔ x.index = x.recorded.exchanges.length := by
      unfold StrictRecordedWriteExecutor.assertConsumed
      rw [if_neg (by rw [h]; exact Bool.false_ne_true)]
      split
      · rename_i hne
        exact iff_of_false (fun hok => by cases hok) hne
      · rename_i heq
        exact iff_of_true rfl (not_not.1 heq)
    rw [List.forall₂_nil_right_iff, List.drop_eq_nil_iff]
    exact hconsumed.trans ⟨fun heq => heq.ge, fun hge => le_antisymm hindex hge⟩
  | q :: qs, x, h, hindex => by
    cases hnext : x.recorded.exchanges[x.index]? with
    | none          =>
      obtain ⟨e, he⟩ := execute_excess (q := q) h hnext
      have hdrop : x.recorded.exchanges.drop x.index = [] := List.drop_eq_nil_iff.2 (List.getElem?_eq_none_iff.1 hnext)
      exact ⟨0, answers_none he (fun exchange rest' heq => by rw [hdrop] at heq; cases heq)⟩
    | some exchange =>
      obtain ⟨hlt, hget⟩ := List.getElem?_eq_some_iff.1 hnext
      have hdrop : x.recorded.exchanges.drop x.index = exchange :: x.recorded.exchanges.drop (x.index + 1) := by
        rw [List.drop_eq_getElem_cons hlt, hget]
      obtain ⟨hanswer, hclose⟩ := execute_next (q := q) h hnext
      by_cases hagree : Agreeing exchange.request q
      · have he := hanswer hagree
        obtain ⟨n, hn⟩ := calls_answers qs (x := { x with index := x.index + 1 }) h hlt
        obtain ⟨failures, hresults, hlength, hfails⟩ := hn.results
        rw [hdrop]
        refine ⟨n + 1, Nat.succ_le_succ hn.few, .cons hagree hn.agree, ?_, ⟨failures, ?_, ?_, hfails⟩, ?_⟩
        · intro k hk hall
          cases k with
          | zero   => exact Nat.zero_le _
          | succ k =>
            cases hall with
            | cons _ hrest => exact Nat.succ_le_succ (hn.longest k (Nat.le_of_succ_le_succ hk) hrest)
        · rw [StrictRecordedWriteExecutor.calls_cons, he]
          dsimp only
          rw [hresults]
          rfl
        · rw [hlength, List.length_cons, Nat.add_sub_add_right]
        · rw [StrictRecordedWriteExecutor.calls_cons, he]
          dsimp only
          rw [hn.consumed, List.forall₂_cons]
          exact (and_iff_right hagree).symm
      · obtain ⟨e, he⟩ := hclose hagree
        refine ⟨0, answers_none he (fun exchange' rest' heq => ?_)⟩
        rw [hdrop] at heq
        cases heq
        exact hagree

/-- **Strict replay**: over every sequence of calls, the calls that return are the longest prefix that agrees with the
recorded attempts, they return the recorded outcomes in order and without a side effect, every call after them fails, and
everything was consumed exactly when the calls are the recorded ones. -/
theorem execute_calls {exchanges : List RecordedWriteExchange} {source : ReplayWriteSource}
    {x : StrictRecordedWriteExecutor} (h : StrictRecordedWriteExecutor.create exchanges source = .ok x)
    (qs : List WriteCallRequest) :
    ∃ n, IsGreatest {k | k ≤ qs.length ∧
        List.Forall₂ (fun e q => Agreeing e.request q) (exchanges.take k) (qs.take k)} n ∧
      (∃ failures, (x.calls qs).2 = (exchanges.take n).map (answered source) ++ failures ∧
        failures.length = qs.length - n ∧ ∀ f ∈ failures, ∃ e, f = .error e) ∧
      (∀ d, .ok d ∈ (x.calls qs).2 → d.sideEffectPerformed = false) ∧
      ((x.calls qs).1.assertConsumed = .ok () ↔ List.Forall₂ (fun e q => Agreeing e.request q) exchanges qs) := by
  have hx : x.recorded.exchanges = exchanges ∧ x.source = source ∧ x.index = 0 ∧ x.failed = false := by
    unfold StrictRecordedWriteExecutor.create RecordedWriteExecutor.create at h
    split at h
    · split at h
      · cases h
        exact ⟨rfl, rfl, rfl, rfl⟩
      · cases h
    · cases h
  obtain ⟨hexchanges, hsource, hindex, hopen⟩ := hx
  obtain ⟨n, hn⟩ := calls_answers qs hopen (by rw [hindex]; exact Nat.zero_le _)
  rw [hindex, List.drop_zero, hexchanges] at hn
  refine ⟨n, ⟨⟨hn.few, hn.agree⟩, fun k hk => hn.longest k hk.1 hk.2⟩, ?_, fun d _ => d.noSideEffect, hn.consumed⟩
  rw [← hsource]
  exact hn.results

/-! ## A recorded draft -/

/-- The recorded outcome of the call for a draft. -/
def draftExchange (nodeId : RequiredText) (amount : Int) : RecordedWriteExchange where
  request := draftAttempt nodeId amount
  outcome :=
    { requestedRecordHash   := (draftAttempt nodeId amount).recordHash
      identity              := .fromRequest (sentDraft nodeId amount)
      commitState           := .notCommitted
      reasonCode            := none
      providerTransactionId := none
      businessReference     := none
      evidenceRefs          := noRefs
      recordedAt            := draftAfternoon }
  bound   := rfl
  same    := by simp [outcomeMatchesRequest, WriteOutcomeIdentity.fromRequest, draftAttempt, sentDraft]

theorem oneExchange_few (x : RecordedWriteExchange) : [x].length ≤ MAX_REPLAY_WRITE_CALLS := Nat.le_add_left 1 63

theorem oneExchange_unique (x : RecordedWriteExchange) : ([x].map (·.invocation)).Nodup := List.nodup_singleton _

/-- The executor of one recorded draft. -/
def draftReplay (nodeId : RequiredText) (amount : Int) : StrictRecordedWriteExecutor :=
  ⟨⟨[draftExchange nodeId amount], oneExchange_few _, oneExchange_unique _⟩, .recorded, 0, false⟩

theorem draftReplay_created (nodeId : RequiredText) (amount : Int) :
    StrictRecordedWriteExecutor.create [draftExchange nodeId amount] .recorded = .ok (draftReplay nodeId amount) := by
  unfold StrictRecordedWriteExecutor.create RecordedWriteExecutor.create
  rw [dif_pos (oneExchange_few _), dif_pos (oneExchange_unique _)]
  rfl

end ReplayCalls

section Ascii

attribute [local instance] Platform.ascii

/-- The recorded draft is asked for again, and then another one. -/
theorem execute_draftCalls :
    ∃ n, IsGreatest {k | k ≤ 2 ∧ List.Forall₂ (fun e q => Agreeing e.request q) ([draftExchange draftNode 100].take k)
        ([sentDraft draftNode 100, sentDraft otherNode 900].take k)} n ∧
      (∃ failures, ((draftReplay draftNode 100).calls [sentDraft draftNode 100, sentDraft otherNode 900]).2 =
          ([draftExchange draftNode 100].take n).map (answered .recorded) ++ failures ∧
        failures.length = 2 - n ∧ ∀ f ∈ failures, ∃ e, f = .error e) ∧
      (∀ d, .ok d ∈ ((draftReplay draftNode 100).calls [sentDraft draftNode 100, sentDraft otherNode 900]).2 →
        d.sideEffectPerformed = false) ∧
      (((draftReplay draftNode 100).calls [sentDraft draftNode 100, sentDraft otherNode 900]).1.assertConsumed = .ok () ↔
        List.Forall₂ (fun e q => Agreeing e.request q) [draftExchange draftNode 100]
          [sentDraft draftNode 100, sentDraft otherNode 900]) :=
  execute_calls (draftReplay_created draftNode 100) [sentDraft draftNode 100, sentDraft otherNode 900]

end Ascii
end Nsl
