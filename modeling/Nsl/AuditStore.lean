import Nsl.Writes
/-!
# Audit store — the chain of one execution

`AuditEvent.verify` and `JsonlAuditStore.append` (`audit.py`, `audit_persistence.py`): the store keeps the last event of
each tenant and execution and takes a new one only when it carries the chain on. What one recorder emits from its start
is such a chain.
-/
namespace Nsl

open Stateful (Run)

section AuditStore

variable [Platform]

/-- `_hash_data` -/
def AuditEvent.hashData (e : AuditEvent) : Value :=
  .dict
    [("schema_version", .str AUDIT_SCHEMA_VERSION), ("execution_id", .str e.executionId), ("sequence", .int e.sequence),
     ("event_type", .str e.eventType), ("skill_id", .str e.skillId), ("skill_version", .str e.skillVersion),
     ("semantic_hash", .str e.semanticHash), ("runtime_version", .str e.runtimeVersion),
     ("tenant_id", optionalStr e.tenantId), ("subject_id", optionalStr e.subjectId),
     ("auth_context_ref", optionalStr e.authContextRef), ("retention_days", .int e.retentionDays),
     ("classification", .str (StrEnum.value e.classification)), ("payload", e.payload),
     ("previous_event_hash", optionalStr e.previousEventHash)]

/-- `verify`; every event here is of the one schema version. -/
def AuditEvent.verify (e : AuditEvent) : Except Exn Unit := do
  if e.retentionDays = 0 then throw (.value "audit event retention_days must be positive")
  if e.eventHash ≠ (← valueHash e.hashData) then throw (.value "audit event hash mismatch")

abbrev ChainKey := Option String × String

def AuditEvent.key (e : AuditEvent) : ChainKey := (e.tenantId, e.executionId)

/-- `JsonlAuditStore`, by the last event it has of each execution. -/
structure AuditStore where
  tails : ChainKey → Option AuditEvent

namespace AuditStore

def empty : AuditStore := ⟨fun _ => none⟩

/-- `append`, on a disk that takes what is written. -/
def append (store : AuditStore) (e : AuditEvent) : Except Exn AuditStore := do
  e.verify
  let previous := store.tails e.key
  if e.sequence ≠ ((previous.map (·.sequence + 1)).getD 1) then
    throw (.integrity ("audit sequence discontinuity for " ++ e.executionId))
  if e.previousEventHash ≠ previous.map (·.eventHash) then
    throw (.integrity ("audit hash chain discontinuity for " ++ e.executionId))
  return ⟨Function.update store.tails e.key (some e)⟩

/-- The store after it took every event. -/
def appendAll (store : AuditStore) (events : List AuditEvent) : Except Exn AuditStore := events.foldlM append store

end AuditStore

omit [Platform] in
/-- Each event carries the chain on: one number more, and the hash of the event before. -/
def Chained : Nat → Option String → List AuditEvent → Prop
  | _, _, []             => True
  | n, previous, e :: es => e.sequence = n + 1 ∧ e.previousEventHash = previous ∧ Chained e.sequence (some e.eventHash) es

/-- The number and hash the next event of an execution follows. -/
def AuditStore.place (store : AuditStore) (key : ChainKey) : Nat × Option String :=
  (((store.tails key).map (·.sequence)).getD 0, (store.tails key).map (·.eventHash))

/-- A store takes an event that verifies exactly where it carries the chain on. -/
theorem AuditStore.append_of_verify {store : AuditStore} {e : AuditEvent} (hv : e.verify = .ok ()) :
    (e.sequence = (store.place e.key).1 + 1 ∧ e.previousEventHash = (store.place e.key).2 ∧
      store.append e = .ok ⟨Function.update store.tails e.key (some e)⟩) ∨
    (¬ (e.sequence = (store.place e.key).1 + 1 ∧ e.previousEventHash = (store.place e.key).2) ∧
      (store.append e).isOk = false) := by
  have hnext : ((store.tails e.key).map (·.sequence + 1)).getD 1 = (store.place e.key).1 + 1 := by
    unfold place
    cases store.tails e.key <;> rfl
  unfold append
  rw [hv]
  by_cases hseq : e.sequence = (store.place e.key).1 + 1
  · by_cases hhash : e.previousEventHash = (store.tails e.key).map (·.eventHash)
    · refine .inl ⟨hseq, hhash, ?_⟩
      simp [hnext, ← hseq, ← hhash, bind, Except.bind, pure, Except.pure]
    · refine .inr ⟨fun h => hhash h.2, ?_⟩
      simp [hnext, hseq, hhash, bind, Except.bind, throw, throwThe, MonadExceptOf.throw, Except.isOk, Except.toBool]
  · refine .inr ⟨fun h => hseq h.1, ?_⟩
    simp [hnext, hseq, bind, Except.bind, throw, throwThe, MonadExceptOf.throw, Except.isOk, Except.toBool]

/-- **Of the events of one execution a store takes all exactly when they carry its chain on.** -/
theorem AuditStore.appendAll_isOk_iff {key : ChainKey} : ∀ {events : List AuditEvent} {store : AuditStore},
    (∀ e ∈ events, e.key = key ∧ e.verify = .ok ()) →
    ((store.appendAll events).isOk = true ↔ Chained (store.place key).1 (store.place key).2 events)
  | [], store, _      => ⟨fun _ => trivial, fun _ => rfl⟩
  | e :: es, store, h => by
    obtain ⟨rfl, hv⟩ := h e List.mem_cons_self
    have hrest : ∀ d ∈ es, d.key = e.key ∧ d.verify = .ok () := fun d hd => h d (List.mem_cons_of_mem e hd)
    unfold appendAll
    rw [List.foldlM_cons]
    rcases store.append_of_verify hv with ⟨hseq, hhash, hok⟩ | ⟨hno, hbad⟩
    · have hplace : (AuditStore.place ⟨Function.update store.tails e.key (some e)⟩ e.key) =
          (e.sequence, some e.eventHash) := by
        simp [place]
      have ih := @appendAll_isOk_iff e.key es ⟨Function.update store.tails e.key (some e)⟩ hrest
      rw [hplace] at ih
      rw [hok]
      exact ih.trans ⟨fun hc => ⟨hseq, hhash, hc⟩, fun hc => hc.2.2⟩
    · cases ha : store.append e with
      | ok s    => rw [ha] at hbad; cases hbad
      | error x => exact ⟨fun hc => (by cases hc), fun hc => absurd ⟨hc.1, hc.2.1⟩ hno⟩

/-! ## What a recorder emits -/

/-- The number and hash that what follows the events goes on from. -/
def placeAfter (place : Nat × Option String) (events : List AuditEvent) : Nat × Option String :=
  events.foldl (fun _ e => (e.sequence, some e.eventHash)) place

omit [Platform] in
theorem chained_append : ∀ {events more : List AuditEvent} {place : Nat × Option String},
    Chained place.1 place.2 (events ++ more) ↔
      Chained place.1 place.2 events ∧ Chained (placeAfter place events).1 (placeAfter place events).2 more
  | [], more, place     => ⟨fun h => ⟨trivial, h⟩, fun h => h.2⟩
  | e :: es, more, place => by
    have ih := @chained_append es more (e.sequence, some e.eventHash)
    show _ ∧ _ ∧ Chained e.sequence (some e.eventHash) (es ++ more) ↔ (_ ∧ _ ∧ Chained e.sequence (some e.eventHash) es) ∧ _
    rw [ih, and_assoc, and_assoc]
    rfl

def Recorder.key (r : Recorder) : ChainKey := (r.tenantId, r.executionId)

/-- **The next event of a recorder** carries its chain on and verifies. -/
theorem IsNext.spec {r : Recorder} {w : World} {e : AuditEvent} (h : IsNext r w e) :
    e.sequence = w.sequence + 1 ∧ e.previousEventHash = w.previousEventHash ∧ e.key = r.key ∧ e.verify = .ok () := by
  obtain ⟨eventType, payload, classification, ref, metadata, he⟩ := h
  unfold nextEvent at he
  cases hsafe : safePayload r.policy payload classification ref metadata with
  | error x => rw [hsafe] at he; cases he
  | ok safe =>
    rw [hsafe] at he
    cases hhash : valueHash (eventData r eventType safe classification (w.sequence + 1) w.previousEventHash) with
    | error x => simp only [hhash, bind, Except.bind] at he; cases he
    | ok hash =>
      simp only [hhash, bind, Except.bind, pure, Except.pure] at he
      cases he
      refine ⟨rfl, rfl, rfl, ?_⟩
      have hpositive : r.policy.auditRetentionDays ≠ 0 := Nat.pos_iff_ne_zero.1 r.policy.auditPositive
      unfold AuditEvent.verify
      simp only [hpositive, if_false]
      show (valueHash (eventData r eventType safe classification (w.sequence + 1) w.previousEventHash) >>= _) = _
      rw [hhash]
      simp [bind, Except.bind, pure, Except.pure]

/-- The world has, after the events of `base`, a chain of this recorder's that goes on where the recorder stands. -/
def OnChain (r : Recorder) (base : List AuditEvent) (w : World) : Prop :=
  ∃ events, w.events = base ++ events ∧ Chained 0 none events ∧
    placeAfter (0, none) events = (w.sequence, w.previousEventHash) ∧ ∀ e ∈ events, e.key = r.key ∧ e.verify = .ok ()

/-- A recorder that starts is on its chain. -/
theorem onChain_start (r : Recorder) (w : World) :
    OnChain r w.events { w with sequence := 0, previousEventHash := none } :=
  ⟨[], (List.append_nil _).symm, trivial, rfl, fun _ h => (List.not_mem_nil h).elim⟩

theorem OnChain.append {r : Recorder} {base : List AuditEvent} {w : World} {e : AuditEvent} (h : OnChain r base w)
    (he : IsNext r w e) : OnChain r base (w.append e) := by
  obtain ⟨events, hevents, hchain, hplace, hall⟩ := h
  obtain ⟨hseq, hprev, hkey, hverify⟩ := he.spec
  refine ⟨events ++ [e], ?_, ?_, ?_, fun d hd => ?_⟩
  · show w.events ++ [e] = _
    rw [hevents, List.append_assoc]
  · refine (@chained_append events [e] (0, none)).2 ⟨hchain, ?_⟩
    rw [hplace]
    exact ⟨hseq, hprev, trivial⟩
  · unfold placeAfter
    rw [List.foldl_append]
    rfl
  · rcases List.mem_append.1 hd with hd | hd
    · exact hall d hd
    · rw [List.mem_singleton.1 hd]
      exact ⟨hkey, hverify⟩

variable {env : Env}

/-- The writes of an interpreter keep the chain of its recorder. -/
theorem Write.onChain {r : Recorder} (hr : env.recorder = some r) {base : List AuditEvent} {s x : St}
    (h : Write env s x) (hs : OnChain r base s.world) : OnChain r base x.world := by
  cases h with
  | world w hw =>
    obtain ⟨events, hevents, hchain, hplace, hall⟩ := hs
    exact ⟨events, hw.1.trans hevents, hchain, hplace.trans (by rw [hw.2.1, hw.2.2]), hall⟩
  | event r' e hr' he =>
    rw [hr] at hr'
    cases hr'
    exact hs.append he
  | _ => exact hs

/-- **What runs with a recorder leaves a chain of its.** -/
theorem Writes.onChain {α : Type} {m : Run St Exn α} (hm : Writes env m) {r : Recorder} (hr : env.recorder = some r)
    (base : List AuditEvent) : Run.Preserves (fun s => OnChain r base s.world) m :=
  Run.Steps.preserves (fun _ _ h hs => h.onChain hr hs) hm

end AuditStore
end Nsl
