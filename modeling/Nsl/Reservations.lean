import Nsl.Idempotency
/-!
# Reservations — calls of `reserve` that overlap

Any number of callers reserve on one context. A call reads the context, waits for the port and writes the context; the
port answers each call at one instant, and while a call waits the others go on. What keeps the two maps of the context
together is the port: for one key it agrees to one payload.
-/
namespace Nsl
namespace Reservations

open Relation (ReflTransGen)

variable [Platform]

/-! ## The port -/

/-- **The port as its contract has it**: it creates, reuses or reports a conflict in one instant. An answer that is lost may
leave its record behind. -/
inductive PortStep : Dict String → IdempotencyEvidenceRecord → EvidenceAnswer IdempotencyReservation → Dict String → Prop
  | created {stored record r} (hnew : stored.get? record.idempotencyKey.text = none) (hr : r.disposition = .created) :
    PortStep stored record (.answer r) (stored.set record.idempotencyKey.text record.payloadHash.text)
  | reused {stored record r} (hsame : stored.get? record.idempotencyKey.text = some record.payloadHash.text)
      (hr : r.disposition = .reused) : PortStep stored record (.answer r) stored
  | conflict {stored record r p} (hother : stored.get? record.idempotencyKey.text = some p)
      (hp : p ≠ record.payloadHash.text) (hr : r.disposition = .conflict) : PortStep stored record (.answer r) stored
  | failed {stored record a} (ha : ∀ r, a ≠ .answer r) : PortStep stored record a stored
  | lost {stored record a} (hnew : stored.get? record.idempotencyKey.text = none) (ha : ∀ r, a ≠ .answer r) :
    PortStep stored record a (stored.set record.idempotencyKey.text record.payloadHash.text)

/-- What the port has stored it keeps. -/
theorem PortStep.grows {stored stored' : Dict String} {record : IdempotencyEvidenceRecord}
    {a : EvidenceAnswer IdempotencyReservation} (h : PortStep stored record a stored') {k p : String}
    (hk : stored.get? k = some p) : stored'.get? k = some p := by
  cases h with
  | reused | conflict | failed => exact hk
  | created hnew | lost hnew   =>
    by_cases heq : k = record.idempotencyKey.text
    · rw [heq, hnew] at hk
      cases hk
    · rw [Dict.get?_set_other _ _ heq]
      exact hk

/-- Where the port agreed it holds the payload of the call. -/
theorem PortStep.agreed {stored stored' : Dict String} {record : IdempotencyEvidenceRecord} {r : IdempotencyReservation}
    (h : PortStep stored record (.answer r) stored') (hr : r.disposition ≠ .conflict) :
    stored'.get? record.idempotencyKey.text = some record.payloadHash.text := by
  cases h with
  | created         => exact Dict.get?_set_self _ _ _
  | reused hsame    => exact hsame
  | conflict _ _ hc => exact absurd hc hr
  | failed ha       => exact absurd rfl (ha r)
  | lost _ ha       => exact absurd rfl (ha r)

/-! ## Calls -/

inductive Phase
  | idle
  /-- at the await; the port has not answered -/
  | waiting (record : IdempotencyEvidenceRecord)
  | answered (record : IdempotencyEvidenceRecord) (answer : EvidenceAnswer IdempotencyReservation)

def Phase.record? : Phase → Option IdempotencyEvidenceRecord
  | .idle              => none
  | .waiting record    => some record
  | .answered record _ => some record

/-- How a call ended: with the record it reserved, or with an exception. -/
structure Ended (P : Type) where
  caller : P
  result : Except Exn IdempotencyEvidenceRecord

/-- The context, the port's store, the callers and how their calls ended, the latest first. -/
structure Site (P : Type) where
  ctx     : Context
  stored  : Dict String
  phase   : P → Phase
  history : List (Ended P)

def Site.initial (P : Type) (ctx : Context) (stored : Dict String) : Site P := ⟨ctx, stored, fun _ => .idle, []⟩

variable {P : Type} [DecidableEq P]

def goto (s : Site P) (p : P) (phase : Phase) : Site P := { s with phase := Function.update s.phase p phase }

def finish (s : Site P) (p : P) (result : Except Exn IdempotencyEvidenceRecord) : Site P :=
  { goto s p .idle with history := ⟨p, result⟩ :: s.history }

/-- One step of one caller. -/
inductive Step (p : P) : Site P → Site P → Prop
  | starts {s call record} (hidle : s.phase p = .idle) (hok : reserveRecord s.ctx call = .ok record) :
    Step p s (goto s p (.waiting record))
  | refuses {s call e} (hidle : s.phase p = .idle) (herror : reserveRecord s.ctx call = .error e) :
    Step p s (finish s p (.error e))
  | port {s record a stored'} (hwaits : s.phase p = .waiting record) (hport : PortStep s.stored record a stored') :
    Step p s { goto s p (.answered record a) with stored := stored' }
  | cancels {s record} (hflight : (s.phase p).record? = some record) : Step p s (finish s p (.error (.cancelled false)))
  | raises {s record a e} (hanswer : s.phase p = .answered record a) (herror : settleReservation s.ctx record a = .error e) :
    Step p s (finish s p (.error e))
  | returns {s record a r ctx'} (hanswer : s.phase p = .answered record a)
      (hok : settleReservation s.ctx record a = .ok (r, ctx')) : Step p s { finish s p (.ok record) with ctx := ctx' }

/-- The steps of all callers, in any order. -/
def Runs : Site P → Site P → Prop := ReflTransGen (fun s t => ∃ p, Step p s t)

/-! ## One call -/

/-- The factory's key of a node, for the tenant and the operation of the context. -/
def keyFor (ctx : Context) (node : String) : String :=
  (idempotencyKeyOf ctx.tenantId ((ctx.request.businessOperationId.map (·.text)).getD "") node).text

omit [DecidableEq P] in
theorem stateRefusal_ok {state : IdempotencyState} {identity : IdempotencyIdentity} {u : Unit}
    (h : stateRefusal state identity = .ok u) :
    (∀ k, state.keysByWriteNode.get? identity.writeNodeId.text = some k → k = identity.idempotencyKey.text) ∧
      ∀ q, state.payloadHashesByWriteNode.get? identity.writeNodeId.text = some q → q = identity.payloadHash.text := by
  unfold stateRefusal at h
  split at h
  · cases h
  · rename_i hkey
    split at h
    · cases h
    · rename_i hpayload
      refine ⟨fun k hk => ?_, fun q hq => ?_⟩
      · rw [hk] at hkey
        simpa using hkey
      · rw [hq] at hpayload
        simpa using hpayload

/-- **What a record on its way says**: the factory's key of its node, and nothing the context did not say before. -/
structure Fits (ctx : Context) (record : IdempotencyEvidenceRecord) : Prop where
  key     : record.idempotencyKey.text = keyFor ctx record.writeNodeId.text
  keys    : ∀ k, ctx.idempotency.keysByWriteNode.get? record.writeNodeId.text = some k → k = record.idempotencyKey.text
  payload : ∀ q, ctx.idempotency.payloadHashesByWriteNode.get? record.writeNodeId.text = some q → q = record.payloadHash.text

omit [DecidableEq P] in
theorem reserveRecord_fits {ctx : Context} {call : ReserveCall} {record : IdempotencyEvidenceRecord}
    (h : reserveRecord ctx call = .ok record) : Fits ctx record := by
  unfold reserveRecord at h
  dsimp only at h
  split at h
  · cases h
  · rename_i htenant
    split at h
    · cases h
    · split at h
      · cases h
      · rename_i hop
        obtain ⟨evidence, -, h⟩ := Stateful.bind_eq_ok h
        obtain ⟨u, hstate, h⟩ := Stateful.bind_eq_ok h
        cases h
        obtain ⟨hkeys, hpayload⟩ := stateRefusal_ok hstate
        refine ⟨?_, hkeys, hpayload⟩
        have hop' : ctx.request.businessOperationId = some call.intent.businessOperationId := not_not.1 hop
        have htenant' : ctx.tenantId = call.intent.tenantId.text := not_not.1 htenant
        unfold keyFor
        rw [hop', htenant']
        rfl

omit [DecidableEq P] in
theorem settleReservation_ok {ctx ctx' : Context} {record : IdempotencyEvidenceRecord}
    {a : EvidenceAnswer IdempotencyReservation} {r : IdempotencyReservation}
    (h : settleReservation ctx record a = .ok (r, ctx')) :
    a = .answer r ∧ r.disposition ≠ .conflict ∧ ctx' = ctx.reserved record := by
  cases a with
  | raises e => cases h
  | other    => cases h
  | answer r' =>
    unfold settleReservation at h
    dsimp only at h
    split at h
    · cases h
    · split at h
      · cases h
      · rename_i hconflict
        cases h
        exact ⟨rfl, hconflict, rfl⟩

/-! ## The invariant -/

/-- The keys and the payloads a site's context records. -/
def Site.keys (s : Site P) (node : String) : Option String := s.ctx.idempotency.keysByWriteNode.get? node

def Site.payloads (s : Site P) (node : String) : Option String := s.ctx.idempotency.payloadHashesByWriteNode.get? node

def Site.Flies (s : Site P) (p : P) (record : IdempotencyEvidenceRecord) : Prop := (s.phase p).record? = some record

/-- **What holds between the context, the port and the calls on their way.** A recorded payload is either that of every
call on its way to that node, or the one the port holds for the node's key. -/
structure Kept (ctx₀ : Context) (s : Site P) : Prop where
  request  : s.ctx.request = ctx₀.request
  key      : ∀ p record, s.Flies p record → record.idempotencyKey.text = keyFor ctx₀ record.writeNodeId.text
  keys     : ∀ p record, s.Flies p record → ∀ k, s.keys record.writeNodeId.text = some k → k = record.idempotencyKey.text
  agreed   : ∀ p record r, s.phase p = .answered record (.answer r) → r.disposition ≠ .conflict →
    s.stored.get? record.idempotencyKey.text = some record.payloadHash.text
  payloads : ∀ node q, s.payloads node = some q →
    (∀ p record, s.Flies p record → record.writeNodeId.text = node → record.payloadHash.text = q) ∨
      s.stored.get? (keyFor ctx₀ node) = some q
  own      : ∀ node k, s.keys node = some k →
    ctx₀.idempotency.keysByWriteNode.get? node = some k ∨ k = keyFor ctx₀ node
  history  : ∀ e ∈ s.history, ∀ record, e.result = .ok record →
    s.keys record.writeNodeId.text = some record.idempotencyKey.text ∧
      s.payloads record.writeNodeId.text = some record.payloadHash.text

/-- What is recorded stays as it is. -/
def Stays (s t : Site P) : Prop :=
  (∀ node k, s.keys node = some k → t.keys node = some k) ∧ ∀ node q, s.payloads node = some q → t.payloads node = some q

omit [DecidableEq P] in
theorem Stays.refl (s : Site P) : Stays s s := ⟨fun _ _ h => h, fun _ _ h => h⟩

omit [DecidableEq P] in
theorem Stays.trans {s t u : Site P} (h : Stays s t) (h' : Stays t u) : Stays s u :=
  ⟨fun n k hk => h'.1 n k (h.1 n k hk), fun n q hq => h'.2 n q (h.2 n q hq)⟩

omit [DecidableEq P] in
theorem kept_initial (ctx : Context) (stored : Dict String) : Kept ctx (Site.initial P ctx stored) where
  request  := rfl
  key      := fun p record h => by cases h
  keys     := fun p record h => by cases h
  agreed   := fun p record r h => by cases h
  payloads := fun node q _ => .inl (fun p record h => by cases h)
  own      := fun node k h => .inl h
  history  := fun e he => (List.not_mem_nil he).elim

theorem goto_phase (s : Site P) (p q : P) (phase : Phase) :
    (goto s p phase).phase q = if q = p then phase else s.phase q := Function.update_apply _ _ _ _

theorem flies_goto {s : Site P} {p q : P} {phase : Phase} {record : IdempotencyEvidenceRecord}
    (h : (goto s p phase).Flies q record) : (q = p ∧ phase.record? = some record) ∨ s.Flies q record := by
  unfold Site.Flies at h
  rw [goto_phase] at h
  by_cases hqp : q = p
  · rw [if_pos hqp] at h
    exact .inl ⟨hqp, h⟩
  · rw [if_neg hqp] at h
    exact .inr h

/-- A call that ends without a reservation. -/
theorem Kept.raised {ctx₀ : Context} {s : Site P} (h : Kept ctx₀ s) (p : P) (e : Exn) :
    Kept ctx₀ (finish s p (.error e)) := by
  have hflies : ∀ q record, (finish s p (.error e)).Flies q record → s.Flies q record := by
    intro q record hq
    rcases flies_goto hq with ⟨-, hidle⟩ | hs
    · cases hidle
    · exact hs
  refine ⟨h.request, fun q record hq => h.key q record (hflies q record hq),
    fun q record hq => h.keys q record (hflies q record hq), fun q record r hq => ?_, fun node q hq => ?_, h.own,
    fun e' he' record hrecord => ?_⟩
  · have hphase : (finish s p (.error e)).phase q = _ := goto_phase s p q .idle
    rw [hphase] at hq
    split at hq
    · cases hq
    · exact h.agreed q record r hq
  · rcases h.payloads node q hq with hall | hstored
    · exact .inl (fun q' record hq' => hall q' record (hflies q' record hq'))
    · exact .inr hstored
  · rcases List.mem_cons.1 he' with rfl | he'
    · cases hrecord
    · exact h.history e' he' record hrecord

/-- A call that goes to the port. -/
theorem Kept.started {ctx₀ : Context} {s : Site P} (h : Kept ctx₀ s) {p : P} {record : IdempotencyEvidenceRecord}
    (hfits : Fits s.ctx record) : Kept ctx₀ (goto s p (.waiting record)) := by
  have hkey : keyFor s.ctx record.writeNodeId.text = keyFor ctx₀ record.writeNodeId.text := by
    unfold keyFor Context.tenantId
    rw [h.request]
  refine ⟨h.request, fun q r hq => ?_, fun q r hq => ?_, fun q r a hq => ?_, fun node q hq => ?_, h.own, h.history⟩
  · rcases flies_goto hq with ⟨-, hr⟩ | hs
    · cases hr
      exact hfits.key.trans hkey
    · exact h.key q r hs
  · rcases flies_goto hq with ⟨-, hr⟩ | hs
    · cases hr
      exact hfits.keys
    · exact h.keys q r hs
  · rw [goto_phase] at hq
    split at hq
    · cases hq
    · exact h.agreed q r a hq
  · rcases h.payloads node q hq with hall | hstored
    · refine .inl (fun q' r hq' hnode => ?_)
      rcases flies_goto hq' with ⟨-, hr⟩ | hs
      · cases hr
        exact (hfits.payload q (by rw [hnode]; exact hq)).symm
      · exact hall q' r hs hnode
    · exact .inr hstored

/-- A call the port answers. -/
theorem Kept.answered {ctx₀ : Context} {s : Site P} (h : Kept ctx₀ s) {p : P} {record : IdempotencyEvidenceRecord}
    {a : EvidenceAnswer IdempotencyReservation} {stored' : Dict String} (hwaits : s.phase p = .waiting record)
    (hport : PortStep s.stored record a stored') :
    Kept ctx₀ { goto s p (.answered record a) with stored := stored' } := by
  have hflies : ∀ q r, ({ goto s p (.answered record a) with stored := stored' } : Site P).Flies q r → s.Flies q r := by
    intro q r hq
    rcases flies_goto (s := s) hq with ⟨rfl, hr⟩ | hs
    · cases hr
      unfold Site.Flies
      rw [hwaits]
      rfl
    · exact hs
  refine ⟨h.request, fun q r hq => h.key q r (hflies q r hq), fun q r hq => h.keys q r (hflies q r hq),
    fun q r a' hq hdisposition => ?_, fun node q hq => ?_, h.own, h.history⟩
  · have hphase : _ = Phase.answered r (.answer a') := (goto_phase s p q (.answered record a)).symm.trans hq
    split at hphase
    · cases hphase
      exact hport.agreed hdisposition
    · exact hport.grows (h.agreed q r a' hphase hdisposition)
  · rcases h.payloads node q hq with hall | hstored
    · exact .inl (fun q' r hq' => hall q' r (hflies q' r hq'))
    · exact .inr (hport.grows hstored)

omit [DecidableEq P] in
theorem reserved_keys (ctx : Context) (record : IdempotencyEvidenceRecord) (node : String) :
    (ctx.reserved record).idempotency.keysByWriteNode.get? node =
      if node = record.writeNodeId.text then some record.idempotencyKey.text
      else ctx.idempotency.keysByWriteNode.get? node := by
  by_cases h : node = record.writeNodeId.text
  · rw [if_pos h, h]
    exact Dict.get?_set_self _ _ _
  · rw [if_neg h]
    exact Dict.get?_set_other _ _ h

omit [DecidableEq P] in
theorem reserved_payloads (ctx : Context) (record : IdempotencyEvidenceRecord) (node : String) :
    (ctx.reserved record).idempotency.payloadHashesByWriteNode.get? node =
      if node = record.writeNodeId.text then some record.payloadHash.text
      else ctx.idempotency.payloadHashesByWriteNode.get? node := by
  by_cases h : node = record.writeNodeId.text
  · rw [if_pos h, h]
    exact Dict.get?_set_self _ _ _
  · rw [if_neg h]
    exact Dict.get?_set_other _ _ h

/-- **A call that reserves** writes what the context said of its node before, or what nobody can say otherwise. -/
theorem Kept.returned {ctx₀ : Context} {s : Site P} (h : Kept ctx₀ s) {p : P} {record : IdempotencyEvidenceRecord}
    {r : IdempotencyReservation} (hanswer : s.phase p = .answered record (.answer r)) (hr : r.disposition ≠ .conflict) :
    Kept ctx₀ { finish s p (.ok record) with ctx := s.ctx.reserved record } ∧
      Stays s { finish s p (.ok record) with ctx := s.ctx.reserved record } := by
  have hflying : s.Flies p record := by
    unfold Site.Flies
    rw [hanswer]
    rfl
  have hkey := h.key p record hflying
  have hstored : s.stored.get? (keyFor ctx₀ record.writeNodeId.text) = some record.payloadHash.text := by
    rw [← hkey]
    exact h.agreed p record r hanswer hr
  have hsame : ∀ q, s.payloads record.writeNodeId.text = some q → q = record.payloadHash.text := by
    intro q hq
    rcases h.payloads _ q hq with hall | hother
    · exact (hall p record hflying rfl).symm
    · exact (Option.some.inj (hstored.symm.trans hother)).symm
  set t : Site P := { finish s p (.ok record) with ctx := s.ctx.reserved record } with ht
  have htkeys : ∀ node, t.keys node = if node = record.writeNodeId.text then some record.idempotencyKey.text
      else s.keys node := reserved_keys s.ctx record
  have htpayloads : ∀ node, t.payloads node = if node = record.writeNodeId.text then some record.payloadHash.text
      else s.payloads node := reserved_payloads s.ctx record
  have hstays : Stays s t := by
    refine ⟨fun node k hk => ?_, fun node q hq => ?_⟩
    · rw [htkeys]
      by_cases hn : node = record.writeNodeId.text
      · rw [if_pos hn, h.keys p record hflying k (by rw [← hn]; exact hk)]
      · rw [if_neg hn]
        exact hk
    · rw [htpayloads]
      by_cases hn : node = record.writeNodeId.text
      · rw [if_pos hn, hsame q (by rw [← hn]; exact hq)]
      · rw [if_neg hn]
        exact hq
  have hflies : ∀ q r', t.Flies q r' → s.Flies q r' := by
    intro q r' hq
    have hgoto : (goto s p .idle).Flies q r' := hq
    rcases flies_goto hgoto with ⟨-, hidle⟩ | hs
    · cases hidle
    · exact hs
  refine ⟨⟨h.request, fun q r' hq => h.key q r' (hflies q r' hq), fun q r' hq k hk => ?_, fun q r' a hq => ?_,
    fun node q hq => ?_, fun node k hk => ?_, fun e he r' hr' => ?_⟩, hstays⟩
  · rw [htkeys] at hk
    by_cases hn : r'.writeNodeId.text = record.writeNodeId.text
    · rw [if_pos hn] at hk
      rw [← Option.some.inj hk, h.key q r' (hflies q r' hq), hkey, hn]
    · rw [if_neg hn] at hk
      exact h.keys q r' (hflies q r' hq) k hk
  · have hphase : _ = Phase.answered r' (.answer a) := (goto_phase s p q .idle).symm.trans hq
    split at hphase
    · cases hphase
    · exact h.agreed q r' a hphase
  · rw [htpayloads] at hq
    by_cases hn : node = record.writeNodeId.text
    · rw [if_pos hn] at hq
      rw [← Option.some.inj hq, hn]
      exact .inr hstored
    · rw [if_neg hn] at hq
      rcases h.payloads node q hq with hall | hother
      · exact .inl (fun q' r' hq' => hall q' r' (hflies q' r' hq'))
      · exact .inr hother
  · rw [htkeys] at hk
    by_cases hn : node = record.writeNodeId.text
    · rw [if_pos hn] at hk
      exact .inr (by rw [← Option.some.inj hk, hn, hkey])
    · rw [if_neg hn] at hk
      exact h.own node k hk
  · rcases List.mem_cons.1 he with rfl | he
    · cases hr'
      exact ⟨by rw [htkeys, if_pos rfl], by rw [htpayloads, if_pos rfl]⟩
    · exact ⟨hstays.1 _ _ (h.history e he r' hr').1, hstays.2 _ _ (h.history e he r' hr').2⟩

theorem Step.kept {ctx₀ : Context} {p : P} {s t : Site P} (hstep : Step p s t) (h : Kept ctx₀ s) :
    Kept ctx₀ t ∧ Stays s t := by
  cases hstep with
  | starts _ hok           => exact ⟨h.started (reserveRecord_fits hok), Stays.refl s⟩
  | refuses _ _            => exact ⟨h.raised p _, Stays.refl s⟩
  | port hwaits hport      => exact ⟨h.answered hwaits hport, Stays.refl s⟩
  | cancels _              => exact ⟨h.raised p _, Stays.refl s⟩
  | raises _ _             => exact ⟨h.raised p _, Stays.refl s⟩
  | returns hanswer hok    =>
    obtain ⟨rfl, hr, rfl⟩ := settleReservation_ok hok
    exact h.returned hanswer hr

theorem Runs.kept {ctx₀ : Context} {s t : Site P} (hruns : Runs s t) (h : Kept ctx₀ s) : Kept ctx₀ t ∧ Stays s t := by
  induction hruns with
  | refl => exact ⟨h, Stays.refl s⟩
  | tail _ hstep ih =>
    obtain ⟨p, hstep⟩ := hstep
    obtain ⟨hkept, hstays⟩ := hstep.kept ih.1
    exact ⟨hkept, ih.2.trans hstays⟩

/-- Only the step in which a call returns its reservation writes the context. -/
theorem Step.writes {p : P} {s t : Site P} (hstep : Step p s t)
    (hraises : ∀ record, t.history ≠ ⟨p, .ok record⟩ :: s.history) : t.ctx = s.ctx := by
  cases hstep with
  | returns => exact absurd rfl (hraises _)
  | _       => rfl

/-! ## Stable bindings -/

/-- **Idempotency bindings are stable**, over every order of the steps of any number of callers: a step that reserves
nothing leaves the context as it is; each key in the context was there at the start or is the factory's; the calls that
succeed for one node carry one payload hash, the one recorded; and what is recorded never changes. -/
theorem reserve_stable {ctx₀ : Context} {stored : Dict String} {s t : Site P} (hs : Runs (Site.initial P ctx₀ stored) s)
    (ht : Runs s t) :
    (∀ p u, Step p t u → (∀ record, u.history ≠ ⟨p, .ok record⟩ :: t.history) → u.ctx = t.ctx) ∧
    (∀ node k, t.keys node = some k →
      ctx₀.idempotency.keysByWriteNode.get? node = some k ∨ k = keyFor ctx₀ node) ∧
    (∀ e ∈ t.history, ∀ e' ∈ t.history, ∀ record record', e.result = .ok record → e'.result = .ok record' →
      record.writeNodeId = record'.writeNodeId → record.payloadHash = record'.payloadHash) ∧
    Stays s t := by
  obtain ⟨hkept, hstays⟩ := ht.kept (hs.kept (kept_initial ctx₀ stored)).1
  refine ⟨fun p u hstep => hstep.writes, hkept.own, fun e he e' he' record record' hr hr' hnode => ?_, hstays⟩
  have hp := (hkept.history e he record hr).2
  have hp' := (hkept.history e' he' record' hr').2
  rw [hnode] at hp
  exact Digest.ext (Option.some.inj (hp.symm.trans hp'))

/-! ## Two drafts of one voucher -/

section Draft

omit [Platform] in
theorem draftToolContract_capability : Text.isBlank "WRITE" = false := by decide

def draftToolContract : ToolContract where
  toolId               := "voucher.draft"
  version              := "2.0.0"
  capability           := "WRITE"
  inputTypes           := [("amount", INT)]
  outputType           := STRING
  requiredScope        := "voucher:draft"
  outputClassification := .internal
  timeoutMs            := 2000
  risk                 := "R3"
  emptyIsValid         := false
  operationKind        := some .createDraft
  riskLevel            := some .r3
  writeSemantics       :=
    some ⟨⟨"TOOL_AND_TENANT", "P30D", "RETURN_ORIGINAL_RESULT", "IDEMPOTENCY_CONFLICT", by decide⟩, none⟩
  versionCanonical     := by decide
  capabilitySet        := draftToolContract_capability
  riskSet              := by decide
  namesSet             := by simp; decide
  namesUnique          := by simp [KeysOnce]
  timeoutRange         := by decide
  writeDeclared        := fun _ => ⟨rfl, rfl, rfl⟩
  writeOnly            := fun h => absurd rfl h

def draftGuarantee : ProviderIdempotencyEvidence where
  toolId                    := draftTool
  contractHash              := draftToolContract.contractDigest
  retentionPolicy           := .ofPlain "P30D"
  providerGuaranteeRef      := .ofPlain "guarantee-1"
  verifiedAt                := draftMorning
  guaranteedUntil           := draftEvening
  durableDuplicateGuarantee := true
  endsLater                 := draftMorning_before

/-- A call for one node and an amount, at noon. -/
def draftCall (amount : Int) : ReserveCall :=
  ⟨draftIntent draftNode amount, draftToolContract, draftGuarantee, draftNoon.time, draftEvening.time⟩

def draftRecord (amount : Int) : IdempotencyEvidenceRecord :=
  ⟨draftTenant, draftOperation, draftNode, draftTool, draftToolContract.contractDigest,
    createKey draftTenant draftOperation draftNode, draftPayload amount, draftGuarantee.providerGuaranteeRef, draftEvening⟩

theorem draft_reserves (amount : Int) : reserveRecord draftContext (draftCall amount) = .ok (draftRecord amount) := by
  have hearly : draftEvening.stamp ≤ draftNoon.stamp ↔ False := by decide
  have hfuture : draftNoon.stamp < draftMorning.stamp ↔ False := by decide
  have hretention : validateRetention (draftIntent draftNode amount) draftToolContract draftGuarantee draftNoon.time
      draftEvening.time = .ok draftGuarantee := by
    obtain ⟨semantics, hsemantics⟩ := Option.isSome_iff_exists.1 (draftToolContract.writeDeclared rfl).2.2
    refine validateRetention_of ?_ rfl hsemantics ?_
    · have htool : draftToolContract.toolId = (draftIntent draftNode amount).toolId.text := rfl
      have hprovider : draftGuarantee.toolId = (draftIntent draftNode amount).toolId := rfl
      have hhash : draftGuarantee.contractHash.text = draftToolContract.contractHash := rfl
      simp [retentionBindings, hearly, htool, hprovider, hhash]
    · have hverified : draftGuarantee.verifiedAt = draftMorning := rfl
      have huntil : draftGuarantee.guaranteedUntil = draftEvening := rfl
      have hdurable : draftGuarantee.durableDuplicateGuarantee = true := rfl
      have hpolicy : draftGuarantee.retentionPolicy.text = "P30D" := rfl
      cases hsemantics
      simp [retentionGuarantees, hverified, huntil, hdurable, hpolicy, hearly, hfuture, durableSemantics]
  unfold reserveRecord draftCall
  dsimp only
  rw [hretention]
  rfl

def draftReservation (amount : Int) : IdempotencyReservation := .created (draftRecord amount)

def draftConflict (amount : Int) : IdempotencyReservation := ⟨.conflict, draftRecord amount, none, fun _ => rfl⟩

/-- Both callers wait at the port at once. -/
theorem drafts_wait : Runs (Site.initial Bool draftContext Dict.empty)
    (goto (goto (Site.initial Bool draftContext Dict.empty) true (.waiting (draftRecord 100))) false
      (.waiting (draftRecord 200))) :=
  (ReflTransGen.single ⟨true, .starts rfl (draft_reserves 100)⟩).tail ⟨false, .starts rfl (draft_reserves 200)⟩

/-- The port creates the evidence of the first caller, whose call returns. -/
theorem drafts_return : ∃ t : Site Bool, Runs (goto (goto (Site.initial Bool draftContext Dict.empty) true
      (.waiting (draftRecord 100))) false (.waiting (draftRecord 200))) t ∧
    ∃ e ∈ t.history, e.result = .ok (draftRecord 100) := by
  let s := goto (goto (Site.initial Bool draftContext Dict.empty) true (.waiting (draftRecord 100))) false
    (.waiting (draftRecord 200))
  let key := (draftRecord 100).idempotencyKey.text
  let answered : Site Bool := { goto s true (.answered (draftRecord 100) (.answer (draftReservation 100))) with
    stored := s.stored.set key (draftRecord 100).payloadHash.text }
  have hport : PortStep s.stored (draftRecord 100) (.answer (draftReservation 100)) answered.stored := .created rfl rfl
  have hsettle : settleReservation answered.ctx (draftRecord 100) (.answer (draftReservation 100)) =
      .ok (draftReservation 100, answered.ctx.reserved (draftRecord 100)) := by
    unfold settleReservation
    exact (if_neg (not_not.2 rfl)).trans (if_neg (fun h => by cases h))
  have hphase : answered.phase true = .answered (draftRecord 100) (.answer (draftReservation 100)) :=
    (goto_phase s true true _).trans (if_pos rfl)
  have hanswered : Step true s answered := .port rfl hport
  exact ⟨_, (ReflTransGen.single ⟨true, hanswered⟩).tail ⟨true, .returns hphase hsettle⟩, _, List.mem_cons_self .., rfl⟩

end Draft

end Reservations

section Ascii

attribute [local instance] Platform.ascii

open Reservations in
theorem reserve_stable_drafts : ∃ t : Site Bool,
    (∃ e ∈ t.history, e.result = .ok (draftRecord 100)) ∧
    (∀ p u, Step p t u → (∀ record, u.history ≠ ⟨p, .ok record⟩ :: t.history) → u.ctx = t.ctx) ∧
    (∀ node k, t.keys node = some k →
      draftContext.idempotency.keysByWriteNode.get? node = some k ∨ k = keyFor draftContext node) ∧
    (∀ e ∈ t.history, ∀ e' ∈ t.history, ∀ record record', e.result = .ok record → e'.result = .ok record' →
      record.writeNodeId = record'.writeNodeId → record.payloadHash = record'.payloadHash) ∧
    Stays (goto (goto (Site.initial Bool draftContext Dict.empty) true (.waiting (draftRecord 100))) false
      (.waiting (draftRecord 200))) t := by
  obtain ⟨t, hruns, hreturned⟩ := drafts_return
  exact ⟨t, hreturned, reserve_stable drafts_wait hruns⟩

end Ascii
end Nsl
