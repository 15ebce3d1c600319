import Nsl.Base.Brackets
import Nsl.Raises
/-!
# Event trace — what the interpreter appends to the audit log

Every run of a part of the interpreter appends a word of brackets (`Goes`): statements nest, a tool call holds nothing,
and what is left open is what a failure went through. A call is left under way in one way only: its TOOL_STARTED was
appended when the duration of the execution was used up (`StartsInTime`).
-/
namespace Nsl

open Stateful (Run)
open Brackets (Leaves Stops)

/-! ## Reading an event -/

/-- What an event shows under a key of its payload. -/
def AuditEvent.shows (e : AuditEvent) (key : String) : Option Value :=
  match e.payload with
  | .dict items => items.lookup key
  | _           => none

def TERMINAL_EVENTS : List String := ["EXECUTION_COMPLETED", "EXECUTION_FAILED", "EXECUTION_REJECTED"]

/-- An event as a bracket. -/
def AuditEvent.mark (e : AuditEvent) : Brackets.Mark (Option Value) (Option Value) :=
  if e.eventType = "STATEMENT_STARTED" then .enter (e.shows "node_id")
  else if e.eventType = "STATEMENT_COMPLETED" then .leave (e.shows "node_id")
  else if e.eventType = "TOOL_STARTED" then .start (e.shows "invocation_id")
  else if e.eventType = "TOOL_COMPLETED" ∨ e.eventType = "TOOL_FAILED" then .stop (e.shows "invocation_id")
  else if e.eventType ∈ TERMINAL_EVENTS then .finish
  else .plain

theorem encodeFields_lookup (key : String) (fields : List (String × Value)) :
    (encodeFields fields).lookup key = (fields.lookup key).map encodeValue := by
  induction fields with
  | nil            => rfl
  | cons head rest ih =>
    rw [encodeFields, List.lookup_cons, List.lookup_cons, ih]
    cases key == head.1 <;> rfl

section EventTrace

variable [Platform]

/-- What the events of a recorder show of a text. -/
def shown (r : Recorder) (text : String) : Option Value :=
  if DataClassification.internal.allows r.policy.maxTraceClassification then some (.str (redact text [])) else none

/-! ## Emitting -/

/-- Keys that redaction leaves as they are. -/
def plainKeys (keys : List String) : Bool := keys.all (fun k => isPlainText k && !isCredentialKey k) && keys.Nodup

theorem plainKeys_cons {k : String} {keys : List String} (h : plainKeys (k :: keys) = true) :
    redactText Platform.word k [] = k ∧ isCredentialKey k = false ∧ k ∉ keys ∧ plainKeys keys = true := by
  unfold plainKeys at h ⊢
  simp only [List.all_cons, Bool.and_eq_true, Bool.not_eq_true', decide_eq_true_eq, List.nodup_cons] at h ⊢
  obtain ⟨⟨⟨hplain, hcredential⟩, hall⟩, hmem, hnodup⟩ := h
  exact ⟨redactText_plain Platform.word hplain, hcredential, hmem, hall, hnodup⟩

/-- Redaction of plain keys keeps them, and redacts what stands under each. -/
theorem redactFields_lookup (key : String) : ∀ {payload acc : List (String × Value)},
    plainKeys (payload.map Prod.fst) = true → (redactFields Platform.word acc payload).lookup key =
      ((payload.lookup key).map (redactData Platform.word)).or (acc.lookup key)
  | [], _, _                 => rfl
  | (k, v) :: rest, acc, hplain => by
    obtain ⟨hk, hcredential, hmem, hrest⟩ := plainKeys_cons hplain
    rw [redactFields, redactFields_lookup key hrest, hk, hcredential]
    by_cases hkey : key = k
    · subst hkey
      have hnone : rest.lookup key = none := by
        rw [List.lookup_eq_none_iff]
        intro p hp
        have hne : key ≠ p.1 := fun h => hmem (List.mem_map.2 ⟨p, hp, h.symm⟩)
        simpa using hne
      rw [hnone, List.lookup_cons_self, Dict.setEntry_lookup_self]
      rfl
    · have hne : (key == k) = false := by simpa using hkey
      rw [List.lookup_cons, hne, Dict.setEntry_lookup_other _ hne]

theorem nextEvent_type {r : Recorder} {w : World} {eventType : String} {payload : Value} {c : DataClassification}
    {ref : Option SnapshotRef} {metadata : Value} {e : AuditEvent}
    (h : nextEvent r w eventType payload c ref metadata = .ok e) : e.eventType = eventType := by
  obtain ⟨safe, -, h⟩ := Stateful.bind_eq_ok h
  obtain ⟨hash, -, h⟩ := Stateful.bind_eq_ok h
  cases h
  rfl

/-- What an emitted INTERNAL event shows. -/
theorem nextEvent_shows {r : Recorder} {w : World} {eventType : String} {payload : List (String × Value)} {e : AuditEvent}
    (h : nextEvent r w eventType (.dict payload) .internal none (.dict []) = .ok e)
    (hplain : plainKeys (payload.map Prod.fst) = true) {key text : String} (hkey : payload.lookup key = some (.str text))
    (hhidden : key ∉ ["redacted", "value_hash"]) : e.eventType = eventType ∧ e.shows key = shown r text := by
  obtain ⟨safe, hsafe, h⟩ := Stateful.bind_eq_ok h
  obtain ⟨hash, -, h⟩ := Stateful.bind_eq_ok h
  cases h
  refine ⟨rfl, ?_⟩
  unfold AuditEvent.shows shown
  unfold safePayload redactedPayload at hsafe
  split at hsafe
  · rename_i hallows
    cases hsafe
    rw [if_pos hallows]
    show (encodeFields (redactFields Platform.word [] payload)).lookup key = _
    rw [encodeFields_lookup, redactFields_lookup key hplain, hkey]
    rfl
  · rename_i hallows
    rw [if_neg hallows]
    cases hv : valueHash (.dict payload) with
    | error x => rw [hv] at hsafe; cases hsafe
    | ok hash =>
      rw [hv] at hsafe
      cases hsafe
      simp only [List.mem_cons, List.not_mem_nil, or_false, not_or] at hhidden
      have h₁ : (key == "redacted") = false := by simpa using hhidden.1
      have h₂ : (key == "value_hash") = false := by simpa using hhidden.2
      simp [updateDict, encodeValue, encodeFields, redactData, redactFields, Dict.setEntry, List.lookup_cons, h₁, h₂]

variable {env : Env} {r : Recorder}

/-- Emitting writes once, and appends the recorder's next event. -/
theorem emit_event (hr : env.recorder = some r) (eventType : String) {payload : List (String × Value)} (h : fieldsJson payload = true) (s : St) :
    ∃ e, nextEvent r s.world eventType (.dict payload) .internal none (.dict []) = .ok e ∧
      emit env eventType payload s =
        ⟨[{ s with world := s.world.append e }], { s with world := s.world.append e }, .ok ()⟩ := by
  obtain ⟨e, he⟩ := nextEvent_ok r s.world eventType h
  refine ⟨e, he, ?_⟩
  unfold emit emitHidden
  rw [hr]
  show Run.andThen (Run.ofExcept (nextEvent r s.world eventType (.dict payload) .internal none (.dict [])))
    (fun e => modifyWorld (·.append e)) s = _
  rw [he]
  rfl

/-! ## Runs that append nothing -/

/-- One write that appends no event. -/
def SameLog (s x : St) : Prop := x.world.events = s.world.events

/-- **The run appends no event, and raises nothing but an `Exception`.** -/
def Silent {α : Type} (m : Run St Exn α) : Prop :=
  Run.Steps SameLog m ∧ ∀ s, Mild (m s).outcome

namespace Silent

variable {α β : Type}

theorem done (a : α) : Silent (Run.done a) := ⟨Run.steps_done a, fun _ => .ok a⟩

theorem fail {e : Exn} (h : e.isException = true) : Silent (Run.fail e : Run St Exn α) :=
  ⟨Run.steps_fail e, fun _ => .error h⟩

theorem look (f : St → α) : Silent (Run.look f) := ⟨Run.steps_look f, fun _ => .ok _⟩

theorem write {f : St → St} (h : ∀ s, SameLog s (f s)) : Silent (Run.write f) := ⟨Run.steps_write h, fun _ => .ok ()⟩

theorem modifyCtx (f : Context → Context) : Silent (Nsl.modifyCtx f) := write (fun _ => rfl)

theorem modifyWorld {f : World → World} (h : ∀ w, (f w).events = w.events) : Silent (Nsl.modifyWorld f) :=
  write (fun s => h s.world)

theorem ofExcept {x : Except Exn α} (h : Mild x) : Silent (Run.ofExcept x) :=
  ⟨Run.steps_ofExcept x, fun s => by rw [Run.ofExcept_apply]; exact h⟩

/-- A first part that ends in values of which more is known. -/
theorem bind_gives {P : α → Prop} {m : Run St Exn α} {f : α → Run St Exn β} (hm : Silent m) (hg : Run.Gives P m)
    (hf : ∀ a, P a → Silent (f a)) : Silent (m >>= f) := by
  constructor
  · intro s
    have hs := hm.1 s
    rcases hms : m s with ⟨w, s', e | a⟩ <;> rw [hms] at hs
    · rw [Run.bind_eq, Run.andThen_error hms]
      exact hs
    · rw [Run.bind_eq, Run.andThen_ok hms]
      exact hs.append ((hf a (hg s w s' a hms)).1 s')
  · intro s
    have hs := hm.2 s
    rcases hms : m s with ⟨w, s', e | a⟩ <;> rw [hms] at hs
    · rw [Run.bind_eq, Run.andThen_error hms]
      exact .error (hs e rfl)
    · rw [Run.bind_eq, Run.andThen_ok hms]
      exact (hf a (hg s w s' a hms)).2 s'

theorem bind {m : Run St Exn α} {f : α → Run St Exn β} (hm : Silent m) (hf : ∀ a, Silent (f a)) : Silent (m >>= f) :=
  hm.bind_gives (P := fun _ => True) (fun _ _ _ _ _ => trivial) (fun a _ => hf a)

/-- How a run ends, as a value. -/
theorem attempt {m : Run St Exn α} (hm : Silent m) : Silent (Run.attempt m) ∧ Run.Gives Mild (Run.attempt m) :=
  ⟨⟨hm.1.attempt, fun _ => .ok _⟩, fun s w s' o h => by
    cases h
    exact hm.2 s⟩

theorem handle {m : Run St Exn α} {h : Exn → Run St Exn α} (hm : Silent m)
    (hh : ∀ e, e.isException = true → Silent (h e)) : Silent (Run.handle m h) := by
  constructor
  · intro s
    have hs := hm.1 s
    have he := hm.2 s
    rcases hms : m s with ⟨w, s', e | a⟩ <;> rw [hms] at hs he
    · rw [Run.handle_error hms]
      exact hs.append ((hh e (he e rfl)).1 s')
    · rw [Run.handle_ok hms]
      exact hs
  · intro s
    have he := hm.2 s
    rcases hms : m s with ⟨w, s', e | a⟩ <;> rw [hms] at he
    · rw [Run.handle_error hms]
      exact (hh e (he e rfl)).2 s'
    · rw [Run.handle_ok hms]
      exact .ok a

end Silent

/-! ## Words of events -/

/-- This step appends no TOOL_STARTED after the declared duration: the clock is read next when the time left is asked
for, before the call is made. -/
def StartsInTime (env : Env) (s x : St) : Prop :=
  ∀ e, x.world.events = s.world.events ++ [e] → e.eventType = "TOOL_STARTED" →
    env.clock s.world.readings - s.ctx.startedNs < s.ctx.skill.limits.durationMs * 1000000

theorem startsInTime_of_sameLog {s x : St} (h : SameLog s x) : StartsInTime env s x := by
  intro e he
  rw [h] at he
  have hlen := congrArg List.length he
  rw [List.length_append, List.length_singleton] at hlen
  omega

theorem startsInTime_of_type {s : St} {w : World} {e : AuditEvent} (hw : w.events = s.world.events ++ [e])
    (he : e.eventType ≠ "TOOL_STARTED") (c : Context) : StartsInTime env s ⟨c, w⟩ := by
  intro e' he' htype
  have hsame : [e] = [e'] := List.append_cancel_left (hw.symm.trans he')
  rw [← List.singleton_inj.1 hsame] at htype
  exact absurd htype he

/-- Along silent writes the log stays. -/
theorem linked_sameLog : ∀ {w : List St} {s s' : St}, Run.Linked SameLog s w s' → SameLog s s'
  | [], s, s', h     => by
    have hs' : s' = s := h
    rw [hs']
    rfl
  | _ :: _, _, _, h => (linked_sameLog h.2).trans h.1

/-- **What a run appends**: a word that leaves open the statements `path` goes through, and a call only when the run
fails. -/
structure Goes (env : Env) (r : Recorder) {α : Type} (s : St) (t : Stateful.Trace St Exn α) (path : List String) :
    Prop where
  trace  : ∃ events running, t.final.world.events = s.world.events ++ events ∧
    Leaves (events.map AuditEvent.mark) (path.map (shown r)) running ∧
    (Run.Linked (StartsInTime env) s t.written t.final ↔ running = none) ∧ (t.outcome.isOk = true → running = none)
  linked : Run.Linked (fun _ _ => True) s t.written t.final
  path   : t.outcome.isOk = true → path = []
  mild   : Mild t.outcome

/-- A run that leaves no statement open. -/
def Calls (env : Env) (r : Recorder) {α : Type} (m : Run St Exn α) : Prop := ∀ s, Goes env r s (m s) []

variable {α β : Type}

theorem Silent.calls {m : Run St Exn α} (h : Silent m) : Calls env r m := fun s =>
  { trace  := ⟨[], none, by rw [List.append_nil]; exact linked_sameLog (h.1 s), Brackets.leaves_nil,
      iff_of_true ((h.1 s).mono (fun _ _ => startsInTime_of_sameLog)) rfl, fun _ => rfl⟩
    linked := (h.1 s).mono (fun _ _ _ => trivial)
    path   := fun _ => rfl
    mild   := h.2 s }

/-- A first part that ended with a value, and the rest. -/
theorem Goes.andThen {m : Run St Exn α} {f : α → Run St Exn β} {s s' : St} {w : List St} {a : α} {path path' : List String}
    (hms : m s = ⟨w, s', .ok a⟩) (hm : Goes env r s (m s) path) (hf : Goes env r s' (f a s') path') :
    Goes env r s (Run.andThen m f s) path' := by
  rw [hms] at hm
  obtain ⟨evs, running, hevs, hleaves, hlinked, hok⟩ := hm.trace
  obtain ⟨evs', running', hevs', hleaves', hlinked', hok'⟩ := hf.trace
  have hpath := hm.path rfl
  have hrun := hok rfl
  subst hpath hrun
  have hfirst := hlinked.2 rfl
  rw [Run.andThen_ok hms]
  refine ⟨⟨evs ++ evs', running', ?_, ?_, ?_, hok'⟩, hm.linked.append hf.linked, hf.path, hf.mild⟩
  · show (f a s').final.world.events = _
    rw [hevs', hevs, List.append_assoc]
  · have h := hleaves.append hleaves'
    rwa [← List.map_append, List.map_nil, List.append_nil] at h
  · show Run.Linked _ s (w ++ (f a s').written) (f a s').final ↔ _
    rw [Run.linked_append_iff hfirst]
    exact hlinked'

/-- A first part that failed. -/
theorem Goes.andThen_error {m : Run St Exn α} {f : α → Run St Exn β} {s s' : St} {w : List St} {e : Exn}
    {path : List String} (hms : m s = ⟨w, s', .error e⟩) (hm : Goes env r s (m s) path) :
    Goes env r s (Run.andThen m f s) path := by
  rw [hms] at hm
  obtain ⟨evs, running, hevs, hleaves, hlinked, -⟩ := hm.trace
  rw [Run.andThen_error hms]
  exact ⟨⟨evs, running, hevs, hleaves, hlinked, fun h => (by cases h)⟩, hm.linked, fun h => (by cases h),
    .error (hm.mild e rfl)⟩

/-- A last part that appends nothing. -/
theorem Goes.lastly {m : Run St Exn α} {fin : Run St Exn Unit} {s : St} {path : List String}
    (hm : Goes env r s (m s) path) (hfin : Silent fin) : Goes env r s (Run.lastly m fin s) path := by
  obtain ⟨evs, running, hevs, hleaves, hlinked, hok⟩ := hm.trace
  rcases hms : m s with ⟨w, s', o⟩
  rw [hms] at hm hevs hlinked hok
  have hlast := hfin.1 s'
  have hmild := hfin.2 s'
  unfold Run.lastly
  rw [hms]
  dsimp only
  rcases hfs : fin s' with ⟨w', s'', o'⟩
  rw [hfs] at hlast hmild
  have hlog : s''.world.events = s.world.events ++ evs := (linked_sameLog hlast).trans hevs
  have hlinked' : Run.Linked (StartsInTime env) s (w ++ w') s'' ↔ running = none := by
    constructor
    · intro h
      exact hlinked.1 (hm.linked.of_append h).1
    · intro h
      exact (hlinked.2 h).append (hlast.mono (fun _ _ => startsInTime_of_sameLog))
  have hall := hm.linked.append (hlast.mono (fun _ _ _ => trivial))
  cases o' with
  | ok u    => exact ⟨⟨evs, running, hlog, hleaves, hlinked', hok⟩, hall, hm.path, hm.mild⟩
  | error e =>
    exact ⟨⟨evs, running, hlog, hleaves, hlinked', fun h => (by cases h)⟩, hall, fun h => (by cases h),
      .error (hmild e rfl)⟩

namespace Calls

theorem bind {m : Run St Exn α} {f : α → Run St Exn β} (hm : Calls env r m) (hf : ∀ a, Calls env r (f a)) :
    Calls env r (m >>= f) := by
  intro s
  rcases hms : m s with ⟨w, s', e | a⟩
  · exact (hm s).andThen_error hms
  · exact (hm s).andThen hms (hf a s')

theorem done (a : α) : Calls env r (Run.done a) := (Silent.done a).calls

theorem fail {e : Exn} (h : e.isException = true) : Calls env r (Run.fail e : Run St Exn α) := (Silent.fail h).calls

theorem look (f : St → α) : Calls env r (Run.look f) := (Silent.look f).calls

theorem ofExcept {x : Except Exn α} (h : Mild x) : Calls env r (Run.ofExcept x) := (Silent.ofExcept h).calls

/-- A handler that raises another exception. -/
theorem handle_fail {m : Run St Exn α} (hm : Calls env r m) {f : Exn → Exn}
    (hf : ∀ e, e.isException = true → (f e).isException = true) :
    Calls env r (Run.handle m (fun e => Run.fail (f e))) := by
  intro s
  have h := hm s
  rcases hms : m s with ⟨w, s', e | a⟩ <;> rw [hms] at h
  · obtain ⟨evs, running, hevs, hleaves, hlinked, -⟩ := h.trace
    rw [Run.handle_error hms]
    show Goes env r s ⟨w ++ [], s', .error (f e)⟩ []
    rw [List.append_nil]
    exact ⟨⟨evs, running, hevs, hleaves, hlinked, fun h => (by cases h)⟩, h.linked, fun h => (by cases h),
      .error (hf e (h.mild e rfl))⟩
  · rw [Run.handle_ok hms]
    exact h

end Calls

/-- One event that is emitted, of no kind the trace is about. -/
theorem emitHidden_calls (eventType : String) (payload : Value) (c : DataClassification) (ref : Option SnapshotRef)
    (metadata : Value)
    (htype : ∀ e : AuditEvent, e.eventType = eventType → e.mark = .plain ∧ e.eventType ≠ "TOOL_STARTED") :
    Calls env r (emitHidden env eventType payload c ref metadata) := by
  intro s
  unfold emitHidden
  cases hr : env.recorder with
  | none    => exact Calls.done () s
  | some r' =>
    show Goes env r s (Run.andThen (Run.ofExcept (nextEvent r' s.world eventType payload c ref metadata))
      (fun e => modifyWorld (·.append e)) s) []
    cases he : nextEvent r' s.world eventType payload c ref metadata with
    | error e => exact Calls.fail (nextEvent_mild _ _ _ _ _ _ _ e he) s
    | ok e    =>
      have hty : e.eventType = eventType := nextEvent_type he
      obtain ⟨hmark, htool⟩ := htype e hty
      have hstart : StartsInTime env s ⟨s.ctx, s.world.append e⟩ := startsInTime_of_type rfl htool _
      refine ⟨⟨[e], none, rfl, ?_, iff_of_true ⟨hstart, rfl⟩ rfl, fun _ => rfl⟩, ⟨trivial, rfl⟩, fun _ => rfl, .ok ()⟩
      rw [List.map_singleton, hmark]
      exact Brackets.leaves_plain

/-! ## Clock, port and guard -/

variable (env)

theorem readClock_silent : Silent (readClock env) :=
  (Silent.look _).bind (fun _ => Silent.bind (Silent.modifyWorld (fun _ => rfl)) (fun _ => Silent.done _))

theorem putSnapshot_silent (value : Value) (c : DataClassification) : Silent (putSnapshot env value c) := by
  unfold putSnapshot
  cases env.snapshots with
  | none       => exact Silent.done none
  | some store =>
    exact (Silent.look _).bind (fun _ => Silent.bind (Silent.modifyWorld (fun _ => rfl)) (fun _ => Silent.done _))

/-- A port and a measurement sink that raise nothing but an `Exception`. -/
structure OnlyExceptions (env : Env) : Prop where
  port : ∀ calls request e, env.port calls request = .raises e → e.isException = true
  sink : ∀ measurement, Mild (env.measurementSink measurement)

variable {env}

theorem callPort_silent (h : OnlyExceptions env) (request : ToolCallRequest) : Silent (callPort env request) := by
  refine (Silent.look _).bind (fun calls => Silent.bind (Silent.modifyWorld (fun _ => rfl)) (fun _ => ?_))
  cases ha : env.port calls request with
  | raises e     => exact Silent.fail (h.port calls request e ha)
  | returns _    => exact Silent.done _
  | returnsOther => exact Silent.done _

theorem callTools_silent (h : OnlyExceptions env) (request : ToolCallRequest) : Silent (callTools env request) := by
  obtain ⟨hport, hmild⟩ := (callPort_silent h request).attempt
  unfold callTools
  split
  · exact (readClock_silent env).bind (fun _ => hport.bind_gives hmild (fun outcome houtcome =>
      (readClock_silent env).bind (fun _ => (Silent.ofExcept (measurementCheck_mild _)).bind (fun _ =>
        (Silent.ofExcept (h.sink _)).bind (fun _ => Silent.ofExcept houtcome)))))
  · exact callPort_silent h request

/-- The port's own answer is no exception. -/
theorem callTools_gives (request : ToolCallRequest) :
    Run.Gives (fun answer => ∀ e, answer ≠ .raises e) (callTools env request) := by
  have hport : Run.Gives (fun answer => ∀ e, answer ≠ .raises e) (callPort env request) := by
    unfold callPort
    simp only [Run.bind_eq]
    refine Run.gives_after (fun calls => Run.gives_after (fun _ => ?_))
    cases env.port calls request with
    | raises e     => exact Run.gives_fail e
    | returns _    => exact Run.gives_done (fun _ h => by cases h)
    | returnsOther => exact Run.gives_done (fun _ h => by cases h)
  unfold callTools
  split
  · refine Run.gives_after (fun _ => Run.Gives.andThen (P := fun o => ∀ a, o = .ok a → ∀ e, a ≠ .raises e) ?_
      (fun outcome houtcome => Run.gives_after (fun _ => Run.gives_after (fun _ => Run.gives_after (fun _ =>
        Run.gives_ofExcept houtcome)))))
    intro s w s' o ho a ha
    cases ho
    rcases hms : callPort env request s with ⟨w, s', e | b⟩ <;> rw [hms] at ha
    · cases ha
    · cases ha
      exact hport s w s' _ hms
  · exact hport

theorem remainingDurationNs_silent : Silent (remainingDurationNs env) :=
  (readClock_silent env).bind (fun _ => (Silent.look _).bind (fun _ => Silent.done _))

theorem checkDeadline_silent : Silent (checkDeadline env) := by
  refine remainingDurationNs_silent.bind (fun remaining => ?_)
  split
  · exact Silent.fail rfl
  · exact Silent.done ()

theorem consume_silent (count limit : Context → Nat) (message : String) (bump : Meter → Meter) :
    Silent (consume count limit message bump) := by
  refine (Silent.look _).bind (fun ctx => ?_)
  split
  · exact Silent.fail rfl
  · exact Silent.modifyCtx _

theorem beforeToolCall_silent : Silent (beforeToolCall env) :=
  checkDeadline_silent.bind (fun _ => consume_silent _ _ _ _)

theorem beforeLoopIteration_silent : Silent (beforeLoopIteration env) :=
  checkDeadline_silent.bind (fun _ => consume_silent _ _ _ _)

theorem beforeEmit_silent : Silent (beforeEmit env) := by
  refine checkDeadline_silent.bind (fun _ => (Silent.look _).bind (fun ctx => ?_))
  split
  · exact Silent.fail rfl
  · exact Silent.done ()

theorem checkCollection_silent (size : Nat) : Silent (checkCollection env size) := by
  refine checkDeadline_silent.bind (fun _ => (Silent.look _).bind (fun ctx => ?_))
  split
  · exact Silent.fail rfl
  · exact Silent.done ()

theorem observeCollection_silent (size : Nat) : Silent (observeCollection env size) :=
  Silent.bind (Silent.modifyCtx _) (fun _ => checkCollection_silent size)

theorem onList_silent {check : Nat → Run St Exn Unit} (h : ∀ n, Silent (check n)) (value : Value) :
    Silent (onList check value) := by
  unfold onList
  split
  · exact h _
  · exact Silent.done ()

theorem bindOnce_silent (symbolId : String) (put : Context → Context) : Silent (bindOnce symbolId put) := by
  refine (Silent.look _).bind (fun ctx => ?_)
  split
  · exact Silent.fail rfl
  · exact Silent.modifyCtx _

theorem popFrame_silent : Silent popFrame := by
  refine (Silent.look _).bind (fun ctx => ?_)
  split
  · exact Silent.modifyCtx _
  · exact Silent.fail rfl

/-! ## One tool call -/

theorem executeWithTimeout_silent (h : OnlyExceptions env) (request : ToolCallRequest) (timeoutMs : Int) :
    Silent (executeWithTimeout env request timeoutMs) := by
  refine (callTools_silent h request).handle (fun e he => ?_)
  split
  · exact Silent.fail rfl
  · cases he
  · exact Silent.fail he

theorem executeWithTimeout_gives (request : ToolCallRequest) (timeoutMs : Int) :
    Run.Gives (fun answer => ∀ e, answer ≠ .raises e) (executeWithTimeout env request timeoutMs) := by
  refine (callTools_gives request).handle (fun e => ?_)
  split <;> exact Run.gives_fail _

theorem checkedCall_silent (h : OnlyExceptions env) (t : ToolCall) (request : ToolCallRequest) (timeoutMs : Int)
    (policy : ResultPolicy) : Silent (checkedCall env t request timeoutMs policy) := by
  refine (Silent.ofExcept (validateRequest_mild _ _)).bind (fun _ =>
    (executeWithTimeout_silent h request timeoutMs).bind_gives (executeWithTimeout_gives request timeoutMs)
      (fun answer hanswer => ?_))
  refine (Silent.ofExcept (validateResultStructure_mild (fun e he => absurd he (hanswer e)) _)).bind (fun result =>
    (Silent.ofExcept (validateResult_mild _ _)).bind (fun _ => (Silent.ofExcept (validateResultHash_mild _)).bind
      (fun _ => ?_)))
  split
  · exact Silent.fail rfl
  · exact checkDeadline_silent.bind (fun _ => Silent.done _)

/-- A run that closes the call `b`, whatever its end. -/
def Closes (env : Env) (b : Option Value) {α : Type} (s : St) (t : Stateful.Trace St Exn α) : Prop :=
  ∃ events, t.final.world.events = s.world.events ++ events ∧ Stops b (events.map AuditEvent.mark) ∧
    Run.Linked (StartsInTime env) s t.written t.final ∧ Mild t.outcome

/-- The event that closes a call, between silent parts. -/
theorem closes_emit (hr : env.recorder = some r) {eventType id : String} {payload : List (String × Value)}
    (htype : eventType = "TOOL_COMPLETED" ∨ eventType = "TOOL_FAILED") (hjson : fieldsJson payload = true)
    (hplain : plainKeys (payload.map Prod.fst) = true) (hid : payload.lookup "invocation_id" = some (.str id))
    {rest : Run St Exn α} (hrest : Silent rest) (s : St) :
    Closes env (shown r id) s (Run.andThen (emit env eventType payload) (fun _ => rest) s) := by
  obtain ⟨e, he, hrun⟩ := emit_event hr eventType hjson s
  obtain ⟨hty, hshows⟩ := nextEvent_shows he hplain hid (by decide)
  have hmark : e.mark = .stop (shown r id) := by
    unfold AuditEvent.mark
    rw [hty, hshows]
    rcases htype with rfl | rfl <;> simp
  have hstart : StartsInTime env s ⟨s.ctx, s.world.append e⟩ :=
    startsInTime_of_type rfl (by rw [hty]; rcases htype with rfl | rfl <;> decide) _
  rw [Run.andThen_ok hrun]
  refine ⟨[e], linked_sameLog (hrest.1 _), ?_, ⟨hstart, (hrest.1 _).mono (fun _ _ => startsInTime_of_sameLog)⟩, hrest.2 _⟩
  rw [List.map_singleton, hmark]
  exact Brackets.stops_stop _

theorem Closes.after {b : Option Value} {m : Run St Exn α} {f : α → Run St Exn β} {s s' : St} {w : List St} {a : α}
    (hm : Silent m) (hms : m s = ⟨w, s', .ok a⟩) (hf : Closes env b s' (f a s')) :
    Closes env b s (Run.andThen m f s) := by
  obtain ⟨evs, hevs, hstops, hlinked, hmild⟩ := hf
  have h := hm.1 s
  rw [hms] at h
  rw [Run.andThen_ok hms]
  refine ⟨evs, ?_, hstops, (h.mono (fun _ _ => startsInTime_of_sameLog)).append hlinked, hmild⟩
  show (f a s').final.world.events = _
  rw [hevs, linked_sameLog h]

theorem toolFailed_closes (hr : env.recorder = some r) (t : ToolCall) (code : String) (detail : Option String)
    (status : String) {e : Exn} (he : e.isException = true) (s : St) :
    Closes env (shown r t.invocationId) s
      ((do toolFailed env t code detail status; Run.fail e : Run St Exn ToolResultEnvelope) s) :=
  closes_emit hr (.inr rfl) (by simp [ToolCall.base, fieldsJson, Value.isJson, optionalStr_isJson])
    (by show plainKeys ["node_id", "invocation_id", "tool_id", "error_code", "authorization_decision_ref", "cause",
          "output"] = true
        decide +kernel)
    rfl (Silent.fail he) s

/-- **A call that failed is reported as failed.** -/
theorem reportFailure_closes (hr : env.recorder = some r) (t : ToolCall) (durationLimited : Bool) {e : Exn}
    (he : e.isException = true) (s : St) :
    Closes env (shown r t.invocationId) s (reportFailure env t durationLimited e s) := by
  unfold reportFailure
  split
  · exact toolFailed_closes hr t _ _ _ rfl s
  · split
    · exact toolFailed_closes hr t _ _ _ rfl s
    · exact toolFailed_closes hr t _ _ _ rfl s
  · cases he
  · cases he
  · exact toolFailed_closes hr t _ _ _ he s

/-- **A call whose result passed is reported as completed.** -/
theorem acceptResult_closes (hr : env.recorder = some r) (t : ToolCall) (result : ToolResultEnvelope) (s : St) :
    Closes env (shown r t.invocationId) s (acceptResult env t result s) := by
  have hend : ∀ stored s', Closes env (shown r t.invocationId) s' ((do
      toolCompleted env t result stored
      onList (observeCollection env) result.value
      Run.done (result.toValue
        ("prov:" ++ t.invocationId ++ ":" ++ String.ofList ((result.resultHash.toList.take 19).drop 7)))) s') :=
    fun stored s' => closes_emit hr (.inl rfl)
      (by simp [ToolCall.base, fieldsJson, Value.isJson, optionalStr_isJson, ofJson_isJson])
      (by show plainKeys ["node_id", "invocation_id", "tool_id", "authorization_decision_ref", "result_hash",
            "snapshot_ref", "presence", "completeness", "output"] = true
          decide +kernel)
      rfl ((onList_silent observeCollection_silent _).bind (fun _ => Silent.done _)) s'
  unfold acceptResult
  cases result.snapshotRef with
  | some ref => exact hend (some ref) s
  | none     =>
    have hput : ∀ s, ∃ w s' ref, putSnapshot env result.value result.classification s = ⟨w, s', .ok ref⟩ := by
      intro s
      unfold putSnapshot
      cases env.snapshots with
      | none   => exact ⟨_, _, _, rfl⟩
      | some _ => exact ⟨_, _, _, rfl⟩
    obtain ⟨w, s', ref, hs⟩ := hput s
    have hstored : Run.andThen (putSnapshot env result.value result.classification)
        (fun ref => Run.done (ref.map SnapshotRef.snapshotId)) s = ⟨w ++ [], s', .ok (ref.map SnapshotRef.snapshotId)⟩ :=
      Run.andThen_ok hs
    exact Closes.after (Silent.bind (putSnapshot_silent env _ _) (fun ref => Silent.done _)) hstored
      (hend (ref.map SnapshotRef.snapshotId) s')

/-- The state after a reading of the clock. -/
def ticked (s : St) : St := { s with world := { s.world with readings := s.world.readings + 1 } }

/-- The time that is left in a state, at the next reading. -/
def timeLeftNs (env : Env) (s : St) : Int :=
  s.ctx.skill.limits.durationMs * 1000000 - (env.clock s.world.readings - s.ctx.startedNs)

theorem remainingDurationMs_eq (s : St) : remainingDurationMs env s = ⟨[ticked s], ticked s,
    if timeLeftNs env s ≤ 0 then .error (.limitExceeded DURATION_LIMIT_MESSAGE)
    else .ok ((timeLeftNs env s + 999999) / 1000000)⟩ := by
  have hns : remainingDurationNs env s = ⟨[ticked s], ticked s, .ok (timeLeftNs env s)⟩ := rfl
  unfold remainingDurationMs
  rw [Run.bind_eq, Run.andThen_ok hns]
  split <;> rfl

/-- The report of a failure ends in it. -/
theorem reportFailure_fails (t : ToolCall) (durationLimited : Bool) (e : Exn) :
    Run.Gives (fun _ => False) (reportFailure env t durationLimited e) := by
  unfold reportFailure
  simp only [Run.bind_eq]
  split
  · exact Run.gives_after (fun _ => Run.gives_fail _)
  · split <;> exact Run.gives_after (fun _ => Run.gives_fail _)
  · exact Run.gives_fail _
  · exact Run.gives_fail _
  · exact Run.gives_after (fun _ => Run.gives_fail _)

/-- The call and what becomes of its result. -/
theorem calledAndClosed (h : OnlyExceptions env) (hr : env.recorder = some r) (t : ToolCall) (request : ToolCallRequest)
    (timeoutMs : Int) (durationLimited : Bool) (policy : ResultPolicy) (s : St) :
    Closes env (shown r t.invocationId) s ((do
      let result ← Run.handle (checkedCall env t request timeoutMs policy) (reportFailure env t durationLimited)
      acceptResult env t result) s) := by
  have hcall := checkedCall_silent h t request timeoutMs policy
  have hlog := hcall.1 s
  have hmild := hcall.2 s
  rcases hms : checkedCall env t request timeoutMs policy s with ⟨w, s', e | result⟩ <;> rw [hms] at hlog hmild
  · -- the call failed: its report closes it, and fails again
    obtain ⟨evs, hevs, hstops, hlinked, hraised⟩ := reportFailure_closes hr t durationLimited (hmild e rfl) s'
    have hreport := Run.handle_error (h := reportFailure env t durationLimited) hms
    rcases hrs : reportFailure env t durationLimited e s' with ⟨w', s'', e' | result⟩
    · rw [hrs] at hreport hevs hlinked hraised
      rw [Run.bind_eq, Run.andThen_error hreport]
      refine ⟨evs, ?_, hstops, (hlog.mono (fun _ _ => startsInTime_of_sameLog)).append hlinked, .error (hraised e' rfl)⟩
      exact hevs.trans (by rw [linked_sameLog hlog])
    · exact (reportFailure_fails t durationLimited e s' w' s'' result hrs).elim
  · have hhandled := Run.handle_ok (h := reportFailure env t durationLimited) hms
    obtain ⟨evs, hevs, hstops, hlinked, haccepted⟩ := acceptResult_closes hr t result s'
    rw [Run.bind_eq, Run.andThen_ok hhandled]
    refine ⟨evs, ?_, hstops, (hlog.mono (fun _ _ => startsInTime_of_sameLog)).append hlinked, haccepted⟩
    show (acceptResult env t result s').final.world.events = _
    rw [hevs, linked_sameLog hlog]

/-- **A call that was started is closed exactly when it was started in time.** -/
theorem startedCall_calls (h : OnlyExceptions env) (hr : env.recorder = some r) (t : ToolCall)
    (principal : ExecutionPrincipal) (policy : ResultPolicy) (argumentHash : String) (argumentRef : Option SnapshotRef) :
    Calls env r (do
      toolStarted env t argumentHash argumentRef
      let ctx ← getCtx
      let request := t.request ctx principal
      let remaining ← remainingDurationMs env
      let result ← Run.handle (checkedCall env t request (min t.contract.timeoutMs remaining) policy)
        (reportFailure env t (remaining ≤ t.contract.timeoutMs))
      acceptResult env t result) := by
  intro s
  obtain ⟨e, he, hrun⟩ : ∃ e, nextEvent r s.world "TOOL_STARTED" _ .internal none (.dict []) = .ok e ∧
      toolStarted env t argumentHash argumentRef s = _ :=
    emit_event hr "TOOL_STARTED" (by simp [ToolCall.base, fieldsJson, Value.isJson, optionalStr_isJson, itemsJson_texts]) s
  obtain ⟨hty, hshows⟩ : e.eventType = "TOOL_STARTED" ∧ e.shows "invocation_id" = shown r t.invocationId :=
    nextEvent_shows he
      (by show plainKeys ["node_id", "invocation_id", "tool_id", "argument_hash", "input",
            "authorization_decision_ref"] = true
          decide +kernel) rfl (by decide)
  have hmark : e.mark = .start (shown r t.invocationId) := by
    unfold AuditEvent.mark
    rw [hty, hshows]
    simp
  have hgrow : (s.world.append e).events = s.world.events ++ [e] := rfl
  have htime : StartsInTime env s { s with world := s.world.append e } ↔
      ¬ timeLeftNs env { s with world := s.world.append e } ≤ 0 := by
    have hleft : timeLeftNs env { s with world := s.world.append e } =
        s.ctx.skill.limits.durationMs * 1000000 - (env.clock s.world.readings - s.ctx.startedNs) := rfl
    rw [hleft]
    constructor
    · intro hstart
      have := hstart e hgrow hty
      omega
    · intro hpos e' _ _
      omega
  have hremaining := @remainingDurationMs_eq _ env { s with world := s.world.append e }
  rw [Run.bind_eq, Run.andThen_ok hrun]
  by_cases hleft : timeLeftNs env { s with world := s.world.append e } ≤ 0
  · -- no time is left: the clock is read outside the `try`, and nothing closes the call
    rw [if_pos hleft] at hremaining
    show Goes env r s ⟨[_] ++ (Run.andThen (remainingDurationMs env) _ _).written,
      (Run.andThen (remainingDurationMs env) _ _).final, (Run.andThen (remainingDurationMs env) _ _).outcome⟩ []
    rw [Run.andThen_error hremaining]
    refine ⟨⟨[e], some (shown r t.invocationId), rfl, ?_, ?_, fun h => (by cases h)⟩, ⟨trivial, trivial, rfl⟩,
      fun h => (by cases h), .error rfl⟩
    · rw [List.map_singleton, hmark]
      exact Brackets.leaves_start _
    · exact iff_of_false (fun hlinked => htime.1 hlinked.1 hleft) (fun h => by cases h)
  · rw [if_neg hleft] at hremaining
    show Goes env r s ⟨[_] ++ (Run.andThen (remainingDurationMs env) _ _).written,
      (Run.andThen (remainingDurationMs env) _ _).final, (Run.andThen (remainingDurationMs env) _ _).outcome⟩ []
    rw [Run.andThen_ok hremaining]
    obtain ⟨evs, hevs, hstops, hlinked, hmild⟩ := calledAndClosed h hr t
      (t.request s.ctx principal) (min t.contract.timeoutMs ((timeLeftNs env { s with world := s.world.append e } + 999999) / 1000000)) _ policy
      (ticked { s with world := s.world.append e })
    have htick : SameLog { s with world := s.world.append e } (ticked { s with world := s.world.append e }) := rfl
    refine ⟨⟨e :: evs, none, ?_, ?_, ?_, fun _ => rfl⟩, ⟨trivial, trivial, ?_⟩, fun _ => rfl, hmild⟩
    · rw [hevs]
      exact List.append_assoc ..
    · rw [List.map_cons, hmark]
      exact Brackets.leaves_call hstops
    · exact iff_of_true ⟨htime.2 hleft, startsInTime_of_sameLog htick, hlinked⟩ rfl
    · exact hlinked.mono (fun _ _ _ => trivial)

theorem performCall_calls (h : OnlyExceptions env) (hr : env.recorder = some r) (t : ToolCall)
    (principal : ExecutionPrincipal) (policy : ResultPolicy) : Calls env r (performCall env t principal policy) :=
  (Calls.ofExcept (valueHash_mild _)).bind (fun argumentHash => (putSnapshot_silent env _ _).calls.bind (fun argumentRef =>
    startedCall_calls h hr t principal policy argumentHash argumentRef))

theorem appendRow_calls (nodeId : String) (outputs : List OutputField) (values : List (String × ValueEnvelope)) :
    Calls env r (appendRow env nodeId outputs values) := by
  refine (Calls.ofExcept (emitRecord_mild _ _)).bind (fun record => (Silent.modifyCtx _).calls.bind (fun _ =>
    (Silent.modifyCtx _).calls.bind (fun _ => (putSnapshot_silent env _ _).calls.bind (fun _ => ?_))))
  exact emitHidden_calls _ _ _ _ _ (fun e he => by simp [AuditEvent.mark, he, TERMINAL_EVENTS])

/-! ## Expressions -/

theorem executeRead_calls (h : OnlyExceptions env) (hr : env.recorder = some r) (nodeId toolRef : String)
    (names : List String) {arguments : Run St Exn (List (String × ValueEnvelope))} (ha : Calls env r arguments)
    (policy : ResultPolicy) : Calls env r (executeRead env nodeId toolRef names arguments policy) := by
  refine (Calls.look _).bind (fun ctx => (Calls.ofExcept (resolveRead_mild _ _ _ _)).bind (fun resolved =>
    ha.bind (fun args => ?_)))
  refine beforeToolCall_silent.calls.bind (fun _ => (Silent.modifyCtx _).calls.bind (fun _ => (Calls.look _).bind
    (fun counted => ?_)))
  exact performCall_calls h hr _ _ policy

theorem evaluated_calls (e : Expression) {ir : Run St Exn ValueEnvelope} (h : Calls env r ir) :
    Calls env r (evaluated env e ir) := by
  unfold evaluated
  split
  · exact Calls.fail rfl
  · refine ((checkDeadline_silent.calls.bind (fun _ => h)).handle_fail (fun _ => evaluationError_isException)).bind
      (fun result => ?_)
    split
    · exact Calls.fail rfl
    · exact (Silent.modifyCtx _).calls.bind (fun _ => checkDeadline_silent.calls.bind (fun _ =>
        (onList_silent checkCollection_silent _).calls.bind (fun _ => Calls.done _)))

mutual
theorem evaluateIr_calls (h : OnlyExceptions env) (hr : env.recorder = some r) :
    ∀ (e : Expression), Calls env r (evaluateIr env e)
  | .literal .. => by
    unfold evaluateIr
    exact Calls.done _
  | .symbolRef .. => by
    unfold evaluateIr
    exact (Calls.look _).bind (fun _ => Calls.ofExcept (contextResolve_mild _ _))
  | .field _ source _ _ => by
    unfold evaluateIr
    exact (evaluated_calls source (evaluateIr_calls h hr source)).bind (fun _ => Calls.ofExcept (fieldValue_mild _ _ _))
  | .project _ source _ _ => by
    unfold evaluateIr
    exact (evaluated_calls source (evaluateIr_calls h hr source)).bind (fun _ => Calls.ofExcept (projectValue_mild _ _ _))
  | .call _ _ arguments _ => by
    unfold evaluateIr
    exact (evaluateItems_calls h hr arguments).bind (fun _ => Calls.ofExcept (callValue_mild _ _ _ _))
  | .binary _ _ left right _ => by
    unfold evaluateIr
    exact (evaluated_calls left (evaluateIr_calls h hr left)).bind (fun _ =>
      (evaluated_calls right (evaluateIr_calls h hr right)).bind (fun _ => Calls.ofExcept (binaryValue_mild _ _ _ _ _)))
  | .read nodeId toolRef arguments _ policy => by
    unfold evaluateIr
    exact executeRead_calls h hr nodeId toolRef _ (evaluateArguments_calls h hr arguments) policy
  | .write .. => by
    unfold evaluateIr
    exact Calls.fail rfl
theorem evaluateItems_calls (h : OnlyExceptions env) (hr : env.recorder = some r) :
    ∀ (es : List Expression), Calls env r (evaluateItems env es)
  | [] => by
    unfold evaluateItems
    exact Calls.done _
  | e :: es => by
    unfold evaluateItems
    exact (evaluated_calls e (evaluateIr_calls h hr e)).bind (fun _ => (evaluateItems_calls h hr es).bind (fun _ => Calls.done _))
theorem evaluateArguments_calls (h : OnlyExceptions env) (hr : env.recorder = some r) :
    ∀ (es : List (String × Expression)), Calls env r (evaluateArguments env es)
  | [] => by
    unfold evaluateArguments
    exact Calls.done _
  | (_, e) :: es => by
    unfold evaluateArguments
    exact (evaluated_calls e (evaluateIr_calls h hr e)).bind (fun _ => (evaluateArguments_calls h hr es).bind
      (fun _ => Calls.done _))
end

variable (h : OnlyExceptions env) (hr : env.recorder = some r)
include h hr

theorem evaluate_calls (e : Expression) : Calls env r (evaluate env e) := evaluated_calls e (evaluateIr_calls h hr e)

/-! ## Statements without a body -/

theorem executeCheck_calls (s : CheckStatement) : Calls env r (executeCheck env s) := by
  refine (evaluate_calls h hr s.condition).bind (fun predicate => (Calls.ofExcept (evaluateCheck_mild _ _)).bind
    (fun check => (Silent.modifyCtx _).calls.bind (fun _ => (bindOnce_silent _ _).calls.bind (fun _ => ?_))))
  exact emitHidden_calls _ _ _ _ _ (fun e he => by simp [AuditEvent.mark, he, TERMINAL_EVENTS])

theorem executeLet_calls (s : LetStatement) : Calls env r (executeLet env s) :=
  (evaluate_calls h hr s.value).bind (fun _ => (bindOnce_silent _ _).calls)

theorem emitField_calls (outputs : List OutputField) (name : String) (e : Expression) :
    Calls env r (emitField env outputs name e) := by
  unfold emitField
  split
  · exact Calls.fail rfl
  · split
    · exact Calls.fail rfl
    · refine (evaluate_calls h hr e).bind (fun result => (Calls.ofExcept (validateRuntimeType_mild _ _ _)).bind
        (fun _ => ?_))
      split
      · exact Calls.done _
      · exact Calls.fail rfl

theorem emitFields_calls (outputs : List OutputField) : ∀ (fields : List (String × Expression)),
    Calls env r (emitFields env outputs fields)
  | []           => Calls.done _
  | (n, e) :: es => (emitField_calls h hr outputs n e).bind (fun _ => (emitFields_calls outputs es).bind
      (fun _ => Calls.done _))

theorem executeEmit_calls (s : EmitStatement) : Calls env r (executeEmit env s) := by
  refine beforeEmit_silent.calls.bind (fun _ => (Calls.look _).bind (fun ctx => ?_))
  split
  · exact (emitFields_calls h hr _ _).bind (fun values => appendRow_calls _ _ values)
  · exact Calls.fail rfl

end EventTrace

end Nsl
