import Nsl.AuditFile
import Nsl.Base.HashChain
import Nsl.Base.JsonLines
/-!
# AuditLog — the file is a log of whole chains

The file of a `JsonlAuditStore` against a plain list of records. Calls of the store, restarts among them, do to the file
what `AuditLog.answer` does to the list. A file that was written by someone else is a store only if its chains are whole,
and then the last hash of an execution stands for all its events.
-/
namespace Nsl

open Calendar (DateTime)
open Stateful (Run bind_ok bind_eq_ok)
open Value

section AuditLog

variable [Platform]

/-! ## Events read back -/

omit [Platform] in
theorem checkVersion_ok {entries : List (String × Json)} {name expected : String} (h : entry entries name = .str expected)
    (message : String) : checkVersion entries name expected message = .ok () := if_pos h

namespace AuditEvent

/-- The event as it is read back, with the keys of the payload in order. -/
def kept (e : AuditEvent) : AuditEvent := { e with payload := ofJson e.payload.wire.sorted }

/-- The text the hash is taken of. -/
def hashText (e : AuditEvent) : String := Json.dumps e.hashData.wire

/-- What `from_data` asks of an event, beside its number and hash. -/
structure Storable (reader : LineReader) (e : AuditEvent) : Prop where
  texts     : ∀ s ∈ [e.executionId, e.eventType, e.skillId, e.skillVersion, e.semanticHash, e.runtimeVersion], s ≠ ""
  optionals : ∀ o ∈ [e.tenantId, e.subjectId, e.authContextRef, e.previousEventHash], o ≠ some ""
  object    : ∃ items, e.payload = .dict items
  json      : e.payload.isJson = true
  printed   : Json.Printed reader.number e.payload.wire

omit [Platform] in
theorem hashData_same (e : AuditEvent) : e.kept.hashData.wire.Same e.hashData.wire := by
  simp only [Json.Same, hashData, kept, wire, wireFields, Json.sorted, Json.sortedFields, wire_ofJson, Json.sorted_sorted]

omit [Platform] in
theorem kept_kept (e : AuditEvent) : e.kept.kept = e.kept := by
  simp only [kept, wire_ofJson, Json.sorted_sorted]

omit [Platform] in
theorem hashText_kept (e : AuditEvent) : e.kept.hashText = e.hashText := by
  unfold hashText Json.dumps
  rw [e.hashData_same]

omit [Platform] in
theorem hashData_isJson {e : AuditEvent} (h : e.payload.isJson = true) : e.hashData.isJson = true := by
  simp [hashData, isJson, fieldsJson, optionalStr_isJson, h]

/-- **What an event that verifies is.** -/
theorem verify_iff {e : AuditEvent} (h : e.payload.isJson = true) :
    e.verify = .ok () ↔ e.retentionDays ≠ 0 ∧ e.eventHash = sha256Of e.hashText := by
  obtain ⟨d, hd⟩ := valueHash_ok (hashData_isJson h)
  have hd' : valueHash e.hashData = .ok (sha256Of e.hashText) := by
    rw [hd]
    exact congrArg Except.ok (valueHash_wire hd)
  unfold verify
  rw [hd']
  by_cases hdays : e.retentionDays = 0
  · simp [hdays, bind, Except.bind, throw, throwThe, MonadExceptOf.throw]
  · by_cases hhash : e.eventHash = sha256Of e.hashText
    · simp [hdays, hhash, bind, Except.bind, pure, Except.pure]
    · simp [hdays, hhash, bind, Except.bind, throw, throwThe, MonadExceptOf.throw]

theorem kept_verify {e : AuditEvent} (h : e.payload.isJson = true) (hv : e.verify = .ok ()) : e.kept.verify = .ok () := by
  have hkept : e.kept.payload.isJson = true := ofJson_isJson _
  rw [verify_iff hkept, hashText_kept]
  exact (verify_iff h).1 hv

theorem eventHash_ne {e : AuditEvent} (h : e.payload.isJson = true) (hv : e.verify = .ok ()) : e.eventHash ≠ "" := by
  rw [((verify_iff h).1 hv).2]
  intro hempty
  exact absurd (congrArg (fun s : String => s.toList.head?) hempty) (by simp [sha256Of])

/-! ## From the document back to the event -/

omit [Platform] in
theorem textField_ok {entries : List (String × Json)} {name s : String} (h : entry entries name = .str s) (hs : s ≠ "") :
    textField entries name = .ok s := by
  unfold textField
  rw [h]
  exact if_neg hs

omit [Platform] in
theorem optionalField_ok {entries : List (String × Json)} {name : String} {o : Option String}
    (h : entry entries name = (optionalStr o).wire.sorted) (ho : o ≠ some "") : optionalField entries name = .ok o := by
  unfold optionalField
  rw [h]
  cases o with
  | none   => rfl
  | some s => exact if_neg fun hs => ho (congrArg some hs)

omit [Platform] in
theorem positiveField_ok {value : Json} {n : Nat} {message : String} (h : value = .int n) (hn : n ≠ 0) :
    positiveField value message = .ok n := by
  subst h
  cases n with
  | zero   => exact absurd rfl hn
  | succ n => rfl

omit [Platform] in
theorem payloadField_ok {value : Json} {v : Value} {items : List (String × Value)} (h : value = v.wire.sorted)
    (hv : v = .dict items) : payloadField value = .ok (ofJson v.wire.sorted) := by
  subst h hv
  rfl

omit [Platform] in
theorem classificationField_ok {value : Json} {c : DataClassification} (h : value = .str (StrEnum.value c)) :
    classificationField value = .ok c := by
  subst h
  unfold classificationField
  rw [ofJson, memberOf, StrEnum.ofValue?_value]
  rfl

/-- The document of an event. -/
def entries (e : AuditEvent) : List (String × Value) :=
  [("schema_version", .str AUDIT_SCHEMA_VERSION), ("execution_id", .str e.executionId), ("sequence", .int e.sequence),
   ("event_type", .str e.eventType), ("skill_id", .str e.skillId), ("skill_version", .str e.skillVersion),
   ("semantic_hash", .str e.semanticHash), ("runtime_version", .str e.runtimeVersion),
   ("tenant_id", optionalStr e.tenantId), ("subject_id", optionalStr e.subjectId),
   ("auth_context_ref", optionalStr e.authContextRef), ("retention_days", .int e.retentionDays),
   ("classification", .str (StrEnum.value e.classification)), ("payload", e.payload),
   ("previous_event_hash", optionalStr e.previousEventHash), ("event_hash", .str e.eventHash)]

omit [Platform] in
theorem toData_eq (e : AuditEvent) : e.toData = .dict e.entries := rfl

omit [Platform] in
theorem entries_keys (e : AuditEvent) : (wireFields e.entries).map Prod.fst = FIELDS := by
  rw [wireFields_eq, List.map_map]
  rfl

omit [Platform] in
theorem entries_once (e : AuditEvent) : KeysOnce (wireFields e.entries) := by
  unfold KeysOnce
  rw [entries_keys]
  decide

/-- **An event is read back from its document.** -/
theorem fromData_toData {reader : LineReader} {e : AuditEvent} (h : e.Storable reader) (hv : e.verify = .ok ())
    (hseq : e.sequence ≠ 0) : fromData e.toData.wire.sorted = .ok e.kept := by
  obtain ⟨items, hitems⟩ := h.object
  obtain ⟨read, hread, hlookup⟩ := @exactEntries_sorted (fun _ _ => .value "invalid audit event schema")
    (wireFields e.entries) "$" FIELDS e.entries_once (fun k => by rw [entries_keys])
  have hentry : ∀ k, entry read k = (((wireFields e.entries).lookup k).map Json.sorted).getD .null := fun k => by
    rw [entry, hlookup]
  have htext : ∀ name s, entry read name = .str s → s ∈ [e.executionId, e.eventType, e.skillId, e.skillVersion, e.semanticHash,
      e.runtimeVersion] → textField read name = .ok s := fun name s hs hmem => textField_ok hs (h.texts s hmem)
  have hoptional : ∀ name o, entry read name = (optionalStr o).wire.sorted → o ∈ [e.tenantId, e.subjectId, e.authContextRef,
      e.previousEventHash] → optionalField read name = .ok o := fun name o ho hmem => optionalField_ok ho (h.optionals o hmem)
  have hdays := ((verify_iff h.json).1 hv).1
  unfold fromData
  rw [toData_eq, wire, bind_ok hread, bind_ok (checkVersion_ok (hentry "schema_version") _),
    bind_ok (htext "execution_id" e.executionId (hentry _) (by simp)),
    bind_ok (htext "event_type" e.eventType (hentry _) (by simp)),
    bind_ok (htext "skill_id" e.skillId (hentry _) (by simp)), bind_ok (htext "skill_version" e.skillVersion (hentry _) (by simp)),
    bind_ok (htext "semantic_hash" e.semanticHash (hentry _) (by simp)),
    bind_ok (htext "runtime_version" e.runtimeVersion (hentry _) (by simp)),
    bind_ok (textField_ok (hentry "event_hash") (eventHash_ne h.json hv)),
    bind_ok (hoptional "tenant_id" e.tenantId (hentry _) (by simp)),
    bind_ok (hoptional "subject_id" e.subjectId (hentry _) (by simp)),
    bind_ok (hoptional "auth_context_ref" e.authContextRef (hentry _) (by simp)),
    bind_ok (hoptional "previous_event_hash" e.previousEventHash (hentry _) (by simp)),
    bind_ok (positiveField_ok (hentry "sequence") hseq), bind_ok (payloadField_ok (hentry "payload") hitems),
    bind_ok (classificationField_ok (hentry "classification")), bind_ok (positiveField_ok (hentry "retention_days") hdays)]
  exact (bind_ok (kept_verify h.json hv) _)

end AuditEvent

/-! ## Lines of the file -/

namespace StoredAuditRecord

/-- The record as it is read back. -/
def kept (r : StoredAuditRecord) : StoredAuditRecord := { r with event := r.event.kept }

/-- The line of a record. -/
def lineText (r : StoredAuditRecord) : List Char := (Json.dumps r.toData.wire).toList

/-- A time that is read back from its text. -/
def ReadsTime (reader : LineReader) (t : DateTime) : Prop := t.offset.isSome = true ∧ reader.dateTime t.isoformat = some t

/-- A record the store can read: its event is one, and it expires when the event says. -/
structure Sound (reader : LineReader) (r : StoredAuditRecord) : Prop where
  event    : r.event.Storable reader
  verified : r.event.verify = .ok ()
  numbered : r.event.sequence ≠ 0
  stored   : ReadsTime reader r.storedAt
  expires  : ReadsTime reader r.expiresAt
  retained : r.storedAt.plusDays r.event.retentionDays = some r.expiresAt

variable {reader : LineReader}

omit [Platform] in
theorem parseTime_ok {value : Json} {t : DateTime} (h : value = .str t.isoformat) (ht : ReadsTime reader t) (name : String) :
    parseTime reader value name = .ok t := by
  have hne : t.isoformat ≠ "" := fun hempty => by
    have hlength := congrArg String.length hempty
    simp [DateTime.isoformat] at hlength
  subst h
  unfold parseTime validateTime
  dsimp only
  rw [if_neg hne, ht.2]
  exact if_pos ht.1

omit [Platform] in
theorem toData_wire_sorted (r : StoredAuditRecord) : r.toData.wire.sorted = r.kept.toData.wire.sorted := by
  simp only [toData, kept, AuditEvent.toData_eq, AuditEvent.entries, AuditEvent.kept, wire, wireFields, Json.sorted,
    Json.sortedFields, wire_ofJson, Json.sorted_sorted]

omit [Platform] in
theorem lineText_kept (r : StoredAuditRecord) : r.kept.lineText = r.lineText := by
  unfold lineText Json.dumps
  rw [r.toData_wire_sorted]

omit [Platform] in
theorem toData_isJson {r : StoredAuditRecord} (h : r.event.payload.isJson = true) : r.toData.isJson = true := by
  simp [toData, AuditEvent.toData_eq, AuditEvent.entries, isJson, fieldsJson, optionalStr_isJson, h]

omit [Platform] in
/-- What is written for a record is its line. -/
theorem line_eq {r : StoredAuditRecord} (h : r.event.payload.isJson = true) : r.line = .ok r.lineText := by
  unfold line canonicalJson
  rw [toJson_wire (toData_isJson h)]
  rfl

omit [Platform] in
theorem optionalStr_printed (number : List Char → String) (o : Option String) : Json.Printed number (optionalStr o).wire := by
  cases o <;> trivial

omit [Platform] in
theorem toData_printed {r : StoredAuditRecord} (h : r.event.Storable reader) : Json.Printed reader.number r.toData.wire := by
  have hevent : Json.Printed reader.number r.event.toData.wire := by
    refine ⟨r.event.entries_once, ?_⟩
    show Json.PrintedFields reader.number (wireFields r.event.entries)
    simp only [AuditEvent.entries, wireFields, Json.PrintedFields, wire, Json.Printed, optionalStr_printed, h.printed, and_self]
  have hkeys : KeysOnce (wireFields [("storage_schema_version", .str AUDIT_STORAGE_SCHEMA_VERSION),
      ("stored_at", .str r.storedAt.isoformat), ("expires_at", .str r.expiresAt.isoformat), ("event", r.event.toData)]) := by
    unfold KeysOnce
    rw [wireFields_eq, List.map_map]
    show ["storage_schema_version", "stored_at", "expires_at", "event"].Nodup
    decide
  exact ⟨hkeys, trivial, trivial, trivial, hevent, trivial⟩

omit [Platform] in
theorem expiry_ok {t u : DateTime} {n : Nat} (h : t.plusDays n = some u) : expiry t n = .ok u := by
  unfold expiry
  rw [h]

/-- **A record is read back from its document.** -/
theorem fromData_toData {r : StoredAuditRecord} (h : r.Sound reader) : fromData reader r.toData.wire.sorted = .ok r.kept := by
  let names := ["storage_schema_version", "stored_at", "expires_at", "event"]
  let written := wireFields [("storage_schema_version", .str AUDIT_STORAGE_SCHEMA_VERSION),
    ("stored_at", .str r.storedAt.isoformat), ("expires_at", .str r.expiresAt.isoformat), ("event", r.event.toData)]
  have hkeys : written.map Prod.fst = names := by
    show (wireFields _).map Prod.fst = _
    rw [wireFields_eq, List.map_map]
    rfl
  have honce : KeysOnce written := by
    unfold KeysOnce
    rw [hkeys]
    decide
  obtain ⟨read, hread, hlookup⟩ := @exactEntries_sorted (fun _ _ => .value "invalid stored audit record schema") written "$"
    names honce (fun k => by rw [hkeys])
  have hentry : ∀ k, entry read k = ((written.lookup k).map Json.sorted).getD .null := fun k => by
    rw [entry, hlookup]
  have hevent : entry read "event" = r.event.toData.wire.sorted := hentry _
  have hexpiry : expiry r.storedAt r.event.kept.retentionDays = .ok r.expiresAt := expiry_ok h.retained
  unfold fromData
  show (exactEntries _ (Json.obj written).sorted "$" names >>= _) = _
  rw [bind_ok hread, bind_ok (checkVersion_ok (hentry "storage_schema_version") _), hevent,
    bind_ok (AuditEvent.fromData_toData h.event h.verified h.numbered),
    bind_ok (parseTime_ok (hentry "stored_at") h.stored "stored_at"),
    bind_ok (parseTime_ok (hentry "expires_at") h.expires "expires_at"), bind_ok hexpiry, if_pos rfl]
  rfl

/-- A line is read back as its record. -/
theorem fromLine_lineText {r : StoredAuditRecord} (h : r.Sound reader) (n : Nat) : fromLine reader r.lineText n = .ok r.kept := by
  have hloads : reader.loads (Json.dumps r.toData.wire) = .ok r.toData.wire.sorted := reader.reads _ (toData_printed h.event)
  have hne : r.lineText ≠ [] := by
    unfold lineText Json.dumps
    rw [String.toList_ofList]
    exact List.ne_nil_of_length_pos (Json.render_length _ (Json.sorted_printed _ _ (toData_printed h.event)))
  unfold fromLine
  rw [if_neg hne, lineText, String.ofList_toList, hloads, bind_ok rfl, fromData_toData h]
  rfl

omit [Platform] in
theorem lineText_unbroken {r : StoredAuditRecord} (h : r.event.Storable reader) : Lines.Unbroken r.lineText :=
  Json.dumps_unbroken (toData_printed h)

omit [Platform] in
theorem splitlines_log {log : List StoredAuditRecord} (h : ∀ r ∈ log, r.event.Storable reader) :
    Lines.splitlines (Lines.join (log.map lineText)) = log.map lineText := by
  refine Lines.splitlines_join fun line hline => ?_
  obtain ⟨r, hr, rfl⟩ := List.mem_map.1 hline
  exact lineText_unbroken (h r hr)

/-- **What was written is read back**, line by line. -/
theorem readAll_join {log : List StoredAuditRecord} (h : ∀ r ∈ log, r.Sound reader) :
    readAll reader (Lines.join (log.map lineText)) = .ok (log.map kept) := by
  have hread : ∀ (log : List StoredAuditRecord) (n : Nat), (∀ r ∈ log, r.Sound reader) →
      ((log.map lineText).zipIdx n).mapM (fun line => fromLine reader line.1 line.2) = .ok (log.map kept) := by
    intro log
    induction log with
    | nil            => intro n _; rfl
    | cons r log ih =>
      intro n hall
      have hrest := ih (n + 1) (fun x hx => hall x (List.mem_cons_of_mem _ hx))
      rw [List.map_cons, List.zipIdx_cons, List.mapM_cons, bind_ok (fromLine_lineText (hall r List.mem_cons_self) n),
        bind_ok hrest]
      rfl
  unfold readAll
  rw [splitlines_log fun r hr => (h r hr).event]
  exact hread log 1 h

end StoredAuditRecord

/-! ## The index -/

/-- The events of an execution among the records. -/
def eventsOf (key : ChainKey) (records : List StoredAuditRecord) : List AuditEvent :=
  (records.map (·.event)).filter (·.key = key)

omit [Platform] in
theorem eventsOf_cons (key : ChainKey) (r : StoredAuditRecord) (rs : List StoredAuditRecord) :
    eventsOf key (r :: rs) = if r.event.key = key then r.event :: eventsOf key rs else eventsOf key rs := by
  unfold eventsOf
  rw [List.map_cons, List.filter_cons]
  by_cases h : r.event.key = key <;> simp [h]

omit [Platform] in
theorem eventsOf_append (key : ChainKey) (rs rs' : List StoredAuditRecord) :
    eventsOf key (rs ++ rs') = eventsOf key rs ++ eventsOf key rs' := by
  unfold eventsOf
  rw [List.map_append, List.filter_append]

namespace AuditStore

omit [Platform] in
/-- The index with one more event. -/
def put (store : AuditStore) (e : AuditEvent) : AuditStore := ⟨Function.update store.tails e.key (some e)⟩

omit [Platform] in
theorem place_put (store : AuditStore) (e : AuditEvent) (key : ChainKey) :
    (store.put e).place key = if e.key = key then (e.sequence, some e.eventHash) else store.place key := by
  by_cases h : e.key = key
  · subst h
    simp [put, place]
  · simp [put, place, h, Function.update_of_ne (Ne.symm h)]

theorem append_eq (store : AuditStore) (e : AuditEvent) : store.append e = e.verify >>= fun _ => store.follow e := rfl

omit [Platform] in
/-- An event follows where it carries the chain on. -/
theorem follow_iff {store next : AuditStore} {e : AuditEvent} : store.follow e = .ok next ↔
    (e.sequence = (store.place e.key).1 + 1 ∧ e.previousEventHash = (store.place e.key).2) ∧ next = store.put e := by
  have hnext : ((store.tails e.key).map (·.sequence + 1)).getD 1 = (store.place e.key).1 + 1 := by
    unfold place
    cases store.tails e.key <;> rfl
  unfold follow
  dsimp only
  rw [hnext]
  by_cases hseq : e.sequence = (store.place e.key).1 + 1
  · by_cases hhash : e.previousEventHash = (store.tails e.key).map (·.eventHash)
    · have hplace : e.previousEventHash = (store.place e.key).2 := hhash
      simp only [hseq, hhash, ne_eq, not_true_eq_false, if_false, bind, Except.bind, pure, Except.pure, true_and]
      refine ⟨fun h => ⟨rfl, (Except.ok.inj h).symm⟩, fun h => congrArg Except.ok h.2.symm⟩
    · have hplace : ¬ e.previousEventHash = (store.place e.key).2 := hhash
      simp [hseq, hhash, hplace, bind, Except.bind, throw, throwThe, MonadExceptOf.throw]
  · simp [hseq, bind, Except.bind, throw, throwThe, MonadExceptOf.throw]

end AuditStore

namespace JsonlAuditStore

variable {reader : LineReader}

omit [Platform] in
theorem loadRecord_ok {s : JsonlAuditStore} {r : StoredAuditRecord} {index : AuditStore} (h : s.index.follow r.event = .ok index) :
    loadRecord r s = ⟨[s.withIndex index], s.withIndex index, .ok ()⟩ := by
  simp [loadRecord, Run.andThen, Run.look, Run.ofExcept, Run.done, Run.write, h, withIndex]

omit [Platform] in
theorem loadRecord_error {s : JsonlAuditStore} {r : StoredAuditRecord} {error : Exn} (h : s.index.follow r.event = .error error) :
    loadRecord r s = ⟨[], s, .error error⟩ := by
  simp [loadRecord, Run.andThen, Run.look, Run.ofExcept, Run.fail, h]

omit [Platform] in
/-- What the chains of the executions are, one record further on. -/
theorem chains_cons {index : AuditStore} {r : StoredAuditRecord} {rs : List StoredAuditRecord} :
    (∀ key, Chained (index.place key).1 (index.place key).2 (eventsOf key (r :: rs))) ↔
      (r.event.sequence = (index.place r.event.key).1 + 1 ∧ r.event.previousEventHash = (index.place r.event.key).2) ∧
        ∀ key, Chained ((index.put r.event).place key).1 ((index.put r.event).place key).2 (eventsOf key rs) := by
  refine ⟨fun h => ⟨?_, fun key => ?_⟩, fun h key => ?_⟩
  · have hown := h r.event.key
    rw [eventsOf_cons, if_pos rfl] at hown
    exact ⟨hown.1, hown.2.1⟩
  · have hkey := h key
    rw [eventsOf_cons] at hkey
    rw [AuditStore.place_put]
    by_cases hk : r.event.key = key
    · rw [if_pos hk] at hkey ⊢
      exact hkey.2.2
    · rw [if_neg hk] at hkey ⊢
      exact hkey
  · have hkey := h.2 key
    rw [eventsOf_cons]
    rw [AuditStore.place_put] at hkey
    by_cases hk : r.event.key = key
    · rw [if_pos hk] at hkey ⊢
      subst hk
      exact ⟨h.1.1, h.1.2, hkey⟩
    · rw [if_neg hk] at hkey ⊢
      exact hkey

omit [Platform] in
theorem placeAfter_cons (index : AuditStore) (r : StoredAuditRecord) (rs : List StoredAuditRecord) (key : ChainKey) :
    placeAfter ((index.put r.event).place key) (eventsOf key rs) = placeAfter (index.place key) (eventsOf key (r :: rs)) := by
  rw [eventsOf_cons, AuditStore.place_put]
  by_cases hk : r.event.key = key
  · rw [if_pos hk, if_pos hk]
    rfl
  · rw [if_neg hk, if_neg hk]

omit [Platform] in
/-- **The loop goes through exactly when every chain goes on**, and the index then stands at the end of each. -/
theorem loadRecords_iff : ∀ (records : List StoredAuditRecord) (s : JsonlAuditStore),
    ((Run.forEach loadRecord records s).outcome = .ok () ↔
      ∀ key, Chained (s.index.place key).1 (s.index.place key).2 (eventsOf key records)) ∧
    (Run.forEach loadRecord records s).final.text = s.text ∧
    ((Run.forEach loadRecord records s).outcome = .ok () →
      ∀ key, (Run.forEach loadRecord records s).final.index.place key = placeAfter (s.index.place key) (eventsOf key records))
  | [], s      => ⟨⟨fun _ _ => trivial, fun _ => rfl⟩, rfl, fun _ _ => rfl⟩
  | r :: rs, s => by
    rw [chains_cons]
    cases hfollow : s.index.follow r.event with
    | error error =>
      have hrun : Run.forEach loadRecord (r :: rs) s = ⟨[], s, .error error⟩ := Run.andThen_error (loadRecord_error hfollow)
      rw [hrun]
      refine ⟨⟨fun h => (by cases h), fun h => ?_⟩, rfl, fun h => (by cases h)⟩
      rw [(AuditStore.follow_iff.2 ⟨h.1, rfl⟩ : s.index.follow r.event = .ok _)] at hfollow
      cases hfollow
    | ok index =>
      obtain ⟨hnext, rfl⟩ := AuditStore.follow_iff.1 hfollow
      obtain ⟨hiff, htext, hplace⟩ := loadRecords_iff rs (s.withIndex (s.index.put r.event))
      have hrun := Run.andThen_ok (f := fun _ => Run.forEach loadRecord rs) (loadRecord_ok hfollow)
      have hforEach : Run.forEach loadRecord (r :: rs) s = _ := hrun
      rw [hforEach]
      dsimp only
      refine ⟨⟨fun h => ⟨hnext, hiff.1 h⟩, fun h => hiff.2 h.2⟩, htext, fun h key => ?_⟩
      rw [hplace h key]
      exact placeAfter_cons s.index r rs key

/-- What `_load_and_verify` does with a file whose records can be read. -/
theorem loadAndVerify_eq {s : JsonlAuditStore} {records : List StoredAuditRecord}
    (h : StoredAuditRecord.readAll reader s.text = .ok records) :
    (loadAndVerify reader s).outcome = (Run.forEach loadRecord records (s.withIndex .empty)).outcome ∧
      (loadAndVerify reader s).final = (Run.forEach loadRecord records (s.withIndex .empty)).final := by
  rcases hrun : Run.forEach loadRecord records (s.withIndex .empty) with ⟨w, x, o⟩
  have hread : StoredAuditRecord.readAll reader (s.withIndex .empty).text = .ok records := h
  have hload : loadAndVerify reader s = ⟨s.withIndex .empty :: w, x, o⟩ := by
    simp [loadAndVerify, Run.andThen, Run.write, Run.look, Run.ofExcept, Run.done, hread, hrun]
  rw [hload]
  exact ⟨rfl, rfl⟩

/-- **A file that opens holds whole chains**, and the index stands at the end of each. -/
theorem make_ok {text : List Char} {store : JsonlAuditStore} (h : make reader text = .ok store) :
    ∃ records, StoredAuditRecord.readAll reader text = .ok records ∧ store.text = text ∧
      (∀ key, Chained 0 none (eventsOf key records)) ∧
      ∀ key, store.index.place key = placeAfter (0, none) (eventsOf key records) := by
  unfold make at h
  dsimp only at h
  obtain ⟨u, hu, rfl⟩ := map_ok_iff.1 h
  cases hread : StoredAuditRecord.readAll reader text with
  | error error =>
    have hload : (loadAndVerify reader ⟨text, .empty⟩).outcome = .error error := by
      simp [loadAndVerify, Run.andThen, Run.write, Run.look, Run.ofExcept, Run.fail, withIndex, hread]
    rw [hload] at hu
    cases hu
  | ok records =>
    obtain ⟨houtcome, hfinal⟩ := @loadAndVerify_eq _ reader ⟨text, .empty⟩ records hread
    rw [houtcome] at hu
    obtain ⟨hiff, htext, hplace⟩ := loadRecords_iff records (withIndex .empty ⟨text, .empty⟩)
    rw [hfinal]
    exact ⟨records, rfl, htext, hiff.1 hu, hplace hu⟩

end JsonlAuditStore

/-! ## Whatever the file -/

/-- What was read as an event: it verifies, and its payload is a document that prints. -/
structure AuditEvent.IsRead (reader : LineReader) (e : AuditEvent) : Prop where
  verified : e.verify = .ok ()
  json     : e.payload.isJson = true
  printed  : Json.Printed reader.number e.payload.wire

section Reading

variable {reader : LineReader}

omit [Platform] in
theorem entry_printed {number : List Char → String} {entries : List (String × Json)} (h : Json.PrintedFields number entries)
    (name : String) : Json.Printed number (entry entries name) := by
  unfold entry
  cases hk : entries.lookup name with
  | none   => trivial
  | some x => exact (Json.printedFields_iff number entries).1 h _ (mem_of_lookup hk)

theorem AuditEvent.fromData_ok {data : Json} {e : AuditEvent} (h : AuditEvent.fromData data = .ok e)
    (hprinted : Json.Printed reader.number data) : e.IsRead reader := by
  unfold AuditEvent.fromData at h
  obtain ⟨entries, hentries, hrest⟩ := bind_eq_ok h
  obtain ⟨rfl, -⟩ := exactEntries_ok hentries
  obtain ⟨_, -, h⟩ := bind_eq_ok hrest
  obtain ⟨executionId, -, h⟩ := bind_eq_ok h
  obtain ⟨eventType, -, h⟩ := bind_eq_ok h
  obtain ⟨skillId, -, h⟩ := bind_eq_ok h
  obtain ⟨skillVersion, -, h⟩ := bind_eq_ok h
  obtain ⟨semanticHash, -, h⟩ := bind_eq_ok h
  obtain ⟨runtimeVersion, -, h⟩ := bind_eq_ok h
  obtain ⟨eventHash, -, h⟩ := bind_eq_ok h
  obtain ⟨tenantId, -, h⟩ := bind_eq_ok h
  obtain ⟨subjectId, -, h⟩ := bind_eq_ok h
  obtain ⟨authContextRef, -, h⟩ := bind_eq_ok h
  obtain ⟨previousEventHash, -, h⟩ := bind_eq_ok h
  obtain ⟨sequence, -, h⟩ := bind_eq_ok h
  obtain ⟨payload, hpayload, h⟩ := bind_eq_ok h
  obtain ⟨classification, -, h⟩ := bind_eq_ok h
  obtain ⟨retentionDays, -, h⟩ := bind_eq_ok h
  obtain ⟨⟨⟩, hverify, h⟩ := bind_eq_ok h
  cases h
  have hof : payload = ofJson (entry entries "payload") := by
    unfold payloadField at hpayload
    split at hpayload
    · rename_i hobject
      rw [hobject]
      exact (Except.ok.inj hpayload).symm
    · cases hpayload
  refine ⟨hverify, ?_, ?_⟩
  · rw [hof]
    exact ofJson_isJson _
  · rw [hof, wire_ofJson]
    exact entry_printed hprinted.2 _

theorem StoredAuditRecord.fromData_ok {data : Json} {r : StoredAuditRecord} (h : StoredAuditRecord.fromData reader data = .ok r)
    (hprinted : Json.Printed reader.number data) : r.event.IsRead reader := by
  unfold StoredAuditRecord.fromData at h
  obtain ⟨entries, hentries, hrest⟩ := bind_eq_ok h
  obtain ⟨rfl, -⟩ := exactEntries_ok hentries
  obtain ⟨_, -, h⟩ := bind_eq_ok hrest
  obtain ⟨event, hevent, h⟩ := bind_eq_ok h
  obtain ⟨storedAt, -, h⟩ := bind_eq_ok h
  obtain ⟨expiresAt, -, h⟩ := bind_eq_ok h
  obtain ⟨expected, -, h⟩ := bind_eq_ok h
  split at h
  · cases h
    exact AuditEvent.fromData_ok hevent (entry_printed hprinted.2 _)
  · cases h

/-- What the lines of a file say has no `NaN` and no `Infinity`: it can be printed as it stands. -/
def Finite (reader : LineReader) (text : List Char) : Prop :=
  ∀ line ∈ Lines.splitlines text, ∀ data, reader.loads (String.ofList line) = .ok data → Json.Printed reader.number data

theorem finite_join {log : List StoredAuditRecord} (h : ∀ r ∈ log, r.Sound reader) :
    Finite reader (Lines.join (log.map (·.lineText))) := by
  intro line hline data hdata
  rw [StoredAuditRecord.splitlines_log fun r hr => (h r hr).event] at hline
  obtain ⟨r, hr, rfl⟩ := List.mem_map.1 hline
  have hprinted := StoredAuditRecord.toData_printed (h r hr).event
  rw [StoredAuditRecord.lineText, String.ofList_toList, reader.reads _ hprinted] at hdata
  cases hdata
  exact Json.sorted_printed _ _ hprinted

theorem StoredAuditRecord.fromLine_ok {line : List Char} {n : Nat} {r : StoredAuditRecord}
    (hfinite : ∀ data, reader.loads (String.ofList line) = .ok data → Json.Printed reader.number data)
    (h : StoredAuditRecord.fromLine reader line n = .ok r) : r.event.IsRead reader := by
  unfold StoredAuditRecord.fromLine at h
  split at h
  · cases h
  · cases hread : reader.loads (String.ofList line) >>= StoredAuditRecord.fromData reader with
    | error error =>
      rw [hread] at h
      cases h
    | ok record =>
      rw [hread] at h
      cases h
      obtain ⟨data, hdata, hrecord⟩ := bind_eq_ok hread
      exact StoredAuditRecord.fromData_ok hrecord (hfinite data hdata)

/-- **Every record of a file is of an event that verifies**, whoever wrote the file. -/
theorem StoredAuditRecord.readAll_ok {text : List Char} (hfinite : Finite reader text) {records : List StoredAuditRecord}
    (h : StoredAuditRecord.readAll reader text = .ok records) : ∀ r ∈ records, r.event.IsRead reader := by
  have hall : ∀ (lines : List (List Char)) (n : Nat) (records : List StoredAuditRecord),
      (∀ line ∈ lines, line ∈ Lines.splitlines text) →
      (lines.zipIdx n).mapM (fun line => StoredAuditRecord.fromLine reader line.1 line.2) = .ok records →
      ∀ r ∈ records, r.event.IsRead reader := by
    intro lines
    induction lines with
    | nil             =>
      intro n records hlines h r hr
      cases h
      cases hr
    | cons line ls ih =>
      intro n records hlines h r hr
      rw [List.zipIdx_cons, List.mapM_cons] at h
      obtain ⟨first, hfirst, h⟩ := bind_eq_ok h
      obtain ⟨rest, hrest, h⟩ := bind_eq_ok h
      cases h
      rcases List.mem_cons.1 hr with rfl | hr
      · exact StoredAuditRecord.fromLine_ok (hfinite line (hlines line List.mem_cons_self)) hfirst
      · exact ih (n + 1) rest (fun l hl => hlines l (List.mem_cons_of_mem _ hl)) hrest r hr
  exact hall _ 1 records (fun _ h => h) h

/-! ## One hash for a chain -/

omit [Platform] in
theorem optionalStr_inj {o o' : Option String} (h : (optionalStr o).wire.sorted = (optionalStr o').wire.sorted) : o = o' := by
  cases o with
  | none   =>
    cases o' with
    | none   => rfl
    | some _ => cases h
  | some _ =>
    cases o' with
    | none   => cases h
    | some _ =>
      cases h
      rfl

omit [Platform] in
theorem str_inj {s s' : String} (h : some (Json.str s) = some (Json.str s')) : s = s' := Json.str.inj (Option.some.inj h)

omit [Platform] in
theorem nat_inj {n n' : Nat} (h : some (Json.int n) = some (Json.int n')) : n = n' :=
  Int.ofNat.inj (Json.int.inj (Option.some.inj h))

namespace AuditEvent

/-- What the hash of an event is taken of. -/
def hashed (e : AuditEvent) : List (String × Value) := e.entries.dropLast

omit [Platform] in
theorem hashed_once (e : AuditEvent) : KeysOnce (wireFields e.hashed) := by
  unfold KeysOnce
  rw [wireFields_eq, List.map_map]
  show FIELDS.dropLast.Nodup
  decide

omit [Platform] in
/-- **Events of one hash text are the same** but for the order of the keys of the payload. -/
theorem kept_of_same {a b : AuditEvent} (h : a.hashData.wire.Same b.hashData.wire) (hhash : a.eventHash = b.eventHash) :
    a.kept = b.kept := by
  have hlookup := fun k => @Json.Same.lookup (wireFields a.hashed) (wireFields b.hashed) h a.hashed_once b.hashed_once k
  have hclassification : a.classification = b.classification := StrEnum.distinct _ _ (str_inj (hlookup "classification"))
  have hpayload : a.payload.wire.sorted = b.payload.wire.sorted := Option.some.inj (hlookup "payload")
  have hprevious := optionalStr_inj (Option.some.inj (hlookup "previous_event_hash"))
  unfold kept
  rw [AuditEvent.mk.injEq]
  exact ⟨str_inj (hlookup "execution_id"), nat_inj (hlookup "sequence"), str_inj (hlookup "event_type"),
    str_inj (hlookup "skill_id"), str_inj (hlookup "skill_version"), str_inj (hlookup "semantic_hash"),
    str_inj (hlookup "runtime_version"), optionalStr_inj (Option.some.inj (hlookup "tenant_id")),
    optionalStr_inj (Option.some.inj (hlookup "subject_id")), optionalStr_inj (Option.some.inj (hlookup "auth_context_ref")),
    nat_inj (hlookup "retention_days"), hclassification, congrArg ofJson hpayload, hprevious, hhash⟩

theorem hashData_printed {e : AuditEvent} (h : e.IsRead reader) : Json.Printed reader.number e.hashData.wire := by
  refine ⟨e.hashed_once, ?_⟩
  show Json.PrintedFields reader.number (wireFields e.hashed)
  simp only [hashed, entries, List.dropLast_cons_cons, List.dropLast_singleton, wireFields, Json.PrintedFields, wire,
    Json.Printed, StoredAuditRecord.optionalStr_printed, h.printed, and_self]

/-- **A hash stands for an event**, unless two texts collide. -/
theorem kept_of_eventHash {a b : AuditEvent} (ha : a.IsRead reader) (hb : b.IsRead reader) (h : a.eventHash = b.eventHash) :
    a.kept = b.kept ∨ Collide a.hashText b.hashText := by
  have hhash : sha256Of a.hashText = sha256Of b.hashText := by
    rw [← ((verify_iff ha.json).1 ha.verified).2, ← ((verify_iff hb.json).1 hb.verified).2, h]
  refine (sha256Of_collide hhash).imp_left fun htext => ?_
  exact kept_of_same (Json.dumps_inj reader.number (hashData_printed ha) (hashData_printed hb) htext) h

end AuditEvent

omit [Platform] in
theorem linked_of_chained : ∀ {events : List AuditEvent} {n : Nat} {previous : Option String}, Chained n previous events →
    HashChain.Linked (·.previousEventHash) (·.eventHash) previous events
  | [], _, _, _     => trivial
  | _ :: _, _, _, h => ⟨h.2.1, linked_of_chained h.2.2⟩

omit [Platform] in
theorem placeAfter_lastName : ∀ (events : List AuditEvent) (place : Nat × Option String),
    (placeAfter place events).2 = HashChain.lastName (·.eventHash) place.2 events
  | [], _          => rfl
  | e :: es, _     => placeAfter_lastName es (e.sequence, some e.eventHash)

/-- **An audit file cannot be changed under its last hash.** Take two files of finite numbers that both open, whoever
wrote them, and an execution whose last events have the same hash in both. Then both hold the same events of the
execution in the same order, or two of these events show a collision of SHA-256. -/
theorem auditFiles_alike {text text' : List Char} (hfinite : Finite reader text) (hfinite' : Finite reader text')
    {store store' : JsonlAuditStore} (h : JsonlAuditStore.make reader text = .ok store)
    (h' : JsonlAuditStore.make reader text' = .ok store') {key : ChainKey}
    (hlast : (store.index.tails key).map (·.eventHash) = (store'.index.tails key).map (·.eventHash)) :
    ∃ records records', StoredAuditRecord.readAll reader text = .ok records ∧
      StoredAuditRecord.readAll reader text' = .ok records' ∧
      Chained 0 none (eventsOf key records) ∧ Chained 0 none (eventsOf key records') ∧
      ((eventsOf key records).map (·.kept) = (eventsOf key records').map (·.kept) ∨
        ∃ e ∈ eventsOf key records, ∃ e' ∈ eventsOf key records', Collide e.hashText e'.hashText) := by
  obtain ⟨records, hread, -, hchained, hplace⟩ := JsonlAuditStore.make_ok h
  obtain ⟨records', hread', -, hchained', hplace'⟩ := JsonlAuditStore.make_ok h'
  have hevent : ∀ {rs : List StoredAuditRecord}, (∀ r ∈ rs, r.event.IsRead reader) → ∀ e ∈ eventsOf key rs, e.IsRead reader := by
    intro rs hrs e he
    obtain ⟨r, hr, rfl⟩ := List.mem_map.1 (List.mem_of_mem_filter he)
    exact hrs r hr
  have hrecords := hevent (StoredAuditRecord.readAll_ok hfinite hread)
  have hrecords' := hevent (StoredAuditRecord.readAll_ok hfinite' hread')
  have hends : HashChain.lastName (·.eventHash) none (eventsOf key records) =
      HashChain.lastName (·.eventHash) none (eventsOf key records') := by
    have hplaces : (store.index.place key).2 = (store'.index.place key).2 := hlast
    rwa [hplace, hplace', placeAfter_lastName, placeAfter_lastName] at hplaces
  refine ⟨records, records', hread, hread', hchained key, hchained' key, ?_⟩
  refine HashChain.contents_of_lastName (fun a ha b hb hab => ?_) (linked_of_chained (hchained key))
    (linked_of_chained (hchained' key)) hends
  refine (AuditEvent.kept_of_eventHash (hrecords a ha) (hrecords' b hb) hab).imp_left fun hkept => ⟨?_, hkept⟩
  have hprevious : a.kept.previousEventHash = b.kept.previousEventHash := congrArg (·.previousEventHash) hkept
  exact hprevious

end Reading

/-! ## The log -/

/-- What a store stands for: the records it took and still has, in order. -/
abbrev AuditLog := List StoredAuditRecord

/-- A call of the store, with the readings of the clock it takes; `reopen` is a restart over the same file. -/
inductive AuditOp
  | append (e : AuditEvent) (now : DateTime)
  | read (tenantId executionId : String)
  | delete (tenantId executionId : String)
  | purge (time : Option DateTime) (clock : DateTime)
  | reopen

inductive AuditReply
  | done
  | events (events : List AuditEvent)
  | deleted (count : Nat)

namespace AuditLog

def place (log : AuditLog) (key : ChainKey) : Nat × Option String := placeAfter (0, none) (eventsOf key log)

/-- The record of an event that carries the chain of its execution on. -/
def record (log : AuditLog) (e : AuditEvent) (now : DateTime) : Option StoredAuditRecord :=
  if e.verify.isOk = true ∧ (e.sequence = (log.place e.key).1 + 1 ∧ e.previousEventHash = (log.place e.key).2) ∧
    now.offset.isSome = true
  then (now.plusDays e.retentionDays).map fun expires => ⟨e.kept, now, expires⟩
  else none

/-- The log without some executions, and how many records that are. -/
def without (log : AuditLog) (gone : ChainKey → Bool) : AuditReply × AuditLog :=
  let rest := log.filter fun r => !gone r.event.key
  (.deleted (log.length - rest.length), rest)

/-- An execution has expired when its last record has. -/
def expired (log : AuditLog) (now : DateTime) (key : ChainKey) : Bool :=
  decide (∀ r ∈ log, r.event.key = key → r.expiresAt.instant ≤ now.instant)

/-- What a call gives and leaves; none where it raises. -/
def answer (log : AuditLog) : AuditOp → Option (AuditReply × AuditLog)
  | .append e now     => (log.record e now).map fun r => (.done, log ++ [r])
  | .read t x         => if t = "" ∨ x = "" then none else some (.events (eventsOf (some t, x) log), log)
  | .delete t x       => if t = "" ∨ x = "" then none else some (log.without fun key => key = (some t, x))
  | .purge time clock =>
    if (time.getD clock).offset.isSome = true then some (log.without (log.expired (time.getD clock))) else none
  | .reopen           => some (.done, log)

/-- The log after a call; one that raises leaves it as it is. -/
def after (log : AuditLog) (op : AuditOp) : AuditLog := ((log.answer op).map Prod.snd).getD log

/-- The replies of calls one after the other, and the log they leave. -/
def run : AuditLog → List AuditOp → List (Option AuditReply) × AuditLog
  | log, []        => ([], log)
  | log, op :: ops =>
    let rest := run (log.after op) ops
    ((log.answer op).map Prod.fst :: rest.1, rest.2)

end AuditLog

namespace JsonlAuditStore

variable (reader : LineReader)

/-- A call of the store itself. -/
def call : AuditOp → Run JsonlAuditStore Exn AuditReply
  | .append e now     => (append e now).andThen fun _ => .done .done
  | .read t x         => (readExecution reader t x).andThen fun events => .done (.events events)
  | .delete t x       => (deleteExecution reader t x).andThen fun count => .done (.deleted count)
  | .purge time clock => (purgeExpired reader time clock).andThen fun count => .done (.deleted count)
  | .reopen           => (loadAndVerify reader).andThen fun _ => .done .done

def run : JsonlAuditStore → List AuditOp → List (Option AuditReply) × JsonlAuditStore
  | s, []        => ([], s)
  | s, op :: ops =>
    let ended := call reader op s
    let rest := run ended.final ops
    (ended.outcome.toOption :: rest.1, rest.2)

/-- The store over no file. -/
def fresh : JsonlAuditStore := ⟨[], .empty⟩

end JsonlAuditStore

/-! ## The file keeps the log -/

/-- What an append asks of its event and of the texts of its times. -/
def AuditOp.Storable (reader : LineReader) : AuditOp → Prop
  | .append e now => e.Storable reader ∧ reader.dateTime now.isoformat = some now ∧
      ∀ t, now.plusDays e.retentionDays = some t → reader.dateTime t.isoformat = some t
  | _ => True

/-- **The store holds the log**: line by line in its file, and the end of every chain in its index. -/
structure JsonlAuditStore.Holds (reader : LineReader) (s : JsonlAuditStore) (log : AuditLog) : Prop where
  text    : s.text = Lines.join (log.map (·.lineText))
  place   : ∀ key, s.index.place key = log.place key
  sound   : ∀ r ∈ log, r.Sound reader ∧ r.kept = r
  chained : ∀ key, Chained 0 none (eventsOf key log)

namespace JsonlAuditStore

variable {reader : LineReader} {s : JsonlAuditStore} {log : AuditLog}

theorem holds_fresh : Holds reader fresh [] :=
  ⟨rfl, fun _ => rfl, fun _ h => (List.not_mem_nil h).elim, fun _ => trivial⟩

/-- The records of the file are the log. -/
theorem readAll_log (hsound : ∀ r ∈ log, r.Sound reader ∧ r.kept = r) :
    StoredAuditRecord.readAll reader (Lines.join (log.map (·.lineText))) = .ok log := by
  have hkept : log.map (·.kept) = log.map id := List.map_congr_left fun r hr => (hsound r hr).2
  rw [StoredAuditRecord.readAll_join (fun r hr => (hsound r hr).1), hkept, List.map_id]

theorem Holds.read (h : Holds reader s log) : readRecords reader s = ⟨[], s, .ok log⟩ := by
  have hread := readAll_log h.sound
  rw [← h.text] at hread
  simp [readRecords, Run.andThen, Run.look, Run.ofExcept, Run.done, hread]

/-- **A store over the file of a log starts with the log.** -/
theorem holds_loaded (htext : s.text = Lines.join (log.map (·.lineText))) (hsound : ∀ r ∈ log, r.Sound reader ∧ r.kept = r)
    (hchained : ∀ key, Chained 0 none (eventsOf key log)) :
    (loadAndVerify reader s).outcome = .ok () ∧ Holds reader (loadAndVerify reader s).final log := by
  have hread : StoredAuditRecord.readAll reader s.text = .ok log := by rw [htext, readAll_log hsound]
  obtain ⟨houtcome, hfinal⟩ := loadAndVerify_eq hread
  obtain ⟨hiff, hsame, hplace⟩ := loadRecords_iff log (s.withIndex .empty)
  have hok := hiff.2 hchained
  rw [houtcome, hfinal]
  exact ⟨hok, hsame.trans htext, hplace hok, hsound, hchained⟩

/-! ### Records left out -/

omit [Platform] in
theorem eventsOf_without (gone : ChainKey → Bool) (key : ChainKey) (log : AuditLog) :
    eventsOf key (log.filter fun r => !gone r.event.key) = if gone key = true then [] else eventsOf key log := by
  induction log with
  | nil          => simp [eventsOf]
  | cons r rs ih =>
    rw [List.filter_cons, eventsOf_cons]
    by_cases hk : r.event.key = key
    · subst hk
      by_cases hg : gone r.event.key = true
      · simp [hg, ih]
      · simp [hg, eventsOf_cons, ih]
    · by_cases hg : gone r.event.key = true
      · simp [hg, hk, ih]
      · simp [hg, hk, eventsOf_cons, ih]

omit [Platform] in
theorem mapM_line {records : List StoredAuditRecord} (h : ∀ r ∈ records, r.event.payload.isJson = true) :
    records.mapM StoredAuditRecord.line = .ok (records.map (·.lineText)) := by
  induction records with
  | nil          => rfl
  | cons r rs ih =>
    have hrest := ih fun x hx => h x (List.mem_cons_of_mem _ hx)
    rw [List.mapM_cons, bind_ok (StoredAuditRecord.line_eq (h r List.mem_cons_self)), bind_ok hrest]
    rfl

theorem retain_eq (keeps : StoredAuditRecord → Bool) (records : List StoredAuditRecord) :
    retain reader keeps records = if records.length - (records.filter keeps).length = 0 then Run.done 0
      else (writeRecords (records.filter keeps)).andThen fun _ => (loadAndVerify reader).andThen fun _ =>
        Run.done (records.length - (records.filter keeps).length) := rfl

/-- **Leaving executions out of the file** leaves them out of the log, and every other chain whole. -/
theorem Holds.retain (h : Holds reader s log) (gone : ChainKey → Bool) :
    (retain reader (fun r => !gone r.event.key) log s).outcome = .ok (log.length - (log.without gone).2.length) ∧
      Holds reader (retain reader (fun r => !gone r.event.key) log s).final (log.without gone).2 := by
  obtain ⟨rest, hrest⟩ : ∃ rest, log.filter (fun r => !gone r.event.key) = rest := ⟨_, rfl⟩
  have hwithout : (log.without gone).2 = rest := hrest
  rw [hwithout, retain_eq, hrest]
  by_cases hnone : log.length - rest.length = 0
  · have hsame : rest = log := by
      subst hrest
      exact List.filter_sublist.eq_of_length_le (by omega)
    rw [if_pos hnone, hnone, hsame]
    exact ⟨rfl, h⟩
  · have hmem : ∀ r ∈ rest, r ∈ log := fun r hr => List.mem_of_mem_filter (hrest ▸ hr)
    have hsound : ∀ r ∈ rest, r.Sound reader ∧ r.kept = r := fun r hr => h.sound r (hmem r hr)
    have hchained : ∀ key, Chained 0 none (eventsOf key rest) := fun key => by
      rw [← hrest, eventsOf_without]
      split
      · trivial
      · exact h.chained key
    have hlines := mapM_line fun r hr => (hsound r hr).1.event.json
    obtain ⟨written, hwritten⟩ : ∃ x, s.withText (Lines.join (rest.map (·.lineText))) = x := ⟨_, rfl⟩
    have hwrite : writeRecords rest s = ⟨[written], written, .ok ()⟩ := by
      simp [writeRecords, Run.andThen, Run.ofExcept, Run.done, Run.write, hlines, hwritten]
    obtain ⟨hok, hholds⟩ := @holds_loaded _ reader written rest (hwritten ▸ rfl) hsound hchained
    rcases hload : loadAndVerify reader written with ⟨w, x, o⟩
    rw [hload] at hok hholds
    have hcases : o = .ok () := hok
    subst hcases
    rw [if_neg hnone, Run.andThen_ok hwrite]
    dsimp only
    rw [Run.andThen_ok hload]
    exact ⟨rfl, hholds⟩

/-! ### One call -/

omit [Platform] in
theorem plusDays_offset {t u : DateTime} {n : Nat} (h : t.plusDays n = some u) : u.offset = t.offset := by
  obtain ⟨d, -, rfl⟩ := Option.map_eq_some_iff.1 h
  rfl

omit [Platform] in
theorem storable_kept {e : AuditEvent} (h : e.Storable reader) : e.kept.Storable reader where
  texts     := h.texts
  optionals := h.optionals
  object    := by
    obtain ⟨items, hitems⟩ := h.object
    exact ⟨readFields items, by rw [AuditEvent.kept, hitems]; rfl⟩
  json      := ofJson_isJson _
  printed   := by
    show Json.Printed reader.number (ofJson e.payload.wire.sorted).wire
    rw [wire_ofJson]
    exact Json.sorted_printed reader.number _ h.printed

theorem append_refused {e : AuditEvent} {now : DateTime} {error : Exn}
    (h : (s.index.append e >>= fun index => (recordOf e now >>= StoredAuditRecord.line).map fun line => (index, line)) =
      .error error) : append e now s = ⟨[], s, .error error⟩ := by
  cases hindex : s.index.append e with
  | error x =>
    rw [hindex] at h
    cases h
    simp [append, Run.andThen, Run.look, Run.ofExcept, Run.fail, hindex]
  | ok index =>
    rw [hindex, bind_ok rfl] at h
    cases hline : recordOf e now >>= StoredAuditRecord.line with
    | error x =>
      rw [hline] at h
      cases h
      simp [append, Run.andThen, Run.look, Run.ofExcept, Run.done, Run.fail, hindex, hline]
    | ok line =>
      rw [hline] at h
      cases h

theorem append_taken {e : AuditEvent} {now : DateTime} {index : AuditStore} {line : List Char}
    (hindex : s.index.append e = .ok index) (hline : (recordOf e now >>= StoredAuditRecord.line) = .ok line) :
    (append e now s).outcome = .ok () ∧ (append e now s).final = ⟨s.text ++ (line ++ ['\n']), index⟩ := by
  have hrun : append e now s = ⟨[s.withText (s.text ++ (line ++ ['\n'])), ⟨s.text ++ (line ++ ['\n']), index⟩],
      ⟨s.text ++ (line ++ ['\n']), index⟩, .ok ()⟩ := by
    simp [append, Run.andThen, Run.look, Run.ofExcept, Run.done, Run.write, hindex, hline, withText, withIndex]
  rw [hrun]
  exact ⟨rfl, rfl⟩

/-- The record of an event the log takes is sound, and read back as it is. -/
theorem record_sound {e : AuditEvent} {now expires : DateTime} (he : e.Storable reader) (hv : e.verify = .ok ())
    (hseq : e.sequence ≠ 0) (hnow : StoredAuditRecord.ReadsTime reader now) (hexpires : StoredAuditRecord.ReadsTime reader expires)
    (hretained : now.plusDays e.retentionDays = some expires) :
    StoredAuditRecord.Sound reader ⟨e.kept, now, expires⟩ ∧
      StoredAuditRecord.kept ⟨e.kept, now, expires⟩ = ⟨e.kept, now, expires⟩ :=
  ⟨⟨storable_kept he, AuditEvent.kept_verify he.json hv, hseq, hnow, hexpires, hretained⟩, by
    rw [StoredAuditRecord.kept, AuditEvent.kept_kept]⟩

/-- A further record at the end of its chain. -/
theorem Holds.snoc (h : Holds reader s log) {e : AuditEvent} {r : StoredAuditRecord} (hr : r.event = e.kept)
    (hsound : r.Sound reader ∧ r.kept = r)
    (hnext : e.sequence = (log.place e.key).1 + 1 ∧ e.previousEventHash = (log.place e.key).2) {text : List Char}
    (htext : text = s.text ++ (r.lineText ++ ['\n'])) : Holds reader ⟨text, s.index.put e⟩ (log ++ [r]) where
  text    := by
    rw [htext, h.text, List.map_append, Lines.join_append]
    simp [Lines.join]
  place   := fun key => by
    have hkey : r.event.key = e.key := by
      rw [hr]
      rfl
    unfold AuditLog.place
    rw [AuditStore.place_put, eventsOf_append, eventsOf_cons, hkey]
    by_cases hk : e.key = key
    · rw [if_pos hk, if_pos hk, hr]
      unfold placeAfter
      rw [List.foldl_append]
      rfl
    · rw [if_neg hk, if_neg hk, h.place]
      simp [eventsOf, AuditLog.place]
  sound   := fun x hx => by
    rcases List.mem_append.1 hx with hx | hx
    · exact h.sound x hx
    · rw [List.mem_singleton.1 hx]
      exact hsound
  chained := fun key => by
    have hkey : r.event.key = e.key := by
      rw [hr]
      rfl
    rw [eventsOf_append, eventsOf_cons, hkey]
    refine (@chained_append _ _ (0, none)).2 ⟨h.chained key, ?_⟩
    by_cases hk : e.key = key
    · subst hk
      rw [if_pos rfl, hr]
      exact ⟨hnext.1, hnext.2, trivial⟩
    · rw [if_neg hk]
      trivial

/-- **An append takes an event exactly where the log does.** -/
theorem Holds.append (h : Holds reader s log) {e : AuditEvent} {now : DateTime} (hop : (AuditOp.append e now).Storable reader) :
    (append e now s).outcome.toOption = (log.record e now).map (fun _ => ()) ∧
      Holds reader (append e now s).final (((log.record e now).map fun r => log ++ [r]).getD log) := by
  obtain ⟨he, hnow, hexpires⟩ := hop
  -- where the log takes nothing, no write is made
  have hrefused : ∀ {error : Exn},
      (s.index.append e >>= fun index => (recordOf e now >>= StoredAuditRecord.line).map fun line => (index, line)) =
        .error error → log.record e now = none →
      (JsonlAuditStore.append e now s).outcome.toOption = (log.record e now).map (fun _ => ()) ∧
        Holds reader (JsonlAuditStore.append e now s).final (((log.record e now).map fun r => log ++ [r]).getD log) := by
    intro error herror hnone
    rw [append_refused herror, hnone]
    exact ⟨rfl, h⟩
  cases hv : e.verify with
  | error x =>
    refine @hrefused x ?_ ?_
    · rw [AuditStore.append_eq, hv]
      rfl
    · unfold AuditLog.record
      rw [hv]
      exact if_neg fun hall => absurd hall.1 Bool.false_ne_true
  | ok u =>
    have hverified : e.verify = .ok () := hv
    have hindex : s.index.append e = s.index.follow e := by rw [AuditStore.append_eq, hv]; rfl
    cases hfollow : s.index.follow e with
    | error x =>
      refine @hrefused x (by rw [hindex, hfollow]; rfl) ?_
      unfold AuditLog.record
      refine if_neg fun hall => ?_
      have hplace := hall.2.1
      rw [← h.place] at hplace
      rw [AuditStore.follow_iff.2 ⟨hplace, rfl⟩] at hfollow
      cases hfollow
    | ok index =>
      obtain ⟨hnext, rfl⟩ := AuditStore.follow_iff.1 hfollow
      rw [h.place] at hnext
      by_cases haware : now.offset.isSome = true
      · cases hdays : now.plusDays e.retentionDays with
        | none =>
          refine @hrefused (.arithmetic "date value out of range") ?_ ?_
          · rw [hindex, hfollow, bind_ok rfl]
            simp [recordOf, validateTime, haware, expiry, hdays, bind, Except.bind, Except.map]
          · unfold AuditLog.record
            rw [hdays]
            split <;> rfl
        | some expires =>
          have hoffset : expires.offset.isSome = true := by rw [plusDays_offset hdays, haware]
          have hline : (recordOf e now >>= StoredAuditRecord.line) = .ok (StoredAuditRecord.lineText ⟨e, now, expires⟩) := by
            have hrecord : recordOf e now = .ok ⟨e, now, expires⟩ := by
              simp [recordOf, validateTime, haware, expiry, hdays, bind, Except.bind, pure, Except.pure]
            rw [hrecord]
            exact StoredAuditRecord.line_eq he.json
          have htaken : log.record e now = some ⟨e.kept, now, expires⟩ := by
            unfold AuditLog.record
            rw [if_pos ⟨by rw [hv]; rfl, hnext, haware⟩, hdays]
            rfl
          obtain ⟨hok, hfinal⟩ := append_taken (hindex.trans hfollow) hline
          have hsound := record_sound he hverified (by omega) ⟨haware, hnow⟩ ⟨hoffset, hexpires expires hdays⟩ hdays
          rw [hok, hfinal, htaken]
          refine ⟨rfl, h.snoc rfl hsound hnext ?_⟩
          rw [← StoredAuditRecord.lineText_kept ⟨e, now, expires⟩]
          rfl
      · refine @hrefused (.value "audit storage clock must be timezone-aware") ?_ ?_
        · rw [hindex, hfollow, bind_ok rfl]
          simp [recordOf, validateTime, haware, bind, Except.bind, Except.map]
        · exact if_neg fun hall => haware hall.2.2

omit [Platform] in
theorem andThen_done {σ ε α β : Type} {m : Run σ ε α} {f : α → β} (s : σ) :
    (m.andThen fun a => Run.done (f a)) s = ⟨(m s).written, (m s).final, (m s).outcome.map f⟩ := by
  rcases hm : m s with ⟨w, x, o⟩
  cases o with
  | error e => exact Run.andThen_error hm
  | ok a    =>
    rw [Run.andThen_ok hm]
    simp [Run.done, Except.map]

omit [Platform] in
theorem checkNames_cases (t x : String) : (t = "" ∨ x = "") ∧ (∃ error, checkNames t x = .error error) ∨
    ¬ (t = "" ∨ x = "") ∧ checkNames t x = .ok () := by
  unfold checkNames
  by_cases ht : t = ""
  · exact .inl ⟨.inl ht, _, if_pos ht⟩
  · by_cases hx : x = ""
    · exact .inl ⟨.inr hx, _, by rw [if_neg ht, if_pos hx]⟩
    · exact .inr ⟨not_or.2 ⟨ht, hx⟩, by rw [if_neg ht, if_neg hx]⟩

omit [Platform] in
/-- A pure check before a run. -/
theorem checked_ok {α β : Type} {check : Except Exn α} {a : α} (h : check = .ok a) (m : α → Run JsonlAuditStore Exn β)
    (s : JsonlAuditStore) : ((Run.ofExcept check).andThen m) s = m a s := by
  subst h
  rfl

omit [Platform] in
theorem checked_error {α β : Type} {check : Except Exn α} {error : Exn} (h : check = .error error)
    (m : α → Run JsonlAuditStore Exn β) (s : JsonlAuditStore) :
    ((Run.ofExcept check).andThen m) s = ⟨[], s, .error error⟩ := by
  subst h
  rfl

theorem Holds.andThen_read (h : Holds reader s log) {α : Type} (m : List StoredAuditRecord → Run JsonlAuditStore Exn α) :
    ((readRecords reader).andThen m) s = m log s := by
  rw [Run.andThen_ok h.read, List.nil_append]

omit [Platform] in
theorem expiredKey_eq (log : AuditLog) (now : DateTime) : expiredKey log now = log.expired now := by
  funext key
  unfold expiredKey AuditLog.expired
  rw [Bool.eq_iff_iff, List.all_eq_true, decide_eq_true_iff]
  simp only [List.mem_filter, decide_eq_true_eq, and_imp]

/-- A purge by a time of its own and one by the clock of the store go on alike. -/
theorem purge_aware {time : Option DateTime} {clock : DateTime} (haware : (time.getD clock).offset.isSome = true) :
    purgeExpired reader time clock s = ((readRecords reader).andThen fun records =>
      JsonlAuditStore.retain reader (fun r => !expiredKey records (time.getD clock) r.event.key) records) s := by
  unfold purgeExpired
  cases time with
  | none   => exact checked_ok (if_pos haware) _ s
  | some t => exact checked_ok (if_pos haware) _ s

theorem purge_naive {time : Option DateTime} {clock : DateTime} (hnaive : ¬ (time.getD clock).offset.isSome = true) :
    ∃ error, purgeExpired reader time clock s = ⟨[], s, .error error⟩ := by
  unfold purgeExpired
  cases time with
  | none   => exact ⟨_, checked_error (if_neg hnaive) _ s⟩
  | some t => exact ⟨_, checked_error (if_neg hnaive) _ s⟩

/-- **Every call gives what the log gives, and the store goes on holding it.** -/
theorem Holds.call (h : Holds reader s log) {op : AuditOp} (hop : op.Storable reader) :
    (call reader op s).outcome.toOption = (log.answer op).map Prod.fst ∧ Holds reader (call reader op s).final (log.after op) := by
  cases op with
  | append e now =>
    obtain ⟨hoption, hholds⟩ := h.append hop
    unfold JsonlAuditStore.call AuditLog.after AuditLog.answer
    dsimp only
    rw [andThen_done]
    cases hrecord : log.record e now with
    | none =>
      rw [hrecord] at hoption hholds
      refine ⟨?_, hholds⟩
      cases hout : (JsonlAuditStore.append e now s).outcome with
      | error x => rfl
      | ok u    =>
        rw [hout] at hoption
        cases hoption
    | some r =>
      rw [hrecord] at hoption hholds
      refine ⟨?_, hholds⟩
      cases hout : (JsonlAuditStore.append e now s).outcome with
      | error x =>
        rw [hout] at hoption
        cases hoption
      | ok u    => rfl
  | read t x =>
    unfold JsonlAuditStore.call AuditLog.after AuditLog.answer readExecution
    dsimp only
    rw [andThen_done]
    rcases checkNames_cases t x with ⟨hempty, error, herror⟩ | ⟨hnames, hok⟩
    · rw [checked_error herror, if_pos hempty]
      exact ⟨rfl, h⟩
    · rw [checked_ok hok, h.andThen_read, if_neg hnames]
      exact ⟨rfl, h⟩
  | delete t x =>
    unfold JsonlAuditStore.call AuditLog.after AuditLog.answer deleteExecution
    dsimp only
    rw [andThen_done]
    rcases checkNames_cases t x with ⟨hempty, error, herror⟩ | ⟨hnames, hok⟩
    · rw [checked_error herror, if_pos hempty]
      exact ⟨rfl, h⟩
    · obtain ⟨hout, hholds⟩ := h.retain fun key => decide (key = (some t, x))
      rw [checked_ok hok, h.andThen_read, if_neg hnames, hout]
      exact ⟨rfl, hholds⟩
  | purge time clock =>
    unfold JsonlAuditStore.call AuditLog.after AuditLog.answer
    dsimp only
    rw [andThen_done]
    by_cases haware : (time.getD clock).offset.isSome = true
    · obtain ⟨hout, hholds⟩ := h.retain (log.expired (time.getD clock))
      rw [purge_aware haware, h.andThen_read, if_pos haware, expiredKey_eq, hout]
      exact ⟨rfl, hholds⟩
    · obtain ⟨error, herror⟩ := @purge_naive _ reader s time clock haware
      rw [herror, if_neg haware]
      exact ⟨rfl, h⟩
  | reopen =>
    obtain ⟨hout, hholds⟩ := holds_loaded h.text h.sound h.chained
    unfold JsonlAuditStore.call AuditLog.after AuditLog.answer
    dsimp only
    rw [andThen_done]
    rw [hout]
    exact ⟨rfl, hholds⟩

/-- Calls one after the other, by induction on them. -/
theorem Holds.run : ∀ {ops : List AuditOp} {s : JsonlAuditStore} {log : AuditLog}, Holds reader s log →
    (∀ op ∈ ops, op.Storable reader) →
    (run reader s ops).1 = (log.run ops).1 ∧ Holds reader (run reader s ops).2 (log.run ops).2
  | [], _, _, h, _           => ⟨rfl, h⟩
  | op :: ops, s, log, h, hops => by
    obtain ⟨hreply, hafter⟩ := h.call (hops op List.mem_cons_self)
    obtain ⟨hreplies, hholds⟩ := hafter.run fun x hx => hops x (List.mem_cons_of_mem _ hx)
    unfold JsonlAuditStore.run AuditLog.run
    dsimp only
    rw [hreply, hreplies]
    exact ⟨rfl, hholds⟩

end JsonlAuditStore

end AuditLog

/-! ## A day of the store -/

section Ascii

attribute [local instance] Platform.ascii

theorem nextDay_exists : (1 ≤ 2026 ∧ 2026 ≤ 9999) ∧ (1 ≤ 1 ∧ 1 ≤ 12) ∧ (1 ≤ 2 ∧ 2 ≤ Calendar.daysInMonth 2026 1) := by decide

/-- The morning after. -/
def nextMorning : DateTime := { draftMorning.time with date := ⟨2026, 1, 2, nextDay_exists⟩ }

theorem nextMorning_after : draftMorning.time.plusDays 1 = some nextMorning := rfl

/-- A reader of two mornings, and of no number that has a fraction. -/
def morningReader : LineReader where
  number     := String.ofList
  loads text := (Json.loads String.ofList text).mapError fun _ => .value "Expecting value"
  dateTime s :=
    if s = draftMorning.time.isoformat then some draftMorning.time
    else if s = nextMorning.isoformat then some nextMorning
    else none
  reads x h  := by
    rw [Json.loads_dumps _ h]
    rfl

theorem mornings_apart : nextMorning.isoformat ≠ draftMorning.time.isoformat := fun h =>
  absurd (congrArg (·.date.day) (DateTime.isoformat_inj h)) (by decide)

theorem readsMornings : StoredAuditRecord.ReadsTime morningReader draftMorning.time ∧
    StoredAuditRecord.ReadsTime morningReader nextMorning := by
  unfold StoredAuditRecord.ReadsTime morningReader
  dsimp only
  rw [if_pos rfl, if_neg mornings_apart, if_pos rfl]
  exact ⟨⟨rfl, rfl⟩, rfl, rfl⟩

/-- The first event of an execution, kept for a day. -/
def openingEvent (executionId : String) : AuditEvent :=
  { executionId, sequence := 1, eventType := "EXECUTION_STARTED", skillId := "check-order", skillVersion := "1.0",
    semanticHash := "sha256:0", runtimeVersion := "1.0", tenantId := some "tenant", subjectId := none,
    authContextRef := none, retentionDays := 1, classification := .internal, payload := .dict [],
    previousEventHash := none, eventHash := "" }

/-- The event with the hash it is written with. -/
def openedEvent (executionId : String) : AuditEvent :=
  { openingEvent executionId with eventHash := sha256Of (openingEvent executionId).hashText }

theorem openedEvent_storable {executionId : String} (h : executionId ≠ "") : (openedEvent executionId).Storable morningReader where
  texts     := by simp [openedEvent, openingEvent, h]
  optionals := by simp [openedEvent, openingEvent]
  object    := ⟨[], rfl⟩
  json      := rfl
  printed   := ⟨List.nodup_nil, trivial⟩

theorem openedEvent_verify (executionId : String) : (openedEvent executionId).verify = .ok () :=
  (AuditEvent.verify_iff rfl).2 ⟨Nat.one_ne_zero, rfl⟩

/-- The record of the event on the morning it is stored. -/
def openedRecord (executionId : String) : StoredAuditRecord :=
  ⟨openedEvent executionId, draftMorning.time, nextMorning⟩

theorem openedRecord_sound {executionId : String} (h : executionId ≠ "") :
    (openedRecord executionId).Sound morningReader ∧ (openedRecord executionId).kept = openedRecord executionId :=
  ⟨⟨openedEvent_storable h, openedEvent_verify executionId, Nat.one_ne_zero, readsMornings.1, readsMornings.2,
    nextMorning_after⟩, rfl⟩

theorem openedRecords_sound {executions : List String} (hnames : "" ∉ executions) :
    ∀ r ∈ executions.map openedRecord, r.Sound morningReader ∧ r.kept = r := by
  intro r hr
  obtain ⟨executionId, hmem, rfl⟩ := List.mem_map.1 hr
  exact openedRecord_sound fun hempty => hnames (hempty ▸ hmem)

/-- The file of some opened executions, no two of them alike. -/
theorem make_opened {executions : List String} (hnames : "" ∉ executions) (honce : executions.Nodup) :
    ∃ store, JsonlAuditStore.make morningReader (Lines.join ((executions.map openedRecord).map (·.lineText))) = .ok store ∧
      ∀ key, (store.index.tails key).map (·.eventHash) =
        (placeAfter (0, none) (eventsOf key (executions.map openedRecord))).2 := by
  have hchained : ∀ (executions : List String), executions.Nodup → ∀ key,
      Chained 0 none (eventsOf key (executions.map openedRecord)) := by
    intro executions honce key
    induction executions with
    | nil => trivial
    | cons executionId rest ih =>
      obtain ⟨hnew, honce⟩ := List.nodup_cons.1 honce
      rw [List.map_cons, eventsOf_cons]
      split
      · rename_i hkey
        subst hkey
        have hnone : eventsOf (openedRecord executionId).event.key (rest.map openedRecord) = [] := by
          unfold eventsOf
          rw [List.filter_eq_nil_iff]
          intro e he
          simp only [List.mem_map] at he
          obtain ⟨_, ⟨other, hother, rfl⟩, rfl⟩ := he
          refine fun hsame => hnew ?_
          have hid : other = executionId := congrArg Prod.snd (of_decide_eq_true hsame)
          exact hid ▸ hother
        rw [hnone]
        exact ⟨rfl, rfl, trivial⟩
      · exact ih honce
  obtain ⟨hok, hholds⟩ := @JsonlAuditStore.holds_loaded _ morningReader
    ⟨Lines.join ((executions.map openedRecord).map (·.lineText)), .empty⟩ (executions.map openedRecord) rfl
    (openedRecords_sound hnames) (hchained executions honce)
  refine ⟨_, by rw [JsonlAuditStore.make, hok]; rfl, fun key => ?_⟩
  exact congrArg Prod.snd (hholds.place key)

theorem auditFiles_alike_opened :
    let text := Lines.join ((["exec-1"].map openedRecord).map (·.lineText))
    let text' := Lines.join ((["exec-1", "exec-2"].map openedRecord).map (·.lineText))
    let key := (openedEvent "exec-1").key
    ∃ records records', StoredAuditRecord.readAll morningReader text = .ok records ∧
      StoredAuditRecord.readAll morningReader text' = .ok records' ∧
      Chained 0 none (eventsOf key records) ∧ Chained 0 none (eventsOf key records') ∧
      ((eventsOf key records).map (·.kept) = (eventsOf key records').map (·.kept) ∨
        ∃ e ∈ eventsOf key records, ∃ e' ∈ eventsOf key records', Collide e.hashText e'.hashText) := by
  obtain ⟨store, hstore, hplace⟩ := @make_opened ["exec-1"] (by decide) (by decide)
  obtain ⟨store', hstore', hplace'⟩ := @make_opened ["exec-1", "exec-2"] (by decide) (by decide)
  have hfinite : ∀ {executions : List String}, "" ∉ executions →
      Finite morningReader (Lines.join ((executions.map openedRecord).map (·.lineText))) := fun hnames =>
    finite_join fun r hr => (openedRecords_sound hnames r hr).1
  refine auditFiles_alike (hfinite (by decide)) (hfinite (by decide)) hstore hstore' ?_
  rw [hplace, hplace']
  rfl

end Ascii

end Nsl
