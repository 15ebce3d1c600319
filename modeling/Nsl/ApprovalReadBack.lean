import Nsl.ApprovalDocuments
import Nsl.Verification
/-!
# ApprovalReadBack — approval documents read back

The fields of a request or of evidence pass through a writer and a reader of their own. Each reader asks no field for anything
that the constructor did not, no document of a request or of evidence holds credential material, and requests with one document
are equal. So what was published is read back equal, and another request finds the name taken.
-/
namespace Nsl

open Value
open Calendar (DateTime)
open Stateful (Run bind_eq_ok bind_ok)
open Claims (CONTROLLED_DOCUMENT_VERSION)
open ApprovalDocuments

section ReadBack

variable [Platform] {reader : DocumentReader} {path : FilePath} {data : ByteArray} {files : Files}

/-! ## What the constructors take -/

omit [Platform] in
theorem optionally_map {α β : Type} {check : α → Except Exn β} {f : β → α} (h : ∀ b, check (f b) = .ok b) (o : Option β) :
    optionally check (o.map f) = .ok o := by
  cases o with
  | none   => rfl
  | some b => rw [Option.map_some, optionally, h]; rfl

omit [Platform] in
theorem approvalUtc_time (t : UtcInstant) (name : String) : approvalUtc t.time name = .ok t := dif_pos t.ok

theorem checkSummary_ok (s : CheckedSummary) : checkSummary s.1 = .ok s := by
  have hfrozen : freezeSummary "display_safe_summary" (.dict s.1.entries) = .ok (frozen (.dict s.1.entries)) :=
    freezeSummary_safe _ s.2.2
  unfold checkSummary
  split
  · rename_i path hpath
    rw [s.2.1] at hpath
    cases hpath
  · split
    · rename_i error herror
      rw [hfrozen] at herror
      cases herror
    · rfl

/-- **A request is made again of its fields**, with any summary the constructor takes. -/
theorem ApprovalRequest.make_fields (r : ApprovalRequest) (s : CheckedSummary) : ApprovalRequest.make r.fields s.1 =
    .ok { r with displaySafeSummary := s.1, summaryClean := s.2.1, summarySafe := s.2.2 } := by
  have htext := requiredIdentity_text
  have hexpires := fun name => @optionally_map _ _ (approvalUtc · name) (·.time) (approvalUtc_time · name) r.expiresAt
  have hpayload := fun name =>
    @optionally_map _ _ (requiredIdentity · name) (·.text) (requiredIdentity_text · name) r.protectedPayloadRef
  unfold ApprovalRequest.make ApprovalRequest.fields
  dsimp only
  rw [bind_ok (htext r.tenantId _), bind_ok (htext r.executionId _), bind_ok (htext r.businessOperationId _),
    bind_ok (htext r.approvalId _), bind_ok (htext r.approvalRequestId _), bind_ok (htext r.skillId _),
    bind_ok (htext r.skillVersion _), bind_ok (htext r.writeNodeId _), bind_ok (htext r.toolId _),
    bind_ok (htext r.writeIntentHash _), bind_ok (htext r.message _), bind_ok (requiredDigest_text r.skillSemanticHash _),
    bind_ok (requiredDigest_text r.payloadHash _), bind_ok (hexpires _), bind_ok (hpayload _), bind_ok (checkSummary_ok s)]
  rfl

/-- **Evidence is made again of its fields.** -/
theorem ApprovalEvidence.make_fields (e : ApprovalEvidence) : ApprovalEvidence.make e.fields = .ok e := by
  have htext := requiredIdentity_text
  have hexpires := fun name => @optionally_map _ _ (approvalUtc · name) (·.time) (approvalUtc_time · name) e.expiresAt
  unfold ApprovalEvidence.make ApprovalEvidence.fields
  dsimp only
  rw [bind_ok (htext e.tenantId _), bind_ok (htext e.executionId _), bind_ok (htext e.businessOperationId _),
    bind_ok (htext e.approvalId _), bind_ok (htext e.approvalRequestId _), bind_ok (htext e.approverId _),
    bind_ok (htext e.writeIntentHash _), bind_ok (htext e.evidenceIntegrity _),
    bind_ok (requiredDigest_text e.skillSemanticHash _), bind_ok (requiredDigest_text e.payloadHash _),
    bind_ok (approvalUtc_time e.decidedAt _), bind_ok (hexpires _)]
  exact dif_pos (expiryInOrder_iff.2 e.expiresLater)

/-! ## Reading what was written -/

namespace ApprovalDocuments

omit [Platform] in
theorem string_ok {s : String} (h : Text.isBlank s = false) (path : String) : string (.str s) path = .ok s := by
  rw [string, if_neg (by rw [h]; decide)]

theorem string_text (t : RequiredText) (path : String) : string (.str t.text) path = .ok t.text :=
  string_ok (isBlank_of_isRequiredText t.ok) path

theorem string_digest (d : Digest) (path : String) : string (.str d.text) path = .ok d.text :=
  string_ok (isBlank_of_isRequiredText d.ok.1) path

omit [Platform] in
theorem member_value {α : Type} [StrEnum α] (a : α) : memberOf (ofJson (.str (StrEnum.value a))) = .ok a := by
  rw [ofJson, memberOf, StrEnum.ofValue?_value]

/-- The reader takes an instant back from the text it is written as. -/
def ReadsInstant (reader : DocumentReader) (t : UtcInstant) : Prop := reader.dateTime t.time.isoformat = some t.time

omit [Platform] in
theorem instant_ok {t : UtcInstant} (h : ReadsInstant reader t) (path : String) :
    instant reader (.str t.time.isoformat) path = .ok t.time := by
  rw [instant, h]
  exact if_pos t.ok

omit [Platform] in
theorem nullable_ok {α β : Type} {read : Json → String → Except Exn α} {write : β → String} {value : β → α} {o : Option β}
    {path : String} (h : ∀ b, o = some b → read (.str (write b)) path = .ok (value b)) :
    nullable read ((optionalStr (o.map write)).wire.sorted) path = .ok (o.map value) := by
  cases o with
  | none   => rfl
  | some b =>
    have hread := h b rfl
    unfold nullable
    rw [if_neg (by intro hnull; cases hnull)]
    show (read (.str (write b)) path).map some = _
    rw [hread]
    rfl

end ApprovalDocuments

/-- What the standard library reads of the texts of a request is what they were written from. -/
structure ApprovalRequest.ReadBy (reader : DocumentReader) (r : ApprovalRequest) : Prop where
  instant : ∀ t, r.expiresAt = some t → ReadsInstant reader t
  summary : Json.Printed reader.number (Value.dict r.displaySafeSummary.entries).wire

structure ApprovalEvidence.ReadBy (reader : DocumentReader) (e : ApprovalEvidence) : Prop where
  decided : ReadsInstant reader e.decidedAt
  expires : ∀ t, e.expiresAt = some t → ReadsInstant reader t

namespace ApprovalDocuments

omit [Platform] in
/-- The fields of a controlled document, as they are read back. -/
theorem item_ok {name : String} {data : Value} {values : List (String × Value)} {fields : List String}
    (hname : name ≠ "schema_version") (hdata : data = .dict values) (hprinted : Json.Printed reader.number data.wire)
    (hfields : values.map Prod.fst = fields) : Json.Printed reader.number (controlledDocument name data).wire ∧
    ∃ entries, item reader name fields (canonicalBytes (controlledDocument name data).wire) = .ok entries ∧
      ∀ k v, values.lookup k = some v → entry entries k = v.wire.sorted := by
  have honce : KeysOnce [("schema_version", Json.str CONTROLLED_DOCUMENT_VERSION), (name, data.wire)] := by
    unfold KeysOnce
    simpa using hname.symm
  have hdocument : Json.Printed reader.number (controlledDocument name data).wire := ⟨honce, trivial, hprinted, trivial⟩
  obtain ⟨root, hroot, hlookup⟩ := @exactEntries_sorted Exn.schema _ "$" ["schema_version", name] honce (fun k => Iff.rfl)
  have hroot' : exactEntries Exn.schema (controlledDocument name data).wire.sorted "$" ["schema_version", name] = .ok root :=
    hroot
  have hversion : root.lookup "schema_version" = some (.str CONTROLLED_DOCUMENT_VERSION) := hlookup "schema_version"
  have hpart : root.lookup name = some data.wire.sorted := by
    rw [hlookup name, List.lookup_cons, beq_false_of_ne hname, List.lookup_cons, beq_self_eq_true]
    rfl
  have hfixed : schemaVersion root = .ok () := by
    rw [schemaVersion, entry, hversion]
    exact if_neg (not_not.2 rfl)
  have hnames : ∀ k, k ∈ fields ↔ k ∈ (wireFields values).map Prod.fst := by
    intro k
    rw [← hfields, wireFields_eq, List.map_map]
    rfl
  rw [hdata] at hprinted
  obtain ⟨entries, hentries, hread⟩ := @exactEntries_sorted Exn.schema _ ("$." ++ name) fields hprinted.1 hnames
  refine ⟨hdocument, entries, ?_, fun k v hk => ?_⟩
  · unfold item loadNsoJson
    rw [bind_ok (loadStrictJson_canonical hdocument), bind_ok hroot', bind_ok hfixed, entry, hpart, Option.getD_some, hdata]
    exact hentries
  · rw [entry, hread, wireFields_lookup, hk]
    rfl

omit [Platform] in
theorem mapping_ok {es : List (String × Value)} (h : KeysOnce (wireFields es)) (path : String) :
    ∃ d, mapping (Json.obj (wireFields es)).sorted path = .ok d ∧ d.entries = readFields es := by
  refine ⟨Dict.ofList (readFields es), rfl, Dict.ofList_entries ?_⟩
  unfold KeysOnce readFields
  rw [ofJsonFields_eq, List.map_map]
  have hkeys : KeysOnce (Json.sortedFields (wireFields es)) := by
    unfold KeysOnce
    rwa [Json.sortedFields_keys]
  exact Json.sortKeys_once hkeys

end ApprovalDocuments

theorem ApprovalRequest.toData_printed {r : ApprovalRequest} (h : r.ReadBy reader) :
    Json.Printed reader.number r.toData.wire := by
  have hoptional : ∀ o : Option String, Json.Printed reader.number (optionalStr o).wire := by
    intro o
    cases o <;> trivial
  have hsummary : Json.Printed reader.number (summaryToData r.summary).wire := by
    rw [ApprovalRequest.summary, summaryToData_wire]
    exact h.summary
  have honce : requestNames.Nodup := by decide
  exact ⟨honce, trivial, trivial, trivial, trivial, trivial, trivial, trivial, trivial, trivial, trivial, trivial, trivial,
    trivial, trivial, hoptional _, hsummary, hoptional _, trivial, trivial⟩

theorem ApprovalEvidence.toData_printed (reader : DocumentReader) (e : ApprovalEvidence) :
    Json.Printed reader.number e.toData.wire := by
  have hoptional : ∀ o : Option String, Json.Printed reader.number (optionalStr o).wire := by
    intro o
    cases o <;> trivial
  have honce : evidenceNames.Nodup := by decide
  exact ⟨honce, trivial, trivial, trivial, trivial, trivial, trivial, trivial, trivial, trivial, hoptional _, trivial, trivial,
    trivial, trivial⟩

/-! ## The fields read back -/

namespace ApprovalDocuments

/-- **The reader of a request** calls the constructor with the fields it was written with. -/
theorem requestFields_ok {r : ApprovalRequest} {values : List (String × Value)} {entries : List (String × Json)}
    (h : r.ReadBy reader) (hvalues : r.toData = .dict values)
    (hentry : ∀ k v, values.lookup k = some v → entry entries k = v.wire.sorted) :
    ∃ d, requestFields reader entries = .ok (r.fields, d) ∧ d.entries = readFields r.displaySafeSummary.entries := by
  have htext : ∀ name (t : RequiredText) path, values.lookup name = some (.str t.text) →
      string (entry entries name) path = .ok t.text := by
    intro name t path hname
    rw [hentry name _ hname]
    exact string_text t path
  have hdigest : ∀ name (d : Digest) path, values.lookup name = some (.str d.text) →
      string (entry entries name) path = .ok d.text := by
    intro name d path hname
    rw [hentry name _ hname]
    exact string_digest d path
  cases hvalues
  have hrisk : memberOf (ofJson (entry entries "risk_level")) = .ok r.riskLevel := by
    rw [hentry "risk_level" _ rfl]
    exact member_value r.riskLevel
  have hclass : memberOf (ofJson (entry entries "data_classification")) = .ok r.dataClassification := by
    rw [hentry "data_classification" _ rfl]
    exact member_value r.dataClassification
  have hexpires : ∀ path, nullable (instant reader) (entry entries "expires_at") path = .ok (r.expiresAt.map (·.time)) := by
    intro path
    rw [hentry "expires_at" _ rfl]
    exact nullable_ok fun t ht => instant_ok (h.instant t ht) path
  have hpayload : ∀ path, nullable string (entry entries "protected_payload_ref") path =
      .ok (r.protectedPayloadRef.map (·.text)) := by
    intro path
    rw [hentry "protected_payload_ref" _ rfl]
    exact nullable_ok fun t _ => string_text t path
  have hsummary : ∀ path, ∃ d, mapping (entry entries "display_safe_summary") path = .ok d ∧
      d.entries = readFields r.displaySafeSummary.entries := by
    intro path
    rw [hentry "display_safe_summary" _ rfl, ApprovalRequest.summary, summaryToData_wire]
    exact mapping_ok h.summary.1 path
  obtain ⟨d, hd, hread⟩ := hsummary "$.approval_request.display_safe_summary"
  refine ⟨d, ?_, hread⟩
  unfold requestFields
  dsimp only
  rw [bind_ok (htext "tenant_id" r.tenantId _ rfl),
    bind_ok (htext "execution_id" r.executionId _ rfl),
    bind_ok (htext "business_operation_id" r.businessOperationId _ rfl),
    bind_ok (htext "approval_id" r.approvalId _ rfl),
    bind_ok (htext "approval_request_id" r.approvalRequestId _ rfl),
    bind_ok (htext "skill_id" r.skillId _ rfl),
    bind_ok (htext "skill_version" r.skillVersion _ rfl),
    bind_ok (hdigest "skill_semantic_hash" r.skillSemanticHash _ rfl),
    bind_ok (htext "write_node_id" r.writeNodeId _ rfl),
    bind_ok (htext "tool_id" r.toolId _ rfl),
    bind_ok (hdigest "payload_hash" r.payloadHash _ rfl),
    bind_ok (htext "write_intent_hash" r.writeIntentHash _ rfl), bind_ok hrisk,
    bind_ok (htext "message" r.message _ rfl), bind_ok (hexpires _), bind_ok hd, bind_ok (hpayload _),
    bind_ok hclass]
  rfl

/-- **The reader of evidence** calls the constructor with the fields it was written with. -/
theorem evidenceFields_ok {e : ApprovalEvidence} {values : List (String × Value)} {entries : List (String × Json)}
    (h : e.ReadBy reader) (hvalues : e.toData = .dict values)
    (hentry : ∀ k v, values.lookup k = some v → entry entries k = v.wire.sorted) :
    evidenceFields reader entries = .ok e.fields := by
  have htext : ∀ name (t : RequiredText) path, values.lookup name = some (.str t.text) →
      string (entry entries name) path = .ok t.text := by
    intro name t path hname
    rw [hentry name _ hname]
    exact string_text t path
  have hdigest : ∀ name (d : Digest) path, values.lookup name = some (.str d.text) →
      string (entry entries name) path = .ok d.text := by
    intro name d path hname
    rw [hentry name _ hname]
    exact string_digest d path
  cases hvalues
  have hdecision : memberOf (ofJson (entry entries "decision")) = .ok e.decision := by
    rw [hentry "decision" _ rfl]
    exact member_value e.decision
  have hdecided : ∀ path, instant reader (entry entries "decided_at") path = .ok e.decidedAt.time := by
    intro path
    rw [hentry "decided_at" _ rfl]
    exact instant_ok h.decided path
  have hexpires : ∀ path, nullable (instant reader) (entry entries "expires_at") path = .ok (e.expiresAt.map (·.time)) := by
    intro path
    rw [hentry "expires_at" _ rfl]
    exact nullable_ok fun t ht => instant_ok (h.expires t ht) path
  unfold evidenceFields
  dsimp only
  rw [bind_ok (htext "tenant_id" e.tenantId _ rfl),
    bind_ok (htext "execution_id" e.executionId _ rfl),
    bind_ok (htext "business_operation_id" e.businessOperationId _ rfl),
    bind_ok (htext "approval_id" e.approvalId _ rfl),
    bind_ok (htext "approval_request_id" e.approvalRequestId _ rfl),
    bind_ok (hdigest "skill_semantic_hash" e.skillSemanticHash _ rfl), bind_ok hdecision,
    bind_ok (htext "approver_id" e.approverId _ rfl), bind_ok (hdecided _), bind_ok (hexpires _),
    bind_ok (hdigest "payload_hash" e.payloadHash _ rfl),
    bind_ok (htext "write_intent_hash" e.writeIntentHash _ rfl),
    bind_ok (htext "evidence_integrity" e.evidenceIntegrity _ rfl)]
  rfl

end ApprovalDocuments

/-! ## Documents read back -/

/-- The document of a request, as it is written. -/
def ApprovalRequest.document (r : ApprovalRequest) : ByteArray :=
  canonicalBytes (controlledDocument "approval_request" r.toData).wire

/-- The document of evidence, as it is written. -/
def ApprovalEvidence.document (e : ApprovalEvidence) : ByteArray :=
  canonicalBytes (controlledDocument "approval_evidence" e.toData).wire

theorem publish_eq (r : ApprovalRequest) : publish reader path r = writeOnce reader path r.document := by
  have hsummary : (summaryToData r.summary).isJson = true :=
    @summaryToData_isJson (.dict r.displaySafeSummary.entries) r.summarySafe
  have hjson : (controlledDocument "approval_request" r.toData).isJson = true := by
    simp only [controlledDocument, ApprovalRequest.toData, Value.isJson, fieldsJson, isoText, optionalTextValue,
      optionalStr_isJson, hsummary, Bool.and_self]
  exact writeDocument_eq hjson

theorem writeApprovalEvidence_eq (e : ApprovalEvidence) :
    writeApprovalEvidence reader path e = writeOnce reader path e.document := by
  have hjson : (controlledDocument "approval_evidence" e.toData).isJson = true := by
    simp only [controlledDocument, ApprovalEvidence.toData, Value.isJson, fieldsJson, isoText, optionalStr_isJson,
      Bool.and_self]
  exact writeDocument_eq hjson

omit [Platform] in
theorem requestName_ne : "approval_request" ≠ "schema_version" := by decide

omit [Platform] in
theorem evidenceName_ne : "approval_evidence" ≠ "schema_version" := by decide

/-- What the reader takes from the document of a request. -/
theorem ApprovalRequest.document_read {r : ApprovalRequest} (h : r.ReadBy reader) :
    loadNsoJson reader r.document = .ok (controlledDocument "approval_request" r.toData).wire.sorted ∧
    ∃ entries d, item reader "approval_request" requestNames r.document = .ok entries ∧
      requestFields reader entries = .ok (r.fields, d) ∧ d.entries = readFields r.displaySafeSummary.entries := by
  obtain ⟨hdocument, entries, hitem, hentry⟩ := item_ok requestName_ne rfl (r.toData_printed h) rfl
  obtain ⟨d, hfields, hsummary⟩ := requestFields_ok h rfl hentry
  exact ⟨loadStrictJson_canonical hdocument, entries, d, hitem, hfields, hsummary⟩

/-- What the reader takes from the document of evidence. -/
theorem ApprovalEvidence.document_read {e : ApprovalEvidence} (h : e.ReadBy reader) :
    loadNsoJson reader e.document = .ok (controlledDocument "approval_evidence" e.toData).wire.sorted ∧
    ∃ entries, item reader "approval_evidence" evidenceNames e.document = .ok entries ∧
      evidenceFields reader entries = .ok e.fields := by
  obtain ⟨hdocument, entries, hitem, hentry⟩ := item_ok evidenceName_ne rfl (e.toData_printed reader) rfl
  exact ⟨loadStrictJson_canonical hdocument, entries, hitem, evidenceFields_ok h rfl hentry⟩

/-- **What was read of one summary and of another is the same only if they are equal.** -/
theorem summary_equal {r r' : ApprovalRequest} (h : r.ReadBy reader) (h' : r'.ReadBy reader)
    (hread : readFields r.displaySafeSummary.entries = readFields r'.displaySafeSummary.entries) :
    r.summary.Equal r'.summary := by
  refine frozen_equal r.summarySafe r'.summarySafe h.summary h'.summary ?_
  have hfields := congrArg wireFields hread
  unfold readFields at hfields
  rw [wireFields_ofJson, wireFields_ofJson] at hfields
  exact congrArg Json.obj hfields

/-- **Requests with one document are equal.** -/
theorem ApprovalRequest.document_inj {r r' : ApprovalRequest} (h : r.ReadBy reader) (h' : r'.ReadBy reader)
    (hdocument : r.document = r'.document) : r.Same r' := by
  obtain ⟨-, entries, d, hitem, hfields, hread⟩ := ApprovalRequest.document_read h
  obtain ⟨-, entries', d', hitem', hfields', hread'⟩ := ApprovalRequest.document_read h'
  rw [hdocument, hitem'] at hitem
  cases hitem
  rw [hfields'] at hfields
  obtain ⟨hsame, rfl⟩ := Prod.mk.inj (Except.ok.inj hfields)
  exact ⟨hsame.symm, summary_equal h h' (hread.symm.trans hread')⟩

/-! ## What a controlled document may hold -/

section Credentials

/-- The characters of a time in UTC. -/
def isoAlphabet : List Char := "0123456789-:T+.".toList

omit [Platform] in
theorem isoAlphabet_harmless (word : Char → Bool) : harmless word isoAlphabet = true := rfl

omit [Platform] in
theorem digit_mem {c : Char} (h : c.isDigit = true) : c ∈ isoAlphabet := by
  have hcode : 48 ≤ c.toNat ∧ c.toNat ≤ 57 := Char.isDigit_iff_toNat.1 h
  have hdigit : ∀ n, n ≤ 57 → 48 ≤ n → Char.ofNat n ∈ isoAlphabet := by decide
  rw [← Char.ofNat_toNat c]
  exact hdigit _ hcode.2 hcode.1

/-- A text of these characters. -/
def IsoChars (s : String) : Prop := ∀ c ∈ s.toList, c ∈ isoAlphabet

omit [Platform] in
theorem IsoChars.append {s s' : String} (h : IsoChars s) (h' : IsoChars s') : IsoChars (s ++ s') := by
  intro c hc
  rw [String.toList_append, List.mem_append] at hc
  exact hc.elim (h c) (h' c)

omit [Platform] in
theorem isoChars_zeroPad (width n : Nat) : IsoChars (Text.zeroPad width n) := by
  intro c hc
  rw [Text.zeroPad, String.toList_ofList, List.mem_append] at hc
  rcases hc with hc | hc
  · rw [List.eq_of_mem_replicate hc]
    exact digit_mem rfl
  · exact digit_mem (Nat.isDigit_of_mem_toDigits (by decide) (by decide) hc)

omit [Platform] in
theorem isoChars_of {s : String} (h : s.toList.all isoAlphabet.contains = true) : IsoChars s := fun c hc =>
  List.contains_iff_mem.1 (List.all_eq_true.1 h c hc)

omit [Platform] in
theorem isoChars_date (d : Calendar.Date) : IsoChars d.isoformat := by
  have hdash : IsoChars "-" := isoChars_of rfl
  have hpad := isoChars_zeroPad
  exact ((((hpad 4 d.year).append hdash).append (hpad 2 d.month)).append hdash).append (hpad 2 d.day)

omit [Platform] in
/-- **A time in UTC holds no credential.** -/
theorem isoformat_clean (word : Char → Bool) (t : UtcInstant) : redactText word t.time.isoformat [] = t.time.isoformat := by
  have hcolon : IsoChars ":" := isoChars_of rfl
  have hpad := isoChars_zeroPad 2
  have hfraction : IsoChars (if t.time.microsecond = 0 then "" else "." ++ Text.zeroPad 6 t.time.microsecond) := by
    split
    · exact isoChars_of rfl
    · exact (isoChars_of rfl).append (isoChars_zeroPad _ _)
  have hoffset : t.time.offset = some 0 := of_decide_eq_true t.ok
  have hclock : IsoChars (t.time.date.isoformat ++ "T" ++ Text.zeroPad 2 t.time.hour ++ ":" ++ Text.zeroPad 2 t.time.minute ++
      ":" ++ Text.zeroPad 2 t.time.second) :=
    ((((((isoChars_date t.time.date).append (isoChars_of rfl)).append (hpad t.time.hour)).append
      hcolon).append (hpad t.time.minute)).append hcolon).append (hpad t.time.second)
  have hchars : IsoChars t.time.isoformat := by
    unfold DateTime.isoformat
    rw [hoffset]
    exact (hclock.append hfraction).append (isoChars_of rfl)
  exact redactText_harmless word (isoAlphabet_harmless word) hchars

/-- A text of letters, digits and `_`. -/
def isWord (s : String) : Bool := s.toList.all (fun c => c.isAlphanum || c = '_')

def wordAlphabet : List Char := '_' :: ((List.range 123).map Char.ofNat).filter Char.isAlphanum

omit [Platform] in
theorem wordAlphabet_harmless (word : Char → Bool) : harmless word wordAlphabet = true := rfl

omit [Platform] in
theorem redactText_word (word : Char → Bool) {s : String} (h : isWord s = true) : redactText word s [] = s := by
  refine redactText_harmless word (wordAlphabet_harmless word) fun c hc => ?_
  have hword := List.all_eq_true.1 h c hc
  rw [Bool.or_eq_true, decide_eq_true_eq] at hword
  rcases hword with halphanum | rfl
  · have hcode : c.toNat < 123 := by
      have hranges : ((decide ('A'.val ≤ c.val ∧ c.val ≤ 'Z'.val) || (decide ('a'.val ≤ c.val) && decide (c.val ≤ 'z'.val))) ||
        c.isDigit) = true := halphanum
      simp only [Bool.or_eq_true, Bool.and_eq_true, decide_eq_true_eq, UInt32.le_iff_toNat_le, Char.isDigit_iff_toNat] at hranges
      have hbounds : (65 ≤ c.toNat ∧ c.toNat ≤ 90 ∨ 97 ≤ c.toNat ∧ c.toNat ≤ 122) ∨ 48 ≤ c.toNat ∧ c.toNat ≤ 57 := hranges
      omega
    exact List.mem_cons_of_mem _ (List.mem_filter.2
      ⟨List.mem_map.2 ⟨c.toNat, List.mem_range.2 hcode, Char.ofNat_toNat c⟩, halphanum⟩)
  · exact List.mem_cons_self

/-- A name of a field that holds no credential and names none. -/
def isPlainName (name : String) : Bool := isWord name && !isCredentialKey name

/-- Nothing that is read back of the value is credential material. -/
def ReadsClean (v : Value) : Prop := findCredentialPath Platform.word "$" (ofJson v.wire.sorted) = none

theorem readsClean_dict {values : List (String × Value)} (hnames : (values.map Prod.fst).all isPlainName = true)
    (h : ∀ v ∈ values.map Prod.snd, ReadsClean v) : ReadsClean (.dict values) := by
  show findInFields Platform.word "$" (readFields values) = none
  rw [findInFields_none_iff]
  intro kw hkw
  obtain ⟨kv, hkv, rfl⟩ := mem_readFields hkw
  have hname := List.all_eq_true.1 hnames _ (List.mem_map_of_mem hkv)
  simp only [isPlainName, Bool.and_eq_true, Bool.not_eq_true'] at hname
  refine ⟨redactText_word Platform.word hname.1, fun hcredential => ?_, h _ (List.mem_map_of_mem hkv)⟩
  rw [hname.2] at hcredential
  cases hcredential

theorem readsClean_text (t : RequiredText) : ReadsClean (.str t.text) := ((isRequiredText_iff _).1 t.ok).2

theorem readsClean_digest (d : Digest) : ReadsClean (.str d.text) := ((isRequiredText_iff _).1 d.ok.1).2

theorem readsClean_of_redact {s : String} (h : redactText Platform.word s [] = s) : ReadsClean (.str s) := by
  show findCredentialPath Platform.word "$" (.str s) = none
  rw [findCredentialPath, if_pos h]

theorem readsClean_time (t : UtcInstant) : ReadsClean (.str t.time.isoformat) :=
  readsClean_of_redact (isoformat_clean Platform.word t)

theorem readsClean_member {α : Type} [StrEnum α] (h : (StrEnum.members : List α).all (fun a => isWord (StrEnum.value a)) = true)
    (a : α) : ReadsClean (.str (StrEnum.value a)) :=
  readsClean_of_redact (redactText_word Platform.word (List.all_eq_true.1 h a (StrEnum.complete a)))

theorem readsClean_optional {β : Type} {write : β → String} (h : ∀ b, ReadsClean (.str (write b))) (o : Option β) :
    ReadsClean (optionalStr (o.map write)) := by
  cases o with
  | none   => rfl
  | some b => exact h b

theorem readsClean_summary (r : ApprovalRequest) : ReadsClean (summaryToData r.summary) := by
  unfold ReadsClean ApprovalRequest.summary
  rw [summaryToData_wire]
  exact read_clean (.dict r.displaySafeSummary.entries) "$" "$" r.summarySafe r.summaryClean

theorem controlledDocument_clean {name : String} {data : Value} (hname : isPlainName name = true) (h : ReadsClean data) :
    ReadsClean (controlledDocument name data) := by
  refine readsClean_dict ?_ ?_
  · have hversion : isPlainName "schema_version" = true := by decide +kernel
    simp only [List.map_cons, List.map_nil, List.all_cons, List.all_nil, hversion, hname, Bool.and_self]
  · simp only [List.map_cons, List.map_nil, List.forall_mem_cons]
    exact ⟨readsClean_of_redact (redactText_plain Platform.word (by decide +kernel)), h, fun _ hv => by cases hv⟩

/-- **No request's document holds credential material.** -/
theorem ApprovalRequest.document_clean (r : ApprovalRequest) : ReadsClean (controlledDocument "approval_request" r.toData) := by
  have hnames : requestNames.all isPlainName = true := by decide +kernel
  have hrisk : ReadsClean (.str (StrEnum.value r.riskLevel)) := readsClean_member (by decide +kernel) r.riskLevel
  have hclass : ReadsClean (.str (StrEnum.value r.dataClassification)) :=
    readsClean_member (by decide +kernel) r.dataClassification
  have htext := readsClean_text
  refine controlledDocument_clean (by decide +kernel) (readsClean_dict hnames ?_)
  simp only [List.map_cons, List.map_nil, List.forall_mem_cons]
  exact ⟨htext _, htext _, htext _, htext _, htext _, htext _, htext _, readsClean_digest _, htext _, htext _,
    readsClean_digest _, htext _, hrisk, htext _, readsClean_optional readsClean_time _, readsClean_summary r,
    readsClean_optional htext _, hclass, fun _ hv => by cases hv⟩

theorem ApprovalEvidence.document_clean (e : ApprovalEvidence) :
    ReadsClean (controlledDocument "approval_evidence" e.toData) := by
  have hnames : evidenceNames.all isPlainName = true := by decide +kernel
  have hdecision : ReadsClean (.str (StrEnum.value e.decision)) := readsClean_member (by decide +kernel) e.decision
  have htext := readsClean_text
  refine controlledDocument_clean (by decide +kernel) (readsClean_dict hnames ?_)
  simp only [List.map_cons, List.map_nil, List.forall_mem_cons]
  exact ⟨htext _, htext _, htext _, htext _, htext _, readsClean_digest _, hdecision, htext _, readsClean_time _,
    readsClean_optional readsClean_time _, readsClean_digest _, htext _, htext _, fun _ hv => by cases hv⟩

end Credentials

/-! ## Published, read back, published again -/

/-- **When a request is published**: its name is free, or holds the request already. -/
theorem publish_ok_iff {r : ApprovalRequest} (h : r.ReadBy reader) : (publish reader path r files).outcome = .ok () ↔
    files path = some r.document ∨ files path = none ∧ files path.temporary = none := by
  rw [publish_eq]
  exact writeOnce_ok_iff (ApprovalRequest.document_read h).1 r.document_clean

/-- **When evidence is written**: its name is free, or holds the evidence already. -/
theorem writeApprovalEvidence_ok_iff {e : ApprovalEvidence} (h : e.ReadBy reader) :
    (writeApprovalEvidence reader path e files).outcome = .ok () ↔
      files path = some e.document ∨ files path = none ∧ files path.temporary = none := by
  rw [writeApprovalEvidence_eq]
  exact writeOnce_ok_iff (ApprovalEvidence.document_read h).1 e.document_clean

/-- **A request is read back** from its document. -/
theorem readApprovalRequest_document {r : ApprovalRequest} (h : r.ReadBy reader) :
    ∃ r', readApprovalRequest reader r.document = .ok r' ∧ r'.Same r := by
  obtain ⟨-, entries, d, hitem, hfields, hread⟩ := ApprovalRequest.document_read h
  have hclean : findCredentialPath Platform.word "$" (.dict d.entries) = none := by
    rw [hread]
    exact read_clean (.dict r.displaySafeSummary.entries) "$" "$" r.summarySafe r.summaryClean
  have hsafe : areSafeFields d.entries = true := by
    rw [hread]
    exact @read_safe (.dict r.displaySafeSummary.entries) r.summarySafe
  have hequal : (frozen (.dict d.entries)).Equal r.summary := by
    rw [hread]
    exact @read_equal _ (.dict r.displaySafeSummary.entries) r.summarySafe h.summary
  refine ⟨{ r with displaySafeSummary := d, summaryClean := hclean, summarySafe := hsafe }, ?_, rfl, hequal⟩
  unfold readApprovalRequest
  rw [bind_ok hitem, bind_ok hfields, ApprovalRequest.make_fields r ⟨d, hclean, hsafe⟩]
  rfl

/-- **Evidence is read back** from its document. -/
theorem readApprovalEvidence_document {e : ApprovalEvidence} (h : e.ReadBy reader) :
    readApprovalEvidence reader e.document = .ok e := by
  obtain ⟨-, entries, hitem, hfields⟩ := ApprovalEvidence.document_read h
  unfold readApprovalEvidence
  rw [bind_ok hitem, bind_ok hfields, ApprovalEvidence.make_fields e]
  rfl

omit [Platform] in
theorem readBytes_stored (h : files path = some data) : readBytes files path = .ok data := by
  rw [readBytes, h]

/-- **Approval documents round trip**: what was published is read back equal, and what was published once stays: another
request under its name raises, and no file changes. -/
theorem approvalDocuments_readBack (reader : DocumentReader) (path : FilePath) :
    (∀ (r : ApprovalRequest) files, r.ReadBy reader → (publish reader path r files).outcome = .ok () →
      ∃ r', loadApprovalRequest reader (publish reader path r files).final path = .ok r' ∧ r'.Same r) ∧
    (∀ (e : ApprovalEvidence) files, e.ReadBy reader → (writeApprovalEvidence reader path e files).outcome = .ok () →
      loadApprovalEvidence reader (writeApprovalEvidence reader path e files).final path = .ok e) ∧
    ∀ (r r' : ApprovalRequest) files later, r.ReadBy reader → r'.ReadBy reader →
      (publish reader path r files).outcome = .ok () → later path = (publish reader path r files).final path → ¬ r'.Same r →
      ∃ error, publish reader path r' later = ⟨[], later, .error error⟩ := by
  refine ⟨fun r files h hok => ?_, fun e files h hok => ?_, fun r r' files later h h' hok hlater hne => ?_⟩
  · rw [publish_eq] at hok ⊢
    obtain ⟨r', hread, hsame⟩ := readApprovalRequest_document h
    refine ⟨r', ?_, hsame⟩
    unfold loadApprovalRequest
    rw [bind_ok (readBytes_stored (writeOnce_ok hok)), hread]
  · rw [writeApprovalEvidence_eq] at hok ⊢
    unfold loadApprovalEvidence
    rw [bind_ok (readBytes_stored (writeOnce_ok hok)), readApprovalEvidence_document h]
  · rw [publish_eq] at hok hlater
    rw [publish_eq]
    have hdocument : r.document ≠ r'.document := fun heq => hne (ApprovalRequest.document_inj h' h heq.symm)
    exact writeOnce_taken (hlater.trans (writeOnce_ok hok)) hdocument

end ReadBack

/-! ## A request and its evidence -/

section Ascii

attribute [local instance] Platform.ascii

/-- A reader of the two times of a day. -/
def dayReader : DocumentReader :=
  { plainReader with
    dateTime := fun s =>
      if s = draftMorning.time.isoformat then some draftMorning.time
      else if s = draftEvening.time.isoformat then some draftEvening.time
      else none }

def summarizedFields : Dict Value :=
  Dict.ofList [("tool_id", .str "draft-tool"), ("lines", .list [.dict [("quantity", .int 2), ("note", .null)]])]

theorem summarizedFields_clean : findCredentialPath Platform.word "$" (.dict summarizedFields.entries) = none :=
  findCredentialPath_plain _ _ _ (by decide +kernel)

theorem summarizedFields_safe : areSafeFields summarizedFields.entries = true := by decide

/-- A request that expires, with a summary of its lines. -/
def summarizedDraft : ApprovalRequest :=
  { requestedDraft firstIntent with
    expiresAt          := some draftEvening
    displaySafeSummary := summarizedFields
    summaryClean       := summarizedFields_clean
    summarySafe        := summarizedFields_safe }

def noFiles : Files := fun _ => none

def documentPath : FilePath := ⟨"state", "approval.json"⟩

theorem draftTimes_apart : draftEvening.time.isoformat ≠ draftMorning.time.isoformat := by decide +kernel

theorem readsMorning : ApprovalDocuments.ReadsInstant dayReader draftMorning := by
  unfold ApprovalDocuments.ReadsInstant dayReader
  dsimp only
  rw [if_pos rfl]

theorem readsEvening : ApprovalDocuments.ReadsInstant dayReader draftEvening := by
  unfold ApprovalDocuments.ReadsInstant dayReader
  dsimp only
  rw [if_neg draftTimes_apart, if_pos rfl]

theorem requestedDraft_readBy (intent : RequiredText) : (requestedDraft intent).ReadBy dayReader :=
  ⟨fun t ht => (by cases ht), List.nodup_nil, trivial⟩

theorem summarizedDraft_readBy : summarizedDraft.ReadBy dayReader := by
  refine ⟨fun t ht => ?_, ?_⟩
  · cases ht
    exact readsEvening
  · have hkeys : KeysOnce (wireFields summarizedFields.entries) := by
      unfold KeysOnce
      decide
    have hline : KeysOnce (wireFields [("quantity", .int 2), ("note", .null)]) := by
      unfold KeysOnce
      decide
    exact ⟨hkeys, trivial, ⟨⟨hline, trivial, trivial, trivial⟩, trivial⟩, trivial⟩

theorem waitingEvidence_readBy : waitingEvidence.ReadBy dayReader := by
  refine ⟨readsMorning, fun t ht => ?_⟩
  cases ht
  exact readsEvening

theorem draftDocuments_readBack :
    (∃ r', loadApprovalRequest dayReader (publish dayReader documentPath summarizedDraft noFiles).final documentPath =
      .ok r' ∧ r'.Same summarizedDraft) ∧
    loadApprovalEvidence dayReader (writeApprovalEvidence dayReader documentPath waitingEvidence noFiles).final documentPath =
      .ok waitingEvidence ∧
    ∃ error, publish dayReader documentPath (requestedDraft firstIntent)
        (publish dayReader documentPath summarizedDraft noFiles).final =
      ⟨[], (publish dayReader documentPath summarizedDraft noFiles).final, .error error⟩ := by
  obtain ⟨hrequest, hevidence, hsecond⟩ := approvalDocuments_readBack dayReader documentPath
  have hpublished : (publish dayReader documentPath summarizedDraft noFiles).outcome = .ok () :=
    (publish_ok_iff summarizedDraft_readBy).2 (.inr ⟨rfl, rfl⟩)
  have hwritten : (writeApprovalEvidence dayReader documentPath waitingEvidence noFiles).outcome = .ok () :=
    (writeApprovalEvidence_ok_iff waitingEvidence_readBy).2 (.inr ⟨rfl, rfl⟩)
  have hdifferent : ¬ (requestedDraft firstIntent).Same summarizedDraft := by
    intro h
    have hexpires := congrArg RequestFields.expiresAt h.1
    cases hexpires
  exact ⟨hrequest _ _ summarizedDraft_readBy hpublished, hevidence _ _ waitingEvidence_readBy hwritten,
    hsecond _ _ _ _ summarizedDraft_readBy (requestedDraft_readBy firstIntent) hpublished rfl hdifferent⟩

end Ascii

end Nsl
