import Nsl.Base.Base64Url
import Nsl.Base.Run
import Nsl.JsonBoundary
import Nsl.Security
/-!
# NspSignatures — the signature of a package

`NspSignatureMetadata` (`nsp_signatures.py`): created from a package hash and a signer, written as canonical JSON and read
back strictly. The 86 characters of a signature have four bits more than its 64 bytes, and the reader does not look at them:
a document is the one its signature is written to where they are zero.
-/
namespace Nsl
namespace NspSignatures

open Stateful (bind_eq_ok bind_ok)

def NSP_SIGNATURE_FORMAT : String := "NSP-SIGNATURE"
def NSP_SIGNATURE_SCHEMA_VERSION : String := "1.0"
def NSP_SIGNATURE_ALGORITHM : String := "Ed25519"
def SIGNATURE_DOMAIN : ByteArray := "NSP-SIGNATURE-V1\x00".toUTF8

def KEY_ID_CHARACTERS : List Char := "abcdefghijklmnopqrstuvwxyzABCDEFGHIJKLMNOPQRSTUVWXYZ0123456789._:/-".toList
def BASE64URL_CHARACTERS : List Char := "abcdefghijklmnopqrstuvwxyzABCDEFGHIJKLMNOPQRSTUVWXYZ0123456789-_".toList

/-- `_error`, an `NspSignatureError` -/
def signatureError (path reason : String) : Exn := .value ("invalid NSP signature metadata at " ++ path ++ ": " ++ reason)

/-! ## Fields -/

/-- `_string` -/
def string (value : Json) (path : String) : Except Exn String :=
  match value with
  | .str s => if s = "" then .error (signatureError path "must not be empty") else .ok s
  | _      => .error (signatureError path "expected string")

/-- A text with a check of its own. -/
def checked (accepts : String → Bool) (reason : String) (value : Json) (path : String) : Except Exn String := do
  let text ← string value path
  if accepts text then return text else .error (signatureError path reason)

/-- `_algorithm` -/
def algorithm : Json → String → Except Exn String := checked (· = NSP_SIGNATURE_ALGORITHM) "expected 'Ed25519'"

def isKeyId (s : String) : Bool :=
  s.length ≤ 128 && s.toList.all (fun c => c.toNat < 128) && s.toList.all KEY_ID_CHARACTERS.contains

/-- `_key_id` -/
def keyId : Json → String → Except Exn String := checked isKeyId "expected a safe ASCII key identifier"

/-- `_sha256` -/
def sha256 : Json → String → Except Exn String := checked isDigest "expected lowercase sha256 digest"

def isSignatureText (s : String) : Bool := s.length = 86 && s.toList.all BASE64URL_CHARACTERS.contains

/-- `_signature_b64` -/
def signatureB64 : Json → String → Except Exn String :=
  checked isSignatureText "expected unpadded Ed25519 base64url signature"

/-! ## Metadata -/

structure NspSignatureMetadata where
  format        : String
  schemaVersion : String
  algorithm     : String
  keyId         : String
  packageSha256 : String
  signatureB64  : String
  deriving DecidableEq

structure NspSigner where
  algorithm : String
  keyId     : String
  sign      : ByteArray → Except Exn ByteArray

/-- `signature_message` -/
def signatureMessage (packageSha256 algorithmName keyIdText : String) : Except Exn ByteArray := do
  let packageHash ← sha256 (.str packageSha256) "$.package_sha256"
  let name ← algorithm (.str algorithmName) "$.algorithm"
  let key ← keyId (.str keyIdText) "$.key_id"
  return SIGNATURE_DOMAIN ++
    canonicalBytes (.obj [("algorithm", .str name), ("key_id", .str key), ("package_sha256", .str packageHash)])

/-- `urlsafe_b64encode(signature).decode("ascii").rstrip("=")` -/
def signatureText (signature : ByteArray) : String :=
  String.ofList ((Base64.urlEncode signature.data.toList).rdropWhile (· = '='))

/-- `NspSignatureMetadata.create` -/
def NspSignatureMetadata.create (packageSha256 : String) (signer : NspSigner) : Except Exn NspSignatureMetadata := do
  let packageHash ← sha256 (.str packageSha256) "$.package_sha256"
  let name ← NspSignatures.algorithm (.str signer.algorithm) "$.algorithm"
  let key ← NspSignatures.keyId (.str signer.keyId) "$.key_id"
  match signatureMessage packageHash name key >>= signer.sign with
  | .error error  => .error (if error.isException then .value "NSP signer failed" else error)
  | .ok signature =>
    if signature.size ≠ 64 then .error (.value "NSP Ed25519 signature must be 64 bytes")
    else return ⟨NSP_SIGNATURE_FORMAT, NSP_SIGNATURE_SCHEMA_VERSION, name, key, packageHash, signatureText signature⟩

/-- `signature_bytes` -/
def NspSignatureMetadata.signatureBytes (m : NspSignatureMetadata) : Except Exn ByteArray :=
  match Base64.urlDecode (m.signatureB64.toList ++ ['=', '=']) with
  | none       => .error (signatureError "$.signature" "invalid base64url encoding")
  | some bytes =>
    if bytes.length ≠ 64 then .error (signatureError "$.signature" "Ed25519 signature must be 64 bytes")
    else .ok ⟨bytes.toArray⟩

def metadataFields : List String := ["format", "schema_version", "algorithm", "key_id", "package_sha256", "signature"]

/-- A field that has one value. -/
def fixed (expected : String) (value : Json) (path : String) : Except Exn Unit :=
  if value ≠ .str expected then .error (signatureError path ("expected '" ++ expected ++ "'")) else .ok ()

/-- `NspSignatureMetadata.from_data` -/
def NspSignatureMetadata.fromData (value : Json) : Except Exn NspSignatureMetadata := do
  let entries ← exactEntries signatureError value "$" metadataFields
  let _ ← fixed NSP_SIGNATURE_FORMAT (entry entries "format") "$.format"
  let _ ← fixed NSP_SIGNATURE_SCHEMA_VERSION (entry entries "schema_version") "$.schema_version"
  let name ← NspSignatures.algorithm (entry entries "algorithm") "$.algorithm"
  let key ← NspSignatures.keyId (entry entries "key_id") "$.key_id"
  let packageHash ← sha256 (entry entries "package_sha256") "$.package_sha256"
  let encoded ← NspSignatures.signatureB64 (entry entries "signature") "$.signature"
  let metadata : NspSignatureMetadata :=
    ⟨NSP_SIGNATURE_FORMAT, NSP_SIGNATURE_SCHEMA_VERSION, name, key, packageHash, encoded⟩
  let _ ← metadata.signatureBytes
  return metadata

/-- `to_data` -/
def NspSignatureMetadata.toData (m : NspSignatureMetadata) : Json :=
  .obj [("format", .str m.format), ("schema_version", .str m.schemaVersion), ("algorithm", .str m.algorithm),
    ("key_id", .str m.keyId), ("package_sha256", .str m.packageSha256), ("signature", .str m.signatureB64)]

def encodeSignatureMetadata (m : NspSignatureMetadata) : ByteArray := canonicalBytes m.toData

def decodeSignatureMetadata (float : List Char → String) (data : ByteArray) : Except Exn NspSignatureMetadata := do
  let raw ← loadStrictJson float signatureError data
  let metadata ← NspSignatureMetadata.fromData raw
  if sameBytes data (encodeSignatureMetadata metadata) then return metadata
  else .error (signatureError "$" "signature metadata must use canonical JSON")

/-- The document `create` makes for the signature of another, by a signer that answers with it. -/
def reencode (m : NspSignatureMetadata) : Except Exn ByteArray := do
  let signature ← m.signatureBytes
  let again ← NspSignatureMetadata.create m.packageSha256 ⟨m.algorithm, m.keyId, fun _ => .ok signature⟩
  return encodeSignatureMetadata again

/-! ## What is accepted -/

variable {float : List Char → String}

/-- Metadata that passes every check of `from_data`. -/
structure NspSignatureMetadata.Accepted (m : NspSignatureMetadata) : Prop where
  format        : m.format = NSP_SIGNATURE_FORMAT
  schemaVersion : m.schemaVersion = NSP_SIGNATURE_SCHEMA_VERSION
  algorithm     : m.algorithm ≠ "" ∧ m.algorithm = NSP_SIGNATURE_ALGORITHM
  keyId         : m.keyId ≠ "" ∧ isKeyId m.keyId = true
  packageSha256 : m.packageSha256 ≠ "" ∧ isDigest m.packageSha256 = true
  signatureB64  : m.signatureB64 ≠ "" ∧ isSignatureText m.signatureB64 = true

theorem string_ok_iff {value : Json} {path s : String} : string value path = .ok s ↔ value = .str s ∧ s ≠ "" := by
  unfold string
  split
  · rename_i text
    by_cases hempty : text = ""
    · subst hempty
      simp
    · simp only [hempty, if_false, Except.ok.injEq, Json.str.injEq]
      constructor
      · rintro rfl
        exact ⟨rfl, hempty⟩
      · exact And.left
  · rename_i hother
    constructor
    · intro h
      cases h
    · rintro ⟨rfl, -⟩
      exact absurd rfl (hother s)

/-- What a text that passes is. -/
theorem checked_ok_iff {accepts : String → Bool} {reason : String} {value : Json} {path s : String} :
    checked accepts reason value path = .ok s ↔ value = .str s ∧ s ≠ "" ∧ accepts s = true := by
  unfold checked
  constructor
  · intro h
    obtain ⟨text, htext, h⟩ := bind_eq_ok h
    split at h
    · rename_i haccepts
      cases h
      obtain ⟨hvalue, hne⟩ := string_ok_iff.1 htext
      exact ⟨hvalue, hne, haccepts⟩
    · cases h
  · rintro ⟨hvalue, hne, haccepts⟩
    rw [bind_ok (string_ok_iff.2 ⟨hvalue, hne⟩), if_pos haccepts]
    rfl

theorem base64url_contained : BASE64URL_CHARACTERS.all Base64.urlAlphabet.contains = true := by decide +kernel

theorem base64url_alphabet (c : Char) (h : c ∈ BASE64URL_CHARACTERS) : c ∈ Base64.urlAlphabet :=
  List.contains_iff_mem.1 (List.all_eq_true.1 base64url_contained c h)

/-- **The signature of accepted metadata**: 64 bytes, written as its text with the unused bits of the last character
cleared. -/
theorem signatureBytes_ok {m : NspSignatureMetadata} (h : isSignatureText m.signatureB64 = true) :
    ∃ (signature : ByteArray) (init : List Char) (c : Char), m.signatureBytes = .ok signature ∧ signature.size = 64 ∧
      m.signatureB64.toList = init ++ [c] ∧ c ∈ Base64.urlAlphabet ∧
      signatureText signature = String.ofList (init ++ [Base64.clearUrl c]) := by
  simp only [isSignatureText, Bool.and_eq_true, decide_eq_true_eq, List.all_eq_true, List.contains_iff_mem] at h
  obtain ⟨hlen, hall⟩ := h
  rw [← String.length_toList] at hlen
  obtain hnil | ⟨init, c, htext⟩ := m.signatureB64.toList.eq_nil_or_concat
  · rw [hnil] at hlen
    cases hlen
  rw [List.concat_eq_append] at htext
  rw [htext, List.length_append, List.length_singleton] at hlen
  have hchars : ∀ d ∈ init ++ [c], d ∈ Base64.urlAlphabet := fun d hd => base64url_alphabet d (hall d (htext ▸ hd))
  have hc := hchars c (List.mem_append_right _ (List.mem_singleton_self c))
  obtain ⟨bytes, hdecode, hbytes, hencode⟩ := Base64.urlEncode_urlDecode
    (fun d hd => hchars d (List.mem_append_left _ hd)) hc (by omega)
  have hsize : bytes.length = 64 := by omega
  refine ⟨⟨bytes.toArray⟩, init, c, ?_, ?_, htext, hc, ?_⟩
  · unfold NspSignatureMetadata.signatureBytes
    rw [htext, hdecode]
    exact if_neg (not_not.2 hsize)
  · exact hsize
  · unfold signatureText
    rw [List.toList_toArray, hencode]

theorem NspSignatureMetadata.Accepted.reads {m : NspSignatureMetadata} (h : m.Accepted) (path : String) :
    NspSignatures.algorithm (.str m.algorithm) path = .ok m.algorithm ∧
    NspSignatures.keyId (.str m.keyId) path = .ok m.keyId ∧ sha256 (.str m.packageSha256) path = .ok m.packageSha256 ∧
    NspSignatures.signatureB64 (.str m.signatureB64) path = .ok m.signatureB64 :=
  ⟨checked_ok_iff.2 ⟨rfl, h.algorithm.1, decide_eq_true h.algorithm.2⟩, checked_ok_iff.2 ⟨rfl, h.keyId⟩,
    checked_ok_iff.2 ⟨rfl, h.packageSha256⟩, checked_ok_iff.2 ⟨rfl, h.signatureB64⟩⟩

/-- What `create` makes for a signer whose texts and signature pass. -/
theorem create_ok {m : NspSignatureMetadata} (h : m.Accepted) {signature : ByteArray} (hsize : signature.size = 64) :
    NspSignatureMetadata.create m.packageSha256 ⟨m.algorithm, m.keyId, fun _ => .ok signature⟩ =
      .ok { m with signatureB64 := signatureText signature } := by
  have hname := fun path => (h.reads path).1
  have hkey := fun path => (h.reads path).2.1
  have hpackage := fun path => (h.reads path).2.2.1
  unfold NspSignatureMetadata.create signatureMessage
  rw [bind_ok (hpackage _), bind_ok (hname _), bind_ok (hkey _), bind_ok (hpackage _), bind_ok (hname _), bind_ok (hkey _)]
  have hformat := h.format
  have hversion := h.schemaVersion
  obtain ⟨format, schemaVersion, name, key, packageHash, encoded⟩ := m
  subst hformat hversion
  exact if_neg (not_not.2 hsize)

/-! ## Reading what was written -/

theorem metadataFields_nodup : metadataFields.Nodup := by decide

theorem toData_printed (float : List Char → String) (m : NspSignatureMetadata) : Json.Printed float m.toData :=
  ⟨metadataFields_nodup, trivial, trivial, trivial, trivial, trivial, trivial, trivial⟩

theorem fromData_ok {value : Json} {m : NspSignatureMetadata} (h : NspSignatureMetadata.fromData value = .ok m) :
    m.Accepted := by
  unfold NspSignatureMetadata.fromData at h
  obtain ⟨entries, -, h⟩ := bind_eq_ok h
  obtain ⟨-, -, h⟩ := bind_eq_ok h
  obtain ⟨-, -, h⟩ := bind_eq_ok h
  obtain ⟨name, hname, h⟩ := bind_eq_ok h
  obtain ⟨key, hkey, h⟩ := bind_eq_ok h
  obtain ⟨packageHash, hpackage, h⟩ := bind_eq_ok h
  obtain ⟨encoded, hencoded, h⟩ := bind_eq_ok h
  obtain ⟨-, -, h⟩ := bind_eq_ok h
  cases h
  obtain ⟨-, hne, hequal⟩ := checked_ok_iff.1 hname
  exact ⟨rfl, rfl, ⟨hne, of_decide_eq_true hequal⟩, (checked_ok_iff.1 hkey).2, (checked_ok_iff.1 hpackage).2,
    (checked_ok_iff.1 hencoded).2⟩

theorem fixed_ok (expected path : String) : fixed expected (.str expected) path = .ok () := if_neg (not_not.2 rfl)

theorem fromData_sorted {m : NspSignatureMetadata} (h : m.Accepted) :
    NspSignatureMetadata.fromData m.toData.sorted = .ok m := by
  have hformat := h.format
  have hversion := h.schemaVersion
  obtain ⟨format, schemaVersion, name, key, packageHash, encoded⟩ := m
  subst hformat hversion
  obtain ⟨entries, hentries, hlookup⟩ := @exactEntries_sorted signatureError [("format", .str NSP_SIGNATURE_FORMAT),
    ("schema_version", .str NSP_SIGNATURE_SCHEMA_VERSION), ("algorithm", .str name), ("key_id", .str key),
    ("package_sha256", .str packageHash), ("signature", .str encoded)] "$" metadataFields metadataFields_nodup
    (fun _ => Iff.rfl)
  have hentry : ∀ {k s}, (entries.lookup k = some (.str s)) → entry entries k = .str s := by
    intro k s hk
    rw [entry, hk, Option.getD_some]
  obtain ⟨signature, -, -, hsignature, -⟩ := signatureBytes_ok h.signatureB64.2
  have hname : ∀ path, algorithm (.str name) path = .ok name := fun path => (h.reads path).1
  have hkey : ∀ path, keyId (.str key) path = .ok key := fun path => (h.reads path).2.1
  have hpackage : ∀ path, sha256 (.str packageHash) path = .ok packageHash := fun path => (h.reads path).2.2.1
  have hencoded : ∀ path, signatureB64 (.str encoded) path = .ok encoded := fun path => (h.reads path).2.2.2
  unfold NspSignatureMetadata.fromData NspSignatureMetadata.toData
  rw [bind_ok hentries, hentry (hlookup "format"), bind_ok (fixed_ok _ _), hentry (hlookup "schema_version"),
    bind_ok (fixed_ok _ _), hentry (hlookup "algorithm"), bind_ok (hname _), hentry (hlookup "key_id"), bind_ok (hkey _),
    hentry (hlookup "package_sha256"), bind_ok (hpackage _), hentry (hlookup "signature"), bind_ok (hencoded _)]
  exact bind_ok hsignature _

/-- **The accepted documents** are the canonical texts of accepted metadata. -/
theorem decodeSignatureMetadata_ok_iff {data : ByteArray} {m : NspSignatureMetadata} :
    decodeSignatureMetadata float data = .ok m ↔ m.Accepted ∧ data = encodeSignatureMetadata m := by
  unfold decodeSignatureMetadata
  constructor
  · intro h
    obtain ⟨raw, -, h⟩ := bind_eq_ok h
    obtain ⟨metadata, hmetadata, h⟩ := bind_eq_ok h
    split at h
    · rename_i hcanonical
      cases h
      exact ⟨fromData_ok hmetadata, sameBytes_iff.1 hcanonical⟩
    · cases h
  · rintro ⟨haccepted, rfl⟩
    rw [encodeSignatureMetadata, bind_ok (loadStrictJson_canonical (toData_printed float m)),
      bind_ok (fromData_sorted haccepted)]
    exact if_pos (sameBytes_iff.2 rfl)

/-! ## One text for one signature -/

theorem encodeSignatureMetadata_injective {m m' : NspSignatureMetadata}
    (h : encodeSignatureMetadata m = encodeSignatureMetadata m') : m = m' := by
  have hsame := Json.dumps_inj (fun _ => "") (toData_printed _ m) (toData_printed _ m') (canonicalBytes_inj h)
  have hlookup := Json.Same.lookup hsame metadataFields_nodup metadataFields_nodup
  have hfield : ∀ {s s' : String}, (Json.str s).sorted = (Json.str s').sorted → s = s' := fun hs => Json.str.inj hs
  obtain ⟨format, schemaVersion, name, key, packageHash, encoded⟩ := m
  obtain ⟨format', schemaVersion', name', key', packageHash', encoded'⟩ := m'
  cases hfield (Option.some.inj (hlookup "format"))
  cases hfield (Option.some.inj (hlookup "schema_version"))
  cases hfield (Option.some.inj (hlookup "algorithm"))
  cases hfield (Option.some.inj (hlookup "key_id"))
  cases hfield (Option.some.inj (hlookup "package_sha256"))
  cases hfield (Option.some.inj (hlookup "signature"))
  rfl

/-- The last character of a signature text has no unused bit set. -/
def unusedBitsClear (text : String) : Bool := text.toList.getLast?.any Base64.clearDigits.contains

/-- Two documents of one signature. -/
def SameSignature (m m' : NspSignatureMetadata) : Prop :=
  m.algorithm = m'.algorithm ∧ m.keyId = m'.keyId ∧ m.packageSha256 = m'.packageSha256 ∧
    m.signatureBytes = m'.signatureBytes

/-- **An accepted document is the one its signature is written to exactly where no unused bit is set.** -/
theorem reencode_ok_iff {m : NspSignatureMetadata} (h : m.Accepted) :
    reencode m = .ok (encodeSignatureMetadata m) ↔ unusedBitsClear m.signatureB64 = true := by
  obtain ⟨signature, init, c, hbytes, hsize, htext, hc, hwritten⟩ := signatureBytes_ok h.signatureB64.2
  have hclear := (Base64.urlDigits c hc).2.2.2
  have hbits : unusedBitsClear m.signatureB64 = true ↔ c ∈ Base64.clearDigits := by
    unfold unusedBitsClear
    rw [htext, List.getLast?_concat]
    simp
  have hreencode : reencode m = .ok (encodeSignatureMetadata { m with signatureB64 := signatureText signature }) := by
    unfold reencode
    rw [bind_ok hbytes, bind_ok (create_ok h hsize)]
    rfl
  rw [hreencode, hbits, ← hclear, hwritten]
  constructor
  · intro hsame
    have hmetadata := congrArg NspSignatureMetadata.signatureB64 (encodeSignatureMetadata_injective (Except.ok.inj hsame))
    have hchars := congrArg String.toList hmetadata
    rw [String.toList_ofList, htext] at hchars
    exact List.singleton_inj.1 (List.append_cancel_left hchars)
  · intro hsame
    rw [hsame, ← htext, String.ofList_toList]

/-- Accepted documents of one signature differ in the last character of its text alone. -/
theorem encode_eq_iff {m m' : NspSignatureMetadata} (h : m.Accepted) (h' : m'.Accepted) (hsame : SameSignature m m') :
    encodeSignatureMetadata m = encodeSignatureMetadata m' ↔
      m.signatureB64.toList.getLast? = m'.signatureB64.toList.getLast? := by
  obtain ⟨signature, init, c, hbytes, -, htext, -, hwritten⟩ := signatureBytes_ok h.signatureB64.2
  obtain ⟨signature', init', c', hbytes', -, htext', -, hwritten'⟩ := signatureBytes_ok h'.signatureB64.2
  obtain ⟨hname, hkey, hpackage, hequal⟩ := hsame
  have hsignature : signature = signature' := by
    rw [hbytes, hbytes'] at hequal
    exact Except.ok.inj hequal
  have hinit : init = init' := by
    rw [← hsignature, hwritten] at hwritten'
    exact (List.append_inj' (String.ofList_injective hwritten') rfl).1
  constructor
  · intro hencode
    rw [encodeSignatureMetadata_injective hencode]
  · intro hlast
    rw [htext, htext', List.getLast?_concat, List.getLast?_concat] at hlast
    have hencoded : m.signatureB64 = m'.signatureB64 := by
      rw [← @String.ofList_toList m.signatureB64, htext, hinit, Option.some.inj hlast, ← htext', String.ofList_toList]
    have hmetadata : m = m' := by
      have hformat := h.format.trans h'.format.symm
      have hversion := h.schemaVersion.trans h'.schemaVersion.symm
      cases m
      cases m'
      simp only at hformat hversion hname hkey hpackage hencoded
      rw [hformat, hversion, hname, hkey, hpackage, hencoded]
    rw [hmetadata]

/-- **Canonical but for the unused bits**: an accepted document is what its signature is written to exactly where the last
character has none set, and two accepted documents of one signature are one exactly where they have the same last
character. -/
theorem signature_canonical_iff {data : ByteArray} {m : NspSignatureMetadata}
    (h : decodeSignatureMetadata float data = .ok m) :
    (reencode m = .ok data ↔ unusedBitsClear m.signatureB64 = true) ∧
    ∀ data' m', decodeSignatureMetadata float data' = .ok m' → SameSignature m m' →
      (data = data' ↔ m.signatureB64.toList.getLast? = m'.signatureB64.toList.getLast?) := by
  obtain ⟨haccepted, rfl⟩ := decodeSignatureMetadata_ok_iff.1 h
  refine ⟨reencode_ok_iff haccepted, fun data' m' h' hsame => ?_⟩
  obtain ⟨haccepted', rfl⟩ := decodeSignatureMetadata_ok_iff.1 h'
  exact encode_eq_iff haccepted haccepted' hsame

/-- A document whose signature is 63 zero bytes and what its last two characters say. -/
def zeroSignature (last : Char) : NspSignatureMetadata :=
  ⟨NSP_SIGNATURE_FORMAT, NSP_SIGNATURE_SCHEMA_VERSION, NSP_SIGNATURE_ALGORITHM, "release-1",
    String.ofList ("sha256:".toList ++ List.replicate 64 '0'), String.ofList (List.replicate 85 'A' ++ [last])⟩

theorem zeroSignature_accepted {last : Char} (h : BASE64URL_CHARACTERS.contains last = true) :
    (zeroSignature last).Accepted := by
  have hletter : BASE64URL_CHARACTERS.contains 'A' = true := by decide +kernel
  have hname : NSP_SIGNATURE_ALGORITHM ≠ "" := by decide
  have hkey : "release-1" ≠ "" ∧ isKeyId "release-1" = true := by decide +kernel
  have hpackage : isDigest (zeroSignature last).packageSha256 = true := by
    unfold isDigest isLowerHex zeroSignature
    rw [← String.length_toList, String.toList_ofList]
    simp
  have hencoded : isSignatureText (zeroSignature last).signatureB64 = true := by
    unfold isSignatureText zeroSignature
    rw [← String.length_toList, String.toList_ofList, List.all_append, List.all_replicate, hletter]
    simpa using h
  have hthere : ∀ {s : String}, s.toList ≠ [] → s ≠ "" := by
    rintro s hs rfl
    exact hs rfl
  refine ⟨rfl, rfl, ⟨hname, rfl⟩, hkey, ⟨hthere ?_, hpackage⟩, ⟨hthere ?_, hencoded⟩⟩
  · rw [zeroSignature, String.toList_ofList]
    simp
  · rw [zeroSignature, String.toList_ofList]
    simp

theorem zeroSignature_canonical : reencode (zeroSignature 'A') = .ok (encodeSignatureMetadata (zeroSignature 'A')) :=
  (@signature_canonical_iff String.ofList _ _
    (decodeSignatureMetadata_ok_iff.2 ⟨@zeroSignature_accepted 'A' (by decide +kernel), rfl⟩)).1.2 (by decide +kernel)

/-- Two accepted documents of one signature; the second is not what the signature is written to. -/
theorem zeroSignature_twice :
    decodeSignatureMetadata String.ofList (encodeSignatureMetadata (zeroSignature 'A')) = .ok (zeroSignature 'A') ∧
    decodeSignatureMetadata String.ofList (encodeSignatureMetadata (zeroSignature 'B')) = .ok (zeroSignature 'B') ∧
    SameSignature (zeroSignature 'A') (zeroSignature 'B') ∧
    encodeSignatureMetadata (zeroSignature 'A') ≠ encodeSignatureMetadata (zeroSignature 'B') ∧
    reencode (zeroSignature 'B') ≠ .ok (encodeSignatureMetadata (zeroSignature 'B')) := by
  have ha := @zeroSignature_accepted 'A' (by decide +kernel)
  have hb := @zeroSignature_accepted 'B' (by decide +kernel)
  refine ⟨decodeSignatureMetadata_ok_iff.2 ⟨ha, rfl⟩, decodeSignatureMetadata_ok_iff.2 ⟨hb, rfl⟩, ⟨rfl, rfl, rfl, ?_⟩, ?_, ?_⟩
  · have hbytes : Base64.urlDecode ((zeroSignature 'A').signatureB64.toList ++ ['=', '=']) =
        Base64.urlDecode ((zeroSignature 'B').signatureB64.toList ++ ['=', '=']) := by
      decide +kernel
    unfold NspSignatureMetadata.signatureBytes
    rw [hbytes]
  · intro hequal
    have hencoded := congrArg NspSignatureMetadata.signatureB64 (encodeSignatureMetadata_injective hequal)
    exact absurd hencoded (by decide +kernel)
  · rw [Ne, reencode_ok_iff hb]
    decide +kernel

end NspSignatures
end Nsl
