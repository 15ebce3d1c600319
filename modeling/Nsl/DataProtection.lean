import Mathlib.Data.List.Sort
import Nsl.Base.Regex
import Nsl.Value
/-!
# Data protection — credential material and sensitive text

`data_protection.py`: the patterns of credentials in a text, their redaction, and the texts of a value that a message
must not show. The patterns are the source's own, over the backtracking matcher of `Regex`.
-/
namespace Nsl

def REDACTED : String := "[REDACTED]"

/-- `_CREDENTIAL_KEYS` -/
def credentialKeys : List String :=
  ["accesskey", "accesstoken", "apikey", "authorization", "clientsecret", "cookie", "credential", "credentials",
   "idtoken", "password", "passwd", "privatekey", "pwd", "refreshtoken", "secret", "sessiontoken", "token"]

/-! ## Patterns -/

/-- The lower case of a character, where it is ASCII. -/
def foldCase (c : Char) : Char :=
  if c.toNat = 0x130 ∨ c.toNat = 0x131 then 'i'
  else if c.toNat = 0x17F then 's'
  else if c.toNat = 0x212A then 'k'
  else c.toLower

/-- `(?i)` on a class of characters. -/
def anyCase (p : Char → Bool) : Regex := .char (fun c => p c || p (foldCase c))

def anyCaseText (s : String) : Regex := Regex.seqs (s.toList.map (fun c => anyCase (· = c)))

/-- `first[_-]?second` -/
def joined (first second : String) : Regex :=
  Regex.seqs [anyCaseText first, Regex.opt (.char (fun c => c = '_' || c = '-')), anyCaseText second]

/-- `_CREDENTIAL_LABEL` -/
def credentialLabel : Regex :=
  Regex.alts
    [joined "access" "key", joined "access" "token", joined "api" "key", anyCaseText "authorization",
     joined "client" "secret", anyCaseText "cookie", .seq (anyCaseText "credential") (Regex.opt (anyCaseText "s")),
     joined "id" "token", anyCaseText "password", anyCaseText "passwd", joined "private" "key", anyCaseText "pwd",
     joined "refresh" "token", anyCaseText "secret", joined "session" "token", anyCaseText "token"]

def spaces : Regex := .star true (.char Text.isSpace)

/-- `[^\s,;\]}]+` -/
def bareValue : Regex :=
  Regex.plus (.char (fun c => !(Text.isSpace c || c = ',' || c = ';' || c = ']' || c = '}')))

/-- A quoted value on one line. -/
def quotedValue (quote : Char) : Regex :=
  Regex.seqs [.char (· = quote), .star true (.char (fun c => !(c = quote || c = '\r' || c = '\n'))), .char (· = quote)]

def authScheme : Regex := .alt (anyCaseText "bearer") (anyCaseText "basic")

/-- `_KEY_VALUE_PATTERN`; `word` is `\w`. -/
def keyValuePattern (word : Char → Bool) : Regex :=
  Regex.seqs
    [.boundary word, .group 1 credentialLabel, .boundary word,
     .group 2 (Regex.seqs [spaces, .char (fun c => c = ':' || c = '='), spaces]),
     .group 3 (Regex.alts
       [quotedValue '"', quotedValue '\'', Regex.seqs [authScheme, Regex.plus (.char Text.isSpace), bareValue],
        bareValue])]

def isAsciiAlnum (c : Char) : Bool := c.isAlphanum

/-- `_AUTH_SCHEME_PATTERN` -/
def authSchemePattern (word : Char → Bool) : Regex :=
  Regex.seqs
    [.boundary word, .group 1 authScheme, Regex.plus (.char Text.isSpace),
     Regex.plus (anyCase (fun c => isAsciiAlnum c || "._~+/=-".toList.contains c))]

/-- `(?: [A-Z0-9]+)*` -/
def keyKind : Regex :=
  .star true (Regex.seqs [.char (· = ' '), Regex.plus (.char (fun c => c.isUpper || c.isDigit))])

/-- `_PRIVATE_KEY_PATTERN` -/
def privateKeyPattern : Regex :=
  Regex.seqs
    [Regex.text "-----BEGIN", keyKind, Regex.text " PRIVATE KEY-----", .star false (.char (fun _ => true)),
     Regex.text "-----END", keyKind, Regex.text " PRIVATE KEY-----"]

def jwtChar (c : Char) : Bool := isAsciiAlnum c || c = '_' || c = '-'

/-- `_JWT_PATTERN` -/
def jwtPattern : Regex :=
  Regex.seqs
    [.notBehind jwtChar, Regex.text "eyJ", Regex.plus (.char jwtChar), .char (· = '.'), Regex.plus (.char jwtChar),
     .char (· = '.'), Regex.plus (.char jwtChar), .notAhead jwtChar]

/-! ## Redaction -/

section Redaction

-- `word` is `\w`: which characters of the Unicode tables a word is made of
variable (word : Char → Bool)

/-- `_normalized_key` -/
def normalizedKey (key : String) : String :=
  String.ofList ((key.toList.map foldCase).filter (fun c => c.isLower || c.isDigit))

def isCredentialKey (key : String) : Bool := credentialKeys.contains (normalizedKey key)

/-- `text.replace(value, REDACTED)` for a value that is not empty. -/
def replaceValue (text value : List Char) : List Char :=
  Regex.sub (Regex.seqs (value.map (fun c => .char (· = c)))) (fun _ => REDACTED.toList) text

/-- Longer values first. -/
def byLength (values : List String) : List String := values.eraseDups.insertionSort (fun a b => b.length ≤ a.length)

/-- `redact_text(text, sensitive_values)` -/
def redactText (text : String) (sensitiveValues : List String) : String :=
  let t₀ := (byLength sensitiveValues).foldl (fun t v => if v = "" then t else replaceValue t v.toList) text.toList
  let t₁ := Regex.sub privateKeyPattern (fun _ => REDACTED.toList) t₀
  let t₂ := Regex.sub (keyValuePattern word) (fun q => q.group 1 ++ q.group 2 ++ REDACTED.toList) t₁
  let t₃ := Regex.sub (authSchemePattern word) (fun q => q.group 1 ++ ' ' :: REDACTED.toList) t₂
  String.ofList (Regex.sub jwtPattern (fun _ => REDACTED.toList) t₃)

/-- Every pattern of credentials needs a character that the alphabet does not have. -/
def harmless (alphabet : List Char) : Bool :=
  Regex.needsOther alphabet privateKeyPattern && Regex.needsOther alphabet (keyValuePattern word) &&
    Regex.needsOther alphabet (authSchemePattern word) && Regex.needsOther alphabet jwtPattern

/-- **A text over a harmless alphabet holds no credential.** -/
theorem redactText_harmless {alphabet : List Char} (h : harmless word alphabet = true) {text : String}
    (ht : ∀ c ∈ text.toList, c ∈ alphabet) : redactText word text [] = text := by
  simp only [harmless, Bool.and_eq_true] at h
  obtain ⟨⟨⟨hkey, hvalue⟩, hscheme⟩, hjwt⟩ := h
  unfold redactText
  show String.ofList (Regex.sub jwtPattern _ (Regex.sub (authSchemePattern word) _
    (Regex.sub (keyValuePattern word) _ (Regex.sub privateKeyPattern _ text.toList)))) = text
  rw [Regex.sub_eq_self _ hkey ht, Regex.sub_eq_self _ hvalue ht, Regex.sub_eq_self _ hscheme ht,
    Regex.sub_eq_self _ hjwt ht, String.ofList_toList]

mutual
/-- `redact_data`; two keys that redact to one text keep the later value. -/
def redactData : Value → Value
  | .dict items  => .dict (redactFields [] items)
  | .list items  => .list (redactItems items)
  | .tuple items => .tuple (redactItems items)
  | .str s       => .str (redactText word s [])
  | v            => v
def redactItems : List Value → List Value
  | []      => []
  | v :: vs => redactData v :: redactItems vs
def redactFields (acc : List (String × Value)) : List (String × Value) → List (String × Value)
  | []           => acc
  | (k, v) :: vs =>
    redactFields (Dict.setEntry (redactText word k []) (if isCredentialKey k then .str REDACTED else redactData v) acc) vs
end

mutual
/-- Redaction leaves a value that JSON takes one that JSON takes. -/
theorem redactData_isJson : ∀ (v : Value), v.isJson = true → (redactData word v).isJson = true
  | .null, h | .bool _, h | .int _, h | .float _, h => h
  | .str _, _       => rfl
  | .list items, h  => redactItems_json items h
  | .tuple items, h => redactItems_json items h
  | .dict items, h  => redactFields_json [] items rfl h
  | .decimal _, h | .money _, h | .date _, h | .datetime _, h | .foreign _, h => by cases h
theorem redactItems_json : ∀ (vs : List Value), itemsJson vs = true → itemsJson (redactItems word vs) = true
  | [], _      => rfl
  | v :: vs, h => by
    simp only [itemsJson, Bool.and_eq_true] at h
    simp only [redactItems, itemsJson, Bool.and_eq_true]
    exact ⟨redactData_isJson v h.1, redactItems_json vs h.2⟩
theorem redactFields_json (acc : List (String × Value)) : ∀ (vs : List (String × Value)), fieldsJson acc = true →
    fieldsJson vs = true → fieldsJson (redactFields word acc vs) = true
  | [], hacc, _          => hacc
  | (k, v) :: vs, hacc, h => by
    simp only [fieldsJson, Bool.and_eq_true] at h
    have hv : (if isCredentialKey k then .str REDACTED else redactData word v).isJson = true := by
      split
      · rfl
      · exact redactData_isJson v h.1
    exact redactFields_json _ vs (fieldsJson_setEntry _ hv hacc) h.2
end

mutual
/-- `find_credential_path`: the first place that holds credential material. -/
def findCredentialPath (path : String) : Value → Option String
  | .dict items  => findInFields path items
  | .list items  => findInItems path 0 items
  | .tuple items => findInItems path 0 items
  | .str s       => if redactText word s [] = s then none else some path
  | _            => none
def findInItems (path : String) (index : Nat) : List Value → Option String
  | []      => none
  | v :: vs =>
    (findCredentialPath (path ++ "[" ++ Nat.repr index ++ "]") v).orElse (fun _ => findInItems path (index + 1) vs)
def findInFields (path : String) : List (String × Value) → Option String
  | []           => none
  | (k, v) :: vs =>
    if redactText word k [] ≠ k then some (path ++ "." ++ REDACTED)
    else if isCredentialKey k ∧ v ≠ .null ∧ v ≠ .str "" then some (path ++ "." ++ k)
    else (findCredentialPath (path ++ "." ++ k) v).orElse (fun _ => findInFields path vs)
end

/-- Letters, digits, `_` and `-`. -/
def plainAlphabet : List Char := "ABCDEFGHIJKLMNOPQRSTUVWXYZabcdefghijklmnopqrstuvwxyz0123456789_-".toList

theorem plainAlphabet_harmless : harmless word plainAlphabet = true := rfl

/-- A text of plain characters, or one whose own characters are harmless. -/
def isPlainText (s : String) : Bool := s.toList.all plainAlphabet.contains || harmless (fun _ => false) s.toList

theorem redactText_plain {s : String} (h : isPlainText s = true) : redactText word s [] = s := by
  rcases Bool.or_eq_true_iff.1 h with h | h
  · exact redactText_harmless word (plainAlphabet_harmless word)
      (fun c hc => List.contains_iff_mem.1 (List.all_eq_true.1 h c hc))
  -- no pattern asks for a character of `\w`, so which characters these are makes no difference
  · exact redactText_harmless word (show harmless word s.toList = true from h) (fun c hc => hc)

mutual
/-- A value of plain texts without a credential key. -/
def isPlainValue : Value → Bool
  | .dict items  => plainFields items
  | .list items  => plainItems items
  | .tuple items => plainItems items
  | .str s       => isPlainText s
  | _            => true
def plainItems : List Value → Bool
  | []      => true
  | v :: vs => isPlainValue v && plainItems vs
def plainFields : List (String × Value) → Bool
  | []           => true
  | (k, v) :: vs => isPlainText k && !isCredentialKey k && isPlainValue v && plainFields vs
end

mutual
/-- **A plain value holds no credential.** -/
theorem findCredentialPath_plain : ∀ (v : Value) (path : String), isPlainValue v = true →
    findCredentialPath word path v = none
  | .dict items, path, h  => findInFields_plain items path h
  | .list items, path, h  => findInItems_plain items path 0 h
  | .tuple items, path, h => findInItems_plain items path 0 h
  | .str s, path, h       => by
    unfold findCredentialPath
    rw [redactText_plain word h, if_pos rfl]
  | .null, _, _ | .bool _, _, _ | .int _, _, _ | .float _, _, _ | .decimal _, _, _ | .money _, _, _ | .date _, _, _
  | .datetime _, _, _ | .foreign _, _, _ => rfl
theorem findInItems_plain : ∀ (vs : List Value) (path : String) (index : Nat), plainItems vs = true →
    findInItems word path index vs = none
  | [], _, _, _           => rfl
  | v :: vs, path, index, h => by
    obtain ⟨hv, hvs⟩ := Bool.and_eq_true_iff.1 h
    unfold findInItems
    rw [findCredentialPath_plain v _ hv, findInItems_plain vs path (index + 1) hvs]
    rfl
theorem findInFields_plain : ∀ (vs : List (String × Value)) (path : String), plainFields vs = true →
    findInFields word path vs = none
  | [], _, _              => rfl
  | (k, v) :: vs, path, h => by
    simp only [plainFields, Bool.and_eq_true, Bool.not_eq_true'] at h
    obtain ⟨⟨⟨hk, hcredential⟩, hv⟩, hvs⟩ := h
    unfold findInFields
    rw [redactText_plain word hk, hcredential, findCredentialPath_plain v _ hv, findInFields_plain vs path hvs]
    simp
end

/-- `ensure_no_credential_material` -/
def ensureNoCredentialMaterial (value : Value) (surface : String) : Except Exn Unit :=
  match findCredentialPath word "$" value with
  | none      => .ok ()
  | some path => .error (.value ("credential material is forbidden in " ++ surface ++ " at " ++ path))

end Redaction

/-! ## Sensitive text -/

mutual
/-- The texts `visit` collects. A value is encoded before, so no decimal, date or time is left in it. -/
def sensitiveTexts : Value → List String
  | .dict items  => sensitiveFields items
  | .list items  => sensitiveItems items
  | .tuple items => sensitiveItems items
  | .str s       => if s = "" then [] else [s]
  | .int i       => if 4 ≤ (toString i).length then [toString i] else []
  | .float t     => if 4 ≤ t.length then [t] else []
  | _            => []
def sensitiveItems : List Value → List String
  | []      => []
  | v :: vs => sensitiveTexts v ++ sensitiveItems vs
def sensitiveFields : List (String × Value) → List String
  | []           => []
  | (_, v) :: vs => sensitiveTexts v ++ sensitiveFields vs
end

/-- `collect_sensitive_text`, each text once. -/
def collectSensitiveText (value : Value) : List String := (sensitiveTexts value).eraseDups

end Nsl
