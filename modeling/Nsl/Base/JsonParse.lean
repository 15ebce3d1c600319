import Mathlib.Data.List.TakeWhile
import Nsl.Base.Json
/-!
# Json parse — the reader of JSON texts, and that it inverts the writer

A strict reader: a key that an object has twice and a number that is not finite are refused. `float` gives the text a
number with a fraction or an exponent is printed as. **What `dumps` writes, `loads` reads back**, up to the order of
keys (`loads_dumps`), for the documents that `float` prints as they stand.
-/
namespace Json

/-- Why a text is refused. -/
inductive Fault
  | invalid
  | duplicate (key : String)
  | nonFinite (text : String)
  /-- an escaped surrogate without its partner: no character -/
  | loneSurrogate
  deriving DecidableEq, Repr

/-! ## Reading -/

def isWs (c : Char) : Bool := c = ' ' || c = '\t' || c = '\n' || c = '\r'

def skipWs (cs : List Char) : List Char := cs.dropWhile isWs

def hexValue (c : Char) : Option Nat :=
  if '0' ≤ c ∧ c ≤ '9' then some (c.toNat - 48)
  else if 'a' ≤ c ∧ c ≤ 'f' then some (c.toNat - 87)
  else if 'A' ≤ c ∧ c ≤ 'F' then some (c.toNat - 55)
  else none

/-- Four hexadecimal digits. -/
def readHex : List Char → Except Fault (Nat × List Char)
  | a :: b :: c :: d :: cs =>
    match hexValue a, hexValue b, hexValue c, hexValue d with
    | some a, some b, some c, some d => .ok (((a * 16 + b) * 16 + c) * 16 + d, cs)
    | _, _, _, _                     => .error .invalid
  | _ => .error .invalid

/-- The character of an escaped code point; two surrogates make one. -/
def readCodePoint (cs : List Char) : Except Fault (Char × List Char) := do
  let (n, cs) ← readHex cs
  if 0xD800 ≤ n ∧ n ≤ 0xDBFF then
    match cs with
    | '\\' :: 'u' :: cs =>
      let (m, cs) ← readHex cs
      if 0xDC00 ≤ m ∧ m ≤ 0xDFFF then .ok (Char.ofNat (0x10000 + (n - 0xD800) * 0x400 + (m - 0xDC00)), cs)
      else .error .loneSurrogate
    | _ => .error .loneSurrogate
  else if 0xDC00 ≤ n ∧ n ≤ 0xDFFF then .error .loneSurrogate
  else .ok (Char.ofNat n, cs)

/-- What follows a backslash. -/
def readEscape : List Char → Except Fault (Char × List Char)
  | []      => .error .invalid
  | c :: cs =>
    if c = 'u' then readCodePoint cs
    else if c = '"' ∨ c = '\\' ∨ c = '/' then .ok (c, cs)
    else if c = 'b' then .ok (Char.ofNat 8, cs)
    else if c = 'f' then .ok (Char.ofNat 12, cs)
    else if c = 'n' then .ok ('\n', cs)
    else if c = 'r' then .ok ('\r', cs)
    else if c = 't' then .ok ('\t', cs)
    else .error .invalid

/-- One character of a string that does not end here. -/
def readChar (c : Char) (cs : List Char) : Except Fault (Char × List Char) :=
  if c = '\\' then readEscape cs
  else if c.toNat < 32 then .error .invalid
  else .ok (c, cs)

/-- The rest of a string, from behind its opening quote; the number bounds the characters to read. -/
def readChars : Nat → List Char → Except Fault (List Char × List Char)
  | 0, _           => .error .invalid
  | _ + 1, []      => .error .invalid
  | n + 1, c :: cs =>
    if c = '"' then .ok ([], cs)
    else do
      let (d, rest) ← readChar c cs
      let (ds, rest) ← readChars n rest
      return (d :: ds, rest)

def readStr (cs : List Char) : Except Fault (String × List Char) := do
  let (ds, rest) ← readChars (cs.length + 1) cs
  return (String.ofList ds, rest)

def readDigits (cs : List Char) : List Char × List Char := (cs.takeWhile Char.isDigit, cs.dropWhile Char.isDigit)

/-- The digits of an integer: a zero alone, or digits that do not start with one. -/
def readWhole : List Char → List Char × List Char
  | []      => ([], [])
  | c :: cs => if c = '0' then (['0'], cs) else readDigits (c :: cs)

/-- A fraction, when there is one. -/
def readFraction : List Char → List Char × List Char
  | '.' :: cs =>
    let digits := readDigits cs
    if digits.1 = [] then ([], '.' :: cs) else ('.' :: digits.1, digits.2)
  | cs        => ([], cs)

def readSign : List Char → List Char × List Char
  | '-' :: cs => (['-'], cs)
  | '+' :: cs => (['+'], cs)
  | cs        => ([], cs)

/-- An exponent, when there is one. -/
def readExponent : List Char → List Char × List Char
  | []      => ([], [])
  | c :: cs =>
    let signed := readSign cs
    let digits := readDigits signed.2
    if (c = 'e' ∨ c = 'E') ∧ digits.1 ≠ [] then (c :: signed.1 ++ digits.1, digits.2) else ([], c :: cs)

def signed (negative : Bool) (n : Nat) : Int := if negative then -n else n

section Reader

variable (float : List Char → String)

/-- A number behind its minus sign. -/
def readMagnitude (negative : Bool) (cs : List Char) : Except Fault (Json × List Char) :=
  let whole := readWhole cs
  let frac  := readFraction whole.2
  let exp   := readExponent frac.2
  if whole.1 = [] then .error .invalid
  else if frac.1 = [] ∧ exp.1 = [] then .ok (.int (signed negative (Nat.ofDigitChars 10 whole.1 0)), exp.2)
  else .ok (.float (float ((if negative then ['-'] else []) ++ whole.1 ++ frac.1 ++ exp.1)), exp.2)

def readNumber : List Char → Except Fault (Json × List Char)
  | '-' :: cs => readMagnitude float true cs
  | cs        => readMagnitude float false cs

/-- What follows a literal name, when the text starts with it. -/
def afterName (name : String) (cs : List Char) : Option (List Char) :=
  if name.toList.isPrefixOf cs then some (cs.drop name.length) else none

/-- A literal name or a number. -/
def readScalar (cs : List Char) : Except Fault (Json × List Char) :=
  match afterName "null" cs, afterName "true" cs, afterName "false" cs with
  | some rest, _, _ => .ok (.null, rest)
  | _, some rest, _ => .ok (.bool true, rest)
  | _, _, some rest => .ok (.bool false, rest)
  | none, none, none =>
    if "NaN".toList.isPrefixOf cs then .error (.nonFinite "NaN")
    else if "Infinity".toList.isPrefixOf cs then .error (.nonFinite "Infinity")
    else if "-Infinity".toList.isPrefixOf cs then .error (.nonFinite "-Infinity")
    else readNumber float cs

/-- The first key that is there a second time. -/
def firstDuplicate : List String → List String → Option String
  | _, []         => none
  | seen, k :: ks => if k ∈ seen then some k else firstDuplicate (k :: seen) ks

/-- `unique_object` -/
def uniqueObject (fields : List (String × Json)) : Except Fault Json :=
  match firstDuplicate [] (fields.map Prod.fst) with
  | some key => .error (.duplicate key)
  | none     => .ok (.obj fields)

mutual
/-- A value; the number bounds the depth of the calls. -/
def readValue : Nat → List Char → Except Fault (Json × List Char)
  | 0, _           => .error .invalid
  | _ + 1, []      => .error .invalid
  | n + 1, c :: cs =>
    if c = '"' then do
      let (s, rest) ← readStr cs
      return (.str s, rest)
    else if c = '[' then
      match skipWs cs with
      | ']' :: rest => .ok (.arr [], rest)
      | rest        => do
        let (xs, rest) ← readItems n rest
        return (.arr xs, rest)
    else if c = '{' then
      match skipWs cs with
      | '}' :: rest => .ok (.obj [], rest)
      | rest        => do
        let (fields, rest) ← readFields n rest
        let object ← uniqueObject fields
        return (object, rest)
    else readScalar float (c :: cs)
def readItems : Nat → List Char → Except Fault (List Json × List Char)
  | 0, _      => .error .invalid
  | n + 1, cs => do
    let (x, rest) ← readValue n cs
    match skipWs rest with
    | ',' :: rest => do
      let (xs, rest) ← readItems n (skipWs rest)
      return (x :: xs, rest)
    | ']' :: rest => return ([x], rest)
    | _           => .error .invalid
def readFields : Nat → List Char → Except Fault (List (String × Json) × List Char)
  | 0, _      => .error .invalid
  | n + 1, cs =>
    match cs with
    | '"' :: cs => do
      let (key, rest) ← readStr cs
      match skipWs rest with
      | ':' :: rest => do
        let (x, rest) ← readValue n (skipWs rest)
        match skipWs rest with
        | ',' :: rest => do
          let (fields, rest) ← readFields n (skipWs rest)
          return ((key, x) :: fields, rest)
        | '}' :: rest => return ([(key, x)], rest)
        | _           => .error .invalid
      | _ => .error .invalid
    | _ => .error .invalid
end

/-- `json.loads(text)` with the hooks of a strict reader. -/
def loads (text : String) : Except Fault Json := do
  let (value, rest) ← readValue float (2 * text.toList.length + 2) (skipWs text.toList)
  if skipWs rest = [] then return value else .error .invalid

end Reader
/-! ## Where a token ends -/

/-- What may follow a value in a canonical text. -/
def Stops : List Char → Prop
  | []     => True
  | c :: _ => c = ',' ∨ c = ']' ∨ c = '}'

theorem Stops.head {c : Char} {cs : List Char} (h : Stops (c :: cs)) : c.isDigit = false ∧ c ≠ '.' ∧ c ≠ 'e' ∧
    c ≠ 'E' ∧ c ≠ '-' ∧ c ≠ '+' ∧ c ≠ '0' := by
  rcases h with rfl | rfl | rfl <;> decide

section Stops

variable {rest : List Char} (hrest : Stops rest)
include hrest

theorem readDigits_append : ∀ (cs : List Char), readDigits (cs ++ rest) = ((readDigits cs).1, (readDigits cs).2 ++ rest)
  | []      => by
    cases rest with
    | nil       => rfl
    | cons c ds =>
      have hc : c.isDigit = false := hrest.head.1
      simp [readDigits, hc]
  | c :: cs => by
    have ih := readDigits_append cs
    simp only [readDigits, Prod.mk.injEq] at ih
    cases hc : c.isDigit <;> simp [readDigits, hc, ih.1, ih.2]

theorem readWhole_append : ∀ (cs : List Char), readWhole (cs ++ rest) = ((readWhole cs).1, (readWhole cs).2 ++ rest)
  | []      => by
    cases rest with
    | nil       => rfl
    | cons c ds =>
      have hc : c.isDigit = false := hrest.head.1
      simp [readWhole, hrest.head.2.2.2.2.2.2, readDigits, hc]
  | c :: cs => by
    by_cases hc : c = '0'
    · simp [readWhole, hc]
    · have h := readDigits_append hrest (c :: cs)
      rw [List.cons_append] at h
      simp [readWhole, hc, h]

theorem readFraction_append : ∀ (cs : List Char),
    readFraction (cs ++ rest) = ((readFraction cs).1, (readFraction cs).2 ++ rest)
  | []      => by
    cases rest with
    | nil       => rfl
    | cons c ds =>
      have hc : c ≠ '.' := hrest.head.2.1
      simp [readFraction, hc]
  | c :: cs => by
    by_cases hc : c = '.'
    · subst hc
      have h := readDigits_append hrest cs
      simp only [List.cons_append, readFraction, h]
      split <;> rfl
    · simp [readFraction, hc]

theorem readSign_append : ∀ (cs : List Char), readSign (cs ++ rest) = ((readSign cs).1, (readSign cs).2 ++ rest)
  | []      => by
    cases rest with
    | nil       => rfl
    | cons c ds => simp [readSign, hrest.head.2.2.2.2.1, hrest.head.2.2.2.2.2.1]
  | c :: cs => by
    by_cases hm : c = '-'
    · subst hm
      rfl
    · by_cases hp : c = '+'
      · subst hp
        rfl
      · simp [readSign, hm, hp]

theorem readExponent_append : ∀ (cs : List Char),
    readExponent (cs ++ rest) = ((readExponent cs).1, (readExponent cs).2 ++ rest)
  | []      => by
    cases rest with
    | nil       => rfl
    | cons c ds =>
      have hc : ¬ (c = 'e' ∨ c = 'E') := not_or.2 ⟨hrest.head.2.2.1, hrest.head.2.2.2.1⟩
      simp [readExponent, hc]
  | c :: cs => by
    have hsign := readSign_append hrest cs
    have hdigits := readDigits_append hrest (readSign cs).2
    simp only [List.cons_append, readExponent, hsign, hdigits]
    split <;> rfl

/-- **A number ends where the text after it starts.** -/
theorem readMagnitude_append (float : List Char → String) (negative : Bool) {cs : List Char} {x : Json}
    (h : readMagnitude float negative cs = .ok (x, [])) : readMagnitude float negative (cs ++ rest) = .ok (x, rest) := by
  simp only [readMagnitude] at h ⊢
  rw [readWhole_append hrest, readFraction_append hrest, readExponent_append hrest]
  by_cases hwhole : (readWhole cs).1 = []
  · rw [if_pos hwhole] at h
    cases h
  · rw [if_neg hwhole] at h ⊢
    by_cases hint : (readFraction (readWhole cs).2).1 = [] ∧ (readExponent (readFraction (readWhole cs).2).2).1 = []
    · rw [if_pos hint] at h ⊢
      simp only [Except.ok.injEq, Prod.mk.injEq] at h
      rw [h.1, h.2]
      rfl
    · rw [if_neg hint] at h ⊢
      simp only [Except.ok.injEq, Prod.mk.injEq] at h
      rw [h.1, h.2]
      rfl

theorem readNumber_append (float : List Char → String) {cs : List Char} {x : Json}
    (h : readNumber float cs = .ok (x, [])) : readNumber float (cs ++ rest) = .ok (x, rest) := by
  cases cs with
  | nil       => cases h
  | cons c cs =>
    by_cases hc : c = '-'
    · subst hc
      exact readMagnitude_append hrest float true h
    · have hneg : ∀ ds, readNumber float (c :: ds) = readMagnitude float false (c :: ds) := by
        intro ds
        simp [readNumber, hc]
      rw [hneg] at h
      rw [List.cons_append, hneg]
      exact readMagnitude_append hrest float false h

end Stops

/-! ## Numbers -/

/-- A text that starts like a number: with a digit, or with a minus and a digit. -/
def StartsNumber : List Char → Prop
  | '-' :: c :: _ => c.isDigit = true
  | c :: _        => c.isDigit = true
  | []            => False

theorem readWhole_head {c : Char} {cs : List Char} (h : (readWhole (c :: cs)).1 ≠ []) : c.isDigit = true := by
  by_cases hc : c = '0'
  · rw [hc]
    rfl
  · cases hd : c.isDigit with
    | true  => rfl
    | false => simp [readWhole, hc, readDigits, hd] at h

theorem readMagnitude_head {float : List Char → String} {negative : Bool} {cs : List Char} {r : Json × List Char}
    (h : readMagnitude float negative cs = .ok r) : ∃ c ds, cs = c :: ds ∧ c.isDigit = true := by
  have hwhole : (readWhole cs).1 ≠ [] := by
    intro hnil
    simp only [readMagnitude] at h
    rw [if_pos hnil] at h
    cases h
  cases cs with
  | nil       => exact absurd rfl hwhole
  | cons c ds => exact ⟨c, ds, rfl, readWhole_head hwhole⟩

theorem readNumber_starts {float : List Char → String} {cs : List Char} {r : Json × List Char}
    (h : readNumber float cs = .ok r) : StartsNumber cs := by
  unfold readNumber at h
  split at h
  · obtain ⟨c, ds, rfl, hc⟩ := readMagnitude_head h
    exact hc
  · rename_i hneg
    obtain ⟨c, ds, rfl, hc⟩ := readMagnitude_head h
    unfold StartsNumber
    split
    · rename_i heq
      simp only [List.cons.injEq] at heq
      exact absurd heq.1 (fun hm => hneg ds (by rw [hm]))
    · rename_i heq
      simp only [List.cons.injEq] at heq
      exact heq.1 ▸ hc
    · rename_i heq
      cases heq

theorem StartsNumber.append {cs : List Char} (h : StartsNumber cs) (rest : List Char) : StartsNumber (cs ++ rest) := by
  unfold StartsNumber at h
  split at h
  · exact h
  · rename_i c ds hneg
    simp only [StartsNumber, List.cons_append]
    split
    · rename_i heq
      simp only [List.cons.injEq] at heq
      rw [heq.1] at h
      cases h
    · rename_i heq
      simp only [List.cons.injEq] at heq
      exact heq.1 ▸ h
    · rename_i heq
      cases heq
  · exact h.elim

/-- No name starts like a number. -/
theorem readScalar_number (float : List Char → String) {cs : List Char} (h : StartsNumber cs) :
    readScalar float cs = readNumber float cs := by
  have hdigit : ∀ (c d : Char), c.isDigit = true → d.isDigit = false → (d == c) = false := by
    intro c d hc hd
    by_contra hcon
    rw [Bool.not_eq_false, beq_iff_eq] at hcon
    rw [hcon, hc] at hd
    cases hd
  unfold StartsNumber at h
  split at h
  · rename_i c ds
    have hI := hdigit c 'I' h rfl
    simp [readScalar, afterName, List.isPrefixOf, hI]
  · rename_i c ds hneg
    have hn := hdigit c 'n' h rfl
    have ht := hdigit c 't' h rfl
    have hf := hdigit c 'f' h rfl
    have hN := hdigit c 'N' h rfl
    have hI := hdigit c 'I' h rfl
    have hm := hdigit c '-' h rfl
    simp [readScalar, afterName, List.isPrefixOf, hn, ht, hf, hN, hI, hm]
  · exact h.elim

theorem toDigits_head {n : Nat} (hn : 0 < n) : ∃ c cs, Nat.toDigits 10 n = c :: cs ∧ c ≠ '0' := by
  induction n using Nat.strongRecOn with
  | _ n ih =>
    by_cases h : n < 10
    · refine ⟨n.digitChar, [], Nat.toDigits_of_lt_base h, ?_⟩
      have hall : ∀ k < 10, 0 < k → k.digitChar ≠ '0' := by decide
      exact hall n h hn
    · have hle : 10 ≤ n := Nat.le_of_not_lt h
      obtain ⟨c, cs, hcs, hc⟩ := ih (n / 10) (Nat.div_lt_self hn (by decide)) (Nat.div_pos hle (by decide))
      refine ⟨c, cs ++ Nat.toDigits 10 (n % 10), ?_, hc⟩
      have hmod : Nat.toDigits 10 (n % 10) = [(n % 10).digitChar] :=
        Nat.toDigits_of_lt_base (Nat.mod_lt n (by decide))
      rw [Nat.toDigits_of_base_le (by decide) hle, hcs, hmod, List.cons_append]

/-- The digits of a number are a whole integer. -/
theorem readWhole_toDigits (n : Nat) : readWhole (Nat.toDigits 10 n) = (Nat.toDigits 10 n, []) := by
  rcases Nat.eq_zero_or_pos n with rfl | hn
  · rfl
  · obtain ⟨c, cs, hcs, hc⟩ := toDigits_head hn
    have hdigits : ∀ d ∈ Nat.toDigits 10 n, d.isDigit = true :=
      fun d hd => Nat.isDigit_of_mem_toDigits (by decide) (by decide) hd
    rw [hcs] at hdigits ⊢
    simp only [readWhole, readDigits]
    rw [if_neg hc, List.takeWhile_eq_self_iff.2 hdigits, List.dropWhile_eq_nil_iff.2 hdigits]

theorem readMagnitude_toDigits (float : List Char → String) (negative : Bool) (n : Nat) :
    readMagnitude float negative (Nat.toDigits 10 n) = .ok (.int (signed negative n), []) := by
  simp only [readMagnitude]
  rw [readWhole_toDigits, if_neg Nat.toDigits_ne_nil]
  show (if ([] : List Char) = [] ∧ ([] : List Char) = [] then _ else _) = _
  rw [if_pos ⟨rfl, rfl⟩, Nat.ofDigitChars_ten_toDigits]
  rfl

theorem readNumber_renderInt (float : List Char → String) : ∀ (i : Int),
    readNumber float (renderInt i) = .ok (.int i, [])
  | .ofNat n   => by
    have h := readMagnitude_toDigits float false n
    obtain ⟨c, cs, hcs, hc⟩ := readMagnitude_head h
    have hm : c ≠ '-' := by
      intro hm
      rw [hm] at hc
      cases hc
    rw [renderInt]
    rw [hcs] at h ⊢
    simp [readNumber, hm, h, signed]
  | .negSucc n => by
    rw [renderInt, readNumber, readMagnitude_toDigits]
    rfl

/-! ## Strings -/

theorem hexValue_hexDigit : ∀ n < 16, hexValue (hexDigit n) = some n := by decide

theorem readHex_control {n : Nat} (hn : n < 32) (cs : List Char) :
    readHex ('0' :: '0' :: hexDigit (n / 16) :: hexDigit (n % 16) :: cs) = .ok (n, cs) := by
  have h0 : hexValue '0' = some 0 := by decide
  have hhigh : hexValue (hexDigit (n / 16)) = some (n / 16) := hexValue_hexDigit _ (by omega)
  have hlow : hexValue (hexDigit (n % 16)) = some (n % 16) := hexValue_hexDigit _ (Nat.mod_lt n (by decide))
  simp only [readHex, h0, hhigh, hlow]
  rw [show ((0 * 16 + 0) * 16 + n / 16) * 16 + n % 16 = n by omega]

theorem char_ofNat_of_toNat {c : Char} {n : Nat} (h : c.toNat = n) : Char.ofNat n = c := by
  rw [← h]
  exact Char.ofNat_toNat c

/-- **A character is read back from its escape.** -/
theorem readChars_escapeChar (n : Nat) (c : Char) {cs ds rest : List Char} (h : readChars n cs = .ok (ds, rest)) :
    readChars (n + 1) (escapeChar c ++ cs) = .ok (c :: ds, rest) := by
  -- an escape of two characters: a backslash and what `readEscape` takes for `c`
  have hescape : ∀ tail, readEscape tail = .ok (c, cs) → readChars (n + 1) ('\\' :: tail) = .ok (c :: ds, rest) := by
    intro tail htail
    rw [readChars, if_neg (by decide), readChar, if_pos rfl, htail]
    show (readChars n cs >>= _) = _
    rw [h]
    rfl
  unfold escapeChar
  split
  · rename_i hc
    subst hc
    exact hescape _ rfl
  split
  · rename_i hc
    subst hc
    exact hescape _ rfl
  split
  · rename_i hc
    subst hc
    exact hescape _ rfl
  split
  · rename_i hc
    subst hc
    exact hescape _ rfl
  split
  · rename_i hc
    subst hc
    exact hescape _ rfl
  split
  · rename_i hc
    refine hescape _ ?_
    rw [← char_ofNat_of_toNat hc]
    rfl
  split
  · rename_i hc
    refine hescape _ ?_
    rw [← char_ofNat_of_toNat hc]
    rfl
  split
  · rename_i hc
    refine hescape _ ?_
    show readCodePoint ('0' :: '0' :: hexDigit (c.toNat / 16) :: hexDigit (c.toNat % 16) :: cs) = _
    rw [readCodePoint, readHex_control hc]
    show (if 0xD800 ≤ c.toNat ∧ c.toNat ≤ 0xDBFF then _ else _) = _
    rw [if_neg (by omega), if_neg (by omega), Char.ofNat_toNat]
  · rename_i hquote hback hn hr ht hb hf hcontrol
    rw [List.singleton_append, readChars, if_neg hquote, readChar, if_neg hback, if_neg hcontrol]
    show (readChars n cs >>= _) = _
    rw [h]
    rfl

theorem readChars_render (rest : List Char) : ∀ (cs : List Char) (n : Nat), cs.length < n →
    readChars n (cs.flatMap escapeChar ++ '"' :: rest) = .ok (cs, rest)
  | [], n + 1, _      => by
    rw [List.flatMap_nil, List.nil_append, readChars, if_pos rfl]
  | c :: cs, n + 1, h => by
    rw [List.flatMap_cons, List.append_assoc]
    exact readChars_escapeChar n c (readChars_render rest cs n (Nat.lt_of_succ_lt_succ h))

theorem escapeChar_length (c : Char) : 1 ≤ (escapeChar c).length := by
  unfold escapeChar
  repeat' split
  all_goals exact Nat.le_add_left 1 _

theorem length_le_escaped : ∀ (cs : List Char), cs.length ≤ (cs.flatMap escapeChar).length
  | []      => Nat.le_refl 0
  | c :: cs => by
    have hc := escapeChar_length c
    have ih := length_le_escaped cs
    rw [List.flatMap_cons, List.length_append, List.length_cons]
    omega

theorem readStr_render (s : String) (rest : List Char) :
    readStr (s.toList.flatMap escapeChar ++ '"' :: rest) = .ok (s, rest) := by
  have hlen := length_le_escaped s.toList
  have hread := readChars_render rest s.toList ((s.toList.flatMap escapeChar ++ '"' :: rest).length + 1) (by
    rw [List.length_append]
    omega)
  unfold readStr
  rw [hread]
  show Except.ok (String.ofList s.toList, rest) = _
  rw [String.ofList_toList]

/-! ## Documents -/

section Documents

variable (float : List Char → String)

mutual
/-- A document that is read back as it stands: keys once, and numbers that `float` leaves alone. -/
def Printed : Json → Prop
  | .float t    => readNumber float t.toList = .ok (.float t, [])
  | .arr xs     => PrintedItems xs
  | .obj fields => KeysOnce fields ∧ PrintedFields fields
  | .null | .bool _ | .int _ | .str _ => True
def PrintedItems : List Json → Prop
  | []      => True
  | x :: xs => Printed x ∧ PrintedItems xs
def PrintedFields : List (String × Json) → Prop
  | []           => True
  | (_, x) :: xs => Printed x ∧ PrintedFields xs
end

theorem firstDuplicate_none : ∀ (ks seen : List String), ks.Nodup → (∀ k ∈ ks, k ∉ seen) →
    firstDuplicate seen ks = none
  | [], _, _, _                  => rfl
  | k :: ks, seen, hnodup, hseen => by
    rw [List.nodup_cons] at hnodup
    rw [firstDuplicate, if_neg (hseen k List.mem_cons_self)]
    refine firstDuplicate_none ks _ hnodup.2 (fun j hj => ?_)
    rw [List.mem_cons, not_or]
    exact ⟨fun h => hnodup.1 (h ▸ hj), hseen j (List.mem_cons_of_mem _ hj)⟩

theorem uniqueObject_once {fields : List (String × Json)} (h : KeysOnce fields) :
    uniqueObject fields = .ok (.obj fields) := by
  unfold uniqueObject
  rw [firstDuplicate_none _ [] h (fun _ _ => List.not_mem_nil)]

theorem stops_comma (cs : List Char) : Stops (',' :: cs) := .inl rfl

theorem stops_bracket (cs : List Char) : Stops (']' :: cs) := .inr (.inl rfl)

theorem stops_brace (cs : List Char) : Stops ('}' :: cs) := .inr (.inr rfl)

/-- A text that starts with no white space and opens no string, array or object. -/
theorem readValue_scalar {n : Nat} {c : Char} {cs : List Char} (hquote : c ≠ '"') (harr : c ≠ '[') (hobj : c ≠ '{') :
    readValue float (n + 1) (c :: cs) = readScalar float (c :: cs) := by
  rw [readValue, if_neg hquote, if_neg harr, if_neg hobj]

theorem StartsNumber.cases {cs : List Char} (h : StartsNumber cs) : ∃ c ds, cs = c :: ds ∧ (c = '-' ∨ c.isDigit = true) := by
  unfold StartsNumber at h
  split at h
  · exact ⟨_, _, rfl, .inl rfl⟩
  · exact ⟨_, _, rfl, .inr h⟩
  · exact h.elim

theorem ne_of_number {c d : Char} (h : c = '-' ∨ c.isDigit = true) (hd : d ≠ '-' ∧ d.isDigit = false) : c ≠ d := by
  rintro rfl
  rcases h with h | h
  · exact hd.1 h
  · rw [hd.2] at h
    cases h

theorem readValue_number {n : Nat} {cs rest : List Char} {x : Json} (h : readNumber float cs = .ok (x, []))
    (hrest : Stops rest) : readValue float (n + 1) (cs ++ rest) = .ok (x, rest) := by
  have hstarts := (readNumber_starts h).append rest
  have hread := readNumber_append hrest float h
  rw [← readScalar_number float hstarts] at hread
  obtain ⟨c, ds, hcs, hc⟩ := hstarts.cases
  rw [hcs] at hread ⊢
  rw [readValue_scalar float (ne_of_number hc (by decide)) (ne_of_number hc (by decide)) (ne_of_number hc (by decide)),
    hread]

theorem skipWs_cons {c : Char} {cs : List Char} (h : isWs c = false) : skipWs (c :: cs) = c :: cs := by
  unfold skipWs
  rw [List.dropWhile_cons, h]
  rfl

/-- The first character of a document: no white space, and nothing that closes an array or an object. -/
theorem render_head : ∀ {x : Json}, Printed float x → ∃ c cs, render x = c :: cs ∧ isWs c = false ∧ c ≠ ']' ∧ c ≠ '}'
  | .null, _ | .bool true, _ | .bool false, _ | .str _, _ | .arr _, _ | .obj _, _ => ⟨_, _, rfl, by decide⟩
  | .int i, _   => by
    obtain ⟨c, cs, hcs, hc⟩ := (readNumber_starts (readNumber_renderInt float i)).cases
    refine ⟨c, cs, hcs, ?_, ne_of_number hc (by decide), ne_of_number hc (by decide)⟩
    simp [isWs, ne_of_number hc (show ' ' ≠ '-' ∧ _ by decide), ne_of_number hc (show '\t' ≠ '-' ∧ _ by decide),
      ne_of_number hc (show '\n' ≠ '-' ∧ _ by decide), ne_of_number hc (show '\r' ≠ '-' ∧ _ by decide)]
  | .float t, h => by
    obtain ⟨c, cs, hcs, hc⟩ := (readNumber_starts h).cases
    refine ⟨c, cs, hcs, ?_, ne_of_number hc (by decide), ne_of_number hc (by decide)⟩
    simp [isWs, ne_of_number hc (show ' ' ≠ '-' ∧ _ by decide), ne_of_number hc (show '\t' ≠ '-' ∧ _ by decide),
      ne_of_number hc (show '\n' ≠ '-' ∧ _ by decide), ne_of_number hc (show '\r' ≠ '-' ∧ _ by decide)]

theorem render_length {x : Json} (h : Printed float x) : 1 ≤ (render x).length := by
  obtain ⟨c, cs, hcs, -⟩ := render_head float h
  rw [hcs]
  exact Nat.le_add_left 1 _

theorem renderItems_head {x : Json} (h : Printed float x) (xs : List Json) :
    ∃ c cs, renderItems (x :: xs) = c :: cs ∧ isWs c = false ∧ c ≠ ']' := by
  obtain ⟨c, cs, hcs, hws, hc, -⟩ := render_head float h
  cases xs with
  | nil       => exact ⟨c, cs, hcs, hws, hc⟩
  | cons y ys =>
    refine ⟨c, cs ++ ',' :: renderItems (y :: ys), ?_, hws, hc⟩
    rw [renderItems, hcs, List.cons_append]

theorem renderFields_head (k : String) (x : Json) (fs : List (String × Json)) :
    ∃ cs, renderFields ((k, x) :: fs) = renderStr k ++ ':' :: cs := by
  cases fs with
  | nil       => exact ⟨_, rfl⟩
  | cons f fs => exact ⟨render x ++ ',' :: renderFields (f :: fs), List.append_assoc _ _ _⟩

theorem renderStr_cons (s : String) (rest : List Char) :
    renderStr s ++ rest = '"' :: (s.toList.flatMap escapeChar ++ '"' :: rest) := by
  unfold renderStr
  rw [List.cons_append, List.cons_append, List.append_assoc, List.singleton_append]

/-- What the reader does behind an opening bracket or brace that is not closed at once. -/
theorem readValue_arr {n : Nat} {c : Char} {cs : List Char} (hws : isWs c = false) (hc : c ≠ ']') :
    readValue float (n + 1) ('[' :: c :: cs) =
      (readItems float n (c :: cs) >>= fun (xs, rest) => pure (.arr xs, rest)) := by
  rw [readValue, if_neg (by decide), if_pos rfl, skipWs_cons hws]
  split
  · rename_i heq
    simp only [List.cons.injEq] at heq
    exact absurd heq.1 hc
  · rfl

theorem readValue_obj {n : Nat} {c : Char} {cs : List Char} (hws : isWs c = false) (hc : c ≠ '}') :
    readValue float (n + 1) ('{' :: c :: cs) =
      (readFields float n (c :: cs) >>= fun (fields, rest) =>
        uniqueObject fields >>= fun object => pure (object, rest)) := by
  rw [readValue, if_neg (by decide), if_neg (by decide), if_pos rfl, skipWs_cons hws]
  split
  · rename_i heq
    simp only [List.cons.injEq] at heq
    exact absurd heq.1 hc
  · rfl

mutual
/-- **A document is read back from its text**, whatever a canonical text has after it. -/
theorem readValue_render : ∀ (x : Json) (n : Nat) (rest : List Char), Printed float x → Stops rest →
    2 * (render x).length ≤ n + 1 → readValue float (n + 1) (render x ++ rest) = .ok (x, rest)
  | .null, _, _, _, _, _            => rfl
  | .bool true, _, _, _, _, _       => rfl
  | .bool false, _, _, _, _, _      => rfl
  | .int i, _, _, _, hrest, _       => readValue_number float (readNumber_renderInt float i) hrest
  | .float _, _, _, h, hrest, _     => readValue_number float h hrest
  | .str s, n, rest, _, _, _        => by
    rw [render, renderStr_cons, readValue, if_pos rfl, readStr_render]
    rfl
  | .arr [], _, _, _, _, _          => rfl
  | .arr (x :: xs), n, rest, h, _, hn => by
    rw [render, List.length_append, List.length_cons, List.length_singleton] at hn
    obtain ⟨m, rfl⟩ : ∃ m, n = m + 1 := ⟨n - 1, by omega⟩
    have hitems := readItems_render x xs m rest h (by omega)
    obtain ⟨c, cs, hcs, hws, hc⟩ := renderItems_head float h.1 xs
    simp only [render, List.cons_append, List.append_assoc, List.nil_append]
    rw [hcs, List.cons_append] at hitems ⊢
    rw [readValue_arr float hws hc, hitems]
    rfl
  | .obj [], _, _, _, _, _          => rfl
  | .obj ((k, x) :: fs), n, rest, h, _, hn => by
    rw [render, List.length_append, List.length_cons, List.length_singleton] at hn
    obtain ⟨m, rfl⟩ : ∃ m, n = m + 1 := ⟨n - 1, by omega⟩
    have hfields := readFields_render k x fs m rest h.2 (by omega)
    obtain ⟨cs, hcs⟩ := renderFields_head k x fs
    simp only [render, List.cons_append, List.append_assoc, List.nil_append]
    rw [hcs, List.append_assoc, renderStr_cons] at hfields ⊢
    rw [readValue_obj float (by decide) (by decide), hfields]
    show (uniqueObject ((k, x) :: fs) >>= _) = _
    rw [uniqueObject_once h.1]
    rfl
termination_by _ n => n
theorem readItems_render : ∀ (x : Json) (xs : List Json) (n : Nat) (rest : List Char), PrintedItems float (x :: xs) →
    2 * (renderItems (x :: xs)).length ≤ n →
    readItems float (n + 1) (renderItems (x :: xs) ++ ']' :: rest) = .ok (x :: xs, rest)
  | x, [], n, rest, h, hn      => by
    have hx := render_length float h.1
    rw [renderItems] at hn ⊢
    obtain ⟨m, rfl⟩ : ∃ m, n = m + 1 := ⟨n - 1, by omega⟩
    rw [readItems, readValue_render x m (']' :: rest) h.1 (stops_bracket rest) hn]
    rfl
  | x, y :: ys, n, rest, h, hn => by
    rw [renderItems, List.length_append, List.length_cons] at hn
    obtain ⟨m, rfl⟩ : ∃ m, n = m + 1 := ⟨n - 1, by omega⟩
    have hys := readItems_render y ys m rest h.2 (by omega)
    obtain ⟨c, cs, hcs, hws, -⟩ := renderItems_head float h.2.1 ys
    rw [renderItems, List.append_assoc, List.cons_append, readItems,
      readValue_render x m _ h.1 (stops_comma _) (by omega)]
    show (readItems float (m + 1) (skipWs (renderItems (y :: ys) ++ ']' :: rest)) >>= _) = _
    rw [hcs, List.cons_append] at hys ⊢
    rw [skipWs_cons hws, hys]
    rfl
termination_by _ _ n => n
theorem readFields_render : ∀ (k : String) (x : Json) (fs : List (String × Json)) (n : Nat) (rest : List Char),
    PrintedFields float ((k, x) :: fs) → 2 * (renderFields ((k, x) :: fs)).length ≤ n →
    readFields float (n + 1) (renderFields ((k, x) :: fs) ++ '}' :: rest) = .ok ((k, x) :: fs, rest)
  | k, x, [], n, rest, h, hn      => by
    obtain ⟨c, cs, hcs, hws, -⟩ := render_head float h.1
    rw [renderFields, List.length_append, List.length_cons] at hn
    obtain ⟨m, rfl⟩ : ∃ m, n = m + 1 := ⟨n - 1, by omega⟩
    have hx := readValue_render x m ('}' :: rest) h.1 (stops_brace rest) (by omega)
    rw [renderFields, List.append_assoc, renderStr_cons, readFields, readStr_render]
    show (readValue float (m + 1) (skipWs (render x ++ '}' :: rest)) >>= _) = _
    rw [hcs, List.cons_append] at hx ⊢
    rw [skipWs_cons hws, hx]
    rfl
  | k, x, (j, y) :: ys, n, rest, h, hn => by
    obtain ⟨c, cs, hcs, hws, -⟩ := render_head float h.1
    rw [renderFields, List.length_append, List.length_cons, List.length_append, List.length_cons] at hn
    obtain ⟨m, rfl⟩ : ∃ m, n = m + 1 := ⟨n - 1, by omega⟩
    have hys := readFields_render j y ys m rest h.2 (by omega)
    obtain ⟨ds, hds⟩ := renderFields_head j y ys
    have hx := readValue_render x m (',' :: (renderFields ((j, y) :: ys) ++ '}' :: rest)) h.1 (stops_comma _) (by omega)
    simp only [renderFields, List.cons_append, List.append_assoc]
    rw [renderStr_cons, readFields, readStr_render]
    show (readValue float (m + 1) (skipWs (render x ++ ',' :: (renderFields ((j, y) :: ys) ++ '}' :: rest))) >>= _) = _
    rw [hcs, List.cons_append] at hx ⊢
    rw [skipWs_cons hws, hx]
    show (readFields float (m + 1) (skipWs (renderFields ((j, y) :: ys) ++ '}' :: rest)) >>= _) = _
    rw [hds, List.append_assoc, renderStr_cons] at hys ⊢
    rw [skipWs_cons (by decide), hys]
    rfl
termination_by _ _ _ n => n
end

/-! ## Sorting the keys -/

theorem sortKeys_perm {α : Type} (fields : List (String × α)) : (sortKeys fields).Perm fields :=
  List.perm_insertionSort _ _

theorem sortKeys_once {α : Type} {fields : List (String × α)} (h : KeysOnce fields) : KeysOnce (sortKeys fields) :=
  ((sortKeys_perm fields).map Prod.fst).nodup_iff.2 h

theorem sortedFields_keys : ∀ (fields : List (String × Json)),
    (sortedFields fields).map Prod.fst = fields.map Prod.fst
  | []           => rfl
  | (k, x) :: fs => by rw [sortedFields, List.map_cons, List.map_cons, sortedFields_keys fs]

theorem printedFields_iff : ∀ (fields : List (String × Json)),
    PrintedFields float fields ↔ ∀ f ∈ fields, Printed float f.2
  | []           => by simp [PrintedFields]
  | (k, x) :: fs => by rw [PrintedFields, printedFields_iff fs, List.forall_mem_cons]

mutual
/-- Sorting the keys keeps a document one that is read back. -/
theorem sorted_printed : ∀ (x : Json), Printed float x → Printed float x.sorted
  | .null, h | .bool _, h | .int _, h | .float _, h | .str _, h => h
  | .arr xs, h     => sortedItems_printed xs h
  | .obj fields, h => by
    have hkeys : KeysOnce (sortedFields fields) := by
      unfold KeysOnce
      rw [sortedFields_keys]
      exact h.1
    refine ⟨sortKeys_once hkeys, (printedFields_iff float _).2 (fun f hf => ?_)⟩
    exact (printedFields_iff float _).1 (sortedFields_printed fields h.2) f ((sortKeys_perm _).mem_iff.1 hf)
theorem sortedItems_printed : ∀ (xs : List Json), PrintedItems float xs → PrintedItems float (sortedItems xs)
  | [], _      => trivial
  | x :: xs, h => ⟨sorted_printed x h.1, sortedItems_printed xs h.2⟩
theorem sortedFields_printed : ∀ (fields : List (String × Json)), PrintedFields float fields →
    PrintedFields float (sortedFields fields)
  | [], _           => trivial
  | (_, x) :: fs, h => ⟨sorted_printed x h.1, sortedFields_printed fs h.2⟩
end

/-- **The reader inverts the writer.** -/
theorem loads_dumps {x : Json} (h : Printed float x) : loads float (dumps x) = .ok x.sorted := by
  have hp := sorted_printed float x h
  obtain ⟨c, cs, hcs, hws, -⟩ := render_head float hp
  have hread := readValue_render float x.sorted (2 * (render x.sorted).length + 1) [] hp trivial (by omega)
  rw [List.append_nil] at hread
  unfold loads dumps
  rw [String.toList_ofList, hcs, skipWs_cons hws, ← hcs, hread]
  rfl

end Documents

/-- Sorting the keys of an object changes no answer. -/
theorem lookup_sortKeys {α : Type} {fields : List (String × α)} (h : KeysOnce fields) (k : String) :
    (sortKeys fields).lookup k = fields.lookup k := lookup_perm (sortKeys_perm fields) (sortKeys_once h) k

theorem lookup_sortedFields (k : String) : ∀ (fields : List (String × Json)),
    (sortedFields fields).lookup k = (fields.lookup k).map sorted
  | []           => rfl
  | (l, x) :: fs => by
    rw [sortedFields, List.lookup_cons, List.lookup_cons, lookup_sortedFields k fs]
    cases k == l <;> rfl

/-- What an object with its keys in order answers. -/
theorem get?_sorted {fields : List (String × Json)} (h : KeysOnce fields) (k : String) :
    (sorted (.obj fields)).get? k = (fields.lookup k).map sorted := by
  have hkeys : KeysOnce (sortedFields fields) := by
    unfold KeysOnce
    rw [sortedFields_keys]
    exact h
  show (sortKeys (sortedFields fields)).lookup k = _
  rw [lookup_sortKeys hkeys, lookup_sortedFields]

/-- **A canonical text is that of one document**, up to the order of keys. -/
theorem dumps_inj (float : List Char → String) {x y : Json} (hx : Printed float x) (hy : Printed float y)
    (h : dumps x = dumps y) : x.Same y := by
  have hread := loads_dumps float hx
  rw [h, loads_dumps float hy] at hread
  exact (Except.ok.inj hread).symm

/-- Documents that agree up to the order of keys answer alike up to it. -/
theorem Same.lookup {xs ys : List (String × Json)} (h : Same (.obj xs) (.obj ys)) (hx : KeysOnce xs)
    (hy : KeysOnce ys) (k : String) : (xs.lookup k).map sorted = (ys.lookup k).map sorted := by
  rw [← get?_sorted hx, ← get?_sorted hy]
  exact congrArg (·.get? k) h

end Json
