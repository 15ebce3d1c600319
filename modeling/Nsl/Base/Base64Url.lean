import Mathlib.Data.List.DropRight
import Nsl.Base.Base64
/-!
# Base64Url — reading base64, and its alphabet for URLs

A reader takes four characters at a time; the last group may be padded. It does not look at the bits of the last character
that no byte takes, so several texts are read as the same bytes. The writer's text is the one where these bits are zero.
-/
namespace Base64

/-- The six bits of a character. -/
def sextet (c : Char) : Option Nat := alphabet.idxOf? c

/-- `a2b_base64(text, strict_mode=True)`, or none for its error. -/
def decodeChars : List Char → Option (List UInt8)
  | []               => some []
  | [a, b, '=', '='] => do
    let x ← sextet a
    let y ← sextet b
    return [UInt8.ofNat (x * 4 + y / 16)]
  | [a, b, c, '=']   => do
    let x ← sextet a
    let y ← sextet b
    let z ← sextet c
    return [UInt8.ofNat (x * 4 + y / 16), UInt8.ofNat (y % 16 * 16 + z / 4)]
  | a :: b :: c :: d :: s => do
    let x ← sextet a
    let y ← sextet b
    let z ← sextet c
    let w ← sextet d
    let rest ← decodeChars s
    return UInt8.ofNat (x * 4 + y / 16) :: UInt8.ofNat (y % 16 * 16 + z / 4) :: UInt8.ofNat (z % 4 * 64 + w) :: rest
  | _                => none

/-- The character for a last group of one byte: the four bits no byte takes are cleared. -/
def clearUnused (c : Char) : Char := digit ((sextet c).getD 0 / 16 * 16)

theorem digits_back : alphabet.all (fun c => (sextet c).any (fun n => n < 64 && digit n == c)) = true := by decide +kernel

theorem digits_read (c : Char) (h : c ∈ alphabet) : ∃ n < 64, sextet c = some n ∧ digit n = c := by
  have hback := List.all_eq_true.1 digits_back c h
  cases hsextet : sextet c with
  | none   =>
    rw [hsextet] at hback
    cases hback
  | some n =>
    rw [hsextet, Option.any_some, Bool.and_eq_true, decide_eq_true_eq, beq_iff_eq] at hback
    exact ⟨n, hback.1, rfl, hback.2⟩

theorem pad_notMem : '=' ∉ alphabet := by decide

theorem toNat_ofNat {n : Nat} (h : n < 256) : (UInt8.ofNat n).toNat = n := by
  rw [UInt8.toNat_ofNat']
  exact Nat.mod_eq_of_lt h

/-- **What is written of the bytes read**: the text itself, but for the unused bits of its last character. -/
theorem encodeChars_decodeChars {c : Char} (hc : c ∈ alphabet) : ∀ (init : List Char), (∀ d ∈ init, d ∈ alphabet) →
    init.length % 4 = 1 → ∃ bytes, decodeChars (init ++ [c, '=', '=']) = some bytes ∧
      4 * bytes.length = 3 * init.length + 1 ∧ encodeChars bytes = init ++ [clearUnused c, '=', '=']
  | [], _, hlen              => by cases hlen
  | [a], hinit, _            => by
    obtain ⟨x, hx, hxs, hxd⟩ := digits_read a (hinit a (List.mem_singleton_self a))
    obtain ⟨y, hy, hys, -⟩ := digits_read c hc
    refine ⟨[UInt8.ofNat (x * 4 + y / 16)], ?_, rfl, ?_⟩
    · simp [decodeChars, hxs, hys]
    · have hbyte := toNat_ofNat (n := x * 4 + y / 16) (by omega)
      have hfirst : (x * 4 + y / 16) / 4 = x := by omega
      have hsecond : (x * 4 + y / 16) % 4 * 16 = y / 16 * 16 := by omega
      simp only [encodeChars, hbyte, hfirst, hsecond, hxd, clearUnused, hys, Option.getD_some, List.singleton_append]
  | [_, _], _, hlen          => by cases hlen
  | [_, _, _], _, hlen       => by cases hlen
  | a :: b :: d :: e :: init, hinit, hlen => by
    obtain ⟨x, hx, hxs, hxd⟩ := digits_read a (hinit a (by simp))
    obtain ⟨y, hy, hys, hyd⟩ := digits_read b (hinit b (by simp))
    obtain ⟨z, hz, hzs, hzd⟩ := digits_read d (hinit d (by simp))
    obtain ⟨w, hw, hws, hwd⟩ := digits_read e (hinit e (by simp))
    have hrest : init.length % 4 = 1 := by
      simp only [List.length_cons] at hlen
      omega
    obtain ⟨bytes, hdecode, hbytes, hencode⟩ :=
      encodeChars_decodeChars hc init (fun d hd => hinit d (by simp [hd])) hrest
    refine ⟨UInt8.ofNat (x * 4 + y / 16) :: UInt8.ofNat (y % 16 * 16 + z / 4) :: UInt8.ofNat (z % 4 * 64 + w) :: bytes,
      ?_, ?_, ?_⟩
    · have hpad : e ≠ '=' := by
        rintro rfl
        exact absurd (hinit '=' (by simp)) pad_notMem
      rw [List.cons_append, List.cons_append, List.cons_append, List.cons_append, decodeChars, hdecode, hxs, hys, hzs, hws]
      · rfl
      · exact fun _ he _ => hpad he
      · exact fun he _ => hpad he
    · simp only [List.length_cons]
      omega
    · have h₁ := toNat_ofNat (n := x * 4 + y / 16) (by omega)
      have h₂ := toNat_ofNat (n := y % 16 * 16 + z / 4) (by omega)
      have h₃ := toNat_ofNat (n := z % 4 * 64 + w) (by omega)
      have e₁ : (x * 4 + y / 16) / 4 = x := by omega
      have e₂ : (x * 4 + y / 16) % 4 * 16 + (y % 16 * 16 + z / 4) / 16 = y := by omega
      have e₃ : (y % 16 * 16 + z / 4) % 16 * 4 + (z % 4 * 64 + w) / 64 = z := by omega
      have e₄ : (z % 4 * 64 + w) % 64 = w := by omega
      simp only [encodeChars, h₁, h₂, h₃, e₁, e₂, e₃, e₄, hxd, hyd, hzd, hwd, hencode, List.cons_append]

/-! ## The alphabet for URLs -/

def toUrl (c : Char) : Char := if c = '+' then '-' else if c = '/' then '_' else c

def fromUrl (c : Char) : Char := if c = '-' then '+' else if c = '_' then '/' else c

/-- `urlsafe_b64encode(data)` -/
def urlEncode (data : List UInt8) : List Char := (encodeChars data).map toUrl

/-- `b64decode(text, altchars=b"-_", validate=True)`, or none for its error. -/
def urlDecode (text : List Char) : Option (List UInt8) := decodeChars (text.map fromUrl)

def urlAlphabet : List Char := alphabet.map toUrl

/-- The characters of a last group of one byte with no unused bit set. -/
def clearDigits : List Char := ['A', 'Q', 'g', 'w']

def clearUrl (c : Char) : Char := toUrl (clearUnused (fromUrl c))

theorem urlDigits_back : urlAlphabet.all (fun c => alphabet.contains (fromUrl c) && toUrl (fromUrl c) == c &&
    clearUrl c != '=' && (clearUrl c == c) == clearDigits.contains c) = true := by
  decide +kernel

theorem urlDigits (c : Char) (h : c ∈ urlAlphabet) : fromUrl c ∈ alphabet ∧ toUrl (fromUrl c) = c ∧ clearUrl c ≠ '=' ∧
    (clearUrl c = c ↔ c ∈ clearDigits) := by
  have hback := List.all_eq_true.1 urlDigits_back c h
  simp only [Bool.and_eq_true, beq_iff_eq, bne_iff_ne, List.contains_iff_mem] at hback
  obtain ⟨⟨⟨hstd, htwice⟩, hpad⟩, hclear⟩ := hback
  refine ⟨hstd, htwice, hpad, ?_⟩
  rw [← beq_iff_eq (a := clearUrl c), hclear, List.contains_iff_mem]

/-- **What is written of the bytes read** from a text without its padding. -/
theorem urlEncode_urlDecode {init : List Char} {c : Char} (hinit : ∀ d ∈ init, d ∈ urlAlphabet) (hc : c ∈ urlAlphabet)
    (hlen : init.length % 4 = 1) : ∃ bytes, urlDecode (init ++ [c] ++ ['=', '=']) = some bytes ∧
      4 * bytes.length = 3 * init.length + 1 ∧ (urlEncode bytes).rdropWhile (· = '=') = init ++ [clearUrl c] := by
  obtain ⟨hstd, -, hpad, -⟩ := urlDigits c hc
  have hinitStd : ∀ d ∈ init.map fromUrl, d ∈ alphabet := by
    intro d hd
    obtain ⟨e, he, rfl⟩ := List.mem_map.1 hd
    exact (urlDigits e (hinit e he)).1
  have hback : (init.map fromUrl).map toUrl = init := by
    rw [List.map_map]
    exact (List.map_congr_left fun d hd => (urlDigits d (hinit d hd)).2.1).trans (List.map_id init)
  obtain ⟨bytes, hdecode, hbytes, hencode⟩ :=
    encodeChars_decodeChars hstd (init.map fromUrl) hinitStd (by rw [List.length_map, hlen])
  rw [List.length_map] at hbytes
  refine ⟨bytes, ?_, hbytes, ?_⟩
  · unfold urlDecode
    rw [List.append_assoc, List.map_append]
    exact hdecode
  · unfold urlEncode
    rw [hencode, List.map_append, hback]
    have hwritten : ([clearUnused (fromUrl c), '=', '='].map toUrl) = [clearUrl c, '=', '='] := rfl
    rw [hwritten, List.append_cons, List.append_cons, List.rdropWhile_concat_pos _ _ _ (by simp),
      List.rdropWhile_concat_pos _ _ _ (by simp), List.rdropWhile_concat_neg _ _ _ (by simpa using hpad)]

end Base64
