import Mathlib.Algebra.Order.Ring.Rat
import Mathlib.Data.Rat.Defs
import Nsl.Base.Text
/-!
# Decimal — numbers of the General Decimal Arithmetic specification

A finite number is a sign, a coefficient and an exponent, so one value has many numbers (`1.0`, `1.00`). `formatF` is
`format(d, "f")`: no exponent is left in the text, and reading the text back gives the number **with its positive
exponent multiplied out** (`parse_formatF`). Exponents and coefficients have no bound here.
-/

inductive Decimal
  | finite (negative : Bool) (coefficient : Nat) (exponent : Int)
  | infinity (negative : Bool)
  | nan (negative signaling : Bool) (payload : Nat)
  deriving DecidableEq, Repr

namespace Decimal

def ofNat (n : Nat) : Decimal := .finite false n 0

def isFinite : Decimal → Bool
  | .finite .. => true
  | _          => false

/-! ## Writing -/

def sign (negative : Bool) : List Char := if negative then ['-'] else []

/-- The digits of a coefficient with at least `width` places. -/
def padded (width n : Nat) : List Char :=
  List.replicate (width - (Nat.toDigits 10 n).length) '0' ++ Nat.toDigits 10 n

/-- `places` digits after the point, and at least one before it. -/
def pointed (n places : Nat) : List Char :=
  let ds := padded (places + 1) n
  ds.take (ds.length - places) ++ '.' :: ds.drop (ds.length - places)

def formatChars : Decimal → List Char
  | .finite neg c e => sign neg ++ if 0 ≤ e then Nat.toDigits 10 (c * 10 ^ e.toNat) else pointed c (-e).toNat
  | .infinity neg   => sign neg ++ "Infinity".toList
  | .nan neg sig p  =>
    sign neg ++ (if sig then "sNaN" else "NaN").toList ++ if p = 0 then [] else Nat.toDigits 10 p

/-- `format(d, "f")`. -/
def formatF (d : Decimal) : String := String.ofList d.formatChars

/-! ## Reading -/

def readSign : List Char → Bool × List Char
  | '-' :: cs => (true, cs)
  | '+' :: cs => (false, cs)
  | cs        => (false, cs)

/-- The longest run of digits and what follows it. -/
def readDigits : List Char → List Nat × List Char
  | []      => ([], [])
  | c :: cs =>
    match Text.digitValue c with
    | some d => (d :: (readDigits cs).1, (readDigits cs).2)
    | none   => ([], c :: cs)

def valueOf (ds : List Nat) : Nat := ds.foldl (fun n d => 10 * n + d) 0

def readFraction : List Char → List Nat × List Char
  | '.' :: cs => readDigits cs
  | cs        => ([], cs)

def readExponent : List Char → Option Int
  | []      => some 0
  | c :: cs =>
    if c = 'e' ∨ c = 'E' then
      match readDigits (readSign cs).2 with
      | (d :: ds, []) => some (if (readSign cs).1 then -valueOf (d :: ds) else valueOf (d :: ds))
      | _             => none
    else none

def readFinite (neg : Bool) (cs : List Char) : Option Decimal :=
  let whole := readDigits cs
  let frac  := readFraction whole.2
  if whole.1 = [] ∧ frac.1 = [] then none
  else (readExponent frac.2).map (fun e => .finite neg (valueOf (whole.1 ++ frac.1)) (e - frac.1.length))

def readNan (neg sig : Bool) (cs : List Char) : Option Decimal :=
  match readDigits cs with
  | (ds, []) => some (.nan neg sig (valueOf ds))
  | _        => none

def readSpecial (neg : Bool) (cs : List Char) : Option Decimal :=
  match cs.map Char.toLower with
  | ['i', 'n', 'f'] | ['i', 'n', 'f', 'i', 'n', 'i', 't', 'y'] => some (.infinity neg)
  | 'n' :: 'a' :: 'n' :: _        => readNan neg false (cs.drop 3)
  | 's' :: 'n' :: 'a' :: 'n' :: _ => readNan neg true (cs.drop 4)
  | _                             => none

/-- White space around the text and underscores in it do not count. -/
def clean (cs : List Char) : List Char := (Text.strip cs).filter (· ≠ '_')

/-- `Decimal(text)`, or none for its `InvalidOperation`. -/
def parse (text : String) : Option Decimal :=
  let signed := readSign (clean text.toList)
  (readFinite signed.1 signed.2).orElse (fun _ => readSpecial signed.1 signed.2)

/-- A positive exponent multiplied out. -/
def fixed : Decimal → Decimal
  | .finite neg c e => if 0 ≤ e then .finite neg (c * 10 ^ e.toNat) 0 else .finite neg c e
  | d               => d

/-! ## The text is read back -/

/-- ASCII digits. -/
def AreDigits (cs : List Char) : Prop := ∀ c ∈ cs, c.isDigit = true

theorem areDigits_toDigits (n : Nat) : AreDigits (Nat.toDigits 10 n) :=
  fun _ hc => Nat.isDigit_of_mem_toDigits (by decide) (by decide) hc

theorem areDigits_padded (width n : Nat) : AreDigits (padded width n) := by
  intro c hc
  rcases List.mem_append.1 hc with hc | hc
  · rw [(List.mem_replicate.1 hc).2]
    rfl
  · exact areDigits_toDigits n c hc

/-- The digits of a text. -/
def digitsOf (cs : List Char) : List Nat := cs.map (fun c => c.toNat - '0'.toNat)

theorem valueOf_digitsOf (cs : List Char) : valueOf (digitsOf cs) = Nat.ofDigitChars 10 cs 0 := by
  unfold valueOf digitsOf
  rw [Nat.ofDigitChars_eq_foldl, List.foldl_map]

/-- **A run of digits is read up to what is no digit.** -/
theorem readDigits_append {rest : List Char} (hrest : ∀ c ∈ rest.head?, Text.digitValue c = none) :
    ∀ {cs : List Char}, AreDigits cs → readDigits (cs ++ rest) = (digitsOf cs, rest)
  | [], _      => by
    cases rest with
    | nil       => rfl
    | cons c cs =>
      rw [List.nil_append, readDigits, hrest c rfl]
      rfl
  | c :: cs, h => by
    have hdigits : AreDigits cs := fun d hd => h d (List.mem_cons_of_mem _ hd)
    rw [List.cons_append, readDigits, Text.digitValue_ascii (h c List.mem_cons_self), readDigits_append hrest hdigits]
    rfl

theorem valueOf_padded (width n : Nat) : valueOf (digitsOf (padded width n)) = n := by
  rw [valueOf_digitsOf, padded, Nat.ofDigitChars_append, Nat.ofDigitChars_replicate_zero, Nat.mul_zero,
    Nat.ofDigitChars_ten_toDigits]

theorem padded_length (width n : Nat) : width ≤ (padded width n).length := by
  rw [padded, List.length_append, List.length_replicate]
  omega

/-- **The digits of a whole number and those after a point are read back.** -/
theorem readFinite_pointed (neg : Bool) (n places : Nat) :
    readFinite neg (pointed n places) = some (.finite neg n (-places)) := by
  have hdigits := areDigits_padded (places + 1) n
  have hlength := padded_length (places + 1) n
  have hvalue := valueOf_padded (places + 1) n
  unfold pointed
  generalize padded (places + 1) n = ds at *
  have hwhole : AreDigits (ds.take (ds.length - places)) := fun c hc => hdigits c (List.mem_of_mem_take hc)
  have hfrac : AreDigits (ds.drop (ds.length - places)) := fun c hc => hdigits c (List.mem_of_mem_drop hc)
  have hpoint : ∀ c ∈ ('.' :: ds.drop (ds.length - places)).head?, Text.digitValue c = none := by
    intro c hc
    cases hc
    rfl
  have hread := readDigits_append hpoint hwhole
  have hrest : readDigits (ds.drop (ds.length - places)) = (digitsOf (ds.drop (ds.length - places)), []) := by
    have hall := @readDigits_append [] (fun c hc => by cases hc) _ hfrac
    rwa [List.append_nil] at hall
  have hfracLength : (digitsOf (ds.drop (ds.length - places))).length = places := by
    rw [digitsOf, List.length_map, List.length_drop]
    omega
  have hthere : digitsOf (ds.take (ds.length - places)) ≠ [] := by
    intro hnil
    have hlen := congrArg List.length hnil
    rw [digitsOf, List.length_map, List.length_take, List.length_nil] at hlen
    omega
  have hall : valueOf (digitsOf (ds.take (ds.length - places)) ++ digitsOf (ds.drop (ds.length - places))) = n := by
    rw [← hvalue]
    unfold digitsOf
    rw [← List.map_append, List.take_append_drop]
  unfold readFinite
  simp only [hread, readFraction, hrest]
  rw [if_neg (fun hc => hthere hc.1), hall, hfracLength]
  simp [readExponent]

theorem readFinite_toDigits (neg : Bool) (n : Nat) : readFinite neg (Nat.toDigits 10 n) = some (.finite neg n 0) := by
  have hread := @readDigits_append [] (fun c hc => by cases hc) _ (areDigits_toDigits n)
  rw [List.append_nil] at hread
  have hthere : digitsOf (Nat.toDigits 10 n) ≠ [] := by
    intro hnil
    have hlen := congrArg List.length hnil
    have hpos := Nat.length_toDigits_pos (b := 10) (n := n)
    rw [digitsOf, List.length_map, List.length_nil] at hlen
    omega
  have hvalue : valueOf (digitsOf (Nat.toDigits 10 n)) = n := by
    rw [valueOf_digitsOf, Nat.ofDigitChars_ten_toDigits]
  unfold readFinite
  simp only [hread, readFraction]
  rw [if_neg (fun hc => hthere hc.1), List.append_nil, hvalue]
  rfl

/-- The characters of a numeral: digits and points. -/
def AreNumeral (cs : List Char) : Prop := ∀ c ∈ cs, c.isDigit = true ∨ c = '.'

theorem areNumeral_pointed (n places : Nat) : AreNumeral (pointed n places) := by
  have hdigits := areDigits_padded (places + 1) n
  intro c hc
  rcases List.mem_append.1 hc with hc | hc
  · exact .inl (hdigits c (List.mem_of_mem_take hc))
  · rcases List.mem_cons.1 hc with rfl | hc
    · exact .inr rfl
    · exact .inl (hdigits c (List.mem_of_mem_drop hc))

/-- Characters that are no white space and no underscores are all kept. -/
theorem clean_eq {cs : List Char} (hspace : ∀ c ∈ cs, Text.isSpace c = false) (hline : ∀ c ∈ cs, c ≠ '_') :
    clean cs = cs := by
  have hdrop : ∀ {ds : List Char}, (∀ c ∈ ds, Text.isSpace c = false) → ds.dropWhile Text.isSpace = ds := by
    intro ds hds
    cases ds with
    | nil       => rfl
    | cons d ds => rw [List.dropWhile_cons, hds d List.mem_cons_self]; rfl
  unfold clean Text.strip
  rw [hdrop hspace, hdrop (fun c hc => hspace c (List.mem_reverse.1 hc)), List.reverse_reverse]
  exact List.filter_eq_self.2 (fun c hc => decide_eq_true (hline c hc))

theorem numeral_plain {c : Char} (h : c.isDigit = true ∨ c = '.') :
    Text.isSpace c = false ∧ c ≠ '_' ∧ c ≠ '-' ∧ c ≠ '+' := by
  rcases h with h | rfl
  · refine ⟨Text.isSpace_ascii h, ?_, ?_, ?_⟩ <;> rintro rfl <;> cases h
  · decide

/-- **A sign and a numeral are read as their number.** -/
theorem parse_signed {neg : Bool} {body : List Char} {d : Decimal} (hbody : AreNumeral body)
    (hread : readFinite neg body = some d) : parse (String.ofList (sign neg ++ body)) = some d := by
  have hplain : ∀ c ∈ sign neg ++ body, Text.isSpace c = false ∧ c ≠ '_' := by
    intro c hc
    rcases List.mem_append.1 hc with hc | hc
    · cases neg with
      | false => cases hc
      | true  =>
        rw [List.mem_singleton.1 hc]
        decide
    · exact ⟨(numeral_plain (hbody c hc)).1, (numeral_plain (hbody c hc)).2.1⟩
  have hsign : readSign (sign neg ++ body) = (neg, body) := by
    cases neg with
    | true  => rfl
    | false =>
      cases body with
      | nil       => rfl
      | cons c cs =>
        obtain ⟨-, -, hminus, hplus⟩ := numeral_plain (hbody c List.mem_cons_self)
        show readSign (c :: cs) = _
        unfold readSign
        split
        · rename_i h
          cases h
          exact absurd rfl hminus
        · rename_i h
          cases h
          exact absurd rfl hplus
        · rfl
  unfold parse
  rw [String.toList_ofList, clean_eq (fun c hc => (hplain c hc).1) (fun c hc => (hplain c hc).2), hsign]
  show (readFinite neg body).orElse _ = _
  rw [hread]
  rfl

/-- **The text of a finite number is read back**, with a positive exponent multiplied out. -/
theorem parse_formatF {d : Decimal} (h : d.isFinite = true) : parse d.formatF = some d.fixed := by
  obtain ⟨neg, c, e⟩ | neg | ⟨neg, s, p⟩ := d
  · simp only [formatF, formatChars, fixed]
    by_cases he : 0 ≤ e
    · rw [if_pos he, if_pos he]
      exact parse_signed (fun c hc => .inl (areDigits_toDigits _ c hc)) (readFinite_toDigits _ _)
    · have hplaces : (-((-e).toNat : Int)) = e := by omega
      rw [if_neg he, if_neg he]
      refine parse_signed (areNumeral_pointed _ _) ?_
      rw [readFinite_pointed, hplaces]
  · cases h
  · cases h

/-! ## Value -/

/-- The value of a finite number. -/
def toRat : Decimal → Option ℚ
  | .finite neg c e => some ((if neg then -1 else 1) * c * (10 : ℚ) ^ e)
  | _               => none

theorem toRat_fixed (d : Decimal) : d.fixed.toRat = d.toRat := by
  cases d with
  | finite neg c e =>
    by_cases he : 0 ≤ e
    · obtain ⟨k, rfl⟩ : ∃ k : Nat, e = k := ⟨e.toNat, by omega⟩
      simp [fixed, toRat, he]
    · simp [fixed, he]
  | infinity neg   => rfl
  | nan neg s p    => rfl

end Decimal
