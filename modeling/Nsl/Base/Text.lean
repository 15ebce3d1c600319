import Mathlib.Algebra.Group.Nat.Defs
import Mathlib.Data.List.Basic
/-!
# Text — what Python's `str` methods see

White space, blank strings, decimal digits and numerals, over the characters of a string.
-/
namespace Text

/-- `str.isspace` of one character. -/
def isSpace (c : Char) : Bool :=
  let n := c.toNat
  (9 ≤ n && n ≤ 13) || (28 ≤ n && n ≤ 32) || n == 0x85 || n == 0xA0 || n == 0x1680 || (0x2000 ≤ n && n ≤ 0x200A) ||
    n == 0x2028 || n == 0x2029 || n == 0x202F || n == 0x205F || n == 0x3000

/-- `not s.strip()`. -/
def isBlank (s : String) : Bool := s.toList.all isSpace

/-- `str.strip` on characters. -/
def strip (cs : List Char) : List Char := ((cs.dropWhile isSpace).reverse.dropWhile isSpace).reverse

/-- The zero of each run of ten decimal digits (`Nd`). -/
def digitZeros : List Nat :=
  [0x30, 0x660, 0x6F0, 0x7C0, 0x966, 0x9E6, 0xA66, 0xAE6, 0xB66, 0xBE6, 0xC66, 0xCE6, 0xD66, 0xDE6, 0xE50, 0xED0, 0xF20,
   0x1040, 0x1090, 0x17E0, 0x1810, 0x1946, 0x19D0, 0x1A80, 0x1A90, 0x1B50, 0x1BB0, 0x1C40, 0x1C50, 0xA620, 0xA8D0, 0xA900,
   0xA9D0, 0xA9F0, 0xAA50, 0xABF0, 0xFF10, 0x104A0, 0x10D30, 0x11066, 0x110F0, 0x11136, 0x111D0, 0x112F0, 0x11450,
   0x114D0, 0x11650, 0x116C0, 0x11730, 0x118E0, 0x11950, 0x11C50, 0x11D50, 0x11DA0, 0x11F50, 0x16A60, 0x16AC0, 0x16B50,
   0x1D7CE, 0x1D7D8, 0x1D7E2, 0x1D7EC, 0x1D7F6, 0x1E140, 0x1E2F0, 0x1E4D0, 0x1E950, 0x1FBF0]

/-- The value of a decimal digit of any script. -/
def digitValue (c : Char) : Option Nat :=
  (digitZeros.find? (fun z => z ≤ c.toNat && c.toNat < z + 10)).map (c.toNat - ·)

/-- The runs of the digits that are no decimal digits: superscripts, subscripts and digits in circles. -/
def digitRuns : List (Nat × Nat) :=
  [(0xB2, 0xB3), (0xB9, 0xB9), (0x1369, 0x1371), (0x19DA, 0x19DA), (0x2070, 0x2070), (0x2074, 0x2079), (0x2080, 0x2089),
   (0x2460, 0x2468), (0x2474, 0x247C), (0x2488, 0x2490), (0x24EA, 0x24EA), (0x24F5, 0x24FD), (0x24FF, 0x24FF),
   (0x2776, 0x277E), (0x2780, 0x2788), (0x278A, 0x2792), (0x10A40, 0x10A43), (0x10E60, 0x10E68), (0x11052, 0x1105A),
   (0x1F100, 0x1F10A)]

/-- `str.isdigit` of one character. -/
def isDigit (c : Char) : Bool :=
  (digitValue c).isSome || digitRuns.any (fun run => run.1 ≤ c.toNat && c.toNat ≤ run.2)

/-- An ASCII digit. -/
theorem digitValue_ascii {c : Char} (h : c.isDigit = true) : digitValue c = some (c.toNat - '0'.toNat) := by
  have hc : 48 ≤ c.toNat ∧ c.toNat ≤ 57 := by
    simpa [Char.isDigit, UInt32.le_iff_toNat_le] using h
  have hfind : digitZeros.find? (fun z => z ≤ c.toNat && c.toNat < z + 10) = some 0x30 := by
    unfold digitZeros
    rw [List.find?_cons_of_pos]
    simpa using ⟨hc.1, by omega⟩
  unfold digitValue
  rw [hfind]
  rfl

/-- White space is no ASCII digit. -/
theorem isSpace_ascii {c : Char} (h : c.isDigit = true) : isSpace c = false := by
  have hc : 48 ≤ c.toNat ∧ c.toNat ≤ 57 := by
    simpa [Char.isDigit, UInt32.le_iff_toNat_le] using h
  simp [isSpace]
  omega

/-- `int(text)` of digits, or none for its `ValueError`. -/
def natOf (cs : List Char) : Option Nat :=
  (cs.mapM digitValue).map (fun ds => ds.foldl (fun n d => 10 * n + d) 0)

/-- `s.split(sep)` at a character. -/
def split (sep : Char) (s : String) : List String := (s.toList.splitOn sep).map String.ofList

/-- `f"{n:0{width}d}"`. -/
def zeroPad (width n : Nat) : String :=
  String.ofList (List.replicate (width - (Nat.toDigits 10 n).length) '0' ++ Nat.toDigits 10 n)

/-- **A padded number is read back**: no two numbers are written alike. -/
theorem zeroPad_injective (width : Nat) {m n : Nat} (h : zeroPad width m = zeroPad width n) : m = n := by
  have hchars := String.ofList_injective h
  have hread := congrArg (fun ds => Nat.ofDigitChars 10 ds 0) hchars
  simpa [Nat.ofDigitChars_append, Nat.ofDigitChars_replicate_zero, Nat.ofDigitChars_ten_toDigits] using hread

theorem one_lt_ten : 1 < 10 := by decide

/-- A number that fits its width has exactly that many digits. -/
theorem zeroPad_length {width n : Nat} (hw : 0 < width) (hn : n < 10 ^ width) : (zeroPad width n).length = width := by
  have hlen : (Nat.toDigits 10 n).length ≤ width := (Nat.length_toDigits_le_iff one_lt_ten hw).2 hn
  rw [zeroPad, String.length_ofList, List.length_append, List.length_replicate]
  omega

/-- Texts of one length are told apart from what follows them. -/
theorem append_split {s s' t t' : String} (h : s ++ t = s' ++ t') (hl : s.length = s'.length) : s = s' ∧ t = t' := by
  have hchars := congrArg String.toList h
  rw [String.toList_append, String.toList_append] at hchars
  obtain ⟨hs, ht⟩ := List.append_inj hchars (by rw [String.length_toList, String.length_toList, hl])
  exact ⟨String.toList_injective hs, String.toList_injective ht⟩

/-- A padded number is told apart from what follows it. -/
theorem zeroPad_append_inj {width m n : Nat} {t t' : String} (hw : 0 < width) (hm : m < 10 ^ width) (hn : n < 10 ^ width)
    (h : zeroPad width m ++ t = zeroPad width n ++ t') : m = n ∧ t = t' := by
  obtain ⟨hpad, ht⟩ := append_split h (by rw [zeroPad_length hw hm, zeroPad_length hw hn])
  exact ⟨zeroPad_injective width hpad, ht⟩

/-- `sep.join(parts)`. -/
def join (sep : String) (parts : List String) : String := String.intercalate sep parts

end Text
