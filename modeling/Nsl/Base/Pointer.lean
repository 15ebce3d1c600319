import Nsl.Base.Segments
/-!
# Pointer — a place in a tree as one text

The names on the way down from the root, each behind a `/`. In a name `~` stands as `~0` and `/` as `~1`, so that the text
is split into the same names again.
-/
namespace Pointer

def escapeChar (c : Char) : List Char := if c = '~' then ['~', '0'] else if c = '/' then ['~', '1'] else [c]

def escapeChars (cs : List Char) : List Char := cs.flatMap escapeChar

def unescapeChars : List Char → List Char
  | '~' :: '0' :: cs => '~' :: unescapeChars cs
  | '~' :: '1' :: cs => '/' :: unescapeChars cs
  | c :: cs          => c :: unescapeChars cs
  | []               => []

def escape (name : String) : String := String.ofList (escapeChars name.toList)

def unescape (name : String) : String := String.ofList (unescapeChars name.toList)

/-- A position in a list as a name. -/
def ofNat (n : Nat) : String := String.ofList (Nat.toDigits 10 n)

/-- The position a name stands for. -/
def toNat? (name : String) : Option Nat :=
  if name.toList.all Char.isDigit ∧ name ≠ "" then some (Nat.ofDigitChars 10 name.toList 0) else none

/-- The names on the way down, each behind a `/`. -/
def write (names : List String) : String := Text.join "/" ("" :: names)

def read (text : String) : Option (List String) :=
  match Text.split '/' text with
  | first :: names => if first = "" then some names else none
  | []             => none

/-- A name as it stands between two `/`. -/
def Written (name : String) : Prop := '/' ∉ name.toList

/-! ## One name -/

theorem unescapeChars_cons {c : Char} (h : c ≠ '~') (cs : List Char) : unescapeChars (c :: cs) = c :: unescapeChars cs := by
  rw [unescapeChars]
  · rintro ds rfl
    exact absurd rfl h
  · rintro ds rfl
    exact absurd rfl h

theorem unescapeChars_escape : ∀ (cs : List Char), unescapeChars (escapeChars cs) = cs
  | []      => rfl
  | c :: cs => by
    have ih := unescapeChars_escape cs
    unfold escapeChars at ih ⊢
    rw [List.flatMap_cons]
    by_cases htilde : c = '~'
    · subst htilde
      simp [escapeChar, unescapeChars, ih]
    by_cases hslash : c = '/'
    · subst hslash
      simp [escapeChar, unescapeChars, ih]
    have hchar : escapeChar c = [c] := by simp [escapeChar, htilde, hslash]
    rw [hchar, List.singleton_append, unescapeChars_cons htilde, ih]

/-- **A name is read back.** -/
@[simp] theorem unescape_escape (name : String) : unescape (escape name) = name := by
  unfold unescape escape
  rw [String.toList_ofList, unescapeChars_escape, String.ofList_toList]

theorem escape_injective {name name' : String} (h : escape name = escape name') : name = name' := by
  rw [← unescape_escape name, h, unescape_escape]

theorem slash_notMem_escapeChar (c : Char) : '/' ∉ escapeChar c := by
  unfold escapeChar
  split
  · decide
  · split
    · decide
    · rename_i hslash
      exact fun h => hslash (List.mem_singleton.1 h).symm

theorem escape_written (name : String) : Written (escape name) := by
  unfold Written escape escapeChars
  rw [String.toList_ofList]
  intro h
  obtain ⟨c, -, hc⟩ := List.mem_flatMap.1 h
  exact slash_notMem_escapeChar c hc

theorem isDigit_of_mem {n : Nat} {c : Char} (h : c ∈ Nat.toDigits 10 n) : c.isDigit = true :=
  Nat.isDigit_of_mem_toDigits (by decide) (by decide) h

theorem ofNat_written (n : Nat) : Written (ofNat n) := by
  unfold Written ofNat
  rw [String.toList_ofList]
  intro h
  exact absurd (isDigit_of_mem h) (by decide)

/-- **A position is read back.** -/
@[simp] theorem toNat?_ofNat (n : Nat) : toNat? (ofNat n) = some n := by
  have hdigits : (Nat.toDigits 10 n).all Char.isDigit = true := List.all_eq_true.2 fun c hc => isDigit_of_mem hc
  have hne : String.ofList (Nat.toDigits 10 n) ≠ "" := by
    rw [Ne, String.ofList_eq_empty_iff]
    exact Nat.toDigits_ne_nil
  unfold toNat? ofNat
  rw [String.toList_ofList, if_pos ⟨hdigits, hne⟩, Nat.ofDigitChars_ten_toDigits]

theorem ofNat_injective {m n : Nat} (h : ofNat m = ofNat n) : m = n := by
  have hread := toNat?_ofNat m
  rw [h, toNat?_ofNat] at hread
  exact (Option.some.inj hread).symm

/-! ## The way down -/

/-- **The way down is read back.** -/
theorem read_write {names : List String} (h : ∀ name ∈ names, Written name) : read (write names) = some names := by
  have hsplit : Text.split '/' (write names) = "" :: names := by
    refine @Segments.split_join '/' _ (fun s hs => ?_) (List.cons_ne_nil _ _)
    rcases List.mem_cons.1 hs with rfl | hs
    · exact List.not_mem_nil
    · exact h s hs
  simp only [read, hsplit, if_pos]

theorem write_injective {names names' : List String} (h : ∀ name ∈ names, Written name) (h' : ∀ name ∈ names', Written name)
    (heq : write names = write names') : names = names' := by
  have hread := read_write h
  rw [heq, read_write h'] at hread
  exact (Option.some.inj hread).symm

theorem write_nil : write [] = "" := rfl

theorem intercalate_snoc (sep : List Char) (last : List Char) : ∀ (first : List Char) (parts : List (List Char)),
    sep.intercalate (first :: (parts ++ [last])) = sep.intercalate (first :: parts) ++ sep ++ last
  | first, []            => by simp [List.intercalate]
  | first, part :: parts => by
    have ih := intercalate_snoc sep last part parts
    simp only [List.intercalate, List.intersperse, List.cons_append, List.flatten_cons, List.append_assoc] at ih ⊢
    rw [ih]

/-- One name further down. -/
theorem write_snoc (names : List String) (name : String) : write (names ++ [name]) = write names ++ "/" ++ name := by
  apply String.toList_injective
  unfold write Text.join
  rw [String.toList_append, String.toList_append, String.toList_intercalate, String.toList_intercalate, List.map_cons,
    List.map_cons, List.map_append, List.map_singleton, intercalate_snoc]

/-- Below the root the text is not empty. -/
theorem write_ne_empty {names : List String} (h : names ≠ []) : write names ≠ "" := by
  obtain ⟨rest, last, rfl⟩ := names.eq_nil_or_concat.resolve_left h
  rw [List.concat_eq_append, write_snoc]
  intro heq
  have hchars := congrArg String.toList heq
  rw [String.toList_append, String.toList_append] at hchars
  simp at hchars

end Pointer
