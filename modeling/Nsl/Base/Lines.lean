import Mathlib.Data.List.Basic
/-!
# Lines — a text in lines

A text taken apart as `bytes.splitlines` does it: a line ends with `\n`, `\r` or both, and where the text ends after such an
end no further line starts. Lines without an end of their own, each written with one, are read back.
-/
namespace Lines

/-- `splitlines` -/
def splitlines : List Char → List (List Char)
  | []                 => []
  | '\n' :: cs         => [] :: splitlines cs
  | '\r' :: '\n' :: cs => [] :: splitlines cs
  | '\r' :: cs         => [] :: splitlines cs
  | c :: cs            =>
    match splitlines cs with
    | []         => [[c]]
    | line :: ls => (c :: line) :: ls

/-- The lines, each with its end. -/
def join (lines : List (List Char)) : List Char := lines.flatMap (· ++ ['\n'])

/-- A line has no end within. -/
def Unbroken (line : List Char) : Prop := '\n' ∉ line ∧ '\r' ∉ line

theorem Unbroken.cons_iff {c : Char} {cs : List Char} : Unbroken (c :: cs) ↔ (c ≠ '\n' ∧ c ≠ '\r') ∧ Unbroken cs := by
  simp only [Unbroken, List.mem_cons, not_or, ne_comm (a := c)]
  tauto

theorem Unbroken.append {cs ds : List Char} (hc : Unbroken cs) (hd : Unbroken ds) : Unbroken (cs ++ ds) := by
  simp only [Unbroken, List.mem_append, not_or]
  exact ⟨⟨hc.1, hd.1⟩, hc.2, hd.2⟩

theorem splitlines_line : ∀ {line : List Char} (rest : List Char), Unbroken line →
    splitlines (line ++ '\n' :: rest) = line :: splitlines rest
  | [], _, _         => rfl
  | c :: cs, rest, h => by
    obtain ⟨⟨hn, hr⟩, hcs⟩ := Unbroken.cons_iff.1 h
    rw [List.cons_append, splitlines, splitlines_line rest hcs]
    · exact hn
    · intro ds hc
      exact absurd hc hr
    · exact hr

/-- **Lines that were written are read back.** -/
theorem splitlines_join : ∀ {lines : List (List Char)}, (∀ line ∈ lines, Unbroken line) → splitlines (join lines) = lines
  | [], _         => rfl
  | line :: ls, h => by
    have hjoin : join (line :: ls) = line ++ '\n' :: join ls := by simp [join]
    rw [hjoin, splitlines_line _ (h line List.mem_cons_self),
      splitlines_join (fun l hl => h l (List.mem_cons_of_mem _ hl))]

theorem join_append (ls ms : List (List Char)) : join (ls ++ ms) = join ls ++ join ms := List.flatMap_append

end Lines
