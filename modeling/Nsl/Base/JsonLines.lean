import Nsl.Base.JsonParse
import Nsl.Base.Lines
/-!
# JsonLines — a document on one line

The canonical text of a document that is read back holds no line end: in a string they are escaped, and no number has one.
-/
namespace Json

open Lines (Unbroken)

/-- What was read up to the rest holds no line end. -/
def Passes (cs rest : List Char) : Prop := ∃ taken, cs = taken ++ rest ∧ Unbroken taken

namespace Passes

variable {cs ds rest : List Char}

theorem refl (cs : List Char) : Passes cs cs := ⟨[], rfl, List.not_mem_nil, List.not_mem_nil⟩

theorem trans (h : Passes cs ds) (h' : Passes ds rest) : Passes cs rest := by
  obtain ⟨a, rfl, ha⟩ := h
  obtain ⟨b, rfl, hb⟩ := h'
  refine ⟨a ++ b, (List.append_assoc ..).symm, ?_⟩
  simp only [Unbroken, List.mem_append, not_or]
  exact ⟨⟨ha.1, hb.1⟩, ha.2, hb.2⟩

theorem cons {c : Char} (hc : c ≠ '\n' ∧ c ≠ '\r') (h : Passes cs rest) : Passes (c :: cs) rest := by
  obtain ⟨a, rfl, ha⟩ := h
  exact ⟨c :: a, rfl, Lines.Unbroken.cons_iff.2 ⟨hc, ha⟩⟩

theorem digits (cs : List Char) : Passes cs (readDigits cs).2 := by
  refine ⟨cs.takeWhile Char.isDigit, List.takeWhile_append_dropWhile.symm, fun h => ?_, fun h => ?_⟩
  · exact absurd (List.mem_takeWhile_imp h) (by decide)
  · exact absurd (List.mem_takeWhile_imp h) (by decide)

theorem whole : ∀ (cs : List Char), Passes cs (readWhole cs).2
  | []      => refl []
  | c :: cs => by
    rw [readWhole]
    split
    · rename_i hc
      exact cons (by rw [hc]; decide) (refl cs)
    · exact digits (c :: cs)

theorem fraction (cs : List Char) : Passes cs (readFraction cs).2 := by
  unfold readFraction
  split
  · dsimp only
    split
    · exact refl _
    · exact cons (by decide) (digits _)
  · exact refl _

theorem sign (cs : List Char) : Passes cs (readSign cs).2 := by
  unfold readSign
  split
  · exact cons (by decide) (refl _)
  · exact cons (by decide) (refl _)
  · exact refl _

theorem exponent : ∀ (cs : List Char), Passes cs (readExponent cs).2
  | []      => refl []
  | c :: cs => by
    unfold readExponent
    dsimp only
    split
    · rename_i h
      have hc : c ≠ '\n' ∧ c ≠ '\r' := by rcases h.1 with rfl | rfl <;> decide
      exact cons hc ((sign cs).trans (digits _))
    · exact refl _

theorem magnitude {float : List Char → String} {negative : Bool} {x : Json}
    (h : readMagnitude float negative cs = .ok (x, rest)) : Passes cs rest := by
  have hall := ((whole cs).trans (fraction _)).trans (exponent _)
  unfold readMagnitude at h
  dsimp only at h
  split at h
  · cases h
  · split at h
    · cases h
      exact hall
    · cases h
      exact hall

theorem number {float : List Char → String} {x : Json} (h : readNumber float cs = .ok (x, rest)) : Passes cs rest := by
  unfold readNumber at h
  split at h
  · exact cons (by decide) (magnitude h)
  · exact magnitude h

end Passes

/-- What is a number and nothing else holds no line end. -/
theorem unbroken_of_readNumber {float : List Char → String} {cs : List Char} {x : Json}
    (h : readNumber float cs = .ok (x, [])) : Unbroken cs := by
  obtain ⟨taken, htaken, hunbroken⟩ := Passes.number h
  rw [htaken, List.append_nil]
  exact hunbroken

theorem hexDigit_unbroken : ∀ n < 16, hexDigit n ≠ '\n' ∧ hexDigit n ≠ '\r' := by decide

theorem escapeChar_unbroken (c : Char) : Unbroken (escapeChar c) := by
  unfold escapeChar
  repeat' split
  all_goals first | (exact ⟨by decide, by decide⟩) | skip
  · rename_i hlow
    have hhigh := hexDigit_unbroken (c.toNat / 16) (by omega)
    have hrest := hexDigit_unbroken (c.toNat % 16) (by omega)
    simp [Unbroken, hhigh.1.symm, hhigh.2.symm, hrest.1.symm, hrest.2.symm]
  · rename_i hn hr _ _ _ _
    simp [Unbroken, Ne.symm hn, Ne.symm hr]

theorem renderStr_unbroken (s : String) : Unbroken (renderStr s) := by
  have hall : ∀ cs : List Char, Unbroken (cs.flatMap escapeChar) := by
    intro cs
    induction cs with
    | nil          => exact ⟨List.not_mem_nil, List.not_mem_nil⟩
    | cons c cs ih =>
      rw [List.flatMap_cons]
      exact (escapeChar_unbroken c).append ih
  exact Lines.Unbroken.cons_iff.2 ⟨by decide, (hall _).append ⟨by decide, by decide⟩⟩

variable {float : List Char → String}

mutual
/-- **The text of a document is one line.** -/
theorem render_unbroken : ∀ {x : Json}, Printed float x → Unbroken (render x)
  | .null, _      => ⟨by decide, by decide⟩
  | .bool b, _    => by cases b <;> exact ⟨by decide, by decide⟩
  | .int i, _     => unbroken_of_readNumber (readNumber_renderInt float i)
  | .float _, h   => unbroken_of_readNumber h
  | .str s, _     => renderStr_unbroken s
  | .arr _, h     => Lines.Unbroken.cons_iff.2 ⟨by decide, (renderItems_unbroken h).append ⟨by decide, by decide⟩⟩
  | .obj _, h     => Lines.Unbroken.cons_iff.2 ⟨by decide, (renderFields_unbroken h.2).append ⟨by decide, by decide⟩⟩
theorem renderItems_unbroken : ∀ {xs : List Json}, PrintedItems float xs → Unbroken (renderItems xs)
  | [], _           => ⟨List.not_mem_nil, List.not_mem_nil⟩
  | [_], h          => render_unbroken h.1
  | _ :: y :: ys, h =>
    (render_unbroken h.1).append (Lines.Unbroken.cons_iff.2 ⟨by decide, renderItems_unbroken h.2⟩)
theorem renderFields_unbroken : ∀ {fields : List (String × Json)}, PrintedFields float fields →
    Unbroken (renderFields fields)
  | [], _                => ⟨List.not_mem_nil, List.not_mem_nil⟩
  | [(k, _)], h          => (renderStr_unbroken k).append (Lines.Unbroken.cons_iff.2 ⟨by decide, render_unbroken h.1⟩)
  | (k, _) :: y :: ys, h =>
    ((renderStr_unbroken k).append (Lines.Unbroken.cons_iff.2 ⟨by decide, render_unbroken h.1⟩)).append
      (Lines.Unbroken.cons_iff.2 ⟨by decide, renderFields_unbroken h.2⟩)
end

theorem dumps_unbroken {x : Json} (h : Printed float x) : Unbroken (dumps x).toList := by
  unfold dumps
  rw [String.toList_ofList]
  exact render_unbroken (sorted_printed float x h)

end Json
