import Nsl.ParserReads
import Nsl.ParserSections
/-!
# Parser strings — an accepted parse read by kind exactly when every string stands in place

The end of the input is asked for by its text like any other word, so a string `<eof>` ends a parse before the input does.
With every string in place the parser reads up to the first end of the input and takes each string for a string.
-/
namespace Nsl

open Stateful (Run Trace)

namespace Parser

variable {tokens : List Token}

theorem reads_skillHead (fuel : Nat) : Reads tokens (At (fun b => b = [])) (skillHead fuel) (fun _ => At Calm) := by
  have hhead : ∀ b, b = [Token.keyword .language] → Calm b := fun b hb => hb ▸ calm_keyword rfl rfl []
  have hlanguage : Spelled "language" (At (fun b => b = [])) (fun b => b = [.keyword .language]) :=
    spelled_keyword .language rfl (fun _ hb => calm_of_nil hb) (fun b hb => congrArg (Token.keyword .language :: ·) hb)
  refine (reads_expect hlanguage).bind (fun _ => ?_)
  refine (reads_expect (g := fun b => ∃ name, b = [.identifier name, .keyword .language] ∧ name.text = "NSL")
    (spelled_name (by decide) (fun k => by cases k <;> decide) (by decide) hhead
      (fun b name hb hname => ⟨name, by rw [hb], hname⟩))).bind (fun _ => ?_)
  refine (reads_expectString (g := Calm) (fun b s hb => ?_)).bind (fun languageVersion => ?_)
  · obtain ⟨name, rfl, hname⟩ := hb
    have hlast : lastKeyword [.identifier name, .keyword .language] = some .language := rfl
    refine ⟨?_, calm_other rfl rfl (fun _ => rfl)⟩
    unfold stringPlace
    rw [hlast]
    simp [Keyword.takesExpression, Token.named, Token.asIdentifier?, hname]
  refine (reads_expect (spelled_closing .semicolon rfl (fun _ hb => hb))).bind (fun _ => ?_)
  have hquiet : Quiet .skill := by decide
  refine (reads_expect (spelled_said .skill rfl rfl rfl (fun _ hb => hb))).bind (fun _ => ?_)
  refine (reads_qualifiedName fuel (g := Said .skill) (fun _ _ hb => quiet_cons hquiet hb.1 rfl) (fun _ hb => hb.2)
    (fun _ _ hb => quiet_cons hquiet (quiet_cons hquiet hb.1 rfl).1 rfl)).bind (fun skillId => ?_)
  exact (reads_expect (spelled_said_mark hquiet .lbrace)).bind (fun _ => reads_done (fun _ hc => hc.2))

/-! ## The end of the input -/

/-- Everything behind the cursor was read by its kind, the first end of the input last. -/
def ReadToEnd (tokens : List Token) (c : Cursor) : Prop :=
  (∀ t ∈ c.taken, t.2 = .word → t.1.isString = false) ∧
    (c.taken.map Prod.fst).reverse = tokens.takeWhile (fun t => decide (t ≠ .eof)) ++ [.eof]

/-- **The parse took each string for a string and every token up to the first end of the input, and no more.** -/
def ReadsByKind (mode : ParseMode) (tokens : List Token) : Prop :=
  ReadToEnd tokens (parse (fuelFor tokens) mode (start tokens)).final

/-- Where a parse ends: it read to the end by kind exactly if every string stands in place. -/
def Finished (tokens : List Token) (c : Cursor) : Prop := ReadToEnd tokens c ↔ stringsInPlace [] tokens = true

theorem Clean.takeWhile {r : List (Token × Role)} (h : Clean r) (ahead : List Token) :
    ((r.map Prod.fst).reverse ++ .eof :: ahead).takeWhile (fun t => decide (t ≠ .eof)) = (r.map Prod.fst).reverse := by
  have hpass : ∀ t ∈ (r.map Prod.fst).reverse, decide (t ≠ .eof) = true :=
    fun t ht => decide_eq_true (h.noEof t (List.mem_reverse.1 ht))
  rw [List.takeWhile_append_of_pos hpass]
  simp

/-- A string astray leaves the parse unfinished on both sides. -/
theorem finished_of_astray {c : Cursor} (hwhole : (c.taken.map Prod.fst).reverse ++ c.ahead = tokens)
    (h : Astray c.taken) : Finished tokens c := by
  have hplace := h.notInPlace c.ahead
  rw [hwhole] at hplace
  obtain ⟨t, ht, hword, hstring⟩ := h.word
  constructor
  · intro hread
    have hno := hread.1 t ht hword
    rw [hstring] at hno
    cases hno
  · intro hyes
    rw [hplace] at hyes
    cases hyes

theorem finished_of_clean {r : List (Token × Role)} {ahead : List Token}
    (hwhole : (r.map Prod.fst).reverse ++ .eof :: ahead = tokens) (h : Clean r) :
    Finished tokens ⟨(.eof, .word) :: r, ahead⟩ := by
  subst hwhole
  refine iff_of_true ⟨fun t ht hword => ?_, ?_⟩ ?_
  · rcases List.mem_cons.1 ht with rfl | ht
    · rfl
    · exact h.words t ht hword
  · rw [h.takeWhile]
    exact List.reverse_cons
  · rw [h.inPlace]
    rfl

theorem finishes_expect :
    Run.Triple (Reading tokens (At Calm)) (expect "<eof>") (fun _ => Finished tokens) (fun _ _ => True) := by
  rintro ⟨taken, ahead⟩ ⟨hwhole, hc⟩
  rcases ahead with _ | ⟨t, ahead⟩
  · trivial
  by_cases ht : t.text = some "<eof>"
  · have hrun : expect "<eof>" ⟨taken, t :: ahead⟩ =
        ⟨[⟨(t, .word) :: taken, ahead⟩], ⟨(t, .word) :: taken, ahead⟩, .ok ()⟩ := by
      simp [expect, advance, current, Run.bind_eq, Run.andThen, Run.look, Run.done, Run.write, ht]
    rw [hrun]
    show Finished tokens ⟨(t, .word) :: taken, ahead⟩
    have hwhole' : (((t, Role.word) :: taken).map Prod.fst).reverse ++ ahead = tokens := by
      rw [List.map_cons, List.reverse_cons, List.append_assoc]
      exact hwhole
    obtain hastray | ⟨hclean, hcalm⟩ := hc
    · exact finished_of_astray hwhole' (.inl hastray)
    obtain rfl | rfl := text_of_end ht
    · exact finished_of_clean hwhole hclean
    · exact finished_of_astray hwhole' (.inr ⟨hclean, _, rfl, rfl, hcalm _⟩)
  · have hrun : (expect "<eof>" ⟨taken, t :: ahead⟩).outcome = .error (.expectedToken "<eof>" t) := by
      simp [expect, current, Run.bind_eq, Run.andThen, Run.look, Run.done, Run.fail, ht]
    rw [hrun]
    trivial

theorem finishes_parseSkill (fuel : Nat) :
    Run.Triple (Reading tokens (At (fun b => b = []))) (parseSkill fuel) (fun _ => Finished tokens) (fun _ _ => True) := by
  refine Run.Triple.andThen (reads_skillHead fuel) (fun head => ?_)
  have hsections : Run.Triple (Reading tokens (At Calm)) (skillSections (head.1 = "0.2") fuel)
      (fun _ => Finished tokens) (fun _ _ => True) := by
    refine Run.Triple.andThen (reads_many (reads_nextSection _ fuel) fuel) (fun sections => ?_)
    refine Run.Triple.andThen (reads_expect (spelled_closing .rbrace rfl (fun _ hb => hb))) (fun _ => ?_)
    exact Run.Triple.andThen finishes_expect (fun _ => Run.triple_done (fun _ hc => hc))
  refine Run.Triple.andThen hsections (fun sections => ?_)
  dsimp only
  split
  · exact Run.triple_fail (fun _ _ => trivial)
  · exact Run.triple_done (fun _ hc => hc)

theorem finishes_parseIncludeFragment (fuel : Nat) :
    Run.Triple (Reading tokens (At Calm)) (parseIncludeFragment fuel) (fun _ => Finished tokens) (fun _ _ => True) := by
  refine Run.Triple.andThen (reads_many (reads_nextFragmentItem fuel) fuel) (fun items => ?_)
  exact Run.Triple.andThen finishes_expect (fun _ => Run.triple_done (fun _ hc => hc))

theorem finishes_parse (fuel : Nat) (mode : ParseMode) :
    Run.Triple (Reading tokens (At (fun b => b = []))) (parse fuel mode) (fun _ => Finished tokens) (fun _ _ => True) := by
  cases mode with
  | rootSkill       =>
    exact Run.Triple.andThen (finishes_parseSkill fuel) (fun skill => Run.triple_done (fun _ hc => hc))
  | includeFragment =>
    have hfragment := (@finishes_parseIncludeFragment tokens fuel).conseq
      (fun c hc => Reading.mono (P := At (fun b => b = [])) hc (fun c hb => calm_of_nil hb)) (fun _ _ h => h) (fun _ _ h => h)
    exact Run.Triple.andThen hfragment (fun fragment => Run.triple_done (fun _ hc => hc))

/-- **An accepted parse, of a skill or of a fragment, took each string for a string and every token up to the end of the
input exactly when every string stands where the grammar takes one.** -/
theorem parse_readsByKind_iff {mode : ParseMode} {tokens : List Token} {tree : AstSkill ⊕ AstIncludeFragment}
    (h : (parse (fuelFor tokens) mode (start tokens)).outcome = .ok tree) :
    ReadsByKind mode tokens ↔ stringsInPlace [] tokens = true := by
  have hfinished := @finishes_parse tokens (fuelFor tokens) mode (start tokens) ⟨rfl, .inr ⟨trivial, rfl⟩⟩
  rw [h] at hfinished
  exact hfinished

/-- A skill with a string `<eof>` after its closing brace, and one more statement after it. -/
def strayEnd : List Token := skillTokens [.mark .rbrace, .string "<eof>", .keyword .emit, .mark .lbrace]

/-- **The string ends the parse**: it is taken for the end of the input, and what follows is not read. -/
theorem strayEnd_not_readsByKind :
    (∃ tree, (parse (fuelFor strayEnd) .rootSkill (start strayEnd)).outcome = .ok tree) ∧
      ¬ ReadsByKind .rootSkill strayEnd := by
  refine ⟨⟨_, rfl⟩, fun h => ?_⟩
  have hstring := h.1 (.string "<eof>", .word) List.mem_cons_self rfl
  cases hstring

/-- The law for a skill that ends where its input does. -/
theorem parse_readsByKind_demo :
    ReadsByKind .rootSkill (skillTokens []) ↔ stringsInPlace [] (skillTokens []) = true :=
  @parse_readsByKind_iff .rootSkill (skillTokens [])
    (.inl ⟨"0.1", "demo", "1.0.0", "R1", ["limits.nslinc"], [], none, [], [], [], []⟩) rfl

end Parser
end Nsl
