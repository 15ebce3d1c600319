import Nsl.Lexer
/-!
# LexerSpans — the places of the tokens are faithful

Offset, line and column are moved by hand in every branch of `Lexer.scan`. `Scan.FaithfulFrom` says what they should be:
every token stands where counting newlines finds it and has the characters between its offsets as its lexeme, the spans
follow each other, and every character outside them is white space, in a comment, reported, or behind a string that is
never closed. A pass keeps it (`FaithfulFrom.skip`, `.found`, `.report`), so a scan that ends is faithful, and it ends
unless `int` does not read the digits of a duration (`scan_faithful_iff`).
-/
namespace Nsl

/-- An offset between the ends of a token. -/
def PlacedToken.Holds (t : PlacedToken) (k : Nat) : Prop := t.start.offset ≤ k ∧ k < t.stop.offset

/-- Why the character at an offset may stand in the text, for a scan from an offset on. -/
inductive Scan.Covers (s : Scan) (text : List Char) (o k : Nat) : Prop
  | token (t : PlacedToken) (ht : t ∈ s.tokens) (h : t.Holds k)
  | space (c : Char) (hc : text[k]? = some c) (h : c = ' ' ∨ c = '\t' ∨ c = '\r' ∨ c = '\n')
  /-- a comment that starts outside of every token and holds no newline up to here -/
  | comment (j : Nat) (hfrom : o ≤ j) (hto : j ≤ k) (hstart : slice text j (j + 2) = ['/', '/'])
      (hline : '\n' ∉ slice text j (k + 1)) (hfree : ∀ t ∈ s.tokens, ¬t.Holds j)
  | reported (c : Char) (hc : text[k]? = some c)
      (h : ⟨.unexpectedCharacter c, (placeAt text k).line, (placeAt text k).column⟩ ∈ s.diagnostics)
  /-- a string that opens outside of every token and is never closed -/
  | openString (j : Nat) (hfrom : o ≤ j) (hto : j ≤ k) (hstart : text[j]? = some '"')
      (hopen : unclosed (text.drop (j + 1)) = true) (hfree : ∀ t ∈ s.tokens, ¬t.Holds j)
      (h : ⟨.unterminatedString, (placeAt text j).line, (placeAt text j).column⟩ ∈ s.diagnostics ∨
        ⟨.unterminatedEscape, (placeAt text text.length).line, (placeAt text text.length).column⟩ ∈ s.diagnostics)

/-- The places a scan from an offset on should give. -/
structure Scan.FaithfulFrom (text : List Char) (o : Nat) (s : Scan) : Prop where
  placed   : ∀ t ∈ s.tokens, t.start = placeAt text t.start.offset ∧ t.stop = placeAt text t.stop.offset
  lexemes  : ∀ t ∈ s.tokens, t.lexeme = slice text t.start.offset t.stop.offset
  spans    : ∀ t ∈ s.tokens, o ≤ t.start.offset ∧ t.start.offset ≤ t.stop.offset ∧ t.stop.offset ≤ text.length
  ordered  : s.tokens.Pairwise (fun t u => t.start.offset < u.start.offset ∧ t.stop.offset ≤ u.start.offset)
  reported : ∀ d ∈ s.diagnostics,
    ∃ k, o ≤ k ∧ k ≤ text.length ∧ d.line = (placeAt text k).line ∧ d.column = (placeAt text k).column
  covered  : ∀ k, o ≤ k → k < text.length → s.Covers text o k
  ends     : s.tokens.getLast? = some (endToken (placeAt text text.length))

/-- The tokens of a text stand where they should. -/
def Scan.Faithful (text : List Char) (s : Scan) : Prop := s.FaithfulFrom text 0

/-- More tokens before the offset and more diagnostics cover what was covered. -/
theorem Scan.Covers.mono {s s' : Scan} {text : List Char} {o o' k : Nat} (ho : o ≤ o')
    (htokens : ∀ t ∈ s.tokens, t ∈ s'.tokens) (hnew : ∀ t ∈ s'.tokens, t ∈ s.tokens ∨ t.stop.offset ≤ o')
    (hdiagnostics : ∀ d ∈ s.diagnostics, d ∈ s'.diagnostics) (h : s.Covers text o' k) : s'.Covers text o k := by
  have hfree {j : Nat} (hfrom : o' ≤ j) (hold : ∀ t ∈ s.tokens, ¬t.Holds j) : ∀ t ∈ s'.tokens, ¬t.Holds j := by
    intro t ht hholds
    rcases hnew t ht with hmem | hstop
    · exact hold t hmem hholds
    · have := hholds.2
      omega
  cases h with
  | token t ht h                                  => exact .token t (htokens t ht) h
  | space c hc h                                  => exact .space c hc h
  | comment j hfrom hto hstart hline hold         =>
    exact .comment j (Nat.le_trans ho hfrom) hto hstart hline (hfree hfrom hold)
  | reported c hc h                               => exact .reported c hc (hdiagnostics _ h)
  | openString j hfrom hto hstart hopen hold h    =>
    exact .openString j (Nat.le_trans ho hfrom) hto hstart hopen (hfree hfrom hold)
      (h.imp (hdiagnostics _) (hdiagnostics _))

namespace Scan.FaithfulFrom

variable {text : List Char} {o o' : Nat} {s : Scan}

/-- A pass that finds nothing. -/
theorem skip (h : s.FaithfulFrom text o') (ho : o ≤ o')
    (hpiece : ∀ k, o ≤ k → k < o' → s.Covers text o k) : s.FaithfulFrom text o where
  placed   := h.placed
  lexemes  := h.lexemes
  spans    := fun t ht => ⟨Nat.le_trans ho (h.spans t ht).1, (h.spans t ht).2⟩
  ordered  := h.ordered
  reported := by
    intro d hd
    obtain ⟨k, hk, hrest⟩ := h.reported d hd
    exact ⟨k, Nat.le_trans ho hk, hrest⟩
  covered  := by
    intro k hk hlength
    by_cases hpiecek : k < o'
    · exact hpiece k hk hpiecek
    · exact (h.covered k (by omega) hlength).mono ho (fun _ ht => ht) (fun _ ht => .inl ht) (fun _ hd => hd)
  ends     := h.ends

/-- A pass that finds a token. -/
theorem found {t : Token} {lexeme : List Char} (h : s.FaithfulFrom text o') (ho : o < o')
    (hlexeme : lexeme = slice text o o') (hlength : o' ≤ text.length) :
    Scan.FaithfulFrom text o { s with tokens := ⟨t, lexeme, placeAt text o, placeAt text o'⟩ :: s.tokens } where
  placed   := List.forall_mem_cons.2 ⟨⟨rfl, rfl⟩, h.placed⟩
  lexemes  := List.forall_mem_cons.2 ⟨hlexeme, h.lexemes⟩
  spans    := by
    refine List.forall_mem_cons.2 ⟨⟨Nat.le_refl _, Nat.le_of_lt ho, hlength⟩, fun u hu => ?_⟩
    exact ⟨Nat.le_trans (Nat.le_of_lt ho) (h.spans u hu).1, (h.spans u hu).2⟩
  ordered  := by
    refine List.pairwise_cons.2 ⟨fun u hu => ?_, h.ordered⟩
    exact ⟨Nat.lt_of_lt_of_le ho (h.spans u hu).1, (h.spans u hu).1⟩
  reported := by
    intro d hd
    obtain ⟨k, hk, hrest⟩ := h.reported d hd
    exact ⟨k, Nat.le_trans (Nat.le_of_lt ho) hk, hrest⟩
  covered  := by
    intro k hk hk'
    by_cases hpiece : k < o'
    · exact .token _ List.mem_cons_self ⟨hk, hpiece⟩
    · refine (h.covered k (by omega) hk').mono (Nat.le_of_lt ho) (fun _ hu => List.mem_cons_of_mem _ hu) ?_ (fun _ hd => hd)
      intro u hu
      rcases List.mem_cons.1 hu with rfl | hu
      · exact .inr (Nat.le_refl _)
      · exact .inl hu
  ends     := by
    rw [List.getLast?_cons, h.ends]
    rfl

/-- A pass that reports something. -/
theorem report {d : LexDiagnostic} {k₀ : Nat} (h : s.FaithfulFrom text o') (ho : o ≤ o')
    (hk₀ : o ≤ k₀ ∧ k₀ ≤ text.length) (hd : d.line = (placeAt text k₀).line ∧ d.column = (placeAt text k₀).column)
    (hpiece : ∀ k, o ≤ k → k < o' → Scan.Covers { s with diagnostics := d :: s.diagnostics } text o k) :
    Scan.FaithfulFrom text o { s with diagnostics := d :: s.diagnostics } where
  placed   := h.placed
  lexemes  := h.lexemes
  spans    := fun t ht => ⟨Nat.le_trans ho (h.spans t ht).1, (h.spans t ht).2⟩
  ordered  := h.ordered
  reported := by
    refine List.forall_mem_cons.2 ⟨⟨k₀, hk₀.1, hk₀.2, hd⟩, fun e he => ?_⟩
    obtain ⟨k, hk, hrest⟩ := h.reported e he
    exact ⟨k, Nat.le_trans ho hk, hrest⟩
  covered  := by
    intro k hk hk'
    by_cases hpiecek : k < o'
    · exact hpiece k hk hpiecek
    · have hold := h.covered k (by omega) hk'
      exact hold.mono (s := s) ho (fun _ ht => ht) (fun _ ht => .inl ht) (fun _ he => List.mem_cons_of_mem _ he)
  ends     := h.ends

/-- Offsets before a scan's tokens are in none of them. -/
theorem free (h : s.FaithfulFrom text o') {j : Nat} (hj : j < o') : ∀ t ∈ s.tokens, ¬t.Holds j := by
  intro t ht hholds
  have hfrom := (h.spans t ht).1
  have hat := hholds.1
  omega

end Scan.FaithfulFrom

/-- The end of the text. -/
theorem faithful_end (text : List Char) :
    Scan.FaithfulFrom text text.length ⟨[endToken (placeAt text text.length)], []⟩ where
  placed   := List.forall_mem_singleton.2 ⟨rfl, rfl⟩
  lexemes  := List.forall_mem_singleton.2 (by simp [endToken, placeAt, slice])
  spans    := List.forall_mem_singleton.2 ⟨Nat.le_refl _, Nat.le_refl _, Nat.le_refl _⟩
  ordered  := List.pairwise_singleton _ _
  reported := fun _ hd => absurd hd List.not_mem_nil
  covered  := fun k hk hk' => absurd hk (Nat.not_le.2 hk')
  ends     := rfl

/-! ## Pieces of a text at their places -/

/-- The place behind a piece. -/
theorem place_stop (pre mid post : List Char) :
    (Place.start.after pre).after mid = placeAt (pre ++ (mid ++ post)) (pre.length + mid.length) := by
  rw [← Place.after_append, ← List.append_assoc, ← List.length_append]
  exact Place.after_start (pre ++ mid) post

/-- A beginning of a piece. -/
theorem slice_piece (pre mid post : List Char) {k : Nat} (hk' : k ≤ pre.length + mid.length) :
    slice (pre ++ (mid ++ post)) pre.length k = mid.take (k - pre.length) := by
  unfold slice
  rw [List.drop_take, List.drop_left, List.take_append_of_le_length (by omega)]

theorem scanFrom_nil (v02 : Bool) (fuel : Nat) (p : Place) : scanFrom v02 fuel p [] = .ok ⟨[endToken p], []⟩ := by
  cases fuel <;> rfl

theorem map_ok {ε α β : Type} {x : Except ε α} {f : α → β} {b : β} (h : x.map f = .ok b) : ∃ a, x = .ok a ∧ f a = b := by
  cases x with
  | error e => cases h
  | ok a    => exact ⟨a, rfl, Except.ok.inj h⟩

/-- **What a scan gives is faithful**, from the place behind what it has read. -/
theorem scanFrom_faithful (v02 : Bool) {fuel : Nat} {pre cs : List Char} {s : Scan} (hfuel : cs.length ≤ fuel)
    (h : scanFrom v02 fuel (Place.start.after pre) cs = .ok s) : s.FaithfulFrom (pre ++ cs) pre.length := by
  have hend {pre : List Char} : Scan.FaithfulFrom (pre ++ []) pre.length ⟨[endToken (Place.start.after pre)], []⟩ := by
    rw [List.append_nil, Place.after_start pre [], List.append_nil]
    exact faithful_end pre
  induction fuel generalizing pre cs s with
  | zero =>
    obtain rfl := List.length_eq_zero_iff.1 (Nat.le_zero.1 hfuel)
    rw [scanFrom_nil] at h
    cases h
    exact hend
  | succ fuel ih =>
    cases cs with
    | nil =>
      rw [scanFrom_nil] at h
      cases h
      exact hend
    | cons c cs =>
      have hlexed := lexStep_lexed v02 (Place.start.after pre) c cs
      rw [scanFrom] at h
      -- what is left is shorter, and its place is the one behind the piece
      have hrest {mid rest : List Char} {s : Scan} (hpiece : c :: cs = mid ++ rest) (hne : mid ≠ [])
          (h : scanFrom v02 fuel ((Place.start.after pre).after mid) rest = .ok s) :
          s.FaithfulFrom (pre ++ (c :: cs)) (pre.length + mid.length) := by
        rw [← Place.after_append] at h
        have hmid := List.length_pos_of_ne_nil hne
        have hlength := congrArg List.length hpiece
        rw [List.length_append] at hlength
        rw [← List.length_append, hpiece, ← List.append_assoc]
        exact ih (by omega) h
      generalize hstep : lexStep v02 (Place.start.after pre) c cs = step at h hlexed
      generalize hcs : c :: cs = whole at hlexed hrest ⊢
      cases hlexed with
      | @space d rest hc hread =>
        have hfaithful := @hrest [d] rest s rfl (List.cons_ne_nil _ _) h
        refine hfaithful.skip (Nat.le_add_right _ _) (fun k hk hk' => .space d ?_ hc)
        have hat : k = pre.length := by simp at hk'; omega
        simp [hat]
      | @comment body rest hline hread =>
        have hfaithful := @hrest ('/' :: '/' :: body) rest s rfl (List.cons_ne_nil _ _) h
        refine hfaithful.skip (Nat.le_add_right _ _) (fun k hk hk' => ?_)
        have hslice {k : Nat} (hk' : k ≤ pre.length + ('/' :: '/' :: body).length) :
            slice (pre ++ ('/' :: '/' :: (body ++ rest))) pre.length k = ('/' :: '/' :: body).take (k - pre.length) :=
          slice_piece pre ('/' :: '/' :: body) rest hk'
        refine .comment pre.length (Nat.le_refl _) hk ?_ ?_ (hfaithful.free (by simp))
        · rw [hslice (by simp), Nat.add_sub_cancel_left]
          rfl
        · rw [hslice hk']
          intro hmem
          have hmem := List.mem_of_mem_take hmem
          simp [hline] at hmem
      | @token t d mid rest hread =>
        obtain ⟨s', hs', rfl⟩ := map_ok h
        have hfaithful := @hrest (d :: mid) rest s' rfl (List.cons_ne_nil _ _) hs'
        rw [place_stop pre (d :: mid) rest, Place.after_start pre (d :: mid ++ rest)]
        refine hfaithful.found (Nat.lt_add_of_pos_right (Nat.succ_pos _)) ?_ (by simp)
        rw [slice_piece pre (d :: mid) rest (Nat.le_refl _), Nat.add_sub_cancel_left, List.take_length]
      | @stray d rest hread =>
        obtain ⟨s', hs', rfl⟩ := map_ok h
        have hfaithful := @hrest [d] rest s' rfl (List.cons_ne_nil _ _) hs'
        rw [Place.after_start pre (d :: rest)]
        refine hfaithful.report (Nat.le_add_right _ _) ⟨Nat.le_refl _, by simp⟩ ⟨rfl, rfl⟩ (fun k hk hk' => ?_)
        have hat : k = pre.length := by simp at hk'; omega
        subst hat
        exact .reported d (by simp) List.mem_cons_self
      | @openString body d hopen hread hd =>
        cases h
        have hplace : (Place.start.after pre).after ('"' :: body) =
            placeAt (pre ++ ('"' :: body)) (pre ++ ('"' :: body)).length := by
          have hstop := place_stop pre ('"' :: body) []
          rw [List.append_nil] at hstop
          rw [hstop, List.length_append]
        rw [hplace] at hd ⊢
        rw [Place.after_start pre ('"' :: body)] at hd
        have hshort : pre.length < (pre ++ ('"' :: body)).length := by simp
        have hfaithful := faithful_end (pre ++ ('"' :: body))
        have hdrop : (pre ++ ('"' :: body)).drop (pre.length + 1) = body := by
          rw [List.drop_append, List.drop_of_length_le (by omega), Nat.add_sub_cancel_left]
          rfl
        have hcovers (k : Nat) (hk : pre.length ≤ k) :
            Scan.Covers ⟨[endToken (placeAt (pre ++ ('"' :: body)) (pre ++ ('"' :: body)).length)], [d]⟩
              (pre ++ ('"' :: body)) pre.length k := by
          refine .openString pre.length (Nat.le_refl _) hk (by simp) (by rw [hdrop]; exact hopen) (hfaithful.free hshort) ?_
          exact hd.imp (fun h => List.mem_singleton.2 h.symm) (fun h => List.mem_singleton.2 h.symm)
        rcases hd with rfl | rfl
        · exact hfaithful.report (Nat.le_of_lt hshort) ⟨Nat.le_refl _, Nat.le_of_lt hshort⟩ ⟨rfl, rfl⟩
            (fun k hk _ => hcovers k hk)
        · exact hfaithful.report (Nat.le_of_lt hshort) ⟨Nat.le_of_lt hshort, Nat.le_refl _⟩ ⟨rfl, rfl⟩
            (fun k hk _ => hcovers k hk)
      | badDuration hbad => cases h

/-- **A scan ends when `int` reads the digits of every duration, and only then.** -/
theorem scanFrom_ends (v02 : Bool) {fuel : Nat} (p : Place) {cs : List Char} (hfuel : cs.length ≤ fuel) :
    (∃ s, scanFrom v02 fuel p cs = .ok s) ↔ DurationsRead cs := by
  induction fuel generalizing p cs with
  | zero =>
    obtain rfl := List.length_eq_zero_iff.1 (Nat.le_zero.1 hfuel)
    exact iff_of_true ⟨_, scanFrom_nil v02 0 p⟩ durationsRead_nil
  | succ fuel ih =>
    cases cs with
    | nil       => exact iff_of_true ⟨_, scanFrom_nil v02 _ p⟩ durationsRead_nil
    | cons c cs =>
      have hlexed := lexStep_lexed v02 p c cs
      rw [scanFrom]
      generalize lexStep v02 p c cs = step at hlexed ⊢
      have hmap {x : Except Exn Scan} (f : Scan → Scan) : (∃ s, x.map f = .ok s) ↔ ∃ s, x = .ok s := by
        cases x with
        | error e => exact iff_of_false (fun h => nomatch h) (fun h => nomatch h)
        | ok s    => exact iff_of_true ⟨f s, rfl⟩ ⟨s, rfl⟩
      generalize hcs : c :: cs = whole at hlexed hfuel ⊢
      cases hlexed with
      | space hc hread             => exact (ih _ (by simpa using hfuel)).trans hread.symm
      | comment hline hread        => exact (ih _ (by simp at hfuel; omega)).trans hread.symm
      | token hread                => exact ((hmap _).trans (ih _ (by simp at hfuel; omega))).trans hread.symm
      | stray hread                => exact ((hmap _).trans (ih _ (by simpa using hfuel))).trans hread.symm
      | openString hopen hread hd  => exact iff_of_true ⟨_, rfl⟩ hread
      | badDuration hbad           =>
        refine iff_of_false (fun h => nomatch h) (fun hread => ?_)
        rw [durationsRead_iff, hbad] at hread
        cases hread.1

/-- **The lexer's places are faithful**: a scan ends with tokens that stand where they should exactly when no duration of
the text has digits that `int` does not read. -/
theorem scan_faithful_iff (v02 : Bool) (text : List Char) :
    (∃ s, scan v02 text = .ok s ∧ s.Faithful text) ↔ DurationsRead text := by
  constructor
  · rintro ⟨s, hs, -⟩
    exact (scanFrom_ends v02 Place.start (Nat.le_refl _)).1 ⟨s, hs⟩
  · intro hread
    obtain ⟨s, hs⟩ := (scanFrom_ends v02 Place.start (Nat.le_refl _)).2 hread
    exact ⟨s, hs, @scanFrom_faithful v02 text.length [] text s (Nat.le_refl _) hs⟩

/-- A superscript is a digit, and `int` does not read it. -/
theorem superscript_raises : ¬∃ s, scan false ['²', 's'] = .ok s ∧ s.Faithful ['²', 's'] := by
  have hraises : scan false ['²', 's'] = .error (.value "invalid literal for int() with base 10") := rfl
  rintro ⟨s, hs, -⟩
  rw [hraises] at hs
  cases hs

end Nsl
