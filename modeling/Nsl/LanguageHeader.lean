import Nsl.LexerSpans
import Nsl.Lowering
import Nsl.ParserSections
import Nsl.Printing
/-!
# LanguageHeader — the version of a source, read twice

`LanguageHeaderScanner.scan` reads `language NSL "…";` from the characters before there are any tokens, with white space,
comments and a bound of its own; its version decides which words the lexer takes for keywords. The parser reads the version
again from the tokens. Where the scanner gives a header, the scan of the whole text begins with the four tokens of that
header at its places (`scanAt_header`), so the parser finds the version the lexer was given.
-/
namespace Nsl

open Stateful (Run bind_eq_ok)

inductive SourceLanguageVersion | v01 | v02
  deriving DecidableEq, Repr

instance : StrEnum SourceLanguageVersion where
  members  := [.v01, .v02]
  value    := fun | .v01 => "0.1" | .v02 => "0.2"
  complete := by intro a; cases a <;> decide
  distinct := by intro a b; cases a <;> cases b <;> decide

inductive HeaderProblem
  /-- `LEX_LANGUAGE_HEADER_LIMIT` -/
  | limit
  /-- `LEX_MALFORMED_LANGUAGE_HEADER`: `expected …` -/
  | expected (value : List Char)
  /-- `LEX_MALFORMED_LANGUAGE_HEADER`: `… version string` -/
  | versionString
  /-- `LEX_MALFORMED_LANGUAGE_HEADER`: `unterminated version string` -/
  | unterminatedVersion
  /-- `LEX_NON_LEADING_LANGUAGE_HEADER` -/
  | nonLeading
  /-- `LEX_LANGUAGE_HEADER_REQUIRED` -/
  | required
  /-- `LEX_UNSUPPORTED_LANGUAGE_VERSION` -/
  | unsupported (version : List Char)
  /-- `LEX_DUPLICATE_LANGUAGE_HEADER` -/
  | duplicate
  deriving DecidableEq

/-- What `fail` makes, at a place. -/
structure HeaderFailure where
  problem : HeaderProblem
  line    : Nat
  column  : Nat
  deriving DecidableEq

/-- `LanguageHeader`, each span as its two ends. -/
structure LanguageHeader where
  version      : SourceLanguageVersion
  start        : Place
  stop         : Place
  versionStart : Place
  versionStop  : Place

namespace HeaderScanner

def maxHeaderBytes : Nat := 4096

/-- What is behind the scanner: the character before it, its place and the bytes it has read. -/
structure Reader where
  last  : Option Char
  place : Place
  bytes : Nat

def Reader.fail (r : Reader) (problem : HeaderProblem) : HeaderFailure := ⟨problem, r.place.line, r.place.column⟩

/-- `advance`, over a character -/
def Reader.advance (enforce : Bool) (r : Reader) (c : Char) : Except HeaderFailure Reader :=
  let r' : Reader := ⟨some c, r.place.past c, r.bytes + c.utf8Size⟩
  if enforce ∧ maxHeaderBytes < r'.bytes then .error (r'.fail .limit) else .ok r'

/-- `skip_trivia`; `comment` says whether the inner loop runs. -/
def skipTrivia (enforce : Bool) : Bool → List Char → Reader → Except HeaderFailure (List Char × Reader)
  | _,       [],      r => .ok ([], r)
  | comment, c :: cs, r =>
    let inside := (comment && c ≠ '\n') || (c = '/' && cs.head? = some '/')
    if inside ∨ c = ' ' ∨ c = '\t' ∨ c = '\r' ∨ c = '\n' then
      if !enforce ∧ maxHeaderBytes ≤ r.bytes then .ok (c :: cs, r)
      else do
        let r ← r.advance enforce c
        skipTrivia enforce inside cs r
    else .ok (c :: cs, r)

/-- `matches_word` -/
def matchesWord (value cs : List Char) : Bool := value.isPrefixOf cs && !(cs.drop value.length).head?.any continuesName

/-- `contains_word_within_limit` -/
def containsWord (value : List Char) : Option Char → Nat → List Char → Bool
  | _,    _,     []      => false
  | last, bytes, c :: cs =>
    if maxHeaderBytes < bytes + c.utf8Size then false
    else if !last.any continuesName && matchesWord value (c :: cs) then true
    else containsWord value (some c) (bytes + c.utf8Size) cs

/-- `expect_word` -/
def expectWord (value cs : List Char) (r : Reader) : Except HeaderFailure (List Char × Reader) :=
  if matchesWord value cs then do
    let r ← value.foldlM (Reader.advance true) r
    .ok (cs.drop value.length, r)
  else .error (r.fail (.expected value))

/-- `expect_char` -/
def expectChar (value : Char) : List Char → Reader → Except HeaderFailure (List Char × Reader)
  | [],      r => .error (r.fail (.expected [value]))
  | c :: cs, r =>
    if c = value then do
      let r ← r.advance true c
      .ok (cs, r)
    else .error (r.fail (.expected [value]))

/-- The characters of the version, up to the closing quote. -/
def versionText : List Char → Reader → Except HeaderFailure (List Char × List Char × Reader)
  | [],      r => .error (r.fail .unterminatedVersion)
  | c :: cs, r =>
    if c = '"' then .ok ([], c :: cs, r)
    else if c = '\r' ∨ c = '\n' ∨ c = '\\' then .error (r.fail .versionString)
    else do
      let r ← r.advance true c
      let (value, rest, r) ← versionText cs r
      .ok (c :: value, rest, r)

def languageWord : List Char := ['l', 'a', 'n', 'g', 'u', 'a', 'g', 'e']

def nslWord : List Char := ['N', 'S', 'L']

/-- `LanguageHeaderScanner.scan` -/
def scan (text : List Char) : Except HeaderFailure LanguageHeader := do
  let (cs, r) ← skipTrivia true false text ⟨none, Place.start, 0⟩
  let start := r.place
  if matchesWord languageWord cs then do
    let (cs, r) ← expectWord languageWord cs r
    let (cs, r) ← skipTrivia true false cs r
    let (cs, r) ← expectWord nslWord cs r
    let (cs, r) ← skipTrivia true false cs r
    let quoted := r
    let (cs, r) ← expectChar '"' cs r
    let (value, cs, r) ← versionText cs r
    let (cs, r) ← expectChar '"' cs r
    let versionStop := r.place
    let (cs, r) ← skipTrivia true false cs r
    let (cs, r) ← expectChar ';' cs r
    let stop := r.place
    match StrEnum.ofValue? (String.ofList value) with
    | none         => .error (quoted.fail (.unsupported value))
    | some version => do
      let (cs, r) ← skipTrivia false false cs r
      if matchesWord languageWord cs then .error (r.fail .duplicate)
      else .ok ⟨version, start, stop, quoted.place, versionStop⟩
  else if containsWord languageWord r.last r.bytes cs then .error (r.fail .nonLeading)
  else .error (r.fail .required)

end HeaderScanner

/-! ## The tokens of a root -/

inductive LexFailure
  | header (f : HeaderFailure)
  | diagnostic (d : LexDiagnostic)
  | raised (e : Exn)

/-- `Lexer.tokenize` -/
def tokenize (text : List Char) (version : SourceLanguageVersion) : Except LexFailure (List PlacedToken) :=
  match scan (version = .v02) text with
  | .error e => .error (.raised e)
  | .ok s    =>
    match s.diagnostics with
    | []     => .ok s.tokens
    | d :: _ => .error (.diagnostic d)

/-- `Lexer.tokenize_root` -/
def tokenizeRoot (text : List Char) : Except LexFailure (List PlacedToken) :=
  match HeaderScanner.scan text with
  | .error f   => .error (.header f)
  | .ok header => tokenize text header.version

/-! ## What the scanner took -/

namespace HeaderScanner

theorem Reader.advance_place {enforce : Bool} {r r' : Reader} {c : Char} (h : r.advance enforce c = .ok r') :
    r'.place = r.place.past c := by
  unfold advance at h
  simp only at h
  split at h
  · cases h
  · cases h
    rfl

theorem advanceAll_place {value : List Char} {r r' : Reader} (h : value.foldlM (Reader.advance true) r = .ok r') :
    r'.place = r.place.after value := by
  induction value generalizing r with
  | nil           => cases h; rfl
  | cons c value ih =>
    rw [List.foldlM_cons] at h
    obtain ⟨r₁, hfirst, hrest⟩ := bind_eq_ok h
    rw [ih hrest, Reader.advance_place hfirst, Place.after_cons]

theorem expectWord_ok {value cs rest : List Char} {r r' : Reader} (h : expectWord value cs r = .ok (rest, r')) :
    matchesWord value cs = true ∧ rest = cs.drop value.length ∧ r'.place = r.place.after value := by
  unfold expectWord at h
  split at h
  · rename_i hmatches
    obtain ⟨r₁, hall, hdone⟩ := bind_eq_ok h
    cases hdone
    exact ⟨hmatches, rfl, advanceAll_place hall⟩
  · cases h

theorem expectChar_ok {value : Char} {cs rest : List Char} {r r' : Reader} (h : expectChar value cs r = .ok (rest, r')) :
    cs = value :: rest ∧ r'.place = r.place.past value := by
  cases cs with
  | nil       => cases h
  | cons c cs =>
    rw [expectChar] at h
    split at h
    · rename_i hc
      obtain ⟨r₁, hread, hdone⟩ := bind_eq_ok h
      cases hdone
      subst hc
      exact ⟨rfl, Reader.advance_place hread⟩
    · cases h

/-- The characters of a version are what they are in a string. -/
def Plain (value : List Char) : Prop := ∀ c ∈ value, c ≠ '"' ∧ c ≠ '\\' ∧ c ≠ '\n'

theorem versionText_ok {cs value rest : List Char} {r r' : Reader} (h : versionText cs r = .ok (value, rest, r')) :
    cs = value ++ rest ∧ Plain value ∧ r'.place = r.place.after value := by
  induction cs generalizing r value with
  | nil          => cases h
  | cons c cs ih =>
    unfold versionText at h
    split at h
    · cases h
      exact ⟨rfl, fun c hc => absurd hc List.not_mem_nil, rfl⟩
    · rename_i hquote
      split at h
      · cases h
      · rename_i hplain
        obtain ⟨r₁, hread, hmore⟩ := bind_eq_ok h
        obtain ⟨⟨value', rest', r₂⟩, hmore, hdone⟩ := bind_eq_ok hmore
        cases hdone
        obtain ⟨hcs, hvalue, hplace⟩ := ih hmore
        refine ⟨by rw [hcs]; rfl, List.forall_mem_cons.2 ⟨⟨hquote, ?_, ?_⟩, hvalue⟩, ?_⟩
        · exact fun hslash => hplain (.inr (.inr hslash))
        · exact fun hline => hplain (.inr (.inl hline))
        · rw [hplace, Reader.advance_place hread, Place.after_cons]

end HeaderScanner

/-! ## The scan from a place -/

/-- The scan of what is left of a text. -/
def scanAt (v02 : Bool) (p : Place) (cs : List Char) : Except Exn Scan := scanFrom v02 cs.length p cs

/-- What a step leaves to scan. -/
def LexStep.rest? : LexStep → Option (List Char)
  | .skip rest _ | .found _ rest _ | .report _ rest _ => some rest
  | .stop .. | .raises                                => none

theorem Lexed.shorter {p : Place} {cs rest : List Char} {step : LexStep} (h : Lexed p cs step)
    (hrest : step.rest? = some rest) : rest.length < cs.length := by
  cases h with
  | space       => cases hrest; simp
  | comment     => cases hrest; simp only [List.length_cons, List.length_append]; omega
  | token       => cases hrest; simp only [List.length_cons, List.length_append]; omega
  | stray       => cases hrest; simp
  | openString  => cases hrest
  | badDuration => cases hrest

/-- More fuel than characters makes no difference. -/
theorem scanFrom_fuel (v02 : Bool) {m n : Nat} (p : Place) {cs : List Char} (hm : cs.length ≤ m) (hn : cs.length ≤ n) :
    scanFrom v02 m p cs = scanFrom v02 n p cs := by
  induction m generalizing n p cs with
  | zero      =>
    obtain rfl := List.length_eq_zero_iff.1 (Nat.le_zero.1 hm)
    rw [scanFrom_nil, scanFrom_nil]
  | succ m ih =>
    cases cs with
    | nil       => rw [scanFrom_nil, scanFrom_nil]
    | cons c cs =>
      cases n with
      | zero   => cases hn
      | succ n =>
        have hshorter {rest : List Char} (hrest : (lexStep v02 p c cs).rest? = some rest) : rest.length < (c :: cs).length :=
          (lexStep_lexed v02 p c cs).shorter hrest
        rw [scanFrom, scanFrom]
        generalize lexStep v02 p c cs = step at hshorter ⊢
        have hmore {rest : List Char} (q : Place) (h : step.rest? = some rest) :
            scanFrom v02 m q rest = scanFrom v02 n q rest := by
          have hlength := hshorter h
          rw [List.length_cons] at hm hn hlength
          exact ih q (by omega) (by omega)
        cases step with
        | skip rest q     => exact hmore q rfl
        | found t rest q  => exact congrArg (Except.map _) (hmore q rfl)
        | report d rest q => exact congrArg (Except.map _) (hmore q rfl)
        | stop d q        => rfl
        | raises          => rfl

/-- A step that finds nothing. -/
theorem scanAt_skip {v02 : Bool} {p q : Place} {c : Char} {cs rest : List Char} (h : lexStep v02 p c cs = .skip rest q) :
    scanAt v02 p (c :: cs) = scanAt v02 q rest := by
  have hshorter := (lexStep_lexed v02 p c cs).shorter (by rw [h]; rfl)
  rw [scanAt, List.length_cons, scanFrom, h]
  exact scanFrom_fuel v02 q (Nat.le_of_lt_succ hshorter) (Nat.le_refl _)

/-- A step that finds a token. -/
theorem scanAt_found {v02 : Bool} {p q : Place} {c : Char} {cs rest : List Char} {t : PlacedToken} {s : Scan}
    (h : lexStep v02 p c cs = .found t rest q) (hs : scanAt v02 p (c :: cs) = .ok s) :
    ∃ s', scanAt v02 q rest = .ok s' ∧ s.tokens = t :: s'.tokens := by
  have hshorter := (lexStep_lexed v02 p c cs).shorter (by rw [h]; rfl)
  rw [scanAt, List.length_cons, scanFrom, h] at hs
  obtain ⟨s', hs', rfl⟩ := map_ok hs
  exact ⟨s', (scanFrom_fuel v02 q (Nat.le_refl _) (Nat.le_of_lt_succ hshorter)).trans hs', rfl⟩

/-! ## White space and comments -/

namespace HeaderScanner

/-- A comment ends where the line does. -/
theorem skipTrivia_comment {cs : List Char} {r : Reader} {x : List Char × Reader} (h : skipTrivia true true cs r = .ok x) :
    ∃ r', r'.place = r.place.after (cs.takeWhile (· ≠ '\n')) ∧
      skipTrivia true false (cs.dropWhile (· ≠ '\n')) r' = .ok x := by
  induction cs generalizing r with
  | nil          => exact ⟨r, rfl, h⟩
  | cons c cs ih =>
    by_cases hc : c = '\n'
    · subst hc
      exact ⟨r, rfl, h⟩
    · have hinside : ((true && decide (c ≠ '\n')) || (decide (c = '/') && decide (cs.head? = some '/'))) = true := by
        rw [decide_eq_true hc]
        rfl
      rw [skipTrivia] at h
      simp only [hinside, true_or, if_true, Bool.not_true, Bool.false_eq_true, false_and, if_false] at h
      obtain ⟨r₁, hread, hmore⟩ := bind_eq_ok h
      obtain ⟨r', hplace, hrest⟩ := ih hmore
      have htake : (c :: cs).takeWhile (· ≠ '\n') = c :: cs.takeWhile (· ≠ '\n') :=
        List.takeWhile_cons_of_pos (decide_eq_true hc)
      have hdrop : (c :: cs).dropWhile (· ≠ '\n') = cs.dropWhile (· ≠ '\n') :=
        List.dropWhile_cons_of_pos (decide_eq_true hc)
      refine ⟨r', ?_, ?_⟩
      · rw [hplace, Reader.advance_place hread, htake, Place.after_cons]
      · rw [hdrop]
        exact hrest

theorem lexComment_eq (p : Place) (cs : List Char) :
    lexComment p cs = .skip (cs.dropWhile (· ≠ '\n')) (p.after (cs.takeWhile (· ≠ '\n'))) := by
  rw [lexComment, Place.after_right p (not_mem_takeWhile (by decide))]

theorem lexStep_blank (v02 : Bool) (p : Place) {c : Char} (cs : List Char) (h : c = ' ' ∨ c = '\t' ∨ c = '\r' ∨ c = '\n') :
    lexStep v02 p c cs = .skip cs (p.past c) := by
  rcases h with rfl | rfl | rfl | rfl <;> rfl

/-- **What the scanner skips the lexer skips.** -/
theorem scanAt_trivia (v02 : Bool) {cs rest : List Char} {r r' : Reader} (h : skipTrivia true false cs r = .ok (rest, r')) :
    scanAt v02 r.place cs = scanAt v02 r'.place rest := by
  induction hlength : cs.length using Nat.strong_induction_on generalizing cs r with
  | _ n ih =>
    subst hlength
    cases cs with
    | nil       => cases h; rfl
    | cons c cs =>
      rw [skipTrivia] at h
      simp only [Bool.false_and, Bool.false_or, Bool.not_true, Bool.false_eq_true, false_and, if_false] at h
      by_cases hcomment : c = '/' ∧ cs.head? = some '/'
      · have hinside : (decide (c = '/') && decide (cs.head? = some '/')) = true := by
          rw [decide_eq_true hcomment.1, decide_eq_true hcomment.2]
          rfl
        rw [hinside] at h
        simp only [true_or, if_true] at h
        obtain ⟨r₁, hread, hmore⟩ := bind_eq_ok h
        obtain ⟨r₂, hplace, hrest⟩ := skipTrivia_comment hmore
        have hstep : lexStep v02 r.place c cs = .skip (cs.dropWhile (· ≠ '\n')) r₂.place := by
          rw [hplace, Reader.advance_place hread]
          obtain ⟨rfl, hnext⟩ := hcomment
          unfold lexStep
          rw [if_neg (by decide), if_neg (by decide), if_pos ⟨rfl, hnext⟩, lexComment_eq]
          rfl
        rw [scanAt_skip hstep]
        exact ih _ (Nat.lt_succ_of_le (List.dropWhile_suffix _).length_le) hrest rfl
      · have hinside : (decide (c = '/') && decide (cs.head? = some '/')) = false := by
          rw [← Bool.decide_and]
          exact decide_eq_false hcomment
        rw [hinside] at h
        simp only [Bool.false_eq_true, false_or] at h
        split at h
        · rename_i hblank
          obtain ⟨r₁, hread, hmore⟩ := bind_eq_ok h
          rw [scanAt_skip (lexStep_blank v02 r.place cs hblank), ← Reader.advance_place hread]
          exact ih _ (Nat.lt_succ_self _) hmore rfl
        · cases h
          rfl

/-! ## The tokens of a header -/

/-- A word that ends where the scanner says is the next token. -/
theorem scanAt_word {v02 : Bool} {p : Place} {c : Char} {letters cs : List Char} {s : Scan}
    (h : matchesWord (c :: letters) cs = true) (hdigit : Text.isDigit c = false) (hstart : startsName c = true)
    (hletters : (c :: letters).all continuesName = true) (hs : scanAt v02 p cs = .ok s) :
    ∃ s', scanAt v02 (p.after (c :: letters)) (cs.drop (c :: letters).length) = .ok s' ∧
      s.tokens = ⟨wordToken v02 (c :: letters) hstart hletters, c :: letters, p, p.after (c :: letters)⟩ :: s'.tokens := by
  unfold matchesWord at h
  simp only [Bool.and_eq_true] at h
  obtain ⟨hbegins, hends⟩ := h
  obtain ⟨rest, rfl⟩ := List.isPrefixOf_iff_prefix.1 hbegins
  rw [List.drop_left] at hends ⊢
  have hcontinue : ∀ d ∈ c :: letters, continuesName d = true := List.all_eq_true.1 hletters
  have hrest : rest.takeWhile continuesName = [] ∧ rest.dropWhile continuesName = rest := by
    cases rest with
    | nil         => exact ⟨rfl, rfl⟩
    | cons d rest =>
      have hd : ¬continuesName d = true := by simpa using hends
      exact ⟨List.takeWhile_cons_of_neg hd, List.dropWhile_cons_of_neg hd⟩
  have htake : (c :: (letters ++ rest)).takeWhile continuesName = c :: letters := by
    rw [← List.cons_append, List.takeWhile_append_of_pos hcontinue, hrest.1, List.append_nil]
  have hdrop : (c :: (letters ++ rest)).dropWhile continuesName = rest := by
    rw [← List.cons_append, List.dropWhile_append_of_pos hcontinue, hrest.2]
  have hline : '\n' ∉ c :: letters := fun hmem => absurd (hcontinue _ hmem) (by decide)
  have hword : ∀ {name : List Char} (hname : (c :: (letters ++ rest)).takeWhile continuesName = name)
      (hs : name.head?.any startsName = true) (ha : name.all continuesName = true),
      lexWord v02 p (c :: (letters ++ rest)) (word_starts hstart) =
        .found ⟨wordToken v02 name hs ha, name, p, p.right name.length⟩
          ((c :: (letters ++ rest)).dropWhile continuesName) (p.right name.length) := by
    rintro _ rfl hs ha
    rfl
  have hstep : lexStep v02 p c (letters ++ rest) =
      .found ⟨wordToken v02 (c :: letters) hstart hletters, c :: letters, p, p.after (c :: letters)⟩ rest
        (p.after (c :: letters)) := by
    have hblank : ¬(c = ' ' ∨ c = '\t' ∨ c = '\r') := by rintro (rfl | rfl | rfl) <;> cases hstart
    have hnewline : c ≠ '\n' := by rintro rfl; cases hstart
    have hslash : ¬(c = '/' ∧ (letters ++ rest).head? = some '/') := by rintro ⟨rfl, -⟩; cases hstart
    have hquote : c ≠ '"' := by rintro rfl; cases hstart
    unfold lexStep
    rw [if_neg hblank, if_neg hnewline, if_neg hslash, if_neg hquote, dif_neg (Bool.eq_false_iff.1 hdigit), dif_pos hstart,
      hword htake hstart hletters, hdrop, Place.after_right p hline]
  exact scanAt_found hstep hs

theorem wordToken_language (v02 : Bool) (hs : languageWord.head?.any startsName = true)
    (ha : languageWord.all continuesName = true) : wordToken v02 languageWord hs ha = .keyword .language := by
  cases v02 <;> rfl

theorem wordToken_nsl (v02 : Bool) (hs : nslWord.head?.any startsName = true)
    (ha : nslWord.all continuesName = true) : wordToken v02 nslWord hs ha = .identifier ⟨"NSL", by decide⟩ := by
  cases v02 <;> rfl

/-- A string of plain characters has them as its value. -/
theorem readString_plain {value : List Char} (rest : List Char) (p : Place) (h : Plain value) :
    readString (value ++ '"' :: rest) p = .closed value rest (p.after value) := by
  induction value generalizing p with
  | nil             => rfl
  | cons c value ih =>
    obtain ⟨⟨hquote, hslash, -⟩, hvalue⟩ := List.forall_mem_cons.1 h
    rw [List.cons_append, readString.eq_5 p c _ hquote (fun h _ => hslash h) (fun _ _ h _ => hslash h), ih (p.past c) hvalue]
    rfl

/-- The version is the next token. -/
theorem scanAt_version {v02 : Bool} {p : Place} {value rest : List Char} {s : Scan} (h : Plain value)
    (hs : scanAt v02 p ('"' :: (value ++ '"' :: rest)) = .ok s) :
    ∃ s' lexeme, scanAt v02 (p.after ('"' :: (value ++ ['"']))) rest = .ok s' ∧
      s.tokens = ⟨.string (String.ofList value), lexeme, p, p.after ('"' :: (value ++ ['"']))⟩ :: s'.tokens := by
  have hplace : ((p.right 1).after value).right 1 = p.after ('"' :: (value ++ ['"'])) := by
    rw [Place.after_cons, Place.after_append, right_quote, right_quote]
    rfl
  have hstep : ∃ lexeme, lexStep v02 p '"' (value ++ '"' :: rest) =
      .found ⟨.string (String.ofList value), lexeme, p, p.after ('"' :: (value ++ ['"']))⟩ rest
        (p.after ('"' :: (value ++ ['"']))) := by
    refine ⟨'"' :: (value ++ '"' :: rest).take ((value ++ '"' :: rest).length - rest.length), ?_⟩
    unfold lexStep
    rw [if_neg (by decide), if_neg (by decide), if_neg (by simp), if_pos rfl, lexString, readString_plain rest _ h]
    simp only [hplace]
  obtain ⟨lexeme, hstep⟩ := hstep
  obtain ⟨s', hs', htokens⟩ := scanAt_found hstep hs
  exact ⟨s', lexeme, hs', htokens⟩

/-- The semicolon is the next token. -/
theorem scanAt_semicolon {v02 : Bool} {p : Place} {rest : List Char} {s : Scan}
    (hs : scanAt v02 p (';' :: rest) = .ok s) :
    ∃ s', scanAt v02 (p.past ';') rest = .ok s' ∧
      s.tokens = ⟨.mark .semicolon, [';'], p, p.past ';'⟩ :: s'.tokens := by
  have hstep : lexStep v02 p ';' rest = .found ⟨.mark .semicolon, [';'], p, p.past ';'⟩ rest (p.past ';') := by
    have htwo (d : Char) : twoChar ';' d = none := by
      by_cases hd : d = '='
      · subst hd
        rfl
      · exact if_pos hd
    cases rest with
    | nil       => rfl
    | cons d ds =>
      unfold lexStep
      rw [if_neg (by decide), if_neg (by decide), if_neg (fun h => absurd h.1 (by decide)), if_neg (by decide),
        dif_neg (by decide), dif_neg (by decide), lexMark, List.head?_cons, Option.bind_some, htwo]
      rfl
  exact scanAt_found hstep hs

end HeaderScanner

theorem nsl_isIdentifier : isIdentifier "NSL" = true := by decide

/-- The tokens begin with those of the header, at its places. -/
def LanguageHeader.Begins (header : LanguageHeader) (tokens : List PlacedToken) : Prop :=
  ∃ language nsl version semicolon rest,
    tokens = language :: nsl :: version :: semicolon :: rest ∧
    language.token = .keyword .language ∧
    nsl.token = .identifier ⟨"NSL", nsl_isIdentifier⟩ ∧
    version.token = .string (StrEnum.value header.version) ∧
    semicolon.token = .mark .semicolon ∧
    (header.start = language.start ∧ header.stop = semicolon.stop) ∧
    (header.versionStart = version.start ∧ header.versionStop = version.stop)

/-- **The scan of a text begins with the tokens of the header that is found in it**, whatever its keywords are. -/
theorem scanAt_header {v02 : Bool} {text : List Char} {header : LanguageHeader} {s : Scan}
    (h : HeaderScanner.scan text = .ok header) (hs : scanAt v02 Place.start text = .ok s) : header.Begins s.tokens := by
  unfold HeaderScanner.scan at h
  obtain ⟨⟨cs₁, r₁⟩, htrivia, h⟩ := bind_eq_ok h
  rw [HeaderScanner.scanAt_trivia v02 htrivia] at hs
  dsimp only at h
  split at h
  · obtain ⟨⟨cs₂, r₂⟩, hword, h⟩ := bind_eq_ok h
    obtain ⟨⟨cs₃, r₃⟩, htrivia, h⟩ := bind_eq_ok h
    obtain ⟨⟨cs₄, r₄⟩, hnsl, h⟩ := bind_eq_ok h
    obtain ⟨⟨cs₅, r₅⟩, htrivia', h⟩ := bind_eq_ok h
    obtain ⟨⟨cs₆, r₆⟩, hquote, h⟩ := bind_eq_ok h
    obtain ⟨⟨value, cs₇, r₇⟩, hversion, h⟩ := bind_eq_ok h
    obtain ⟨⟨cs₈, r₈⟩, hclose, h⟩ := bind_eq_ok h
    obtain ⟨⟨cs₉, r₉⟩, htrivia'', h⟩ := bind_eq_ok h
    obtain ⟨⟨cs, r⟩, hsemicolon, h⟩ := bind_eq_ok h
    dsimp only at h
    split at h
    · cases h
    · rename_i version hvalue
      obtain ⟨⟨cs', r'⟩, -, h⟩ := bind_eq_ok h
      dsimp only at h
      split at h
      · cases h
      · cases h
        obtain ⟨hmatches, rfl, hplace₂⟩ := HeaderScanner.expectWord_ok hword
        obtain ⟨s₁, hs₁, hlanguage⟩ := HeaderScanner.scanAt_word hmatches (by decide) (by decide) (by decide) hs
        rw [← HeaderScanner.languageWord, ← hplace₂] at hs₁
        rw [HeaderScanner.scanAt_trivia v02 htrivia] at hs₁
        obtain ⟨hmatches', rfl, hplace₄⟩ := HeaderScanner.expectWord_ok hnsl
        obtain ⟨s₂, hs₂, hnsl⟩ := HeaderScanner.scanAt_word hmatches' (by decide) (by decide) (by decide) hs₁
        rw [← HeaderScanner.nslWord, ← hplace₄] at hs₂
        rw [HeaderScanner.scanAt_trivia v02 htrivia'] at hs₂
        obtain ⟨rfl, hplace₆⟩ := HeaderScanner.expectChar_ok hquote
        obtain ⟨rfl, hplain, hplace₇⟩ := HeaderScanner.versionText_ok hversion
        obtain ⟨rfl, hplace₈⟩ := HeaderScanner.expectChar_ok hclose
        obtain ⟨s₃, lexeme, hs₃, hstring⟩ := HeaderScanner.scanAt_version hplain hs₂
        have hplace : r₅.place.after ('"' :: (value ++ ['"'])) = r₈.place := by
          rw [hplace₈, hplace₇, hplace₆, Place.after_cons, Place.after_append]
          rfl
        rw [hplace] at hs₃ hstring
        rw [HeaderScanner.scanAt_trivia v02 htrivia''] at hs₃
        obtain ⟨rfl, hplace₁₀⟩ := HeaderScanner.expectChar_ok hsemicolon
        obtain ⟨s₄, hs₄, hmark⟩ := HeaderScanner.scanAt_semicolon hs₃
        rw [hlanguage, hnsl, hstring, hmark]
        exact ⟨_, _, _, _, s₄.tokens, rfl, HeaderScanner.wordToken_language v02 (by decide) (by decide),
          HeaderScanner.wordToken_nsl v02 (by decide) (by decide),
          congrArg Token.string (StrEnum.value_of_ofValue? hvalue).symm, rfl, ⟨rfl, hplace₁₀⟩, ⟨rfl, rfl⟩⟩
  · split at h <;> cases h

/-! ## The version the parser reads -/

namespace Parser

theorem yields_string (content : String) (ts : List Token) : Yields expectString (.string content :: ts) content ts :=
  (yields_current _ ts).bind ((yields_advance _ _ ts).bind (yields_done _ _))

/-- A run that ends well goes on behind what its first part takes. -/
theorem Yields.rest {α β : Type} {m : Parse α} {f : α → Parse β} {ts mid : List Token} {a : α} {taken : List (Token × Role)}
    {w : List Cursor} {c : Cursor} {b : β} (hm : Yields m ts a mid) (h : (m >>= f) ⟨taken, ts⟩ = ⟨w, c, .ok b⟩) :
    ∃ taken' w', f a ⟨taken', mid⟩ = ⟨w', c, .ok b⟩ := by
  obtain ⟨w₁, taken', hrun⟩ := hm taken
  rw [Run.bind_eq] at h
  obtain ⟨_, _, _, w₂, hfirst, hrest, -⟩ := Run.andThen_eq_ok h
  rw [hrun] at hfirst
  cases hfirst
  exact ⟨taken', w₂, hrest⟩

/-- The head of a skill has the version of its third token. -/
theorem skillHead_version {fuel : Nat} {nsl : Identifier} {version : String} {ts : List Token}
    {taken : List (Token × Role)} {c : Cursor} {w : List Cursor} {head : String × String} (hnsl : nsl.text = "NSL")
    (h : skillHead fuel ⟨taken, .keyword .language :: .identifier nsl :: .string version :: ts⟩ = ⟨w, c, .ok head⟩) :
    head.1 = version := by
  unfold skillHead at h
  obtain ⟨_, _, h⟩ := (yields_expect (t := .keyword .language) rfl _).rest h
  obtain ⟨_, _, h⟩ := (yields_expect (t := .identifier nsl) (congrArg some hnsl) _).rest h
  obtain ⟨_, _, h⟩ := (yields_string version ts).rest h
  obtain ⟨_, _, _, _, -, h, -⟩ := Run.andThen_eq_ok h
  obtain ⟨_, _, _, _, -, h, -⟩ := Run.andThen_eq_ok h
  obtain ⟨_, _, _, _, -, h, -⟩ := Run.andThen_eq_ok h
  obtain ⟨_, _, _, _, -, h, -⟩ := Run.andThen_eq_ok h
  cases h
  rfl

theorem foldl_assign_version (skill : AstSkill) (sections : List Section) :
    (sections.foldl AstSkill.assign skill).languageVersion = skill.languageVersion := by
  induction sections generalizing skill with
  | nil            => rfl
  | cons s ss ih => 
    rw [List.foldl_cons, ih]
    cases s <;> rfl

/-- An accepted skill has the version of its third token. -/
theorem parseRoot_version {nsl : Identifier} {version : String} {ts : List Token} {skill : AstSkill}
    (hnsl : nsl.text = "NSL")
    (h : parseRoot (.keyword .language :: .identifier nsl :: .string version :: ts) = .ok skill) :
    skill.languageVersion = version := by
  unfold parseRoot at h
  generalize fuelFor (.keyword .language :: .identifier nsl :: .string version :: ts) = fuel at h
  rcases hrun : parseSkill fuel (start (.keyword .language :: .identifier nsl :: .string version :: ts)) with ⟨w, c, o⟩
  rw [hrun] at h
  obtain rfl : o = .ok skill := h
  unfold parseSkill at hrun
  obtain ⟨_, c₁, head, _, hhead, hrest, -⟩ := Run.andThen_eq_ok hrun
  obtain ⟨_, c₂, sections, _, -, hdone, -⟩ := Run.andThen_eq_ok hrest
  dsimp only at hdone
  split at hdone
  · cases hdone
  · cases hdone
    rw [foldl_assign_version]
    exact skillHead_version hnsl hhead

end Parser

theorem loweringProfile_version (version : SourceLanguageVersion) :
    ∃ profile, loweringProfile (StrEnum.value version) = some profile ∧
      profile.sourceLanguageVersion = StrEnum.value version := by
  cases version with
  | v01 => exact ⟨profileV01, rfl, rfl⟩
  | v02 => exact ⟨profileV02, rfl, rfl⟩

/-- A character that is white space, or in a comment. -/
def TriviaAt (text : List Char) (k : Nat) : Prop :=
  (∃ c, text[k]? = some c ∧ (c = ' ' ∨ c = '\t' ∨ c = '\r' ∨ c = '\n')) ∨
    ∃ j, j ≤ k ∧ slice text j (j + 2) = ['/', '/'] ∧ '\n' ∉ slice text j (k + 1)

/-- Nothing but white space and comments is before the header, and every token that is not of it behind. -/
def LanguageHeader.Leads (header : LanguageHeader) (text : List Char) (tokens : List PlacedToken) : Prop :=
  (∀ k, k < header.start.offset → TriviaAt text k) ∧ ∀ t ∈ tokens.drop 4, header.stop.offset ≤ t.start.offset

theorem LanguageHeader.Begins.leads {header : LanguageHeader} {text : List Char} {tokens : List PlacedToken}
    (h : header.Begins tokens) (hfaithful : Scan.Faithful text ⟨tokens, []⟩) : header.Leads text tokens := by
  obtain ⟨language, nsl, version, semicolon, rest, rfl, -, -, -, -, ⟨hstart, hstop⟩, -⟩ := h
  have hordered := hfaithful.ordered
  refine ⟨fun k hk => ?_, fun t ht => ?_⟩
  · rw [hstart] at hk
    have hlength := (hfaithful.spans language List.mem_cons_self).2
    cases hfaithful.covered k (Nat.zero_le k) (by omega) with
    | token t ht hholds =>
      have hlater : language.start.offset ≤ t.start.offset := by
        rcases List.mem_cons.1 ht with rfl | ht
        · exact Nat.le_refl _
        · exact Nat.le_of_lt ((List.pairwise_cons.1 hordered).1 t ht).1
      have hfrom := hholds.1
      omega
    | space c hc hblank                             => exact .inl ⟨c, hc, hblank⟩
    | comment j _ hto hcomment hline _              => exact .inr ⟨j, hto, hcomment, hline⟩
    | reported c _ hreport                          => exact absurd hreport List.not_mem_nil
    | openString j _ _ _ _ _ hreport                =>
      rcases hreport with hreport | hreport
      · exact absurd hreport List.not_mem_nil
      · exact absurd hreport List.not_mem_nil
  · have hsemicolon := (List.pairwise_cons.1 (List.pairwise_cons.1 (List.pairwise_cons.1
      (List.pairwise_cons.1 hordered).2).2).2).1
    rw [hstop]
    exact (hsemicolon t ht).2

/-- The tokens of a text are those of a scan that reports nothing. -/
theorem tokenize_ok {text : List Char} {version : SourceLanguageVersion} {tokens : List PlacedToken}
    (h : tokenize text version = .ok tokens) : scan (version = .v02) text = .ok ⟨tokens, []⟩ := by
  unfold tokenize at h
  split at h
  · cases h
  · rename_i s hs
    split at h
    · rename_i hnone
      cases h
      rw [hs, ← hnone]
    · cases h

/-- **The scanner of headers and the parser agree**: a source that is tokenized and parsed has the header of its first four
tokens; its version is the one of the tree and of the profile that tree is lowered with, and the tokens are those with the
keywords of that version. -/
theorem header_agrees {text : List Char} {tokens : List PlacedToken} {skill : AstSkill}
    (htokens : tokenizeRoot text = .ok tokens) (hskill : Parser.parseRoot (tokens.map (·.token)) = .ok skill) :
    ∃ header, HeaderScanner.scan text = .ok header ∧
      skill.languageVersion = StrEnum.value header.version ∧
      tokenize text header.version = .ok tokens ∧
      (∃ profile, loweringProfile skill.languageVersion = some profile ∧
        profile.sourceLanguageVersion = StrEnum.value header.version) ∧
      header.Begins tokens ∧ header.Leads text tokens := by
  unfold tokenizeRoot at htokens
  split at htokens
  · cases htokens
  · rename_i header hheader
    have hscan := tokenize_ok htokens
    have hbegins : header.Begins tokens := scanAt_header hheader hscan
    have hfaithful : Scan.Faithful text ⟨tokens, []⟩ := @scanFrom_faithful _ text.length [] text _ (Nat.le_refl _) hscan
    have hversion : skill.languageVersion = StrEnum.value header.version := by
      obtain ⟨language, nsl, version, semicolon, rest, rfl, hlanguage, hnsl, hstring, -⟩ := hbegins
      rw [List.map_cons, List.map_cons, List.map_cons, hlanguage, hnsl, hstring] at hskill
      exact Parser.parseRoot_version rfl hskill
    refine ⟨header, hheader, hversion, htokens, ?_, hbegins, hbegins.leads hfaithful⟩
    rw [hversion]
    exact loweringProfile_version header.version

/-- The text of a skill without sections of its own. -/
def demoText : List Char :=
  "language NSL \"0.1\";skill demo\x7bversion \"1.0.0\";risk R1;include \"limits.nslinc\";\x7d".toList

theorem demoText_tokens : ∃ tokens, tokenizeRoot demoText = .ok tokens ∧ tokens.map (·.token) = Parser.skillTokens [] :=
  ⟨_, rfl, rfl⟩

/-- The header of that text. -/
theorem demoText_agrees : ∃ header tokens, HeaderScanner.scan demoText = .ok header ∧
    tokenize demoText header.version = .ok tokens ∧ header.Begins tokens ∧ header.Leads demoText tokens := by
  obtain ⟨tokens, htokens, hmap⟩ := demoText_tokens
  have hskill : ∃ skill, Parser.parseRoot (tokens.map (·.token)) = .ok skill := by
    rw [hmap]
    exact ⟨_, rfl⟩
  obtain ⟨skill, hskill⟩ := hskill
  obtain ⟨header, hheader, -, hsame, -, hbegins⟩ := header_agrees htokens hskill
  exact ⟨header, tokens, hheader, hsame, hbegins⟩

end Nsl
