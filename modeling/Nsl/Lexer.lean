import Nsl.Base.Places
import Nsl.Tokens
/-!
# Lexer — the tokens of a source text and where they stand

`Lexer.scan` of `syntax.py`: one pass over the text that carries offset, line and column along, each branch moving them by
hand. A step takes a piece of the text off its front (`lexStep_lexed`): white space, a comment, a token, a character it
reports, or an open string with everything behind it. So the tokens stand where counting newlines finds them, nothing
between them is lost, and the scan ends at the end of the text (`scan_faithful_iff`), unless a duration is written with
digits `int` does not read.
-/
namespace Nsl

/-- A `Token` with its lexeme and its span. -/
structure PlacedToken where
  token  : Token
  lexeme : List Char
  start  : Place
  stop   : Place

inductive LexProblem
  | unexpectedCharacter (c : Char)
  | unterminatedString
  | unterminatedEscape
  deriving DecidableEq

/-- A diagnostic of the lexer with its `SourceLocation`. -/
structure LexDiagnostic where
  problem : LexProblem
  line    : Nat
  column  : Nat
  deriving DecidableEq

/-! ## Strings -/

inductive StringEnd
  /-- the value, what follows the closing quote and the place of the quote -/
  | closed (value : List Char) (rest : List Char) (p : Place)
  | unterminated (p : Place)
  | unterminatedEscape (p : Place)

def StringEnd.push (c : Char) : StringEnd → StringEnd
  | .closed value rest p => .closed (c :: value) rest p
  | other                => other

/-- `escapes.get(c, c)` -/
def unescape (c : Char) : Char := if c = 'n' then '\n' else if c = 'r' then '\r' else if c = 't' then '\t' else c

/-- The inside of a string, from the place behind its opening quote. -/
def readString : List Char → Place → StringEnd
  | [], p              => .unterminated p
  | '"' :: cs, p       => .closed [] cs p
  | ['\\'], p          => .unterminatedEscape (p.right 1)
  | '\\' :: c :: cs, p => (readString cs ((p.right 1).past c)).push (unescape c)
  | c :: cs, p         => (readString cs (p.past c)).push c

/-! ## Words and numbers -/

/-- The keyword a language version has for a text. -/
def keywordOf (v02 : Bool) (text : String) : Option Keyword :=
  (StrEnum.members : List Keyword).find? (fun k => (k.inV01 || v02) && StrEnum.value k = text)

theorem isIdentifier_of {v02 : Bool} {name : List Char} (hstart : name.head?.any startsName = true)
    (hall : name.all continuesName = true) (htrue : String.ofList name ≠ "true") (hfalse : String.ofList name ≠ "false")
    (hkeyword : keywordOf v02 (String.ofList name) = none) : isIdentifier (String.ofList name) = true := by
  unfold isIdentifier
  unfold keywordOf at hkeyword
  rw [List.find?_eq_none] at hkeyword
  simp only [Bool.and_eq_true, String.toList_ofList, decide_eq_true_eq, List.all_eq_true, Bool.or_eq_true,
    Bool.not_eq_true']
  refine ⟨⟨⟨⟨hstart, List.all_eq_true.1 hall⟩, by simpa using htrue⟩, by simpa using hfalse⟩, fun k hk => ?_⟩
  have hno := hkeyword k hk
  by_cases hv01 : k.inV01 = true
  · right
    simpa [hv01] using hno
  · left
    simpa using hv01

/-- The token of a word. -/
def wordToken (v02 : Bool) (name : List Char) (hstart : name.head?.any startsName = true)
    (hall : name.all continuesName = true) : Token :=
  if htrue : String.ofList name = "true" then .boolean true
  else if hfalse : String.ofList name = "false" then .boolean false
  else
    match hkeyword : keywordOf v02 (String.ofList name) with
    | some k => .keyword k
    | none   => .identifier ⟨String.ofList name, isIdentifier_of hstart hall htrue hfalse hkeyword⟩

/-- A unit of a duration that starts here, its letters and its milliseconds. -/
def durationUnit (cs : List Char) : Option (Nat × Nat) :=
  let ends (rest : List Char) : Bool := !rest.head?.any continuesName
  if cs.take 2 = ['m', 's'] ∧ ends (cs.drop 2) then some (2, 1)
  else if cs.take 1 = ['s'] ∧ ends (cs.drop 1) then some (1, 1000)
  else if cs.take 1 = ['m'] ∧ ends (cs.drop 1) then some (1, 60000)
  else none

/-! ## Marks -/

/-- `_TWO_CHAR` -/
def twoChar (c d : Char) : Option Mark :=
  if d ≠ '=' then none
  else if c = '<' then some .le
  else if c = '>' then some .ge
  else if c = '=' then some .eq
  else if c = '!' then some .ne
  else none

/-- `_SINGLE` -/
def singleChar (c : Char) : Option Mark :=
  if c = '\x7b' then some .lbrace
  else if c = '\x7d' then some .rbrace
  else if c = '(' then some .lparen
  else if c = ')' then some .rparen
  else if c = ':' then some .colon
  else if c = ';' then some .semicolon
  else if c = ',' then some .comma
  else if c = '.' then some .dot
  else if c = '=' then some .assign
  else if c = '+' then some .plus
  else if c = '-' then some .minus
  else if c = '*' then some .star
  else if c = '/' then some .slash
  else if c = '<' then some .lt
  else if c = '>' then some .gt
  else none

/-! ## One step -/

/-- What one pass of the loop does. -/
inductive LexStep
  | skip (rest : List Char) (p : Place)
  | found (t : PlacedToken) (rest : List Char) (p : Place)
  | report (d : LexDiagnostic) (rest : List Char) (p : Place)
  /-- `break` -/
  | stop (d : LexDiagnostic) (p : Place)
  /-- the `ValueError` of `int` -/
  | raises

theorem digits_there {c : Char} {cs : List Char} (h : Text.isDigit c = true) : (c :: cs).takeWhile Text.isDigit ≠ [] := by
  rw [List.takeWhile_cons_of_pos h]
  exact List.cons_ne_nil _ _

/-- The digits at the front of a text that has some. -/
def leadingDigits (cs : List Char) (there : cs.takeWhile Text.isDigit ≠ []) : Digits :=
  ⟨cs.takeWhile Text.isDigit, there, List.all_takeWhile⟩

/-- `int` of the digits of a duration, or none for its `ValueError`: it reads decimal digits, and no more than 4300. -/
def durationCount (cs : List Char) : Option Nat := if cs.length ≤ 4300 then Text.natOf cs else none

/-- What follows the digits of a number decides what it is. -/
def lexNumber (p : Place) (whole : Digits) (rest : List Char) : LexStep :=
  let p' := p.right whole.chars.length
  if hfraction : rest.head? = some '.' ∧ rest.tail.takeWhile Text.isDigit ≠ [] then
    let fraction := leadingDigits rest.tail hfraction.2
    let p''      := p'.right (1 + fraction.chars.length)
    .found ⟨.decimal whole fraction, whole.chars ++ '.' :: fraction.chars, p, p''⟩ (rest.tail.dropWhile Text.isDigit) p''
  else
    match durationUnit rest with
    | some (letters, milliseconds) =>
      match durationCount whole.chars with
      | some n =>
        .found ⟨.duration (n * milliseconds), whole.chars ++ rest.take letters, p, p'.right letters⟩ (rest.drop letters)
          (p'.right letters)
      | none => .raises
    | none => .found ⟨.integer whole, whole.chars, p, p'⟩ rest p'

/-- The branch of a letter. -/
def lexWord (v02 : Bool) (p : Place) (cs : List Char) (hstart : (cs.takeWhile continuesName).head?.any startsName = true) :
    LexStep :=
  let name := cs.takeWhile continuesName
  let p'   := p.right name.length
  .found ⟨wordToken v02 name hstart List.all_takeWhile, name, p, p'⟩ (cs.dropWhile continuesName) p'

theorem startsName_continues {c : Char} (h : startsName c = true) : continuesName c = true := by
  unfold startsName at h
  unfold continuesName Char.isAlphanum
  simp only [Bool.or_eq_true, decide_eq_true_eq] at h ⊢
  rcases h with h | h
  · exact .inl (.inl h)
  · exact .inr h

theorem word_starts {c : Char} {cs : List Char} (h : startsName c = true) :
    ((c :: cs).takeWhile continuesName).head?.any startsName = true := by
  rw [List.takeWhile_cons_of_pos (startsName_continues h)]
  exact h

/-- The branch of a comment. -/
def lexComment (p : Place) (cs : List Char) : LexStep :=
  let comment := cs.takeWhile (· ≠ '\n')
  .skip (cs.dropWhile (· ≠ '\n')) (p.right comment.length)

/-- The branch of a quote, with the characters behind it. -/
def lexString (p : Place) (cs : List Char) : LexStep :=
  match readString cs (p.right 1) with
  | .closed value rest q =>
    let lexeme := '"' :: cs.take (cs.length - rest.length)
    .found ⟨.string (String.ofList value), lexeme, p, q.right 1⟩ rest (q.right 1)
  | .unterminated q       => .stop ⟨.unterminatedString, p.line, p.column⟩ q
  | .unterminatedEscape q => .stop ⟨.unterminatedEscape, q.line, q.column⟩ q

/-- The branches of the delimiters and operators, and of a character of no other branch. -/
def lexMark (p : Place) (c : Char) (cs : List Char) : LexStep :=
  match cs.head?.bind (twoChar c) with
  | some m => .found ⟨.mark m, (c :: cs).take 2, p, p.right 2⟩ (cs.drop 1) (p.right 2)
  | none   =>
    match singleChar c with
    | some m => .found ⟨.mark m, [c], p, p.right 1⟩ cs (p.right 1)
    | none   => .report ⟨.unexpectedCharacter c, p.line, p.column⟩ cs (p.right 1)

/-- One pass of the loop of `scan` at a character. -/
def lexStep (v02 : Bool) (p : Place) (c : Char) (cs : List Char) : LexStep :=
  if c = ' ' ∨ c = '\t' ∨ c = '\r' then .skip cs (p.right 1)
  else if c = '\n' then .skip cs ⟨p.offset + 1, p.line + 1, 1⟩
  else if c = '/' ∧ cs.head? = some '/' then lexComment p (c :: cs)
  else if c = '"' then lexString p cs
  else if hdigit : Text.isDigit c = true then
    lexNumber p (leadingDigits (c :: cs) (digits_there hdigit)) ((c :: cs).dropWhile Text.isDigit)
  else if hstart : startsName c = true then lexWord v02 p (c :: cs) (word_starts hstart)
  else lexMark p c cs

/-! ## The scan -/

/-- `LexResult` -/
structure Scan where
  tokens      : List PlacedToken
  diagnostics : List LexDiagnostic

def endToken (p : Place) : PlacedToken := ⟨.eof, [], p, p⟩

/-- The loop of `scan`; every pass takes a character, so the length of the text is fuel enough. -/
def scanFrom (v02 : Bool) : Nat → Place → List Char → Except Exn Scan
  | fuel + 1, p, c :: cs =>
    match lexStep v02 p c cs with
    | .skip rest q     => scanFrom v02 fuel q rest
    | .found t rest q  => (scanFrom v02 fuel q rest).map (fun s => { s with tokens := t :: s.tokens })
    | .report d rest q => (scanFrom v02 fuel q rest).map (fun s => { s with diagnostics := d :: s.diagnostics })
    | .stop d q        => .ok ⟨[endToken q], [d]⟩
    | .raises          => .error (.value "invalid literal for int() with base 10")
  | _, p, _ => .ok ⟨[endToken p], []⟩

/-- `Lexer.scan` -/
def scan (v02 : Bool) (text : List Char) : Except Exn Scan := scanFrom v02 text.length Place.start text

/-! ## The pieces of a text -/

/-- A string that is opened here and never closed. -/
def unclosed (cs : List Char) : Bool :=
  match readString cs Place.start with
  | .closed .. => false
  | _          => true

/-- A duration that starts here, with digits `int` does not read. -/
def badDuration (cs : List Char) : Bool :=
  cs.head?.any Text.isDigit && (durationUnit (cs.dropWhile Text.isDigit)).isSome &&
    (durationCount (cs.takeWhile Text.isDigit)).isNone

def behindString : List Char → List Char
  | []              => []
  | '"' :: cs       => cs
  | '\\' :: _ :: cs => behindString cs
  | _ :: cs         => behindString cs

/-- A number without its unit. -/
def behindNumber (cs : List Char) : List Char :=
  let rest := cs.dropWhile Text.isDigit
  if rest.head? = some '.' ∧ rest.tail.takeWhile Text.isDigit ≠ [] then rest.tail.dropWhile Text.isDigit else rest

/-- What is left of a text behind its first comment, string, number, word or other character. -/
def behindPiece : List Char → List Char
  | []      => []
  | c :: cs =>
    if c = '/' ∧ cs.head? = some '/' then cs.dropWhile (· ≠ '\n')
    else if c = '"' then behindString cs
    else if Text.isDigit c then behindNumber (c :: cs)
    else if startsName c then cs.dropWhile continuesName
    else cs

/-- No piece of the text is a duration with digits `int` does not read. -/
def DurationsRead (text : List Char) : Prop := ∀ n, badDuration (behindPiece^[n] text) = false

theorem durationsRead_iff (cs : List Char) : DurationsRead cs ↔ badDuration cs = false ∧ DurationsRead (behindPiece cs) := by
  constructor
  · intro h
    exact ⟨h 0, fun n => h (n + 1)⟩
  · rintro ⟨hfirst, hrest⟩ n
    cases n with
    | zero   => exact hfirst
    | succ n => exact hrest n

theorem durationsRead_nil : DurationsRead [] := by
  intro n
  rw [Function.iterate_fixed rfl]
  rfl

/-- A piece that is no number is no duration. -/
theorem badDuration_cons {c : Char} {cs : List Char} (h : Text.isDigit c = false) : badDuration (c :: cs) = false := by
  rw [badDuration, List.head?_cons, Option.any_some, h]
  rfl

/-- A character of no other piece. -/
theorem durationsRead_other {c : Char} {cs : List Char} (hcomment : ¬(c = '/' ∧ cs.head? = some '/')) (hquote : c ≠ '"')
    (hdigit : Text.isDigit c = false) (hstart : startsName c = false) : DurationsRead (c :: cs) ↔ DurationsRead cs := by
  rw [durationsRead_iff, badDuration_cons hdigit, behindPiece, if_neg hcomment, if_neg hquote, hdigit, hstart]
  simp

/-- A word. -/
theorem durationsRead_word {c : Char} {cs : List Char} (hdigit : Text.isDigit c = false) (hstart : startsName c = true) :
    DurationsRead (c :: cs) ↔ DurationsRead ((c :: cs).dropWhile continuesName) := by
  have hcomment : ¬(c = '/' ∧ cs.head? = some '/') := by
    rintro ⟨rfl, -⟩
    cases hstart
  have hquote : c ≠ '"' := by
    rintro rfl
    cases hstart
  rw [durationsRead_iff, badDuration_cons hdigit, behindPiece, if_neg hcomment, if_neg hquote, hdigit, hstart,
    List.dropWhile_cons_of_pos (startsName_continues hstart)]
  simp

/-! ## What a step takes -/

/-- **The pieces of a text**: what a step at a place takes off its front. -/
inductive Lexed (p : Place) : List Char → LexStep → Prop
  | space {c rest} (h : c = ' ' ∨ c = '\t' ∨ c = '\r' ∨ c = '\n') (hread : DurationsRead (c :: rest) ↔ DurationsRead rest) :
      Lexed p (c :: rest) (.skip rest (p.after [c]))
  | comment {body rest} (h : '\n' ∉ body)
      (hread : DurationsRead ('/' :: '/' :: (body ++ rest)) ↔ DurationsRead rest) :
      Lexed p ('/' :: '/' :: (body ++ rest)) (.skip rest (p.after ('/' :: '/' :: body)))
  | token {t c mid rest} (hread : DurationsRead (c :: mid ++ rest) ↔ DurationsRead rest) :
      Lexed p (c :: mid ++ rest) (.found ⟨t, c :: mid, p, p.after (c :: mid)⟩ rest (p.after (c :: mid)))
  | stray {c rest} (hread : DurationsRead (c :: rest) ↔ DurationsRead rest) :
      Lexed p (c :: rest) (.report ⟨.unexpectedCharacter c, p.line, p.column⟩ rest (p.after [c]))
  | openString {body d} (h : unclosed body = true) (hread : DurationsRead ('"' :: body))
      (hd : d = ⟨.unterminatedString, p.line, p.column⟩ ∨
        d = ⟨.unterminatedEscape, (p.after ('"' :: body)).line, (p.after ('"' :: body)).column⟩) :
      Lexed p ('"' :: body) (.stop d (p.after ('"' :: body)))
  | badDuration {cs} (h : badDuration cs = true) : Lexed p cs .raises

/-- What reading a string gives, whatever the place. -/
def StringEnd.Reads (cs : List Char) (p : Place) : StringEnd → Prop
  | .closed _ rest q      => (∃ body, cs = body ++ '"' :: rest ∧ q = p.after body) ∧ behindString cs = rest
  | .unterminated q       => q = p.after cs ∧ behindString cs = []
  | .unterminatedEscape q => q = p.after cs ∧ behindString cs = []

theorem StringEnd.Reads.push {cs : List Char} {p : Place} {used : List Char} {e : StringEnd} (d : Char)
    (hused : behindString (used ++ cs) = behindString cs) (h : e.Reads cs (p.after used)) :
    (e.push d).Reads (used ++ cs) p := by
  cases e with
  | closed value rest q =>
    obtain ⟨⟨body, rfl, rfl⟩, hrest⟩ := h
    exact ⟨⟨used ++ body, (List.append_assoc ..).symm, (p.after_append used body).symm⟩, hused.trans hrest⟩
  | unterminated q       => exact ⟨h.1.trans (p.after_append used cs).symm, hused.trans h.2⟩
  | unterminatedEscape q => exact ⟨h.1.trans (p.after_append used cs).symm, hused.trans h.2⟩

theorem right_quote (p : Place) : p.right 1 = p.past '"' := (Place.past_right (by decide)).symm

theorem right_slash (p : Place) : p.right 1 = p.past '\\' := (Place.past_right (by decide)).symm

theorem readString_reads (cs : List Char) (p : Place) : (readString cs p).Reads cs p := by
  fun_induction readString cs p with
  | case1 p                  => exact ⟨rfl, rfl⟩
  | case2 cs p               => exact ⟨⟨[], rfl, rfl⟩, rfl⟩
  | case3 p                  => exact ⟨right_slash p, rfl⟩
  | case4 c cs p ih          =>
    rw [right_slash] at ih ⊢
    have hcs : (readString cs ((p.past '\\').past c)).Reads cs (p.after ['\\', c]) := ih
    exact StringEnd.Reads.push (unescape c) rfl hcs
  | case5 c cs p hq hs hc ih =>
    have hcs : (readString cs (p.past c)).Reads cs (p.after [c]) := ih
    exact StringEnd.Reads.push c (behindString.eq_4 c cs hq (fun d ds hslash h => hc d ds hslash h)) hcs

/-- Whether a string is closed does not depend on its place. -/
def StringEnd.isClosed : StringEnd → Bool
  | .closed .. => true
  | _          => false

theorem StringEnd.isClosed_push (c : Char) (e : StringEnd) : (e.push c).isClosed = e.isClosed := by
  cases e <;> rfl

theorem readString_isClosed (cs : List Char) (p q : Place) : (readString cs p).isClosed = (readString cs q).isClosed := by
  fun_induction readString cs p generalizing q with
  | case1 p                  => rfl
  | case2 cs p               => rw [readString]; rfl
  | case3 p                  => rfl
  | case4 c cs p ih          => rw [readString, StringEnd.isClosed_push, StringEnd.isClosed_push, ih]
  | case5 c cs p hq hs hc ih =>
    rw [readString.eq_5 q c cs hq hs hc, StringEnd.isClosed_push, StringEnd.isClosed_push, ih]

theorem unclosed_of {cs : List Char} {p : Place} (h : (readString cs p).isClosed = false) : unclosed cs = true := by
  rw [readString_isClosed cs p Place.start] at h
  unfold unclosed
  cases hread : readString cs Place.start with
  | closed => rw [hread] at h; cases h
  | _      => rfl

theorem not_mem_takeWhile {α : Type} {q : α → Bool} {a : α} (h : q a = false) : ∀ {cs : List α}, a ∉ cs.takeWhile q := by
  intro cs hmem
  have hq := List.mem_takeWhile_imp hmem
  rw [h] at hq
  cases hq

/-- No digit and no character of a name ends a line. -/
theorem newline_classes : Text.isDigit '\n' = false ∧ continuesName '\n' = false := by decide

/-- A token on one line, from the front of a text. -/
theorem Lexed.ofToken {p : Place} {cs mid rest : List Char} (t : Token) (hcs : cs = mid ++ rest) (hne : mid ≠ [])
    (hline : '\n' ∉ mid) (hread : DurationsRead cs ↔ DurationsRead rest) :
    Lexed p cs (.found ⟨t, mid, p, p.right mid.length⟩ rest (p.right mid.length)) := by
  obtain ⟨c, mid, rfl⟩ := List.exists_cons_of_ne_nil hne
  subst hcs
  rw [← Place.after_right p hline]
  exact .token hread

/-- A piece with no duration in it. -/
theorem durationsRead_behind {cs rest : List Char} (hbad : badDuration cs = false) (hbehind : behindPiece cs = rest) :
    DurationsRead cs ↔ DurationsRead rest := by
  rw [durationsRead_iff, hbad, hbehind]
  simp

theorem lexComment_lexed (p : Place) (cs : List Char) : Lexed p ('/' :: '/' :: cs) (lexComment p ('/' :: '/' :: cs)) := by
  have hbody : '\n' ∉ cs.takeWhile (· ≠ '\n') := not_mem_takeWhile (by decide)
  have hline : '\n' ∉ '/' :: '/' :: cs.takeWhile (· ≠ '\n') := by
    rw [List.mem_cons, List.mem_cons, not_or, not_or]
    exact ⟨by decide, by decide, hbody⟩
  have htake : ('/' :: '/' :: cs).takeWhile (· ≠ '\n') = '/' :: '/' :: cs.takeWhile (· ≠ '\n') := by
    rw [List.takeWhile_cons_of_pos (by decide), List.takeWhile_cons_of_pos (by decide)]
  have hdrop : ('/' :: '/' :: cs).dropWhile (· ≠ '\n') = cs.dropWhile (· ≠ '\n') := by
    rw [List.dropWhile_cons_of_pos (by decide), List.dropWhile_cons_of_pos (by decide)]
  have hwhole : '/' :: '/' :: cs = '/' :: '/' :: (cs.takeWhile (· ≠ '\n') ++ cs.dropWhile (· ≠ '\n')) := by
    rw [List.takeWhile_append_dropWhile]
  have hread : DurationsRead ('/' :: '/' :: cs) ↔ DurationsRead (cs.dropWhile (· ≠ '\n')) := by
    refine durationsRead_behind (badDuration_cons (by decide)) ?_
    rw [behindPiece, if_pos ⟨rfl, rfl⟩, List.dropWhile_cons_of_pos (by decide)]
  unfold lexComment
  simp only [htake, hdrop]
  rw [← Place.after_right p hline]
  rw [hwhole] at hread ⊢
  exact .comment hbody hread

theorem lexString_lexed (p : Place) (cs : List Char) : Lexed p ('"' :: cs) (lexString p cs) := by
  have hreads := readString_reads cs (p.right 1)
  have hbehind : behindPiece ('"' :: cs) = behindString cs := by
    rw [behindPiece, if_neg (by simp), if_pos rfl]
  have hread := durationsRead_behind (badDuration_cons (by decide)) hbehind
  unfold lexString
  rw [right_quote] at hreads ⊢
  cases hend : readString cs (p.past '"') with
  | closed value rest q =>
    rw [hend] at hreads
    obtain ⟨⟨body, hcs, rfl⟩, hrest⟩ := hreads
    have hwhole : cs = body ++ ['"'] ++ rest := by simp [hcs]
    have htaken : cs.take (cs.length - rest.length) = body ++ ['"'] := by
      rw [hwhole, List.length_append, Nat.add_sub_cancel, List.take_left]
    have hplace : ((p.past '"').after body).right 1 = p.after ('"' :: (body ++ ['"'])) := by
      rw [Place.after_cons, Place.after_append, right_quote]
      rfl
    simp only [htaken, hplace]
    rw [hrest, hwhole] at hread
    rw [hwhole]
    exact .token hread
  | unterminated q =>
    rw [hend] at hreads
    obtain ⟨rfl, hrest⟩ := hreads
    rw [hrest] at hread
    exact .openString (unclosed_of (by rw [hend]; rfl)) (hread.2 durationsRead_nil) (.inl rfl)
  | unterminatedEscape q =>
    rw [hend] at hreads
    obtain ⟨rfl, hrest⟩ := hreads
    rw [hrest] at hread
    exact .openString (unclosed_of (by rw [hend]; rfl)) (hread.2 durationsRead_nil) (.inr rfl)

/-- Letters that end a word are a word of their own. -/
theorem letters_word {cs : List Char} (c : Char) (letters : List Char)
    (hletters : cs.take (letters.length + 1) = c :: letters)
    (hends : (!(cs.drop (letters.length + 1)).head?.any continuesName) = true) (hdigit : Text.isDigit c = false)
    (hstart : startsName c = true) (hall : letters.all continuesName = true) :
    '\n' ∉ cs.take (letters.length + 1) ∧ (cs.take (letters.length + 1)).length = letters.length + 1 ∧
      (DurationsRead cs ↔ DurationsRead (cs.drop (letters.length + 1))) := by
  have hcontinue : ∀ d ∈ c :: letters, continuesName d = true := by
    rw [List.forall_mem_cons]
    exact ⟨startsName_continues hstart, List.all_eq_true.1 hall⟩
  have hline : '\n' ∉ c :: letters := fun hmem => absurd (hcontinue _ hmem) (by decide)
  have hsplit : cs = c :: letters ++ cs.drop (letters.length + 1) := by
    rw [← hletters, List.take_append_drop]
  generalize cs.drop (letters.length + 1) = rest at *
  rw [hletters]
  refine ⟨hline, rfl, ?_⟩
  have hrest : rest.dropWhile continuesName = rest := by
    cases rest with
    | nil         => rfl
    | cons d rest => exact List.dropWhile_cons_of_neg (by simpa using hends)
  have hdrop : cs.dropWhile continuesName = rest := by
    rw [hsplit, List.dropWhile_append_of_pos hcontinue, hrest]
  have hword := @durationsRead_word c (letters ++ rest) hdigit hstart
  rw [← List.cons_append, ← hsplit, hdrop] at hword
  exact hword

theorem durationUnit_letters {cs : List Char} {letters milliseconds : Nat} (h : durationUnit cs = some (letters, milliseconds)) :
    '\n' ∉ cs.take letters ∧ (cs.take letters).length = letters ∧ (DurationsRead cs ↔ DurationsRead (cs.drop letters)) := by
  unfold durationUnit at h
  simp only at h
  split at h
  · rename_i hunit
    cases h
    exact letters_word 'm' ['s'] hunit.1 hunit.2 (by decide) (by decide) (by decide)
  · split at h
    · rename_i hunit
      cases h
      exact letters_word 's' [] hunit.1 hunit.2 (by decide) (by decide) (by decide)
    · split at h
      · rename_i hunit
        cases h
        exact letters_word 'm' [] hunit.1 hunit.2 (by decide) (by decide) (by decide)
      · cases h

theorem lexNumber_lexed {cs rest : List Char} {whole : Digits} (p : Place) (hsplit : cs = whole.chars ++ rest)
    (hbad : badDuration cs = ((durationUnit rest).isSome && (durationCount whole.chars).isNone))
    (hbehind : behindPiece cs =
      if rest.head? = some '.' ∧ rest.tail.takeWhile Text.isDigit ≠ [] then rest.tail.dropWhile Text.isDigit else rest)
    (hline : '\n' ∉ whole.chars) : Lexed p cs (lexNumber p whole rest) := by
  unfold lexNumber
  simp only
  split
  · rename_i hfraction
    have htail : '\n' ∉ (leadingDigits rest.tail hfraction.2).chars := not_mem_takeWhile newline_classes.1
    have hrest : rest = '.' :: ((leadingDigits rest.tail hfraction.2).chars ++ rest.tail.dropWhile Text.isDigit) := by
      rw [show (leadingDigits rest.tail hfraction.2).chars ++ rest.tail.dropWhile Text.isDigit = rest.tail from
        List.takeWhile_append_dropWhile]
      exact List.eq_cons_of_mem_head? hfraction.1
    have hunit : durationUnit rest = none := by
      rw [hrest]
      simp [durationUnit]
    rw [if_pos hfraction] at hbehind
    rw [hunit] at hbad
    have hread := durationsRead_behind hbad hbehind
    generalize leadingDigits rest.tail hfraction.2 = fraction at *
    have hmid : cs = (whole.chars ++ '.' :: fraction.chars) ++ rest.tail.dropWhile Text.isDigit := by
      rw [List.append_assoc, List.cons_append, ← hrest]
      exact hsplit
    have hlength : whole.chars.length + (1 + fraction.chars.length) = (whole.chars ++ '.' :: fraction.chars).length := by
      rw [List.length_append, List.length_cons]
      omega
    rw [Place.right_right, hlength]
    exact Lexed.ofToken _ hmid (by simp) (by simp [hline, htail]) hread
  · rename_i hfraction
    rw [if_neg hfraction] at hbehind
    split
    · rename_i letters milliseconds hunit
      obtain ⟨hletters, hlength, hunitRead⟩ := durationUnit_letters hunit
      rw [hunit] at hbad
      split
      · rename_i hcount
        rw [hcount] at hbad
        have hread := durationsRead_behind hbad hbehind
        have hmid : cs = (whole.chars ++ rest.take letters) ++ rest.drop letters := by
          rw [List.append_assoc, List.take_append_drop]
          exact hsplit
        have hall : whole.chars.length + letters = (whole.chars ++ rest.take letters).length := by
          rw [List.length_append, hlength]
        rw [Place.right_right, hall]
        exact Lexed.ofToken _ hmid (by simp [whole.there]) (by simp [hline, hletters]) (hread.trans hunitRead)
      · rename_i hnone
        rw [hnone] at hbad
        exact .badDuration hbad
    · rename_i hunit
      rw [hunit] at hbad
      exact Lexed.ofToken _ hsplit whole.there hline (durationsRead_behind hbad hbehind)

theorem lexWord_lexed (v02 : Bool) (p : Place) {c : Char} {cs : List Char} (hdigit : Text.isDigit c = false)
    (hstart : startsName c = true) : Lexed p (c :: cs) (lexWord v02 p (c :: cs) (word_starts hstart)) := by
  have hne : (c :: cs).takeWhile continuesName ≠ [] := by
    rw [List.takeWhile_cons_of_pos (startsName_continues hstart)]
    exact List.cons_ne_nil _ _
  exact Lexed.ofToken _ List.takeWhile_append_dropWhile.symm hne (not_mem_takeWhile newline_classes.2)
    (durationsRead_word hdigit hstart)

theorem twoChar_second {c d : Char} {m : Mark} (h : twoChar c d = some m) : d = '=' := by
  unfold twoChar at h
  split at h
  · cases h
  · rename_i hd
    exact not_not.1 hd

theorem lexMark_lexed {p : Place} {c : Char} {cs : List Char} (hline : c ≠ '\n')
    (hread : DurationsRead (c :: cs) ↔ DurationsRead cs) : Lexed p (c :: cs) (lexMark p c cs) := by
  unfold lexMark
  split
  · rename_i m htwo
    obtain ⟨d, hnext, hmark⟩ := Option.bind_eq_some_iff.1 htwo
    obtain rfl : d = '=' := twoChar_second hmark
    have hcs : cs = '=' :: cs.tail := List.eq_cons_of_mem_head? hnext
    have hassign : DurationsRead cs ↔ DurationsRead cs.tail := by
      rw [hcs]
      exact durationsRead_other (by simp) (by decide) (by decide) (by decide)
    have hrest : cs.drop 1 = cs.tail := List.drop_one
    rw [hrest]
    have hwhole : c :: cs = [c, '='] ++ cs.tail := by
      rw [List.cons_append, List.cons_append, List.nil_append, ← hcs]
    have htaken : (c :: cs).take 2 = [c, '='] := by
      rw [hwhole]
      rfl
    rw [htaken]
    exact Lexed.ofToken _ hwhole (List.cons_ne_nil _ _) (by simp [Ne.symm hline]) (hread.trans hassign)
  · split
    · exact Lexed.ofToken _ rfl (List.cons_ne_nil _ _) (by simp [Ne.symm hline]) hread
    · rw [← Place.past_right hline]
      exact .stray hread

/-- **Every pass takes a piece off the front of the text.** -/
theorem lexStep_lexed (v02 : Bool) (p : Place) (c : Char) (cs : List Char) : Lexed p (c :: cs) (lexStep v02 p c cs) := by
  unfold lexStep
  by_cases hblank : c = ' ' ∨ c = '\t' ∨ c = '\r'
  · rw [if_pos hblank]
    have hline : c ≠ '\n' := by rcases hblank with rfl | rfl | rfl <;> decide
    rw [← Place.past_right hline]
    refine .space (by tauto) ?_
    rcases hblank with rfl | rfl | rfl <;> exact durationsRead_other (by simp) (by decide) (by decide) (by decide)
  rw [if_neg hblank]
  by_cases hnewline : c = '\n'
  · rw [if_pos hnewline]
    subst hnewline
    exact .space (by simp) (durationsRead_other (by simp) (by decide) (by decide) (by decide))
  rw [if_neg hnewline]
  by_cases hcomment : c = '/' ∧ cs.head? = some '/'
  · rw [if_pos hcomment]
    obtain ⟨rfl, hnext⟩ := hcomment
    rw [List.eq_cons_of_mem_head? hnext]
    exact lexComment_lexed p cs.tail
  rw [if_neg hcomment]
  by_cases hquote : c = '"'
  · rw [if_pos hquote]
    subst hquote
    exact lexString_lexed p cs
  rw [if_neg hquote]
  by_cases hdigit : Text.isDigit c = true
  · rw [dif_pos hdigit]
    have hbad : badDuration (c :: cs) = ((durationUnit ((c :: cs).dropWhile Text.isDigit)).isSome &&
        (durationCount ((c :: cs).takeWhile Text.isDigit)).isNone) := by
      rw [badDuration, List.head?_cons, Option.any_some, hdigit, Bool.true_and]
    have hbehind : behindPiece (c :: cs) = behindNumber (c :: cs) := by
      rw [behindPiece, if_neg hcomment, if_neg hquote, if_pos hdigit]
    exact lexNumber_lexed p List.takeWhile_append_dropWhile.symm hbad hbehind (not_mem_takeWhile newline_classes.1)
  rw [dif_neg hdigit]
  by_cases hstart : startsName c = true
  · rw [dif_pos hstart]
    exact lexWord_lexed v02 p (Bool.eq_false_iff.2 hdigit) hstart
  rw [dif_neg hstart]
  exact lexMark_lexed hnewline
    (durationsRead_other hcomment hquote (Bool.eq_false_iff.2 hdigit) (Bool.eq_false_iff.2 hstart))

end Nsl
