import Nsl.Parser
/-!
# Parser places — which strings an accepted parse read as strings

The parser asks for delimiters, operators, keywords and the end of its input by the text of a token, whatever its kind.
`stringPlace` says, of what stands before a string, whether the grammar takes a string there. An accepted parse took every
string for a string, and read its tokens to their end, exactly when every string stands at such a place: up to the first
string that does not, every step of the parser keeps the place it is at.
-/
namespace Nsl

open Stateful (Run Trace)

/-- Expressions stand after this keyword, up to the next one. -/
def Keyword.takesExpression : Keyword → Bool
  | .letWord | .inWord | .assert | .emit | .read | .write | .approvedBy => true
  | _                                                                   => false

/-- A string stands right after this keyword. -/
def Keyword.takesText : Keyword → Bool
  | .version | .include | .message => true
  | _                              => false

/-- An expression starts right after this token. -/
def Token.opensExpression : Token → Bool
  | .mark m    => m ∈ [.assign, .lparen, .comma, .colon, .plus, .minus, .star, .slash, .eq, .ne, .lt, .le, .gt, .ge]
  | .keyword k => k = .inWord || k = .assert
  | _          => false

/-- A type ends with this token. -/
def Token.endsType : Token → Bool
  | .identifier _ => true
  | .mark m       => m = .gt
  | _             => false

/-- An identifier of that name. -/
def Token.named (name : String) (t : Token) : Bool := t.asIdentifier? = some name

namespace Parser

/-! ## Places -/

/-- The last keyword of the tokens before a place, the last one first. -/
def lastKeyword (before : List Token) : Option Keyword := before.findSome? Token.asKeyword?

/-- The parenthesis after a name. -/
def opensCall : List Token → Bool
  | .mark .lparen :: .identifier _ :: _ => true
  | _                                   => false

/-- The `from` of a context field: it stands after the field's type. -/
def afterFrom : List Token → Bool
  | t :: u :: _ => t.named "from" && u.endsType
  | _           => false

/-- **The grammar takes a string after these tokens.** In a call it takes the string `)` for none of the arguments. -/
def stringPlace (before : List Token) (content : String) : Bool :=
  match lastKeyword before with
  | none   => false
  | some k =>
    if k.takesExpression then before.head?.any Token.opensExpression && !(content = ")" && opensCall before)
    else if k = .context then afterFrom before
    else if k = .language then before.head?.any (Token.named "NSL")
    else k.takesText && before.head? = some (.keyword k)

/-- Every string before the end of the input stands at its place; `before` is what stands before these tokens. -/
def stringsInPlace : List Token → List Token → Bool
  | _,      []                => true
  | _,      .eof :: _         => true
  | before, .string s :: rest => stringPlace before s && stringsInPlace (.string s :: before) rest
  | before, t :: rest         => stringsInPlace (t :: before) rest

@[simp] theorem lastKeyword_keyword (k : Keyword) (b : List Token) : lastKeyword (.keyword k :: b) = some k := rfl

theorem lastKeyword_cons {t : Token} (h : t.asKeyword? = none) (b : List Token) :
    lastKeyword (t :: b) = lastKeyword b := by
  unfold lastKeyword
  rw [List.findSome?_cons, h]

/-! ## Calm places -/

/-- No string stands here. -/
def Calm (b : List Token) : Prop := ∀ s, stringPlace b s = false

/-- Expressions stand around here. -/
def InExpression (b : List Token) : Prop := ∃ k, lastKeyword b = some k ∧ k.takesExpression = true

theorem calm_of_nil {b : List Token} (h : b = []) : Calm b := by
  rw [h]
  exact fun _ => rfl

theorem calm_keyword {k : Keyword} (h : k.takesText = false) (ho : (Token.keyword k).opensExpression = false)
    (b : List Token) : Calm (.keyword k :: b) := by
  intro s
  unfold stringPlace
  rw [lastKeyword_keyword]
  simp only [List.head?_cons, Option.any_some, ho, h, Bool.false_and, Token.named, Token.asIdentifier?]
  cases b <;> simp [afterFrom, Token.named, Token.asIdentifier?]

/-- A token that is no keyword, opens no expression and is no name. -/
theorem calm_other {t : Token} (hk : t.asKeyword? = none) (hi : t.asIdentifier? = none) {b : List Token}
    (ho : InExpression b → t.opensExpression = false) : Calm (t :: b) := by
  intro s
  unfold stringPlace
  rw [lastKeyword_cons hk]
  have hnamed : ∀ name, t.named name = false := by
    intro name
    simp [Token.named, hi]
  have hfrom : afterFrom (t :: b) = false := by
    cases b with
    | nil => rfl
    | cons u b => simp [afterFrom, hnamed]
  cases hlast : lastKeyword b with
  | none   => rfl
  | some k =>
    dsimp only
    split
    · rename_i htakes
      simp [ho ⟨k, hlast, htakes⟩]
    · have hne : t ≠ .keyword k := fun he => by simp [he, Token.asKeyword?] at hk
      simp [hfrom, hnamed, hne]

theorem calm_mark {m : Mark} {b : List Token} (h : InExpression b → (Token.mark m).opensExpression = false) :
    Calm (.mark m :: b) := calm_other rfl rfl h

theorem calm_closing {m : Mark} (h : (Token.mark m).opensExpression = false) (b : List Token) : Calm (.mark m :: b) :=
  calm_mark (fun _ => h)

/-- A name is calm unless it is the `from` of a context or the `NSL` after `language`. -/
theorem calm_identifier {name : Identifier} {b : List Token}
    (hfrom : lastKeyword b = some .context → afterFrom (.identifier name :: b) = false)
    (hnsl : lastKeyword b ≠ some .language) : Calm (.identifier name :: b) := by
  intro s
  unfold stringPlace
  rw [lastKeyword_cons rfl]
  cases hlast : lastKeyword b with
  | none   => rfl
  | some k =>
    rw [hlast] at hfrom hnsl
    have hk : k ≠ .language := fun he => hnsl (by rw [he])
    dsimp only
    split
    · simp [Token.opensExpression]
    · split
      · rename_i hcontext
        exact hfrom (by rw [hcontext])
      · simp

theorem calm_identifier_last {name : Identifier} {b : List Token} {k : Keyword} (hlast : lastKeyword b = some k)
    (hcontext : k ≠ .context) (hlanguage : k ≠ .language) : Calm (.identifier name :: b) := by
  refine calm_identifier (fun h => ?_) (fun h => ?_)
  · rw [hlast] at h
    exact absurd (Option.some.inj h) hcontext
  · rw [hlast] at h
    exact absurd (Option.some.inj h) hlanguage

theorem InExpression.cons {t : Token} {b : List Token} (h : InExpression b) (hk : t.asKeyword? = none) :
    InExpression (t :: b) := by
  obtain ⟨k, hlast, htakes⟩ := h
  exact ⟨k, by rw [lastKeyword_cons hk]; exact hlast, htakes⟩

theorem InExpression.keyword {k : Keyword} (h : k.takesExpression = true) (b : List Token) :
    InExpression (.keyword k :: b) := ⟨k, rfl, h⟩

theorem InExpression.calm_identifier {name : Identifier} {b : List Token} (h : InExpression b) :
    Calm (.identifier name :: b) := by
  obtain ⟨k, hlast, htakes⟩ := h
  refine calm_identifier_last hlast ?_ ?_
  · rintro rfl
    cases htakes
  · rintro rfl
    cases htakes

/-! ## What a word is spelled by -/

theorem digits_isDigit_head (d : Digits) : ∃ c cs, d.chars = c :: cs ∧ Text.isDigit c = true := by
  obtain ⟨chars, hthere, hok⟩ := d
  cases chars with
  | nil       => exact absurd rfl hthere
  | cons c cs => exact ⟨c, cs, rfl, by simp only [List.all_cons, Bool.and_eq_true] at hok; exact hok.1⟩

/-- The text of a number starts with a digit. -/
theorem number_text {t : Token} {s : String} (h : t.text = some s) (ht : t.kind = .integer ∨ t.kind = .decimal) :
    s.toList.head?.any Text.isDigit = true := by
  cases t with
  | integer d =>
    obtain ⟨c, cs, hd, hc⟩ := digits_isDigit_head d
    simp only [Token.text, Option.some.injEq] at h
    rw [← h, hd]
    simpa using hc
  | decimal w f =>
    obtain ⟨c, cs, hd, hc⟩ := digits_isDigit_head w
    simp only [Token.text, Option.some.injEq] at h
    rw [← h, hd]
    simpa using hc
  | _ => simp [Token.kind] at ht

theorem text_of_mark {t : Token} {m : Mark} (h : t.text = some (StrEnum.value m)) :
    t = .mark m ∨ t = .string (StrEnum.value m) := by
  cases t with
  | string s      => exact .inr (by rw [Option.some.inj h])
  | mark m'       => exact .inl (by rw [StrEnum.distinct m' m (Option.some.inj h)])
  | keyword k     =>
    have hne : StrEnum.value k ≠ StrEnum.value m := by cases k <;> cases m <;> decide
    exact absurd (Option.some.inj h) hne
  | identifier n  =>
    have hok := n.ok
    rw [Option.some.inj h] at hok
    cases m <;> exact absurd hok (by decide)
  | integer d     =>
    have hd := number_text h (.inl rfl)
    cases m <;> exact absurd hd (by decide)
  | decimal w f   =>
    have hd := number_text h (.inr rfl)
    cases m <;> exact absurd hd (by decide)
  | boolean b     => cases h
  | duration n    => cases h
  | eof           =>
    have hne : "<eof>" ≠ StrEnum.value m := by cases m <;> decide
    exact absurd (Option.some.inj h) hne

theorem text_of_keyword {t : Token} {k : Keyword} (h : t.text = some (StrEnum.value k)) :
    t = .keyword k ∨ t = .string (StrEnum.value k) ∨ (k.inV01 = false ∧ t.named (StrEnum.value k) = true) := by
  cases t with
  | string s      => exact .inr (.inl (by rw [Option.some.inj h]))
  | keyword k'    => exact .inl (by rw [StrEnum.distinct k' k (Option.some.inj h)])
  | mark m        =>
    have hne : StrEnum.value m ≠ StrEnum.value k := by cases m <;> cases k <;> decide
    exact absurd (Option.some.inj h) hne
  | identifier n  =>
    have hname : n.text = StrEnum.value k := Option.some.inj h
    refine .inr (.inr ⟨?_, by simp [Token.named, Token.asIdentifier?, hname]⟩)
    have hok := n.ok
    rw [hname] at hok
    cases k with
    | write | approve | approvedBy => rfl
    | _ => exact absurd hok (by decide)
  | integer d     =>
    have hd := number_text h (.inl rfl)
    cases k <;> exact absurd hd (by decide)
  | decimal w f   =>
    have hd := number_text h (.inr rfl)
    cases k <;> exact absurd hd (by decide)
  | boolean b     => cases h
  | duration n    => cases h
  | eof           =>
    have hne : "<eof>" ≠ StrEnum.value k := by cases k <;> decide
    exact absurd (Option.some.inj h) hne

/-- A word that is neither a delimiter nor a keyword. -/
theorem text_of_name {t : Token} {s : String} (h : t.text = some s) (hs : isIdentifier s = true)
    (hk : ∀ k : Keyword, StrEnum.value k ≠ s) (hdigit : s.toList.head?.any Text.isDigit = false) :
    (∃ name, t = .identifier name ∧ name.text = s) ∨ t = .string s := by
  cases t with
  | string s'     => exact .inr (by rw [Option.some.inj h])
  | identifier n  => exact .inl ⟨n, rfl, Option.some.inj h⟩
  | keyword k     => exact absurd (Option.some.inj h) (hk k)
  | mark m        =>
    rw [← Option.some.inj h] at hs
    cases m <;> exact absurd hs (by decide)
  | integer d     =>
    have hd := number_text h (.inl rfl)
    rw [hdigit] at hd
    cases hd
  | decimal w f   =>
    have hd := number_text h (.inr rfl)
    rw [hdigit] at hd
    cases hd
  | boolean b     => cases h
  | duration n    => cases h
  | eof           =>
    rw [← Option.some.inj h] at hs
    exact absurd hs (by decide)

theorem text_of_end {t : Token} (h : t.text = some "<eof>") : t = .eof ∨ t = .string "<eof>" := by
  cases t with
  | string s      => exact .inr (by rw [Option.some.inj h])
  | eof           => exact .inl rfl
  | identifier n  =>
    have hok := n.ok
    rw [Option.some.inj h] at hok
    exact absurd hok (by decide)
  | keyword k     =>
    have hne : StrEnum.value k ≠ "<eof>" := by cases k <;> decide
    exact absurd (Option.some.inj h) hne
  | mark m        =>
    have hne : StrEnum.value m ≠ "<eof>" := by cases m <;> decide
    exact absurd (Option.some.inj h) hne
  | integer d     =>
    have hd := number_text h (.inl rfl)
    exact absurd hd (by decide)
  | decimal w f   =>
    have hd := number_text h (.inr rfl)
    exact absurd hd (by decide)
  | boolean b     => cases h
  | duration n    => cases h

/-! ## Up to the first string out of place -/

/-- Every string behind the cursor was taken for a string at its place, and the end of the input is not behind it. -/
def Clean : List (Token × Role) → Prop
  | []             => True
  | (t, role) :: r => Clean r ∧ t ≠ .eof ∧ ∀ s, t = .string s → role = .kind ∧ stringPlace (r.map Prod.fst) s = true

/-- Behind the cursor a string was taken for a word, the first one out of its place. -/
def Astray : List (Token × Role) → Prop
  | []             => False
  | (t, role) :: r => Astray r ∨ (Clean r ∧ ∃ s, t = .string s ∧ role = .word ∧ stringPlace (r.map Prod.fst) s = false)

theorem Clean.words : ∀ {r : List (Token × Role)}, Clean r → ∀ t ∈ r, t.2 = .word → t.1.isString = false
  | (u, role) :: r, ⟨hclean, _, hplace⟩, t, ht, hword => by
    rcases List.mem_cons.1 ht with rfl | ht
    · cases u with
      | string s => exact absurd ((hplace s rfl).1.symm.trans hword) (by decide)
      | _        => rfl
    · exact hclean.words t ht hword

theorem Clean.noEof : ∀ {r : List (Token × Role)}, Clean r → ∀ t ∈ r.map Prod.fst, t ≠ .eof
  | (u, role) :: r, ⟨hclean, hne, _⟩, t, ht => by
    rcases List.mem_cons.1 ht with rfl | ht
    · exact hne
    · exact hclean.noEof t ht

theorem Astray.word : ∀ {r : List (Token × Role)}, Astray r → ∃ t ∈ r, t.2 = .word ∧ t.1.isString = true
  | (u, role) :: r, h => by
    obtain h | ⟨_, s, hs, hword, _⟩ := h
    · obtain ⟨t, ht, hword, hstring⟩ := h.word
      exact ⟨t, List.mem_cons_of_mem _ ht, hword, hstring⟩
    · exact ⟨_, List.mem_cons_self, hword, by rw [hs]; rfl⟩

/-- The strings behind a clean cursor are in place, whatever is ahead. -/
theorem Clean.inPlace : ∀ {r : List (Token × Role)}, Clean r → ∀ (ahead : List Token),
    stringsInPlace [] ((r.map Prod.fst).reverse ++ ahead) = stringsInPlace (r.map Prod.fst) ahead
  | [], _, _                                        => rfl
  | (t, role) :: r, ⟨hclean, hne, hplace⟩, ahead => by
    have hstep := hclean.inPlace (t :: ahead)
    rw [List.map_cons, List.reverse_cons, List.append_assoc]
    refine hstep.trans ?_
    cases t with
    | eof      => exact absurd rfl hne
    | string s =>
      obtain ⟨_, hs⟩ := hplace s rfl
      simp only [stringsInPlace, hs, Bool.true_and]
    | _        => rfl

theorem Astray.notInPlace : ∀ {r : List (Token × Role)}, Astray r → ∀ (ahead : List Token),
    stringsInPlace [] ((r.map Prod.fst).reverse ++ ahead) = false
  | (t, role) :: r, .inl h, ahead                                   => by
    have hstep := h.notInPlace (t :: ahead)
    rw [List.map_cons, List.reverse_cons, List.append_assoc]
    exact hstep
  | (_, _) :: r, .inr ⟨hclean, s, rfl, rfl, hplace⟩, ahead => by
    have hstep := hclean.inPlace (.string s :: ahead)
    rw [List.map_cons, List.reverse_cons, List.append_assoc]
    refine hstep.trans ?_
    simp only [stringsInPlace, hplace, Bool.false_and]

section Reading

variable {tokens : List Token} {α β : Type}

/-- The cursor stands between `tokens`, a string astray behind it or else all clean and `P` of the place. -/
def Reading (tokens : List Token) (P : Cursor → Prop) (c : Cursor) : Prop :=
  (c.taken.map Prod.fst).reverse ++ c.ahead = tokens ∧ (Astray c.taken ∨ (Clean c.taken ∧ P c))

/-- **The run keeps reading**: from a place `P` it comes to a place `Q` of its value, unless a string went astray. -/
def Reads (tokens : List Token) (P : Cursor → Prop) (m : Parse α) (Q : α → Cursor → Prop) : Prop :=
  Run.Triple (Reading tokens P) m (fun a => Reading tokens (Q a)) (fun _ _ => True)

/-- A place told by what is before it. -/
def At (f : List Token → Prop) (c : Cursor) : Prop := f (c.taken.map Prod.fst)

theorem Reading.mono {P Q : Cursor → Prop} {c : Cursor} (h : Reading tokens P c) (hPQ : ∀ c, P c → Q c) :
    Reading tokens Q c := ⟨h.1, h.2.imp_right (fun hc => ⟨hc.1, hPQ c hc.2⟩)⟩

theorem Reads.conseq {P P' : Cursor → Prop} {Q Q' : α → Cursor → Prop} {m : Parse α} (h : Reads tokens P m Q)
    (hP : ∀ c, P' c → P c) (hQ : ∀ a c, Q a c → Q' a c) : Reads tokens P' m Q' :=
  Run.Triple.conseq h (fun _ hc => hc.mono hP) (fun a _ hc => hc.mono (hQ a)) (fun _ _ h => h)

theorem Reads.pre {P P' : Cursor → Prop} {Q : α → Cursor → Prop} {m : Parse α} (h : Reads tokens P m Q)
    (hP : ∀ c, P' c → P c) : Reads tokens P' m Q := h.conseq hP (fun _ _ hc => hc)

theorem Reads.bind {P : Cursor → Prop} {Q : α → Cursor → Prop} {Q' : β → Cursor → Prop} {m : Parse α}
    {f : α → Parse β} (hm : Reads tokens P m Q) (hf : ∀ a, Reads tokens (Q a) (f a) Q') : Reads tokens P (m >>= f) Q' :=
  Run.Triple.andThen hm hf

theorem reads_done {P : Cursor → Prop} {Q : α → Cursor → Prop} {a : α} (h : ∀ c, P c → Q a c) :
    Reads tokens P (Run.done a) Q := Run.triple_done (fun _ hc => hc.mono h)

theorem reads_fail {P : Cursor → Prop} {Q : α → Cursor → Prop} {e : ParseError} : Reads tokens P (Run.fail e) Q :=
  Run.triple_fail (fun _ _ => trivial)

theorem reads_ofExcept {P : Cursor → Prop} {Q : α → Cursor → Prop} {x : Except ParseError α} (h : ∀ a c, P c → Q a c) :
    Reads tokens P (Run.ofExcept x) Q :=
  Run.triple_ofExcept (fun a _ _ hc => hc.mono (h a)) (fun _ _ _ _ => trivial)

/-- The place, and the token ahead. -/
def Facing (P : Cursor → Prop) (t : Token) (c : Cursor) : Prop := P c ∧ c.ahead.head? = some t

theorem reads_current {P : Cursor → Prop} : Reads tokens P current (Facing P) := by
  intro c hc
  rcases c with ⟨taken, _ | ⟨t, ahead⟩⟩
  · trivial
  · exact ⟨hc.1, hc.2.imp_right (fun h => ⟨h.1, h.2, rfl⟩)⟩

/-- A token taken: a string that stands where none does goes astray; any other token leads to the place `g` after it. -/
theorem reads_advance {P : Cursor → Prop} {role : Role} {g : List Token → Prop}
    (h : ∀ c t, Facing P t c →
      (∃ s, t = .string s ∧ role = .word ∧ stringPlace (c.taken.map Prod.fst) s = false) ∨
      (t ≠ .eof ∧ (∀ s, t = .string s → role = .kind ∧ stringPlace (c.taken.map Prod.fst) s = true) ∧
        g (t :: c.taken.map Prod.fst))) :
    Reads tokens P (advance role) (fun _ => At g) := by
  intro c ⟨hwhole, hc⟩
  rcases c with ⟨taken, _ | ⟨t, ahead⟩⟩
  · trivial
  · refine ⟨?_, ?_⟩
    · show (t :: taken.map Prod.fst).reverse ++ ahead = tokens
      rw [List.reverse_cons, List.append_assoc]
      exact hwhole
    · show Astray ((t, role) :: taken) ∨ Clean ((t, role) :: taken) ∧ g (t :: taken.map Prod.fst)
      obtain hastray | ⟨hclean, hP⟩ := hc
      · exact .inl (.inl hastray)
      · obtain hstray | ⟨hne, hplace, hg⟩ := h ⟨taken, t :: ahead⟩ t ⟨hP, rfl⟩
        · exact .inl (.inr ⟨hclean, hstray⟩)
        · exact .inr ⟨⟨hclean, hne, hplace⟩, hg⟩

/-- What a place does with a word: a string that spells it goes astray, any other token leads to the place `g`. -/
def Spelled (word : String) (P : Cursor → Prop) (g : List Token → Prop) : Prop :=
  ∀ c t, Facing P t c → t.text = some word →
    (∃ s, t = .string s ∧ stringPlace (c.taken.map Prod.fst) s = false) ∨
      (t ≠ .eof ∧ t.isString = false ∧ g (t :: c.taken.map Prod.fst))

theorem reads_advance_word {P : Cursor → Prop} {g : List Token → Prop} {word : String} (h : Spelled word P g) :
    Reads tokens (fun c => P c ∧ c.ahead.head?.bind Token.text = some word) (advance .word) (fun _ => At g) := by
  refine reads_advance (fun c t hc => ?_)
  have ht : t.text = some word := by
    have hword := hc.1.2
    rw [hc.2] at hword
    exact hword
  obtain ⟨s, hs, hplace⟩ | ⟨hne, hstring, hg⟩ := h c t ⟨hc.1.1, hc.2⟩ ht
  · exact .inl ⟨s, hs, rfl, hplace⟩
  · refine .inr ⟨hne, fun s hs => ?_, hg⟩
    rw [hs] at hstring
    cases hstring

theorem reads_facing_word {P : Cursor → Prop} {g : List Token → Prop} {word : String} {t : Token} (h : Spelled word P g)
    (ht : t.text = some word) : Reads tokens (Facing P t) (advance .word) (fun _ => At g) := by
  refine (reads_advance_word h).pre (fun c hc => ⟨hc.1, ?_⟩)
  rw [hc.2]
  exact ht

theorem reads_expect {P : Cursor → Prop} {g : List Token → Prop} {word : String} (h : Spelled word P g) :
    Reads tokens P (expect word) (fun _ => At g) := by
  refine reads_current.bind (fun t => ?_)
  split
  · rename_i ht
    exact reads_facing_word h ht
  · exact reads_fail

/-- The place, and whether the token ahead spells the word. -/
def Asked (P : Cursor → Prop) (word : String) (answer : Bool) (c : Cursor) : Prop :=
  P c ∧ decide (c.ahead.head?.bind Token.text = some word) = answer

theorem reads_atWord {P : Cursor → Prop} {word : String} : Reads tokens P (atWord word) (Asked P word) := by
  refine reads_current.bind (fun t => reads_done (fun c hc => ⟨hc.1, ?_⟩))
  rw [hc.2]
  rfl

/-- `accept`, and what follows either answer. -/
theorem reads_accept {P : Cursor → Prop} {g : List Token → Prop} {word : String} {k : Bool → Parse α}
    {Q : α → Cursor → Prop} (h : Spelled word P g) (htaken : Reads tokens (At g) (k true) Q)
    (hleft : Reads tokens (Asked P word false) (k false) Q) : Reads tokens P (accept word >>= k) Q := by
  have haccept : Reads tokens P (accept word) (fun b => if b = true then At g else Asked P word false) := by
    refine reads_atWord.bind (fun b => ?_)
    cases b with
    | true  =>
      have hadvance : Reads tokens (Asked P word true) (advance .word) (fun _ => At g) :=
        (reads_advance_word h).pre (fun c hc => ⟨hc.1, of_decide_eq_true hc.2⟩)
      exact hadvance.bind (fun _ => reads_done (fun _ hc => hc))
    | false => exact reads_done (fun _ hc => hc)
  refine haccept.bind (fun b => ?_)
  cases b with
  | true  => exact htaken
  | false => exact hleft

/-- A token taken by its kind. -/
theorem reads_expectKind {P : Cursor → Prop} {g : α → List Token → Prop} {kind : TokenKind} {payload : Token → Option α}
    (h : ∀ c t a, P c → payload t = some a → t ≠ .eof ∧ (∀ s, t = .string s → stringPlace (c.taken.map Prod.fst) s = true) ∧
      g a (t :: c.taken.map Prod.fst)) :
    Reads tokens P (expectKind kind payload) (fun a => At (g a)) := by
  refine reads_current.bind (fun t => ?_)
  split
  · rename_i a ha
    refine Reads.bind (@reads_advance _ _ .kind (g a) (fun c u hc => ?_)) (fun _ => reads_done (fun _ hc => hc))
    have hu : u = t := Option.some.inj (hc.2.symm.trans hc.1.2)
    subst hu
    obtain ⟨hne, hplace, hg⟩ := h c u a hc.1.1 ha
    exact .inr ⟨hne, fun s hs => ⟨rfl, hplace s hs⟩, hg⟩
  · exact reads_fail

theorem reads_expectIdentifier {f : List Token → Prop} {g : String → List Token → Prop}
    (h : ∀ b (name : Identifier), f b → g name.text (.identifier name :: b)) :
    Reads tokens (At f) expectIdentifier (fun s => At (g s)) := by
  refine reads_expectKind (fun c t a hc ha => ?_)
  cases t with
  | identifier name =>
    cases ha
    exact ⟨by simp, by simp, h _ name hc⟩
  | _               => cases ha

theorem reads_expectString {f g : List Token → Prop} (h : ∀ b s, f b → stringPlace b s = true ∧ g (.string s :: b)) :
    Reads tokens (At f) expectString (fun _ => At g) := by
  refine reads_expectKind (fun c t a hc ha => ?_)
  cases t with
  | string s =>
    cases ha
    obtain ⟨hplace, hg⟩ := h _ a hc
    refine ⟨by simp, fun s' hs' => ?_, hg⟩
    cases hs'
    exact hplace
  | _        => cases ha

/-- A loop that comes back to its place on each round. -/
theorem reads_many {P Q : Cursor → Prop} {step : Parse (Option α)}
    (hstep : Reads tokens P step (fun o => if o.isSome = true then P else Q)) :
    ∀ (n : Nat), Reads tokens P (many step n) (fun _ => Q)
  | 0     => reads_fail
  | n + 1 => by
    refine hstep.bind (fun o => ?_)
    cases o with
    | none   => exact reads_done (fun _ hc => hc)
    | some a => exact (reads_many hstep n).bind (fun _ => reads_done (fun _ hc => hc))

/-- A token known to be no string. -/
theorem reads_advance_known {P : Cursor → Prop} {role : Role} {g : List Token → Prop} {t : Token} (hne : t ≠ .eof)
    (hstring : t.isString = false) (hg : ∀ c, P c → g (t :: c.taken.map Prod.fst)) :
    Reads tokens (Facing P t) (advance role) (fun _ => At g) := by
  refine reads_advance (fun c u hc => ?_)
  have hu : u = t := Option.some.inj (hc.2.symm.trans hc.1.2)
  subst hu
  refine .inr ⟨hne, fun s hs => ?_, hg c hc.1.1⟩
  rw [hs] at hstring
  cases hstring

/-! ## Words at a place -/

theorem spelled_mark {f g : List Token → Prop} (m : Mark) (hplace : ∀ b, f b → stringPlace b (StrEnum.value m) = false)
    (hg : ∀ b, f b → g (.mark m :: b)) : Spelled (StrEnum.value m) (At f) g := by
  intro c t hc ht
  obtain rfl | rfl := text_of_mark ht
  · exact .inr ⟨by simp, rfl, hg _ hc.1⟩
  · exact .inl ⟨_, rfl, hplace _ hc.1⟩

theorem spelled_keyword {f g : List Token → Prop} (k : Keyword) (hk : k.inV01 = true) (hcalm : ∀ b, f b → Calm b)
    (hg : ∀ b, f b → g (.keyword k :: b)) : Spelled (StrEnum.value k) (At f) g := by
  intro c t hc ht
  obtain rfl | rfl | ⟨hnot, _⟩ := text_of_keyword ht
  · exact .inr ⟨by simp, rfl, hg _ hc.1⟩
  · exact .inl ⟨_, rfl, hcalm _ hc.1 _⟩
  · rw [hk] at hnot
    cases hnot

theorem spelled_name {f g : List Token → Prop} {word : String} (hw : isIdentifier word = true)
    (hk : ∀ k : Keyword, StrEnum.value k ≠ word) (hdigit : word.toList.head?.any Text.isDigit = false)
    (hcalm : ∀ b, f b → Calm b) (hg : ∀ b name, f b → name.text = word → g (.identifier name :: b)) :
    Spelled word (At f) g := by
  intro c t hc ht
  obtain ⟨name, rfl, hname⟩ | rfl := text_of_name ht hw hk hdigit
  · exact .inr ⟨by simp, rfl, hg _ name hc.1 hname⟩
  · exact .inl ⟨_, rfl, hcalm _ hc.1 _⟩

end Reading

end Parser
end Nsl
