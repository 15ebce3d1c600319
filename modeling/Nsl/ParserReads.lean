import Nsl.ParserPlaces
/-!
# Parser reads — each production keeps the place of its strings

One rule a production: from which places it starts, and at which place it leaves the cursor, as long as no string went
astray. Together they say of an accepted parse that it read every token by its kind exactly when every string of the input
stands in place.
-/
namespace Nsl

open Stateful (Run Trace)

namespace Parser

variable {tokens : List Token}

/-! ## Names -/

/-- Further parts of a name, where each is calm again. -/
theorem reads_parts {g : List Token → Prop} (fuel : Nat) (hcalm : ∀ b, g b → Calm b)
    (hg : ∀ b (name : Identifier), g b → g (.identifier name :: .mark .dot :: b)) :
    Reads tokens (At g) (many nextPart fuel) (fun _ => At g) := by
  refine reads_many (Q := At g) ?_ fuel
  refine reads_accept (g := fun b => ∃ b', b = .mark .dot :: b' ∧ g b')
    (spelled_mark .dot (fun b hb => hcalm b hb _) (fun b hb => ⟨b, rfl, hb⟩)) ?_ ?_
  · refine (reads_expectIdentifier (g := fun _ => g) (fun b name hb => ?_)).bind (fun _ => reads_done (fun _ hc => hc))
    obtain ⟨b', rfl, hb'⟩ := hb
    exact hg b' name hb'
  · exact reads_done (fun _ hc => hc.1)

theorem reads_qualifiedName {f g : List Token → Prop} (fuel : Nat)
    (hf : ∀ b (name : Identifier), f b → g (.identifier name :: b)) (hcalm : ∀ b, g b → Calm b)
    (hg : ∀ b (name : Identifier), g b → g (.identifier name :: .mark .dot :: b)) :
    Reads tokens (At f) (qualifiedName fuel) (fun _ => At g) := by
  refine (reads_expectIdentifier (g := fun _ => g) (fun b name hb => hf b name hb)).bind (fun first => ?_)
  exact (reads_parts fuel hcalm hg).bind (fun _ => reads_done (fun _ hc => hc))

/-! ## Expressions -/

/-- After a part of an expression. -/
def ExprEnd (b : List Token) : Prop := InExpression b ∧ Calm b

/-- After a name in an expression. -/
def AfterName (b : List Token) : Prop := ∃ name r, b = .identifier name :: r ∧ InExpression r

/-- After the parenthesis of a call. -/
def CallOpen (b : List Token) : Prop := ∃ name r, b = .mark .lparen :: .identifier name :: r ∧ InExpression r

/-- Before an expression: the first argument of a call does not start with a closing parenthesis. -/
def Starting (c : Cursor) : Prop :=
  At (fun b => InExpression b ∧ b.head?.any Token.opensExpression = true) c ∧
    (opensCall (c.taken.map Prod.fst) = true → c.ahead.head?.bind Token.text ≠ some ")")

/-- Before an expression that is no first argument of a call. -/
def Opened (b : List Token) : Prop := InExpression b ∧ b.head?.any Token.opensExpression = true ∧ opensCall b = false

theorem Opened.starting {c : Cursor} (h : At Opened c) : Starting c := by
  refine ⟨⟨h.1, h.2.1⟩, fun hcall => ?_⟩
  rw [h.2.2] at hcall
  cases hcall

theorem AfterName.exprEnd {b : List Token} (h : AfterName b) : ExprEnd b := by
  obtain ⟨name, r, rfl, hr⟩ := h
  exact ⟨hr.cons rfl, hr.calm_identifier⟩

theorem opened_mark {m : Mark} {b : List Token} (hb : InExpression b) (hm : (Token.mark m).opensExpression = true)
    (hcall : m ≠ .lparen) : Opened (.mark m :: b) := by
  refine ⟨hb.cons rfl, hm, ?_⟩
  unfold opensCall
  split
  · rename_i heq
    cases heq
    exact absurd rfl hcall
  · rfl

/-- A closing parenthesis is no string right after the parenthesis of a call. -/
theorem CallOpen.place {b : List Token} (h : CallOpen b) : stringPlace b ")" = false := by
  obtain ⟨name, r, rfl, k, hlast, htakes⟩ := h
  unfold stringPlace
  have hlast' : lastKeyword (.mark .lparen :: .identifier name :: r) = some k := hlast
  rw [hlast']
  simp [htakes, opensCall]

theorem CallOpen.starting {c : Cursor} (h : Asked (At CallOpen) ")" false c) : Starting c := by
  obtain ⟨⟨name, r, hb, hr⟩, hasked⟩ := h
  refine ⟨?_, fun _ => of_decide_eq_false hasked⟩
  show InExpression (c.taken.map Prod.fst) ∧ (c.taken.map Prod.fst).head?.any Token.opensExpression = true
  rw [hb]
  exact ⟨(hr.cons rfl).cons rfl, rfl⟩

theorem exprEnd_closing {b : List Token} (hb : InExpression b) : ExprEnd (.mark .rparen :: b) :=
  ⟨hb.cons rfl, calm_mark (fun _ => rfl)⟩

theorem reads_toolName (fuel : Nat) : Reads tokens (At InExpression) (qualifiedName fuel) (fun _ => At AfterName) :=
  reads_qualifiedName fuel (fun b name hb => ⟨name, b, rfl, hb⟩) (fun _ hb => hb.exprEnd.2)
    (fun _ name hb => ⟨name, _, rfl, hb.exprEnd.1.cons rfl⟩)

theorem spelled_callOpen : Spelled "(" (At AfterName) CallOpen := by
  refine spelled_mark .lparen (fun b hb => hb.exprEnd.2 _) (fun b hb => ?_)
  obtain ⟨name, r, rfl, hr⟩ := hb
  exact ⟨name, r, rfl, hr⟩

/-- From where to where each function of an expression reads. -/
structure ExpressionsRead (tokens : List Token) (v02 : Bool) (n : Nat) : Prop where
  expression         : ∀ minimum, Reads tokens Starting (expression v02 n minimum) (fun _ => At ExprEnd)
  operators          : ∀ minimum left, Reads tokens (At ExprEnd) (operators v02 n minimum left) (fun _ => At ExprEnd)
  primary            : Reads tokens Starting (primary v02 n) (fun _ => At ExprEnd)
  namedArguments     : ∀ m : Mark, m = .colon ∨ m = .assign →
    Reads tokens (At CallOpen) (namedArguments v02 (StrEnum.value m) n) (fun _ => At ExprEnd)
  moreNamedArguments : ∀ m : Mark, m = .colon ∨ m = .assign →
    Reads tokens (At InExpression) (moreNamedArguments v02 (StrEnum.value m) n) (fun _ => At ExprEnd)
  callArguments      : Reads tokens (At CallOpen) (callArguments v02 n) (fun _ => At ExprEnd)
  moreCallArguments  : Reads tokens Starting (moreCallArguments v02 n) (fun _ => At ExprEnd)

section Step

variable {v02 : Bool} {n : Nat} (ih : ExpressionsRead tokens v02 n)

include ih

theorem reads_expression_step (minimum : Nat) :
    Reads tokens Starting (expression v02 (n + 1) minimum) (fun _ => At ExprEnd) := by
  unfold expression
  exact ih.primary.bind (fun left => ih.operators minimum left)

theorem reads_namedArguments_step {m : Mark} (hm : m = .colon ∨ m = .assign) :
    Reads tokens (At CallOpen) (namedArguments v02 (StrEnum.value m) (n + 1)) (fun _ => At ExprEnd) := by
  unfold namedArguments
  refine reads_accept (g := ExprEnd) (spelled_mark .rparen (fun b hb => hb.place) (fun b hb => ?_)) ?_ ?_
  · obtain ⟨name, r, rfl, hr⟩ := hb
    exact exprEnd_closing ((hr.cons rfl).cons rfl)
  · exact reads_done (fun _ hc => hc)
  · refine (ih.moreNamedArguments m hm).pre (fun c hc => ?_)
    obtain ⟨name, r, hb, hr⟩ := hc.1
    show InExpression _
    rw [hb]
    exact (hr.cons rfl).cons rfl

theorem reads_moreNamedArguments_step {m : Mark} (hm : m = .colon ∨ m = .assign) :
    Reads tokens (At InExpression) (moreNamedArguments v02 (StrEnum.value m) (n + 1)) (fun _ => At ExprEnd) := by
  unfold moreNamedArguments
  have hopens : (Token.mark m).opensExpression = true ∧ m ≠ .lparen := by
    obtain rfl | rfl := hm <;> exact ⟨rfl, by decide⟩
  refine (reads_expectIdentifier (g := fun _ => AfterName) (fun b name hb => ⟨name, b, rfl, hb⟩)).bind (fun name => ?_)
  refine (reads_expect (spelled_mark m (fun b hb => hb.exprEnd.2 _)
    (fun b hb => opened_mark hb.exprEnd.1 hopens.1 hopens.2))).bind (fun _ => ?_)
  refine ((ih.expression 0).pre (fun c hc => Opened.starting hc)).bind (fun e => ?_)
  refine reads_accept (spelled_mark .rparen (fun b hb => hb.2 _) (fun b hb => exprEnd_closing hb.1)) ?_ ?_
  · exact reads_done (fun _ hc => hc)
  · refine Reads.pre (P := At ExprEnd) ?_ (fun c hc => hc.1)
    refine (reads_expect (spelled_mark .comma (fun b hb => hb.2 _) (fun b hb => hb.1.cons rfl))).bind (fun _ => ?_)
    exact (ih.moreNamedArguments m hm).bind (fun _ => reads_done (fun _ hc => hc))

theorem reads_callArguments_step : Reads tokens (At CallOpen) (callArguments v02 (n + 1)) (fun _ => At ExprEnd) := by
  unfold callArguments
  refine reads_accept (g := ExprEnd) (spelled_mark .rparen (fun b hb => hb.place) (fun b hb => ?_)) ?_ ?_
  · obtain ⟨name, r, rfl, hr⟩ := hb
    exact exprEnd_closing ((hr.cons rfl).cons rfl)
  · exact reads_done (fun _ hc => hc)
  · exact ih.moreCallArguments.pre (fun c hc => CallOpen.starting hc)

theorem reads_moreCallArguments_step : Reads tokens Starting (moreCallArguments v02 (n + 1)) (fun _ => At ExprEnd) := by
  unfold moreCallArguments
  refine (ih.expression 0).bind (fun e => ?_)
  refine reads_accept (spelled_mark .rparen (fun b hb => hb.2 _) (fun b hb => exprEnd_closing hb.1)) ?_ ?_
  · exact reads_done (fun _ hc => hc)
  · refine Reads.pre (P := At ExprEnd) ?_ (fun c hc => hc.1)
    refine (reads_expect (spelled_mark .comma (fun b hb => hb.2 _)
      (fun b hb => opened_mark hb.1 rfl (by decide)))).bind (fun _ => ?_)
    exact (ih.moreCallArguments.pre (fun c hc => Opened.starting hc)).bind (fun _ => reads_done (fun _ hc => hc))

omit ih in
/-- An operator is spelled by a mark that opens an expression. -/
theorem operatorOf_mark {t : Token} {operator : String} {level : Nat} (h : operatorOf t = some (operator, level)) :
    ∃ m : Mark, t.text = some (StrEnum.value m) ∧ (Token.mark m).opensExpression = true ∧ m ≠ .lparen := by
  unfold operatorOf at h
  obtain ⟨o, ho, hmap⟩ := Option.bind_eq_some_iff.1 h
  obtain ⟨p, hp, _⟩ := Option.map_eq_some_iff.1 hmap
  have hmem := (lookup_iff_mem (by decide)).1 hp
  rw [ho]
  simp only [List.mem_cons, Prod.mk.injEq, List.not_mem_nil, or_false] at hmem
  obtain ⟨rfl, _⟩ | ⟨rfl, _⟩ | ⟨rfl, _⟩ | ⟨rfl, _⟩ | ⟨rfl, _⟩ | ⟨rfl, _⟩ | ⟨rfl, _⟩ | ⟨rfl, _⟩ | ⟨rfl, _⟩ | ⟨rfl, _⟩ := hmem
  · exact ⟨.eq, rfl, rfl, by decide⟩
  · exact ⟨.ne, rfl, rfl, by decide⟩
  · exact ⟨.lt, rfl, rfl, by decide⟩
  · exact ⟨.le, rfl, rfl, by decide⟩
  · exact ⟨.gt, rfl, rfl, by decide⟩
  · exact ⟨.ge, rfl, rfl, by decide⟩
  · exact ⟨.plus, rfl, rfl, by decide⟩
  · exact ⟨.minus, rfl, rfl, by decide⟩
  · exact ⟨.star, rfl, rfl, by decide⟩
  · exact ⟨.slash, rfl, rfl, by decide⟩

theorem reads_operators_step (minimum : Nat) (left : AstExpression) :
    Reads tokens (At ExprEnd) (operators v02 (n + 1) minimum left) (fun _ => At ExprEnd) := by
  unfold operators
  refine reads_current.bind (fun t => ?_)
  split
  · exact reads_done (fun _ hc => hc.1)
  · rename_i operator level hoperator
    split
    · exact reads_done (fun _ hc => hc.1)
    · obtain ⟨m, ht, hopens, hm⟩ := operatorOf_mark hoperator
      refine (reads_facing_word (spelled_mark m (fun b hb => hb.2 _)
        (fun b hb => opened_mark hb.1 hopens hm)) ht).bind (fun _ => ?_)
      refine ((ih.expression _).pre (fun c hc => Opened.starting hc)).bind (fun right => ?_)
      exact ih.operators _ _

omit ih in
/-- A string where an expression starts is a literal, at its place. -/
theorem Starting.place {c : Cursor} {s : String} (h : Facing Starting (.string s) c) :
    stringPlace (c.taken.map Prod.fst) s = true := by
  obtain ⟨⟨⟨⟨k, hlast, htakes⟩, hopens⟩, hcall⟩, hahead⟩ := h
  unfold stringPlace
  rw [hlast]
  simp only [htakes, hopens, if_true, Bool.true_and, Bool.not_eq_true', Bool.and_eq_false_imp, decide_eq_true_eq]
  intro hs
  by_contra hnot
  have hspelled := hcall (by simpa using hnot)
  rw [hahead, hs] at hspelled
  exact hspelled rfl

omit ih in
/-- The literals are no keywords, no names, and open nothing. -/
theorem literalOf_kind {t : Token} {value : Except ParseError AstExpression} (h : literalOf t = some value) :
    t ≠ .eof ∧ t.asKeyword? = none ∧ t.asIdentifier? = none ∧ t.opensExpression = false := by
  cases t with
  | integer _ | decimal _ _ | string _ | boolean _ => exact ⟨by simp, rfl, rfl, rfl⟩
  | _ => cases h

omit ih in
/-- A parenthesis that starts an expression is not that of a call. -/
theorem opened_paren {c : Cursor} (h : Starting c) : Opened (.mark .lparen :: c.taken.map Prod.fst) := by
  refine ⟨h.1.1.cons rfl, rfl, ?_⟩
  have hopens := h.1.2
  cases hb : c.taken.map Prod.fst with
  | nil      => rfl
  | cons t r =>
    rw [hb] at hopens
    cases t with
    | identifier name => cases hopens
    | _               => rfl

omit ih in
/-- The token an expression starts with, where it is a word and no literal. -/
theorem keyword_of_spelled {t : Token} {k : Keyword} (hk : k.inV01 = true) (ht : t.text = some (StrEnum.value k))
    (hstring : literalOf t = none) : t = .keyword k := by
  obtain rfl | rfl | ⟨hnot, _⟩ := text_of_keyword ht
  · rfl
  · cases hstring
  · rw [hk] at hnot
    cases hnot

theorem reads_primary_step : Reads tokens Starting (primary v02 (n + 1)) (fun _ => At ExprEnd) := by
  unfold primary
  refine reads_current.bind (fun t => ?_)
  split
  · rename_i value hvalue
    obtain ⟨hne, hkeyword, hname, hopens⟩ := literalOf_kind hvalue
    refine Reads.bind (Q := fun _ => At ExprEnd) (reads_advance (fun c u hc => ?_)) (fun _ => reads_ofExcept (fun _ _ hc => hc))
    have hu : u = t := Option.some.inj (hc.2.symm.trans hc.1.2)
    subst hu
    refine .inr ⟨hne, fun s hs => ⟨rfl, ?_⟩, hc.1.1.1.1.cons hkeyword, calm_other hkeyword hname (fun _ => hopens)⟩
    subst hs
    exact Starting.place hc.1
  rename_i hliteral
  split
  · rename_i ht
    have hread := keyword_of_spelled (k := .read) rfl ht hliteral
    subst hread
    refine (reads_advance_known (by simp) rfl (fun c hc => InExpression.keyword rfl _)).bind (fun _ => ?_)
    refine (reads_toolName n).bind (fun toolId => (reads_expect spelled_callOpen).bind (fun _ => ?_))
    exact (ih.namedArguments .colon (.inl rfl)).bind (fun _ => reads_done (fun _ hc => hc))
  split
  · rename_i hwrite
    rw [hwrite.1]
    refine (reads_advance_known (by simp) rfl (fun c hc => InExpression.keyword rfl _)).bind (fun _ => ?_)
    refine (reads_toolName n).bind (fun toolId => (reads_expect spelled_callOpen).bind (fun _ => ?_))
    refine (ih.namedArguments .assign (.inr rfl)).bind (fun _ => ?_)
    refine (reads_expect (g := InExpression) (fun c t hc ht => ?_)).bind (fun _ => ?_)
    · obtain rfl | rfl | ⟨_, hname⟩ := text_of_keyword (k := .approvedBy) ht
      · exact .inr ⟨by simp, rfl, InExpression.keyword rfl _⟩
      · exact .inl ⟨_, rfl, hc.1.2 _⟩
      · cases t with
        | identifier name => exact .inr ⟨by simp, rfl, InExpression.cons hc.1.1 rfl⟩
        | _               => cases hname
    · refine (reads_expectIdentifier (g := fun _ => AfterName) (fun b name hb => ⟨name, b, rfl, hb⟩)).bind (fun _ => ?_)
      exact reads_done (fun _ hc => AfterName.exprEnd hc)
  split
  · rename_i name hname
    have hstring : t ≠ .eof ∧ t.isString = false := by
      cases t with
      | identifier _ => exact ⟨by simp, rfl⟩
      | _            => cases hname
    refine Reads.bind (Q := fun _ => At AfterName)
      (reads_advance_known hstring.1 hstring.2 (fun c hc => ?_)) (fun _ => ?_)
    · cases t with
      | identifier name => exact ⟨name, _, rfl, hc.1.1⟩
      | _               => cases hname
    · refine reads_accept spelled_callOpen ?_ ?_
      · exact ih.callArguments.bind (fun _ => reads_done (fun _ hc => hc))
      · refine Reads.pre (P := At AfterName) ?_ (fun c hc => hc.1)
        refine (reads_parts n (fun b hb => hb.exprEnd.2) (fun b name hb => ⟨name, _, rfl, hb.exprEnd.1.cons rfl⟩)).bind
          (fun _ => ?_)
        exact reads_done (fun _ hc => AfterName.exprEnd hc)
  · refine reads_accept (g := Opened) (fun c u hc hu => ?_) ?_ reads_fail
    · have hut : u = t := Option.some.inj (hc.2.symm.trans hc.1.2)
      subst hut
      obtain rfl | rfl := text_of_mark (m := .lparen) hu
      · exact .inr ⟨by simp, rfl, opened_paren hc.1.1⟩
      · cases hliteral
    · refine ((ih.expression 0).pre (fun c hc => Opened.starting hc)).bind (fun e => ?_)
      refine (reads_expect (spelled_mark .rparen (fun b hb => hb.2 _) (fun b hb => exprEnd_closing hb.1))).bind (fun _ => ?_)
      exact reads_done (fun _ hc => hc)

end Step

theorem expressionsRead (tokens : List Token) (v02 : Bool) : ∀ (n : Nat), ExpressionsRead tokens v02 n
  | 0     =>
    { expression         := fun _ => reads_fail
      operators          := fun _ _ => reads_fail
      primary            := reads_fail
      namedArguments     := fun _ _ => reads_fail
      moreNamedArguments := fun _ _ => reads_fail
      callArguments      := reads_fail
      moreCallArguments  := reads_fail }
  | n + 1 =>
    have ih := expressionsRead tokens v02 n
    { expression         := fun minimum => reads_expression_step ih minimum
      operators          := fun minimum left => reads_operators_step ih minimum left
      primary            := reads_primary_step ih
      namedArguments     := fun _ hm => reads_namedArguments_step ih hm
      moreNamedArguments := fun _ hm => reads_moreNamedArguments_step ih hm
      callArguments      := reads_callArguments_step ih
      moreCallArguments  := reads_moreCallArguments_step ih }

theorem reads_expression (v02 : Bool) (fuel : Nat) :
    Reads tokens (At Opened) (expression v02 fuel 0) (fun _ => At ExprEnd) :=
  ((expressionsRead tokens v02 fuel).expression 0).pre (fun _ hc => Opened.starting hc)

/-! ## Quiet keywords -/

/-- No string stands after this keyword but right after it. -/
def Quiet (k : Keyword) : Prop := k.takesExpression = false ∧ k ≠ .context ∧ k ≠ .language

instance (k : Keyword) : Decidable (Quiet k) := inferInstanceAs (Decidable (_ ∧ _))

/-- At a calm place, that keyword the last one. -/
def Said (k : Keyword) (b : List Token) : Prop := lastKeyword b = some k ∧ Calm b

/-- Right after a keyword that takes a string. -/
def TextPlace (k : Keyword) (b : List Token) : Prop := b.head? = some (.keyword k)

theorem quiet_cons {k : Keyword} (hk : Quiet k) {t : Token} {b : List Token} (hlast : lastKeyword b = some k)
    (ht : t.asKeyword? = none) : Said k (t :: b) := by
  have hlast' : lastKeyword (t :: b) = some k := by
    rw [lastKeyword_cons ht]
    exact hlast
  have hne : t ≠ .keyword k := fun he => by
    rw [he] at ht
    cases ht
  refine ⟨hlast', fun s => ?_⟩
  unfold stringPlace
  rw [hlast']
  simp [hk.1, hk.2.1, hk.2.2, hne]

theorem spelled_said {f : List Token → Prop} (k : Keyword) (hk : k.inV01 = true) (htext : k.takesText = false)
    (hopens : (Token.keyword k).opensExpression = false) (hcalm : ∀ b, f b → Calm b) :
    Spelled (StrEnum.value k) (At f) (Said k) :=
  spelled_keyword k hk hcalm (fun b _ => ⟨rfl, calm_keyword htext hopens b⟩)

theorem spelled_text {f : List Token → Prop} (k : Keyword) (hk : k.inV01 = true) (hcalm : ∀ b, f b → Calm b) :
    Spelled (StrEnum.value k) (At f) (TextPlace k) := spelled_keyword k hk hcalm (fun _ _ => rfl)

theorem reads_said_identifier {k : Keyword} (hk : Quiet k) :
    Reads tokens (At (Said k)) expectIdentifier (fun _ => At (Said k)) :=
  reads_expectIdentifier (g := fun _ => Said k) (fun _ _ hb => quiet_cons hk hb.1 rfl)

theorem spelled_said_mark {k : Keyword} (hk : Quiet k) (m : Mark) : Spelled (StrEnum.value m) (At (Said k)) (Said k) :=
  spelled_mark m (fun _ hb => hb.2 _) (fun _ hb => quiet_cons hk hb.1 rfl)

/-- A mark that opens no expression leaves a calm place calm. -/
theorem spelled_closing {f : List Token → Prop} (m : Mark) (hm : (Token.mark m).opensExpression = false)
    (hcalm : ∀ b, f b → Calm b) : Spelled (StrEnum.value m) (At f) Calm :=
  spelled_mark m (fun b hb => hcalm b hb _) (fun b _ => calm_closing hm b)

theorem reads_text {k : Keyword} (hk : Quiet k) (htext : k.takesText = true) :
    Reads tokens (At (TextPlace k)) expectString (fun _ => At (Said k)) := by
  refine reads_expectString (fun b s hb => ?_)
  cases b with
  | nil      => cases hb
  | cons t r =>
    have ht : t = .keyword k := Option.some.inj hb
    subst ht
    refine ⟨?_, quiet_cons hk rfl rfl⟩
    unfold stringPlace
    rw [lastKeyword_keyword]
    simp [hk.1, hk.2.1, hk.2.2, htext]

/-! ## Statements -/

/-- `message "…"; }` -/
theorem reads_message {β : Type} {f : List Token → Prop} (hcalm : ∀ b, f b → Calm b) {k : String → β} :
    Reads tokens (At f) (do
      expect "message"
      let message ← expectString
      expect ";"
      expect "\x7d"
      Run.done (k message)) (fun _ => At Calm) := by
  refine (reads_expect (spelled_text .message rfl hcalm)).bind (fun _ => ?_)
  refine (reads_text (by decide) rfl).bind (fun message => ?_)
  refine (reads_expect (spelled_said_mark (by decide) .semicolon)).bind (fun _ => ?_)
  refine (reads_expect (spelled_said_mark (by decide) .rbrace)).bind (fun _ => ?_)
  exact reads_done (fun _ hc => hc.2)

theorem reads_approveRest : Reads tokens (At (Said .approve)) approveRest (fun _ => At Calm) := by
  have hquiet : Quiet .approve := by decide
  refine (reads_said_identifier hquiet).bind (fun approvalId => ?_)
  refine (reads_expect (spelled_said_mark hquiet .lbrace)).bind (fun _ => ?_)
  exact reads_message (fun b hb => hb.2)

theorem reads_letRest (v02 : Bool) (fuel : Nat) :
    Reads tokens (At (Said .letWord)) (letRest v02 fuel) (fun _ => At Calm) := by
  refine (reads_expectIdentifier (g := fun _ => AfterName) (fun b name hb => ⟨name, b, rfl, _, hb.1, rfl⟩)).bind
    (fun name => ?_)
  refine (reads_expect (spelled_mark .assign (fun b hb => hb.exprEnd.2 _)
    (fun b hb => opened_mark hb.exprEnd.1 rfl (by decide)))).bind (fun _ => ?_)
  refine (reads_expression v02 fuel).bind (fun value => ?_)
  refine (reads_expect (spelled_closing .semicolon rfl (fun b hb => hb.2))).bind (fun _ => ?_)
  exact reads_done (fun _ hc => hc)

theorem opened_keyword {k : Keyword} (hk : k = .inWord ∨ k = .assert) (b : List Token) : Opened (.keyword k :: b) := by
  obtain rfl | rfl := hk <;> exact ⟨InExpression.keyword rfl b, rfl, rfl⟩

/-- `word name;` -/
theorem reads_setting {β : Type} {f : List Token → Prop} {k : Keyword} (hk : Quiet k) (hv : k.inV01 = true)
    (htext : k.takesText = false) (hopens : (Token.keyword k).opensExpression = false) (hcalm : ∀ b, f b → Calm b)
    {next : String → Parse β} {Q : β → Cursor → Prop} (hnext : ∀ s, Reads tokens (At Calm) (next s) Q) :
    Reads tokens (At f) (do
      expect (StrEnum.value k)
      let name ← expectIdentifier
      expect ";"
      next name) Q := by
  refine (reads_expect (spelled_said k hv htext hopens hcalm)).bind (fun _ => ?_)
  refine (reads_said_identifier hk).bind (fun name => ?_)
  refine (reads_expect (spelled_said_mark hk .semicolon)).bind (fun _ => ?_)
  exact (hnext name).pre (fun _ hc => hc.2)

theorem reads_checkRest (v02 : Bool) (fuel : Nat) :
    Reads tokens (At (Said .check)) (checkRest v02 fuel) (fun _ => At Calm) := by
  have hquiet : Quiet .check := by decide
  refine (reads_said_identifier hquiet).bind (fun checkId => ?_)
  refine (reads_expect (spelled_said_mark hquiet .lbrace)).bind (fun _ => ?_)
  refine (reads_expect (spelled_keyword .assert rfl (fun b hb => hb.2)
    (fun b _ => opened_keyword (.inr rfl) b))).bind (fun _ => ?_)
  refine (reads_expression v02 fuel).bind (fun condition => ?_)
  refine (reads_expect (spelled_closing .semicolon rfl (fun b hb => hb.2))).bind (fun _ => ?_)
  refine reads_setting (k := .severity) (by decide) rfl rfl rfl (fun b hb => hb) (fun severity => ?_)
  refine reads_setting (k := .onFail) (by decide) rfl rfl rfl (fun b hb => hb) (fun onFail => ?_)
  exact reads_message (fun b hb => hb)

theorem reads_emitRest (v02 : Bool) (fuel : Nat) :
    Reads tokens (At (Said .emit)) (emitRest v02 fuel) (fun _ => At Calm) := by
  refine (reads_expect (g := ExprEnd) (spelled_mark .lbrace (fun b hb => hb.2 _) (fun b hb => ?_))).bind (fun _ => ?_)
  · exact ⟨InExpression.cons ⟨_, hb.1, rfl⟩ rfl, calm_closing rfl b⟩
  have hfield : Reads tokens (At ExprEnd) (nextEmitField v02 fuel) (fun o => if o.isSome = true then At ExprEnd else At ExprEnd) := by
    refine reads_atWord.bind (fun b => ?_)
    cases b with
    | true  => exact reads_done (fun _ hc => hc.1)
    | false =>
      refine Reads.pre (P := At ExprEnd) ?_ (fun c hc => hc.1)
      refine (reads_expectIdentifier (g := fun _ => AfterName) (fun b name hb => ⟨name, b, rfl, hb.1⟩)).bind (fun name => ?_)
      refine (reads_expect (spelled_mark .colon (fun b hb => hb.exprEnd.2 _)
        (fun b hb => opened_mark hb.exprEnd.1 rfl (by decide)))).bind (fun _ => ?_)
      refine (reads_expression v02 fuel).bind (fun e => ?_)
      refine (reads_expect (g := ExprEnd) (spelled_mark .semicolon (fun b hb => hb.2 _) (fun b hb => ?_))).bind (fun _ => ?_)
      · exact ⟨hb.1.cons rfl, calm_closing rfl b⟩
      · exact reads_done (fun _ hc => hc)
  refine (reads_many hfield fuel).bind (fun fields => ?_)
  refine (reads_expect (spelled_closing .rbrace rfl (fun b hb => hb.2))).bind (fun _ => ?_)
  exact reads_done (fun _ hc => hc)

theorem reads_integerValue {P : Cursor → Prop} (digits : Digits) : Reads tokens P (integerValue digits) (fun _ => P) := by
  unfold integerValue
  split
  · exact reads_done (fun _ hc => hc)
  · exact reads_fail

theorem reads_said_kind {α : Type} {k : Keyword} (hk : Quiet k) {kind : TokenKind} {payload : Token → Option α}
    (h : ∀ t a, payload t = some a → t ≠ .eof ∧ t.isString = false ∧ t.asKeyword? = none) :
    Reads tokens (At (Said k)) (expectKind kind payload) (fun _ => At (Said k)) := by
  refine reads_expectKind (g := fun _ => Said k) (fun c t a hc ha => ?_)
  obtain ⟨hne, hstring, hkeyword⟩ := h t a ha
  refine ⟨hne, fun s hs => ?_, quiet_cons hk hc.1 hkeyword⟩
  rw [hs] at hstring
  cases hstring

theorem reads_said_integer {k : Keyword} (hk : Quiet k) :
    Reads tokens (At (Said k)) (expectKind .integer Token.asInteger?) (fun _ => At (Said k)) := by
  refine reads_said_kind hk (fun t a ha => ?_)
  cases t with
  | integer d => exact ⟨by simp, rfl, rfl⟩
  | _         => cases ha

theorem reads_maxIterations {k : Keyword} (hk : Quiet k) :
    Reads tokens (At (Said k)) maxIterations (fun _ => At (Said k)) := by
  refine (reads_said_integer hk).bind (fun digits => (reads_integerValue digits).bind (fun n => ?_))
  split
  · exact reads_fail
  · exact reads_done (fun _ hc => hc)

/-- From where to where a statement and a block read. -/
structure StatementsRead (tokens : List Token) (v02 : Bool) (n : Nat) : Prop where
  statement : Reads tokens (At Calm) (statement v02 n) (fun _ => At Calm)
  block     : Reads tokens (At Calm) (block v02 n) (fun _ => At Calm)

/-- A statement after its keyword. -/
theorem reads_said_facing {α : Type} {t : Token} {k : Keyword} {rest : Parse α} {Q : α → Cursor → Prop}
    (hk : k.inV01 = true) (htext : k.takesText = false) (hopens : (Token.keyword k).opensExpression = false)
    (ht : t.text = some (StrEnum.value k)) (hrest : Reads tokens (At (Said k)) rest Q) :
    Reads tokens (Facing (At Calm) t) (do advance .word; rest) Q :=
  (reads_facing_word (spelled_said k hk htext hopens (fun _ hb => hb)) ht).bind (fun _ => hrest)

theorem reads_statement_step {v02 : Bool} {n : Nat} (ih : StatementsRead tokens v02 n) :
    Reads tokens (At Calm) (statement v02 (n + 1)) (fun _ => At Calm) := by
  unfold statement
  refine reads_current.bind (fun t => ?_)
  split
  · rename_i happrove
    rw [happrove.1]
    refine (reads_advance_known (g := Said .approve) (by simp) rfl (fun c _ => ⟨rfl, calm_keyword rfl rfl _⟩)).bind
      (fun _ => reads_approveRest)
  split
  · rename_i ht
    exact reads_said_facing (k := .letWord) rfl rfl rfl ht (reads_letRest v02 n)
  split
  · rename_i ht
    have hquiet : Quiet .foreach := by decide
    refine reads_said_facing (k := .foreach) rfl rfl rfl ht ((reads_said_identifier hquiet).bind (fun iterator => ?_))
    refine (reads_expect (spelled_keyword .inWord rfl (fun b hb => hb.2)
      (fun b _ => opened_keyword (.inl rfl) b))).bind (fun _ => ?_)
    refine (reads_expression v02 n).bind (fun collection => ?_)
    refine (reads_expect (spelled_said .max rfl rfl rfl (fun b hb => hb.2))).bind (fun _ => ?_)
    refine (reads_maxIterations (by decide)).bind (fun maximum => ?_)
    refine (reads_expect (spelled_closing .lbrace rfl (fun b hb => hb.2))).bind (fun _ => ?_)
    refine ih.block.bind (fun body => ?_)
    refine (reads_expect (spelled_closing .rbrace rfl (fun b hb => hb))).bind (fun _ => ?_)
    exact reads_done (fun _ hc => hc)
  split
  · rename_i ht
    exact reads_said_facing (k := .check) rfl rfl rfl ht (reads_checkRest v02 n)
  split
  · rename_i ht
    exact reads_said_facing (k := .emit) rfl rfl rfl ht (reads_emitRest v02 n)
  · exact reads_fail

theorem reads_block_step {v02 : Bool} {n : Nat} (ih : StatementsRead tokens v02 n) :
    Reads tokens (At Calm) (block v02 (n + 1)) (fun _ => At Calm) := by
  unfold block
  refine reads_atWord.bind (fun b => ?_)
  cases b with
  | true  => exact reads_done (fun _ hc => hc.1)
  | false =>
    refine Reads.pre (P := At Calm) ?_ (fun c hc => hc.1)
    exact ih.statement.bind (fun s => ih.block.bind (fun ss => reads_done (fun _ hc => hc)))

theorem statementsRead (tokens : List Token) (v02 : Bool) : ∀ (n : Nat), StatementsRead tokens v02 n
  | 0     => ⟨reads_fail, reads_fail⟩
  | n + 1 =>
    have ih := statementsRead tokens v02 n
    ⟨reads_statement_step ih, reads_block_step ih⟩

/-! ## Fields -/

/-- Among the fields of an input, a context or an output. -/
def InFields (k : Keyword) (b : List Token) : Prop :=
  lastKeyword b = some k ∧ (k = .input ∨ k = .context ∨ k = .output)

/-- A calm place among the fields. -/
def FieldPlace (k : Keyword) (b : List Token) : Prop := InFields k b ∧ Calm b

/-- Where a name is no type before `from`. -/
def FieldStart (k : Keyword) (b : List Token) : Prop := FieldPlace k b ∧ b.head?.any Token.endsType = false

/-- After the type of a field. -/
def TypeEnd (k : Keyword) (b : List Token) : Prop := FieldPlace k b ∧ b.head?.any Token.endsType = true

theorem InFields.cons {k : Keyword} {t : Token} {b : List Token} (h : InFields k b) (ht : t.asKeyword? = none) :
    InFields k (t :: b) := ⟨by rw [lastKeyword_cons ht]; exact h.1, h.2⟩

theorem InFields.calm_other {k : Keyword} {t : Token} {b : List Token} (h : InFields k b) (ht : t.asKeyword? = none)
    (hname : t.asIdentifier? = none) : Calm (t :: b) := by
  refine Parser.calm_other ht hname (fun hexpression => ?_)
  obtain ⟨k', hlast, htakes⟩ := hexpression
  have hk : k' = k := Option.some.inj (hlast.symm.trans h.1)
  subst hk
  obtain rfl | rfl | rfl := h.2 <;> cases htakes

theorem InFields.calm_identifier {k : Keyword} {name : Identifier} {b : List Token} (h : InFields k b)
    (hfrom : afterFrom (.identifier name :: b) = false) : Calm (.identifier name :: b) := by
  refine Parser.calm_identifier (fun _ => hfrom) (fun hlanguage => ?_)
  have hk : k = .language := Option.some.inj (h.1.symm.trans hlanguage)
  obtain rfl | rfl | rfl := h.2 <;> cases hk

theorem InFields.calm_named {k : Keyword} {name : Identifier} {b : List Token} (h : InFields k b)
    (hname : name.text ≠ "from") : Calm (.identifier name :: b) := by
  refine h.calm_identifier ?_
  cases b with
  | nil      => rfl
  | cons t r => simp [afterFrom, Token.named, Token.asIdentifier?, hname]

/-- A name where none is a type before `from`. -/
theorem FieldStart.identifier {k : Keyword} {b : List Token} (h : FieldStart k b) (name : Identifier) :
    TypeEnd k (.identifier name :: b) := by
  refine ⟨⟨h.1.1.cons rfl, h.1.1.calm_identifier ?_⟩, rfl⟩
  have hends := h.2
  cases b with
  | nil      => rfl
  | cons t r =>
    have ht : t.endsType = false := hends
    simp [afterFrom, ht]

theorem FieldPlace.mark {k : Keyword} {b : List Token} (h : FieldPlace k b) (m : Mark) : FieldPlace k (.mark m :: b) :=
  ⟨h.1.cons rfl, h.1.calm_other rfl rfl⟩

theorem spelled_fieldStart {k : Keyword} {f : List Token → Prop} (m : Mark) (hm : m ≠ .gt)
    (hf : ∀ b, f b → FieldPlace k b) : Spelled (StrEnum.value m) (At f) (FieldStart k) :=
  spelled_mark m (fun b hb => (hf b hb).2 _) (fun b hb => ⟨(hf b hb).mark m, decide_eq_false hm⟩)

theorem spelled_typeEnd {k : Keyword} : Spelled ">" (At (TypeEnd k)) (TypeEnd k) :=
  spelled_mark .gt (fun _ hb => hb.1.2 _) (fun _ hb => ⟨hb.1.mark .gt, rfl⟩)

theorem reads_typeRef {k : Keyword} : ∀ (fuel : Nat),
    Reads tokens (At (FieldStart k)) (typeRef fuel) (fun _ => At (TypeEnd k))
  | 0     => reads_fail
  | n + 1 => by
    unfold typeRef
    refine (reads_expectIdentifier (g := fun _ => TypeEnd k) (fun _ name hb => hb.identifier name)).bind (fun name => ?_)
    split
    · refine (reads_expect (spelled_fieldStart .lt (by decide) (fun _ hb => hb.1))).bind (fun _ => ?_)
      refine (reads_expectIdentifier (g := fun _ => TypeEnd k) (fun _ name hb => hb.identifier name)).bind (fun currency => ?_)
      refine (reads_expect spelled_typeEnd).bind (fun _ => ?_)
      split
      · exact reads_done (fun _ hc => hc)
      · exact reads_fail
    split
    · refine (reads_expect (spelled_fieldStart .lt (by decide) (fun _ hb => hb.1))).bind (fun _ => ?_)
      refine (reads_typeRef n).bind (fun item => ?_)
      exact (reads_expect spelled_typeEnd).bind (fun _ => reads_done (fun _ hc => hc))
    split
    · exact reads_done (fun _ hc => hc)
    · exact reads_fail

theorem reads_fieldPath {k : Keyword} {withPath : Bool} (hk : withPath = true → k = .context) :
    Reads tokens (At (TypeEnd k)) (fieldPath withPath) (fun _ => At (FieldPlace k)) := by
  unfold fieldPath
  split
  · rename_i hpath
    have hcontext := hk hpath
    subst hcontext
    refine (reads_expect (g := fun b => InFields .context b ∧ afterFrom b = true)
      (spelled_name (by decide) (fun k => by cases k <;> decide) (by decide) (fun _ hb => hb.1.2)
        (fun b name hb hname => ⟨hb.1.1.cons rfl, ?_⟩))).bind (fun _ => ?_)
    · have hends := hb.2
      cases b with
      | nil      => cases hends
      | cons t r =>
        have ht : t.endsType = true := hends
        simp [afterFrom, Token.named, Token.asIdentifier?, hname, ht]
    · refine (reads_expectString (g := FieldPlace .context) (fun b s hb => ⟨?_, hb.1.cons rfl, hb.1.calm_other rfl rfl⟩)).bind
        (fun path => reads_done (fun _ hc => hc))
      unfold stringPlace
      rw [hb.1.1]
      exact hb.2
  · exact reads_done (fun _ hc => hc.1)

theorem reads_classification {k : Keyword} :
    Reads tokens (At (FieldPlace k)) classification (fun _ => At (FieldPlace k)) := by
  refine reads_accept (g := InFields k) (spelled_name (by decide) (fun k => by cases k <;> decide) (by decide)
    (fun _ hb => hb.2) (fun _ _ hb _ => hb.1.cons rfl)) ?_ ?_
  · refine (reads_expectIdentifier (g := fun s b => InFields k b ∧ (s ≠ "from" → Calm b))
      (fun _ _ hb => ⟨hb.cons rfl, fun hs => hb.calm_named hs⟩)).bind (fun value => ?_)
    split
    · rename_i c hc
      refine reads_done (fun _ hplace => ⟨hplace.1, hplace.2 ?_⟩)
      rintro rfl
      cases hc
    · exact reads_fail
  · exact reads_done (fun _ hc => hc.1)

theorem reads_nextField {k : Keyword} {withPath : Bool} (hk : withPath = true → k = .context) (fuel : Nat) :
    Reads tokens (At (FieldStart k)) (nextField withPath fuel)
      (fun o => if o.isSome = true then At (FieldStart k) else At Calm) := by
  refine reads_accept (g := Calm) (spelled_mark .rbrace (fun _ hb => hb.1.2 _) (fun _ hb => hb.1.1.calm_other rfl rfl)) ?_ ?_
  · exact reads_done (fun _ hc => hc)
  · refine Reads.pre (P := At (FieldStart k)) ?_ (fun c hc => hc.1)
    refine (reads_expectIdentifier (g := fun _ => TypeEnd k) (fun _ name hb => hb.identifier name)).bind (fun name => ?_)
    refine (reads_expect (spelled_fieldStart .colon (by decide) (fun _ hb => hb.1))).bind (fun _ => ?_)
    refine (reads_typeRef fuel).bind (fun typeInfo => (reads_fieldPath hk).bind (fun path => ?_))
    refine reads_classification.bind (fun classification => ?_)
    refine (reads_expect (spelled_fieldStart .semicolon (by decide) (fun _ hb => hb))).bind (fun _ => ?_)
    exact reads_done (fun _ hc => hc)

theorem reads_fields {k : Keyword} {withPath : Bool} (hk : withPath = true → k = .context)
    (hfields : k = .input ∨ k = .context ∨ k = .output) (fuel : Nat) :
    Reads tokens (At Calm) (fields (StrEnum.value k) withPath fuel) (fun _ => At Calm) := by
  have hsaid : k.inV01 = true ∧ k.takesText = false ∧ (Token.keyword k).opensExpression = false := by
    obtain rfl | rfl | rfl := hfields <;> exact ⟨rfl, rfl, rfl⟩
  refine (reads_expect (spelled_said k hsaid.1 hsaid.2.1 hsaid.2.2 (fun _ hb => hb))).bind (fun _ => ?_)
  refine (reads_expect (spelled_fieldStart (k := k) .lbrace (by decide) (fun b hb => ⟨⟨hb.1, hfields⟩, hb.2⟩))).bind
    (fun _ => ?_)
  exact reads_many (reads_nextField hk fuel) fuel

/-! ## Sections -/

theorem reads_includePath : Reads tokens (At Calm) includePath (fun _ => At Calm) := by
  refine (reads_expect (spelled_text .include rfl (fun _ hb => hb))).bind (fun _ => ?_)
  refine (reads_text (by decide) rfl).bind (fun path => ?_)
  refine (reads_expect (spelled_said_mark (by decide) .semicolon)).bind (fun _ => ?_)
  exact reads_done (fun _ hc => hc.2)

theorem reads_nextTool (fuel : Nat) :
    Reads tokens (At Calm) (nextTool fuel) (fun o => if o.isSome = true then At Calm else At Calm) := by
  refine reads_accept (spelled_closing .rbrace rfl (fun _ hb => hb)) ?_ ?_
  · exact reads_done (fun _ hc => hc)
  · have hquiet : Quiet .tool := by decide
    refine Reads.pre (P := At Calm) ?_ (fun c hc => hc.1)
    refine (reads_expect (spelled_said .tool rfl rfl rfl (fun _ hb => hb))).bind (fun _ => ?_)
    refine (reads_qualifiedName fuel (g := Said .tool) (fun _ _ hb => quiet_cons hquiet hb.1 rfl) (fun _ hb => hb.2)
      (fun _ _ hb => quiet_cons hquiet (quiet_cons hquiet hb.1 rfl).1 rfl)).bind (fun toolId => ?_)
    refine (reads_expect (spelled_text .version rfl (fun _ hb => hb.2))).bind (fun _ => ?_)
    refine (reads_text (by decide) rfl).bind (fun version => ?_)
    refine (reads_expect (spelled_said_mark (by decide) .semicolon)).bind (fun _ => ?_)
    exact reads_done (fun _ hc => hc.2)

theorem reads_requires (fuel : Nat) : Reads tokens (At Calm) (requires fuel) (fun _ => At Calm) := by
  refine (reads_expect (spelled_said .requires rfl rfl rfl (fun _ hb => hb))).bind (fun _ => ?_)
  refine (reads_expect (spelled_said_mark (by decide) .lbrace)).bind (fun _ => ?_)
  exact (reads_many (reads_nextTool fuel) fuel).pre (fun _ hc => hc.2)

theorem reads_limitValue (name : String) : Reads tokens (At (Said .limits)) (limitValue name) (fun _ => At (Said .limits)) := by
  have hquiet : Quiet .limits := by decide
  unfold limitValue
  split
  · refine reads_said_kind hquiet (fun t a ha => ?_)
    cases t with
    | duration d => exact ⟨by simp, rfl, rfl⟩
    | _          => cases ha
  · exact (reads_said_integer hquiet).bind (fun digits => reads_integerValue digits)

theorem reads_limitFields : ∀ (fuel : Nat) (values : List (String × Nat)),
    Reads tokens (At (Said .limits)) (limitFields fuel values) (fun _ => At (Said .limits))
  | 0,     _      => reads_fail
  | n + 1, values => by
    have hquiet : Quiet .limits := by decide
    unfold limitFields
    refine reads_atWord.bind (fun b => ?_)
    cases b with
    | true  => exact reads_done (fun _ hc => hc.1)
    | false =>
      refine Reads.pre (P := At (Said .limits)) ?_ (fun c hc => hc.1)
      refine (reads_said_identifier hquiet).bind (fun name => ?_)
      split
      · exact reads_fail
      · refine (reads_limitValue name).bind (fun value => ?_)
        refine (reads_expect (spelled_said_mark hquiet .semicolon)).bind (fun _ => ?_)
        exact reads_limitFields n _

theorem reads_limits (fuel : Nat) : Reads tokens (At Calm) (limits fuel) (fun _ => At Calm) := by
  have hquiet : Quiet .limits := by decide
  refine (reads_expect (spelled_said .limits rfl rfl rfl (fun _ hb => hb))).bind (fun _ => ?_)
  refine (reads_expect (spelled_said_mark hquiet .lbrace)).bind (fun _ => ?_)
  refine (reads_limitFields fuel []).bind (fun values => ?_)
  refine (reads_expect (spelled_said_mark hquiet .rbrace)).bind (fun _ => ?_)
  dsimp only
  split
  · split
    · exact reads_current.bind (fun _ => reads_fail)
    · exact reads_done (fun _ hc => hc.2)
  · exact reads_current.bind (fun _ => reads_fail)

theorem reads_nextSection (v02 : Bool) (fuel : Nat) :
    Reads tokens (At Calm) (nextSection v02 fuel) (fun o => if o.isSome = true then At Calm else At Calm) := by
  refine reads_current.bind (fun t => ?_)
  split
  · exact reads_done (fun _ hc => hc.1)
  split
  · rename_i ht
    refine (reads_facing_word (spelled_text .version rfl (fun _ hb => hb)) ht).bind (fun _ => ?_)
    refine (reads_text (by decide) rfl).bind (fun text => ?_)
    exact (reads_expect (spelled_said_mark (by decide) .semicolon)).bind (fun _ => reads_done (fun _ hc => hc.2))
  split
  · rename_i ht
    refine reads_said_facing (k := .risk) rfl rfl rfl ht ((reads_said_identifier (by decide)).bind (fun name => ?_))
    exact (reads_expect (spelled_said_mark (by decide) .semicolon)).bind (fun _ => reads_done (fun _ hc => hc.2))
  refine Reads.pre (P := At Calm) ?_ (fun c hc => hc.1)
  split
  · exact reads_includePath.bind (fun _ => reads_done (fun _ hc => hc))
  split
  · exact (reads_requires fuel).bind (fun _ => reads_done (fun _ hc => hc))
  split
  · exact (reads_limits fuel).bind (fun _ => reads_done (fun _ hc => hc))
  split
  · exact (reads_fields (k := .input) (by simp) (by simp) fuel).bind (fun _ => reads_done (fun _ hc => hc))
  split
  · exact (reads_fields (k := .context) (by simp) (by simp) fuel).bind (fun _ => reads_done (fun _ hc => hc))
  split
  · exact (reads_fields (k := .output) (by simp) (by simp) fuel).bind (fun _ => reads_done (fun _ hc => hc))
  · exact (statementsRead tokens v02 fuel).statement.bind (fun _ => reads_done (fun _ hc => hc))

theorem reads_nextFragmentItem (fuel : Nat) :
    Reads tokens (At Calm) (nextFragmentItem fuel) (fun o => if o.isSome = true then At Calm else At Calm) := by
  refine reads_current.bind (fun t => Reads.pre (P := At Calm) ?_ (fun c hc => hc.1))
  split
  · exact reads_done (fun _ hc => hc)
  split
  · exact reads_includePath.bind (fun _ => reads_done (fun _ hc => hc))
  split
  · exact (reads_requires fuel).bind (fun _ => reads_done (fun _ hc => hc))
  split
  · exact (reads_fields (k := .context) (by simp) (by simp) fuel).bind (fun _ => reads_done (fun _ hc => hc))
  split
  · exact (reads_limits fuel).bind (fun _ => reads_done (fun _ hc => hc))
  · exact reads_fail

end Parser
end Nsl
