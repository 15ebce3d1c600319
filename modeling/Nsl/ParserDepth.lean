import Nsl.Parser
/-!
# Parser depth — the fuel of a parse is enough

Every loop and every recursion of the parser takes a token on each round, so fuel for a few rounds a token never runs
out: what `parseRoot` and `parseFragment` answer is what the parser of the source answers.
-/
namespace Nsl

open Stateful (Run)

namespace Parser

variable {α β : Type}

/-- **With at most `room` tokens ahead the run does not run out of fuel**, and when it ends with `a` it has taken `k a`
tokens at least. -/
def Ends (room : Nat) (k : α → Nat) (m : Parse α) : Prop :=
  ∀ c, c.ahead.length ≤ room →
    (m c).outcome ≠ .error .depth ∧ ∀ a, (m c).outcome = .ok a → (m c).final.ahead.length + k a ≤ c.ahead.length

theorem Ends.mono {room room' : Nat} {k j : α → Nat} {m : Parse α} (h : Ends room k m) (hroom : room' ≤ room)
    (hk : ∀ a, j a ≤ k a) : Ends room' j m := by
  intro c hc
  obtain ⟨hdepth, htaken⟩ := h c (hc.trans hroom)
  refine ⟨hdepth, fun a ha => ?_⟩
  have := htaken a ha
  have := hk a
  omega

theorem ends_done {room : Nat} {k : α → Nat} {a : α} (h : k a = 0) : Ends room k (Run.done a : Parse α) := by
  intro c hc
  refine ⟨fun he => (by cases he), fun b hb => ?_⟩
  cases hb
  show c.ahead.length + k a ≤ c.ahead.length
  omega

theorem ends_fail {room : Nat} {k : α → Nat} {e : ParseError} (h : e ≠ .depth) : Ends room k (Run.fail e : Parse α) := by
  intro c hc
  refine ⟨fun he => ?_, fun b hb => (by cases hb)⟩
  cases he
  exact h rfl

theorem ends_ofExcept {room : Nat} {x : Except ParseError α} (h : x ≠ .error .depth) :
    Ends room (fun _ => 0) (Run.ofExcept x : Parse α) := by
  cases x with
  | ok a    => exact ends_done rfl
  | error e => exact ends_fail (fun he => h (by rw [he]))

theorem Ends.bind {room : Nat} {k : α → Nat} {j : β → Nat} {m : Parse α} {f : α → Parse β} (hm : Ends room k m)
    (hf : ∀ a, k a ≤ room → Ends (room - k a) (fun b => j b - k a) (f a)) : Ends room j (m >>= f) := by
  intro c hc
  obtain ⟨hdepth, htaken⟩ := hm c hc
  show (Run.andThen m f c).outcome ≠ _ ∧ _
  rw [Run.bind_eq]
  rcases hms : m c with ⟨w, c', e | a⟩
  · rw [Run.andThen_error hms]
    rw [hms] at hdepth
    refine ⟨fun he => hdepth ?_, fun b hb => (by cases hb)⟩
    cases he
    rfl
  · rw [Run.andThen_ok hms]
    rw [hms] at htaken
    have hrest : c'.ahead.length + k a ≤ c.ahead.length := htaken a rfl
    obtain ⟨hdepth', htaken'⟩ := hf a (by omega) c' (by omega)
    refine ⟨hdepth', fun b hb => ?_⟩
    have hmore : (f a c').final.ahead.length + (j b - k a) ≤ c'.ahead.length := htaken' b hb
    show (f a c').final.ahead.length + j b ≤ c.ahead.length
    omega

/-! ## Tokens -/

theorem ends_current (room : Nat) : Ends room (fun _ => 0) current := by
  intro c hc
  unfold current
  rcases c with ⟨taken, _ | ⟨t, ahead⟩⟩
  · exact ⟨fun he => (by cases he), fun b hb => (by cases hb)⟩
  · exact ⟨fun he => (by cases he), fun b hb => le_rfl⟩

theorem ends_advance (room : Nat) (role : Role) : Ends room (fun _ => 1) (advance role) := by
  intro c hc
  unfold advance current
  rcases c with ⟨taken, _ | ⟨t, ahead⟩⟩
  · exact ⟨fun he => (by cases he), fun b hb => (by cases hb)⟩
  · exact ⟨fun he => (by cases he), fun b hb => le_rfl⟩

theorem ends_atWord (room : Nat) (word : String) : Ends room (fun _ => 0) (atWord word) :=
  (ends_current room).bind (fun _ _ => ends_done rfl)

theorem ends_accept (room : Nat) (word : String) : Ends room (fun b => if b then 1 else 0) (accept word) := by
  refine (ends_atWord room word).bind (fun b _ => ?_)
  cases b with
  | true  => exact (ends_advance _ _).bind (fun _ _ => ends_done rfl)
  | false => exact ends_done rfl

theorem ends_expect (room : Nat) (word : String) : Ends room (fun _ => 1) (expect word) := by
  refine (ends_current room).bind (fun t _ => ?_)
  split
  · exact ends_advance _ _
  · exact ends_fail (by simp)

theorem ends_expectKind (room : Nat) (kind : TokenKind) (payload : Token → Option α) :
    Ends room (fun _ => 1) (expectKind kind payload) := by
  refine (ends_current room).bind (fun t _ => ?_)
  split
  · exact (ends_advance _ _).bind (fun _ _ => ends_done rfl)
  · exact ends_fail (by simp)

theorem ends_expectIdentifier (room : Nat) : Ends room (fun _ => 1) expectIdentifier := ends_expectKind room _ _

theorem ends_expectString (room : Nat) : Ends room (fun _ => 1) expectString := ends_expectKind room _ _

/-- A loop whose every round takes a token. -/
theorem ends_many {step : Parse (Option α)} :
    ∀ {n room : Nat}, room < n → (∀ room' ≤ room, Ends room' (fun o => if o.isSome then 1 else 0) step) →
      Ends room (fun _ => 0) (many step n)
  | 0, _, h, _           => absurd h (Nat.not_lt_zero _)
  | n + 1, room, h, hstep => by
    unfold many
    refine (hstep room le_rfl).bind (fun o ho => ?_)
    cases o with
    | none   => exact ends_done rfl
    | some a =>
      have hpositive : 1 ≤ room := ho
      have hrest := @ends_many step n (room - 1) (by omega) (fun room' hr => hstep room' (by omega))
      exact hrest.bind (fun _ _ => ends_done rfl)

/-! ## Names, types and sections -/

theorem ends_nextPart (room : Nat) : Ends room (fun o => if o.isSome then 1 else 0) nextPart := by
  refine (ends_accept room ".").bind (fun b _ => ?_)
  cases b with
  | true  => exact (ends_expectIdentifier _).bind (fun _ _ => ends_done rfl)
  | false => exact ends_done rfl

theorem ends_qualifiedName {room fuel : Nat} (h : room < fuel) : Ends room (fun _ => 1) (qualifiedName fuel) := by
  refine (ends_expectIdentifier room).bind (fun _ _ => ?_)
  exact (ends_many (by omega) (fun room' _ => ends_nextPart room')).bind (fun _ _ => ends_done rfl)

theorem ends_typeRef : ∀ {n room : Nat}, room < n → Ends room (fun _ => 1) (typeRef n)
  | 0, _, h        => absurd h (Nat.not_lt_zero _)
  | n + 1, room, h => by
    unfold typeRef
    refine (ends_expectIdentifier room).bind (fun name hname => ?_)
    split
    · refine (ends_expect _ "<").bind (fun _ _ => (ends_expectIdentifier _).bind (fun currency _ =>
        (ends_expect _ ">").bind (fun _ _ => ?_)))
      split
      · exact ends_done rfl
      · exact ends_fail (by simp)
    · split
      · refine (ends_expect _ "<").bind (fun _ _ => ?_)
        exact (ends_typeRef (by omega)).bind (fun item _ => (ends_expect _ ">").bind (fun _ _ => ends_done rfl))
      · split
        · exact ends_done rfl
        · exact ends_fail (by simp)

theorem ends_classification (room : Nat) : Ends room (fun _ => 0) classification := by
  refine (ends_accept room "classification").bind (fun b _ => ?_)
  cases b with
  | true  =>
    refine (ends_expectIdentifier _).bind (fun value _ => ?_)
    cases (StrEnum.ofValue? value : Option DataClassification) with
    | some c => exact ends_done (by simp)
    | none   => exact ends_fail (by simp)
  | false => exact ends_done rfl

theorem ends_includePath (room : Nat) : Ends room (fun _ => 1) includePath :=
  (ends_expect room "include").bind (fun _ _ => (ends_expectString _).bind (fun _ _ => (ends_expect _ ";").bind
    (fun _ _ => ends_done rfl)))

theorem ends_nextTool {room fuel : Nat} (h : room < fuel) :
    Ends room (fun o => if o.isSome then 1 else 0) (nextTool fuel) := by
  refine (ends_accept room "\x7d").bind (fun b _ => ?_)
  cases b with
  | true  => exact ends_done rfl
  | false =>
    refine (ends_expect _ "tool").bind (fun _ _ => (ends_qualifiedName (by omega)).bind (fun _ _ =>
      (ends_expect _ "version").bind (fun _ _ => (ends_expectString _).bind (fun _ _ =>
        (ends_expect _ ";").bind (fun _ _ => ends_done rfl)))))

theorem ends_requires {room fuel : Nat} (h : room < fuel) : Ends room (fun _ => 1) (requires fuel) := by
  refine (ends_expect room "requires").bind (fun _ _ => (ends_expect _ "\x7b").bind (fun _ _ => ?_))
  exact (ends_many (by omega) (fun room' _ => ends_nextTool (by omega))).mono le_rfl (by simp)

theorem ends_integerValue (room : Nat) (digits : Digits) : Ends room (fun _ => 0) (integerValue digits) := by
  unfold integerValue
  split
  · exact ends_done rfl
  · exact ends_fail (by simp)

theorem ends_limitValue (room : Nat) (name : String) : Ends room (fun _ => 1) (limitValue name) := by
  unfold limitValue
  split
  · exact ends_expectKind room _ _
  · exact (ends_expectKind room _ _).bind (fun digits _ => (ends_integerValue _ digits).mono le_rfl (by simp))

theorem ends_limitFields : ∀ {n room : Nat} {values : List (String × Nat)}, room < n →
    Ends room (fun _ => 0) (limitFields n values)
  | 0, _, _, h             => absurd h (Nat.not_lt_zero _)
  | n + 1, room, values, h => by
    unfold limitFields
    refine (ends_atWord room "\x7d").bind (fun b _ => ?_)
    cases b with
    | true  => exact ends_done rfl
    | false =>
      refine (ends_expectIdentifier _).bind (fun name hname => ?_)
      split
      · exact ends_fail (by simp)
      · refine (ends_limitValue _ name).bind (fun value hvalue => (ends_expect _ ";").bind (fun _ _ => ?_))
        exact (ends_limitFields (by omega)).mono le_rfl (by simp)

theorem ends_limits {room fuel : Nat} (h : room < fuel) : Ends room (fun _ => 1) (limits fuel) := by
  refine (ends_expect room "limits").bind (fun _ _ => (ends_expect _ "\x7b").bind (fun _ _ => ?_))
  refine (ends_limitFields (by omega)).bind (fun values _ => (ends_expect _ "\x7d").bind (fun _ _ => ?_))
  dsimp only
  split
  · split
    · exact (ends_current _).bind (fun _ _ => ends_fail (by simp))
    · exact ends_done rfl
  · exact (ends_current _).bind (fun _ _ => ends_fail (by simp))

theorem ends_fieldPath (room : Nat) (withPath : Bool) : Ends room (fun _ => 0) (fieldPath withPath) := by
  unfold fieldPath
  split
  · exact (ends_expect room "from").bind (fun _ _ => (ends_expectString _).bind (fun _ _ => ends_done rfl))
  · exact ends_done rfl

theorem ends_nextField {room fuel : Nat} (withPath : Bool) (h : room < fuel) :
    Ends room (fun o => if o.isSome then 1 else 0) (nextField withPath fuel) := by
  refine (ends_accept room "\x7d").bind (fun b _ => ?_)
  cases b with
  | true  => exact ends_done rfl
  | false =>
    refine (ends_expectIdentifier _).bind (fun name _ => (ends_expect _ ":").bind (fun _ _ =>
      (ends_typeRef (by omega)).bind (fun t _ => (ends_fieldPath _ withPath).bind (fun path _ =>
        (ends_classification _).bind (fun c _ => (ends_expect _ ";").bind (fun _ _ => ends_done rfl))))))

theorem ends_fields {room fuel : Nat} (keyword : String) (withPath : Bool) (h : room < fuel) :
    Ends room (fun _ => 1) (fields keyword withPath fuel) := by
  refine (ends_expect room keyword).bind (fun _ _ => (ends_expect _ "\x7b").bind (fun _ _ => ?_))
  exact (ends_many (by omega) (fun room' _ => ends_nextField withPath (by omega))).mono le_rfl (by simp)

/-! ## Expressions -/

/-- The fuel that each function of an expression needs for a number of tokens ahead. -/
structure ExpressionsEnd (v02 : Bool) (n : Nat) : Prop where
  expression         : ∀ room minimum, 4 * room + 4 ≤ n → Ends room (fun _ => 1) (expression v02 n minimum)
  operators          : ∀ room minimum left, 4 * room + 1 ≤ n → Ends room (fun _ => 0) (operators v02 n minimum left)
  primary            : ∀ room, 4 * room + 3 ≤ n → Ends room (fun _ => 1) (primary v02 n)
  namedArguments     : ∀ room separator, 4 * room + 2 ≤ n → Ends room (fun _ => 1) (namedArguments v02 separator n)
  moreNamedArguments : ∀ room separator, 4 * room + 1 ≤ n → Ends room (fun _ => 1) (moreNamedArguments v02 separator n)
  callArguments      : ∀ room, 4 * room + 6 ≤ n → Ends room (fun _ => 1) (callArguments v02 n)
  moreCallArguments  : ∀ room, 4 * room + 5 ≤ n → Ends room (fun _ => 1) (moreCallArguments v02 n)

section Step

variable {v02 : Bool} {n : Nat} (ih : ExpressionsEnd v02 n)

include ih

theorem ends_expression_step {room minimum : Nat} (h : 4 * room + 4 ≤ n + 1) :
    Ends room (fun _ => 1) (expression v02 (n + 1) minimum) := by
  unfold expression
  refine (ih.primary room (by omega)).bind (fun left hleft => ?_)
  exact (ih.operators (room - 1) minimum left (by omega)).mono le_rfl (by simp)

theorem ends_operators_step {room minimum : Nat} {left : AstExpression} (h : 4 * room + 1 ≤ n + 1) :
    Ends room (fun _ => 0) (operators v02 (n + 1) minimum left) := by
  unfold operators
  refine (ends_current room).bind (fun t _ => ?_)
  split
  · exact ends_done rfl
  · split
    · exact ends_done rfl
    · refine (ends_advance _ _).bind (fun _ hroom => ?_)
      refine (ih.expression _ _ (by omega)).bind (fun right _ => ?_)
      exact (ih.operators _ _ _ (by omega)).mono le_rfl (by simp)

omit ih in
theorem literalOf_noDepth {t : Token} {value : Except ParseError AstExpression} (h : literalOf t = some value) :
    value ≠ .error .depth := by
  unfold literalOf at h
  split at h
  · cases h
    split <;> simp
  · cases h
    split <;> simp
  · cases h
    simp
  · cases h
    simp
  · cases h

theorem ends_primary_step {room : Nat} (h : 4 * room + 3 ≤ n + 1) : Ends room (fun _ => 1) (primary v02 (n + 1)) := by
  unfold primary
  refine (ends_current room).bind (fun t _ => ?_)
  split
  · rename_i value hvalue
    refine (ends_advance _ _).bind (fun _ _ => ?_)
    exact (ends_ofExcept (literalOf_noDepth hvalue)).mono le_rfl (by simp)
  · split
    · refine (ends_advance _ _).bind (fun _ _ => (ends_qualifiedName (by omega)).bind (fun toolId _ =>
        (ends_expect _ "(").bind (fun _ _ => ?_)))
      exact (ih.namedArguments _ ":" (by omega)).bind (fun arguments _ => ends_done (by simp))
    · split
      · refine (ends_advance _ _).bind (fun _ _ => (ends_qualifiedName (by omega)).bind (fun toolId _ =>
          (ends_expect _ "(").bind (fun _ _ => (ih.namedArguments _ "=" (by omega)).bind (fun arguments _ => ?_))))
        exact (ends_expect _ "approved_by").bind (fun _ _ => (ends_expectIdentifier _).bind (fun _ _ => ends_done (by simp)))
      · split
        · refine (ends_advance _ _).bind (fun _ _ => (ends_accept _ "(").bind (fun b hb => ?_))
          cases b with
          | true  =>
            have hroom : 1 ≤ room - 0 - 1 := hb
            exact (ih.callArguments _ (by simp only [if_true]; omega)).bind (fun _ _ => ends_done (by simp))
          | false =>
            have hrest := @ends_many _ nextPart n (room - 0 - 1 - 0) (by omega) (fun room' _ => ends_nextPart room')
            exact hrest.bind (fun _ _ => ends_done (by simp))
        · refine (ends_accept _ "(").bind (fun b hb => ?_)
          cases b with
          | true  =>
            have hroom : 1 ≤ room - 0 := hb
            exact (ih.expression _ 0 (by simp only [if_true]; omega)).bind (fun e _ =>
              (ends_expect _ ")").bind (fun _ _ => ends_done (by simp)))
          | false => exact ends_fail (by simp)

theorem ends_namedArguments_step {room : Nat} {separator : String} (h : 4 * room + 2 ≤ n + 1) :
    Ends room (fun _ => 1) (namedArguments v02 separator (n + 1)) := by
  unfold namedArguments
  refine (ends_accept room ")").bind (fun b hb => ?_)
  cases b with
  | true  => exact ends_done (by simp)
  | false => exact (ih.moreNamedArguments _ separator (by simp only [Bool.false_eq_true, if_false]; omega)).mono le_rfl (by simp)

theorem ends_moreNamedArguments_step {room : Nat} {separator : String} (h : 4 * room + 1 ≤ n + 1) :
    Ends room (fun _ => 1) (moreNamedArguments v02 separator (n + 1)) := by
  unfold moreNamedArguments
  refine (ends_expectIdentifier room).bind (fun name _ => (ends_expect _ separator).bind (fun _ _ =>
    (ih.expression _ 0 (by omega)).bind (fun e _ => (ends_accept _ ")").bind (fun b hb => ?_))))
  cases b with
  | true  => exact ends_done (by simp)
  | false =>
    refine (ends_expect _ ",").bind (fun _ _ => ?_)
    exact (ih.moreNamedArguments _ separator (by simp only [Bool.false_eq_true, if_false]; omega)).bind (fun _ _ => ends_done (by simp))

theorem ends_callArguments_step {room : Nat} (h : 4 * room + 6 ≤ n + 1) :
    Ends room (fun _ => 1) (callArguments v02 (n + 1)) := by
  unfold callArguments
  refine (ends_accept room ")").bind (fun b hb => ?_)
  cases b with
  | true  => exact ends_done (by simp)
  | false => exact (ih.moreCallArguments _ (by simp only [Bool.false_eq_true, if_false]; omega)).mono le_rfl (by simp)

theorem ends_moreCallArguments_step {room : Nat} (h : 4 * room + 5 ≤ n + 1) :
    Ends room (fun _ => 1) (moreCallArguments v02 (n + 1)) := by
  unfold moreCallArguments
  refine (ih.expression room 0 (by omega)).bind (fun e _ => (ends_accept _ ")").bind (fun b hb => ?_))
  cases b with
  | true  => exact ends_done (by simp)
  | false =>
    refine (ends_expect _ ",").bind (fun _ _ => ?_)
    exact (ih.moreCallArguments _ (by simp only [Bool.false_eq_true, if_false]; omega)).bind (fun _ _ => ends_done (by simp))

end Step

theorem expressionsEnd (v02 : Bool) : ∀ (n : Nat), ExpressionsEnd v02 n
  | 0     => by
    constructor
    all_goals intros
    all_goals omega
  | n + 1 =>
    have ih := expressionsEnd v02 n
    { expression         := fun _ _ h => ends_expression_step ih h
      operators          := fun _ _ _ h => ends_operators_step ih h
      primary            := fun _ h => ends_primary_step ih h
      namedArguments     := fun _ _ h => ends_namedArguments_step ih h
      moreNamedArguments := fun _ _ h => ends_moreNamedArguments_step ih h
      callArguments      := fun _ h => ends_callArguments_step ih h
      moreCallArguments  := fun _ h => ends_moreCallArguments_step ih h }

theorem ends_expression {v02 : Bool} {n room : Nat} (h : 4 * room + 4 ≤ n) :
    Ends room (fun _ => 1) (expression v02 n 0) := (expressionsEnd v02 n).expression room 0 h

/-! ## Statements -/

theorem ends_approveRest (room : Nat) : Ends room (fun _ => 1) approveRest :=
  (ends_expectIdentifier room).bind (fun _ _ => (ends_expect _ "\x7b").bind (fun _ _ => (ends_expect _ "message").bind
    (fun _ _ => (ends_expectString _).bind (fun _ _ => (ends_expect _ ";").bind (fun _ _ =>
      (ends_expect _ "\x7d").bind (fun _ _ => ends_done (by simp)))))))

theorem ends_letRest {v02 : Bool} {room fuel : Nat} (h : 4 * room + 4 ≤ fuel) : Ends room (fun _ => 1) (letRest v02 fuel) :=
  (ends_expectIdentifier room).bind (fun _ _ => (ends_expect _ "=").bind (fun _ _ =>
    (ends_expression (by omega)).bind (fun _ _ => (ends_expect _ ";").bind (fun _ _ => ends_done (by simp)))))

theorem ends_checkRest {v02 : Bool} {room fuel : Nat} (h : 4 * room + 4 ≤ fuel) :
    Ends room (fun _ => 1) (checkRest v02 fuel) := by
  refine (ends_expectIdentifier room).bind (fun _ _ => (ends_expect _ "\x7b").bind (fun _ _ =>
    (ends_expect _ "assert").bind (fun _ _ => (ends_expression (by omega)).bind (fun _ _ =>
      (ends_expect _ ";").bind (fun _ _ => ?_)))))
  refine (ends_expect _ "severity").bind (fun _ _ => (ends_expectIdentifier _).bind (fun _ _ =>
    (ends_expect _ ";").bind (fun _ _ => (ends_expect _ "on_fail").bind (fun _ _ =>
      (ends_expectIdentifier _).bind (fun _ _ => (ends_expect _ ";").bind (fun _ _ => ?_))))))
  exact (ends_expect _ "message").bind (fun _ _ => (ends_expectString _).bind (fun _ _ =>
    (ends_expect _ ";").bind (fun _ _ => (ends_expect _ "\x7d").bind (fun _ _ => ends_done (by simp)))))

theorem ends_nextEmitField {v02 : Bool} {room fuel : Nat} (h : 4 * room + 4 ≤ fuel) :
    Ends room (fun o => if o.isSome then 1 else 0) (nextEmitField v02 fuel) := by
  refine (ends_atWord room "\x7d").bind (fun b _ => ?_)
  cases b with
  | true  => exact ends_done rfl
  | false =>
    refine (ends_expectIdentifier _).bind (fun _ _ => (ends_expect _ ":").bind (fun _ _ => ?_))
    exact (ends_expression (by omega)).bind (fun _ _ => (ends_expect _ ";").bind (fun _ _ => ends_done (by simp)))

theorem ends_emitRest {v02 : Bool} {room fuel : Nat} (h : 4 * room + 4 ≤ fuel) :
    Ends room (fun _ => 1) (emitRest v02 fuel) := by
  refine (ends_expect room "\x7b").bind (fun _ _ => ?_)
  refine (ends_many (by omega) (fun room' _ => ends_nextEmitField (by omega))).bind (fun _ _ => ?_)
  exact (ends_expect _ "\x7d").bind (fun _ _ => ends_done (by simp))

theorem ends_maxIterations (room : Nat) : Ends room (fun _ => 1) maxIterations := by
  refine (ends_expectKind room _ _).bind (fun digits _ => (ends_integerValue _ digits).bind (fun n _ => ?_))
  split
  · exact ends_fail (by simp)
  · exact ends_done (by simp)

/-- The fuel that a statement and a block need. -/
structure StatementsEnd (v02 : Bool) (n : Nat) : Prop where
  statement : ∀ room, 4 * room + 2 ≤ n → Ends room (fun _ => 1) (statement v02 n)
  block     : ∀ room, 4 * room + 3 ≤ n → Ends room (fun _ => 0) (block v02 n)

theorem ends_statement_step {v02 : Bool} {n room : Nat} (ih : StatementsEnd v02 n) (h : 4 * room + 2 ≤ n + 1) :
    Ends room (fun _ => 1) (statement v02 (n + 1)) := by
  unfold statement
  refine (ends_current room).bind (fun t _ => ?_)
  split
  · exact (ends_advance _ _).bind (fun _ _ => (ends_approveRest _).mono le_rfl (by simp))
  · split
    · exact (ends_advance _ _).bind (fun _ hroom => (ends_letRest (by omega)).mono le_rfl (by simp))
    · split
      · refine (ends_advance _ _).bind (fun _ hroom => (ends_expectIdentifier _).bind (fun _ _ =>
          (ends_expect _ "in").bind (fun _ _ => (ends_expression (by omega)).bind (fun _ _ => ?_))))
        refine (ends_expect _ "max").bind (fun _ _ => (ends_maxIterations _).bind (fun _ _ =>
          (ends_expect _ "\x7b").bind (fun _ _ => (ih.block _ (by omega)).bind (fun _ _ => ?_))))
        exact (ends_expect _ "\x7d").bind (fun _ _ => ends_done (by simp))
      · split
        · exact (ends_advance _ _).bind (fun _ hroom => (ends_checkRest (by omega)).mono le_rfl (by simp))
        · split
          · exact (ends_advance _ _).bind (fun _ hroom => (ends_emitRest (by omega)).mono le_rfl (by simp))
          · exact ends_fail (by simp)

theorem ends_block_step {v02 : Bool} {n room : Nat} (ih : StatementsEnd v02 n) (h : 4 * room + 3 ≤ n + 1) :
    Ends room (fun _ => 0) (block v02 (n + 1)) := by
  unfold block
  refine (ends_atWord room "\x7d").bind (fun b _ => ?_)
  cases b with
  | true  => exact ends_done rfl
  | false =>
    refine (ih.statement _ (by omega)).bind (fun s hs => ?_)
    exact (ih.block _ (by omega)).bind (fun _ _ => ends_done (by simp))

theorem statementsEnd (v02 : Bool) : ∀ (n : Nat), StatementsEnd v02 n
  | 0     => by
    constructor
    all_goals intros
    all_goals omega
  | n + 1 =>
    have ih := statementsEnd v02 n
    { statement := fun _ h => ends_statement_step ih h
      block     := fun _ h => ends_block_step ih h }

/-! ## The whole input -/

theorem ends_nextSection {v02 : Bool} {room fuel : Nat} (h : 4 * room + 2 ≤ fuel) :
    Ends room (fun o => if o.isSome then 1 else 0) (nextSection v02 fuel) := by
  refine (ends_current room).bind (fun t _ => ?_)
  split
  · exact ends_done rfl
  split
  · exact (ends_advance _ _).bind (fun _ _ => (ends_expectString _).bind (fun _ _ => (ends_expect _ ";").bind
      (fun _ _ => ends_done (by simp))))
  split
  · exact (ends_advance _ _).bind (fun _ _ => (ends_expectIdentifier _).bind (fun _ _ => (ends_expect _ ";").bind
      (fun _ _ => ends_done (by simp))))
  split
  · exact (ends_includePath _).bind (fun _ _ => ends_done (by simp))
  split
  · exact (ends_requires (by omega)).bind (fun _ _ => ends_done (by simp))
  split
  · exact (ends_limits (by omega)).bind (fun _ _ => ends_done (by simp))
  split
  · exact (ends_fields "input" false (by omega)).bind (fun _ _ => ends_done (by simp))
  split
  · exact (ends_fields "context" true (by omega)).bind (fun _ _ => ends_done (by simp))
  split
  · exact (ends_fields "output" false (by omega)).bind (fun _ _ => ends_done (by simp))
  · exact ((statementsEnd v02 fuel).statement _ (by omega)).bind (fun _ _ => ends_done (by simp))

theorem ends_parseSkill {room fuel : Nat} (h : 4 * room + 4 ≤ fuel) : Ends room (fun _ => 0) (parseSkill fuel) := by
  have hhead : Ends room (fun _ => 0) (skillHead fuel) := by
    refine (ends_expect room "language").bind (fun _ _ => (ends_expect _ "NSL").bind (fun _ _ =>
      (ends_expectString _).bind (fun _ _ => (ends_expect _ ";").bind (fun _ _ => ?_))))
    exact (ends_expect _ "skill").bind (fun _ _ => (ends_qualifiedName (by omega)).bind (fun _ _ =>
      (ends_expect _ "\x7b").bind (fun _ _ => ends_done (by simp))))
  refine hhead.bind (fun head _ => ?_)
  have hsections : Ends room (fun _ => 0) (skillSections (head.1 = "0.2") fuel) := by
    refine (ends_many (by omega) (fun room' _ => ends_nextSection (by omega))).bind (fun _ _ => ?_)
    exact (ends_expect _ "\x7d").bind (fun _ _ => (ends_expect _ "<eof>").bind (fun _ _ => ends_done (by simp)))
  refine hsections.bind (fun sections _ => ?_)
  dsimp only
  split
  · exact ends_fail (by simp)
  · exact ends_done (by simp)

theorem ends_nextFragmentItem {room fuel : Nat} (h : room < fuel) :
    Ends room (fun o => if o.isSome then 1 else 0) (nextFragmentItem fuel) := by
  refine (ends_current room).bind (fun t _ => ?_)
  split
  · exact ends_done rfl
  split
  · exact (ends_includePath _).bind (fun _ _ => ends_done (by simp))
  split
  · exact (ends_requires (by omega)).bind (fun _ _ => ends_done (by simp))
  split
  · exact (ends_fields "context" true (by omega)).bind (fun _ _ => ends_done (by simp))
  split
  · exact (ends_limits (by omega)).bind (fun _ _ => ends_done (by simp))
  · exact ends_fail (by simp)

theorem ends_parseIncludeFragment {room fuel : Nat} (h : room < fuel) :
    Ends room (fun _ => 0) (parseIncludeFragment fuel) := by
  refine (ends_many h (fun room' _ => ends_nextFragmentItem (by omega))).bind (fun _ _ => ?_)
  exact (ends_expect _ "<eof>").bind (fun _ _ => ends_done (by simp))

/-- **No parse runs out of fuel.** -/
theorem parseRoot_noDepth (tokens : List Token) : parseRoot tokens ≠ .error .depth :=
  (@ends_parseSkill tokens.length _ (le_refl (4 * tokens.length + 4)) (start tokens) le_rfl).1

theorem parseFragment_noDepth (tokens : List Token) : parseFragment tokens ≠ .error .depth :=
  (ends_parseIncludeFragment (show tokens.length < 4 * tokens.length + 4 by omega) (start tokens) le_rfl).1

end Parser
end Nsl
