import Mathlib.Data.List.Sort
import Mathlib.Data.String.Basic
import Nsl.Base.Dict
/-!
# Json — JSON documents and their canonical text

A document, its canonical text (keys in code-point order, no white space, only the escapes JSON demands) and the order
its keys have there. Object keys are kept in document order; `Same` forgets it.
-/

inductive Json
  | null
  | bool (b : Bool)
  | int (i : Int)
  /-- a number with a fraction or an exponent, by the text it is printed as -/
  | float (text : String)
  | str (s : String)
  | arr (items : List Json)
  | obj (fields : List (String × Json))

namespace Json

/-! ## Equality -/

mutual
def beq : Json → Json → Bool
  | .null,    .null    => true
  | .bool b,  .bool c  => b = c
  | .int i,   .int j   => i = j
  | .float s, .float t => s = t
  | .str s,   .str t   => s = t
  | .arr xs,  .arr ys  => beqItems xs ys
  | .obj xs,  .obj ys  => beqFields xs ys
  | _,        _        => false
def beqItems : List Json → List Json → Bool
  | [],      []      => true
  | x :: xs, y :: ys => beq x y && beqItems xs ys
  | _,       _       => false
def beqFields : List (String × Json) → List (String × Json) → Bool
  | [],           []           => true
  | (k, x) :: xs, (l, y) :: ys => k = l && beq x y && beqFields xs ys
  | _,            _            => false
end

mutual
theorem beq_iff : ∀ (v w : Json), beq v w = true ↔ v = w
  | .null, w    => by cases w <;> simp [beq]
  | .bool _, w  => by cases w <;> simp [beq]
  | .int _, w   => by cases w <;> simp [beq]
  | .float _, w => by cases w <;> simp [beq]
  | .str _, w   => by cases w <;> simp [beq]
  | .arr xs, w  => by cases w <;> simp [beq, beqItems_iff xs]
  | .obj xs, w  => by cases w <;> simp [beq, beqFields_iff xs]
theorem beqItems_iff : ∀ (xs ys : List Json), beqItems xs ys = true ↔ xs = ys
  | [], ys      => by cases ys <;> simp [beqItems]
  | x :: xs, ys => by cases ys <;> simp [beqItems, beq_iff x, beqItems_iff xs]
theorem beqFields_iff : ∀ (xs ys : List (String × Json)), beqFields xs ys = true ↔ xs = ys
  | [], ys           => by cases ys <;> simp [beqFields]
  | (k, x) :: xs, ys => by
    rcases ys with _ | ⟨⟨l, y⟩, ys⟩
    · simp [beqFields]
    · simp [beqFields, beq_iff x, beqFields_iff xs, and_assoc]
end

instance : DecidableEq Json := fun v w => decidable_of_iff _ (beq_iff v w)

/-! ## Reading a document -/

/-- The value of a key of an object; none for anything else. -/
def get? : Json → String → Option Json
  | .obj fields, k => fields.lookup k
  | _,           _ => none

def keys : Json → List String
  | .obj fields => fields.map Prod.fst
  | _           => []

/-! ## Key order -/

/-- One entry before another. -/
def KeyLe {α : Type} (a b : String × α) : Prop := a.1 ≤ b.1

instance {α : Type} : DecidableRel (KeyLe (α := α)) := fun a b => inferInstanceAs (Decidable (a.1 ≤ b.1))

/-- Entries in code-point order of their keys. -/
def sortKeys {α : Type} (fields : List (String × α)) : List (String × α) := fields.insertionSort KeyLe

mutual
/-- The document with the keys of every object in order. -/
def sorted : Json → Json
  | .arr xs  => .arr (sortedItems xs)
  | .obj xs  => .obj (sortKeys (sortedFields xs))
  | .null    => .null
  | .bool b  => .bool b
  | .int i   => .int i
  | .float t => .float t
  | .str s   => .str s
def sortedItems : List Json → List Json
  | []      => []
  | x :: xs => sorted x :: sortedItems xs
def sortedFields : List (String × Json) → List (String × Json)
  | []           => []
  | (k, x) :: xs => (k, sorted x) :: sortedFields xs
end

/-- **Equal up to the order of keys**, as Python compares dictionaries. -/
def Same (a b : Json) : Prop := sorted a = sorted b

/-! ## Writing -/

def hexDigit (n : Nat) : Char := (Nat.digitChar n)

/-- The text of one character inside a string. -/
def escapeChar (c : Char) : List Char :=
  if c = '"' then ['\\', '"']
  else if c = '\\' then ['\\', '\\']
  else if c = '\n' then ['\\', 'n']
  else if c = '\r' then ['\\', 'r']
  else if c = '\t' then ['\\', 't']
  else if c.toNat = 8 then ['\\', 'b']
  else if c.toNat = 12 then ['\\', 'f']
  else if c.toNat < 32 then ['\\', 'u', '0', '0', hexDigit (c.toNat / 16), hexDigit (c.toNat % 16)]
  else [c]

def renderStr (s : String) : List Char := '"' :: s.toList.flatMap escapeChar ++ ['"']

def renderInt : Int → List Char
  | .ofNat n   => Nat.toDigits 10 n
  | .negSucc n => '-' :: Nat.toDigits 10 (n + 1)

mutual
/-- The text of a document, keys as they stand. -/
def render : Json → List Char
  | .null    => "null".toList
  | .bool b  => (if b then "true" else "false").toList
  | .int i   => renderInt i
  | .float t => t.toList
  | .str s   => renderStr s
  | .arr xs  => '[' :: renderItems xs ++ [']']
  | .obj xs  => '{' :: renderFields xs ++ ['}']
def renderItems : List Json → List Char
  | []           => []
  | [x]          => render x
  | x :: y :: ys => render x ++ ',' :: renderItems (y :: ys)
def renderFields : List (String × Json) → List Char
  | []                => []
  | [(k, x)]          => renderStr k ++ ':' :: render x
  | (k, x) :: y :: ys => renderStr k ++ ':' :: render x ++ ',' :: renderFields (y :: ys)
end

/-- `json.dumps(v, ensure_ascii=False, sort_keys=True, separators=(",", ":"))` -/
def dumps (j : Json) : String := String.ofList (render (sorted j))

end Json
