import Nsl.Base.Text
/-!
# Regex — backtracking matching in the order Python tries it

`ways r p` lists every place a match of `r` from `p` can end, the one a backtracking matcher prefers first, so that the
head of the list is the match it reports. `sub` replaces the matches of a pattern from left to right.
-/

inductive Regex
  | eps
  | char (p : Char → Bool)
  | seq (r s : Regex)
  | alt (r s : Regex)
  | star (greedy : Bool) (r : Regex)
  | group (n : Nat) (r : Regex)
  /-- `(?<!p)` -/
  | notBehind (p : Char → Bool)
  /-- `(?!p)` -/
  | notAhead (p : Char → Bool)
  /-- `\b` -/
  | boundary (word : Char → Bool)

namespace Regex

/-- A place in a text: the characters before it, nearest first, those after it, and the groups matched so far. -/
structure Pos where
  before : List Char
  rest   : List Char
  groups : List (Nat × List Char)

def Pos.start (cs : List Char) : Pos := ⟨[], cs, []⟩

def Pos.left (p : Pos) : Nat := p.rest.length

/-- The text of a group, empty when it took no part in the match. -/
def Pos.group (p : Pos) (n : Nat) : List Char := (p.groups.lookup n).getD []

/-- Every number of passes of `step`, each of which must consume something. -/
def passes (step : Pos → List Pos) (greedy : Bool) : Nat → Pos → List Pos
  | 0, p     => [p]
  | n + 1, p =>
    let more := ((step p).filter (fun q => q.left < p.left)).flatMap (passes step greedy n)
    if greedy then more ++ [p] else p :: more

def ways : Regex → Pos → List Pos
  | .eps, p         => [p]
  | .char f, p      =>
    match p.rest with
    | []      => []
    | c :: cs => if f c then [{ p with before := c :: p.before, rest := cs }] else []
  | .seq r s, p     => (ways r p).flatMap (ways s)
  | .alt r s, p     => ways r p ++ ways s p
  | .star g r, p    => passes (ways r) g p.left p
  | .group n r, p   => (ways r p).map (fun q => { q with groups := (n, p.rest.take (p.left - q.left)) :: q.groups })
  | .notBehind f, p => if p.before.head?.any f then [] else [p]
  | .notAhead f, p  => if p.rest.head?.any f then [] else [p]
  | .boundary w, p  => if p.before.head?.any w = p.rest.head?.any w then [] else [p]

/-- The match a search reports at `p`, if it consumes something. -/
def matchAt (r : Regex) (p : Pos) : Option Pos := (ways r p).head?.filter (fun q => q.left < p.left)

def subFrom (r : Regex) (repl : Pos → List Char) : Nat → Pos → List Char
  | 0, p     => p.rest
  | n + 1, p =>
    match matchAt r p with
    | some q => repl q ++ subFrom r repl n { q with groups := [] }
    | none   =>
      match p.rest with
      | []      => []
      | c :: cs => c :: subFrom r repl n { p with before := c :: p.before, rest := cs }

/-- `pattern.sub(repl, text)` for a pattern that matches no empty text. -/
def sub (r : Regex) (repl : Pos → List Char) (cs : List Char) : List Char :=
  subFrom r repl cs.length (Pos.start cs)

/-! ## Texts without a match -/

theorem passes_suffix {step : Pos → List Pos} (h : ∀ p, ∀ q ∈ step p, q.rest <:+ p.rest) (greedy : Bool) :
    ∀ (n : Nat) (p : Pos), ∀ q ∈ passes step greedy n p, q.rest <:+ p.rest
  | 0, p, q, hq     => by
    cases List.mem_singleton.1 hq
    exact List.suffix_rfl
  | n + 1, p, q, hq => by
    have hcases : q ∈ ((step p).filter (fun q => q.left < p.left)).flatMap (passes step greedy n) ∨ q = p := by
      unfold passes at hq
      split at hq
      · simpa using hq
      · rcases List.mem_cons.1 hq with hq | hq
        · exact .inr hq
        · exact .inl hq
    rcases hcases with hq | hq
    · obtain ⟨q', hq', hqq'⟩ := List.mem_flatMap.1 hq
      exact (passes_suffix h greedy n q' q hqq').trans (h p q' (List.mem_filter.1 hq').1)
    · cases hq
      exact List.suffix_rfl

/-- What a match leaves is the end of what there was. -/
theorem ways_suffix : ∀ (r : Regex) (p : Pos), ∀ q ∈ ways r p, q.rest <:+ p.rest
  | .eps, p, q, hq         => by
    cases List.mem_singleton.1 hq
    exact List.suffix_rfl
  | .char f, p, q, hq      => by
    unfold ways at hq
    split at hq
    · cases hq
    · rename_i c cs hrest
      split at hq
      · rw [List.mem_singleton.1 hq, hrest]
        exact List.suffix_cons c cs
      · cases hq
  | .seq r s, p, q, hq     => by
    obtain ⟨q', hq', hqq'⟩ := List.mem_flatMap.1 hq
    exact (ways_suffix s q' q hqq').trans (ways_suffix r p q' hq')
  | .alt r s, p, q, hq     => by
    rcases List.mem_append.1 hq with hq | hq
    · exact ways_suffix r p q hq
    · exact ways_suffix s p q hq
  | .star g r, p, q, hq    => passes_suffix (ways_suffix r) g p.left p q hq
  | .group n r, p, q, hq   => by
    obtain ⟨q', hq', rfl⟩ := List.mem_map.1 hq
    exact ways_suffix r p q' hq'
  | .notBehind f, p, q, hq => by
    unfold ways at hq
    split at hq
    · cases hq
    · cases List.mem_singleton.1 hq
      exact List.suffix_rfl
  | .notAhead f, p, q, hq  => by
    unfold ways at hq
    split at hq
    · cases hq
    · cases List.mem_singleton.1 hq
      exact List.suffix_rfl
  | .boundary w, p, q, hq  => by
    unfold ways at hq
    split at hq
    · cases hq
    · cases List.mem_singleton.1 hq
      exact List.suffix_rfl

/-- A match of `r` must consume a character outside `alphabet`. -/
def needsOther (alphabet : List Char) : Regex → Bool
  | .char f    => alphabet.all (fun c => !f c)
  | .seq r s   => needsOther alphabet r || needsOther alphabet s
  | .alt r s   => needsOther alphabet r && needsOther alphabet s
  | .group _ r => needsOther alphabet r
  | _          => false

variable {alphabet : List Char}

/-- **Such a pattern matches nowhere in a text over the alphabet.** -/
theorem ways_eq_nil : ∀ (r : Regex), needsOther alphabet r = true → ∀ (p : Pos), (∀ c ∈ p.rest, c ∈ alphabet) →
    ways r p = []
  | .char f, h, p, hp    => by
    unfold ways
    split
    · rfl
    · rename_i c cs hrest
      have hc : c ∈ alphabet := hp c (by rw [hrest]; exact List.mem_cons_self ..)
      have hf : f c = false := by simpa using List.all_eq_true.1 h c hc
      rw [if_neg (by rw [hf]; exact Bool.false_ne_true)]
  | .seq r s, h, p, hp   => by
    rcases Bool.or_eq_true_iff.1 h with hr | hs
    · unfold ways
      rw [ways_eq_nil r hr p hp]
      rfl
    · refine List.flatMap_eq_nil_iff.2 (fun q hq => ways_eq_nil s hs q (fun c hc => hp c ?_))
      exact (ways_suffix r p q hq).subset hc
  | .alt r s, h, p, hp   => by
    obtain ⟨hr, hs⟩ := Bool.and_eq_true_iff.1 h
    unfold ways
    rw [ways_eq_nil r hr p hp, ways_eq_nil s hs p hp]
    rfl
  | .group n r, h, p, hp => by
    unfold ways
    rw [ways_eq_nil r h p hp]
    rfl

theorem subFrom_eq_rest {r : Regex} (repl : Pos → List Char) (h : needsOther alphabet r = true) : ∀ (n : Nat) (p : Pos),
    (∀ c ∈ p.rest, c ∈ alphabet) → subFrom r repl n p = p.rest
  | 0, _, _      => rfl
  | n + 1, p, hp => by
    have hnone : matchAt r p = none := by
      unfold matchAt
      rw [ways_eq_nil r h p hp]
      rfl
    unfold subFrom
    rw [hnone]
    dsimp only
    split
    · rename_i hrest
      exact hrest.symm
    · rename_i c cs hrest
      rw [hrest] at hp
      rw [subFrom_eq_rest repl h n _ (fun d hd => hp d (List.mem_cons_of_mem _ hd)), hrest]

/-- **Nothing is replaced in such a text.** -/
theorem sub_eq_self {r : Regex} (repl : Pos → List Char) {cs : List Char} (h : needsOther alphabet r = true)
    (hcs : ∀ c ∈ cs, c ∈ alphabet) : sub r repl cs = cs := subFrom_eq_rest repl h _ _ hcs

/-! ## Pieces of patterns -/

def plus (r : Regex) : Regex := .seq r (.star true r)

def opt (r : Regex) : Regex := .alt r .eps

def seqs (rs : List Regex) : Regex := rs.foldr .seq .eps

def alts : List Regex → Regex
  | []      => .char (fun _ => false)
  | [r]     => r
  | r :: rs => .alt r (alts rs)

def text (s : String) : Regex := seqs (s.toList.map (fun c => .char (· = c)))

end Regex
