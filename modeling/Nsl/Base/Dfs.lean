import Mathlib.Data.List.Nodup
import Mathlib.Logic.Relation
/-!
# Dfs — depth-first tours of a graph

A graph gives each node the list of its successors. A tour takes a list of nodes one after the other and goes through the
successors of each one it has not seen. It ends at once at a node it is still inside of, so a tour that goes through
(`Tour`) is one of an acyclic part of the graph. `active` holds the nodes the tour is inside of, the innermost first.
-/
namespace Dfs

variable {ν : Type}

/-- The nodes of a tour as they are entered and as they are left, and the walks that led to each node it looked at. -/
structure Record (ν : Type) where
  entered : List ν := []
  left    : List ν := []
  walks   : List (List ν) := []

/-- **A tour of at most `k` levels that meets no node it is inside of.** -/
inductive Tour (next : ν → List ν) : Nat → List ν → List ν → List ν → Record ν → Prop
  | done (k : Nat) (active seen : List ν) : Tour next k active seen [] {}
  | skip {k : Nat} {active seen ns : List ν} {n : ν} {r : Record ν} (ha : n ∉ active) (hs : n ∈ seen)
      (rest : Tour next (k + 1) active seen ns r) :
      Tour next (k + 1) active seen (n :: ns) { r with walks := (n :: active) :: r.walks }
  | visit {k : Nat} {active seen ns : List ν} {n : ν} {r₁ r₂ : Record ν} (ha : n ∉ active) (hs : n ∉ seen)
      (inside : Tour next k (n :: active) (seen ++ [n]) (next n) r₁)
      (rest : Tour next (k + 1) active (seen ++ n :: r₁.entered) ns r₂) :
      Tour next (k + 1) active seen (n :: ns)
        ⟨n :: (r₁.entered ++ r₂.entered), r₁.left ++ n :: r₂.left, (n :: active) :: (r₁.walks ++ r₂.walks)⟩

/-- The nodes a depth-first search enters, in order. -/
inductive Preorder (next : ν → List ν) : List ν → List ν → List ν → Prop
  | done (seen : List ν) : Preorder next seen [] []
  | skip {seen ns out : List ν} {n : ν} (hs : n ∈ seen) (rest : Preorder next seen ns out) : Preorder next seen (n :: ns) out
  | visit {seen ns out₁ out₂ : List ν} {n : ν} (hs : n ∉ seen) (inside : Preorder next (seen ++ [n]) (next n) out₁)
      (rest : Preorder next (seen ++ n :: out₁) ns out₂) : Preorder next seen (n :: ns) (n :: (out₁ ++ out₂))

/-- One step of the graph. -/
def Edge (next : ν → List ν) (x y : ν) : Prop := y ∈ next x

def Reachable (next : ν → List ν) : ν → ν → Prop := Relation.ReflTransGen (Edge next)

/-- Each node of the list comes after its successors. -/
def Sorted (next : ν → List ν) (l : List ν) : Prop := ∀ a x b, l = a ++ x :: b → ∀ y ∈ next x, y ∈ a

variable {next : ν → List ν} {k : Nat} {active seen todo : List ν} {r : Record ν}

theorem sorted_snoc {l : List ν} {x : ν} (h : Sorted next l) (hx : ∀ y ∈ next x, y ∈ l) : Sorted next (l ++ [x]) := by
  intro a z b heq y hy
  rcases List.eq_nil_or_concat b with rfl | ⟨b', w, rfl⟩
  · obtain ⟨rfl, hxz⟩ := List.append_inj' heq rfl
    cases hxz
    exact hx y hy
  · rw [List.concat_eq_append, ← List.cons_append, ← List.append_assoc] at heq
    obtain ⟨rfl, -⟩ := List.append_inj' heq rfl
    exact h a z b' rfl y hy

namespace Tour

theorem preorder (h : Tour next k active seen todo r) : Preorder next seen todo r.entered := by
  induction h with
  | done k active seen                  => exact .done seen
  | skip ha hs rest ih                  => exact .skip hs ih
  | visit ha hs inside rest ihIn ihRest => exact .visit hs ihIn ihRest

/-- A tour never looks at a node it is inside of. -/
theorem notActive (h : Tour next k active seen todo r) : ∀ n ∈ todo, n ∉ active := by
  induction h with
  | done k active seen                  => exact fun n hn => (List.not_mem_nil hn).elim
  | skip ha hs rest ih                  => exact List.forall_mem_cons.2 ⟨ha, ih⟩
  | visit ha hs inside rest ihIn ihRest => exact List.forall_mem_cons.2 ⟨ha, ihRest⟩

/-- Each node it looks at was seen or is entered. -/
theorem mem_of_todo (h : Tour next k active seen todo r) : ∀ n ∈ todo, n ∈ seen ++ r.entered := by
  induction h with
  | done k active seen => exact fun n hn => (List.not_mem_nil hn).elim
  | skip ha hs rest ih => exact List.forall_mem_cons.2 ⟨List.mem_append_left _ hs, ih⟩
  | visit ha hs inside rest ihIn ihRest =>
    refine List.forall_mem_cons.2 ⟨List.mem_append_right _ (List.mem_cons_self ..), fun m hm => ?_⟩
    have := ihRest m hm
    simpa [List.append_assoc] using this

/-- The successors of an entered node were seen or are entered. -/
theorem closed (h : Tour next k active seen todo r) : ∀ x ∈ r.entered, ∀ y ∈ next x, y ∈ seen ++ r.entered := by
  induction h with
  | done k active seen => exact fun x hx => (List.not_mem_nil hx).elim
  | skip ha hs rest ih => exact ih
  | @visit k active seen ns n r₁ r₂ ha hs inside rest ihIn ihRest =>
    intro x hx y hy
    have hmem : y ∈ (seen ++ [n]) ++ r₁.entered ∨ y ∈ (seen ++ n :: r₁.entered) ++ r₂.entered := by
      rcases List.mem_cons.1 hx with rfl | hx
      · exact .inl (inside.mem_of_todo y hy)
      · rcases List.mem_append.1 hx with hx | hx
        · exact .inl (ihIn x hx y hy)
        · exact .inr (ihRest x hx y hy)
    simp only [List.mem_append, List.mem_cons, List.not_mem_nil, or_false] at hmem ⊢
    tauto

/-- A node is entered once. -/
theorem fresh (h : Tour next k active seen todo r) : r.entered.Nodup ∧ ∀ x ∈ r.entered, x ∉ seen := by
  induction h with
  | done k active seen => exact ⟨List.nodup_nil, fun x hx => (List.not_mem_nil hx).elim⟩
  | skip ha hs rest ih => exact ih
  | @visit k active seen ns n r₁ r₂ ha hs inside rest ihIn ihRest =>
    simp only [List.mem_append, List.mem_cons, not_or] at ihIn ihRest
    refine ⟨List.nodup_cons.2 ⟨?_, List.nodup_append.2 ⟨ihIn.1, ihRest.1, ?_⟩⟩, ?_⟩
    · rw [List.mem_append, not_or]
      exact ⟨fun hn => (ihIn.2 n hn).2.1 rfl, fun hn => (ihRest.2 n hn).2.1 rfl⟩
    · intro x hx y hy hxy
      exact (ihRest.2 y hy).2.2 (hxy ▸ hx)
    · refine List.forall_mem_cons.2 ⟨hs, fun x hx => ?_⟩
      rcases List.mem_append.1 hx with hx | hx
      · exact (ihIn.2 x hx).1
      · exact (ihRest.2 x hx).1

/-- What is entered is reached. -/
theorem reached (h : Tour next k active seen todo r) : ∀ x ∈ r.entered, ∃ n ∈ todo, Reachable next n x := by
  induction h with
  | done k active seen => exact fun x hx => (List.not_mem_nil hx).elim
  | skip ha hs rest ih =>
    intro x hx
    obtain ⟨n, hn, hreach⟩ := ih x hx
    exact ⟨n, List.mem_cons_of_mem _ hn, hreach⟩
  | @visit k active seen ns n r₁ r₂ ha hs inside rest ihIn ihRest =>
    intro x hx
    rcases List.mem_cons.1 hx with rfl | hx
    · exact ⟨x, List.mem_cons_self .., Relation.ReflTransGen.refl⟩
    · rcases List.mem_append.1 hx with hx | hx
      · obtain ⟨m, hm, hreach⟩ := ihIn x hx
        exact ⟨n, List.mem_cons_self .., Relation.ReflTransGen.head hm hreach⟩
      · obtain ⟨m, hm, hreach⟩ := ihRest x hx
        exact ⟨m, List.mem_cons_of_mem _ hm, hreach⟩

/-- **What a tour has left is sorted**: it leaves each node after the successors of the node. -/
theorem left_sorted (h : Tour next k active seen todo r) : ∀ (finished : List ν), Sorted next finished →
    (∀ x ∈ seen, x ∉ active → x ∈ finished) →
    Sorted next (finished ++ r.left) ∧ ∀ x ∈ seen ++ r.entered, x ∉ active → x ∈ finished ++ r.left := by
  induction h with
  | done k active seen =>
    intro finished hsorted hseen
    simpa using ⟨hsorted, hseen⟩
  | skip ha hs rest ih => exact ih
  | @visit k active seen ns n r₁ r₂ ha hs inside rest ihIn ihRest =>
    intro finished hsorted hseen
    have hinside : ∀ x ∈ seen ++ [n], x ∉ n :: active → x ∈ finished := by
      intro x hx hactive
      rw [List.mem_cons, not_or] at hactive
      rcases List.mem_append.1 hx with hx | hx
      · exact hseen x hx hactive.2
      · exact absurd (List.mem_singleton.1 hx) hactive.1
    obtain ⟨hsorted₁, hdone₁⟩ := ihIn finished hsorted hinside
    have hnext : ∀ y ∈ next n, y ∈ finished ++ r₁.left := fun y hy =>
      hdone₁ y (inside.mem_of_todo y hy) (inside.notActive y hy)
    have hrest : ∀ x ∈ seen ++ n :: r₁.entered, x ∉ active → x ∈ finished ++ r₁.left ++ [n] := by
      intro x hx hactive
      by_cases hxn : x = n
      · exact List.mem_append_right _ (List.mem_singleton.2 hxn)
      · refine List.mem_append_left _ (hdone₁ x ?_ (by simp [hxn, hactive]))
        simpa [List.append_assoc] using hx
    obtain ⟨hsorted₂, hdone₂⟩ := ihRest _ (sorted_snoc hsorted₁ hnext) hrest
    simp only [List.append_assoc, List.cons_append, List.nil_append] at hsorted₂ hdone₂ ⊢
    exact ⟨hsorted₂, hdone₂⟩

/-- The walks that led to the nodes it looked at: along the graph, and of at most `k` levels. -/
theorem walks_ok (h : Tour next k active seen todo r) {x : ν} {above : List ν} (hactive : active = x :: above)
    (hchain : List.IsChain (fun y z => Edge next z y) active) (htodo : ∀ n ∈ todo, n ∈ next x) :
    ∀ w ∈ r.walks, active <:+ w ∧ w.length ≤ active.length + k ∧ List.IsChain (fun y z => Edge next z y) w := by
  induction h generalizing x above with
  | done k active seen => exact fun w hw => (List.not_mem_nil hw).elim
  | @skip k active seen ns n r ha hs rest ih =>
    have hn : List.IsChain (fun y z => Edge next z y) (n :: active) := by
      rw [hactive] at hchain ⊢
      exact List.isChain_cons_cons.2 ⟨htodo n (List.mem_cons_self ..), hchain⟩
    refine List.forall_mem_cons.2 ⟨⟨List.suffix_cons .., by rw [List.length_cons]; omega, hn⟩, ?_⟩
    exact ih hactive hchain (fun m hm => htodo m (List.mem_cons_of_mem _ hm))
  | @visit k active seen ns n r₁ r₂ ha hs inside rest ihIn ihRest =>
    have hn : List.IsChain (fun y z => Edge next z y) (n :: active) := by
      rw [hactive] at hchain ⊢
      exact List.isChain_cons_cons.2 ⟨htodo n (List.mem_cons_self ..), hchain⟩
    refine List.forall_mem_cons.2 ⟨⟨List.suffix_cons .., by rw [List.length_cons]; omega, hn⟩, fun w hw => ?_⟩
    rcases List.mem_append.1 hw with hw | hw
    · obtain ⟨hsuffix, hlen, hw'⟩ := ihIn rfl hn (fun m hm => hm) w hw
      refine ⟨(List.suffix_cons n active).trans hsuffix, ?_, hw'⟩
      rw [List.length_cons] at hlen
      omega
    · exact ihRest hactive hchain (fun m hm => htodo m (List.mem_cons_of_mem _ hm)) w hw

/-- Every step out of an entered node is the last one of a walk. -/
theorem walks_complete (h : Tour next k active seen todo r) :
    (∀ n ∈ todo, n :: active ∈ r.walks) ∧ ∀ x ∈ r.entered, ∀ y ∈ next x, ∃ above, y :: x :: above ∈ r.walks := by
  induction h with
  | done k active seen => exact ⟨fun n hn => (List.not_mem_nil hn).elim, fun x hx => (List.not_mem_nil hx).elim⟩
  | skip ha hs rest ih =>
    refine ⟨List.forall_mem_cons.2 ⟨List.mem_cons_self .., fun m hm => List.mem_cons_of_mem _ (ih.1 m hm)⟩, fun x hx y hy => ?_⟩
    obtain ⟨above, hw⟩ := ih.2 x hx y hy
    exact ⟨above, List.mem_cons_of_mem _ hw⟩
  | @visit k active seen ns n r₁ r₂ ha hs inside rest ihIn ihRest =>
    refine ⟨List.forall_mem_cons.2 ⟨List.mem_cons_self .., fun m hm => ?_⟩, fun x hx y hy => ?_⟩
    · exact List.mem_cons_of_mem _ (List.mem_append_right _ (ihRest.1 m hm))
    · rcases List.mem_cons.1 hx with rfl | hx
      · exact ⟨active, List.mem_cons_of_mem _ (List.mem_append_left _ (ihIn.1 y hy))⟩
      · rcases List.mem_append.1 hx with hx | hx
        · obtain ⟨above, hw⟩ := ihIn.2 x hx y hy
          exact ⟨above, List.mem_cons_of_mem _ (List.mem_append_left _ hw)⟩
        · obtain ⟨above, hw⟩ := ihRest.2 x hx y hy
          exact ⟨above, List.mem_cons_of_mem _ (List.mem_append_right _ hw)⟩

end Tour

/-! ## From a root -/

variable {root : ν}

/-- **A tour of the successors of a root enters exactly what the root reaches.** -/
theorem Tour.mem_iff (h : Tour next k [root] [root] (next root) r) (x : ν) :
    x ∈ r.entered ↔ x ≠ root ∧ Reachable next root x := by
  constructor
  · intro hx
    obtain ⟨n, hn, hreach⟩ := h.reached x hx
    exact ⟨fun heq => h.fresh.2 x hx (List.mem_singleton.2 heq), Relation.ReflTransGen.head hn hreach⟩
  · rintro ⟨hne, hreach⟩
    have hmem : x ∈ [root] ++ r.entered := by
      clear hne
      induction hreach with
      | refl                => exact List.mem_cons_self ..
      | @tail y z _ hyz ih  =>
        rcases List.mem_append.1 ih with hroot | hy
        · rw [List.mem_singleton.1 hroot] at hyz
          exact h.mem_of_todo z hyz
        · exact h.closed y hy z hyz
    rcases List.mem_append.1 hmem with hroot | hx
    · exact absurd (List.mem_singleton.1 hroot) hne
    · exact hx

/-- What a node of a sorted list leads to comes before it. -/
theorem Sorted.mem_of_transGen {l a b : List ν} {x y : ν} (h : Sorted next l) (hl : l = a ++ x :: b)
    (hy : Relation.TransGen (Edge next) x y) : y ∈ a := by
  induction hy with
  | single hxy        => exact h a x b hl _ hxy
  | tail _ hyz ih =>
    obtain ⟨a', b', rfl⟩ := List.append_of_mem ih
    have hz := h a' _ (b' ++ x :: b) (by rw [hl, List.append_assoc, List.cons_append]) _ hyz
    exact List.mem_append_left _ hz

/-- **No node of a sorted list leads back to itself.** -/
theorem Sorted.acyclic {l : List ν} {x : ν} (h : Sorted next l) (hx : x ∈ l) :
    ¬ Relation.TransGen (Edge next) x x := by
  obtain ⟨a, b, hl, hxa⟩ := List.eq_append_cons_of_mem hx
  exact fun hcycle => hxa (h.mem_of_transGen hl hcycle)

/-- **A graph that a tour went through has no cycle** in reach of the root. -/
theorem Tour.acyclic (h : Tour next k [root] [root] (next root) r) {x : ν} (hx : Reachable next root x) :
    ¬ Relation.TransGen (Edge next) x x := by
  have hnil : Sorted next ([] : List ν) := fun a y b heq => by simp at heq
  obtain ⟨hsorted, hdone⟩ := h.left_sorted [] hnil (fun y hy hactive => absurd hy hactive)
  have hroot : ∀ y ∈ next root, y ∈ [] ++ r.left := fun y hy => hdone y (h.mem_of_todo y hy) (h.notActive y hy)
  refine (sorted_snoc hsorted hroot).acyclic ?_
  by_cases hne : x = root
  · exact List.mem_append_right _ (List.mem_singleton.2 hne)
  · have hentered : x ∈ r.entered := (h.mem_iff x).2 ⟨hne, hx⟩
    exact List.mem_append_left _ (hdone x (List.mem_append_right _ hentered) (by simpa using hne))

/-- The walks of a tour are the ways from the root that it took. -/
theorem Tour.walks_from_root (h : Tour next k [root] [root] (next root) r) : ∀ w ∈ r.walks,
    w.getLast? = some root ∧ w.length ≤ k + 1 ∧ List.IsChain (fun y z => Edge next z y) w := by
  intro w hw
  obtain ⟨⟨pre, rfl⟩, hlen, hchain⟩ := h.walks_ok rfl (.singleton root) (fun n hn => hn) w hw
  refine ⟨by simp, ?_, hchain⟩
  rw [List.length_singleton] at hlen
  omega

end Dfs
