import Mathlib.Data.List.Induction
/-!
# HashChain — entries that name the one before

Each entry of a chain links to the name of the entry before it, the first to none. Where a name stands for what it names,
links included, the name of the last entry stands for the whole chain. A name may stand for two things: then the entries
that show it **clash**.
-/
namespace HashChain

variable {α β κ : Type} (link : α → Option κ) (name : α → κ)

/-- Each entry links to the one before. -/
def Linked : Option κ → List α → Prop
  | _, []             => True
  | before, a :: rest => link a = before ∧ Linked (some (name a)) rest

/-- The name a further entry links to. -/
def lastName (before : Option κ) (entries : List α) : Option κ := entries.foldl (fun _ a => some (name a)) before

theorem linked_append : ∀ {before : Option κ} {entries more : List α},
    Linked link name before (entries ++ more) ↔
      Linked link name before entries ∧ Linked link name (lastName name before entries) more
  | _, [], _          => ⟨fun h => ⟨trivial, h⟩, fun h => h.2⟩
  | before, a :: rest, more => by
    have ih := @linked_append (some (name a)) rest more
    show _ ∧ Linked link name (some (name a)) (rest ++ more) ↔ (_ ∧ _) ∧ _
    rw [ih, and_assoc]
    rfl

theorem lastName_concat (before : Option κ) (entries : List α) (a : α) :
    lastName name before (entries ++ [a]) = some (name a) := by
  unfold lastName
  rw [List.foldl_append]
  rfl

variable {link name} {content : α → β} {clash : α → α → Prop}

/-- **The last name stands for the chain**: two chains that end in one name hold the same contents in the same order, or an
entry of the one clashes with an entry of the other. By induction from the last entry backwards. -/
theorem contents_of_lastName {xs ys : List α}
    (hname : ∀ a ∈ xs, ∀ b ∈ ys, name a = name b → (link a = link b ∧ content a = content b) ∨ clash a b)
    (hx : Linked link name none xs) (hy : Linked link name none ys) (h : lastName name none xs = lastName name none ys) :
    xs.map content = ys.map content ∨ ∃ a ∈ xs, ∃ b ∈ ys, clash a b := by
  induction xs using List.reverseRecOn generalizing ys with
  | nil =>
    cases ys using List.reverseRecOn with
    | nil => exact .inl rfl
    | append_singleton ys b =>
      rw [lastName_concat] at h
      cases h
  | append_singleton xs a ih =>
    cases ys using List.reverseRecOn with
    | nil =>
      rw [lastName_concat] at h
      cases h
    | append_singleton ys b =>
      rw [lastName_concat, lastName_concat] at h
      obtain ⟨hxs, ha, -⟩ := (linked_append link name).1 hx
      obtain ⟨hys, hb, -⟩ := (linked_append link name).1 hy
      have hold : ∀ c ∈ xs, ∀ d ∈ ys, name c = name d → (link c = link d ∧ content c = content d) ∨ clash c d :=
        fun c hc d hd => hname c (List.mem_append_left _ hc) d (List.mem_append_left _ hd)
      rcases hname a (List.mem_append_right _ List.mem_cons_self) b (List.mem_append_right _ List.mem_cons_self)
        (Option.some.inj h) with ⟨hlink, heq⟩ | hclash
      · have hbefore : lastName name none xs = lastName name none ys := ha.symm.trans (hlink.trans hb)
        rcases ih hold hxs hys hbefore with hmap | ⟨c, hc, d, hd, hclash⟩
        · refine .inl ?_
          rw [List.map_append, List.map_append, hmap, List.map_singleton, List.map_singleton, heq]
        · exact .inr ⟨c, List.mem_append_left _ hc, d, List.mem_append_left _ hd, hclash⟩
      · exact .inr ⟨a, List.mem_append_right _ List.mem_cons_self, b, List.mem_append_right _ List.mem_cons_self, hclash⟩

end HashChain
