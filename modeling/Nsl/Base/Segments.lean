import Nsl.Base.Text
import Mathlib.Data.List.Infix
/-!
# Segments — walking the segments of a POSIX path

A walk starts in a directory, given by its segments from the top, and takes one segment after the other: an empty one and
`.` stay, `..` goes up, any other goes down. It may not go above a **floor**, a number of segments at the top.
-/
namespace Segments

/-- A segment that names something. -/
def Plain (s : String) : Prop := s ≠ "" ∧ s ≠ "." ∧ s ≠ ".."

instance (s : String) : Decidable (Plain s) := inferInstanceAs (Decidable (_ ∧ _ ∧ _))

/-- One segment; none where it goes above the floor. -/
def step (floor : Nat) (dirs : List String) (part : String) : Option (List String) :=
  if part = "" ∨ part = "." then some dirs
  else if part = ".." then (if dirs.length ≤ floor then none else some dirs.dropLast)
  else some (dirs ++ [part])

def walk (floor : Nat) : List String → List String → Option (List String)
  | dirs, []            => some dirs
  | dirs, part :: parts => (step floor dirs part).bind (fun dirs' => walk floor dirs' parts)

variable {floor : Nat} {dirs dirs' : List String}

theorem walk_append (floor : Nat) : ∀ (dirs ps qs : List String),
    walk floor dirs (ps ++ qs) = (walk floor dirs ps).bind (fun dirs' => walk floor dirs' qs)
  | _, [], _         => rfl
  | dirs, p :: ps, qs => by
    simp only [List.cons_append, walk]
    cases step floor dirs p with
    | none       => rfl
    | some dirs' => exact walk_append floor dirs' ps qs

/-- What one segment can do. -/
theorem step_cases {part : String} (h : step floor dirs part = some dirs') :
    dirs' = dirs ∨ (part = ".." ∧ floor < dirs.length ∧ dirs' = dirs.dropLast) ∨ (Plain part ∧ dirs' = dirs ++ [part]) := by
  unfold step at h
  split at h
  · cases h
    exact .inl rfl
  · rename_i hstay
    rw [not_or] at hstay
    split at h
    · rename_i hup
      split at h
      · cases h
      · rename_i hfloor
        cases h
        exact .inr (.inl ⟨hup, not_le.1 hfloor, rfl⟩)
    · rename_i hup
      cases h
      exact .inr (.inr ⟨⟨hstay.1, hstay.2, hup⟩, rfl⟩)

theorem step_plain {part : String} (h : Plain part) : step floor dirs part = some (dirs ++ [part]) := by
  unfold step
  rw [if_neg (not_or.2 ⟨h.1, h.2.1⟩), if_neg h.2.2]

/-- **A walk stays below the floor**: what is at the top stays there. -/
theorem step_keeps {top : List String} {part : String} (hf : top.length ≤ floor) (ht : top <+: dirs)
    (h : step floor dirs part = some dirs') : top <+: dirs' := by
  obtain rfl | ⟨-, hlen, rfl⟩ | ⟨-, rfl⟩ := step_cases h
  · exact ht
  · rw [List.dropLast_eq_take]
    exact List.prefix_take_iff.2 ⟨ht, by omega⟩
  · exact ht.trans (List.prefix_append _ _)

theorem walk_prefix {top : List String} (hf : top.length ≤ floor) : ∀ {parts dirs dirs' : List String}, top <+: dirs →
    walk floor dirs parts = some dirs' → top <+: dirs'
  | [], _, _, ht, h           => by cases h; exact ht
  | part :: parts, dirs, _, ht, h => by
    obtain ⟨mid, hstep, hrest⟩ := Option.bind_eq_some_iff.1 h
    exact walk_prefix hf (step_keeps hf ht hstep) hrest

/-- Only names are walked into. -/
theorem walk_plain : ∀ {parts dirs dirs' : List String}, (∀ s ∈ dirs, Plain s) → walk floor dirs parts = some dirs' →
    ∀ s ∈ dirs', Plain s
  | [], _, _, hdirs, h           => by cases h; exact hdirs
  | part :: parts, dirs, _, hdirs, h => by
    obtain ⟨mid, hstep, hrest⟩ := Option.bind_eq_some_iff.1 h
    refine walk_plain (fun s hs => ?_) hrest
    obtain rfl | ⟨-, -, rfl⟩ | ⟨hpart, rfl⟩ := step_cases hstep
    · exact hdirs s hs
    · exact hdirs s (List.mem_of_mem_dropLast hs)
    · rcases List.mem_append.1 hs with hs | hs
      · exact hdirs s hs
      · rw [List.mem_singleton.1 hs]
        exact hpart

/-- What is walked into comes from the start or from the path. -/
theorem walk_mem : ∀ {parts dirs dirs' : List String}, walk floor dirs parts = some dirs' →
    ∀ s ∈ dirs', s ∈ dirs ∨ s ∈ parts
  | [], _, _, h, s, hs           => by cases h; exact .inl hs
  | part :: parts, dirs, _, h, s, hs => by
    obtain ⟨mid, hstep, hrest⟩ := Option.bind_eq_some_iff.1 h
    rcases walk_mem hrest s hs with hs | hs
    · obtain rfl | ⟨-, -, rfl⟩ | ⟨-, rfl⟩ := step_cases hstep
      · exact .inl hs
      · exact .inl (List.mem_of_mem_dropLast hs)
      · rcases List.mem_append.1 hs with hs | hs
        · exact .inl hs
        · exact .inr (List.mem_singleton.1 hs ▸ List.mem_cons_self ..)
    · exact .inr (List.mem_cons_of_mem _ hs)

theorem step_floor {lower : Nat} (hl : lower ≤ floor) {part : String} (h : step floor dirs part = some dirs') :
    step lower dirs part = some dirs' := by
  unfold step at h ⊢
  split at h
  · rename_i hstay
    rw [if_pos hstay, h]
  · rename_i hstay
    rw [if_neg hstay]
    split at h
    · rename_i hup
      split at h
      · cases h
      · rename_i hfloor
        rw [if_pos hup, if_neg (by omega), h]
    · rename_i hup
      rw [if_neg hup, h]

/-- A walk that the floor allows is the walk without it. -/
theorem walk_floor {lower : Nat} (hl : lower ≤ floor) : ∀ {parts dirs dirs' : List String},
    walk floor dirs parts = some dirs' → walk lower dirs parts = some dirs'
  | [], _, _, h               => h
  | part :: parts, dirs, _, h => by
    obtain ⟨mid, hstep, hrest⟩ := Option.bind_eq_some_iff.1 h
    simp only [walk, step_floor hl hstep]
    exact walk_floor hl hrest

/-- Each part of a walk that goes through goes through. -/
theorem walk_of_prefix {ps parts : List String} (hp : ps <+: parts) (h : walk floor dirs parts = some dirs') :
    ∃ mid, walk floor dirs ps = some mid := by
  obtain ⟨qs, rfl⟩ := hp
  rw [walk_append] at h
  obtain ⟨mid, hmid, -⟩ := Option.bind_eq_some_iff.1 h
  exact ⟨mid, hmid⟩

/-- A walk that ends with a name ends in it. -/
theorem walk_last {ps : List String} {p : String} (hp : Plain p) (h : walk floor dirs (ps ++ [p]) = some dirs') :
    ∃ mid, walk floor dirs ps = some mid ∧ dirs' = mid ++ [p] := by
  rw [walk_append] at h
  obtain ⟨mid, hmid, hlast⟩ := Option.bind_eq_some_iff.1 h
  simp only [walk, step_plain hp, Option.bind_some, Option.some.injEq] at hlast
  exact ⟨mid, hmid, hlast.symm⟩

/-- Without a name to go up from, the walk down a list of names is the list. -/
theorem walk_names : ∀ {parts : List String} (dirs : List String), (∀ s ∈ parts, Plain s) →
    walk floor dirs parts = some (dirs ++ parts)
  | [], dirs, _               => by rw [List.append_nil]; rfl
  | part :: parts, dirs, h => by
    simp only [walk, step_plain (h part (List.mem_cons_self ..)), Option.bind_some]
    rw [walk_names (dirs ++ [part]) (fun s hs => h s (List.mem_cons_of_mem _ hs)), List.append_assoc]
    rfl

/-! ## Written with a separator -/

/-- **What is joined is split again**, where no part holds the separator. -/
theorem split_join {sep : Char} {parts : List String} (hsep : ∀ s ∈ parts, sep ∉ s.toList) (hne : parts ≠ []) :
    Text.split sep (Text.join (String.singleton sep) parts) = parts := by
  have hjoin : (Text.join (String.singleton sep) parts).toList = [sep].intercalate (parts.map String.toList) := by
    unfold Text.join
    rw [String.toList_intercalate, String.toList_singleton]
  have hparts : ∀ l ∈ parts.map String.toList, sep ∉ l := by
    intro l hl
    obtain ⟨s, hs, rfl⟩ := List.mem_map.1 hl
    exact hsep s hs
  unfold Text.split
  rw [hjoin, List.splitOn_intercalate sep hparts (by simpa using hne), List.map_map]
  simp [Function.comp_def, String.ofList_toList]

/-- No part of a split text holds the separator. -/
theorem notMem_of_mem_splitOn {sep : Char} : ∀ {cs part : List Char}, part ∈ cs.splitOn sep → sep ∉ part
  | [], part, h      => by
    rw [List.splitOn_nil, List.mem_singleton] at h
    rw [h]
    exact List.not_mem_nil
  | c :: cs, part, h => by
    rw [List.splitOn_cons_eq_if_modifyHead] at h
    split at h
    · rcases List.mem_cons.1 h with rfl | h
      · exact List.not_mem_nil
      · exact notMem_of_mem_splitOn h
    · rename_i hc
      cases hparts : cs.splitOn sep with
      | nil             => exact absurd hparts (List.splitOn_ne_nil sep cs)
      | cons head parts =>
        rw [hparts, List.modifyHead_cons] at h
        rcases List.mem_cons.1 h with rfl | h
        · have hmem : head ∈ cs.splitOn sep := by
            rw [hparts]
            exact List.mem_cons_self ..
          have hhead : sep ∉ head := notMem_of_mem_splitOn hmem
          rw [List.mem_cons, not_or]
          exact ⟨fun heq => hc (by simp [heq]), hhead⟩
        · have hmem : part ∈ cs.splitOn sep := by
            rw [hparts]
            exact List.mem_cons_of_mem _ h
          exact notMem_of_mem_splitOn hmem

/-- The last part of a split text ends as the text does. -/
theorem splitOn_last {sep : Char} {ending : List Char} (h : sep ∉ ending) : ∀ (cs : List Char),
    ∃ parts last, (cs ++ ending).splitOn sep = parts ++ [last ++ ending]
  | []      => ⟨[], [], by rw [List.nil_append, List.splitOn_eq_singleton h]; rfl⟩
  | c :: cs => by
    obtain ⟨parts, last, hparts⟩ := splitOn_last h cs
    rw [List.cons_append, List.splitOn_cons_eq_if_modifyHead, hparts]
    split
    · exact ⟨[] :: parts, last, rfl⟩
    · cases parts with
      | nil             => exact ⟨[], c :: last, rfl⟩
      | cons head parts => exact ⟨(c :: head) :: parts, last, rfl⟩

end Segments
