import Mathlib.Data.List.Induction
import Nsl.Parser
/-!
# Parser sections — what of a skill's declarations is in its tree

`_parse_skill` takes the sections of a skill in any order and any number of times. Includes and statements are collected;
each other section takes the place of the one of its kind before it. So the tree has everything that was written exactly
when the last section of each kind **covers** the ones before.
-/
namespace Nsl

open Stateful (Run)

namespace Parser

/-! ## Kinds of sections -/

inductive SectionKind | version | risk | requires | limits | input | context | output
  deriving DecidableEq, Repr

/-- The kind of a section that takes the place of another; none for those that are collected. -/
def Section.kind? : Section → Option SectionKind
  | .version _                => some .version
  | .risk _                   => some .risk
  | .requires _               => some .requires
  | .limits _                 => some .limits
  | .input _                  => some .input
  | .context _                => some .context
  | .output _                 => some .output
  | .included _ | .statement _ => none

end Parser

/-- The limit of that name. -/
def AstLimits.get? (l : AstLimits) (name : String) : Option Nat :=
  [("tool_calls", l.toolCalls), ("loop_iterations", l.loopIterations), ("emitted_rows", l.emittedRows),
   ("collection_size", l.collectionSize), ("duration", l.durationMs)].lookup name

namespace Parser

/-- The tree has everything the section declares. -/
def Section.occursIn (skill : AstSkill) : Section → Prop
  | .version text   => skill.skillVersion = text
  | .risk name      => skill.risk = name
  | .included path  => path ∈ skill.includes
  | .requires tools => ∀ t ∈ tools, t ∈ skill.requires
  | .limits values  => ∃ l, skill.limits = some l ∧ ∀ v ∈ values, l.get? v.1 = some v.2
  | .input fields   => ∀ f ∈ fields, f ∈ skill.inputs
  | .context fields => ∀ f ∈ fields, f ∈ skill.contexts
  | .output fields  => ∀ f ∈ fields, f ∈ skill.outputs
  | .statement s    => s ∈ skill.body

/-- Everything the first section declares the second one, of its kind, declares too. -/
def Section.coveredBy : Section → Section → Prop
  | .version text,   .version text'   => text' = text
  | .risk name,      .risk name'      => name' = name
  | .requires tools, .requires tools' => ∀ t ∈ tools, t ∈ tools'
  | .limits values,  .limits values'  => ∀ v ∈ values, (limitsOf values').get? v.1 = some v.2
  | .input fields,   .input fields'   => ∀ f ∈ fields, f ∈ fields'
  | .context fields, .context fields' => ∀ f ∈ fields, f ∈ fields'
  | .output fields,  .output fields'  => ∀ f ∈ fields, f ∈ fields'
  | _,               _                => False

/-- The last section of a kind. -/
def lastOf (kind : SectionKind) (sections : List Section) : Option Section :=
  sections.reverse.find? (fun s => s.kind? = some kind)

/-- **The last section of each kind covers every one of its kind.** -/
def LastCovers (sections : List Section) : Prop :=
  ∀ s ∈ sections, ∀ kind, s.kind? = some kind → ∀ last, lastOf kind sections = some last → s.coveredBy last

/-! ## What an assignment does -/

/-- A section that is collected is there, and stays. -/
theorem occursIn_assign_collected {s t : Section} {skill : AstSkill} (h : s.kind? = none) :
    s.occursIn (skill.assign t) ↔ s.occursIn skill ∨ s = t := by
  cases s with
  | included path =>
    cases t with
    | included path' => simp [Section.occursIn, AstSkill.assign]
    | _             => simp [Section.occursIn, AstSkill.assign]
  | statement st =>
    cases t with
    | statement st' => simp [Section.occursIn, AstSkill.assign]
    | _             => simp [Section.occursIn, AstSkill.assign]
  | _ => cases h

/-- A section of another kind changes nothing for this one. -/
theorem occursIn_assign_other {s t : Section} {skill : AstSkill} {kind : SectionKind} (h : s.kind? = some kind)
    (ht : t.kind? ≠ some kind) : s.occursIn (skill.assign t) ↔ s.occursIn skill := by
  cases s <;> cases t <;> simp only [Section.kind?, reduceCtorEq, Option.some.injEq] at h ht
  all_goals first
    | rfl
    | exact absurd (congrArg some h) ht

/-- A section of the same kind takes its place. -/
theorem occursIn_assign_same {s t : Section} {skill : AstSkill} {kind : SectionKind} (h : s.kind? = some kind)
    (ht : t.kind? = some kind) : s.occursIn (skill.assign t) ↔ s.coveredBy t := by
  cases s <;> cases t <;> simp only [Section.kind?, reduceCtorEq, Option.some.injEq] at h ht
  all_goals first
    | rfl
    | exact absurd (h.trans ht.symm) (by decide)
    | exact ⟨fun ⟨l, hl, hall⟩ => by cases hl; exact hall, fun hall => ⟨_, rfl, hall⟩⟩

/-! ## The theorem -/

theorem lastOf_append (kind : SectionKind) (sections : List Section) (t : Section) :
    lastOf kind (sections ++ [t]) = if t.kind? = some kind then some t else lastOf kind sections := by
  unfold lastOf
  rw [List.reverse_append, List.reverse_singleton, List.singleton_append, List.find?_cons]
  by_cases h : t.kind? = some kind
  · simp [h]
  · simp [h]

/-- After the sections, one of a kind that was among them occurs exactly when the last of its kind covers it. -/
theorem occursIn_foldl {s : Section} {kind : SectionKind} (h : s.kind? = some kind) (skill : AstSkill) :
    ∀ (sections : List Section) (last : Section), lastOf kind sections = some last →
      (s.occursIn (sections.foldl AstSkill.assign skill) ↔ s.coveredBy last) := by
  intro sections
  induction sections using List.reverseRecOn with
  | nil => exact fun last hlast => (by cases hlast)
  | append_singleton sections t ih =>
    intro last hlast
    rw [lastOf_append] at hlast
    rw [List.foldl_append, List.foldl_cons, List.foldl_nil]
    by_cases ht : t.kind? = some kind
    · rw [if_pos ht] at hlast
      cases hlast
      exact occursIn_assign_same h ht
    · rw [if_neg ht] at hlast
      rw [occursIn_assign_other h ht]
      exact ih last hlast

/-- One that is collected occurs. -/
theorem occursIn_collected {s : Section} (h : s.kind? = none) (skill : AstSkill) :
    ∀ (sections : List Section), s ∈ sections → s.occursIn (sections.foldl AstSkill.assign skill) := by
  intro sections
  induction sections using List.reverseRecOn with
  | nil => exact fun hs => (List.not_mem_nil hs).elim
  | append_singleton sections t ih =>
    intro hs
    rw [List.foldl_append, List.foldl_cons, List.foldl_nil, occursIn_assign_collected h]
    rcases List.mem_append.1 hs with hs | hs
    · exact .inl (ih hs)
    · exact .inr (List.mem_singleton.1 hs)

theorem lastOf_isSome {s : Section} {kind : SectionKind} {sections : List Section} (hs : s ∈ sections)
    (h : s.kind? = some kind) : ∃ last, lastOf kind sections = some last := by
  unfold lastOf
  cases hfind : sections.reverse.find? (fun s => s.kind? = some kind) with
  | some last => exact ⟨last, rfl⟩
  | none      =>
    have hno := List.find?_eq_none.1 hfind s (List.mem_reverse.2 hs)
    simp [h] at hno

/-- All sections occur exactly when the last ones cover them. -/
theorem allOccur_iff (skill : AstSkill) (sections : List Section) :
    (∀ s ∈ sections, s.occursIn (sections.foldl AstSkill.assign skill)) ↔ LastCovers sections := by
  constructor
  · intro hall s hs kind hkind last hlast
    exact (occursIn_foldl hkind skill sections last hlast).1 (hall s hs)
  · intro hcovers s hs
    cases hkind : s.kind? with
    | none      => exact occursIn_collected hkind skill sections hs
    | some kind =>
      obtain ⟨last, hlast⟩ := lastOf_isSome hs hkind
      exact (occursIn_foldl hkind skill sections last hlast).2 (hcovers s hs kind hkind last hlast)

/-- The sections written between the braces of a skill. -/
def writtenSections (tokens : List Token) : Except ParseError (List Section) :=
  (Run.andThen (skillHead (fuelFor tokens))
    (fun head => skillSections (head.1 = "0.2") (fuelFor tokens)) (start tokens)).outcome

/-- An accepted skill is what its sections assign. -/
theorem parseRoot_sections {tokens : List Token} {skill : AstSkill} (h : parseRoot tokens = .ok skill) :
    ∃ opened sections, writtenSections tokens = .ok sections ∧ skill = sections.foldl AstSkill.assign opened := by
  unfold parseRoot at h
  rcases hrun : parseSkill (fuelFor tokens) (start tokens) with ⟨w, c, o⟩
  rw [hrun] at h
  cases h
  unfold parseSkill at hrun
  obtain ⟨_, c₁, ⟨languageVersion, skillId⟩, _, hhead, hrest, -⟩ := Run.andThen_eq_ok hrun
  obtain ⟨_, c₂, sections, _, hsections, hdone, -⟩ := Run.andThen_eq_ok hrest
  refine ⟨AstSkill.opened languageVersion skillId, sections, ?_, ?_⟩
  · unfold writtenSections
    rw [Run.andThen_ok hhead, hsections]
  · dsimp only at hdone
    split at hdone
    · cases hdone
    · cases hdone
      rfl

/-- `input \x7b name: Int; \x7d` -/
def inputTokens (name : Identifier) : List Token :=
  [.keyword .input, .mark .lbrace, .identifier name, .mark .colon, .identifier ⟨"Int", by decide⟩, .mark .semicolon,
   .mark .rbrace]

/-- A skill around sections. -/
def skillTokens (sections : List Token) : List Token :=
  [.keyword .language, .identifier ⟨"NSL", by decide⟩, .string "0.1", .mark .semicolon, .keyword .skill,
   .identifier ⟨"demo", by decide⟩, .mark .lbrace, .keyword .version, .string "1.0.0", .mark .semicolon, .keyword .risk,
   .identifier ⟨"R1", by decide⟩, .mark .semicolon, .keyword .include, .string "limits.nslinc", .mark .semicolon] ++
  sections ++ [.mark .rbrace, .eof]

def twoInputs : List Token := skillTokens (inputTokens ⟨"a", by decide⟩ ++ inputTokens ⟨"b", by decide⟩)

def twoInputsSections : List Section :=
  [.version "1.0.0", .risk "R1", .included "limits.nslinc", .input [⟨"a", INT, .internal, []⟩],
   .input [⟨"b", INT, .internal, []⟩]]

end Parser
end Nsl
