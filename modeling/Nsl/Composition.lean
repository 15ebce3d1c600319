import Nsl.Base.Keyed
import Nsl.Includes
import Nsl.Lowering
/-!
# Composition — one skill from a bundle of sources

`SourceComposer.compose` (`includes.py`). Root and fragments are merged through dictionaries by tool and by context name.
A fragment meets a check of each of its declarations; the declarations of the root are put into the dictionaries as they
are, and the last one of a name stays.
-/
namespace Nsl

open Stateful

/-! ## The composer -/

/-- What `compose` merges into. -/
structure Merged where
  requires : Dict AstRequiredTool
  contexts : Dict AstFieldSpec
  limits   : Option AstLimits

namespace SourceComposer

def mergeRequirement (source : String) (requires : Dict AstRequiredTool) (requirement : AstRequiredTool) :
    Except BuildError (Dict AstRequiredTool) :=
  match requires.get? requirement.toolId with
  | none          => .ok (requires.set requirement.toolId requirement)
  | some existing =>
    if existing.version ≠ requirement.version then
      .error (.included INC_TOOL_VERSION_CONFLICT ("conflicting include tool versions: " ++ requirement.toolId) source)
    else .ok requires

def mergeContext (source : String) (contexts : Dict AstFieldSpec) (context : AstFieldSpec) :
    Except BuildError (Dict AstFieldSpec) :=
  if contexts.contains context.name then
    .error (.included INC_DUPLICATE_CONTEXT ("duplicate include context is forbidden: " ++ context.name) source)
  else .ok (contexts.set context.name context)

def mergeLimits (source : String) (limits : Option AstLimits) (declared : List AstLimits) :
    Except BuildError (Option AstLimits) :=
  match declared with
  | []             => .ok limits
  | first :: later =>
    if limits.isSome ∨ later ≠ [] then
      .error (.included INC_DUPLICATE_LIMIT "duplicate include limit fields are forbidden" source)
    else .ok (some first)

def mergeFragment (m : Merged) (unit : SourceFile × AstIncludeFragment) : Except BuildError Merged := do
  let requires ← unit.2.requires.foldlM (mergeRequirement unit.1.logicalPath) m.requires
  let contexts ← unit.2.contexts.foldlM (mergeContext unit.1.logicalPath) m.contexts
  let limits ← mergeLimits unit.1.logicalPath m.limits unit.2.limits
  return ⟨requires, contexts, limits⟩

/-- `compose` -/
def compose (bundle : SourceBundle) : Except BuildError AstSkill := do
  let root := bundle.root.2
  let m ← bundle.fragments.foldlM mergeFragment
    ⟨Dict.byKey (·.toolId) root.requires, Dict.byKey (·.name) root.contexts, root.limits⟩
  match m.limits with
  | none        =>
    .error (.included INC_REQUIRED_LIMITS_MISSING "composed skill must define exactly one limits block"
      bundle.root.1.logicalPath)
  | some limits =>
    return { root with includes := [], requires := m.requires.values, contexts := m.contexts.values, limits := some limits }

end SourceComposer

/-! ## What a merge keeps -/

/-- What `m` becomes keeps what it has and has what is declared. -/
structure Merged.Takes (m m' : Merged) (requires : List AstRequiredTool) (contexts : List AstFieldSpec)
    (limits : List AstLimits) : Prop where
  requires : m.requires.Gains (·.toolId) m'.requires requires
  contexts : m.contexts.Gains (·.name) m'.contexts contexts
  keeps    : ∀ l, m.limits = some l → m'.limits = some l
  limits   : ∀ l ∈ limits, m'.limits = some l

namespace SourceComposer

theorem mergeRequirement_gains {source : String} {d d' : Dict AstRequiredTool} {a : AstRequiredTool}
    (hd : d.Keyed (·.toolId)) (h : mergeRequirement source d a = .ok d') : d.Gains (·.toolId) d' [a] := by
  unfold mergeRequirement at h
  split at h
  · rename_i hnone
    cases h
    exact Dict.Gains.set hd hnone
  · rename_i existing hsome
    split at h
    · cases h
    · rename_i hversion
      cases h
      have hid : existing.toolId = a.toolId := hd.key_of_get? hsome
      have heq : existing = a := by
        cases existing
        cases a
        simp_all
      exact Dict.Gains.present hd (heq ▸ hsome)

theorem mergeContext_gains {source : String} {d d' : Dict AstFieldSpec} {a : AstFieldSpec} (hd : d.Keyed (·.name))
    (h : mergeContext source d a = .ok d') : d.Gains (·.name) d' [a] := by
  unfold mergeContext at h
  split at h
  · cases h
  · rename_i hfree
    cases h
    have hnone : d.get? a.name = none := by simpa [Dict.contains] using hfree
    exact Dict.Gains.set hd hnone

theorem mergeLimits_takes {source : String} {limits limits' : Option AstLimits} {declared : List AstLimits}
    (h : mergeLimits source limits declared = .ok limits') :
    (∀ l, limits = some l → limits' = some l) ∧ ∀ l ∈ declared, limits' = some l := by
  unfold mergeLimits at h
  split at h
  · cases h
    exact ⟨fun _ hl => hl, by simp⟩
  · rename_i first later
    split at h
    · cases h
    · rename_i hfree
      obtain ⟨hnone, hlater⟩ := not_or.1 hfree
      cases h
      have hlimits : limits = none := by simpa using hnone
      have hnil : later = [] := not_not.1 hlater
      subst hlimits hnil
      exact ⟨by simp, by simp⟩

theorem mergeFragment_takes {m m' : Merged} {unit : SourceFile × AstIncludeFragment} (hr : m.requires.Keyed (·.toolId))
    (hc : m.contexts.Keyed (·.name)) (h : mergeFragment m unit = .ok m') :
    m.Takes m' unit.2.requires unit.2.contexts unit.2.limits := by
  obtain ⟨requires, hrequires, h⟩ := bind_eq_ok h
  obtain ⟨contexts, hcontexts, h⟩ := bind_eq_ok h
  obtain ⟨limits, hlimits, h⟩ := bind_eq_ok h
  cases h
  obtain ⟨hkeeps, hall⟩ := mergeLimits_takes hlimits
  exact ⟨Dict.gains_foldlM mergeRequirement_gains hr hrequires, Dict.gains_foldlM mergeContext_gains hc hcontexts, hkeeps,
    hall⟩

/-- **Every declaration of every fragment is merged**, whatever their number and order. -/
theorem mergeFragments_takes : ∀ {fragments : List (SourceFile × AstIncludeFragment)} {m m' : Merged},
    m.requires.Keyed (·.toolId) → m.contexts.Keyed (·.name) → fragments.foldlM mergeFragment m = .ok m' →
    m.Takes m' (fragments.flatMap (·.2.requires)) (fragments.flatMap (·.2.contexts)) (fragments.flatMap (·.2.limits))
  | [], _, _, hr, hc, h                 => by
    cases h
    exact ⟨Dict.Gains.refl hr, Dict.Gains.refl hc, fun _ hl => hl, by simp⟩
  | unit :: fragments, m, m', hr, hc, h => by
    rw [List.foldlM_cons] at h
    obtain ⟨m₁, hfirst, h⟩ := bind_eq_ok h
    have h₁ := mergeFragment_takes hr hc hfirst
    have h₂ := mergeFragments_takes h₁.requires.keyed h₁.contexts.keyed h
    refine ⟨h₁.requires.trans h₂.requires, h₁.contexts.trans h₂.contexts, fun l hl => h₂.keeps l (h₁.keeps l hl), ?_⟩
    intro l hl
    rw [List.flatMap_cons] at hl
    rcases List.mem_append.1 hl with hl | hl
    · exact h₂.keeps l (h₁.limits l hl)
    · exact h₂.limits l hl

/-- An accepted bundle: its fragments merged into the dictionaries of its root. -/
theorem compose_ok {bundle : SourceBundle} {composed : AstSkill} (h : compose bundle = .ok composed) :
    ∃ m limits, bundle.fragments.foldlM mergeFragment ⟨Dict.byKey (·.toolId) bundle.root.2.requires,
        Dict.byKey (·.name) bundle.root.2.contexts, bundle.root.2.limits⟩ = .ok m ∧ m.limits = some limits ∧
      composed = { bundle.root.2 with includes := [], requires := m.requires.values, contexts := m.contexts.values,
                                      limits := some limits } := by
  obtain ⟨m, hm, h⟩ := bind_eq_ok h
  rcases hlimits : m.limits with _ | limits
  · rw [hlimits] at h
    cases h
  · rw [hlimits] at h
    cases h
    exact ⟨m, limits, hm, hlimits, rfl⟩

end SourceComposer

/-! ## Declared twice -/

/-- A tool or a context is declared twice in one source. -/
def AstSkill.DeclaresTwice (ast : AstSkill) : Prop :=
  ¬ ((ast.requires.map (·.toolId)).Nodup ∧ (ast.contexts.map (·.name)).Nodup)

namespace Lowerer

theorem requiredContracts_nodup {catalog : ToolContractCatalog} {profile : LanguageLoweringProfile} :
    ∀ {declared : List AstRequiredTool} {contracts contracts' : List (String × ToolContract)},
      requiredContracts catalog profile contracts declared = .ok contracts' →
      (declared.map (·.toolId)).Nodup ∧ ∀ d ∈ declared, d.toolId ∉ contracts.map Prod.fst
  | [], _, _, _                           => ⟨List.nodup_nil, by simp⟩
  | d :: declared, contracts, contracts', h => by
    unfold requiredContracts at h
    split at h
    · cases h
    · rename_i hnew
      have hd : d.toolId ∉ contracts.map Prod.fst := by simpa using hnew
      split at h
      · split at h <;> cases h
      · split at h
        · cases h
        · obtain ⟨hnodup, hfree⟩ := requiredContracts_nodup h
          have hsplit : ∀ d' ∈ declared, d'.toolId ∉ contracts.map Prod.fst ∧ d'.toolId ≠ d.toolId := by
            intro d' hd'
            simpa using hfree d' hd'
          refine ⟨?_, List.forall_mem_cons.2 ⟨hd, fun d' hd' => (hsplit d' hd').1⟩⟩
          rw [List.map_cons, List.nodup_cons]
          refine ⟨fun hmem => ?_, hnodup⟩
          obtain ⟨d', hd', hid⟩ := List.mem_map.1 hmem
          exact (hsplit d' hd').2 hid

/-- The name is bound in a scope. -/
def NameBound (s : LowerState) (name : String) : Prop := s.symbols.frames.any (·.bindings.contains name) = true

theorem addBinding_bound {name category : String} {space : SymbolNamespace} {t : TypeRef} {c : DataClassification}
    {s s' : LowerState} {w : List LowerState} {b : SymbolBinding}
    (h : addBinding name space category t c s = ⟨w, s', .ok b⟩) :
    ¬ NameBound s name ∧ NameBound s' name ∧ ∀ n, NameBound s n → NameBound s' n := by
  unfold addBinding at h
  simp only [Run.bind_eq, Run.look_andThen] at h
  obtain ⟨_, s₁, ⟨b', symbols⟩, _, hrun, hrest, -⟩ := Run.andThen_eq_ok h
  obtain ⟨hdeclare, rfl⟩ := Run.ofExcept_eq_ok hrun
  obtain ⟨_, s₂, _, _, hwrite, hdone, -⟩ := Run.andThen_eq_ok hrest
  cases hwrite
  cases hdone
  obtain ⟨hfree, -, -, hbelow, htop⟩ := SymbolTable.declare_ok hdeclare
  have hframes : symbols.frames =
      { s.symbols.top with bindings := s.symbols.top.bindings.set name b' } :: s.symbols.below := by
    unfold SymbolTable.frames
    rw [hbelow, htop]
  refine ⟨by simp [NameBound, hfree], ?_, fun n hn => ?_⟩
  · simp [NameBound, hframes, Dict.contains]
  · unfold NameBound at hn ⊢
    simp only [hframes]
    rw [SymbolTable.frames, List.any_cons, Bool.or_eq_true] at hn
    rw [List.any_cons, Bool.or_eq_true]
    refine hn.imp_left (fun hn => ?_)
    by_cases hname : n = name
    · simp [hname, Dict.contains]
    · unfold Dict.contains
      rw [Dict.get?_set_other _ _ hname]
      exact hn

theorem lowerContexts_nodup : ∀ {items : List AstFieldSpec} {s s' : LowerState} {w : List LowerState}
    {specs : List ContextSpec}, lowerContexts items s = ⟨w, s', .ok specs⟩ →
    (items.map (·.name)).Nodup ∧ ∀ i ∈ items, ¬ NameBound s i.name
  | [], _, _, _, _, _                  => ⟨List.nodup_nil, by simp⟩
  | item :: items, s, s', w, specs, h => by
    obtain ⟨_, s₁, b, _, hadd, h, -⟩ := Run.andThen_eq_ok h
    obtain ⟨_, s₂, rest, _, hrest, -, -⟩ := Run.andThen_eq_ok h
    obtain ⟨hfree, hbound, hgrows⟩ := addBinding_bound hadd
    obtain ⟨hnodup, hfrees⟩ := lowerContexts_nodup hrest
    refine ⟨?_, List.forall_mem_cons.2 ⟨hfree, fun i hi hb => hfrees i hi (hgrows _ hb)⟩⟩
    rw [List.map_cons, List.nodup_cons]
    refine ⟨fun hmem => ?_, hnodup⟩
    obtain ⟨i, hi, hname⟩ := List.mem_map.1 hmem
    exact hfrees i hi (hname ▸ hbound)

end Lowerer

/-- **The lowering rejects a tree that declares a tool or a context twice.** -/
theorem compileTree_once [Platform] {catalog : ToolContractCatalog} {ast : AstSkill} {build : BuildMetadata}
    {c : Compilation} (h : compileTree catalog ast build = .ok c) : ¬ ast.DeclaresTwice := by
  obtain ⟨approvals, p, w, s, skill, hash, -, hp, hlower, -⟩ := compileTree_ok h
  obtain ⟨-, contracts, hcontracts, -⟩ := Lowerer.prepare_ok hp
  obtain ⟨_, s₁, inputs, _, -, hlower, -⟩ := Run.andThen_eq_ok hlower
  obtain ⟨_, s₂, contexts, _, hcontexts, -, -⟩ := Run.andThen_eq_ok hlower
  exact not_not.2 ⟨(Lowerer.requiredContracts_nodup hcontracts).1, (Lowerer.lowerContexts_nodup hcontexts).1⟩

/-! ## What a composition must keep -/

namespace SourceBundle

variable (bundle : SourceBundle)

/-- What root and fragments declare. -/
def requires : List AstRequiredTool := bundle.root.2.requires ++ bundle.fragments.flatMap (·.2.requires)

def contexts : List AstFieldSpec := bundle.root.2.contexts ++ bundle.fragments.flatMap (·.2.contexts)

def limits : List AstLimits := bundle.root.2.limits.toList ++ bundle.fragments.flatMap (·.2.limits)

/-- Nothing declared is lost, nothing is declared with two contents, and what the lowering rejects of the root it still
rejects. -/
structure KeptBy (composed : AstSkill) : Prop where
  requires      : ∀ r ∈ bundle.requires, r ∈ composed.requires
  contexts      : ∀ c ∈ bundle.contexts, c ∈ composed.contexts
  limits        : ∀ l ∈ bundle.limits, composed.limits = some l
  oneVersion    : ∀ r ∈ bundle.requires, ∀ r' ∈ bundle.requires, r.toolId = r'.toolId → r = r'
  oneContext    : ∀ c ∈ bundle.contexts, ∀ c' ∈ bundle.contexts, c.name = c'.name → c = c'
  stillRejected : bundle.root.2.DeclaresTwice → composed.DeclaresTwice

end SourceBundle

namespace SourceComposer

/-- A composed tree declares nothing twice. -/
theorem compose_once {bundle : SourceBundle} {composed : AstSkill} (h : compose bundle = .ok composed) :
    ¬ composed.DeclaresTwice := by
  obtain ⟨m, limits, hm, -, rfl⟩ := compose_ok h
  have htakes := mergeFragments_takes (Dict.byKey_keyed _) (Dict.byKey_keyed _) hm
  exact not_not.2 ⟨htakes.requires.keyed.nodup, htakes.contexts.keyed.nodup⟩

/-- **A composition keeps every declaration exactly when the root declares no tool and no context twice.** -/
theorem compose_keeps_iff {bundle : SourceBundle} {composed : AstSkill} (h : compose bundle = .ok composed) :
    bundle.KeptBy composed ↔
      (bundle.root.2.requires.map (·.toolId)).Nodup ∧ (bundle.root.2.contexts.map (·.name)).Nodup := by
  constructor
  · intro hkept
    by_contra htwice
    exact compose_once h (hkept.stillRejected htwice)
  · intro hroot
    obtain ⟨m, limits, hm, hlimits, rfl⟩ := compose_ok h
    have htakes := mergeFragments_takes (Dict.byKey_keyed _) (Dict.byKey_keyed _) hm
    have hrequires : ∀ r ∈ bundle.requires, m.requires.Has (·.toolId) r := by
      intro r hr
      rcases List.mem_append.1 hr with hr | hr
      · exact htakes.requires.keeps r (Dict.byKey_has hroot.1 r hr)
      · exact htakes.requires.all r hr
    have hcontexts : ∀ c ∈ bundle.contexts, m.contexts.Has (·.name) c := by
      intro c hc
      rcases List.mem_append.1 hc with hc | hc
      · exact htakes.contexts.keeps c (Dict.byKey_has hroot.2 c hc)
      · exact htakes.contexts.all c hc
    refine ⟨fun r hr => (hrequires r hr).mem, fun c hc => (hcontexts c hc).mem, fun l hl => ?_,
      fun r hr r' hr' hid => (hrequires r hr).unique (hrequires r' hr') hid,
      fun c hc c' hc' hname => (hcontexts c hc).unique (hcontexts c' hc') hname, fun htwice => (htwice hroot).elim⟩
    show some limits = some l
    rw [← hlimits]
    rcases List.mem_append.1 hl with hl | hl
    · exact htakes.keeps l (by simpa using hl)
    · exact htakes.limits l hl

/-- A root that requires one tool in two versions, with the limits a run may spend. -/
def twoVersions : AstSkill where
  languageVersion := "0.2"
  skillId         := "orders.report"
  skillVersion    := "1.0.0"
  risk            := "READ_ONLY"
  includes        := ["shared.nsl"]
  requires        := [⟨"orders.read", "1.0.0"⟩, ⟨"orders.read", "2.0.0"⟩]
  limits          := some ⟨1, 1, 1, 1, 1⟩
  inputs          := []
  contexts        := []
  outputs         := []
  body            := []

/-- The bundle of that root with one fragment, which declares nothing. -/
def twoVersionsBundle (requires : List AstRequiredTool) : SourceBundle where
  root      := (⟨"root", "root.nsl", ""⟩, { twoVersions with requires })
  fragments := [(⟨"shared", "shared.nsl", ""⟩, ⟨[], [], [], []⟩)]
  edges     := [⟨"root", "shared"⟩]
  manifest  := []

theorem compose_keeps_one : (twoVersionsBundle [⟨"orders.read", "1.0.0"⟩]).KeptBy
    { twoVersions with includes := [], requires := [⟨"orders.read", "1.0.0"⟩] } :=
  (compose_keeps_iff rfl).2 ⟨by decide, by decide⟩

/-- **The first of two versions is lost**: only the last of them is in the composed tree, which is accepted. -/
theorem compose_loses_version :
    compose (twoVersionsBundle twoVersions.requires) =
        .ok { twoVersions with includes := [], requires := [⟨"orders.read", "2.0.0"⟩] } ∧
      ¬ (twoVersionsBundle twoVersions.requires).KeptBy
        { twoVersions with includes := [], requires := [⟨"orders.read", "2.0.0"⟩] } := by
  refine ⟨rfl, fun hkept => ?_⟩
  have hfirst := hkept.requires ⟨"orders.read", "1.0.0"⟩ (by decide)
  exact absurd hfirst (by decide)

end SourceComposer
end Nsl
