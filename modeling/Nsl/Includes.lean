import Nsl.Base.Dfs
import Nsl.IncludePath
import Nsl.Parser
import Nsl.Security
/-!
# Includes — the sources of a skill

`SourceBundleBuilder` of `includes.py`. The builder follows the includes of a root source depth first and stops at a
limit, at an include that is not there and at one that leads back. How a source is cut into tokens is a parameter.
-/
namespace Nsl

/-! ## Sources -/

/-- `SourceFile` -/
structure SourceFile where
  sourceId    : String
  logicalPath : String
  text        : String
  deriving DecidableEq

def SourceFile.size (s : SourceFile) : Nat := s.text.utf8ByteSize

/-- `FileNotFoundError` and `KeyError`, or another exception of the resolver. -/
inductive ResolveError
  | notFound
  | raised (e : Exn)

structure IncludeOptions where
  includeRoot         : String := "."
  maxIncludeDepth     : Nat := 16
  maxIncludeFiles     : Nat := 100
  maxTotalSourceBytes : Nat := 10 * 1024 * 1024

inductive BuildError
  /-- `include_error` and `composition_error`: the code, the message and the source it names -/
  | included (code message : String) (source : Option String)
  | parse (e : ParseError)
  | raised (e : Exn)

def INC_CYCLE : String := "NSL-E2301"
def INC_PATH_OUTSIDE_ROOT : String := "NSL-E2302"
def INC_DEPTH_LIMIT : String := "NSL-E2303"
def INC_FILE_LIMIT : String := "NSL-E2304"
def INC_BUNDLE_SIZE_LIMIT : String := "NSL-E2305"
def INC_TOOL_VERSION_CONFLICT : String := "NSL-E2306"
def INC_DUPLICATE_CONTEXT : String := "NSL-E2307"
def INC_DUPLICATE_LIMIT : String := "NSL-E2308"
def INC_RESOLUTION_FAILED : String := "NSL-E2309"
def INC_REQUIRED_LIMITS_MISSING : String := "NSL-E2310"

/-- `SourceBundleBuilder` with its lexer. The resolver is asked with the path of the including source. -/
structure SourceBundleBuilder where
  tokenizeRoot : SourceFile → Except Exn (List Token)
  tokenize     : SourceFile → String → Except Exn (List Token)
  resolver     : String → String → Except ResolveError SourceFile
  options      : IncludeOptions := {}

structure SourceManifestEntry where
  sourceId    : String
  logicalPath : String
  contentHash : String
  sizeBytes   : Nat
  isRoot      : Bool

structure IncludeEdge where
  fromSource : String
  toSource   : String
  deriving DecidableEq

structure SourceBundle where
  root      : SourceFile × AstSkill
  fragments : List (SourceFile × AstIncludeFragment)
  edges     : List IncludeEdge
  manifest  : List SourceManifestEntry

/-! ## The builder -/

/-- What `build` keeps while it goes. -/
structure BuildState where
  totalSourceBytes : Nat
  fragments        : List (SourceFile × AstIncludeFragment)
  edges            : List IncludeEdge
  visited          : List String

/-- `edges.append` -/
def BuildState.follow (st : BuildState) (including source : SourceFile) : BuildState :=
  { st with edges := st.edges ++ [⟨including.sourceId, source.sourceId⟩] }

/-- A source that is there for the first time. -/
def BuildState.enter (st : BuildState) (source : SourceFile) (fragment : AstIncludeFragment) : BuildState :=
  { st with totalSourceBytes := st.totalSourceBytes + source.size, fragments := st.fragments ++ [(source, fragment)],
            visited := st.visited ++ [source.sourceId] }

namespace SourceBundleBuilder

variable (b : SourceBundleBuilder)

def parseSource {α : Type} (tokens : Except Exn (List Token)) (parse : List Token → Except ParseError α) :
    Except BuildError α :=
  match tokens with
  | .error e => .error (.raised e)
  | .ok ts   =>
    match parse ts with
    | .error e => .error (.parse e)
    | .ok ast  => .ok ast

def parseRoot (root : SourceFile) : Except BuildError AstSkill := parseSource (b.tokenizeRoot root) Parser.parseRoot

def parseFragment (version : String) (source : SourceFile) : Except BuildError AstIncludeFragment :=
  parseSource (b.tokenize source version) Parser.parseFragment

/-- The source of one include declaration. -/
def resolveInclude (including : SourceFile) (path : String) : Except BuildError SourceFile :=
  match canonicalIncludePath including.logicalPath path b.options.includeRoot with
  | .error _     => .error (.included INC_PATH_OUTSIDE_ROOT ("unsafe include path: " ++ path) including.logicalPath)
  | .ok expected =>
    match b.resolver including.logicalPath path with
    | .error .notFound   =>
      .error (.included INC_RESOLUTION_FAILED ("include source could not be resolved: " ++ path) including.logicalPath)
    | .error (.raised e) => .error (.raised e)
    | .ok source         =>
      if source.logicalPath ≠ expected then
        .error (.included INC_PATH_OUTSIDE_ROOT "include resolver returned a source outside the expected path"
          including.logicalPath)
      else .ok source

/-- `visit` of one declaration, given the visit of what a new source includes. -/
def visitDeclaration (version : String)
    (visitChild : SourceFile → List String → List String → BuildState → Except BuildError BuildState)
    (including : SourceFile) (active : List String) (st : BuildState) (path : String) : Except BuildError BuildState := do
  let source ← b.resolveInclude including path
  if source.sourceId ∈ active then
    .error (.included INC_CYCLE ("circular include dependency detected: " ++ path) including.logicalPath)
  else if source.sourceId ∈ st.visited then .ok (st.follow including source)
  else if b.options.maxIncludeFiles ≤ st.fragments.length then
    .error (.included INC_FILE_LIMIT "maximum include file count exceeded" including.logicalPath)
  else if b.options.maxTotalSourceBytes < st.totalSourceBytes + source.size then
    .error (.included INC_BUNDLE_SIZE_LIMIT "maximum source bundle size exceeded" including.logicalPath)
  else do
    let fragment ← b.parseFragment version source
    visitChild source (source.sourceId :: active) fragment.includes ((st.follow including source).enter source fragment)

/-- `visit`, by the levels that are left. -/
def visit (version : String) : Nat → SourceFile → List String → List String → BuildState → Except BuildError BuildState
  | 0, including, _, paths, st          =>
    match paths with
    | []     => .ok st
    | _ :: _ => .error (.included INC_DEPTH_LIMIT "maximum include depth exceeded" including.logicalPath)
  | k + 1, including, active, paths, st =>
    paths.foldlM (b.visitDeclaration version (visit version k) including active) st

section Manifest

variable [Platform]

/-- `manifest_entry` -/
def manifestEntry (source : SourceFile) (isRoot : Bool) : SourceManifestEntry :=
  ⟨source.sourceId, source.logicalPath, sha256Of source.text, source.size, isRoot⟩

/-- `build` -/
def build (root : SourceFile) : Except BuildError SourceBundle :=
  if b.options.maxTotalSourceBytes < root.size then
    .error (.included INC_BUNDLE_SIZE_LIMIT "maximum source bundle size exceeded" root.logicalPath)
  else do
    let ast ← b.parseRoot root
    let st ← b.visit ast.languageVersion b.options.maxIncludeDepth root [root.sourceId] ast.includes
      ⟨root.size, [], [], [root.sourceId]⟩
    return ⟨(root, ast), st.fragments, st.edges,
      manifestEntry root true :: st.fragments.map (fun unit => manifestEntry unit.1 false)⟩

end Manifest

/-! ## What a build goes through -/

/-- The sources that the declarations of a source lead to. -/
def targets (including : SourceFile) (paths : List String) : List SourceFile :=
  paths.filterMap (fun path => (b.resolveInclude including path).toOption)

/-- The include declarations of a source. -/
def declarations (root : SourceFile) (ast : AstSkill) (source : SourceFile) : List String :=
  if source = root then ast.includes
  else ((b.parseFragment ast.languageVersion source).toOption.map (·.includes)).getD []

/-- The sources that a source includes. -/
def includedBy (root : SourceFile) (ast : AstSkill) (source : SourceFile) : List SourceFile :=
  b.targets source (b.declarations root ast source)

variable {b} {version : String}

/-- What the visit of one declaration can do. -/
theorem visitDeclaration_ok {visitChild : SourceFile → List String → List String → BuildState → Except BuildError BuildState}
    {including : SourceFile} {active : List String} {st st' : BuildState} {path : String}
    (h : b.visitDeclaration version visitChild including active st path = .ok st') :
    ∃ source, b.resolveInclude including path = .ok source ∧ source.sourceId ∉ active ∧
      ((source.sourceId ∈ st.visited ∧ st' = st.follow including source) ∨
        (source.sourceId ∉ st.visited ∧ st.fragments.length < b.options.maxIncludeFiles ∧
          st.totalSourceBytes + source.size ≤ b.options.maxTotalSourceBytes ∧
          ∃ fragment, b.parseFragment version source = .ok fragment ∧
            visitChild source (source.sourceId :: active) fragment.includes
              ((st.follow including source).enter source fragment) = .ok st')) := by
  obtain ⟨source, hsource, h₁⟩ := Stateful.bind_eq_ok h
  refine ⟨source, hsource, ?_⟩
  by_cases hactive : source.sourceId ∈ active
  · rw [if_pos hactive] at h₁
    cases h₁
  rw [if_neg hactive] at h₁
  refine ⟨hactive, ?_⟩
  by_cases hvisited : source.sourceId ∈ st.visited
  · rw [if_pos hvisited] at h₁
    cases h₁
    exact .inl ⟨hvisited, rfl⟩
  rw [if_neg hvisited] at h₁
  by_cases hfiles : b.options.maxIncludeFiles ≤ st.fragments.length
  · rw [if_pos hfiles] at h₁
    cases h₁
  rw [if_neg hfiles] at h₁
  by_cases hbytes : b.options.maxTotalSourceBytes < st.totalSourceBytes + source.size
  · rw [if_pos hbytes] at h₁
    cases h₁
  rw [if_neg hbytes] at h₁
  obtain ⟨fragment, hfragment, h₂⟩ := Stateful.bind_eq_ok h₁
  exact .inr ⟨hvisited, not_le.1 hfiles, not_lt.1 hbytes, fragment, hfragment, h₂⟩

theorem targets_cons {including source : SourceFile} {path : String} (paths : List String)
    (h : b.resolveInclude including path = .ok source) :
    b.targets including (path :: paths) = source :: b.targets including paths := by
  unfold targets
  rw [List.filterMap_cons_some (b := source) (by rw [h]; rfl)]

/-- The edge a walk ends with. -/
def lastEdge : List SourceFile → IncludeEdge
  | y :: x :: _ => ⟨x.sourceId, y.sourceId⟩
  | _           => ⟨"", ""⟩

/-- What a build has done after a tour. -/
structure After (st : BuildState) (r : Dfs.Record SourceFile) (st' : BuildState) : Prop where
  fragments : st'.fragments.map Prod.fst = st.fragments.map Prod.fst ++ r.entered
  edges     : st'.edges = st.edges ++ r.walks.map lastEdge
  visited   : st'.visited = st.visited ++ r.entered.map (·.sourceId)

theorem After.refl (st : BuildState) : After st {} st := ⟨by simp, by simp, by simp⟩

theorem After.skip {including source : SourceFile} {above : List SourceFile} {st st' : BuildState}
    {r : Dfs.Record SourceFile} (h : After (st.follow including source) r st') :
    After st { r with walks := (source :: including :: above) :: r.walks } st' :=
  ⟨h.fragments, by rw [h.edges]; simp [BuildState.follow, lastEdge], h.visited⟩

theorem After.visit {including source : SourceFile} {fragment : AstIncludeFragment} {above : List SourceFile}
    {st mid st' : BuildState} {r₁ r₂ : Dfs.Record SourceFile}
    (h₁ : After ((st.follow including source).enter source fragment) r₁ mid) (h₂ : After mid r₂ st') :
    After st ⟨source :: (r₁.entered ++ r₂.entered), r₁.left ++ source :: r₂.left,
      (source :: including :: above) :: (r₁.walks ++ r₂.walks)⟩ st' where
  fragments := by
    rw [h₂.fragments, h₁.fragments]
    simp [BuildState.follow, BuildState.enter]
  edges     := by
    rw [h₂.edges, h₁.edges]
    simp [BuildState.follow, BuildState.enter, lastEdge]
  visited   := by
    rw [h₂.visited, h₁.visited]
    simp [BuildState.follow, BuildState.enter]

/-- A set of sources that is closed under includes and where the identifiers tell the sources apart. -/
structure Identified (next : SourceFile → List SourceFile) (inReach : SourceFile → Prop) : Prop where
  closed   : ∀ s t, inReach s → t ∈ next s → inReach t
  distinct : ∀ s t, inReach s → inReach t → s.sourceId = t.sourceId → s = t

section Visit

variable {next : SourceFile → List SourceFile} {inReach : SourceFile → Prop} {root : SourceFile}

theorem Identified.reachable (h : Identified next inReach) {s t : SourceFile} (hs : inReach s)
    (ht : Dfs.Reachable next s t) : inReach t := by
  induction ht with
  | refl            => exact hs
  | tail _ hst ih => exact h.closed _ _ ih hst

theorem Identified.mem_iff (h : Identified next inReach) {s : SourceFile} {l : List SourceFile} (hs : inReach s)
    (hl : ∀ t ∈ l, inReach t) : s.sourceId ∈ l.map (·.sourceId) ↔ s ∈ l := by
  constructor
  · intro hmem
    obtain ⟨t, ht, heq⟩ := List.mem_map.1 hmem
    rw [← h.distinct t s (hl t ht) hs heq]
    exact ht
  · exact fun hmem => List.mem_map_of_mem hmem

/-- **A visit that goes through is a tour of the include graph.** -/
theorem visit_tour (hident : Identified next inReach)
    (hfragment : ∀ s fragment, s ≠ root → b.parseFragment version s = .ok fragment →
      next s = b.targets s fragment.includes) :
    ∀ (k : Nat) (paths : List String) (including : SourceFile) (above seen : List SourceFile) (st st' : BuildState),
      b.visit version k including ((including :: above).map (·.sourceId)) paths st = .ok st' →
      (∀ s ∈ including :: above, inReach s) → (∀ s ∈ seen, inReach s) → root ∈ seen →
      st.visited = seen.map (·.sourceId) → (∀ t ∈ b.targets including paths, t ∈ next including) →
      ∃ r, Dfs.Tour next k (including :: above) seen (b.targets including paths) r ∧ After st r st' := by
  intro k
  induction k with
  | zero =>
    intro paths including above seen st st' h _ _ _ _ _
    cases paths with
    | nil       =>
      cases h
      exact ⟨{}, .done 0 _ _, After.refl st⟩
    | cons p ps => cases h
  | succ k ihLevel =>
    intro paths
    induction paths with
    | nil =>
      intro including above seen st st' h _ _ _ _ _
      cases h
      exact ⟨{}, .done _ _ _, After.refl st⟩
    | cons path paths ih =>
      intro including above seen st st' h hactive hseen hroot hvisited htargets
      obtain ⟨mid, hdeclaration, hrest⟩ := Stateful.bind_eq_ok h
      obtain ⟨source, hsource, hnew, hcases⟩ := visitDeclaration_ok hdeclaration
      rw [targets_cons paths hsource] at htargets ⊢
      have hreach : inReach source :=
        hident.closed _ _ (hactive including (List.mem_cons_self ..)) (htargets source (List.mem_cons_self ..))
      have htail : ∀ t ∈ b.targets including paths, t ∈ next including := fun t ht =>
        htargets t (List.mem_cons_of_mem _ ht)
      rw [hident.mem_iff hreach hactive] at hnew
      rw [hvisited, hident.mem_iff hreach hseen] at hcases
      rcases hcases with ⟨hold, rfl⟩ | ⟨hfresh, -, -, fragment, hparse, hchild⟩
      · obtain ⟨r, htour, hafter⟩ := ih including above seen _ st' hrest hactive hseen hroot hvisited htail
        exact ⟨_, .skip hnew hold htour, hafter.skip⟩
      · have hne : source ≠ root := fun heq => hfresh (heq ▸ hroot)
        have hseen₁ : ∀ s ∈ seen ++ [source], inReach s := by
          intro s hs
          rcases List.mem_append.1 hs with hs | hs
          · exact hseen s hs
          · rw [List.mem_singleton.1 hs]
            exact hreach
        have hvisited₁ : ((st.follow including source).enter source fragment).visited =
            (seen ++ [source]).map (·.sourceId) := by
          rw [List.map_append, ← hvisited]
          rfl
        obtain ⟨r₁, htour₁, hafter₁⟩ := ihLevel fragment.includes source (including :: above) (seen ++ [source]) _ mid hchild
          (List.forall_mem_cons.2 ⟨hreach, hactive⟩) hseen₁ (List.mem_append_left _ hroot) hvisited₁
          (fun t ht => by rw [hfragment source fragment hne hparse]; exact ht)
        rw [← hfragment source fragment hne hparse] at htour₁
        have hentered : ∀ s ∈ r₁.entered, inReach s := by
          intro s hs
          obtain ⟨n, hn, hpath⟩ := htour₁.reached s hs
          exact hident.reachable (hident.closed _ _ hreach hn) hpath
        have hseen₂ : ∀ s ∈ seen ++ source :: r₁.entered, inReach s := by
          intro s hs
          rcases List.mem_append.1 hs with hs | hs
          · exact hseen s hs
          · exact (List.mem_cons.1 hs).elim (fun heq => heq ▸ hreach) (hentered s)
        have hvisited₂ : mid.visited = (seen ++ source :: r₁.entered).map (·.sourceId) := by
          rw [hafter₁.visited, hvisited₁]
          simp
        obtain ⟨r₂, htour₂, hafter₂⟩ := ih including above _ mid st' hrest hactive hseen₂
          (List.mem_append_left _ hroot) hvisited₂ htail
        exact ⟨_, .visit hnew hfresh htour₁ htour₂, hafter₁.visit hafter₂⟩

end Visit

/-! ## What a build has taken in -/

def totalSize : List SourceFile → Nat
  | []      => 0
  | s :: ss => s.size + totalSize ss

theorem totalSize_append (l l' : List SourceFile) : totalSize (l ++ l') = totalSize l + totalSize l' := by
  induction l with
  | nil          => simp [totalSize]
  | cons s l ih  =>
    simp only [List.cons_append, totalSize, ih]
    omega

/-- The includes of a source all lead to sources. -/
def Resolves (b : SourceBundleBuilder) (source : SourceFile) (paths : List String) : Prop :=
  ∀ path ∈ paths, ∃ t, b.resolveInclude source path = .ok t

/-- What is added to a build: parsed fragments whose includes resolve, and no more than the limits allow. -/
structure Adds (b : SourceBundleBuilder) (version : String) (st st' : BuildState)
    (units : List (SourceFile × AstIncludeFragment)) : Prop where
  fragments : st'.fragments = st.fragments ++ units
  visited   : st'.visited = st.visited ++ units.map (·.1.sourceId)
  size      : st'.totalSourceBytes = st.totalSourceBytes + totalSize (units.map Prod.fst)
  parsed    : ∀ u ∈ units, b.parseFragment version u.1 = .ok u.2 ∧ Resolves b u.1 u.2.includes
  files     : st.fragments.length ≤ b.options.maxIncludeFiles → st'.fragments.length ≤ b.options.maxIncludeFiles
  bytes     : st.totalSourceBytes ≤ b.options.maxTotalSourceBytes → st'.totalSourceBytes ≤ b.options.maxTotalSourceBytes

theorem Adds.refl (st : BuildState) : Adds b version st st [] :=
  ⟨by simp, by simp, rfl, fun _ hu => (List.not_mem_nil hu).elim, fun h => h, fun h => h⟩

theorem Adds.trans {st mid st' : BuildState} {us vs : List (SourceFile × AstIncludeFragment)} (h : Adds b version st mid us)
    (h' : Adds b version mid st' vs) : Adds b version st st' (us ++ vs) where
  fragments := by rw [h'.fragments, h.fragments, List.append_assoc]
  visited   := by rw [h'.visited, h.visited, List.map_append, List.append_assoc]
  size      := by rw [h'.size, h.size, List.map_append, totalSize_append, Nat.add_assoc]
  parsed u hu := (List.mem_append.1 hu).elim (h.parsed u) (h'.parsed u)
  files hst := h'.files (h.files hst)
  bytes hst := h'.bytes (h.bytes hst)

theorem visit_adds : ∀ (k : Nat) (paths : List String) (including : SourceFile) (active : List String) (st st' : BuildState),
    b.visit version k including active paths st = .ok st' →
      Resolves b including paths ∧ ∃ units, Adds b version st st' units := by
  intro k
  induction k with
  | zero =>
    intro paths including active st st' h
    cases paths with
    | nil       =>
      cases h
      exact ⟨fun p hp => (List.not_mem_nil hp).elim, [], Adds.refl st⟩
    | cons p ps => cases h
  | succ k ihLevel =>
    intro paths
    induction paths with
    | nil =>
      intro including active st st' h
      cases h
      exact ⟨fun p hp => (List.not_mem_nil hp).elim, [], Adds.refl st⟩
    | cons path paths ih =>
      intro including active st st' h
      obtain ⟨mid, hdeclaration, hrest⟩ := Stateful.bind_eq_ok h
      obtain ⟨source, hsource, -, hcases⟩ := visitDeclaration_ok hdeclaration
      obtain ⟨hresolves, units, hunits⟩ := ih including active mid st' hrest
      refine ⟨List.forall_mem_cons.2 ⟨⟨source, hsource⟩, hresolves⟩, ?_⟩
      rcases hcases with ⟨-, rfl⟩ | ⟨-, hfiles, hbytes, fragment, hparse, hchild⟩
      · exact ⟨units, hunits.fragments, hunits.visited, hunits.size, hunits.parsed, hunits.files, hunits.bytes⟩
      · obtain ⟨hinside, units₁, hunits₁⟩ := ihLevel fragment.includes source _ _ mid hchild
        have hentered : Adds b version st ((st.follow including source).enter source fragment) [(source, fragment)] :=
          ⟨rfl, rfl, rfl, fun u hu => by rw [List.mem_singleton.1 hu]; exact ⟨hparse, hinside⟩,
            fun _ => by simp [BuildState.enter, BuildState.follow]; omega,
            fun _ => hbytes⟩
        exact ⟨_, (hentered.trans hunits₁).trans hunits⟩

/-- The limits of a build, and the error that reports a cycle. -/
def stops : List String := [INC_CYCLE, INC_DEPTH_LIMIT, INC_FILE_LIMIT, INC_BUNDLE_SIZE_LIMIT]

def IsStop (e : BuildError) : Prop := ∃ code message source, e = .included code message source ∧ code ∈ stops

/-- **Where every include resolves to a source that parses, only a limit or a cycle stops a visit.** -/
theorem visit_stops {root : SourceFile} {good : SourceFile → Prop}
    (hgood : ∀ s, good s → s ≠ root → ∃ fragment, b.parseFragment version s = .ok fragment ∧
      Resolves b s fragment.includes ∧ ∀ t ∈ b.targets s fragment.includes, good t) :
    ∀ (k : Nat) (paths : List String) (including : SourceFile) (active : List String) (st : BuildState) (e : BuildError),
      b.visit version k including active paths st = .error e → Resolves b including paths →
      (∀ t ∈ b.targets including paths, good t) → root.sourceId ∈ st.visited → IsStop e := by
  intro k
  induction k with
  | zero =>
    intro paths including active st e h _ _ _
    cases paths with
    | nil       => cases h
    | cons p ps =>
      cases h
      exact ⟨_, _, _, rfl, by simp [stops]⟩
  | succ k ihLevel =>
    intro paths
    induction paths with
    | nil =>
      intro including active st e h _ _ _
      cases h
    | cons path paths ih =>
      intro including active st e h hresolves htargets hroot
      obtain ⟨⟨source, hsource⟩, hrest⟩ := List.forall_mem_cons.1 hresolves
      rw [targets_cons paths hsource] at htargets
      obtain ⟨hsourceGood, htail⟩ := List.forall_mem_cons.1 htargets
      have hrun : b.visit version (k + 1) including active (path :: paths) st =
          b.visitDeclaration version (b.visit version k) including active st path >>=
            b.visit version (k + 1) including active paths := rfl
      rw [hrun] at h
      cases hdeclaration : b.visitDeclaration version (b.visit version k) including active st path with
      | ok mid   =>
        rw [hdeclaration] at h
        obtain ⟨t, -, -, hcases⟩ := visitDeclaration_ok hdeclaration
        refine ih including active mid e h hrest htail ?_
        rcases hcases with ⟨-, rfl⟩ | ⟨-, -, -, fragment, -, hchild⟩
        · exact hroot
        · obtain ⟨-, units, hunits⟩ := visit_adds k _ _ _ _ _ hchild
          rw [hunits.visited]
          exact List.mem_append_left _ (List.mem_append_left _ hroot)
      | error e' =>
        rw [hdeclaration] at h
        cases h
        unfold visitDeclaration at hdeclaration
        rw [hsource] at hdeclaration
        simp only [bind, Except.bind] at hdeclaration
        by_cases hactive : source.sourceId ∈ active
        · rw [if_pos hactive] at hdeclaration
          cases hdeclaration
          exact ⟨_, _, _, rfl, by simp [stops]⟩
        rw [if_neg hactive] at hdeclaration
        by_cases hvisited : source.sourceId ∈ st.visited
        · rw [if_pos hvisited] at hdeclaration
          cases hdeclaration
        rw [if_neg hvisited] at hdeclaration
        by_cases hfiles : b.options.maxIncludeFiles ≤ st.fragments.length
        · rw [if_pos hfiles] at hdeclaration
          cases hdeclaration
          exact ⟨_, _, _, rfl, by simp [stops]⟩
        rw [if_neg hfiles] at hdeclaration
        by_cases hbytes : b.options.maxTotalSourceBytes < st.totalSourceBytes + source.size
        · rw [if_pos hbytes] at hdeclaration
          cases hdeclaration
          exact ⟨_, _, _, rfl, by simp [stops]⟩
        rw [if_neg hbytes] at hdeclaration
        have hne : source ≠ root := fun heq => hvisited (heq ▸ hroot)
        obtain ⟨fragment, hparse, hinside, hchildren⟩ := hgood source hsourceGood hne
        rw [hparse] at hdeclaration
        exact ihLevel _ _ _ _ _ hdeclaration hinside hchildren (List.mem_append_left _ hroot)

/-! ## The whole build -/

/-- **The include graph of a root**: the sources each source includes. -/
def includeGraph (b : SourceBundleBuilder) (root : SourceFile) : SourceFile → List SourceFile :=
  match b.parseRoot root with
  | .ok ast  => b.includedBy root ast
  | .error _ => fun _ => []

/-- Every source in reach of the root parses, and its includes resolve. -/
def Complete (b : SourceBundleBuilder) (root : SourceFile) : Prop :=
  ∃ ast, b.parseRoot root = .ok ast ∧ ∀ s, Dfs.Reachable (b.includeGraph root) root s →
    (s ≠ root → ∃ fragment, b.parseFragment ast.languageVersion s = .ok fragment) ∧
      Resolves b s (b.declarations root ast s)

/-- What a bundle says of the include graph it was built from. -/
structure Explored (b : SourceBundleBuilder) (root : SourceFile) (bundle : SourceBundle) : Prop where
  preorder : Dfs.Preorder (b.includeGraph root) [root] (b.includeGraph root root) (bundle.fragments.map Prod.fst)
  once     : (bundle.fragments.map Prod.fst).Nodup
  exactly  : ∀ s, s ∈ bundle.fragments.map Prod.fst ↔ s ≠ root ∧ Dfs.Reachable (b.includeGraph root) root s
  acyclic  : ∀ s, Dfs.Reachable (b.includeGraph root) root s → ¬ Relation.TransGen (Dfs.Edge (b.includeGraph root)) s s
  complete : b.Complete root
  edges    : ∀ s, Dfs.Reachable (b.includeGraph root) root s → ∀ t ∈ b.includeGraph root s,
    ⟨s.sourceId, t.sourceId⟩ ∈ bundle.edges
  walks    : ∃ walks : List (List SourceFile), bundle.edges = walks.map lastEdge ∧ ∀ w ∈ walks,
    w.getLast? = some root ∧ List.IsChain (fun t s => Dfs.Edge (b.includeGraph root) s t) w ∧
      w.length ≤ b.options.maxIncludeDepth + 1
  files    : bundle.fragments.length ≤ b.options.maxIncludeFiles
  bytes    : totalSize (root :: bundle.fragments.map Prod.fst) ≤ b.options.maxTotalSourceBytes

theorem includedBy_fragment {root s : SourceFile} {ast : AstSkill} {fragment : AstIncludeFragment} (hne : s ≠ root)
    (h : b.parseFragment ast.languageVersion s = .ok fragment) : b.includedBy root ast s = b.targets s fragment.includes := by
  unfold includedBy declarations
  rw [if_neg hne, h]
  rfl

variable [Platform]

/-- A build that goes through has explored the include graph. -/
theorem explored_of_build {root : SourceFile} {bundle : SourceBundle}
    (hid : ∀ s t, Dfs.Reachable (b.includeGraph root) root s → Dfs.Reachable (b.includeGraph root) root t →
      s.sourceId = t.sourceId → s = t) (h : b.build root = .ok bundle) : b.Explored root bundle := by
  unfold build at h
  by_cases hsize : b.options.maxTotalSourceBytes < root.size
  · rw [if_pos hsize] at h
    cases h
  rw [if_neg hsize] at h
  obtain ⟨ast, hast, h₁⟩ := Stateful.bind_eq_ok h
  obtain ⟨st, hvisit, h₂⟩ := Stateful.bind_eq_ok h₁
  cases h₂
  have hgraph : b.includeGraph root = b.includedBy root ast := by
    unfold includeGraph
    rw [hast]
  have hdeclarations : b.declarations root ast root = ast.includes := if_pos rfl
  have htodo : b.includedBy root ast root = b.targets root ast.includes := by
    unfold includedBy
    rw [hdeclarations]
  rw [hgraph] at hid
  have hident : Identified (b.includedBy root ast) (Dfs.Reachable (b.includedBy root ast) root) :=
    ⟨fun s t hs ht => hs.tail ht, hid⟩
  have hrefl : Dfs.Reachable (b.includedBy root ast) root root := Relation.ReflTransGen.refl
  obtain ⟨r, htour, hafter⟩ := visit_tour hident (fun s fragment hne hparse => includedBy_fragment hne hparse) _
    ast.includes root [] [root] _ st hvisit (by simpa using hrefl) (by simpa using hrefl) (List.mem_cons_self ..) rfl (fun t ht => by rw [htodo]; exact ht)
  obtain ⟨hresolves, units, hadds⟩ := visit_adds _ _ _ _ _ _ hvisit
  have hfragments : st.fragments.map Prod.fst = r.entered := hafter.fragments
  rw [← htodo] at htour
  have hunits : st.fragments = units := hadds.fragments
  have hcomplete : b.Complete root := by
    refine ⟨ast, hast, fun s hs => ?_⟩
    rw [hgraph] at hs
    by_cases hne : s = root
    · rw [hne, hdeclarations]
      exact ⟨fun h => absurd rfl h, hresolves⟩
    · have hmem : s ∈ st.fragments.map Prod.fst := by
        rw [hfragments]
        exact (htour.mem_iff s).2 ⟨hne, hs⟩
      obtain ⟨u, hu, rfl⟩ := List.mem_map.1 hmem
      obtain ⟨hparse, hinside⟩ := hadds.parsed u (hunits ▸ hu)
      refine ⟨fun _ => ⟨u.2, hparse⟩, ?_⟩
      unfold declarations
      rw [if_neg hne, hparse]
      exact hinside
  have hsizes : st.totalSourceBytes = root.size + totalSize (st.fragments.map Prod.fst) := by rw [hadds.size, hunits]
  refine ⟨?_, ?_, ?_, ?_, hcomplete, ?_, ?_, hadds.files (Nat.zero_le _), ?_⟩
  · rw [hfragments, hgraph]
    exact htour.preorder
  · rw [hfragments]
    exact htour.fresh.1
  · rw [hfragments, hgraph]
    exact htour.mem_iff
  · rw [hgraph]
    exact fun s hs => htour.acyclic hs
  · rw [hgraph]
    intro s hs t ht
    have hwalk : ∃ above, t :: s :: above ∈ r.walks := by
      by_cases hne : s = root
      · exact ⟨[], hne ▸ htour.walks_complete.1 t (hne ▸ ht)⟩
      · exact htour.walks_complete.2 s ((htour.mem_iff s).2 ⟨hne, hs⟩) t ht
    obtain ⟨above, hmem⟩ := hwalk
    rw [hafter.edges]
    exact List.mem_append_right _ (List.mem_map.2 ⟨_, hmem, rfl⟩)
  · rw [hgraph]
    refine ⟨r.walks, hafter.edges, fun w hw => ?_⟩
    obtain ⟨hlast, hlen, hchain⟩ := htour.walks_from_root w hw
    exact ⟨hlast, hchain, hlen⟩
  · show root.size + totalSize (st.fragments.map Prod.fst) ≤ b.options.maxTotalSourceBytes
    rw [← hsizes]
    exact hadds.bytes (not_lt.1 hsize)

/-- A build of a complete graph ends in a bundle, at a limit or at a cycle. -/
theorem build_stops {root : SourceFile} (hcomplete : b.Complete root) {e : BuildError} (h : b.build root = .error e) :
    IsStop e := by
  obtain ⟨ast, hast, hall⟩ := hcomplete
  have hgraph : b.includeGraph root = b.includedBy root ast := by
    unfold includeGraph
    rw [hast]
  rw [hgraph] at hall
  have hdeclarations : b.declarations root ast root = ast.includes := if_pos rfl
  have hroot := hall root Relation.ReflTransGen.refl
  rw [hdeclarations] at hroot
  have htargets : ∀ t ∈ b.targets root ast.includes, Dfs.Reachable (b.includedBy root ast) root t := by
    intro t ht
    refine Relation.ReflTransGen.single ?_
    show t ∈ b.targets root (b.declarations root ast root)
    rw [hdeclarations]
    exact ht
  have hgood : ∀ s, Dfs.Reachable (b.includedBy root ast) root s → s ≠ root →
      ∃ fragment, b.parseFragment ast.languageVersion s = .ok fragment ∧ Resolves b s fragment.includes ∧
        ∀ t ∈ b.targets s fragment.includes, Dfs.Reachable (b.includedBy root ast) root t := by
    intro s hs hne
    obtain ⟨fragment, hparse⟩ := (hall s hs).1 hne
    have hresolves := (hall s hs).2
    unfold declarations at hresolves
    rw [if_neg hne, hparse] at hresolves
    refine ⟨fragment, hparse, hresolves, fun t ht => hs.tail ?_⟩
    rw [← includedBy_fragment hne hparse] at ht
    exact ht
  unfold build at h
  by_cases hsize : b.options.maxTotalSourceBytes < root.size
  · rw [if_pos hsize] at h
    cases h
    exact ⟨_, _, _, rfl, by simp [stops]⟩
  rw [if_neg hsize, hast] at h
  simp only [bind, Except.bind] at h
  cases hvisit : b.visit ast.languageVersion b.options.maxIncludeDepth root [root.sourceId] ast.includes
      ⟨root.size, [], [], [root.sourceId]⟩ with
  | ok st    => rw [hvisit] at h; cases h
  | error e' =>
    rw [hvisit] at h
    cases h
    exact visit_stops hgood _ _ _ _ _ _ hvisit hroot.2 htargets (List.mem_cons_self ..)

end SourceBundleBuilder

/-! ## Two sources of one identifier -/

theorem nslWord : isIdentifier "NSL" = true := by decide
theorem skillWord : isIdentifier "included_draft" = true := by decide
theorem riskWord : isIdentifier "R0" = true := by decide

/-- The tokens of a root source with these includes and nothing else. -/
def includingTokens (paths : List String) : List Token :=
  [.keyword .language, .identifier ⟨"NSL", nslWord⟩, .string "0.1", .mark .semicolon, .keyword .skill,
   .identifier ⟨"included_draft", skillWord⟩, .mark .lbrace, .keyword .version, .string "1.0.0", .mark .semicolon,
   .keyword .risk, .identifier ⟨"R0", riskWord⟩, .mark .semicolon] ++
  paths.flatMap (fun path => [.keyword .include, .string path, .mark .semicolon]) ++ [.mark .rbrace, .eof]

/-- A builder whose resolver has these sources, all of them empty fragments. -/
def SourceBundleBuilder.ofFragments (paths : List String) (sources : List SourceFile) : SourceBundleBuilder where
  tokenizeRoot := fun _ => .ok (includingTokens paths)
  tokenize     := fun _ _ => .ok [.eof]
  resolver     := fun _ path =>
    match sources.find? (fun s => s.logicalPath = path) with
    | some source => .ok source
    | none        => .error .notFound

def draftRoot : SourceFile := ⟨"root", "draft.ns", ""⟩
def sharedTools : SourceFile := ⟨"shared", "tools.ns", ""⟩
def sharedLimits : SourceFile := ⟨"shared", "limits.ns", ""⟩

section Shared

attribute [local instance] Platform.ascii

end Shared

open SourceBundleBuilder in
/-- The sources in reach of a root with one include. -/
theorem oneInclude_reach {s : SourceFile}
    (h : Dfs.Reachable ((ofFragments ["tools.ns"] [sharedTools]).includeGraph draftRoot) draftRoot s) :
    s = draftRoot ∨ s = sharedTools := by
  induction h with
  | refl           => exact .inl rfl
  | tail _ hst ih =>
    rcases ih with rfl | rfl
    · have hmem : _ ∈ [sharedTools] := hst
      exact .inr (List.mem_singleton.1 hmem)
    · have hmem : _ ∈ ([] : List SourceFile) := hst
      exact (List.not_mem_nil hmem).elim

section Ascii

attribute [local instance] Platform.ascii

end Ascii
end Nsl
