import Nsl.Base.Run
import Nsl.Base.Segments
import Nsl.Core
/-!
# IncludePath — where an include path leads

`canonical_include_path` (`includes.py`), over the POSIX paths of `pathlib`. The path of an include is walked from the
directory of the source that includes it, and the walk never leaves the include root.
-/
namespace Nsl

/-! ## Paths -/

/-- `PurePosixPath`: its root and the segments below. -/
structure PurePosixPath where
  root : String
  tail : List String
  deriving DecidableEq

namespace PurePosixPath

/-- `posixpath.splitroot`: exactly two leading slashes are a root of their own. -/
def splitRoot : List Char → String × List Char
  | '/' :: '/' :: '/' :: cs => ("/", '/' :: '/' :: cs)
  | '/' :: '/' :: cs        => ("//", cs)
  | '/' :: cs               => ("/", cs)
  | cs                      => ("", cs)

def segments (cs : List Char) : List String :=
  ((cs.splitOn '/').map String.ofList).filter (fun s => s ≠ "" && s ≠ ".")

def ofString (path : String) : PurePosixPath :=
  ⟨(splitRoot path.toList).1, segments (splitRoot path.toList).2⟩

def parts (p : PurePosixPath) : List String := if p.root = "" then p.tail else p.root :: p.tail

def isAbsolute (p : PurePosixPath) : Bool := p.root ≠ ""

def parent (p : PurePosixPath) : PurePosixPath := ⟨p.root, p.tail.dropLast⟩

def asPosix (p : PurePosixPath) : String :=
  if p.root = "" ∧ p.tail = [] then "." else p.root ++ Text.join "/" p.tail

theorem mem_segments {cs : List Char} {s : String} (h : s ∈ segments cs) : s ≠ "" ∧ s ≠ "." ∧ '/' ∉ s.toList := by
  unfold segments at h
  obtain ⟨hmem, hkept⟩ := List.mem_filter.1 h
  obtain ⟨part, hpart, rfl⟩ := List.mem_map.1 hmem
  simp only [Bool.and_eq_true, decide_eq_true_eq] at hkept
  rw [String.toList_ofList]
  exact ⟨hkept.1, hkept.2, Segments.notMem_of_mem_splitOn hpart⟩

/-- A text that does not start with a slash has no root. -/
theorem splitRoot_relative : ∀ {cs : List Char}, cs.head? ≠ some '/' → splitRoot cs = ("", cs)
  | [], _     => rfl
  | c :: cs, h => by
    have hc : c ≠ '/' := fun heq => h (by rw [heq]; rfl)
    unfold splitRoot
    split
    · rename_i heq
      exact absurd (List.cons.inj heq).1 hc
    · rename_i heq
      exact absurd (List.cons.inj heq).1 hc
    · rename_i heq
      exact absurd (List.cons.inj heq).1 hc
    · rfl

theorem isAbsolute_iff (path : String) : (ofString path).isAbsolute = false ↔ path.toList.head? ≠ some '/' := by
  constructor
  · intro h hslash
    obtain ⟨cs, hcs⟩ : ∃ cs, path.toList = '/' :: cs := by
      cases hp : path.toList with
      | nil       => rw [hp] at hslash; cases hslash
      | cons c cs => rw [hp] at hslash; cases hslash; exact ⟨cs, rfl⟩
    unfold isAbsolute ofString at h
    rw [hcs] at h
    unfold splitRoot at h
    split at h <;> simp_all
  · intro h
    unfold isAbsolute ofString
    rw [splitRoot_relative h]
    rfl

theorem ofString_relative {path : String} (h : (ofString path).isAbsolute = false) :
    ofString path = ⟨"", segments path.toList⟩ := by
  unfold ofString
  rw [splitRoot_relative ((isAbsolute_iff path).1 h)]

/-- **A relative path is read back as it is written.** -/
theorem ofString_asPosix {tail : List String} (h : ∀ s ∈ tail, s ≠ "" ∧ s ≠ "." ∧ '/' ∉ s.toList) :
    ofString (asPosix ⟨"", tail⟩) = ⟨"", tail⟩ := by
  by_cases hne : tail = []
  · rw [hne]
    decide
  · have hposix : asPosix ⟨"", tail⟩ = Text.join "/" tail := by
      unfold asPosix
      rw [if_neg (fun hall => hne hall.2), String.empty_append]
    have hhead : (Text.join "/" tail).toList.head? ≠ some '/' := by
      obtain ⟨first, rest, rfl⟩ := List.exists_cons_of_ne_nil hne
      obtain ⟨hfirst, -, hslash⟩ := h first (List.mem_cons_self ..)
      obtain ⟨c, cs, hcs⟩ := List.exists_cons_of_ne_nil (fun hnil => hfirst (String.toList_eq_nil_iff.1 hnil))
      have hc : c ≠ '/' := fun heq => hslash (by rw [hcs, heq]; exact List.mem_cons_self ..)
      cases rest with
      | nil       =>
        unfold Text.join
        rw [String.intercalate_singleton, hcs]
        simpa using hc
      | cons s ss =>
        unfold Text.join
        rw [String.intercalate_cons_cons, String.append_assoc, String.toList_append, hcs]
        simpa using hc
    have hsplit : Text.split '/' (Text.join "/" tail) = tail := Segments.split_join (fun s hs => (h s hs).2.2) hne
    unfold ofString segments
    rw [hposix, splitRoot_relative hhead]
    unfold Text.split at hsplit
    rw [hsplit]
    have hkeep : tail.filter (fun s => s ≠ "" && s ≠ ".") = tail :=
      List.filter_eq_self.2 (fun s hs => by simp [(h s hs).1, (h s hs).2.1])
    rw [hkeep]

end PurePosixPath

/-- `PureWindowsPath(path).drive` is not empty. A Windows path that is absolute has a drive. -/
def hasWindowsDrive (path : String) : Bool :=
  let separator (c : Char) : Bool := c = '/' || c = '\\'
  match path.toList with
  | a :: b :: _ => if separator a then separator b else b = ':'
  | _           => false

/-! ## The walk -/

/-- `normalized_parts` -/
def normalizedParts (path : String) : Except Exn (List String) :=
  match Segments.walk 0 [] (PurePosixPath.ofString path).parts with
  | some parts => .ok parts
  | none       => .error (.value "path escapes include root")

/-- The first check of `canonical_include_path`. -/
def isUnsafeInclude (includePath : String) : Bool :=
  includePath = "" || includePath.toList.contains '\x00' || includePath.toList.contains '\\' ||
    (PurePosixPath.ofString includePath).isAbsolute || hasWindowsDrive includePath ||
    !(".ns".toList.isSuffixOf includePath.toList)

/-- `canonical_include_path` -/
def canonicalIncludePath (includingLogicalPath includePath includeRoot : String) : Except Exn String :=
  if isUnsafeInclude includePath then .error (.value "unsafe include path")
  else do
    let rootParts ← normalizedParts includeRoot
    let baseParts ← normalizedParts (PurePosixPath.ofString includingLogicalPath).parent.asPosix
    if baseParts.take rootParts.length ≠ rootParts then .error (.value "including source is outside include root")
    else
      match Segments.walk rootParts.length baseParts (PurePosixPath.ofString includePath).parts with
      | some targetParts => .ok (Text.join "/" targetParts)
      | none             => .error (.value "path escapes include root")

/-! ## Where it leads -/

open PurePosixPath in
/-- The last segment of a path that ends in `.ns` is a name. -/
theorem nsPath_last {path : String} (hrel : (ofString path).isAbsolute = false)
    (hns : ".ns".toList <:+ path.toList) : ∃ ps p, (ofString path).parts = ps ++ [p] ∧ Segments.Plain p := by
  obtain ⟨pre, hpre⟩ := hns
  have hsep : '/' ∉ ".ns".toList := by decide
  obtain ⟨parts, last, hlast⟩ := Segments.splitOn_last hsep pre
  have hplain : Segments.Plain (String.ofList (last ++ ".ns".toList)) := by
    have hlen : (String.ofList (last ++ ".ns".toList)).toList.length = last.length + 3 := by
      rw [String.toList_ofList, List.length_append]
      rfl
    refine ⟨fun h => ?_, fun h => ?_, fun h => ?_⟩ <;>
    · rw [h] at hlen
      simp at hlen
  refine ⟨(parts.map String.ofList).filter (fun s => s ≠ "" && s ≠ "."), String.ofList (last ++ ".ns".toList), ?_, hplain⟩
  rw [ofString_relative hrel]
  show segments path.toList = _
  unfold segments
  rw [← hpre, hlast, List.map_append, List.filter_append, List.map_singleton]
  congr 1
  exact List.filter_eq_self.2 (fun s hs => by
    rw [List.mem_singleton.1 hs, decide_eq_true hplain.1, decide_eq_true hplain.2.1]
    rfl)

open PurePosixPath in
/-- **Where an include leads**: to the path of the including source's directory and the include path, a proper path below
the include root, and no step on the way leaves the root. -/
theorem canonicalIncludePath_inside {including includePath includeRoot target : String}
    (hrel : (ofString including).isAbsolute = false)
    (h : canonicalIncludePath including includePath includeRoot = .ok target) :
    ∃ rootParts directory, normalizedParts includeRoot = .ok rootParts ∧
      Segments.walk 0 [] (ofString including).parent.parts = some directory ∧
      Segments.walk 0 directory (ofString includePath).parts = some (Text.split '/' target) ∧
      (rootParts <+: Text.split '/' target ∧ rootParts ≠ Text.split '/' target) ∧
      (∀ s ∈ Text.split '/' target, Segments.Plain s) ∧
      ∀ ps, ps <+: (ofString includePath).parts →
        ∃ reached, Segments.walk 0 directory ps = some reached ∧ rootParts <+: reached := by
  unfold canonicalIncludePath at h
  split at h
  · cases h
  rename_i hsafe
  have hparent : ofString (ofString including).parent.asPosix = (ofString including).parent := by
    rw [ofString_relative hrel]
    exact ofString_asPosix (fun s hs => mem_segments (List.mem_of_mem_dropLast hs))
  obtain ⟨rootParts, hroot, h₁⟩ := Stateful.bind_eq_ok h
  obtain ⟨directory, hbase, h₂⟩ := Stateful.bind_eq_ok h₁
  by_cases hinside : directory.take rootParts.length = rootParts
  swap
  · rw [if_pos hinside] at h₂
    cases h₂
  rw [if_neg (not_not.2 hinside)] at h₂
  cases hwalk : Segments.walk rootParts.length directory (ofString includePath).parts with
  | none      => rw [hwalk] at h₂; cases h₂
  | some segs =>
    rw [hwalk] at h₂
    cases h₂
    have hdirectory : Segments.walk 0 [] (ofString including).parent.parts = some directory := by
      unfold normalizedParts at hbase
      rw [hparent] at hbase
      split at hbase
      · rename_i parts hparts
        cases hbase
        exact hparts
      · cases hbase
    have hunder : rootParts <+: directory := by
      rw [← hinside]
      exact List.take_prefix _ _
    simp only [isUnsafeInclude, Bool.or_eq_true, not_or, Bool.not_eq_true, Bool.not_eq_false'] at hsafe
    obtain ⟨⟨⟨-, hinclude⟩, -⟩, hns⟩ := hsafe
    obtain ⟨ps, p, hparts, hp⟩ := nsPath_last hinclude (List.isSuffixOf_iff_suffix.1 hns)
    obtain ⟨reached, hreached, hsegs⟩ := Segments.walk_last hp (hparts ▸ hwalk)
    have hdirectoryParts : ∀ s ∈ directory, Segments.Plain s ∧ '/' ∉ s.toList := by
      intro s hs
      refine ⟨Segments.walk_plain (fun _ h => (List.not_mem_nil h).elim) hdirectory s hs, ?_⟩
      rcases Segments.walk_mem hdirectory s hs with hnil | hs
      · exact (List.not_mem_nil hnil).elim
      · rw [ofString_relative hrel] at hs
        exact (mem_segments (List.mem_of_mem_dropLast hs)).2.2
    have hslash : ∀ s ∈ segs, '/' ∉ s.toList := by
      intro s hs
      rcases Segments.walk_mem hwalk s hs with hs | hs
      · exact (hdirectoryParts s hs).2
      · rw [ofString_relative hinclude] at hs
        exact (mem_segments hs).2.2
    have hne : segs ≠ [] := by
      rw [hsegs]
      exact List.append_ne_nil_of_right_ne_nil _ (List.cons_ne_nil _ _)
    have hsplit : Text.split '/' (Text.join "/" segs) = segs := Segments.split_join hslash hne
    rw [hsplit]
    refine ⟨rootParts, directory, hroot, hdirectory, Segments.walk_floor (Nat.zero_le _) hwalk, ⟨?_, ?_⟩,
      Segments.walk_plain (fun s hs => (hdirectoryParts s hs).1) hwalk, fun qs hqs => ?_⟩
    · exact Segments.walk_prefix le_rfl hunder hwalk
    · have hreachedPrefix := Segments.walk_prefix le_rfl hunder hreached
      intro heq
      have hlen := hreachedPrefix.length_le
      rw [heq, hsegs, List.length_append, List.length_singleton] at hlen
      omega
    · obtain ⟨mid, hmid⟩ := Segments.walk_of_prefix hqs hwalk
      exact ⟨mid, Segments.walk_floor (Nat.zero_le _) hmid, Segments.walk_prefix le_rfl hunder hmid⟩

/-- An include that goes up and down again below its root. -/
theorem canonicalIncludePath_inside_up :
    canonicalIncludePath "skills/vouchers/draft.ns" "../shared/./tools.ns" "skills" = .ok "skills/shared/tools.ns" ∧
      ∃ rootParts directory, normalizedParts "skills" = .ok rootParts ∧
        Segments.walk 0 [] (PurePosixPath.ofString "skills/vouchers/draft.ns").parent.parts = some directory ∧
        Segments.walk 0 directory (PurePosixPath.ofString "../shared/./tools.ns").parts =
          some (Text.split '/' "skills/shared/tools.ns") ∧
        (rootParts <+: Text.split '/' "skills/shared/tools.ns" ∧ rootParts ≠ Text.split '/' "skills/shared/tools.ns") ∧
        (∀ s ∈ Text.split '/' "skills/shared/tools.ns", Segments.Plain s) ∧
        ∀ ps, ps <+: (PurePosixPath.ofString "../shared/./tools.ns").parts →
          ∃ reached, Segments.walk 0 directory ps = some reached ∧ rootParts <+: reached := by
  have hrun : canonicalIncludePath "skills/vouchers/draft.ns" "../shared/./tools.ns" "skills" =
      .ok "skills/shared/tools.ns" := by decide +kernel
  exact ⟨hrun, canonicalIncludePath_inside (by decide) hrun⟩

end Nsl
