import Nsl.Base.Json
import Nsl.Base.Pointer
import Mathlib.Data.Rat.Cast.Defs
import Mathlib.Data.List.Dedup
/-!
# ReplayComparison — what differs between two results

`compare_replay_values` goes through two documents at once and reports each place where they differ. A place is written as a
pointer, the whole document as `/`. Its law: nothing is reported of equal documents only, each report is found at its place in
both documents, and no two have one place. It holds unless the entries under the empty name differ at once: their place is
written `/` too.
-/
namespace Nsl

structure ReplayDifference where
  path     : String
  original : Json
  replayed : Json
  deriving DecidableEq

/-- What a report shows for a value that is not there. -/
def missingMark : Json := .obj [("$missing", .bool true)]

section Comparison

-- the value of a `float`, by its text
variable (floatValue : String → ℚ)

/-- A number's value; a `bool` is a number. -/
def numberValue : Json → Option ℚ
  | .bool b  => some (if b then 1 else 0)
  | .int i   => some i
  | .float t => some (floatValue t)
  | _        => none

/-- `original == replayed` where they are not two dictionaries and not two lists. -/
def plainEqual (original replayed : Json) : Bool :=
  match original, replayed with
  | .null,  .null  => true
  | .str s, .str t => s = t
  | _,      _      =>
    match numberValue floatValue original, numberValue floatValue replayed with
    | some p, some q => p = q
    | _,      _      => false

/-- `_escape_path` -/
def escapePath (value : String) : String :=
  String.ofList ((value.toList.flatMap (fun c => if c = '~' then ['~', '0'] else [c])).flatMap
    (fun c => if c = '/' then ['~', '1'] else [c]))

def childPath (path component : String) : String := path ++ "/" ++ component

/-- What is reported of a key or of an index: one side has nothing there, or the two values are compared. -/
def compareChild (path : String) : Option (Json × (String → Json → List ReplayDifference)) → Option Json →
    List ReplayDifference
  | none,                   none          => []
  | none,                   some replayed => [⟨path, missingMark, replayed⟩]
  | some (original, _),     none          => [⟨path, original, missingMark⟩]
  | some (_,        collect), some replayed => collect path replayed

/-- `sorted(set(original) | set(replayed))` -/
def unionKeys (original replayed : List (String × Json)) : List String :=
  ((original ++ replayed).map Prod.fst).dedup.insertionSort (· ≤ ·)

mutual
/-- `_collect_differences` -/
def collectDifferences : Json → String → Json → List ReplayDifference
  | .obj original, path, .obj replayed =>
    (unionKeys original replayed).flatMap (fun key =>
      compareChild (childPath path (escapePath key)) ((collectEntries original).lookup key) (replayed.lookup key))
  | .arr original, path, .arr replayed =>
    (List.range (max original.length replayed.length)).flatMap (fun index =>
      compareChild (childPath path (Pointer.ofNat index)) (collectItems original)[index]? replayed[index]?)
  | original, path, replayed =>
    if plainEqual floatValue original replayed then [] else [⟨if path = "" then "/" else path, original, replayed⟩]
/-- The entries of the original, each with its comparison. -/
def collectEntries : List (String × Json) → List (String × Json × (String → Json → List ReplayDifference))
  | []           => []
  | (k, x) :: xs => (k, x, fun path y => collectDifferences x path y) :: collectEntries xs
def collectItems : List Json → List (Json × (String → Json → List ReplayDifference))
  | []      => []
  | x :: xs => (x, fun path y => collectDifferences x path y) :: collectItems xs
end

/-- `compare_replay_values` -/
def compareReplayValues (original replayed : Json) : List ReplayDifference :=
  collectDifferences floatValue original "" replayed

/-! ## What the reports mean -/

def bothContainers : Json → Json → Bool
  | .obj _, .obj _ | .arr _, .arr _ => true
  | _,      _                       => false

/-- **`==` of two documents**: numbers by their value, dictionaries whatever the order of their keys. -/
inductive DocumentsEqual : Json → Json → Prop
  | null : DocumentsEqual .null .null
  | str (s : String) : DocumentsEqual (.str s) (.str s)
  | number {x y : Json} {q : ℚ} (hx : numberValue floatValue x = some q) (hy : numberValue floatValue y = some q) :
      DocumentsEqual x y
  | arr {xs ys : List Json} (items : ∀ i : Nat, Option.Rel DocumentsEqual xs[i]? ys[i]?) : DocumentsEqual (.arr xs) (.arr ys)
  | obj {xs ys : List (String × Json)} (entries : ∀ k, Option.Rel DocumentsEqual (xs.lookup k) (ys.lookup k)) :
      DocumentsEqual (.obj xs) (.obj ys)

/-- What a name leads to in a document. -/
def part (name : String) : Json → Option Json
  | .obj entries => entries.lookup (Pointer.unescape name)
  | .arr items   => (Pointer.toNat? name).bind (items[·]?)
  | _            => none

def walk : List String → Json → Option Json
  | [],            x => some x
  | name :: names, x => (part name x).bind (walk names)

/-- What a reported path leads to; `/` is the whole document. -/
def locate (path : String) (x : Json) : Option Json :=
  if path = "/" then some x else (Pointer.read path).bind (fun names => walk names x)

/-- The value a report shows is the one found there, or its mark that none is. -/
def Shows (found : Option Json) (value : Json) : Prop := found = some value ∨ (found = none ∧ value = missingMark)

/-- A report is made here: one side has no value, or the two are compared as wholes and are not equal. -/
def differAtOnce : Option Json → Option Json → Bool
  | none,   none   => false
  | some x, some y => !bothContainers x y && !plainEqual floatValue x y
  | _,      _      => true

/-- A report of two values found at one place. -/
structure Reports (x? y? : Option Json) (d : ReplayDifference) : Prop where
  original : Shows x? d.original
  replayed : Shows y? d.replayed
  found    : ¬(x? = none ∧ y? = none)

/-- **An exact comparison.** -/
structure ExactComparison (original replayed : Json) : Prop where
  empty    : compareReplayValues floatValue original replayed = [] ↔ DocumentsEqual floatValue original replayed
  located  : ∀ d ∈ compareReplayValues floatValue original replayed,
    Reports (locate d.path original) (locate d.path replayed) d
  distinct : ((compareReplayValues floatValue original replayed).map (·.path)).Nodup

/-- The entries under the empty name differ at once. -/
def emptyNameDiffers : Json → Json → Bool
  | .obj original, .obj replayed => differAtOnce floatValue (original.lookup "") (replayed.lookup "")
  | _,             _             => false

end Comparison

section Laws

variable {floatValue : String → ℚ}

/-! ## One level -/

theorem containers_cases (x y : Json) : (∃ xs ys, x = .obj xs ∧ y = .obj ys) ∨ (∃ xs ys, x = .arr xs ∧ y = .arr ys) ∨
    bothContainers x y = false := by
  cases x with
  | obj xs =>
    cases y with
    | obj ys => exact .inl ⟨xs, ys, rfl, rfl⟩
    | _      => exact .inr (.inr rfl)
  | arr xs =>
    cases y with
    | arr ys => exact .inr (.inl ⟨xs, ys, rfl, rfl⟩)
    | _      => exact .inr (.inr rfl)
  | _ => exact .inr (.inr (by cases y <;> rfl))

/-- Values compared as wholes. -/
theorem collect_plain {x y : Json} (h : bothContainers x y = false) (path : String) :
    collectDifferences floatValue x path y =
      if plainEqual floatValue x y then [] else [⟨if path = "" then "/" else path, x, y⟩] := by
  rw [collectDifferences]
  · rintro xs ys rfl rfl
    cases h
  · rintro xs ys rfl rfl
    cases h

theorem plainEqual_iff {x y : Json} (h : bothContainers x y = false) :
    plainEqual floatValue x y = true ↔ DocumentsEqual floatValue x y := by
  constructor
  · intro heq
    unfold plainEqual at heq
    split at heq
    · exact .null
    · cases of_decide_eq_true heq
      exact .str _
    · split at heq
      · rename_i p q hp hq
        cases of_decide_eq_true heq
        exact .number hp hq
      · cases heq
  · intro heq
    cases heq with
    | null => rfl
    | str s => exact decide_eq_true rfl
    | number hx hy => cases x <;> cases y <;> simp_all [plainEqual, numberValue]
    | arr => cases h
    | obj => cases h

/-- The comparison of the values two documents have at one name. -/
def compareAt (floatValue : String → ℚ) (path : String) (x? y? : Option Json) : List ReplayDifference :=
  compareChild path (x?.map (fun x => (x, fun path y => collectDifferences floatValue x path y))) y?

theorem collectEntries_lookup (k : String) : ∀ (xs : List (String × Json)), (collectEntries floatValue xs).lookup k =
    (xs.lookup k).map (fun x => (x, fun path y => collectDifferences floatValue x path y))
  | []           => rfl
  | (l, x) :: xs => by
    rw [collectEntries, List.lookup_cons, List.lookup_cons]
    split
    · rfl
    · exact collectEntries_lookup k xs

theorem collectItems_eq_map : ∀ (xs : List Json), collectItems floatValue xs =
    xs.map (fun x => (x, fun path y => collectDifferences floatValue x path y))
  | []      => rfl
  | x :: xs => by rw [collectItems, List.map_cons, collectItems_eq_map xs]

theorem flatMap_escaped (cs : List Char) : (cs.flatMap (fun c => if c = '~' then ['~', '0'] else [c])).flatMap
    (fun c => if c = '/' then ['~', '1'] else [c]) = Pointer.escapeChars cs := by
  unfold Pointer.escapeChars
  rw [List.flatMap_assoc]
  apply List.flatMap_congr
  intro c _
  unfold Pointer.escapeChar
  by_cases htilde : c = '~'
  · subst htilde
    decide
  · simp [htilde]

/-- The two replacements of the source write a name as a pointer does. -/
theorem escapePath_eq (key : String) : escapePath key = Pointer.escape key := by
  unfold escapePath Pointer.escape
  rw [flatMap_escaped]

theorem lookup_of_notMem {es : List (String × Json)} {k : String} (h : k ∉ es.map Prod.fst) : es.lookup k = none := by
  rw [List.lookup_eq_none_iff]
  intro e he
  have hne : k ≠ e.1 := fun heq => h (heq ▸ List.mem_map_of_mem he)
  simpa using hne

theorem mem_unionKeys {xs ys : List (String × Json)} {k : String} (h : ¬(xs.lookup k = none ∧ ys.lookup k = none)) :
    k ∈ unionKeys xs ys := by
  have hkeys : k ∈ (xs ++ ys).map Prod.fst := by
    by_contra hnone
    rw [List.map_append, List.mem_append, not_or] at hnone
    exact h ⟨lookup_of_notMem hnone.1, lookup_of_notMem hnone.2⟩
  unfold unionKeys
  rw [List.mem_insertionSort]
  exact List.mem_dedup.2 hkeys

theorem unionKeys_nodup (xs ys : List (String × Json)) : (unionKeys xs ys).Nodup :=
  (List.perm_insertionSort _ _).nodup_iff.2 (List.nodup_dedup _)

/-- **One level of two containers**: every name of one of them, once, each under a name with no `/`. -/
theorem collect_parts {x y : Json} (h : bothContainers x y = true) : ∃ names : List String,
    names.Nodup ∧ (∀ name ∈ names, Pointer.Written name) ∧
    (∀ path, collectDifferences floatValue x path y =
      names.flatMap (fun name => compareAt floatValue (childPath path name) (part name x) (part name y))) ∧
    (DocumentsEqual floatValue x y ↔ ∀ name ∈ names, Option.Rel (DocumentsEqual floatValue) (part name x) (part name y)) := by
  obtain ⟨xs, ys, rfl, rfl⟩ | ⟨xs, ys, rfl, rfl⟩ | hplain := containers_cases x y
  · have hpart : ∀ (zs : List (String × Json)) key, part (escapePath key) (.obj zs) = zs.lookup key := by
      intro zs key
      rw [escapePath_eq, part, Pointer.unescape_escape]
    refine ⟨(unionKeys xs ys).map escapePath, ?_, ?_, fun path => ?_, ?_⟩
    · refine (unionKeys_nodup xs ys).map fun k l hkl => Pointer.escape_injective ?_
      rwa [escapePath_eq, escapePath_eq] at hkl
    · intro name hname
      obtain ⟨key, -, rfl⟩ := List.mem_map.1 hname
      rw [escapePath_eq]
      exact Pointer.escape_written key
    · rw [collectDifferences, List.flatMap_map]
      simp only [collectEntries_lookup, hpart, compareAt]
    · simp only [List.mem_map, forall_exists_index, and_imp, forall_apply_eq_imp_iff₂, hpart]
      constructor
      · intro heq key _
        cases heq with
        | obj entries  => exact entries key
        | number hx hy => cases hx
      · intro hkeys
        refine .obj fun key => ?_
        by_cases hnone : xs.lookup key = none ∧ ys.lookup key = none
        · rw [hnone.1, hnone.2]
          exact .none
        · exact hkeys key (mem_unionKeys hnone)
  · have hpart : ∀ (zs : List Json) i, part (Pointer.ofNat i) (.arr zs) = zs[i]? := by
      intro zs i
      rw [part, Pointer.toNat?_ofNat, Option.bind_some]
    refine ⟨(List.range (max xs.length ys.length)).map Pointer.ofNat, ?_, ?_, fun path => ?_, ?_⟩
    · exact List.nodup_range.map fun i j => Pointer.ofNat_injective
    · intro name hname
      obtain ⟨i, -, rfl⟩ := List.mem_map.1 hname
      exact Pointer.ofNat_written i
    · rw [collectDifferences, List.flatMap_map]
      simp only [collectItems_eq_map, List.getElem?_map, hpart, compareAt]
    · simp only [List.mem_map, forall_exists_index, and_imp, forall_apply_eq_imp_iff₂, hpart]
      constructor
      · intro heq i _
        cases heq with
        | arr items    => exact items i
        | number hx hy => cases hx
      · intro hitems
        refine .arr fun i => ?_
        by_cases hi : i < max xs.length ys.length
        · exact hitems i (List.mem_range.2 hi)
        · rw [List.getElem?_eq_none (by omega), List.getElem?_eq_none (by omega)]
          exact .none
  · rw [h] at hplain
    cases hplain

/-- A value below a name is a smaller one. -/
theorem part_size {name : String} {x y : Json} (h : part name x = some y) : sizeOf y < sizeOf x := by
  cases x with
  | obj entries =>
    have hmem := List.sizeOf_lt_of_mem (mem_of_lookup h)
    simp only [Prod.mk.sizeOf_spec] at hmem
    rw [Json.obj.sizeOf_spec]
    omega
  | arr items   =>
    obtain ⟨i, -, hi⟩ := Option.bind_eq_some_iff.1 h
    have hmem := List.sizeOf_lt_of_mem (List.mem_of_getElem? hi)
    rw [Json.arr.sizeOf_spec]
    omega
  | _           => cases h

/-- Induction on a document through what its names lead to. -/
theorem part_induction {motive : Json → Prop} (step : ∀ x, (∀ name y, part name x = some y → motive y) → motive x)
    (x : Json) : motive x :=
  step x fun _ y _ => part_induction step y
termination_by sizeOf x
decreasing_by exact part_size ‹_›

/-! ## Nothing is reported of equal documents only -/

theorem compareAt_nil_iff (path : String) (x? y? : Option Json) : compareAt floatValue path x? y? = [] ↔
    Option.Rel (fun x y => collectDifferences floatValue x path y = []) x? y? := by
  cases x? <;> cases y? <;> simp [compareAt, compareChild]

theorem collect_nil_iff (x : Json) : ∀ (path : String) (y : Json),
    collectDifferences floatValue x path y = [] ↔ DocumentsEqual floatValue x y := by
  induction x using part_induction with
  | step x ih =>
    intro path y
    cases h : bothContainers x y with
    | true  =>
      obtain ⟨names, -, -, hcollect, hequal⟩ := @collect_parts floatValue _ _ h
      rw [hcollect, hequal, List.flatMap_eq_nil_iff]
      refine forall₂_congr fun name _ => ?_
      rw [compareAt_nil_iff]
      cases hx : part name x with
      | none   => cases part name y <;> simp
      | some v => cases part name y <;> simp [ih name v hx]
    | false =>
      rw [collect_plain h, ← plainEqual_iff h]
      simp

/-! ## Where the reports are -/

/-- A place as the source writes it: `path or "/"`. -/
def placePath (names : List String) : String := if Pointer.write names = "" then "/" else Pointer.write names

theorem placePath_below {names : List String} (h : names ≠ []) : placePath names = Pointer.write names :=
  if_neg (Pointer.write_ne_empty h)

/-- **Each report is of one place in both documents**, under the names compared. -/
theorem collect_places (x : Json) : ∀ (names : List String) (y : Json) (d : ReplayDifference),
    d ∈ collectDifferences floatValue x (Pointer.write names) y → ∃ below : List String,
      (∀ name ∈ below, Pointer.Written name) ∧ d.path = placePath (names ++ below) ∧
      Shows (walk below x) d.original ∧ Shows (walk below y) d.replayed ∧
      differAtOnce floatValue (walk below x) (walk below y) = true := by
  induction x using part_induction with
  | step x ih =>
    intro names y d hd
    cases h : bothContainers x y with
    | true  =>
      obtain ⟨parts, -, hwritten, hcollect, -⟩ := @collect_parts floatValue _ _ h
      rw [hcollect] at hd
      obtain ⟨name, hname, hd⟩ := List.mem_flatMap.1 hd
      have hpath : childPath (Pointer.write names) name = Pointer.write (names ++ [name]) :=
        (Pointer.write_snoc names name).symm
      have hplace : placePath (names ++ [name]) = Pointer.write (names ++ [name]) := placePath_below (by simp)
      have hone : ∀ n ∈ [name], Pointer.Written n := fun n hn => List.mem_singleton.1 hn ▸ hwritten name hname
      rw [hpath] at hd
      cases hx : part name x with
      | none   =>
        cases hy : part name y with
        | none   =>
          rw [hx, hy] at hd
          cases hd
        | some w =>
          rw [hx, hy] at hd
          cases List.mem_singleton.1 hd
          refine ⟨[name], hone, hplace.symm, .inr ⟨?_, rfl⟩, .inl ?_, ?_⟩ <;> simp [walk, hx, hy, differAtOnce]
      | some v =>
        cases hy : part name y with
        | none   =>
          rw [hx, hy] at hd
          cases List.mem_singleton.1 hd
          refine ⟨[name], hone, hplace.symm, .inl ?_, .inr ⟨?_, rfl⟩, ?_⟩ <;> simp [walk, hx, hy, differAtOnce]
        | some w =>
          rw [hx, hy] at hd
          obtain ⟨below, hbelow, hat, hshows⟩ := ih name v hx (names ++ [name]) w d hd
          refine ⟨name :: below, ?_, ?_, ?_⟩
          · intro n hn
            rcases List.mem_cons.1 hn with rfl | hn
            · exact hwritten n hname
            · exact hbelow n hn
          · rw [hat, List.append_assoc, List.singleton_append]
          · simpa only [walk, hx, hy, Option.bind_some] using hshows
    | false =>
      rw [collect_plain h] at hd
      split at hd
      · cases hd
      · rename_i hplain
        cases List.mem_singleton.1 hd
        refine ⟨[], fun n hn => absurd hn List.not_mem_nil, ?_, .inl rfl, .inl rfl, ?_⟩
        · rw [List.append_nil]
          rfl
        · simp [walk, differAtOnce, h, hplain]

/-- What is reported under one name has it next in its path. -/
theorem compareAt_path {names : List String} {name : String} {x? y? : Option Json} {d : ReplayDifference}
    (hd : d ∈ compareAt floatValue (childPath (Pointer.write names) name) x? y?) : ∃ below : List String,
      (∀ n ∈ below, Pointer.Written n) ∧ d.path = Pointer.write (names ++ name :: below) := by
  have hpath : childPath (Pointer.write names) name = Pointer.write (names ++ [name]) := (Pointer.write_snoc names name).symm
  rw [hpath] at hd
  cases x? with
  | none   =>
    cases y? with
    | none   => cases hd
    | some y =>
      cases List.mem_singleton.1 hd
      exact ⟨[], fun n hn => absurd hn List.not_mem_nil, rfl⟩
  | some x =>
    cases y? with
    | none   =>
      cases List.mem_singleton.1 hd
      exact ⟨[], fun n hn => absurd hn List.not_mem_nil, rfl⟩
    | some y =>
      obtain ⟨below, hbelow, hat, -⟩ := collect_places x (names ++ [name]) y d hd
      refine ⟨below, hbelow, ?_⟩
      rw [hat, placePath_below (by simp), List.append_assoc, List.singleton_append]

/-- **No two reports have one path.** -/
theorem collect_paths_nodup (x : Json) : ∀ (names : List String) (y : Json), (∀ n ∈ names, Pointer.Written n) →
    ((collectDifferences floatValue x (Pointer.write names) y).map (·.path)).Nodup := by
  induction x using part_induction with
  | step x ih =>
    intro names y hnames
    cases h : bothContainers x y with
    | true  =>
      obtain ⟨parts, hnodup, hwritten, hcollect, -⟩ := @collect_parts floatValue _ _ h
      rw [hcollect, List.map_flatMap, List.nodup_flatMap]
      refine ⟨fun name hname => ?_, hnodup.imp_of_mem fun {name name'} hname hname' hne => ?_⟩
      · cases hx : part name x with
        | none   => cases part name y <;> simp [compareAt, compareChild]
        | some v =>
          cases part name y with
          | none   => simp [compareAt, compareChild]
          | some w =>
            have hsnoc : ∀ n ∈ names ++ [name], Pointer.Written n := by
              intro n hn
              rcases List.mem_append.1 hn with hn | hn
              · exact hnames n hn
              · exact List.mem_singleton.1 hn ▸ hwritten name hname
            have hchild := ih name v hx (names ++ [name]) w hsnoc
            rw [Pointer.write_snoc] at hchild
            exact hchild
      · refine List.disjoint_left.2 fun path hpath hpath' => ?_
        obtain ⟨d, hd, rfl⟩ := List.mem_map.1 hpath
        obtain ⟨d', hd', heq⟩ := List.mem_map.1 hpath'
        obtain ⟨below, hbelow, hat⟩ := compareAt_path hd
        obtain ⟨below', hbelow', hat'⟩ := compareAt_path hd'
        have hfull : ∀ {n : String} {ns : List String}, Pointer.Written n → (∀ m ∈ ns, Pointer.Written m) →
            ∀ m ∈ names ++ n :: ns, Pointer.Written m := by
          intro n ns hn hns m hm
          rcases List.mem_append.1 hm with hm | hm
          · exact hnames m hm
          · rcases List.mem_cons.1 hm with rfl | hm
            · exact hn
            · exact hns m hm
        have hwrite : Pointer.write (names ++ name' :: below') = Pointer.write (names ++ name :: below) := by
          rw [← hat, ← hat', heq]
        have hplaces := Pointer.write_injective (hfull (hwritten name' hname') hbelow')
          (hfull (hwritten name hname) hbelow) hwrite
        exact hne (List.cons.inj (List.append_cancel_left hplaces)).1.symm
    | false =>
      rw [collect_plain h]
      split <;> simp

/-! ## The comparison -/

theorem walk_nil : walk [] = some := funext fun _ => rfl

theorem locate_root (x : Json) : locate "/" x = some x := rfl

/-- A place below the root is found again, but for the empty name right below it. -/
theorem locate_write {names : List String} (h : ∀ n ∈ names, Pointer.Written n) (hne : names ≠ [])
    (hempty : names ≠ [""]) (x : Json) : locate (placePath names) x = walk names x := by
  have hroot : Pointer.write names ≠ "/" := by
    intro heq
    have hone : ∀ n ∈ [""], Pointer.Written n := fun n hn => List.mem_singleton.1 hn ▸ List.not_mem_nil
    exact hempty (Pointer.write_injective h hone heq)
  rw [placePath_below hne, locate, if_neg hroot, Pointer.read_write h, Option.bind_some]

theorem differAtOnce_some {x? y? : Option Json} (h : differAtOnce floatValue x? y? = true) : ¬(x? = none ∧ y? = none) := by
  rintro ⟨rfl, rfl⟩
  cases h

theorem walk_one (name : String) (x : Json) : walk [name] x = part name x := by
  rw [walk, walk_nil]
  cases part name x <;> rfl

/-- A report under the empty name is of two dictionaries whose entries under it differ at once. -/
theorem emptyName_of_report {x y : Json} (h : bothContainers x y = true)
    (hd : differAtOnce floatValue (walk [""] x) (walk [""] y) = true) : emptyNameDiffers floatValue x y = true := by
  rw [walk_one, walk_one] at hd
  obtain ⟨xs, ys, rfl, rfl⟩ | ⟨xs, ys, rfl, rfl⟩ | hplain := containers_cases x y
  · exact hd
  · cases hd
  · rw [h] at hplain
    cases hplain

/-- **Where the entries under the empty name do not differ at once, each report is found again at its path.** -/
theorem compare_located {original replayed : Json} (h : emptyNameDiffers floatValue original replayed = false)
    {d : ReplayDifference} (hd : d ∈ compareReplayValues floatValue original replayed) :
    Reports (locate d.path original) (locate d.path replayed) d := by
  cases hboth : bothContainers original replayed with
  | false =>
    unfold compareReplayValues at hd
    rw [collect_plain hboth] at hd
    split at hd
    · cases hd
    · cases List.mem_singleton.1 hd
      exact ⟨.inl rfl, .inl rfl, fun hnone => Option.some_ne_none _ hnone.1⟩
  | true  =>
    obtain ⟨below, hbelow, hpath, horiginal, hreplayed, hdiffer⟩ := collect_places original [] replayed d hd
    have hfound := differAtOnce_some hdiffer
    rw [List.nil_append] at hpath
    rw [hpath]
    by_cases hroot : below = []
    · subst hroot
      exact ⟨horiginal, hreplayed, hfound⟩
    · have hempty : below ≠ [""] := by
        rintro rfl
        rw [emptyName_of_report hboth hdiffer] at h
        cases h
      rw [locate_write hbelow hroot hempty, locate_write hbelow hroot hempty]
      exact ⟨horiginal, hreplayed, hfound⟩

/-- What differs at once is one report. -/
theorem compareAt_differ {path : String} (hpath : path ≠ "") {x? y? : Option Json}
    (h : differAtOnce floatValue x? y? = true) :
    compareAt floatValue path x? y? = [⟨path, x?.getD missingMark, y?.getD missingMark⟩] := by
  cases x? with
  | none   =>
    cases y? with
    | none   => cases h
    | some y => rfl
  | some x =>
    cases y? with
    | none   => rfl
    | some y =>
      simp only [differAtOnce, Bool.and_eq_true, Bool.not_eq_true'] at h
      have hcollect : compareAt floatValue path (some x) (some y) = collectDifferences floatValue x path y := rfl
      rw [hcollect, collect_plain h.1, h.2, if_neg hpath]
      rfl

/-- **Entries that differ at once under the empty name are reported as if the whole documents were**, which shows neither
of these. -/
theorem compare_emptyName {original replayed : Json} (h : emptyNameDiffers floatValue original replayed = true) :
    ∃ d ∈ compareReplayValues floatValue original replayed, d.path = "/" ∧ ¬Reports (some original) (some replayed) d := by
  obtain ⟨xs, ys, rfl, rfl⟩ | ⟨xs, ys, rfl, rfl⟩ | hplain := containers_cases original replayed
  · have hdiffer : differAtOnce floatValue (xs.lookup "") (ys.lookup "") = true := h
    have hreport := @compareAt_differ floatValue "/" (by decide) _ _ hdiffer
    refine ⟨⟨"/", (xs.lookup "").getD missingMark, (ys.lookup "").getD missingMark⟩,
      List.mem_flatMap.2 ⟨"", mem_unionKeys (differAtOnce_some hdiffer), ?_⟩, rfl, ?_⟩
    · have hroot : childPath "" (escapePath "") = "/" := by decide
      rw [collectEntries_lookup, hroot]
      change _ ∈ compareAt floatValue "/" (xs.lookup "") (ys.lookup "")
      rw [hreport]
      exact List.mem_singleton_self _
    · rintro ⟨horiginal, hreplayed, -⟩
      have hsmaller : ∀ (zs : List (String × Json)), zs.lookup "" ≠ some (.obj zs) := fun zs hzs =>
        absurd (@part_size "" (.obj zs) _ hzs) (lt_irrefl _)
      have hx : Json.obj xs = (xs.lookup "").getD missingMark := by
        simpa [Shows] using horiginal
      have hy : Json.obj ys = (ys.lookup "").getD missingMark := by
        simpa [Shows] using hreplayed
      cases hxs : xs.lookup "" with
      | some x => exact hsmaller xs (by rw [hx, hxs]; rfl)
      | none   =>
        cases hys : ys.lookup "" with
        | some y => exact hsmaller ys (by rw [hy, hys]; rfl)
        | none   =>
          rw [hxs, hys] at hdiffer
          cases hdiffer
  · cases h
  · cases original <;> cases replayed <;> first | cases h | cases hplain

/-- **The comparison is exact but where the entries under the empty name differ at once.** -/
theorem comparison_exact_iff (floatValue : String → ℚ) (original replayed : Json) :
    ExactComparison floatValue original replayed ↔ emptyNameDiffers floatValue original replayed = false := by
  constructor
  · intro hexact
    cases h : emptyNameDiffers floatValue original replayed with
    | false => rfl
    | true  =>
      obtain ⟨d, hd, hpath, hnot⟩ := compare_emptyName h
      have hlocated := hexact.located d hd
      rw [hpath, locate_root, locate_root] at hlocated
      exact absurd hlocated hnot
  · intro h
    exact ⟨collect_nil_iff original "" replayed, fun d hd => compare_located h hd,
      collect_paths_nodup original [] replayed (fun n hn => absurd hn List.not_mem_nil)⟩

end Laws

example : compareReplayValues (fun _ => 0)
    (.obj [("a/b~", .arr [.int 1]), ("left", .arr [.int 1, .int 2])])
    (.obj [("a/b~", .arr [.int 2, .int 3]), ("left", .arr [.int 1])]) =
      [⟨"/a~1b~0/0", .int 1, .int 2⟩, ⟨"/a~1b~0/1", missingMark, .int 3⟩, ⟨"/left/1", .int 2, missingMark⟩] := by
  decide +kernel

/-- The entry under the empty name is reported as the whole document. -/
theorem emptyName_taken_for_root :
    compareReplayValues (fun _ => 0) (.obj [("", .int 1)]) (.obj [("", .int 2)]) = [⟨"/", .int 1, .int 2⟩] ∧
    compareReplayValues (fun _ => 0) (.obj [("", .int 1)]) (.int 2) = [⟨"/", .obj [("", .int 1)], .int 2⟩] ∧
    ¬ExactComparison (fun _ => 0) (.obj [("", .int 1)]) (.obj [("", .int 2)]) := by
  refine ⟨by decide +kernel, by decide +kernel, fun hexact => ?_⟩
  have hreports : compareReplayValues (fun _ => 0) (.obj [("", .int 1)]) (.obj [("", .int 2)]) = [⟨"/", .int 1, .int 2⟩] := by
    decide +kernel
  have hlocated := hexact.located ⟨"/", .int 1, .int 2⟩ (hreports ▸ List.mem_singleton_self _)
  obtain h | ⟨h, -⟩ := hlocated.original
  · cases h
  · cases h

end Nsl
