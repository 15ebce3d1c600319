import Nsl.ApprovalResume
import Nsl.Canonical
import Nsl.JsonBoundary
/-!
# SafeSummary — the summary an approver sees

`_freeze_summary` and `_summary_to_data` (`approval.py`): lists become tuples in a request and lists again in its document.
A summary is written as one JSON document, whatever its lists were, and two summaries with one document are equal once they
are frozen. What is read back of a summary's document is a summary again.
-/
namespace Nsl

open Value

section SafeSummary

/-! ## Freezing -/

mutual
/-- `_freeze_summary` -/
def freezeSummary (path : String) : Value → Except Exn Value
  | .null        => .ok .null
  | .str s       => .ok (.str s)
  | .int i       => .ok (.int i)
  | .bool b      => .ok (.bool b)
  | .float t     =>
    if t ∈ ["nan", "inf", "-inf"] then .error (.value (path ++ " contains a non-finite number")) else .ok (.float t)
  | .dict items  => (freezeSummaryFields path items).map .dict
  | .list items  => (freezeSummaryItems path 0 items).map .tuple
  | .tuple items => (freezeSummaryItems path 0 items).map .tuple
  | _            => .error (.type (path ++ " contains a non-JSON-safe value"))
def freezeSummaryItems (path : String) (index : Nat) : List Value → Except Exn (List Value)
  | []      => .ok []
  | v :: vs => do return (← freezeSummary (path ++ "[" ++ toString index ++ "]") v) :: (← freezeSummaryItems path (index + 1) vs)
def freezeSummaryFields (path : String) : List (String × Value) → Except Exn (List (String × Value))
  | []           => .ok []
  | (k, v) :: vs =>
    if Text.isBlank k then .error (.value (path ++ " keys must be non-empty strings"))
    else do return (k, ← freezeSummary (path ++ "." ++ k) v) :: (← freezeSummaryFields path vs)
end

mutual
/-- `_summary_to_data` -/
def summaryToData : Value → Value
  | .dict items  => .dict (summaryFields items)
  | .tuple items => .list (summaryItems items)
  | v            => v
def summaryItems : List Value → List Value
  | []      => []
  | v :: vs => summaryToData v :: summaryItems vs
def summaryFields : List (String × Value) → List (String × Value)
  | []           => []
  | (k, v) :: vs => (k, summaryToData v) :: summaryFields vs
end

mutual
/-- A summary with a tuple for every list. -/
def frozen : Value → Value
  | .dict items                => .dict (frozenFields items)
  | .list items | .tuple items => .tuple (frozenItems items)
  | v                          => v
def frozenItems : List Value → List Value
  | []      => []
  | v :: vs => frozen v :: frozenItems vs
def frozenFields : List (String × Value) → List (String × Value)
  | []           => []
  | (k, v) :: vs => (k, frozen v) :: frozenFields vs
end

mutual
/-- A summary is frozen as it is. -/
theorem freezeSummary_safe : ∀ {v : Value} (path : String), isSafeSummary v = true → freezeSummary path v = .ok (frozen v)
  | .null, _, _ | .str _, _, _ | .int _, _, _ | .bool _, _, _ => rfl
  | .float t, path, h     => if_neg (of_decide_eq_true h)
  | .dict items, path, h  => by rw [freezeSummary, freezeSummaryFields_safe path h]; rfl
  | .list items, path, h  => by rw [freezeSummary, freezeSummaryItems_safe path 0 h]; rfl
  | .tuple items, path, h => by rw [freezeSummary, freezeSummaryItems_safe path 0 h]; rfl
theorem freezeSummaryItems_safe : ∀ {vs : List Value} (path : String) (index : Nat), areSafeSummaries vs = true →
    freezeSummaryItems path index vs = .ok (frozenItems vs)
  | [], _, _, _              => rfl
  | v :: vs, path, index, h => by
    obtain ⟨hv, hvs⟩ := Bool.and_eq_true_iff.1 h
    rw [freezeSummaryItems, freezeSummary_safe _ hv, freezeSummaryItems_safe path (index + 1) hvs]
    rfl
theorem freezeSummaryFields_safe : ∀ {vs : List (String × Value)} (path : String), areSafeFields vs = true →
    freezeSummaryFields path vs = .ok (frozenFields vs)
  | [], _, _              => rfl
  | (k, v) :: vs, path, h => by
    simp only [areSafeFields, Bool.and_eq_true, Bool.not_eq_true'] at h
    obtain ⟨⟨hk, hv⟩, hvs⟩ := h
    rw [freezeSummaryFields, hk, freezeSummary_safe _ hv, freezeSummaryFields_safe path hvs]
    rfl
end

mutual
/-- **What is frozen is a summary.** -/
theorem safe_of_freezeSummary : ∀ {v w : Value} {path : String}, freezeSummary path v = .ok w → isSafeSummary v = true
  | .null, _, _, _ | .str _, _, _, _ | .int _, _, _, _ | .bool _, _, _, _ => rfl
  | .float t, _, path, h     => by
    unfold freezeSummary at h
    split at h
    · cases h
    · rename_i hfinite
      exact decide_eq_true hfinite
  | .dict items, _, path, h  => by
    obtain ⟨ws, hws, -⟩ := map_ok_iff.1 h
    exact safe_of_freezeSummaryFields hws
  | .list items, _, path, h  => by
    obtain ⟨ws, hws, -⟩ := map_ok_iff.1 h
    exact safe_of_freezeSummaryItems hws
  | .tuple items, _, path, h => by
    obtain ⟨ws, hws, -⟩ := map_ok_iff.1 h
    exact safe_of_freezeSummaryItems hws
  | .decimal _, _, _, h | .money _, _, _, h | .date _, _, _, h | .datetime _, _, _, h | .foreign _, _, _, h => by cases h
theorem safe_of_freezeSummaryItems : ∀ {vs ws : List Value} {path : String} {index : Nat},
    freezeSummaryItems path index vs = .ok ws → areSafeSummaries vs = true
  | [], _, _, _, _              => rfl
  | v :: vs, _, path, index, h => by
    obtain ⟨w, hw, h⟩ := Stateful.bind_eq_ok h
    obtain ⟨ws, hws, -⟩ := Stateful.bind_eq_ok h
    rw [areSafeSummaries, safe_of_freezeSummary hw, safe_of_freezeSummaryItems hws]
    rfl
theorem safe_of_freezeSummaryFields : ∀ {vs ws : List (String × Value)} {path : String},
    freezeSummaryFields path vs = .ok ws → areSafeFields vs = true
  | [], _, _, _              => rfl
  | (k, v) :: vs, _, path, h => by
    unfold freezeSummaryFields at h
    split at h
    · cases h
    · rename_i hk
      obtain ⟨w, hw, h⟩ := Stateful.bind_eq_ok h
      obtain ⟨ws, hws, -⟩ := Stateful.bind_eq_ok h
      rw [areSafeFields, safe_of_freezeSummary hw, safe_of_freezeSummaryFields hws, Bool.not_eq_true _ |>.mp hk]
      rfl
end

/-! ## The document of a summary -/

mutual
/-- **A summary's document does not depend on its tuples.** -/
theorem summaryToData_wire : ∀ (v : Value), (summaryToData (frozen v)).wire = v.wire
  | .null | .bool _ | .int _ | .float _ | .str _ | .decimal _ | .money _ | .date _ | .datetime _ | .foreign _ => rfl
  | .list items | .tuple items => by rw [frozen, summaryToData, wire, wire, summaryItems_wire items]
  | .dict items                => by rw [frozen, summaryToData, wire, wire, summaryFields_wire items]
theorem summaryItems_wire : ∀ (vs : List Value), wireItems (summaryItems (frozenItems vs)) = wireItems vs
  | []      => rfl
  | v :: vs => by rw [frozenItems, summaryItems, wireItems, wireItems, summaryToData_wire v, summaryItems_wire vs]
theorem summaryFields_wire : ∀ (vs : List (String × Value)), wireFields (summaryFields (frozenFields vs)) = wireFields vs
  | []           => rfl
  | (k, v) :: vs => by rw [frozenFields, summaryFields, wireFields, wireFields, summaryToData_wire v, summaryFields_wire vs]
end

mutual
/-- A value that `json.dumps` takes is written as its document. -/
theorem toJson_wire : ∀ {v : Value}, v.isJson = true → toJson v = .ok v.wire
  | .null, _ | .bool _, _ | .int _, _ | .float _, _ | .str _, _ => rfl
  | .list items, h | .tuple items, h => by rw [toJson, toJsonItems_wire h, wire]; rfl
  | .dict items, h                   => by rw [toJson, toJsonFields_wire h, wire]; rfl
theorem toJsonItems_wire : ∀ {vs : List Value}, itemsJson vs = true → toJsonItems vs = .ok (wireItems vs)
  | [], _      => rfl
  | v :: vs, h => by
    obtain ⟨hv, hvs⟩ := Bool.and_eq_true_iff.1 h
    rw [toJsonItems, toJson_wire hv, toJsonItems_wire hvs, wireItems]
    rfl
theorem toJsonFields_wire : ∀ {vs : List (String × Value)}, fieldsJson vs = true → toJsonFields vs = .ok (wireFields vs)
  | [], _           => rfl
  | (k, v) :: vs, h => by
    obtain ⟨hv, hvs⟩ := Bool.and_eq_true_iff.1 h
    rw [toJsonFields, toJson_wire hv, toJsonFields_wire hvs, wireFields]
    rfl
end

mutual
theorem summaryToData_isJson : ∀ {v : Value}, isSafeSummary v = true → (summaryToData (frozen v)).isJson = true
  | .null, _ | .bool _, _ | .int _, _ | .float _, _ | .str _, _ => rfl
  | .list _, h | .tuple _, h => summaryItems_json h
  | .dict _, h               => summaryFields_json h
theorem summaryItems_json : ∀ {vs : List Value}, areSafeSummaries vs = true →
    itemsJson (summaryItems (frozenItems vs)) = true
  | [], _      => rfl
  | v :: vs, h => by
    obtain ⟨hv, hvs⟩ := Bool.and_eq_true_iff.1 h
    rw [frozenItems, summaryItems, itemsJson, summaryToData_isJson hv, summaryItems_json hvs]
    rfl
theorem summaryFields_json : ∀ {vs : List (String × Value)}, areSafeFields vs = true →
    fieldsJson (summaryFields (frozenFields vs)) = true
  | [], _           => rfl
  | (k, v) :: vs, h => by
    simp only [areSafeFields, Bool.and_eq_true] at h
    rw [frozenFields, summaryFields, fieldsJson, summaryToData_isJson h.1.2, summaryFields_json h.2]
    rfl
end

/-! ## One document, one summary -/

theorem frozenItems_eq (vs : List Value) : frozenItems vs = vs.map frozen := by
  induction vs with
  | nil          => rfl
  | cons v vs ih => rw [frozenItems, ih, List.map_cons]

theorem frozenFields_lookup (k : String) (vs : List (String × Value)) :
    (frozenFields vs).lookup k = (vs.lookup k).map frozen := by
  induction vs with
  | nil           => rfl
  | cons kv vs ih =>
    obtain ⟨k', v⟩ := kv
    rw [frozenFields, List.lookup_cons, List.lookup_cons, ih]
    cases k == k' <;> rfl

theorem areSafeFields_iff (vs : List (String × Value)) :
    areSafeFields vs = true ↔ ∀ kv ∈ vs, Text.isBlank kv.1 = false ∧ isSafeSummary kv.2 = true := by
  induction vs with
  | nil           => simp [areSafeFields]
  | cons kv vs ih =>
    obtain ⟨k, v⟩ := kv
    rw [areSafeFields, Bool.and_eq_true, Bool.and_eq_true, Bool.not_eq_true', ih, List.forall_mem_cons]

theorem safe_of_lookup {vs : List (String × Value)} {k : String} {v : Value} (h : areSafeFields vs = true)
    (hk : vs.lookup k = some v) : isSafeSummary v = true :=
  ((areSafeFields_iff vs).1 h (k, v) (mem_of_lookup hk)).2

variable {float : List Char → String}

theorem printed_of_lookup {vs : List (String × Value)} {k : String} {v : Value}
    (h : Json.PrintedFields float (wireFields vs)) (hk : vs.lookup k = some v) : Json.Printed float v.wire := by
  have hmem : (k, v.wire) ∈ wireFields vs := mem_of_lookup (by rw [wireFields_lookup, hk, Option.map_some])
  exact (Json.printedFields_iff float _).1 h _ hmem

mutual
/-- **Two summaries with one document are equal** once they are frozen. -/
theorem frozen_equal : ∀ {v w : Value}, isSafeSummary v = true → isSafeSummary w = true → Json.Printed float v.wire →
    Json.Printed float w.wire → v.wire.Same w.wire → (frozen v).Equal (frozen w)
  | .null, w, _, hw, _, _, h       => by
    cases w <;> cases h
    exact .null
  | .bool b, w, _, hw, _, _, h     => by
    cases w <;> cases h
    exact .bool b
  | .int i, w, _, hw, _, _, h      => by
    cases w <;> cases h
    exact .int i
  | .float s, w, _, hw, _, _, h    => by
    cases w <;> cases h
    exact .float s
  | .str s, w, _, hw, _, _, h      => by
    cases w <;> cases h
    · exact .str s
    · cases hw
  | .list vs, w, hv, hw, pv, pw, h => by
    cases w with
    | list ws | tuple ws => exact .tuple (frozenItems_equal hv hw pv pw (Json.arr.inj h))
    | dict | null | bool | int | float | str => cases h
    | decimal | money | date | datetime | foreign => cases hw
  | .tuple vs, w, hv, hw, pv, pw, h => by
    cases w with
    | list ws | tuple ws => exact .tuple (frozenItems_equal hv hw pv pw (Json.arr.inj h))
    | dict | null | bool | int | float | str => cases h
    | decimal | money | date | datetime | foreign => cases hw
  | .dict vs, w, hv, hw, pv, pw, h => by
    cases w with
    | dict ws =>
      refine .dict fun k => ?_
      have hlookup := Json.Same.lookup h pv.1 pw.1 k
      rw [wireFields_lookup, wireFields_lookup] at hlookup
      rw [frozenFields_lookup, frozenFields_lookup]
      cases hk : vs.lookup k with
      | none   =>
        cases hk' : ws.lookup k with
        | none   => exact .none
        | some w =>
          rw [hk, hk'] at hlookup
          cases hlookup
      | some v =>
        cases hk' : ws.lookup k with
        | none   =>
          rw [hk, hk'] at hlookup
          cases hlookup
        | some w =>
          rw [hk, hk'] at hlookup
          exact .some (frozenFields_equal hv pv.2 hk (safe_of_lookup hw hk') (printed_of_lookup pw.2 hk')
            (Option.some.inj hlookup))
    | list | tuple | null | bool | int | float | str => cases h
    | decimal | money | date | datetime | foreign => cases hw
theorem frozenItems_equal : ∀ {vs ws : List Value}, areSafeSummaries vs = true → areSafeSummaries ws = true →
    Json.PrintedItems float (wireItems vs) → Json.PrintedItems float (wireItems ws) →
    Json.sortedItems (wireItems vs) = Json.sortedItems (wireItems ws) →
    List.Forall₂ Value.Equal (frozenItems vs) (frozenItems ws)
  | [], [], _, _, _, _, _                 => .nil
  | [], _ :: _, _, _, _, _, h             => by cases h
  | _ :: _, [], _, _, _, _, h             => by cases h
  | v :: vs, w :: ws, hv, hw, pv, pw, h => by
    obtain ⟨hv, hvs⟩ := Bool.and_eq_true_iff.1 hv
    obtain ⟨hw, hws⟩ := Bool.and_eq_true_iff.1 hw
    obtain ⟨hfirst, hrest⟩ := List.cons.inj h
    exact .cons (frozen_equal hv hw pv.1 pw.1 hfirst) (frozenItems_equal hvs hws pv.2 pw.2 hrest)
theorem frozenFields_equal : ∀ {vs : List (String × Value)}, areSafeFields vs = true →
    Json.PrintedFields float (wireFields vs) → ∀ {k : String} {v w : Value}, vs.lookup k = some v →
    isSafeSummary w = true → Json.Printed float w.wire → v.wire.Same w.wire → (frozen v).Equal (frozen w)
  | [], _, _, _, _, _, hk, _, _, _           => by cases hk
  | (l, u) :: vs, hv, pv, k, v, w, hk, hw, pw, h => by
    simp only [areSafeFields, Bool.and_eq_true] at hv
    rw [List.lookup_cons] at hk
    split at hk
    · cases hk
      exact frozen_equal hv.1.2 hw pv.1 pw h
    · exact frozenFields_equal hv.2 pv.2 hk hw pw h
end

/-! ## Reading a summary back -/

mutual
theorem wire_ofJson : ∀ (x : Json), (ofJson x).wire = x
  | .null | .bool _ | .int _ | .float _ | .str _ => rfl
  | .arr xs                                      => by rw [ofJson, wire, wireItems_ofJson xs]
  | .obj xs                                      => by rw [ofJson, wire, wireFields_ofJson xs]
theorem wireItems_ofJson : ∀ (xs : List Json), wireItems (ofJsonItems xs) = xs
  | []      => rfl
  | x :: xs => by rw [ofJsonItems, wireItems, wire_ofJson x, wireItems_ofJson xs]
theorem wireFields_ofJson : ∀ (xs : List (String × Json)), wireFields (ofJsonFields xs) = xs
  | []           => rfl
  | (k, x) :: xs => by rw [ofJsonFields, wireFields, wire_ofJson x, wireFields_ofJson xs]
end

theorem ofJsonFields_eq (xs : List (String × Json)) : ofJsonFields xs = xs.map (fun kx => (kx.1, ofJson kx.2)) := by
  induction xs with
  | nil           => rfl
  | cons kx xs ih =>
    obtain ⟨k, x⟩ := kx
    rw [ofJsonFields, ih, List.map_cons]

/-- What is read back of a summary's fields, in the order of the document. -/
def readFields (vs : List (String × Value)) : List (String × Value) :=
  ofJsonFields (Json.sortKeys (Json.sortedFields (wireFields vs)))

theorem mem_readFields {vs : List (String × Value)} {kw : String × Value} (h : kw ∈ readFields vs) :
    ∃ kv ∈ vs, kw = (kv.1, ofJson kv.2.wire.sorted) := by
  unfold readFields at h
  rw [ofJsonFields_eq] at h
  obtain ⟨kx, hkx, rfl⟩ := List.mem_map.1 h
  rw [(Json.sortKeys_perm _).mem_iff, Json.sortedFields_eq, wireFields_eq, List.map_map] at hkx
  obtain ⟨kv, hkv, rfl⟩ := List.mem_map.1 hkx
  exact ⟨kv, hkv, rfl⟩

mutual
/-- **What is read back of a summary is one.** -/
theorem read_safe : ∀ {v : Value}, isSafeSummary v = true → isSafeSummary (ofJson v.wire.sorted) = true
  | .null, _ | .bool _, _ | .int _, _ | .str _, _ => rfl
  | .float _, h                                   => h
  | .list _, h | .tuple _, h                      => readItems_safe h
  | .dict vs, h                                   => by
    show areSafeFields (readFields vs) = true
    rw [areSafeFields_iff]
    intro kw hkw
    obtain ⟨kv, hkv, rfl⟩ := mem_readFields hkw
    exact ⟨((areSafeFields_iff vs).1 h kv hkv).1, readFields_safe h kv hkv⟩
theorem readItems_safe : ∀ {vs : List Value}, areSafeSummaries vs = true →
    areSafeSummaries (ofJsonItems (Json.sortedItems (wireItems vs))) = true
  | [], _      => rfl
  | v :: vs, h => by
    obtain ⟨hv, hvs⟩ := Bool.and_eq_true_iff.1 h
    rw [wireItems, Json.sortedItems, ofJsonItems, areSafeSummaries, read_safe hv, readItems_safe hvs]
    rfl
theorem readFields_safe : ∀ {vs : List (String × Value)}, areSafeFields vs = true → ∀ kv ∈ vs,
    isSafeSummary (ofJson kv.2.wire.sorted) = true
  | [], _, _, hkv            => by cases hkv
  | (k, v) :: vs, h, kv, hkv => by
    simp only [areSafeFields, Bool.and_eq_true] at h
    rcases List.mem_cons.1 hkv with rfl | hkv
    · exact read_safe h.1.2
    · exact readFields_safe h.2 kv hkv
end

/-- **What is read back of a summary is equal to it**, once both are frozen. -/
theorem read_equal {v : Value} (h : isSafeSummary v = true) (hp : Json.Printed float v.wire) :
    (frozen (ofJson v.wire.sorted)).Equal (frozen v) := by
  have hread : (ofJson v.wire.sorted).wire = v.wire.sorted := wire_ofJson _
  refine frozen_equal (read_safe h) h ?_ hp ?_
  · rw [hread]
    exact Json.sorted_printed float _ hp
  · rw [Json.Same, hread, Json.sorted_sorted]

/-! ## Credential material -/

variable {word : Char → Bool}

theorem orElse_none_iff {α : Type} {x y : Option α} : (x.orElse fun _ => y) = none ↔ x = none ∧ y = none := by
  cases x <;> simp

mutual
/-- Where a value stands makes no difference to whether it holds credential material. -/
theorem findCredentialPath_anywhere : ∀ (v : Value) (p q : String), findCredentialPath word p v = none →
    findCredentialPath word q v = none
  | .dict items, p, q  => by
    rw [findCredentialPath, findCredentialPath]
    exact findInFields_anywhere items p q
  | .list items, p, q | .tuple items, p, q  => by
    rw [findCredentialPath, findCredentialPath]
    exact findInItems_anywhere items p q 0 0
  | .str s, p, q       => by
    rw [findCredentialPath, findCredentialPath]
    split
    · exact id
    · intro h
      cases h
  | .null, _, _ | .bool _, _, _ | .int _, _, _ | .float _, _, _ | .decimal _, _, _ | .money _, _, _
  | .date _, _, _ | .datetime _, _, _ | .foreign _, _, _ => fun _ => rfl
theorem findInItems_anywhere : ∀ (vs : List Value) (p q : String) (m n : Nat), findInItems word p m vs = none →
    findInItems word q n vs = none
  | [], _, _, _, _      => fun _ => rfl
  | v :: vs, p, q, m, n => by
    intro h
    rw [findInItems, orElse_none_iff] at h ⊢
    exact ⟨findCredentialPath_anywhere v _ _ h.1, findInItems_anywhere vs p q _ _ h.2⟩
theorem findInFields_anywhere : ∀ (vs : List (String × Value)) (p q : String), findInFields word p vs = none →
    findInFields word q vs = none
  | [], _, _           => fun _ => rfl
  | (k, v) :: vs, p, q => by
    intro h
    rw [findInFields] at h ⊢
    split at h
    · cases h
    · rename_i hkey
      rw [if_neg hkey]
      split at h
      · cases h
      · rename_i hcredential
        rw [if_neg hcredential]
        rw [orElse_none_iff] at h ⊢
        exact ⟨findCredentialPath_anywhere v _ _ h.1, findInFields_anywhere vs p q h.2⟩
end

/-- **The fields of a document without credential material**: no key holds any or names what may not be shown. -/
theorem findInFields_none_iff {p : String} {vs : List (String × Value)} : findInFields word p vs = none ↔
    ∀ kv ∈ vs, redactText word kv.1 [] = kv.1 ∧ (isCredentialKey kv.1 = true → kv.2 = .null ∨ kv.2 = .str "") ∧
      findCredentialPath word p kv.2 = none := by
  induction vs with
  | nil           => simp [findInFields]
  | cons kv vs ih =>
    obtain ⟨k, v⟩ := kv
    rw [findInFields, List.forall_mem_cons, ← ih]
    by_cases hkey : redactText word k [] = k
    · rw [if_neg (not_not.2 hkey)]
      by_cases hcredential : isCredentialKey k = true ∧ v ≠ .null ∧ v ≠ .str ""
      · rw [if_pos hcredential]
        refine ⟨fun h => (by cases h), fun h => ?_⟩
        rcases h.1.2.1 hcredential.1 with hnull | hempty
        · exact absurd hnull hcredential.2.1
        · exact absurd hempty hcredential.2.2
      · rw [if_neg hcredential, orElse_none_iff]
        have hmissing : isCredentialKey k = true → v = .null ∨ v = .str "" := by
          intro hk
          by_contra hne
          rw [not_or] at hne
          exact hcredential ⟨hk, hne⟩
        exact ⟨fun h => ⟨⟨hkey, hmissing, findCredentialPath_anywhere v _ _ h.1⟩, h.2⟩,
          fun h => ⟨findCredentialPath_anywhere v _ _ h.1.2.2, h.2⟩⟩
    · rw [if_pos hkey]
      exact ⟨fun h => (by cases h), fun h => absurd h.1.1 hkey⟩

mutual
/-- **What is read back of a summary without credential material holds none.** -/
theorem read_clean : ∀ (v : Value) (p q : String), isSafeSummary v = true → findCredentialPath word p v = none →
    findCredentialPath word q (ofJson v.wire.sorted) = none
  | .null, _, _ | .bool _, _, _ | .int _, _, _ | .float _, _, _ => fun _ _ => rfl
  | .str s, p, q => fun _ => findCredentialPath_anywhere (.str s) p q
  | .list vs, p, q | .tuple vs, p, q => by
    intro hs h
    rw [findCredentialPath] at h
    show findInItems word q 0 (ofJsonItems (Json.sortedItems (wireItems vs))) = none
    exact readItems_clean vs p q 0 0 hs h
  | .dict vs, p, q => by
    intro hs h
    rw [findCredentialPath, findInFields_none_iff] at h
    show findInFields word q (readFields vs) = none
    rw [findInFields_none_iff]
    intro kw hkw
    obtain ⟨kv, hkv, rfl⟩ := mem_readFields hkw
    refine ⟨(h kv hkv).1, fun hcredential => ?_, readFields_clean vs p q hs (fun kv hkv => (h kv hkv).2.2) kv hkv⟩
    rcases (h kv hkv).2.1 hcredential with hnull | hempty
    · left
      rw [hnull]
      rfl
    · right
      rw [hempty]
      rfl
  | .decimal _, _, _ | .money _, _, _ | .date _, _, _ | .datetime _, _, _ | .foreign _, _, _ => fun hs => by cases hs
theorem readItems_clean : ∀ (vs : List Value) (p q : String) (m n : Nat), areSafeSummaries vs = true →
    findInItems word p m vs = none → findInItems word q n (ofJsonItems (Json.sortedItems (wireItems vs))) = none
  | [], _, _, _, _      => fun _ _ => rfl
  | v :: vs, p, q, m, n => by
    intro hs h
    obtain ⟨hv, hvs⟩ := Bool.and_eq_true_iff.1 hs
    rw [findInItems, orElse_none_iff] at h
    show findInItems word q n (ofJson v.wire.sorted :: ofJsonItems (Json.sortedItems (wireItems vs))) = none
    rw [findInItems, orElse_none_iff]
    exact ⟨read_clean v _ _ hv h.1, readItems_clean vs p q _ _ hvs h.2⟩
theorem readFields_clean : ∀ (vs : List (String × Value)) (p q : String), areSafeFields vs = true →
    (∀ kv ∈ vs, findCredentialPath word p kv.2 = none) →
    ∀ kv ∈ vs, findCredentialPath word q (ofJson kv.2.wire.sorted) = none
  | [], _, _           => fun _ _ kv hkv => by cases hkv
  | (k, v) :: vs, p, q => by
    intro hs h kv hkv
    simp only [areSafeFields, Bool.and_eq_true] at hs
    rw [List.forall_mem_cons] at h
    rcases List.mem_cons.1 hkv with rfl | hkv
    · exact read_clean v p q hs.1.2 h.1
    · exact readFields_clean vs p q hs.2 h.2 kv hkv
end

end SafeSummary

end Nsl
