import Nsl.ResumeClaims
/-!
# JsonBoundary — documents at the boundary

`load_strict_json`, and the check that an object has exactly the fields of its kind, with the errors of the caller. A
document that was written with `canonical_json` is read with its keys in order, and holds the fields it was written with.
-/
namespace Json

theorem sortKeys_pairwise {α : Type} (fields : List (String × α)) : (sortKeys fields).Pairwise KeyLe := by
  have : Std.Total (KeyLe (α := α)) := ⟨fun a b => le_total a.1 b.1⟩
  have : IsTrans (String × α) KeyLe := ⟨fun _ _ _ => le_trans⟩
  exact List.pairwise_insertionSort _ _

theorem sortKeys_sorted {α : Type} {fields : List (String × α)} (h : fields.Pairwise KeyLe) :
    sortKeys fields = fields := List.Pairwise.insertionSort_eq h

theorem sortedFields_eq (fields : List (String × Json)) :
    sortedFields fields = fields.map (fun kx => (kx.1, kx.2.sorted)) := by
  induction fields with
  | nil           => rfl
  | cons kx fs ih =>
    obtain ⟨k, x⟩ := kx
    rw [sortedFields, ih, List.map_cons]

mutual
/-- **Sorting a sorted document changes nothing.** -/
theorem sorted_sorted : ∀ (x : Json), x.sorted.sorted = x.sorted
  | .null | .bool _ | .int _ | .float _ | .str _ => rfl
  | .arr xs     => by rw [sorted, sorted, sortedItems_sorted xs]
  | .obj fields => by
    have hentry : ∀ kx ∈ sortKeys (sortedFields fields), (kx.1, kx.2.sorted) = id kx := fun kx hkx =>
      Prod.ext rfl (sortedFields_entry fields kx ((sortKeys_perm _).mem_iff.1 hkx))
    have hfields : sortedFields (sortKeys (sortedFields fields)) = sortKeys (sortedFields fields) := by
      rw [sortedFields_eq, List.map_congr_left hentry, List.map_id]
    rw [sorted, sorted, hfields, sortKeys_sorted (sortKeys_pairwise _)]
theorem sortedItems_sorted : ∀ (xs : List Json), sortedItems (sortedItems xs) = sortedItems xs
  | []      => rfl
  | x :: xs => by rw [sortedItems, sortedItems, sorted_sorted x, sortedItems_sorted xs]
/-- Every entry of a document with sorted entries is sorted. -/
theorem sortedFields_entry : ∀ (fields : List (String × Json)), ∀ kx ∈ sortedFields fields, kx.2.sorted = kx.2
  | [], _, h           => by cases h
  | (k, x) :: fs, kx, h => by
    rcases List.mem_cons.1 h with rfl | h
    · exact sorted_sorted x
    · exact sortedFields_entry fs kx h
end

end Json

namespace Nsl

open Claims (faultText namesText)

variable {float : List Char → String} {error : String → String → Exn}

/-- `load_strict_json` -/
def loadStrictJson (float : List Char → String) (error : String → String → Exn) (data : ByteArray) : Except Exn Json :=
  match String.fromUTF8? data with
  | none      => .error (error "$" "expected UTF-8 JSON")
  | some text => (Json.loads float text).mapError (fun fault => error "$" (faultText fault))

/-- The entries of an object with exactly these fields. -/
def exactEntries (error : String → String → Exn) (value : Json) (path : String) (fields : List String) :
    Except Exn (List (String × Json)) :=
  match value with
  | .obj entries =>
    let missing := fields.filter (· ∉ entries.map Prod.fst)
    let unexpected := (entries.map Prod.fst).filter (· ∉ fields)
    if missing ≠ [] then .error (error path ("missing fields: " ++ namesText missing))
    else if unexpected ≠ [] then .error (error path ("unexpected fields: " ++ namesText unexpected))
    else .ok entries
  | _ => .error (error path "expected object")

/-- `value[name]` of an object that has the field. -/
def entry (entries : List (String × Json)) (name : String) : Json := (entries.lookup name).getD .null

/-- `canonical_json` of a document, as bytes. -/
def canonicalBytes (value : Json) : ByteArray := (Json.dumps value).toUTF8

/-- `data == data'` -/
def sameBytes (data data' : ByteArray) : Bool := data.data = data'.data

theorem sameBytes_iff {data data' : ByteArray} : sameBytes data data' = true ↔ data = data' := by
  rw [sameBytes, decide_eq_true_eq, ByteArray.ext_iff]

theorem fromUTF8?_ofText (s : String) : String.fromUTF8? s.toUTF8 = some s := dif_pos s.isValidUTF8

/-- **What was written is read.** -/
theorem loadStrictJson_canonical {value : Json} (h : Json.Printed float value) :
    loadStrictJson float error (canonicalBytes value) = .ok value.sorted := by
  unfold loadStrictJson canonicalBytes
  rw [fromUTF8?_ofText]
  dsimp only
  rw [Json.loads_dumps float h]
  rfl

theorem canonicalBytes_inj {value value' : Json} (h : canonicalBytes value = canonicalBytes value') :
    Json.dumps value = Json.dumps value' := by
  have htext := congrArg String.fromUTF8? h
  unfold canonicalBytes at htext
  rw [fromUTF8?_ofText, fromUTF8?_ofText] at htext
  exact Option.some.inj htext

/-- What an object that passes is. -/
theorem exactEntries_ok {value : Json} {path : String} {fields : List String} {entries : List (String × Json)}
    (h : exactEntries error value path fields = .ok entries) :
    value = .obj entries ∧ ∀ k, k ∈ fields ↔ k ∈ entries.map Prod.fst := by
  unfold exactEntries at h
  split at h
  · rename_i entries'
    dsimp only at h
    split at h
    · cases h
    · rename_i hmissing
      split at h
      · cases h
      · rename_i hunexpected
        cases h
        rw [not_not, List.filter_eq_nil_iff] at hmissing hunexpected
        refine ⟨rfl, fun k => ⟨fun hk => ?_, fun hk => ?_⟩⟩
        · simpa using hmissing k hk
        · simpa using hunexpected k hk
  · cases h

/-- **An object read back passes** with the fields it was written with, whatever their order. -/
theorem exactEntries_sorted {written : List (String × Json)} {path : String} {fields : List String}
    (honce : KeysOnce written) (hfields : ∀ k, k ∈ fields ↔ k ∈ written.map Prod.fst) :
    ∃ entries, exactEntries error (Json.obj written).sorted path fields = .ok entries ∧
      ∀ k, entries.lookup k = (written.lookup k).map Json.sorted := by
  refine ⟨Json.sortKeys (Json.sortedFields written), ?_, Json.get?_sorted honce⟩
  have hkeys : ∀ k, k ∈ (Json.sortKeys (Json.sortedFields written)).map Prod.fst ↔ k ∈ fields := by
    intro k
    rw [((Json.sortKeys_perm _).map Prod.fst).mem_iff, Json.sortedFields_keys, hfields]
  have hmissing : fields.filter (· ∉ (Json.sortKeys (Json.sortedFields written)).map Prod.fst) = [] := by
    rw [List.filter_eq_nil_iff]
    intro k hk
    simpa using (hkeys k).2 hk
  have hunexpected : ((Json.sortKeys (Json.sortedFields written)).map Prod.fst).filter (· ∉ fields) = [] := by
    rw [List.filter_eq_nil_iff]
    intro k hk
    simpa using (hkeys k).1 hk
  rw [Json.sorted, exactEntries]
  simp only [hmissing, hunexpected, ne_eq, not_true_eq_false, if_false]

end Nsl
