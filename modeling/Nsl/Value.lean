import Nsl.Core
import Nsl.Base.Calendar
import Nsl.Base.Json
/-!
# Value — what the interpreter computes with

Python values as the source uses them, the envelope of a value and the JSON form of a value (`encode_value`). A value is
immutable here: no component of the source writes into a list or a dictionary it was given.
-/
namespace Nsl

open Calendar (Date DateTime)

inductive Value
  | null
  | bool (b : Bool)
  | int (i : Int)
  /-- a `float`, by its `repr` -/
  | float (text : String)
  | str (s : String)
  | decimal (d : Decimal)
  | money (m : Money)
  | date (d : Date)
  | datetime (t : DateTime)
  | list (items : List Value)
  | tuple (items : List Value)
  /-- a dictionary with string keys -/
  | dict (items : List (String × Value))
  /-- an object of any other class; nothing below looks inside it -/
  | foreign (label : String)

namespace Value

/-! ## Equality -/

mutual
def beq : Value → Value → Bool
  | .null,       .null       => true
  | .bool b,     .bool c     => b = c
  | .int i,      .int j      => i = j
  | .float s,    .float t    => s = t
  | .str s,      .str t      => s = t
  | .decimal d,  .decimal e  => d = e
  | .money m,    .money n    => m = n
  | .date d,     .date e     => d = e
  | .datetime t, .datetime u => t = u
  | .list xs,    .list ys    => beqItems xs ys
  | .tuple xs,   .tuple ys   => beqItems xs ys
  | .dict xs,    .dict ys    => beqFields xs ys
  | .foreign s,  .foreign t  => s = t
  | _,           _           => false
def beqItems : List Value → List Value → Bool
  | [],      []      => true
  | x :: xs, y :: ys => beq x y && beqItems xs ys
  | _,       _       => false
def beqFields : List (String × Value) → List (String × Value) → Bool
  | [],           []           => true
  | (k, x) :: xs, (l, y) :: ys => k = l && beq x y && beqFields xs ys
  | _,            _            => false
end

mutual
theorem beq_iff : ∀ (v w : Value), beq v w = true ↔ v = w
  | .null, w       => by cases w <;> simp [beq]
  | .bool _, w     => by cases w <;> simp [beq]
  | .int _, w      => by cases w <;> simp [beq]
  | .float _, w    => by cases w <;> simp [beq]
  | .str _, w      => by cases w <;> simp [beq]
  | .decimal _, w  => by cases w <;> simp [beq]
  | .money _, w    => by cases w <;> simp [beq]
  | .date _, w     => by cases w <;> simp [beq]
  | .datetime _, w => by cases w <;> simp [beq]
  | .list xs, w    => by cases w <;> simp [beq, beqItems_iff xs]
  | .tuple xs, w   => by cases w <;> simp [beq, beqItems_iff xs]
  | .dict xs, w    => by cases w <;> simp [beq, beqFields_iff xs]
  | .foreign _, w  => by cases w <;> simp [beq]
theorem beqItems_iff : ∀ (xs ys : List Value), beqItems xs ys = true ↔ xs = ys
  | [], ys      => by cases ys <;> simp [beqItems]
  | x :: xs, ys => by cases ys <;> simp [beqItems, beq_iff x, beqItems_iff xs]
theorem beqFields_iff : ∀ (xs ys : List (String × Value)), beqFields xs ys = true ↔ xs = ys
  | [], ys           => by cases ys <;> simp [beqFields]
  | (k, x) :: xs, ys => by
    rcases ys with _ | ⟨⟨l, y⟩, ys⟩
    · simp [beqFields]
    · simp [beqFields, beq_iff x, beqFields_iff xs, and_assoc]
end

instance : DecidableEq Value := fun v w => decidable_of_iff _ (beq_iff v w)

/-- `type(value).__name__` -/
def className : Value → String
  | .null       => "NoneType"
  | .bool _     => "bool"
  | .int _      => "int"
  | .float _    => "float"
  | .str _      => "str"
  | .decimal _  => "Decimal"
  | .money _    => "Money"
  | .date _     => "date"
  | .datetime _ => "datetime"
  | .list _     => "list"
  | .tuple _    => "tuple"
  | .dict _     => "dict"
  | .foreign l  => l

/-! ## Built-in operations the interpreter uses directly -/

/-- `value[field]` for a field name. -/
def item (v : Value) (field : String) : Except Exn Value :=
  match v with
  | .dict items =>
    match items.lookup field with
    | some w => .ok w
    | none   => .error (.lookup field)
  | .list _  => .error (.type "list indices must be integers or slices, not str")
  | .tuple _ => .error (.type "tuple indices must be integers or slices, not str")
  | .str _   => .error (.type "string indices must be integers, not 'str'")
  | _        => .error (.type ("'" ++ v.className ++ "' object is not subscriptable"))

/-- What `for item in value` goes through. -/
def iterate (v : Value) : Except Exn (List Value) :=
  match v with
  | .list items | .tuple items => .ok items
  | .dict items => .ok (items.map (fun kv => .str kv.1))
  | .str s      => .ok (s.toList.map (fun c => .str (String.ofList [c])))
  | _           => .error (.type ("'" ++ v.className ++ "' object is not iterable"))

/-- `len(value)` -/
def len (v : Value) : Except Exn Nat :=
  match v with
  | .list items | .tuple items => .ok items.length
  | .dict items => .ok items.length
  | .str s      => .ok s.length
  | _           => .error (.type ("object of type '" ++ v.className ++ "' has no len()"))

theorem iterate_length {v : Value} {items : List Value} {n : Nat} (hi : v.iterate = .ok items) (hn : v.len = .ok n) :
    items.length = n := by
  cases v <;> simp_all [iterate, len]
  case dict => rw [← hi, List.length_map, hn]
  case str => rw [← hi, List.length_map, String.length_toList, hn]

end Value

/-! ## JSON form -/

mutual
/-- `encode_value` -/
def encodeValue : Value → Value
  | .money m     => .dict [("$type", .str "Money"), ("amount", .str m.amount.formatF), ("currency", .str m.currency)]
  | .decimal d   => .dict [("$type", .str "Decimal"), ("value", .str d.formatF)]
  | .datetime t  => .dict [("$type", .str "DateTime"), ("value", .str t.isoformat)]
  | .date d      => .dict [("$type", .str "Date"), ("value", .str d.isoformat)]
  | .dict items  => .dict (encodeFields items)
  | .list items  => .list (encodeItems items)
  | .tuple items => .list (encodeItems items)
  | v            => v
def encodeItems : List Value → List Value
  | []      => []
  | v :: vs => encodeValue v :: encodeItems vs
def encodeFields : List (String × Value) → List (String × Value)
  | []           => []
  | (k, v) :: vs => (k, encodeValue v) :: encodeFields vs
end

mutual
/-- The document `json.dumps` writes for a value, or its `TypeError`. -/
def toJson : Value → Except Exn Json
  | .null        => .ok .null
  | .bool b      => .ok (.bool b)
  | .int i       => .ok (.int i)
  | .float t     => .ok (.float t)
  | .str s       => .ok (.str s)
  | .list items  => (toJsonItems items).map .arr
  | .tuple items => (toJsonItems items).map .arr
  | .dict items  => (toJsonFields items).map .obj
  | v            => .error (.type ("Object of type " ++ v.className ++ " is not JSON serializable"))
def toJsonItems : List Value → Except Exn (List Json)
  | []      => .ok []
  | v :: vs => do return (← toJson v) :: (← toJsonItems vs)
def toJsonFields : List (String × Value) → Except Exn (List (String × Json))
  | []           => .ok []
  | (k, v) :: vs => do return (k, ← toJson v) :: (← toJsonFields vs)
end

mutual
/-- A value `json.dumps` has a document for. -/
def Value.isJson : Value → Bool
  | .null | .bool _ | .int _ | .float _ | .str _ => true
  | .list items | .tuple items                   => itemsJson items
  | .dict items                                  => fieldsJson items
  | _                                            => false
def itemsJson : List Value → Bool
  | []      => true
  | v :: vs => v.isJson && itemsJson vs
def fieldsJson : List (String × Value) → Bool
  | []           => true
  | (_, v) :: vs => v.isJson && fieldsJson vs
end

mutual
/-- **`json.dumps` takes exactly these values.** -/
theorem toJson_isOk : ∀ (v : Value), (toJson v).isOk = v.isJson
  | .null | .bool _ | .int _ | .float _ | .str _ => rfl
  | .list items => by
    rw [toJson, Value.isJson, ← toJsonItems_isOk items]
    cases toJsonItems items <;> rfl
  | .tuple items => by
    rw [toJson, Value.isJson, ← toJsonItems_isOk items]
    cases toJsonItems items <;> rfl
  | .dict items => by
    rw [toJson, Value.isJson, ← toJsonFields_isOk items]
    cases toJsonFields items <;> rfl
  | .decimal _ | .money _ | .date _ | .datetime _ | .foreign _ => rfl
theorem toJsonItems_isOk : ∀ (vs : List Value), (toJsonItems vs).isOk = itemsJson vs
  | []      => rfl
  | v :: vs => by
    rw [toJsonItems, itemsJson, ← toJson_isOk v, ← toJsonItems_isOk vs]
    cases toJson v <;> cases toJsonItems vs <;> rfl
theorem toJsonFields_isOk : ∀ (vs : List (String × Value)), (toJsonFields vs).isOk = fieldsJson vs
  | []           => rfl
  | (_, v) :: vs => by
    rw [toJsonFields, fieldsJson, ← toJson_isOk v, ← toJsonFields_isOk vs]
    cases toJson v <;> cases toJsonFields vs <;> rfl
end

mutual
/-- Encoding leaves a value that JSON takes one that JSON takes. -/
theorem encodeValue_isJson : ∀ (v : Value), v.isJson = true → (encodeValue v).isJson = true
  | .null, h | .bool _, h | .int _, h | .float _, h | .str _, h => h
  | .list items, h                                   => encodeItems_json items h
  | .tuple items, h                                  => encodeItems_json items h
  | .dict items, h                                   => encodeFields_json items h
  | .decimal _, h | .money _, h | .date _, h | .datetime _, h | .foreign _, h => by cases h
theorem encodeItems_json : ∀ (vs : List Value), itemsJson vs = true → itemsJson (encodeItems vs) = true
  | [], _      => rfl
  | v :: vs, h => by
    simp only [itemsJson, Bool.and_eq_true] at h
    simp only [encodeItems, itemsJson, Bool.and_eq_true]
    exact ⟨encodeValue_isJson v h.1, encodeItems_json vs h.2⟩
theorem encodeFields_json : ∀ (vs : List (String × Value)), fieldsJson vs = true → fieldsJson (encodeFields vs) = true
  | [], _           => rfl
  | (_, v) :: vs, h => by
    simp only [fieldsJson, Bool.and_eq_true] at h
    simp only [encodeFields, fieldsJson, Bool.and_eq_true]
    exact ⟨encodeValue_isJson v h.1, encodeFields_json vs h.2⟩
end

theorem fieldsJson_setEntry (k : String) {v : Value} (hv : v.isJson = true) : ∀ {es : List (String × Value)},
    fieldsJson es = true → fieldsJson (Dict.setEntry k v es) = true
  | [], _            => by simp [Dict.setEntry, fieldsJson, hv]
  | (k', w) :: es, h => by
    simp only [fieldsJson, Bool.and_eq_true] at h
    unfold Dict.setEntry
    split
    · simp [fieldsJson, hv, h.2]
    · simp [fieldsJson, h.1, fieldsJson_setEntry k hv h.2]

/-- `canonical_json`; the bytes are the UTF-8 encoding of this text. -/
def canonicalJson (v : Value) : Except Exn String := (toJson v).map Json.dumps

mutual
/-- A document as the value `json.loads` gives for it. -/
def ofJson : Json → Value
  | .null    => .null
  | .bool b  => .bool b
  | .int i   => .int i
  | .float t => .float t
  | .str s   => .str s
  | .arr xs  => .list (ofJsonItems xs)
  | .obj xs  => .dict (ofJsonFields xs)
def ofJsonItems : List Json → List Value
  | []      => []
  | x :: xs => ofJson x :: ofJsonItems xs
def ofJsonFields : List (String × Json) → List (String × Value)
  | []           => []
  | (k, x) :: xs => (k, ofJson x) :: ofJsonFields xs
end

mutual
theorem ofJson_isJson : ∀ (j : Json), (ofJson j).isJson = true
  | .null | .bool _ | .int _ | .float _ | .str _ => rfl
  | .arr items  => ofJsonItems_json items
  | .obj fields => ofJsonFields_json fields
theorem ofJsonItems_json : ∀ (js : List Json), itemsJson (ofJsonItems js) = true
  | []      => rfl
  | j :: js => by
    rw [ofJsonItems, itemsJson, ofJson_isJson j, ofJsonItems_json js]
    rfl
theorem ofJsonFields_json : ∀ (js : List (String × Json)), fieldsJson (ofJsonFields js) = true
  | []           => rfl
  | (_, j) :: js => by
    rw [ofJsonFields, fieldsJson, ofJson_isJson j, ofJsonFields_json js]
    rfl
end

theorem itemsJson_texts {α : Type} (f : α → String) : ∀ (xs : List α), itemsJson (xs.map (fun x => .str (f x))) = true
  | []      => rfl
  | _ :: xs => itemsJson_texts f xs

mutual
/-- `TypeRef.to_data` -/
def TypeRef.toData : TypeRef → Json
  | ⟨kind, name, currency, item, fields, enumValues, _⟩ =>
    .obj ([("kind", .str kind)] ++ (name.toList.map (fun n => ("name", .str n))) ++
      (currency.toList.map (fun c => ("currency", .str c))) ++ itemToData item ++
      (if fields.isEmpty then [] else [("fields", .arr (fieldsToData fields))]) ++
      (if enumValues.isEmpty then [] else [("values", .arr (enumValues.map .str))]))
def itemToData : Option TypeRef → List (String × Json)
  | none   => []
  | some t => [("item", t.toData)]
def fieldsToData : List (String × TypeRef) → List Json
  | []           => []
  | (n, t) :: fs => .obj [("name", .str n), ("type", t.toData)] :: fieldsToData fs
end

theorem itemToData_lookup (k : String) : ∀ (i : Option TypeRef),
    (itemToData i).lookup k = if k = "item" then i.map TypeRef.toData else none
  | none   => by simp [itemToData]
  | some t => by
    by_cases hk : k = "item"
    · simp [itemToData, hk]
    · have hk' : (k == "item") = false := by simpa using hk
      simp [itemToData, hk, List.lookup_cons, hk']

/-- Two lists written only when there is something in them. -/
theorem unless_empty_inj {α : Type} {f : List α → Json} {xs ys : List α} (hf : f xs = f ys → xs = ys)
    (h : (if xs = [] then none else some (f xs)) = if ys = [] then none else some (f ys)) : xs = ys := by
  by_cases hxs : xs = []
  · by_cases hys : ys = []
    · rw [hxs, hys]
    · rw [if_pos hxs, if_neg hys] at h
      cases h
  · by_cases hys : ys = []
    · rw [if_neg hxs, if_pos hys] at h
      cases h
    · rw [if_neg hxs, if_neg hys] at h
      exact hf (Option.some.inj h)

theorem str_map_injective {o o' : Option String} (h : o.map Json.str = o'.map Json.str) : o = o' :=
  Option.map_injective (fun _ _ hs => Json.str.inj hs) h

mutual
/-- **The data of a type is that of no other.** -/
theorem TypeRef.toData_inj : ∀ {t u : TypeRef}, t.toData = u.toData → t = u
  | ⟨k, n, c, i, fs, es, m⟩, ⟨k', n', c', i', fs', es', m'⟩, h => by
    unfold TypeRef.toData at h
    have hat := fun key => congrArg (fun l => l.lookup key) (Json.obj.inj h)
    simp only [List.lookup_append, lookup_optional, lookup_unless, itemToData_lookup] at hat
    have hkind : k = k' := by simpa using hat "kind"
    have hname : n.map Json.str = n'.map Json.str := by simpa [List.lookup_cons] using hat "name"
    have hcurrency : c.map Json.str = c'.map Json.str := by simpa [List.lookup_cons] using hat "currency"
    have hitem : i.map TypeRef.toData = i'.map TypeRef.toData := by simpa [List.lookup_cons] using hat "item"
    have hfields : (if fs = [] then none else some (Json.arr (fieldsToData fs))) =
        if fs' = [] then none else some (Json.arr (fieldsToData fs')) := by simpa [List.lookup_cons] using hat "fields"
    have hvalues : (if es = [] then none else some (Json.arr (es.map Json.str))) =
        if es' = [] then none else some (Json.arr (es'.map Json.str)) := by simpa [List.lookup_cons] using hat "values"
    have hi : i = i' := itemToData_inj hitem
    have hfs : fs = fs' := unless_empty_inj (f := fun fs => Json.arr (fieldsToData fs))
      (fun hf => fieldsToData_inj (Json.arr.inj hf)) hfields
    have hes : es = es' := unless_empty_inj (f := fun es => Json.arr (es.map Json.str))
      (fun hf => List.map_injective_iff.2 (fun _ _ hs => Json.str.inj hs) (Json.arr.inj hf)) hvalues
    have hn : n = n' := str_map_injective hname
    have hc : c = c' := str_map_injective hcurrency
    subst hkind hn hc hi hfs hes
    rfl
theorem itemToData_inj : ∀ {i j : Option TypeRef}, i.map TypeRef.toData = j.map TypeRef.toData → i = j
  | none, none, _     => rfl
  | some t, some u, h => by rw [TypeRef.toData_inj (Option.some.inj h)]
  | none, some _, h   => by cases h
  | some _, none, h   => by cases h
theorem fieldsToData_inj : ∀ {fs gs : List (String × TypeRef)}, fieldsToData fs = fieldsToData gs → fs = gs
  | [], [], _                     => rfl
  | (n, t) :: fs, (m, u) :: gs, h => by
    unfold fieldsToData at h
    obtain ⟨hhead, htail⟩ := List.cons.inj h
    have hentries := Json.obj.inj hhead
    simp only [List.cons.injEq, Prod.mk.injEq, Json.str.injEq, true_and, and_true] at hentries
    rw [hentries.1, TypeRef.toData_inj hentries.2, fieldsToData_inj htail]
  | [], (_, _) :: _, h            => by
    unfold fieldsToData at h
    cases h
  | (_, _) :: _, [], h            => by
    unfold fieldsToData at h
    cases h
end
/-! ## Envelopes -/

structure ValueEnvelope where
  value          : Value
  /-- none where the source stores `None`: the item type of a collection that is no list -/
  typeInfo       : Option TypeRef
  presence       : Presence
  completeness   : Completeness
  classification : DataClassification
  provenanceRefs : List String
  deriving DecidableEq

/-- `ValueEnvelope.complete` -/
def ValueEnvelope.ofComplete (value : Value) (typeInfo : TypeRef) (classification : DataClassification)
    (provenanceRefs : List String) : ValueEnvelope :=
  { value, typeInfo := some typeInfo,
    presence := if value = .null ∨ value = .list [] ∨ value = .dict [] then .empty else .present,
    completeness := .complete, classification, provenanceRefs }

end Nsl
