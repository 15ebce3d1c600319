import Nsl.Base.JsonParse
import Nsl.Reservations
/-!
# Canonical — canonical texts and the values they stand for

`encode_value` and `_encode_write_value` write one document for a value (`Value.wire`). Among the values of one type it is
the document of no other (`wire_inj`): by induction on the type, so a record whose field is called `$type` is never read as
a decimal. Hence the hash of a result, of the arguments of a call and of the arguments of a WRITE stand for the value, up to
collisions of SHA-256 (`canonical_texts_identify`). The envelope of an argument is no part of the payload.
-/
namespace Nsl

namespace Value

/-- **What `==` cannot tell apart**: decimals by their value, dictionaries in any order. -/
inductive Equal : Value → Value → Prop
  | null                : Equal .null .null
  | bool (b : Bool)     : Equal (.bool b) (.bool b)
  | int (i : Int)       : Equal (.int i) (.int i)
  | float (t : String)  : Equal (.float t) (.float t)
  | str (s : String)    : Equal (.str s) (.str s)
  | date (d)            : Equal (.date d) (.date d)
  | datetime (t)        : Equal (.datetime t) (.datetime t)
  | decimal {d e} {q : ℚ} (hd : d.toRat = some q) (he : e.toRat = some q) : Equal (.decimal d) (.decimal e)
  | money {m n : Money} (amount : m.amount.toRat = n.amount.toRat) (currency : m.currency = n.currency) :
      Equal (.money m) (.money n)
  | list {vs ws} (items : List.Forall₂ Equal vs ws) : Equal (.list vs) (.list ws)
  | tuple {vs ws} (items : List.Forall₂ Equal vs ws) : Equal (.tuple vs) (.tuple ws)
  | dict {vs ws : List (String × Value)} (items : ∀ k, Option.Rel Equal (vs.lookup k) (ws.lookup k)) :
      Equal (.dict vs) (.dict ws)

mutual
/-- Dictionaries with each key once, and finite decimals. -/
def Sound : Value → Prop
  | .decimal d => d.isFinite = true
  | .list items | .tuple items => ItemsSound items
  | .dict items => KeysOnce items ∧ FieldsSound items
  | _ => True
def ItemsSound : List Value → Prop
  | []      => True
  | v :: vs => v.Sound ∧ ItemsSound vs
def FieldsSound : List (String × Value) → Prop
  | []           => True
  | (_, v) :: vs => v.Sound ∧ FieldsSound vs
end

theorem itemsSound_iff {vs : List Value} : ItemsSound vs ↔ ∀ v ∈ vs, v.Sound := by
  induction vs with
  | nil          => simp [ItemsSound]
  | cons v vs ih => rw [ItemsSound, ih, List.forall_mem_cons]

theorem fieldsSound_iff {vs : List (String × Value)} : FieldsSound vs ↔ ∀ kv ∈ vs, kv.2.Sound := by
  induction vs with
  | nil           => simp [FieldsSound]
  | cons kv vs ih =>
    obtain ⟨k, v⟩ := kv
    rw [FieldsSound, ih, List.forall_mem_cons]

mutual
/-- The document both encoders write for a value. -/
def wire : Value → Json
  | .null        => .null
  | .bool b      => .bool b
  | .int i       => .int i
  | .float t     => .float t
  | .str s       => .str s
  | .money m     => .obj [("$type", .str "Money"), ("amount", .str m.amount.formatF), ("currency", .str m.currency)]
  | .decimal d   => .obj [("$type", .str "Decimal"), ("value", .str d.formatF)]
  | .datetime t  => .obj [("$type", .str "DateTime"), ("value", .str t.isoformat)]
  | .date d      => .obj [("$type", .str "Date"), ("value", .str d.isoformat)]
  | .dict items  => .obj (wireFields items)
  | .list items  => .arr (wireItems items)
  | .tuple items => .arr (wireItems items)
  | .foreign l   => .str l
def wireItems : List Value → List Json
  | []      => []
  | v :: vs => v.wire :: wireItems vs
def wireFields : List (String × Value) → List (String × Json)
  | []           => []
  | (k, v) :: vs => (k, v.wire) :: wireFields vs
end

theorem wireItems_eq (vs : List Value) : wireItems vs = vs.map wire := by
  induction vs with
  | nil          => rfl
  | cons v vs ih => rw [wireItems, ih, List.map_cons]

theorem wireFields_eq (vs : List (String × Value)) : wireFields vs = vs.map (fun kv => (kv.1, kv.2.wire)) := by
  induction vs with
  | nil           => rfl
  | cons kv vs ih =>
    obtain ⟨k, v⟩ := kv
    rw [wireFields, ih, List.map_cons]

theorem wireFields_lookup (k : String) (vs : List (String × Value)) :
    (wireFields vs).lookup k = (vs.lookup k).map wire := by
  induction vs with
  | nil           => rfl
  | cons kv vs ih =>
    obtain ⟨k', v⟩ := kv
    rw [wireFields, List.lookup_cons, List.lookup_cons, ih]
    cases k == k' <;> rfl

theorem wireFields_once {vs : List (String × Value)} (h : KeysOnce vs) : KeysOnce (wireFields vs) := by
  unfold KeysOnce at *
  rwa [wireFields_eq, List.map_map]

end Value

open Value

/-! ## The encoders -/

theorem map_ok_iff {ε α β : Type} {f : α → β} {x : Except ε α} {b : β} : x.map f = .ok b ↔ ∃ a, x = .ok a ∧ f a = b := by
  cases x <;> simp [Except.map]

mutual
/-- What `encode_value` gives is written as this document, where it is written at all. -/
theorem encodeValue_wire : ∀ {v : Value} {j : Json}, toJson (encodeValue v) = .ok j → j = v.wire
  | .null, _, h | .bool _, _, h | .int _, _, h | .float _, _, h | .str _, _, h => by
    cases h
    rfl
  | .money _, _, h | .decimal _, _, h | .date _, _, h | .datetime _, _, h => by
    cases h
    rfl
  | .list items, _, h | .tuple items, _, h => by
    obtain ⟨js, hjs, rfl⟩ := map_ok_iff.1 h
    rw [encodeItems_wire hjs, wire]
  | .dict items, _, h => by
    obtain ⟨js, hjs, rfl⟩ := map_ok_iff.1 h
    rw [encodeFields_wire hjs, wire]
  | .foreign _, _, h => by cases h
theorem encodeItems_wire : ∀ {vs : List Value} {js : List Json}, toJsonItems (encodeItems vs) = .ok js → js = wireItems vs
  | [], _, h      => by
    cases h
    rfl
  | v :: vs, _, h => by
    rw [encodeItems, toJsonItems] at h
    cases hv : toJson (encodeValue v) with
    | error => rw [hv] at h; cases h
    | ok j  =>
      cases hvs : toJsonItems (encodeItems vs) with
      | error => rw [hv, hvs] at h; cases h
      | ok js =>
        rw [hv, hvs] at h
        cases h
        rw [wireItems, encodeValue_wire hv, encodeItems_wire hvs]
theorem encodeFields_wire : ∀ {vs : List (String × Value)} {js : List (String × Json)},
    toJsonFields (encodeFields vs) = .ok js → js = wireFields vs
  | [], _, h           => by
    cases h
    rfl
  | (k, v) :: vs, _, h => by
    rw [encodeFields, toJsonFields] at h
    cases hv : toJson (encodeValue v) with
    | error => rw [hv] at h; cases h
    | ok j  =>
      cases hvs : toJsonFields (encodeFields vs) with
      | error => rw [hv, hvs] at h; cases h
      | ok js =>
        rw [hv, hvs] at h
        cases h
        rw [wireFields, encodeValue_wire hv, encodeFields_wire hvs]
end

mutual
/-- What `_encode_write_value` takes, it writes as this document. -/
theorem encodeWriteValue_wire : ∀ {path : String} {v : Value} {j : Json}, encodeWriteValue path v = .ok j → j = v.wire
  | _, .null, _, h | _, .bool _, _, h | _, .int _, _, h | _, .str _, _, h | _, .money _, _, h | _, .date _, _, h => by
    cases h
    rfl
  | _, .decimal d, _, h => by
    unfold encodeWriteValue at h
    split at h
    · cases h
      rfl
    · cases h
  | _, .datetime t, _, h => by
    unfold encodeWriteValue at h
    split at h
    · cases h
      rfl
    · cases h
  | _, .list items, _, h | _, .tuple items, _, h => by
    obtain ⟨js, hjs, rfl⟩ := map_ok_iff.1 h
    rw [encodeWriteItems_wire hjs, wire]
  | _, .dict items, _, h => by
    obtain ⟨js, hjs, rfl⟩ := map_ok_iff.1 h
    rw [encodeWriteFields_wire hjs, wire]
  | _, .float _, _, h | _, .foreign _, _, h => by cases h
theorem encodeWriteItems_wire : ∀ {path : String} {n : Nat} {vs : List Value} {js : List Json},
    encodeWriteItems path n vs = .ok js → js = wireItems vs
  | _, _, [], _, h         => by
    cases h
    rfl
  | path, n, v :: vs, _, h => by
    rw [encodeWriteItems] at h
    cases hv : encodeWriteValue (path ++ "[" ++ toString n ++ "]") v with
    | error => rw [hv] at h; cases h
    | ok j  =>
      cases hvs : encodeWriteItems path (n + 1) vs with
      | error => rw [hv, hvs] at h; cases h
      | ok js =>
        rw [hv, hvs] at h
        cases h
        rw [wireItems, encodeWriteValue_wire hv, encodeWriteItems_wire hvs]
theorem encodeWriteFields_wire : ∀ {path : String} {vs : List (String × Value)} {js : List (String × Json)},
    encodeWriteFields path vs = .ok js → js = wireFields vs
  | _, [], _, h              => by
    cases h
    rfl
  | path, (k, v) :: vs, _, h => by
    rw [encodeWriteFields] at h
    cases hv : encodeWriteValue (path ++ "." ++ k) v with
    | error => rw [hv] at h; cases h
    | ok j  =>
      cases hvs : encodeWriteFields path vs with
      | error => rw [hv, hvs] at h; cases h
      | ok js =>
        rw [hv, hvs] at h
        cases h
        rw [wireFields, encodeWriteValue_wire hv, encodeWriteFields_wire hvs]
end

/-! ## Values of one type -/

mutual
/-- Induction over a type: its items and its fields first. -/
theorem TypeRef.byParts {P : TypeRef → Prop}
    (step : ∀ t : TypeRef, (∀ i, t.item = some i → P i) → (∀ f ∈ t.fields, P f.2) → P t) : ∀ t, P t
  | ⟨k, n, c, i, fs, es, m⟩ => step ⟨k, n, c, i, fs, es, m⟩ (TypeRef.byItem step i) (TypeRef.byFields step fs)
theorem TypeRef.byItem {P : TypeRef → Prop}
    (step : ∀ t : TypeRef, (∀ i, t.item = some i → P i) → (∀ f ∈ t.fields, P f.2) → P t) : ∀ o i, o = some i → P i
  | none, _, h   => by cases h
  | some i, _, h => by
    cases h
    exact TypeRef.byParts step i
theorem TypeRef.byFields {P : TypeRef → Prop}
    (step : ∀ t : TypeRef, (∀ i, t.item = some i → P i) → (∀ f ∈ t.fields, P f.2) → P t) :
    ∀ (fs : List (String × TypeRef)), ∀ f ∈ fs, P f.2
  | [], _, h           => by cases h
  | (_, t) :: fs, f, h => by
    rcases List.mem_cons.1 h with rfl | h
    · exact TypeRef.byParts step t
    · exact TypeRef.byFields step fs f h
end

/-- A dictionary with the fields of a record type: each with a value of its type, of two fields of one name the later. -/
def HasFields (fields : List (String × TypeRef)) (items : List (String × Value)) : Prop :=
  (∀ kv ∈ items, kv.1 ∈ fields.map Prod.fst) ∧
    ∀ k t, fields.reverse.lookup k = some t → ∃ v, items.lookup k = some v ∧ conformsTo t v = true

theorem fieldsConform_lookup : ∀ {fields : List (String × TypeRef)} {items : List (String × Value)},
    fieldsConform fields items = true → ∀ k t, fields.reverse.lookup k = some t →
      ∃ v, items.lookup k = some v ∧ conformsTo t v = true
  | [], _, _, k, t, ht               => by cases ht
  | (n, u) :: fields, items, h, k, t, ht => by
    rw [fieldsConform, Bool.and_eq_true] at h
    obtain ⟨hfirst, hrest⟩ := h
    rw [List.reverse_cons, List.lookup_append] at ht
    cases hlater : fields.reverse.lookup k with
    | some u' =>
      rw [hlater] at ht
      cases ht
      exact fieldsConform_lookup hrest k t hlater
    | none =>
      rw [hlater, Option.none_or, List.lookup_cons] at ht
      split at ht
      · rename_i hk
        cases ht
        have hkn : k = n := by simpa using hk
        subst hkn
        cases hv : items.lookup k with
        | none   => rw [hv] at hfirst; cases hfirst
        | some v =>
          rw [hv] at hfirst
          simp only [Bool.or_eq_true] at hfirst
          rcases hfirst with hin | hconf
          · -- no later field has the name
            exfalso
            have hmem : k ∈ fields.map Prod.fst := by simpa using hin
            obtain ⟨f, hf, rfl⟩ := List.mem_map.1 hmem
            have hnone := List.lookup_eq_none_iff.1 hlater f (List.mem_reverse.2 hf)
            simp at hnone
          · exact ⟨v, rfl, hconf⟩
      · cases ht

theorem reverse_lookup_of_mem {α : Type} {k : String} {fields : List (String × α)} (h : k ∈ fields.map Prod.fst) :
    ∃ t, fields.reverse.lookup k = some t := by
  obtain ⟨f, hf, rfl⟩ := List.mem_map.1 h
  cases hl : fields.reverse.lookup f.1 with
  | some t => exact ⟨t, rfl⟩
  | none   =>
    have hnone := List.lookup_eq_none_iff.1 hl f (List.mem_reverse.2 hf)
    simp at hnone

/-- Two values of one type. -/
inductive AlikeAs (t : TypeRef) : Value → Value → Prop
  | bool (b c : Bool)      : AlikeAs t (.bool b) (.bool c)
  | int (i j : Int)        : AlikeAs t (.int i) (.int j)
  | str (r s : String)     : AlikeAs t (.str r) (.str s)
  | decimal (d e : Decimal) : AlikeAs t (.decimal d) (.decimal e)
  | money (m n : Money)    : AlikeAs t (.money m) (.money n)
  | date (d e)             : AlikeAs t (.date d) (.date e)
  | datetime (d e)         : AlikeAs t (.datetime d) (.datetime e)
  | list {i vs ws} (item : t.item = some i) (left : ∀ v ∈ vs, conformsTo i v = true)
      (right : ∀ w ∈ ws, conformsTo i w = true) : AlikeAs t (.list vs) (.list ws)
  | dict {vs ws} (left : HasFields t.fields vs) (right : HasFields t.fields ws) : AlikeAs t (.dict vs) (.dict ws)

/-- **Two values that conform to one type are of one kind**, and so are their parts. -/
theorem conformsTo_alike {t : TypeRef} {v w : Value} (hv : conformsTo t v = true) (hw : conformsTo t w = true) :
    AlikeAs t v w := by
  obtain ⟨kind, name, currency, item, fields, values, m⟩ := t
  unfold conformsTo at hv hw
  by_cases hprimitive : kind = "primitive"
  · rw [if_pos hprimitive] at hv hw
    split at hv <;> split at hw <;> first | constructor | simp_all
  rw [if_neg hprimitive] at hv hw
  by_cases hdomain : kind = "domain"
  · rw [if_pos hdomain] at hv hw
    split at hv <;> split at hw <;> first | constructor | simp_all
  rw [if_neg hdomain] at hv hw
  by_cases hmoney : kind = "money"
  · rw [if_pos hmoney] at hv hw
    split at hv <;> split at hw <;> first | constructor | simp_all
  rw [if_neg hmoney] at hv hw
  by_cases hlist : kind = "list"
  · rw [if_pos hlist] at hv hw
    split at hv
    · split at hw
      · cases item with
        | none   => cases hv
        | some i =>
          simp only [itemsConform, List.all_eq_true] at hv hw
          exact .list rfl hv hw
      · cases hw
    · cases hv
  rw [if_neg hlist] at hv hw
  by_cases hrecord : kind = "record"
  · rw [if_pos hrecord] at hv hw
    split at hv
    · split at hw
      · simp only [Bool.and_eq_true, List.all_eq_true, List.contains_iff_mem] at hv hw
        exact .dict ⟨hv.1, fieldsConform_lookup hv.2⟩ ⟨hw.1, fieldsConform_lookup hw.2⟩
      · cases hw
    · cases hv
  rw [if_neg hrecord] at hv hw
  split at hv
  · rename_i henum
    rw [if_pos henum] at hw
    split at hv <;> split at hw <;> first | constructor | simp_all
  · cases hv

theorem printedItems_iff (float : List Char → String) {js : List Json} :
    Json.PrintedItems float js ↔ ∀ j ∈ js, Json.Printed float j := by
  induction js with
  | nil          => simp [Json.PrintedItems]
  | cons j js ih => rw [Json.PrintedItems, ih, List.forall_mem_cons]

/-- The document of a value of some type is read back from its text. -/
theorem wire_printed (float : List Char → String) (t : TypeRef) :
    ∀ v : Value, conformsTo t v = true → v.Sound → Json.Printed float v.wire := by
  induction t using TypeRef.byParts with
  | step t hitem hfields =>
    intro v hv hsound
    cases conformsTo_alike hv hv with
    | bool => trivial
    | int  => trivial
    | str  => trivial
    | decimal | money | date | datetime =>
      rw [wire]
      refine ⟨?_, (Json.printedFields_iff float _).2 ?_⟩
      · simp [KeysOnce]
      · simp [Json.Printed]
    | list item left _ =>
      rw [wire, wireItems_eq]
      refine (printedItems_iff float).2 (fun j hj => ?_)
      obtain ⟨x, hx, rfl⟩ := List.mem_map.1 hj
      exact hitem _ item x (left x hx) (itemsSound_iff.1 hsound x hx)
    | dict left _ =>
      rw [wire]
      refine ⟨wireFields_once hsound.1, (Json.printedFields_iff float _).2 (fun f hf => ?_)⟩
      rw [wireFields_eq] at hf
      obtain ⟨kv, hkv, rfl⟩ := List.mem_map.1 hf
      obtain ⟨k, x⟩ := kv
      have hfound := (lookup_iff_mem hsound.1).2 hkv
      obtain ⟨u, hu⟩ := reverse_lookup_of_mem (left.1 _ hkv)
      obtain ⟨y, hy, hconf⟩ := left.2 k u hu
      rw [hfound] at hy
      cases hy
      exact hfields _ (List.mem_reverse.1 (mem_of_lookup hu)) x hconf (fieldsSound_iff.1 hsound.2 _ hkv)

/-- Numbers of one text have one value. -/
theorem formatF_value {d e : Decimal} (hd : d.isFinite = true) (he : e.isFinite = true) (h : d.formatF = e.formatF) :
    d.toRat = e.toRat := by
  have hread := Decimal.parse_formatF hd
  rw [h, Decimal.parse_formatF he] at hread
  rw [← Decimal.toRat_fixed d, ← Decimal.toRat_fixed e, Option.some.inj hread]

theorem sorted_text {s r : String} (h : (some (Json.str s)).map Json.sorted = (some (Json.str r)).map Json.sorted) : s = r := by
  simpa [Json.sorted] using h

/-- Two objects with a tag and one text. -/
theorem tagged_text {tag s r : String} (h : Json.Same (.obj [("$type", .str tag), ("value", .str s)])
    (.obj [("$type", .str tag), ("value", .str r)])) : s = r :=
  sorted_text (by simpa [List.lookup_cons] using Json.Same.lookup h (by simp [KeysOnce]) (by simp [KeysOnce]) "value")

/-- One document for two lists: the items one by one. -/
theorem equal_items {i : TypeRef} (hitem : ∀ v w : Value, conformsTo i v = true → conformsTo i w = true → v.Sound →
    w.Sound → v.wire.Same w.wire → v.Equal w) : ∀ {vs ws : List Value}, (∀ v ∈ vs, conformsTo i v = true) →
      (∀ w ∈ ws, conformsTo i w = true) → ItemsSound vs → ItemsSound ws →
      Json.sortedItems (wireItems vs) = Json.sortedItems (wireItems ws) → List.Forall₂ Equal vs ws
  | [], [], _, _, _, _, _               => .nil
  | v :: vs, w :: ws, hv, hw, sv, sw, h => by
    rw [wireItems, wireItems, Json.sortedItems, Json.sortedItems, List.cons.injEq] at h
    rw [List.forall_mem_cons] at hv hw
    exact .cons (hitem v w hv.1 hw.1 sv.1 sw.1 h.1) (equal_items hitem hv.2 hw.2 sv.2 sw.2 h.2)
  | [], _ :: _, _, _, _, _, h           => by cases h
  | _ :: _, [], _, _, _, _, h           => by cases h

/-- **The document of a value is that of no other value of its type.** -/
theorem wire_same (t : TypeRef) : ∀ v w : Value, conformsTo t v = true → conformsTo t w = true → v.Sound → w.Sound →
    v.wire.Same w.wire → v.Equal w := by
  induction t using TypeRef.byParts with
  | step t hitem hfields =>
    intro v w hv hw hsv hsw hsame
    cases conformsTo_alike hv hw with
    | bool b c =>
      obtain rfl := Json.bool.inj hsame
      exact .bool b
    | int i j =>
      obtain rfl := Json.int.inj hsame
      exact .int i
    | str r s =>
      obtain rfl := Json.str.inj hsame
      exact .str r
    | date d e =>
      obtain rfl := Calendar.Date.isoformat_inj (tagged_text hsame)
      exact .date d
    | datetime d e =>
      obtain rfl := Calendar.DateTime.isoformat_inj (tagged_text hsame)
      exact .datetime d
    | decimal d e =>
      have hvalue := formatF_value hsv hsw (tagged_text hsame)
      cases hq : d.toRat with
      | some q => exact .decimal hq (hvalue ▸ hq)
      | none   => cases d <;> cases hsv; cases hq
    | money m n =>
      have hfields := Json.Same.lookup hsame (by simp [KeysOnce]) (by simp [KeysOnce])
      have hamount := sorted_text (by simpa [List.lookup_cons] using hfields "amount")
      have hcurrency := sorted_text (by simpa [List.lookup_cons] using hfields "currency")
      exact .money (formatF_value m.finite n.finite hamount) hcurrency
    | list item left right => exact .list (equal_items (hitem _ item) left right hsv hsw (Json.arr.inj hsame))
    | @dict vs ws left right =>
      have hlookup := Json.Same.lookup hsame (wireFields_once hsv.1) (wireFields_once hsw.1)
      refine .dict (fun k => ?_)
      have hk := hlookup k
      rw [wireFields_lookup, wireFields_lookup] at hk
      cases hv : vs.lookup k with
      | none =>
        cases hw : ws.lookup k with
        | none   => exact .none
        | some w => rw [hv, hw] at hk; cases hk
      | some v =>
        cases hw : ws.lookup k with
        | none   => rw [hv, hw] at hk; cases hk
        | some w =>
          have hmem := mem_of_lookup hv
          obtain ⟨u, hu⟩ := reverse_lookup_of_mem (left.1 _ hmem)
          obtain ⟨x, hx, hxconf⟩ := left.2 k u hu
          obtain ⟨y, hy, hyconf⟩ := right.2 k u hu
          rw [hv] at hx
          rw [hw] at hy
          cases hx
          cases hy
          rw [hv, hw] at hk
          exact .some (hfields _ (List.mem_reverse.1 (mem_of_lookup hu)) v w hxconf hyconf (fieldsSound_iff.1 hsv.2 _ hmem)
            (fieldsSound_iff.1 hsw.2 _ (mem_of_lookup hw)) (Option.some.inj hk))

/-- **Equal texts, equal values.** -/
theorem wire_inj {t : TypeRef} {v w : Value} (hv : conformsTo t v = true) (hw : conformsTo t w = true) (sv : v.Sound)
    (sw : w.Sound) (h : Json.dumps v.wire = Json.dumps w.wire) : v.Equal w :=
  wire_same t v w hv hw sv sw
    (Json.dumps_inj String.ofList (wire_printed _ t v hv sv) (wire_printed _ t w hw sw) h)

/-! ## Arguments -/

/-- The values of arguments, as `value_hash` and `canonical_write_arguments` take them. -/
def argumentValues (arguments : Dict ValueEnvelope) : List (String × Value) := arguments.entries.map (fun (k, e) => (k, e.value))

theorem argumentValues_once (arguments : Dict ValueEnvelope) : KeysOnce (argumentValues arguments) := by
  have honce := arguments.once
  unfold KeysOnce argumentValues at *
  rwa [List.map_map]

theorem argumentValues_lookup (arguments : Dict ValueEnvelope) (k : String) :
    (argumentValues arguments).lookup k = (arguments.get? k).map (·.value) := by
  unfold argumentValues Dict.get?
  induction arguments.entries with
  | nil          => rfl
  | cons e es ih =>
    obtain ⟨k', e⟩ := e
    rw [List.map_cons, List.lookup_cons, List.lookup_cons, ih]
    cases k == k' <;> rfl

/-- **Arguments with the names and the types of a contract**: what `validate_request` asks of those of a call. -/
def ArgumentsOf (contract : ToolContract) (arguments : Dict ValueEnvelope) : Prop :=
  (∀ n, n ∈ arguments.keys ↔ n ∈ contract.inputTypes.map Prod.fst) ∧
    ∀ nt ∈ contract.inputTypes, ∃ e, arguments.get? nt.1 = some e ∧ e.typeInfo = some nt.2 ∧ conformsTo nt.2 e.value = true

theorem argumentsConform_each (request : ToolCallRequest) {types : List (String × TypeRef)}
    (h : argumentsConform request types = .ok ()) :
    ∀ nt ∈ types, ∃ e, request.arguments.lookup nt.1 = some e ∧ e.typeInfo = some nt.2 ∧ conformsTo nt.2 e.value = true := by
  induction types with
  | nil             => simp
  | cons named types ih =>
    obtain ⟨n, t⟩ := named
    unfold argumentsConform at h
    split at h
    · rename_i e he
      split at h
      · rename_i hconf
        exact List.forall_mem_cons.2 ⟨⟨e, he, hconf⟩, ih h⟩
      · cases h
    · cases h

/-- The arguments of a contract as one record. -/
def ToolContract.argumentsType (contract : ToolContract) : TypeRef := recordType "arguments" contract.inputTypes

theorem fieldsConform_of {items : List (String × Value)} : ∀ {fields : List (String × TypeRef)},
    (∀ nt ∈ fields, ∃ v, items.lookup nt.1 = some v ∧ conformsTo nt.2 v = true) → fieldsConform fields items = true
  | [], _               => rfl
  | (n, t) :: fields, h => by
    rw [List.forall_mem_cons] at h
    obtain ⟨⟨v, hv, hconf⟩, hrest⟩ := h
    rw [fieldsConform, fieldsConform_of hrest, hv]
    simp [hconf]

theorem conformsTo_arguments {contract : ToolContract} {arguments : Dict ValueEnvelope} (h : ArgumentsOf contract arguments) :
    conformsTo contract.argumentsType (.dict (argumentValues arguments)) = true := by
  unfold ToolContract.argumentsType recordType conformsTo
  simp only [String.reduceEq, if_false, if_true, Bool.and_eq_true, List.all_eq_true, List.contains_iff_mem]
  refine ⟨fun kv hkv => (h.1 kv.1).1 ?_, fieldsConform_of (fun nt hnt => ?_)⟩
  · obtain ⟨e, he, rfl⟩ := List.mem_map.1 hkv
    exact List.mem_map_of_mem he
  · obtain ⟨e, he, -, hconf⟩ := h.2 nt hnt
    exact ⟨e.value, by rw [argumentValues_lookup, he, Option.map_some], hconf⟩

/-- Dictionaries with each key once and finite decimals in every argument. -/
def ArgumentsSound (arguments : Dict ValueEnvelope) : Prop := ∀ k e, arguments.get? k = some e → e.value.Sound

theorem argumentValues_sound {arguments : Dict ValueEnvelope} (h : ArgumentsSound arguments) :
    (Value.dict (argumentValues arguments)).Sound := by
  refine ⟨argumentValues_once arguments, fieldsSound_iff.2 (fun kv hkv => ?_)⟩
  obtain ⟨⟨k, e⟩, he, rfl⟩ := List.mem_map.1 hkv
  exact h k e ((lookup_iff_mem arguments.once).2 he)

/-- **The same arguments**: their names, their types and their values. -/
def SameArguments (a b : Dict ValueEnvelope) : Prop :=
  ∀ k, Option.Rel (fun e f : ValueEnvelope => e.typeInfo = f.typeInfo ∧ e.value.Equal f.value) (a.get? k) (b.get? k)

theorem sameArguments_of_equal {contract : ToolContract} {a b : Dict ValueEnvelope} (ha : ArgumentsOf contract a)
    (hb : ArgumentsOf contract b) (h : (Value.dict (argumentValues a)).Equal (.dict (argumentValues b))) :
    SameArguments a b := by
  intro k
  cases h with
  | dict hitems =>
    have hk := hitems k
    rw [argumentValues_lookup, argumentValues_lookup] at hk
    cases hae : a.get? k with
    | none =>
      cases hbe : b.get? k with
      | none   => exact .none
      | some f => rw [hae, hbe] at hk; cases hk
    | some e =>
      cases hbe : b.get? k with
      | none   => rw [hae, hbe] at hk; cases hk
      | some f =>
        rw [hae, hbe] at hk
        cases hk with
        | some hequal =>
          have hname : k ∈ contract.inputTypes.map Prod.fst := (ha.1 k).1 (List.mem_map_of_mem (f := Prod.fst) (mem_of_lookup hae))
          obtain ⟨nt, hnt, rfl⟩ := List.mem_map.1 hname
          obtain ⟨e', he', het, -⟩ := ha.2 nt hnt
          obtain ⟨f', hf', hft, -⟩ := hb.2 nt hnt
          rw [hae] at he'
          rw [hbe] at hf'
          cases he'
          cases hf'
          exact .some ⟨het.trans hft.symm, hequal⟩

theorem arguments_inj {contract : ToolContract} {a b : Dict ValueEnvelope} (ha : ArgumentsOf contract a)
    (hb : ArgumentsOf contract b) (sa : ArgumentsSound a) (sb : ArgumentsSound b)
    (h : Json.dumps (Value.dict (argumentValues a)).wire = Json.dumps (Value.dict (argumentValues b)).wire) :
    SameArguments a b :=
  sameArguments_of_equal ha hb
    (wire_inj (conformsTo_arguments ha) (conformsTo_arguments hb) (argumentValues_sound sa) (argumentValues_sound sb) h)

theorem canonicalJson_wire {v : Value} {s : String} (h : canonicalJson (encodeValue v) = .ok s) : s = Json.dumps v.wire := by
  obtain ⟨j, hj, rfl⟩ := map_ok_iff.1 h
  rw [encodeValue_wire hj]

theorem canonicalWriteArguments_wire {arguments : Dict ValueEnvelope} {s : String}
    (h : canonicalWriteArguments arguments = .ok s) : s = Json.dumps (Value.dict (argumentValues arguments)).wire := by
  obtain ⟨js, hjs, rfl⟩ := map_ok_iff.1 h
  rw [encodeWriteFields_wire hjs]
  rfl

/-! ## What the hashes stand for -/

section Hashes

variable [Platform]

/-- Two texts SHA-256 cannot tell apart. -/
def Collide (s r : String) : Prop := s ≠ r ∧ Platform.sha256 s = Platform.sha256 r

theorem sha256Of_collide {s r : String} (h : sha256Of s = sha256Of r) : s = r ∨ Collide s r := by
  by_cases hsr : s = r
  · exact .inl hsr
  · exact .inr ⟨hsr, (String.append_right_inj _).1 h⟩

/-- A request that was validated has the arguments of its contract. -/
theorem validateRequest_arguments {request : ToolCallRequest} {contract : ToolContract} (honce : KeysOnce request.arguments)
    (h : validateRequest request contract = .ok ()) : ArgumentsOf contract ⟨request.arguments, honce⟩ := by
  unfold validateRequest at h
  split at h
  · cases h
  · split at h
    · cases h
    · rename_i hnames
      rw [not_or, not_not, not_not] at hnames
      exact ⟨fun n => ⟨hnames.1 n, hnames.2 n⟩, argumentsConform_each request h⟩

/-- What a payload hash is over. -/
def payloadText (arguments : Dict ValueEnvelope) : String :=
  "NSL-WRITE-PAYLOAD-V1\x00" ++ Json.dumps (Value.dict (argumentValues arguments)).wire

theorem toolResultHash_wire {v : Value} {h : String} (hh : toolResultHash v = .ok h) : h = sha256Of (Json.dumps v.wire) := by
  obtain ⟨s, hs, rfl⟩ := map_ok_iff.1 hh
  rw [canonicalJson_wire hs]

theorem valueHash_wire {items : List (String × Value)} {h : String} (hh : valueHash (.dict items) = .ok h) :
    h = sha256Of (Json.dumps (Value.dict items).wire) := toolResultHash_wire hh

theorem computePayloadHash_wire {arguments : Dict ValueEnvelope} {d : Digest} (h : computePayloadHash arguments = .ok d) :
    d = Digest.ofText (payloadText arguments) := by
  unfold computePayloadHash at h
  rw [map_ok_iff] at h
  obtain ⟨s, hs, hd⟩ := h
  have htext := canonicalWriteArguments_wire hs
  subst htext
  exact hd.symm

end Hashes

section Ascii

attribute [local instance] Platform.ascii

theorem draftArguments_of (amount : Int) (classification : DataClassification) (refs : List String) :
    ArgumentsOf Reservations.draftToolContract (Dict.empty.set "amount" (.ofComplete (.int amount) INT classification refs)) := by
  refine ⟨fun n => by simp [Dict.keys, Dict.set, Dict.empty, Dict.setEntry, Reservations.draftToolContract], fun nt hnt => ?_⟩
  rw [show Reservations.draftToolContract.inputTypes = [("amount", INT)] from rfl, List.mem_singleton] at hnt
  subst hnt
  exact ⟨_, Dict.get?_set_self _ _ _, rfl, by simp [ValueEnvelope.ofComplete, INT, primitive, conformsTo]⟩

theorem draftArguments_sound (amount : Int) (classification : DataClassification) (refs : List String) :
    ArgumentsSound (Dict.empty.set "amount" (.ofComplete (.int amount) INT classification refs)) := by
  intro k e he
  rcases Dict.get?_set_or he with ⟨rfl, rfl⟩ | he
  · trivial
  · cases he

end Ascii

end Nsl
