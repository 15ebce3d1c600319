import Nsl.Canonical
import Nsl.DryRun
import Nsl.Restore
/-!
# McpAdapter — provider data as tool results

`adapters/mcp.py`: `MCPToolExecutor.execute` maps a call to a client and the client's structured content to a result
envelope. What a provider sends is wider than a `Value`: any mapping, also one that is no `dict`, and texts with lone
surrogates. `value_conforms_to_type` takes both; `encode_value` leaves the first as it is and UTF-8 has no bytes for the
second, so the hash of such a result is never made. Apart from these every answer of a client ends in an envelope its
validator accepts or in a `ToolExecutionError` (`execute_delivers_iff`).
-/
namespace Nsl

open Calendar (Date DateTime)

/-! ## Provider data -/

def Value.isContainer : Value → Bool
  | .list _ | .tuple _ | .dict _ => true
  | _                            => false

/-- A Python object as a provider sends it. -/
inductive Content
  | plain (v : Value) (scalar : v.isContainer = false)
  /-- a text with a lone surrogate -/
  | broken (label : String)
  | list (items : List Content)
  | tuple (items : List Content)
  /-- a mapping: a `dict`, or an object of another class -/
  | mapping (cls : Option String) (items : List (String × Content))

namespace Content

mutual
/-- The value of provider data; a mapping of another class stays the object it is, and a broken text has none. -/
def value : Content → Value
  | .plain v _              => v
  | .broken _               => .str ""
  | .list items             => .list (values items)
  | .tuple items            => .tuple (values items)
  | .mapping none items     => .dict (fieldValues items)
  | .mapping (some cls) _   => .foreign cls
def values : List Content → List Value
  | []      => []
  | c :: cs => c.value :: values cs
def fieldValues : List (String × Content) → List (String × Value)
  | []           => []
  | (k, c) :: cs => (k, c.value) :: fieldValues cs
end

mutual
/-- A mapping that is no `dict`, where `encode_value` meets it. -/
def hasView : Content → Bool
  | .plain ..             => false
  | .broken _             => false
  | .list items           => itemsView items
  | .tuple items          => itemsView items
  | .mapping none items   => fieldsView items
  | .mapping (some _) _   => true
def itemsView : List Content → Bool
  | []      => false
  | c :: cs => c.hasView || itemsView cs
def fieldsView : List (String × Content) → Bool
  | []           => false
  | (_, c) :: cs => c.hasView || fieldsView cs
end

mutual
/-- A text with a lone surrogate, where `json.dumps` meets it. -/
def hasBroken : Content → Bool
  | .plain ..             => false
  | .broken _             => true
  | .list items           => itemsBroken items
  | .tuple items          => itemsBroken items
  | .mapping none items   => fieldsBroken items
  | .mapping (some _) _   => false
def itemsBroken : List Content → Bool
  | []      => false
  | c :: cs => c.hasBroken || itemsBroken cs
def fieldsBroken : List (String × Content) → Bool
  | []           => false
  | (_, c) :: cs => c.hasBroken || fieldsBroken cs
end

mutual
/-- Each key of a mapping once, at every depth. -/
def Keyed : Content → Prop
  | .plain ..                        => True
  | .broken _                        => True
  | .list items | .tuple items       => ItemsKeyed items
  | .mapping _ items                 => KeysOnce items ∧ FieldsKeyed items
def ItemsKeyed : List Content → Prop
  | []      => True
  | c :: cs => c.Keyed ∧ ItemsKeyed cs
def FieldsKeyed : List (String × Content) → Prop
  | []           => True
  | (_, c) :: cs => c.Keyed ∧ FieldsKeyed cs
end

theorem itemsView_iff : ∀ {cs : List Content}, itemsView cs = false ↔ ∀ c ∈ cs, c.hasView = false
  | []      => by simp [itemsView]
  | c :: cs => by rw [itemsView, Bool.or_eq_false_iff, itemsView_iff, List.forall_mem_cons]

theorem fieldsView_iff : ∀ {cs : List (String × Content)}, fieldsView cs = false ↔ ∀ kc ∈ cs, kc.2.hasView = false
  | []           => by simp [fieldsView]
  | (_, c) :: cs => by rw [fieldsView, Bool.or_eq_false_iff, fieldsView_iff, List.forall_mem_cons]

theorem itemsBroken_iff : ∀ {cs : List Content}, itemsBroken cs = false ↔ ∀ c ∈ cs, c.hasBroken = false
  | []      => by simp [itemsBroken]
  | c :: cs => by rw [itemsBroken, Bool.or_eq_false_iff, itemsBroken_iff, List.forall_mem_cons]

theorem fieldsBroken_iff : ∀ {cs : List (String × Content)}, fieldsBroken cs = false ↔ ∀ kc ∈ cs, kc.2.hasBroken = false
  | []           => by simp [fieldsBroken]
  | (_, c) :: cs => by rw [fieldsBroken, Bool.or_eq_false_iff, fieldsBroken_iff, List.forall_mem_cons]

theorem itemsKeyed_iff : ∀ {cs : List Content}, ItemsKeyed cs ↔ ∀ c ∈ cs, c.Keyed
  | []      => by simp [ItemsKeyed]
  | c :: cs => by rw [ItemsKeyed, itemsKeyed_iff, List.forall_mem_cons]

theorem fieldsKeyed_iff : ∀ {cs : List (String × Content)}, FieldsKeyed cs ↔ ∀ kc ∈ cs, kc.2.Keyed
  | []           => by simp [FieldsKeyed]
  | (_, c) :: cs => by rw [FieldsKeyed, fieldsKeyed_iff, List.forall_mem_cons]

theorem values_eq : ∀ (cs : List Content), values cs = cs.map value
  | []      => rfl
  | _ :: cs => congrArg _ (values_eq cs)

theorem fieldValues_lookup (k : String) : ∀ (cs : List (String × Content)),
    (fieldValues cs).lookup k = (cs.lookup k).map value
  | []            => rfl
  | (k', c) :: cs => by
    rw [fieldValues, List.lookup_cons, List.lookup_cons, fieldValues_lookup k cs]
    cases k == k' <;> rfl

theorem fieldValues_keys : ∀ (cs : List (String × Content)), (fieldValues cs).map Prod.fst = cs.map Prod.fst
  | []      => rfl
  | _ :: cs => congrArg _ (fieldValues_keys cs)

end Content

/-! ## Conformance -/

mutual
/-- `value_conforms_to_type` of provider data. -/
def contentConforms : TypeRef → Content → Bool
  | ⟨kind, name, currency, item, fields, enumValues, m⟩, content =>
    match content with
    | .plain v _       => conformsTo ⟨kind, name, currency, item, fields, enumValues, m⟩ v
    | .broken _        => (kind = "primitive" && name = some "String") || kind = "domain"
    | .list items      => kind = "list" && contentItems item items
    | .tuple _         => false
    | .mapping _ items =>
      kind = "record" && items.all (fun kc => (fields.map Prod.fst).contains kc.1) && contentFields fields items
def contentItems : Option TypeRef → List Content → Bool
  | none, _       => false
  | some t, items => items.all (contentConforms t)
def contentFields : List (String × TypeRef) → List (String × Content) → Bool
  | [], _               => true
  | (n, t) :: fs, items =>
    (match items.lookup n with
      | some c => (fs.map Prod.fst).contains n || contentConforms t c
      | none   => false) && contentFields fs items
end

theorem conformsTo_list (t : TypeRef) (items : List Value) :
    conformsTo t (.list items) = (decide (t.kind = "list") && itemsConform t.item items) := by
  obtain ⟨kind, name, currency, item, fields, values, m⟩ := t
  unfold conformsTo
  by_cases hlist : kind = "list"
  · subst hlist
    simp
  · simp only [hlist, if_false, decide_false, Bool.false_and]
    repeat' split
    all_goals rfl

theorem conformsTo_dict (t : TypeRef) (items : List (String × Value)) : conformsTo t (.dict items) =
    (decide (t.kind = "record") && (items.all (fun kv => (t.fields.map Prod.fst).contains kv.1) && fieldsConform t.fields items)) := by
  obtain ⟨kind, name, currency, item, fields, values, m⟩ := t
  unfold conformsTo
  by_cases hrecord : kind = "record"
  · subst hrecord
    simp
  · simp only [hrecord, if_false, decide_false, Bool.false_and]
    repeat' split
    all_goals rfl

theorem conformsTo_tuple (t : TypeRef) (items : List Value) : conformsTo t (.tuple items) = false := by
  obtain ⟨kind, name, currency, item, fields, values, m⟩ := t
  unfold conformsTo
  repeat' split
  all_goals first | rfl | simp_all

/-! What `contentConforms` asks of each form. -/

theorem contentConforms_plain (t : TypeRef) {v : Value} (h : v.isContainer = false) :
    contentConforms t (.plain v h) = conformsTo t v := by
  obtain ⟨kind, name, currency, item, fields, values, m⟩ := t
  unfold contentConforms
  rfl

theorem contentConforms_list (t : TypeRef) (items : List Content) :
    contentConforms t (.list items) = (decide (t.kind = "list") && contentItems t.item items) := by
  obtain ⟨kind, name, currency, item, fields, values, m⟩ := t
  unfold contentConforms
  rfl

theorem contentConforms_tuple (t : TypeRef) (items : List Content) : contentConforms t (.tuple items) = false := by
  obtain ⟨kind, name, currency, item, fields, values, m⟩ := t
  unfold contentConforms
  rfl

theorem contentConforms_mapping (t : TypeRef) (cls : Option String) (items : List (String × Content)) :
    contentConforms t (.mapping cls items) = (decide (t.kind = "record") &&
      items.all (fun kc => (t.fields.map Prod.fst).contains kc.1) && contentFields t.fields items) := by
  obtain ⟨kind, name, currency, item, fields, values, m⟩ := t
  unfold contentConforms
  rfl

/-- Fields whose types judge data as they judge its value. -/
theorem contentFields_value {items : List (String × Content)} (hitems : Content.fieldsView items = false)
    (hbroken : Content.fieldsBroken items = false) : ∀ {fields : List (String × TypeRef)},
    (∀ f ∈ fields, ∀ c : Content, c.hasView = false → c.hasBroken = false → contentConforms f.2 c = conformsTo f.2 c.value) →
      contentFields fields items = fieldsConform fields (Content.fieldValues items)
  | [], _               => rfl
  | (n, t) :: fields, h => by
    rw [List.forall_mem_cons] at h
    rw [contentFields, fieldsConform, contentFields_value hitems hbroken h.2, Content.fieldValues_lookup]
    cases hc : items.lookup n with
    | none   => rfl
    | some c =>
      have hmem := mem_of_lookup hc
      rw [Option.map_some]
      simp only [h.1 c (Content.fieldsView_iff.1 hitems _ hmem) (Content.fieldsBroken_iff.1 hbroken _ hmem)]

/-- **Data without foreign mappings and broken texts conforms as its value does.** -/
theorem contentConforms_value (t : TypeRef) : ∀ c : Content, c.hasView = false → c.hasBroken = false →
    contentConforms t c = conformsTo t c.value := by
  induction t using TypeRef.byParts with
  | step t hitem hfields =>
    intro c hview hbroken
    cases c with
    | plain v hv  => rw [contentConforms_plain, Content.value]
    | broken l    => cases hbroken
    | tuple items =>
      rw [contentConforms_tuple, Content.value, conformsTo_tuple]
    | list items =>
      rw [contentConforms_list, Content.value, conformsTo_list, Content.values_eq]
      have hall : contentItems t.item items = itemsConform t.item (items.map Content.value) := by
        cases hi : t.item with
        | none   => rfl
        | some i =>
          rw [contentItems, itemsConform, List.all_map, Bool.eq_iff_iff, List.all_eq_true, List.all_eq_true]
          refine forall₂_congr (fun c hc => ?_)
          rw [hitem i hi c (Content.itemsView_iff.1 hview c hc) (Content.itemsBroken_iff.1 hbroken c hc)]
          rfl
      rw [← hall]
    | mapping cls items =>
      cases cls with
      | some cls => cases hview
      | none     =>
        rw [contentConforms_mapping, Content.value, conformsTo_dict, ← contentFields_value hview hbroken hfields]
        have hnames : items.all (fun kc => (t.fields.map Prod.fst).contains kc.1) =
            (Content.fieldValues items).all (fun kv => (t.fields.map Prod.fst).contains kv.1) := by
          have hkeys := congrArg (fun ks => ks.all (fun k => (t.fields.map Prod.fst).contains k)) (Content.fieldValues_keys items)
          simp only [List.all_map] at hkeys
          exact hkeys.symm
        rw [← hnames, ← Bool.and_assoc]

/-- The encoders take a value that conforms to a type. -/
theorem conformsTo_scalar {t : TypeRef} {v : Value} (hv : v.isContainer = false) (h : conformsTo t v = true) :
    v.encodable = true := by
  cases conformsTo_alike h h with
  | list => cases hv
  | dict => cases hv
  | _    => rfl

/-- The fields of a record that conforms have values that do. -/
theorem contentFields_lookup : ∀ {fields : List (String × TypeRef)} {items : List (String × Content)},
    contentFields fields items = true → ∀ k t, fields.reverse.lookup k = some t →
      ∃ c, items.lookup k = some c ∧ contentConforms t c = true
  | [], _, _, k, t, ht                      => by cases ht
  | (n, u) :: fields, items, h, k, t, ht => by
    rw [contentFields, Bool.and_eq_true] at h
    obtain ⟨hfirst, hrest⟩ := h
    rw [List.reverse_cons, List.lookup_append] at ht
    cases hlater : fields.reverse.lookup k with
    | some u' =>
      rw [hlater] at ht
      cases ht
      exact contentFields_lookup hrest k t hlater
    | none =>
      rw [hlater, Option.none_or, List.lookup_cons] at ht
      split at ht
      · rename_i hk
        cases ht
        have hkn : k = n := by simpa using hk
        subst hkn
        cases hc : items.lookup k with
        | none   => rw [hc] at hfirst; cases hfirst
        | some c =>
          rw [hc] at hfirst
          simp only [Bool.or_eq_true] at hfirst
          rcases hfirst with hin | hconf
          · exfalso
            obtain ⟨u', hu'⟩ := reverse_lookup_of_mem (by simpa using hin : k ∈ fields.map Prod.fst)
            rw [hlater] at hu'
            cases hu'
          · exact ⟨c, rfl, hconf⟩
      · cases ht

/-- **Data of a type is written as JSON exactly when no mapping in it is of another class.** -/
theorem contentConforms_encodable (t : TypeRef) : ∀ c : Content, contentConforms t c = true → c.Keyed →
    c.value.encodable = !c.hasView := by
  induction t using TypeRef.byParts with
  | step t hitem hfields =>
    intro c hconf hkeyed
    cases c with
    | plain v hv =>
      rw [contentConforms_plain] at hconf
      exact conformsTo_scalar hv hconf
    | broken l    => rfl
    | tuple items => rw [contentConforms_tuple] at hconf; cases hconf
    | list items  =>
      rw [contentConforms_list, Bool.and_eq_true] at hconf
      cases hi : t.item with
      | none   => rw [hi] at hconf; cases hconf.2
      | some i =>
        rw [hi, contentItems, List.all_eq_true] at hconf
        have hitems : ∀ {cs : List Content}, (∀ c ∈ cs, c.value.encodable = !c.hasView) →
            itemsEncodable (Content.values cs) = !Content.itemsView cs := by
          intro cs
          induction cs with
          | nil          => intro _; rfl
          | cons c cs ih =>
            intro h
            rw [List.forall_mem_cons] at h
            rw [Content.values, itemsEncodable, Content.itemsView, h.1, ih h.2, Bool.not_or]
        exact hitems (fun c hc => hitem i hi c (hconf.2 c hc) (Content.itemsKeyed_iff.1 hkeyed c hc))
    | mapping cls items =>
      cases cls with
      | some cls => rfl
      | none     =>
        rw [contentConforms_mapping, Bool.and_eq_true, Bool.and_eq_true, List.all_eq_true] at hconf
        have hentries : ∀ {cs : List (String × Content)}, (∀ kc ∈ cs, kc.2.value.encodable = !kc.2.hasView) →
            fieldsEncodable (Content.fieldValues cs) = !Content.fieldsView cs := by
          intro cs
          induction cs with
          | nil           => intro _; rfl
          | cons kc cs ih =>
            intro h
            rw [List.forall_mem_cons] at h
            rw [Content.fieldValues, fieldsEncodable, Content.fieldsView, h.1, ih h.2, Bool.not_or]
        refine hentries (fun kc hkc => ?_)
        obtain ⟨k, c⟩ := kc
        obtain ⟨u, hu⟩ := reverse_lookup_of_mem (by simpa using hconf.1.2 _ hkc : k ∈ t.fields.map Prod.fst)
        obtain ⟨c', hc', hcconf⟩ := contentFields_lookup hconf.2 k u hu
        rw [(lookup_iff_mem hkeyed.1).2 hkc] at hc'
        cases hc'
        exact hfields _ (List.mem_reverse.1 (mem_of_lookup hu)) c hcconf (Content.fieldsKeyed_iff.1 hkeyed.2 _ hkc)

/-! ## Decoding -/

/-- `datetime.fromisoformat` and `date.fromisoformat`; of a text with a lone surrogate only the first may take some. -/
structure IsoReader where
  dateTime       : String → Option DateTime
  brokenDateTime : String → Option DateTime
  date           : String → Option Date

namespace Content

/-- What the decoders see of a field of a tagged object. -/
def scalarOf : Option Content → Option Value
  | some (.plain v _) => some v
  | some _            => some (.foreign "no scalar")
  | none              => none

/-- `_decode_iso_value` of a DateTime -/
def decodeDateTime (reader : IsoReader) (field : Option Content) : Except Exn DateTime :=
  match field with
  | some (.broken l) => decodeIso (some (.str l)) "DateTime" reader.brokenDateTime
  | other            => decodeIso (scalarOf other) "DateTime" reader.dateTime

mutual
/-- `decode_value` of provider data: only a `dict` is looked into. -/
def decode (reader : IsoReader) : Content → Except Exn Content
  | .mapping none items =>
    match items.lookup "$type" with
    | some (.plain (.str "Money") _)    => do
      let amount ← decodeDecimal (scalarOf (items.lookup "amount")) "Money amount"
      return .plain (.money (← decodeMoney amount (scalarOf (items.lookup "currency")))) rfl
    | some (.plain (.str "Decimal") _)  => do
      return .plain (.decimal (← decodeDecimal (scalarOf (items.lookup "value")) "Decimal value")) rfl
    | some (.plain (.str "DateTime") _) => do return .plain (.datetime (← decodeDateTime reader (items.lookup "value"))) rfl
    | some (.plain (.str "Date") _)     => do
      return .plain (.date (← decodeIso (scalarOf (items.lookup "value")) "Date" reader.date)) rfl
    | _                                 => (decodeFields reader items).map (.mapping none)
  | .list items => (decodeItems reader items).map .list
  | c           => .ok c
def decodeItems (reader : IsoReader) : List Content → Except Exn (List Content)
  | []      => .ok []
  | c :: cs => do return (← c.decode reader) :: (← decodeItems reader cs)
def decodeFields (reader : IsoReader) : List (String × Content) → Except Exn (List (String × Content))
  | []           => .ok []
  | (k, c) :: cs => do return (k, ← c.decode reader) :: (← decodeFields reader cs)
end

end Content

/-- The errors `except ValueError` takes from a decoder. -/
def Exn.isMalformed : Exn → Bool
  | .value _ | .money _ => true
  | _                   => false

/-- What a decoder raises is a `ValueError`. -/
def Malformed {α : Type} (r : Except Exn α) : Prop := ∀ e, r = .error e → e.isMalformed = true

namespace Malformed

theorem ok {α : Type} (a : α) : Malformed (.ok a : Except Exn α) := fun _ h => by cases h

theorem bind {α β : Type} {r : Except Exn α} {f : α → Except Exn β} (hr : Malformed r) (hf : ∀ a, Malformed (f a)) :
    Malformed (r >>= f) := by
  intro e h
  cases r with
  | error e' => cases h; exact hr e rfl
  | ok a     => exact hf a e h

theorem map {α β : Type} {r : Except Exn α} (hr : Malformed r) (f : α → β) : Malformed (r.map f) := by
  intro e h
  cases r with
  | error e' => cases h; exact hr e rfl
  | ok a     => cases h

theorem decimal (field : Option Value) (label : String) : Malformed (decodeDecimal field label) := by
  intro e h
  unfold decodeDecimal at h
  split at h
  · split at h
    · cases h
    · cases h; rfl
  · cases h; rfl

theorem iso {α : Type} (field : Option Value) (label : String) (parse : String → Option α) :
    Malformed (decodeIso field label parse) := by
  intro e h
  unfold decodeIso at h
  split at h
  · split at h
    · cases h
    · cases h; rfl
  · cases h; rfl

theorem moneyMake (amount : Decimal) (currency : String) : Malformed (Money.make amount currency) := by
  intro e h
  unfold Money.make at h
  split at h
  · split at h
    · cases h
    · split at h <;> cases h <;> rfl
  · cases h; rfl

theorem money (amount : Decimal) (currency : Option Value) : Malformed (decodeMoney amount currency) := by
  unfold decodeMoney
  split
  · exact moneyMake _ _
  · exact moneyMake _ _
  · exact moneyMake _ _
  · intro e h
    cases h
    rfl

end Malformed

mutual
theorem Content.decode_malformed (reader : IsoReader) : ∀ c : Content, Malformed (c.decode reader)
  | .plain .. | .broken _ | .tuple _ | .mapping (some _) _ => .ok _
  | .list items         => (Content.decodeItems_malformed reader items).map _
  | .mapping none items => by
    unfold Content.decode
    split
    · exact (Malformed.decimal _ _).bind (fun _ => (Malformed.money _ _).bind (fun _ => .ok _))
    · exact (Malformed.decimal _ _).bind (fun _ => .ok _)
    · refine Malformed.bind ?_ (fun _ => .ok _)
      unfold Content.decodeDateTime
      split <;> exact .iso _ _ _
    · exact (Malformed.iso _ _ _).bind (fun _ => .ok _)
    · exact (Content.decodeFields_malformed reader items).map _
theorem Content.decodeItems_malformed (reader : IsoReader) : ∀ cs : List Content, Malformed (Content.decodeItems reader cs)
  | []      => .ok _
  | c :: cs => (Content.decode_malformed reader c).bind (fun _ => (Content.decodeItems_malformed reader cs).bind (fun _ => .ok _))
theorem Content.decodeFields_malformed (reader : IsoReader) : ∀ cs : List (String × Content),
    Malformed (Content.decodeFields reader cs)
  | []           => .ok _
  | (_, c) :: cs =>
    (Content.decode_malformed reader c).bind (fun _ => (Content.decodeFields_malformed reader cs).bind (fun _ => .ok _))
end

/-! Decoding keeps the keys of a mapping. -/

theorem decodeFields_keys (reader : IsoReader) : ∀ {cs ds : List (String × Content)},
    Content.decodeFields reader cs = .ok ds → ds.map Prod.fst = cs.map Prod.fst
  | [], ds, h           => by
    cases h
    rfl
  | (k, c) :: cs, ds, h => by
    unfold Content.decodeFields at h
    cases hc : c.decode reader with
    | error => rw [hc] at h; cases h
    | ok d  =>
      cases hcs : Content.decodeFields reader cs with
      | error => rw [hc, hcs] at h; cases h
      | ok es =>
        rw [hc, hcs] at h
        cases h
        rw [List.map_cons, List.map_cons, decodeFields_keys reader hcs]

mutual
theorem Content.decode_keyed (reader : IsoReader) : ∀ {c d : Content}, c.decode reader = .ok d → c.Keyed → d.Keyed
  | .plain .., _, h, hk | .broken _, _, h, hk | .tuple _, _, h, hk | .mapping (some _) _, _, h, hk => by
    cases h
    exact hk
  | .list items, _, h, hk         => by
    obtain ⟨ds, hds, rfl⟩ := map_ok_iff.1 h
    exact Content.decodeItems_keyed reader hds hk
  | .mapping none items, d, h, hk => by
    unfold Content.decode at h
    split at h
    · cases hamount : decodeDecimal (Content.scalarOf (items.lookup "amount")) "Money amount" with
      | error => rw [hamount] at h; cases h
      | ok amount =>
        cases hmoney : decodeMoney amount (Content.scalarOf (items.lookup "currency")) with
        | error => rw [hamount] at h; simp only [hmoney, bind, Except.bind] at h; cases h
        | ok m  => rw [hamount] at h; simp only [hmoney, bind, Except.bind] at h; cases h; trivial
    · cases hv : decodeDecimal (Content.scalarOf (items.lookup "value")) "Decimal value" with
      | error => rw [hv] at h; cases h
      | ok d  => rw [hv] at h; cases h; trivial
    · cases hv : Content.decodeDateTime reader (items.lookup "value") with
      | error => rw [hv] at h; cases h
      | ok d  => rw [hv] at h; cases h; trivial
    · cases hv : decodeIso (Content.scalarOf (items.lookup "value")) "Date" reader.date with
      | error => rw [hv] at h; cases h
      | ok d  => rw [hv] at h; cases h; trivial
    · obtain ⟨ds, hds, rfl⟩ := map_ok_iff.1 h
      refine ⟨?_, Content.decodeFields_keyed reader hds hk.2⟩
      unfold KeysOnce
      rw [decodeFields_keys reader hds]
      exact hk.1
theorem Content.decodeItems_keyed (reader : IsoReader) : ∀ {cs ds : List Content},
    Content.decodeItems reader cs = .ok ds → Content.ItemsKeyed cs → Content.ItemsKeyed ds
  | [], _, h, _       => by
    cases h
    trivial
  | c :: cs, _, h, hk => by
    unfold Content.decodeItems at h
    cases hc : c.decode reader with
    | error => rw [hc] at h; cases h
    | ok d  =>
      cases hcs : Content.decodeItems reader cs with
      | error => rw [hc, hcs] at h; cases h
      | ok es =>
        rw [hc, hcs] at h
        cases h
        exact ⟨Content.decode_keyed reader hc hk.1, Content.decodeItems_keyed reader hcs hk.2⟩
theorem Content.decodeFields_keyed (reader : IsoReader) : ∀ {cs ds : List (String × Content)},
    Content.decodeFields reader cs = .ok ds → Content.FieldsKeyed cs → Content.FieldsKeyed ds
  | [], _, h, _            => by
    cases h
    trivial
  | (k, c) :: cs, _, h, hk => by
    unfold Content.decodeFields at h
    cases hc : c.decode reader with
    | error => rw [hc] at h; cases h
    | ok d  =>
      cases hcs : Content.decodeFields reader cs with
      | error => rw [hc, hcs] at h; cases h
      | ok es =>
        rw [hc, hcs] at h
        cases h
        exact ⟨Content.decode_keyed reader hc hk.1, Content.decodeFields_keyed reader hcs hk.2⟩
end

/-! ## The executor -/

/-- `MCPToolBinding` with what `__post_init__` asks of its texts. -/
structure MCPToolBinding where
  bindingId   : String
  tenantId    : String
  toolId      : String
  toolVersion : String
  serverRef   : String
  toolName    : String
  resultPath  : List String
  named       : ∀ s ∈ [bindingId, tenantId, toolId, toolVersion, serverRef, toolName], Text.isBlank s = false
  pathNamed   : ∀ part ∈ resultPath, Text.isBlank part = false

/-- What a resolver answers. -/
inductive ResolvedBinding
  /-- `MCPBindingNotFoundError` -/
  | notFound
  /-- an object of another class -/
  | other
  | binding (b : MCPToolBinding)

structure MCPCallContext where
  executionId              : String
  invocationId             : String
  tenantId                 : String
  subjectId                : String
  authContextRef           : String
  authorizationDecisionRef : String

/-- `MCPCallResult`: `none` is a field of the wrong class; of each block of `content` only whether it is a mapping counts. -/
structure MCPCallResult where
  content           : Option (List Bool)
  structuredContent : Content
  isError           : Option (Option Bool)
  keyed             : structuredContent.Keyed

/-- What a call of the client ends in. -/
inductive MCPOutcome
  | result (r : MCPCallResult)
  /-- an object of another class -/
  | other
  /-- `MCPClientError` -/
  | clientError

structure MCPToolExecutor where
  catalog  : ToolContractCatalog
  bindings : String → String → String → ResolvedBinding
  client   : String → String → List (String × Value) → MCPCallContext → MCPOutcome
  reader   : IsoReader

section Executor

variable [Platform]

/-- `tool_result_hash` of decoded data: `json.dumps` first, then UTF-8. -/
def Content.resultHash (c : Content) : Except Exn String := do
  let text ← canonicalJson (encodeValue c.value)
  if c.hasBroken then .error (.value "'utf-8' codec can't encode character: surrogates not allowed")
  else return sha256Of text

namespace MCPToolExecutor

variable (executor : MCPToolExecutor) (request : ToolCallRequest)

/-- The contract of a call. -/
def contract : Except Exn ToolContract :=
  match executor.catalog.resolve request.toolId request.toolVersion with
  | .error (.toolContract _) => .error (.toolExecution "TOOL_CONTRACT_MISMATCH" ("contract unavailable: " ++ request.toolId))
  | other                    => other

/-- The binding of a call. -/
def binding : Except Exn MCPToolBinding :=
  match executor.bindings request.principal.tenantId request.toolId request.toolVersion with
  | .notFound  => .error (.toolExecution "MCP_BINDING_NOT_FOUND" ("MCP binding unavailable: " ++ request.toolId))
  | .other     => .error (.toolExecution "MCP_BINDING_MISMATCH" ("MCP binding identity mismatch: " ++ request.toolId))
  | .binding b =>
    if b.tenantId ≠ request.principal.tenantId ∨ b.toolId ≠ request.toolId ∨ b.toolVersion ≠ request.toolVersion then
      .error (.toolExecution "MCP_BINDING_MISMATCH" ("MCP binding identity mismatch: " ++ request.toolId))
    else .ok b

/-- What the client makes of a call. -/
def call (b : MCPToolBinding) : MCPOutcome :=
  executor.client b.serverRef b.toolName (request.arguments.map (fun ne => (ne.1, encodeValue ne.2.value)))
    { executionId := request.executionId, invocationId := request.invocationId, tenantId := request.principal.tenantId,
      subjectId := request.principal.subjectId, authContextRef := request.principal.authContextRef,
      authorizationDecisionRef := request.authorizationDecisionRef }

end MCPToolExecutor

/-- `_validate_call_result` and the failure a tool reports: the structured content. -/
def structuredContent (outcome : MCPOutcome) (request : ToolCallRequest) : Except Exn Content :=
  let malformed : Except Exn Content :=
    .error (.toolExecution "MCP_MALFORMED_RESULT" ("MCP result envelope is malformed: " ++ request.toolId))
  match outcome with
  | .clientError => .error (.toolExecution "MCP_CLIENT_ERROR" ("MCP client failed: " ++ request.toolId))
  | .other       => malformed
  | .result r    =>
    match r.content, r.isError with
    | some blocks, some isError =>
      if ¬ blocks.all id then malformed
      else if isError = some true then
        .error (.toolExecution "MCP_TOOL_ERROR" ("MCP tool reported failure: " ++ request.toolId))
      else
        match r.structuredContent with
        | .mapping cls items => .ok (.mapping cls items)
        | _ => .error (.toolExecution "MCP_STRUCTURED_CONTENT_REQUIRED"
            ("MCP structuredContent is required: " ++ request.toolId))
    | _, _ => malformed

/-- The part of the structured content a binding points at. -/
def selectPart (request : ToolCallRequest) : List String → Content → Except Exn Content
  | [], c           => .ok c
  | part :: path, c =>
    match c with
    | .mapping _ items =>
      match items.lookup part with
      | some next => selectPart request path next
      | none      => .error (.toolExecution "MCP_RESULT_PATH_MISSING" ("MCP result path is missing: " ++ request.toolId))
    | _ => .error (.toolExecution "MCP_RESULT_PATH_MISSING" ("MCP result path is missing: " ++ request.toolId))

/-- `decode_value`, a `ValueError` reported as a malformed result. -/
def decodePart (reader : IsoReader) (request : ToolCallRequest) (part : Content) : Except Exn Content :=
  match part.decode reader with
  | .error e =>
    .error (if e.isMalformed then
      .toolExecution "MCP_MALFORMED_RESULT" ("MCP structured result is malformed: " ++ request.toolId) else e)
  | .ok c    => .ok c

/-- `validate_result_value` -/
def validateContent (c : Content) (contract : ToolContract) : Except Exn Unit :=
  if contentConforms contract.outputType c then .ok ()
  else .error (.toolExecution "OUTPUT_CONTRACT_VIOLATION" ("result does not match contract: " ++ contract.toolId))

namespace MCPToolExecutor

/-- `MCPToolExecutor.execute` -/
def execute (executor : MCPToolExecutor) (request : ToolCallRequest) : Except Exn ToolResultEnvelope := do
  let contract ← executor.contract request
  validateRequest request contract
  let binding ← executor.binding request
  let content ← structuredContent (executor.call request binding) request
  let part ← selectPart request binding.resultPath content
  let result ← decodePart executor.reader request part
  validateContent result contract
  let resultHash ← result.resultHash
  return { invocationId := request.invocationId, toolId := request.toolId, toolVersion := request.toolVersion,
           value := result.value, typeInfo := contract.outputType,
           presence := if result.value = .null ∨ result.value = .list [] then .empty else .present,
           completeness := .complete, classification := contract.outputClassification, resultHash, snapshotRef := none }

end MCPToolExecutor

/-! ## What a call ends in -/

/-- Only a `ToolExecutionError` is raised. -/
def Reported {α : Type} (r : Except Exn α) : Prop := ∀ e, r = .error e → ∃ code m, e = .toolExecution code m

omit [Platform] in
theorem Reported.ok {α : Type} (a : α) : Reported (.ok a : Except Exn α) := fun _ h => by cases h

omit [Platform] in
theorem Reported.error {α : Type} (code m : String) : Reported (.error (.toolExecution code m) : Except Exn α) := by
  intro e h
  cases h
  exact ⟨code, m, rfl⟩

omit [Platform] in
theorem contract_reported (executor : MCPToolExecutor) (request : ToolCallRequest) : Reported (executor.contract request) := by
  unfold MCPToolExecutor.contract
  split
  · exact .error _ _
  · rename_i hother
    intro e h
    exfalso
    unfold ToolContractCatalog.resolve at h hother
    split at h
    · rename_i hunknown
      exact hother _ (if_pos hunknown)
    · rename_i hknown
      split at h
      · cases h
      · rename_i hnone
        exact hother ("incompatible tool version: " ++ request.toolId ++ "@" ++ request.toolVersion)
          (by rw [if_neg hknown, hnone])

omit [Platform] in
theorem argumentsConform_reported {request : ToolCallRequest} : ∀ {types : List (String × TypeRef)},
    (∀ n ∈ types.map Prod.fst, n ∈ request.arguments.map Prod.fst) → Reported (argumentsConform request types)
  | [], _               => .ok _
  | (n, t) :: types, h => by
    rw [List.map_cons, List.forall_mem_cons] at h
    unfold argumentsConform
    split
    · split
      · exact argumentsConform_reported h.2
      · exact .error _ _
    · rename_i hnone
      obtain ⟨a, ha, rfl⟩ := List.mem_map.1 h.1
      have hno := List.lookup_eq_none_iff.1 hnone a ha
      simp at hno

theorem validateRequest_reported (request : ToolCallRequest) (contract : ToolContract) :
    Reported (validateRequest request contract) := by
  unfold validateRequest
  split
  · exact .error _ _
  · split
    · exact .error _ _
    · rename_i hnames
      rw [not_or, not_not, not_not] at hnames
      exact argumentsConform_reported hnames.2

omit [Platform] in
theorem binding_reported (executor : MCPToolExecutor) (request : ToolCallRequest) : Reported (executor.binding request) := by
  unfold MCPToolExecutor.binding
  split
  · exact .error _ _
  · exact .error _ _
  · split
    · exact .error _ _
    · exact .ok _

omit [Platform] in
theorem structuredContent_reported (outcome : MCPOutcome) (request : ToolCallRequest) :
    Reported (structuredContent outcome request) := by
  unfold structuredContent
  repeat' split
  all_goals first | exact .error _ _ | exact .ok _

omit [Platform] in
theorem selectPart_reported (request : ToolCallRequest) : ∀ (path : List String) (c : Content),
    Reported (selectPart request path c)
  | [], _        => .ok _
  | _ :: path, c => by
    unfold selectPart
    split
    · split
      · exact selectPart_reported request path _
      · exact .error _ _
    · exact .error _ _

omit [Platform] in
theorem decodePart_reported (reader : IsoReader) (request : ToolCallRequest) (part : Content) :
    Reported (decodePart reader request part) := by
  unfold decodePart
  split
  · rename_i e he
    rw [if_pos (Content.decode_malformed reader part e he)]
    exact .error _ _
  · exact .ok _

/-- **Data a call gets as far as its hash**: a contract the request is valid for, a binding, structured content, a part of it
that decodes to this and conforms to the output type. -/
structure ReachesHash (executor : MCPToolExecutor) (request : ToolCallRequest) (contract : ToolContract) (c : Content) : Prop where
  resolved : executor.contract request = .ok contract
  valid    : validateRequest request contract = .ok ()
  decoded  : ∃ binding content part, executor.binding request = .ok binding ∧
    structuredContent (executor.call request binding) request = .ok content ∧
    selectPart request binding.resultPath content = .ok part ∧ part.decode executor.reader = .ok c
  conforms : contentConforms contract.outputType c = true

/-- The envelope a call returns. -/
def resultEnvelope (request : ToolCallRequest) (contract : ToolContract) (c : Content) (resultHash : String) :
    ToolResultEnvelope :=
  { invocationId := request.invocationId, toolId := request.toolId, toolVersion := request.toolVersion,
    value := c.value, typeInfo := contract.outputType,
    presence := if c.value = .null ∨ c.value = .list [] then .empty else .present,
    completeness := .complete, classification := contract.outputClassification, resultHash, snapshotRef := none }

theorem execute_of_reaches {executor : MCPToolExecutor} {request : ToolCallRequest} {contract : ToolContract} {c : Content}
    (h : ReachesHash executor request contract c) :
    executor.execute request = c.resultHash.map (resultEnvelope request contract c) := by
  obtain ⟨hcontract, hvalid, ⟨binding, content, part, hbinding, hcontent, hpart, hdecoded⟩, hconforms⟩ := h
  unfold MCPToolExecutor.execute
  have hdecode : decodePart executor.reader request part = .ok c := by rw [decodePart, hdecoded]
  have hvalidate : validateContent c contract = .ok () := by rw [validateContent, if_pos hconforms]
  rw [hcontract]
  simp only [bind, Except.bind, hvalid, hbinding, hcontent, hpart, hdecode, hvalidate]
  cases c.resultHash <;> rfl

/-- A computation raised a `ToolExecutionError`. -/
def Fails {α : Type} (r : Except Exn α) : Prop := ∃ code m, r = .error (.toolExecution code m)

omit [Platform] in
theorem Reported.then {α β : Type} {r : Except Exn α} {f : α → Except Exn β} {Q : Prop} (hr : Reported r)
    (hok : ∀ a, r = .ok a → Fails (f a) ∨ Q) : Fails (r >>= f) ∨ Q := by
  cases r with
  | error e =>
    obtain ⟨code, m, rfl⟩ := hr e rfl
    exact .inl ⟨code, m, rfl⟩
  | ok a => exact hok a rfl

/-- **A call that does not get that far is a tool error.** -/
theorem execute_fails_or (executor : MCPToolExecutor) (request : ToolCallRequest) :
    Fails (executor.execute request) ∨ ∃ contract c, ReachesHash executor request contract c := by
  unfold MCPToolExecutor.execute
  refine (contract_reported executor request).then (fun contract hcontract => ?_)
  refine (validateRequest_reported request contract).then (fun _ hvalid => ?_)
  refine (binding_reported executor request).then (fun binding hbinding => ?_)
  refine (structuredContent_reported _ request).then (fun content hcontent => ?_)
  refine (selectPart_reported request _ content).then (fun part hpart => ?_)
  refine (decodePart_reported executor.reader request part).then (fun c hc => ?_)
  by_cases hconforms : contentConforms contract.outputType c = true
  · have hdecoded : part.decode executor.reader = .ok c := by
      unfold decodePart at hc
      split at hc
      · cases hc
      · rename_i d hd
        rw [hd, Except.ok.inj hc]
    exact .inr ⟨contract, c, hcontract, hvalid, ⟨binding, content, part, hbinding, hcontent, hpart, hdecoded⟩, hconforms⟩
  · rw [validateContent, if_neg hconforms]
    exact .inl ⟨_, _, rfl⟩

/-! ## The hash of a result -/

omit [Platform] in
theorem selectPart_keyed {request : ToolCallRequest} : ∀ {path : List String} {c d : Content},
    selectPart request path c = .ok d → c.Keyed → d.Keyed
  | [], _, _, h, hk        => by
    cases h
    exact hk
  | _ :: path, c, d, h, hk => by
    unfold selectPart at h
    split at h
    · split at h
      · rename_i next hnext
        exact selectPart_keyed h (Content.fieldsKeyed_iff.1 hk.2 _ (mem_of_lookup hnext))
      · cases h
    · cases h

omit [Platform] in
theorem structuredContent_keyed {outcome : MCPOutcome} {request : ToolCallRequest} {c : Content}
    (h : structuredContent outcome request = .ok c) : c.Keyed := by
  unfold structuredContent at h
  split at h
  · cases h
  · cases h
  · rename_i r
    split at h
    · split at h
      · cases h
      · split at h
        · cases h
        · split at h
          · rename_i hcontent
            cases h
            exact hcontent ▸ r.keyed
          · cases h
    · cases h

theorem ReachesHash.keyed {executor : MCPToolExecutor} {request : ToolCallRequest} {contract : ToolContract} {c : Content}
    (h : ReachesHash executor request contract c) : c.Keyed := by
  obtain ⟨binding, content, part, -, hcontent, hpart, hdecoded⟩ := h.decoded
  exact Content.decode_keyed _ hdecoded (selectPart_keyed hpart (structuredContent_keyed hcontent))

/-- **Data of a type has a hash exactly when no mapping in it is of another class and no text of it is broken.** -/
theorem resultHash_ok_iff {t : TypeRef} {c : Content} (hconf : contentConforms t c = true) (hkeyed : c.Keyed) :
    (∃ h, c.resultHash = .ok h) ↔ c.hasView = false ∧ c.hasBroken = false := by
  have hjson := toJson_isOk (encodeValue c.value)
  rw [encodeValue_isJson_eq, contentConforms_encodable t c hconf hkeyed] at hjson
  unfold Content.resultHash canonicalJson
  cases hj : toJson (encodeValue c.value) with
  | error e =>
    rw [hj] at hjson
    have hview : c.hasView = true := by
      cases hv : c.hasView with
      | true  => rfl
      | false => rw [hv] at hjson; cases hjson
    simp [hview, Except.map, bind, Except.bind]
  | ok j =>
    rw [hj] at hjson
    have hview : c.hasView = false := by
      cases hv : c.hasView with
      | true  => rw [hv] at hjson; cases hjson
      | false => rfl
    cases c.hasBroken <;> simp [hview, Except.map, bind, Except.bind, pure, Except.pure]

omit [Platform] in
mutual
/-- What `json.dumps` raises is no tool error. -/
theorem toJson_error : ∀ {v : Value} {e : Exn}, toJson v = .error e → ∃ m, e = .type m
  | .null, _, h | .bool _, _, h | .int _, _, h | .float _, _, h | .str _, _, h => by cases h
  | .decimal _, _, h | .money _, _, h | .date _, _, h | .datetime _, _, h | .foreign _, _, h => by
    cases h
    exact ⟨_, rfl⟩
  | .list items, _, h | .tuple items, _, h => by
    cases hi : toJsonItems items with
    | ok js   => rw [toJson, hi] at h; cases h
    | error e => rw [toJson, hi] at h; cases h; exact toJsonItems_error hi
  | .dict items, _, h => by
    cases hi : toJsonFields items with
    | ok js   => rw [toJson, hi] at h; cases h
    | error e => rw [toJson, hi] at h; cases h; exact toJsonFields_error hi
theorem toJsonItems_error : ∀ {vs : List Value} {e : Exn}, toJsonItems vs = .error e → ∃ m, e = .type m
  | [], _, h      => by cases h
  | v :: vs, _, h => by
    rw [toJsonItems] at h
    cases hv : toJson v with
    | error e => rw [hv] at h; cases h; exact toJson_error hv
    | ok j    =>
      cases hvs : toJsonItems vs with
      | error e => rw [hv, hvs] at h; cases h; exact toJsonItems_error hvs
      | ok js   => rw [hv, hvs] at h; cases h
theorem toJsonFields_error : ∀ {vs : List (String × Value)} {e : Exn}, toJsonFields vs = .error e → ∃ m, e = .type m
  | [], _, h           => by cases h
  | (k, v) :: vs, _, h => by
    rw [toJsonFields] at h
    cases hv : toJson v with
    | error e => rw [hv] at h; cases h; exact toJson_error hv
    | ok j    =>
      cases hvs : toJsonFields vs with
      | error e => rw [hv, hvs] at h; cases h; exact toJsonFields_error hvs
      | ok js   => rw [hv, hvs] at h; cases h
end

theorem resultHash_error {c : Content} {code m : String} : c.resultHash ≠ .error (.toolExecution code m) := by
  intro h
  unfold Content.resultHash canonicalJson at h
  cases hj : toJson (encodeValue c.value) with
  | error e =>
    obtain ⟨m', rfl⟩ := toJson_error hj
    rw [hj] at h
    cases h
  | ok j =>
    rw [hj] at h
    simp only [Except.map, bind, Except.bind] at h
    split at h <;> cases h

/-! ## The validator accepts what is returned -/

/-- The envelope as the validator gets it. -/
def ToolResultEnvelope.raw (r : ToolResultEnvelope) : RawToolResult :=
  ⟨some r.invocationId, some r.toolId, some r.toolVersion, r.value, some r.typeInfo, some r.presence, some r.completeness,
    some r.classification, some r.resultHash, some r.snapshotRef⟩

/-- All three checks of `ToolContractValidator` pass. -/
def Accepted (request : ToolCallRequest) (contract : ToolContract) (r : ToolResultEnvelope) : Prop :=
  validateResultStructure (.returns r.raw) request = .ok r ∧ validateResult r contract = .ok () ∧
    validateResultHash r = .ok ()

theorem resultEnvelope_accepted {request : ToolCallRequest} {contract : ToolContract} {c : Content} {h : String}
    (hconf : contentConforms contract.outputType c = true) (hview : c.hasView = false) (hbroken : c.hasBroken = false)
    (hh : c.resultHash = .ok h) : Accepted request contract (resultEnvelope request contract c h) := by
  refine ⟨?_, ?_, ?_⟩
  · simp [validateResultStructure, ToolResultEnvelope.raw, resultEnvelope]
  · have hvalue : conformsTo contract.outputType c.value = true := contentConforms_value _ c hview hbroken ▸ hconf
    simp [validateResult, resultEnvelope, hvalue]
  · have hhash : toolResultHash c.value = .ok h := by
      unfold Content.resultHash at hh
      unfold toolResultHash
      rw [hbroken] at hh
      cases hj : canonicalJson (encodeValue c.value) with
      | error e => rw [hj] at hh; cases hh
      | ok text => rw [hj] at hh; exact hh
    simp [validateResultHash, resultEnvelope, hhash]

/-- **An answer of a call the claim allows**: an envelope its validator accepts, or a tool error. -/
def Delivers (executor : MCPToolExecutor) (request : ToolCallRequest) : Prop :=
  (∃ contract r, executor.contract request = .ok contract ∧ executor.execute request = .ok r ∧ Accepted request contract r) ∨
    Fails (executor.execute request)

/-- **Which calls end well**: exactly those whose decoded result, if it conforms to the output type, holds no mapping of a
class other than `dict` and no text with a lone surrogate. -/
theorem execute_delivers_iff (executor : MCPToolExecutor) (request : ToolCallRequest) :
    Delivers executor request ↔
      ∀ contract c, ReachesHash executor request contract c → c.hasView = false ∧ c.hasBroken = false := by
  constructor
  · intro hdelivers contract c hreaches
    refine (resultHash_ok_iff hreaches.conforms hreaches.keyed).1 ?_
    have hexecute := execute_of_reaches hreaches
    rcases hdelivers with ⟨contract', r, -, hreturned, -⟩ | ⟨code, m, hfailed⟩
    · rw [hexecute, map_ok_iff] at hreturned
      obtain ⟨h, hh, -⟩ := hreturned
      exact ⟨h, hh⟩
    · rw [hexecute] at hfailed
      cases hh : c.resultHash with
      | ok h    => exact ⟨h, rfl⟩
      | error e =>
        rw [hh] at hfailed
        cases hfailed
        exact absurd hh resultHash_error
  · intro hclean
    rcases execute_fails_or executor request with hfails | ⟨contract, c, hreaches⟩
    · exact .inr hfails
    · obtain ⟨hview, hbroken⟩ := hclean contract c hreaches
      obtain ⟨h, hh⟩ := (resultHash_ok_iff hreaches.conforms hreaches.keyed).2 ⟨hview, hbroken⟩
      refine .inl ⟨contract, resultEnvelope request contract c h, hreaches.resolved, ?_,
        resultEnvelope_accepted hreaches.conforms hview hbroken hh⟩
      rw [execute_of_reaches hreaches, hh]
      rfl

end Executor

/-! ## A result that is no `dict` -/

section Ascii

attribute [local instance] Platform.ascii

theorem voucherContract_version : isVersion "1.0.0" = true := by decide

theorem voucherContract_capability : Text.isBlank "READ" = false := by decide

theorem voucherContract_risk : Text.isBlank "R0" = false := by decide

theorem voucherContract_names : ∀ n ∈ ([] : List (String × TypeRef)).map Prod.fst, Text.isBlank n = false := nofun

theorem voucherContract_once : KeysOnce ([] : List (String × TypeRef)) := List.nodup_nil

theorem voucherContract_timeout : 1 ≤ 1000 ∧ 1000 ≤ MAX_TOOL_TIMEOUT_MS := by decide

theorem voucherContract_read : "READ" = "WRITE" → (none : Option OperationKind).isSome ∧ (none : Option RiskLevel).isSome ∧
    (none : Option WriteSemantics).isSome := fun h => absurd h (by decide)

theorem voucherContract_reads : "READ" ≠ "WRITE" → (none : Option OperationKind) = none ∧ (none : Option WriteSemantics) = none :=
  fun _ => ⟨rfl, rfl⟩

/-- A tool that answers a record. -/
def voucherContract : ToolContract where
  toolId               := "voucher.read"
  version              := "1.0.0"
  capability           := "READ"
  inputTypes           := []
  outputType           := recordType "Voucher" [("id", STRING)]
  requiredScope        := "voucher:read"
  outputClassification := .internal
  timeoutMs            := 1000
  risk                 := "R0"
  emptyIsValid         := false
  operationKind        := none
  riskLevel            := none
  writeSemantics       := none
  versionCanonical     := voucherContract_version
  capabilitySet        := voucherContract_capability
  riskSet              := voucherContract_risk
  namesSet             := voucherContract_names
  namesUnique          := voucherContract_once
  timeoutRange         := voucherContract_timeout
  writeDeclared        := voucherContract_read
  writeOnly            := voucherContract_reads

theorem voucherBinding_named : ∀ s ∈ ["binding-1", analyst.tenantId, "voucher.read", "1.0.0", "server-1", "read_voucher"],
    Text.isBlank s = false := by decide

def voucherBinding : MCPToolBinding :=
  ⟨"binding-1", analyst.tenantId, "voucher.read", "1.0.0", "server-1", "read_voucher", [], voucherBinding_named, nofun⟩

/-- A record as a view of a `dict`. -/
def voucherView : Content := .mapping (some "mappingproxy") [("id", .plain (.str "v-1") rfl)]

theorem voucherView_keyed : voucherView.Keyed := ⟨by decide, trivial, trivial⟩

def voucherExecutor : MCPToolExecutor where
  catalog  := ⟨[voucherContract], List.nodup_singleton _⟩
  bindings := fun _ _ _ => .binding voucherBinding
  client   := fun _ _ _ _ => .result ⟨some [], voucherView, some none, voucherView_keyed⟩
  reader   := ⟨fun _ => none, fun _ => none, fun _ => none⟩

def voucherRequest : ToolCallRequest where
  executionId              := "execution-1"
  invocationId             := "inv0001"
  nodeId                   := "n1"
  toolId                   := "voucher.read"
  toolVersion              := "1.0.0"
  contractHash             := voucherContract.contractHash
  arguments                := []
  principal                := analyst
  authorizationDecisionRef := "decision-1"

theorem voucherRequest_reaches : ReachesHash voucherExecutor voucherRequest voucherContract voucherView where
  resolved := rfl
  valid    := by simp [validateRequest, voucherRequest, voucherContract, argumentsConform]
  decoded  := ⟨voucherBinding, voucherView, voucherView, rfl, rfl, rfl, rfl⟩
  conforms := by decide

/-- **A record a client hands over as a `MappingProxyType`** passes every check and raises a `TypeError` at its hash. -/
theorem voucherView_raises :
    voucherExecutor.execute voucherRequest = .error (.type "Object of type mappingproxy is not JSON serializable") ∧
    ¬ Delivers voucherExecutor voucherRequest := by
  have hexecute : voucherExecutor.execute voucherRequest =
      .error (.type "Object of type mappingproxy is not JSON serializable") := execute_of_reaches voucherRequest_reaches
  refine ⟨hexecute, ?_⟩
  rintro (⟨contract, r, -, hreturned, -⟩ | ⟨code, m, hfailed⟩)
  · rw [hexecute] at hreturned
    cases hreturned
  · rw [hexecute] at hfailed
    cases hfailed

end Ascii

end Nsl
