import Mathlib.Data.List.Nodup
/-!
# Dict — a dictionary with string keys

Entries stand in the order their keys were first set, each key once. Two dictionaries are the **same** when they give
the same answer for every key, whatever the order.
-/

/-- Each key of the entries is there once. -/
def KeysOnce {α : Type} (entries : List (String × α)) : Prop := (entries.map Prod.fst).Nodup

instance {α : Type} (entries : List (String × α)) : Decidable (KeysOnce entries) :=
  inferInstanceAs (Decidable (entries.map Prod.fst).Nodup)

/-- With each key there once, the answer for a key is the value that stands with it. -/
theorem lookup_iff_mem {α : Type} {k : String} {v : α} : ∀ {entries : List (String × α)}, KeysOnce entries →
    (entries.lookup k = some v ↔ (k, v) ∈ entries)
  | [], _             => by simp
  | (k', v') :: es, h => by
    have hnodup := List.nodup_cons.1 h
    by_cases hk : k = k'
    · subst hk
      have hmem : (k, v) ∉ es := fun hm => hnodup.1 (List.mem_map.2 ⟨(k, v), hm, rfl⟩)
      simp [hmem, eq_comm]
    · have hk' : (k == k') = false := by simpa using hk
      rw [List.lookup_cons, hk', List.mem_cons, Prod.mk.injEq]
      simp only [hk, false_and, false_or]
      exact lookup_iff_mem hnodup.2

theorem lookup_perm {α : Type} {es es' : List (String × α)} (h : es.Perm es') (hes : KeysOnce es) (k : String) :
    es.lookup k = es'.lookup k := by
  have hes' : KeysOnce es' := (h.map Prod.fst).nodup_iff.1 hes
  ext v
  rw [lookup_iff_mem hes, lookup_iff_mem hes', h.mem_iff]

theorem mem_of_lookup {α : Type} {k : String} {v : α} : ∀ {l : List (String × α)}, l.lookup k = some v → (k, v) ∈ l
  | [], h           => by cases h
  | (k', v') :: l, h => by
    rw [List.lookup_cons] at h
    by_cases hk : k = k'
    · subst hk
      simp only [beq_self_eq_true] at h
      cases h
      exact List.mem_cons_self ..
    · have hk' : (k == k') = false := by simpa using hk
      rw [hk'] at h
      exact List.mem_cons_of_mem _ (mem_of_lookup h)

/-- An entry that is there when its value is. -/
theorem lookup_optional {α β : Type} (k k' : String) (o : Option α) (f : α → β) :
    (o.toList.map (fun a => (k', f a))).lookup k = if k = k' then o.map f else none := by
  by_cases hk : k = k'
  · subst hk
    cases o <;> simp
  · have hk' : (k == k') = false := by simpa using hk
    cases o <;> simp [hk, List.lookup_cons, hk']

/-- An entry left out when the test holds. -/
theorem lookup_unless {β : Type} (k k' : String) (b : Bool) (v : β) :
    (if b then [] else [(k', v)]).lookup k = if k = k' ∧ b = false then some v else none := by
  by_cases hk : k = k'
  · subst hk
    cases b <;> simp
  · have hk' : (k == k') = false := by simpa using hk
    cases b <;> simp [hk, List.lookup_cons, hk']

structure Dict (α : Type) where
  entries : List (String × α)
  once    : KeysOnce entries
  deriving DecidableEq

namespace Dict

variable {α β : Type}

def empty : Dict α := ⟨[], List.nodup_nil⟩

instance : Inhabited (Dict α) := ⟨empty⟩

def get? (d : Dict α) (k : String) : Option α := d.entries.lookup k

def contains (d : Dict α) (k : String) : Bool := (d.get? k).isSome

def keys (d : Dict α) : List String := d.entries.map Prod.fst

def values (d : Dict α) : List α := d.entries.map Prod.snd

/-- A new value in the key's old place, or a new last entry. -/
def setEntry (k : String) (v : α) : List (String × α) → List (String × α)
  | []           => [(k, v)]
  | (k', v') :: es => if k' = k then (k, v) :: es else (k', v') :: setEntry k v es

theorem setEntry_keys (k : String) (v : α) : ∀ (es : List (String × α)),
    (setEntry k v es).map Prod.fst = if k ∈ es.map Prod.fst then es.map Prod.fst else es.map Prod.fst ++ [k]
  | [] => rfl
  | (k', v') :: es => by
    have ih := setEntry_keys k v es
    by_cases hk : k' = k
    · subst hk
      simp [setEntry]
    · have hk' : k ≠ k' := fun h => hk h.symm
      unfold setEntry
      rw [if_neg hk, List.map_cons, ih]
      by_cases hm : k ∈ es.map Prod.fst <;> simp [hm, hk']

theorem setEntry_once (k : String) (v : α) {es : List (String × α)} (h : KeysOnce es) : KeysOnce (setEntry k v es) := by
  unfold KeysOnce
  rw [setEntry_keys]
  by_cases hm : k ∈ es.map Prod.fst
  · rw [if_pos hm]; exact h
  · rw [if_neg hm]
    exact h.append (List.nodup_singleton k) (by simpa using hm)

def set (d : Dict α) (k : String) (v : α) : Dict α := ⟨setEntry k v d.entries, setEntry_once k v d.once⟩

/-- `dict(pairs)`: a later value of a key takes the place of an earlier one. -/
def ofList (pairs : List (String × α)) : Dict α := pairs.foldl (fun d kv => d.set kv.1 kv.2) empty

/-- Python's `==`: the same answer for every key. -/
def Same (d d' : Dict α) : Prop := ∀ k, d.get? k = d'.get? k

theorem setEntry_lookup_self (k : String) (v : α) : ∀ (es : List (String × α)), (setEntry k v es).lookup k = some v
  | [] => by simp [setEntry]
  | (k', v') :: es => by
    by_cases hk : k' = k
    · simp [setEntry, hk]
    · have hk' : (k == k') = false := by simpa using fun h : k = k' => hk h.symm
      simp [setEntry, hk, List.lookup_cons, hk', setEntry_lookup_self k v es]

theorem setEntry_lookup_other {k k₀ : String} (v : α) (hk₀ : (k₀ == k) = false) : ∀ (es : List (String × α)),
    (setEntry k v es).lookup k₀ = es.lookup k₀
  | [] => by simp [setEntry, List.lookup_cons, hk₀]
  | (k', v') :: es => by
    by_cases hk : k' = k
    · subst hk
      simp [setEntry, List.lookup_cons, hk₀]
    · simp only [setEntry, if_neg hk, List.lookup_cons]
      rw [setEntry_lookup_other v hk₀ es]

theorem mem_values_of_get? {d : Dict α} {k : String} {v : α} (h : d.get? k = some v) : v ∈ d.values :=
  List.mem_map.2 ⟨(k, v), (lookup_iff_mem d.once).1 h, rfl⟩

theorem mem_setEntry {k : String} {v : α} {x : String × α} : ∀ {es : List (String × α)}, x ∈ setEntry k v es →
    x = (k, v) ∨ x ∈ es
  | [], h             => Or.inl (List.mem_singleton.1 h)
  | (k', v') :: es, h => by
    unfold setEntry at h
    split at h
    · exact (List.mem_cons.1 h).imp_right (List.mem_cons_of_mem _)
    · rcases List.mem_cons.1 h with rfl | h
      · exact Or.inr (List.mem_cons_self ..)
      · exact (mem_setEntry h).imp_right (List.mem_cons_of_mem _)

theorem mem_values_set {d : Dict α} {k : String} {v w : α} (h : w ∈ (d.set k v).values) : w = v ∨ w ∈ d.values := by
  obtain ⟨x, hx, rfl⟩ := List.mem_map.1 h
  rcases mem_setEntry hx with rfl | hx
  · exact Or.inl rfl
  · exact Or.inr (List.mem_map_of_mem hx)

theorem setEntry_new {k : String} {v : α} : ∀ {es : List (String × α)}, es.lookup k = none →
    setEntry k v es = es ++ [(k, v)]
  | [], _             => rfl
  | (k', v') :: es, h => by
    rw [List.lookup_cons] at h
    by_cases hk : k' = k
    · simp [hk] at h
    · have hk' : (k == k') = false := by simpa using fun h : k = k' => hk h.symm
      rw [hk'] at h
      rw [setEntry, if_neg hk, setEntry_new h]
      rfl

/-- A new key comes last. -/
theorem values_set_new {d : Dict α} {k : String} {v : α} (h : d.contains k = false) :
    (d.set k v).values = d.values ++ [v] := by
  have hnone : d.entries.lookup k = none := by simpa [contains, get?] using h
  show (setEntry k v d.entries).map Prod.snd = _
  rw [setEntry_new hnone, List.map_append]
  rfl

@[simp] theorem get?_empty (k : String) : (empty : Dict α).get? k = none := rfl

@[simp] theorem get?_set_self (d : Dict α) (k : String) (v : α) : (d.set k v).get? k = some v :=
  setEntry_lookup_self k v d.entries

theorem get?_set_other (d : Dict α) {k k₀ : String} (v : α) (h : k₀ ≠ k) : (d.set k v).get? k₀ = d.get? k₀ :=
  setEntry_lookup_other v (by simpa using h) d.entries

theorem contains_set (d : Dict α) (k k₀ : String) (v : α) : (d.set k v).contains k₀ = (d.contains k₀ || k₀ = k) := by
  unfold contains
  by_cases hk : k₀ = k
  · subst hk
    simp
  · rw [get?_set_other d v hk]
    simp [hk]

/-- What stands under a key is the value set there, or was there before. -/
theorem get?_set_or {d : Dict α} {k k₀ : String} {v w : α} (h : (d.set k v).get? k₀ = some w) :
    (k₀ = k ∧ w = v) ∨ d.get? k₀ = some w := by
  by_cases hk : k₀ = k
  · subst hk
    rw [get?_set_self] at h
    cases h
    exact Or.inl ⟨rfl, rfl⟩
  · rw [get?_set_other d v hk] at h
    exact Or.inr h

/-- `del d[k]` -/
def erase (d : Dict α) (k : String) : Dict α :=
  ⟨d.entries.filter (fun e => e.1 ≠ k), d.once.sublist (List.filter_sublist.map Prod.fst)⟩

theorem lookup_filter {p : String → Bool} {k : String} : ∀ {es : List (String × α)},
    (es.filter (fun e => p e.1)).lookup k = if p k then es.lookup k else none
  | []           => by simp
  | (k', v) :: es => by
    have ih := @lookup_filter p k es
    by_cases hk : k = k'
    · subst hk
      by_cases hp : p k = true
      · simp [hp]
      · simp only [List.filter_cons, hp, Bool.false_eq_true, if_false] at ih ⊢
        exact ih
    · have hne : (k == k') = false := by simpa using hk
      by_cases hp : p k' = true
      · simp only [List.filter_cons, hp, if_true, List.lookup_cons, hne]
        exact ih
      · simp only [List.filter_cons, hp, Bool.false_eq_true, if_false, List.lookup_cons, hne]
        exact ih

theorem get?_erase (d : Dict α) (k k₀ : String) : (d.erase k).get? k₀ = if k₀ = k then none else d.get? k₀ := by
  unfold get? erase
  have h := @lookup_filter _ (fun x => decide (x ≠ k)) k₀ d.entries
  rw [h]
  by_cases hk : k₀ = k <;> simp [hk]

theorem get?_foldl_erase : ∀ (ks : List String) (d : Dict α) (k : String),
    (ks.foldl erase d).get? k = if k ∈ ks then none else d.get? k
  | [], _, _      => by simp
  | k' :: ks, d, k => by
    rw [List.foldl_cons, get?_foldl_erase ks, get?_erase]
    by_cases hk : k = k' <;> by_cases hmem : k ∈ ks <;> simp [hk, hmem]

theorem get?_foldl_set : ∀ {pairs : List (String × α)} {d : Dict α} {k : String} {v : α},
    (pairs.foldl (fun d kv => d.set kv.1 kv.2) d).get? k = some v → (k, v) ∈ pairs ∨ d.get? k = some v
  | [], _, _, _, h             => Or.inr h
  | (k', v') :: pairs, d, k, v, h => by
    rw [List.foldl_cons] at h
    rcases get?_foldl_set h with hmem | hget
    · exact Or.inl (List.mem_cons_of_mem _ hmem)
    · rcases get?_set_or hget with ⟨rfl, rfl⟩ | hget
      · exact Or.inl (List.mem_cons_self ..)
      · exact Or.inr hget

/-- What a dictionary of pairs answers is one of them. -/
theorem mem_of_get?_ofList {pairs : List (String × α)} {k : String} {v : α} (h : (ofList pairs).get? k = some v) :
    (k, v) ∈ pairs := by
  rcases get?_foldl_set h with hmem | hget
  · exact hmem
  · cases hget

theorem foldl_set_entries : ∀ (pairs : List (String × α)) (d : Dict α), KeysOnce (d.entries ++ pairs) →
    (pairs.foldl (fun d kv => d.set kv.1 kv.2) d).entries = d.entries ++ pairs
  | [], _, _               => (List.append_nil _).symm
  | (k, v) :: pairs, d, h => by
    have hnew : d.entries.lookup k = none := by
      rw [List.lookup_eq_none_iff]
      intro e he
      have hne : k ≠ e.1 := by
        rintro rfl
        unfold KeysOnce at h
        rw [List.map_append, List.map_cons] at h
        exact (List.disjoint_of_nodup_append h) (List.mem_map_of_mem he) List.mem_cons_self
      simpa using hne
    have hset : (d.set k v).entries = d.entries ++ [(k, v)] := setEntry_new hnew
    rw [List.foldl_cons, foldl_set_entries pairs (d.set k v) (by rwa [hset, List.append_assoc]), hset, List.append_assoc]
    rfl

/-- A dictionary of pairs with each key once has these pairs. -/
theorem ofList_entries {pairs : List (String × α)} (h : KeysOnce pairs) : (ofList pairs).entries = pairs :=
  foldl_set_entries pairs empty h

theorem ofList_self (d : Dict α) : ofList d.entries = d := by
  cases hd : ofList d.entries with
  | mk entries once =>
    have hentries := ofList_entries d.once
    rw [hd] at hentries
    cases hentries
    rfl

end Dict
