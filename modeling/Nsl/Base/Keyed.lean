import Nsl.Base.Dict
/-!
# Keyed — a dictionary of values by a key of theirs

Values are put under the key they carry. Such a dictionary `Gains` values when it keeps all it has and the values come
to stand in it; a fold of steps that gain their value gains them all.
-/
namespace Dict

variable {α ε : Type} (key : α → String)

/-- Every value stands under its own key. -/
def Keyed (d : Dict α) : Prop := ∀ e ∈ d.entries, key e.2 = e.1

/-- The value stands in the dictionary. -/
def Has (d : Dict α) (a : α) : Prop := d.get? (key a) = some a

structure Gains (d d' : Dict α) (items : List α) : Prop where
  keyed : d'.Keyed key
  keeps : ∀ a, d.Has key a → d'.Has key a
  all   : ∀ a ∈ items, d'.Has key a

/-- `{key(item): item for item in items}` -/
def byKey (items : List α) : Dict α := ofList (items.map (fun a => (key a, a)))

variable {key} {d : Dict α}

theorem Keyed.set (h : d.Keyed key) (a : α) : (d.set (key a) a).Keyed key := by
  intro e he
  rcases mem_setEntry he with rfl | he
  · rfl
  · exact h e he

/-- The keys of the values are the keys, each once. -/
theorem Keyed.nodup (h : d.Keyed key) : (d.values.map key).Nodup := by
  have hkeys : d.values.map key = d.entries.map Prod.fst := by
    unfold values
    rw [List.map_map]
    exact List.map_congr_left h
  rw [hkeys]
  exact d.once

theorem Keyed.key_of_get? {k : String} {a : α} (h : d.Keyed key) (ha : d.get? k = some a) : key a = k :=
  h (k, a) (mem_of_lookup ha)

theorem Has.mem {a : α} (h : d.Has key a) : a ∈ d.values := mem_values_of_get? h

/-- Two values of one key are one. -/
theorem Has.unique {a b : α} (ha : d.Has key a) (hb : d.Has key b) (hkey : key a = key b) : a = b := by
  unfold Has at ha hb
  rw [hkey, hb] at ha
  exact (Option.some.inj ha).symm

theorem Gains.trans {d' d'' : Dict α} {items items' : List α} (h : d.Gains key d' items) (h' : d'.Gains key d'' items') :
    d.Gains key d'' (items ++ items') where
  keyed := h'.keyed
  keeps := fun a ha => h'.keeps a (h.keeps a ha)
  all   := by
    intro a ha
    rcases List.mem_append.1 ha with ha | ha
    · exact h'.keeps a (h.all a ha)
    · exact h'.all a ha

theorem Gains.refl (h : d.Keyed key) : d.Gains key d [] := ⟨h, fun _ ha => ha, fun _ ha => (List.not_mem_nil ha).elim⟩

/-- A value that stands there is gained. -/
theorem Gains.present (h : d.Keyed key) {a : α} (ha : d.Has key a) : d.Gains key d [a] :=
  ⟨h, fun _ hb => hb, fun _ hb => List.mem_singleton.1 hb ▸ ha⟩

/-- A value put under a new key is gained. -/
theorem Gains.set (h : d.Keyed key) {a : α} (ha : d.get? (key a) = none) : d.Gains key (d.set (key a) a) [a] where
  keyed := h.set a
  keeps := by
    intro b hb
    have hne : key b ≠ key a := by
      intro heq
      unfold Has at hb
      rw [heq, ha] at hb
      cases hb
    unfold Has
    rw [get?_set_other d a hne]
    exact hb
  all   := by
    intro b hb
    rw [List.mem_singleton.1 hb]
    exact get?_set_self d (key a) a

/-- **Steps that gain their item gain all the items.** -/
theorem gains_foldlM {f : Dict α → α → Except ε (Dict α)}
    (hf : ∀ {d d' : Dict α} {a : α}, d.Keyed key → f d a = .ok d' → d.Gains key d' [a]) :
    ∀ {items : List α} {d d' : Dict α}, d.Keyed key → items.foldlM f d = .ok d' → d.Gains key d' items
  | [], _, _, hd, h                => by
    cases h
    exact Gains.refl hd
  | a :: items, d, d', hd, h => by
    rw [List.foldlM_cons] at h
    rcases ha : f d a with e | d₁
    · rw [ha] at h
      cases h
    · rw [ha] at h
      have hfirst := hf hd ha
      exact hfirst.trans (gains_foldlM hf hfirst.keyed h)

theorem byKey_foldl_keyed : ∀ (items : List α) {d : Dict α}, d.Keyed key →
    ((items.map (fun a => (key a, a))).foldl (fun d kv => d.set kv.1 kv.2) d).Keyed key
  | [], _, h      => h
  | a :: items, _, h => byKey_foldl_keyed items (h.set a)

theorem empty_keyed : (empty : Dict α).Keyed key := fun _ he => (List.not_mem_nil he).elim

theorem byKey_keyed (items : List α) : (byKey key items).Keyed key := byKey_foldl_keyed items empty_keyed

theorem byKey_foldl_gains : ∀ {items : List α} {d : Dict α}, d.Keyed key → (items.map key).Nodup →
    (∀ a ∈ items, d.get? (key a) = none) →
    d.Gains key ((items.map (fun a => (key a, a))).foldl (fun d kv => d.set kv.1 kv.2) d) items
  | [], _, hd, _, _                  => Gains.refl hd
  | a :: items, d, hd, hnodup, hfree => by
    rw [List.map_cons, List.nodup_cons] at hnodup
    have hrest : ∀ b ∈ items, (d.set (key a) a).get? (key b) = none := by
      intro b hb
      have hne : key b ≠ key a := fun heq => hnodup.1 (heq ▸ List.mem_map_of_mem hb)
      rw [get?_set_other d a hne]
      exact hfree b (List.mem_cons_of_mem _ hb)
    have hfirst : d.Gains key (d.set (key a) a) [a] := Gains.set hd (hfree a (List.mem_cons_self ..))
    exact hfirst.trans (byKey_foldl_gains hfirst.keyed hnodup.2 hrest)

/-- **Items of distinct keys all stand in their dictionary.** -/
theorem byKey_has {items : List α} (h : (items.map key).Nodup) : ∀ a ∈ items, (byKey key items).Has key a :=
  (byKey_foldl_gains empty_keyed h (fun a _ => get?_empty (key a))).all

end Dict
