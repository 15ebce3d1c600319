import Mathlib.Algebra.Order.Monoid.Unbundled.Pow
import Mathlib.Algebra.Order.Monoid.Defs
import Mathlib.Order.Basic
/-!
# Run — a computation over a state that outlives an exception

A `Run σ ε α` reads and writes a state `σ` and ends with a value or an error; the writes it made before an error stay.
Its `Trace` keeps every state it wrote, so a law can be stated of **every point of a run** and not only of its end.

- `Always R m`: `R` relates the state a run starts in to every state the run passes through, however it ends;
- `Costs μ c m`: a measure `μ` never falls and never rises by more than `c` (`Always` of one relation);
- `Preserves I m`: an invariant holds at every point once it holds at the start (`Always` of another);
- `Steps R m`: `R` relates each point of the run to the next one;
- `Triple P m Q E`: from `P` a run ends in `Q` with its value, or in `E` with its error;
- `Ends P m Q`: from `P` a run ends in `Q` where it ends with a value;
- `Gives Q m`: every value the run can end with has `Q`;
- `Keeps I Q m`: from `I` every point keeps `I`, and the value the run ends with has `Q`;
- `Leads I G P m Q`: the same of values whose `Q` speaks of the state, and lasts as the run goes on along `G`;
- `Reaches v c m a c'`, `Meets v c m c'`: a run whose way is known, to its end or to a state on it.

Each has one rule per way of building a run.
-/
namespace Stateful

/-- A sequence of pure steps that ends with a value got there by both of them. -/
theorem bind_eq_ok {ε α β : Type} {x : Except ε α} {f : α → Except ε β} {b : β} (h : x >>= f = .ok b) :
    ∃ a, x = .ok a ∧ f a = .ok b := by
  cases x with
  | error e => cases h
  | ok a    => exact ⟨a, rfl, h⟩

/-- A pure step that ends with a value goes on with it. -/
theorem bind_ok {ε α β : Type} {x : Except ε α} {a : α} (h : x = .ok a) (f : α → Except ε β) : x >>= f = f a := by
  rw [h]
  rfl

/-- Two steps end with a value exactly when both do. -/
theorem bind_isOk_iff {ε α β : Type} {x : Except ε α} {f : α → Except ε β} :
    (x >>= f).isOk = true ↔ ∃ a, x = .ok a ∧ (f a).isOk = true := by
  cases x with
  | error e => exact ⟨fun h => (by cases h), fun ⟨a, h, _⟩ => (by cases h)⟩
  | ok a    => exact ⟨fun h => ⟨a, rfl, h⟩, fun ⟨b, h, hf⟩ => by cases h; exact hf⟩

/-- What one run did: the states it wrote, in order, the state it left and how it ended. -/
structure Trace (σ ε α : Type) where
  written : List σ
  final   : σ
  outcome : Except ε α

def Run (σ ε α : Type) := σ → Trace σ ε α

namespace Run

variable {σ ε α β : Type}

def done (a : α) : Run σ ε α := fun s => ⟨[], s, .ok a⟩

def fail (e : ε) : Run σ ε α := fun s => ⟨[], s, .error e⟩

def andThen (m : Run σ ε α) (f : α → Run σ ε β) : Run σ ε β := fun s =>
  match m s with
  | ⟨w, s', .ok a⟩    => ⟨w ++ (f a s').written, (f a s').final, (f a s').outcome⟩
  | ⟨w, s', .error e⟩ => ⟨w, s', .error e⟩

instance : Monad (Run σ ε) where
  pure := done
  bind := andThen

/-- What the state shows. -/
def look (f : σ → α) : Run σ ε α := fun s => ⟨[], s, .ok (f s)⟩

/-- One write. -/
def write (f : σ → σ) : Run σ ε Unit := fun s => ⟨[f s], f s, .ok ()⟩

/-- A pure step that may fail. -/
def ofExcept : Except ε α → Run σ ε α
  | .ok a    => done a
  | .error e => fail e

/-- How `m` ends, as a value. -/
def attempt (m : Run σ ε α) : Run σ ε (Except ε α) := fun s => ⟨(m s).written, (m s).final, .ok (m s).outcome⟩

/-- `try m except e: h e`: the handler starts in the state the error left. -/
def handle (m : Run σ ε α) (h : ε → Run σ ε α) : Run σ ε α := fun s =>
  match m s with
  | ⟨w, s', .ok a⟩    => ⟨w, s', .ok a⟩
  | ⟨w, s', .error e⟩ => ⟨w ++ (h e s').written, (h e s').final, (h e s').outcome⟩

/-- `try m finally fin`: `fin` runs however `m` ends, and an error of its own takes the place of `m`'s end. -/
def lastly (m : Run σ ε α) (fin : Run σ ε Unit) : Run σ ε α := fun s =>
  match m s with
  | ⟨w, s', o⟩ =>
    ⟨w ++ (fin s').written, (fin s').final,
      match (fin s').outcome with
      | .ok ()   => o
      | .error e => .error e⟩

/-- A loop over a list; the first error ends it. -/
def forEach (f : α → Run σ ε Unit) : List α → Run σ ε Unit
  | []      => done ()
  | x :: xs => andThen (f x) (fun _ => forEach f xs)

theorem pure_eq (a : α) : (pure a : Run σ ε α) = done a := rfl

theorem bind_eq (m : Run σ ε α) (f : α → Run σ ε β) : m >>= f = andThen m f := rfl

theorem andThen_ok {m : Run σ ε α} {f : α → Run σ ε β} {s s' : σ} {w : List σ} {a : α} (h : m s = ⟨w, s', .ok a⟩) :
    andThen m f s = ⟨w ++ (f a s').written, (f a s').final, (f a s').outcome⟩ := by
  unfold andThen; rw [h]

theorem andThen_error {m : Run σ ε α} {f : α → Run σ ε β} {s s' : σ} {w : List σ} {e : ε}
    (h : m s = ⟨w, s', .error e⟩) : andThen m f s = ⟨w, s', .error e⟩ := by
  unfold andThen; rw [h]

theorem andThen_outcome {m : Run σ ε α} {f : α → Run σ ε β} {s : σ} {a : α} (h : (m s).outcome = .ok a) :
    (andThen m f s).outcome = (f a (m s).final).outcome := by
  rcases hm : m s with ⟨w, s', o⟩
  rw [hm] at h
  cases h
  rw [andThen_ok hm]

/-- A run that ends with a value got there by both its parts. -/
theorem andThen_eq_ok {m : Run σ ε α} {f : α → Run σ ε β} {s s' : σ} {w : List σ} {b : β}
    (h : andThen m f s = ⟨w, s', .ok b⟩) : ∃ w₁ s₁ a w₂, m s = ⟨w₁, s₁, .ok a⟩ ∧ f a s₁ = ⟨w₂, s', .ok b⟩ ∧
      w = w₁ ++ w₂ := by
  rcases hm : m s with ⟨w₁, s₁, e | a⟩
  · rw [andThen_error hm] at h
    cases h
  · rw [andThen_ok hm] at h
    rcases hf : f a s₁ with ⟨w₂, s₂, o⟩
    rw [hf] at h
    cases h
    exact ⟨w₁, s₁, a, w₂, rfl, hf, rfl⟩

@[simp] theorem andThen_done (a : α) (f : α → Run σ ε β) : andThen (done a) f = f a := rfl

@[simp] theorem andThen_fail (e : ε) (f : α → Run σ ε β) : andThen (fail e) f = fail e := rfl

@[simp] theorem look_andThen (f : σ → α) (g : α → Run σ ε β) (s : σ) : andThen (look f) g s = g (f s) s := rfl

theorem andThen_assoc {γ : Type} (m : Run σ ε α) (f : α → Run σ ε β) (g : β → Run σ ε γ) :
    andThen (andThen m f) g = andThen m (fun a => andThen (f a) g) := by
  funext s
  rcases hm : m s with ⟨w, s', e | a⟩
  · rw [andThen_error hm, andThen_error (andThen_error hm)]
  · rw [andThen_ok hm]
    rcases hf : f a s' with ⟨w', s'', e | b⟩
    · rw [andThen_error hf, andThen_error (by rw [andThen_ok hm, hf])]
    · have hfirst : andThen m f s = ⟨w ++ w', s'', .ok b⟩ := by rw [andThen_ok hm, hf]
      rw [andThen_ok hf, andThen_ok hfirst, List.append_assoc]

theorem ofExcept_apply (x : Except ε α) (s : σ) : (ofExcept x : Run σ ε α) s = ⟨[], s, x⟩ := by
  cases x <;> rfl

theorem ofExcept_eq_ok {x : Except ε α} {s s' : σ} {w : List σ} {a : α}
    (h : (ofExcept x : Run σ ε α) s = ⟨w, s', .ok a⟩) : x = .ok a ∧ s = s' := by
  rw [ofExcept_apply] at h
  cases h
  exact ⟨rfl, rfl⟩

theorem handle_ok {m : Run σ ε α} {h : ε → Run σ ε α} {s s' : σ} {w : List σ} {a : α} (hm : m s = ⟨w, s', .ok a⟩) :
    handle m h s = ⟨w, s', .ok a⟩ := by
  unfold handle; rw [hm]

theorem handle_error {m : Run σ ε α} {h : ε → Run σ ε α} {s s' : σ} {w : List σ} {e : ε}
    (hm : m s = ⟨w, s', .error e⟩) : handle m h s = ⟨w ++ (h e s').written, (h e s').final, (h e s').outcome⟩ := by
  unfold handle; rw [hm]

theorem lastly_ok {m : Run σ ε α} {fin : Run σ ε Unit} {s s' s'' : σ} {w w' : List σ} {o : Except ε α}
    (hm : m s = ⟨w, s', o⟩) (hfin : fin s' = ⟨w', s'', .ok ()⟩) : lastly m fin s = ⟨w ++ w', s'', o⟩ := by
  unfold lastly; rw [hm]; simp only [hfin]

/-- A run with a last part ends with a value when both end with one. -/
theorem lastly_eq_ok {m : Run σ ε α} {fin : Run σ ε Unit} {s s'' : σ} {w : List σ} {a : α}
    (h : lastly m fin s = ⟨w, s'', .ok a⟩) : ∃ w₁ s' w₂, m s = ⟨w₁, s', .ok a⟩ ∧ fin s' = ⟨w₂, s'', .ok ()⟩ ∧
      w = w₁ ++ w₂ := by
  rcases hm : m s with ⟨w₁, s', o⟩
  unfold lastly at h
  rw [hm] at h
  rcases hfin : fin s' with ⟨w₂, s₂, e | u⟩
  · simp only [hfin] at h
    cases h
  · simp only [hfin] at h
    cases h
    exact ⟨w₁, s', w₂, rfl, hfin, rfl⟩

/-! ## A relation at every point -/

/-- **`R` holds between the start of the run and each of its points.** -/
def Always (R : σ → σ → Prop) (m : Run σ ε α) : Prop :=
  ∀ s, (∀ x ∈ (m s).written, R s x) ∧ R s (m s).final

theorem Always.mono {R T : σ → σ → Prop} {m : Run σ ε α} (h : Always R m) (hRT : ∀ s x, R s x → T s x) :
    Always T m := fun s => ⟨fun x hx => hRT s x ((h s).1 x hx), hRT s _ (h s).2⟩

theorem Always.and {R T : σ → σ → Prop} {m : Run σ ε α} (h : Always R m) (h' : Always T m) :
    Always (fun s x => R s x ∧ T s x) m :=
  fun s => ⟨fun x hx => ⟨(h s).1 x hx, (h' s).1 x hx⟩, (h s).2, (h' s).2⟩

theorem always_done {R : σ → σ → Prop} (hR : ∀ s, R s s) (a : α) : Always R (done a : Run σ ε α) :=
  fun s => ⟨fun _ hx => (List.not_mem_nil hx).elim, hR s⟩

theorem always_fail {R : σ → σ → Prop} (hR : ∀ s, R s s) (e : ε) : Always R (fail e : Run σ ε α) :=
  fun s => ⟨fun _ hx => (List.not_mem_nil hx).elim, hR s⟩

theorem always_look {R : σ → σ → Prop} (hR : ∀ s, R s s) (f : σ → α) : Always R (look f : Run σ ε α) :=
  fun s => ⟨fun _ hx => (List.not_mem_nil hx).elim, hR s⟩

/-- What is looked at decides how the run goes on. -/
theorem always_look_andThen {R : σ → σ → Prop} {f : σ → α} {g : α → Run σ ε β} (h : ∀ a, Always R (g a)) :
    Always R (Run.andThen (look f) g) := fun s => h (f s) s

theorem always_write {R : σ → σ → Prop} {f : σ → σ} (hf : ∀ s, R s (f s)) : Always R (write f : Run σ ε Unit) :=
  fun s => ⟨fun x hx => by rw [List.mem_singleton.1 hx]; exact hf s, hf s⟩

theorem always_ofExcept {R : σ → σ → Prop} (hR : ∀ s, R s s) : ∀ (x : Except ε α), Always R (ofExcept x : Run σ ε α)
  | .ok a    => always_done hR a
  | .error e => always_fail hR e

/-- The points of a run and then of a second one started where it ended. -/
theorem always_compose {R S T : σ → σ → Prop} {s s' : σ} {w w' : List σ} {s'' : σ}
    (h : (∀ x ∈ w, R s x) ∧ R s s') (h' : (∀ x ∈ w', S s' x) ∧ S s' s'') (hRT : ∀ x, R s x → T s x)
    (hT : ∀ x, R s s' → S s' x → T s x) : (∀ x ∈ w ++ w', T s x) ∧ T s s'' := by
  refine ⟨fun x hx => ?_, hT s'' h.2 h'.2⟩
  rcases List.mem_append.1 hx with hx | hx
  · exact hRT x (h.1 x hx)
  · exact hT x h.2 (h'.1 x hx)

theorem Always.andThen {R S T : σ → σ → Prop} {m : Run σ ε α} {f : α → Run σ ε β} (hm : Always R m)
    (hf : ∀ a, Always S (f a)) (hRT : ∀ s x, R s x → T s x) (hT : ∀ s x y, R s x → S x y → T s y) :
    Always T (andThen m f) := by
  intro s
  have hs := hm s
  unfold Run.andThen
  split
  · rename_i w s' a hms
    rw [hms] at hs
    exact always_compose hs (hf a s') (hRT s) (fun x h h' => hT s s' x h h')
  · rename_i w s' e hms
    rw [hms] at hs
    exact ⟨fun x hx => hRT s x (hs.1 x hx), hRT s s' hs.2⟩

/-- As `andThen`, where the second part starts only in states that the first part leaves behind. -/
theorem Always.andThen_from {R S T : σ → σ → Prop} {P : α → σ → Prop} {m : Run σ ε α} {f : α → Run σ ε β}
    (hm : Always R m) (hP : ∀ s w s' a, m s = ⟨w, s', .ok a⟩ → P a s')
    (hf : ∀ a s, P a s → (∀ x ∈ (f a s).written, S s x) ∧ S s (f a s).final) (hRT : ∀ s x, R s x → T s x)
    (hT : ∀ s x y, R s x → S x y → T s y) : Always T (Run.andThen m f) := by
  intro s
  have hs := hm s
  rcases hms : m s with ⟨w, s', e | a⟩ <;> rw [hms] at hs
  · rw [andThen_error hms]
    exact ⟨fun x hx => hRT s x (hs.1 x hx), hRT s s' hs.2⟩
  · rw [andThen_ok hms]
    exact always_compose hs (hf a s' (hP s w s' a hms)) (hRT s) (fun x h h' => hT s s' x h h')

theorem Always.attempt {R : σ → σ → Prop} {m : Run σ ε α} (hm : Always R m) : Always R (Run.attempt m) := hm

theorem Always.handle {R S T : σ → σ → Prop} {m : Run σ ε α} {h : ε → Run σ ε α} (hm : Always R m)
    (hh : ∀ e, Always S (h e)) (hRT : ∀ s x, R s x → T s x) (hT : ∀ s x y, R s x → S x y → T s y) :
    Always T (handle m h) := by
  intro s
  have hs := hm s
  unfold Run.handle
  split
  · rename_i w s' a hms
    rw [hms] at hs
    exact ⟨fun x hx => hRT s x (hs.1 x hx), hRT s s' hs.2⟩
  · rename_i w s' e hms
    rw [hms] at hs
    exact always_compose hs (hh e s') (hRT s) (fun x h h' => hT s s' x h h')

theorem Always.lastly {R S T : σ → σ → Prop} {m : Run σ ε α} {fin : Run σ ε Unit} (hm : Always R m)
    (hfin : Always S fin) (hRT : ∀ s x, R s x → T s x) (hT : ∀ s x y, R s x → S x y → T s y) :
    Always T (lastly m fin) := fun s =>
  always_compose (hm s) (hfin (m s).final) (hRT s) (fun x h h' => hT s _ x h h')

/-! ## A bounded measure -/

section Costs

variable {C : Type} [AddCommMonoid C] [PartialOrder C] [IsOrderedAddMonoid C] {μ : σ → C}

/-- **The measure never falls and never rises by more than `c`**, at any point of the run. -/
def Costs (μ : σ → C) (c : C) (m : Run σ ε α) : Prop :=
  Always (fun s x => μ s ≤ μ x ∧ μ x ≤ μ s + c) m

theorem costs_refl {c : C} (hc : 0 ≤ c) (s : σ) : μ s ≤ μ s ∧ μ s ≤ μ s + c :=
  ⟨le_rfl, le_add_of_nonneg_right hc⟩

theorem costs_trans {c d : C} {s x y : σ} (h : μ s ≤ μ x ∧ μ x ≤ μ s + c) (h' : μ x ≤ μ y ∧ μ y ≤ μ x + d) :
    μ s ≤ μ y ∧ μ y ≤ μ s + (c + d) :=
  ⟨h.1.trans h'.1, h'.2.trans (by rw [← add_assoc]; exact add_le_add_left h.2 d)⟩

theorem Costs.mono {c d : C} {m : Run σ ε α} (h : Costs μ c m) (hcd : c ≤ d) : Costs μ d m :=
  Always.mono h (fun _ _ hx => ⟨hx.1, hx.2.trans (add_le_add_right hcd _)⟩)

theorem costs_done (a : α) : Costs μ 0 (done a : Run σ ε α) := always_done (costs_refl le_rfl) a

theorem costs_fail (e : ε) : Costs μ 0 (fail e : Run σ ε α) := always_fail (costs_refl le_rfl) e

theorem costs_look (f : σ → α) : Costs μ 0 (look f : Run σ ε α) := always_look (costs_refl le_rfl) f

theorem costs_ofExcept (x : Except ε α) : Costs μ 0 (ofExcept x : Run σ ε α) :=
  always_ofExcept (costs_refl le_rfl) x

/-- A write the measure does not see. -/
theorem costs_write {f : σ → σ} (hf : ∀ s, μ (f s) = μ s) : Costs μ 0 (write f : Run σ ε Unit) :=
  always_write (fun s => by rw [hf s]; exact costs_refl le_rfl s)

/-- A write that costs. -/
theorem costs_write_add {f : σ → σ} {c : C} (hc : 0 ≤ c) (hf : ∀ s, μ (f s) = μ s + c) :
    Costs μ c (write f : Run σ ε Unit) :=
  always_write (fun s => ⟨by rw [hf s]; exact le_add_of_nonneg_right hc, (hf s).le⟩)

theorem Costs.andThen {c d : C} {m : Run σ ε α} {f : α → Run σ ε β} (hd : 0 ≤ d) (hm : Costs μ c m)
    (hf : ∀ a, Costs μ d (f a)) : Costs μ (c + d) (Run.andThen m f) :=
  Always.andThen hm hf (fun _ _ h => ⟨h.1, h.2.trans (add_le_add_right (le_add_of_nonneg_right hd) _)⟩)
    (fun _ _ _ h h' => costs_trans h h')

/-- A first part that costs nothing. -/
theorem Costs.andThen_free {c : C} {m : Run σ ε α} {f : α → Run σ ε β} (hc : 0 ≤ c) (hm : Costs μ 0 m)
    (hf : ∀ a, Costs μ c (f a)) : Costs μ c (Run.andThen m f) := by
  have h := hm.andThen hc hf
  rwa [zero_add] at h

omit [IsOrderedAddMonoid C] in
theorem Costs.attempt {c : C} {m : Run σ ε α} (hm : Costs μ c m) : Costs μ c (Run.attempt m) := hm

theorem Costs.handle_free {c : C} {m : Run σ ε α} {h : ε → Run σ ε α} (hm : Costs μ c m)
    (hh : ∀ e, Costs μ 0 (h e)) : Costs μ c (handle m h) :=
  Always.handle hm hh (fun _ _ hx => hx) (fun _ _ _ hx hy => by simpa using costs_trans hx hy)

theorem Costs.lastly_free {c : C} {m : Run σ ε α} {fin : Run σ ε Unit} (hm : Costs μ c m) (hfin : Costs μ 0 fin) :
    Costs μ c (lastly m fin) :=
  Always.lastly hm hfin (fun _ _ hx => hx) (fun _ _ _ hx hy => by simpa using costs_trans hx hy)

/-- **A loop costs at most its bound times its body.** -/
theorem costs_forEach {f : α → Run σ ε Unit} {c : C} (hc : 0 ≤ c) (hf : ∀ a, Costs μ c (f a)) :
    ∀ (xs : List α), Costs μ (xs.length • c) (forEach f xs)
  | [] => by
    rw [List.length_nil, zero_nsmul]
    exact costs_done ()
  | x :: xs => by
    have h := (hf x).andThen (nsmul_nonneg hc xs.length) (fun _ => costs_forEach hc hf xs)
    rwa [← succ_nsmul'] at h

end Costs

/-! ## An invariant -/

/-- **Once `I` holds it holds at every point of the run.** -/
def Preserves (I : σ → Prop) (m : Run σ ε α) : Prop := Always (fun s x => I s → I x) m

section Preserves

variable {I : σ → Prop}

theorem preserves_done (a : α) : Preserves I (done a : Run σ ε α) := always_done (fun _ h => h) a

theorem preserves_fail (e : ε) : Preserves I (fail e : Run σ ε α) := always_fail (fun _ h => h) e

theorem preserves_look (f : σ → α) : Preserves I (look f : Run σ ε α) := always_look (fun _ h => h) f

theorem preserves_ofExcept (x : Except ε α) : Preserves I (ofExcept x : Run σ ε α) :=
  always_ofExcept (fun _ h => h) x

theorem preserves_write {f : σ → σ} (hf : ∀ s, I s → I (f s)) : Preserves I (write f : Run σ ε Unit) :=
  always_write hf

theorem Preserves.andThen {m : Run σ ε α} {f : α → Run σ ε β} (hm : Preserves I m) (hf : ∀ a, Preserves I (f a)) :
    Preserves I (andThen m f) := Always.andThen hm hf (fun _ _ h => h) (fun _ _ _ h h' hs => h' (h hs))

/-- As `andThen`, where the second part starts only in states that the first part leaves behind. -/
theorem Preserves.andThen_from {P : α → σ → Prop} {m : Run σ ε α} {f : α → Run σ ε β} (hm : Preserves I m)
    (hP : ∀ s w s' a, m s = ⟨w, s', .ok a⟩ → P a s')
    (hf : ∀ a s, P a s → I s → (∀ x ∈ (f a s).written, I x) ∧ I (f a s).final) : Preserves I (Run.andThen m f) :=
  Always.andThen_from (S := fun s x => I s → I x) hm hP
    (fun a s ha => ⟨fun x hx hs => (hf a s ha hs).1 x hx, fun hs => (hf a s ha hs).2⟩) (fun _ _ h => h)
    (fun _ _ _ h h' hs => h' (h hs))

theorem Preserves.attempt {m : Run σ ε α} (hm : Preserves I m) : Preserves I (Run.attempt m) := hm

theorem Preserves.handle {m : Run σ ε α} {h : ε → Run σ ε α} (hm : Preserves I m) (hh : ∀ e, Preserves I (h e)) :
    Preserves I (handle m h) := Always.handle hm hh (fun _ _ h => h) (fun _ _ _ h h' hs => h' (h hs))

theorem Preserves.lastly {m : Run σ ε α} {fin : Run σ ε Unit} (hm : Preserves I m) (hfin : Preserves I fin) :
    Preserves I (lastly m fin) := Always.lastly hm hfin (fun _ _ h => h) (fun _ _ _ h h' hs => h' (h hs))

theorem preserves_forEach {f : α → Run σ ε Unit} (hf : ∀ a, Preserves I (f a)) :
    ∀ (xs : List α), Preserves I (forEach f xs)
  | []      => preserves_done ()
  | x :: xs => (hf x).andThen (fun _ => preserves_forEach hf xs)

theorem preserves_forEach_mem {f : α → Run σ ε Unit} : ∀ (xs : List α), (∀ a ∈ xs, Preserves I (f a)) →
    Preserves I (forEach f xs)
  | [], _      => preserves_done ()
  | x :: xs, h => (h x (List.mem_cons_self ..)).andThen (fun _ =>
    preserves_forEach_mem xs (fun a ha => h a (List.mem_cons_of_mem _ ha)))

end Preserves

/-! ## A relation between each point and the next -/

/-- The points `w` lead from `s` to `s'`, and `R` relates each of them to the one before it. -/
def Linked (R : σ → σ → Prop) : σ → List σ → σ → Prop
  | s, [], s'     => s' = s
  | s, x :: w, s' => R s x ∧ Linked R x w s'

theorem Linked.append {R : σ → σ → Prop} {s' s'' : σ} {w' : List σ} :
    ∀ {s : σ} {w : List σ}, Linked R s w s' → Linked R s' w' s'' → Linked R s (w ++ w') s''
  | _, [], h, h' => by cases h; exact h'
  | _, _ :: _, h, h' => ⟨h.1, h.2.append h'⟩

theorem linked_append_iff {R : σ → σ → Prop} {s' s'' : σ} {w' : List σ} : ∀ {s : σ} {w : List σ}, Linked R s w s' →
    (Linked R s (w ++ w') s'' ↔ Linked R s' w' s'')
  | _, [], h     => by
    cases h
    rfl
  | _, _ :: _, h => by
    rw [List.cons_append, Linked, linked_append_iff h.2]
    exact and_iff_right h.1

/-- **Each state the run writes is related to the one it wrote last.** -/
def Steps (R : σ → σ → Prop) (m : Run σ ε α) : Prop := ∀ s, Linked R s (m s).written (m s).final

section Steps

variable {R : σ → σ → Prop}

theorem Linked.mono {T : σ → σ → Prop} (hRT : ∀ s x, R s x → T s x) : ∀ {s : σ} {w : List σ} {s' : σ},
    Linked R s w s' → Linked T s w s'
  | _, [], _, h     => h
  | _, _ :: _, _, h => ⟨hRT _ _ h.1, Linked.mono hRT h.2⟩

theorem Linked.of_append {T : σ → σ → Prop} {s' s'' : σ} {w' : List σ} : ∀ {s : σ} {w : List σ}, Linked T s w s' →
    Linked R s (w ++ w') s'' → Linked R s w s' ∧ Linked R s' w' s''
  | _, [], h, h'     => by
    cases h
    exact ⟨rfl, h'⟩
  | _, _ :: _, h, h' => by
    have hrest := Linked.of_append h.2 h'.2
    exact ⟨⟨h'.1, hrest.1⟩, hrest.2⟩

theorem Steps.mono {T : σ → σ → Prop} {m : Run σ ε α} (h : Steps R m) (hRT : ∀ s x, R s x → T s x) : Steps T m :=
  fun s => (h s).mono hRT

theorem steps_done (a : α) : Steps R (done a : Run σ ε α) := fun _ => rfl

theorem steps_fail (e : ε) : Steps R (fail e : Run σ ε α) := fun _ => rfl

theorem steps_look (f : σ → α) : Steps R (look f : Run σ ε α) := fun _ => rfl

theorem steps_write {f : σ → σ} (hf : ∀ s, R s (f s)) : Steps R (write f : Run σ ε Unit) := fun s => ⟨hf s, rfl⟩

theorem steps_ofExcept : ∀ (x : Except ε α), Steps R (ofExcept x : Run σ ε α)
  | .ok a    => steps_done a
  | .error e => steps_fail e

theorem Steps.andThen {m : Run σ ε α} {f : α → Run σ ε β} (hm : Steps R m) (hf : ∀ a, Steps R (f a)) :
    Steps R (Run.andThen m f) := by
  intro s
  have hs := hm s
  unfold Run.andThen
  split
  · rename_i w s' a hms
    rw [hms] at hs
    exact hs.append (hf a s')
  · rename_i w s' e hms
    rwa [hms] at hs

theorem Steps.attempt {m : Run σ ε α} (hm : Steps R m) : Steps R (Run.attempt m) := hm

theorem Steps.handle {m : Run σ ε α} {h : ε → Run σ ε α} (hm : Steps R m) (hh : ∀ e, Steps R (h e)) :
    Steps R (Run.handle m h) := by
  intro s
  have hs := hm s
  unfold Run.handle
  split
  · rename_i w s' a hms
    rwa [hms] at hs
  · rename_i w s' e hms
    rw [hms] at hs
    exact hs.append (hh e s')

theorem Steps.lastly {m : Run σ ε α} {fin : Run σ ε Unit} (hm : Steps R m) (hfin : Steps R fin) :
    Steps R (Run.lastly m fin) := fun s => (hm s).append (hfin (m s).final)

theorem steps_forEach {f : α → Run σ ε Unit} (hf : ∀ a, Steps R (f a)) : ∀ (xs : List α), Steps R (forEach f xs)
  | []      => steps_done ()
  | x :: xs => (hf x).andThen (fun _ => steps_forEach hf xs)

/-- An invariant that `R` carries on holds along linked points. -/
theorem Linked.invariant {I : σ → Prop} (hI : ∀ s x, R s x → I s → I x) : ∀ {s : σ} {w : List σ} {s' : σ},
    Linked R s w s' → I s → (∀ x ∈ w, I x) ∧ I s'
  | _, [], _, h, hs => by
    cases h
    exact ⟨fun _ hx => (List.not_mem_nil hx).elim, hs⟩
  | s, x :: w, _, h, hs => by
    have hx := hI s x h.1 hs
    have hrest := Linked.invariant hI h.2 hx
    exact ⟨fun y hy => (List.mem_cons.1 hy).elim (fun hyx => hyx ▸ hx) (hrest.1 y), hrest.2⟩

theorem Steps.preserves {I : σ → Prop} {m : Run σ ε α} (hI : ∀ s x, R s x → I s → I x) (hm : Steps R m) :
    Preserves I m := fun s => ⟨fun x hx hs => ((hm s).invariant hI hs).1 x hx, fun hs => ((hm s).invariant hI hs).2⟩

end Steps

/-! ## The end of a run -/

/-- **From `P` the run ends in `Q` with its value or in `E` with its error.** -/
def Triple (P : σ → Prop) (m : Run σ ε α) (Q : α → σ → Prop) (E : ε → σ → Prop) : Prop :=
  ∀ s, P s → match (m s).outcome with
    | .ok a    => Q a (m s).final
    | .error e => E e (m s).final

section Triple

variable {P : σ → Prop} {E : ε → σ → Prop}

theorem triple_done {Q : α → σ → Prop} {a : α} (h : ∀ s, P s → Q a s) : Triple P (done a) Q E := fun s hs => h s hs

theorem triple_fail {Q : α → σ → Prop} {e : ε} (h : ∀ s, P s → E e s) : Triple P (fail e : Run σ ε α) Q E :=
  fun s hs => h s hs

theorem triple_look {Q : α → σ → Prop} {f : σ → α} (h : ∀ s, P s → Q (f s) s) : Triple P (look f) Q E :=
  fun s hs => h s hs

/-- From each state of `P` by itself. -/
theorem triple_from {m : Run σ ε α} {Q : α → σ → Prop} (h : ∀ s₀, P s₀ → Triple (· = s₀) m Q E) : Triple P m Q E :=
  fun s hs => h s hs s rfl

/-- A look from a known state. -/
theorem triple_look_andThen {s₀ : σ} {f : σ → α} {g : α → Run σ ε β} {Q : β → σ → Prop}
    (h : Triple (· = s₀) (g (f s₀)) Q E) : Triple (· = s₀) (Run.andThen (look f) g) Q E := by
  rintro _ rfl
  exact h _ rfl

theorem triple_write {Q : Unit → σ → Prop} {f : σ → σ} (h : ∀ s, P s → Q () (f s)) : Triple P (write f) Q E :=
  fun s hs => h s hs

theorem triple_ofExcept {Q : α → σ → Prop} : ∀ {x : Except ε α}, (∀ a, x = .ok a → ∀ s, P s → Q a s) →
    (∀ e, x = .error e → ∀ s, P s → E e s) → Triple P (ofExcept x) Q E
  | .ok a, h, _    => triple_done (h a rfl)
  | .error e, _, h => triple_fail (h e rfl)

theorem triple_trivial (m : Run σ ε α) : Triple P m (fun _ _ => True) (fun _ _ => True) := by
  intro s _
  split <;> trivial

theorem Triple.conseq {P' : σ → Prop} {Q Q' : α → σ → Prop} {E' : ε → σ → Prop} {m : Run σ ε α}
    (h : Triple P m Q E) (hP : ∀ s, P' s → P s) (hQ : ∀ a s, Q a s → Q' a s) (hE : ∀ e s, E e s → E' e s) :
    Triple P' m Q' E' := by
  intro s hs
  have h' := h s (hP s hs)
  cases ho : (m s).outcome with
  | ok a    => rw [ho] at h'; exact hQ a _ h'
  | error e => rw [ho] at h'; exact hE e _ h'

theorem Triple.ok {Q : α → σ → Prop} {m : Run σ ε α} (h : Triple P m Q E) {s s' : σ} {w : List σ} {a : α} (hs : P s)
    (hms : m s = ⟨w, s', .ok a⟩) : Q a s' := by
  have h' := h s hs
  rwa [hms] at h'

/-- A run that cannot fail ends with a value. -/
theorem Triple.total {Q : α → σ → Prop} {m : Run σ ε α} (h : Triple P m Q (fun _ _ => False)) {s : σ} (hs : P s) :
    ∃ w s' a, m s = ⟨w, s', .ok a⟩ ∧ Q a s' := by
  have h' := h s hs
  rcases hms : m s with ⟨w, s', e | a⟩ <;> rw [hms] at h'
  · exact h'.elim
  · exact ⟨w, s', a, rfl, h'⟩

theorem Triple.error {Q : α → σ → Prop} {m : Run σ ε α} (h : Triple P m Q E) {s s' : σ} {w : List σ} {e : ε}
    (hs : P s) (hms : m s = ⟨w, s', .error e⟩) : E e s' := by
  have h' := h s hs
  rwa [hms] at h'

theorem Triple.andThen {m : Run σ ε α} {f : α → Run σ ε β} {Q : α → σ → Prop} {Q' : β → σ → Prop}
    (hm : Triple P m Q E) (hf : ∀ a, Triple (Q a) (f a) Q' E) : Triple P (Run.andThen m f) Q' E := by
  intro s hs
  have h := hm s hs
  rcases hms : m s with ⟨w, s', e | a⟩ <;> rw [hms] at h
  · rw [andThen_error hms]
    exact h
  · rw [andThen_ok hms]
    exact hf a s' h

theorem Triple.attempt {m : Run σ ε α} {Q : α → σ → Prop} {E' : ε → σ → Prop} (hm : Triple P m Q E') :
    Triple P (Run.attempt m) (fun o s => match o with | .ok a => Q a s | .error e => E' e s) E := hm

theorem Triple.handle {m : Run σ ε α} {h : ε → Run σ ε α} {Q : α → σ → Prop} {E' : ε → σ → Prop}
    (hm : Triple P m Q E') (hh : ∀ e, Triple (E' e) (h e) Q E) : Triple P (Run.handle m h) Q E := by
  intro s hs
  have h' := hm s hs
  rcases hms : m s with ⟨w, s', e | a⟩ <;> rw [hms] at h'
  · rw [handle_error hms]
    exact hh e s' h'
  · rw [handle_ok hms]
    exact h'

/-- A last part that cannot fail. -/
theorem Triple.lastly {m : Run σ ε α} {fin : Run σ ε Unit} {Q Q' : α → σ → Prop} {E' : ε → σ → Prop}
    (hm : Triple P m Q E) (hQ : ∀ a, Triple (Q a) fin (fun _ => Q' a) (fun _ _ => False))
    (hE : ∀ e, Triple (E e) fin (fun _ => E' e) (fun _ _ => False)) : Triple P (Run.lastly m fin) Q' E' := by
  intro s hs
  have h := hm s hs
  rcases hms : m s with ⟨w, s', e | a⟩ <;> rw [hms] at h
  · have hf := hE e s' h
    rcases hfs : fin s' with ⟨w', s'', e' | u⟩ <;> rw [hfs] at hf
    · exact hf.elim
    · rw [lastly_ok hms hfs]
      exact hf
  · have hf := hQ a s' h
    rcases hfs : fin s' with ⟨w', s'', e' | u⟩ <;> rw [hfs] at hf
    · exact hf.elim
    · rw [lastly_ok hms hfs]
      exact hf

/-- **A loop keeps what each pass keeps.** -/
theorem triple_forEach {f : α → Run σ ε Unit} (hf : ∀ a, Triple P (f a) (fun _ => P) E) :
    ∀ (xs : List α), Triple P (forEach f xs) (fun _ => P) E
  | []      => triple_done (fun _ h => h)
  | x :: xs => (hf x).andThen (fun _ => triple_forEach hf xs)

end Triple

/-! ## The end of a run that ends with a value -/

/-- **From `P` the run ends in `Q` where it ends with a value.** -/
abbrev Ends (P : σ → Prop) (m : Run σ ε α) (Q : α → σ → Prop) : Prop := Triple P m Q (fun _ _ => True)

section Ends

variable {P : σ → Prop} {Q Q' : α → σ → Prop}

theorem ends_fail (e : ε) : Ends P (fail e : Run σ ε α) Q := triple_fail (fun _ _ => trivial)

theorem ends_ofExcept {x : Except ε α} (h : ∀ a, x = .ok a → ∀ s, P s → Q a s) : Ends P (ofExcept x) Q :=
  triple_ofExcept h (fun _ _ _ _ => trivial)

/-- What says nothing about the state holds afterwards. -/
theorem ends_const {p : Prop} (m : Run σ ε α) : Ends (fun _ => p) m (fun _ _ => p) := by
  intro s hp
  split
  · exact hp
  · trivial

/-- What comes after a pure step knows its value. -/
theorem ends_ofExcept_andThen {R : β → σ → Prop} {x : Except ε α} {f : α → Run σ ε β} (h : ∀ a, x = .ok a → Ends P (f a) R) :
    Ends P (Run.andThen (ofExcept x) f) R := by
  have hx : Ends P (ofExcept x : Run σ ε α) (fun a s => x = .ok a ∧ P s) := ends_ofExcept (fun a ha s hs => ⟨ha, hs⟩)
  exact hx.andThen (fun a s hs => h a hs.1 s hs.2)

/-- What is looked at decides how the run goes on. -/
theorem ends_look_andThen {R : β → σ → Prop} {f : σ → α} {g : α → Run σ ε β} (h : ∀ a, Ends (fun s => P s ∧ a = f s) (g a) R) :
    Ends P (Run.andThen (look f) g) R := fun s hs => h (f s) s ⟨hs, rfl⟩

theorem Preserves.ends {m : Run σ ε α} (h : Preserves P m) : Ends P m (fun _ => P) := by
  intro s hs
  split
  · exact (h s).2 hs
  · trivial

/-- A handler that never ends with a value. -/
theorem Ends.handle {m : Run σ ε α} {h : ε → Run σ ε α} (hm : Ends P m Q)
    (hh : ∀ e, Ends (fun _ => True) (h e) (fun _ _ => False)) : Ends P (Run.handle m h) Q :=
  Triple.handle hm (fun e => (hh e).conseq (fun _ h => h) (fun _ _ h => h.elim) (fun _ _ h => h))

theorem Ends.lastly {m : Run σ ε α} {fin : Run σ ε Unit} (hm : Ends P m Q) (hfin : ∀ a, Ends (Q a) fin (fun _ => Q' a)) :
    Ends P (Run.lastly m fin) Q' := by
  intro s hs
  rcases h : Run.lastly m fin s with ⟨w, s', e | a⟩
  · trivial
  · obtain ⟨_, _, _, hms, hfs, -⟩ := lastly_eq_ok h
    exact (hfin a).ok (hm.ok hs hms) hfs

end Ends

/-! ## The value of a run -/

/-- **Every value the run can end with has `Q`.** -/
def Gives (Q : α → Prop) (m : Run σ ε α) : Prop := ∀ s w s' a, m s = ⟨w, s', .ok a⟩ → Q a

section Gives

variable {P : α → Prop} {Q : β → Prop}

theorem Gives.ends {R : σ → Prop} {m : Run σ ε α} (h : Gives P m) : Ends R m (fun a _ => P a) := by
  intro s _
  rcases hms : m s with ⟨w, s', e | a⟩
  · trivial
  · exact h s w s' a hms

theorem gives_done {a : α} (h : P a) : Gives P (done a : Run σ ε α) := by
  intro s w s' b hb
  cases hb
  exact h

theorem gives_fail (e : ε) : Gives P (fail e : Run σ ε α) := by
  intro s w s' b hb
  cases hb

theorem gives_ofExcept {x : Except ε α} (h : ∀ a, x = .ok a → P a) : Gives P (ofExcept x : Run σ ε α) := by
  intro s w s' a ha
  rw [ofExcept_apply] at ha
  cases ha
  exact h a rfl

theorem Gives.andThen {m : Run σ ε α} {f : α → Run σ ε β} (hm : Gives P m) (hf : ∀ a, P a → Gives Q (f a)) :
    Gives Q (Run.andThen m f) := by
  intro s w s' b hb
  obtain ⟨w₁, s₁, a, w₂, hms, hfs, -⟩ := andThen_eq_ok hb
  exact hf a (hm s w₁ s₁ a hms) s₁ w₂ s' b hfs

/-- A first part of which nothing is known. -/
theorem gives_after {m : Run σ ε α} {f : α → Run σ ε β} (hf : ∀ a, Gives Q (f a)) : Gives Q (Run.andThen m f) :=
  Gives.andThen (P := fun _ => True) (fun _ _ _ _ _ => trivial) (fun a _ => hf a)

theorem Gives.mono {P' : α → Prop} {m : Run σ ε α} (h : Gives P m) (hPP' : ∀ a, P a → P' a) : Gives P' m :=
  fun s w s' a ha => hPP' a (h s w s' a ha)

theorem Gives.handle {m : Run σ ε α} {h : ε → Run σ ε α} (hm : Gives P m) (hh : ∀ e, Gives P (h e)) :
    Gives P (Run.handle m h) := by
  intro s w s' a ha
  rcases hms : m s with ⟨w₁, s₁, e | b⟩
  · rw [handle_error hms] at ha
    rcases hhs : h e s₁ with ⟨w₂, s₂, o⟩
    rw [hhs] at ha
    cases ha
    exact hh e s₁ w₂ _ a hhs
  · rw [handle_ok hms] at ha
    cases ha
    exact hm s w _ a hms

end Gives

/-! ## An invariant and what the values are -/

/-- **From `I` every point keeps `I`, and a value the run ends with has `Q`.** -/
def Keeps (I : σ → Prop) (Q : α → Prop) (m : Run σ ε α) : Prop :=
  ∀ s, I s → (∀ x ∈ (m s).written, I x) ∧ I (m s).final ∧ ∀ a, (m s).outcome = .ok a → Q a

section Keeps

variable {I : σ → Prop} {Q : α → Prop} {R : β → Prop}

theorem keeps_done {a : α} (h : Q a) : Keeps I Q (done a : Run σ ε α) :=
  fun _ hs => ⟨fun _ hx => (List.not_mem_nil hx).elim, hs, fun _ hb => by cases hb; exact h⟩

theorem keeps_fail (e : ε) : Keeps I Q (fail e : Run σ ε α) :=
  fun _ hs => ⟨fun _ hx => (List.not_mem_nil hx).elim, hs, fun _ hb => by cases hb⟩

theorem keeps_look {f : σ → α} (h : ∀ s, I s → Q (f s)) : Keeps I Q (look f : Run σ ε α) :=
  fun s hs => ⟨fun _ hx => (List.not_mem_nil hx).elim, hs, fun _ hb => by cases hb; exact h s hs⟩

theorem keeps_ofExcept : ∀ {x : Except ε α}, (∀ a, x = .ok a → Q a) → Keeps I Q (ofExcept x : Run σ ε α)
  | .ok a, h    => keeps_done (h a rfl)
  | .error e, _ => keeps_fail e

theorem keeps_write {P : Unit → Prop} {f : σ → σ} (hf : ∀ s, I s → I (f s)) (hP : P ()) :
    Keeps I P (write f : Run σ ε Unit) :=
  fun s hs => ⟨fun _ hx => List.mem_singleton.1 hx ▸ hf s hs, hf s hs, fun _ _ => hP⟩

theorem Keeps.mono {T : α → Prop} {m : Run σ ε α} (h : Keeps I Q m) (hQT : ∀ a, Q a → T a) : Keeps I T m :=
  fun s hs => ⟨(h s hs).1, (h s hs).2.1, fun a ha => hQT a ((h s hs).2.2 a ha)⟩

/-- A run that keeps `I` whatever it ends with. -/
theorem Preserves.keeps {m : Run σ ε α} (h : Preserves I m) : Keeps I (fun _ => True) m :=
  fun s hs => ⟨fun x hx => (h s).1 x hx hs, (h s).2 hs, fun _ _ => trivial⟩

theorem Keeps.preserves {m : Run σ ε α} (h : Keeps I Q m) : Preserves I m :=
  fun s => ⟨fun x hx hs => (h s hs).1 x hx, fun hs => (h s hs).2.1⟩

theorem Keeps.andThen {m : Run σ ε α} {f : α → Run σ ε β} (hm : Keeps I Q m) (hf : ∀ a, Q a → Keeps I R (f a)) :
    Keeps I R (Run.andThen m f) := by
  intro s hs
  have h := hm s hs
  rcases hms : m s with ⟨w, s', e | a⟩ <;> rw [hms] at h
  · rw [andThen_error hms]
    exact ⟨h.1, h.2.1, fun b hb => by cases hb⟩
  · have h' := hf a (h.2.2 a rfl) s' h.2.1
    rw [andThen_ok hms]
    refine ⟨fun x hx => ?_, h'.2.1, h'.2.2⟩
    rcases List.mem_append.1 hx with hx | hx
    · exact h.1 x hx
    · exact h'.1 x hx

/-- An invariant that every point keeps, and a value that is so from any state. -/
theorem Preserves.keeps_gives {m : Run σ ε α} (h : Preserves I m) (hg : Gives Q m) : Keeps I Q m := by
  intro s hs
  refine ⟨fun x hx => (h s).1 x hx hs, (h s).2 hs, fun a ha => ?_⟩
  rcases hms : m s with ⟨w, s', e | b⟩ <;> rw [hms] at ha
  · cases ha
  · cases ha
    exact hg s w s' a hms

/-- A first part of whose value nothing is asked. -/
theorem keeps_after {m : Run σ ε α} {f : α → Run σ ε β} (hm : Preserves I m) (hf : ∀ a, Keeps I R (f a)) :
    Keeps I R (Run.andThen m f) := hm.keeps.andThen (fun a _ => hf a)

theorem Keeps.handle {m : Run σ ε α} {h : ε → Run σ ε α} (hm : Keeps I Q m) (hh : ∀ e, Keeps I Q (h e)) :
    Keeps I Q (Run.handle m h) := by
  intro s hs
  have hm' := hm s hs
  rcases hms : m s with ⟨w, s', e | a⟩ <;> rw [hms] at hm'
  · have h' := hh e s' hm'.2.1
    rw [handle_error hms]
    refine ⟨fun x hx => ?_, h'.2.1, h'.2.2⟩
    rcases List.mem_append.1 hx with hx | hx
    · exact hm'.1 x hx
    · exact h'.1 x hx
  · rw [handle_ok hms]
    exact hm'

end Keeps

/-! ## What values are where the run ends -/

/-- **From `I` and `P` every point keeps `I` and is `G` from the start, and the value the run ends with has `Q` there.**
What holds of a value may depend on the state, as long as it outlasts `G`. -/
def Leads (I : σ → Prop) (G : σ → σ → Prop) (P : σ → Prop) (m : Run σ ε α) (Q : α → σ → Prop) : Prop :=
  ∀ s, I s → P s → (∀ x ∈ (m s).written, I x ∧ G s x) ∧ (I (m s).final ∧ G s (m s).final) ∧
    ∀ a, (m s).outcome = .ok a → Q a (m s).final

/-- What holds on along `G`. -/
def Lasts (G : σ → σ → Prop) (P : σ → Prop) : Prop := ∀ s x, P s → G s x → P x

section Leads

variable {I : σ → Prop} {G : σ → σ → Prop} {P S : σ → Prop} {Q T : α → σ → Prop} {R : β → σ → Prop}

theorem Lasts.and (h : Lasts G P) (h' : Lasts G S) : Lasts G (fun s => P s ∧ S s) :=
  fun s x hs hx => ⟨h s x hs.1 hx, h' s x hs.2 hx⟩

theorem lasts_true : Lasts G (fun _ : σ => True) := fun _ _ _ _ => trivial

theorem leads_look_andThen {f : σ → α} {g : α → Run σ ε β} (h : ∀ a, Leads I G P (g a) R) :
    Leads I G P (Run.andThen (look f) g) R := fun s => h (f s) s

theorem Leads.conseq {m : Run σ ε α} (h : Leads I G P m Q) (hP : ∀ s, I s → S s → P s) (hQ : ∀ a s, I s → Q a s → T a s) :
    Leads I G S m T := by
  intro s hs hp
  obtain ⟨hwritten, hfinal, hvalue⟩ := h s hs (hP s hs hp)
  exact ⟨hwritten, hfinal, fun a ha => hQ a _ hfinal.1 (hvalue a ha)⟩

/-- A run that keeps `I`, and `G` from its start, whatever it ends with. -/
theorem Preserves.leads {m : Run σ ε α} (h : Preserves I m) (hG : Always G m) : Leads I G P m (fun _ _ => True) :=
  fun s hs _ => ⟨fun x hx => ⟨(h s).1 x hx hs, (hG s).1 x hx⟩, ⟨(h s).2 hs, (hG s).2⟩, fun _ _ => trivial⟩

theorem Leads.preserves {m : Run σ ε α} (h : Leads I G (fun _ => True) m Q) : Preserves I m :=
  fun s => ⟨fun x hx hs => ((h s hs trivial).1 x hx).1, fun hs => (h s hs trivial).2.1.1⟩

/-- A run that also keeps `S` keeps it at every point. -/
theorem Leads.strengthen {m : Run σ ε α} (h : Leads I G P m Q) (hm : Preserves S m) (hS : ∀ s, S s → I s) :
    Leads S G P m Q := by
  intro s hs hp
  obtain ⟨hwritten, hfinal, hvalue⟩ := h s (hS s hs) hp
  exact ⟨fun x hx => ⟨(hm s).1 x hx hs, (hwritten x hx).2⟩, ⟨(hm s).2 hs, hfinal.2⟩, hvalue⟩

theorem Leads.attempt {m : Run σ ε α} (h : Leads I G P m Q) :
    Leads I G P (Run.attempt m) (fun o s => ∀ a, o = .ok a → Q a s) := by
  intro s hs hp
  obtain ⟨hwritten, hfinal, hvalue⟩ := h s hs hp
  exact ⟨hwritten, hfinal, fun o ho a ha => by cases ho; exact hvalue a ha⟩

/-- What held before and lasts holds after it too. -/
theorem Leads.frame {m : Run σ ε α} (h : Leads I G P m Q) (hS : Lasts G S) :
    Leads I G (fun s => P s ∧ S s) m (fun a s => Q a s ∧ S s) := by
  intro s hs hp
  obtain ⟨hwritten, hfinal, hvalue⟩ := h s hs hp.1
  exact ⟨hwritten, hfinal, fun a ha => ⟨hvalue a ha, hS s _ hp.2 hfinal.2⟩⟩

theorem leads_write {Q : Unit → σ → Prop} {f : σ → σ} (hf : ∀ s, I s → P s → I (f s) ∧ G s (f s) ∧ Q () (f s)) :
    Leads I G P (write f : Run σ ε Unit) Q := by
  intro s hs hp
  obtain ⟨hI, hG, hQ⟩ := hf s hs hp
  exact ⟨fun _ hx => List.mem_singleton.1 hx ▸ ⟨hI, hG⟩, ⟨hI, hG⟩, fun _ _ => hQ⟩

variable [IsPreorder σ G]

theorem leads_done {a : α} (h : ∀ s, I s → P s → Q a s) : Leads I G P (done a : Run σ ε α) Q :=
  fun s hs hp => ⟨fun _ hx => (List.not_mem_nil hx).elim, ⟨hs, Std.Refl.refl s⟩, fun _ hb => by cases hb; exact h s hs hp⟩

theorem leads_fail (e : ε) : Leads I G P (fail e : Run σ ε α) Q :=
  fun s hs _ => ⟨fun _ hx => (List.not_mem_nil hx).elim, ⟨hs, Std.Refl.refl s⟩, fun _ hb => by cases hb⟩

theorem leads_ofExcept : ∀ {x : Except ε α}, (∀ a, x = .ok a → ∀ s, I s → P s → Q a s) →
    Leads I G P (ofExcept x : Run σ ε α) Q
  | .ok a, h    => leads_done (h a rfl)
  | .error e, _ => leads_fail e

theorem Leads.andThen {m : Run σ ε α} {f : α → Run σ ε β} (hm : Leads I G P m Q) (hf : ∀ a, Leads I G (Q a) (f a) R) :
    Leads I G P (Run.andThen m f) R := by
  intro s hs hp
  have h := hm s hs hp
  rcases hms : m s with ⟨w, s', e | a⟩ <;> rw [hms] at h
  · rw [andThen_error hms]
    exact ⟨h.1, h.2.1, fun b hb => by cases hb⟩
  · have h' := hf a s' h.2.1.1 (h.2.2 a rfl)
    have hG : ∀ x, I x ∧ G s' x → I x ∧ G s x := fun x hx => ⟨hx.1, IsTrans.trans s s' x h.2.1.2 hx.2⟩
    rw [andThen_ok hms]
    refine ⟨fun x hx => ?_, hG _ h'.2.1, h'.2.2⟩
    rcases List.mem_append.1 hx with hx | hx
    · exact h.1 x hx
    · exact hG x (h'.1 x hx)

/-- A first part of whose value nothing is asked. -/
theorem Leads.andThen_keeping {m : Run σ ε α} {f : α → Run σ ε β} (hm : Leads I G (fun _ => True) m (fun _ _ => True))
    (hP : Lasts G P) (hf : ∀ a, Leads I G P (f a) R) : Leads I G P (Run.andThen m f) R :=
  ((hm.frame hP).conseq (fun _ _ hp => ⟨trivial, hp⟩) (fun _ _ _ hq => hq.2)).andThen hf

theorem Leads.handle {m : Run σ ε α} {h : ε → Run σ ε α} (hm : Leads I G P m Q)
    (hh : ∀ e, Leads I G (fun _ => True) (h e) Q) : Leads I G P (Run.handle m h) Q := by
  intro s hs hp
  have hm' := hm s hs hp
  rcases hms : m s with ⟨w, s', e | a⟩ <;> rw [hms] at hm'
  · have h' := hh e s' hm'.2.1.1 trivial
    have hG : ∀ x, I x ∧ G s' x → I x ∧ G s x := fun x hx => ⟨hx.1, IsTrans.trans s s' x hm'.2.1.2 hx.2⟩
    rw [handle_error hms]
    refine ⟨fun x hx => ?_, hG _ h'.2.1, h'.2.2⟩
    rcases List.mem_append.1 hx with hx | hx
    · exact hm'.1 x hx
    · exact hG x (h'.1 x hx)
  · rw [handle_ok hms]
    exact hm'

/-- A last part that keeps what is kept. -/
theorem Leads.lastly {m : Run σ ε α} {fin : Run σ ε Unit} (hm : Leads I G P m Q)
    (hfin : Leads I G (fun _ => True) fin (fun _ _ => True)) (hQ : ∀ a, Lasts G (Q a)) :
    Leads I G P (Run.lastly m fin) Q := by
  intro s hs hp
  have h := hm s hs hp
  rcases hms : m s with ⟨w, s', o⟩
  rw [hms] at h
  have h' := hfin s' h.2.1.1 trivial
  have hG : ∀ x, I x ∧ G s' x → I x ∧ G s x := fun x hx => ⟨hx.1, IsTrans.trans s s' x h.2.1.2 hx.2⟩
  unfold Run.lastly
  rw [hms]
  refine ⟨fun x hx => ?_, hG _ h'.2.1, fun a ha => ?_⟩
  · rcases List.mem_append.1 hx with hx | hx
    · exact h.1 x hx
    · exact hG x (h'.1 x hx)
  · dsimp only at ha
    split at ha
    · exact hQ a s' _ (h.2.2 a ha) h'.2.1.2
    · cases ha

/-- **A loop whose passes start from what lasts.** -/
theorem leads_forEach {f : α → Run σ ε Unit} (hP : Lasts G P) (hf : ∀ a, Leads I G P (f a) (fun _ _ => True)) :
    ∀ (xs : List α), Leads I G P (forEach f xs) (fun _ _ => True)
  | []      => leads_done (fun _ _ _ => trivial)
  | x :: xs =>
    (((hf x).frame hP).conseq (fun _ _ hp => ⟨hp, hp⟩) (fun _ _ _ hq => hq.2)).andThen
      (fun _ => leads_forEach hP hf xs)

/-- Steps that `G` follows. -/
theorem Steps.always {T : σ → σ → Prop} {m : Run σ ε α} (h : Steps T m) (hTG : ∀ s x, T s x → G s x) : Always G m :=
  fun s => (h s).invariant (I := G s) (fun x y hxy hx => IsTrans.trans s x y hx (hTG x y hxy)) (Std.Refl.refl s)

end Leads

/-! ## A run whose way is known -/

/-- **Where `v` shows `c`, the run ends with `a` where `v` shows `c'`.** What `v` does not show may change. -/
def Reaches {τ : Type} (v : σ → τ) (c : τ) (m : Run σ ε α) (a : α) (c' : τ) : Prop :=
  ∀ s, v s = c → ∃ w s', m s = ⟨w, s', .ok a⟩ ∧ v s' = c'

section Reaches

variable {τ : Type} {v : σ → τ} {c c' c'' : τ}

theorem reaches_done (a : α) : Reaches v c (done a : Run σ ε α) a c := fun s hs => ⟨[], s, rfl, hs⟩

theorem reaches_look {f : σ → α} {a : α} (h : ∀ s, v s = c → f s = a) : Reaches v c (look f : Run σ ε α) a c :=
  fun s hs => ⟨[], s, by rw [← h s hs]; rfl, hs⟩

theorem reaches_write {f : σ → σ} (h : ∀ s, v s = c → v (f s) = c') : Reaches v c (write f : Run σ ε Unit) () c' :=
  fun s hs => ⟨[f s], f s, rfl, h s hs⟩

theorem reaches_ofExcept {x : Except ε α} {a : α} (h : x = .ok a) : Reaches v c (ofExcept x : Run σ ε α) a c := by
  rw [h]
  exact reaches_done a

theorem Reaches.andThen {m : Run σ ε α} {f : α → Run σ ε β} {a : α} {b : β} (hm : Reaches v c m a c')
    (hf : Reaches v c' (f a) b c'') : Reaches v c (Run.andThen m f) b c'' := by
  intro s hs
  obtain ⟨w, s', hms, hs'⟩ := hm s hs
  obtain ⟨w', s'', hfs, hs''⟩ := hf s' hs'
  refine ⟨w ++ w', s'', ?_, hs''⟩
  rw [andThen_ok hms, hfs]

/-- A first part whose value does not matter. -/
theorem reaches_after {m : Run σ ε α} {f : α → Run σ ε β} {b : β}
    (hm : ∀ s, v s = c → ∃ w s' a, m s = ⟨w, s', .ok a⟩ ∧ v s' = c') (hf : ∀ a, Reaches v c' (f a) b c'') :
    Reaches v c (Run.andThen m f) b c'' := by
  intro s hs
  obtain ⟨w, s', a, hms, hs'⟩ := hm s hs
  obtain ⟨w', s'', hfs, hs''⟩ := hf a s' hs'
  refine ⟨w ++ w', s'', ?_, hs''⟩
  rw [andThen_ok hms, hfs]

theorem Reaches.handle {m : Run σ ε α} {h : ε → Run σ ε α} {a : α} (hm : Reaches v c m a c') :
    Reaches v c (Run.handle m h) a c' := by
  intro s hs
  obtain ⟨w, s', hms, hs'⟩ := hm s hs
  exact ⟨w, s', handle_ok hms, hs'⟩

theorem Reaches.lastly {m : Run σ ε α} {fin : Run σ ε Unit} {a : α} (hm : Reaches v c m a c')
    (hfin : Reaches v c' fin () c'') : Reaches v c (Run.lastly m fin) a c'' := by
  intro s hs
  obtain ⟨w, s', hms, hs'⟩ := hm s hs
  obtain ⟨w', s'', hfs, hs''⟩ := hfin s' hs'
  exact ⟨w ++ w', s'', lastly_ok hms hfs, hs''⟩

end Reaches

/-! ## A state on the way -/

/-- From the view `c` the run writes a state of the view `c'`, however it goes on. -/
def Meets {τ : Type} (v : σ → τ) (c : τ) (m : Run σ ε α) (c' : τ) : Prop :=
  ∀ s, v s = c → ∃ x ∈ (m s).written, v x = c'

section Meets

variable {τ : Type} {v : σ → τ} {c c' c'' : τ}

theorem meets_write {f : σ → σ} (h : ∀ s, v s = c → v (f s) = c') : Meets v c (write f : Run σ ε Unit) c' :=
  fun s hs => ⟨f s, List.mem_singleton_self _, h s hs⟩

theorem Meets.andThen {m : Run σ ε α} {f : α → Run σ ε β} (hm : Meets v c m c') : Meets v c (Run.andThen m f) c' := by
  intro s hs
  obtain ⟨x, hx, hv⟩ := hm s hs
  refine ⟨x, ?_, hv⟩
  rcases h : m s with ⟨w, s', e | a⟩ <;> rw [h] at hx
  · rw [andThen_error h]
    exact hx
  · rw [andThen_ok h]
    exact List.mem_append_left _ hx

/-- What is met after a part that goes through. -/
theorem Reaches.meets {m : Run σ ε α} {f : α → Run σ ε β} {a : α} (hm : Reaches v c m a c') (hf : Meets v c' (f a) c'') :
    Meets v c (Run.andThen m f) c'' := by
  intro s hs
  obtain ⟨w, s', h, hs'⟩ := hm s hs
  obtain ⟨x, hx, hv⟩ := hf s' hs'
  rw [andThen_ok h]
  exact ⟨x, List.mem_append_right _ hx, hv⟩

theorem Meets.handle {m : Run σ ε α} {h : ε → Run σ ε α} (hm : Meets v c m c') : Meets v c (Run.handle m h) c' := by
  intro s hs
  obtain ⟨x, hx, hv⟩ := hm s hs
  refine ⟨x, ?_, hv⟩
  rcases hrun : m s with ⟨w, s', e | a⟩ <;> rw [hrun] at hx
  · rw [handle_error hrun]
    exact List.mem_append_left _ hx
  · rw [handle_ok hrun]
    exact hx

end Meets

end Run
end Stateful
