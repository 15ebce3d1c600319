import Nsl.Base.Run
/-!
# Mirror — two runs side by side

`Mirrors R L Ok m m' Q E`: from states that `R` relates, `m'` ends as `m` does, with a value that `Q` relates to the other
one or with the same error, one of `E`, in a state that `R` relates to the other one. It is asked of those runs of `m` only
that end in a state of `Ok`; that tells of all the states before, since `Ok` is closed downwards along `L`, which every run
follows.
-/
namespace Stateful.Run

variable {σ τ ε α β γ δ : Type}

/-- Both ended with values that `Q` relates, or with one error of `E`. -/
inductive Agree (Q : α → β → Prop) (E : ε → Prop) : Except ε α → Except ε β → Prop
  | ok {a : α} {b : β} (h : Q a b) : Agree Q E (.ok a) (.ok b)
  | error {e : ε} (h : E e) : Agree Q E (.error e) (.error e)

theorem agree_self {E : ε → Prop} {o : Except ε α} (h : ∀ e, o = .error e → E e) : Agree Eq E o o := by
  cases o with
  | ok a    => exact .ok rfl
  | error e => exact .error (h e rfl)

theorem Agree.eq {E : ε → Prop} {o o' : Except ε α} (h : Agree Eq E o o') : o = o' := by
  cases h with
  | ok h    => rw [h]
  | error h => rfl

theorem Agree.mono {Q T : α → β → Prop} {E F : ε → Prop} {o : Except ε α} {o' : Except ε β} (h : Agree Q E o o')
    (hQ : ∀ a b, Q a b → T a b) (hE : ∀ e, E e → F e) : Agree T F o o' := by
  cases h with
  | ok h    => exact .ok (hQ _ _ h)
  | error h => exact .error (hE _ h)

structure Mirrors (R : σ → τ → Prop) (L : σ → σ → Prop) (Ok : σ → Prop) (m : Run σ ε α) (m' : Run τ ε β)
    (Q : α → β → Prop) (E : ε → Prop) : Prop where
  grows : ∀ s, L s (m s).final
  ends  : ∀ s s', R s s' → Ok (m s).final → Agree Q E (m s).outcome (m' s').outcome ∧ R (m s).final (m' s').final

section Mirrors

variable {R : σ → τ → Prop} {L : σ → σ → Prop} {Ok : σ → Prop} {Q : α → β → Prop} {T : γ → δ → Prop} {E : ε → Prop}

theorem Mirrors.conseq {S : α → β → Prop} {F : ε → Prop} {m : Run σ ε α} {m' : Run τ ε β} (h : Mirrors R L Ok m m' Q E)
    (hQ : ∀ a b, Q a b → S a b) (hE : ∀ e, E e → F e) : Mirrors R L Ok m m' S F :=
  ⟨h.grows, fun s s' hs hok => ⟨(h.ends s s' hs hok).1.mono hQ hE, (h.ends s s' hs hok).2⟩⟩

/-- How the runs end, as values. -/
theorem Mirrors.attempt {F : ε → Prop} {m : Run σ ε α} {m' : Run τ ε β} (h : Mirrors R L Ok m m' Q E) :
    Mirrors R L Ok (Run.attempt m) (Run.attempt m') (Agree Q E) F :=
  ⟨h.grows, fun s s' hs hok => ⟨.ok (h.ends s s' hs hok).1, (h.ends s s' hs hok).2⟩⟩

theorem mirrors_write {f : σ → σ} {g : τ → τ} (hL : ∀ s, L s (f s)) (hR : ∀ s s', R s s' → R (f s) (g s')) :
    Mirrors R L Ok (write f : Run σ ε Unit) (write g) Eq E :=
  ⟨hL, fun s s' hs _ => ⟨.ok rfl, hR s s' hs⟩⟩

variable [IsPreorder σ L]

theorem mirrors_done {a : α} {b : β} (h : Q a b) : Mirrors R L Ok (done a : Run σ ε α) (done b) Q E :=
  ⟨fun s => Std.Refl.refl s, fun _ _ hs _ => ⟨.ok h, hs⟩⟩

theorem mirrors_fail {e : ε} (h : E e) : Mirrors R L Ok (fail e : Run σ ε α) (fail e : Run τ ε β) Q E :=
  ⟨fun s => Std.Refl.refl s, fun _ _ hs _ => ⟨.error h, hs⟩⟩

theorem mirrors_ofExcept {x : Except ε α} {y : Except ε β} (h : Agree Q E x y) :
    Mirrors R L Ok (ofExcept x : Run σ ε α) (ofExcept y) Q E := by
  cases h with
  | ok h    => exact mirrors_done h
  | error h => exact mirrors_fail h

/-- A run that only looks, and ends with what it sees. -/
def ask (g : σ → Except ε α) : Run σ ε α := fun s => ⟨[], s, g s⟩

theorem look_andThen_ofExcept (f : σ → α) (g : α → Except ε β) :
    Run.andThen (look f) (fun a => ofExcept (g a)) = ask (fun s => g (f s)) := by
  funext s
  show ofExcept (g (f s)) s = _
  rw [ofExcept_apply]
  rfl

theorem mirrors_ask {g : σ → Except ε α} {g' : τ → Except ε β} (h : ∀ s s', R s s' → Agree Q E (g s) (g' s')) :
    Mirrors R L Ok (ask g) (ask g') Q E :=
  ⟨fun s => Std.Refl.refl s, fun s s' hs _ => ⟨h s s' hs, hs⟩⟩

theorem mirrors_look {f : σ → α} {f' : τ → β} (h : ∀ s s', R s s' → Q (f s) (f' s')) :
    Mirrors R L Ok (look f : Run σ ε α) (look f') Q E :=
  ⟨fun s => Std.Refl.refl s, fun s s' hs _ => ⟨.ok (h s s' hs), hs⟩⟩

/-- **A first part that tells the rest what it needs**; every rest goes along `L`. -/
theorem Mirrors.andThen (hOk : ∀ s x, L s x → Ok x → Ok s) {m : Run σ ε α} {m' : Run τ ε β} {f : α → Run σ ε γ}
    {f' : β → Run τ ε δ} (hm : Mirrors R L Ok m m' Q E) (hgrows : ∀ a s, L s (f a s).final)
    (hf : ∀ a b, Q a b → Mirrors R L Ok (f a) (f' b) T E) :
    Mirrors R L Ok (Run.andThen m f) (Run.andThen m' f') T E := by
  constructor
  · intro s
    have h := hm.grows s
    rcases hms : m s with ⟨w, x, e | a⟩ <;> rw [hms] at h
    · rw [andThen_error hms]
      exact h
    · rw [andThen_ok hms]
      exact IsTrans.trans s x _ h (hgrows a x)
  · intro s s' hs hok
    have h := hm.ends s s' hs
    rcases hms : m s with ⟨w, x, e | a⟩ <;> rcases hms' : m' s' with ⟨w', x', e' | b⟩ <;> rw [hms, hms'] at h
    · rw [andThen_error hms] at hok ⊢
      rw [andThen_error hms']
      obtain ⟨ho, hx⟩ := h hok
      cases ho with
      | error he => exact ⟨.error he, hx⟩
    · rw [andThen_error hms] at hok
      cases (h hok).1
    · rw [andThen_ok hms] at hok
      cases (h (hOk _ _ (hgrows a x) hok)).1
    · rw [andThen_ok hms] at hok ⊢
      rw [andThen_ok hms']
      obtain ⟨ho, hx⟩ := h (hOk _ _ (hgrows a x) hok)
      cases ho with
      | ok hab => exact (hf a b hab).ends x x' hx hok

/-- **A handler of the errors of `E`**; of the others it is asked that it goes along `L`. -/
theorem Mirrors.handle (hOk : ∀ s x, L s x → Ok x → Ok s) {F : ε → Prop} {m : Run σ ε α} {m' : Run τ ε β}
    {h : ε → Run σ ε α} {h' : ε → Run τ ε β} (hm : Mirrors R L Ok m m' Q E) (hL : ∀ e s, L s (h e s).final)
    (hh : ∀ e, E e → Mirrors R L Ok (h e) (h' e) Q F) :
    Mirrors R L Ok (Run.handle m h) (Run.handle m' h') Q F := by
  constructor
  · intro s
    have hg := hm.grows s
    rcases hms : m s with ⟨w, x, e | a⟩ <;> rw [hms] at hg
    · rw [handle_error hms]
      exact IsTrans.trans s x _ hg (hL e x)
    · rw [handle_ok hms]
      exact hg
  · intro s s' hs hok
    have hends := hm.ends s s' hs
    rcases hms : m s with ⟨w, x, e | a⟩ <;> rcases hms' : m' s' with ⟨w', x', e' | b⟩ <;> rw [hms, hms'] at hends
    · rw [handle_error hms] at hok ⊢
      rw [handle_error hms']
      obtain ⟨ho, hx⟩ := hends (hOk _ _ (hL e x) hok)
      cases ho with
      | error he => exact (hh e he).ends x x' hx hok
    · rw [handle_error hms] at hok
      cases (hends (hOk _ _ (hL e x) hok)).1
    · rw [handle_ok hms] at hok
      cases (hends hok).1
    · rw [handle_ok hms] at hok ⊢
      rw [handle_ok hms']
      obtain ⟨ho, hx⟩ := hends hok
      cases ho with
      | ok hab => exact ⟨.ok hab, hx⟩

theorem Mirrors.lastly (hOk : ∀ s x, L s x → Ok x → Ok s) {m : Run σ ε α} {m' : Run τ ε β} {fin : Run σ ε Unit}
    {fin' : Run τ ε Unit} (hm : Mirrors R L Ok m m' Q E) (hfin : Mirrors R L Ok fin fin' Eq E) :
    Mirrors R L Ok (Run.lastly m fin) (Run.lastly m' fin') Q E := by
  have hfinal : ∀ s, (Run.lastly m fin s).final = (fin (m s).final).final := fun _ => rfl
  have hfinal' : ∀ s, (Run.lastly m' fin' s).final = (fin' (m' s).final).final := fun _ => rfl
  constructor
  · intro s
    rw [hfinal]
    exact IsTrans.trans s _ _ (hm.grows s) (hfin.grows _)
  · intro s s' hs hok
    rw [hfinal] at hok
    obtain ⟨ho, hx⟩ := hm.ends s s' hs (hOk _ _ (hfin.grows _) hok)
    obtain ⟨hofin, hxfin⟩ := hfin.ends _ _ hx hok
    rw [hfinal, hfinal']
    refine ⟨?_, hxfin⟩
    unfold Run.lastly
    dsimp only
    generalize (fin (m s).final).outcome = o at hofin ⊢
    generalize (fin' (m' s').final).outcome = o' at hofin ⊢
    cases hofin with
    | ok h    => exact ho
    | error h => exact .error h

/-- A first part whose value alone tells the rest what it needs. -/
theorem Mirrors.andThen_total (hOk : ∀ s x, L s x → Ok x → Ok s) {m : Run σ ε α} {m' : Run τ ε β} {f : α → Run σ ε γ}
    {f' : β → Run τ ε δ} (hm : Mirrors R L Ok m m' Q E) (hQ : ∀ a, ∃ b, Q a b)
    (hf : ∀ a b, Q a b → Mirrors R L Ok (f a) (f' b) T E) :
    Mirrors R L Ok (Run.andThen m f) (Run.andThen m' f') T E := by
  refine hm.andThen hOk (fun a => ?_) hf
  obtain ⟨b, hb⟩ := hQ a
  exact (hf a b hb).grows

/-- **Two loops over one list.** -/
theorem mirrors_forEach (hOk : ∀ s x, L s x → Ok x → Ok s) {f : α → Run σ ε Unit} {f' : α → Run τ ε Unit}
    (hf : ∀ a, Mirrors R L Ok (f a) (f' a) Eq E) : ∀ (xs : List α), Mirrors R L Ok (forEach f xs) (forEach f' xs) Eq E
  | []      => mirrors_done rfl
  | x :: xs => (hf x).andThen_total hOk (fun a => ⟨a, rfl⟩) (fun _ _ _ => mirrors_forEach hOk hf xs)

end Mirrors
end Stateful.Run
