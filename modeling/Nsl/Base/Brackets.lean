import Mathlib.Data.List.Basic
/-!
# Brackets — words of nested brackets, calls and one end

A word of marks: brackets that nest (`enter`, `leave`), calls that hold nothing (`start`, `stop`), the end of the word
(`finish`) and everything else. `walk` reads a word with the brackets that are open, innermost first, and the call that
is under way. **A word that `walk` reads to its end is well formed exactly when no call is under way there**
(`wellFormed_iff`).
-/
namespace Brackets

inductive Mark (α β : Type)
  | enter (a : α)
  | leave (a : α)
  | start (b : β)
  | stop (b : β)
  | finish
  | plain
  deriving DecidableEq

variable {α β : Type} [DecidableEq α] [DecidableEq β]

/-! ## Well-formed words -/

/-- Neither the start of a call nor the end. -/
def Mark.continues : Mark α β → Bool
  | .start _ | .finish => false
  | _                  => true

/-- One mark read by what it does to the open brackets. -/
def nest (opened : List α) (m : Mark α β) : Option (List α) :=
  match m, opened with
  | .enter a, as       => some (a :: as)
  | .leave a, a' :: as => if a' = a then some as else none
  | .leave _, []       => none
  | _,        as       => some as

/-- The brackets a word leaves open, innermost first; none when they do not nest. -/
def nesting (opened : List α) (ms : List (Mark α β)) : Option (List α) := ms.foldlM nest opened

/-- Each call is stopped once before the next one and before the end. -/
def CallsClosed (ms : List (Mark α β)) : Prop :=
  ∀ pre b post, ms = pre ++ .start b :: post → (post.takeWhile Mark.continues).count (.stop b) = 1

/-- **Calls closed, brackets nested with `opened` left open, one end and it is the last mark.** -/
structure WellFormed (ms : List (Mark α β)) (opened : List α) : Prop where
  calls    : CallsClosed ms
  nests    : nesting [] ms = some opened
  finished : ∃ before, ms = before ++ [.finish] ∧ .finish ∉ before

/-! ## Reading a word -/

/-- One mark: during a call only its stop. -/
def step (st : List α × Option β) (m : Mark α β) : Option (List α × Option β) :=
  match st, m with
  | (as, none),      .enter a => some (a :: as, none)
  | (a' :: as, none), .leave a => if a' = a then some (as, none) else none
  | (as, none),      .start b => some (as, some b)
  | (as, some b'),   .stop b  => if b' = b then some (as, none) else none
  | (as, none),      .plain   => some (as, none)
  | _,               _        => none

def walk (st : List α × Option β) (ms : List (Mark α β)) : Option (List α × Option β) := ms.foldlM step st

theorem walk_cons (st : List α × Option β) (m : Mark α β) (ms : List (Mark α β)) :
    walk st (m :: ms) = (step st m).bind (fun st' => walk st' ms) := List.foldlM_cons ..

theorem walk_append (st : List α × Option β) (ms ms' : List (Mark α β)) :
    walk st (ms ++ ms') = (walk st ms).bind (fun st' => walk st' ms') := List.foldlM_append ..

/-- A word read to some state went through a state after its first part. -/
theorem walk_append_eq {st st' : List α × Option β} {ms ms' : List (Mark α β)} (h : walk st (ms ++ ms') = some st') :
    ∃ mid, walk st ms = some mid ∧ walk mid ms' = some st' := by
  rw [walk_append] at h
  exact Option.bind_eq_some_iff.1 h

theorem walk_cons_eq {st st' : List α × Option β} {m : Mark α β} {ms : List (Mark α β)}
    (h : walk st (m :: ms) = some st') : ∃ mid, step st m = some mid ∧ walk mid ms = some st' := by
  rw [walk_cons] at h
  exact Option.bind_eq_some_iff.1 h

/-- **Within every nesting the word leaves `opened` open, and the call `running` under way.** -/
def Leaves (ms : List (Mark α β)) (opened : List α) (running : Option β) : Prop :=
  ∀ outer, walk (outer, none) ms = some (opened ++ outer, running)

theorem leaves_nil : Leaves ([] : List (Mark α β)) [] none := fun _ => rfl

theorem leaves_plain : Leaves [(.plain : Mark α β)] [] none := fun _ => rfl

theorem leaves_enter (a : α) : Leaves [(.enter a : Mark α β)] [a] none := fun _ => rfl

theorem leaves_start (b : β) : Leaves [(.start b : Mark α β)] [] (some b) := fun _ => rfl

theorem Leaves.append {ms ms' : List (Mark α β)} {as as' : List α} {running : Option β} (h : Leaves ms as none)
    (h' : Leaves ms' as' running) : Leaves (ms ++ ms') (as' ++ as) running := by
  intro outer
  rw [walk_append, h outer, Option.bind_some, h' (as ++ outer), List.append_assoc]

/-- A bracket around a word that leaves nothing open. -/
theorem Leaves.closed {a : α} {ms : List (Mark α β)} (h : Leaves ms [] none) :
    Leaves (.enter a :: ms ++ [.leave a]) [] none := by
  intro outer
  rw [List.cons_append, walk_cons]
  show walk (a :: outer, none) (ms ++ [.leave a]) = _
  rw [walk_append, h (a :: outer)]
  show step (a :: outer, none) (.leave a) >>= _ = _
  simp [step]

/-- What closes the call `b`, and leaves nothing open. -/
def Stops (b : β) (ms : List (Mark α β)) : Prop := ∀ outer : List α, walk (outer, some b) ms = some (outer, none)

theorem stops_stop (b : β) : Stops b [(.stop b : Mark α β)] := by
  intro outer
  simp [walk, step]

theorem leaves_call {b : β} {ms : List (Mark α β)} (h : Stops b ms) : Leaves (.start b :: ms) [] none := fun outer => by
  rw [walk_cons]
  exact h outer

/-! ## What reading shows -/

theorem step_nest {as as' : List α} {running running' : Option β} {m : Mark α β}
    (h : step (as, running) m = some (as', running')) : nest as m = some as' := by
  cases running <;> cases m <;> cases as <;> simp_all [step, nest]

/-- The brackets a word leaves open. -/
theorem walk_nesting : ∀ {ms : List (Mark α β)} {as as' : List α} {running running' : Option β},
    walk (as, running) ms = some (as', running') → nesting as ms = some as'
  | [], as, as', running, running', h => by
    cases h
    rfl
  | m :: ms, as, as', running, running', h => by
    obtain ⟨⟨as₁, running₁⟩, hstep, hrest⟩ := walk_cons_eq h
    show nest as m >>= _ = _
    rw [step_nest hstep]
    exact walk_nesting hrest

theorem walk_no_finish : ∀ {ms : List (Mark α β)} {st st' : List α × Option β}, walk st ms = some st' → .finish ∉ ms
  | [], _, _, _ => List.not_mem_nil
  | m :: ms, st, st', h => by
    obtain ⟨mid, hstep, hrest⟩ := walk_cons_eq h
    intro hm
    rcases List.mem_cons.1 hm with hm | hm
    · subst hm
      obtain ⟨as, running⟩ := st
      cases running <;> cases as <;> cases hstep
    · exact walk_no_finish hrest hm

/-- While no call is under way, none is stopped before the next one starts. -/
theorem walk_no_stop (b : β) : ∀ {ms : List (Mark α β)} {as : List α} {st' : List α × Option β},
    walk (as, none) ms = some st' → ((ms ++ [Mark.finish]).takeWhile Mark.continues).count (Mark.stop b) = 0
  | [], _, _, _ => rfl
  | m :: ms, as, st', h => by
    obtain ⟨⟨as₁, running₁⟩, hstep, hrest⟩ := walk_cons_eq h
    cases m with
    | stop c   => cases as <;> cases hstep
    | start c  => rfl
    | finish   => rfl
    | enter a  =>
      cases hstep
      simpa [List.takeWhile_cons, Mark.continues] using walk_no_stop b hrest
    | plain    =>
      have hmid : (as₁, running₁) = (as, none) := by cases as <;> cases hstep <;> rfl
      rw [hmid] at hrest
      simpa [List.takeWhile_cons, Mark.continues] using walk_no_stop b hrest
    | leave a  =>
      have hmid : running₁ = none := by
        cases as with
        | nil        => cases hstep
        | cons a' as =>
          by_cases ha : a' = a
          · rw [step, if_pos ha] at hstep
            cases hstep
            rfl
          · rw [step, if_neg ha] at hstep
            cases hstep
      rw [hmid] at hrest
      simpa [List.takeWhile_cons, Mark.continues] using walk_no_stop b hrest

/-- A call that is under way at the end was started by the last mark. -/
theorem walk_running {ms : List (Mark α β)} {as as' : List α} {b : β} (h : walk (as, none) ms = some (as', some b)) :
    ∃ pre, ms = pre ++ [.start b] := by
  rcases List.eq_nil_or_concat ms with rfl | ⟨pre, m, rfl⟩
  · cases h
  · rw [List.concat_eq_append] at h ⊢
    obtain ⟨⟨as₁, running₁⟩, -, hlast⟩ := walk_append_eq h
    obtain ⟨⟨as₂, running₂⟩, hstep, hend⟩ := walk_cons_eq hlast
    cases hend
    refine ⟨pre, ?_⟩
    cases running₁ <;> cases m <;> cases as₁ <;> simp_all [step]

theorem walk_callsClosed {ms : List (Mark α β)} {as as' : List α} (h : walk (as, none) ms = some (as', none)) :
    CallsClosed (ms ++ [.finish]) := by
  intro pre b post hsplit
  rcases List.eq_nil_or_concat post with rfl | ⟨post, m, rfl⟩
  · have hlast := congrArg List.getLast? hsplit
    simp at hlast
  · rw [List.concat_eq_append] at hsplit ⊢
    obtain ⟨hms, hm⟩ := List.append_inj' (by simpa using hsplit : ms ++ [.finish] = (pre ++ .start b :: post) ++ [m]) rfl
    cases hm
    rw [hms] at h
    obtain ⟨⟨as₁, running₁⟩, -, hcall⟩ := walk_append_eq h
    obtain ⟨⟨as₂, running₂⟩, hstart, hpost⟩ := walk_cons_eq hcall
    have hrunning : running₂ = some b := by cases running₁ <;> cases as₁ <;> cases hstart <;> rfl
    subst hrunning
    cases post with
    | nil         => cases hpost
    | cons m rest =>
      obtain ⟨⟨as₃, running₃⟩, hstop, hrest⟩ := walk_cons_eq hpost
      have hm : m = .stop b ∧ running₃ = none := by cases m <;> simp_all [step]
      obtain ⟨rfl, rfl⟩ := hm
      simp [List.takeWhile_cons, Mark.continues, walk_no_stop b hrest]

/-- **A word that was read is well formed up to its end exactly when no call is under way there.** -/
theorem wellFormed_iff {ms : List (Mark α β)} {opened : List α} {running : Option β} (h : Leaves ms opened running) :
    WellFormed (ms ++ [.finish]) opened ↔ running = none := by
  have hwalk := h []
  rw [List.append_nil] at hwalk
  constructor
  · intro hwell
    cases running with
    | none   => rfl
    | some b =>
      obtain ⟨pre, rfl⟩ := walk_running hwalk
      have hcount := hwell.calls pre b [.finish] (by simp)
      simp [Mark.continues] at hcount
  · rintro rfl
    refine ⟨walk_callsClosed hwalk, ?_, ms, rfl, walk_no_finish hwalk⟩
    show List.foldlM nest [] (ms ++ [.finish]) = _
    rw [List.foldlM_append]
    show nesting [] ms >>= _ = _
    rw [walk_nesting hwalk]
    rfl

end Brackets
