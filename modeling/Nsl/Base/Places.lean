import Mathlib.Data.List.Induction
import Mathlib.Data.List.TakeWhile
/-!
# Places — offsets, lines and columns of a text

A `Place` is what a scanner carries along; `placeAt` finds the line and the column of an offset again by counting newlines.
Where each character moves the place as `past` says, the two agree (`after_start`).
-/

/-- A place in a text; lines and columns are counted from one. -/
structure Place where
  offset : Nat
  line   : Nat
  column : Nat
  deriving DecidableEq, Repr

namespace Place

/-- The place before the first character. -/
def start : Place := ⟨0, 1, 1⟩

/-- The place behind one more character. -/
def past (p : Place) (c : Char) : Place :=
  if c = '\n' then ⟨p.offset + 1, p.line + 1, 1⟩ else ⟨p.offset + 1, p.line, p.column + 1⟩

/-- The place some characters further on one line. -/
def right (p : Place) (n : Nat) : Place := ⟨p.offset + n, p.line, p.column + n⟩

/-- The place behind some characters. -/
def after (p : Place) (cs : List Char) : Place := cs.foldl past p

@[simp] theorem after_nil (p : Place) : p.after [] = p := rfl

@[simp] theorem after_cons (p : Place) (c : Char) (cs : List Char) : p.after (c :: cs) = (p.past c).after cs := rfl

theorem after_append (p : Place) (cs ds : List Char) : p.after (cs ++ ds) = (p.after cs).after ds := List.foldl_append

theorem past_right {p : Place} {c : Char} (h : c ≠ '\n') : p.past c = p.right 1 := if_neg h

theorem right_right (p : Place) (m n : Nat) : (p.right m).right n = p.right (m + n) := by
  simp [right, Nat.add_assoc]

/-- On one line every character is one column. -/
theorem after_right : ∀ {cs : List Char} (p : Place), '\n' ∉ cs → p.after cs = p.right cs.length
  | [], _, _      => rfl
  | c :: cs, p, h => by
    rw [List.mem_cons, not_or] at h
    rw [after_cons, past_right (Ne.symm h.1), after_right _ h.2, right_right, List.length_cons, Nat.add_comm]

@[simp] theorem past_offset (p : Place) (c : Char) : (p.past c).offset = p.offset + 1 := by
  unfold past
  split <;> rfl

@[simp] theorem after_offset (p : Place) (cs : List Char) : (p.after cs).offset = p.offset + cs.length := by
  induction cs generalizing p with
  | nil          => rfl
  | cons c cs ih =>
    rw [after_cons, ih, past_offset, List.length_cons]
    omega

end Place

/-- The place of an offset, found by counting the newlines before it. -/
def placeAt (text : List Char) (offset : Nat) : Place :=
  ⟨offset, (text.take offset).count '\n' + 1, ((text.take offset).reverse.takeWhile (· ≠ '\n')).length + 1⟩

/-- **A place that was moved character by character is the one counting finds.** -/
theorem Place.after_start (cs rest : List Char) : Place.start.after cs = placeAt (cs ++ rest) cs.length := by
  unfold placeAt
  rw [List.take_left]
  induction cs using List.reverseRecOn with
  | nil               => rfl
  | append_singleton cs c ih =>
    rw [Place.after_append, ih, Place.after_cons, Place.after_nil, Place.past]
    by_cases hc : c = '\n'
    · subst hc
      simp
    · simp [hc, List.count_append]

/-- The characters between two offsets. -/
def slice (text : List Char) (start stop : Nat) : List Char := (text.take stop).drop start

theorem slice_append (pre mid post : List Char) :
    slice (pre ++ (mid ++ post)) pre.length (pre.length + mid.length) = mid := by
  unfold slice
  rw [← List.append_assoc, ← List.length_append, List.take_left, List.drop_left]
