import Mathlib.Logic.Function.Basic
/-!
# Cells — objects with an identity

The objects of a process, each with what it holds now. An object that is made is a new one: no one had it before, and
a later change of another leaves it as it is.
-/
structure Cells (α : Type) where
  content : Nat → α
  next    : Nat

namespace Cells

variable {α : Type}

/-- A new object. -/
def create (h : Cells α) (a : α) : Cells α := ⟨Function.update h.content h.next a, h.next + 1⟩

/-- The object holds something else from now on. -/
def change (h : Cells α) (c : Nat) (a : α) : Cells α := { h with content := Function.update h.content c a }

/-- `h'` has every object of `h`, unchanged. -/
structure Extends (h h' : Cells α) : Prop where
  next    : h.next ≤ h'.next
  content : ∀ c, c < h.next → h'.content c = h.content c

variable {h h' h'' : Cells α} {c : Nat}

@[simp] theorem create_next (h : Cells α) (a : α) : (h.create a).next = h.next + 1 := rfl

@[simp] theorem create_content_new (h : Cells α) (a : α) : (h.create a).content h.next = a := Function.update_self ..

theorem create_content_old (a : α) (hc : c < h.next) : (h.create a).content c = h.content c :=
  Function.update_of_ne (Nat.ne_of_lt hc) _ _

@[simp] theorem change_next (h : Cells α) (c : Nat) (a : α) : (h.change c a).next = h.next := rfl

theorem change_content_other (a : α) {c₀ : Nat} (hc : c₀ ≠ c) : (h.change c a).content c₀ = h.content c₀ :=
  Function.update_of_ne hc _ _

theorem Extends.refl (h : Cells α) : h.Extends h := ⟨Nat.le_refl _, fun _ _ => rfl⟩

theorem Extends.trans (h₁ : h.Extends h') (h₂ : h'.Extends h'') : h.Extends h'' := by
  refine ⟨Nat.le_trans h₁.next h₂.next, fun c hc => ?_⟩
  rw [h₂.content c (Nat.lt_of_lt_of_le hc h₁.next), h₁.content c hc]

theorem create_extends (h : Cells α) (a : α) : h.Extends (h.create a) :=
  ⟨Nat.le_succ _, fun _ hc => create_content_old a hc⟩

end Cells
