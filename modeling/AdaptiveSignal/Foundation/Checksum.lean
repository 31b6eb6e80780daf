import Mathlib.Data.List.Basic
import Mathlib.Tactic.Common

/-! # Checksums that fold a self-inverse operation

The fold of an associative, commutative operation under which every element is its
own inverse changes with every change of a single element.
-/

namespace AdaptiveSignal.Foundation

variable {α : Type*}

/-- An operation like the exclusive or. -/
structure SelfInverse (op : α → α → α) (neutral : α) : Prop where
  assoc : ∀ a b c, op (op a b) c = op a (op b c)
  comm : ∀ a b, op a b = op b a
  neutral_op : ∀ a, op neutral a = a
  self : ∀ a, op a a = neutral

/-- The fold of an operation over a list. -/
def checksum (op : α → α → α) (neutral : α) (l : List α) : α := l.foldr op neutral

variable {op : α → α → α} {neutral : α}

@[simp] theorem checksum_nil : checksum op neutral [] = neutral := rfl

@[simp] theorem checksum_cons (a : α) (l : List α) :
    checksum op neutral (a :: l) = op a (checksum op neutral l) := rfl

namespace SelfInverse

variable (h : SelfInverse op neutral)

include h

theorem left_cancel {a b c : α} (heq : op a b = op a c) : b = c := by
  have hagain := congrArg (op a) heq
  rwa [← h.assoc, ← h.assoc, h.self, h.neutral_op, h.neutral_op] at hagain

theorem right_cancel {a b c : α} (heq : op b a = op c a) : b = c := by
  rw [h.comm b, h.comm c] at heq
  exact h.left_cancel heq

theorem op_eq_neutral_iff {a b : α} : op a b = neutral ↔ a = b := by
  constructor
  · intro heq
    rw [← h.self b] at heq
    exact h.right_cancel heq
  · rintro rfl
    exact h.self a

theorem checksum_append (l l' : List α) :
    checksum op neutral (l ++ l') = op (checksum op neutral l) (checksum op neutral l') := by
  induction l with
  | nil => exact (h.neutral_op _).symm
  | cons a l ih => rw [List.cons_append, checksum_cons, ih, checksum_cons, h.assoc]

/-- A change of one element shows. -/
theorem checksum_set_ne {l : List α} {i : ℕ} (hi : i < l.length) {b : α} (hb : b ≠ l[i]) :
    checksum op neutral (l.set i b) ≠ checksum op neutral l := by
  intro heq
  apply hb
  have hsplit : ∀ a, checksum op neutral (l.set i a) =
      op (checksum op neutral (l.take i)) (op a (checksum op neutral (l.drop (i + 1)))) := by
    intro a
    rw [List.set_eq_take_append_cons_drop, if_pos hi, h.checksum_append, checksum_cons]
  have hsame := hsplit l[i]
  rw [List.set_getElem_self hi] at hsame
  rw [hsplit, hsame] at heq
  exact h.right_cancel (h.left_cancel heq)

end SelfInverse

end AdaptiveSignal.Foundation
