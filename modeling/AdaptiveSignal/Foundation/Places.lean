import Mathlib.Algebra.BigOperators.Group.Finset.Piecewise
import Mathlib.Algebra.Order.BigOperators.Group.Finset
import Mathlib.Data.Fintype.Basic

/-! # Threads and the places of their programs

Each of several threads stands at some place of its program. A place may hold
units of a counted resource, and it may lie inside the critical section of a
mutex. When one thread moves on, the units that all threads hold change by what
its two places differ in, and the owner of the mutex by where they lie.
-/

namespace AdaptiveSignal.Foundation

variable {Thread Place : Type*} [DecidableEq Thread]

section Units

variable [Fintype Thread] (units : Place → ℕ) (place : Thread → Place)

omit [DecidableEq Thread] in
/-- The units that the threads hold together. -/
def held : ℕ :=
  ∑ t, units (place t)

omit [DecidableEq Thread] in
theorem le_held (t : Thread) : units (place t) ≤ held units place :=
  Finset.single_le_sum (f := fun t => units (place t)) (fun _ _ => Nat.zero_le _)
    (Finset.mem_univ t)

theorem held_update (t : Thread) (p : Place) :
    held units (Function.update place t p) + units (place t) = held units place + units p := by
  have hrest : ∀ t' ∈ Finset.univ.erase t,
      units (Function.update place t p t') = units (place t') := by
    intro t' ht'
    rw [Function.update_of_ne (Finset.ne_of_mem_erase ht')]
  have hnew := Finset.add_sum_erase Finset.univ
    (fun t' => units (Function.update place t p t')) (Finset.mem_univ t)
  have hold := Finset.add_sum_erase Finset.univ (fun t' => units (place t')) (Finset.mem_univ t)
  rw [Finset.sum_congr rfl hrest, Function.update_self] at hnew
  simp only [held]
  omega

end Units

/-- What a move does not change of its own place, it does not change of any. -/
theorem update_congr {Value : Type*} (value : Place → Value) {place : Thread → Place} {t : Thread}
    {p : Place} (hp : value p = value (place t)) (t' : Thread) :
    value (Function.update place t p t') = value (place t') := by
  rcases eq_or_ne t' t with rfl | hne
  · rw [Function.update_self, hp]
  · rw [Function.update_of_ne hne]

/-- The thread inside the critical section, if there is one, is the owner of the mutex. -/
def Exclusive (critical : Place → Bool) (place : Thread → Place) (owner : Option Thread) : Prop :=
  ∀ t, critical (place t) = true ↔ owner = some t

namespace Exclusive

variable {critical : Place → Bool} {place : Thread → Place} {owner : Option Thread} {t : Thread}
  {p : Place}

omit [DecidableEq Thread] in
/-- No two threads are inside. -/
theorem eq_of_critical {t' : Thread} (h : Exclusive critical place owner)
    (ht : critical (place t) = true) (ht' : critical (place t') = true) : t = t' :=
  Option.some_inj.mp (((h t).mp ht).symm.trans ((h t').mp ht'))

/-- Moving on the same side of the lock leaves the owner. -/
theorem keep (h : Exclusive critical place owner) (hp : critical p = critical (place t)) :
    Exclusive critical (Function.update place t p) owner := by
  intro t'
  rcases eq_or_ne t' t with rfl | hne
  · rw [Function.update_self, hp]
    exact h t'
  · rw [Function.update_of_ne hne]
    exact h t'

theorem acquire (h : Exclusive critical place none) (hp : critical p = true) :
    Exclusive critical (Function.update place t p) (some t) := by
  intro t'
  rcases eq_or_ne t' t with rfl | hne
  · simp [hp]
  · rw [Function.update_of_ne hne, h t']
    simp [hne.symm]

theorem release (h : Exclusive critical place owner) (hin : critical (place t) = true)
    (hp : critical p = false) : Exclusive critical (Function.update place t p) none := by
  intro t'
  rcases eq_or_ne t' t with rfl | hne
  · simp [hp]
  · rw [Function.update_of_ne hne, h t', (h t).mp hin]
    simp [hne.symm]

end Exclusive

end AdaptiveSignal.Foundation
