import Mathlib.Logic.Function.Iterate
import Mathlib.Tactic.Common

/-! # Loops without a bound of their own

A loop evaluates its condition at most as often as its fuel allows. It ends at the
first state where the condition fails, and there is no result if the fuel does not
last until then.
-/

namespace AdaptiveSignal.Foundation

variable {State : Type*} (cond : State → Bool) (body : State → State)

def whileLoop : ℕ → State → Option State
  | 0, _ => none
  | fuel + 1, s => if cond s then whileLoop fuel (body s) else some s

/-- A loop that keeps an invariant and whose condition fails after some round below
its fuel ends, and the invariant holds there. -/
theorem exists_whileLoop {invariant : State → Prop} {fuel n : ℕ} {s : State}
    (hs : invariant s) (hbody : ∀ s, invariant s → cond s → invariant (body s)) (hn : n < fuel)
    (hend : cond (body^[n] s) = false) :
    ∃ s', whileLoop cond body fuel s = some s' ∧ invariant s' := by
  induction fuel generalizing s n with
  | zero => exact absurd hn (Nat.not_lt_zero n)
  | succ fuel ih =>
      rw [whileLoop]
      cases hcond : cond s with
      | false => exact ⟨s, if_neg Bool.false_ne_true, hs⟩
      | true =>
          cases n with
          | zero => exact absurd hend (by simp [hcond])
          | succ n =>
              rw [if_pos rfl]
              exact ih (hbody s hs hcond) (Nat.lt_of_succ_lt_succ hn) hend

/-- A loop of so many rounds, with what holds before each of them. -/
theorem whileLoop_of_rounds {before : ℕ → State → Prop} {rounds fuel : ℕ} {s : State}
    (hs : before 0 s)
    (hround : ∀ i < rounds, ∀ s, before i s → cond s = true ∧ before (i + 1) (body s))
    (hlast : ∀ s, before rounds s → cond s = false) (hfuel : rounds < fuel) :
    ∃ s', whileLoop cond body fuel s = some s' ∧ before rounds s' := by
  induction rounds generalizing before fuel s with
  | zero =>
      obtain ⟨fuel, rfl⟩ := Nat.exists_eq_succ_of_ne_zero (Nat.ne_zero_of_lt hfuel)
      exact ⟨s, by rw [whileLoop, hlast s hs, if_neg Bool.false_ne_true], hs⟩
  | succ rounds ih =>
      obtain ⟨fuel, rfl⟩ := Nat.exists_eq_succ_of_ne_zero (Nat.ne_zero_of_lt hfuel)
      obtain ⟨hcond, hnext⟩ := hround 0 rounds.succ_pos s hs
      rw [whileLoop, if_pos hcond]
      exact @ih (fun i => before (i + 1)) _ _ hnext
        (fun i hi => hround (i + 1) (Nat.succ_lt_succ hi)) hlast (Nat.lt_of_succ_lt_succ hfuel)

end AdaptiveSignal.Foundation
