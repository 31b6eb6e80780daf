import AdaptiveSignal.Foundation.Run
import Mathlib.Algebra.Order.Ring.Nat

/-! # Uses that need a grant

Something is used up by a use and stays used up until a step grants it again.
Then no two uses follow each other without a grant between them, and a run has
at most one use more than it has grants.
-/

namespace AdaptiveSignal.Foundation

variable {State Input : Type*} {step : State → Input → State}

/-- A use finds the thing unspent and spends it; without a grant it stays spent. -/
structure OncePerGrant (step : State → Input → State) (grants uses : State → Input → Bool)
    (spent : State → Prop) : Prop where
  ready : ∀ s input, uses s input = true → ¬ spent s
  spends : ∀ s input, uses s input = true → spent (step s input)
  keeps : ∀ s input, spent s → grants s input = false → spent (step s input)

namespace OncePerGrant

variable {grants uses : State → Input → Bool} {spent : State → Prop}

/-- A run that begins spent and reaches a use passes a grant. -/
theorem grant_of_ready (h : OncePerGrant step grants uses spent) {s : State} (hs : spent s)
    {inputs : List Input} (hready : ¬ spent (run step s inputs)) :
    ∃ before granting after, inputs = before ++ granting :: after ∧
      grants (run step s before) granting = true := by
  induction inputs generalizing s with
  | nil => exact absurd hs hready
  | cons input rest ih =>
      cases hgrant : grants s input with
      | true => exact ⟨[], input, rest, rfl, hgrant⟩
      | false =>
          obtain ⟨before, granting, after, rfl, hlater⟩ := ih (h.keeps s input hs hgrant) hready
          exact ⟨input :: before, granting, after, rfl, hlater⟩

/-- Between two uses there is a grant. -/
theorem grant_between (h : OncePerGrant step grants uses spent) {s : State}
    {before middle : List Input} {first second : Input}
    (hfirst : uses (run step s before) first = true)
    (hsecond : uses (run step s (before ++ first :: middle)) second = true) :
    ∃ earlier granting later, middle = earlier ++ granting :: later ∧
      grants (run step s (before ++ first :: earlier)) granting = true := by
  have hspent := h.spends _ _ hfirst
  have hready := h.ready _ _ hsecond
  rw [run_append, run_cons] at hready
  obtain ⟨earlier, granting, later, hmiddle, hgrant⟩ := h.grant_of_ready hspent hready
  refine ⟨earlier, granting, later, hmiddle, ?_⟩
  rw [run_append, run_cons]
  exact hgrant

/-- Every use is paid for by a grant, but for the one the run may begin with. -/
theorem tally_uses_le (h : OncePerGrant step grants uses spent) (s : State)
    (inputs : List Input) :
    tally step uses s inputs ≤ tally step grants s inputs + 1 ∧
      (spent s → tally step uses s inputs ≤ tally step grants s inputs) := by
  induction inputs generalizing s with
  | nil => exact ⟨Nat.zero_le _, fun _ => Nat.le_refl _⟩
  | cons input rest ih =>
      obtain ⟨hany, hspent⟩ := ih (step s input)
      simp only [tally]
      cases huse : uses s input with
      | true =>
          have hrest := hspent (h.spends s input huse)
          refine ⟨?_, fun hs => absurd hs (h.ready s input huse)⟩
          simp only [Bool.toNat_true]
          omega
      | false =>
          simp only [Bool.toNat_false, Nat.zero_add]
          refine ⟨by omega, fun hs => ?_⟩
          cases hgrant : grants s input with
          | true => simpa [Nat.add_comm] using hany
          | false => simpa using hspent (h.keeps s input hs hgrant)

end OncePerGrant

end AdaptiveSignal.Foundation
