import AdaptiveSignal.Foundation.Run
import Mathlib.Algebra.BigOperators.Group.Finset.Piecewise
import Mathlib.Algebra.Order.Group.Pointwise.Interval
import Mathlib.Tactic.Abel

/-! # Handing out an amount part by part

An amount, positive or negative, is handed out to receivers. Every part is taken
from what remains, so nothing is lost; as long as no part exceeds the remainder or
goes against its sign, no receiver holds more than the amount.
-/

namespace AdaptiveSignal.Foundation

/-- What the receivers were given, and what remains to be given. -/
@[ext] structure Distribution (Receiver Amount : Type*) where
  given : Receiver → Amount
  remaining : Amount

namespace Distribution

variable {Receiver Amount : Type*} [AddCommGroup Amount]

/-- Nothing is given yet. -/
def untouched (total : Amount) : Distribution Receiver Amount := ⟨fun _ => 0, total⟩

/-- What the receivers hold and what remains, taken together. -/
def amount (receivers : Finset Receiver) (d : Distribution Receiver Amount) : Amount :=
  ∑ receiver ∈ receivers, d.given receiver + d.remaining

@[simp] theorem amount_untouched (receivers : Finset Receiver) (total : Amount) :
    (untouched total).amount receivers = total := by
  simp [amount, untouched]

/-- On the way from nothing given to `total` given: neither what is given nor what
remains goes against the sign of the amount or beyond it. -/
structure Toward [LinearOrder Amount] (total : Amount) (d : Distribution Receiver Amount) :
    Prop where
  remaining : d.remaining ∈ Set.uIcc 0 total
  given : ∀ receiver, d.given receiver ∈ Set.uIcc 0 total
  reserve : ∀ receiver, d.given receiver + d.remaining ∈ Set.uIcc 0 total

theorem toward_untouched [LinearOrder Amount] (total : Amount) :
    Toward total (untouched total : Distribution Receiver Amount) where
  remaining := Set.right_mem_uIcc
  given := fun _ => Set.left_mem_uIcc
  reserve := fun _ => by simp [untouched]

variable [DecidableEq Receiver]

/-- Give one receiver a part of what remains. -/
def give (d : Distribution Receiver Amount) (receiver : Receiver) (part : Amount) :
    Distribution Receiver Amount where
  given := Function.update d.given receiver (d.given receiver + part)
  remaining := d.remaining - part

/-- A part only moves from the remainder to its receiver. -/
theorem amount_give (d : Distribution Receiver Amount) {receiver : Receiver} (part : Amount)
    {receivers : Finset Receiver} (hreceiver : receiver ∈ receivers) :
    (d.give receiver part).amount receivers = d.amount receivers := by
  simp only [amount, give]
  rw [Finset.sum_update_of_mem hreceiver, Finset.sdiff_singleton_eq_erase,
    ← Finset.add_sum_erase receivers d.given hreceiver]
  abel

section Order

variable [LinearOrder Amount] [IsOrderedAddMonoid Amount]

theorem add_mem_uIcc {held part remaining : Amount} (hpart : part ∈ Set.uIcc 0 remaining) :
    held + part ∈ Set.uIcc held (held + remaining) := by
  have himage := Set.mem_image_of_mem (held + ·) hpart
  rwa [Set.image_const_add_uIcc, add_zero] at himage

theorem sub_mem_uIcc {part remaining : Amount} (hpart : part ∈ Set.uIcc 0 remaining) :
    remaining - part ∈ Set.uIcc 0 remaining := by
  have himage := Set.mem_image_of_mem (remaining - ·) hpart
  rwa [Set.image_const_sub_uIcc, sub_zero, sub_self, Set.uIcc_comm] at himage

variable {total : Amount} {d : Distribution Receiver Amount}

omit [DecidableEq Receiver] in
/-- Whoever receives the part then holds no more than the amount. -/
theorem Toward.given_add (h : Toward total d) (receiver : Receiver) {part : Amount}
    (hpart : part ∈ Set.uIcc 0 d.remaining) :
    d.given receiver + part ∈ Set.uIcc 0 total :=
  Set.uIcc_subset_uIcc (h.given receiver) (h.reserve receiver) (add_mem_uIcc hpart)

theorem Toward.give (h : Toward total d) (receiver : Receiver) {part : Amount}
    (hpart : part ∈ Set.uIcc 0 d.remaining) : Toward total (d.give receiver part) where
  remaining :=
    Set.uIcc_subset_uIcc Set.left_mem_uIcc h.remaining (sub_mem_uIcc hpart)
  given := by
    intro other
    simp only [Distribution.give]
    rcases eq_or_ne other receiver with rfl | hother
    · rw [Function.update_self]
      exact h.given_add other hpart
    · rw [Function.update_of_ne hother]
      exact h.given other
  reserve := by
    intro other
    simp only [Distribution.give]
    rcases eq_or_ne other receiver with rfl | hother
    · rw [Function.update_self, add_add_sub_cancel]
      exact h.reserve other
    · rw [Function.update_of_ne hother]
      exact h.given_add other (sub_mem_uIcc hpart)

end Order

end Distribution

end AdaptiveSignal.Foundation
