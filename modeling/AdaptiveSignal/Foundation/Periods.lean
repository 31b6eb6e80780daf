import Mathlib.Algebra.Order.Ring.Int
import Mathlib.Data.Int.SuccPred
import Mathlib.Order.Monotone.Basic

/-! # Values over consecutive periods

Periods follow each other without a first or a last one. A value is given within each
period, by the time since its start; it is steady over an interval if it is the same at
every time there.
-/

namespace AdaptiveSignal.Foundation

/-! ## Starts from lengths -/

section Starts

variable (origin : ℤ) (length : ℤ → ℤ)

def startAfter : ℕ → ℤ
  | 0 => origin
  | m + 1 => startAfter m + length m

def startBefore : ℕ → ℤ
  | 0 => origin
  | m + 1 => startBefore m - length (-(m + 1 : ℕ))

/-- Where period `m` starts if period zero starts at the origin. -/
def startsFrom : ℤ → ℤ
  | .ofNat m => startAfter origin length m
  | .negSucc m => startBefore origin length (m + 1)

theorem startsFrom_zero : startsFrom origin length 0 = origin := rfl

theorem startsFrom_succ (m : ℤ) :
    startsFrom origin length (m + 1) = startsFrom origin length m + length m := by
  cases m with
  | ofNat m => rfl
  | negSucc m =>
      have hbefore : startsFrom origin length (Int.negSucc m) =
          startBefore origin length m - length (Int.negSucc m) := rfl
      rw [hbefore, sub_add_cancel]
      cases m with
      | zero => rfl
      | succ m => rfl

end Starts

/-! ## Periods -/

structure Periods (α : Type*) where
  start : ℤ → ℤ
  start_le : ∀ m, start m ≤ start (m + 1)
  value : ℤ → ℤ → α

namespace Periods

variable {α : Type*}

def ofLengths (origin : ℤ) (length : ℤ → ℤ) (hlength : ∀ m, 0 ≤ length m)
    (value : ℤ → ℤ → α) : Periods α where
  start := startsFrom origin length
  start_le m := by
    rw [startsFrom_succ]
    exact le_add_of_nonneg_right (hlength m)
  value := value

variable (periods : Periods α)

/-- The value at a time, which is in one of the periods. -/
def At (t : ℤ) (a : α) : Prop :=
  ∃ m, periods.start m ≤ t ∧ t < periods.start (m + 1) ∧
    periods.value m (t - periods.start m) = a

/-- One value from a time on, until before another. -/
def Steady (first last : ℤ) (a : α) : Prop :=
  ∀ t, first ≤ t → t < last → periods.At t a

variable {periods} {a b : α} {first last t : ℤ}

theorem start_mono {m n : ℤ} (h : m ≤ n) : periods.start m ≤ periods.start n :=
  monotone_int_of_le_succ periods.start_le h

/-- A time is in one period. -/
theorem period_unique {m m' : ℤ} (hm : periods.start m ≤ t) (hm' : t < periods.start (m + 1))
    (hn : periods.start m' ≤ t) (hn' : t < periods.start (m' + 1)) : m = m' := by
  rcases lt_trichotomy m m' with hlt | heq | hgt
  · exact absurd (hm'.trans_le (start_mono (Int.add_one_le_of_lt hlt))) (not_lt.mpr hn)
  · exact heq
  · exact absurd (hn'.trans_le (start_mono (Int.add_one_le_of_lt hgt))) (not_lt.mpr hm)

theorem At.unique (ha : periods.At t a) (hb : periods.At t b) : a = b := by
  obtain ⟨m, hm, hm', rfl⟩ := ha
  obtain ⟨m', hn, hn', rfl⟩ := hb
  rw [period_unique hm hm' hn hn']

namespace Steady

theorem of_le (h : last ≤ first) : periods.Steady first last a :=
  fun _ hfirst hlast => absurd (hfirst.trans_lt hlast) (not_lt.mpr h)

theorem append {middle : ℤ} (h : periods.Steady first middle a)
    (h' : periods.Steady middle last a) : periods.Steady first last a := by
  intro t hfirst hlast
  rcases lt_or_ge t middle with hbefore | hafter
  · exact h t hfirst hbefore
  · exact h' t hafter hlast

theorem within {first' last' : ℤ} (h : periods.Steady first last a) (hfirst : first ≤ first')
    (hlast : last' ≤ last) : periods.Steady first' last' a :=
  fun t ht ht' => h t (hfirst.trans ht) (ht'.trans_le hlast)

/-- Inside one period. -/
theorem of_period {m u v : ℤ} (hu : 0 ≤ u) (hv : periods.start m + v ≤ periods.start (m + 1))
    (hvalue : ∀ w, u ≤ w → w < v → periods.value m w = a) :
    periods.Steady (periods.start m + u) (periods.start m + v) a := by
  intro t hfirst hlast
  exact ⟨m, by omega, by omega, hvalue _ (by omega) (by omega)⟩

/-- Over whole periods. -/
theorem of_periods {m n : ℤ} (hle : m ≤ n)
    (h : ∀ p, m ≤ p → p < n → periods.Steady (periods.start p) (periods.start (p + 1)) a) :
    periods.Steady (periods.start m) (periods.start n) a := by
  induction n, hle using Int.leInduction with
  | base => exact of_le le_rfl
  | succ n hle ih =>
      exact (ih fun p hp hpn => h p hp (hpn.trans (Int.lt_succ n))).append
        (h n hle (Int.lt_succ n))

/-- Where another value begins, this one has ended. -/
theorem not_at (h : periods.Steady first last b) (hlt : first < last) (hne : b ≠ a) :
    ¬periods.At first a :=
  fun hat => hne ((h first le_rfl hlt).unique hat)

end Steady

end Periods

end AdaptiveSignal.Foundation
