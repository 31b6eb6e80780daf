import AdaptiveSignal.Foundation.Run
import Mathlib.Algebra.Group.End
import Mathlib.Data.Set.Insert
import Mathlib.Order.Defs.LinearOrder

/-! # Ranking by a key

Things are ranked by a key, the greatest first. A single pass finds the two that rank
highest; a bubble sort, which exchanges neighbours, brings all of them in order.
-/

namespace AdaptiveSignal.Foundation

variable {Thing Key : Type*} [LinearOrder Key]

/-! ## The two that rank highest -/

/-- Of the things seen `first` has the greatest key, and `second` the greatest key
among the others. -/
structure TopTwo (key : Thing → Key) (seen : Set Thing) (first second : Thing) : Prop where
  first_mem : first ∈ seen
  second_mem : second ∈ seen
  ne : second ≠ first
  greatest : ∀ thing ∈ seen, key thing ≤ key first
  next : ∀ thing ∈ seen, thing ≠ first → key thing ≤ key second

namespace TopTwo

variable {key : Thing → Key} {seen : Set Thing} {first second new : Thing}

/-- Two things are ranked by one comparison. -/
theorem pair (hle : key second ≤ key first) (hne : second ≠ first) :
    TopTwo key {second, first} first second where
  first_mem := Set.mem_insert_of_mem _ rfl
  second_mem := Set.mem_insert _ _
  ne := hne
  greatest := by
    rintro thing (rfl | rfl)
    · exact hle
    · exact le_rfl
  next := by
    rintro thing (rfl | rfl) hthing
    · exact le_rfl
    · exact absurd rfl hthing

/-- A thing that ranks above all others makes the first one the second. -/
theorem above (h : TopTwo key seen first second) (hnew : key first < key new) :
    TopTwo key (insert new seen) new first where
  first_mem := Set.mem_insert _ _
  second_mem := Set.mem_insert_of_mem _ h.first_mem
  ne := by
    rintro rfl
    exact lt_irrefl _ hnew
  greatest := by
    rintro thing (rfl | hthing)
    · exact le_rfl
    · exact (h.greatest thing hthing).trans hnew.le
  next := by
    rintro thing (rfl | hthing) hne
    · exact absurd rfl hne
    · exact h.greatest thing hthing

/-- A thing between the two replaces the second. -/
theorem between (h : TopTwo key seen first second) (hunseen : new ∉ seen)
    (hfirst : key new ≤ key first) (hsecond : key second < key new) :
    TopTwo key (insert new seen) first new where
  first_mem := Set.mem_insert_of_mem _ h.first_mem
  second_mem := Set.mem_insert _ _
  ne := by
    rintro rfl
    exact hunseen h.first_mem
  greatest := by
    rintro thing (rfl | hthing)
    · exact hfirst
    · exact h.greatest thing hthing
  next := by
    rintro thing (rfl | hthing) hne
    · exact le_rfl
    · exact (h.next thing hthing hne).trans hsecond.le

/-- A thing that does not rank above the second leaves both. -/
theorem below (h : TopTwo key seen first second) (hnew : key new ≤ key second) :
    TopTwo key (insert new seen) first second where
  first_mem := Set.mem_insert_of_mem _ h.first_mem
  second_mem := Set.mem_insert_of_mem _ h.second_mem
  ne := h.ne
  greatest := by
    rintro thing (rfl | hthing)
    · exact hnew.trans (h.greatest second h.second_mem)
    · exact h.greatest thing hthing
  next := by
    rintro thing (rfl | hthing) hne
    · exact hnew
    · exact h.next thing hthing hne

end TopTwo

/-! ## Bubble sort -/

section BubbleSort

variable (key : Thing → Key)

/-- Neighbours in the wrong order are exchanged. -/
def exchange (things : ℕ → Thing) (j : ℕ) : ℕ → Thing :=
  if key (things j) < key (things (j + 1)) then
    Function.update (Function.update things j (things (j + 1))) (j + 1) (things j)
  else things

/-- One pass compares so many pairs of neighbours, from the front. -/
def bubblePass (things : ℕ → Thing) (pairs : ℕ) : ℕ → Thing :=
  run (exchange key) things (List.range pairs)

/-- The passes over the first `count` things, each one shorter than the one before. -/
def bubbleSort (count : ℕ) (things : ℕ → Thing) : ℕ → Thing :=
  run (fun things i => bubblePass key things (count - i - 1)) things (List.range (count - 1))

/-- The first `count` things in another order. -/
def Rearranges (count : ℕ) (things rearranged : ℕ → Thing) : Prop :=
  ∃ place : Equiv.Perm ℕ, (∀ k, count ≤ k → place k = k) ∧ rearranged = things ∘ place

variable {key} {count : ℕ} {things rearranged : ℕ → Thing}

theorem rearranges_refl (count : ℕ) (things : ℕ → Thing) : Rearranges count things things :=
  ⟨1, fun _ _ => rfl, rfl⟩

theorem Rearranges.trans {last : ℕ → Thing} (h : Rearranges count things rearranged)
    (hlast : Rearranges count rearranged last) : Rearranges count things last := by
  obtain ⟨place, hfixed, rfl⟩ := h
  obtain ⟨place', hfixed', rfl⟩ := hlast
  refine ⟨place * place', fun k hk => ?_, rfl⟩
  rw [Equiv.Perm.mul_apply, hfixed' k hk, hfixed k hk]

theorem Rearranges.mono {fewer : ℕ} (hle : fewer ≤ count)
    (h : Rearranges fewer things rearranged) : Rearranges count things rearranged := by
  obtain ⟨place, hfixed, rfl⟩ := h
  exact ⟨place, fun k hk => hfixed k (hle.trans hk), rfl⟩

/-- An order of the first numbers that moves no other takes each of them to one of them. -/
theorem place_lt {place : Equiv.Perm ℕ} (hfixed : ∀ k, count ≤ k → place k = k) {k : ℕ}
    (hk : k < count) : place k < count := by
  by_contra hle
  have hplace := place.injective (hfixed (place k) (not_lt.mp hle))
  omega

theorem exchange_rearranges {j : ℕ} (hj : j + 1 < count) :
    Rearranges count things (exchange key things j) := by
  unfold exchange
  split_ifs
  · refine ⟨Equiv.swap (j + 1) j, fun k hk => ?_, (Equiv.comp_swap_eq_update _ _ _).symm⟩
    exact Equiv.swap_apply_of_ne_of_ne (by omega) (by omega)
  · exact rearranges_refl count things

theorem bubblePass_succ (things : ℕ → Thing) (pairs : ℕ) :
    bubblePass key things (pairs + 1) = exchange key (bubblePass key things pairs) pairs := by
  rw [bubblePass, List.range_succ, run_concat]
  rfl

variable (key) in
theorem bubblePass_rearranges (things : ℕ → Thing) (pairs : ℕ) :
    Rearranges (pairs + 1) things (bubblePass key things pairs) := by
  induction pairs with
  | zero => exact rearranges_refl 1 things
  | succ pairs ih =>
      rw [bubblePass_succ]
      exact (ih.mono (Nat.le_succ _)).trans (exchange_rearranges (Nat.lt_succ_self _))

/-- A pass takes the least of the things it compares to its end. -/
theorem bubblePass_least (things : ℕ → Thing) (pairs : ℕ) :
    ∀ k ≤ pairs, key (bubblePass key things pairs pairs) ≤ key (bubblePass key things pairs k) := by
  induction pairs with
  | zero =>
      intro k hk
      rw [Nat.le_zero.mp hk]
  | succ pairs ih =>
      rw [bubblePass_succ]
      generalize bubblePass key things pairs = passed at ih ⊢
      intro k hk
      unfold exchange
      split_ifs with hlt
      · rw [Function.update_self]
        rcases eq_or_ne k (pairs + 1) with rfl | hlast
        · rw [Function.update_self]
        rw [Function.update_of_ne hlast]
        rcases eq_or_ne k pairs with rfl | hne
        · rw [Function.update_self]
          exact hlt.le
        · rw [Function.update_of_ne hne]
          exact ih k (by omega)
      · rcases eq_or_ne k (pairs + 1) with rfl | hlast
        · exact le_rfl
        · exact (not_lt.mp hlt).trans (ih k (by omega))

variable (key) in
/-- The things from `start` on rank below all before them. -/
def SettledFrom (start count : ℕ) (things : ℕ → Thing) : Prop :=
  ∀ k, start ≤ k → k < count → ∀ l ≤ k, key (things k) ≤ key (things l)

theorem SettledFrom.pass {pairs : ℕ} (h : SettledFrom key (pairs + 1) count things) :
    SettledFrom key pairs count (bubblePass key things pairs) := by
  intro k hk hcount l hl
  rcases eq_or_ne k pairs with rfl | hne
  · exact bubblePass_least things k l hl
  obtain ⟨place, hfixed, hpass⟩ := bubblePass_rearranges key things pairs
  have hplace : place l ≤ k := by
    rcases lt_or_ge l (pairs + 1) with hlt | hge
    · have hlt' := place_lt hfixed hlt
      omega
    · rw [hfixed l hge]
      exact hl
  rw [hpass, Function.comp_apply, Function.comp_apply, hfixed k (by omega)]
  exact h k (by omega) hcount (place l) hplace

variable (key) in
theorem bubbleSort_rearranges (count : ℕ) (things : ℕ → Thing) :
    Rearranges count things (bubbleSort key count things) := by
  apply run_invariant_of_mem _ (Rearranges count things)
  · exact rearranges_refl count things
  · intro passed i hi hpassed
    have hi := List.mem_range.mp hi
    exact hpassed.trans ((bubblePass_rearranges key passed _).mono (by omega))

/-- A bubble sort brings the things in order, the greatest key first. -/
theorem bubbleSort_sorted (count : ℕ) (things : ℕ → Thing) {i k : ℕ} (hik : i ≤ k)
    (hk : k < count) :
    key (bubbleSort key count things k) ≤ key (bubbleSort key count things i) := by
  have hpasses : ∀ passes ≤ count - 1, SettledFrom key (count - passes) count
      (run (fun things i => bubblePass key things (count - i - 1)) things
        (List.range passes)) := by
    intro passes hpasses
    induction passes with
    | zero =>
        intro k hk hcount
        omega
    | succ passes ih =>
        rw [List.range_succ, run_concat]
        have hsettled := ih (by omega)
        rw [show count - passes = count - passes - 1 + 1 by omega] at hsettled
        exact hsettled.pass
  rcases eq_or_ne i k with rfl | hne
  · exact le_rfl
  · exact hpasses (count - 1) le_rfl k (by omega) hk i hik

end BubbleSort

end AdaptiveSignal.Foundation
