import Mathlib.Data.List.Forall2
import Mathlib.Tactic.SplitIfs

/-! # Arrays that grow in steps of five, with counts of a byte

The count of the entries and the capacity are both kept in a byte. A full array is made
five entries longer before an entry is stored. At the last multiple of five of a byte the
capacity wraps, and the entry would be stored behind the array.
-/

namespace AdaptiveSignal.Foundation

/-- The entries that count, and the capacity. -/
structure GrowingArray (α : Type*) where
  entries : List α
  max : UInt8
  fits : entries.length ≤ max.toNat ∧ max.toNat % 5 = 0

namespace GrowingArray

variable {α : Type*}

def empty : GrowingArray α := ⟨[], 0, Nat.zero_le _, rfl⟩

def count (v : GrowingArray α) : UInt8 := UInt8.ofNat v.entries.length

/-- The capacity after the array was made longer if it was full. -/
def grown (v : GrowingArray α) : UInt8 := if v.count = v.max then v.max + 5 else v.max

theorem length_lt (v : GrowingArray α) : v.entries.length < 256 :=
  Nat.lt_of_le_of_lt v.fits.1 v.max.toNat_lt

@[simp] theorem count_toNat (v : GrowingArray α) : v.count.toNat = v.entries.length := by
  rw [count, UInt8.toNat_ofNat']
  exact Nat.mod_eq_of_lt v.length_lt

theorem count_eq_max (v : GrowingArray α) : v.count = v.max ↔ v.entries.length = v.max.toNat := by
  rw [← UInt8.toNat_inj, count_toNat]

/-- A full array has room for five more entries except at the last multiple of five. -/
theorem grown_toNat (v : GrowingArray α) :
    v.grown.toNat =
      if v.entries.length = 255 then 4
      else if v.entries.length = v.max.toNat then v.max.toNat + 5
      else v.max.toNat := by
  have hfits := v.fits
  have hmax := v.max.toNat_lt
  have hlonger : (v.max + 5).toNat = (v.max.toNat + 5) % 256 := UInt8.toNat_add v.max 5
  unfold grown
  rw [apply_ite UInt8.toNat, hlonger]
  simp only [count_eq_max]
  generalize v.max.toNat = max at *
  split_ifs <;> omega

theorem grown_of_lt {v : GrowingArray α} (hroom : v.entries.length < 255) :
    v.entries.length < v.grown.toNat ∧ v.grown.toNat % 5 = 0 := by
  have hfits := v.fits
  rw [grown_toNat]
  split_ifs <;> omega

theorem grown_of_full {v : GrowingArray α} (hfull : ¬ v.entries.length < 255) :
    ¬ v.entries.length < v.grown.toNat := by
  have hlength := v.length_lt
  rw [grown_toNat, if_pos (by omega)]
  omega

/-- Store one more entry; none if that is behind the array. -/
def push (v : GrowingArray α) (x : α) : Option (GrowingArray α) :=
  if h : v.entries.length < v.grown.toNat ∧ v.grown.toNat % 5 = 0 then
    some ⟨v.entries ++ [x], v.grown, by
      rw [List.length_append]
      exact h⟩
  else none

/-- An entry is stored as long as the count does not wrap. -/
theorem push_cases (v : GrowingArray α) (x : α) :
    (v.entries.length < 255 ∧ ∃ v', v.push x = some v' ∧ v'.entries = v.entries ++ [x]) ∨
      (¬ v.entries.length < 255 ∧ v.push x = none) := by
  by_cases hroom : v.entries.length < 255
  · refine Or.inl ⟨hroom, _, dif_pos (grown_of_lt hroom), rfl⟩
  · exact Or.inr ⟨hroom, dif_neg fun h => grown_of_full hroom h.1⟩

/-- Start over in the same memory. -/
def reset (v : GrowingArray α) : GrowingArray α := ⟨[], v.max, Nat.zero_le _, v.fits.2⟩

/-- Store over the last entry. -/
def setLast (v : GrowingArray α) (x : α) : GrowingArray α :=
  ⟨v.entries.set (v.entries.length - 1) x, v.max, by
    rw [List.length_set]
    exact v.fits⟩

end GrowingArray

/-! ## Changing all entries -/

section MapM

variable {α β : Type*} {f : α → Option β}

/-- All entries are changed, each into its own. -/
theorem mapM_eq_some_iff {xs : List α} {ys : List β} :
    xs.mapM f = some ys ↔ List.Forall₂ (fun x y => f x = some y) xs ys := by
  induction xs generalizing ys with
  | nil =>
      rw [List.mapM_nil, List.forall₂_nil_left_iff]
      exact ⟨fun h => (Option.some.inj h).symm, fun h => by rw [h]; rfl⟩
  | cons x xs ih =>
      rw [List.mapM_cons, List.forall₂_cons_left_iff]
      cases hx : f x with
      | none => simp
      | some y =>
          cases hxs : xs.mapM f with
          | none =>
              simp only [← ih, hxs]
              simp
          | some rest =>
              simp only [← ih, hxs]
              simp [eq_comm]

theorem mem_mapM_iff {xs : List α} {ys : List β} (hmap : xs.mapM f = some ys) {y : β} :
    y ∈ ys ↔ ∃ x ∈ xs, f x = some y := by
  replace hmap := mapM_eq_some_iff.mp hmap
  induction hmap with
  | nil => simp
  | cons hx _ ih => simp [hx, ih, eq_comm]

theorem exists_mapM_iff {xs : List α} :
    (∃ ys, xs.mapM f = some ys) ↔ ∀ x ∈ xs, ∃ y, f x = some y := by
  induction xs with
  | nil => exact iff_of_true ⟨[], rfl⟩ fun x hx => absurd hx List.not_mem_nil
  | cons x xs ih =>
      rw [List.forall_mem_cons, ← ih, List.mapM_cons]
      cases f x with
      | none => simp
      | some y => cases xs.mapM f <;> simp

/-- Change every entry in its place. -/
def GrowingArray.mapM (f : α → Option β) (v : GrowingArray α) : Option (GrowingArray β) :=
  match h : v.entries.mapM f with
  | none => none
  | some entries => some ⟨entries, v.max, by
      rw [← (mapM_eq_some_iff.mp h).length_eq]
      exact v.fits⟩

theorem GrowingArray.mapM_eq_some_iff {v : GrowingArray α} {v' : GrowingArray β} :
    v.mapM f = some v' ↔ v.entries.mapM f = some v'.entries ∧ v'.max = v.max := by
  unfold GrowingArray.mapM
  split
  next h =>
    rw [h]
    exact iff_of_false (by simp) (by simp)
  next entries h =>
    obtain ⟨entries', max, _⟩ := v'
    rw [Option.some.injEq, GrowingArray.mk.injEq]
    simp only [h, Option.some.injEq]
    exact and_congr_right fun _ => eq_comm

theorem GrowingArray.exists_mapM_iff {v : GrowingArray α} :
    (∃ v', v.mapM f = some v') ↔ ∀ x ∈ v.entries, ∃ y, f x = some y := by
  rw [← Foundation.exists_mapM_iff]
  constructor
  · rintro ⟨v', h⟩
    exact ⟨_, (mapM_eq_some_iff.mp h).1⟩
  · rintro ⟨entries, h⟩
    have hlength := (Foundation.mapM_eq_some_iff.mp h).length_eq
    exact ⟨⟨entries, v.max, hlength ▸ v.fits⟩, mapM_eq_some_iff.mpr ⟨h, rfl⟩⟩

end MapM

end AdaptiveSignal.Foundation
