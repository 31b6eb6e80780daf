import Mathlib.Algebra.Order.Field.Basic
import Mathlib.Algebra.Group.Even
import Mathlib.Algebra.Ring.Parity
import Mathlib.Data.List.Rotate
import Mathlib.Tactic.FieldSimp
import Mathlib.Tactic.Linarith
import Mathlib.Tactic.Ring

/-! # Polygons in the plane

A polygon is the list of its vertices. A point is inside if it is on a side or if an odd
number of sides passes it on its right; a side passes a point if exactly one of its ends is
strictly above the point, so that a vertex level with the point counts for one side only.
-/

namespace AdaptiveSignal.Foundation

/-! ## Cyclic sequences -/

section Cyclic

variable {α : Type*}

/-- Each entry with its successor, the last one with the first. -/
def cyclicPairs (l : List α) : List (α × α) := l.zip (l.rotate 1)

theorem mem_of_mem_cyclicPairs {l : List α} {pair : α × α} (h : pair ∈ cyclicPairs l) :
    pair.1 ∈ l ∧ pair.2 ∈ l := by
  have hmem := List.of_mem_zip h
  exact ⟨hmem.1, List.mem_rotate.mp hmem.2⟩

theorem countP_xor_parity (l : List α) (f g : α → Bool) :
    Even (l.countP fun a => f a ^^ g a) ↔ Even (l.countP f + l.countP g) := by
  induction l with
  | nil => simp
  | cons a l ih =>
      simp only [Nat.even_iff] at ih ⊢
      simp only [List.countP_cons]
      cases f a <;> cases g a <;> simp <;> omega

/-- Going round, a property changes an even number of times. -/
theorem even_changes (l : List α) (f : α → Bool) :
    Even ((cyclicPairs l).countP fun pair => f pair.1 ^^ f pair.2) := by
  have hlen : l.length = (l.rotate 1).length := (List.length_rotate l 1).symm
  have hfst : (cyclicPairs l).countP (fun pair => f pair.1) = l.countP f := by
    rw [← Function.comp_def f Prod.fst, ← List.countP_map, cyclicPairs,
      List.map_fst_zip (le_of_eq hlen)]
  have hsnd : (cyclicPairs l).countP (fun pair => f pair.2) = l.countP f := by
    rw [← Function.comp_def f Prod.snd, ← List.countP_map, cyclicPairs,
      List.map_snd_zip (le_of_eq hlen.symm), (List.rotate_perm l 1).countP_eq]
  rw [countP_xor_parity, hfst, hsnd]
  exact ⟨_, rfl⟩

theorem countP_or_of_disjoint {l : List α} {f g : α → Bool}
    (h : ∀ a ∈ l, ¬(f a = true ∧ g a = true)) :
    l.countP (fun a => f a || g a) = l.countP f + l.countP g := by
  induction l with
  | nil => rfl
  | cons a l ih =>
      have hhead := h a List.mem_cons_self
      simp only [List.countP_cons, ih fun b hb => h b (List.mem_cons_of_mem a hb)]
      cases hf : f a <;> cases hg : g a <;> simp [hf, hg] at hhead ⊢ <;> omega

end Cyclic

/-! ## Points and sides -/

/-- Points of a plane, by their coordinates. -/
class Planar (Node : Type*) (K : outParam (Type*)) where
  x : Node → K
  y : Node → K

open Planar (x y)

section Sides

variable {Node K : Type*} [Planar Node K] [Field K] [LinearOrder K]

/-- The point is not above both ends, nor below both. -/
def Straddles (side : Node × Node) (p : Node) : Prop :=
  min (y side.1) (y side.2) ≤ y p ∧ y p ≤ max (y side.1) (y side.2)

omit [Field K] in
theorem Straddles.of_not_iff {side : Node × Node} {p : Node}
    (h : ¬(y p < y side.1 ↔ y p < y side.2)) : Straddles side p := by
  rw [Straddles, min_le_iff, le_max_iff]
  by_cases h₁ : y p < y side.1 <;> by_cases h₂ : y p < y side.2 <;> simp_all [le_of_lt]

/-- Twice the signed area of the triangle; zero iff the three points are on one line. -/
def turn (a b c : Node) : K := (x b - x a) * (y c - y a) - (y b - y a) * (x c - x a)

/-- The point is between the ends of the side, or one of them. -/
def OnSide (side : Node × Node) (p : Node) : Prop :=
  turn side.1 side.2 p = 0 ∧
    (min (x side.1) (x side.2) ≤ x p ∧ x p ≤ max (x side.1) (x side.2)) ∧
    (min (y side.1) (y side.2) ≤ y p ∧ y p ≤ max (y side.1) (y side.2))

/-- Where the line of a side that is not level is as high as the point. -/
def levelX (side : Node × Node) (p : Node) : K :=
  x side.1 + (y p - y side.1) * (x side.2 - x side.1) / (y side.2 - y side.1)

/-- The side passes the point on its right. -/
def PassesRight (side : Node × Node) (p : Node) : Prop :=
  ¬(y p < y side.1 ↔ y p < y side.2) ∧ x p < levelX side p

instance (side : Node × Node) (p : Node) : Decidable (OnSide side p) := by
  unfold OnSide; infer_instance

instance (side : Node × Node) (p : Node) : Decidable (PassesRight side p) := by
  unfold PassesRight; infer_instance

/-- Inside a polygon or on its boundary. -/
def Inside (poly : List Node) (p : Node) : Prop :=
  (∃ side ∈ cyclicPairs poly, OnSide side p) ∨
    Odd ((cyclicPairs poly).countP fun side => PassesRight side p)

/-- No vertex occurs twice, and different sides share vertices only. -/
def SimplePolygon (poly : List Node) : Prop :=
  poly.Nodup ∧ (cyclicPairs poly).Pairwise fun side side' =>
    ∀ q, OnSide side q → OnSide side' q →
      (q = side.1 ∨ q = side.2) ∧ (q = side'.1 ∨ q = side'.2)

end Sides

/-! ## Where a side meets the level of a point -/

section Level

variable {Node K : Type*} [Planar Node K] [Field K] [LinearOrder K] {side : Node × Node}
  {p : Node}

omit [LinearOrder K] in
theorem turn_eq_mul (hne : y side.1 ≠ y side.2) :
    turn side.1 side.2 p = (y side.2 - y side.1) * (levelX side p - x p) := by
  have hd : y side.2 - y side.1 ≠ 0 := sub_ne_zero.mpr hne.symm
  rw [turn, levelX]
  field_simp
  ring

omit [LinearOrder K] in
theorem turn_eq_zero_iff (hne : y side.1 ≠ y side.2) :
    turn side.1 side.2 p = 0 ↔ x p = levelX side p := by
  rw [turn_eq_mul hne, mul_eq_zero, sub_eq_zero, sub_eq_zero]
  exact ⟨fun h => (h.resolve_left hne.symm).symm, fun h => Or.inr h.symm⟩

omit [LinearOrder K] in
theorem levelX_of_fst_level (h : y side.1 = y p) : levelX side p = x side.1 := by
  rw [levelX, h, sub_self, zero_mul, zero_div, add_zero]

omit [LinearOrder K] in
theorem levelX_of_snd_level (hne : y side.1 ≠ y side.2) (h : y side.2 = y p) :
    levelX side p = x side.2 := by
  have hd : y p - y side.1 ≠ 0 := sub_ne_zero.mpr (h ▸ hne.symm)
  rw [levelX, h]
  field_simp
  ring

variable [IsStrictOrderedRing K]

theorem levelX_between (hne : y side.1 ≠ y side.2) (h : Straddles side p) :
    min (x side.1) (x side.2) ≤ levelX side p ∧ levelX side p ≤ max (x side.1) (x side.2) := by
  have hd : y side.2 - y side.1 ≠ 0 := sub_ne_zero.mpr hne.symm
  -- the part of the way from the first end to the second
  obtain ⟨t, ht⟩ : ∃ t, t = (y p - y side.1) / (y side.2 - y side.1) := ⟨_, rfl⟩
  have hlevel : levelX side p = (1 - t) * x side.1 + t * x side.2 := by
    rw [levelX, ht]
    field_simp
    ring
  obtain ⟨h0, h1⟩ : 0 ≤ t ∧ t ≤ 1 := by
    rw [ht]
    rcases lt_or_gt_of_ne hne with hlt | hgt
    · rw [Straddles, min_eq_left hlt.le, max_eq_right hlt.le] at h
      have hpos : 0 < y side.2 - y side.1 := sub_pos.mpr hlt
      exact ⟨div_nonneg (by linarith) hpos.le, (div_le_one hpos).mpr (by linarith)⟩
    · rw [Straddles, min_eq_right hgt.le, max_eq_left hgt.le] at h
      have hneg : y side.2 - y side.1 < 0 := sub_neg.mpr hgt
      exact ⟨div_nonneg_of_nonpos (by linarith) hneg.le,
        (div_le_one_of_neg hneg).mpr (by linarith)⟩
  have hmin₁ := mul_le_mul_of_nonneg_left (min_le_left (x side.1) (x side.2)) (sub_nonneg.mpr h1)
  have hmin₂ := mul_le_mul_of_nonneg_left (min_le_right (x side.1) (x side.2)) h0
  have hmax₁ := mul_le_mul_of_nonneg_left (le_max_left (x side.1) (x side.2)) (sub_nonneg.mpr h1)
  have hmax₂ := mul_le_mul_of_nonneg_left (le_max_right (x side.1) (x side.2)) h0
  rw [hlevel]
  constructor <;> linarith

theorem levelX_lt {m : K} (hne : y side.1 ≠ y side.2) (h : Straddles side p)
    (h₁ : x side.1 < m) (h₂ : x side.2 < m) : levelX side p < m :=
  (levelX_between hne h).2.trans_lt (max_lt h₁ h₂)

theorem onSide_iff_levelX (hne : y side.1 ≠ y side.2) :
    OnSide side p ↔ Straddles side p ∧ x p = levelX side p := by
  rw [OnSide, turn_eq_zero_iff hne, Straddles]
  constructor
  · rintro ⟨hx, -, hy⟩
    exact ⟨hy, hx⟩
  · rintro ⟨hy, hx⟩
    exact ⟨hx, hx ▸ levelX_between hne hy, hy⟩

/-- A point right of every vertex is outside. -/
theorem not_inside_of_right {poly : List Node} (h : ∀ node ∈ poly, x node < x p) :
    ¬Inside poly p := by
  rintro (⟨side, hside, -, ⟨-, hle⟩, -⟩ | hodd)
  · have hends := mem_of_mem_cyclicPairs hside
    exact absurd hle (not_le.mpr (max_lt (h _ hends.1) (h _ hends.2)))
  · refine absurd hodd (Nat.not_odd_iff_even.mpr ?_)
    rw [List.countP_eq_zero.mpr]
    · exact Even.zero
    · intro side hside hpass
      obtain ⟨hsplit, hlt⟩ := of_decide_eq_true hpass
      have hends := mem_of_mem_cyclicPairs hside
      have hne : y side.1 ≠ y side.2 := fun heq => hsplit (by rw [heq])
      exact absurd (levelX_lt hne (.of_not_iff hsplit) (h _ hends.1) (h _ hends.2)) hlt.not_gt

end Level

end AdaptiveSignal.Foundation
