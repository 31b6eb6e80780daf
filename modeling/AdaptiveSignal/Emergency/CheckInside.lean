import AdaptiveSignal.Emergency.TableFile
import AdaptiveSignal.Foundation.Polygon
import Mathlib.Data.List.Find

/-! # The areas around a point

Whether a point is in an area is decided by the sides that meet a ray from the point
to the right. The test looks at the sides in order, and the first one that is in line
with the point answers at once.
-/

namespace AdaptiveSignal.Signal

open Foundation Planar

instance : Planar EvspNode ℚ where
  x := EvspNode.lon
  y := EvspNode.lat

/-- `EVSP_Line_t`: its `p1` and its `p2`. -/
abbrev EvspLine : Type := EvspNode × EvspNode

abbrev rayEnd : ℚ := 9999

def onLine (l1 : EvspLine) (p : EvspNode) : Bool :=
  x p ≤ max (x l1.1) (x l1.2) && x p ≤ min (x l1.1) (x l1.2) &&
    (y p ≤ max (y l1.1) (y l1.2) && y p ≤ min (y l1.1) (y l1.2))

def direction (a b c : EvspNode) : ℕ :=
  let val := (y b - y a) * (x c - x b) - (x b - x a) * (y c - y b)
  if val = 0 then 0 else if val < 0 then 2 else 1

def isIntersect (l1 l2 : EvspLine) : Bool :=
  let dir1 := direction l1.1 l1.2 l2.1
  let dir2 := direction l1.1 l1.2 l2.2
  let dir3 := direction l2.1 l2.2 l1.1
  let dir4 := direction l2.1 l2.2 l1.2
  if dir1 ≠ dir2 ∧ dir3 ≠ dir4 then true
  else if dir1 = 0 ∧ onLine l1 l2.1 then true
  else if dir2 = 0 ∧ onLine l1 l2.2 then true
  else if dir3 = 0 ∧ onLine l2 l1.1 then true
  else if dir4 = 0 ∧ onLine l2 l1.2 then true
  else false

/-- The line from the point to the right, as far as the ray goes. -/
def exline (p : EvspNode) : EvspLine := (p, ⟨rayEnd, y p⟩)

/-- The loop of `checkInside` over the sides that are left. -/
def checkSides (p : EvspNode) : List EvspLine → ℕ → Bool
  | [], count => count % 2 = 1
  | side :: sides, count =>
      if isIntersect side (exline p) then
        if direction side.1 p side.2 = 0 then onLine side p
        else checkSides p sides (count + 1)
      else checkSides p sides count

/-- The sides join `poly[i]` and `poly[(i + 1) % n]`. -/
def checkInside (poly : List EvspNode) (p : EvspNode) : Bool :=
  if poly.length < 3 then false else checkSides p (cyclicPairs poly) 0

/-! ## One side -/

/-- The point is neither right of an end of the side nor above one. -/
def LowerLeft (side : EvspLine) (p : EvspNode) : Prop :=
  (x p ≤ x side.1 ∧ x p ≤ x side.2) ∧ (y p ≤ y side.1 ∧ y p ≤ y side.2)

instance (side : EvspLine) (p : EvspNode) : Decidable (LowerLeft side p) := by
  unfold LowerLeft; infer_instance

@[simp] theorem onLine_iff (side : EvspLine) (p : EvspNode) :
    onLine side p = true ↔ LowerLeft side p := by
  simp only [onLine, LowerLeft, Bool.and_eq_true, decide_eq_true_eq, le_max_iff, le_min_iff]
  tauto

theorem direction_eq (a b c : EvspNode) :
    direction a b c = if turn a b c = 0 then 0 else if 0 < turn a b c then 2 else 1 := by
  have hval : (y b - y a) * (x c - x b) - (x b - x a) * (y c - y b) = -turn a b c := by
    rw [turn]
    ring
  simp only [direction, hval, neg_eq_zero, neg_lt_zero]

@[simp] theorem direction_eq_zero_iff (a b c : EvspNode) :
    direction a b c = 0 ↔ turn a b c = 0 := by
  rw [direction_eq]
  split_ifs <;> simp_all

theorem direction_middle_eq_zero_iff (side : EvspLine) (p : EvspNode) :
    direction side.1 p side.2 = 0 ↔ turn side.1 side.2 p = 0 := by
  have hturn : turn side.1 p side.2 = -turn side.1 side.2 p := by
    rw [turn, turn]
    ring
  rw [direction_eq_zero_iff, hturn, neg_eq_zero]

theorem isIntersect_exline_iff (side : EvspLine) (p : EvspNode) :
    isIntersect side (exline p) = true ↔
      (direction side.1 side.2 p ≠ direction side.1 side.2 (exline p).2 ∧
        direction p (exline p).2 side.1 ≠ direction p (exline p).2 side.2) ∨
      (turn side.1 side.2 p = 0 ∧ LowerLeft side p) ∨
      (turn side.1 side.2 (exline p).2 = 0 ∧ LowerLeft side (exline p).2) ∨
      (turn p (exline p).2 side.1 = 0 ∧ LowerLeft (exline p) side.1) ∨
      (turn p (exline p).2 side.2 = 0 ∧ LowerLeft (exline p) side.2) := by
  have hfst : (exline p).1 = p := rfl
  simp only [isIntersect, direction_eq_zero_iff, onLine_iff, hfst]
  split_ifs <;> simp_all

/-! ## A ray to the right -/

/-- One end is above the point and the other below it. -/
def Parts (side : EvspLine) (p : EvspNode) : Prop :=
  (y side.1 < y p ∧ y p < y side.2) ∨ (y side.2 < y p ∧ y p < y side.1)

/-- A single end is level with the point, right of it, and the other end above. -/
def RestsOnRay (side : EvspLine) (p : EvspNode) : Prop :=
  (y side.1 = y p ∧ x p < x side.1 ∧ y p < y side.2) ∨
    (y side.2 = y p ∧ x p < x side.2 ∧ y p < y side.1)

/-- The side answers at once: it is level with the point, has the point on it, or points
at it from the upper right. -/
def Settles (side : EvspLine) (p : EvspNode) : Prop :=
  (y side.1 = y p ∧ y side.2 = y p) ∨ OnSide side p ∨
    (turn side.1 side.2 p = 0 ∧ LowerLeft side p)

instance (side : EvspLine) (p : EvspNode) : Decidable (Parts side p) := by
  unfold Parts; infer_instance

instance (side : EvspLine) (p : EvspNode) : Decidable (RestsOnRay side p) := by
  unfold RestsOnRay; infer_instance

instance (side : EvspLine) (p : EvspNode) : Decidable (Settles side p) := by
  unfold Settles; infer_instance

theorem Parts.straddles {side : EvspLine} {p : EvspNode} (h : Parts side p) :
    Straddles side p := by
  rw [Straddles, min_le_iff, le_max_iff]
  rcases h with ⟨h₁, h₂⟩ | ⟨h₁, h₂⟩
  · exact ⟨Or.inl h₁.le, Or.inr h₂.le⟩
  · exact ⟨Or.inr h₁.le, Or.inl h₂.le⟩

theorem Parts.ne {side : EvspLine} {p : EvspNode} (h : Parts side p) : y side.1 ≠ y side.2 := by
  rcases h with ⟨h₁, h₂⟩ | ⟨h₁, h₂⟩
  · exact (h₁.trans h₂).ne
  · exact (h₁.trans h₂).ne'

theorem passesRight_iff (side : EvspLine) (p : EvspNode) :
    PassesRight side p ↔ (Parts side p ∧ x p < levelX side p) ∨ RestsOnRay side p := by
  rcases lt_trichotomy (y side.1) (y p) with h₁ | h₁ | h₁ <;>
    rcases lt_trichotomy (y side.2) (y p) with h₂ | h₂ | h₂
  all_goals simp only [PassesRight, Parts, RestsOnRay]
  case inr.inl.inr.inr => simp [h₁, h₂, levelX_of_fst_level h₁]
  case inr.inr.inr.inl =>
    have hne : y side.1 ≠ y side.2 := h₂ ▸ h₁.ne'
    simp [h₁, h₂, levelX_of_snd_level hne h₂]
  all_goals grind

section Ray

variable {side : EvspLine} {p : EvspNode}

/-- On which side of the line the two ends of the ray are. -/
theorem direction_ne_iff (hne : y side.1 ≠ y side.2) (hend : levelX side p < rayEnd) :
    direction side.1 side.2 p ≠ direction side.1 side.2 (exline p).2 ↔
      x p ≤ levelX side p := by
  have hfar : turn side.1 side.2 (exline p).2 = (y side.2 - y side.1) * (levelX side p - rayEnd) :=
    turn_eq_mul hne
  have hbeyond : levelX side p - rayEnd < 0 := sub_neg.mpr hend
  rw [direction_eq, direction_eq, hfar, turn_eq_mul hne, ← sub_nonneg]
  rcases lt_or_gt_of_ne hne with hlt | hgt
  · have hpos : 0 < y side.2 - y side.1 := sub_pos.mpr hlt
    simp only [mul_eq_zero, hpos.ne', hbeyond.ne, mul_pos_iff_of_pos_left hpos, hbeyond.not_gt]
    split_ifs <;> grind
  · have hneg : y side.2 - y side.1 < 0 := sub_neg.mpr hgt
    simp only [mul_eq_zero, hneg.ne, hbeyond.ne, mul_pos_iff, hneg, hbeyond, hneg.not_gt]
    split_ifs <;> grind

theorem turn_exline (p a : EvspNode) :
    turn p (exline p).2 a = (rayEnd - x p) * (y a - y p) := by
  have hlevel : y (exline p).2 = y p := rfl
  have hend : x (exline p).2 = rayEnd := rfl
  rw [turn, hlevel, hend]
  ring

theorem not_lowerLeft_of_lt {q : EvspNode} (h : x side.1 < x q) : ¬LowerLeft side q :=
  fun hleft => absurd hleft.1.1 (not_le.mpr h)

theorem lowerLeft_exline_iff (hp : x p < rayEnd) {a : EvspNode} (h : y a = y p) :
    LowerLeft (exline p) a ↔ x a ≤ x p := by
  have hlevel : y (exline p).2 = y p := rfl
  have hend : x (exline p).2 = rayEnd := rfl
  simp only [LowerLeft, hlevel, hend, h]
  constructor
  · exact fun hleft => hleft.1.1
  · exact fun hle => ⟨⟨hle, hle.trans hp.le⟩, le_rfl, le_rfl⟩

theorem direction_exline (hp : x p < rayEnd) (a : EvspNode) :
    direction p (exline p).2 a = if y a = y p then 0 else if y p < y a then 2 else 1 := by
  have hpos : 0 < rayEnd - x p := sub_pos.mpr hp
  rw [direction_eq, turn_exline]
  simp only [mul_eq_zero, hpos.ne', false_or, mul_pos_iff_of_pos_left hpos, sub_eq_zero, sub_pos]

/-- Which sides meet the ray. -/
theorem isIntersect_iff (hp : x p < rayEnd) (h₁ : x side.1 < rayEnd) (h₂ : x side.2 < rayEnd) :
    isIntersect side (exline p) = true ↔
      (y side.1 = y p ∨ y side.2 = y p) ∨ (Parts side p ∧ x p ≤ levelX side p) ∨
        (turn side.1 side.2 p = 0 ∧ LowerLeft side p) := by
  have hfar : ¬LowerLeft side (exline p).2 := not_lowerLeft_of_lt h₁
  have hzero (a : EvspNode) : turn p (exline p).2 a = 0 ↔ y a = y p := by
    rw [turn_exline, mul_eq_zero, sub_eq_zero, sub_eq_zero]
    exact or_iff_right hp.ne'
  rw [isIntersect_exline_iff, direction_exline hp, direction_exline hp, hzero, hzero]
  simp only [hfar, and_false, false_or]
  by_cases hlevel₁ : y side.1 = y p
  · by_cases hlevel₂ : y side.2 = y p
    · -- a level side meets the ray at the point, or at an end left of it
      have hline : turn side.1 side.2 p = 0 := by
        rw [turn, hlevel₁, hlevel₂]
        ring
      have hleft : LowerLeft side p ↔ x p ≤ x side.1 ∧ x p ≤ x side.2 := by
        simp only [LowerLeft, hlevel₁, hlevel₂, le_refl, and_true]
      rw [lowerLeft_exline_iff hp hlevel₁, lowerLeft_exline_iff hp hlevel₂, hleft]
      grind
    · have hne : y side.1 ≠ y side.2 := fun heq => hlevel₂ (heq ▸ hlevel₁)
      have hend : levelX side p < rayEnd := (levelX_of_fst_level hlevel₁).trans_lt h₁
      rw [direction_ne_iff hne hend, levelX_of_fst_level hlevel₁,
        lowerLeft_exline_iff hp hlevel₁]
      grind
  · by_cases hlevel₂ : y side.2 = y p
    · have hne : y side.1 ≠ y side.2 := fun heq => hlevel₁ (heq ▸ hlevel₂)
      have hend : levelX side p < rayEnd := (levelX_of_snd_level hne hlevel₂).trans_lt h₂
      rw [direction_ne_iff hne hend, levelX_of_snd_level hne hlevel₂,
        lowerLeft_exline_iff hp hlevel₂]
      grind
    · by_cases hparts : Parts side p
      · rw [direction_ne_iff hparts.ne (levelX_lt hparts.ne hparts.straddles h₁ h₂)]
        simp only [hlevel₁, hlevel₂, hparts]
        unfold Parts at hparts
        grind
      · simp only [hlevel₁, hlevel₂, hparts]
        unfold Parts at hparts
        grind

/-- Which sides answer at once. -/
theorem settles_iff (hp : x p < rayEnd) (h₁ : x side.1 < rayEnd) (h₂ : x side.2 < rayEnd) :
    Settles side p ↔ isIntersect side (exline p) = true ∧ turn side.1 side.2 p = 0 := by
  rw [isIntersect_iff hp h₁ h₂]
  have hlevelLine (h : y side.1 = y p) (h' : y side.2 = y p) : turn side.1 side.2 p = 0 := by
    rw [turn, h, h']
    ring
  by_cases hne : y side.1 = y side.2
  · have hparts : ¬Parts side p := fun h => h.ne hne
    have hon : OnSide side p → y side.1 = y p := by
      rintro ⟨-, -, hbetween⟩
      rw [← hne, min_self, max_self] at hbetween
      exact le_antisymm hbetween.1 hbetween.2
    unfold Settles
    grind
  · have hon := onSide_iff_levelX (p := p) hne
    have hline := turn_eq_zero_iff (p := p) hne
    have hstraddles : Straddles side p ↔ y side.1 = y p ∨ y side.2 = y p ∨ Parts side p := by
      rw [Straddles, min_le_iff, le_max_iff, Parts]
      grind
    unfold Settles
    grind

theorem isIntersect_of_not_settles (hp : x p < rayEnd) (h₁ : x side.1 < rayEnd)
    (h₂ : x side.2 < rayEnd) (h : ¬Settles side p) :
    isIntersect side (exline p) = true ↔
      ¬(y side.1 = y p ↔ y side.2 = y p) ∨ (Parts side p ∧ x p < levelX side p) := by
  have hline := mt (settles_iff hp h₁ h₂).mpr h
  rw [isIntersect_iff hp h₁ h₂] at hline ⊢
  have hturn (hparts : Parts side p) := turn_eq_zero_iff (p := p) hparts.ne
  have hlevel : ¬(y side.1 = y p ∧ y side.2 = y p) := fun hlevel => h (Or.inl hlevel)
  grind

/-! ## A point at the ray's end or behind it -/

theorem isIntersect_of_at_end (hp : x p = rayEnd) (h₁ : x side.1 < rayEnd)
    (h₂ : x side.2 < rayEnd) :
    isIntersect side (exline p) = true ↔ y side.1 ≤ y p ∨ y side.2 ≤ y p := by
  have hend : (exline p).2 = p := by
    rw [exline, ← hp]
    rfl
  have hfar : ¬LowerLeft side p := not_lowerLeft_of_lt (hp ▸ h₁)
  have hzero (a : EvspNode) : turn p p a = 0 := by
    rw [turn, sub_self, sub_self, zero_mul, zero_mul, sub_self]
  have hleft {a : EvspNode} (ha : x a < rayEnd) : LowerLeft (exline p) a ↔ y a ≤ y p := by
    have hle : x a ≤ x p := hp ▸ ha.le
    rw [LowerLeft, hend]
    exact ⟨fun h => h.2.1, fun h => ⟨⟨hle, hle⟩, h, h⟩⟩
  rw [isIntersect_exline_iff, hleft h₁, hleft h₂, hend]
  simp [hfar, hzero]

theorem isIntersect_of_behind_end (hp : rayEnd < x p) (h₁ : x side.1 < rayEnd)
    (h₂ : x side.2 < rayEnd) :
    isIntersect side (exline p) = true ↔ y side.1 = y p ∨ y side.2 = y p := by
  have hfar : ¬LowerLeft side p := not_lowerLeft_of_lt (h₁.trans hp)
  have hfar' : ¬LowerLeft side (exline p).2 := not_lowerLeft_of_lt h₁
  have hzero (a : EvspNode) : turn p (exline p).2 a = 0 ↔ y a = y p := by
    rw [turn_exline, mul_eq_zero, sub_eq_zero, sub_eq_zero]
    exact or_iff_right hp.ne
  have hleft {a : EvspNode} (ha : x a < rayEnd) (hlevel : y a = y p) :
      LowerLeft (exline p) a :=
    ⟨⟨(ha.trans hp).le, ha.le⟩, hlevel.le, hlevel.le⟩
  have hneg : rayEnd - x p < 0 := sub_neg.mpr hp
  have hdir (a : EvspNode) : direction p (exline p).2 a =
      if y a = y p then 0 else if y a < y p then 2 else 1 := by
    rw [direction_eq, turn_exline]
    simp only [mul_eq_zero, hneg.ne, false_or, mul_pos_iff, hneg, hneg.not_gt, sub_eq_zero,
      sub_neg, false_and, true_and]
  rw [isIntersect_exline_iff, hzero, hzero, hdir, hdir]
  simp only [hfar, hfar', and_false, false_or]
  by_cases hparts : Parts side p
  · -- both ends of the ray are right of where the side has the point's height
    have hlt := levelX_lt hparts.ne hparts.straddles h₁ h₂
    have hsame : direction side.1 side.2 p = direction side.1 side.2 (exline p).2 := by
      by_contra hne
      exact absurd ((direction_ne_iff hparts.ne hlt).mp hne) (not_le.mpr (hlt.trans hp))
    have := hleft h₁
    have := hleft h₂
    grind
  · unfold Parts at hparts
    have := hleft h₁
    have := hleft h₂
    grind

end Ray

/-! ## The loop over the sides -/

/-- The side meets the ray and is in line with the point. -/
def answers (p : EvspNode) (side : EvspLine) : Bool :=
  isIntersect side (exline p) && direction side.1 p side.2 = 0

theorem answers_iff (p : EvspNode) (side : EvspLine) :
    answers p side = true ↔ isIntersect side (exline p) = true ∧ turn side.1 side.2 p = 0 := by
  rw [answers, Bool.and_eq_true, decide_eq_true_eq, direction_middle_eq_zero_iff]

/-- The first side that answers decides, and without one the number of sides met. -/
theorem checkSides_eq (p : EvspNode) (sides : List EvspLine) (count : ℕ) :
    checkSides p sides count =
      match sides.find? (answers p) with
      | some side => onLine side p
      | none => decide ((count + sides.countP (isIntersect · (exline p))) % 2 = 1) := by
  induction sides generalizing count with
  | nil => rfl
  | cons side sides ih =>
      rw [checkSides, List.find?_cons, answers, List.countP_cons]
      cases hmeets : isIntersect side (exline p) with
      | false => simpa using ih count
      | true =>
          by_cases hline : direction side.1 p side.2 = 0
          · simp [hline]
          · simp only [hline, decide_false, Bool.and_false, if_true, if_false, ih]
            rw [Nat.add_right_comm, Nat.add_assoc count]

theorem checkInside_eq {poly : List EvspNode} (hlen : 3 ≤ poly.length) (p : EvspNode) :
    checkInside poly p =
      match (cyclicPairs poly).find? (answers p) with
      | some side => onLine side p
      | none => decide (Odd ((cyclicPairs poly).countP (isIntersect · (exline p)))) := by
  rw [checkInside, if_neg (not_lt.mpr hlen), checkSides_eq]
  simp only [Nat.zero_add, Nat.odd_iff]

/-! ## When the answer is right -/

section Answer

variable {poly : List EvspNode} {p : EvspNode}

/-- Before the ray's end the first settling side has to answer as the polygon would, and
without one an even number of sides stands on the ray. At the ray's end every side that
is not above the point is counted. -/
def CheckedRightly (poly : List EvspNode) (p : EvspNode) : Prop :=
  (x p < rayEnd →
    match (cyclicPairs poly).find? fun side => Settles side p with
    | some side =>
        if OnSide side p then LowerLeft side p else (LowerLeft side p ↔ Inside poly p)
    | none => Even ((cyclicPairs poly).countP fun side => RestsOnRay side p)) ∧
  (x p = rayEnd →
    (∃ side ∈ cyclicPairs poly,
      (y side.1 ≤ y p ∨ y side.2 ≤ y p) ∧ turn side.1 side.2 p = 0) ∨
    Even ((cyclicPairs poly).countP fun side => y side.1 ≤ y p ∨ y side.2 ≤ y p))

theorem ends_lt (hx : ∀ node ∈ poly, x node < rayEnd) {side : EvspLine}
    (hside : side ∈ cyclicPairs poly) : x side.1 < rayEnd ∧ x side.2 < rayEnd :=
  ⟨hx _ (mem_of_mem_cyclicPairs hside).1, hx _ (mem_of_mem_cyclicPairs hside).2⟩

theorem find?_answers (hx : ∀ node ∈ poly, x node < rayEnd) (hp : x p < rayEnd) :
    (cyclicPairs poly).find? (answers p) =
      (cyclicPairs poly).find? fun side => Settles side p := by
  refine List.find?_congr fun side hside => ?_
  rw [Bool.eq_iff_iff, answers_iff, decide_eq_true_eq,
    settles_iff hp (ends_lt hx hside).1 (ends_lt hx hside).2]

/-- The sides with one level end come in pairs, so only the sides the point's level
parts count. -/
theorem odd_isIntersect_iff (hx : ∀ node ∈ poly, x node < rayEnd) (hp : x p < rayEnd)
    (hnone : ∀ side ∈ cyclicPairs poly, ¬Settles side p) :
    Odd ((cyclicPairs poly).countP (isIntersect · (exline p))) ↔
      Odd ((cyclicPairs poly).countP fun side => Parts side p ∧ x p < levelX side p) := by
  have hsplit : (cyclicPairs poly).countP (isIntersect · (exline p)) =
      (cyclicPairs poly).countP (fun side => decide (y side.1 = y p) ^^ decide (y side.2 = y p)) +
        (cyclicPairs poly).countP fun side => Parts side p ∧ x p < levelX side p := by
    rw [← countP_or_of_disjoint]
    · refine List.countP_congr fun side hside => ?_
      rw [isIntersect_of_not_settles hp (ends_lt hx hside).1 (ends_lt hx hside).2
        (hnone side hside)]
      by_cases h₁ : y side.1 = y p <;> by_cases h₂ : y side.2 = y p <;> simp [h₁, h₂]
    · rintro side - ⟨hlevel, hpasses⟩
      have hparts := (of_decide_eq_true hpasses).1
      unfold Parts at hparts
      grind
  have heven := even_changes poly fun node => decide (y node = y p)
  rw [hsplit, Nat.odd_add]
  grind

theorem inside_iff_of_none (hnone : ∀ side ∈ cyclicPairs poly, ¬Settles side p) :
    Inside poly p ↔
      Odd ((cyclicPairs poly).countP (fun side => Parts side p ∧ x p < levelX side p) +
        (cyclicPairs poly).countP fun side => RestsOnRay side p) := by
  have hon : ¬∃ side ∈ cyclicPairs poly, OnSide side p := by
    rintro ⟨side, hside, hon⟩
    exact hnone side hside (Or.inr (Or.inl hon))
  rw [Inside, or_iff_right hon, ← countP_or_of_disjoint]
  · simp only [passesRight_iff, Bool.decide_or]
  · rintro side - ⟨hpasses, hrests⟩
    have hparts := (of_decide_eq_true hpasses).1
    have hrests := of_decide_eq_true hrests
    unfold Parts at hparts
    unfold RestsOnRay at hrests
    grind

theorem checkInside_iff_of_left (hlen : 3 ≤ poly.length) (hx : ∀ node ∈ poly, x node < rayEnd)
    (hp : x p < rayEnd) :
    (checkInside poly p = true ↔ Inside poly p) ↔
      match (cyclicPairs poly).find? fun side => Settles side p with
      | some side =>
          if OnSide side p then LowerLeft side p else (LowerLeft side p ↔ Inside poly p)
      | none => Even ((cyclicPairs poly).countP fun side => RestsOnRay side p) := by
  rw [checkInside_eq hlen, find?_answers hx hp]
  cases hfirst : (cyclicPairs poly).find? fun side => Settles side p with
  | some side =>
      have hside := List.mem_of_find?_eq_some hfirst
      simp only [onLine_iff]
      split_ifs with hon
      · exact iff_true_right (Or.inl ⟨side, hside, hon⟩)
      · rfl
  | none =>
      have hnone (side : EvspLine) (hside : side ∈ cyclicPairs poly) : ¬Settles side p := by
        simpa using List.find?_eq_none.mp hfirst side hside
      simp only [decide_eq_true_eq, odd_isIntersect_iff hx hp hnone, inside_iff_of_none hnone]
      grind [Nat.odd_add]

theorem not_onLine_of_right {side : EvspLine} (hx : ∀ node ∈ poly, x node < rayEnd)
    (hp : rayEnd ≤ x p) (hside : side ∈ cyclicPairs poly) : onLine side p = false := by
  rw [Bool.eq_false_iff, ne_eq, onLine_iff]
  exact not_lowerLeft_of_lt ((ends_lt hx hside).1.trans_le hp)

theorem checkInside_iff_at_end (hlen : 3 ≤ poly.length) (hx : ∀ node ∈ poly, x node < rayEnd)
    (hp : x p = rayEnd) :
    (checkInside poly p = true ↔ Inside poly p) ↔
      (∃ side ∈ cyclicPairs poly,
        (y side.1 ≤ y p ∨ y side.2 ≤ y p) ∧ turn side.1 side.2 p = 0) ∨
      Even ((cyclicPairs poly).countP fun side => y side.1 ≤ y p ∨ y side.2 ≤ y p) := by
  have hmeets (side : EvspLine) (hside : side ∈ cyclicPairs poly) :=
    isIntersect_of_at_end hp (ends_lt hx hside).1 (ends_lt hx hside).2
  have hcount : (cyclicPairs poly).countP (isIntersect · (exline p)) =
      (cyclicPairs poly).countP fun side => y side.1 ≤ y p ∨ y side.2 ≤ y p :=
    List.countP_congr fun side hside => by rw [hmeets side hside, decide_eq_true_eq]
  have hout : ¬Inside poly p := not_inside_of_right fun node hnode => hp ▸ hx node hnode
  rw [iff_false_right hout, checkInside_eq hlen]
  cases hfirst : (cyclicPairs poly).find? (answers p) with
  | some side =>
      have hside := List.mem_of_find?_eq_some hfirst
      have hanswers := (answers_iff p side).mp (List.find?_some hfirst)
      rw [hmeets side hside] at hanswers
      simp only [not_onLine_of_right hx hp.ge hside, Bool.false_eq_true, not_false_eq_true,
        true_iff]
      exact Or.inl ⟨side, hside, hanswers⟩
  | none =>
      have hnone : ¬∃ side ∈ cyclicPairs poly,
          (y side.1 ≤ y p ∨ y side.2 ≤ y p) ∧ turn side.1 side.2 p = 0 := by
        rintro ⟨side, hside, hanswers⟩
        rw [← hmeets side hside, ← answers_iff] at hanswers
        exact List.find?_eq_none.mp hfirst side hside hanswers
      simp only [hcount, decide_eq_true_eq, hnone, false_or, Nat.not_odd_iff_even]

theorem checkInside_behind_end (hlen : 3 ≤ poly.length) (hx : ∀ node ∈ poly, x node < rayEnd)
    (hp : rayEnd < x p) : checkInside poly p = false := by
  rw [checkInside_eq hlen]
  cases hfirst : (cyclicPairs poly).find? (answers p) with
  | some side => exact not_onLine_of_right hx hp.le (List.mem_of_find?_eq_some hfirst)
  | none =>
      have hmeets : (cyclicPairs poly).countP (isIntersect · (exline p)) =
          (cyclicPairs poly).countP fun side =>
            decide (y side.1 = y p) ^^ decide (y side.2 = y p) := by
        refine List.countP_congr fun side hside => ?_
        have hends := ends_lt hx hside
        have hanswers := List.find?_eq_none.mp hfirst side hside
        rw [answers_iff, isIntersect_of_behind_end hp hends.1 hends.2] at hanswers
        rw [isIntersect_of_behind_end hp hends.1 hends.2]
        by_cases h₁ : y side.1 = y p <;> by_cases h₂ : y side.2 = y p <;>
          simp [h₁, h₂, turn] at hanswers ⊢
      have heven := even_changes poly fun node => decide (y node = y p)
      rw [← hmeets, ← Nat.not_odd_iff_even] at heven
      exact decide_eq_false heven

theorem checkInside_iff (hlen : 3 ≤ poly.length) (hx : ∀ node ∈ poly, x node < rayEnd) :
    (checkInside poly p = true ↔ Inside poly p) ↔ CheckedRightly poly p := by
  rcases lt_trichotomy (x p) rayEnd with hp | hp | hp
  · rw [checkInside_iff_of_left hlen hx hp, CheckedRightly]
    simp [hp, hp.ne]
  · rw [checkInside_iff_at_end hlen hx hp, CheckedRightly]
    simp [hp]
  · have hout : ¬Inside poly p :=
      not_inside_of_right fun node hnode => (hx node hnode).trans hp
    rw [checkInside_behind_end hlen hx hp, CheckedRightly]
    simp [hout, hp.not_gt, hp.ne']

/-- In the triangle below, `p` is a point in the interior. -/
theorem checkInside_iff_triangle :
    let poly : List EvspNode := [⟨0, 0⟩, ⟨4, 0⟩, ⟨0, 4⟩]
    let p : EvspNode := ⟨1, 1⟩
    3 ≤ poly.length ∧ (∀ node ∈ poly, x node < rayEnd) ∧
      ((checkInside poly p = true ↔ Inside poly p) ↔ CheckedRightly poly p) :=
  ⟨by decide, by decide +kernel, checkInside_iff (by decide) (by decide +kernel)⟩

theorem simplePolygon_triangle : SimplePolygon [(⟨0, 0⟩ : EvspNode), ⟨4, 0⟩, ⟨0, 4⟩] := by
  have hsides : cyclicPairs [(⟨0, 0⟩ : EvspNode), ⟨4, 0⟩, ⟨0, 4⟩] =
      [(⟨0, 0⟩, ⟨4, 0⟩), (⟨4, 0⟩, ⟨0, 4⟩), (⟨0, 4⟩, ⟨0, 0⟩)] := rfl
  refine ⟨by decide +kernel, ?_⟩
  rw [hsides]
  simp only [List.pairwise_cons, List.mem_cons, List.not_mem_nil, or_false, forall_eq_or_imp,
    forall_eq, false_implies, implies_true, List.Pairwise.nil, and_true]
  -- two sides each fix the coordinates of what they share
  refine ⟨⟨?_, ?_⟩, ?_⟩ <;>
  · rintro ⟨lon, lat⟩ ⟨hline, hx, hy⟩ ⟨hline', hx', hy'⟩
    simp only [turn, x, y, EvspNode.mk.injEq] at *
    norm_num at *
    grind

/-- The middle of the bottom side is on the boundary but not reported; a point left of that
side is outside and reported. -/
theorem checkInside_wrong_at_level_side :
    let poly : List EvspNode := [⟨0, 0⟩, ⟨4, 0⟩, ⟨0, 4⟩]
    SimplePolygon poly ∧ 3 ≤ poly.length ∧ (∀ node ∈ poly, x node < rayEnd) ∧
      (Inside poly ⟨2, 0⟩ ∧ checkInside poly ⟨2, 0⟩ = false) ∧
      (¬Inside poly ⟨-1, 0⟩ ∧ checkInside poly ⟨-1, 0⟩ = true) :=
  ⟨simplePolygon_triangle, by decide, by decide +kernel,
    ⟨Or.inl ⟨(⟨0, 0⟩, ⟨4, 0⟩), by decide +kernel, by decide +kernel⟩, by decide +kernel⟩,
    by unfold Inside; decide +kernel, by decide +kernel⟩

end Answer

end AdaptiveSignal.Signal
