import AdaptiveSignal.Pedestrian.StageInvariant

/-! # One tick of the VIPS+ stages

Each stage is first brought into the form of one record update, which says all
that a tick of it can do. From that form the stage is shown to end within its
bounds or to keep running below its limit. Together the stages give the two
outcomes of a tick: the running stage advances its timer and possibly its
successor starts, or the direction switches.
-/

namespace AdaptiveSignal.Pedestrian

open ControlPlus

variable {c : ControlPlus}

/-- The share of the green time that goes to the green flash. -/
def flashShare (waiting : ℕ) : ℚ :=
  if waiting ≤ 5 then 0.5 else if waiting ≤ 30 then 0.65 else 0.75

theorem flashShare_split (waiting : ℕ) :
    FlowSplit ((G + GF) - (G + GF) * flashShare waiting) ((G + GF) * flashShare waiting) := by
  unfold flashShare
  split_ifs
  · exact FlowSplit.of_share 28 28 (by norm_num) (by norm_num) (by decide)
  · exact FlowSplit.of_share 19 37 (by norm_num) (by norm_num) (by decide)
  · exact FlowSplit.of_share 14 42 (by norm_num) (by norm_num) (by decide)

/-! ## The stages as single updates -/

theorem stage1_eq (c : ControlPlus) (m : MatrixPlus) :
    c.stage1 m =
      let first := c.stageTimersPlus 1 + 1 = 1
      let flash := (G + GF) * flashShare (calculateWaiting m)
      { c.tickStage 1 with
        waitingCount := calculateWaiting m
        dynamicGFPlus := if first then flash else c.dynamicGFPlus
        dynamicGPlus := if first then (G + GF) - flash else c.dynamicGPlus
        csPlus := if 5 ≤ c.stageTimersPlus 1 + 1 ∨ (first ∧ calculateWaiting m = 0) then 2
          else c.csPlus } := by
  by_cases hlong : 5 ≤ c.stageTimersPlus 1 + 1
  · have hfirst : ¬ c.stageTimersPlus 1 = 0 := by omega
    simp [stage1, tickStage, hlong, hfirst]
  · have hshort : c.stageTimersPlus 1 + 1 < 5 := by omega
    simp only [stage1, tickStage, Function.update_self, hshort, hlong, if_true, false_or]
    unfold flashShare
    split_ifs <;> simp_all

theorem crossingStage_eq (c : ControlPlus) (m : MatrixPlus) (k : Fin stageTimerNum)
    (shortest : ℚ) (ratioCols : ℕ) (longest : ℚ) (next : ℕ) :
    c.crossingStage m k shortest ratioCols longest next =
      let ticks : ℚ := (c.stageTimersPlus k + 1 : ℕ)
      { c.tickStage k with
        urPlus := if shortest < ticks then c.urPlus - 1 else c.urPlus
        csPlus := if shortest ≤ ticks ∧
          (isAnyoneBeforeRatioPlus m ratioCols = false ∨ longest ≤ ticks) then next
          else c.csPlus } := by
  by_cases hmin : shortest ≤ ((c.stageTimersPlus k + 1 : ℕ) : ℚ)
  · simp only [crossingStage, tickStage, Function.update_self, hmin, if_true, true_and]
    cases isAnyoneBeforeRatioPlus m ratioCols <;>
      by_cases hover : longest ≤ ((c.stageTimersPlus k + 1 : ℕ) : ℚ) <;>
      by_cases hmore : shortest < ((c.stageTimersPlus k + 1 : ℕ) : ℚ) <;>
      simp only [hover, hmore, Function.update_self, Bool.not_true, Bool.not_false,
        Bool.false_eq_true, Bool.true_eq_false, if_true, if_false, or_false, false_or, true_or]
  · have hnot : ¬ shortest < ((c.stageTimersPlus k + 1 : ℕ) : ℚ) := fun hlt => hmin hlt.le
    simp only [crossingStage, tickStage, Function.update_self, hmin, hnot, if_false, false_and]

theorem stage4_eq (c : ControlPlus) :
    c.stage4 = { c.tickStage 4 with
      csPlus := if c.urPlus ≤ ((c.stageTimersPlus 4 + 1 : ℕ) : ℚ) then 5 else c.csPlus } := by
  simp only [stage4, tickStage, Function.update_self]
  split_ifs <;> rfl

theorem stage5_eq (c : ControlPlus) :
    c.stage5 = { c.tickStage 5 with
      csPlus := if c.yPlus ≤ ((c.stageTimersPlus 5 + 1 : ℕ) : ℚ) then 6 else c.csPlus } := by
  simp only [stage5, tickStage, Function.update_self]
  split_ifs <;> rfl

theorem stage6_eq (c : ControlPlus) :
    c.stage6 =
      let ticks : ℚ := (c.stageTimersPlus 6 + 1 : ℕ)
      if c.lrPlus ≤ ticks ∧ (c.picPlus = 0 ∨ c.lrPlus + c.erPlus ≤ ticks) then
        (c.tickStage 6).switchDirection
      else c.tickStage 6 := by
  simp only [stage6, tickStage, Function.update_self]
  split_ifs <;> first | rfl | (exfalso; grind)

/-! ## The stages keep the invariant -/

/-- What a tick of stage `k` is shown to do. -/
def Outcome (k : Fin stageTimerNum) (c c' : ControlPlus) : Prop :=
  Ticked k c c' ∧ StageInv c' ∧ (c'.csPlus = c.csPlus ∨ c'.csPlus = c.csPlus + 1)

theorem Outcome.of_stay {k : Fin stageTimerNum} {c' : ControlPlus} (h : StageInv c)
    (hk : c.csPlus = k.val) (ht : Ticked k c c') (hcs : c'.csPlus = c.csPlus) (hred : c'.RedTime)
    (hrun : c'.Running k.val) : Outcome k c c' :=
  ⟨ht, h.stay hk ht hcs hred hrun, Or.inl hcs⟩

theorem Outcome.of_move {k : Fin stageTimerNum} {c' : ControlPlus} (h : StageInv c)
    (hk : c.csPlus = k.val) (ht : Ticked k c c') (hcs : c'.csPlus = c.csPlus + 1)
    (hred : c'.RedTime) (hspent : c'.Spent k.val) (hstart : c'.Running (k.val + 1)) :
    Outcome k c c' :=
  ⟨ht, h.move hk ht hcs hred hspent hstart, Or.inr hcs⟩

/-- All stages but the first write nothing else. -/
theorem Ticked.of_update (hlimits : Limits c) (k : Fin stageTimerNum) (ur : ℚ) (cs : ℕ) :
    Ticked k c { c.tickStage k with urPlus := ur, csPlus := cs } :=
  ⟨⟨hlimits.y, hlimits.lg, hlimits.lgf, hlimits.lr, hlimits.er⟩, rfl, rfl, fun _ => ⟨rfl, rfl⟩⟩

theorem RedTime.congr {c c' : ControlPlus} (hur : c'.urPlus = c.urPlus)
    (h2 : c'.stageTimersPlus 2 = c.stageTimersPlus 2)
    (h3 : c'.stageTimersPlus 3 = c.stageTimersPlus 3) (hred : c.RedTime) : c'.RedTime := by
  simpa only [RedTime, hur, h2, h3] using hred

theorem stage1_outcome (h : StageInv c) (hcs : c.csPlus = 1) (m : MatrixPlus) :
    Outcome 1 c (c.stage1 m) := by
  have hrun : c.stageTimersPlus 1 < 5 ∧
      (c.stageTimersPlus 1 ≠ 0 → FlowSplit c.dynamicGPlus c.dynamicGFPlus) := by
    simpa only [hcs, Running] using h.running
  have heq := stage1_eq c m
  have ht : Ticked 1 c (c.stage1 m) := by
    rw [heq]
    exact ⟨⟨h.limits.y, h.limits.lg, h.limits.lgf, h.limits.lr, h.limits.er⟩, rfl, rfl,
      fun hlt => absurd hlt (by decide)⟩
  have hself := ht.timer_self
  have hflow : FlowSplit (c.stage1 m).dynamicGPlus (c.stage1 m).dynamicGFPlus := by
    rw [heq]
    by_cases hfirst : c.stageTimersPlus 1 + 1 = 1
    · simpa only [hfirst, if_true] using flashShare_split (calculateWaiting m)
    · simpa only [hfirst, if_false] using hrun.2 (by omega)
  have hred : (c.stage1 m).RedTime := by
    refine RedTime.congr ?_ (ht.timer_ne (by decide)) (ht.timer_ne (by decide)) h.red
    rw [heq]
    rfl
  by_cases hends : 5 ≤ c.stageTimersPlus 1 + 1 ∨
      (c.stageTimersPlus 1 + 1 = 1 ∧ calculateWaiting m = 0)
  · refine Outcome.of_move h hcs ht ?_ hred ⟨⟨by omega, by omega⟩, hflow⟩ ?_
    · rw [heq, hcs]
      simp only [if_pos hends]
    · have hidle := h.idle 2 (by rw [hcs]; decide)
      have hmin := hflow.green_min
      change (c.stage1 m).stageTimersPlus 2 < _
      rw [ht.timer_ne (by decide), hidle]
      omega
  · refine Outcome.of_stay h hcs ht ?_ hred ⟨by omega, fun _ => hflow⟩
    rw [heq]
    simp only [if_neg hends]

/-- A tick of a crossing stage whose shortest time ends within its tick `n + 1`:
what happens to the red time, and when the stage ends. -/
theorem crossingStage_tick (h : StageInv c) (m : MatrixPlus) (k : Fin stageTimerNum)
    (shortest : ℚ) (ratioCols : ℕ) (longest : ℚ) (next n : ℕ)
    (hlo : (n : ℚ) < shortest) (hhi : shortest < (n + 1 : ℕ)) :
    let c' := c.crossingStage m k shortest ratioCols longest next
    Ticked k c c' ∧
      (c'.urPlus + (c.stageTimersPlus k + 1 - n : ℕ) =
        c.urPlus + (c.stageTimersPlus k - n : ℕ)) ∧
      (n + 1 ≤ c.stageTimersPlus k + 1 ∧ c'.csPlus = next ∨
        (n + 1 ≤ c.stageTimersPlus k + 1 → c.stageTimersPlus k + 1 < ⌈longest⌉₊) ∧
          c'.csPlus = c.csPlus) := by
  intro c'
  have hlow : ∀ ticks : ℕ, shortest ≤ (ticks : ℚ) ↔ n + 1 ≤ ticks := fun ticks =>
    le_ticks_iff hlo hhi.le
  have hwear : ∀ ticks : ℕ, shortest < (ticks : ℚ) ↔ n + 1 ≤ ticks := fun ticks =>
    lt_ticks_iff hlo hhi
  have heq : c' = _ := crossingStage_eq c m k shortest ratioCols longest next
  simp only [hlow, hwear, ← Nat.ceil_le] at heq
  refine ⟨by rw [heq]; exact .of_update h.limits k _ _, ?_, ?_⟩
  · rw [show c'.urPlus = if n + 1 ≤ c.stageTimersPlus k + 1 then c.urPlus - 1 else c.urPlus by
      rw [heq]]
    split_ifs with hover
    · have hsub : c.stageTimersPlus k + 1 - n = (c.stageTimersPlus k - n) + 1 := by omega
      rw [hsub]
      push_cast
      ring
    · have hsub : c.stageTimersPlus k + 1 - n = c.stageTimersPlus k - n := by omega
      rw [hsub]
  · by_cases hends : n + 1 ≤ c.stageTimersPlus k + 1 ∧
        (isAnyoneBeforeRatioPlus m ratioCols = false ∨ ⌈longest⌉₊ ≤ c.stageTimersPlus k + 1)
    · exact Or.inl ⟨hends.1, by rw [heq]; exact if_pos hends⟩
    · refine Or.inr ⟨fun hlong => ?_, by rw [heq]; exact if_neg hends⟩
      exact Nat.lt_of_not_le fun hle => hends ⟨hlong, Or.inr hle⟩

theorem stage2_outcome (h : StageInv c) (hcs : c.csPlus = 2) (m : MatrixPlus) :
    Outcome 2 c (c.stage2 m) := by
  have hrun : c.stageTimersPlus 2 < ⌈c.dynamicGPlus⌉₊ := by
    simpa only [hcs, Running] using h.running
  have hflow := h.flow (by omega)
  have hmin := hflow.green_min
  have hminFlash := hflow.flash_min
  have hidle := h.idle 3 (by rw [hcs]; decide)
  obtain ⟨ht, hwear, hends⟩ := crossingStage_tick h m 2 c.lgPlus 3 c.dynamicGPlus 3 11
    (by rw [h.limits.lg]; norm_num) (by rw [h.limits.lg]; norm_num)
  change Ticked 2 c (c.stage2 m) at ht
  change (c.stage2 m).urPlus + _ = _ at hwear
  have hself := ht.timer_self
  have hgreen : (c.stage2 m).dynamicGPlus = c.dynamicGPlus := (ht.split (by decide)).1
  have hflash : (c.stage2 m).dynamicGFPlus = c.dynamicGFPlus := (ht.split (by decide)).2
  have hred : (c.stage2 m).RedTime := by
    have hold := h.red
    rw [RedTime] at hold ⊢
    rw [hself, ht.timer_ne (by decide)]
    linarith
  rcases hends with ⟨hlong, hmove⟩ | ⟨hlong, hstay⟩
  · refine Outcome.of_move h hcs ht (hmove.trans (by rw [hcs])) hred
      ⟨by omega, by rw [hself, hgreen]; exact hrun⟩ ?_
    change (c.stage2 m).stageTimersPlus 3 < _
    rw [ht.timer_ne (by decide), hidle, hflash]
    omega
  · refine Outcome.of_stay h hcs ht hstay hred ?_
    change (c.stage2 m).stageTimersPlus 2 < _
    rw [hself, hgreen]
    omega

theorem stage3_outcome (h : StageInv c) (hcs : c.csPlus = 3) (m : MatrixPlus) :
    Outcome 3 c (c.stage3 m) := by
  have hrun : c.stageTimersPlus 3 < ⌈c.dynamicGFPlus⌉₊ := by
    simpa only [hcs, Running] using h.running
  have hflow := h.flow (by omega)
  have hmin := hflow.flash_min
  have hidle := h.idle 4 (by rw [hcs]; decide)
  obtain ⟨ht, hwear, hends⟩ := crossingStage_tick h m 3 c.lgfPlus 10 c.dynamicGFPlus 4 22
    (by rw [h.limits.lgf]; norm_num) (by rw [h.limits.lgf]; norm_num)
  change Ticked 3 c (c.stage3 m) at ht
  change (c.stage3 m).urPlus + _ = _ at hwear
  have hself := ht.timer_self
  have hflash : (c.stage3 m).dynamicGFPlus = c.dynamicGFPlus := (ht.split (by decide)).2
  have hred : (c.stage3 m).RedTime := by
    have hold := h.red
    rw [RedTime] at hold ⊢
    rw [hself, ht.timer_ne (by decide)]
    linarith
  rcases hends with ⟨hlong, hmove⟩ | ⟨hlong, hstay⟩
  · refine Outcome.of_move h hcs ht (hmove.trans (by rw [hcs])) hred
      ⟨by omega, by rw [hself, hflash]; exact hrun⟩ ?_
    exact Or.inl (by rw [ht.timer_ne (by decide), hidle])
  · refine Outcome.of_stay h hcs ht hstay hred ?_
    change (c.stage3 m).stageTimersPlus 3 < _
    rw [hself, hflash]
    omega

/-- Once green and green flash are over, the red time left is what the two did
not use of the 57.8 seconds. -/
theorem StageInv.red_left (h : StageInv c) (hcs : 3 < c.csPlus) :
    c.urPlus = 289 / 5 - c.stageTimersPlus 2 - c.stageTimersPlus 3 := by
  have hgreen : 12 ≤ c.stageTimersPlus 2 := (h.spent 2 (by decide) (by omega)).1
  have hflash : 23 ≤ c.stageTimersPlus 3 := (h.spent 3 (by decide) hcs).1
  have hred := h.red
  rw [RedTime, Nat.cast_sub (by omega), Nat.cast_sub (by omega)] at hred
  rw [hred]
  push_cast
  ring

theorem stage4_outcome (h : StageInv c) (hcs : c.csPlus = 4) : Outcome 4 c c.stage4 := by
  have hrun : c.stageTimersPlus 4 = 0 ∨ (c.stageTimersPlus 4 : ℚ) < c.urPlus := by
    simpa only [hcs, Running] using h.running
  have hleft := h.red_left (by omega)
  have hgreen : c.stageTimersPlus 2 ≤ ⌈c.dynamicGPlus⌉₊ := (h.spent 2 (by decide) (by omega)).2
  have hflash : c.stageTimersPlus 3 ≤ ⌈c.dynamicGFPlus⌉₊ := (h.spent 3 (by decide) (by omega)).2
  have htogether := (h.flow (by omega)).together
  have hidle := h.idle 5 (by rw [hcs]; decide)
  -- 57.8 is no whole number of ticks: the stage ends with the three timers at 58 or later
  have hover : ∀ ticks : ℕ, c.urPlus ≤ (ticks : ℚ) ↔
      58 ≤ c.stageTimersPlus 2 + c.stageTimersPlus 3 + ticks := fun ticks => by
    rw [← le_ticks_iff (q := 289 / 5) (n := 57) (by norm_num) (by norm_num), hleft]
    push_cast
    constructor <;> intro hle <;> linarith
  have heq := stage4_eq c
  simp only [hover] at heq
  have ht : Ticked 4 c c.stage4 := by
    rw [heq]
    exact .of_update h.limits 4 _ _
  have hself := ht.timer_self
  have h2 : c.stage4.stageTimersPlus 2 = c.stageTimersPlus 2 := ht.timer_ne (by decide)
  have h3 : c.stage4.stageTimersPlus 3 = c.stageTimersPlus 3 := ht.timer_ne (by decide)
  have hur : c.stage4.urPlus = c.urPlus := by rw [heq]; rfl
  have hred : c.stage4.RedTime := RedTime.congr hur h2 h3 h.red
  by_cases hends : 58 ≤ c.stageTimersPlus 2 + c.stageTimersPlus 3 + (c.stageTimersPlus 4 + 1)
  · refine Outcome.of_move h hcs ht ?_ hred ?_ ?_
    · rw [heq, hcs]
      simp only [if_pos hends]
    · have hbefore : c.stageTimersPlus 4 = 0 ∨
          c.stageTimersPlus 2 + c.stageTimersPlus 3 + c.stageTimersPlus 4 < 58 :=
        hrun.imp_right fun hlt => Nat.lt_of_not_le fun hle =>
          absurd ((hover _).mpr hle) (not_le.mpr hlt)
      change _ = 58 ∨ _ = 59
      rw [hself, h2, h3]
      omega
    · change c.stage4.stageTimersPlus 5 < 2
      rw [ht.timer_ne (by decide), hidle]
      decide
  · refine Outcome.of_stay h hcs ht ?_ hred (Or.inr ?_)
    · rw [heq]
      simp only [if_neg hends]
    · rw [hself, hur]
      exact not_le.mp fun hle => hends ((hover _).mp hle)

theorem stage5_outcome (h : StageInv c) (hcs : c.csPlus = 5) : Outcome 5 c c.stage5 := by
  have hrun : c.stageTimersPlus 5 < 2 := by
    simpa only [hcs, Running] using h.running
  have hidle := h.idle 6 (by rw [hcs]; decide)
  have hover : c.yPlus ≤ ((c.stageTimersPlus 5 + 1 : ℕ) : ℚ) ↔ 2 ≤ c.stageTimersPlus 5 + 1 := by
    rw [h.limits.y]
    exact_mod_cast Iff.rfl
  have heq := stage5_eq c
  simp only [hover] at heq
  have ht : Ticked 5 c c.stage5 := by
    rw [heq]
    exact .of_update h.limits 5 _ _
  have hself := ht.timer_self
  have hred : c.stage5.RedTime := by
    refine RedTime.congr ?_ (ht.timer_ne (by decide)) (ht.timer_ne (by decide)) h.red
    rw [heq]
    rfl
  by_cases hends : 2 ≤ c.stageTimersPlus 5 + 1
  · refine Outcome.of_move h hcs ht ?_ hred ?_ ?_
    · rw [heq, hcs]
      simp only [if_pos hends]
    · change c.stage5.stageTimersPlus 5 = 2
      omega
    · change c.stage5.stageTimersPlus 6 < 9
      rw [ht.timer_ne (by decide), hidle]
      decide
  · refine Outcome.of_stay h hcs ht ?_ hred ?_
    · rw [heq]
      simp only [if_neg hends]
    · change c.stage5.stageTimersPlus 5 < 2
      omega

/-- The tick that ends a pass: `stage_timers_plus[6]` has reached the all-red
time, and nobody is on the crossing or the extension is used up. -/
structure Switched (pic : ℕ) (c c' : ControlPlus) : Prop where
  from_stage : c.csPlus = 6
  cleared : 2 ≤ c.stageTimersPlus 6 + 1
  empty : pic = 0 ∨ c.stageTimersPlus 6 + 1 = 9
  direction : c'.directionFlagPlus = !c.directionFlagPlus
  fresh : c'.csPlus = 1 ∧ (c'.stageTimersPlus = fun _ => 0) ∧ c'.urPlus = 124 / 5
  inv : StageInv c'

theorem stage6_outcome (h : StageInv c) (hcs : c.csPlus = 6) :
    (Outcome 6 c c.stage6 ∧ c.stage6.csPlus = 6) ∨ Switched c.picPlus c c.stage6 := by
  have hrun : c.stageTimersPlus 6 < 9 := by
    simpa only [hcs, Running] using h.running
  have hclear : c.lrPlus ≤ ((c.stageTimersPlus 6 + 1 : ℕ) : ℚ) ↔ 2 ≤ c.stageTimersPlus 6 + 1 := by
    rw [h.limits.lr]
    exact_mod_cast Iff.rfl
  have hextended : c.lrPlus + c.erPlus ≤ ((c.stageTimersPlus 6 + 1 : ℕ) : ℚ) ↔
      9 ≤ c.stageTimersPlus 6 + 1 := by
    rw [h.limits.lr, h.limits.er]
    exact le_ticks_iff (n := 8) (by norm_num) (by norm_num)
  have heq := stage6_eq c
  simp only [hclear, hextended] at heq
  by_cases hends : 2 ≤ c.stageTimersPlus 6 + 1 ∧
      (c.picPlus = 0 ∨ 9 ≤ c.stageTimersPlus 6 + 1)
  · rw [if_pos hends] at heq
    have hred : c.stage6.urPlus = 124 / 5 := by
      rw [heq]
      change (G + GF + R) - c.lgPlus - c.lgfPlus = _
      rw [h.limits.lg, h.limits.lgf]
      norm_num [G, GF, R]
    have hlimits : Limits c.stage6 := by
      rw [heq]
      exact ⟨h.limits.y, h.limits.lg, h.limits.lgf, h.limits.lr, h.limits.er⟩
    have hfresh : c.stage6.csPlus = 1 ∧ c.stage6.stageTimersPlus = fun _ => 0 := by
      rw [heq]
      exact ⟨rfl, rfl⟩
    refine Or.inr ⟨hcs, hends.1, hends.2.imp_right (by omega), by rw [heq]; rfl,
      ⟨hfresh.1, hfresh.2, hred⟩, StageInv.fresh hlimits hfresh.1 hfresh.2 hred⟩
  · rw [if_neg hends] at heq
    have ht : Ticked 6 c c.stage6 := by
      rw [heq]
      exact .of_update h.limits 6 _ _
    have hself := ht.timer_self
    have hstay : c.stage6.csPlus = c.csPlus := by rw [heq]; rfl
    have hred : c.stage6.RedTime := by
      refine RedTime.congr ?_ (ht.timer_ne (by decide)) (ht.timer_ne (by decide)) h.red
      rw [heq]
      rfl
    refine Or.inl ⟨Outcome.of_stay h hcs ht hstay hred ?_, by omega⟩
    change c.stage6.stageTimersPlus 6 < 9
    omega

/-! ## One tick of the whole control -/

/-- The invariant does not speak of the people on the crossing. -/
theorem StageInv.pic (h : StageInv c) (pic : ℕ) : StageInv { c with picPlus := pic } where
  limits := ⟨h.limits.y, h.limits.lg, h.limits.lgf, h.limits.lr, h.limits.er⟩
  unused := h.unused
  idle := h.idle
  red := h.red
  spent := h.spent
  running := h.running

/-- Either the running stage ticks and stays or hands over to the next, or the
direction switches. -/
theorem switchStage_cases (h : StageInv c) (m : MatrixPlus) :
    (∃ k : Fin stageTimerNum, c.csPlus = k.val ∧ Outcome k c (c.switchStage m) ∧
      (c.switchStage m).csPlus ≤ 6) ∨
    Switched c.picPlus c (c.switchStage m) := by
  obtain ⟨hlow, hhigh⟩ := h.stage_bounds
  have hsmall : ∀ {k : Fin stageTimerNum} {c' : ControlPlus}, c.csPlus = k.val → k.val < 6 →
      Outcome k c c' → c'.csPlus ≤ 6 := by
    intro k c' hk hlt hout
    rcases hout.2.2 with hstay | hmove <;> omega
  unfold switchStage
  obtain hcs | hcs | hcs | hcs | hcs | hcs : c.csPlus = 1 ∨ c.csPlus = 2 ∨ c.csPlus = 3 ∨
      c.csPlus = 4 ∨ c.csPlus = 5 ∨ c.csPlus = 6 := by omega
  all_goals simp only [hcs]
  · have hout := stage1_outcome h hcs m
    exact Or.inl ⟨1, rfl, hout, hsmall hcs (by decide) hout⟩
  · have hout := stage2_outcome h hcs m
    exact Or.inl ⟨2, rfl, hout, hsmall hcs (by decide) hout⟩
  · have hout := stage3_outcome h hcs m
    exact Or.inl ⟨3, rfl, hout, hsmall hcs (by decide) hout⟩
  · have hout := stage4_outcome h hcs
    exact Or.inl ⟨4, rfl, hout, hsmall hcs (by decide) hout⟩
  · have hout := stage5_outcome h hcs
    exact Or.inl ⟨5, rfl, hout, hsmall hcs (by decide) hout⟩
  · rcases stage6_outcome h hcs with ⟨hout, hsix⟩ | hswitched
    · exact Or.inl ⟨6, rfl, hout, hsix.le⟩
    · exact Or.inr hswitched

/-! ## The whole control

The count of people on the crossing is read before the stage runs, and nothing
else in the two outcomes speaks of it.
-/

section ReadPic

variable (c) (m : MatrixPlus)

@[simp] theorem readPic_csPlus : (c.readPic m).csPlus = c.csPlus := by
  simp only [readPic]

@[simp] theorem readPic_timers : (c.readPic m).stageTimersPlus = c.stageTimersPlus := by
  simp only [readPic]

@[simp] theorem readPic_direction : (c.readPic m).directionFlagPlus = c.directionFlagPlus := by
  simp only [readPic]

@[simp] theorem readPic_split : (c.readPic m).dynamicGPlus = c.dynamicGPlus ∧
    (c.readPic m).dynamicGFPlus = c.dynamicGFPlus := by
  simp only [readPic, and_self]

@[simp] theorem readPic_pic : (c.readPic m).picPlus = calculateMaxPedPlus m := by
  simp only [readPic]

end ReadPic

theorem StageInv.readPic (h : StageInv c) (m : MatrixPlus) : StageInv (c.readPic m) :=
  h.pic (calculateMaxPedPlus m)

theorem run_cases (h : StageInv c) (m : MatrixPlus) :
    (∃ k : Fin stageTimerNum, c.csPlus = k.val ∧
      Outcome k c (runPedestrianSignalControlPlus c m) ∧
      (runPedestrianSignalControlPlus c m).csPlus ≤ 6) ∨
    Switched (calculateMaxPedPlus m) c (runPedestrianSignalControlPlus c m) := by
  unfold runPedestrianSignalControlPlus
  rcases switchStage_cases (h.readPic m) m with
    ⟨k, hk, ⟨⟨hlimits, hdirection, htimers, hsplit⟩, hinv, hmove⟩, hlast⟩ |
      ⟨hfrom, hcleared, hempty, hdirection, hfresh, hinv⟩
  · rw [readPic_csPlus] at hk hmove
    rw [readPic_direction] at hdirection
    rw [readPic_timers] at htimers
    rw [(readPic_split c m).1, (readPic_split c m).2] at hsplit
    exact Or.inl ⟨k, hk, ⟨⟨hlimits, hdirection, htimers, hsplit⟩, hinv, hmove⟩, hlast⟩
  · rw [readPic_csPlus] at hfrom
    rw [readPic_timers] at hcleared hempty
    rw [readPic_pic] at hempty
    rw [readPic_direction] at hdirection
    exact Or.inr ⟨hfrom, hcleared, hempty, hdirection, hfresh, hinv⟩

theorem StageInv.tick (h : StageInv c) (m : MatrixPlus) :
    StageInv (runPedestrianSignalControlPlus c m) := by
  rcases run_cases h m with ⟨k, _, hout, _⟩ | hswitched
  · exact hout.2.1
  · exact hswitched.inv

end AdaptiveSignal.Pedestrian
