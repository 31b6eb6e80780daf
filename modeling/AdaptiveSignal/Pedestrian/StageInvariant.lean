import AdaptiveSignal.Pedestrian.VipsPlus
import Mathlib.Tactic.IntervalCases
import Mathlib.Tactic.Linarith
import Mathlib.Tactic.NormNum

/-! # The timer invariant of the VIPS+ stages

Every stage timer stays below the limit of its stage while the stage runs and
within its bounds once the stage is over. The remaining red time is a function
of the green and green-flash timers alone, which ties the three together.
-/

namespace AdaptiveSignal.Pedestrian

/-- The limits fixed by `init_variable_plus`; no tick changes them. -/
structure Limits (c : ControlPlus) : Prop where
  y : c.yPlus = 2
  lg : c.lgPlus = 57 / 5
  lgf : c.lgfPlus = 114 / 5
  lr : c.lrPlus = 2
  er : c.erPlus = 13 / 2

/-- What the three flow classes have in common: the split spends `G + GF`, each
part reaches its minimum, and both together round up to at most 58 ticks. -/
structure FlowSplit (green flash : ℚ) : Prop where
  total : green + flash = G + GF
  green_min : 12 ≤ ⌈green⌉₊
  flash_min : 23 ≤ ⌈flash⌉₊
  together : ⌈green⌉₊ + ⌈flash⌉₊ ≤ 58

namespace ControlPlus

/-- The bounds on the timer of a stage that is over. -/
def Spent (c : ControlPlus) : ℕ → Prop
  | 1 => (1 ≤ c.stageTimersPlus 1 ∧ c.stageTimersPlus 1 ≤ 5) ∧
      FlowSplit c.dynamicGPlus c.dynamicGFPlus
  | 2 => 12 ≤ c.stageTimersPlus 2 ∧ c.stageTimersPlus 2 ≤ ⌈c.dynamicGPlus⌉₊
  | 3 => 23 ≤ c.stageTimersPlus 3 ∧ c.stageTimersPlus 3 ≤ ⌈c.dynamicGFPlus⌉₊
  | 4 => c.stageTimersPlus 2 + c.stageTimersPlus 3 + c.stageTimersPlus 4 = 58 ∨
      c.stageTimersPlus 2 + c.stageTimersPlus 3 + c.stageTimersPlus 4 = 59
  | 5 => c.stageTimersPlus 5 = 2
  | _ => True

/-- The bound on the timer of the stage that is running. -/
def Running (c : ControlPlus) : ℕ → Prop
  | 1 => c.stageTimersPlus 1 < 5 ∧
      (c.stageTimersPlus 1 ≠ 0 → FlowSplit c.dynamicGPlus c.dynamicGFPlus)
  | 2 => c.stageTimersPlus 2 < ⌈c.dynamicGPlus⌉₊
  | 3 => c.stageTimersPlus 3 < ⌈c.dynamicGFPlus⌉₊
  | 4 => c.stageTimersPlus 4 = 0 ∨ (c.stageTimersPlus 4 : ℚ) < c.urPlus
  | 5 => c.stageTimersPlus 5 < 2
  | 6 => c.stageTimersPlus 6 < 9
  | _ => False

/-- Stage 2 wears `UR_plus` down from its twelfth tick on and stage 3 from its
twenty-third. -/
def RedTime (c : ControlPlus) : Prop :=
  c.urPlus = 124 / 5 - ((c.stageTimersPlus 2 - 11 : ℕ) + (c.stageTimersPlus 3 - 22 : ℕ))

end ControlPlus

/-- The invariant of the stage machine. -/
structure StageInv (c : ControlPlus) : Prop where
  limits : Limits c
  unused : c.stageTimersPlus 0 = 0
  idle : ∀ j : Fin stageTimerNum, c.csPlus < j.val → c.stageTimersPlus j = 0
  red : c.RedTime
  spent : ∀ j, 1 ≤ j → j < c.csPlus → c.Spent j
  running : c.Running c.csPlus

theorem ceil_eq_of_between {q : ℚ} {n : ℕ} (hlo : (n : ℚ) < q) (hhi : q ≤ (n + 1 : ℕ)) :
    ⌈q⌉₊ = n + 1 := by
  rw [Nat.ceil_eq_iff (Nat.succ_ne_zero n)]
  exact ⟨by simpa using hlo, hhi⟩

/-- A tick count reaches a limit that is no whole number of ticks exactly when
it reaches the next whole number. -/
theorem le_ticks_iff {q : ℚ} {n ticks : ℕ} (hlo : (n : ℚ) < q) (hhi : q ≤ (n + 1 : ℕ)) :
    q ≤ (ticks : ℚ) ↔ n + 1 ≤ ticks := by
  rw [← Nat.ceil_le, ceil_eq_of_between hlo hhi]

theorem lt_ticks_iff {q : ℚ} {n ticks : ℕ} (hlo : (n : ℚ) < q) (hhi : q < (n + 1 : ℕ)) :
    q < (ticks : ℚ) ↔ n + 1 ≤ ticks := by
  constructor
  · exact fun hlt => (le_ticks_iff hlo hhi.le).mp hlt.le
  · exact fun hle => lt_of_lt_of_le hhi (Nat.cast_le.mpr hle)

/-- A split is sound as soon as its two ceilings are known. -/
theorem FlowSplit.of_share {share : ℚ} (g gf : ℕ)
    (hg : (g : ℚ) < 57 - 57 * share ∧ 57 - 57 * share ≤ (g + 1 : ℕ))
    (hgf : (gf : ℚ) < 57 * share ∧ 57 * share ≤ (gf + 1 : ℕ))
    (hmin : 11 ≤ g ∧ 22 ≤ gf ∧ g + gf ≤ 56) :
    FlowSplit ((G + GF) - (G + GF) * share) ((G + GF) * share) := by
  have hsum : G + GF = 57 := by norm_num [G, GF]
  have hgreen := ceil_eq_of_between hg.1 hg.2
  have hflash := ceil_eq_of_between hgf.1 hgf.2
  rw [hsum]
  refine ⟨by rw [hsum]; ring, ?_, ?_, ?_⟩ <;> omega

theorem Limits.init (c : ControlPlus) : Limits (initVariablePlus c) := by
  constructor <;> norm_num [initVariablePlus, G, GF, Y, PT]

theorem init_urPlus (c : ControlPlus) : (initVariablePlus c).urPlus = 124 / 5 := by
  norm_num [initVariablePlus, G, GF, R]

/-- The state every pass starts from. -/
theorem StageInv.fresh {c : ControlPlus} (hlimits : Limits c) (hcs : c.csPlus = 1)
    (htimers : c.stageTimersPlus = fun _ => 0) (hred : c.urPlus = 124 / 5) : StageInv c where
  limits := hlimits
  unused := by rw [htimers]
  idle := by simp [htimers]
  red := by simp [ControlPlus.RedTime, htimers, hred]
  spent := by intro j hpos hlt; omega
  running := by simp [hcs, ControlPlus.Running, htimers]

theorem StageInv.init (c : ControlPlus) (direction : Bool) :
    StageInv { initVariablePlus c with directionFlagPlus := direction } := by
  have hlimits := Limits.init c
  exact StageInv.fresh ⟨hlimits.y, hlimits.lg, hlimits.lgf, hlimits.lr, hlimits.er⟩ rfl rfl
    (init_urPlus c)

section Tick

variable {c c' : ControlPlus} {k : Fin stageTimerNum}

theorem StageInv.stage_bounds (h : StageInv c) : 1 ≤ c.csPlus ∧ c.csPlus ≤ 6 := by
  have hrun := h.running
  constructor
  · by_contra hlt
    have hzero : c.csPlus = 0 := by omega
    rw [hzero] at hrun
    exact hrun
  · by_contra hgt
    obtain ⟨n, hn⟩ : ∃ n, c.csPlus = n + 7 := ⟨c.csPlus - 7, by omega⟩
    rw [hn] at hrun
    exact hrun

theorem StageInv.flow (h : StageInv c) (hcs : 1 < c.csPlus) :
    FlowSplit c.dynamicGPlus c.dynamicGFPlus :=
  (h.spent 1 le_rfl hcs).2

/-- A tick of stage `k` that does not switch the direction. Only stage 1 picks
a new split of the green time. -/
structure Ticked (k : Fin stageTimerNum) (c c' : ControlPlus) : Prop where
  limits : Limits c'
  direction : c'.directionFlagPlus = c.directionFlagPlus
  timers : c'.stageTimersPlus = Function.update c.stageTimersPlus k (c.stageTimersPlus k + 1)
  split : 1 < k.val → c'.dynamicGPlus = c.dynamicGPlus ∧ c'.dynamicGFPlus = c.dynamicGFPlus

theorem Ticked.timer_self (h : Ticked k c c') :
    c'.stageTimersPlus k = c.stageTimersPlus k + 1 := by
  rw [h.timers, Function.update_self]

theorem Ticked.timer_ne (h : Ticked k c c') {j : Fin stageTimerNum} (hne : j ≠ k) :
    c'.stageTimersPlus j = c.stageTimersPlus j := by
  rw [h.timers, Function.update_of_ne hne]

/-- The bounds of the stages before the running one speak of their timers only. -/
theorem Ticked.spent (h : Ticked k c c') {j : ℕ} (hpos : 1 ≤ j) (hlt : j < k.val)
    (hspent : c.Spent j) : c'.Spent j := by
  obtain ⟨hgreen, hflash⟩ := h.split (by omega)
  have hsame : ∀ i : Fin stageTimerNum, i.val ≤ j → c'.stageTimersPlus i = c.stageTimersPlus i :=
    fun i hi => h.timer_ne (fun heq => by subst heq; omega)
  have hj : j < 7 := hlt.trans k.isLt
  interval_cases j
  · simpa only [ControlPlus.Spent, hsame 1 le_rfl, hgreen, hflash] using hspent
  · simpa only [ControlPlus.Spent, hsame 2 le_rfl, hgreen] using hspent
  · simpa only [ControlPlus.Spent, hsame 3 le_rfl, hflash] using hspent
  · -- stage 4 is bounded together with green and green flash
    simpa only [ControlPlus.Spent, hsame 2 (by decide), hsame 3 (by decide),
      hsame 4 le_rfl] using hspent
  · simpa only [ControlPlus.Spent, hsame 5 le_rfl] using hspent
  · trivial

theorem Ticked.unused (h : Ticked k c c') (hk : 0 < k.val) (hzero : c.stageTimersPlus 0 = 0) :
    c'.stageTimersPlus 0 = 0 := by
  rw [h.timer_ne (fun heq => by subst heq; simp at hk), hzero]

/-- The invariant survives a tick that leaves the stage running. -/
theorem StageInv.stay (h : StageInv c) (hk : c.csPlus = k.val) (ht : Ticked k c c')
    (hcs : c'.csPlus = c.csPlus) (hred : c'.RedTime) (hrun : c'.Running k.val) :
    StageInv c' where
  limits := ht.limits
  unused := ht.unused (by have := h.stage_bounds; omega) h.unused
  idle j hj := by
    rw [hcs] at hj
    rw [ht.timer_ne (fun heq => by subst heq; omega), h.idle j hj]
  red := hred
  spent j hpos hlt := ht.spent hpos (by omega) (h.spent j hpos (by omega))
  running := by rw [hcs, hk]; exact hrun

/-- The invariant survives a tick that ends the stage within its bounds. -/
theorem StageInv.move (h : StageInv c) (hk : c.csPlus = k.val) (ht : Ticked k c c')
    (hcs : c'.csPlus = c.csPlus + 1) (hred : c'.RedTime) (hspent : c'.Spent k.val)
    (hstart : c'.Running (k.val + 1)) : StageInv c' where
  limits := ht.limits
  unused := ht.unused (by have := h.stage_bounds; omega) h.unused
  idle j hj := by
    rw [ht.timer_ne (fun heq => by subst heq; omega), h.idle j (by omega)]
  red := hred
  spent j hpos hlt := by
    rcases Nat.lt_or_ge j k.val with hj | hj
    · exact ht.spent hpos hj (h.spent j hpos (by omega))
    · have heq : j = k.val := by omega
      exact heq ▸ hspent
  running := by rw [hcs, hk]; exact hstart

end Tick

end AdaptiveSignal.Pedestrian
