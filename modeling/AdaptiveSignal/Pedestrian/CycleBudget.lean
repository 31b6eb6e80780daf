import AdaptiveSignal.Foundation.Run
import AdaptiveSignal.Pedestrian.StageTick
import Mathlib.Data.List.Induction

/-! # The time budget of a VIPS+ cycle

Within one pass through the six stages the stage timers are the numbers of
ticks spent in the stages, so the timer invariant at the switch of direction
bounds the whole pass.
-/

namespace AdaptiveSignal.Pedestrian

open Foundation ControlPlus

/-- The tick switches the direction. -/
def ControlPlus.switches (c : ControlPlus) (m : MatrixPlus) : Prop :=
  (runPedestrianSignalControlPlus c m).directionFlagPlus ≠ c.directionFlagPlus

instance (c : ControlPlus) (m : MatrixPlus) : Decidable (c.switches m) :=
  inferInstanceAs (Decidable (_ ≠ _))

/-- Ticks none of which switches the direction. -/
def SamePass : ControlPlus → List MatrixPlus → Prop :=
  Guarded runPedestrianSignalControlPlus fun c m => ¬ c.switches m

/-- The ticks from the start of stage 1 to the switch of direction. -/
structure CompletedPass (entry : ControlPlus) (body : List MatrixPlus) (last : MatrixPlus) :
    Prop where
  first_stage : entry.csPlus = 1
  unticked : entry.stageTimersPlus 1 = 0
  same : SamePass entry body
  switched : (run runPedestrianSignalControlPlus entry body).switches last

/-- The number of ticks spent in a stage. -/
def ticksIn (k : Fin stageTimerNum) (c : ControlPlus) (ms : List MatrixPlus) : ℕ :=
  tally runPedestrianSignalControlPlus (fun c _ => c.csPlus == k.val) c ms

section Pass

variable {c : ControlPlus}

/-- A tick that does not switch advances the timer of the stage it finds. -/
theorem not_switches_cases (h : StageInv c) {m : MatrixPlus} (hsame : ¬ c.switches m) :
    ∃ k : Fin stageTimerNum, c.csPlus = k.val ∧
      Outcome k c (runPedestrianSignalControlPlus c m) := by
  rcases run_cases h m with ⟨k, hk, hout, _⟩ | hswitched
  · exact ⟨k, hk, hout⟩
  · refine absurd ?_ hsame
    rw [switches, hswitched.direction]
    exact Bool.not_ne_self _

theorem switches_cases (h : StageInv c) {m : MatrixPlus} (hswitch : c.switches m) :
    Switched (calculateMaxPedPlus m) c (runPedestrianSignalControlPlus c m) := by
  rcases run_cases h m with ⟨k, _, hout, _⟩ | hswitched
  · exact absurd hout.1.direction hswitch
  · exact hswitched

theorem StageInv.run (h : StageInv c) (ms : List MatrixPlus) :
    StageInv (Foundation.run runPedestrianSignalControlPlus c ms) :=
  run_invariant _ (fun _ m hc => hc.tick m) c ms h

/-- The stage timers count the ticks of the pass. -/
theorem timers_eq_ticksIn (h : StageInv c) (hzero : ∀ k, c.stageTimersPlus k = 0)
    {ms : List MatrixPlus} (hpass : SamePass c ms) (k : Fin stageTimerNum) :
    (run runPedestrianSignalControlPlus c ms).stageTimersPlus k = ticksIn k c ms := by
  unfold ticksIn
  induction ms using List.reverseRecOn with
  | nil => simpa using hzero k
  | append_singleton ms last ih =>
    obtain ⟨hbefore, hlast, _⟩ := Guarded.append.mp hpass
    obtain ⟨j, hj, hticked, _⟩ := not_switches_cases (h.run ms) hlast
    rw [run_concat, tally_concat, ← ih hbefore, hj]
    rcases eq_or_ne k j with rfl | hne
    · rw [hticked.timer_self, beq_self_eq_true, Bool.toNat_true]
    · rw [hticked.timer_ne hne, beq_eq_false_iff_ne.mpr (fun heq => hne (Fin.ext heq.symm)),
        Bool.toNat_false, Nat.add_zero]

/-- Within a pass the stages only go forward: no more ticks are spent in a stage
that is over, and the split of the green time stays. -/
theorem SamePass.forward (h : StageInv c) {ms : List MatrixPlus} (hpass : SamePass c ms) :
    c.csPlus ≤ (run runPedestrianSignalControlPlus c ms).csPlus ∧
      (∀ k : Fin stageTimerNum, k.val < c.csPlus → ticksIn k c ms = 0) ∧
      (1 < c.csPlus →
        (run runPedestrianSignalControlPlus c ms).dynamicGPlus = c.dynamicGPlus ∧
        (run runPedestrianSignalControlPlus c ms).dynamicGFPlus = c.dynamicGFPlus) := by
  induction ms generalizing c with
  | nil => exact ⟨le_rfl, fun _ _ => rfl, fun _ => ⟨rfl, rfl⟩⟩
  | cons m rest ih =>
    obtain ⟨j, hj, hticked, hinv, hmove⟩ := not_switches_cases h hpass.1
    obtain ⟨hle, hticks, hsplit⟩ := ih hinv hpass.2
    have hnext : c.csPlus ≤ (runPedestrianSignalControlPlus c m).csPlus := by omega
    refine ⟨hnext.trans hle, fun k hk => ?_, fun hcs => ?_⟩
    · have hother : (c.csPlus == k.val) = false := beq_eq_false_iff_ne.mpr (by omega)
      change (c.csPlus == k.val).toNat + ticksIn k _ rest = 0
      rw [hticks k (by omega), hother, Bool.toNat_false]
    · obtain ⟨hgreen, hflash⟩ := hticked.split (by omega)
      rw [run_cons, (hsplit (by omega)).1, (hsplit (by omega)).2]
      exact ⟨hgreen, hflash⟩

end Pass

section Completed

variable {entry : ControlPlus} {body : List MatrixPlus} {last : MatrixPlus}

theorem ticksIn_concat (k : Fin stageTimerNum) :
    ticksIn k entry (body ++ [last]) = ticksIn k entry body +
      ((run runPedestrianSignalControlPlus entry body).csPlus == k.val).toNat :=
  tally_concat ..

/-- At the start of a pass no stage has ticked. -/
theorem CompletedPass.timers_zero (hpass : CompletedPass entry body last) (h : StageInv entry)
    (k : Fin stageTimerNum) : entry.stageTimersPlus k = 0 := by
  have hfirst := hpass.first_stage
  obtain hk | hk | hk : k.val = 0 ∨ k.val = 1 ∨ 1 < k.val := by omega
  · rw [show k = 0 from Fin.ext hk]
    exact h.unused
  · rw [show k = 1 from Fin.ext hk]
    exact hpass.unticked
  · exact h.idle k (by omega)

/-- What the timers hold when the direction switches. -/
theorem CompletedPass.ticks (hpass : CompletedPass entry body last) (h : StageInv entry)
    (k : Fin stageTimerNum) :
    ticksIn k entry (body ++ [last]) =
      (run runPedestrianSignalControlPlus entry body).stageTimersPlus k +
        (6 == k.val).toNat := by
  have hswitched := switches_cases (h.run body) hpass.switched
  rw [ticksIn_concat, hswitched.from_stage,
    timers_eq_ticksIn h (hpass.timers_zero h) hpass.same]

/-- From any state within the pass on, the stages that are over are not ticked again. -/
theorem CompletedPass.ticks_upTo (hpass : CompletedPass entry body last) (h : StageInv entry)
    {upTo rest : List MatrixPlus} (hsplit : body = upTo ++ rest) {k : Fin stageTimerNum}
    (hover : k.val < (run runPedestrianSignalControlPlus entry upTo).csPlus) :
    (run runPedestrianSignalControlPlus entry body).stageTimersPlus k =
      (run runPedestrianSignalControlPlus entry upTo).stageTimersPlus k := by
  have hsame := hpass.same
  rw [hsplit] at hsame
  obtain ⟨hbefore, hafter⟩ := Guarded.append.mp hsame
  obtain ⟨-, hnone, -⟩ := SamePass.forward (h.run upTo) hafter
  have hsum : ticksIn k entry (upTo ++ rest) = ticksIn k entry upTo + ticksIn k _ rest :=
    tally_append ..
  rw [timers_eq_ticksIn h (hpass.timers_zero h) hpass.same,
    timers_eq_ticksIn h (hpass.timers_zero h) hbefore, hsplit, hsum, hnone k hover, Nat.add_zero]

/-- From stage 2 on the split of the green time is that of the whole pass. -/
theorem CompletedPass.split_upTo (hpass : CompletedPass entry body last) (h : StageInv entry)
    {upTo rest : List MatrixPlus} (hsplit : body = upTo ++ rest)
    (hover : 1 < (run runPedestrianSignalControlPlus entry upTo).csPlus) :
    (run runPedestrianSignalControlPlus entry body).dynamicGPlus =
        (run runPedestrianSignalControlPlus entry upTo).dynamicGPlus ∧
      (run runPedestrianSignalControlPlus entry body).dynamicGFPlus =
        (run runPedestrianSignalControlPlus entry upTo).dynamicGFPlus := by
  have hsame := hpass.same
  rw [hsplit] at hsame
  rw [hsplit, run_append]
  exact (SamePass.forward (h.run upTo) (Guarded.append.mp hsame).2).2.2 hover

end Completed

/-- Every completed pass keeps the time budget: green and green flash end within
their bounds, what they leave of the red time ends stage 4, and the three stages
together take 58 or 59 ticks. -/
theorem cycle_time_budget (c : ControlPlus) (direction : Bool) (before body : List MatrixPlus)
    (last : MatrixPlus) :
    let start := { initVariablePlus c with directionFlagPlus := direction }
    let entry := run runPedestrianSignalControlPlus start before
    let t := fun k => ticksIn k entry (body ++ [last])
    CompletedPass entry body last →
      (t 1 ≤ 5 ∧ 12 ≤ t 2 ∧ 23 ≤ t 3 ∧ t 5 = 2 ∧ 2 ≤ t 6 ∧ t 6 ≤ 9) ∧
      (t 2 + t 3 + t 4 = 58 ∨ t 2 + t 3 + t 4 = 59) ∧
      ((t 2 + t 3 + t 4 : ℕ) : ℚ) ≤ G + GF + R ∧
      ∀ upTo m rest, body = upTo ++ m :: rest →
        let s := run runPedestrianSignalControlPlus entry upTo
        let s' := runPedestrianSignalControlPlus s m
        (s.csPlus = 1 → s'.csPlus = 2 → s'.dynamicGPlus + s'.dynamicGFPlus = G + GF) ∧
        (s.csPlus = 2 → t 2 ≤ ⌈s.dynamicGPlus⌉₊) ∧
        (s.csPlus = 3 → t 3 ≤ ⌈s.dynamicGFPlus⌉₊) ∧
        (s.csPlus = 3 → s'.csPlus = 4 → s'.urPlus = 57.8 - t 2 - t 3) := by
  intro start entry t hpass
  have hentry : StageInv entry := (StageInv.init c direction).run before
  -- the timers of the state before the switch hold the ticks of the pass
  obtain ⟨e, he⟩ : ∃ e, e = run runPedestrianSignalControlPlus entry body := ⟨_, rfl⟩
  have hend : StageInv e := he ▸ hentry.run body
  have hsix : e.csPlus = 6 :=
    he ▸ (switches_cases (hentry.run body) hpass.switched).from_stage
  have hclear : 2 ≤ e.stageTimersPlus 6 + 1 :=
    he ▸ (switches_cases (hentry.run body) hpass.switched).cleared
  have hextended : e.stageTimersPlus 6 < 9 := by
    simpa only [hsix, Running] using hend.running
  have hticks : ∀ k, t k = e.stageTimersPlus k + (6 == k.val).toNat :=
    fun k => he ▸ hpass.ticks hentry k
  have h1 : t 1 = e.stageTimersPlus 1 := hticks 1
  have h2 : t 2 = e.stageTimersPlus 2 := hticks 2
  have h3 : t 3 = e.stageTimersPlus 3 := hticks 3
  have h4 : t 4 = e.stageTimersPlus 4 := hticks 4
  have h5 : t 5 = e.stageTimersPlus 5 := hticks 5
  have h6 : t 6 = e.stageTimersPlus 6 + 1 := hticks 6
  have hstage1 : 1 ≤ e.stageTimersPlus 1 ∧ e.stageTimersPlus 1 ≤ 5 :=
    (hend.spent 1 (by decide) (by omega)).1
  have hstage2 : 12 ≤ e.stageTimersPlus 2 ∧ e.stageTimersPlus 2 ≤ ⌈e.dynamicGPlus⌉₊ :=
    hend.spent 2 (by decide) (by omega)
  have hstage3 : 23 ≤ e.stageTimersPlus 3 ∧ e.stageTimersPlus 3 ≤ ⌈e.dynamicGFPlus⌉₊ :=
    hend.spent 3 (by decide) (by omega)
  have hstage4 : e.stageTimersPlus 2 + e.stageTimersPlus 3 + e.stageTimersPlus 4 = 58 ∨
      e.stageTimersPlus 2 + e.stageTimersPlus 3 + e.stageTimersPlus 4 = 59 :=
    hend.spent 4 (by decide) (by omega)
  have hstage5 : e.stageTimersPlus 5 = 2 := hend.spent 5 (by decide) (by omega)
  have hsum : t 2 + t 3 + t 4 = 58 ∨ t 2 + t 3 + t 4 = 59 := by rw [h2, h3, h4]; exact hstage4
  refine ⟨⟨by omega, by omega, by omega, by omega, by omega, by omega⟩, hsum, ?_, ?_⟩
  · have hbudget : G + GF + R = (59 : ℕ) := by norm_num [G, GF, R]
    rw [hbudget, Nat.cast_le]
    omega
  · intro upTo m rest hbody s s'
    have hs : StageInv s := hentry.run upTo
    have hnext : StageInv s' := hs.tick m
    refine ⟨fun _ hto => (hnext.flow (by omega)).total, fun hcs => ?_, fun hcs => ?_,
      fun _ hto => ?_⟩
    · have hsplit := (hpass.split_upTo hentry hbody (by change 1 < s.csPlus; omega)).1
      rw [h2]
      exact hstage2.2.trans_eq (congrArg _ (he ▸ hsplit))
    · have hsplit := (hpass.split_upTo hentry hbody (by change 1 < s.csPlus; omega)).2
      rw [h3]
      exact hstage3.2.trans_eq (congrArg _ (he ▸ hsplit))
    · have hthen : body = (upTo ++ [m]) ++ rest := by simpa using hbody
      have hs' : run runPedestrianSignalControlPlus entry (upTo ++ [m]) = s' := run_concat ..
      have hgreen := hpass.ticks_upTo hentry hthen (k := 2) (by rw [hs', hto]; decide)
      have hflash := hpass.ticks_upTo hentry hthen (k := 3) (by rw [hs', hto]; decide)
      rw [← he, hs'] at hgreen hflash
      rw [h2, h3, hgreen, hflash, hnext.red_left (by omega)]
      norm_num

/-- With nobody at the crossing the pass takes its minimum of 63 ticks. -/
theorem cycle_time_budget_empty_crossing :
    let entry := { initVariablePlus TimerPlus.boot.control with directionFlagPlus := false }
    let body := List.replicate 62 fun _ _ => 0
    CompletedPass entry body (fun _ _ => 0) ∧
      (ticksIn 2 entry (body ++ [fun _ _ => 0]) + ticksIn 3 entry (body ++ [fun _ _ => 0]) +
        ticksIn 4 entry (body ++ [fun _ _ => 0]) = 58 ∨
      ticksIn 2 entry (body ++ [fun _ _ => 0]) + ticksIn 3 entry (body ++ [fun _ _ => 0]) +
        ticksIn 4 entry (body ++ [fun _ _ => 0]) = 59) := by
  have hpass : CompletedPass
      { initVariablePlus TimerPlus.boot.control with directionFlagPlus := false }
      (List.replicate 62 fun _ _ => 0) (fun _ _ => 0) := by
    refine ⟨rfl, rfl, ?_, ?_⟩
    · unfold SamePass
      decide +kernel
    · decide +kernel
  exact ⟨hpass, (cycle_time_budget TimerPlus.boot.control false [] _ _ hpass).2.1⟩

end AdaptiveSignal.Pedestrian
