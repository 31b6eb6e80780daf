import AdaptiveSignal.Foundation.Run
import AdaptiveSignal.Pedestrian.StageTick
import Mathlib.Data.List.Induction
import Mathlib.Tactic.SplitIfs

/-! # Stage order and switch accounting of VIPS+

The timer handler runs the stage machine from the state its alignment block
sets up. The stages follow each other in the ring of six, the direction flips
where the ring closes, and the hardware is switched once for every move.
-/

namespace AdaptiveSignal.Pedestrian

open Foundation

/-- A tick leaves the stage alone, starts its successor, or closes the ring. -/
def StageMove (stage stage' : ℕ) : Prop :=
  stage' = stage ∨ (stage' = stage + 1 ∧ stage' ≤ 6) ∨ (stage = 6 ∧ stage' = 1)

namespace TimerPlus

/-- The state in which the alignment block leaves an initialised handler. -/
def synchronised (s : TimerPlus) (direction : Bool) : TimerPlus :=
  { s with
    control := { initVariablePlus s.control with directionFlagPlus := direction }
    isSynchronized := true
    readyToSend := false
    timeFlagPlus := true }

def tick (s : TimerPlus) (input : TickInput) : TimerPlus :=
  (pedestrianPlusTimerHandler s input).1

def transmitted (s : TimerPlus) (input : TickInput) : List ControllerTx :=
  (pedestrianPlusTimerHandler s input).2

def flips (s : TimerPlus) (input : TickInput) : Bool :=
  (s.tick input).control.directionFlagPlus != s.control.directionFlagPlus

/-- The handler after alignment: it no longer searches for the start of a cycle
and its stage machine keeps the timer invariant. -/
structure Aligned (s : TimerPlus) : Prop where
  synchronized : s.isSynchronized = true
  initialised : s.timeFlagPlus = true
  stages : StageInv s.control

theorem Aligned.synchronised (s : TimerPlus) (direction : Bool) :
    Aligned (s.synchronised direction) :=
  ⟨rfl, rfl, StageInv.init s.control direction⟩

section Step

variable {s : TimerPlus} (input : TickInput)

theorem Aligned.handler (h : Aligned s) :
    pedestrianPlusTimerHandler s input = s.initialise.advance input (input.matrixRead true) := by
  simp only [pedestrianPlusTimerHandler, synchronize, h.synchronized, h.initialised,
    Bool.not_true, Bool.false_eq_true, if_false, List.nil_append]

theorem Aligned.tick_control (h : Aligned s) :
    (s.tick input).control = runPedestrianSignalControlPlus s.control (input.matrixRead true) := by
  simp only [tick, h.handler, advance, initialise, h.synchronized, h.initialised,
    Bool.not_true, Bool.false_eq_true, if_false, if_true]

theorem Aligned.transmitted (h : Aligned s) :
    s.transmitted input =
      if s.control.csPlus ≠ (s.tick input).control.csPlus then
        [.tscSwitchStrategy, .tscSwitch, .tsc5F4C]
      else [] := by
  rw [h.tick_control]
  simp only [TimerPlus.transmitted, h.handler, advance, initialise, h.synchronized, h.initialised,
    Bool.not_true, Bool.false_eq_true, if_false, if_true]

theorem Aligned.tick (h : Aligned s) : Aligned (s.tick input) := by
  refine ⟨?_, ?_, ?_⟩
  · simp only [TimerPlus.tick, h.handler, advance, initialise, h.synchronized, h.initialised,
      Bool.not_true, Bool.false_eq_true, if_false, if_true]
  · simp only [TimerPlus.tick, h.handler, advance, initialise, h.synchronized, h.initialised,
      Bool.not_true, Bool.false_eq_true, if_false, if_true]
  · rw [h.tick_control]
    exact h.stages.tick _

theorem Aligned.run (h : Aligned s) (inputs : List TickInput) :
    Aligned (Foundation.run TimerPlus.tick s inputs) :=
  run_invariant TimerPlus.tick (fun _ input hs => hs.tick input) s inputs h

end Step

/-- All that one tick of an aligned handler does to stage and direction. -/
theorem Aligned.tick_cases {s : TimerPlus} (h : Aligned s) (input : TickInput) :
    (((s.tick input).control.csPlus = s.control.csPlus ∨
        ((s.tick input).control.csPlus = s.control.csPlus + 1 ∧
          (s.tick input).control.csPlus ≤ 6)) ∧
      (s.tick input).control.directionFlagPlus = s.control.directionFlagPlus) ∨
    Switched (calculateMaxPedPlus (input.matrixRead true)) s.control (s.tick input).control := by
  rw [h.tick_control]
  rcases run_cases h.stages (input.matrixRead true) with
    ⟨k, _, ⟨hticked, _, hmove⟩, hlast⟩ | hswitched
  · exact Or.inl ⟨hmove.imp_right fun hnext => ⟨hnext, hlast⟩, hticked.direction⟩
  · exact Or.inr hswitched

theorem count_tscSwitch {s : TimerPlus} (h : Aligned s) (input : TickInput) :
    (s.transmitted input).count .tscSwitch =
      if s.control.csPlus ≠ (s.tick input).control.csPlus then 1 else 0 := by
  rw [h.transmitted]
  split_ifs <;> rfl

/-- Every move of the ring is switched once: a lap costs six commands. -/
theorem switches_accounted {s : TimerPlus} (h : Aligned s) (hstart : s.control.csPlus = 1)
    (inputs : List TickInput) :
    (emitted tick transmitted s inputs).count .tscSwitch + 1 =
      6 * tally tick flips s inputs + (run tick s inputs).control.csPlus := by
  induction inputs using List.reverseRecOn with
  | nil => simp [hstart]
  | append_singleton inputs last ih =>
    have haligned := h.run inputs
    have hcount := count_tscSwitch haligned last
    have hbounds := haligned.stages.stage_bounds
    rw [emitted_concat, tally_concat, run_concat, List.count_append, hcount]
    rcases Aligned.tick_cases haligned last with ⟨hmove, hsame⟩ | hswitched
    · -- a move within the lap is one command more and one stage further
      have hflip : flips (run tick s inputs) last = false := by simp [flips, hsame]
      rw [hflip, Bool.toNat_false]
      split_ifs with hchanged <;> omega
    · -- the sixth command of a lap goes with the flip
      have hfrom := hswitched.from_stage
      have hto := hswitched.fresh.1
      have hflip : flips (run tick s inputs) last = true := by
        simp [flips, hswitched.direction]
      rw [hflip, Bool.toNat_true, hto, hfrom, if_pos (by decide)]
      omega

/-- Over every run of ticks after alignment, the stages move round the ring of
six, the direction flips exactly where the ring closes and only after the
all-red clearance, a flip leaves the state the run started from, and the switch
commands are six for every flip and one for every stage of the lap begun. -/
theorem stage_order_and_switch_accounting (s : TimerPlus) (direction : Bool)
    (inputs : List TickInput) (input : TickInput) :
    let start := s.synchronised direction
    let reached := run tick start inputs
    let c := reached.control
    let c' := (reached.tick input).control
    start.control.urPlus = 124 / 5 ∧
    StageMove c.csPlus c'.csPlus ∧
    (c'.directionFlagPlus ≠ c.directionFlagPlus ↔ c.csPlus = 6 ∧ c'.csPlus = 1) ∧
    (c'.directionFlagPlus ≠ c.directionFlagPlus →
      (c'.stageTimersPlus = fun _ => 0) ∧ c'.urPlus = start.control.urPlus ∧
      2 ≤ c.stageTimersPlus 6 + 1 ∧
      (calculateMaxPedPlus (input.matrixRead true) = 0 ∨
        (c.lrPlus + c.erPlus = 17 / 2 ∧ c.lrPlus + c.erPlus ≤ (c.stageTimersPlus 6 + 1 : ℕ) ∧
          c.stageTimersPlus 6 + 1 = 9))) ∧
    (emitted tick transmitted start inputs).count .tscSwitch =
      6 * tally tick flips start inputs + (c.csPlus - 1) := by
  intro start reached c c'
  have hstart : Aligned start := Aligned.synchronised s direction
  have hreached : Aligned reached := hstart.run inputs
  have hbounds : 1 ≤ c.csPlus ∧ c.csPlus ≤ 6 := hreached.stages.stage_bounds
  have hur : start.control.urPlus = 124 / 5 := init_urPlus s.control
  have hcount : _ + 1 = 6 * _ + c.csPlus := switches_accounted hstart rfl inputs
  have hlr : c.lrPlus = 2 := hreached.stages.limits.lr
  have her : c.erPlus = 13 / 2 := hreached.stages.limits.er
  refine ⟨hur, ?_, ?_, ?_, by omega⟩
  all_goals rcases Aligned.tick_cases hreached input with ⟨hmove, hsame⟩ | hswitched
  · exact hmove.imp_right Or.inl
  · exact Or.inr (Or.inr ⟨hswitched.from_stage, hswitched.fresh.1⟩)
  · constructor
    · exact fun hflip => absurd hsame hflip
    · rintro ⟨hfrom, hto⟩
      change c'.csPlus = c.csPlus ∨ c'.csPlus = c.csPlus + 1 ∧ c'.csPlus ≤ 6 at hmove
      omega
  · refine ⟨fun _ => ⟨hswitched.from_stage, hswitched.fresh.1⟩, fun _ => ?_⟩
    have hdirection : c'.directionFlagPlus = !c.directionFlagPlus := hswitched.direction
    rw [hdirection]
    exact Bool.not_ne_self _
  · exact fun hflip => absurd hsame hflip
  · intro _
    have hcleared : 2 ≤ c.stageTimersPlus 6 + 1 := hswitched.cleared
    have hempty : calculateMaxPedPlus (input.matrixRead true) = 0 ∨
        c.stageTimersPlus 6 + 1 = 9 := hswitched.empty
    refine ⟨hswitched.fresh.2.1, hswitched.fresh.2.2.trans hur.symm, hcleared,
      hempty.imp_right fun hlast => ⟨?_, ?_, hlast⟩⟩
    · rw [hlr, her]; norm_num
    · rw [hlr, her, hlast]; norm_num

/-! ## The synchronised state is the one the program reaches -/

/-- Before alignment the handler has not run the algorithm: once the first tick
is over, its variables are the initial ones. -/
structure Waiting (s : TimerPlus) : Prop where
  synchronized : s.isSynchronized = false
  control : (s.timeFlagPlus = false ∧ s.readyToSend = false) ∨
    (s.timeFlagPlus = true ∧ ∃ c, s.control = initVariablePlus c)

theorem initVariablePlus_idem (c : ControlPlus) :
    initVariablePlus (initVariablePlus c) = initVariablePlus c := rfl

theorem Waiting.boot : Waiting TimerPlus.boot := ⟨rfl, Or.inl ⟨rfl, rfl⟩⟩

/-- The alignment block before synchronisation: it starts the algorithm at a
step 1 of phase 1 or 3, and then it transmits nothing. -/
theorem synchronize_cases {s : TimerPlus} (h : s.isSynchronized = false) (input : TickInput) :
    (∃ ready, (s.synchronize input).1 = { s with readyToSend := ready }) ∨
      (s.readyToSend = true ∧
        s.synchronize input =
          ({ s with
            control := { s.control with csPlus := 1, directionFlagPlus := !(input.subPhaseId = 1) }
            isSynchronized := true
            readyToSend := false }, [])) := by
  obtain ⟨control, synchronized, ready, flag, second, message⟩ := s
  change synchronized = false at h
  subst h
  simp only [synchronize, Bool.not_false, if_true]
  by_cases hstart : (input.subPhaseId = 1 ∧ input.stepId = 1) ∨
      (input.subPhaseId = 3 ∧ input.stepId = 1)
  · have hends : ¬ ((input.subPhaseId = 2 ∧ input.stepId = 5) ∨
        (input.subPhaseId = 4 ∧ input.stepId = 5)) := by
      rcases hstart with ⟨hphase, hstep⟩ | ⟨hphase, hstep⟩ <;> rw [hphase, hstep] <;> decide
    have hsteps : ¬ ((input.subPhaseId ≠ 1 ∧ input.stepId ≠ 1) ∧
        (input.subPhaseId ≠ 3 ∧ input.stepId ≠ 1)) := by
      rcases hstart with ⟨hphase, hstep⟩ | ⟨hphase, hstep⟩ <;> rw [hphase, hstep] <;> decide
    simp only [hends, hsteps, hstart, if_false, true_and]
    cases ready with
    | false => exact Or.inl ⟨false, rfl⟩
    | true => exact Or.inr ⟨rfl, rfl⟩
  · simp only [hstart, false_and, if_false]
    split_ifs
    · exact Or.inl ⟨true, rfl⟩
    · exact Or.inl ⟨ready, rfl⟩
    · exact Or.inl ⟨ready, rfl⟩

/-- The tick that aligns the handler is a tick from the synchronised state; a
tick that does not leaves it waiting. -/
theorem Waiting.tick_cases {s : TimerPlus} (h : Waiting s) (input : TickInput) :
    Waiting (s.tick input) ∨
      pedestrianPlusTimerHandler s input =
        pedestrianPlusTimerHandler (s.synchronised !(input.subPhaseId = 1)) input := by
  rcases synchronize_cases h.synchronized input with ⟨ready, heq⟩ | ⟨hready, heq⟩
  · refine Or.inl ⟨?_, Or.inr ?_⟩
    · simp only [tick, pedestrianPlusTimerHandler, heq, advance, initialise]
      split_ifs <;> simp_all [h.synchronized]
    · rcases h.control with ⟨hflag, _⟩ | ⟨hflag, c, hc⟩
      · simp only [tick, pedestrianPlusTimerHandler, heq, advance, initialise, hflag,
          h.synchronized, Bool.not_false, Bool.false_eq_true, if_true, if_false, true_and]
        exact ⟨s.control, rfl⟩
      · simp only [tick, pedestrianPlusTimerHandler, heq, advance, initialise, hflag,
          h.synchronized, Bool.not_true, Bool.false_eq_true, if_false, true_and]
        exact ⟨c, hc⟩
  · rcases h.control with ⟨_, hidle⟩ | ⟨hflag, c, hc⟩
    · exact absurd hready (by rw [hidle]; decide)
    · right
      rw [(Aligned.synchronised s _).handler]
      simp only [pedestrianPlusTimerHandler, heq, List.nil_append, hflag]
      simp only [TimerPlus.synchronised, hc, initVariablePlus_idem]
      rfl

end TimerPlus

end AdaptiveSignal.Pedestrian
