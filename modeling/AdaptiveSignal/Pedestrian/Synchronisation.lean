import AdaptiveSignal.Pedestrian.StageOrder

/-! # Synchronisation of VIPS+ with the signal controller

Until it is synchronised the timer handler steps the controller and waits for
the start of a direction that follows the end of one. From there the algorithm
steps the controller once for every stage, so the two go round together as long
as the controller does not move by itself.
-/

namespace AdaptiveSignal.Pedestrian

open Foundation

namespace TickInput

variable (input : TickInput)

/-- The controller is at the last step of a direction. -/
def endsDirection : Bool :=
  (input.subPhaseId = 2 ∧ input.stepId = 5) ∨ (input.subPhaseId = 4 ∧ input.stepId = 5)

/-- The controller is at the first step of a direction. -/
def startsDirection : Bool :=
  (input.subPhaseId = 1 ∧ input.stepId = 1) ∨ (input.subPhaseId = 3 ∧ input.stepId = 1)

/-- The handler steps the controller on: neither the end of a direction nor a
phase or a step that the handler waits out. -/
def steppedOn : Bool :=
  !input.endsDirection && input.subPhaseId ≠ 1 && input.subPhaseId ≠ 3 && input.stepId ≠ 1

theorem not_endsDirection_of_startsDirection (h : input.startsDirection = true) :
    input.endsDirection = false := by
  simp only [startsDirection, decide_eq_true_eq] at h
  rcases h with ⟨hphase, hstep⟩ | ⟨hphase, hstep⟩ <;>
    · simp only [endsDirection, hphase, hstep]
      decide

theorem not_steppedOn_of_startsDirection (h : input.startsDirection = true) :
    input.steppedOn = false := by
  simp only [startsDirection, decide_eq_true_eq] at h
  rcases h with ⟨hphase, hstep⟩ | ⟨hphase, hstep⟩ <;> simp [steppedOn, hstep]

end TickInput

/-- A start of a direction comes after an end of one. -/
def Aligns (inputs : List TickInput) : Prop :=
  ∃ last first, [last, first].Sublist inputs ∧ last.endsDirection = true ∧
    first.startsDirection = true

theorem not_aligns_nil : ¬ Aligns [] := by
  rintro ⟨last, first, hsub, _⟩
  exact absurd hsub.length_le (by simp)

theorem aligns_concat (inputs : List TickInput) (input : TickInput) :
    Aligns (inputs ++ [input]) ↔ Aligns inputs ∨
      (inputs.any TickInput.endsDirection = true ∧ input.startsDirection = true) := by
  constructor
  · rintro ⟨last, first, hsub, hlast, hfirst⟩
    obtain ⟨front, back, heq, hfront, hback⟩ := List.sublist_append_iff.mp hsub
    rcases List.sublist_singleton.mp hback with rfl | rfl
    · rw [List.append_nil] at heq
      exact Or.inl ⟨last, first, heq ▸ hfront, hlast, hfirst⟩
    · have heq : [last] ++ [first] = front ++ [input] := heq
      obtain ⟨rfl, hsame⟩ := List.append_inj' heq rfl
      obtain rfl := List.singleton_inj.mp hsame
      refine Or.inr ⟨List.any_eq_true.mpr ⟨last, ?_, hlast⟩, hfirst⟩
      exact List.singleton_sublist.mp hfront
  · rintro (⟨last, first, hsub, hlast, hfirst⟩ | ⟨hany, hfirst⟩)
    · exact ⟨last, first, hsub.trans (List.sublist_append_left inputs [input]), hlast, hfirst⟩
    · obtain ⟨last, hmem, hlast⟩ := List.any_eq_true.mp hany
      exact ⟨last, input, (List.singleton_sublist.mpr hmem).append (List.Sublist.refl [input]),
        hlast, hfirst⟩

namespace TimerPlus

/-- What the handler sends to step the controller on. -/
def stepCommands : List ControllerTx :=
  [.tscSwitchStrategy, .tscSwitch, .sumoSwitchPhase, .tsc5F4C]

/-- The alignment block of a handler that is not synchronised. -/
theorem synchronize_eq {s : TimerPlus} (h : s.isSynchronized = false) (input : TickInput) :
    s.synchronize input =
      if s.readyToSend = true ∧ input.startsDirection = true then
        ({ s with
          control := { s.control with csPlus := 1, directionFlagPlus := !(input.subPhaseId = 1) }
          isSynchronized := true
          readyToSend := false }, [])
      else ({ s with readyToSend := s.readyToSend || input.endsDirection },
        if input.steppedOn then stepCommands else []) := by
  obtain ⟨control, synchronized, ready, flag, second, message⟩ := s
  change synchronized = false at h
  subst h
  simp only [synchronize, Bool.not_false, if_true]
  by_cases hstart : input.startsDirection = true
  · have hends := input.not_endsDirection_of_startsDirection hstart
    have hstepped := input.not_steppedOn_of_startsDirection hstart
    have hsteps : ¬ ((input.subPhaseId ≠ 1 ∧ input.stepId ≠ 1) ∧
        (input.subPhaseId ≠ 3 ∧ input.stepId ≠ 1)) := by
      simp only [TickInput.startsDirection, decide_eq_true_eq] at hstart
      rintro ⟨⟨hone, -⟩, hthree, -⟩
      exact hstart.elim (fun hfirst => hone hfirst.1) fun hsecond => hthree hsecond.1
    rw [hends, hstepped, hstart]
    simp only [TickInput.startsDirection, decide_eq_true_eq] at hstart
    simp only [TickInput.endsDirection, decide_eq_false_iff_not] at hends
    simp only [hends, hsteps, hstart, if_false, true_and, and_true, Bool.or_false,
      Bool.false_eq_true]
  · simp only [hstart, Bool.false_eq_true, and_false, if_false]
    simp only [TickInput.startsDirection, decide_eq_true_eq] at hstart
    simp only [hstart, false_and, if_false]
    by_cases hends : input.endsDirection = true
    · rw [hends]
      simp only [TickInput.steppedOn, hends, Bool.not_true, Bool.false_and, Bool.or_true]
      simp only [TickInput.endsDirection, decide_eq_true_eq] at hends
      simp only [hends, if_true, Bool.false_eq_true, if_false]
    · rw [Bool.not_eq_true] at hends
      simp only [TickInput.steppedOn, hends, Bool.not_false, Bool.true_and, Bool.or_false]
      simp only [TickInput.endsDirection, decide_eq_false_iff_not] at hends
      simp only [hends, if_false]
      split_ifs <;> simp_all [stepCommands]

section Tick

variable {s : TimerPlus} (input : TickInput)

theorem tick_synchronized (h : s.isSynchronized = true) : (s.tick input).isSynchronized = true := by
  simp only [tick, pedestrianPlusTimerHandler, synchronize, advance, initialise, h, Bool.not_true,
    Bool.false_eq_true, if_false]
  split_ifs <;> simp_all

theorem tick_aligning (h : s.isSynchronized = false)
    (hstart : s.readyToSend = true ∧ input.startsDirection = true) :
    (s.tick input).isSynchronized = true := by
  simp only [tick, pedestrianPlusTimerHandler, synchronize_eq h, if_pos hstart, advance, initialise]
  split_ifs <;> simp_all

theorem tick_waiting (h : s.isSynchronized = false)
    (hwait : ¬ (s.readyToSend = true ∧ input.startsDirection = true)) :
    (s.tick input).isSynchronized = false ∧
      (s.tick input).readyToSend = (s.readyToSend || input.endsDirection) ∧
      s.transmitted input = if input.steppedOn then stepCommands else [] := by
  simp only [tick, transmitted, pedestrianPlusTimerHandler, synchronize_eq h, if_neg hwait, advance,
    initialise]
  split_ifs <;> simp_all

theorem Waiting.tick_of_start (h : Waiting s)
    (hstart : s.readyToSend = true ∧ input.startsDirection = true) :
    pedestrianPlusTimerHandler s input =
      pedestrianPlusTimerHandler (s.synchronised !(input.subPhaseId = 1)) input := by
  refine (h.tick_cases input).resolve_left fun hwaiting => ?_
  have hflag := tick_aligning input h.synchronized hstart
  rw [hwaiting.synchronized] at hflag
  exact Bool.false_ne_true hflag

theorem Waiting.tick_of_wait (h : Waiting s)
    (hwait : ¬ (s.readyToSend = true ∧ input.startsDirection = true)) : Waiting (s.tick input) := by
  refine (h.tick_cases input).resolve_right fun heq => ?_
  have haligned := (Aligned.synchronised s !(input.subPhaseId = 1)).tick input
  rw [tick, ← heq, ← tick] at haligned
  have hflag := haligned.synchronized
  rw [(tick_waiting input h.synchronized hwait).1] at hflag
  exact Bool.false_ne_true hflag

end Tick

/-- A handler that has not found the start of a direction has noted whether it
saw an end of one, and sent nothing but what steps the controller on. -/
structure Searching (inputs : List TickInput) : Prop where
  waiting : Waiting (run tick boot inputs)
  ready : (run tick boot inputs).readyToSend = inputs.any TickInput.endsDirection
  sent : emitted tick transmitted boot inputs =
    (inputs.filter TickInput.steppedOn).flatMap fun _ => stepCommands

theorem Searching.nil : Searching [] := ⟨Waiting.boot, rfl, rfl⟩

theorem Searching.concat {inputs : List TickInput} (h : Searching inputs) (input : TickInput)
    (hwait : ¬ (inputs.any TickInput.endsDirection = true ∧ input.startsDirection = true)) :
    Searching (inputs ++ [input]) := by
  rw [← h.ready] at hwait
  obtain ⟨_, hready, hsent⟩ := tick_waiting input h.waiting.synchronized hwait
  refine ⟨?_, ?_, ?_⟩
  · rw [run_concat]
    exact h.waiting.tick_of_wait input hwait
  · rw [run_concat, hready, h.ready, List.any_append]
    simp
  · rw [emitted_concat, hsent, h.sent, List.filter_append, List.flatMap_append]
    cases hstepped : input.steppedOn <;> simp [hstepped]

/-- The handler searches until an input aligns it. -/
theorem searching_or_synchronized (inputs : List TickInput) :
    (¬ Aligns inputs ∧ Searching inputs) ∨
      (Aligns inputs ∧ (run tick boot inputs).isSynchronized = true) := by
  induction inputs using List.reverseRecOn with
  | nil => exact Or.inl ⟨not_aligns_nil, Searching.nil⟩
  | append_singleton inputs input ih =>
      rw [aligns_concat, run_concat]
      rcases ih with ⟨hnot, hsearching⟩ | ⟨haligns, hsynchronized⟩
      · by_cases hstart : inputs.any TickInput.endsDirection = true ∧ input.startsDirection = true
        · refine Or.inr ⟨Or.inr hstart, tick_aligning input hsearching.waiting.synchronized ?_⟩
          rwa [hsearching.ready]
        · exact Or.inl ⟨not_or.mpr ⟨hnot, hstart⟩, hsearching.concat input hstart⟩
      · exact Or.inr ⟨Or.inl haligns, tick_synchronized input hsynchronized⟩

theorem synchronized_iff (inputs : List TickInput) :
    (run tick boot inputs).isSynchronized = true ↔ Aligns inputs := by
  rcases searching_or_synchronized inputs with ⟨hnot, hsearching⟩ | ⟨haligns, hsynchronized⟩
  · simp [hsearching.waiting.synchronized, hnot]
  · simp [haligns, hsynchronized]

/-- The input that aligns the handler starts the algorithm in the direction whose
first step the controller is at. -/
theorem aligning_tick {before : List TickInput} {start : TickInput} (hbefore : ¬ Aligns before)
    (hstart : Aligns (before ++ [start])) :
    start.startsDirection = true ∧
      pedestrianPlusTimerHandler (run tick boot before) start =
        pedestrianPlusTimerHandler
          ((run tick boot before).synchronised !(start.subPhaseId = 1)) start := by
  rcases searching_or_synchronized before with ⟨_, hsearching⟩ | ⟨haligns, _⟩
  · obtain hnow | hnow := (aligns_concat before start).mp hstart
    · exact absurd hnow hbefore
    · rw [← hsearching.ready] at hnow
      exact ⟨hnow.2, hsearching.waiting.tick_of_start start hnow⟩
  · exact absurd haligns hbefore

/-- From the start of the program, over every sequence of controller states: the
handler is synchronised exactly when a start of a direction has followed an end
of one. Until then it has stepped the controller on once for every tick outside
the phases and steps it waits out. The first start that follows an end runs the
algorithm from its initial variables, in the direction the controller is at. -/
theorem synchronises_at_first_start (inputs : List TickInput) :
    ((run tick boot inputs).isSynchronized = true ↔ Aligns inputs) ∧
    (¬ Aligns inputs → emitted tick transmitted boot inputs =
      (inputs.filter TickInput.steppedOn).flatMap fun _ => stepCommands) ∧
    ∀ before start after, inputs = before ++ start :: after → ¬ Aligns before →
      Aligns (before ++ [start]) →
      let aligned := (run tick boot before).synchronised !(start.subPhaseId = 1)
      start.startsDirection = true ∧
      run tick boot inputs = run tick aligned (start :: after) ∧
      emitted tick transmitted boot inputs =
        ((before.filter TickInput.steppedOn).flatMap fun _ => stepCommands) ++
          emitted tick transmitted aligned (start :: after) := by
  have hsent : ∀ inputs, ¬ Aligns inputs → emitted tick transmitted boot inputs =
      (inputs.filter TickInput.steppedOn).flatMap fun _ => stepCommands := by
    intro inputs hnot
    rcases searching_or_synchronized inputs with ⟨_, hsearching⟩ | ⟨haligns, _⟩
    · exact hsearching.sent
    · exact absurd haligns hnot
  refine ⟨synchronized_iff inputs, hsent inputs, ?_⟩
  rintro before start after rfl hbefore hstart aligned
  obtain ⟨hstarts, heq⟩ := aligning_tick hbefore hstart
  refine ⟨hstarts, ?_, ?_⟩
  · rw [run_append, run_cons, run_cons, tick, heq]
    rfl
  · rw [emitted_append, hsent before hbefore]
    simp only [emitted, transmitted, tick, heq]
    rfl

end TimerPlus

/-! ## The controller in the loop

The controller is not part of the program. It runs round the steps of its plan,
one step for every switch command and further steps by itself.
-/

/-- The steps of the plan in order. A direction has six of them, and the first
one of each direction is where the algorithm may start. -/
structure ControllerPlan where
  position : ℕ → UInt8 × UInt8
  northSouth : ∀ place, position place = (1, 1) → place % 12 = 0
  eastWest : ∀ place, position place = (3, 1) → place % 12 = 6

/-- The place of a stage in the two directions of the plan. -/
def ControlPlus.planIndex (c : ControlPlus) : ℕ :=
  (if c.directionFlagPlus then 6 else 0) + (c.csPlus - 1)

/-- What the cameras show at a tick, and how many steps the controller takes by
itself before the next one. -/
structure LoopInput where
  matrixPlus : MatrixPlus
  expired : Fin 4 → Bool
  moves : ℕ

/-- The handler and the controller. `drift` counts the steps that the controller
has taken by itself since the handler was synchronised. -/
structure ClosedLoop where
  timer : TimerPlus
  place : ℕ
  drift : ℕ

namespace ClosedLoop

variable (plan : ControllerPlan)

def boot (place : ℕ) : ClosedLoop := ⟨TimerPlus.boot, place, 0⟩

def tickInput (loop : ClosedLoop) (input : LoopInput) : TickInput where
  subPhaseId := (plan.position loop.place).1
  stepId := (plan.position loop.place).2
  matrixPlus := input.matrixPlus
  expired := input.expired

def tick (loop : ClosedLoop) (input : LoopInput) : ClosedLoop :=
  let found := loop.tickInput plan input
  let timer := loop.timer.tick found
  { timer := timer
    place := loop.place + (loop.timer.transmitted found).count .tscSwitch + input.moves
    drift := if timer.isSynchronized then loop.drift + input.moves else 0 }

/-- The handler still searches, or the two are apart by the drift. -/
def InStep (loop : ClosedLoop) : Prop :=
  (loop.timer.Waiting ∧ loop.drift = 0) ∨
    (loop.timer.Aligned ∧ loop.place % 12 = (loop.timer.control.planIndex + loop.drift) % 12)

theorem planIndex_tick {s : TimerPlus} (h : s.Aligned) (input : TickInput) :
    (s.tick input).control.planIndex % 12 =
      (s.control.planIndex + (s.transmitted input).count .tscSwitch) % 12 := by
  have hcount := TimerPlus.count_tscSwitch h input
  have hbounds := h.stages.stage_bounds
  rw [hcount]
  rcases TimerPlus.Aligned.tick_cases h input with ⟨hmove, hsame⟩ | hswitched
  · rw [ControlPlus.planIndex, ControlPlus.planIndex, hsame]
    split_ifs <;> omega
  · -- the command that closes the ring takes the controller into the other direction
    have hfrom := hswitched.from_stage
    have hto := hswitched.fresh.1
    rw [ControlPlus.planIndex, ControlPlus.planIndex, hswitched.direction, hfrom, hto]
    cases s.control.directionFlagPlus <;> rfl

/-- The place where the handler aligns is the one of the stage it starts with. -/
theorem planIndex_synchronised (s : TimerPlus) {loop : ClosedLoop} {input : LoopInput}
    (hstart : (loop.tickInput plan input).startsDirection = true) :
    loop.place % 12 = (s.synchronised
      !((loop.tickInput plan input).subPhaseId = 1)).control.planIndex % 12 := by
  have hcases := of_decide_eq_true hstart
  rcases hcases with ⟨hphase, hstep⟩ | ⟨hphase, hstep⟩
  · rw [plan.northSouth loop.place (Prod.ext hphase hstep), hphase]
    rfl
  · rw [plan.eastWest loop.place (Prod.ext hphase hstep), hphase]
    rfl

theorem InStep.tick {loop : ClosedLoop} (h : loop.InStep) (input : LoopInput) :
    (loop.tick plan input).InStep := by
  have hmove : ∀ {s : TimerPlus}, s.Aligned →
      pedestrianPlusTimerHandler loop.timer (loop.tickInput plan input) =
        pedestrianPlusTimerHandler s (loop.tickInput plan input) →
      loop.place % 12 = (s.control.planIndex + loop.drift) % 12 →
      (loop.tick plan input).InStep := by
    intro s hs heq hplace
    have hindex := planIndex_tick hs (loop.tickInput plan input)
    have haligned := hs.tick (loop.tickInput plan input)
    rw [TimerPlus.tick, ← heq] at hindex haligned
    rw [TimerPlus.transmitted, ← heq] at hindex
    refine Or.inr ⟨haligned, ?_⟩
    have hsynchronized := haligned.synchronized
    simp only [ClosedLoop.tick, TimerPlus.tick, TimerPlus.transmitted, hsynchronized, if_true]
    omega
  rcases h with ⟨hwaiting, hdrift⟩ | ⟨haligned, hplace⟩
  · by_cases hstart : loop.timer.readyToSend = true ∧
        (loop.tickInput plan input).startsDirection = true
    · refine hmove (TimerPlus.Aligned.synchronised _ _) (hwaiting.tick_of_start _ hstart) ?_
      rw [hdrift]
      exact planIndex_synchronised plan loop.timer hstart.2
    · have hstill := hwaiting.tick_of_wait _ hstart
      refine Or.inl ⟨hstill, ?_⟩
      simp only [ClosedLoop.tick, hstill.synchronized, Bool.false_eq_true, if_false]
  · exact hmove haligned rfl hplace

/-- Left alone, the controller stays where the handler stops stepping it on, at
the end of a direction or before one is seen. -/
def Stuck (loop : ClosedLoop) : Prop :=
  loop.timer.isSynchronized = false ∧
    (loop.timer.readyToSend = true → ∀ input, (loop.tickInput plan input).endsDirection = true)

theorem Stuck.tick {loop : ClosedLoop} (h : loop.Stuck plan) {input : LoopInput}
    (hmoves : input.moves = 0) : (loop.tick plan input).Stuck plan := by
  obtain ⟨hflag, hends⟩ := h
  have hwait : ¬ (loop.timer.readyToSend = true ∧
      (loop.tickInput plan input).startsDirection = true) := by
    rintro ⟨hready, hstart⟩
    have hnot := TickInput.not_endsDirection_of_startsDirection _ hstart
    rw [hends hready input] at hnot
    exact Bool.false_ne_true hnot.symm
  obtain ⟨hflag', hready', hsent⟩ := TimerPlus.tick_waiting _ hflag hwait
  refine ⟨hflag', fun hready other => ?_⟩
  have hnow : (loop.tickInput plan input).endsDirection = true := by
    rcases Bool.or_eq_true_iff.mp (hready'.symm.trans hready) with hbefore | hnow
    · exact hends hbefore input
    · exact hnow
  -- at the end of a direction nothing is sent, so the controller is still there
  have hplace : (loop.tick plan input).place = loop.place := by
    simp only [ClosedLoop.tick, hsent, TickInput.steppedOn, hnow, hmoves]
    simp
  have hposition := of_decide_eq_true hnow
  refine decide_eq_true ?_
  simp only [tickInput, hplace] at hposition ⊢
  exact hposition

/-- Over every run from the start of the program, with any plan that has its
directions where the handler expects them: once synchronised, the controller is
as many steps ahead of the algorithm's stage as it has taken by itself since. It
is never synchronised unless the controller takes a step by itself. -/
theorem controller_in_step (place : ℕ) (inputs : List LoopInput) :
    let loop := run (tick plan) (boot place) inputs
    (loop.timer.isSynchronized = true →
      loop.place % 12 = (loop.timer.control.planIndex + loop.drift) % 12) ∧
    ((∀ input ∈ inputs, input.moves = 0) → loop.timer.isSynchronized = false) := by
  intro loop
  have hstep : loop.InStep :=
    run_invariant (tick plan) (fun _ input h => h.tick plan input) _ inputs
      (Or.inl ⟨TimerPlus.Waiting.boot, rfl⟩)
  refine ⟨fun hsynchronized => ?_, fun hmoves => ?_⟩
  · rcases hstep with ⟨hwaiting, _⟩ | ⟨_, hplace⟩
    · exact absurd hsynchronized (by rw [hwaiting.synchronized]; decide)
    · exact hplace
  · have hstuck : loop.Stuck plan :=
      run_invariant_of_mem (tick plan) (Stuck plan) inputs ⟨rfl, fun hready => nomatch hready⟩
        fun _ input hinput h => h.tick plan (hmoves input hinput)
    exact hstuck.1

/-- The plan the stages are made for: one step of pedestrian early start, then
five steps, for either direction. -/
def earlyStartPlan : ControllerPlan where
  position place :=
    let direction := place % 12 / 6
    let step := place % 6
    if step = 0 then (UInt8.ofNat (2 * direction + 1), 1)
    else (UInt8.ofNat (2 * direction + 2), UInt8.ofNat step)
  northSouth place h := by
    have hlt := Nat.mod_lt place (by decide : 0 < 12)
    rw [← Nat.mod_mod_of_dvd place (by decide : 6 ∣ 12)] at h
    revert h
    generalize place % 12 = rest at hlt
    revert rest
    decide
  eastWest place h := by
    have hlt := Nat.mod_lt place (by decide : 0 < 12)
    rw [← Nat.mod_mod_of_dvd place (by decide : 6 ∣ 12)] at h
    revert h
    generalize place % 12 = rest at hlt
    revert rest
    decide

/-- From the end of the first direction the controller moves on by itself and the
algorithm starts in the second one. -/
theorem controller_in_step_second_direction :
    let empty : LoopInput := ⟨fun _ _ => 0, fun _ => false, 0⟩
    let loop := run (tick earlyStartPlan) (boot 5) [{ empty with moves := 1 }, empty]
    loop.timer.isSynchronized = true ∧
      loop.place % 12 = (loop.timer.control.planIndex + loop.drift) % 12 := by
  intro empty loop
  have hsynchronized : loop.timer.isSynchronized = true := by decide
  exact ⟨hsynchronized, (controller_in_step earlyStartPlan 5 _).1 hsynchronized⟩

end ClosedLoop

end AdaptiveSignal.Pedestrian
