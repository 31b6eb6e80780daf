import AdaptiveSignal.Configuration.ChangeStrategy
import AdaptiveSignal.Foundation.BinaryFormat
import AdaptiveSignal.Foundation.Run

/-! # Runs of strategy commands

A command from the cloud is checked part by part, and each part that is right is put in force at
once. The error bit of the weights is set and cleared on the way, and the file is written at the
end.
-/

namespace AdaptiveSignal.Configuration

open Foundation

variable {single : SingleFormat} {double : DoubleFormat}

structure StrategyState (single : SingleFormat) (double : DoubleFormat) where
  config : Config single double
  /-- The content of `config/config.txt`. -/
  file : List Char
  /-- `CLOUD_PACKET_CHANGE_STRATEGY_2_PHASE_WEIGHT_ERR`. -/
  phaseWeightErr : Bool
  /-- A file that could not be opened has been closed. -/
  crashed : Bool

/-- A command, and whether the file can be opened then. -/
structure StrategyRequest where
  command : Command
  opened : Bool

namespace StrategyState

/-- The program before the first command. -/
def start (config : Config single double) (file : List Char) (phaseWeightErr : Bool) :
    StrategyState single double where
  config := config
  file := file
  phaseWeightErr := phaseWeightErr
  crashed := false

/-- `case 8` of `TSP_on_cloud_packet_rx` and `case 1` of `MMP_on_cloud_packet_rx`. -/
def step (s : StrategyState single double) (request : StrategyRequest) :
    StrategyState single double :=
  if s.crashed then s
  else
    let (config, written) := changeStrategy request.command s.config
    let phaseWeightErr :=
      if request.command.strategy = 2 then decide (request.command.totalWeight ≠ 100)
      else s.phaseWeightErr
    match written with
    | none => { s with config := config, phaseWeightErr := phaseWeightErr }
    -- the bit is cleared again before the file is written
    | some text =>
        if request.opened then ⟨config, text, false, false⟩ else ⟨config, s.file, false, true⟩

end StrategyState

/-! ## All or nothing -/

/-- Every part of the command is right. -/
def Command.Valid (command : Command) : Prop :=
  command.strategy < 4 ∧ (0 < command.cycleNumber ∧ command.cycleNumber < 3) ∧
    (command.strategy = 2 → command.totalWeight = 100)

instance (command : Command) : Decidable command.Valid :=
  inferInstanceAs (Decidable (_ ∧ _ ∧ (_ → _)))

/-- The configuration with all parts of the command. -/
def Command.inForce (command : Command) (config : Config single double) : Config single double :=
  { config with
    trafficCompensationMethod := command.strategy
    trafficCompensationCycleNumber := command.cycleNumber
    phaseWeight := if command.strategy = 2 then
        fun i => Amount.ofUint8 single (command.phaseWeight i)
      else config.phaseWeight }

namespace StrategyState

/-- A command that is not valid changes nothing, a valid one is in force and in the file, and the
bit tells of the weights. -/
structure AllOrNothing (s : StrategyState single double) (request : StrategyRequest) : Prop where
  alive : (s.step request).crashed = false
  invalid : ¬ request.command.Valid →
    (s.step request).config = s.config ∧ (s.step request).file = s.file
  valid : request.command.Valid →
    (s.step request).config = request.command.inForce s.config ∧
      (s.step request).file = (configLines (request.command.inForce s.config)).flatten
  error : request.command.strategy = 2 →
    ((s.step request).phaseWeightErr = true ↔ request.command.totalWeight ≠ 100)

/-- Of the weights and the number of cycles both are right or neither is, unless only the weights
are right and they are in force already. A valid command finds a file that can be opened. -/
structure Consistent (s : StrategyState single double) (request : StrategyRequest) : Prop where
  parts : request.command.strategy = 2 →
    (request.command.totalWeight = 100 ↔
      0 < request.command.cycleNumber ∧ request.command.cycleNumber < 3) ∨
    request.command.totalWeight = 100 ∧
      (fun i => Amount.ofUint8 single (request.command.phaseWeight i)) = s.config.phaseWeight
  opened : request.command.Valid → request.opened = true

section Step

variable {s : StrategyState single double} {request : StrategyRequest}

theorem accepted_iff (command : Command) :
    command.accepted = true ↔
      command.strategy < 4 ∧ 0 < command.cycleNumber ∧ command.cycleNumber < 3 := by
  simp [Command.accepted, and_assoc]

theorem setsWeights_iff (command : Command) :
    command.setsWeights = true ↔ command.strategy = 2 ∧ command.totalWeight = 100 := by
  simp [Command.setsWeights]

/-- A valid command is taken as a whole. -/
theorem step_of_valid (halive : s.crashed = false) (hvalid : request.command.Valid) :
    s.step request =
      if request.opened then ⟨request.command.inForce s.config,
        (configLines (request.command.inForce s.config)).flatten, false, false⟩
      else ⟨request.command.inForce s.config, s.file, false, true⟩ := by
  obtain ⟨hstrategy, hcycle, hweights⟩ := hvalid
  have haccepted : request.command.accepted = true :=
    (accepted_iff _).mpr ⟨hstrategy, hcycle⟩
  have hchange : changeStrategy request.command s.config =
      (request.command.inForce s.config,
        some (configLines (request.command.inForce s.config)).flatten) := by
    have hconfig :
        (changeStrategy request.command s.config).1 = request.command.inForce s.config := by
      rw [changeStrategy, if_pos haccepted, Command.inForce]
      by_cases htwo : request.command.strategy = 2
      · rw [if_pos ((setsWeights_iff _).mpr ⟨htwo, hweights htwo⟩), if_pos htwo]
      · rw [if_neg fun h => htwo ((setsWeights_iff _).mp h).1, if_neg htwo]
    rw [← hconfig, changeStrategy, if_pos haccepted]
  rw [step, halive, hchange]
  rfl

/-- Without an accepted command at most the weights change, if they are right. -/
theorem step_of_not_accepted (halive : s.crashed = false)
    (haccepted : request.command.accepted = false) :
    s.step request = { s with
      config := if request.command.setsWeights then
          { s.config with
            phaseWeight := fun i => Amount.ofUint8 single (request.command.phaseWeight i) }
        else s.config
      phaseWeightErr := if request.command.strategy = 2 then
          decide (request.command.totalWeight ≠ 100) else s.phaseWeightErr } := by
  simp only [step, halive, changeStrategy, haccepted, Bool.false_eq_true, if_false]

/-- An accepted command clears the bit. -/
theorem step_of_accepted (halive : s.crashed = false)
    (haccepted : request.command.accepted = true) : (s.step request).phaseWeightErr = false := by
  simp only [step, halive, changeStrategy, haccepted, Bool.false_eq_true, if_false, if_true]
  split_ifs <;> rfl

theorem setWeights_eq_iff {config : Config single double}
    {weight : Fin phaseCountMaxNum → Amount single} :
    { config with phaseWeight := weight } = config ↔ weight = config.phaseWeight := by
  constructor
  · exact congrArg Config.phaseWeight
  · rintro rfl
    rfl

/-- A valid command only needs the file. -/
theorem allOrNothing_iff_of_valid (halive : s.crashed = false) (hvalid : request.command.Valid) :
    s.AllOrNothing request ↔ s.Consistent request := by
  have hstep := step_of_valid halive hvalid
  constructor
  · intro hall
    refine ⟨fun htwo => Or.inl (iff_of_true (hvalid.2.2 htwo) hvalid.2.1), fun _ => ?_⟩
    by_contra hclosed
    have hcrashed := hall.alive
    rw [hstep, if_neg hclosed] at hcrashed
    cases hcrashed
  · intro hconsistent
    rw [if_pos (hconsistent.opened hvalid)] at hstep
    refine ⟨by rw [hstep], fun h => absurd hvalid h, fun _ => by rw [hstep]; exact ⟨rfl, rfl⟩,
      fun htwo => ?_⟩
    rw [hstep]
    exact iff_of_false Bool.false_ne_true fun h => h (hvalid.2.2 htwo)

/-- An accepted command that is not valid has wrong weights, and it is not taken as it should. -/
theorem not_allOrNothing_of_accepted (halive : s.crashed = false)
    (haccepted : request.command.accepted = true) (hvalid : ¬ request.command.Valid) :
    ¬ s.AllOrNothing request ∧ ¬ s.Consistent request := by
  obtain ⟨hstrategy, hcycle⟩ := (accepted_iff _).mp haccepted
  obtain ⟨htwo, hweights⟩ : request.command.strategy = 2 ∧ request.command.totalWeight ≠ 100 :=
    Classical.not_imp.mp (mt (fun h => ⟨hstrategy, hcycle, h⟩) hvalid)
  constructor
  · intro hall
    have hbit := (hall.error htwo).mpr hweights
    rw [step_of_accepted halive haccepted] at hbit
    cases hbit
  · intro hconsistent
    rcases hconsistent.parts htwo with hiff | ⟨htotal, -⟩
    · exact hweights (hiff.mpr hcycle)
    · exact hweights htotal

/-- The number of cycles or the strategy is wrong, and the weights may be in force all the same. -/
theorem allOrNothing_iff_of_not_accepted (halive : s.crashed = false)
    (haccepted : request.command.accepted = false) (hvalid : ¬ request.command.Valid) :
    s.AllOrNothing request ↔ s.Consistent request := by
  have hstep := step_of_not_accepted halive haccepted
  have hcycle (htwo : request.command.strategy = 2) :
      ¬ (0 < request.command.cycleNumber ∧ request.command.cycleNumber < 3) := by
    intro h
    have haccept : request.command.accepted = true :=
      (accepted_iff _).mpr ⟨by rw [htwo]; decide, h⟩
    rw [haccepted] at haccept
    cases haccept
  constructor
  · intro hall
    refine ⟨fun htwo => ?_, fun h => absurd h hvalid⟩
    by_cases htotal : request.command.totalWeight = 100
    · have hconfig := (hall.invalid hvalid).1
      rw [hstep] at hconfig
      dsimp only at hconfig
      rw [if_pos ((setsWeights_iff _).mpr ⟨htwo, htotal⟩)] at hconfig
      exact Or.inr ⟨htotal, setWeights_eq_iff.mp hconfig⟩
    · exact Or.inl (iff_of_false htotal (hcycle htwo))
  · intro hconsistent
    refine ⟨by rw [hstep]; exact halive, fun _ => ⟨?_, by rw [hstep]⟩, fun h => absurd h hvalid,
      fun htwo => ?_⟩
    · rw [hstep]
      dsimp only
      split_ifs with hsets
      · obtain ⟨htwo, htotal⟩ := (setsWeights_iff _).mp hsets
        rcases hconsistent.parts htwo with hiff | ⟨-, hsame⟩
        · exact absurd (hiff.mp htotal) (hcycle htwo)
        · exact setWeights_eq_iff.mpr hsame
      · rfl
    · rw [hstep]
      dsimp only
      rw [if_pos htwo, decide_eq_true_eq]

theorem allOrNothing_iff (halive : s.crashed = false) :
    s.AllOrNothing request ↔ s.Consistent request := by
  by_cases hvalid : request.command.Valid
  · exact allOrNothing_iff_of_valid halive hvalid
  · cases haccepted : request.command.accepted with
    | true =>
        obtain ⟨hall, hconsistent⟩ := not_allOrNothing_of_accepted halive haccepted hvalid
        exact iff_of_false hall hconsistent
    | false => exact allOrNothing_iff_of_not_accepted halive haccepted hvalid

end Step

/-- In every run of commands, each is taken as a whole or not at all exactly if each is consistent
and a valid one finds the file. -/
theorem strategies_allOrNothing_iff (config : Config single double) (file : List Char)
    (phaseWeightErr : Bool) (requests : List StrategyRequest) :
    Guarded step AllOrNothing (start config file phaseWeightErr) requests ↔
      Guarded step Consistent (start config file phaseWeightErr) requests :=
  @guarded_congr_of_invariant _ _ step Consistent AllOrNothing (fun s => s.crashed = false)
    (fun _ _ halive h => ((allOrNothing_iff halive).mpr h).alive)
    (fun _ _ halive => allOrNothing_iff halive) _ _ rfl

/-- Weights of 100 with three cycles are taken, and weights of 0 with one cycle clear the bit. -/
theorem strategy_half_taken :
    let s : StrategyState binary32 binary64 := start Config.initial [] false
    ¬ s.AllOrNothing ⟨⟨2, 3, ![100, 0, 0, 0, 0, 0, 0, 0]⟩, true⟩ ∧
      ¬ s.AllOrNothing ⟨⟨2, 1, fun _ => 0⟩, true⟩ := by
  intro s
  refine ⟨fun hall => ?_, fun hall => ?_⟩
  · have hconfig := (hall.invalid (by decide)).1
    rw [step_of_not_accepted rfl (by decide)] at hconfig
    have hweight := congrArg (fun config => binary32.toRat (config.phaseWeight 0).1) hconfig
    change binary32.toRat (binary32.nearest (100 : UInt8).toNat) =
      binary32.toRat (binary32.nearest (0 : UInt8).toNat) at hweight
    rw [binary32.nearest_byte (by decide), binary32.nearest_byte (by decide)] at hweight
    exact absurd hweight (by decide)
  · have hbit := (hall.error rfl).mpr (by decide)
    rw [step_of_accepted rfl (by decide)] at hbit
    cases hbit

end StrategyState

end AdaptiveSignal.Configuration
