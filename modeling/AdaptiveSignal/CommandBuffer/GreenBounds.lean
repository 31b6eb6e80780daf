import AdaptiveSignal.CommandBuffer.Insert
import Mathlib.Order.Lattice
import Mathlib.Data.Int.Order.Basic

/-! # The green bounds of what the buffer stores

The two clamps bring a request between the green bounds of its phase without
leaving 16 bits. The slot has 8: what it stores is the clamped request exactly
when request or bound fits a byte.
-/

namespace AdaptiveSignal.Signal

/-- The bounds of a plan: they are ordered, and the pedestrian seconds fit below
the upper one. -/
structure BoundedPlan (plan : StaticPlan) : Prop where
  ordered : plan.minGreen.toNat ≤ plan.maxGreen.toNat
  pedestrians : plan.pedGreen ≤ plan.maxGreen.toNat

/-- The request brought into the range whose sum with the pedestrian seconds
keeps the green bounds. -/
def clampedRequest (plan : StaticPlan) (effectTime : Int) : Int :=
  max (plan.minGreen.toNat - plan.pedGreen) (min effectTime (plan.maxGreen.toNat - plan.pedGreen))

/-- The two clamps as the source makes them, without a limit on the numbers. -/
def greenClamp (plan : StaticPlan) (effectTime : Int) : Int :=
  let raised :=
    if effectTime + plan.pedGreen < plan.minGreen.toNat then plan.minGreen.toNat - plan.pedGreen
    else effectTime
  if plan.maxGreen.toNat < raised + plan.pedGreen then plan.maxGreen.toNat - plan.pedGreen
  else raised

section Clamp

variable {plan : StaticPlan}

theorem pedGreen_bounds (plan : StaticPlan) : 0 ≤ plan.pedGreen ∧ plan.pedGreen ≤ 510 := by
  have hflash := plan.pedGreenFlash.toNat_lt
  have hred := plan.pedRed.toNat_lt
  unfold StaticPlan.pedGreen
  omega

/-- Neither clamp leaves the 16 bits of the request. -/
theorem clampEffectTime_eq_greenClamp (plan : StaticPlan) {effectTime : Int16}
    (hvalid : 0 ≤ effectTime.toInt) :
    (clampEffectTime plan effectTime).toInt = greenClamp plan effectTime.toInt := by
  have hrange := pedGreen_bounds plan
  have hmin := plan.minGreen.toNat_lt
  have hlarge := effectTime.toInt_lt
  unfold clampEffectTime greenClamp
  by_cases hlow : effectTime.toInt + plan.pedGreen < plan.minGreen.toNat
  · have hraised : (Int16.ofInt (plan.minGreen.toNat - plan.pedGreen)).toInt =
        plan.minGreen.toNat - plan.pedGreen :=
      Int16.toInt_ofInt_of_le (by omega) (by omega)
    simp only [hlow, if_true, hraised]
    split_ifs with hhigh
    · exact Int16.toInt_ofInt_of_le (by omega) (by omega)
    · exact hraised
  · simp only [hlow, if_false]
    split_ifs with hhigh
    · exact Int16.toInt_ofInt_of_le (by omega) (by omega)
    · rfl

/-- With ordered bounds the order of the clamps does not matter. -/
theorem greenClamp_eq_clampedRequest (hplan : BoundedPlan plan) (effectTime : Int) :
    greenClamp plan effectTime = clampedRequest plan effectTime := by
  obtain ⟨hordered, hped⟩ := hplan
  have hrange := pedGreen_bounds plan
  unfold greenClamp clampedRequest
  dsimp only
  split_ifs <;> omega

theorem clampedRequest_nonneg (hplan : BoundedPlan plan) {effectTime : Int}
    (hvalid : 0 ≤ effectTime) : 0 ≤ clampedRequest plan effectTime := by
  have hped := hplan.pedestrians
  unfold clampedRequest
  omega

/-- The lower bound has 8 bits, so only request and upper bound together can
leave them. -/
theorem clampedRequest_le_byte_iff (plan : StaticPlan) (effectTime : Int) :
    clampedRequest plan effectTime ≤ 255 ↔
      effectTime ≤ 255 ∨ (plan.maxGreen.toNat : Int) ≤ 255 + plan.pedGreen := by
  have hrange := pedGreen_bounds plan
  have hmin := plan.minGreen.toNat_lt
  unfold clampedRequest
  omega

end Clamp

/-- What is asked of an accepted command: the seconds its slot holds keep the
green bounds and are the request, clamped. -/
def GreenBoundsKept (s : Middleware) (command : TscCommand) : Prop :=
  let plan := s.status.plan command.phase
  let stored := ((s.commandBufInsertEffectTime command).2.target command).effectTime.toNat
  plan.minGreen.toNat ≤ stored + plan.pedGreen ∧ stored + plan.pedGreen ≤ plan.maxGreen.toNat ∧
    stored = clampedRequest plan command.effectTime.toInt

instance (s : Middleware) (command : TscCommand) : Decidable (GreenBoundsKept s command) :=
  inferInstanceAs (Decidable (_ ∧ _ ∧ _))

theorem nonneg_of_check (command : TscCommand) (hcheck : command.check = none) :
    0 ≤ command.effectTime.toInt := by
  have hvalid := (check_none hcheck).2.2.2.2.2.1
  rw [Int16.lt_iff_toInt_lt] at hvalid
  simpa using hvalid

/-- The slot of an accepted command holds the low byte of what the clamps leave. -/
theorem stored_eq_greenClamp {s : Middleware} {command : TscCommand}
    (haccept : (s.commandBufInsertEffectTime command).1 = .insertAccept) :
    (((s.commandBufInsertEffectTime command).2.target command).effectTime.toNat : Int) =
      greenClamp (s.status.plan command.phase) command.effectTime.toInt % 256 := by
  obtain ⟨hcheck, -, heq⟩ := insert_accepted haccept
  have hvalid := nonneg_of_check command hcheck
  have hstored : ((s.commandBufInsertEffectTime command).2.target command).effectTime =
      UInt8.ofNat ((clampEffectTime (s.status.plan command.phase) command.effectTime).toInt %
        256).toNat := by
    rw [heq, Middleware.target]
    change ((s.setSlot (s.slotCycle command) command.phase _).commandBuf
      (s.slotCycle command) command.phase).effectTime = _
    rw [Middleware.setSlot_self]
    rfl
  rw [hstored, clampEffectTime_eq_greenClamp _ hvalid, UInt8.toNat_ofNat']
  omega

/-- The slot of an accepted command holds the low byte of the clamped request. -/
theorem stored_eq {s : Middleware} {command : TscCommand}
    (hplan : BoundedPlan (s.status.plan command.phase))
    (haccept : (s.commandBufInsertEffectTime command).1 = .insertAccept) :
    (((s.commandBufInsertEffectTime command).2.target command).effectTime.toNat : Int) =
      clampedRequest (s.status.plan command.phase) command.effectTime.toInt % 256 := by
  rw [stored_eq_greenClamp haccept, greenClamp_eq_clampedRequest hplan]

/-- An accepted command is stored within its green bounds exactly when its
request, or the bound it is clamped to, fits the byte of the slot. -/
theorem stored_within_green_bounds_iff (s : Middleware) (command : TscCommand)
    (hordered : (s.status.plan command.phase).minGreen.toNat ≤
      (s.status.plan command.phase).maxGreen.toNat)
    (hped : (s.status.plan command.phase).pedGreen ≤
      (s.status.plan command.phase).maxGreen.toNat)
    (haccept : (s.commandBufInsertEffectTime command).1 = .insertAccept) :
    GreenBoundsKept s command ↔
      command.effectTime.toInt ≤ 255 ∨
        ((s.status.plan command.phase).maxGreen.toNat : Int) ≤
          255 + (s.status.plan command.phase).pedGreen := by
  have hplan : BoundedPlan (s.status.plan command.phase) := ⟨hordered, hped⟩
  have hstored := stored_eq hplan haccept
  have hvalid := nonneg_of_check command (insert_accepted haccept).1
  have hnonneg := clampedRequest_nonneg hplan hvalid
  rw [← clampedRequest_le_byte_iff]
  constructor
  · rintro ⟨-, -, hsame⟩
    rw [hsame] at hstored
    omega
  · intro hbyte
    have hsame : (((s.commandBufInsertEffectTime command).2.target command).effectTime.toNat :
        Int) = clampedRequest (s.status.plan command.phase) command.effectTime.toInt := by
      rw [hstored]
      omega
    refine ⟨?_, ?_, hsame⟩
    · rw [hsame]
      unfold clampedRequest
      omega
    · rw [hsame]
      unfold clampedRequest
      omega

theorem stored_within_green_bounds_iff_extension :
    let plan := { StaticPlan.unset with minGreen := 10, maxGreen := 60, pedGreenFlash := 5 }
    let s := Middleware.boot Config.initial (TrafficSignalStatus.initial fun _ => plan)
    let command : TscCommand :=
      ⟨evspId, 1, 2, 0, 2, 70, ⟨['A', 'M', 'B'], by decide⟩⟩
    (s.commandBufInsertEffectTime command).1 = .insertAccept ∧ GreenBoundsKept s command := by
  intro plan s command
  have haccept : (s.commandBufInsertEffectTime command).1 = .insertAccept := by decide
  exact ⟨haccept, (stored_within_green_bounds_iff s command (by decide) (by decide) haccept).mpr
    (by decide)⟩

/-- A bound of 400 seconds lets a request of 300 through, of which the slot
keeps 44. -/
theorem accepted_request_stored_modulo :
    let plan := { StaticPlan.unset with minGreen := 10, maxGreen := 400 }
    let s := Middleware.boot Config.initial (TrafficSignalStatus.initial fun _ => plan)
    let command : TscCommand :=
      ⟨evspId, 1, 2, 0, 2, 300, ⟨['A', 'M', 'B'], by decide⟩⟩
    plan.minGreen.toNat ≤ plan.maxGreen.toNat ∧ plan.pedGreen ≤ plan.maxGreen.toNat ∧
      (s.commandBufInsertEffectTime command).1 = .insertAccept ∧
      ((s.commandBufInsertEffectTime command).2.target command).effectTime = 44 ∧
      ¬ GreenBoundsKept s command := by
  decide

end AdaptiveSignal.Signal
