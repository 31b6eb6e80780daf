import AdaptiveSignal.CommandBuffer.Arbitration
import AdaptiveSignal.CommandBuffer.GreenBounds

/-! # One command for two vehicles

A command for the target phase of the held one replaces it when it moves the phase further
from its own time, so that one command serves both vehicles. The distances are compared
without their signs, that of the new command before it is cut to the byte of its slot.
-/

namespace AdaptiveSignal.Signal

/-- A command of one vehicle for a slot that holds a command of another with the same
target phase. -/
structure SharesTarget (s : Middleware) (command : TscCommand) : Prop where
  held : OrdinaryHolder (s.target command)
  other : ¬ SameSender (s.target command) command
  not_resume : command.hostObuName ≠ .resume
  targetPhase : (s.target command).targetPhase = command.targetPhase

/-- The seconds that the slot of a command holds. -/
def Middleware.heldSeconds (s : Middleware) (command : TscCommand) : Int :=
  (s.target command).effectTime.toNat

/-- The time that the phase of a command has by itself. -/
def Middleware.pretime (s : Middleware) (command : TscCommand) : Int :=
  (s.status.plan command.phase).preTimeCompensated.toNat

/-- After the insert both vehicles are served: an extension is not replaced by a shorter
time, nor a shortening by a longer one. -/
def ServesBoth (s : Middleware) (command : TscCommand) : Prop :=
  let inserted := (s.commandBufInsertEffectTime command).2
  (s.pretime command < s.heldSeconds command →
      s.heldSeconds command ≤ inserted.heldSeconds command) ∧
    (s.heldSeconds command < s.pretime command →
      inserted.heldSeconds command ≤ s.heldSeconds command)

instance (s : Middleware) (command : TscCommand) : Decidable (ServesBoth s command) :=
  inferInstanceAs (Decidable (_ ∧ _))

/-- The low byte of the request, brought between the green bounds: what a slot can hold
of it. -/
def Middleware.requestedByte (s : Middleware) (command : TscCommand) : Int :=
  greenClamp (s.status.plan command.phase) command.effectTime.toInt % 256

/-- The request extends where the held command shortens, or shortens where it extends. -/
def Opposes (s : Middleware) (command : TscCommand) : Prop :=
  s.pretime command < s.heldSeconds command ∧ s.requestedByte command < s.pretime command ∨
    s.heldSeconds command < s.pretime command ∧ s.pretime command < s.requestedByte command

/-- The byte of the slot cuts the request to a time closer to that of the phase. -/
def CutShort (s : Middleware) (command : TscCommand) : Prop :=
  greenClamp (s.status.plan command.phase) command.effectTime.toInt ≠ s.requestedByte command ∧
    (s.requestedByte command - s.pretime command).natAbs <
      (s.heldSeconds command - s.pretime command).natAbs

section SharedTarget

variable {s : Middleware} {command : TscCommand}

/-- The held command is replaced only by one that moves the phase at least as far. -/
theorem deviation_le_of_accepted (hshares : SharesTarget s command)
    (haccept : (s.commandBufInsertEffectTime command).1 = .insertAccept) :
    (s.heldSeconds command - s.pretime command).natAbs ≤
      (greenClamp (s.status.plan command.phase) command.effectTime.toInt -
        s.pretime command).natAbs := by
  obtain ⟨hcheck, hverdict, -⟩ := insert_accepted haccept
  have hclamp := clampEffectTime_eq_greenClamp (s.status.plan command.phase)
    (nonneg_of_check command hcheck)
  have hdecision := @arbitrate_other _ (command.clamp (s.status.plan command.phase))
    (s.status.plan command.phase).preTimeCompensated hshares.held hshares.other hshares.not_resume
  rw [if_pos (show _ = (command.clamp _).targetPhase from hshares.targetPhase)] at hdecision
  by_contra hcloser
  apply hverdict
  refine hdecision.trans (if_neg ?_)
  rw [← hclamp] at hcloser
  exact hcloser

/-- A replacement serves both vehicles exactly if it does not oppose the held command and
is not cut short by the byte of the slot. -/
theorem servesBoth_iff (hshares : SharesTarget s command)
    (haccept : (s.commandBufInsertEffectTime command).1 = .insertAccept) :
    ServesBoth s command ↔ ¬ Opposes s command ∧ ¬ CutShort s command := by
  have hdeviation := deviation_le_of_accepted hshares haccept
  have hstored : (s.commandBufInsertEffectTime command).2.heldSeconds command =
      s.requestedByte command := stored_eq_greenClamp haccept
  unfold ServesBoth Opposes CutShort
  dsimp only
  rw [hstored]
  omega

end SharedTarget

/-- A bus holds the second phase, whose own time is 30 seconds. -/
def heldByBus (effectTime : Int16) : Middleware :=
  ((Middleware.boot Config.initial (TrafficSignalStatus.initial fun _ =>
      { StaticPlan.unset with preTimeCompensated := 30, minGreen := 10, maxGreen := 60 })
    ).commandBufInsertEffectTime ⟨tspId, 2, 2, 0, 2, effectTime, ⟨['B', 'U', 'S'], by decide⟩⟩).2

/-- An ambulance asks for the second phase. -/
def ambulance (effectTime : Int16) : TscCommand :=
  ⟨evspId, 1, 2, 0, 2, effectTime, ⟨['A', 'M', 'B'], by decide⟩⟩

theorem servesBoth_iff_longer : ServesBoth (heldByBus 40) (ambulance 50) ↔
    ¬ Opposes (heldByBus 40) (ambulance 50) ∧ ¬ CutShort (heldByBus 40) (ambulance 50) := by
  apply servesBoth_iff
  · refine ⟨⟨by decide, by decide, by decide⟩, ?_, by decide, by decide⟩
    unfold SameSender
    decide
  · decide

/-- An extension by ten seconds is replaced by a shortening by ten. -/
theorem extension_replaced_by_shortening :
    SharesTarget (heldByBus 40) (ambulance 20) ∧
      ((heldByBus 40).commandBufInsertEffectTime (ambulance 20)).1 = .insertAccept ∧
      ¬ ServesBoth (heldByBus 40) (ambulance 20) := by
  refine ⟨⟨⟨by decide, by decide, by decide⟩, ?_, by decide, by decide⟩, by decide, by decide⟩
  unfold SameSender
  decide

end AdaptiveSignal.Signal
