import AdaptiveSignal.Signal.Middleware
import Mathlib.Tactic.SplitIfs

/-! # Inserting into and deleting from the command buffer

A command is checked, clamped to the green bounds of its phase and then
arbitrated against the object that holds its slot. Deleting removes the slots
of one host; resuming inserts the command that restores the planned green.
-/

namespace AdaptiveSignal.Signal

/-! ## The command -/

/-- The validity checks, in the order of the source. -/
def TscCommand.check (command : TscCommand) : Option CommandBufErr :=
  if command.appId = 0 then some .invalidAppId
  else if command.appPriority = 0 then some .invalidAppPriority
  else if command.targetPhase = 0 ∨ subPhaseIdNum < command.targetPhase.toNat then
    some .invalidTargetPhase
  else if cycleNum ≤ command.cycle.toNat then some .invalidCycle
  else if command.phase = 0 ∨ subPhaseIdNum < command.phase.toNat then some .invalidPhase
  else if command.effectTime < 0 then some .invalidEffectTime
  else if command.hostObuName.chars.length = 0 then some .invalidHostObuName
  else none

/-- The pedestrian seconds of a phase, `PedGreenFlash + PedRed`. -/
def StaticPlan.pedGreen (plan : StaticPlan) : Int :=
  plan.pedGreenFlash.toNat + plan.pedRed.toNat

/-- The two clamps to the green bounds. The comparisons are made in `int`; the
result goes back into 16 bits. -/
def clampEffectTime (plan : StaticPlan) (effectTime : Int16) : Int16 :=
  let effectTime :=
    if effectTime.toInt + plan.pedGreen < plan.minGreen.toNat then
      Int16.ofInt (plan.minGreen.toNat - plan.pedGreen)
    else effectTime
  if plan.maxGreen.toNat < effectTime.toInt + plan.pedGreen then
    Int16.ofInt (plan.maxGreen.toNat - plan.pedGreen)
  else effectTime

def TscCommand.clamp (command : TscCommand) (plan : StaticPlan) : TscCommand :=
  { command with effectTime := clampEffectTime plan command.effectTime }

/-! ## Arbitration -/

/-- The labels the decision jumps to. Each accepting label falls through into
the ones after it. -/
inductive Arbitration
  | acceptAppId
  | acceptObuName
  | acceptEffectTime
  | improperPriority
  deriving DecidableEq, Repr

/-- The distance of a requested time from the time the phase has by itself. -/
def deviation (effectTime : Int) (pretime : UInt16) : ℕ :=
  (effectTime - pretime.toNat).natAbs

def arbitrate (target : TscCommandObject) (command : TscCommand) (pretime : UInt16) :
    Arbitration :=
  if target.appId = 0 then .acceptAppId
  -- a compensation already accounts for the ones before it
  else if strncmpEq 13 target.hostObuName .compensation &&
      strncmpEq 13 command.hostObuName .compensation then .acceptEffectTime
  else if strncmpEq 7 target.hostObuName .resume then .acceptAppId
  else if strncmpEq 7 command.hostObuName .resume then
    if target.appId = command.appId then .acceptObuName else .improperPriority
  else if strncmpEq obuNameMaxLen target.hostObuName command.hostObuName &&
      target.appId = command.appId then .acceptEffectTime
  else if target.targetPhase = command.targetPhase then
    if deviation target.effectTime.toNat pretime ≤ deviation command.effectTime.toInt pretime then
      .acceptAppId
    else .improperPriority
  else if command.appPriority < target.appPriority then .acceptAppId
  else .improperPriority

/-- A slot that was never adjusted runs for the time of the plan. -/
def TscCommandObject.firstInsert (target : TscCommandObject) (pretime : UInt16) :
    TscCommandObject :=
  if target.appId = 0 ∧ target.adjustedTime = 0 then
    { target with adjustedTime := pretime.toUInt8 }
  else target

/-- The update from an accepting label on. The slot keeps the low byte of the
effect time. -/
def TscCommandObject.accept (target : TscCommandObject) (command : TscCommand)
    (label : Arbitration) : TscCommandObject :=
  let target :=
    if label = .acceptAppId then
      { target with appId := command.appId, appPriority := command.appPriority }
    else target
  let target :=
    if label = .acceptAppId ∨ label = .acceptObuName then
      { target with hostObuName := command.hostObuName }
    else target
  { target with
    effectTime := UInt8.ofNat (command.effectTime.toInt % 256).toNat
    targetPhase := command.targetPhase
    sendFlag := false }

namespace Middleware

/-- The ring index a command addresses. -/
def slotCycle (s : Middleware) (command : TscCommand) : CycleIndex :=
  s.cycleIndex + Fin.ofNat cycleNum command.cycle.toNat

/-- The object that holds the slot a command addresses. -/
def target (s : Middleware) (command : TscCommand) : TscCommandObject :=
  s.commandBuf (s.slotCycle command) command.phase

def commandBufInsertEffectTime (s : Middleware) (command : TscCommand) :
    CommandBufErr × Middleware :=
  match command.check with
  | some err => (err, s)
  | none =>
      let plan := s.status.plan command.phase
      let command := command.clamp plan
      let target := s.target command
      let label := arbitrate target command plan.preTimeCompensated
      if label = .improperPriority then (.improperPriority, s)
      else (.insertAccept, s.setSlot (s.slotCycle command) command.phase
        ((target.firstInsert plan.preTimeCompensated).accept command label))

/-- Removes the commands of one host and takes it off the activation count. -/
def commandBufDeleteObu (s : Middleware) (hostObuName : HostName) : Middleware :=
  { s with
    commandBuf := fun cycle phase =>
      if 1 ≤ phase ∧ phase ≤ 8 ∧
          strncmpEq (idMaxLen + 1) (s.commandBuf cycle phase).hostObuName hostObuName then
        TscCommandObject.cleared
      else s.commandBuf cycle phase
    -- one vehicle less, whether or not it had any command
    activateAmount := if 0 < s.activateAmount then s.activateAmount - 1 else s.activateAmount }

/-- The command that gives the current phase back its planned green. -/
def resumeCommand (s : Middleware) : TscCommand where
  appId := 99
  appPriority := 99
  targetPhase := s.status.subPhaseId
  cycle := 0
  phase := s.status.subPhaseId
  effectTime := (s.status.plan s.status.subPhaseId).preGreen.toInt16
  hostObuName := .resume

/-- `app` is the `dontSend2TC` flag of the application, if it is registered. The
refusal `-1` is the code of an invalid application. -/
def commandBufResumeControl (s : Middleware) (app : Option Bool) : CommandBufErr × Middleware :=
  match app with
  | some false => s.commandBufInsertEffectTime s.resumeCommand
  | _ => (.invalidAppId, s)

end Middleware

/-! ## What an insert does -/

section InsertSpec

variable {s : Middleware} {command : TscCommand}

@[simp] theorem firstInsert_appId (target : TscCommandObject) (pretime : UInt16) :
    (target.firstInsert pretime).appId = target.appId := by
  unfold TscCommandObject.firstInsert
  split_ifs <;> rfl

@[simp] theorem firstInsert_hostObuName (target : TscCommandObject) (pretime : UInt16) :
    (target.firstInsert pretime).hostObuName = target.hostObuName := by
  unfold TscCommandObject.firstInsert
  split_ifs <;> rfl

theorem accept_firstInsert_adjustedTime (target : TscCommandObject) (pretime : UInt16)
    (label : Arbitration) :
    ((target.firstInsert pretime).accept command label).adjustedTime =
      if target.appId = 0 ∧ target.adjustedTime = 0 then pretime.toUInt8
      else target.adjustedTime := by
  simp only [TscCommandObject.accept, TscCommandObject.firstInsert]
  split_ifs <;> rfl

/-- An accepted command leaves its slot occupied. -/
theorem accept_appId_ne_zero {target : TscCommandObject} {pretime : UInt16}
    (happ : command.appId ≠ 0) :
    ((target.firstInsert pretime).accept command
      (arbitrate target command pretime)).appId ≠ 0 := by
  by_cases hzero : target.appId = 0
  · have hlabel : arbitrate target command pretime = .acceptAppId := by
      simp [arbitrate, hzero]
    simpa [hlabel, TscCommandObject.accept] using happ
  · have hfirst : target.firstInsert pretime = target := by
      simp [TscCommandObject.firstInsert, hzero]
    rw [hfirst]
    simp only [TscCommandObject.accept]
    split_ifs <;> assumption

theorem check_none (hcheck : command.check = none) :
    command.appId ≠ 0 ∧ command.appPriority ≠ 0 ∧
      (command.targetPhase ≠ 0 ∧ command.targetPhase.toNat ≤ subPhaseIdNum) ∧
      command.cycle.toNat < cycleNum ∧
      (command.phase ≠ 0 ∧ command.phase.toNat ≤ subPhaseIdNum) ∧
      ¬ command.effectTime < 0 ∧ command.hostObuName.chars.length ≠ 0 := by
  unfold TscCommand.check at hcheck
  split_ifs at hcheck with happ hpriority htarget hcycle hphase heffect hname
  refine ⟨happ, hpriority, ?_, by omega, ?_, heffect, hname⟩
  · exact ⟨fun h => htarget (Or.inl h), Nat.le_of_not_lt fun h => htarget (Or.inr h)⟩
  · exact ⟨fun h => hphase (Or.inl h), Nat.le_of_not_lt fun h => hphase (Or.inr h)⟩

/-- A command that passes the checks is for a phase that has a slot. -/
theorem phase_of_check (hcheck : command.check = none) :
    1 ≤ command.phase.toNat ∧ command.phase.toNat ≤ subPhaseIdNum := by
  obtain ⟨hnonzero, hle⟩ := (check_none hcheck).2.2.2.2.1
  exact ⟨Nat.pos_of_ne_zero fun hzero => hnonzero (UInt8.toNat_inj.mp hzero), hle⟩

theorem check_eq_none_iff :
    command.check = none ↔
      command.appId ≠ 0 ∧ command.appPriority ≠ 0 ∧
        (command.targetPhase ≠ 0 ∧ command.targetPhase.toNat ≤ subPhaseIdNum) ∧
        command.cycle.toNat < cycleNum ∧
        (command.phase ≠ 0 ∧ command.phase.toNat ≤ subPhaseIdNum) ∧
        ¬ command.effectTime < 0 ∧ command.hostObuName.chars.length ≠ 0 := by
  refine ⟨check_none, ?_⟩
  rintro ⟨happ, hpriority, htarget, hcycle, hphase, heffect, hname⟩
  unfold TscCommand.check
  rw [if_neg happ, if_neg hpriority,
    if_neg fun h => h.elim htarget.1 (Nat.not_lt.mpr htarget.2), if_neg (Nat.not_le.mpr hcycle),
    if_neg fun h => h.elim hphase.1 (Nat.not_lt.mpr hphase.2), if_neg heffect, if_neg hname]

/-- No check fails with a code of the arbitration. -/
theorem check_ne_arbitrated {err : CommandBufErr} (hcheck : command.check = some err) :
    err ≠ .insertAccept ∧ err ≠ .improperPriority := by
  unfold TscCommand.check at hcheck
  split_ifs at hcheck <;> simp only [Option.some.injEq] at hcheck <;> subst hcheck <;> decide

/-- The arbitration of a command against the object in its slot. -/
def Middleware.verdict (s : Middleware) (command : TscCommand) : Arbitration :=
  let plan := s.status.plan command.phase
  arbitrate (s.target command) (command.clamp plan) plan.preTimeCompensated

/-- The object an accepted command leaves in its slot. -/
def Middleware.accepted (s : Middleware) (command : TscCommand) : TscCommandObject :=
  let plan := s.status.plan command.phase
  ((s.target command).firstInsert plan.preTimeCompensated).accept (command.clamp plan)
    (s.verdict command)

/-- An insert is refused and changes nothing, or writes the one slot it addresses. -/
theorem insert_cases (s : Middleware) (command : TscCommand) :
    (∃ err, err ≠ .insertAccept ∧ err ≠ .improperPriority ∧ command.check = some err ∧
      s.commandBufInsertEffectTime command = (err, s)) ∨
    (command.check = none ∧ s.verdict command = .improperPriority ∧
      s.commandBufInsertEffectTime command = (.improperPriority, s)) ∨
    (command.check = none ∧ s.verdict command ≠ .improperPriority ∧
      s.commandBufInsertEffectTime command =
        (.insertAccept, s.setSlot (s.slotCycle command) command.phase (s.accepted command))) := by
  unfold Middleware.commandBufInsertEffectTime
  cases hcheck : command.check with
  | some err =>
      obtain ⟨haccept, hpriority⟩ := check_ne_arbitrated hcheck
      exact Or.inl ⟨err, haccept, hpriority, rfl, rfl⟩
  | none =>
      by_cases hlabel : s.verdict command = .improperPriority
      · refine Or.inr (Or.inl ⟨rfl, hlabel, ?_⟩)
        exact if_pos hlabel
      · refine Or.inr (Or.inr ⟨rfl, hlabel, ?_⟩)
        exact if_neg hlabel

theorem insert_accepted (haccept : (s.commandBufInsertEffectTime command).1 = .insertAccept) :
    command.check = none ∧ s.verdict command ≠ .improperPriority ∧
      (s.commandBufInsertEffectTime command).2 =
        s.setSlot (s.slotCycle command) command.phase (s.accepted command) := by
  rcases insert_cases s command with ⟨err, herr, _, _, heq⟩ | ⟨_, _, heq⟩ | ⟨hcheck, hlabel, heq⟩
  · rw [heq] at haccept
    exact absurd haccept herr
  · rw [heq] at haccept
    exact absurd haccept (by simp)
  · exact ⟨hcheck, hlabel, by rw [heq]⟩

theorem insert_refused (hrefuse : (s.commandBufInsertEffectTime command).1 ≠ .insertAccept) :
    (s.commandBufInsertEffectTime command).2 = s := by
  rcases insert_cases s command with ⟨err, _, _, _, heq⟩ | ⟨_, _, heq⟩ | ⟨_, _, heq⟩
  · rw [heq]
  · rw [heq]
  · exact absurd (by rw [heq]) hrefuse

end InsertSpec

end AdaptiveSignal.Signal
