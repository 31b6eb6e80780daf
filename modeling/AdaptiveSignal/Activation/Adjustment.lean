import AdaptiveSignal.Activation.HostLists
import AdaptiveSignal.CommandBuffer.Resume
import AdaptiveSignal.Compensation.TableBounds

/-! # Relative adjustments

A bus asks for some seconds more or less. `command_buf_insert_adjustment` makes that an
absolute time and passes it on to the insert, which checks the command; the plan and the
slot of the phase are looked up before, and the time is kept in 16 bits.
-/

namespace AdaptiveSignal.Signal

open TableAccess

/-! ## The request that is passed on -/

/-- The seconds an adjustment counts from: those the slot was adjusted to, or the time of
the plan. -/
def Middleware.adjustmentBase (s : Middleware) (command : TscCommand) : ℕ :=
  if (s.target command).adjustedTime = 0 then
    (s.status.plan command.phase).preTimeCompensated.toNat
  else (s.target command).adjustedTime.toNat

/-- The seconds that are asked for. -/
def Middleware.adjustedSeconds (s : Middleware) (command : TscCommand) (adjustment : Int8) : Int :=
  s.adjustmentBase command + adjustment.toInt

/-- The two bounds, the lower one first. -/
def boundEffectTime (minGreen maxGreen : UInt16) (effectTime : Int16) : Int16 :=
  let effectTime := if effectTime.toInt < minGreen.toNat then minGreen.toInt16 else effectTime
  if maxGreen.toNat < effectTime.toInt then maxGreen.toInt16 else effectTime

/-- The effect time that an adjustment comes to. -/
def Middleware.adjustedEffectTime (s : Middleware) (bounds : AdjustBounds) (command : TscCommand)
    (adjustment : Int8) : Int16 :=
  let plan := s.status.plan command.phase
  boundEffectTime (bounds.minGreen plan) (bounds.maxGreen plan)
    (Int16.ofInt (s.adjustedSeconds command adjustment))

/-- The command that is passed on to the insert. -/
def Middleware.adjustedCommand (s : Middleware) (bounds : AdjustBounds) (command : TscCommand)
    (adjustment : Int8) : TscCommand :=
  { command with effectTime := s.adjustedEffectTime bounds command adjustment }

/-- The index of the command buffer's first dimension, `(cycle_index + cycle) % CYCLE_NUM`. -/
def Middleware.ringIndex (s : Middleware) (command : TscCommand) : ℕ :=
  (s.cycleIndex.val + command.cycle.toNat) % cycleNum

/-- The insert looks up the plan and the slot of a command that passed its checks. -/
def TscCommand.insertAccesses (command : TscCommand) : List TableAccess :=
  match command.check with
  | some _ => []
  | none => [.plan (command.phase.toNat - 1), .commandBuf (command.phase.toNat - 1)]

/-- `command_buf_insert_adjustment`, with the functions it calls. -/
def Middleware.adjustmentAccesses (s : Middleware) (bounds : AdjustBounds) (command : TscCommand)
    (adjustment : Int8) : List TableAccess :=
  s.status.isInCompensationAccesses ++
    if s.isInCompensation ∨ adjustment = 0 then []
    else
      [.plan (command.phase.toNat - 1), .commandBuf (command.phase.toNat - 1)] ++
        (s.adjustedCommand bounds command adjustment).insertAccesses

/-! ## What is asked of a request -/

/-- Seconds between the green bounds of the plan, without a limit on the numbers. -/
def StaticPlan.boundedSeconds (plan : StaticPlan) (seconds : Int) : Int :=
  min plan.maxGreen.toNat (max plan.minGreen.toNat seconds)

/-- No percentage limits the adjustments. -/
def AdjustBounds.Disabled (bounds : AdjustBounds) : Prop :=
  bounds.lower = none ∧ bounds.upper = none

/-- A request is validated before it is used: the tables are indexed within their bounds,
what is refused changes nothing, and what is accepted without limits asks for the adjusted
seconds between the green bounds. -/
structure ValidatedBeforeUse (s : Middleware) (bounds : AdjustBounds) (command : TscCommand)
    (adjustment : Int8) : Prop where
  reads : StaysInTables (s.adjustmentAccesses bounds command adjustment)
  ring : s.ringIndex command < cycleNum
  refused : (s.commandBufInsertAdjustment bounds command adjustment).1 ≠ .insertAccept →
    (s.commandBufInsertAdjustment bounds command adjustment).2 = s
  requested : bounds.Disabled →
    (s.commandBufInsertAdjustment bounds command adjustment).1 = .insertAccept →
    (s.adjustedEffectTime bounds command adjustment).toInt =
      (s.status.plan command.phase).boundedSeconds (s.adjustedSeconds command adjustment)

/-- The phase has a row in the tables. -/
def InTables (phase : UInt8) : Prop :=
  1 ≤ phase.toNat ∧ phase.toNat ≤ 8

instance (phase : UInt8) : Decidable (InTables phase) :=
  inferInstanceAs (Decidable (_ ∧ _))

/-- The 16 bits of the effect time lose the seconds asked for, and the upper bound does not
hide that. -/
def Middleware.SecondsLost (s : Middleware) (command : TscCommand) (adjustment : Int8) : Prop :=
  let plan := s.status.plan command.phase
  32768 ≤ s.adjustedSeconds command adjustment ∧
    max (plan.minGreen.toNat : Int) (s.adjustedSeconds command adjustment - 65536) <
      plan.maxGreen.toNat

/-- The command with the time that is left of the seconds. -/
def Middleware.cutCommand (s : Middleware) (command : TscCommand) (adjustment : Int8) :
    TscCommand :=
  { command with
    effectTime := Int16.ofInt (max ((s.status.plan command.phase).minGreen.toNat : Int)
      (s.adjustedSeconds command adjustment - 65536)) }

/-- The checks or the arbitration refuse the command. -/
def Middleware.Refuses (s : Middleware) (command : TscCommand) : Prop :=
  command.check ≠ none ∨ s.verdict command = .improperPriority

section Adjustment

variable {s : Middleware} {bounds : AdjustBounds} {command : TscCommand} {adjustment : Int8}

theorem commandBufInsertAdjustment_eq (s : Middleware) (bounds : AdjustBounds)
    (command : TscCommand) (adjustment : Int8) :
    s.commandBufInsertAdjustment bounds command adjustment =
      if s.isInCompensation then (.incompTspDoNothing, s)
      else if adjustment = 0 then (.invalidAdjustment, s)
      else s.commandBufInsertEffectTime (s.adjustedCommand bounds command adjustment) := by
  have hbase : (if (s.target command).adjustedTime = 0 then
        Int16.ofInt ((s.status.plan command.phase).preTimeCompensated.toNat + adjustment.toInt)
      else Int16.ofInt ((s.target command).adjustedTime.toNat + adjustment.toInt)) =
      Int16.ofInt (s.adjustedSeconds command adjustment) := by
    unfold Middleware.adjustedSeconds Middleware.adjustmentBase
    split_ifs <;> rfl
  unfold Middleware.adjustedCommand Middleware.adjustedEffectTime
  rw [← hbase]
  rfl

/-- The slot that is looked up is the one the insert addresses. -/
theorem ringIndex_eq (s : Middleware) (command : TscCommand) :
    s.ringIndex command = (s.slotCycle command).val := by
  unfold Middleware.ringIndex Middleware.slotCycle
  rw [Fin.val_add, Fin.val_ofNat, Nat.add_mod_mod]

theorem insert_accepts_iff :
    (s.commandBufInsertEffectTime command).1 = .insertAccept ↔ ¬ s.Refuses command := by
  unfold Middleware.Refuses
  rcases insert_cases s command with ⟨err, herr, -, hcheck, heq⟩ | ⟨-, hverdict, heq⟩ |
    ⟨hcheck, hverdict, heq⟩
  · rw [heq]
    exact iff_of_false herr fun hnot => hnot (Or.inl (by rw [hcheck]; simp))
  · rw [heq]
    exact iff_of_false (by simp) fun hnot => hnot (Or.inr hverdict)
  · rw [heq]
    exact iff_of_true rfl fun hrefuses => hrefuses.elim (· hcheck) hverdict

/-! ## The seconds -/

/-- The lower bound fits 16 bits with sign; the upper one does where it is used. -/
theorem boundEffectTime_toInt {minGreen maxGreen : UInt16} (hmin : minGreen.toNat < 32768)
    (effectTime : Int16) :
    (boundEffectTime minGreen maxGreen effectTime).toInt =
      min (maxGreen.toNat : Int) (max (minGreen.toNat : Int) effectTime.toInt) := by
  have hlarge := effectTime.toInt_lt
  have hminGreen := Middleware.toInt16_toInt minGreen
  have hmaxGreen := Middleware.toInt16_toInt maxGreen
  rw [if_pos hmin] at hminGreen
  unfold boundEffectTime
  dsimp only
  split_ifs at hmaxGreen ⊢ <;> omega

theorem adjustedSeconds_range (s : Middleware) (command : TscCommand) (adjustment : Int8) :
    -128 ≤ s.adjustedSeconds command adjustment ∧
      s.adjustedSeconds command adjustment ≤ 65662 := by
  have hpretime := (s.status.plan command.phase).preTimeCompensated.toNat_lt
  have hadjusted := (s.target command).adjustedTime.toNat_lt
  have hleast := adjustment.le_toInt
  have hmost := adjustment.toInt_lt
  unfold Middleware.adjustedSeconds Middleware.adjustmentBase
  split_ifs <;> omega

/-- The seconds that 16 bits keep. -/
theorem adjustedSeconds_toInt (s : Middleware) (command : TscCommand) (adjustment : Int8) :
    (Int16.ofInt (s.adjustedSeconds command adjustment)).toInt =
      if s.adjustedSeconds command adjustment < 32768 then s.adjustedSeconds command adjustment
      else s.adjustedSeconds command adjustment - 65536 := by
  have hrange := adjustedSeconds_range s command adjustment
  rw [Int16.toInt_ofInt]
  change (s.adjustedSeconds command adjustment).bmod 65536 = _
  rw [Int.bmod_def]
  split_ifs <;> omega

theorem adjustedEffectTime_disabled (hdisabled : bounds.Disabled) :
    (s.adjustedEffectTime bounds command adjustment).toInt =
      (s.status.plan command.phase).boundedSeconds
        (Int16.ofInt (s.adjustedSeconds command adjustment)).toInt := by
  obtain ⟨hlower, hupper⟩ := hdisabled
  have hmin := (s.status.plan command.phase).minGreen.toNat_lt
  have hminGreen : bounds.minGreen (s.status.plan command.phase) =
      (s.status.plan command.phase).minGreen.toUInt16 := by
    rw [AdjustBounds.minGreen, hlower]
  have hmaxGreen : bounds.maxGreen (s.status.plan command.phase) =
      (s.status.plan command.phase).maxGreen := by
    rw [AdjustBounds.maxGreen, hupper]
  unfold Middleware.adjustedEffectTime StaticPlan.boundedSeconds
  dsimp only
  rw [hminGreen, hmaxGreen, boundEffectTime_toInt (by rw [UInt8.toNat_toUInt16]; omega),
    UInt8.toNat_toUInt16]

/-- Without limits the request asks for the adjusted seconds, unless 16 bits lose them. -/
theorem requested_iff (hdisabled : bounds.Disabled) :
    (s.adjustedEffectTime bounds command adjustment).toInt =
        (s.status.plan command.phase).boundedSeconds (s.adjustedSeconds command adjustment) ↔
      ¬ s.SecondsLost command adjustment := by
  have hrange := adjustedSeconds_range s command adjustment
  have hmin := (s.status.plan command.phase).minGreen.toNat_lt
  rw [adjustedEffectTime_disabled hdisabled, adjustedSeconds_toInt]
  unfold StaticPlan.boundedSeconds Middleware.SecondsLost
  dsimp only
  split_ifs <;> omega

theorem adjustedCommand_eq_cutCommand (hdisabled : bounds.Disabled)
    (hlost : s.SecondsLost command adjustment) :
    s.adjustedCommand bounds command adjustment = s.cutCommand command adjustment := by
  have hrange := adjustedSeconds_range s command adjustment
  have hmin := (s.status.plan command.phase).minGreen.toNat_lt
  obtain ⟨hlarge, hbelow⟩ := hlost
  have htime : s.adjustedEffectTime bounds command adjustment =
      Int16.ofInt (max ((s.status.plan command.phase).minGreen.toNat : Int)
        (s.adjustedSeconds command adjustment - 65536)) := by
    rw [← Int16.toInt_inj, adjustedEffectTime_disabled hdisabled, adjustedSeconds_toInt,
      if_neg (by omega), Int16.toInt_ofInt_of_le (by omega) (by omega)]
    unfold StaticPlan.boundedSeconds
    omega
  rw [Middleware.adjustedCommand, Middleware.cutCommand, htime]

/-! ## The tables -/

/-- The insert checks the phase before it uses it. -/
theorem insertAccesses_stay (command : TscCommand) : StaysInTables command.insertAccesses := by
  unfold TscCommand.insertAccesses
  cases hcheck : command.check with
  | some err => exact staysInTables_nil
  | none => exact Middleware.phaseAccesses_stay.mpr (phase_of_check hcheck)

/-- Only an adjustment that gets past the first two checks looks up its phase. -/
theorem adjustmentAccesses_stay :
    StaysInTables (s.adjustmentAccesses bounds command adjustment) ↔
      (s.status.controlStrategy = 1 → InTables s.status.subPhaseId) ∧
        ((s.isInCompensation ∨ adjustment = 0) ∨ InTables command.phase) := by
  unfold Middleware.adjustmentAccesses
  rw [staysInTables_append, Middleware.isInCompensationAccesses_stay]
  refine and_congr_right fun _ => ?_
  split_ifs with hearly
  · exact iff_of_true staysInTables_nil (Or.inl hearly)
  · rw [staysInTables_append, Middleware.phaseAccesses_stay,
      and_iff_left (insertAccesses_stay _), or_iff_right hearly, InTables]

/-! ## Validation -/

/-- A request that gets past the first two checks is decided by the insert. -/
theorem commandBufInsertAdjustment_late
    (hlate : ¬ (s.isInCompensation ∨ adjustment = 0)) :
    s.commandBufInsertAdjustment bounds command adjustment =
      s.commandBufInsertEffectTime (s.adjustedCommand bounds command adjustment) := by
  obtain ⟨hidle, hmoves⟩ := not_or.mp hlate
  rw [commandBufInsertAdjustment_eq, if_neg hidle, if_neg hmoves]

/-- What the first two checks refuse does not reach the insert. -/
theorem commandBufInsertAdjustment_early (hearly : s.isInCompensation ∨ adjustment = 0) :
    (s.commandBufInsertAdjustment bounds command adjustment).1 ≠ .insertAccept ∧
      (s.commandBufInsertAdjustment bounds command adjustment).2 = s := by
  rw [commandBufInsertAdjustment_eq]
  split_ifs with hcompensating hzero
  · exact ⟨by simp, rfl⟩
  · exact ⟨by simp, rfl⟩
  · exact absurd hearly (not_or.mpr ⟨hcompensating, hzero⟩)

theorem adjustment_refused
    (hrefused : (s.commandBufInsertAdjustment bounds command adjustment).1 ≠ .insertAccept) :
    (s.commandBufInsertAdjustment bounds command adjustment).2 = s := by
  by_cases hearly : s.isInCompensation ∨ adjustment = 0
  · exact (commandBufInsertAdjustment_early hearly).2
  · rw [commandBufInsertAdjustment_late hearly] at hrefused ⊢
    exact insert_refused hrefused

/-- A request is validated before it is used exactly if the running phase and its own have
rows in the tables where they are looked up, and no seconds that 16 bits lose are
accepted. -/
theorem validatedBeforeUse_iff (s : Middleware) (bounds : AdjustBounds) (command : TscCommand)
    (adjustment : Int8) :
    ValidatedBeforeUse s bounds command adjustment ↔
      (s.status.controlStrategy = 1 → InTables s.status.subPhaseId) ∧
        ((s.isInCompensation ∨ adjustment = 0) ∨
          InTables command.phase ∧
            (bounds.Disabled → s.SecondsLost command adjustment →
              s.Refuses (s.cutCommand command adjustment))) := by
  constructor
  · intro hvalidated
    obtain ⟨hrunning, hphase⟩ := adjustmentAccesses_stay.mp hvalidated.reads
    refine ⟨hrunning, ?_⟩
    by_cases hearly : s.isInCompensation ∨ adjustment = 0
    · exact Or.inl hearly
    · refine Or.inr ⟨hphase.resolve_left hearly, fun hdisabled hlost => ?_⟩
      by_contra hrefuses
      -- the command that has lost its seconds would be accepted
      rw [← adjustedCommand_eq_cutCommand hdisabled hlost, ← insert_accepts_iff,
        ← commandBufInsertAdjustment_late hearly] at hrefuses
      exact (requested_iff hdisabled).mp (hvalidated.requested hdisabled hrefuses) hlost
  · rintro ⟨hrunning, hrequest⟩
    refine ⟨adjustmentAccesses_stay.mpr ⟨hrunning, hrequest.imp_right And.left⟩,
      Nat.mod_lt _ (by decide), adjustment_refused, fun hdisabled haccept => ?_⟩
    by_cases hearly : s.isInCompensation ∨ adjustment = 0
    · exact absurd haccept (commandBufInsertAdjustment_early hearly).1
    · refine (requested_iff hdisabled).mpr fun hlost => ?_
      rw [commandBufInsertAdjustment_late hearly, insert_accepts_iff,
        adjustedCommand_eq_cutCommand hdisabled hlost] at haccept
      exact haccept ((hrequest.resolve_left hearly).2 hdisabled hlost)

end Adjustment

/-- Group control for a bus, as it comes from a cloud packet. -/
def groupControl (cycle phase : UInt8) : TscCommand where
  appId := tspId
  appPriority := 2
  targetPhase := 2
  cycle := cycle
  phase := phase
  effectTime := 0
  hostObuName := ⟨['L', 'I', 'N', 'E'], by decide⟩

/-- For a ninth phase the plan behind the table is read. -/
theorem ninth_phase_read :
    ¬ ValidatedBeforeUse (Middleware.boot Config.initial (TrafficSignalStatus.initial fun _ =>
      StaticPlan.unset)) ⟨none, none⟩ (groupControl 0 9) 5 := by
  intro hvalidated
  exact absurd hvalidated.reads (by decide)

end AdaptiveSignal.Signal
