import AdaptiveSignal.CommandBuffer.Arbitration
import AdaptiveSignal.CommandBuffer.Events
import AdaptiveSignal.CommandBuffer.GreenBounds

/-! # Giving a phase back to its plan

An application that ends its control inserts a resume into the slot of the running
phase. The resume carries app id 99, whoever asks for it, and the arbitration
lets a resume take a slot only from a command of its own app id.
-/

namespace AdaptiveSignal.Signal

open Foundation

namespace Middleware

/-- The object in the slot of the running phase. -/
def held (s : Middleware) : TscCommandObject :=
  s.slotAt (s.cycleIndex, s.status.subPhaseId)

/-- The plan of the running phase. -/
def currentPlan (s : Middleware) : StaticPlan :=
  s.status.plan s.status.subPhaseId

/-- What an application may ask for: the running phase has a slot, and its planned
green a number of 16 bits with sign. -/
def Resumable (s : Middleware) : Prop :=
  (1 ≤ s.status.subPhaseId ∧ s.status.subPhaseId.toNat ≤ subPhaseIdNum) ∧
    s.currentPlan.preGreen.toNat < 32768

instance (s : Middleware) : Decidable s.Resumable :=
  inferInstanceAs (Decidable (_ ∧ _))

/-- A resume gets past what holds the slot. -/
def YieldsToResume (held : TscCommandObject) : Prop :=
  held.appId = 0 ∨ held.hostObuName = .resume ∨ held.appId = 99

/-! ## The outcome of a resume -/

section Outcome

variable (s : Middleware)

theorem toInt16_toInt (x : UInt16) :
    x.toInt16.toInt = if x.toNat < 32768 then (x.toNat : Int) else x.toNat - 65536 := by
  change x.toBitVec.toInt = _
  rw [BitVec.toInt_eq_toNat_cond]
  change (if 2 * x.toNat < 2 ^ 16 then (x.toNat : Int) else x.toNat - (2 ^ 16 : Nat)) = _
  split_ifs <;> omega

theorem resumeCommand_check : s.resumeCommand.check = none ↔ s.Resumable := by
  have heffect : ¬ s.resumeCommand.effectTime < 0 ↔ s.currentPlan.preGreen.toNat < 32768 := by
    have hlarge := s.currentPlan.preGreen.toNat_lt
    change ¬ s.currentPlan.preGreen.toInt16 < 0 ↔ _
    rw [Int16.lt_iff_toInt_lt, toInt16_toInt]
    change ¬ (_ < (0 : Int)) ↔ _
    split_ifs <;> omega
  have hphase : s.status.subPhaseId ≠ 0 ↔ 1 ≤ s.status.subPhaseId := by
    rw [UInt8.le_iff_toNat_le, ne_eq, ← UInt8.toNat_inj]
    change _ ≠ 0 ↔ 1 ≤ _
    omega
  rw [check_eq_none_iff, heffect]
  constructor
  · rintro ⟨-, -, hrange, -, -, hgreen, -⟩
    exact ⟨⟨hphase.mp hrange.1, hrange.2⟩, hgreen⟩
  · rintro ⟨⟨hpos, hrange⟩, hgreen⟩
    have hrange := And.intro (hphase.mpr hpos) hrange
    have happ : s.resumeCommand.appId ≠ 0 := by
      change (99 : UInt8) ≠ 0
      decide
    have hcycle : s.resumeCommand.cycle.toNat < cycleNum := by
      change 0 < 3
      decide
    have hname : s.resumeCommand.hostObuName.chars.length ≠ 0 := by
      change 6 ≠ 0
      decide
    exact ⟨happ, happ, hrange, hcycle, hrange, hgreen, hname⟩

theorem resume_slotCycle : s.slotCycle s.resumeCommand = s.cycleIndex := by
  change s.cycleIndex + Fin.ofNat cycleNum 0 = s.cycleIndex
  exact Fin.add_zero s.cycleIndex

theorem resume_target : s.target s.resumeCommand = s.held := by
  unfold target
  rw [resume_slotCycle]
  rfl

/-- What the arbitration answers a resume. -/
theorem resume_verdict :
    s.verdict s.resumeCommand =
      if s.held.appId = 0 ∨ s.held.hostObuName = .resume then .acceptAppId
      else if s.held.appId = 99 then .acceptObuName
      else .improperPriority := by
  unfold verdict arbitrate
  rw [resume_target]
  have hresume : strncmpEq 7 (s.resumeCommand.clamp
      (s.status.plan s.resumeCommand.phase)).hostObuName .resume = true := by
    rw [strncmpEq_resume]
    rfl
  have hother : strncmpEq 13 (s.resumeCommand.clamp
      (s.status.plan s.resumeCommand.phase)).hostObuName .compensation = false := by
    change strncmpEq 13 HostName.resume .compensation = false
    decide
  dsimp only
  rw [hother, Bool.and_false, hresume]
  simp only [Bool.false_eq_true, if_false, if_true, strncmpEq_resume]
  by_cases hempty : s.held.appId = 0
  · simp [hempty]
  · by_cases hname : s.held.hostObuName = .resume
    · simp [hempty, hname]
    · simp only [hempty, hname, or_self, if_false]
      rfl

theorem resume_accepts_iff :
    (s.commandBufResumeControl (some false)).1 = .insertAccept ↔
      s.Resumable ∧ YieldsToResume s.held := by
  change (s.commandBufInsertEffectTime s.resumeCommand).1 = .insertAccept ↔ _
  have hyields : s.verdict s.resumeCommand ≠ .improperPriority ↔ YieldsToResume s.held := by
    rw [resume_verdict, YieldsToResume, ← or_assoc]
    split_ifs with hfree happ
    · exact iff_of_true (by simp) (Or.inl hfree)
    · exact iff_of_true (by simp) (Or.inr happ)
    · exact iff_of_false (by simp) fun h => h.elim hfree happ
  rw [← resumeCommand_check, ← hyields]
  rcases insert_cases s s.resumeCommand with ⟨err, herr, -, hcheck, heq⟩ | ⟨-, hlabel, heq⟩ |
    ⟨hcheck, hlabel, heq⟩
  · rw [heq, hcheck]
    exact iff_of_false herr (by simp)
  · rw [heq]
    exact iff_of_false (by simp) fun h => h.2 hlabel
  · rw [heq]
    exact iff_of_true rfl ⟨hcheck, hlabel⟩

/-- A refused resume leaves the buffer. -/
theorem resume_refused (hrefuse : (s.commandBufResumeControl (some false)).1 ≠ .insertAccept) :
    (s.commandBufResumeControl (some false)).2 = s :=
  insert_refused hrefuse

/-- An accepted resume holds the slot, with the low byte of the clamped green. -/
theorem resume_accepted (haccept : (s.commandBufResumeControl (some false)).1 = .insertAccept) :
    let after := (s.commandBufResumeControl (some false)).2
    after.held.hostObuName = .resume ∧
      (after.held.effectTime.toNat : Int) =
        greenClamp s.currentPlan s.currentPlan.preGreen.toNat % 256 := by
  obtain ⟨⟨-, hgreen⟩, hyields⟩ := (resume_accepts_iff s).mp haccept
  have haccept : (s.commandBufInsertEffectTime s.resumeCommand).1 = .insertAccept := haccept
  have hafter := (insert_accepted haccept).2.2
  have hslot : (s.commandBufInsertEffectTime s.resumeCommand).2.held =
      (s.commandBufInsertEffectTime s.resumeCommand).2.target s.resumeCommand := by
    rw [hafter, target]
    change (s.setSlot _ _ _).commandBuf s.cycleIndex _ = (s.setSlot _ _ _).commandBuf
      (s.slotCycle s.resumeCommand) _
    rw [resume_slotCycle]
    rfl
  change (s.commandBufInsertEffectTime s.resumeCommand).2.held.hostObuName = .resume ∧
    ((s.commandBufInsertEffectTime s.resumeCommand).2.held.effectTime.toNat : Int) = _
  rw [hslot]
  constructor
  · rw [hafter, target]
    change ((s.setSlot (s.slotCycle s.resumeCommand) s.resumeCommand.phase _).commandBuf
      (s.slotCycle s.resumeCommand) s.resumeCommand.phase).hostObuName = _
    rw [setSlot_self, accepted, resume_verdict]
    split_ifs with hfree happ
    · rfl
    · rfl
    · rcases hyields with hzero | hname | happ'
      · exact absurd (Or.inl hzero) hfree
      · exact absurd (Or.inr hname) hfree
      · exact absurd happ' happ
  · rw [stored_eq_greenClamp haccept]
    change greenClamp s.currentPlan s.currentPlan.preGreen.toInt16.toInt % 256 = _
    rw [toInt16_toInt, if_pos hgreen]

end Outcome

/-! ## Whose slot a resume takes -/

/-- Application `app` gets the slot back from its own command, with the planned
green within the green bounds, and not from the command of another. -/
def TakesBack (s : Middleware) (app : UInt8) : Prop :=
  let result := s.commandBufResumeControl (some false)
  (s.held.appId ≠ 0 → s.held.appId = app →
    result.1 = .insertAccept ∧ result.2.held.hostObuName = .resume ∧
      (result.2.held.effectTime.toNat : Int) =
        greenClamp s.currentPlan s.currentPlan.preGreen.toNat) ∧
  (OrdinaryHolder s.held → s.held.appId ≠ app →
    result.1 ≠ .insertAccept ∧ result.2.held = s.held)

/-- The clamped green fits the byte of a slot. -/
def GreenFits (plan : StaticPlan) : Prop :=
  0 ≤ greenClamp plan plan.preGreen.toNat ∧ greenClamp plan plan.preGreen.toNat ≤ 255

/-- The id of a resume is that of the application, or a resume holds the slot; and
no other application holds it under that id. -/
def Paired (s : Middleware) (app : UInt8) : Prop :=
  (s.held.appId ≠ 0 → s.held.appId = app →
    (app = 99 ∨ s.held.hostObuName = .resume) ∧ s.Resumable ∧ GreenFits s.currentPlan) ∧
  (OrdinaryHolder s.held → s.held.appId ≠ app → s.held.appId = 99 → ¬ s.Resumable)

theorem takesBack_own_iff {s : Middleware} {app : UInt8} (hheld : s.held.appId ≠ 0)
    (hown : s.held.appId = app) :
    ((s.commandBufResumeControl (some false)).1 = .insertAccept ∧
      (s.commandBufResumeControl (some false)).2.held.hostObuName = .resume ∧
      ((s.commandBufResumeControl (some false)).2.held.effectTime.toNat : Int) =
        greenClamp s.currentPlan s.currentPlan.preGreen.toNat) ↔
      (app = 99 ∨ s.held.hostObuName = .resume) ∧ s.Resumable ∧ GreenFits s.currentPlan := by
  constructor
  · rintro ⟨haccept, -, hstored⟩
    obtain ⟨hresumable, hyields⟩ := (resume_accepts_iff s).mp haccept
    have hlow := (resume_accepted s haccept).2
    rw [hstored] at hlow
    refine ⟨?_, hresumable, by omega, by omega⟩
    rcases hyields with hzero | hname | happ
    · exact absurd hzero hheld
    · exact Or.inr hname
    · exact Or.inl (hown.symm.trans happ)
  · rintro ⟨hpaired, hresumable, hnonneg, hbyte⟩
    have hyields : YieldsToResume s.held := by
      rcases hpaired with rfl | hname
      · exact Or.inr (Or.inr hown)
      · exact Or.inr (Or.inl hname)
    have haccept := (resume_accepts_iff s).mpr ⟨hresumable, hyields⟩
    obtain ⟨hname, hstored⟩ := resume_accepted s haccept
    refine ⟨haccept, hname, ?_⟩
    rw [hstored]
    omega

theorem takesBack_other_iff {s : Middleware} (hheld : OrdinaryHolder s.held) :
    ((s.commandBufResumeControl (some false)).1 ≠ .insertAccept ∧
      (s.commandBufResumeControl (some false)).2.held = s.held) ↔
      (s.held.appId = 99 → ¬ s.Resumable) := by
  constructor
  · rintro ⟨hrefuse, -⟩ happ hresumable
    exact hrefuse ((resume_accepts_iff s).mpr ⟨hresumable, Or.inr (Or.inr happ)⟩)
  · intro hnot
    have hrefuse : (s.commandBufResumeControl (some false)).1 ≠ .insertAccept := by
      intro haccept
      obtain ⟨hresumable, hzero | hname | happ⟩ := (resume_accepts_iff s).mp haccept
      · exact hheld.occupied hzero
      · exact hheld.not_resume hname
      · exact hnot happ hresumable
    exact ⟨hrefuse, by rw [resume_refused s hrefuse]⟩

/-- In every state of the buffer an application takes its slot back, and nobody
else's, exactly if the fixed id of a resume pairs with the holder. -/
theorem takesBack_iff_paired (s : Middleware) (app : UInt8) :
    s.TakesBack app ↔ s.Paired app := by
  unfold TakesBack Paired
  dsimp only
  apply and_congr
  · exact forall₂_congr fun hheld hown => takesBack_own_iff hheld hown
  · exact forall₂_congr fun hheld _ => takesBack_other_iff hheld

/-- A bus holds phase 1 of a plan of 30 seconds. -/
def afterBusRequest : Middleware :=
  run onEvent (boot Config.initial (TrafficSignalStatus.initial fun _ => .unset))
    [.packet (.onePhasePlan 0xC5 1 30), .packet (.onePhaseParameters 1 10 60 5 3),
      .packet (.confirmation 16 1 1), .insert (.busRequest 40)]

/-- The bus application ends its control and is refused. -/
theorem own_resume_refused :
    afterBusRequest.held.appId = tspId ∧
      (afterBusRequest.commandBufResumeControl (some false)).1 = .improperPriority ∧
      ¬ afterBusRequest.TakesBack tspId := by
  have hrefuse : (afterBusRequest.commandBufResumeControl (some false)).1 =
      .improperPriority := by decide
  refine ⟨by decide, hrefuse, fun h => ?_⟩
  have haccept := (h.1 (by decide) (by decide)).1
  rw [hrefuse] at haccept
  cases haccept

end Middleware

end AdaptiveSignal.Signal
