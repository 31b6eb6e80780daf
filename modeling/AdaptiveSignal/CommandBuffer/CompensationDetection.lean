import AdaptiveSignal.CommandBuffer.Events

/-! # When a compensation is detected

Under pretime control the step 1 seconds of the running plan are compared with
those of the stored plan, each worked out by the handler of another packet.
Under any other control a command under app id 99 counts as a compensation.
-/

namespace AdaptiveSignal.Signal

open Foundation

/-! ## Pretime control -/

/-- A plan that the controller runs as it is stored. -/
structure UnadjustedPlan where
  count : UInt8
  green : UInt8 → UInt16
  pedGreenFlash : UInt8 → UInt8
  pedRed : UInt8 → UInt8

/-- What a plan packet says agrees with the plan. -/
def UnadjustedPlan.Reports (plan : UnadjustedPlan) (packet : TrafficSignalPacket) : Prop :=
  match packet.kind with
  | .planParameters =>
      packet.info 3 = plan.count ∧ ∀ p, Covers plan.count p →
        packet.pedGreenFlashOf p = plan.pedGreenFlash p ∧ packet.pedRedOf p = plan.pedRed p
  | .storedPlan | .runningPlan =>
      packet.info 5 = plan.count ∧ ∀ p, Covers plan.count p → packet.greenOf p = plan.green p
  | _ => True

/-- Which values have arrived, and which had when the derived ones were worked out. -/
structure Arrivals where
  green : Bool
  ped : Bool
  running : Bool
  greenAtParameters : Bool
  pedAtRunning : Bool
  deriving DecidableEq

namespace Arrivals

def nothing : Arrivals := ⟨false, false, false, false, false⟩

def next (arrived : Arrivals) (packet : TrafficSignalPacket) : Arrivals :=
  match packet.kind with
  | .planParameters => { arrived with ped := true, greenAtParameters := arrived.green }
  | .storedPlan => { arrived with green := true }
  | .runningPlan =>
      { arrived with green := true, running := true, pedAtRunning := arrived.ped }
  | _ => arrived

/-- What the order of the packets comes to. -/
def after (packets : List TrafficSignalPacket) : Arrivals :=
  run next nothing packets

/-- Both derived values were worked out, step 1 before or after any green came. -/
structure Complete (arrived : Arrivals) : Prop where
  green : arrived.green = true
  ped : arrived.ped = true
  running : arrived.running = true

/-- A running plan brings its greens along, so that the pedestrian seconds precede
it or the greens precede them. -/
def Ordered (arrived : Arrivals) : Prop :=
  (arrived.running = true → arrived.green = true) ∧
    (arrived.ped = true → arrived.running = true → arrived.pedAtRunning = false →
      arrived.greenAtParameters = true)

theorem Ordered.next {arrived : Arrivals} (h : arrived.Ordered) (packet : TrafficSignalPacket) :
    (arrived.next packet).Ordered := by
  obtain ⟨hgreen, hped⟩ := h
  unfold Arrivals.next
  cases packet.kind with
  | planParameters => exact ⟨hgreen, fun _ hrunning _ => hgreen hrunning⟩
  | storedPlan => exact ⟨fun _ => rfl, hped⟩
  | runningPlan =>
      refine ⟨fun _ => rfl, fun harrived _ hnot => ?_⟩
      change arrived.ped = false at hnot
      exact absurd (hnot.symm.trans harrived) (by simp)
  | _ => exact ⟨hgreen, hped⟩

theorem after_ordered (packets : List TrafficSignalPacket) : (after packets).Ordered :=
  run_invariant next (fun _ packet h => h.next packet) nothing packets
    ⟨fun hrunning => hrunning, fun harrived => by cases harrived⟩

end Arrivals

/-- The stored values of a phase are those of the plan as far as they arrived. -/
structure UnadjustedPlan.Stored (plan : UnadjustedPlan) (arrived : Arrivals) (p : UInt8)
    (stored : StaticPlan) : Prop where
  green : stored.green = if arrived.green then plan.green p else 0
  pedGreenFlash : stored.pedGreenFlash = if arrived.ped then plan.pedGreenFlash p else 0
  pedRed : stored.pedRed = if arrived.ped then plan.pedRed p else 0
  preGreen : stored.preGreen =
    if arrived.ped then
      (if arrived.greenAtParameters then plan.green p else 0) - (plan.pedGreenFlash p).toUInt16
    else 0
  preTimeCompensated : stored.preTimeCompensated =
    if arrived.running then
      plan.green p - (if arrived.pedAtRunning then plan.pedGreenFlash p else 0).toUInt16 -
        (if arrived.pedAtRunning then plan.pedRed p else 0).toUInt16
    else 0

namespace UnadjustedPlan

/-- When the plan does not look adjusted. With all packets in step the pedestrian
red has to be nothing or all of the remaining green; a running plan that came
before the parameters is told apart by the flashing green, and parameters that
came before every green compare a red with it. -/
def Unnoticed (plan : UnadjustedPlan) (arrived : Arrivals) (p : UInt8) : Prop :=
  if arrived.greenAtParameters then
    if arrived.pedAtRunning then
      (plan.pedRed p).toUInt16 = 0 ∨
        plan.green p = (plan.pedGreenFlash p).toUInt16 + (plan.pedRed p).toUInt16
    else (plan.pedGreenFlash p).toUInt16 = 0 ∨ plan.green p = 0
  else
    plan.green p = (plan.pedRed p).toUInt16 ∨
      plan.green p = (plan.pedGreenFlash p).toUInt16 + (plan.pedRed p).toUInt16

theorem Stored.unnoticed_iff {plan : UnadjustedPlan} {arrived : Arrivals} {p : UInt8}
    {stored : StaticPlan} (h : plan.Stored arrived p stored)
    (hcomplete : arrived.Complete) (hordered : arrived.Ordered) :
    (stored.preTimeCompensated = 0 ∨ stored.preGreen = stored.preTimeCompensated) ↔
      plan.Unnoticed arrived p := by
  rw [h.preTimeCompensated, h.preGreen, if_pos hcomplete.running, if_pos hcomplete.ped]
  unfold Unnoticed
  generalize plan.green p = green
  cases hgreen : arrived.greenAtParameters with
  | true =>
      cases hped : arrived.pedAtRunning with
      | true =>
          simp only [if_true]
          grind
      | false =>
          simp only [if_true, Bool.false_eq_true, if_false]
          change (green - 0 - 0 = 0 ∨ green - _ = green - 0 - 0) ↔ _
          grind
  | false =>
      -- the running plan brought a green, so the parameters came before it
      have hped : arrived.pedAtRunning = true := by
        cases hped : arrived.pedAtRunning with
        | true => rfl
        | false =>
            have hgreen' := hordered.2 hcomplete.ped hcomplete.running hped
            exact absurd (hgreen.symm.trans hgreen') (by simp)
      simp only [hped, if_true, Bool.false_eq_true, if_false]
      grind

end UnadjustedPlan

namespace Middleware

open UnadjustedPlan

variable {plan : UnadjustedPlan} {arrived : Arrivals} {s : Middleware}

/-- A packet that agrees with the plan stores what the order of the packets says. -/
theorem stored_dispatch (packet : TrafficSignalPacket) (hreports : plan.Reports packet)
    {p : UInt8} (hcovers : Covers plan.count p)
    (h : plan.Stored arrived p (s.status.plan p)) :
    plan.Stored (arrived.next packet) p ((s.dispatch packet).status.plan p) := by
  cases hkind : packet.kind with
  | planParameters =>
      simp only [Reports, hkind] at hreports
      obtain ⟨hcount, hvalues⟩ := hreports
      obtain ⟨hflash, hred⟩ := hvalues p hcovers
      rw [(dispatch_planParameters s packet hkind).2 p, hcount, if_pos hcovers]
      simp only [Arrivals.next, hkind]
      exact ⟨h.green, hflash, hred, by simp only [h.green, hflash, if_true], h.preTimeCompensated⟩
  | storedPlan =>
      simp only [Reports, hkind] at hreports
      obtain ⟨hcount, hvalues⟩ := hreports
      rw [(dispatch_storedPlan s packet hkind).2 p, hcount, if_pos hcovers]
      simp only [Arrivals.next, hkind]
      exact ⟨hvalues p hcovers, h.pedGreenFlash, h.pedRed, h.preGreen, h.preTimeCompensated⟩
  | runningPlan =>
      simp only [Reports, hkind] at hreports
      obtain ⟨hcount, hvalues⟩ := hreports
      rw [(dispatch_runningPlan s packet hkind).2 p, hcount, if_pos hcovers]
      simp only [Arrivals.next, hkind]
      refine ⟨hvalues p hcovers, h.pedGreenFlash, h.pedRed, h.preGreen, ?_⟩
      simp only [hvalues p hcovers, h.pedGreenFlash, h.pedRed, if_true]
  | _ =>
      have hplan := (dispatch_otherPlan s packet (by rw [hkind]; decide) (by rw [hkind]; decide)
        (by rw [hkind]; decide)).2
      rw [hplan]
      simp only [Arrivals.next, hkind]
      exact h

theorem stored_run (config : Config) {packets : List TrafficSignalPacket}
    (hreports : ∀ packet ∈ packets, plan.Reports packet) {p : UInt8}
    (hcovers : Covers plan.count p) :
    plan.Stored (Arrivals.after packets) p ((run dispatch
      (boot config (TrafficSignalStatus.initial fun _ => .unset)) packets).status.plan p) := by
  induction packets using List.reverseRecOn with
  | nil => exact ⟨rfl, rfl, rfl, rfl, rfl⟩
  | append_singleton packets last ih =>
      rw [run_concat, Arrivals.after, run_concat]
      apply stored_dispatch last (hreports last (by simp)) hcovers
      exact ih fun packet hpacket => hreports packet (List.mem_append_left _ hpacket)

/-- Under pretime control the verdict compares two times of the running phase. -/
theorem isInCompensation_pretime (hstrategy : s.status.controlStrategy = 1) :
    s.isInCompensation = false ↔
      (s.status.plan s.status.subPhaseId).preTimeCompensated = 0 ∨
        (s.status.plan s.status.subPhaseId).preGreen =
          (s.status.plan s.status.subPhaseId).preTimeCompensated := by
  simp only [isInCompensation, hstrategy, if_true, Bool.and_eq_false_iff, decide_eq_false_iff_not,
    UInt16.pos_iff_ne_zero, ne_eq, not_not]

/-- Exactly the plans that do not look adjusted are left undetected. -/
theorem pretime_iff_unnoticed (config : Config) {packets : List TrafficSignalPacket}
    (hreports : ∀ packet ∈ packets, plan.Reports packet)
    (hcomplete : (Arrivals.after packets).Complete) :
    let s := run dispatch (boot config (TrafficSignalStatus.initial fun _ => .unset)) packets
    s.status.controlStrategy = 1 → Covers plan.count s.status.subPhaseId →
      (s.isInCompensation = false ↔
        plan.Unnoticed (Arrivals.after packets) s.status.subPhaseId) := by
  intro s hstrategy hcovers
  rw [isInCompensation_pretime hstrategy]
  exact (stored_run config hreports hcovers).unnoticed_iff hcomplete
    (Arrivals.after_ordered packets)

/-! ## Other control -/

/-- Some slot holds a command of the compensation. -/
def holdsCompensation (s : Middleware) : Bool :=
  s.anySlot fun obj => obj.hostObuName = .compensation

/-- Some slot holds a command that resumes the plan. -/
def holdsResume (s : Middleware) : Bool :=
  s.anySlot fun obj => obj.hostObuName = .resume

/-- App id 99 goes with the names of the compensation and of resuming. -/
def ReservedId (appId : UInt8) (hostObuName : HostName) : Prop :=
  appId = compensationId ↔ hostObuName = .compensation ∨ hostObuName = .resume

def ReservedObject (obj : TscCommandObject) : Prop :=
  ReservedId obj.appId obj.hostObuName

/-- The application uses neither the reserved id nor a reserved name, or both. -/
def ReservedCommand (command : TscCommand) : Prop :=
  ReservedId command.appId command.hostObuName

theorem reserved_invariant : ObjectInvariant ReservedObject where
  cleared := by
    unfold ReservedObject ReservedId
    decide
  adjusted _ _ hobj := hobj
  sent _ hobj := hobj

/-- The name alone is taken over only from a resume of the same app id. -/
theorem verdict_acceptObuName {command : TscCommand} (h : s.verdict command = .acceptObuName) :
    (s.target command).appId = command.appId := by
  simp only [verdict, arbitrate] at h
  split_ifs at h with _ _ _ _ happ
  · exact happ

theorem accepting_reserved : ObjectInvariant.Accepting ReservedObject ReservedCommand := by
  intro s command hcommand _ haccept htarget
  unfold accepted ReservedObject
  cases hlabel : s.verdict command with
  | acceptAppId => exact hcommand
  | acceptObuName =>
      change ReservedId ((s.target command).firstInsert _).appId command.hostObuName
      rw [firstInsert_appId, verdict_acceptObuName hlabel]
      exact hcommand
  | acceptEffectTime =>
      change ReservedId ((s.target command).firstInsert _).appId
        ((s.target command).firstInsert _).hostObuName
      rw [firstInsert_appId, firstInsert_hostObuName]
      exact htarget
  | improperPriority => exact absurd hlabel haccept

theorem anySlot_iff (found : TscCommandObject → Bool) :
    s.anySlot found = true ↔ ∃ cycle, ∃ phase ∈ phases, found (s.slotAt (cycle, phase)) = true := by
  simp [anySlot, slotAt]

/-- Under any control but pretime a resume is taken for a compensation. -/
theorem isInCompensation_reserved (hstrategy : s.status.controlStrategy ≠ 1)
    (hreserved : ∀ slot, ReservedObject (s.slotAt slot)) :
    s.isInCompensation = (s.holdsCompensation || s.holdsResume) := by
  rw [Bool.eq_iff_iff, Bool.or_eq_true]
  unfold isInCompensation holdsCompensation holdsResume
  rw [if_neg hstrategy, anySlot_iff, anySlot_iff, anySlot_iff]
  simp only [decide_eq_true_eq]
  constructor
  · rintro ⟨cycle, phase, hphase, happ⟩
    rcases (hreserved (cycle, phase)).mp happ with hname | hname
    · exact Or.inl ⟨cycle, phase, hphase, hname⟩
    · exact Or.inr ⟨cycle, phase, hphase, hname⟩
  · rintro (⟨cycle, phase, hphase, hname⟩ | ⟨cycle, phase, hphase, hname⟩)
    · exact ⟨cycle, phase, hphase, (hreserved (cycle, phase)).mpr (Or.inl hname)⟩
    · exact ⟨cycle, phase, hphase, (hreserved (cycle, phase)).mpr (Or.inr hname)⟩

/-- The commands of the applications keep to the reserved id and names. -/
def OffersReserved (_ : Middleware) : BufferEvent → Prop
  | .insert command => ReservedCommand command
  | _ => True

theorem reserved_run (config : Config) (status : TrafficSignalStatus)
    {events : List BufferEvent}
    (hevents : Guarded onEvent OffersReserved (boot config status) events) :
    ∀ slot, ReservedObject ((run onEvent (boot config status) events).slotAt slot) := by
  apply reserved_invariant.onRun accepting_reserved
  · refine hevents.mono fun s event hevent command hcommand => ?_
    cases event with
    | insert offered =>
        rw [List.mem_singleton.mp hcommand]
        exact hevent
    | resume app =>
        rw [List.mem_singleton.mp hcommand]
        exact iff_of_true rfl (Or.inr rfl)
    | poll requests =>
        obtain ⟨request, -, rfl⟩ := List.mem_map.mp hcommand
        exact iff_of_true rfl (Or.inl rfl)
    | deleteObu hostObuName => cases hcommand
    | packet packet => cases hcommand
  · intro slot
    exact reserved_invariant.cleared

/-! ## Both kinds of control -/

/-- When a compensation is detected exactly if there is one. Under pretime control
an unadjusted plan goes undetected for the plans and orders of packets with equal
times. Under other control, whatever was done to the buffer, the verdict is right
unless a resume is held while no compensation is. -/
theorem compensation_detected_iff (config : Config) :
    (∀ (plan : UnadjustedPlan) (packets : List TrafficSignalPacket),
      (∀ packet ∈ packets, plan.Reports packet) → (Arrivals.after packets).Complete →
      let s := run dispatch (boot config (TrafficSignalStatus.initial fun _ => .unset)) packets
      s.status.controlStrategy = 1 → Covers plan.count s.status.subPhaseId →
        (s.isInCompensation = false ↔
          plan.Unnoticed (Arrivals.after packets) s.status.subPhaseId)) ∧
    ∀ (status : TrafficSignalStatus) (events : List BufferEvent),
      Guarded onEvent OffersReserved (boot config status) events →
      let s := run onEvent (boot config status) events
      s.status.controlStrategy ≠ 1 →
        ((s.isInCompensation = true ↔ s.holdsCompensation = true) ↔
          (s.holdsResume = true → s.holdsCompensation = true)) := by
  constructor
  · intro plan packets hreports hcomplete
    exact pretime_iff_unnoticed config hreports hcomplete
  · intro status events hevents s hstrategy
    rw [isInCompensation_reserved hstrategy (reserved_run config status hevents),
      Bool.or_eq_true]
    constructor
    · intro hright hresume
      exact hright.mp (Or.inr hresume)
    · intro himplies
      exact ⟨fun hheld => hheld.elim id himplies, Or.inl⟩

/-- 30 seconds of green, 5 of them flashing and 3 red for pedestrians. -/
def quietPlan : UnadjustedPlan where
  count := 1
  green := fun _ => 30
  pedGreenFlash := fun _ => 5
  pedRed := fun _ => 3

/-- The packets of the plan in step, and a report of phase 1 under pretime control. -/
def quietPackets : List TrafficSignalPacket :=
  [.onePhasePlan 0xC5 1 30, .onePhaseParameters 1 10 60 5 3, .onePhasePlan 0xC8 1 30,
    .confirmation 1 1 1]

theorem quietPackets_report : ∀ packet ∈ quietPackets, quietPlan.Reports packet := by
  have hcovers : ∀ p, Covers quietPlan.count p → p = 1 := fun p hp =>
    UInt8.le_antisymm hp.2 hp.1
  intro packet hpacket
  simp only [quietPackets, List.mem_cons, List.not_mem_nil, or_false] at hpacket
  rcases hpacket with rfl | rfl | rfl | rfl
  · exact ⟨rfl, fun p hp => by rw [hcovers p hp]; decide⟩
  · exact ⟨rfl, fun p hp => by rw [hcovers p hp]; decide⟩
  · exact ⟨rfl, fun p hp => by rw [hcovers p hp]; decide⟩
  · trivial

/-- After the packets of the unadjusted plan. -/
def afterQuietPackets : Middleware :=
  run dispatch (boot Config.initial (TrafficSignalStatus.initial fun _ => .unset)) quietPackets

/-- Phase 1 under dynamic control, resumed by an application. -/
def resumeEvents : List BufferEvent :=
  [.packet (.confirmation 16 1 1), .resume (some false)]

def afterResume : Middleware :=
  run onEvent (boot Config.initial (TrafficSignalStatus.initial fun _ => .unset)) resumeEvents

/-- The unadjusted plan is taken for a compensation, and so is a buffer that holds
the resume of an application and nothing else. -/
theorem compensation_misdetected :
    ((∀ packet ∈ quietPackets, quietPlan.Reports packet) ∧
      afterQuietPackets.status.controlStrategy = 1 ∧
      afterQuietPackets.isInCompensation = true) ∧
    afterResume.status.controlStrategy = 16 ∧ afterResume.holdsResume = true ∧
      afterResume.holdsCompensation = false ∧ afterResume.isInCompensation = true := by
  refine ⟨⟨quietPackets_report, by decide, by decide⟩, by decide⟩

/-- The plan is noticed because the red is neither 0 nor the rest of the green, the
buffer because nothing but a resume is held. -/
theorem compensation_detected_iff_quiet :
    (afterQuietPackets.isInCompensation = false ↔
      quietPlan.Unnoticed (Arrivals.after quietPackets) 1) ∧
    ((afterResume.isInCompensation = true ↔ afterResume.holdsCompensation = true) ↔
      (afterResume.holdsResume = true → afterResume.holdsCompensation = true)) := by
  obtain ⟨hpretime, hdynamic⟩ := compensation_detected_iff Config.initial
  constructor
  · exact hpretime quietPlan quietPackets quietPackets_report ⟨by decide, by decide, by decide⟩
      (by decide) (by decide)
  · exact hdynamic (TrafficSignalStatus.initial fun _ => .unset) resumeEvents
      ⟨trivial, trivial, trivial⟩ (by decide)

end Middleware

end AdaptiveSignal.Signal
