import AdaptiveSignal.Foundation.Run
import AdaptiveSignal.Signal.PlanPackets

/-! # Whether the stored values of a phase are of one plan

Green, step 1 and pedestrian seconds of a phase arrive in different packets, and
each derived value is worked out once, from what is stored when its packet comes.
Next to the status goes, for every value, the list of plans it was taken from.
-/

namespace AdaptiveSignal.Signal

open Foundation

/-- The plans the values of a phase were reported under; none while unset. -/
structure PlanOrigin where
  green : List UInt8
  ped : List UInt8
  preGreen : List UInt8
  preTimeCompensated : List UInt8
  deriving DecidableEq

namespace PlanOrigin

def unset : PlanOrigin := ⟨[], [], [], []⟩

def plans (origin : PlanOrigin) : List UInt8 :=
  origin.green ++ origin.ped ++ origin.preGreen ++ origin.preTimeCompensated

/-- All values of the phase go back to one plan. -/
def SamePlan (origin : PlanOrigin) : Prop :=
  ∃ plan, ∀ id ∈ origin.plans, id = plan

theorem samePlan_iff {origin : PlanOrigin} (plan : UInt8) (hmem : plan ∈ origin.plans) :
    origin.SamePlan ↔ ∀ id ∈ origin.plans, id = plan := by
  constructor
  · rintro ⟨common, hcommon⟩ id hid
    rw [hcommon id hid, hcommon plan hmem]
  · intro hall
    exact ⟨plan, hall⟩

end PlanOrigin

/-- `PlanID` of a plan packet. -/
def TrafficSignalPacket.planId (packet : TrafficSignalPacket) : UInt8 :=
  packet.info 2

/-- The middleware with the origins of its plan values, and whether parameters
and a stored plan have been reported. -/
structure Sourced where
  middleware : Middleware
  origin : UInt8 → PlanOrigin
  parameters : Bool
  stored : Bool

namespace Sourced

def boot (config : Config) (status : TrafficSignalStatus) : Sourced where
  middleware := Middleware.boot config status
  origin := fun _ => PlanOrigin.unset
  parameters := false
  stored := false

/-- Where the values of a phase come from after a packet. -/
def originAfter (t : Sourced) (packet : TrafficSignalPacket) (p : UInt8) : PlanOrigin :=
  let origin := t.origin p
  match packet.kind with
  | .planParameters =>
      if Covers (packet.info 3) p then
        { origin with ped := [packet.planId], preGreen := packet.planId :: origin.green }
      else origin
  | .storedPlan =>
      if Covers (packet.info 5) p then { origin with green := [packet.planId] } else origin
  | .runningPlan =>
      if Covers (packet.info 5) p then
        { origin with
          green := [packet.planId]
          preTimeCompensated := packet.planId :: origin.ped }
      else origin
  | _ => origin

def receive (t : Sourced) (packet : TrafficSignalPacket) : Sourced where
  middleware := t.middleware.dispatch packet
  origin := t.originAfter packet
  parameters := t.parameters || packet.kind = .planParameters
  stored := t.stored || packet.kind = .storedPlan

/-! ## The property and the condition -/

/-- Every phase in use has step 1 as its green and its flashing pedestrian green
give it, and all its values from one plan. -/
def Coherent (t : Sourced) : Prop :=
  ∀ p, Covers t.middleware.status.subPhaseCount p →
    let plan := t.middleware.status.plan p
    plan.preGreen = plan.green - plan.pedGreenFlash.toUInt16 ∧ (t.origin p).SamePlan

/-- The greens of a packet leave step 1 of every phase as it was worked out. -/
def GreensFit (t : Sourced) (packet : TrafficSignalPacket) : Prop :=
  ∀ p, Covers (packet.info 5) p →
    let plan := t.middleware.status.plan p
    plan.preGreen = packet.greenOf p - plan.pedGreenFlash.toUInt16

/-- Parameters that follow a stored plan are of the plan the greens and the
compensated times came from; a plan that follows parameters is the one they were
worked out with, greens and number alike. -/
def KeepsPlan (t : Sourced) (packet : TrafficSignalPacket) : Prop :=
  match packet.kind with
  | .planParameters =>
      t.stored → ∀ p, Covers (packet.info 3) p →
        ∀ id ∈ (t.origin p).green ++ (t.origin p).preTimeCompensated, id = packet.planId
  | .storedPlan =>
      t.parameters → t.GreensFit packet ∧ ∀ p, Covers (packet.info 5) p →
        ∀ id ∈ (t.origin p).ped ++ (t.origin p).preGreen ++ (t.origin p).preTimeCompensated,
          id = packet.planId
  | .runningPlan =>
      t.parameters → t.stored → t.GreensFit packet ∧ ∀ p, Covers (packet.info 5) p →
        ∀ id ∈ (t.origin p).ped ++ (t.origin p).preGreen, id = packet.planId
  | _ => True

/-- Coherent once parameters and a stored plan have both been reported. -/
def CoherentWhenReported (t : Sourced) : Prop :=
  t.parameters → t.stored → t.Coherent

section Receive

variable (t : Sourced) (packet : TrafficSignalPacket)

/-- Parameters bring step 1 up to date; the plan numbers have to agree. -/
theorem coherent_planParameters (hkind : packet.kind = .planParameters) :
    (t.receive packet).Coherent ↔ ∀ p, Covers (packet.info 3) p →
      ∀ id ∈ (t.origin p).green ++ (t.origin p).preTimeCompensated, id = packet.planId := by
  obtain ⟨hcount, hplan⟩ := Middleware.dispatch_planParameters t.middleware packet hkind
  unfold Coherent
  change (∀ p, Covers (t.middleware.dispatch packet).status.subPhaseCount p → _) ↔ _
  rw [hcount]
  refine forall₂_congr fun p hcovers => ?_
  have hvalues : ((t.receive packet).middleware.status.plan p).preGreen =
      ((t.receive packet).middleware.status.plan p).green -
        ((t.receive packet).middleware.status.plan p).pedGreenFlash.toUInt16 := by
    change ((t.middleware.dispatch packet).status.plan p).preGreen =
      ((t.middleware.dispatch packet).status.plan p).green -
        ((t.middleware.dispatch packet).status.plan p).pedGreenFlash.toUInt16
    rw [hplan, if_pos hcovers]
  -- step 1 now comes from the parameters and from wherever the green came
  have horigin : (t.receive packet).origin p =
      { t.origin p with
        ped := [packet.planId], preGreen := packet.planId :: (t.origin p).green } := by
    simp only [receive, originAfter, hkind, if_pos hcovers]
  refine (and_iff_right hvalues).trans ?_
  rw [horigin, PlanOrigin.samePlan_iff packet.planId (by simp [PlanOrigin.plans])]
  simp only [PlanOrigin.plans, List.mem_append, List.mem_cons, List.not_mem_nil, or_false]
  constructor
  · rintro hall id (hid | hid)
    · exact hall id (Or.inl (Or.inl (Or.inl hid)))
    · exact hall id (Or.inr hid)
  · rintro hall id (((hid | hid) | (hid | hid)) | hid)
    · exact hall id (Or.inl hid)
    · exact hid
    · exact hid
    · exact hall id (Or.inl hid)
    · exact hall id (Or.inr hid)

/-- New greens leave step 1 of their phases as it was. -/
theorem coherent_of_greens
    (hcount : (t.middleware.dispatch packet).status.subPhaseCount = packet.info 5)
    (hvalues : ∀ p, Covers (packet.info 5) p →
      let stored := t.middleware.status.plan p
      let plan := (t.middleware.dispatch packet).status.plan p
      plan.preGreen = stored.preGreen ∧ plan.pedGreenFlash = stored.pedGreenFlash ∧
        plan.green = packet.greenOf p) :
    (t.receive packet).Coherent ↔ t.GreensFit packet ∧ ∀ p, Covers (packet.info 5) p →
      ((t.receive packet).origin p).SamePlan := by
  unfold Coherent GreensFit
  change (∀ p, Covers (t.middleware.dispatch packet).status.subPhaseCount p → _) ↔ _
  rw [hcount, ← forall₂_and]
  refine forall₂_congr fun p hcovers => and_congr_left fun _ => ?_
  obtain ⟨hpre, hflash, hgreen⟩ := hvalues p hcovers
  change ((t.middleware.dispatch packet).status.plan p).preGreen =
    ((t.middleware.dispatch packet).status.plan p).green -
      ((t.middleware.dispatch packet).status.plan p).pedGreenFlash.toUInt16 ↔ _
  rw [hpre, hflash, hgreen]

/-- A stored plan replaces the greens only. -/
theorem coherent_storedPlan (hkind : packet.kind = .storedPlan) :
    (t.receive packet).Coherent ↔ t.GreensFit packet ∧ ∀ p, Covers (packet.info 5) p →
      ∀ id ∈ (t.origin p).ped ++ (t.origin p).preGreen ++ (t.origin p).preTimeCompensated,
        id = packet.planId := by
  obtain ⟨hcount, hplan⟩ := Middleware.dispatch_storedPlan t.middleware packet hkind
  rw [coherent_of_greens t packet hcount fun p hcovers => by
    rw [hplan, if_pos hcovers]
    exact ⟨rfl, rfl, rfl⟩]
  refine and_congr_right fun _ => forall₂_congr fun p hcovers => ?_
  have horigin : (t.receive packet).origin p = { t.origin p with green := [packet.planId] } := by
    simp only [receive, originAfter, hkind, if_pos hcovers]
  rw [horigin, PlanOrigin.samePlan_iff packet.planId (by simp [PlanOrigin.plans])]
  simp only [PlanOrigin.plans, List.cons_append, List.nil_append, List.forall_mem_cons,
    true_and]

/-- A running plan replaces the greens and the compensated times. -/
theorem coherent_runningPlan (hkind : packet.kind = .runningPlan) :
    (t.receive packet).Coherent ↔ t.GreensFit packet ∧ ∀ p, Covers (packet.info 5) p →
      ∀ id ∈ (t.origin p).ped ++ (t.origin p).preGreen, id = packet.planId := by
  obtain ⟨hcount, hplan⟩ := Middleware.dispatch_runningPlan t.middleware packet hkind
  rw [coherent_of_greens t packet hcount fun p hcovers => by
    rw [hplan, if_pos hcovers]
    exact ⟨rfl, rfl, rfl⟩]
  refine and_congr_right fun _ => forall₂_congr fun p hcovers => ?_
  have horigin : (t.receive packet).origin p =
      { t.origin p with
        green := [packet.planId]
        preTimeCompensated := packet.planId :: (t.origin p).ped } := by
    simp only [receive, originAfter, hkind, if_pos hcovers]
  rw [horigin, PlanOrigin.samePlan_iff packet.planId (by simp [PlanOrigin.plans])]
  simp only [PlanOrigin.plans, List.mem_append, List.mem_cons, List.not_mem_nil, or_false]
  constructor
  · rintro hall id (hid | hid)
    · exact hall id (Or.inl (Or.inl (Or.inr hid)))
    · exact hall id (Or.inl (Or.inr hid))
  · rintro hall id (((hid | hid) | hid) | (hid | hid))
    · exact hid
    · exact hall id (Or.inl hid)
    · exact hall id (Or.inr hid)
    · exact hid
    · exact hall id (Or.inl hid)

/-- The other packets touch neither the plans nor their origins. -/
theorem coherent_otherPlan (hrunning : packet.kind ≠ .runningPlan)
    (hstored : packet.kind ≠ .storedPlan) (hparameters : packet.kind ≠ .planParameters) :
    (t.receive packet).CoherentWhenReported ↔ t.CoherentWhenReported := by
  obtain ⟨hcount, hplan⟩ :=
    Middleware.dispatch_otherPlan t.middleware packet hrunning hstored hparameters
  have horigin : (t.receive packet).origin = t.origin := by
    funext p
    simp only [receive, originAfter]
  have hflags : (t.receive packet).parameters = t.parameters ∧
      (t.receive packet).stored = t.stored := by
    simp [receive, hparameters, hstored]
  unfold CoherentWhenReported Coherent
  rw [hflags.1, hflags.2, horigin]
  change (_ → _ → ∀ p, Covers (t.middleware.dispatch packet).status.subPhaseCount p →
    ((t.middleware.dispatch packet).status.plan p).preGreen =
      ((t.middleware.dispatch packet).status.plan p).green -
        ((t.middleware.dispatch packet).status.plan p).pedGreenFlash.toUInt16 ∧ _) ↔ _
  rw [hcount, hplan]

/-- A packet keeps the plans coherent exactly when it keeps to the plan. -/
theorem coherent_receive_iff (h : t.CoherentWhenReported) :
    (t.receive packet).CoherentWhenReported ↔ t.KeepsPlan packet := by
  unfold KeepsPlan
  cases hkind : packet.kind with
  | planParameters =>
      have hparameters : (t.receive packet).parameters = true := by simp [receive, hkind]
      have hstored : (t.receive packet).stored = t.stored := by simp [receive, hkind]
      simp only [CoherentWhenReported, hparameters, hstored, forall_const,
        coherent_planParameters t packet hkind]
  | storedPlan =>
      have hparameters : (t.receive packet).parameters = t.parameters := by simp [receive, hkind]
      have hstored : (t.receive packet).stored = true := by simp [receive, hkind]
      simp only [CoherentWhenReported, hparameters, hstored, forall_const,
        coherent_storedPlan t packet hkind]
  | runningPlan =>
      have hparameters : (t.receive packet).parameters = t.parameters := by simp [receive, hkind]
      have hstored : (t.receive packet).stored = t.stored := by simp [receive, hkind]
      simp only [CoherentWhenReported, hparameters, hstored, coherent_runningPlan t packet hkind]
  | _ =>
      refine iff_of_true ?_ trivial
      refine (coherent_otherPlan t packet ?_ ?_ ?_).mpr h <;> rw [hkind] <;> decide

end Receive

/-! ## Over a run -/

/-- A packet of the kind is among them. -/
def reported (kind : PacketKind) (packets : List TrafficSignalPacket) : Bool :=
  packets.any fun packet => packet.kind = kind

theorem run_reported (t : Sourced) (packets : List TrafficSignalPacket) :
    (run receive t packets).parameters = (t.parameters || reported .planParameters packets) ∧
      (run receive t packets).stored = (t.stored || reported .storedPlan packets) := by
  induction packets generalizing t with
  | nil => simp [reported]
  | cons packet rest ih =>
      obtain ⟨hparameters, hstored⟩ := ih (t.receive packet)
      rw [run_cons, hparameters, hstored]
      simp [receive, reported, Bool.or_assoc]

/-- After parameters and a stored plan the values of every phase are coherent, at
every point of the run, exactly if every packet keeps to the plan. -/
theorem coherent_iff_keepsPlan (config : Config) (status : TrafficSignalStatus)
    (packets : List TrafficSignalPacket) :
    (∀ first, first <+: packets → reported .planParameters first → reported .storedPlan first →
      (run receive (boot config status) first).Coherent) ↔
      Guarded receive KeepsPlan (boot config status) packets := by
  have hboot : (boot config status).CoherentWhenReported := fun hparameters => by
    cases hparameters
  rw [guarded_iff_invariant coherent_receive_iff packets hboot]
  refine forall₂_congr fun first _ => ?_
  obtain ⟨hparameters, hstored⟩ := run_reported (boot config status) first
  unfold CoherentWhenReported
  rw [hparameters, hstored]
  rfl

/-- A plan of 30 seconds with 5 of flashing pedestrian green and 3 of red, whose
parameters come first: step 1 stays what the flashing green leaves of no green. -/
theorem parameters_before_greens :
    let t := run receive
      (boot Config.initial (TrafficSignalStatus.initial fun _ => StaticPlan.unset))
      [.onePhaseParameters 1 10 60 5 3, .onePhasePlan 0xC5 1 30]
    let plan := t.middleware.status.plan 1
    (plan.green = 30 ∧ plan.pedGreenFlash = 5 ∧ plan.pedRed = 3 ∧ plan.preGreen = 65531) ∧
      ¬ t.Coherent := by
  refine ⟨by decide, fun hcoherent => ?_⟩
  have hvalues := (hcoherent 1 (by decide)).1
  exact absurd hvalues (by decide)

end Sourced

end AdaptiveSignal.Signal
