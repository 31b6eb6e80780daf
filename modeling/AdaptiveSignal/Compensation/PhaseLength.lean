import AdaptiveSignal.Emergency.Optimization
import AdaptiveSignal.Spat.MovementEvents

/-! # The length of a phase

The compensation adds up the steps of a phase, the emergency control and the SPaT
message take its green, yellow and all-red. The first step is what the parameters of a
plan leave of the green, and they take only the flashing green of pedestrians from it.
-/

namespace AdaptiveSignal.Signal

open Foundation

namespace Middleware

/-- The state after packets. -/
abbrev after (s : Middleware) (packets : List TrafficSignalPacket) : Middleware :=
  run dispatch s packets

/-- The parameters of a phase come after a stored plan with its green, which stays. -/
def Planned (s : Middleware) (packets : List TrafficSignalPacket) (p : UInt8) : Prop :=
  ∃ before packet behind, packets = before ++ packet :: behind ∧
    (∃ stored ∈ before, stored.kind = .storedPlan ∧ Covers (stored.info 5) p) ∧
    packet.kind = .planParameters ∧ Covers (packet.info 3) p ∧
    ∀ later, later <+: behind →
      ((s.after (before ++ packet :: later)).status.plan p).green =
        ((s.after (before ++ [packet])).status.plan p).green

end Middleware

namespace TrafficSignalStatus

variable (status : TrafficSignalStatus)

/-- The three lengths of a whole phase are one. -/
def OneLength (k : ℕ) : Prop :=
  (status.planAt k).phaseSeconds = (status.planAt k).subPhaseSeconds ∧
    (status.planAt k).subPhaseSeconds = status.wholePhaseOf k

/-- All lengths add up to the cycle if the greens and clearances of the controller do. -/
def CycleSums : Prop :=
  let phases := Finset.range status.subPhaseCount.toNat
  ∑ k ∈ phases, ((status.planAt k).green.toNat + (status.planAt k).yellow.toNat +
      (status.planAt k).allRed.toNat : Int) = status.cycleTime.toNat →
    ∑ k ∈ phases, (status.planAt k).phaseSeconds = status.cycleTime.toNat ∧
    ∑ k ∈ phases, (status.planAt k).subPhaseSeconds = status.cycleTime.toNat ∧
    ∑ k ∈ phases, status.wholePhaseOf k = status.cycleTime.toNat

end TrafficSignalStatus

/-! ## The first step of a phase -/

/-- The first step is what the flashing green leaves of the green, in 16 bits. -/
def StaticPlan.Derived (plan : StaticPlan) : Prop :=
  plan.preGreen = plan.green - plan.pedGreenFlash.toUInt16

theorem StaticPlan.Derived.phaseSeconds_eq_iff {plan : StaticPlan} (hderived : plan.Derived) :
    plan.phaseSeconds = plan.subPhaseSeconds ↔
      plan.pedGreenFlash.toNat ≤ plan.green.toNat ∧ plan.pedRed = 0 := by
  have hpreGreen := congrArg UInt16.toNat hderived
  rw [UInt16.toNat_sub, UInt8.toNat_toUInt16] at hpreGreen
  have hflash := plan.pedGreenFlash.toNat_lt
  have hgreen := plan.green.toNat_lt
  rw [phaseSeconds, subPhaseSeconds, ← UInt8.toNat_inj, hpreGreen]
  change _ ↔ _ ∧ _ = 0
  omega

namespace Middleware

section Dispatch

variable {s : Middleware} {packet : TrafficSignalPacket} {p : UInt8}

theorem derived_planParameters (hkind : packet.kind = .planParameters)
    (hcovers : Covers (packet.info 3) p) : ((s.dispatch packet).status.plan p).Derived := by
  rw [(dispatch_planParameters s packet hkind).2 p, if_pos hcovers]
  rfl

/-- While the green stays, the first step stays what it leaves. -/
theorem derived_dispatch (hderived : (s.status.plan p).Derived)
    (hgreen : ((s.dispatch packet).status.plan p).green = (s.status.plan p).green) :
    ((s.dispatch packet).status.plan p).Derived := by
  by_cases hparameters : packet.kind = .planParameters
  · by_cases hcovers : Covers (packet.info 3) p
    · exact derived_planParameters hparameters hcovers
    · rwa [(dispatch_planParameters s packet hparameters).2 p, if_neg hcovers]
  by_cases hstored : packet.kind = .storedPlan
  · rw [StaticPlan.Derived, hgreen]
    rw [(dispatch_storedPlan s packet hstored).2 p]
    split <;> exact hderived
  by_cases hrunning : packet.kind = .runningPlan
  · rw [StaticPlan.Derived, hgreen]
    rw [(dispatch_runningPlan s packet hrunning).2 p]
    split <;> exact hderived
  · rwa [(dispatch_otherPlan s packet hrunning hstored hparameters).2]

end Dispatch

theorem Planned.derived {s : Middleware} {packets : List TrafficSignalPacket} {p : UInt8}
    (hplanned : s.Planned packets p) : ((s.after packets).status.plan p).Derived := by
  obtain ⟨before, packet, behind, rfl, -, hkind, hcovers, hgreen⟩ := hplanned
  induction behind using List.reverseRecOn with
  | nil =>
      rw [after, run_concat]
      exact derived_planParameters hkind hcovers
  | append_singleton behind last ih =>
      have hderived := ih fun later hlater =>
        hgreen later (hlater.trans (List.prefix_append behind [last]))
      have hstays := (hgreen _ List.prefix_rfl).trans
        (hgreen behind (List.prefix_append behind [last])).symm
      rw [after, ← List.cons_append, ← List.append_assoc, run_concat] at hstays ⊢
      exact derived_dispatch hderived hstays

end Middleware

/-- All phases have one length, and it adds up to the cycle, exactly when no phase has a
pedestrian red or more flashing green than green. -/
theorem onePhaseLength_iff (s : Middleware) (packets : List TrafficSignalPacket)
    (hplanned : ∀ k < (s.after packets).status.subPhaseCount.toNat,
      s.Planned packets (phaseAt k)) :
    ((∀ k < (s.after packets).status.subPhaseCount.toNat,
        (s.after packets).status.OneLength k) ∧ (s.after packets).status.CycleSums) ↔
      ∀ k < (s.after packets).status.subPhaseCount.toNat,
        ((s.after packets).status.planAt k).pedGreenFlash.toNat ≤
            ((s.after packets).status.planAt k).green.toNat ∧
          ((s.after packets).status.planAt k).pedRed = 0 := by
  have hphase : ∀ k < (s.after packets).status.subPhaseCount.toNat,
      ((s.after packets).status.planAt k).phaseSeconds =
        ((s.after packets).status.planAt k).subPhaseSeconds ↔ _ :=
    fun k hk => (hplanned k hk).derived.phaseSeconds_eq_iff
  constructor
  · rintro ⟨hlengths, -⟩ k hk
    exact (hphase k hk).mp (hlengths k hk).1
  · intro h
    have hlengths : ∀ k < (s.after packets).status.subPhaseCount.toNat,
        (s.after packets).status.OneLength k := fun k hk => ⟨(hphase k hk).mpr (h k hk), rfl⟩
    refine ⟨hlengths, fun hcycle => ⟨?_, hcycle, hcycle⟩⟩
    rw [Finset.sum_congr rfl fun k hk => (hlengths k (Finset.mem_range.mp hk)).1]
    exact hcycle

/-- Thirty seconds of green in one phase, five of them flashing, and a pedestrian red. -/
def onePhasePackets (pedRed : UInt8) : List TrafficSignalPacket :=
  [.onePhasePlan 0xC5 1 30, .onePhaseParameters 1 10 40 5 pedRed]

def firstMiddleware : Middleware :=
  Middleware.boot Config.initial (TrafficSignalStatus.initial fun _ => .unset)

theorem onePhasePackets_planned (pedRed : UInt8) :
    ∀ k < (firstMiddleware.after (onePhasePackets pedRed)).status.subPhaseCount.toNat,
      firstMiddleware.Planned (onePhasePackets pedRed) (phaseAt k) := by
  intro k hk
  obtain rfl : k = 0 := Nat.lt_one_iff.mp hk
  refine ⟨[.onePhasePlan 0xC5 1 30], .onePhaseParameters 1 10 40 5 pedRed, [], rfl,
    ⟨_, List.mem_singleton_self _, rfl, by decide⟩, rfl, ?_, fun later hlater => ?_⟩
  · change Covers 1 1
    decide
  · rw [List.prefix_nil.mp hlater]

theorem onePhaseLength_iff_one :
    ((∀ k < (firstMiddleware.after (onePhasePackets 0)).status.subPhaseCount.toNat,
        (firstMiddleware.after (onePhasePackets 0)).status.OneLength k) ∧
      (firstMiddleware.after (onePhasePackets 0)).status.CycleSums) ↔
      ∀ k < (firstMiddleware.after (onePhasePackets 0)).status.subPhaseCount.toNat,
        ((firstMiddleware.after (onePhasePackets 0)).status.planAt k).pedGreenFlash.toNat ≤
            ((firstMiddleware.after (onePhasePackets 0)).status.planAt k).green.toNat ∧
          ((firstMiddleware.after (onePhasePackets 0)).status.planAt k).pedRed = 0 :=
  onePhaseLength_iff firstMiddleware (onePhasePackets 0) (onePhasePackets_planned 0)

/-- With three seconds of pedestrian red the compensation takes a phase for three
seconds longer than the others do. -/
theorem pedestrian_red_counted_once :
    (∀ k < (firstMiddleware.after (onePhasePackets 3)).status.subPhaseCount.toNat,
      firstMiddleware.Planned (onePhasePackets 3) (phaseAt k)) ∧
    ((firstMiddleware.after (onePhasePackets 3)).status.planAt 0).phaseSeconds = 33 ∧
    ¬∀ k < (firstMiddleware.after (onePhasePackets 3)).status.subPhaseCount.toNat,
      (firstMiddleware.after (onePhasePackets 3)).status.OneLength k := by
  refine ⟨onePhasePackets_planned 3, by decide, fun hlengths => ?_⟩
  exact absurd (hlengths 0 (by decide)).1 (by decide)

end AdaptiveSignal.Signal
