import AdaptiveSignal.Foundation.Run
import AdaptiveSignal.Signal.PlanPackets

/-! # The cycle index as a count of wraps

The ring of the command buffer turns when the subphase falls back to a lower
number. A report of the phase keeps ring and subphase in step; a confirmation
writes the subphase alone.
-/

namespace AdaptiveSignal.Signal

open Foundation

namespace Middleware

/-- The packet lowers the stored subphase. -/
def decreases (s : Middleware) (packet : TrafficSignalPacket) : Bool :=
  (s.dispatch packet).status.subPhaseId < s.status.subPhaseId

/-- The packet turns the ring once if it lowers the subphase, and not otherwise. -/
def CountsWrap (s : Middleware) (packet : TrafficSignalPacket) : Prop :=
  (s.dispatch packet).cycleIndex =
    if s.decreases packet then s.updateCycleIndex.cycleIndex else s.cycleIndex

/-- No confirmation reports a subphase below the stored one. -/
def confirmsForward (s : Middleware) (packet : TrafficSignalPacket) : Prop :=
  packet.kind = .confirmation → ¬ packet.info 3 < s.status.subPhaseId

section Step

variable (s : Middleware) (packet : TrafficSignalPacket)

theorem updateCycleIndex_ne : s.updateCycleIndex.cycleIndex ≠ s.cycleIndex := by
  have hturn : ∀ cycle : CycleIndex, cycle + 1 ≠ cycle := by decide
  exact hturn s.cycleIndex

/-- A report of the phase turns the ring exactly when it lowers the subphase. -/
theorem packet5FCC_countsWrap (hkind : packet.kind = .phaseReport) : s.CountsWrap packet := by
  have hwraps : s.wraps packet = s.decreases packet := by
    simp only [decreases, dispatch, hkind, packet5FCC_subPhaseId, wraps]
    cases reportsPhase packet with
    | true => simp
    | false => simp
  unfold CountsWrap
  rw [← hwraps]
  simp only [dispatch, hkind]
  exact packet5FCC_cycleIndex s packet

/-- A confirmation never turns the ring. -/
theorem packet5F0C_countsWrap (hkind : packet.kind = .confirmation) :
    s.CountsWrap packet ↔ ¬ packet.info 3 < s.status.subPhaseId := by
  have hcycle : (s.dispatch packet).cycleIndex = s.cycleIndex := by
    simp only [dispatch, hkind]
    rfl
  have hphase : (s.dispatch packet).status.subPhaseId = packet.info 3 := by
    simp only [dispatch, hkind]
    rfl
  simp only [CountsWrap, decreases, hcycle, hphase, decide_eq_true_eq]
  split_ifs with hless
  · exact iff_of_false (fun heq => updateCycleIndex_ne s heq.symm) (not_not_intro hless)
  · exact iff_of_true rfl hless

theorem countsWrap_iff : s.CountsWrap packet ↔ s.confirmsForward packet := by
  by_cases hreport : packet.kind = .phaseReport
  · refine iff_of_true (packet5FCC_countsWrap s packet hreport) fun hconfirm => ?_
    rw [hreport] at hconfirm
    cases hconfirm
  · by_cases hconfirm : packet.kind = .confirmation
    · rw [packet5F0C_countsWrap s packet hconfirm, confirmsForward]
      exact ⟨fun hless _ => hless, fun hless => hless hconfirm⟩
    · have hring := dispatch_sameRing s packet hreport hconfirm
      refine iff_of_true ?_ fun h => absurd h hconfirm
      have hstays : s.decreases packet = false := by simp [decreases, hring.phase]
      rw [CountsWrap, hstays, hring.cycle]
      rfl

end Step

/-- A run that counts every wrap turns the ring as often as the subphase falls. -/
theorem cycleIndex_of_countsWrap {s : Middleware} {packets : List TrafficSignalPacket}
    (hrun : Guarded dispatch CountsWrap s packets) :
    (run dispatch s packets).cycleIndex.val =
      (s.cycleIndex.val + tally dispatch decreases s packets) % cycleNum := by
  induction packets using List.reverseRecOn with
  | nil => exact (Nat.mod_eq_of_lt s.cycleIndex.isLt).symm
  | append_singleton packets last ih =>
      obtain ⟨hbefore, hlast⟩ := Guarded.concat.mp hrun
      rw [run_concat, tally_concat, hlast]
      cases (run dispatch s packets).decreases last with
      | false => exact ih hbefore
      | true =>
          have hturn : ∀ cycle : CycleIndex, (cycle + 1).val = (cycle.val + 1) % cycleNum := by
            decide
          change ((run dispatch s packets).cycleIndex + 1).val = _
          rw [hturn, ih hbefore, Nat.mod_add_mod]
          rfl

/-- The ring counts the decreases of the stored subphase, each by one turn, in
exactly the runs in which no confirmation lowers the subphase. -/
theorem cycleIndex_counts_iff (config : Config) (status : TrafficSignalStatus)
    (packets : List TrafficSignalPacket) :
    ((∀ first, first <+: packets →
        (run dispatch (boot config status) first).cycleIndex.val =
          tally dispatch decreases (boot config status) first % cycleNum) ∧
      ∀ first packet, first ++ [packet] <+: packets →
        (run dispatch (boot config status) first).CountsWrap packet) ↔
      Guarded dispatch confirmsForward (boot config status) packets := by
  have hsteps : (∀ first packet, first ++ [packet] <+: packets →
        (run dispatch (boot config status) first).CountsWrap packet) ↔
      Guarded dispatch confirmsForward (boot config status) packets := by
    rw [guarded_iff_steps]
    simp only [countsWrap_iff]
  constructor
  · rintro ⟨-, hcounts⟩
    exact hsteps.mp hcounts
  · intro hrun
    refine ⟨fun first hfirst => ?_, hsteps.mpr hrun⟩
    obtain ⟨rest, rfl⟩ := hfirst
    have hcounts : Guarded dispatch CountsWrap (boot config status) first :=
      (Guarded.append.mp hrun).1.mono fun s packet => (countsWrap_iff s packet).mpr
    have hcount := cycleIndex_of_countsWrap hcounts
    rw [show (boot config status).cycleIndex.val = 0 from rfl, Nat.zero_add] at hcount
    exact hcount

/-- Phase 2 is confirmed and then phase 1: the subphase has fallen once, and the
ring has not turned. -/
theorem confirmation_loses_wrap :
    let s := boot Config.initial (TrafficSignalStatus.initial fun _ => StaticPlan.unset)
    let packets : List TrafficSignalPacket := [.confirmation 1 2 1, .confirmation 1 1 1]
    (run dispatch s packets).cycleIndex.val = 0 ∧
      tally dispatch decreases s packets % cycleNum = 1 ∧
      ¬ (run dispatch s [.confirmation 1 2 1]).CountsWrap (.confirmation 1 1 1) := by
  refine ⟨by decide, by decide, ?_⟩
  rw [countsWrap_iff, confirmsForward]
  decide

end Middleware

end AdaptiveSignal.Signal
