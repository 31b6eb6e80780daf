import AdaptiveSignal.Spat.PlanLights
import AdaptiveSignal.Spat.Scans

/-! # The offsets that the loops reach

A walk that stands at a period of the plan is moved by each loop to another period, and
its offset by the seconds between them.
-/

namespace AdaptiveSignal.Signal

open Foundation

/-- A walk with this phase, offset and events, whatever phases were used. -/
def Reaches (result : Option SpatWalk) (cur : ℕ) (offset : ℤ) (events : List MovementEvent) :
    Prop :=
  ∃ phases, result = some ⟨cur, offset, events, phases⟩

section Reaches

variable {cur cur' : ℕ} {offset offset' : ℤ} {events events' : List MovementEvent}

theorem Reaches.some (w : SpatWalk) : Reaches (some w) w.curSubphase w.offset w.events :=
  ⟨w.phases, rfl⟩

theorem Reaches.bind {result : Option SpatWalk} {next : SpatWalk → Option SpatWalk}
    (hresult : Reaches result cur offset events)
    (hnext : ∀ phases, Reaches (next ⟨cur, offset, events, phases⟩) cur' offset' events') :
    Reaches (result >>= next) cur' offset' events' := by
  obtain ⟨phases, rfl⟩ := hresult
  exact hnext phases

theorem afterCurStep_reaches {eventState : MovementPhaseState} {endOffset : SpatWalk → Int}
    {extra : SpatWalk → Option SpatWalk} {w : SpatWalk}
    (hextra : Reaches (extra { w with offset := endOffset w }) cur offset w.events) :
    Reaches (afterCurStep eventState endOffset extra w) cur offset
      (w.events ++ [⟨eventState, w.offset, offset⟩]) := by
  obtain ⟨phases, hmoved⟩ := hextra
  exact ⟨phases, by rw [afterCurStep, hmoved]; rfl⟩

/-- A state of a loop, whatever phases were used. -/
structure SpatScan.Stands (s : SpatScan) (k t cur : ℕ) (offset : ℤ) (events : List MovementEvent) :
    Prop where
  k_eq : s.k = k
  t_eq : s.t = t
  cur_eq : s.walk.curSubphase = cur
  offset_eq : s.walk.offset = offset
  events_eq : s.walk.events = events

/-- A loop of so many rounds, by the index, the counter, the phase and the offset that it
has before each of them. -/
theorem spatScan_reaches {fuel start : ℕ} {cond : SpatScan → Bool} {body : SpatScan → SpatScan}
    {w : SpatWalk} (k t cur : ℕ → ℕ) (offset : ℕ → ℤ) {rounds : ℕ}
    (hstart : (SpatScan.mk start 0 w).Stands (k 0) (t 0) (cur 0) (offset 0) w.events)
    (hround : ∀ i < rounds, ∀ s : SpatScan,
      s.Stands (k i) (t i) (cur i) (offset i) w.events → cond s = true ∧
        (body s).Stands (k (i + 1)) (t (i + 1)) (cur (i + 1)) (offset (i + 1)) w.events)
    (hlast : ∀ s : SpatScan,
      s.Stands (k rounds) (t rounds) (cur rounds) (offset rounds) w.events → cond s = false)
    (hfuel : rounds < fuel) :
    Reaches (spatScan fuel cond body start w) (cur rounds) (offset rounds) w.events := by
  have htouch : (SpatScan.mk start 0 (w.touch start)).Stands (k 0) (t 0) (cur 0) (offset 0)
      w.events := ⟨hstart.k_eq, hstart.t_eq, hstart.cur_eq, hstart.offset_eq, rfl⟩
  obtain ⟨s, hs, hstands⟩ := @whileLoop_of_rounds _ cond body
    (fun i s => s.Stands (k i) (t i) (cur i) (offset i) w.events) rounds fuel _ htouch
    hround hlast hfuel
  refine ⟨s.walk.phases, ?_⟩
  rw [spatScan, hs, ← hstands.cur_eq, ← hstands.offset_eq, ← hstands.events_eq]
  rfl

theorem spatScan_stays {fuel start : ℕ} {cond : SpatScan → Bool} {body : SpatScan → SpatScan}
    {w : SpatWalk} (hcond : ∀ s : SpatScan, s.k = start → cond s = false) (hfuel : 0 < fuel) :
    Reaches (spatScan fuel cond body start w) w.curSubphase w.offset w.events :=
  spatScan_reaches (fun _ => start) (fun i => i) (fun _ => w.curSubphase) (fun _ => w.offset)
    ⟨rfl, rfl, rfl, rfl, rfl⟩ (fun i hi => absurd hi (Nat.not_lt_zero i))
    (fun s hs => hcond s hs.k_eq) hfuel

end Reaches

namespace TrafficSignalStatus

variable (status : TrafficSignalStatus)

/-- When a period starts, in seconds from now. -/
def startOf (m : ℤ) : ℤ := startsFrom (-status.elapsed) status.phaseSeconds m

theorem startOf_zero : status.startOf 0 = -status.elapsed := startsFrom_zero _ _

theorem startOf_succ (m : ℤ) : status.startOf (m + 1) = status.startOf m + status.phaseSeconds m :=
  startsFrom_succ _ _ m

theorem startOf_mono {m n : ℤ} (h : m ≤ n) : status.startOf m ≤ status.startOf n :=
  @Periods.start_mono _ (status.lights fun _ _ => .stopAndRemain) _ _ h

variable {status}

/-- Only the running phase goes by its steps. -/
theorem phaseSeconds_of_ne {m : ℤ} (hm : m ≠ 0) :
    status.phaseSeconds m = status.wholePhaseOf (status.phaseAt m) := by
  rw [phaseSeconds, greenSeconds, if_neg hm, wholePhaseOf]

theorem greenSeconds_of_ne {m : ℤ} (hm : m ≠ 0) :
    status.greenSeconds m = status.greenOf (status.phaseAt m) := if_neg hm

section Phases

variable (hcount : 0 < status.subPhaseCount.toNat)
include hcount

theorem natCast_phaseAt (m : ℤ) :
    (status.phaseAt m : ℤ) = (status.runningPhase + m) % status.subPhaseCount.toNat :=
  Int.toNat_of_nonneg (Int.emod_nonneg _ (by omega))

theorem phaseAt_lt (m : ℤ) : status.phaseAt m < status.subPhaseCount.toNat := by
  have hlt := Int.emod_lt_of_pos (status.runningPhase + m) (Int.ofNat_lt.mpr hcount)
  have hcast := natCast_phaseAt hcount m
  omega

theorem nextSubphase_phaseAt (m : ℤ) :
    status.nextSubphase (status.phaseAt m) = status.phaseAt (m + 1) := by
  have hcast : ((status.nextSubphase (status.phaseAt m) : ℕ) : ℤ) = status.phaseAt (m + 1) := by
    rw [natCast_phaseAt hcount, nextSubphase, Int.natCast_mod, Int.natCast_add,
      natCast_phaseAt hcount, Int.natCast_one, Int.emod_add_emod, Int.add_assoc]
  exact Int.ofNat_inj.mp hcast

theorem previousSubphase_phaseAt (m : ℤ) :
    status.previousSubphase (status.phaseAt m) = status.phaseAt (m - 1) := by
  have hcast : ((status.previousSubphase (status.phaseAt m) : ℕ) : ℤ) =
      status.phaseAt (m - 1) := by
    rw [natCast_phaseAt hcount, previousSubphase, Nat.add_sub_assoc hcount, Int.natCast_mod,
      Int.natCast_add, natCast_phaseAt hcount, Int.natCast_sub hcount, Int.emod_add_emod,
      Int.natCast_one, ← Int.add_sub_assoc, Int.sub_emod, Int.add_emod_right, ← Int.sub_emod,
      Int.add_sub_assoc]
  exact Int.ofNat_inj.mp hcast

theorem phaseAt_zero (hcur : status.runningPhase < status.subPhaseCount.toNat) :
    status.phaseAt 0 = status.runningPhase := by
  have hcast : ((status.phaseAt 0 : ℕ) : ℤ) = status.runningPhase := by
    rw [natCast_phaseAt hcount, Int.add_zero, Int.emod_eq_of_lt (Int.natCast_nonneg _)]
    exact Int.ofNat_lt.mpr hcur
  exact Int.ofNat_inj.mp hcast

end Phases

/-! ## Ahead -/

section Ahead

variable {shown : ℕ → Bool} {fuel : ℕ} (hcount : 0 < status.subPhaseCount.toNat)
  (hfuel : status.subPhaseCount.toNat < fuel)
include hcount hfuel

/-- To the period before the next one that shows the green. -/
theorem increaseOffsetRedSignal_reaches {w : SpatWalk} {m q : ℤ} (hm : 0 ≤ m) (hmq : m < q)
    (hq : q ≤ m + status.subPhaseCount.toNat) (hcur : w.curSubphase = status.phaseAt m)
    (hnot : ∀ p, m < p → p < q → shown (status.phaseAt p) = false)
    (hshown : shown (status.phaseAt q)) :
    Reaches (status.increaseOffsetRedSignal shown fuel w) (status.phaseAt (q - 1))
      (w.offset + (status.startOf q - status.startOf (m + 1))) w.events := by
  obtain ⟨rounds, rfl⟩ : ∃ rounds : ℕ, q = m + 1 + rounds := ⟨(q - m - 1).toNat, by omega⟩
  have hsucc (i : ℕ) : m + 1 + ((i + 1 : ℕ) : ℤ) = m + 1 + i + 1 := by omega
  have hcurSucc (i : ℕ) : m + ((i + 1 : ℕ) : ℤ) = m + i + 1 := by omega
  rw [show m + 1 + (rounds : ℤ) - 1 = m + rounds by omega]
  refine spatScan_reaches (fun i => status.phaseAt (m + 1 + i)) (fun i => i)
    (fun i => status.phaseAt (m + i))
    (fun i => w.offset + (status.startOf (m + 1 + i) - status.startOf (m + 1)))
    ⟨?_, rfl, ?_, ?_, rfl⟩ (fun i hi s hs => ⟨?_, ?_⟩) (fun s hs => ?_) (by omega)
  · simp [hcur, nextSubphase_phaseAt hcount]
  · simp [hcur]
  · simp
  · rw [hs.k_eq, hs.t_eq, hnot _ (by omega) (by omega)]
    simp only [Bool.not_false, Bool.true_and, decide_eq_true_eq]
    omega
  · refine ⟨?_, ?_, ?_, ?_, hs.events_eq⟩
    · simp only [hs.k_eq, hsucc, nextSubphase_phaseAt hcount]
    · simp only [hs.t_eq]
    · have hmove : status.nextSubphase s.walk.curSubphase = status.phaseAt (m + (i + 1 : ℕ)) := by
        rw [hs.cur_eq, nextSubphase_phaseAt hcount, hcurSucc]
      exact hmove
    · have hadd : s.walk.offset + status.wholePhaseOf s.k =
          w.offset + (status.startOf (m + 1 + (i + 1 : ℕ)) - status.startOf (m + 1)) := by
        have hlength := status.startOf_succ (m + 1 + i)
        rw [phaseSeconds_of_ne (by omega)] at hlength
        rw [hs.offset_eq, hs.k_eq, hsucc, hlength]
        omega
      exact hadd
  · rw [hs.k_eq, hshown]
    rfl

/-- From the end of one green to that of a later one, with what each period adds. -/
theorem scanAhead_reaches (cond : SpatScan → Bool) (gain : ℕ → ℤ) {w : SpatWalk} {m u : ℤ}
    (hmu : m ≤ u) (hu : u < m + status.subPhaseCount.toNat)
    (hcur : w.curSubphase = status.phaseAt m)
    (hoffset : w.offset = status.startOf m + status.greenSeconds m)
    (hcond : ∀ p, m ≤ p → p < u → ∀ s : SpatScan, s.k = status.phaseAt p →
      s.t < status.subPhaseCount.toNat → cond s = true)
    (hgain : ∀ p, m ≤ p → p < u → status.startOf (p + 1) + status.greenSeconds (p + 1) =
      status.startOf p + status.greenSeconds p + gain (status.phaseAt (p + 1)))
    (hlast : ∀ s : SpatScan, s.k = status.phaseAt u → cond s = false) :
    Reaches (spatScan fuel cond (fun s =>
        let k := status.nextSubphase s.k
        ⟨k, s.t + 1, ((s.walk.add (gain k)).moveTo
          (status.nextSubphase s.walk.curSubphase)).touch k⟩) w.curSubphase w)
      (status.phaseAt u) (status.startOf u + status.greenSeconds u) w.events := by
  obtain ⟨rounds, rfl⟩ : ∃ rounds : ℕ, u = m + rounds := ⟨(u - m).toNat, by omega⟩
  have hsucc (i : ℕ) : m + ((i + 1 : ℕ) : ℤ) = m + i + 1 := by omega
  refine spatScan_reaches (fun i => status.phaseAt (m + i)) (fun i => i)
    (fun i => status.phaseAt (m + i))
    (fun i => status.startOf (m + i) + status.greenSeconds (m + i))
    ⟨?_, rfl, ?_, ?_, rfl⟩ (fun i hi s hs => ⟨?_, ?_⟩) (fun s hs => ?_) (by omega)
  · simp [hcur]
  · simp [hcur]
  · simp [hoffset]
  · exact hcond (m + i) (by omega) (by omega) s hs.k_eq (by rw [hs.t_eq]; omega)
  · refine ⟨?_, ?_, ?_, ?_, hs.events_eq⟩
    · simp only [hs.k_eq, hsucc, nextSubphase_phaseAt hcount]
    · simp only [hs.t_eq]
    · have hmove : status.nextSubphase s.walk.curSubphase = status.phaseAt (m + (i + 1 : ℕ)) := by
        rw [hs.cur_eq, nextSubphase_phaseAt hcount, hsucc]
      exact hmove
    · have hadd : s.walk.offset + gain (status.nextSubphase s.k) =
          status.startOf (m + (i + 1 : ℕ)) + status.greenSeconds (m + (i + 1 : ℕ)) := by
        rw [hs.offset_eq, hs.k_eq, hsucc, nextSubphase_phaseAt hcount,
          hgain (m + i) (by omega) (by omega)]
      exact hadd
  · exact hlast s hs.k_eq

/-- Over periods without yellow and all-red, to the end of the green of the first other one. -/
theorem leadingSubphaseSignal_reaches {w : SpatWalk} {m u : ℤ} (hm : 0 ≤ m) (hmu : m ≤ u)
    (hu : u < m + status.subPhaseCount.toNat) (hcur : w.curSubphase = status.phaseAt m)
    (hoffset : w.offset = status.startOf m + status.greenSeconds m)
    (hlead : ∀ p, m ≤ p → p < u →
      status.yellowOf (status.phaseAt p) = 0 ∧ status.allRedOf (status.phaseAt p) = 0)
    (hlast : ¬(status.yellowOf (status.phaseAt u) = 0 ∧ status.allRedOf (status.phaseAt u) = 0)) :
    Reaches (status.leadingSubphaseSignal fuel w) (status.phaseAt u)
      (status.startOf u + status.greenSeconds u) w.events := by
  refine scanAhead_reaches hcount hfuel _ status.greenOf hmu hu hcur hoffset
    (fun p hp hpu s hk ht => ?_) (fun p hp hpu => ?_) (fun s hk => ?_)
  · have hboth := hlead p hp hpu
    refine decide_eq_true ?_
    rw [hk]
    exact ⟨hboth.1, hboth.2, ht⟩
  · have hlength := status.startOf_succ p
    have hboth := hlead p hp hpu
    rw [phaseSeconds, hboth.1, hboth.2] at hlength
    rw [hlength, ← greenSeconds_of_ne (by omega)]
    omega
  · refine decide_eq_false fun hcond => hlast ?_
    rw [hk] at hcond
    exact ⟨hcond.1, hcond.2.1⟩

/-- Over periods whose green is kept through their yellow, if their yellows are equal. -/
theorem laggingSubphaseSignal_reaches {w : SpatWalk} {m u : ℤ} (hm : 0 ≤ m) (hmu : m ≤ u)
    (hu : u < m + status.subPhaseCount.toNat) (hcur : w.curSubphase = status.phaseAt m)
    (hoffset : w.offset = status.startOf m + status.greenSeconds m)
    (hkept : ∀ p, m ≤ p → p < u → status.keepsGreen shown (status.phaseAt p) ∧
      status.yellowOf (status.phaseAt (p + 1)) = status.yellowOf (status.phaseAt p))
    (hlast : status.keepsGreen shown (status.phaseAt u) = false) :
    Reaches (status.laggingSubphaseSignal shown fuel w) (status.phaseAt u)
      (status.startOf u + status.greenSeconds u) w.events := by
  refine scanAhead_reaches hcount hfuel _ (fun k => status.greenOf k + status.yellowOf k) hmu hu
    hcur hoffset (fun p hp hpu s hk ht => ?_) (fun p hp hpu => ?_) (fun s hk => ?_)
  · have hgreen := of_decide_eq_true (hkept p hp hpu).1
    refine decide_eq_true ?_
    rw [hk]
    exact ⟨hgreen.1, hgreen.2.1, hgreen.2.2, ht⟩
  · have hlength := status.startOf_succ p
    obtain ⟨hgreen, hyellow⟩ := hkept p hp hpu
    rw [phaseSeconds, (of_decide_eq_true hgreen).1] at hlength
    rw [hlength, hyellow, ← greenSeconds_of_ne (by omega)]
    omega
  · rw [keepsGreen, ← hk] at hlast
    have hnot := of_decide_eq_false hlast
    exact decide_eq_false fun hcond => hnot ⟨hcond.1, hcond.2.1, hcond.2.2.1⟩

end Ahead

/-! ## Back -/

section Back

variable {shown : ℕ → Bool} {fuel : ℕ} (hcount : 0 < status.subPhaseCount.toNat)
  (hfuel : status.subPhaseCount.toNat < fuel)
include hcount hfuel

/-- To the end of the last period before that shows the green. -/
theorem backToGreen_reaches {w : SpatWalk} {p : ℤ} (hp : p < 0)
    (hrange : -(status.subPhaseCount.toNat : ℤ) ≤ p) (hcur : w.curSubphase = status.phaseAt 0)
    (hnot : ∀ m, p < m → m < 0 → shown (status.phaseAt m) = false)
    (hshown : shown (status.phaseAt p)) :
    Reaches (status.backToGreen shown fuel w) (status.phaseAt 0)
      (w.offset + (status.startOf 0 - status.startOf (p + 1))) w.events := by
  obtain ⟨rounds, hrounds⟩ : ∃ rounds : ℕ, p = -1 - rounds := ⟨(-1 - p).toNat, by omega⟩
  rw [hrounds] at hshown ⊢
  have hsucc (i : ℕ) : -1 - ((i + 1 : ℕ) : ℤ) = -1 - i - 1 := by omega
  rw [show -1 - (rounds : ℤ) + 1 = -rounds by omega]
  refine spatScan_reaches (fun i => status.phaseAt (-1 - i)) (fun _ => 0)
    (fun _ => status.phaseAt 0)
    (fun i => w.offset + (status.startOf 0 - status.startOf (-i)))
    ⟨?_, rfl, hcur, ?_, rfl⟩ (fun i hi s hs => ⟨?_, ?_⟩) (fun s hs => ?_) (by omega)
  · simp [hcur, previousSubphase_phaseAt hcount]
  · simp
  · rw [hs.k_eq, hnot _ (by omega) (by omega)]
    rfl
  · refine ⟨?_, hs.t_eq, hs.cur_eq, ?_, hs.events_eq⟩
    · simp only [hs.k_eq, hsucc, previousSubphase_phaseAt hcount]
    · have hadd : s.walk.offset + status.wholePhaseOf s.k =
          w.offset + (status.startOf 0 - status.startOf (-(i + 1 : ℕ))) := by
        have hlength := status.startOf_succ (-1 - i)
        rw [phaseSeconds_of_ne (by omega), show -1 - (i : ℤ) + 1 = -i by omega] at hlength
        rw [hs.offset_eq, hs.k_eq, show -((i + 1 : ℕ) : ℤ) = -1 - i by omega, hlength]
        omega
      exact hadd
  · rw [hs.k_eq, hshown]
    rfl

/-- Over some periods before that show the green without all-red, by no more than their
seconds. -/
theorem earlyStart_reaches {w : SpatWalk} (hcur : w.curSubphase = status.phaseAt 0)
    (hoffset : w.offset = 0) :
    ∃ (u offset : ℤ), Reaches (status.earlyStart shown fuel w) (status.phaseAt 0) offset w.events ∧
      u ≤ 0 ∧ 0 ≤ offset ∧ offset ≤ status.startOf 0 - status.startOf u ∧
      ∀ m, u ≤ m → m < 0 →
        shown (status.phaseAt m) = true ∧ status.allRedOf (status.phaseAt m) = 0 := by
  have hloop := @exists_whileLoop SpatScan
    (fun s => shown s.k ∧ status.allRedOf s.k = 0 ∧ s.t < status.subPhaseCount.toNat)
    (fun s =>
      let k := status.previousSubphase s.k
      ⟨k, s.t + 1, (s.walk.add (status.greenOf s.k)).touch k⟩)
    (fun s => s.walk.curSubphase = status.phaseAt 0 ∧ s.walk.events = w.events ∧
      ∃ u ≤ 0, s.k = status.phaseAt (u - 1) ∧ 0 ≤ s.walk.offset ∧
        s.walk.offset ≤ status.startOf 0 - status.startOf u ∧ ∀ m, u ≤ m → m < 0 →
          shown (status.phaseAt m) = true ∧ status.allRedOf (status.phaseAt m) = 0)
    fuel status.subPhaseCount.toNat
    ⟨status.previousSubphase w.curSubphase, 0,
      w.touch (status.previousSubphase w.curSubphase)⟩ ?_ ?_ hfuel ?_
  · obtain ⟨s, hs, hcur', hevents, u, hu, -, hpos, hle, hgreen⟩ := hloop
    refine ⟨u, s.walk.offset, ⟨s.walk.phases, ?_⟩, hu, hpos, hle, hgreen⟩
    rw [earlyStart, spatScan, hs, ← hcur', ← hevents]
    rfl
  · refine ⟨hcur, rfl, 0, le_rfl, ?_, hoffset.ge, ?_, fun m hm hm' => by omega⟩
    · rw [hcur, previousSubphase_phaseAt hcount]
    · exact hoffset.trans_le (by omega)
  · rintro s ⟨hcur, hevents, u, hu, hk, hpos, hle, hgreen⟩ hcond
    obtain ⟨hshown, hred, -⟩ := of_decide_eq_true hcond
    have hlength := status.startOf_succ (u - 1)
    rw [phaseSeconds_of_ne (by omega), Int.sub_add_cancel, wholePhaseOf, ← hk, hred] at hlength
    have hyellow := status.yellowOf_nonneg s.k
    have hgreenOf := status.greenOf_nonneg s.k
    refine ⟨hcur, hevents, u - 1, by omega, ?_, ?_, ?_, fun m hm hm' => ?_⟩
    · simp only [hk, previousSubphase_phaseAt hcount]
    · exact Int.add_nonneg hpos hgreenOf
    · have hadd : s.walk.offset + status.greenOf s.k ≤
          status.startOf 0 - status.startOf (u - 1) := by omega
      exact hadd
    · rcases eq_or_lt_of_le hm with rfl | hlt
      · exact hk ▸ ⟨hshown, hred⟩
      · exact hgreen m (by omega) hm'
  · simp [iterate_t]

end Back

end TrafficSignalStatus

end AdaptiveSignal.Signal
