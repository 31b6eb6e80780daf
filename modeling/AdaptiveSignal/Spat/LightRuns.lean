import AdaptiveSignal.Spat.Offsets

/-! # How long a light lasts

What the lights of a period are, and how far a green goes on through the periods that
follow, where the loops of the message follow it.
-/

namespace AdaptiveSignal.Signal

open Foundation

namespace TrafficSignalStatus

variable {status : TrafficSignalStatus} {shown : ℕ → Bool}

/-! ## Within a period -/

section Period

variable {light : ℤ → ℤ → MovementPhaseState} {m : ℤ}

theorem lights_steady {first last u v : ℤ} {a : MovementPhaseState}
    (hfirst : first = status.startOf m + u) (hlast : last = status.startOf m + v) (hu : 0 ≤ u)
    (hv : v ≤ status.phaseSeconds m) (hvalue : ∀ w, u ≤ w → w < v → light m w = a) :
    (status.lights light).Steady first last a := by
  have hend : status.startOf m + v ≤ status.startOf (m + 1) := by
    rw [startOf_succ]
    omega
  rw [hfirst, hlast]
  exact .of_period hu hend hvalue

/-- Through periods that do not show the green. -/
theorem lights_red {n : ℤ} (hred : ∀ m w, shown (status.phaseAt m) = false →
      light m w = .stopAndRemain) (hle : m ≤ n)
    (hnot : ∀ p, m ≤ p → p < n → shown (status.phaseAt p) = false) :
    (status.lights light).Steady (status.startOf m) (status.startOf n) .stopAndRemain := by
  refine .of_periods hle fun p hp hpn => ?_
  exact lights_steady (Int.add_zero _).symm
    (startOf_succ _ _) le_rfl le_rfl fun w _ _ => hred p w (hnot p hp hpn)

section Vehicle

variable {greenType : MovementPhaseState}

theorem vehicleLight_red (w : ℤ) (hnot : shown (status.phaseAt m) = false) :
    status.vehicleLight shown greenType m w = .stopAndRemain := by
  simp [vehicleLight, hnot]

variable (hshown : shown (status.phaseAt m))
include hshown

theorem vehicle_green :
    (status.lights (status.vehicleLight shown greenType)).Steady (status.startOf m)
      (status.startOf m + status.greenSeconds m) greenType := by
  have hyellow := status.yellowOf_nonneg (status.phaseAt m)
  have hred := status.allRedOf_nonneg (status.phaseAt m)
  refine lights_steady (Int.add_zero _).symm rfl le_rfl (by unfold phaseSeconds; omega) ?_
  intro w _ hw
  simp [vehicleLight, hshown, hw]

theorem vehicle_yellow :
    (status.lights (status.vehicleLight shown greenType)).Steady
      (status.startOf m + status.greenSeconds m)
      (status.startOf m + status.greenSeconds m + status.yellowOf (status.phaseAt m))
      (if status.keepsGreen shown (status.phaseAt m) then greenType else .protectedClearance) := by
  have hgreen := status.greenSeconds_nonneg m
  have hred := status.allRedOf_nonneg (status.phaseAt m)
  refine lights_steady rfl (Int.add_assoc _ _ _) hgreen (by unfold phaseSeconds; omega) ?_
  intro w hw hw'
  simp [vehicleLight, hshown, hw', not_lt.mpr hw]

theorem vehicle_allRed :
    (status.lights (status.vehicleLight shown greenType)).Steady
      (status.startOf m + status.greenSeconds m + status.yellowOf (status.phaseAt m))
      (status.startOf (m + 1)) .stopAndRemain := by
  have hgreen := status.greenSeconds_nonneg m
  have hyellow := status.yellowOf_nonneg (status.phaseAt m)
  refine lights_steady (Int.add_assoc _ _ _) (startOf_succ _ _) (by omega) le_rfl ?_
  intro w hw _
  simp [vehicleLight, hshown, not_lt.mpr hw, not_lt.mpr (show status.greenSeconds m ≤ w by omega)]

/-- A green goes on to the next period, over a yellow that is kept or none. -/
theorem vehicle_through (hred : status.allRedOf (status.phaseAt m) = 0)
    (hyellow : status.yellowOf (status.phaseAt m) = 0 ∨
      status.keepsGreen shown (status.phaseAt m) = true) :
    (status.lights (status.vehicleLight shown greenType)).Steady (status.startOf m)
      (status.startOf (m + 1)) greenType := by
  have hlength := status.startOf_succ m
  rw [phaseSeconds, hred] at hlength
  refine (vehicle_green hshown).append ?_
  rcases hyellow with hzero | hkept
  · exact .of_le (by omega)
  · have hsteady := @vehicle_yellow _ _ _ greenType hshown
    rw [hkept, if_pos rfl] at hsteady
    exact hsteady.within le_rfl (by omega)

end Vehicle

section Pedestrian

theorem pedestrianLight_red (w : ℤ) (hnot : shown (status.phaseAt m) = false) :
    status.pedestrianLight shown m w = .stopAndRemain := by
  simp [pedestrianLight, hnot]

variable (hshown : shown (status.phaseAt m))
include hshown

theorem pedestrian_green (hfits : status.preGreenOf (status.phaseAt m) ≤ status.phaseSeconds m) :
    (status.lights (status.pedestrianLight shown)).Steady (status.startOf m)
      (status.startOf m + status.preGreenOf (status.phaseAt m)) .permissiveMovementAllowed := by
  refine lights_steady (Int.add_zero _).symm rfl le_rfl hfits ?_
  intro w _ hw
  simp [pedestrianLight, hshown, hw]

theorem pedestrian_flash (hfits : status.preGreenOf (status.phaseAt m) +
      status.pedGreenFlashOf (status.phaseAt m) ≤ status.phaseSeconds m) :
    (status.lights (status.pedestrianLight shown)).Steady
      (status.startOf m + status.preGreenOf (status.phaseAt m))
      (status.startOf m + status.preGreenOf (status.phaseAt m) +
        status.pedGreenFlashOf (status.phaseAt m)) .protectedClearance := by
  refine lights_steady rfl (Int.add_assoc _ _ _) (status.preGreenOf_nonneg _) hfits ?_
  intro w hw hw'
  simp [pedestrianLight, hshown, hw', not_lt.mpr hw]

theorem pedestrian_red :
    (status.lights (status.pedestrianLight shown)).Steady
      (status.startOf m + status.preGreenOf (status.phaseAt m) +
        status.pedGreenFlashOf (status.phaseAt m)) (status.startOf (m + 1)) .stopAndRemain := by
  have hgreen := status.preGreenOf_nonneg (status.phaseAt m)
  have hflash := status.pedGreenFlashOf_nonneg (status.phaseAt m)
  refine lights_steady (Int.add_assoc _ _ _) (startOf_succ _ _) (by omega) le_rfl ?_
  intro w hw _
  simp [pedestrianLight, hshown, not_lt.mpr hw,
    not_lt.mpr (show status.preGreenOf (status.phaseAt m) ≤ w by omega)]

end Pedestrian

end Period

/-! ## The phases around a period -/

section Search

variable (status shown)

/-- The first of so many periods from one on that shows the green. -/
def greenAfter : ℕ → ℤ → ℤ
  | 0, m => m
  | n + 1, m => if shown (status.phaseAt m) then m else greenAfter n (m + 1)

/-- The first of so many periods from one back that shows the green. -/
def greenBefore : ℕ → ℤ → ℤ
  | 0, m => m
  | n + 1, m => if shown (status.phaseAt m) then m else greenBefore n (m - 1)

/-- The next period after the running one that shows the green. -/
def nextGreen : ℤ := status.greenAfter shown status.subPhaseCount.toNat 1

/-- The last period before the running one that shows the green. -/
def lastGreen : ℤ := status.greenBefore shown status.subPhaseCount.toNat (-1)

variable {status shown}

theorem greenAfter_spec {n : ℕ} {m p : ℤ} (hm : m ≤ p) (hp : p < m + n)
    (hshown : shown (status.phaseAt p)) :
    m ≤ status.greenAfter shown n m ∧ status.greenAfter shown n m < m + n ∧
      shown (status.phaseAt (status.greenAfter shown n m)) ∧
      ∀ p, m ≤ p → p < status.greenAfter shown n m → shown (status.phaseAt p) = false := by
  induction n generalizing m with
  | zero => omega
  | succ n ih =>
      rw [greenAfter]
      split
      · rename_i hfirst
        exact ⟨le_rfl, by omega, hfirst, fun p hp hp' => by omega⟩
      · rename_i hfirst
        have hne : p ≠ m := fun heq => hfirst (heq ▸ hshown)
        obtain ⟨hle, hlt, hfound, hnot⟩ := ih (m := m + 1) (by omega) (by omega)
        refine ⟨by omega, by omega, hfound, fun p hp hp' => ?_⟩
        rcases eq_or_lt_of_le hp with rfl | hlater
        · exact Bool.eq_false_iff.mpr hfirst
        · exact hnot p hlater hp'

theorem greenBefore_spec {n : ℕ} {m p : ℤ} (hm : p ≤ m) (hp : m - n < p)
    (hshown : shown (status.phaseAt p)) :
    status.greenBefore shown n m ≤ m ∧ m - n < status.greenBefore shown n m ∧
      shown (status.phaseAt (status.greenBefore shown n m)) ∧
      ∀ p, status.greenBefore shown n m < p → p ≤ m → shown (status.phaseAt p) = false := by
  induction n generalizing m with
  | zero => omega
  | succ n ih =>
      rw [greenBefore]
      split
      · rename_i hfirst
        exact ⟨le_rfl, by omega, hfirst, fun p hp hp' => by omega⟩
      · rename_i hfirst
        have hne : p ≠ m := fun heq => hfirst (heq ▸ hshown)
        obtain ⟨hle, hlt, hfound, hnot⟩ := ih (m := m - 1) (by omega) (by omega)
        refine ⟨by omega, by omega, hfound, fun p hp hp' => ?_⟩
        rcases eq_or_lt_of_le hp' with rfl | hearlier
        · exact Bool.eq_false_iff.mpr hfirst
        · exact hnot p hp (by omega)

/-- Every phase is the one of a period among as many as there are phases. -/
theorem exists_phaseAt {k : ℕ} (hk : k < status.subPhaseCount.toNat) (m : ℤ) :
    ∃ p, m ≤ p ∧ p < m + status.subPhaseCount.toNat ∧ status.phaseAt p = k := by
  have hcount := Nat.zero_lt_of_lt hk
  have hpos : (0 : ℤ) < status.subPhaseCount.toNat := by omega
  refine ⟨m + (k - (status.runningPhase + m)) % status.subPhaseCount.toNat, ?_, ?_, ?_⟩
  · have := Int.emod_nonneg (k - (status.runningPhase + m)) hpos.ne'
    omega
  · have := Int.emod_lt_of_pos (k - (status.runningPhase + m)) hpos
    omega
  · refine Int.ofNat_inj.mp ?_
    rw [natCast_phaseAt hcount, ← Int.add_assoc, Int.add_emod_emod,
      show (status.runningPhase : ℤ) + m + (k - (status.runningPhase + m)) = k by omega]
    exact Int.emod_eq_of_lt (Int.natCast_nonneg _) (Int.ofNat_lt.mpr hk)

theorem exists_greenAfter (hexists : ∃ k < status.subPhaseCount.toNat, shown k) (m : ℤ) :
    ∃ q, m < q ∧ q ≤ m + status.subPhaseCount.toNat ∧ shown (status.phaseAt q) ∧
      ∀ p, m < p → p < q → shown (status.phaseAt p) = false := by
  obtain ⟨k, hk, hshown⟩ := hexists
  obtain ⟨p, hp, hp', hphase⟩ := exists_phaseAt hk (m + 1)
  obtain ⟨hq, hq', hfound, hnot⟩ := greenAfter_spec hp hp' (hphase ▸ hshown)
  exact ⟨_, hq, by omega, hfound, hnot⟩

theorem nextGreen_spec (hexists : ∃ k < status.subPhaseCount.toNat, shown k) :
    1 ≤ status.nextGreen shown ∧ status.nextGreen shown < 1 + status.subPhaseCount.toNat ∧
      shown (status.phaseAt (status.nextGreen shown)) ∧
      ∀ p, 1 ≤ p → p < status.nextGreen shown → shown (status.phaseAt p) = false := by
  obtain ⟨k, hk, hshown⟩ := hexists
  obtain ⟨p, hp, hp', hphase⟩ := exists_phaseAt hk 1
  exact greenAfter_spec hp hp' (hphase ▸ hshown)

/-- The next green phase starts where the running phase ends, or later. -/
theorem startOf_one_le (hexists : ∃ k < status.subPhaseCount.toNat, shown k) :
    status.startOf (0 + 1) ≤ status.startOf (status.nextGreen shown) :=
  status.startOf_mono (nextGreen_spec hexists).1

theorem lastGreen_spec (hexists : ∃ k < status.subPhaseCount.toNat, shown k) :
    status.lastGreen shown < 0 ∧ -status.subPhaseCount.toNat ≤ status.lastGreen shown ∧
      shown (status.phaseAt (status.lastGreen shown)) ∧
      ∀ p, status.lastGreen shown < p → p < 0 → shown (status.phaseAt p) = false := by
  obtain ⟨k, hk, hshown⟩ := hexists
  obtain ⟨p, hp, hp', hphase⟩ := exists_phaseAt hk (-status.subPhaseCount.toNat)
  obtain ⟨hle, hlt, hfound, hnot⟩ :=
    @greenBefore_spec status shown status.subPhaseCount.toNat (-1) p (by omega) (by omega)
      (hphase ▸ hshown)
  unfold lastGreen
  exact ⟨by omega, by omega, hfound, fun p hp hp' => hnot p hp (by omega)⟩

end Search

/-! ## A green over several phases -/

section Run

variable (status shown)

/-- The green of a period ends within so many periods as the loops follow it: a phase
without yellow and all-red is followed by green, and where a green is kept over a yellow
the next yellow is as long. -/
def GreenRunEnds : ℕ → ℤ → Prop
  | 0, _ => False
  | n + 1, m =>
      status.allRedOf (status.phaseAt m) ≠ 0 ∨
      if status.yellowOf (status.phaseAt m) = 0 then
        shown (status.phaseAt (m + 1)) ∧ GreenRunEnds n (m + 1)
      else shown (status.phaseAt (m + 1)) →
        status.yellowOf (status.phaseAt (m + 1)) = status.yellowOf (status.phaseAt m) ∧
          GreenRunEnds n (m + 1)

/-- The run of a green from period `m` on: to period `u` over phases that start the next
green early, and to period `v` over yellows that the green is kept through. -/
structure GreenRun (m u v : ℤ) : Prop where
  le : m ≤ u
  le' : u ≤ v
  leads : ∀ p, m ≤ p → p < u → status.yellowOf (status.phaseAt p) = 0 ∧
    status.allRedOf (status.phaseAt p) = 0 ∧ shown (status.phaseAt (p + 1))
  ends : status.yellowOf (status.phaseAt u) ≠ 0 ∨ status.allRedOf (status.phaseAt u) ≠ 0
  kept : ∀ p, u ≤ p → p < v → status.keepsGreen shown (status.phaseAt p) ∧
    status.yellowOf (status.phaseAt (p + 1)) = status.yellowOf (status.phaseAt p)
  notKept : status.keepsGreen shown (status.phaseAt v) = false

/-- The green of a period goes on to period `v` and is over with the green there. -/
structure GreenUntil (greenType : MovementPhaseState) (m v : ℤ) : Prop where
  le : m ≤ v
  shows : shown (status.phaseAt v)
  notKept : status.keepsGreen shown (status.phaseAt v) = false
  ends : status.yellowOf (status.phaseAt v) ≠ 0 ∨ status.allRedOf (status.phaseAt v) ≠ 0
  steady : (status.lights (status.vehicleLight shown greenType)).Steady (status.startOf m)
    (status.startOf v + status.greenSeconds v) greenType

variable {status shown} (hcount : 0 < status.subPhaseCount.toNat)
include hcount

theorem keepsGreen_phaseAt (m : ℤ) : status.keepsGreen shown (status.phaseAt m) = true ↔
    status.allRedOf (status.phaseAt m) = 0 ∧ status.yellowOf (status.phaseAt m) ≠ 0 ∧
      shown (status.phaseAt (m + 1)) := by
  rw [keepsGreen, nextSubphase_phaseAt hcount, decide_eq_true_eq]

omit hcount in
theorem GreenRun.single {m : ℤ}
    (hends : status.yellowOf (status.phaseAt m) ≠ 0 ∨ status.allRedOf (status.phaseAt m) ≠ 0)
    (hover : status.keepsGreen shown (status.phaseAt m) = false) :
    status.GreenRun shown m m m :=
  ⟨le_rfl, le_rfl, fun _ hp hp' => absurd hp (not_le.mpr hp'), hends,
    fun _ hp hp' => absurd hp (not_le.mpr hp'), hover⟩

theorem GreenRunEnds.exists_run {n : ℕ} {m : ℤ} (h : status.GreenRunEnds shown n m) :
    ∃ u v, v < m + n ∧ status.GreenRun shown m u v := by
  induction n generalizing m with
  | zero => exact h.elim
  | succ n ih =>
      by_cases hred : status.allRedOf (status.phaseAt m) = 0
      · have h := h.resolve_left (not_not.mpr hred)
        split at h
        · rename_i hyellow
          obtain ⟨u, v, hv, hrun⟩ := ih h.2
          have hmu := hrun.le
          refine ⟨u, v, by omega, by omega, hrun.le', fun p hp hp' => ?_, hrun.ends, hrun.kept,
            hrun.notKept⟩
          rcases eq_or_lt_of_le hp with rfl | hlt
          · exact ⟨hyellow, hred, h.1⟩
          · exact hrun.leads p (by omega) hp'
        · rename_i hyellow
          by_cases hnext : shown (status.phaseAt (m + 1))
          · obtain ⟨hequal, hrest⟩ := h hnext
            obtain ⟨u, v, hv, hrun⟩ := ih hrest
            have hmu := hrun.le
            have huv := hrun.le'
            have hfirst : status.keepsGreen shown (status.phaseAt m) = true :=
              (keepsGreen_phaseAt hcount m).mpr ⟨hred, hyellow, hnext⟩
            -- an equal yellow is not none, so no early start comes behind this phase
            have hstart : u = m + 1 := by
              by_contra hne
              have hzero := (hrun.leads (m + 1) le_rfl (by omega)).1
              omega
            refine ⟨m, v, by omega, le_rfl, by omega, fun p hp hp' => by omega, Or.inl hyellow,
              fun p hp hp' => ?_, hrun.notKept⟩
            rcases eq_or_lt_of_le hp with rfl | hlt
            · exact ⟨hfirst, hequal⟩
            · exact hrun.kept p (by omega) hp'
          · refine ⟨m, m, by omega, .single (Or.inl hyellow)
              (Bool.eq_false_iff.mpr fun hkeeps => ?_)⟩
            exact hnext ((keepsGreen_phaseAt hcount m).mp hkeeps).2.2
      · refine ⟨m, m, by omega, .single (Or.inr hred) (Bool.eq_false_iff.mpr fun hkeeps => ?_)⟩
        exact hred ((keepsGreen_phaseAt hcount m).mp hkeeps).1

/-- The green is on all through the run. -/
theorem GreenRun.greenUntil {greenType : MovementPhaseState} {m u v : ℤ}
    (hrun : status.GreenRun shown m u v) (hshown : shown (status.phaseAt m)) :
    status.GreenUntil shown greenType m v := by
  have hnext (p : ℤ) (hp : m ≤ p) (hp' : p < v) : shown (status.phaseAt (p + 1)) := by
    rcases lt_or_ge p u with hlead | hkept
    · exact (hrun.leads p hp hlead).2.2
    · exact ((keepsGreen_phaseAt hcount p).mp (hrun.kept p hkept hp').1).2.2
  have hall (p : ℤ) (hp : m ≤ p) (hp' : p ≤ v) : shown (status.phaseAt p) := by
    rcases eq_or_lt_of_le hp with rfl | hlt
    · exact hshown
    · have hshows := hnext (p - 1) (by omega) (by omega)
      rwa [Int.sub_add_cancel] at hshows
  have hmv := hrun.le.trans hrun.le'
  refine ⟨hmv, hall v hmv le_rfl, hrun.notKept, ?_, ?_⟩
  · rcases eq_or_lt_of_le hrun.le' with rfl | hlt
    · exact hrun.ends
    · -- behind a kept yellow there is one as long
      obtain ⟨hkept, hequal⟩ := hrun.kept (v - 1) (by omega) (by omega)
      rw [Int.sub_add_cancel] at hequal
      exact Or.inl (hequal ▸ ((keepsGreen_phaseAt hcount _).mp hkept).2.1)
  · refine Periods.Steady.append (.of_periods hmv fun p hp hp' => ?_)
      (vehicle_green (hall v hmv le_rfl))
    rcases lt_or_ge p u with hlead | hkept
    · obtain ⟨hyellow, hred, -⟩ := hrun.leads p hp hlead
      exact vehicle_through (hall p hp hp'.le) hred (Or.inl hyellow)
    · have hkeeps := (hrun.kept p hkept hp').1
      exact vehicle_through (hall p hp hp'.le) ((keepsGreen_phaseAt hcount p).mp hkeeps).1
        (Or.inr hkeeps)

section Over

variable {greenType : MovementPhaseState} {m v : ℤ} (huntil : status.GreenUntil shown greenType m v)
include huntil

omit hcount in
theorem GreenUntil.end_le : status.startOf m + status.greenSeconds m ≤
    status.startOf v + status.greenSeconds v := by
  rcases eq_or_lt_of_le huntil.le with rfl | hlt
  · exact le_rfl
  · have hmono := status.startOf_mono (Int.add_one_le_of_lt hlt)
    have hlength := status.startOf_succ m
    have hgreen := status.greenSeconds_nonneg v
    have hyellow := status.yellowOf_nonneg (status.phaseAt m)
    have hred := status.allRedOf_nonneg (status.phaseAt m)
    unfold phaseSeconds at hlength
    omega

omit hcount in
theorem GreenUntil.yellow :
    (status.lights (status.vehicleLight shown greenType)).Steady
      (status.startOf v + status.greenSeconds v)
      (status.startOf v + status.greenSeconds v + status.yellowOf (status.phaseAt v))
      .protectedClearance := by
  have hyellow := @vehicle_yellow _ _ _ greenType huntil.shows
  rwa [huntil.notKept, if_neg Bool.false_ne_true] at hyellow

omit hcount huntil in
/-- The yellow of a period is over before the next one. -/
theorem yellow_le_startOf {q : ℤ} (hq : v < q) :
    status.startOf v + status.greenSeconds v + status.yellowOf (status.phaseAt v) ≤
      status.startOf q := by
  have hmono := status.startOf_mono (Int.add_one_le_of_lt hq)
  have hlength := status.startOf_succ v
  have hred := status.allRedOf_nonneg (status.phaseAt v)
  unfold phaseSeconds at hlength
  omega

omit hcount in
/-- The red behind it lasts until the next phase that shows the green. -/
theorem GreenUntil.red {q : ℤ} (hq : v < q)
    (hnot : ∀ p, v < p → p < q → shown (status.phaseAt p) = false) :
    (status.lights (status.vehicleLight shown greenType)).Steady
      (status.startOf v + status.greenSeconds v + status.yellowOf (status.phaseAt v))
      (status.startOf q) .stopAndRemain :=
  (vehicle_allRed huntil.shows).append
    (lights_red (fun _ => vehicleLight_red) hq fun p hp hp' => hnot p hp hp')

omit hcount in
/-- Another light comes on where the green is over. -/
theorem GreenUntil.not_at (hyellow : .protectedClearance ≠ greenType)
    (hred : .stopAndRemain ≠ greenType) :
    ¬(status.lights (status.vehicleLight shown greenType)).At
      (status.startOf v + status.greenSeconds v) greenType := by
  rcases huntil.ends with hends | hends
  · have hpos := lt_of_le_of_ne (status.yellowOf_nonneg (status.phaseAt v)) hends.symm
    exact huntil.yellow.not_at (by omega) hyellow
  · rcases eq_or_lt_of_le (status.yellowOf_nonneg (status.phaseAt v)) with hzero | hpos
    · have hall := @vehicle_allRed _ _ _ greenType huntil.shows
      have hlength := status.startOf_succ v
      have hred' := status.allRedOf_nonneg (status.phaseAt v)
      rw [← hzero, Int.add_zero] at hall
      refine hall.not_at ?_ hred
      rw [hlength, phaseSeconds]
      omega
    · exact huntil.yellow.not_at (by omega) hyellow

end Over

end Run

end TrafficSignalStatus

end AdaptiveSignal.Signal
