import AdaptiveSignal.Compensation.Alignment

/-! # The segment of the day in force

With the segments of the day as the baseline, cycles are counted from the start of the
segment in force: the last one that has started. Before the first one starts it is the
last one, which began the day before.
-/

namespace AdaptiveSignal.Signal

/-- The start of a segment, in minutes of the day. -/
def AllDayPlan.start (segment : AllDayPlan) : ℕ := segment.hour.toNat * 60 + segment.min.toNat

def Clock.minInDay (clock : Clock) : ℕ := clock.hour * 60 + clock.min

def daySec : Int := 86400

namespace TrafficSignalStatus

variable (status : TrafficSignalStatus)

/-- The first segment after segment 0 that has not started yet. -/
def laterSegment (minInDay : ℕ) : Option ℕ :=
  (List.range' 1 (status.segmentCount.toNat - 1)).find? fun i =>
    minInDay < (status.alldayPlan i).start

/-- The entry of `allday_plan` that `get_nearly_segment` copies: the one before the first
later start, or the last one. -/
def nearlySegment (minInDay : ℕ) : Int :=
  match status.laterSegment minInDay with
  | some i => (i : Int) - 1
  | none => (status.segmentCount.toNat : Int) - 1

/-- The entries of `allday_plan` that `get_nearly_segment` reads, in order. -/
def segmentReads (minInDay : ℕ) : List Int :=
  (match status.laterSegment minInDay with
    | some i => List.range' 1 i
    | none => List.range' 1 (status.segmentCount.toNat - 1)).map (fun i : ℕ => (i : Int)) ++
  [status.nearlySegment minInDay]

/-- `get_nearly_segment`: hour and minute of a start; none where it reads in front of
the list. -/
def getNearlySegment (minInDay : ℕ) : Option (UInt8 × UInt8) :=
  if 0 ≤ status.nearlySegment minInDay then
    let segment := status.alldayPlan (status.nearlySegment minInDay).toNat
    some (segment.hour, segment.min)
  else none

/-- The segments are sorted by their start. -/
def SegmentsSorted : Prop :=
  ∀ i j, i ≤ j → j < status.segmentCount.toNat →
    (status.alldayPlan i).start ≤ (status.alldayPlan j).start

/-- The last segment that has started, or, before the first one starts, the last one. -/
def InForce (minInDay k : ℕ) : Prop :=
  k < status.segmentCount.toNat ∧
    ((status.alldayPlan k).start ≤ minInDay ∧
        (∀ j < status.segmentCount.toNat, k < j → minInDay < (status.alldayPlan j).start) ∨
      (∀ j < status.segmentCount.toNat, minInDay < (status.alldayPlan j).start) ∧
        k + 1 = status.segmentCount.toNat)

/-- The seconds since a segment began, on this day or the day before. -/
def sinceBegan (clock : Clock) (k : ℕ) : Int :=
  let segment := status.alldayPlan k
  let today := clock.sinceAlign segment.hour.toNat segment.min.toNat
  if segment.start ≤ clock.minInDay then today else today + daySec

/-- Only entries of the list are read, the baseline is the start of the segment in force,
and what the alignment counts from it are the seconds since the segment began. -/
structure FollowsSegments (clock : Clock) : Prop where
  reads : ∀ i ∈ status.segmentReads clock.minInDay, 0 ≤ i ∧ i < status.segmentCount.toNat
  inForce : 0 < status.segmentCount.toNat → ∃ k, status.InForce clock.minInDay k ∧
    ∃ hour min, status.getNearlySegment clock.minInDay = some (hour, min) ∧
      hour = (status.alldayPlan k).hour ∧ min = (status.alldayPlan k).min ∧
      clock.sinceAlign hour.toNat min.toNat = status.sinceBegan clock k

end TrafficSignalStatus

section Segments

variable {status : TrafficSignalStatus} {minInDay : ℕ}

/-- Once the first segment has started, the entry that is copied is the one in force. -/
theorem nearlySegment_inForce (hsorted : status.SegmentsSorted)
    (hcount : 0 < status.segmentCount.toNat) (hfirst : (status.alldayPlan 0).start ≤ minInDay) :
    ∃ k, status.nearlySegment minInDay = (k : ℕ) ∧ status.InForce minInDay k ∧
      (status.alldayPlan k).start ≤ minInDay := by
  unfold TrafficSignalStatus.nearlySegment
  cases hlater : status.laterSegment minInDay with
  | some i =>
      obtain ⟨hnotYet, hrange, hbefore⟩ := List.find?_range'_eq_some.mp hlater
      simp only [decide_eq_true_eq] at hnotYet hbefore
      rw [List.mem_range'_1] at hrange
      have hstarted : (status.alldayPlan (i - 1)).start ≤ minInDay := by
        rcases Nat.eq_or_lt_of_le hrange.1 with rfl | hlt
        · exact hfirst
        · exact not_lt.mp (by simpa using hbefore (i - 1) (by omega) (by omega))
      refine ⟨i - 1, ?_, ⟨by omega, Or.inl ⟨hstarted, fun j hj hlt => ?_⟩⟩, hstarted⟩
      · exact (Int.natCast_pred_of_pos hrange.1).symm
      · exact hnotYet.trans_le (hsorted i j (by omega) hj)
  | none =>
      have hall := List.find?_range'_eq_none.mp hlater
      have hstarted : (status.alldayPlan (status.segmentCount.toNat - 1)).start ≤ minInDay := by
        rcases Nat.eq_or_lt_of_le hcount with hone | hmany
        · rw [← hone]
          exact hfirst
        · have hlast := hall (status.segmentCount.toNat - 1) (by omega) (by omega)
          exact not_lt.mp (by simpa using hlast)
      refine ⟨status.segmentCount.toNat - 1, (Int.natCast_pred_of_pos hcount).symm,
        ⟨by omega, Or.inl ⟨hstarted, fun j hj hlt => by omega⟩⟩, hstarted⟩

/-- The scan stays within a list that is not empty. -/
theorem segmentReads_within (hcount : 0 < status.segmentCount.toNat) :
    ∀ i ∈ status.segmentReads minInDay, 0 ≤ i ∧ i < status.segmentCount.toNat := by
  intro i hi
  unfold TrafficSignalStatus.segmentReads TrafficSignalStatus.nearlySegment at hi
  cases hlater : status.laterSegment minInDay with
  | some later =>
      have hrange := (List.find?_range'_eq_some.mp hlater).2.1
      rw [List.mem_range'_1] at hrange
      simp only [hlater, List.mem_append, List.mem_map, List.mem_range'_1, List.mem_singleton] at hi
      rcases hi with ⟨k, hk, rfl⟩ | rfl <;> omega
  | none =>
      simp only [hlater, List.mem_append, List.mem_map, List.mem_range'_1, List.mem_singleton] at hi
      rcases hi with ⟨k, hk, rfl⟩ | rfl <;> omega

/-- Where the baseline follows the segments, there are some. -/
theorem TrafficSignalStatus.FollowsSegments.nonempty {clock : Clock}
    (hfollows : status.FollowsSegments clock) :
    0 < status.segmentCount.toNat := by
  by_contra hnone
  have hread := hfollows.reads (status.nearlySegment clock.minInDay) (by
    simp [TrafficSignalStatus.segmentReads])
  omega

/-- Where the baseline follows the segments, the first one has started. -/
theorem TrafficSignalStatus.FollowsSegments.started (hsorted : status.SegmentsSorted)
    {clock : Clock}
    (hfollows : status.FollowsSegments clock) :
    (status.alldayPlan 0).start ≤ clock.minInDay := by
  by_contra hearly
  obtain ⟨k, ⟨hk, -⟩, hour, min, -, rfl, rfl, hseconds⟩ := hfollows.inForce hfollows.nonempty
  -- no segment has started, and the one in force began the day before
  have hlater := hsorted 0 k (Nat.zero_le k) hk
  have hyesterday : ¬ (status.alldayPlan k).start ≤ clock.minInDay := by omega
  rw [TrafficSignalStatus.sinceBegan, if_neg hyesterday, daySec] at hseconds
  omega

/-- The baseline follows the segments exactly if there are any and the first has started. -/
theorem followsSegments_iff (hsorted : status.SegmentsSorted) (clock : Clock) :
    status.FollowsSegments clock ↔
      0 < status.segmentCount.toNat ∧ (status.alldayPlan 0).start ≤ clock.minInDay := by
  constructor
  · intro hfollows
    exact ⟨hfollows.nonempty, hfollows.started hsorted⟩
  · rintro ⟨hcount, hfirst⟩
    obtain ⟨k, hindex, hforce, hstarted⟩ := nearlySegment_inForce hsorted hcount hfirst
    refine ⟨segmentReads_within hcount, fun _ => ⟨k, hforce, _, _, ?_, rfl, rfl, ?_⟩⟩
    · rw [TrafficSignalStatus.getNearlySegment, hindex, if_pos (by omega)]
      rfl
    · rw [TrafficSignalStatus.sinceBegan, if_pos hstarted]

end Segments

/-- A day of two segments, from one and from seven o'clock. -/
def TrafficSignalStatus.twoSegments : TrafficSignalStatus :=
  { TrafficSignalStatus.initial fun _ => .unset with
    segmentCount := 2, alldayPlan := fun i => if i = 0 then ⟨1, 0, 1⟩ else ⟨7, 0, 2⟩ }

theorem twoSegments_sorted : TrafficSignalStatus.twoSegments.SegmentsSorted := by
  intro i j hij hj
  unfold TrafficSignalStatus.twoSegments AllDayPlan.start
  dsimp only
  split_ifs <;> first | omega | decide

theorem followsSegments_iff_at_eight :
    TrafficSignalStatus.twoSegments.FollowsSegments ⟨8, 0, 0, 0⟩ ↔
      0 < TrafficSignalStatus.twoSegments.segmentCount.toNat ∧
        (TrafficSignalStatus.twoSegments.alldayPlan 0).start ≤
          Clock.minInDay ⟨8, 0, 0, 0⟩ :=
  followsSegments_iff twoSegments_sorted ⟨8, 0, 0, 0⟩

/-- Half an hour after midnight the segment that starts at one o'clock is taken for the
one in force, and without any segments the entry in front of the list is read. -/
theorem segment_not_in_force :
    TrafficSignalStatus.twoSegments.SegmentsSorted ∧
      TrafficSignalStatus.twoSegments.getNearlySegment 30 = some (1, 0) ∧
      ¬ TrafficSignalStatus.twoSegments.FollowsSegments ⟨0, 30, 0, 0⟩ ∧
      (TrafficSignalStatus.initial fun _ => .unset).segmentReads 30 = [-1] := by
  refine ⟨twoSegments_sorted, by decide, fun hfollows => ?_, by decide⟩
  exact absurd (hfollows.started twoSegments_sorted) (by decide)

end AdaptiveSignal.Signal
