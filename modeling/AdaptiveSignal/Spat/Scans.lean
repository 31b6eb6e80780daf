import AdaptiveSignal.Spat.MovementEvents

/-! # The loops over the phases

Every loop of `spat_msg_update` ends within as many rounds as there are phases. The ones
with a counter do by their counter; the ones without stop at a phase that shows the
green, and a group is processed only when there is one.
-/

namespace AdaptiveSignal.Signal

open Foundation

/-- Phase indices that were used are below the count. -/
structure SpatWalk.Inside (count : ℕ) (w : SpatWalk) : Prop where
  cur : w.curSubphase < count
  phases : ∀ k ∈ w.phases, k < count

/-- There is a result, and it is inside. -/
def Lands (count : ℕ) (result : Option SpatWalk) : Prop :=
  ∃ w, result = some w ∧ w.Inside count

/-- An operation on walks inside has a result inside. -/
def Ends (count : ℕ) (operation : SpatWalk → Option SpatWalk) : Prop :=
  ∀ w, w.Inside count → Lands count (operation w)

namespace SpatWalk.Inside

variable {count k : ℕ} {w : SpatWalk}

theorem touch (hw : w.Inside count) (hk : k < count) : (w.touch k).Inside count := by
  refine ⟨hw.cur, fun k' hk' => ?_⟩
  rcases List.mem_append.mp hk' with hk' | hk'
  · exact hw.phases k' hk'
  · rwa [List.mem_singleton.mp hk']

theorem moveTo (hw : w.Inside count) (hk : k < count) : (w.moveTo k).Inside count :=
  ⟨hk, (hw.touch hk).phases⟩

theorem add (hw : w.Inside count) (seconds : Int) : (w.add seconds).Inside count :=
  ⟨hw.cur, hw.phases⟩

end SpatWalk.Inside

section Operations

variable {count : ℕ} {w : SpatWalk}

theorem Lands.bind {result : Option SpatWalk} {next : SpatWalk → Option SpatWalk}
    (hresult : Lands count result) (hnext : ∀ w, w.Inside count → Lands count (next w)) :
    Lands count (result >>= next) := by
  obtain ⟨w, rfl, hw⟩ := hresult
  exact hnext w hw

theorem Lands.some (hw : w.Inside count) : Lands count (some w) := ⟨w, rfl, hw⟩

theorem afterCurStep_lands {eventState : MovementPhaseState} {endOffset : SpatWalk → Int}
    {extra : SpatWalk → Option SpatWalk} (hextra : Ends count extra) (hw : w.Inside count) :
    Lands count (afterCurStep eventState endOffset extra w) := by
  obtain ⟨moved, hmoved, hinside⟩ := hextra { w with offset := endOffset w } ⟨hw.cur, hw.phases⟩
  rw [afterCurStep, hmoved]
  exact .some ⟨hinside.cur, hinside.phases⟩

end Operations

/-! ## A single loop -/

section Scan

variable {count fuel k : ℕ} {cond : SpatScan → Bool} {body : SpatScan → SpatScan} {w : SpatWalk}

/-- A loop whose index and walk stay inside ends, if its condition fails in time. -/
theorem spatScan_inside {n : ℕ} (hn : n < fuel)
    (hend : cond (body^[n] ⟨k, 0, w.touch k⟩) = false)
    (hbody : ∀ s, s.k < count ∧ s.walk.Inside count → (body s).k < count ∧
      (body s).walk.Inside count)
    (hk : k < count) (hw : w.Inside count) : Lands count (spatScan fuel cond body k w) := by
  obtain ⟨s, hs, hinside⟩ := exists_whileLoop cond body ⟨hk, hw.touch hk⟩
    (fun s hs _ => hbody s hs) hn hend
  exact ⟨s.walk, by rw [spatScan, hs]; rfl, hinside.2⟩

/-- A counter that every round increments. -/
theorem iterate_t (hbody : ∀ s, (body s).t = s.t + 1) (s : SpatScan) (n : ℕ) :
    (body^[n] s).t = s.t + n := by
  induction n with
  | zero => rfl
  | succ n ih => rw [Function.iterate_succ_apply', hbody, ih, Nat.add_assoc]

/-- An index that every round moves in one way. -/
theorem iterate_k (next : ℕ → ℕ) (hbody : ∀ s, (body s).k = next s.k) (s : SpatScan) (n : ℕ) :
    (body^[n] s).k = next^[n] s.k := by
  induction n with
  | zero => rfl
  | succ n ih => rw [Function.iterate_succ_apply', hbody, ih, Function.iterate_succ_apply']

end Scan

namespace TrafficSignalStatus

variable {status : TrafficSignalStatus} {shown : ℕ → Bool} {fuel : ℕ}

/-- Going back from phase to phase, around the plan. -/
theorem previousSubphase_iterate {start n : ℕ} (hstart : start < status.subPhaseCount.toNat)
    (hn : n ≤ status.subPhaseCount.toNat) :
    status.previousSubphase^[n] start =
      (start + status.subPhaseCount.toNat - n) % status.subPhaseCount.toNat := by
  induction n with
  | zero => rw [Nat.sub_zero, Nat.add_mod_right, Nat.mod_eq_of_lt hstart]; rfl
  | succ n ih =>
      rw [Function.iterate_succ_apply', ih (by omega), previousSubphase]
      set count := status.subPhaseCount.toNat
      rw [Nat.add_sub_assoc (by omega), Nat.mod_add_mod,
        show start + count - n + (count - 1) = start + count - (n + 1) + count by omega,
        Nat.add_mod_right]

/-- Going back comes by every phase. -/
theorem exists_previousSubphase_iterate {start k : ℕ} (hk : k < status.subPhaseCount.toNat)
    (hstart : start < status.subPhaseCount.toNat) :
    ∃ n < status.subPhaseCount.toNat, status.previousSubphase^[n] start = k := by
  rcases Nat.lt_or_ge start k with hlt | hge
  · refine ⟨start + status.subPhaseCount.toNat - k, by omega, ?_⟩
    rw [previousSubphase_iterate hstart (by omega), Nat.sub_sub_self (by omega),
      Nat.mod_eq_of_lt hk]
  · refine ⟨start - k, by omega, ?_⟩
    rw [previousSubphase_iterate hstart (by omega),
      show start + status.subPhaseCount.toNat - (start - k) = k + status.subPhaseCount.toNat by
        omega,
      Nat.add_mod_right, Nat.mod_eq_of_lt hk]

section Counted

variable (hcount : 0 < status.subPhaseCount.toNat) (hfuel : status.subPhaseCount.toNat < fuel)
include hcount

theorem nextSubphase_lt (k : ℕ) : status.nextSubphase k < status.subPhaseCount.toNat :=
  Nat.mod_lt _ hcount

theorem previousSubphase_lt (k : ℕ) : status.previousSubphase k < status.subPhaseCount.toNat :=
  Nat.mod_lt _ hcount

include hfuel

theorem increaseOffsetRedSignal_ends :
    Ends status.subPhaseCount.toNat (status.increaseOffsetRedSignal shown fuel) := by
  intro w hw
  refine spatScan_inside hfuel ?_ (fun s hs => ?_) (nextSubphase_lt hcount _) hw
  · simp [iterate_t]
  · exact ⟨nextSubphase_lt hcount _,
      ((hs.2.add _).moveTo (nextSubphase_lt hcount _)).touch (nextSubphase_lt hcount _)⟩

theorem leadingSubphaseSignal_ends :
    Ends status.subPhaseCount.toNat (status.leadingSubphaseSignal fuel) := by
  intro w hw
  refine spatScan_inside hfuel ?_ (fun s hs => ?_) hw.cur hw
  · simp [iterate_t]
  · exact ⟨nextSubphase_lt hcount _,
      ((hs.2.add _).moveTo (nextSubphase_lt hcount _)).touch (nextSubphase_lt hcount _)⟩

theorem laggingSubphaseSignal_ends :
    Ends status.subPhaseCount.toNat (status.laggingSubphaseSignal shown fuel) := by
  intro w hw
  refine spatScan_inside hfuel ?_ (fun s hs => ?_) hw.cur hw
  · simp [iterate_t]
  · exact ⟨nextSubphase_lt hcount _,
      ((hs.2.add _).moveTo (nextSubphase_lt hcount _)).touch (nextSubphase_lt hcount _)⟩

theorem earlyStart_ends : Ends status.subPhaseCount.toNat (status.earlyStart shown fuel) := by
  intro w hw
  refine spatScan_inside hfuel ?_ (fun s hs => ?_) (previousSubphase_lt hcount _) hw
  · simp [iterate_t]
  · exact ⟨previousSubphase_lt hcount _, (hs.2.add _).touch (previousSubphase_lt hcount _)⟩

/-- The loop without a counter stops at a phase that shows the green. -/
theorem backToGreen_ends {k : ℕ} (hk : k < status.subPhaseCount.toNat) (hshown : shown k) :
    Ends status.subPhaseCount.toNat (status.backToGreen shown fuel) := by
  intro w hw
  have hstart := previousSubphase_lt hcount w.curSubphase
  obtain ⟨n, hn, hreach⟩ := exists_previousSubphase_iterate hk hstart
  refine spatScan_inside (hn.trans hfuel) ?_ (fun s hs => ?_) hstart hw
  · rw [iterate_k status.previousSubphase fun _ => rfl, hreach, hshown]
    rfl
  · exact ⟨previousSubphase_lt hcount _, (hs.2.add _).touch (previousSubphase_lt hcount _)⟩

theorem greenFrom_lands {greenType : MovementPhaseState} {greenEnd : SpatWalk → Int}
    {w : SpatWalk} (hw : w.Inside status.subPhaseCount.toNat) :
    Lands status.subPhaseCount.toNat (status.greenFrom shown fuel greenType greenEnd w) :=
  afterCurStep_lands (fun w hw => (leadingSubphaseSignal_ends hcount hfuel w hw).bind
    (laggingSubphaseSignal_ends hcount hfuel)) hw

theorem redAfter_ends : Ends status.subPhaseCount.toNat (status.redAfter shown fuel) :=
  fun _ hw => afterCurStep_lands (increaseOffsetRedSignal_ends hcount hfuel) hw

theorem vehicleGreenEvents_ends (greenType : MovementPhaseState) :
    Ends status.subPhaseCount.toNat (status.vehicleGreenEvents shown fuel greenType) := by
  intro w hw
  have hyellow : Ends status.subPhaseCount.toNat status.yellowAfter :=
    fun _ hw => afterCurStep_lands (fun _ => .some) hw
  refine (earlyStart_ends hcount hfuel w hw).bind fun w hw => ?_
  have hset (offset : Int) : { w with offset := offset }.Inside status.subPhaseCount.toNat :=
    ⟨hw.cur, hw.phases⟩
  dsimp only
  split
  · refine (greenFrom_lands hcount hfuel (hset _)).bind fun w hw => ?_
    exact (hyellow w hw).bind (redAfter_ends hcount hfuel)
  · split
    · split
      · refine (greenFrom_lands hcount hfuel
          ((hset _).moveTo (nextSubphase_lt hcount _))).bind fun w hw => ?_
        exact (hyellow w hw).bind (redAfter_ends hcount hfuel)
      · refine (afterCurStep_lands (fun _ => .some) (hset _)).bind fun w hw => ?_
        exact (redAfter_ends hcount hfuel w hw).bind fun w hw => greenFrom_lands hcount hfuel hw
    · split
      · refine (afterCurStep_lands (increaseOffsetRedSignal_ends hcount hfuel)
          (hset _)).bind fun w hw => ?_
        exact (greenFrom_lands hcount hfuel hw).bind hyellow
      · exact .some hw

theorem pedestrianGreenEvents_ends :
    Ends status.subPhaseCount.toNat (status.pedestrianGreenEvents shown fuel) := by
  intro w hw
  have hset (offset : Int) : { w with offset := offset }.Inside status.subPhaseCount.toNat :=
    ⟨hw.cur, hw.phases⟩
  have hred := @increaseOffsetRedSignal_ends _ shown _ hcount hfuel
  have hsome : Ends status.subPhaseCount.toNat some := fun _ => .some
  dsimp only [pedestrianGreenEvents]
  split
  · refine (afterCurStep_lands hsome (hset _)).bind fun w hw => ?_
    refine (afterCurStep_lands hsome hw).bind fun w hw => ?_
    exact afterCurStep_lands hred hw
  · split
    · refine (afterCurStep_lands hsome (hset _)).bind fun w hw => ?_
      refine (afterCurStep_lands hred hw).bind fun w hw => ?_
      exact afterCurStep_lands hsome hw
    · split
      · refine (afterCurStep_lands hred (hset _)).bind fun w hw => ?_
        refine (afterCurStep_lands hsome hw).bind fun w hw => ?_
        exact afterCurStep_lands hsome hw
      · exact .some hw

section Shown

variable {k : ℕ} (hk : k < status.subPhaseCount.toNat) (hshown : shown k)
include hk hshown

theorem redUntilGreen_ends :
    Ends status.subPhaseCount.toNat (status.redUntilGreen shown fuel) := by
  intro w hw
  refine (backToGreen_ends hcount hfuel hk hshown _ (hw.add _)).bind fun w hw => ?_
  dsimp only
  refine Lands.bind (increaseOffsetRedSignal_ends hcount hfuel _ ⟨hw.cur, hw.phases⟩)
    fun w hw => ?_
  exact .some (SpatWalk.Inside.moveTo ⟨hw.cur, hw.phases⟩ (nextSubphase_lt hcount _))

theorem vehicleRedEvents_ends (greenType : MovementPhaseState) :
    Ends status.subPhaseCount.toNat (status.vehicleRedEvents shown fuel greenType) := by
  intro w hw
  refine (redUntilGreen_ends hcount hfuel hk hshown w hw).bind fun w hw => ?_
  refine (greenFrom_lands hcount hfuel hw).bind fun w hw => ?_
  exact afterCurStep_lands (fun _ => .some) hw

theorem pedestrianRedEvents_ends :
    Ends status.subPhaseCount.toNat (status.pedestrianRedEvents shown fuel) := by
  intro w hw
  refine (redUntilGreen_ends hcount hfuel hk hshown w hw).bind fun w hw => ?_
  refine (afterCurStep_lands (fun _ => .some) hw).bind fun w hw => ?_
  exact afterCurStep_lands (fun _ => .some) hw

end Shown

end Counted

end TrafficSignalStatus

end AdaptiveSignal.Signal
