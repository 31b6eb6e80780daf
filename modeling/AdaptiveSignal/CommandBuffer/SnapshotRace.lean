import AdaptiveSignal.CommandBuffer.Polling
import AdaptiveSignal.Foundation.Run
import AdaptiveSignal.Signal.StatusUpdating

/-! # The snapshot of the polling and the live cycle index

A poll takes the phase from a snapshot and the cycle index from the variable the
receiver updates. The slot it clears when the phase has changed is that of the
phase just left as long as no cycle ends between snapshot and body.
-/

namespace AdaptiveSignal.Signal

open Foundation

/-- One occurrence of a phase: the number of cycles begun before it, and the phase. -/
structure Occurrence where
  cycle : ℕ
  phase : UInt8
  deriving DecidableEq

namespace Occurrence

def Before (o o' : Occurrence) : Prop :=
  o.cycle < o'.cycle ∨ (o.cycle = o'.cycle ∧ o.phase < o'.phase)

/-- The ring index of the slot that controls the occurrence. -/
def slotCycle (o : Occurrence) : CycleIndex :=
  Fin.ofNat cycleNum o.cycle

theorem Before.trans {o o' o'' : Occurrence} (h : o.Before o') (h' : o'.Before o'') :
    o.Before o'' := by
  rcases h with h | ⟨hcycle, hphase⟩ <;> rcases h' with h' | ⟨hcycle', hphase'⟩
  · exact Or.inl (Nat.lt_trans h h')
  · exact Or.inl (hcycle' ▸ h)
  · exact Or.inl (hcycle ▸ h')
  · exact Or.inr ⟨hcycle.trans hcycle', UInt8.lt_trans hphase hphase'⟩

/-- Within one lap of the ring no later occurrence shares the slot. -/
theorem Before.slot_ne {o o' : Occurrence} (h : o.Before o')
    (hlap : o'.cycle < o.cycle + cycleNum) :
    ¬ (o'.slotCycle = o.slotCycle ∧ o'.phase = o.phase) := by
  rintro ⟨hcycle, hphase⟩
  have hmod : o'.cycle % 3 = o.cycle % 3 := congrArg Fin.val hcycle
  change o'.cycle < o.cycle + 3 at hlap
  rcases h with h | ⟨-, hless⟩
  · omega
  · exact UInt8.lt_irrefl _ (hphase ▸ hless)

end Occurrence

/-- The middleware between the two steps of its polls, with the occurrences of
the phases it has been in. -/
structure Racing where
  middleware : Middleware
  /-- The snapshot a poll has taken and not yet worked on. -/
  snapshot : Option TrafficSignalStatus
  wraps : ℕ
  /-- The occurrence before the running one. -/
  left : Occurrence
  /-- The running occurrence at the last snapshot, and the one before it. -/
  seen : Occurrence
  leftAtSnapshot : Occurrence
  /-- The occurrence in which the polling last noted the phase. -/
  prior : Occurrence
  /-- Phase changes since the last snapshot. -/
  changes : ℕ

inductive RaceEvent
  | snapshot
  | body (requests : List CompensationRequest)
  | packet5FCC (packet : TrafficSignalPacket)

namespace Racing

def boot (config : Config) (status : TrafficSignalStatus) : Racing where
  middleware := Middleware.boot config status
  snapshot := none
  wraps := 0
  left := ⟨0, 0⟩
  seen := ⟨0, 0⟩
  leftAtSnapshot := ⟨0, 0⟩
  prior := ⟨0, 0⟩
  changes := 0

/-- The running occurrence. -/
def running (t : Racing) : Occurrence :=
  ⟨t.wraps, t.middleware.status.subPhaseId⟩

/-- The packet reports another phase than the running one. -/
def changesPhase (t : Racing) (packet : TrafficSignalPacket) : Bool :=
  (t.middleware.packet5FCC packet).status.subPhaseId ≠ t.middleware.status.subPhaseId

def packet5FCC (t : Racing) (packet : TrafficSignalPacket) : Racing :=
  { t with
    middleware := t.middleware.packet5FCC packet
    wraps := t.wraps + (t.middleware.wraps packet).toNat
    left := if t.changesPhase packet then t.running else t.left
    changes := t.changes + (t.changesPhase packet).toNat }

/-- A poll takes one snapshot and works on it once. -/
def step (t : Racing) : RaceEvent → Racing
  | .snapshot =>
      if t.snapshot = none then
        { t with
          snapshot := some t.middleware.status
          seen := t.running
          leftAtSnapshot := t.left
          changes := 0 }
      else t
  | .body requests =>
      match t.snapshot with
      | none => t
      | some snapshot =>
          { t with
            middleware := t.middleware.commandBufPollingFrom snapshot requests
            snapshot := none
            prior := if snapshot.subPhaseId = 0 then t.prior else t.seen }
  | .packet5FCC packet => t.packet5FCC packet

/-! ## The property and the condition -/

/-- A body that finds a crossing clears the slot of the occurrence the controller
had just left, an occurrence that is over and shares its slot with none of the
lap after it; every other slot keeps its command. -/
def ClearsPhaseLeft (t : Racing) (requests : List CompensationRequest) : Prop :=
  let s := t.middleware
  let left := t.leftAtSnapshot
  ∀ snapshot, t.snapshot = some snapshot → s.entersBody snapshot = true →
    s.priorSubPhaseId ≠ snapshot.subPhaseId →
    (s.priorSubPhaseId = left.phase ∧ s.priorCycleIndex = left.slotCycle) ∧
    left.Before t.running ∧
    (∀ later : Occurrence, left.Before later → later.cycle < left.cycle + cycleNum →
      ¬ (later.slotCycle = s.priorCycleIndex ∧ later.phase = s.priorSubPhaseId)) ∧
    (s.commandBufPollingFrom snapshot requests).commandBuf left.slotCycle left.phase =
      .cleared ∧
    ∀ cycle phase, ¬ (cycle = left.slotCycle ∧ phase = left.phase) →
      ((s.commandBufPollingFrom snapshot requests).commandBuf cycle phase).appId =
        ((s.compensated requests).commandBuf cycle phase).appId

/-- From the first poll on, the phase changes at most once between two polls. -/
def OnePhaseApart (t : Racing) (packet : TrafficSignalPacket) : Prop :=
  t.changesPhase packet = true → t.middleware.priorSubPhaseId ≠ 0 ∨ t.snapshot ≠ none →
    t.changes = 0

/-- The cycle index a body leaves behind for its phase is still that of its
snapshot: the live one, or for the first poll the initial one. -/
def CycleKept (t : Racing) : Prop :=
  ∀ snapshot, t.snapshot = some snapshot → snapshot.subPhaseId ≠ 0 →
    (if t.middleware.priorSubPhaseId = 0 then t.middleware.priorCycleIndex
      else t.middleware.cycleIndex) = t.seen.slotCycle

def Undisturbed (t : Racing) : RaceEvent → Prop
  | .snapshot => True
  | .body _ => t.CycleKept
  | .packet5FCC packet => t.OnePhaseApart packet

/-! ## The invariant -/

structure Inv (t : Racing) : Prop where
  ring : t.middleware.cycleIndex = t.running.slotCycle
  phase : t.middleware.priorSubPhaseId = t.prior.phase
  slot : t.prior.phase ≠ 0 → t.middleware.priorCycleIndex = t.prior.slotCycle
  live : t.seen.phase ≠ 0 → t.running.phase ≠ 0
  noted : t.prior.phase ≠ 0 → t.seen.phase ≠ 0
  seen_le : t.seen = t.running ∨ t.seen.Before t.running
  prior_le : t.prior.phase ≠ 0 → t.prior = t.seen ∨ t.prior.Before t.seen
  pending : ∀ snapshot, t.snapshot = some snapshot → t.seen.phase = snapshot.subPhaseId ∧
    (t.prior.phase ≠ 0 → t.prior = t.seen ∨ t.leftAtSnapshot = t.prior)
  worked : t.snapshot = none → t.prior.phase ≠ 0 → t.seen = t.prior
  apart : t.prior.phase ≠ 0 ∨ t.snapshot ≠ none →
    (t.changes = 0 ∧ t.seen = t.running) ∨ (t.changes = 1 ∧ t.left = t.seen)

theorem Inv.boot (config : Config) (status : TrafficSignalStatus) :
    Inv (Racing.boot config status) where
  ring := rfl
  phase := rfl
  slot hphase := absurd rfl hphase
  live hphase := absurd rfl hphase
  noted hphase := absurd rfl hphase
  seen_le := by
    rcases eq_or_ne status.subPhaseId 0 with hzero | hpos
    · exact Or.inl (by simp [Racing.boot, running, Middleware.boot, hzero])
    · exact Or.inr (Or.inr ⟨rfl, UInt8.pos_iff_ne_zero.mpr hpos⟩)
  prior_le hphase := absurd rfl hphase
  pending _ hsnapshot := absurd hsnapshot (by simp [Racing.boot])
  worked _ hphase := absurd rfl hphase
  apart h := h.elim (fun hphase => absurd rfl hphase) (fun hsnapshot => absurd rfl hsnapshot)

section Steps

variable {t : Racing}

theorem Inv.snapshot (h : t.Inv) : (t.step .snapshot).Inv := by
  unfold step
  split_ifs with hnone
  · have hnoted : t.prior.phase ≠ 0 → t.running.phase ≠ 0 := fun hphase => h.live (h.noted hphase)
    have hle : t.prior.phase ≠ 0 → t.prior = t.running ∨ t.prior.Before t.running :=
      fun hphase => h.worked hnone hphase ▸ h.seen_le
    refine ⟨h.ring, h.phase, h.slot, id, hnoted, Or.inl rfl, hle, ?_, fun hsome => ?_,
      fun _ => Or.inl ⟨rfl, rfl⟩⟩
    · intro snapshot hsnapshot
      obtain rfl := Option.some.inj hsnapshot
      refine ⟨rfl, fun hphase => ?_⟩
      have hseen := h.worked hnone hphase
      -- without a change the phase noted is the running one, after one it is the one left
      rcases h.apart (Or.inl hphase) with ⟨-, hsame⟩ | ⟨-, hleft⟩
      · exact Or.inl (hseen.symm.trans hsame)
      · exact Or.inr (hleft.trans hseen)
    · exact absurd hsome (by simp)
  · exact h

theorem Inv.body (h : t.Inv) (requests : List CompensationRequest) (hok : t.CycleKept) :
    (t.step (.body requests)).Inv := by
  cases hsnapshot : t.snapshot with
  | none =>
      simp only [step, hsnapshot]
      exact h
  | some snapshot =>
      obtain ⟨hseen, -⟩ := h.pending snapshot hsnapshot
      obtain ⟨hcycle, hcurrent⟩ :=
        Middleware.commandBufPollingFrom_position t.middleware snapshot requests
      have hstep : t.step (.body requests) =
          { t with
            middleware := t.middleware.commandBufPollingFrom snapshot requests
            snapshot := none
            prior := if snapshot.subPhaseId = 0 then t.prior else t.seen } := by
        simp only [step, hsnapshot]
      have hrunning : (t.step (.body requests)).running = t.running := by
        simp only [hstep, running, hcurrent]
      by_cases hzero : snapshot.subPhaseId = 0
      · -- a report of phase 0 before any other: nothing has been noted yet
        have hprior : t.prior.phase = 0 :=
          not_not.mp fun hphase => h.noted hphase (hseen.trans hzero)
        have hsame : t.middleware.commandBufPollingFrom snapshot requests = t.middleware := by
          simp only [Middleware.commandBufPollingFrom, hzero, if_true]
        simp only [hzero, if_true, hsame] at hstep
        rw [hstep]
        exact ⟨h.ring, h.phase, h.slot, h.live, h.noted, h.seen_le, h.prior_le,
          fun _ hsome => absurd hsome (by simp), fun _ hphase => absurd hprior hphase,
          fun hor => hor.elim (fun hphase => absurd hprior hphase) fun hsome => absurd rfl hsome⟩
      · obtain ⟨hphase, hslot⟩ :=
          Middleware.commandBufPollingFrom_prior t.middleware snapshot requests hzero
        have happart := h.apart (Or.inr (by rw [hsnapshot]; simp))
        simp only [hzero, if_false] at hstep
        rw [hstep] at hrunning ⊢
        refine ⟨?_, hphase.trans hseen.symm, fun _ => ?_, ?_, id, ?_, fun _ => Or.inl rfl,
          fun _ hsome => absurd hsome (by simp), fun _ _ => rfl, fun _ => ?_⟩
        · rw [hrunning]
          exact hcycle.trans h.ring
        · exact hslot.trans (hok snapshot hsnapshot hzero)
        · rw [hrunning]
          exact h.live
        · rw [hrunning]
          exact h.seen_le
        · rw [hrunning]
          exact happart

/-- A change of phase starts a later occurrence. -/
theorem running_packet (t : Racing) (packet : TrafficSignalPacket) :
    (t.changesPhase packet = true ∧ t.running.Before (t.packet5FCC packet).running ∧
      (t.packet5FCC packet).running.phase ≠ 0) ∨
    (t.changesPhase packet = false ∧ (t.packet5FCC packet).running = t.running) := by
  have hphase := Middleware.packet5FCC_subPhaseId t.middleware packet
  cases hreports : Middleware.reportsPhase packet with
  | false =>
      have hwraps : t.middleware.wraps packet = false := by simp [Middleware.wraps, hreports]
      rw [hreports] at hphase
      exact Or.inr ⟨by simp [changesPhase, hphase],
        by simp [running, packet5FCC, hphase, hwraps]⟩
  | true =>
      rw [hreports, if_pos rfl] at hphase
      have hnonzero : packet.info 3 ≠ 0 := by
        simp only [Middleware.reportsPhase, Bool.and_eq_true, decide_eq_true_eq] at hreports
        exact hreports.1
      by_cases hsame : packet.info 3 = t.middleware.status.subPhaseId
      · have hwraps : t.middleware.wraps packet = false := by simp [Middleware.wraps, hsame]
        exact Or.inr ⟨by simp [changesPhase, hphase, hsame],
          by simp [running, packet5FCC, hphase, hsame, hwraps]⟩
      · refine Or.inl ⟨by simp [changesPhase, hphase, hsame], ?_,
          by simpa [running, packet5FCC, hphase] using hnonzero⟩
        rcases UInt8.lt_or_lt_of_ne hsame with hless | hmore
        · have hwraps : t.middleware.wraps packet = true := by
            simp [Middleware.wraps, hreports, hless]
          exact Or.inl (by simp [running, packet5FCC, hwraps])
        · have hwraps : t.middleware.wraps packet = false := by
            simp [Middleware.wraps, UInt8.le_of_lt hmore]
          exact Or.inr ⟨by simp [running, packet5FCC, hwraps],
            by simpa [running, packet5FCC, hphase] using hmore⟩

theorem ring_packet (h : t.middleware.cycleIndex = t.running.slotCycle)
    (packet : TrafficSignalPacket) :
    (t.packet5FCC packet).middleware.cycleIndex = (t.packet5FCC packet).running.slotCycle := by
  have hcycle := Middleware.packet5FCC_cycleIndex t.middleware packet
  simp only [packet5FCC, running, Occurrence.slotCycle, hcycle] at h ⊢
  rw [h]
  cases t.middleware.wraps packet with
  | false => rfl
  | true =>
      apply Fin.ext
      simp [Fin.val_add, Nat.add_mod]

theorem Inv.packet5FCC (h : t.Inv) {packet : TrafficSignalPacket} (hok : t.OnePhaseApart packet) :
    (t.packet5FCC packet).Inv := by
  have hring := ring_packet h.ring packet
  have hphase : (t.packet5FCC packet).middleware.priorSubPhaseId = t.prior.phase :=
    (Middleware.packet5FCC_priorSubPhaseId ..).trans h.phase
  have hslot : t.prior.phase ≠ 0 →
      (t.packet5FCC packet).middleware.priorCycleIndex = t.prior.slotCycle := fun hprior =>
    (Middleware.packet5FCC_priorCycleIndex ..).trans (h.slot hprior)
  rcases running_packet t packet with ⟨hchanges, hlater, hnonzero⟩ | ⟨hchanges, hsame⟩
  · refine ⟨hring, hphase, hslot, fun _ => hnonzero, h.noted, Or.inr ?_, h.prior_le, h.pending,
      h.worked, fun hpolled => Or.inr ?_⟩
    · rcases h.seen_le with heq | hbefore
      · exact heq ▸ hlater
      · exact hbefore.trans hlater
    · have hfirst : t.changes = 0 := hok hchanges (by rw [h.phase]; exact hpolled)
      rcases h.apart hpolled with ⟨-, hseen⟩ | ⟨hone, -⟩
      · exact ⟨by simp [Racing.packet5FCC, hchanges, hfirst],
          by simp [Racing.packet5FCC, hchanges, hseen]⟩
      · omega
  · refine ⟨hring, hphase, hslot, hsame ▸ h.live, h.noted, hsame ▸ h.seen_le, h.prior_le,
      h.pending, h.worked, fun hpolled => ?_⟩
    have hleft : (t.packet5FCC packet).left = t.left := by simp [Racing.packet5FCC, hchanges]
    have hcount : (t.packet5FCC packet).changes = t.changes := by
      simp [Racing.packet5FCC, hchanges]
    rw [hleft, hcount, hsame]
    exact h.apart hpolled

end Steps

theorem Inv.step {t : Racing} (h : t.Inv) {event : RaceEvent} (hok : t.Undisturbed event) :
    (t.step event).Inv := by
  cases event with
  | snapshot => exact h.snapshot
  | body requests => exact h.body requests hok
  | packet5FCC packet => exact h.packet5FCC hok

theorem Inv.clearsPhaseLeft {t : Racing} (h : t.Inv) (requests : List CompensationRequest) :
    t.ClearsPhaseLeft requests := by
  intro snapshot hsnapshot henters hcross
  obtain ⟨hseen, hpending⟩ := h.pending snapshot hsnapshot
  have hprior : t.prior.phase ≠ 0 := by
    have hentered := henters
    simp only [Middleware.entersBody, Bool.and_eq_true, decide_eq_true_eq] at hentered
    exact h.phase ▸ hentered.2
  have hne : t.prior ≠ t.seen := fun heq => hcross (by
    rw [← hseen, ← heq]
    exact h.phase)
  have hleft : t.leftAtSnapshot = t.prior := (hpending hprior).resolve_left hne
  have hover : t.leftAtSnapshot.Before t.running := by
    have hbefore := (h.prior_le hprior).resolve_left hne
    rw [hleft]
    rcases h.seen_le with heq | hlater
    · exact heq ▸ hbefore
    · exact hbefore.trans hlater
  have hphase : t.middleware.priorSubPhaseId = t.leftAtSnapshot.phase := hleft ▸ h.phase
  have hcycle : t.middleware.priorCycleIndex = t.leftAtSnapshot.slotCycle :=
    hleft ▸ h.slot hprior
  obtain ⟨hcleared, hkept⟩ :=
    Middleware.commandBufPollingFrom_crossing t.middleware snapshot requests henters hcross
  refine ⟨⟨hphase, hcycle⟩, hover, fun later hlater hlap => ?_, ?_, ?_⟩
  · rw [hcycle, hphase]
    exact hlater.slot_ne hlap
  · rw [← hcycle, ← hphase]
    exact hcleared
  · rw [← hcycle, ← hphase]
    exact hkept

/-- In every run in which no cycle ends between the snapshot and the body of a
poll, every crossing clears the slot of the phase just left and no other. -/
theorem crossing_clears_phase_left (config : Config) (status : TrafficSignalStatus)
    (events : List RaceEvent)
    (hevents : Guarded step Undisturbed (boot config status) events) :
    ∀ before after requests, events = before ++ .body requests :: after →
      (run step (boot config status) before).ClearsPhaseLeft requests := by
  intro before after requests hsplit
  rw [hsplit] at hevents
  have hinv := (Guarded.append.mp hevents).1.invariant Inv (Inv.boot config status)
    fun _ _ hs hevent => hs.step hevent
  exact hinv.clearsPhaseLeft requests

/-- Phase 1 is left for phase 2 between two polls. -/
theorem crossing_clears_phase_left_one_change :
    let t := boot Config.initial (TrafficSignalStatus.initial fun _ => StaticPlan.unset)
    let before := [.packet5FCC (.phaseReport 1 1 30), .snapshot, .body [],
      .packet5FCC (.phaseReport 2 1 30), .snapshot]
    let reached := run step t before
    reached.middleware.priorSubPhaseId = 1 ∧
      reached.snapshot.map TrafficSignalStatus.subPhaseId = some 2 ∧
      reached.ClearsPhaseLeft [] := by
  intro t before reached
  have hevents : Guarded step Undisturbed t (before ++ [.body []]) := by
    refine ⟨fun _ _ => rfl, trivial, ?_, fun _ _ => by decide +kernel, trivial, ?_, trivial⟩
    · rintro snapshot hsnapshot -
      decide +kernel
    · rintro snapshot hsnapshot -
      decide +kernel
  exact ⟨by decide +kernel, by decide +kernel,
    crossing_clears_phase_left _ _ _ hevents before [] [] rfl⟩

/-- The cycle ends between the snapshot and the body of a poll that still sees
phase 2. The next poll takes the phase for one of the new cycle and clears the
slot in which phase 2 is still to come. -/
theorem wrap_after_snapshot_clears_future_slot :
    let t := boot Config.initial (TrafficSignalStatus.initial fun _ => StaticPlan.unset)
    let before := [.packet5FCC (.phaseReport 1 1 30), .snapshot, .body [],
      .packet5FCC (.phaseReport 2 1 30), .snapshot, .body [],
      .snapshot, .packet5FCC (.phaseReport 1 1 30), .body [], .snapshot]
    let reached := run step t before
    reached.leftAtSnapshot = ⟨0, 2⟩ ∧ reached.running = ⟨1, 1⟩ ∧
      reached.middleware.priorCycleIndex = (Occurrence.mk 1 2).slotCycle ∧
      ¬ reached.ClearsPhaseLeft [] := by
  intro t before reached
  have hleft : reached.leftAtSnapshot = ⟨0, 2⟩ := by decide +kernel
  have hslot : reached.middleware.priorCycleIndex = (Occurrence.mk 1 2).slotCycle := by
    decide +kernel
  refine ⟨hleft, by decide +kernel, hslot, fun hclears => ?_⟩
  obtain ⟨snapshot, hsnapshot⟩ := Option.isSome_iff_exists.mp
    (show reached.snapshot.isSome = true by decide +kernel)
  have hone : reached.snapshot.map TrafficSignalStatus.subPhaseId = some 1 := by decide +kernel
  rw [hsnapshot, Option.map_some, Option.some.injEq] at hone
  have hprior : reached.middleware.priorSubPhaseId = 2 := by decide +kernel
  have hright := (hclears snapshot hsnapshot
    (by simp [Middleware.entersBody, hone, hprior]) (by rw [hone, hprior]; decide)).1.2
  rw [hslot, hleft] at hright
  exact absurd hright (by decide)

end Racing

end AdaptiveSignal.Signal
