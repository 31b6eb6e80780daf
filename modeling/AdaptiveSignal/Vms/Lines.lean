import AdaptiveSignal.Foundation.Decimal
import AdaptiveSignal.Vms.ControlLoop

/-! # The lines that the message signs are sent

A line fits its buffer and reads back as the number of the line and the program of
each sign. The programs are those of the application that holds the signs, and
the carousel's while none does.
-/

namespace AdaptiveSignal.Vms

open Foundation AdaptiveSignal.Configuration
open Signal (TrafficSignalStatus)

/-- What a sign can read of a line: the number of the line, and the programs. -/
def readLine (text : List Char) : List ℕ :=
  (tokens ',' (text.drop 1).dropLast).map digitsValue

theorem comma_notMem_decimal (n : ℕ) : ',' ∉ decimal n := fun hmem =>
  absurd (decimal_digits n ',' hmem) (by decide)

theorem tokens_decimals (n : ℕ) (programs : List UInt8) :
    tokens ',' (decimal n ++ programs.flatMap fun p => ',' :: decimal p.toNat) =
      decimal n :: programs.map fun p => decimal p.toNat := by
  induction programs generalizing n with
  | nil =>
      rw [List.flatMap_nil, List.append_nil]
      exact tokens_of_notMem (decimal_ne_nil n) (comma_notMem_decimal n)
  | cons p programs ih =>
      rw [List.flatMap_cons, List.cons_append,
        tokens_append_cons (decimal_ne_nil n) (comma_notMem_decimal n), ih]
      rfl

namespace ControlLoop

theorem readLine_packetText (n : ℕ) (programs : List UInt8) :
    readLine (packetText n programs) = n :: programs.map UInt8.toNat := by
  have hbody : ((packetText n programs).drop 1).dropLast =
      decimal n ++ programs.flatMap fun p => ',' :: decimal p.toNat := by
    simp [packetText]
  rw [readLine, hbody, tokens_decimals, List.map_cons, List.map_map, digitsValue_decimal]
  congr 1
  exact List.map_congr_left fun p _ => digitsValue_decimal p.toNat

theorem length_packetText_le {n : ℕ} (hn : n < 1000) {programs : List UInt8}
    (hprograms : programs.length ≤ rtmMax) : (packetText n programs).length ≤ 37 := by
  have hnumber : (decimal n).length ≤ 3 := length_decimal_le (by decide) (by omega)
  have hrest : (programs.flatMap fun p => ',' :: decimal p.toNat).length ≤ programs.length * 4 := by
    rw [List.length_flatMap]
    have hone : ∀ length ∈ programs.map fun p => (',' :: decimal p.toNat).length, length ≤ 4 := by
      intro length hlength
      obtain ⟨p, _, rfl⟩ := List.mem_map.mp hlength
      have hp : (decimal p.toNat).length ≤ 3 :=
        length_decimal_le (by decide) (p.toNat_lt.trans (by decide))
      simpa using Nat.lt_succ_of_le hp
    simpa using List.sum_le_card_nsmul _ 4 hone
  have hmax : rtmMax = 8 := rfl
  simp only [packetText, List.length_cons, List.length_append, List.length_nil]
  omega

end ControlLoop

/-! ## The lights -/

theorem rtmPhase_and (status : TrafficSignalStatus) (j : ℕ) {k : ℕ} (hk : k < rtmMax) :
    (0 < rtmPhase status j &&& UInt8.ofNat (2 ^ k)) ↔ rtmPhaseBit status j k = true := by
  have hrange : List.range rtmMax = [0, 1, 2, 3, 4, 5, 6, 7] := rfl
  unfold rtmPhase
  rw [hrange]
  simp only [List.foldl_cons, List.foldl_nil]
  interval_cases k <;>
    · generalize rtmPhaseBit status j 0 = b0
      generalize rtmPhaseBit status j 1 = b1
      generalize rtmPhaseBit status j 2 = b2
      generalize rtmPhaseBit status j 3 = b3
      generalize rtmPhaseBit status j 4 = b4
      generalize rtmPhaseBit status j 5 = b5
      generalize rtmPhaseBit status j 6 = b6
      generalize rtmPhaseBit status j 7 = b7
      revert b0 b1 b2 b3 b4 b5 b6 b7
      decide

/-- The signal of a direction shows a green in the running phase, in one of the
steps before its yellow. -/
def isGreen (status : TrafficSignalStatus) (j : ℕ) : Bool :=
  rtmPhaseBit status j (status.subPhaseId.toNat - 1) && status.stepId ≤ 3

namespace ControlLoop

theorem lookAtLights_currentStep (s : ControlLoop) {status : TrafficSignalStatus}
    (hphase : status.subPhaseId.toNat - 1 < rtmMax) {j : ℕ} (hj : j < signs status) :
    (s.lookAtLights status).currentStep j = isGreen status j := by
  simp only [lookAtLights, if_pos hj, isGreen, rtmPhase_and status j hphase]
  simp

/-- The programs of the carousel. -/
def carouselPrograms (carousel : VmsState) (status : TrafficSignalStatus) : List UInt8 :=
  (List.range (signs status)).map fun i =>
    if isGreen status (partner i) then program carousel.shownGreen (partner i)
    else program carousel.shownNotGreen (partner i)

/-- Every sign has its partner among the signs, unless there are one or three. -/
theorem partner_lt {n i : ℕ} (hn : n ≠ 1 ∧ n ≠ 3) (hi : i < n) : partner i < n := by
  unfold partner
  split_ifs <;> omega

theorem programs_carousel {s : ControlLoop} {status : TrafficSignalStatus}
    (happ : s.appId = carouselNum) (hphase : status.subPhaseId.toNat - 1 < rtmMax)
    (hsigns : signs status ≠ 1 ∧ signs status ≠ 3) :
    (s.beforeWrite status).programs status = carouselPrograms s.carousel status := by
  have hnext : s.nextSequence.appId = carouselNum := happ
  have hlook : s.beforeWrite status = s.nextSequence.lookAtLights status := if_pos hnext
  have happ' : (s.nextSequence.lookAtLights status).appId = carouselNum := happ
  have hne : ¬ (s.nextSequence.lookAtLights status).appId = evspId := by
    rw [happ']
    decide
  rw [hlook, programs, if_neg hne, if_pos happ']
  refine List.map_congr_left fun i hi => ?_
  have hpartner := partner_lt hsigns (List.mem_range.mp hi)
  rw [lookAtLights_currentStep _ hphase hpartner]
  rfl

theorem programs_evsp {s : ControlLoop} {status : TrafficSignalStatus} (happ : s.appId = evspId) :
    (s.beforeWrite status).programs status = (List.range (signs status)).map s.evspProg := by
  have hne : ¬ s.nextSequence.appId = carouselNum := by
    rw [show s.nextSequence.appId = evspId from happ]
    decide
  have hbefore : s.beforeWrite status = s.nextSequence := if_neg hne
  rw [hbefore, programs, if_pos (show s.nextSequence.appId = evspId from happ)]
  rfl

theorem programs_other {s : ControlLoop} {status : TrafficSignalStatus} (hevsp : s.appId ≠ evspId)
    (hcarousel : s.appId ≠ carouselNum) : (s.beforeWrite status).programs status = [] := by
  have hbefore : s.beforeWrite status = s.nextSequence := if_neg hcarousel
  rw [hbefore, programs, if_neg (show ¬ s.nextSequence.appId = evspId from hevsp),
    if_neg (show ¬ s.nextSequence.appId = carouselNum from hcarousel)]

theorem length_programs_le (s : ControlLoop) (status : TrafficSignalStatus) :
    (s.programs status).length ≤ rtmMax := by
  have hsigns : signs status ≤ rtmMax := Nat.min_le_left _ _
  unfold programs
  split_ifs <;> simp [hsigns]

/-! ## The number of a line -/

/-- The passes among the events. -/
def passes (events : List LoopEvent) : ℕ := events.countP fun event => event matches .pass _

theorem beforeWrite_frame (s : ControlLoop) (status : TrafficSignalStatus) :
    (s.beforeWrite status).sequenceNumber = s.nextSequence.sequenceNumber ∧
      (s.beforeWrite status).requestPriority = s.requestPriority ∧
      (s.beforeWrite status).appId = s.appId := by
  unfold beforeWrite
  dsimp only
  split_ifs <;> exact ⟨rfl, rfl, rfl⟩

theorem check_frame (s : ControlLoop) (status : TrafficSignalStatus) :
    (s.check status).sequenceNumber = s.sequenceNumber ∧
      (s.check status).requestPriority = s.requestPriority ∧
      (s.check status).appId = s.appId := by
  unfold check
  split_ifs <;> exact ⟨rfl, rfl, rfl⟩

/-- A pass counts the line and leaves the requests alone. -/
theorem pass_frame (s : ControlLoop) (input : LoopInput) :
    (s.pass input).sequenceNumber = s.nextSequence.sequenceNumber ∧
      (s.pass input).requestPriority = s.requestPriority ∧ (s.pass input).appId = s.appId := by
  obtain ⟨hsequence, hpriority, happ⟩ := s.beforeWrite_frame input.status
  unfold pass
  dsimp only
  obtain ⟨hsequence', hpriority', happ'⟩ := check_frame (countAnswers
    { (s.beforeWrite input.status).receive input.read with
      readCnt := ((s.beforeWrite input.status).receive input.read).readCnt + 1 }) input.status
  exact ⟨hsequence'.trans hsequence, hpriority'.trans hpriority, happ'.trans happ⟩

theorem nextSequence_eq {s : ControlLoop} {n : ℕ} (hs : s.sequenceNumber = n % 255 + 1) :
    s.nextSequence.sequenceNumber = (n + 1) % 255 + 1 := by
  simp only [nextSequence, hs]
  split_ifs <;> omega

theorem sequenceNumber_run {s : ControlLoop} {n : ℕ} (hs : s.sequenceNumber = n % 255 + 1)
    (events : List LoopEvent) :
    (run step s events).sequenceNumber = (n + passes events) % 255 + 1 := by
  induction events generalizing s n with
  | nil => simpa [passes] using hs
  | cons event rest ih =>
      rw [run_cons]
      cases event with
      | pass input =>
          have hpass := (pass_frame s input).1.trans (nextSequence_eq hs)
          rw [show s.step (.pass input) = s.pass input from rfl, ih hpass]
          simp only [passes, List.countP_cons, if_true]
          omega
      | requestStart id priority =>
          have hsame : (s.vmsRequestStart id priority).sequenceNumber = n % 255 + 1 := by
            unfold vmsRequestStart
            split_ifs <;> exact hs
          exact ih hsame
      | requestEnd id =>
          have hsame : (s.vmsRequestEnd id).sequenceNumber = n % 255 + 1 := by
            unfold vmsRequestEnd
            split_ifs <;> exact hs
          exact ih hsame
      | setEvspProg prog => exact ih hs
      | carouselUpdate opened request => exact ih hs
      | setVmsError error => exact ih hs

end ControlLoop

/-! ## Who holds the signs -/

structure VmsRequest where
  id : UInt8
  priority : UInt8

def VmsRequest.rank (request : VmsRequest) : ℕ := request.priority.toNat

/-- A request with the priority of the carousel is never served. -/
def LoopEvent.toSlotEvent : LoopEvent → SlotEvent VmsRequest UInt8
  | .requestStart id priority =>
      if priority < carouselNum then .start ⟨id, priority⟩ else .expire fun _ => false
  | .requestEnd id => .finish id
  | _ => .expire fun _ => false

/-- The requests made since the signs were last free. -/
def pendingRequests (events : List LoopEvent) : List VmsRequest :=
  run (PrioritySlot.track VmsRequest.rank VmsRequest.id) [] (events.map LoopEvent.toSlotEvent)

namespace ControlLoop

def Serves (s : ControlLoop) : Option VmsRequest → Prop
  | none => s.requestPriority = carouselNum ∧ s.appId = carouselNum
  | some request => s.requestPriority = request.priority ∧ s.appId = request.id

theorem lt_carouselNum_or (priority : UInt8) : priority < carouselNum ∨ priority = carouselNum := by
  have hle : priority.toNat ≤ 255 := Nat.le_of_lt_succ priority.toNat_lt
  rw [UInt8.lt_iff_toNat_lt, ← UInt8.toNat_inj]
  exact hle.lt_or_eq

theorem filter_kept (slot : Option VmsRequest) : slot.filter (fun _ => !false) = slot := by
  cases slot <;> rfl

/-- The loop does with its two variables what the slot does. -/
theorem Serves.step {s : ControlLoop} {slot : Option VmsRequest} (h : s.Serves slot)
    (hslot : ∀ request ∈ slot, request.priority < carouselNum) (event : LoopEvent) :
    (s.step event).Serves
      (PrioritySlot.step VmsRequest.rank VmsRequest.id slot event.toSlotEvent) := by
  cases event with
  | requestStart id priority =>
      simp only [ControlLoop.step, vmsRequestStart, LoopEvent.toSlotEvent]
      rcases lt_carouselNum_or priority with hlt | rfl
      · rw [if_pos hlt]
        cases slot with
        | none =>
            rw [if_pos (by rw [h.1]; exact hlt)]
            exact ⟨rfl, rfl⟩
        | some holder =>
            simp only [PrioritySlot.step, VmsRequest.rank, h.1, ← UInt8.lt_iff_toNat_lt]
            split_ifs
            · exact ⟨rfl, rfl⟩
            · exact h
      · rw [if_neg (UInt8.lt_irrefl _)]
        simp only [PrioritySlot.step, filter_kept]
        have hnot : ¬ carouselNum < s.requestPriority := by
          rw [UInt8.lt_iff_toNat_lt]
          have hle : s.requestPriority.toNat ≤ 255 := Nat.le_of_lt_succ s.requestPriority.toNat_lt
          exact Nat.not_lt.mpr hle
        rw [if_neg hnot]
        exact h
  | requestEnd id =>
      simp only [ControlLoop.step, vmsRequestEnd, LoopEvent.toSlotEvent, PrioritySlot.step]
      cases slot with
      | none =>
          split_ifs
          · exact ⟨rfl, rfl⟩
          · exact h
      | some holder =>
          rw [Option.filter_some, h.2]
          by_cases heq : holder.id = id
          · simp only [heq, if_true, ne_eq, not_true_eq_false, decide_false, Bool.false_eq_true,
              if_false]
            exact ⟨rfl, rfl⟩
          · simp only [heq, if_false, ne_eq, not_false_eq_true, decide_true, if_true]
            exact h
  | setEvspProg prog =>
      simp only [LoopEvent.toSlotEvent, PrioritySlot.step, filter_kept]
      cases slot <;> exact h
  | carouselUpdate opened request =>
      simp only [LoopEvent.toSlotEvent, PrioritySlot.step, filter_kept]
      cases slot <;> exact h
  | setVmsError error =>
      simp only [LoopEvent.toSlotEvent, PrioritySlot.step, filter_kept]
      cases slot <;> exact h
  | pass input =>
      obtain ⟨_, hpriority, happ⟩ := pass_frame s input
      simp only [LoopEvent.toSlotEvent, PrioritySlot.step, filter_kept]
      cases slot <;> exact ⟨hpriority.trans h.1, happ.trans h.2⟩

theorem Serves.run {s : ControlLoop} (h : s.Serves none) (events : List LoopEvent) :
    (Foundation.run ControlLoop.step s events).Serves
      (PrioritySlot.holder VmsRequest.rank (pendingRequests events)) := by
  have hnone : ∀ request ∈ ([] : List VmsRequest), request.priority < carouselNum := by simp
  refine PrioritySlot.run_simulates VmsRequest.rank VmsRequest.id Serves
    (fun s slot event hs hslot => hs.step hslot event) h hnone fun event _ request hstart => ?_
  cases event with
  | requestStart id priority =>
      simp only [LoopEvent.toSlotEvent] at hstart
      split_ifs at hstart with hlt
      obtain rfl := SlotEvent.start.inj hstart
      exact hlt
  | requestEnd id => cases hstart
  | setEvspProg prog => cases hstart
  | carouselUpdate opened request => cases hstart
  | setVmsError error => cases hstart
  | pass input => cases hstart

/-- The variables as `vms_handler_init` leaves them: nobody holds the signs, and the
number of the last line is one of those that are sent. -/
structure Started (s : ControlLoop) : Prop where
  free : s.Serves none
  positive : 1 ≤ s.sequenceNumber
  atMost : s.sequenceNumber ≤ 255

/-- The application with the most urgent request may only be the external vehicle
one; for any other the line has no program. -/
def requestedPrograms (s : ControlLoop) (request : VmsRequest) (status : TrafficSignalStatus) :
    List UInt8 :=
  if request.id = evspId then (List.range (signs status)).map s.evspProg else []

end ControlLoop

end AdaptiveSignal.Vms
