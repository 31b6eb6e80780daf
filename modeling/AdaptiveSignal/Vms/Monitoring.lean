import AdaptiveSignal.Vms.Lines

/-! # Signs that do not answer

Every thousand passes the loop looks at the counters of the answers. A counter
is a byte, and so a sign that has answered 256 times looks like one that has
not answered at all.
-/

namespace AdaptiveSignal.Vms

open Foundation AdaptiveSignal.Configuration
open Signal (TrafficSignalStatus)

/-- The signs that what a pass reads answers for. -/
def LoopEvent.answers : LoopEvent → List ℤ
  | .pass input => answersIn (cString (input.read.getD []))
  | _ => []

/-- What a pass reads ends within the part of the buffer that is cleared before. -/
def LoopEvent.Short : LoopEvent → Prop
  | .pass input => (input.read.getD []).length < vmsPacketTxLenMax
  | _ => True

namespace ControlLoop

/-- The signs that an event counts an answer of. -/
def counted (s : ControlLoop) : LoopEvent → List ℤ
  | .pass input => ((s.beforeWrite input.status).receive input.read).answers
  | _ => []

/-- Behind a short text the buffer is cleared, and nothing of an earlier one is
counted again. -/
theorem counted_of_short (s : ControlLoop) {event : LoopEvent} (h : event.Short) :
    s.counted event = event.answers := by
  cases event with
  | pass input =>
      have hlength : (input.read.getD []).length < vmsPacketTxLenMax := h
      have htake : (input.read.getD []).take vmsPacketRxLenMax = input.read.getD [] :=
        List.take_of_length_le (hlength.le.trans (by decide))
      have hcleared : ∀ old : List UInt8,
          (List.replicate vmsPacketTxLenMax 0 ++ old).drop (input.read.getD []).length =
            0 :: (List.replicate (vmsPacketTxLenMax - (input.read.getD []).length - 1) 0 ++
              old) := by
        intro old
        rw [List.drop_append_of_le_length (by simpa using hlength.le), List.drop_replicate,
          ← List.cons_append, ← List.replicate_succ]
        congr 2
        omega
      simp only [counted, answers, receive, htake, hcleared, List.append_assoc, List.cons_append,
        cString_append_zero]
      rfl
  | requestStart id priority => rfl
  | requestEnd id => rfl
  | setEvspProg prog => rfl
  | carouselUpdate opened request => rfl
  | setVmsError error => rfl

/-! ## A pass -/

theorem beforeWrite_counters (s : ControlLoop) (input : LoopInput) :
    ((s.beforeWrite input.status).receive input.read).readCnt = s.readCnt ∧
      ((s.beforeWrite input.status).receive input.read).vmsResposeCnt = s.vmsResposeCnt ∧
      ((s.beforeWrite input.status).receive input.read).vmsError = s.vmsError := by
  unfold beforeWrite
  dsimp only
  split_ifs <;> exact ⟨rfl, rfl, rfl⟩

/-- The counters with the answers of a pass. -/
def countersAfter (s : ControlLoop) (input : LoopInput) (i : ℤ) : UInt8 :=
  s.vmsResposeCnt i + UInt8.ofNat ((s.counted (.pass input)).count i)

theorem pass_eq (s : ControlLoop) (input : LoopInput) :
    ∃ counting : ControlLoop, s.pass input = counting.check input.status ∧
      counting.readCnt = s.readCnt + 1 ∧ counting.vmsResposeCnt = s.countersAfter input ∧
      counting.vmsError = s.vmsError := by
  obtain ⟨hreadCnt, hcounters, herror⟩ := s.beforeWrite_counters input
  refine ⟨_, rfl, ?_, ?_, herror⟩
  · rw [← hreadCnt]
    rfl
  · funext i
    rw [countersAfter, ← hcounters]
    rfl

theorem pass_before_check {s : ControlLoop} (input : LoopInput)
    (hcnt : s.readCnt + 1 ≠ vmsErrorThreshold) :
    (s.pass input).readCnt = s.readCnt + 1 ∧
      (s.pass input).vmsResposeCnt = s.countersAfter input ∧
      (s.pass input).vmsError = s.vmsError := by
  obtain ⟨counting, hpass, hreadCnt, hcounters, herror⟩ := s.pass_eq input
  rw [hpass, check, if_neg (by rw [hreadCnt]; exact hcnt)]
  exact ⟨hreadCnt, hcounters, herror⟩

theorem pass_with_check {s : ControlLoop} (input : LoopInput)
    (hcnt : s.readCnt + 1 = vmsErrorThreshold) :
    (s.pass input).readCnt = 0 ∧
      (∀ i : ℤ, 0 ≤ i → i < rtmMax → (s.pass input).vmsResposeCnt i = 0) ∧
      ((s.pass input).vmsError = true ↔
        ∃ i < signs input.status, s.countersAfter input i = 0) := by
  obtain ⟨counting, hpass, hreadCnt, hcounters, _⟩ := s.pass_eq input
  rw [hpass, check, if_pos (hreadCnt.trans hcnt)]
  refine ⟨rfl, fun i hi hlt => if_pos ⟨hi, hlt⟩, ?_⟩
  rw [← hcounters]
  simp

/-! ## The passes between two checks -/

/-- So many passes since the last check, in which these answers were counted. -/
structure Window (s : ControlLoop) (passed : ℕ) (counted : List ℤ) : Prop where
  readCnt : s.readCnt = passed
  counters : ∀ i : ℤ, 0 ≤ i → i < rtmMax → s.vmsResposeCnt i = UInt8.ofNat (counted.count i)

theorem Window.countersAfter {s : ControlLoop} {passed : ℕ} {counts : List ℤ}
    (h : s.Window passed counts) (input : LoopInput) {i : ℤ} (hi : 0 ≤ i) (hlt : i < rtmMax) :
    s.countersAfter input i =
      UInt8.ofNat ((counts ++ s.counted (.pass input)).count i) := by
  rw [ControlLoop.countersAfter, h.counters i hi hlt, List.count_append, UInt8.ofNat_add]

/-- What the other threads do leaves the counters alone. -/
theorem step_counters {event : LoopEvent} (hother : ∀ input, event ≠ .pass input)
    (s : ControlLoop) :
    (s.step event).readCnt = s.readCnt ∧ (s.step event).vmsResposeCnt = s.vmsResposeCnt ∧
      s.counted event = [] ∧ passes [event] = 0 := by
  cases event with
  | pass input => exact absurd rfl (hother input)
  | requestStart id priority =>
      simp only [ControlLoop.step, vmsRequestStart]
      split_ifs <;> exact ⟨rfl, rfl, rfl, rfl⟩
  | requestEnd id =>
      simp only [ControlLoop.step, vmsRequestEnd]
      split_ifs <;> exact ⟨rfl, rfl, rfl, rfl⟩
  | setEvspProg prog => exact ⟨rfl, rfl, rfl, rfl⟩
  | carouselUpdate opened request => exact ⟨rfl, rfl, rfl, rfl⟩
  | setVmsError error => exact ⟨rfl, rfl, rfl, rfl⟩

theorem Window.step_other {s : ControlLoop} {passed : ℕ} {counts : List ℤ}
    (h : s.Window passed counts) {event : LoopEvent} (hother : ∀ input, event ≠ .pass input) :
    (s.step event).Window (passed + passes [event]) (counts ++ s.counted event) := by
  obtain ⟨hreadCnt, hcounters, hcounted, hpasses⟩ := step_counters hother s
  rw [hcounted, hpasses, List.append_nil]
  exact ⟨hreadCnt.trans h.readCnt, fun i hi hlt => by rw [hcounters, h.counters i hi hlt]⟩

/-- A pass before the next check. -/
theorem Window.pass {s : ControlLoop} {passed : ℕ} {counts : List ℤ} (h : s.Window passed counts)
    (input : LoopInput) (hbefore : passed + 1 < vmsErrorThreshold) :
    (s.step (.pass input)).Window (passed + 1) (counts ++ s.counted (.pass input)) := by
  have hcnt : s.readCnt + 1 ≠ vmsErrorThreshold := by
    rw [h.readCnt]
    exact Nat.ne_of_lt hbefore
  obtain ⟨hreadCnt, hcounters, _⟩ := pass_before_check input hcnt
  refine ⟨by rw [← h.readCnt]; exact hreadCnt, fun i hi hlt => ?_⟩
  rw [show s.step (.pass input) = s.pass input from rfl, hcounters]
  exact h.countersAfter input hi hlt

/-- The pass with the check. -/
theorem Window.check {s : ControlLoop} {passed : ℕ} {counts : List ℤ} (h : s.Window passed counts)
    (input : LoopInput) (hcheck : passed + 1 = vmsErrorThreshold) :
    (s.step (.pass input)).Window 0 [] ∧
      ((s.step (.pass input)).vmsError = true ↔
        ∃ i < signs input.status,
          256 ∣ (counts ++ s.counted (.pass input)).count (i : ℤ)) := by
  obtain ⟨hreadCnt, hcounters, herror⟩ :=
    pass_with_check input (by rw [h.readCnt]; exact hcheck)
  refine ⟨⟨hreadCnt, hcounters⟩, herror.trans (exists_congr fun i => ?_)⟩
  refine and_congr_right fun hi => ?_
  have hlt : (i : ℤ) < rtmMax := by
    have hsigns : signs input.status ≤ rtmMax := Nat.min_le_left _ _
    omega
  rw [h.countersAfter input (Int.natCast_nonneg i) hlt, ← UInt8.toNat_inj, UInt8.toNat_ofNat']
  exact (Nat.dvd_iff_mod_eq_zero).symm

/-- The events before the next check. -/
theorem Window.run {s : ControlLoop} {passed : ℕ} {counts : List ℤ} (h : s.Window passed counts)
    {events : List LoopEvent} (hbefore : passed + passes events < vmsErrorThreshold) :
    (run ControlLoop.step s events).Window (passed + passes events)
      (counts ++ emitted ControlLoop.step counted s events) := by
  induction events generalizing s passed counts with
  | nil => simpa [passes] using h
  | cons event rest ih =>
      have hsplit : passes (event :: rest) = passes [event] + passes rest := by
        rw [← List.singleton_append, passes, List.countP_append]
        rfl
      rw [hsplit, ← Nat.add_assoc] at hbefore ⊢
      rw [run_cons, emitted, ← List.append_assoc]
      refine ih ?_ hbefore
      by_cases hpass : ∃ input, event = .pass input
      · obtain ⟨input, rfl⟩ := hpass
        exact h.pass input (lt_of_le_of_lt (Nat.le_add_right _ _) hbefore)
      · exact h.step_other fun input heq => hpass ⟨input, heq⟩

theorem passes_append (first second : List LoopEvent) :
    passes (first ++ second) = passes first + passes second :=
  List.countP_append

/-- After any events the counters hold the answers since the last check. -/
theorem Window.since_check {s : ControlLoop} (h : s.Window 0 []) (events : List LoopEvent) :
    ∃ counts, (Foundation.run ControlLoop.step s events).Window
        (passes events % vmsErrorThreshold) counts ∧
      (vmsErrorThreshold ∣ passes events → counts = []) := by
  induction events using List.reverseRecOn with
  | nil => exact ⟨[], h, fun _ => rfl⟩
  | append_singleton events event ih =>
      have hthreshold : vmsErrorThreshold = 1000 := rfl
      rw [hthreshold] at ih ⊢
      obtain ⟨counts, hwindow, hempty⟩ := ih
      rw [run_concat, passes_append]
      by_cases hpass : ∃ input, event = .pass input
      · obtain ⟨input, rfl⟩ := hpass
        have hone : passes [LoopEvent.pass input] = 1 := rfl
        rw [hone]
        by_cases hcheck : passes events % 1000 + 1 = 1000
        · refine ⟨[], ?_, fun _ => rfl⟩
          rw [show (passes events + 1) % 1000 = 0 by omega]
          exact (hwindow.check input hcheck).1
        · refine ⟨counts ++ counted (Foundation.run ControlLoop.step s events) (.pass input), ?_,
            fun hdvd => absurd hdvd (by omega)⟩
          rw [show (passes events + 1) % 1000 = passes events % 1000 + 1 by omega]
          exact hwindow.pass input (by omega)
      · have hother : ∀ input, event ≠ .pass input := fun input heq => hpass ⟨input, heq⟩
        obtain ⟨_, _, hcounted, hnone⟩ := step_counters hother (Foundation.run step s events)
        have hsame := hwindow.step_other hother
        rw [hcounted, hnone, List.append_nil, Nat.add_zero] at hsame
        rw [hnone, Nat.add_zero]
        exact ⟨counts, hsame, hempty⟩

/-- Between two checks only the other threads change the error. -/
theorem Window.vmsError_run {s : ControlLoop} {passed : ℕ} {counts : List ℤ}
    (h : s.Window passed counts) {events : List LoopEvent}
    (hbefore : passed + passes events < vmsErrorThreshold)
    (hothers : ∀ error, .setVmsError error ∉ events) :
    (Foundation.run ControlLoop.step s events).vmsError = s.vmsError := by
  induction events using List.reverseRecOn with
  | nil => rfl
  | append_singleton events event ih =>
      rw [passes_append, ← Nat.add_assoc] at hbefore
      have hreached := h.run (lt_of_le_of_lt (Nat.le_add_right _ _) hbefore)
      have hsame := ih (lt_of_le_of_lt (Nat.le_add_right _ _) hbefore)
        fun error hmem => hothers error (List.mem_append_left _ hmem)
      rw [run_concat, ← hsame]
      cases event with
      | pass input =>
          refine (pass_before_check input ?_).2.2
          rw [hreached.readCnt]
          exact Nat.ne_of_lt hbefore
      | requestStart id priority =>
          simp only [ControlLoop.step, vmsRequestStart]
          split_ifs <;> rfl
      | requestEnd id =>
          simp only [ControlLoop.step, vmsRequestEnd]
          split_ifs <;> rfl
      | setEvspProg prog => rfl
      | carouselUpdate opened request => rfl
      | setVmsError error => exact absurd (by simp) (hothers error)

end ControlLoop

end AdaptiveSignal.Vms
