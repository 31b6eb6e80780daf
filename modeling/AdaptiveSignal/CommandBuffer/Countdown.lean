import AdaptiveSignal.CommandBuffer.Polling

/-! # Switching the pedestrian countdown

The first command sent while a vehicle is active switches the pedestrian countdown
off, the first one without an active vehicle switches it on again. What was
switched last is kept in `ped_countdown`; the packet that switches off can be
withheld by the configuration.
-/

namespace AdaptiveSignal.Signal

open Foundation

/-- The packets of `tsc_countdown_off` and `tsc_countdown_on`. -/
inductive CountdownPacket
  | off
  | on
  deriving DecidableEq, Repr

namespace CountdownPacket

def other : CountdownPacket → CountdownPacket
  | off => on
  | on => off

/-- The INFO bytes. CHENG_LONG and SHAN_ZHU_M use the last one the other way round
than SHAN_ZHU, and an unknown controller is sent none. -/
def info (packet : CountdownPacket) (manufacturer : Manufacturer) : Option (List UInt8) :=
  let switch : Option UInt8 :=
    match manufacturer, packet with
    | .chengLong, on | .shanZhuM, on | .shanZhu, off => some 0xFE
    | .chengLong, off | .shanZhuM, off | .shanZhu, on => some 0xFF
    | .other, _ => none
  switch.map fun byte => [0x5F, 0x19, 0x00, 0x01, 0xFF, 0xFF, byte]

/-- A controller can tell the two apart. -/
theorem info_ne (manufacturer : Manufacturer) (hknown : manufacturer ≠ .other) :
    off.info manufacturer ≠ on.info manufacturer := by
  cases manufacturer with
  | other => exact absurd rfl hknown
  | chengLong => decide
  | shanZhu => decide
  | shanZhuM => decide

/-! ## Alternation -/

/-- The packets take turns, beginning with `first`. -/
def AlternatesFrom : CountdownPacket → List CountdownPacket → Prop
  | _, [] => True
  | first, packet :: rest => packet = first ∧ AlternatesFrom first.other rest

/-- The turn after some packets that begin with `first`. -/
def turn (first : CountdownPacket) (packets : List CountdownPacket) : CountdownPacket :=
  match packets.getLast? with
  | none => first
  | some last => last.other

theorem turn_cons (first : CountdownPacket) (packet : CountdownPacket)
    (rest : List CountdownPacket) : turn first (packet :: rest) = turn packet.other rest := by
  unfold turn
  rw [List.getLast?_cons]
  cases rest.getLast? with
  | none => rfl
  | some last => rfl

theorem alternatesFrom_concat (first : CountdownPacket) (packets : List CountdownPacket)
    (last : CountdownPacket) :
    AlternatesFrom first (packets ++ [last]) ↔
      AlternatesFrom first packets ∧ last = turn first packets := by
  induction packets generalizing first with
  | nil => simp [AlternatesFrom, turn]
  | cons packet rest ih =>
      rw [List.cons_append, turn_cons]
      simp only [AlternatesFrom, ih, and_assoc]
      constructor
      · rintro ⟨rfl, hrest, hlast⟩
        exact ⟨rfl, hrest, hlast⟩
      · rintro ⟨rfl, hrest, hlast⟩
        exact ⟨rfl, hrest, hlast⟩

/-- The packets alternate, beginning with an off, and the countdown is noted as off
exactly when the last packet was an off. -/
def Noted (countdown : Bool) (packets : List CountdownPacket) : Prop :=
  AlternatesFrom off packets ∧ (countdown = false ↔ packets.getLast? = some off)

/-- The packet that turns the countdown over keeps it noted. -/
theorem Noted.turnOver {countdown : Bool} {packets : List CountdownPacket}
    (h : Noted countdown packets) :
    Noted (!countdown) (packets ++ [if countdown then off else on]) := by
  obtain ⟨halternates, hlast⟩ := h
  have hturn : (if countdown then off else on) = turn off packets := by
    unfold turn
    cases countdown with
    | false => rw [hlast.mp rfl]; rfl
    | true =>
        cases hpackets : packets.getLast? with
        | none => rfl
        | some last =>
            cases last with
            | on => rfl
            | off => exact absurd (hlast.mpr hpackets) (by simp)
  refine ⟨(alternatesFrom_concat off packets _).mpr ⟨halternates, hturn⟩, ?_⟩
  rw [List.getLast?_concat]
  cases countdown <;> simp

end CountdownPacket

/-- What concerns the countdown: commands sent, and changes of everything else. -/
inductive CountdownEvent
  | send (obj : TscCommandObject) (phase : UInt8)
  | environment (next : Middleware)

namespace Middleware

open CountdownPacket

/-- The packet is withheld when `ped_countdown_send` is 0, for every make. -/
def countdownOffPackets (s : Middleware) : List CountdownPacket :=
  if s.pedCountdown && 0 < s.activateAmount && s.config.pedCountdownSend then [off] else []

def countdownOnPackets (s : Middleware) : List CountdownPacket :=
  if !s.pedCountdown && s.activateAmount = 0 then [on] else []

/-- The countdown packets one call of `command_buf_send` sends. -/
def countdownSent (s : Middleware) (obj : TscCommandObject) (phase : UInt8) :
    List CountdownPacket :=
  if s.sendRefused obj then []
  else
    s.countdownOffPackets ++ (s.countdownOff.setCompensationBuffer obj phase).countdownOnPackets

/-- Only a call touches `ped_countdown`. -/
def onCountdownEvent (s : Middleware) : CountdownEvent → Middleware
  | .send obj phase => s.commandBufSend obj phase
  | .environment next => { next with pedCountdown := s.pedCountdown }

def countdownEmits (s : Middleware) : CountdownEvent → List CountdownPacket
  | .send obj phase => s.countdownSent obj phase
  | .environment _ => []

/-- The countdown packets of a run. -/
def countdownLog (s : Middleware) (events : List CountdownEvent) : List CountdownPacket :=
  emitted onCountdownEvent countdownEmits s events

/-! ## The property and the condition -/

def withMake (s : Middleware) (manufacturer : Manufacturer) : Middleware :=
  { s with config := { s.config with signalControllerManufacturer := manufacturer } }

/-- What a call sends and notes. -/
def countdownDecision (s : Middleware) (obj : TscCommandObject) (phase : UInt8) :
    List CountdownPacket × Bool :=
  (s.countdownSent obj phase, (s.commandBufSend obj phase).pedCountdown)

/-- The decision does not depend on which of the three makes is controlled. -/
def DecidesAlike (s : Middleware) (obj : TscCommandObject) (phase : UInt8) : Prop :=
  ∀ make make', make ≠ .other → make' ≠ .other →
    (s.withMake make).countdownDecision obj phase = (s.withMake make').countdownDecision obj phase

/-- The call gets to the countdown, which is to be switched off, and the packet is
withheld. -/
def withholdsOff (s : Middleware) (obj : TscCommandObject) : Bool :=
  !(s.withMake .chengLong).sendRefused obj && s.pedCountdown && 0 < s.activateAmount &&
    !s.config.pedCountdownSend

def NotWithheld (s : Middleware) : CountdownEvent → Prop
  | .send obj _ => s.withholdsOff obj = false
  | .environment _ => True

/-! ## One call -/

section Call

variable (s : Middleware) (obj : TscCommandObject) (phase : UInt8)

theorem setCompensationBuffer_countdown :
    (s.setCompensationBuffer obj phase).pedCountdown = s.pedCountdown ∧
      (s.setCompensationBuffer obj phase).activateAmount = s.activateAmount := by
  unfold setCompensationBuffer
  split_ifs <;> exact ⟨rfl, rfl⟩

theorem countdownOff_activateAmount : s.countdownOff.activateAmount = s.activateAmount := by
  unfold countdownOff
  split_ifs <;> rfl

theorem countdownOff_pedCountdown :
    s.countdownOff.pedCountdown =
      (s.pedCountdown && !(0 < s.activateAmount &&
        (s.config.pedCountdownSend || s.config.signalControllerManufacturer ≠ .chengLong))) := by
  unfold countdownOff
  split_ifs with hoff
  · rw [Bool.and_assoc, Bool.and_eq_true] at hoff
    rw [hoff.1, hoff.2]
    rfl
  · cases hped : s.pedCountdown with
    | false => rfl
    | true =>
        rw [hped, Bool.true_and, Bool.not_eq_true] at hoff
        rw [hoff]
        rfl

theorem countdownOn_pedCountdown :
    s.countdownOn.pedCountdown = (s.pedCountdown || s.activateAmount = 0) := by
  unfold countdownOn
  cases hped : s.pedCountdown with
  | true => simp [hped]
  | false =>
      by_cases hnone : s.activateAmount = 0
      · simp [hnone]
      · simp [hped, hnone]

/-- With no vehicle active the countdown goes on if it was off. -/
theorem countdownDecision_inactive (hsent : s.sendRefused obj = false)
    (hnone : s.activateAmount = 0) :
    s.countdownDecision obj phase = (if s.pedCountdown then [] else [on], true) := by
  have hoff : s.countdownOff = s := by simp [countdownOff, hnone]
  obtain ⟨hped, hamount⟩ := setCompensationBuffer_countdown s obj phase
  simp only [countdownDecision, countdownSent, commandBufSend, hsent, Bool.false_eq_true, if_false,
    hoff, countdownOffPackets, countdownOnPackets, countdownOn_pedCountdown, hped, hamount, hnone]
  cases s.pedCountdown <;> simp

/-- With a vehicle active the countdown goes off if it was on, and is noted as off
by SHAN_ZHU and SHAN_ZHU_M even if the packet is withheld. -/
theorem countdownDecision_active (hsent : s.sendRefused obj = false)
    (hsome : 0 < s.activateAmount) :
    s.countdownDecision obj phase =
      (if s.pedCountdown && s.config.pedCountdownSend then [off] else [],
        s.pedCountdown && !s.config.pedCountdownSend &&
          s.config.signalControllerManufacturer = .chengLong) := by
  have hnonzero : s.activateAmount ≠ 0 := fun h => by
    rw [h] at hsome
    exact absurd hsome (by decide)
  obtain ⟨hped, hamount⟩ := setCompensationBuffer_countdown s.countdownOff obj phase
  rw [countdownOff_activateAmount] at hamount
  simp only [countdownDecision, countdownSent, commandBufSend, hsent, Bool.false_eq_true, if_false,
    countdownOffPackets, countdownOnPackets, countdownOn_pedCountdown, hped, hamount, hnonzero,
    countdownOff_pedCountdown, hsome, decide_true, decide_false, Bool.and_true, Bool.and_false,
    Bool.or_false, Bool.true_and, List.append_nil, Bool.not_or, decide_not, Bool.not_not,
    Bool.and_assoc]

/-- A refused call sends and notes nothing. -/
theorem countdownDecision_refused (hrefuse : s.sendRefused obj = true) :
    s.countdownDecision obj phase = ([], s.pedCountdown) := by
  simp only [countdownDecision, countdownSent, commandBufSend, hrefuse, if_true]

/-- The makes are refused alike. -/
theorem withMake_sendRefused {make : Manufacturer} (hknown : make ≠ .other) :
    (s.withMake make).sendRefused obj = (s.withMake .chengLong).sendRefused obj := by
  have hknown' : Manufacturer.chengLong ≠ .other := by decide
  simp only [sendRefused, withMake, hknown, hknown', decide_false, Bool.or_false]
  rfl

/-- The decision of one of the three makes. Only where a switch to off is withheld
does the make enter it. -/
theorem countdownDecision_withMake {make : Manufacturer} (hknown : make ≠ .other) :
    (s.withMake make).countdownDecision obj phase =
      if (s.withMake .chengLong).sendRefused obj then ([], s.pedCountdown)
      else if s.activateAmount = 0 then (if s.pedCountdown then [] else [on], true)
      else (if s.pedCountdown && s.config.pedCountdownSend then [off] else [],
        s.pedCountdown && !s.config.pedCountdownSend && make = .chengLong) := by
  have hrefused := withMake_sendRefused s obj hknown
  cases hrefuse : (s.withMake .chengLong).sendRefused obj with
  | true => exact countdownDecision_refused _ obj phase (hrefused.trans hrefuse)
  | false =>
      have hsent := hrefused.trans hrefuse
      rw [if_neg (by simp)]
      by_cases hnone : s.activateAmount = 0
      · rw [if_pos hnone]
        exact countdownDecision_inactive _ obj phase hsent hnone
      · rw [if_neg hnone]
        have hsome : 0 < s.activateAmount := UInt32.pos_iff_ne_zero.mpr hnone
        exact countdownDecision_active (s.withMake make) obj phase hsent hsome

/-- The three makes decide alike unless a switch to off is withheld. -/
theorem decidesAlike_iff : s.DecidesAlike obj phase ↔ s.withholdsOff obj = false := by
  have hdecision := fun {make : Manufacturer} (hknown : make ≠ .other) =>
    countdownDecision_withMake s obj phase hknown
  unfold withholdsOff
  cases hrefuse : (s.withMake .chengLong).sendRefused obj with
  | true =>
      refine iff_of_true (fun make make' hknown hknown' => ?_) rfl
      rw [hdecision hknown, hdecision hknown', if_pos hrefuse, if_pos hrefuse]
  | false =>
      have hsent : ¬ (s.withMake .chengLong).sendRefused obj = true := by simp [hrefuse]
      by_cases hnone : s.activateAmount = 0
      · refine iff_of_true (fun make make' hknown hknown' => ?_) (by simp [hnone])
        rw [hdecision hknown, hdecision hknown', if_neg hsent, if_pos hnone, if_neg hsent,
          if_pos hnone]
      · have hsome : 0 < s.activateAmount := UInt32.pos_iff_ne_zero.mpr hnone
        rw [decide_eq_true hsome, Bool.not_false, Bool.true_and, Bool.and_true]
        constructor
        · intro halike
          -- the two makes that note a withheld switch differently
          have hsame := halike .chengLong .shanZhu (by decide) (by decide)
          rw [hdecision (by decide), hdecision (by decide), if_neg hsent, if_neg hnone,
            if_neg hsent, if_neg hnone] at hsame
          have hnoted := congrArg Prod.snd hsame
          change (s.pedCountdown && !s.config.pedCountdownSend && true) =
            (s.pedCountdown && !s.config.pedCountdownSend && false) at hnoted
          rwa [Bool.and_true, Bool.and_false] at hnoted
        · intro hok make make' hknown hknown'
          rw [hdecision hknown, hdecision hknown', if_neg hsent, if_neg hnone, if_neg hsent,
            if_neg hnone, hok, Bool.false_and, Bool.false_and]

/-- A call that withholds nothing keeps the countdown noted. -/
theorem noted_commandBufSend {log : List CountdownPacket} (hnoted : Noted s.pedCountdown log)
    (hok : s.withholdsOff obj = false) :
    Noted (s.commandBufSend obj phase).pedCountdown (log ++ s.countdownSent obj phase) := by
  change Noted (s.countdownDecision obj phase).2 (log ++ (s.countdownDecision obj phase).1)
  cases hrefuse : s.sendRefused obj with
  | true =>
      rw [countdownDecision_refused s obj phase hrefuse, List.append_nil]
      exact hnoted
  | false =>
      by_cases hnone : s.activateAmount = 0
      · rw [countdownDecision_inactive s obj phase hrefuse hnone]
        cases hped : s.pedCountdown with
        | true =>
            rw [hped] at hnoted
            simpa using hnoted
        | false =>
            rw [hped] at hnoted
            exact hnoted.turnOver
      · have hsome := UInt32.pos_iff_ne_zero.mpr hnone
        have hsent : (s.withMake .chengLong).sendRefused obj = false := by
          simp only [sendRefused, Bool.or_eq_false_iff] at hrefuse ⊢
          exact ⟨hrefuse.1, by simp [withMake]⟩
        rw [countdownDecision_active s obj phase hrefuse hsome]
        rw [withholdsOff, hsent, decide_eq_true hsome, Bool.not_false, Bool.true_and,
          Bool.and_true] at hok
        cases hped : s.pedCountdown with
        | false =>
            rw [hped] at hnoted
            simpa using hnoted
        | true =>
            rw [hped] at hnoted hok
            have hsend : s.config.pedCountdownSend = true := by simpa using hok
            rw [hsend]
            exact hnoted.turnOver

end Call

/-! ## Over a run -/

/-- Over a run that withholds nothing the countdown stays noted. -/
theorem noted_run (s : Middleware) {events : List CountdownEvent}
    (hped : s.pedCountdown = true) (hrun : Guarded onCountdownEvent NotWithheld s events) :
    Noted (run onCountdownEvent s events).pedCountdown (countdownLog s events) := by
  induction events using List.reverseRecOn with
  | nil =>
      rw [run_nil, hped]
      exact ⟨trivial, by simp [countdownLog]⟩
  | append_singleton events last ih =>
      obtain ⟨hbefore, hlast⟩ := Guarded.concat.mp hrun
      rw [run_concat, countdownLog, emitted_concat]
      cases last with
      | send obj phase => exact noted_commandBufSend _ obj phase (ih hbefore) hlast
      | environment next =>
          rw [countdownEmits, List.append_nil]
          exact ih hbefore

/-- A command of the emergency application. -/
def emergencyObject : TscCommandObject :=
  { TscCommandObject.cleared with appId := evspId, effectTime := 30 }

end Middleware

end AdaptiveSignal.Signal
