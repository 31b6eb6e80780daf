import AdaptiveSignal.CommandBuffer.Countdown

/-! # Countdown requests from the cloud

A cloud command raises one of two flags, and the timer handler serves them: it
tests the flag that switches the countdown on before the one that switches it
off, and lowers a flag only when its packet has been sent and acknowledged. The
packets that are still to come can be read off the flags and the place of the
handler; a request is served, and the last one wins, exactly if its packet is the
last of them.
-/

namespace AdaptiveSignal.Signal

open Foundation

/-- Where the timer handler is in the part that serves the flags. -/
inductive FlagPlace
  /-- Between two ticks, or in a tick before or after the part. -/
  | outside
  | testOn
  | sendOn
  | clearOn
  | testOff
  | sendOff
  | clearOff
  deriving DecidableEq

structure CountdownFlags where
  flagCountdownOn : Bool
  flagCountdownOff : Bool
  place : FlagPlace
  /-- The countdown packets sent for the flags, in order. -/
  sent : List CountdownPacket
  /-- The ticks that have come to the part, and those that are through with it. -/
  started : ℕ
  completed : ℕ

inductive FlagAction
  /-- The application reads command 7 of a cloud packet. -/
  | command (enableOrDisable : UInt8)
  | timer
  deriving DecidableEq

namespace CountdownFlags

def initial : CountdownFlags where
  flagCountdownOn := false
  flagCountdownOff := false
  place := .outside
  sent := []
  started := 0
  completed := 0

/-- The request that a command makes. One to switch off is ignored when
`ped_countdown_send` is 0. -/
def requested (pedCountdownSend : Bool) (enableOrDisable : UInt8) : Option CountdownPacket :=
  if enableOrDisable = 2 then some .on
  else if enableOrDisable = 1 then
    if pedCountdownSend then some .off else none
  else none

def raise (s : CountdownFlags) : CountdownPacket → CountdownFlags
  | .on => { s with flagCountdownOn := true }
  | .off => { s with flagCountdownOff := true }

def tspOnCloudPacketRx (pedCountdownSend : Bool) (s : CountdownFlags)
    (enableOrDisable : UInt8) : CountdownFlags :=
  match requested pedCountdownSend enableOrDisable with
  | some packet => s.raise packet
  | none => s

/-- The next operation of `timer_event_handler` on the flags. -/
def timerEventHandler (s : CountdownFlags) : CountdownFlags :=
  match s.place with
  | .outside => { s with place := .testOn, started := s.started + 1 }
  | .testOn => { s with place := if s.flagCountdownOn then .sendOn else .testOff }
  | .sendOn => { s with place := .clearOn, sent := s.sent ++ [.on] }
  | .clearOn => { s with place := .testOff, flagCountdownOn := false }
  | .testOff =>
      if s.flagCountdownOff then { s with place := .sendOff }
      else { s with place := .outside, completed := s.completed + 1 }
  | .sendOff => { s with place := .clearOff, sent := s.sent ++ [.off] }
  | .clearOff =>
      { s with place := .outside, flagCountdownOff := false, completed := s.completed + 1 }

def flagStep (pedCountdownSend : Bool) (s : CountdownFlags) : FlagAction → CountdownFlags
  | .command enableOrDisable => s.tspOnCloudPacketRx pedCountdownSend enableOrDisable
  | .timer => s.timerEventHandler

/-! ## Packets to come -/

/-- The packets that the handler sends from now on if nothing more is requested. -/
def upcoming (s : CountdownFlags) : List CountdownPacket :=
  let on := if s.flagCountdownOn then [CountdownPacket.on] else []
  let off := if s.flagCountdownOff then [CountdownPacket.off] else []
  match s.place with
  | .outside | .testOn => on ++ off
  | .sendOn => [.on] ++ off
  | .clearOn => off
  | .testOff => off ++ on
  | .sendOff => [.off] ++ on
  | .clearOff => on

/-- The tick in which the handler comes to a packet next. -/
def tickOf (s : CountdownFlags) : CountdownPacket → ℕ
  | .on =>
      match s.place with
      | .testOn | .sendOn => s.started
      | _ => s.started + 1
  | .off =>
      match s.place with
      | .outside | .clearOff => s.started + 1
      | _ => s.started

/-- A tick is under way exactly while the handler is in the part. -/
def Ticking (s : CountdownFlags) : Prop :=
  s.started = s.completed + if s.place = .outside then 0 else 1

variable {s : CountdownFlags} {pedCountdownSend : Bool} {packet other : CountdownPacket}

theorem ticking_timer (h : Ticking s) : Ticking s.timerEventHandler := by
  obtain ⟨flagOn, flagOff, place, sent, started, completed⟩ := s
  simp only [Ticking] at h ⊢
  cases place <;> cases flagOn <;> cases flagOff <;> simp_all [timerEventHandler]

theorem completed_lt_tickOf (h : Ticking s) (packet : CountdownPacket) :
    s.completed < s.tickOf packet := by
  obtain ⟨flagOn, flagOff, place, sent, started, completed⟩ := s
  cases packet <;> cases place <;>
    simp only [Ticking, tickOf, reduceCtorEq, if_true, if_false] at h ⊢ <;>
    omega

theorem tickOf_le (s : CountdownFlags) (packet : CountdownPacket) :
    s.tickOf packet ≤ s.started + 1 := by
  obtain ⟨flagOn, flagOff, place, sent, started, completed⟩ := s
  cases packet <;> cases place <;> simp [tickOf]

/-- What the handler sends is what was to come. -/
theorem timer_sent_append_upcoming (s : CountdownFlags) :
    s.timerEventHandler.sent ++ s.timerEventHandler.upcoming = s.sent ++ s.upcoming := by
  obtain ⟨flagOn, flagOff, place, sent, started, completed⟩ := s
  cases place <;> cases flagOn <;> cases flagOff <;> simp [timerEventHandler, upcoming]

/-- A packet that is still to come was to come before, in the same tick. -/
theorem timer_tickOf (h : packet ∈ s.timerEventHandler.upcoming) :
    packet ∈ s.upcoming ∧ s.timerEventHandler.tickOf packet = s.tickOf packet := by
  obtain ⟨flagOn, flagOff, place, sent, started, completed⟩ := s
  cases place <;> cases flagOn <;> cases flagOff <;>
    simp_all [timerEventHandler, upcoming, tickOf]

theorem upcoming_raise (h : packet ∈ s.upcoming) (other : CountdownPacket) :
    packet ∈ (s.raise other).upcoming := by
  obtain ⟨flagOn, flagOff, place, sent, started, completed⟩ := s
  cases other <;> cases place <;> cases flagOn <;> cases flagOff <;>
    simp_all [raise, upcoming]

@[simp] theorem raise_sent (s : CountdownFlags) (packet : CountdownPacket) :
    (s.raise packet).sent = s.sent := by
  cases packet <;> rfl

@[simp] theorem raise_started (s : CountdownFlags) (packet : CountdownPacket) :
    (s.raise packet).started = s.started := by
  cases packet <;> rfl

@[simp] theorem raise_tickOf (s : CountdownFlags) (packet other : CountdownPacket) :
    (s.raise other).tickOf packet = s.tickOf packet := by
  cases other <;> cases packet <;> rfl

theorem ticking_raise (h : Ticking s) (packet : CountdownPacket) : Ticking (s.raise packet) := by
  cases packet <;> exact h

theorem ticking_step (h : Ticking s) (action : FlagAction) :
    Ticking (flagStep pedCountdownSend s action) := by
  cases action with
  | command byte =>
      simp only [flagStep, tspOnCloudPacketRx]
      split
      next packet _ => exact ticking_raise h packet
      next => exact h
  | timer => exact ticking_timer h

theorem ticking_run (pedCountdownSend : Bool) (actions : List FlagAction) :
    Ticking (run (flagStep pedCountdownSend) initial actions) :=
  run_invariant_of_mem (flagStep pedCountdownSend) Ticking actions rfl
    fun _ action _ h => ticking_step h action

/-! ## No packet to come is lost -/

/-- The packet was sent after `sent`, or is to come in a certain tick. -/
def Promised (sent : List CountdownPacket) (packet : CountdownPacket) (tick : ℕ)
    (s : CountdownFlags) : Prop :=
  ∃ later, s.sent = sent ++ later ∧
    (packet ∈ later ∨ packet ∈ s.upcoming ∧ s.tickOf packet = tick)

theorem promised_timer {sent : List CountdownPacket} {tick : ℕ} (h : Promised sent packet tick s) :
    Promised sent packet tick s.timerEventHandler := by
  have hprefix : ∃ more, s.timerEventHandler.sent = s.sent ++ more ∧
      s.upcoming = more ++ s.timerEventHandler.upcoming := by
    obtain ⟨flagOn, flagOff, place, sent, started, completed⟩ := s
    cases place <;> cases flagOn <;> cases flagOff <;> simp [timerEventHandler, upcoming]
  obtain ⟨more, hmore, hupcoming⟩ := hprefix
  obtain ⟨later, hlater, hcases⟩ := h
  refine ⟨later ++ more, by rw [hmore, hlater, List.append_assoc], ?_⟩
  rcases hcases with hsent | ⟨hcomes, htick⟩
  · exact Or.inl (List.mem_append_left more hsent)
  · rw [hupcoming] at hcomes
    rcases List.mem_append.mp hcomes with hnow | hstill
    · exact Or.inl (List.mem_append_right later hnow)
    · exact Or.inr ⟨hstill, (timer_tickOf hstill).2.trans htick⟩

theorem promised_step {sent : List CountdownPacket} {tick : ℕ} (action : FlagAction)
    (h : Promised sent packet tick s) :
    Promised sent packet tick (flagStep pedCountdownSend s action) := by
  cases action with
  | command byte =>
      simp only [flagStep, tspOnCloudPacketRx]
      split
      next other _ =>
        obtain ⟨later, hlater, hcases⟩ := h
        refine ⟨later, by rw [raise_sent, hlater], hcases.imp_right fun ⟨hcomes, htick⟩ => ?_⟩
        exact ⟨upcoming_raise hcomes other, by rw [raise_tickOf, htick]⟩
      next => exact h
  | timer => exact promised_timer h

/-- A packet to come has been sent when one more tick is complete. -/
theorem sent_of_upcoming (hcomes : packet ∈ s.upcoming) (hs : Ticking s)
    {actions : List FlagAction}
    (hcomplete : s.started < (run (flagStep pedCountdownSend) s actions).completed) :
    packet ∈ (run (flagStep pedCountdownSend) s actions).sent.drop s.sent.length := by
  have hpromised : Promised s.sent packet (s.tickOf packet)
      (run (flagStep pedCountdownSend) s actions) :=
    run_invariant_of_mem _ (Promised s.sent packet (s.tickOf packet)) actions
      ⟨[], by simp, Or.inr ⟨hcomes, rfl⟩⟩ fun _ action _ => promised_step action
  have hticking : Ticking (run (flagStep pedCountdownSend) s actions) :=
    run_invariant_of_mem _ Ticking actions hs fun _ action _ h => ticking_step h action
  obtain ⟨later, hlater, hsent | ⟨-, htick⟩⟩ := hpromised
  · rwa [hlater, List.drop_left]
  · have hbound := tickOf_le s packet
    have hlate := completed_lt_tickOf hticking packet
    omega

/-! ## The last request -/

/-- The action makes no request. -/
def Quiet (pedCountdownSend : Bool) : FlagAction → Prop
  | .command enableOrDisable => requested pedCountdownSend enableOrDisable = none
  | .timer => True

theorem flagStep_quiet {action : FlagAction} (hquiet : Quiet pedCountdownSend action) :
    flagStep pedCountdownSend s action = s ∨
      flagStep pedCountdownSend s action = s.timerEventHandler := by
  cases action with
  | command byte =>
      have hnone : requested pedCountdownSend byte = none := hquiet
      refine Or.inl ?_
      simp only [flagStep, tspOnCloudPacketRx, hnone]
  | timer => exact Or.inr rfl

/-- Without a further request one complete tick sends what is to come. -/
theorem sent_of_quiet (hs : Ticking s) {actions : List FlagAction}
    (hquiet : ∀ action ∈ actions, Quiet pedCountdownSend action)
    (hcomplete : s.started < (run (flagStep pedCountdownSend) s actions).completed) :
    (run (flagStep pedCountdownSend) s actions).sent = s.sent ++ s.upcoming := by
  have hinvariant := run_invariant_of_mem (flagStep pedCountdownSend)
    (fun s' => Ticking s' ∧ s'.sent ++ s'.upcoming = s.sent ++ s.upcoming ∧
      ∀ packet ∈ s'.upcoming, s'.tickOf packet ≤ s.started + 1)
    actions ⟨hs, rfl, fun packet _ => tickOf_le s packet⟩ ?_
  · obtain ⟨hticking, happend, hticks⟩ := hinvariant
    have hnone : (run (flagStep pedCountdownSend) s actions).upcoming = [] := by
      apply List.eq_nil_iff_forall_not_mem.mpr
      intro packet hcomes
      have hlate := completed_lt_tickOf hticking packet
      have hearly := hticks packet hcomes
      omega
    rwa [hnone, List.append_nil] at happend
  · rintro s' action haction ⟨hticking, happend, hticks⟩
    rcases flagStep_quiet (s := s') (hquiet action haction) with hstep | hstep
    · rw [hstep]
      exact ⟨hticking, happend, hticks⟩
    · rw [hstep]
      refine ⟨ticking_timer hticking, (timer_sent_append_upcoming s').trans happend, ?_⟩
      intro packet hcomes
      obtain ⟨hbefore, htick⟩ := timer_tickOf hcomes
      exact htick ▸ hticks packet hbefore

/-! ## The condition -/

/-- Where a request is served and no packet of the other kind follows its own: the
flag of the request is not about to be lowered, and the other flag is not raised
where the handler comes to it later. -/
def InTurn (s : CountdownFlags) : CountdownPacket → Prop
  | .on => s.place ≠ .clearOn ∧
      (s.flagCountdownOff → s.place = .testOff ∨ s.place = .sendOff ∨ s.place = .clearOff)
  | .off => s.place ≠ .clearOff ∧
      (s.flagCountdownOn → s.place ≠ .testOff ∧ s.place ≠ .sendOff)

theorem inTurn_iff (s : CountdownFlags) (packet : CountdownPacket) :
    s.InTurn packet ↔ (s.raise packet).upcoming.getLast? = some packet := by
  obtain ⟨flagOn, flagOff, place, sent, started, completed⟩ := s
  cases packet <;> cases place <;> cases flagOn <;> cases flagOff <;>
    simp [InTurn, raise, upcoming]

/-- Every request of an action is made in its turn. -/
def RequestInTurn (pedCountdownSend : Bool) (s : CountdownFlags) : FlagAction → Prop
  | .command enableOrDisable =>
      ∀ packet, requested pedCountdownSend enableOrDisable = some packet → s.InTurn packet
  | .timer => True

/-- Each request that one complete tick follows has its packet sent after it, and
if no other request follows, that packet is the last one sent. -/
def Served (pedCountdownSend : Bool) (actions : List FlagAction) : Prop :=
  ∀ before enableOrDisable after packet,
    actions = before ++ .command enableOrDisable :: after →
    requested pedCountdownSend enableOrDisable = some packet →
    (run (flagStep pedCountdownSend) initial before).started <
      (run (flagStep pedCountdownSend) initial actions).completed →
    packet ∈ (run (flagStep pedCountdownSend) initial actions).sent.drop
        (run (flagStep pedCountdownSend) initial before).sent.length ∧
      ((∀ action ∈ after, Quiet pedCountdownSend action) →
        (run (flagStep pedCountdownSend) initial actions).sent.getLast? = some packet)

theorem run_command {enableOrDisable : UInt8}
    (hrequested : requested pedCountdownSend enableOrDisable = some packet)
    (before after : List FlagAction) :
    run (flagStep pedCountdownSend) initial (before ++ .command enableOrDisable :: after) =
      run (flagStep pedCountdownSend)
        ((run (flagStep pedCountdownSend) initial before).raise packet) after := by
  rw [run_append, run_cons, flagStep, tspOnCloudPacketRx, hrequested]

theorem served_of_inTurn {actions : List FlagAction}
    (hguarded : Guarded (flagStep pedCountdownSend) (RequestInTurn pedCountdownSend) initial
      actions) :
    Served pedCountdownSend actions := by
  rintro before enableOrDisable after packet rfl hrequested hcomplete
  obtain ⟨-, hinTurn, -⟩ := Guarded.append.mp hguarded
  have hlast := (inTurn_iff _ packet).mp (hinTurn packet hrequested)
  have hcomes := List.mem_of_getLast? hlast
  have hticking := ticking_raise
    (ticking_run pedCountdownSend before) packet
  rw [run_command hrequested] at hcomplete ⊢
  refine ⟨?_, fun hquiet => ?_⟩
  · rw [← raise_sent _ packet]
    exact sent_of_upcoming hcomes hticking (by rwa [raise_started])
  · rw [sent_of_quiet hticking hquiet (by rwa [raise_started]), List.getLast?_append, hlast]
    rfl

/-! ## Ticks come to an end -/

/-- The operations until the handler is through with its part. -/
def distance : FlagPlace → ℕ
  | .outside => 0
  | .clearOff => 1
  | .sendOff => 2
  | .testOff => 3
  | .clearOn => 4
  | .sendOn => 5
  | .testOn => 6

theorem timer_distance (hplace : s.place ≠ .outside) :
    distance s.timerEventHandler.place < distance s.place ∧
      s.timerEventHandler.started = s.started := by
  obtain ⟨flagOn, flagOff, place, sent, started, completed⟩ := s
  cases place <;> cases flagOn <;> cases flagOff <;> simp_all [timerEventHandler, distance]

theorem timer_outside (hplace : s.place = .outside) :
    s.timerEventHandler.started = s.started + 1 := by
  simp only [timerEventHandler, hplace]

theorem exists_outside (pedCountdownSend : Bool) (s : CountdownFlags) :
    ∃ n, (run (flagStep pedCountdownSend) s (List.replicate n .timer)).place = .outside ∧
      (run (flagStep pedCountdownSend) s (List.replicate n .timer)).started = s.started := by
  induction hdistance : distance s.place using Nat.strong_induction_on generalizing s with
  | _ left ih =>
      by_cases hplace : s.place = .outside
      · exact ⟨0, hplace, rfl⟩
      · obtain ⟨hcloser, hstarted⟩ := timer_distance hplace
        obtain ⟨n, hn, hnStarted⟩ := ih _ (hdistance ▸ hcloser) s.timerEventHandler rfl
        exact ⟨n + 1, hn, hnStarted.trans hstarted⟩

theorem exists_complete (pedCountdownSend : Bool) (hs : Ticking s) :
    ∃ n, s.started <
      (run (flagStep pedCountdownSend) s (List.replicate n .timer)).completed := by
  obtain ⟨first, hfirst, hfirstStarted⟩ := exists_outside pedCountdownSend s
  -- One more operation starts the next tick.
  have hnextStarted := timer_outside hfirst
  generalize hnext : (run (flagStep pedCountdownSend) s
    (List.replicate first .timer)).timerEventHandler = next at hnextStarted
  obtain ⟨second, hsecond, hsecondStarted⟩ := exists_outside pedCountdownSend next
  have hrun : run (flagStep pedCountdownSend) s (List.replicate (first + 1 + second) .timer) =
      run (flagStep pedCountdownSend) next (List.replicate second .timer) := by
    rw [← List.replicate_append_replicate, ← List.replicate_append_replicate, run_append,
      run_append, ← hnext]
    rfl
  have hticking : Ticking (run (flagStep pedCountdownSend) s
      (List.replicate (first + 1 + second) .timer)) :=
    run_invariant_of_mem _ Ticking _ hs fun _ action _ h => ticking_step h action
  refine ⟨first + 1 + second, ?_⟩
  rw [Ticking, hrun, if_pos hsecond, hsecondStarted] at hticking
  rw [hrun]
  omega

/-- In a run that is continued by ticks every request is served and the last one
wins, exactly if every request is made in its turn. -/
theorem served_iff (pedCountdownSend : Bool) (actions : List FlagAction) :
    (∀ first, first <+: actions → ∀ n,
        Served pedCountdownSend (first ++ List.replicate n .timer)) ↔
      Guarded (flagStep pedCountdownSend) (RequestInTurn pedCountdownSend) initial actions := by
  constructor
  · intro hserved
    apply (guarded_iff_steps actions).mpr
    intro before last hprefix
    cases last with
    | timer => trivial
    | command enableOrDisable =>
        intro packet hrequested
        have hticking := ticking_raise
          (ticking_run pedCountdownSend before) packet
        obtain ⟨n, hn⟩ := exists_complete pedCountdownSend hticking
        have hquiet : ∀ action ∈ List.replicate n FlagAction.timer,
            Quiet pedCountdownSend action := by
          intro action haction
          rw [List.eq_of_mem_replicate haction]
          trivial
        have hboth := hserved _ hprefix n before enableOrDisable (List.replicate n .timer) packet
          (by rw [List.append_assoc]; rfl) hrequested
        rw [List.append_assoc, List.singleton_append, run_command hrequested,
          sent_of_quiet hticking hquiet hn, raise_sent, List.drop_left] at hboth
        obtain ⟨hcomes, hlast⟩ := hboth (by rwa [raise_started] at hn)
        have hlast := hlast hquiet
        rw [List.getLast?_append, List.getLast?_eq_some_getLast (List.ne_nil_of_mem hcomes),
          Option.some_or, ← List.getLast?_eq_some_getLast] at hlast
        exact (inTurn_iff _ packet).mpr hlast
  · intro hguarded first hfirst n
    obtain ⟨rest, rfl⟩ := hfirst
    apply served_of_inTurn
    refine Guarded.append.mpr ⟨(Guarded.append.mp hguarded).1, ?_⟩
    apply (guarded_iff_steps _).mpr
    intro before last hfirst
    have hlast := List.eq_of_mem_replicate (hfirst.subset (List.mem_append_right before
      (List.mem_singleton_self last)))
    rw [hlast]
    trivial

/-- A disable and then an enable between two ticks leave the countdown switched off;
an enable while the flag of the one before is lowered is not served at all. -/
theorem requests_not_served :
    (run (flagStep true) initial
        ([.command 1, .command 2] ++ List.replicate 7 .timer)).sent = [.on, .off] ∧
      (run (flagStep true) initial ([.command 2] ++ List.replicate 3 .timer ++ [.command 2] ++
        List.replicate 7 .timer)).sent = [.on] ∧
      ¬ Served true ([.command 1, .command 2] ++ List.replicate 7 .timer) ∧
      ¬ Served true ([.command 2] ++ List.replicate 3 .timer ++ [.command 2] ++
        List.replicate 7 .timer) := by
  refine ⟨rfl, rfl, fun hserved => ?_, fun hserved => ?_⟩
  · have hlast := (hserved [.command 1] 2 (List.replicate 7 .timer) .on rfl rfl (by decide)).2
      (by simp [Quiet])
    exact absurd hlast (by decide)
  · have hsent := (hserved ([.command 2] ++ List.replicate 3 .timer) 2 (List.replicate 7 .timer)
      .on rfl rfl (by decide)).1
    exact absurd hsent (by decide)

end CountdownFlags

end AdaptiveSignal.Signal
