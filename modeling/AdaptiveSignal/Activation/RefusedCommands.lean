import AdaptiveSignal.Activation.ServedVehicles

/-! # Commands of the activation timer that are refused

The thread of the activation timer inserts a command and marks the vehicles as controlled in the
current phase, so that the next turns leave them alone. Here the command buffer may give any answer
at every turn.
-/

namespace AdaptiveSignal.Signal

open Foundation

/-- The values of `command_buf_err_t`. -/
def CommandBufErr.code : CommandBufErr → ℤ
  | .insertAccept => 0
  | .invalidAppId => -1
  | .invalidAppPriority => -2
  | .invalidTargetPhase => -3
  | .invalidCycle => -4
  | .invalidPhase => -5
  | .invalidEffectTime => -6
  | .invalidAdjustment => -7
  | .invalidHostObuName => -8
  | .improperPriority => -9
  | .incompTspDoNothing => -11

theorem code_eq_neg_one {err : CommandBufErr} : err.code = -1 ↔ err = .invalidAppId := by
  cases err <;> decide

/-- The activation list with the variables of its thread. -/
@[ext]
structure ActivationLoop where
  activateObuHead : List EvspActivateObu
  listLen : ℤ
  optim : Bool
  oldListLen : ℤ

/-- What a turn of the loop finds: the status, whether there is a table of the plan, the host
vehicles by name, what each of them asks for, and the answer of `command_buf_insert_effect_time`,
if it is called. -/
structure ActivationTick where
  status : TrafficSignalStatus
  planFound : Bool
  host : HostName → Option EvspHostObu
  adjust : EvspHostObu → ℤ
  ret : CommandBufErr

inductive ActivationLoop.Event
  /-- `EVSP_OBU_activation_timer_start` while the thread is there. -/
  | start (host : EvspHostObu)
  | turn (tick : ActivationTick)

namespace ActivationLoop

/-! ## One turn -/

/-- The nodes from the first one on whose vehicle is still a host. -/
def remaining (s : ActivationLoop) (tick : ActivationTick) : List EvspActivateObu :=
  s.activateObuHead.dropWhile fun node => (tick.host node.hostObuName).isNone

def remainingLen (s : ActivationLoop) (tick : ActivationTick) : ℤ :=
  s.listLen - (s.activateObuHead.length - (s.remaining tick).length : ℤ)

/-- A vehicle has joined or left at the head, or the phase has changed. -/
def optimizes (s : ActivationLoop) (tick : ActivationTick) (first : EvspActivateObu) : Bool :=
  s.optim || (s.remaining tick).length < s.activateObuHead.length ||
    s.remainingLen tick ≠ s.oldListLen || tick.status.subPhaseId ≠ first.controlSubphaseId

/-- The optimization of all vehicles: the command to insert, if there is a time to ask for. It may
read through `NULL`. -/
def optimizeAll (nodes : List EvspActivateObu) (tick : ActivationTick) :
    Option (Option TscCommand) :=
  let hosts := nodes.map fun node => tick.host node.hostObuName
  match hosts.mapM (EvspService.evspOptimization tick.status tick.adjust) with
  | none => none
  | some rets =>
      if EvspService.maxAdjustTime rets ≠ -1 ∧ EvspService.minAdjustTime rets ≠ -1 then
        match nodes.head?, hosts.getLast?.join with
        | some first, some last => some (EvspService.adjustCommand tick.status first last rets)
        | _, _ => none
      else some none

/-- Every node is marked, unless the answer is −1. -/
def mark (nodes : List EvspActivateObu) (tick : ActivationTick) : List EvspActivateObu :=
  if tick.ret.code ≠ -1 then
    nodes.map fun node => { node with controlSubphaseId := tick.status.subPhaseId }
  else nodes

/-- One turn of the loop of `EVSP_OBU_activation_timer`, or none when the loop is left. -/
def turn (s : ActivationLoop) (tick : ActivationTick) : Option ActivationLoop :=
  if tick.planFound then
    match s.remaining tick with
    | [] => none
    | first :: rest =>
        if s.optimizes tick first then
          match optimizeAll (first :: rest) tick with
          | none => none
          | some none => some ⟨first :: rest, s.remainingLen tick, false, s.remainingLen tick⟩
          | some (some _) =>
              some ⟨mark (first :: rest) tick, s.remainingLen tick, false, s.remainingLen tick⟩
        else some ⟨first :: rest, s.remainingLen tick, false, s.oldListLen⟩
  else none

/-- The command of the vehicles that are left, whether or not the turn optimizes. -/
def wanted (s : ActivationLoop) (tick : ActivationTick) : Option TscCommand :=
  if tick.planFound then (optimizeAll (s.remaining tick) tick).join else none

/-- The command a turn inserts. -/
def attempt (s : ActivationLoop) (tick : ActivationTick) : Option TscCommand :=
  match s.remaining tick with
  | [] => none
  | first :: _ => if s.optimizes tick first then s.wanted tick else none

def start (s : ActivationLoop) (host : EvspHostObu) : Option ActivationLoop :=
  match s.activateObuHead with
  | [] => none
  | first :: rest =>
      if first.targetPhase ≠ host.targetPhase then some s
      else if (EvspService.searchActivateObu (first :: rest) host).isSome then some s
      else some { s with
        activateObuHead := EvspService.addActivateObu (first :: rest) host
        listLen := s.listLen + 1 }

/-- What happens to the loop, as long as it is not left. -/
def step (s : Option ActivationLoop) : Event → Option ActivationLoop
  | .start host => s.bind fun s => s.start host
  | .turn tick => s.bind fun s => s.turn tick

/-- The command an event inserts. -/
def inserts (s : Option ActivationLoop) : Event → Option TscCommand
  | .start _ => none
  | .turn tick => s.bind fun s => s.attempt tick

end ActivationLoop

/-! ## The loop of the service -/

namespace EvspService

variable {s : EvspService} {adjust : EvspHostObu → ℤ} {optim : Bool} {oldListLen : ℤ}

/-- The loop between two turns. -/
def loop (s : EvspService) (optim : Bool) (oldListLen : ℤ) : ActivationLoop :=
  ⟨s.activateObuHead, s.listLen, optim, oldListLen⟩

/-- What a turn finds when the buffer gives this answer. -/
def tick (s : EvspService) (adjust : EvspHostObu → ℤ) (ret : CommandBufErr) : ActivationTick where
  status := s.intersection.middleware.status
  planFound :=
    (s.intersection.evspConfig.planTableSearch s.intersection.middleware.status.planId).isSome
  host := fun name => s.intersection.evspHosts.search name.obuName
  adjust := adjust
  ret := ret

/-- The optimization of the service marks the nodes by the answer of the command buffer. -/
theorem optimizeAll_nodes (halive : s.crashed = false) {first : EvspActivateObu}
    {rest : List EvspActivateObu} (hnodes : s.activateObuHead = first :: rest)
    (ret : CommandBufErr) :
    match ActivationLoop.optimizeAll (first :: rest) (s.tick adjust ret) with
    | none => (s.optimizeAll adjust first).crashed = true
    | some none => (s.optimizeAll adjust first).crashed = false ∧
        (s.optimizeAll adjust first).activateObuHead = first :: rest
    | some (some command) =>
        ret = (s.intersection.middleware.commandBufInsertEffectTime command).1 →
          (s.optimizeAll adjust first).crashed = false ∧
          (s.optimizeAll adjust first).activateObuHead =
            ActivationLoop.mark (first :: rest) (s.tick adjust ret) := by
  have hstatus : (s.tick adjust ret).status = s.intersection.middleware.status := rfl
  have hadjust : (s.tick adjust ret).adjust = adjust := rfl
  have hhosts : (first :: rest).map (fun node => (s.tick adjust ret).host node.hostObuName) =
      (first :: rest).map s.hostOf := rfl
  cases hrets : ((first :: rest).map s.hostOf).mapM
      (evspOptimization s.intersection.middleware.status adjust) with
  | none =>
      simp only [optimizeAll, ActivationLoop.optimizeAll, hstatus, hadjust, hhosts, hnodes, hrets]
  | some rets =>
      simp only [optimizeAll, ActivationLoop.optimizeAll, hstatus, hadjust, hhosts, hnodes, hrets]
      by_cases hasked : maxAdjustTime rets ≠ -1 ∧ minAdjustTime rets ≠ -1
      · simp only [if_pos hasked, List.head?_cons]
        cases ((first :: rest).map s.hostOf).getLast?.join with
        | none => rfl
        | some last =>
            intro hret
            refine ⟨halive, ?_⟩
            simp only [ActivationLoop.mark, ne_eq, code_eq_neg_one, hstatus]
            rw [show (s.tick adjust ret).ret = ret from rfl, hret]
      · simp only [if_neg hasked]
        exact ⟨halive, trivial⟩

theorem optimizeAll_listLen (s : EvspService) (adjust : EvspHostObu → ℤ)
    (first : EvspActivateObu) : (s.optimizeAll adjust first).listLen = s.listLen := by
  unfold optimizeAll
  dsimp only
  split
  · rfl
  · split_ifs
    · split <;> rfl
    · rfl

/-- A turn of the service is a turn of the loop with the answer of the command buffer. -/
theorem activationTurn_turn (halive : s.crashed = false) {ret : CommandBufErr}
    (hret : ∀ command, (s.loop optim oldListLen).attempt (s.tick adjust ret) = some command →
      ret = (s.intersection.middleware.commandBufInsertEffectTime command).1) :
    match (s.loop optim oldListLen).turn (s.tick adjust ret) with
    | none => (s.activationTurn adjust optim oldListLen).timer = .ending ∨
        (s.activationTurn adjust optim oldListLen).crashed = true
    | some next =>
        (s.activationTurn adjust optim oldListLen).loop next.optim next.oldListLen = next ∧
        (s.activationTurn adjust optim oldListLen).timer = .running next.optim next.oldListLen ∧
        (s.activationTurn adjust optim oldListLen).crashed = false := by
  have hremaining : (s.loop optim oldListLen).remaining (s.tick adjust ret) = s.remaining := rfl
  have hlen : (s.loop optim oldListLen).remainingLen (s.tick adjust ret) = s.remainingLen := rfl
  have hoptimizes (first : EvspActivateObu) :
      (s.loop optim oldListLen).optimizes (s.tick adjust ret) first =
        s.optimizes optim oldListLen first := rfl
  unfold activationTurn ActivationLoop.turn
  unfold ActivationLoop.attempt ActivationLoop.wanted at hret
  simp only [hremaining, hoptimizes, hlen] at hret ⊢
  cases hplan :
      s.intersection.evspConfig.planTableSearch s.intersection.middleware.status.planId with
  | none =>
      have hfound : (s.tick adjust ret).planFound = false := by simp [tick, hplan]
      simp [hfound]
  | some table =>
      have hfound : (s.tick adjust ret).planFound = true := by simp [tick, hplan]
      simp only [hfound, if_true] at hret ⊢
      cases hnodes : s.remaining with
      | nil =>
          dsimp only
          split_ifs with hempty
          · exact Or.inr rfl
          · exact Or.inl rfl
      | cons first rest =>
          have hne : s.activateObuHead ≠ [] := by
            intro hempty
            rw [remaining, hempty] at hnodes
            cases hnodes
          simp only [hnodes] at hret
          dsimp only
          rw [if_neg hne]
          by_cases hoptim : s.optimizes optim oldListLen first = true
          · rw [if_pos hoptim, if_pos hoptim]
            rw [if_pos hoptim] at hret
            set t : EvspService :=
              { s with activateObuHead := first :: rest, listLen := s.remainingLen } with ht
            have hnodes := @optimizeAll_nodes t adjust halive _ _ rfl ret
            have hlen := t.optimizeAll_listLen adjust first
            have htick : t.tick adjust ret = s.tick adjust ret := rfl
            rw [htick] at hnodes
            cases hall : ActivationLoop.optimizeAll (first :: rest) (s.tick adjust ret) with
            | none =>
                rw [hall] at hnodes
                exact Or.inr hnodes
            | some asked =>
                rw [hall] at hnodes hret
                cases asked with
                | none => exact ⟨ActivationLoop.ext hnodes.2 hlen rfl rfl, rfl, hnodes.1⟩
                | some command =>
                    have hmarked := hnodes (hret command rfl)
                    exact ⟨ActivationLoop.ext hmarked.2 hlen rfl rfl, rfl, hmarked.1⟩
          · rw [if_neg hoptim, if_neg hoptim]
            exact ⟨rfl, rfl, halive⟩

end EvspService

/-! ## Refused commands -/

namespace ActivationLoop

variable {s s' : ActivationLoop} {tick : ActivationTick} {command : TscCommand}
  {nodes : List EvspActivateObu} {phase : UInt8}

theorem remaining_subset (s : ActivationLoop) (tick : ActivationTick) :
    s.remaining tick ⊆ s.activateObuHead :=
  (List.dropWhile_sublist _).subset

/-- A turn leaves the nodes that remain, marked if it inserts a command. -/
theorem turn_cases (hturn : s.turn tick = some s') :
    (s.attempt tick = none ∧ s'.activateObuHead = s.remaining tick) ∨
      (s.attempt tick).isSome = true ∧ s'.activateObuHead = mark (s.remaining tick) tick := by
  unfold turn at hturn
  unfold attempt wanted
  split_ifs at hturn with hplan
  cases hnodes : s.remaining tick with
  | nil =>
      rw [hnodes] at hturn
      cases hturn
  | cons first rest =>
      simp only [hnodes] at hturn
      dsimp only
      split_ifs at hturn with hoptim
      · rw [if_pos hoptim, if_pos hplan]
        cases hall : optimizeAll (first :: rest) tick with
        | none =>
            rw [hall] at hturn
            cases hturn
        | some asked =>
            rw [hall] at hturn
            cases asked with
            | none =>
                cases hturn
                exact Or.inl ⟨rfl, rfl⟩
            | some command =>
                cases hturn
                exact Or.inr ⟨rfl, rfl⟩
      · rw [if_neg hoptim]
        cases hturn
        exact Or.inl ⟨rfl, rfl⟩

/-- The nodes that remain are still to be controlled in the phase. -/
def Uncontrolled (phase : UInt8) (s : Option ActivationLoop) : Prop :=
  ∀ s', s = some s' → ∀ node ∈ s'.activateObuHead, node.controlSubphaseId ≠ phase

theorem start_controlSubphaseId {host : EvspHostObu} (hstart : s.start host = some s') :
    ∀ node ∈ s'.activateObuHead, node ∈ s.activateObuHead ∨ node.controlSubphaseId = 0 := by
  unfold start at hstart
  cases hnodes : s.activateObuHead with
  | nil =>
      rw [hnodes] at hstart
      cases hstart
  | cons first rest =>
      simp only [hnodes] at hstart
      split_ifs at hstart
      · cases hstart
        exact fun node hnode => Or.inl (hnodes ▸ hnode)
      · cases hstart
        exact fun node hnode => Or.inl (hnodes ▸ hnode)
      · cases hstart
        intro node hnode
        dsimp only [EvspService.addActivateObu] at hnode
        split_ifs at hnode
        · exact Or.inr (by rw [List.mem_singleton.mp hnode])
        · rcases List.mem_cons.mp hnode with rfl | hnode
          · exact Or.inl List.mem_cons_self
          · rcases List.mem_append.mp hnode with hnode | hnode
            · exact Or.inl (List.mem_cons_of_mem first hnode)
            · exact Or.inr (by rw [List.mem_singleton.mp hnode])

/-- Without a new command no vehicle is controlled that was not. -/
theorem uncontrolled_step {s : Option ActivationLoop} (h : Uncontrolled phase s)
    (hphase : phase ≠ 0) {event : Event} (hinserts : inserts s event = none) :
    Uncontrolled phase (step s event) := by
  intro s' hs'
  cases s with
  | none => cases event <;> cases hs'
  | some s =>
      cases event with
      | start host =>
          intro node hnode
          rcases start_controlSubphaseId hs' node hnode with hmem | hnew
          · exact h s rfl node hmem
          · exact hnew ▸ hphase.symm
      | turn tick =>
          rcases turn_cases hs' with ⟨-, hnodes⟩ | ⟨hsome, -⟩
          · rw [hnodes]
            exact fun node hnode => h s rfl node (s.remaining_subset tick hnode)
          · change s.attempt tick = none at hinserts
            rw [hinserts] at hsome
            cases hsome

/-- As long as no vehicle is controlled in the phase, a command that is wanted is inserted. -/
theorem attempt_of_uncontrolled (h : Uncontrolled tick.status.subPhaseId (some s)) :
    s.attempt tick = s.wanted tick := by
  unfold attempt
  cases hnodes : s.remaining tick with
  | nil =>
      rw [wanted, hnodes]
      split_ifs
      · rfl
      · rfl
  | cons first rest =>
      have hfirst : first ∈ s.activateObuHead :=
        s.remaining_subset tick (hnodes ▸ List.mem_cons_self)
      have hcontrol : tick.status.subPhaseId ≠ first.controlSubphaseId :=
        (h s rfl first hfirst).symm
      have hoptim : s.optimizes tick first = true := by simp [optimizes, hcontrol]
      simp only [if_pos hoptim]

/-- Over a run, either a command is inserted or no vehicle is controlled that was not. -/
theorem uncontrolled_run {s : Option ActivationLoop} (h : Uncontrolled phase s)
    (hphase : phase ≠ 0) (events : List Event) :
    (∃ first event, first ++ [event] <+: events ∧
      (inserts (run step s first) event).isSome = true) ∨
        Uncontrolled phase (run step s events) := by
  induction events using List.reverseRecOn with
  | nil => exact Or.inr h
  | append_singleton events last ih =>
      rcases ih with ⟨first, event, hfirst, hsome⟩ | hevents
      · exact Or.inl ⟨first, event, hfirst.trans (List.prefix_append _ _), hsome⟩
      · cases hlast : inserts (run step s events) last with
        | some command => exact Or.inl ⟨events, last, List.prefix_rfl, by rw [hlast]; rfl⟩
        | none =>
            rw [run_concat]
            exact Or.inr (uncontrolled_step hevents hphase hlast)

/-- A vehicle is marked by accepted commands only. After a refusal there is a further attempt, at
the latest in the first turn of the same phase that wants a command, if the vehicle has been a host
in all turns until then. -/
structure TriesAgain (s : ActivationLoop) (events : List Event) : Prop where
  marks : ∀ first tick, first ++ [.turn tick] <+: events → ∀ before after,
    run step (some s) first = some before → before.turn tick = some after →
      (before.attempt tick = none ∨ tick.ret ≠ .insertAccept) →
        after.activateObuHead = before.remaining tick
  retries : ∀ first tick later again, first ++ .turn tick :: (later ++ [.turn again]) <+: events →
    ∀ before command, run step (some s) first = some before →
      before.attempt tick = some command → tick.ret ≠ .insertAccept →
        (∀ turn, .turn turn ∈ later ++ [.turn again] →
          turn.status.subPhaseId = tick.status.subPhaseId ∧
            (turn.host command.hostObuName).isSome = true) →
          ∀ after, run step (some s) (first ++ .turn tick :: later) = some after →
            (after.wanted again).isSome = true →
              ∃ more event, more ++ [event] <+: later ++ [.turn again] ∧
                (inserts (run step (some s) (first ++ .turn tick :: more)) event).isSome = true

/-- A command is accepted, or refused with −1 in a phase in which no vehicle is controlled. -/
def Answered : Option ActivationLoop → Event → Prop
  | some s, .turn tick => (s.attempt tick).isSome = true →
      tick.ret = .insertAccept ∨ (tick.ret = .invalidAppId ∧ tick.status.subPhaseId ≠ 0 ∧
        ∀ node ∈ s.remaining tick, node.controlSubphaseId ≠ tick.status.subPhaseId)
  | _, _ => True

instance : (s : Option ActivationLoop) → DecidablePred (Answered s)
  | some _, .turn _ => inferInstanceAs (Decidable (_ → _))
  | some _, .start _ => isTrue trivial
  | none, _ => isTrue trivial

theorem Answered.of_attempt {s : ActivationLoop} {tick : ActivationTick} {command : TscCommand}
    (h : Answered (some s) (.turn tick)) (hattempt : s.attempt tick = some command) :
    tick.ret = .insertAccept ∨ (tick.ret = .invalidAppId ∧ tick.status.subPhaseId ≠ 0 ∧
      ∀ node ∈ s.remaining tick, node.controlSubphaseId ≠ tick.status.subPhaseId) :=
  h (by rw [hattempt]; rfl)

/-- Where every other refusal is left out, refused commands are tried again. -/
theorem triesAgain_of_answered (s : ActivationLoop) (events : List Event)
    (hanswered : Guarded step Answered (some s) events) : TriesAgain s events := by
  have hsteps := (guarded_iff_steps events).mp hanswered
  refine ⟨fun first tick hfirst before after hbefore hafter hrefused => ?_,
    fun first tick later again hfirst before command hbefore hattempt hrefused hsame after hafter
      hwanted => ?_⟩
  · have hturn := hsteps first _ hfirst
    rw [hbefore] at hturn
    rcases turn_cases hafter with ⟨-, hnodes⟩ | ⟨hsome, hnodes⟩
    · exact hnodes
    · obtain ⟨command, hcommand⟩ := Option.isSome_iff_exists.mp hsome
      have hret := hrefused.resolve_left (by rw [hcommand]; exact Option.some_ne_none command)
      have hcode := ((hturn.of_attempt hcommand).resolve_left hret).1
      rw [hnodes, mark, if_neg (not_not.mpr (code_eq_neg_one.mpr hcode))]
  · have hturn := hsteps first (.turn tick)
      (List.IsPrefix.trans ⟨later ++ [.turn again], by simp⟩ hfirst)
    rw [hbefore] at hturn
    obtain ⟨hcode, hphase, hcontrol⟩ := (hturn.of_attempt hattempt).resolve_left hrefused
    -- The refusal leaves no vehicle controlled in the phase.
    have huncontrolled : Uncontrolled tick.status.subPhaseId
        (run step (some s) (first ++ [.turn tick])) := by
      intro next hnext
      rw [run_concat, hbefore] at hnext
      rcases turn_cases hnext with ⟨hnone, -⟩ | ⟨-, hnodes⟩
      · rw [hattempt] at hnone
        cases hnone
      · rw [hnodes, mark, if_neg (not_not.mpr (code_eq_neg_one.mpr hcode))]
        exact hcontrol
    have hrun (more : List Event) : run step (run step (some s) (first ++ [.turn tick])) more =
        run step (some s) (first ++ .turn tick :: more) := by
      rw [← run_append, List.append_assoc, List.singleton_append]
    rcases uncontrolled_run huncontrolled hphase later with ⟨more, event, hmore, hsome⟩ | hlater
    · rw [hrun] at hsome
      exact ⟨more, event, hmore.trans (List.prefix_append _ _), hsome⟩
    · refine ⟨later, .turn again, List.prefix_rfl, ?_⟩
      rw [hrun, hafter, ← (hsame again (by simp)).1] at hlater
      rw [hafter]
      change (after.attempt again).isSome = true
      rwa [attempt_of_uncontrolled hlater]

/-- Two commands refused with −1 and a third one accepted. -/
theorem triesAgain_thrice :
    let status := { TrafficSignalStatus.initial fun _ => .unset with subPhaseId := 1, stepId := 1 }
    let host : EvspHostObu := .new (EvspService.ambulance 'A') 1 ⟨1, []⟩
    let loop : ActivationLoop := ⟨[⟨EvspService.ambulance 'A', 1, 0⟩], 1, true, 0⟩
    let turn (ret : CommandBufErr) : Event :=
      .turn ⟨status, true, fun _ => some host, fun _ => 40, ret⟩
    let events := [turn .invalidAppId, turn .invalidAppId, turn .insertAccept]
    Guarded step Answered (some loop) events ∧ TriesAgain loop events := by
  intro status host loop turn events
  have hanswered : Guarded step Answered (some loop) events := by decide
  exact ⟨hanswered, triesAgain_of_answered loop events hanswered⟩

/-- A bus holds the slot with a longer green for the same phase. The command of the ambulance is
refused, and in the next turn it is not inserted again. -/
theorem refusal_forgotten :
    let status := { TrafficSignalStatus.initial fun _ => { StaticPlan.unset with
        preGreen := 30, preTimeCompensated := 30, maxGreen := 90 } with
      planId := 1, subPhaseId := 1, stepId := 1 }
    let touch : EvspEvent := .obuPacket (EvspService.ambulancePacket 'A' [1] [])
    let bus : TscCommandObject := ⟨2, 3, 1, 60, 30, ⟨['b', 'u', 's'], by decide⟩, false⟩
    let busy : Middleware :=
      ({ EvspService.oneArea.middleware with status := status }).setSlot 0 1 bus
    let service := run EvspService.step (EvspService.initial EvspService.oneArea)
      [touch, touch, .middleware busy]
    let loop := service.loop true 0
    let tick := service.tick (fun _ => 40) .improperPriority
    ((loop.attempt tick).map fun command =>
        (service.intersection.middleware.commandBufInsertEffectTime command).1) =
          some .improperPriority ∧
      ¬ TriesAgain loop [.turn tick, .turn tick] := by
  intro status touch bus busy service loop tick
  refine ⟨by decide, fun htries => ?_⟩
  have hattempt : (loop.attempt tick).any
      (fun command => (tick.host command.hostObuName).isSome) = true := by decide
  have hafter : (loop.turn tick).any (fun after => (after.wanted tick).isSome) = true := by decide
  have hforgotten : (inserts (loop.turn tick) (.turn tick)).isSome = false := by decide
  obtain ⟨command, hcommand, hhost⟩ := (Option.any_eq_true _ _).mp hattempt
  obtain ⟨after, hafter, hwanted⟩ := (Option.any_eq_true _ _).mp hafter
  have hsame : ∀ turn, Event.turn turn ∈ [] ++ [Event.turn tick] →
      turn.status.subPhaseId = tick.status.subPhaseId ∧
        (turn.host command.hostObuName).isSome = true := by
    intro turn hturn
    obtain rfl : turn = tick := Event.turn.inj (List.mem_singleton.mp hturn)
    exact ⟨rfl, hhost⟩
  obtain ⟨more, event, hmore, hsome⟩ := htries.retries [] tick [] tick List.prefix_rfl loop command
    rfl hcommand CommandBufErr.noConfusion hsame after hafter hwanted
  obtain ⟨rfl, hevent⟩ : more = [] ∧ event = .turn tick := by
    have hlength := hmore.length_le
    simp only [List.length_append, List.nil_append, List.length_singleton] at hlength
    obtain rfl : more = [] := List.eq_nil_of_length_eq_zero (by omega)
    exact ⟨rfl, by simpa using hmore⟩
  rw [hevent] at hsome
  change (inserts (loop.turn tick) (.turn tick)).isSome = true at hsome
  rw [hforgotten] at hsome
  cases hsome

end ActivationLoop

end AdaptiveSignal.Signal
