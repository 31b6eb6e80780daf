import AdaptiveSignal.CommandBuffer.Insert
import AdaptiveSignal.Foundation.Run

/-! # Priority in the arbitration of a slot

Priorities decide between commands of different target phases. Commands of one
target phase are decided by how far they move the phase from its own time, so
that one command can serve both vehicles.
-/

namespace AdaptiveSignal.Signal

open Foundation

/-- An object of an application: occupied, and neither a resume nor a
compensation. -/
structure OrdinaryHolder (held : TscCommandObject) : Prop where
  occupied : held.appId ≠ 0
  not_resume : held.hostObuName ≠ .resume
  not_compensation : held.hostObuName ≠ .compensation

/-- The source compares the hosts by their OBU name, the first ten characters. -/
def SameSender (held : TscCommandObject) (command : TscCommand) : Prop :=
  strncmpEq obuNameMaxLen held.hostObuName command.hostObuName = true ∧
    held.appId = command.appId

/-- A resume of the application that holds the slot. -/
def OwnResume (held : TscCommandObject) (command : TscCommand) : Prop :=
  command.hostObuName = .resume ∧ held.appId = command.appId

/-- Which application and which host an object belongs to. -/
structure SameHolder (obj obj' : TscCommandObject) : Prop where
  app : obj'.appId = obj.appId
  priority : obj'.appPriority = obj.appPriority
  host : obj'.hostObuName = obj.hostObuName

theorem strncmpEq_resume (name : HostName) :
    strncmpEq 7 name .resume = true ↔ name = .resume := by
  rw [show strncmpEq 7 name .resume = strncmpEq 7 .resume name by
    simp only [strncmpEq, eq_comm], strncmpEq_whole (by decide), eq_comm]

theorem strncmpEq_compensation (name : HostName) :
    strncmpEq 13 name .compensation = true ↔ name = .compensation := by
  rw [show strncmpEq 13 name .compensation = strncmpEq 13 .compensation name by
    simp only [strncmpEq, eq_comm], strncmpEq_whole (by decide), eq_comm]

section Decision

variable {held : TscCommandObject} {command : TscCommand} {pretime : UInt16}

/-- The decision about a command of another sender that is no resume. -/
theorem arbitrate_other (hheld : OrdinaryHolder held) (hother : ¬ SameSender held command)
    (hresume : command.hostObuName ≠ .resume) :
    arbitrate held command pretime =
      if held.targetPhase = command.targetPhase then
        if deviation held.effectTime.toNat pretime ≤
            deviation command.effectTime.toInt pretime then .acceptAppId
        else .improperPriority
      else if command.appPriority < held.appPriority then .acceptAppId
      else .improperPriority := by
  have hsame : ¬ ((strncmpEq obuNameMaxLen held.hostObuName command.hostObuName &&
      decide (held.appId = command.appId)) = true) := by
    simpa only [SameSender, Bool.and_eq_true, decide_eq_true_eq] using hother
  simp only [arbitrate, hheld.occupied, if_false, Bool.and_eq_true, strncmpEq_compensation,
    hheld.not_compensation, false_and, strncmpEq_resume, hheld.not_resume, hresume]
  rw [Bool.and_eq_true] at hsame
  rw [if_neg hsame]

/-- A resume is decided by the application alone. -/
theorem arbitrate_resume (hheld : OrdinaryHolder held) (hresume : command.hostObuName = .resume) :
    arbitrate held command pretime =
      if held.appId = command.appId then .acceptObuName else .improperPriority := by
  simp only [arbitrate, hheld.occupied, if_false, Bool.and_eq_true, strncmpEq_compensation,
    hheld.not_compensation, false_and, strncmpEq_resume, hheld.not_resume, hresume, if_true]

/-- A command of the sender that holds the slot renews the effect time only. -/
theorem arbitrate_same (hheld : OrdinaryHolder held) (hsame : SameSender held command) :
    arbitrate held command pretime = .acceptEffectTime := by
  have hresume : command.hostObuName ≠ .resume := by
    intro heq
    -- the name is shorter than the prefix compared, so the holder would be a resume
    have hprefix := hsame.1
    rw [heq, show strncmpEq obuNameMaxLen held.hostObuName .resume =
      strncmpEq obuNameMaxLen .resume held.hostObuName by simp only [strncmpEq, eq_comm],
      strncmpEq_whole (by decide)] at hprefix
    exact hheld.not_resume hprefix.symm
  have happ : command.appId ≠ 0 := hsame.2 ▸ hheld.occupied
  simp only [arbitrate, happ, if_false, Bool.and_eq_true, strncmpEq_compensation,
    hheld.not_compensation, false_and, strncmpEq_resume, hheld.not_resume, hresume, hsame.1,
    hsame.2, decide_true, and_self, if_true]

/-- A command of another sender and another target phase is refused unless its
priority is higher. -/
theorem arbitrate_refuses (hheld : OrdinaryHolder held) (hother : ¬ SameSender held command)
    (hphase : held.targetPhase ≠ command.targetPhase)
    (hpriority : held.appPriority ≤ command.appPriority) (hresume : ¬ OwnResume held command) :
    arbitrate held command pretime = .improperPriority := by
  by_cases hname : command.hostObuName = .resume
  · rw [arbitrate_resume hheld hname, if_neg fun happ => hresume ⟨hname, happ⟩]
  · rw [arbitrate_other hheld hother hname, if_neg hphase, if_neg (UInt8.not_lt.mpr hpriority)]

/-- Whatever holds the slot, a command of higher priority for another target
phase takes it. -/
theorem arbitrate_higher (hphase : held.targetPhase ≠ command.targetPhase)
    (hpriority : command.appPriority < held.appPriority) (hresume : command.hostObuName ≠ .resume) :
    arbitrate held command pretime ≠ .improperPriority := by
  simp only [arbitrate, strncmpEq_resume, hresume, if_false, hphase, hpriority, if_true]
  split_ifs <;> decide

end Decision

/-! ## Inserts into one slot -/

/-- The object after one insert into its slot, under the plan of the moment. -/
def insertInto (held : TscCommandObject) (request : StaticPlan × TscCommand) : TscCommandObject :=
  let (plan, command) := request
  let command' := command.clamp plan
  let label := arbitrate held command' plan.preTimeCompensated
  if command.check ≠ none ∨ label = .improperPriority then held
  else (held.firstInsert plan.preTimeCompensated).accept command' label

/-- An insert of the middleware is an insert into the slot it addresses. -/
theorem insert_target (s : Middleware) (command : TscCommand) :
    (s.commandBufInsertEffectTime command).2.commandBuf (s.slotCycle command) command.phase =
      insertInto (s.target command) (s.status.plan command.phase, command) := by
  rcases insert_cases s command with ⟨err, _, _, hcheck, heq⟩ | ⟨hcheck, hlabel, heq⟩ |
    ⟨hcheck, hlabel, heq⟩
  · rw [heq, insertInto, if_pos (Or.inl (by simp [hcheck]))]
    rfl
  · simp only [Middleware.verdict] at hlabel
    rw [heq, insertInto, if_pos (Or.inr hlabel)]
    rfl
  · simp only [Middleware.verdict] at hlabel
    rw [heq, insertInto, if_neg (by simpa [hcheck] using hlabel)]
    exact Middleware.setSlot_self ..

/-- The inserts the priority rule speaks of: those of the sender that holds the
slot, and those of others that do not have its target phase, do not have a
higher priority and are no resume of its application. -/
def PriorityDecides (held : TscCommandObject) (request : StaticPlan × TscCommand) : Prop :=
  SameSender held request.2 ∨
    (held.targetPhase ≠ request.2.targetPhase ∧ held.appPriority ≤ request.2.appPriority ∧
      ¬ OwnResume held request.2)

theorem insertInto_holder {held : TscCommandObject} (hheld : OrdinaryHolder held)
    {request : StaticPlan × TscCommand} (hdecides : PriorityDecides held request) :
    SameHolder held (insertInto held request) := by
  obtain ⟨plan, command⟩ := request
  by_cases hsame : SameSender held command
  · have hlabel : arbitrate held (command.clamp plan) plan.preTimeCompensated =
        .acceptEffectTime := arbitrate_same hheld hsame
    have hfirst : held.firstInsert plan.preTimeCompensated = held := by
      simp [TscCommandObject.firstInsert, hheld.occupied]
    simp only [insertInto, hlabel, hfirst]
    split_ifs <;> exact ⟨rfl, rfl, rfl⟩
  · obtain ⟨hphase, hpriority, hresume⟩ := hdecides.resolve_left hsame
    have hlabel : arbitrate held (command.clamp plan) plan.preTimeCompensated =
        .improperPriority := arbitrate_refuses hheld hsame hphase hpriority hresume
    rw [insertInto, if_pos (Or.inr hlabel)]
    exact ⟨rfl, rfl, rfl⟩

/-- Over any sequence of inserts that the priority rule decides, the slot keeps
its application, priority and host. -/
theorem holder_kept {held : TscCommandObject} (hheld : OrdinaryHolder held)
    {requests : List (StaticPlan × TscCommand)}
    (hrequests : Guarded insertInto PriorityDecides held requests) :
    SameHolder held (run insertInto held requests) := by
  refine (hrequests.invariant (fun obj => OrdinaryHolder obj ∧ SameHolder held obj)
    ⟨hheld, rfl, rfl, rfl⟩ ?_).2
  rintro obj request ⟨hordinary, hsame⟩ hdecides
  obtain ⟨happ, hpriority, hhost⟩ := insertInto_holder hordinary hdecides
  refine ⟨⟨?_, ?_, ?_⟩, happ.trans hsame.app, hpriority.trans hsame.priority,
    hhost.trans hsame.host⟩
  · rw [happ]; exact hordinary.occupied
  · rw [hhost]; exact hordinary.not_resume
  · rw [hhost]; exact hordinary.not_compensation

/-- Priority between commands of different target phases: a lower priority is
refused and changes nothing, over any sequence of inserts the slot keeps its
holder, and a higher priority is never refused. -/
theorem priority_respected_between_target_phases :
    (∀ (s : Middleware) (command : TscCommand),
      command.check = none → OrdinaryHolder (s.target command) →
      ¬ SameSender (s.target command) command →
      (s.target command).targetPhase ≠ command.targetPhase →
      (s.target command).appPriority < command.appPriority →
      ¬ OwnResume (s.target command) command →
      s.commandBufInsertEffectTime command = (.improperPriority, s)) ∧
    (∀ (held : TscCommandObject) (requests : List (StaticPlan × TscCommand)),
      OrdinaryHolder held → Guarded insertInto PriorityDecides held requests →
      SameHolder held (run insertInto held requests)) ∧
    (∀ (s : Middleware) (command : TscCommand),
      command.check = none → command.hostObuName ≠ .resume →
      (s.target command).targetPhase ≠ command.targetPhase →
      command.appPriority < (s.target command).appPriority →
      (s.commandBufInsertEffectTime command).1 = .insertAccept) := by
  refine ⟨?_, fun _ _ hheld hrequests => holder_kept hheld hrequests, ?_⟩
  · intro s command hcheck hheld hother hphase hpriority hresume
    have hlabel : s.verdict command = .improperPriority :=
      arbitrate_refuses hheld hother hphase (UInt8.le_of_lt hpriority) hresume
    rcases insert_cases s command with ⟨err, _, _, hfails, _⟩ | ⟨_, _, heq⟩ | ⟨_, hnot, _⟩
    · rw [hcheck] at hfails
      exact absurd hfails (by simp)
    · exact heq
    · exact absurd hlabel hnot
  · intro s command hcheck hname hphase hpriority
    have hlabel : s.verdict command ≠ .improperPriority := arbitrate_higher hphase hpriority hname
    rcases insert_cases s command with ⟨err, _, _, hfails, _⟩ | ⟨_, himproper, _⟩ | ⟨_, _, heq⟩
    · rw [hcheck] at hfails
      exact absurd hfails (by simp)
    · exact absurd himproper hlabel
    · rw [heq]

/-- An EVSP command holds phase 2 of the next cycle; a TSP command for the same
phase is refused, and so is one that addresses the slot for phase 1. -/
theorem priority_respected_between_target_phases_evsp :
    let plan := { StaticPlan.unset with preTimeCompensated := 30, minGreen := 10, maxGreen := 60 }
    let s := Middleware.boot Config.initial (TrafficSignalStatus.initial fun _ => plan)
    let evsp : TscCommand := ⟨evspId, 1, 2, 1, 2, 45, ⟨['A', 'M', 'B'], by decide⟩⟩
    let tsp : TscCommand := ⟨tspId, 2, 1, 1, 2, 50, ⟨['B', 'U', 'S'], by decide⟩⟩
    let held := (s.commandBufInsertEffectTime evsp).2
    held.commandBufInsertEffectTime tsp = (.improperPriority, held) ∧
      SameHolder (held.target tsp) (run insertInto (held.target tsp) [(plan, tsp), (plan, evsp)]) ∧
      ((s.commandBufInsertEffectTime tsp).2.commandBufInsertEffectTime evsp).1 =
        .insertAccept := by
  intro plan s evsp tsp held
  obtain ⟨hrefuse, hkeep, hhigher⟩ := priority_respected_between_target_phases
  have hheld : OrdinaryHolder (held.target tsp) := ⟨by decide, by decide, by decide⟩
  have hother : ¬ SameSender (held.target tsp) tsp := by unfold SameSender; decide
  have hresume : ¬ OwnResume (held.target tsp) tsp := by unfold OwnResume; decide
  refine ⟨hrefuse held tsp (by decide) hheld hother (by decide) (by decide) hresume,
    hkeep _ _ hheld ⟨Or.inr ⟨by decide, by decide, hresume⟩, Or.inl ?_, trivial⟩,
    hhigher _ evsp (by decide) (by decide) (by decide) (by decide)⟩
  unfold SameSender
  decide

/-- A TSP command for the phase an EVSP command holds replaces it as soon as it
moves the phase further from its own time. -/
theorem lower_priority_replaces_same_target_phase :
    let plan := { StaticPlan.unset with preTimeCompensated := 30, minGreen := 10, maxGreen := 60 }
    let s := Middleware.boot Config.initial (TrafficSignalStatus.initial fun _ => plan)
    let evsp : TscCommand := ⟨evspId, 1, 2, 0, 2, 45, ⟨['A', 'M', 'B'], by decide⟩⟩
    let tsp : TscCommand := ⟨tspId, 2, 2, 0, 2, 50, ⟨['B', 'U', 'S'], by decide⟩⟩
    let held := (s.commandBufInsertEffectTime evsp).2
    OrdinaryHolder (held.target tsp) ∧ ¬ SameSender (held.target tsp) tsp ∧
      (held.target tsp).appPriority < tsp.appPriority ∧
      (held.commandBufInsertEffectTime tsp).1 = .insertAccept ∧
      ((held.commandBufInsertEffectTime tsp).2.target tsp).appId = tspId := by
  intro plan s evsp tsp held
  refine ⟨⟨by decide, by decide, by decide⟩, ?_, by decide, by decide, by decide⟩
  unfold SameSender
  decide

end AdaptiveSignal.Signal
