import AdaptiveSignal.Broadcast.Dispatcher

/-! # What becomes of external messages

Every message on the broadcast list is covered by a pending count or by a caller
that is still to call back, so the dispatcher never misses one: what was inserted
before it loads its count is handled by the end of that iteration. A message is
put in the queue of its kind exactly if its kind is due in the iteration in
which it is fetched.
-/

namespace AdaptiveSignal.Broadcast

open Foundation

variable {Data : Type*} {config : TibConfig} {own : OwnKind → Data}
  {s s' : BroadcastState Data}

/-! ## Moves of the dispatcher -/

/-- The queue whose space the dispatcher waits for. -/
def DispatcherPlace.awaits : DispatcherPlace Data → Option TibQueue
  | .enqueue kind _ _ => some (.external kind)
  | .enqueueOwn kind => some (.own kind)
  | _ => none

/-- What one operation of the dispatcher can do. -/
inductive DispatchMove (config : TibConfig) (own : OwnKind → Data) (s : BroadcastState Data) :
    BroadcastState Data → Prop
  | waits (q : TibQueue) (hawaits : s.place.awaits = some q) (hfull : ¬ s.HasSpace q) :
      DispatchMove config own s s
  | loads (hplace : s.place = .load) (hpending : 0 < s.pendingMsgCount) :
      DispatchMove config own s (s.moveTo (.fetch s.pendingMsgCount.toNat))
  | idles (hplace : s.place = .load) (hpending : s.pendingMsgCount ≤ 0) :
      DispatchMove config own s (s.moveTo (.branch .map))
  | loopEnds (hplace : s.place = .fetch 0) :
      DispatchMove config own s (s.moveTo (.branch .map))
  | misses (remaining : ℕ) (hplace : s.place = .fetch (remaining + 1))
      (hlist : s.broadcastList = []) : DispatchMove config own s (s.moveTo .reset)
  | fetches (msg : J2735MsgObj Data) (rest : List (J2735MsgObj Data)) (remaining : ℕ)
      (hplace : s.place = .fetch (remaining + 1)) (hlist : s.broadcastList = msg :: rest) :
      DispatchMove config own s
        ({ s with broadcastList := rest }.moveTo (.subtract msg remaining))
  | skips (msg : J2735MsgObj Data) (remaining : ℕ) (hplace : s.place = .subtract msg remaining)
      (hdata : msg.data = none) :
      DispatchMove config own s
        ({ s with
          pendingMsgCount := s.pendingMsgCount - 1
          handled := s.handled ++ [msg] }.moveTo (.fetch remaining))
  | subtracts (msg : J2735MsgObj Data) (remaining : ℕ)
      (hplace : s.place = .subtract msg remaining) (hdata : msg.data ≠ none) :
      DispatchMove config own s
        ({ s with pendingMsgCount := s.pendingMsgCount - 1 }.moveTo (.process msg remaining))
  | drops (msg : J2735MsgObj Data) (remaining : ℕ) (hplace : s.place = .process msg remaining)
      (htarget : processTarget config s.cycles msg = none) :
      DispatchMove config own s
        ({ s with handled := s.handled ++ [msg] }.moveTo (.fetch remaining))
  | targets (msg : J2735MsgObj Data) (remaining : ℕ) (kind : ExternalKind)
      (hplace : s.place = .process msg remaining)
      (htarget : processTarget config s.cycles msg = some kind) :
      DispatchMove config own s (s.moveTo (.enqueue kind msg remaining))
  | puts (kind : ExternalKind) (msg : J2735MsgObj Data) (remaining : ℕ)
      (hplace : s.place = .enqueue kind msg remaining) (hspace : s.HasSpace (.external kind)) :
      DispatchMove config own s
        ({ s.put (.external kind) ⟨msg.data, kind.msgId⟩ with
          handled := s.handled ++ [msg] }.moveTo (.fetch remaining))
  | resets (hplace : s.place = .reset) :
      DispatchMove config own s ({ s with pendingMsgCount := 0 }.moveTo (.branch .map))
  | branches (kind : OwnKind) (planId stepId second : ℤ) (p : DispatcherPlace Data)
      (hplace : s.place = .branch kind) (hp : p = .enqueueOwn kind ∨ p = afterBranch kind) :
      DispatchMove config own s
        ({ s with priorPlanId := planId, priorStepId := stepId, priorSecond := second }.moveTo p)
  | putsOwn (kind : OwnKind) (hplace : s.place = .enqueueOwn kind)
      (hspace : s.HasSpace (.own kind)) :
      DispatchMove config own s
        ((s.put (.own kind) ⟨some (own kind), kind.msgId⟩).moveTo (afterBranch kind))
  | increments (hplace : s.place = .increment) :
      DispatchMove config own s
        ({ s with
          cycles := config.nextCycles s.cycles
          iterations := s.iterations + 1 }.moveTo .load)

theorem ownBranch_move (config : TibConfig) (own : OwnKind → Data) (readings : Readings)
    {kind : OwnKind} (hplace : s.place = .branch kind) :
    DispatchMove config own s (ownBranch s readings kind) := by
  have hstay (p : DispatcherPlace Data) (hp : p = .enqueueOwn kind ∨ p = afterBranch kind) :
      DispatchMove config own s (s.moveTo p) :=
    .branches kind s.priorPlanId s.priorStepId s.priorSecond p hplace hp
  cases kind with
  | map =>
      simp only [ownBranch]
      split_ifs with hplan hcount hupdate
      · exact hstay _ (Or.inr rfl)
      · exact hstay _ (Or.inr rfl)
      · exact .branches .map readings.planId s.priorStepId s.priorSecond _ hplace (Or.inl rfl)
      · exact hstay _ (Or.inl rfl)
  | spat =>
      simp only [ownBranch]
      split_ifs with hstep hupdate
      · exact hstay _ (Or.inr rfl)
      · exact .branches .spat s.priorPlanId readings.stepId readings.second _ hplace (Or.inl rfl)
      · exact hstay _ (Or.inl rfl)
  | tim => exact hstay _ (Or.inl rfl)

theorem dispatchMove (config : TibConfig) (own : OwnKind → Data) (s : BroadcastState Data)
    (readings : Readings) :
    DispatchMove config own s (tibDispatcherHandler config own s readings) := by
  unfold tibDispatcherHandler
  split
  next hplace =>
    split_ifs with hpending
    · exact .loads hplace hpending
    · exact .idles hplace (Int.not_lt.mp hpending)
  next hplace => exact .loopEnds hplace
  next remaining hplace =>
    split
    next hlist => exact .misses remaining hplace hlist
    next msg rest hlist => exact .fetches msg rest remaining hplace hlist
  next msg remaining hplace =>
    dsimp only
    split
    next hdata => exact .skips msg remaining hplace hdata
    next hdata => exact .subtracts msg remaining hplace (by simp [hdata])
  next msg remaining hplace =>
    split
    next htarget => exact .drops msg remaining hplace htarget
    next kind htarget => exact .targets msg remaining kind hplace htarget
  next kind msg remaining hplace =>
    split_ifs with hspace
    · exact .puts kind msg remaining hplace hspace
    · exact .waits _ (by rw [hplace]; rfl) hspace
  next hplace => exact .resets hplace
  next kind hplace =>
    split_ifs with hdue
    · exact ownBranch_move config own readings hplace
    · exact .branches kind s.priorPlanId s.priorStepId s.priorSecond _ hplace (Or.inr rfl)
  next kind hplace =>
    split_ifs with hspace
    · exact .putsOwn kind hplace hspace
    · exact .waits _ (by rw [hplace]; rfl) hspace
  next hplace => exact .increments hplace

/-! ## Counting the messages -/

namespace DispatcherPlace

/-- The message that the dispatcher has fetched and is not through with. -/
def inHand : DispatcherPlace Data → List (J2735MsgObj Data)
  | .subtract msg _ | .process msg _ | .enqueue _ msg _ => [msg]
  | _ => []

/-- The fetched message that the pending count still contains. -/
def uncounted : DispatcherPlace Data → ℕ
  | .subtract _ _ => 1
  | _ => 0

/-- The messages that the loop is still going to fetch. -/
def toFetch : DispatcherPlace Data → ℕ
  | .fetch remaining | .subtract _ remaining | .process _ remaining
  | .enqueue _ _ remaining => remaining
  | _ => 0

/-- The loop over the pending messages has nothing left to do. -/
structure Idle (p : DispatcherPlace Data) : Prop where
  inHand : p.inHand = []
  uncounted : p.uncounted = 0
  toFetch : p.toFetch = 0
  ne_reset : p ≠ .reset

theorem idle_load : (load : DispatcherPlace Data).Idle := ⟨rfl, rfl, rfl, by simp⟩

theorem idle_branch (kind : OwnKind) : (branch kind : DispatcherPlace Data).Idle :=
  ⟨rfl, rfl, rfl, by simp⟩

theorem idle_enqueueOwn (kind : OwnKind) : (enqueueOwn kind : DispatcherPlace Data).Idle :=
  ⟨rfl, rfl, rfl, by simp⟩

theorem idle_increment : (increment : DispatcherPlace Data).Idle := ⟨rfl, rfl, rfl, by simp⟩

theorem idle_afterBranch (kind : OwnKind) : (afterBranch kind : DispatcherPlace Data).Idle := by
  cases kind with
  | map => exact idle_branch .spat
  | spat => exact idle_branch .tim
  | tim => exact idle_increment

end DispatcherPlace

open DispatcherPlace

/-- Every message that was inserted is handled, in hand or on the list, and every
message on the list is counted or will be. The loop fetches no more than are counted. -/
structure Counted (s : BroadcastState Data) : Prop where
  history : s.inserted = s.handled ++ s.place.inHand ++ s.broadcastList
  credit : s.pendingMsgCount + s.notifying = s.broadcastList.length + s.place.uncounted
  toFetch : (s.place.toFetch + s.place.uncounted : ℤ) ≤ s.pendingMsgCount
  ne_reset : s.place ≠ .reset

/-- Between two idle places nothing about the external messages changes. -/
theorem Counted.idle (h : Counted s) (hs : s.place.Idle) (hs' : s'.place.Idle)
    (hinserted : s'.inserted = s.inserted) (hhandled : s'.handled = s.handled)
    (hlist : s'.broadcastList = s.broadcastList) (hnotifying : s'.notifying = s.notifying)
    (hpending : s'.pendingMsgCount = s.pendingMsgCount) : Counted s' where
  history := by rw [hinserted, hhandled, hlist, hs'.inHand, h.history, hs.inHand]
  credit := by rw [hpending, hnotifying, hlist, hs'.uncounted, h.credit, hs.uncounted]
  toFetch := by
    have hbound := h.toFetch
    rw [hs.toFetch, hs.uncounted] at hbound
    rwa [hs'.toFetch, hs'.uncounted, hpending]
  ne_reset := hs'.ne_reset

/-- There is a message on the list wherever the loop is going to fetch one. -/
theorem Counted.list_ne_nil (h : Counted s) {remaining : ℕ}
    (hplace : s.place = .fetch (remaining + 1)) : s.broadcastList ≠ [] := by
  intro hnil
  have hcredit := h.credit
  have hbound := h.toFetch
  rw [hnil, hplace] at hcredit
  rw [hplace] at hbound
  simp only [DispatcherPlace.uncounted, DispatcherPlace.toFetch, List.length_nil] at hcredit hbound
  omega

theorem DispatchMove.counted (hmove : DispatchMove config own s s') (h : Counted s) :
    Counted s' := by
  obtain ⟨hhistory, hcredit, hbound, hreset⟩ := h
  cases hmove with
  | waits => exact ⟨hhistory, hcredit, hbound, hreset⟩
  | loads hplace hpending =>
      rw [hplace] at hhistory hcredit
      refine ⟨hhistory, hcredit, ?_, by simp [BroadcastState.moveTo]⟩
      simp only [BroadcastState.moveTo, DispatcherPlace.toFetch, DispatcherPlace.uncounted]
      omega
  | idles hplace hpending =>
      exact Counted.idle ⟨hhistory, hcredit, hbound, hreset⟩ (hplace ▸ idle_load)
        (idle_branch .map) rfl rfl rfl rfl rfl
  | loopEnds hplace =>
      have hidle : (fetch 0 : DispatcherPlace Data).Idle := ⟨rfl, rfl, rfl, by simp⟩
      exact Counted.idle ⟨hhistory, hcredit, hbound, hreset⟩ (hplace ▸ hidle)
        (idle_branch .map) rfl rfl rfl rfl rfl
  -- The loop counts down what was counted, and so much is on the list.
  | misses remaining hplace hlist =>
      have hsome := Counted.list_ne_nil ⟨hhistory, hcredit, hbound, hreset⟩ hplace
      exact absurd hlist hsome
  | fetches msg rest remaining hplace hlist =>
      rw [hplace, hlist] at hhistory hcredit
      rw [hplace] at hbound
      simp only [DispatcherPlace.inHand, DispatcherPlace.uncounted, DispatcherPlace.toFetch,
        List.length_cons, List.append_nil] at hhistory hcredit hbound
      refine ⟨?_, ?_, ?_, by simp [BroadcastState.moveTo]⟩
      · simp only [BroadcastState.moveTo, DispatcherPlace.inHand, hhistory, List.append_assoc,
          List.singleton_append]
      · simp only [BroadcastState.moveTo, DispatcherPlace.uncounted]
        omega
      · simp only [BroadcastState.moveTo, DispatcherPlace.uncounted, DispatcherPlace.toFetch]
        omega
  | skips msg remaining hplace hdata =>
      rw [hplace] at hhistory hcredit hbound
      simp only [DispatcherPlace.inHand, DispatcherPlace.uncounted, DispatcherPlace.toFetch]
        at hhistory hcredit hbound
      refine ⟨?_, ?_, ?_, by simp [BroadcastState.moveTo]⟩
      · simp only [BroadcastState.moveTo, DispatcherPlace.inHand, hhistory, List.append_nil]
      · simp only [BroadcastState.moveTo, DispatcherPlace.uncounted]
        omega
      · simp only [BroadcastState.moveTo, DispatcherPlace.uncounted, DispatcherPlace.toFetch]
        omega
  | subtracts msg remaining hplace hdata =>
      rw [hplace] at hhistory hcredit hbound
      simp only [DispatcherPlace.uncounted, DispatcherPlace.toFetch] at hcredit hbound
      refine ⟨hhistory, ?_, ?_, by simp [BroadcastState.moveTo]⟩
      · simp only [BroadcastState.moveTo, DispatcherPlace.uncounted]
        omega
      · simp only [BroadcastState.moveTo, DispatcherPlace.uncounted, DispatcherPlace.toFetch]
        omega
  | drops msg remaining hplace htarget =>
      rw [hplace] at hhistory hcredit hbound
      refine ⟨?_, hcredit, hbound, by simp [BroadcastState.moveTo]⟩
      simp only [DispatcherPlace.inHand] at hhistory
      simp only [BroadcastState.moveTo, DispatcherPlace.inHand, hhistory, List.append_nil]
  | targets msg remaining kind hplace htarget =>
      rw [hplace] at hhistory hcredit hbound
      exact ⟨hhistory, hcredit, hbound, by simp [BroadcastState.moveTo]⟩
  | puts kind msg remaining hplace =>
      rw [hplace] at hhistory hcredit hbound
      refine ⟨?_, hcredit, hbound, by simp [BroadcastState.moveTo]⟩
      simp only [DispatcherPlace.inHand] at hhistory
      simp only [BroadcastState.moveTo, BroadcastState.put, DispatcherPlace.inHand, hhistory,
        List.append_nil]
  | resets hplace => exact absurd hplace hreset
  | branches kind planId stepId second p hplace hp =>
      have hidle : p.Idle := by
        rcases hp with rfl | rfl
        · exact idle_enqueueOwn kind
        · exact idle_afterBranch kind
      exact Counted.idle ⟨hhistory, hcredit, hbound, hreset⟩ (hplace ▸ idle_branch kind)
        hidle rfl rfl rfl rfl rfl
  | putsOwn kind hplace =>
      exact Counted.idle ⟨hhistory, hcredit, hbound, hreset⟩ (hplace ▸ idle_enqueueOwn kind)
        (idle_afterBranch kind) rfl rfl rfl rfl rfl
  | increments hplace =>
      exact Counted.idle ⟨hhistory, hcredit, hbound, hreset⟩ (hplace ▸ idle_increment)
        idle_load rfl rfl rfl rfl rfl

theorem counted_initial : Counted (BroadcastState.initial : BroadcastState Data) :=
  ⟨rfl, rfl, by simp [BroadcastState.initial, DispatcherPlace.toFetch, DispatcherPlace.uncounted],
    by simp [BroadcastState.initial]⟩

theorem counted_step (h : Counted s) (action : BroadcastAction Data) :
    Counted (broadcastStep config own s action) := by
  cases action with
  | insert msg =>
      simp only [broadcastStep]
      split_ifs with hspace
      · have hcredit := h.credit
        refine ⟨?_, ?_, h.toFetch, h.ne_reset⟩
        · simp only [h.history, List.append_assoc]
        · simp only [List.length_append, List.length_singleton, Nat.cast_add, Nat.cast_one]
          omega
      · exact h
  | notify =>
      simp only [broadcastStep]
      split_ifs with hnone
      · exact h
      · have hcredit := h.credit
        have hbound := h.toFetch
        refine ⟨h.history, ?_, ?_, h.ne_reset⟩
        · simp only
          omega
        · simp only
          omega
  | dispatch readings => exact (dispatchMove config own s readings).counted h
  | transmit q => exact ⟨h.history, h.credit, h.toFetch, h.ne_reset⟩

theorem counted_run (actions : List (BroadcastAction Data)) :
    Counted (run (broadcastStep config own) .initial actions) :=
  run_invariant_of_mem (broadcastStep config own) Counted actions counted_initial
    fun _ action _ h => counted_step h action

theorem DispatchMove.cycles (hmove : DispatchMove config own s s')
    (h : s.cycles = config.cyclesIn s.iterations) :
    s'.cycles = config.cyclesIn s'.iterations := by
  cases hmove with
  | increments => exact congrArg config.nextCycles h
  | _ => exact h

/-- The count of the dispatcher is the one of its iteration. -/
theorem cycles_run (actions : List (BroadcastAction Data)) :
    (run (broadcastStep config own) .initial actions).cycles =
      config.cyclesIn (run (broadcastStep config own) .initial actions).iterations := by
  apply run_invariant_of_mem (broadcastStep config own)
    (fun s => s.cycles = config.cyclesIn s.iterations) actions rfl
  intro s action _ h
  cases action with
  | insert msg =>
      simp only [broadcastStep]
      split_ifs <;> exact h
  | notify =>
      simp only [broadcastStep]
      split_ifs <;> exact h
  | dispatch readings => exact (dispatchMove config own s readings).cycles h
  | transmit q => exact h

/-! ## Messages in their queues -/

/-- The messages that belong in the queue of a kind. -/
def J2735MsgObj.isFor (msg : J2735MsgObj Data) (kind : ExternalKind) : Bool :=
  decide (msg.magId = kind.msgId) && msg.data.isSome

/-- Each message that the dispatcher is through with, if it has data and is of one
of the three kinds, was put in the queue of its kind, once and in turn, and
nothing else was put there. -/
def Kept (s : BroadcastState Data) : Prop :=
  ∀ kind, s.enqueued (.external kind) =
    (s.handled.filter (·.isFor kind)).map fun msg => ⟨msg.data, kind.msgId⟩

/-- A message of one of the three kinds is processed in an iteration whose count
its period divides. -/
def InTime (config : TibConfig) (s : BroadcastState Data) : BroadcastAction Data → Prop
  | .dispatch _ => ∀ msg remaining (kind : ExternalKind), s.place = .process msg remaining →
      msg.magId = kind.msgId → due (kind.period config) s.cycles
  | _ => True

theorem ExternalKind.msgId_inj {first second : ExternalKind}
    (h : first.msgId = second.msgId) : first = second := by
  cases first <;> cases second <;> first | rfl | cases h

theorem processTarget_eq_some_iff {cycles : ℕ} {msg : J2735MsgObj Data} {kind : ExternalKind} :
    processTarget config cycles msg = some kind ↔
      due (kind.period config) cycles ∧ msg.magId = kind.msgId := by
  constructor
  · intro htarget
    simpa using List.find?_some htarget
  · intro htakes
    cases hfound : processTarget config cycles msg with
    | none =>
        have hnone := List.find?_eq_none.mp hfound kind (by cases kind <;> simp)
        simp only [decide_eq_true_eq] at hnone
        exact absurd htakes hnone
    | some other =>
        have hother : due (other.period config) cycles ∧ msg.magId = other.msgId := by
          simpa using List.find?_some hfound
        rw [ExternalKind.msgId_inj (hother.2.symm.trans htakes.2)]

theorem isFor_of_msgId {msg : J2735MsgObj Data} {kind : ExternalKind}
    (hkind : msg.magId = kind.msgId) (hdata : msg.data ≠ none) (other : ExternalKind) :
    msg.isFor other = decide (other = kind) := by
  rw [J2735MsgObj.isFor, Option.isSome_iff_ne_none.mpr hdata, Bool.and_true, hkind]
  exact decide_eq_decide.mpr ⟨fun heq => (ExternalKind.msgId_inj heq).symm, fun heq => by rw [heq]⟩

/-- A message that belongs in no queue changes nothing. -/
theorem Kept.of_none (h : Kept s) {msg : J2735MsgObj Data} (hnone : ∀ kind, msg.isFor kind = false)
    (henqueued : s'.enqueued = s.enqueued) (hhandled : s'.handled = s.handled ++ [msg]) :
    Kept s' := by
  intro kind
  rw [henqueued, hhandled, List.filter_append, List.filter_singleton, hnone kind, h kind]
  simp

/-- A message that belongs in a queue and is dropped is missing there. -/
theorem not_kept_of_dropped (h : Kept s) {msg : J2735MsgObj Data} {kind : ExternalKind}
    (hfor : msg.isFor kind = true) (henqueued : s'.enqueued = s.enqueued)
    (hhandled : s'.handled = s.handled ++ [msg]) : ¬ Kept s' := by
  intro hkept
  have hlength := congrArg List.length (hkept kind)
  rw [henqueued, hhandled, List.filter_append, List.filter_singleton, hfor, h kind] at hlength
  simp at hlength

/-- What is known of the message in the dispatcher's hand. -/
def Prepared : DispatcherPlace Data → Prop
  | .process msg _ => msg.data ≠ none
  | .enqueue kind msg _ => msg.data ≠ none ∧ msg.magId = kind.msgId
  | _ => True

theorem prepared_afterBranch (kind : OwnKind) :
    Prepared (afterBranch kind : DispatcherPlace Data) := by
  cases kind <;> trivial

theorem DispatchMove.prepared (hmove : DispatchMove config own s s') (h : Prepared s.place) :
    Prepared s'.place := by
  cases hmove with
  | waits => exact h
  | subtracts msg remaining hplace hdata => exact hdata
  | targets msg remaining kind hplace htarget =>
      rw [hplace] at h
      exact ⟨h, (processTarget_eq_some_iff.mp htarget).2⟩
  | branches kind _ _ _ p hplace hp =>
      rcases hp with rfl | rfl
      · trivial
      · exact prepared_afterBranch kind
  | putsOwn kind => exact prepared_afterBranch kind
  | _ => trivial

/-- A step of the dispatcher keeps the messages exactly if it drops none. -/
theorem DispatchMove.kept_iff (hmove : DispatchMove config own s s') (hprepared : Prepared s.place)
    (h : Kept s) :
    Kept s' ↔ ∀ msg remaining (kind : ExternalKind), s.place = .process msg remaining →
      msg.magId = kind.msgId → due (kind.period config) s.cycles := by
  have hother (hkept : Kept s') (hplace : ∀ msg remaining, s.place ≠ .process msg remaining) :
      Kept s' ↔ ∀ msg remaining (kind : ExternalKind), s.place = .process msg remaining →
        msg.magId = kind.msgId → due (kind.period config) s.cycles :=
    iff_of_true hkept fun msg remaining _ hprocess => absurd hprocess (hplace msg remaining)
  cases hmove with
  | waits q hawaits hfull =>
      refine hother h fun msg remaining hprocess => ?_
      rw [hprocess] at hawaits
      cases hawaits
  | skips msg remaining hplace hdata =>
      apply hother _ (by simp [hplace])
      exact h.of_none (fun kind => by simp [J2735MsgObj.isFor, hdata]) rfl rfl
  -- What is dropped had a queue exactly if it is of one of the three kinds.
  | drops msg remaining hplace htarget =>
      rw [hplace] at hprepared
      have hnotdue (kind : ExternalKind) (hkind : msg.magId = kind.msgId) :
          ¬ due (kind.period config) s.cycles := by
        intro hdue
        rw [processTarget_eq_some_iff.mpr ⟨hdue, hkind⟩] at htarget
        cases htarget
      by_cases hlisted : ∃ kind : ExternalKind, msg.magId = kind.msgId
      · obtain ⟨kind, hkind⟩ := hlisted
        have hfor : msg.isFor kind = true := by
          rw [isFor_of_msgId hkind hprepared, decide_eq_true rfl]
        refine iff_of_false (not_kept_of_dropped h hfor rfl rfl) fun hall => ?_
        exact hnotdue kind hkind (hall msg remaining kind hplace hkind)
      · refine iff_of_true (h.of_none (fun kind => ?_) rfl rfl) ?_
        · rw [J2735MsgObj.isFor, decide_eq_false fun hkind => hlisted ⟨kind, hkind⟩,
            Bool.false_and]
        · intro other _ kind hprocess hkind
          rw [hplace] at hprocess
          cases hprocess
          exact absurd ⟨kind, hkind⟩ hlisted
  | targets msg remaining kind hplace htarget =>
      obtain ⟨hdue, hkind⟩ := processTarget_eq_some_iff.mp htarget
      refine iff_of_true h fun other _ otherKind hprocess hother => ?_
      rw [hplace] at hprocess
      cases hprocess
      rwa [← ExternalKind.msgId_inj (hkind.symm.trans hother)]
  | puts kind msg remaining hplace hspace =>
      rw [hplace] at hprepared
      refine hother (fun other => ?_) (by simp [hplace])
      change (s.put (.external kind) ⟨msg.data, kind.msgId⟩).enqueued (.external other) =
        ((s.handled ++ [msg]).filter (·.isFor other)).map fun msg => ⟨msg.data, other.msgId⟩
      rw [List.filter_append, List.filter_singleton, isFor_of_msgId hprepared.2 hprepared.1]
      rcases eq_or_ne other kind with rfl | hne
      · rw [BroadcastState.put_enqueued_self, h other]
        simp
      · rw [BroadcastState.put_enqueued_of_ne s (by simpa using hne), h other]
        simp [hne]
  | putsOwn kind hplace hspace =>
      refine hother (fun other => ?_) (by simp [hplace])
      have hne : TibQueue.external other ≠ .own kind := by simp
      exact (s.put_enqueued_of_ne hne ⟨some (own kind), kind.msgId⟩).trans (h other)
  | loads hplace => exact hother h (by simp [hplace])
  | idles hplace => exact hother h (by simp [hplace])
  | loopEnds hplace => exact hother h (by simp [hplace])
  | misses remaining hplace => exact hother h (by simp [hplace])
  | fetches msg rest remaining hplace => exact hother h (by simp [hplace])
  | subtracts msg remaining hplace => exact hother h (by simp [hplace])
  | resets hplace => exact hother h (by simp [hplace])
  | branches kind _ _ _ p hplace => exact hother h (by simp [hplace])
  | increments hplace => exact hother h (by simp [hplace])

end AdaptiveSignal.Broadcast
