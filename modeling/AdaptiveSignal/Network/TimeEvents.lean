import AdaptiveSignal.Foundation.Run
import Mathlib.Algebra.Group.Int.Defs
import Mathlib.Data.List.Perm.Basic

/-! # Time events of the cloud connection

A client that disconnects leaves a time event that reports the loss of the cloud
five seconds later; accepting a client deletes the event whose id is kept in
`cloud_expired_id`. Only the callback of an event that fires stores its id there, so
the event that is still pending is never the one deleted.
-/

namespace AdaptiveSignal.Network

open Foundation

inductive TimeProc
  | onCloudDisconnected
  | timePrintCurTime
  deriving DecidableEq

/-- A second and a millisecond. -/
structure TimeStamp where
  sec : ℤ
  ms : ℤ
  deriving DecidableEq

structure TimeEvent where
  id : ℤ
  fires : TimeStamp
  timeProc : TimeProc
  deriving DecidableEq

def aeDeletedEventId : ℤ := -1

def aeAddMillisecondsToNow (milliseconds : ℤ) (now : TimeStamp) : TimeStamp :=
  let sec := now.sec + milliseconds / 1000
  let ms := now.ms + milliseconds % 1000
  if 1000 ≤ ms then ⟨sec + 1, ms - 1000⟩ else ⟨sec, ms⟩

def TimeEvent.isDue (te : TimeEvent) (now : TimeStamp) : Bool :=
  te.fires.sec < now.sec || now.sec = te.fires.sec && te.fires.ms ≤ now.ms

/-- What the clock event returns, `SEC_TO_MSEC(5)`. -/
def clockPeriod : ℤ := 640 * 5

/-- `long long` ids are kept in an `int32_t`. -/
def toInt32 (id : ℤ) : ℤ := (id + 2 ^ 31) % 2 ^ 32 - 2 ^ 31

/-- The server as far as the connection to the cloud is concerned. -/
structure CloudTimers where
  timeEvents : List TimeEvent
  timeEventNextId : ℤ
  lastTime : ℤ
  cloudExpiredId : ℤ
  /-- The cloud clients that are connected. -/
  clients : ℕ
  /-- The ids of the events that disconnects have created. -/
  created : List ℤ
  /-- The ids of the events that have reported the loss of the cloud. -/
  reported : List ℤ

inductive TimerAction
  /-- `conn_accept_TCP_handler` accepts a client. -/
  | accept
  /-- `conn_read_from_client_TCP` finds a client gone, at this time. -/
  | disconnect (now : TimeStamp)
  /-- `process_time_events` with the time it begins at, and what each reading of the
  clock in it yields. -/
  | round (now : ℤ) (clock : ℕ → TimeStamp)

namespace CloudTimers

/-- The events that `init_server` creates. -/
def initial (now : TimeStamp) : CloudTimers where
  timeEvents := [⟨1, aeAddMillisecondsToNow 3000 now, .timePrintCurTime⟩,
    ⟨0, aeAddMillisecondsToNow 500000 now, .onCloudDisconnected⟩]
  timeEventNextId := 2
  lastTime := now.sec
  cloudExpiredId := 0
  clients := 0
  created := []
  reported := []

def aeDeleteTimeEvent (id : ℤ) : List TimeEvent → List TimeEvent
  | [] => []
  | te :: rest =>
      if te.id = id then { te with id := aeDeletedEventId } :: rest
      else te :: aeDeleteTimeEvent id rest

/-- The events after a pass over them, and the ids of the reports on the way. -/
def visitTimeEvents (maxId : ℤ) (clock : ℕ → TimeStamp) :
    ℕ → List TimeEvent → List TimeEvent × List ℤ
  | _, [] => ([], [])
  | i, te :: rest =>
      let (later, fired) := visitTimeEvents maxId clock (i + 1) rest
      if te.id = aeDeletedEventId then (later, fired)
      else if maxId < te.id then (te :: later, fired)
      else if te.isDue (clock (2 * i)) then
        match te.timeProc with
        | .onCloudDisconnected => ({ te with id := aeDeletedEventId } :: later, te.id :: fired)
        | .timePrintCurTime =>
            ({ te with fires := aeAddMillisecondsToNow clockPeriod (clock (2 * i + 1)) } :: later,
              fired)
      else (te :: later, fired)

/-- The events that a round passes over: after the clock was set back all are due. -/
def overdue (s : CloudTimers) (now : ℤ) : List TimeEvent :=
  if now < s.lastTime then
    s.timeEvents.map fun te => { te with fires := { te.fires with sec := 0 } }
  else s.timeEvents

def processTimeEvents (s : CloudTimers) (now : ℤ) (clock : ℕ → TimeStamp) : CloudTimers :=
  let (later, fired) := visitTimeEvents (s.timeEventNextId - 1) clock 0 (s.overdue now)
  { s with
    timeEvents := later
    lastTime := now
    cloudExpiredId := fired.foldl (fun _ id => toInt32 id) s.cloudExpiredId
    reported := s.reported ++ fired }

def connAcceptTcpHandler (s : CloudTimers) : CloudTimers :=
  { s with
    timeEvents := aeDeleteTimeEvent s.cloudExpiredId s.timeEvents
    clients := s.clients + 1 }

def connReadFromClientTcp (s : CloudTimers) (now : TimeStamp) : CloudTimers :=
  if s.clients = 0 then s
  else
    { s with
      timeEvents := ⟨s.timeEventNextId, aeAddMillisecondsToNow 5000 now, .onCloudDisconnected⟩ ::
        s.timeEvents
      timeEventNextId := s.timeEventNextId + 1
      clients := s.clients - 1
      created := s.created ++ [s.timeEventNextId] }

def timerStep (s : CloudTimers) : TimerAction → CloudTimers
  | .accept => s.connAcceptTcpHandler
  | .disconnect now => s.connReadFromClientTcp now
  | .round now clock => s.processTimeEvents now clock

end CloudTimers

/-! ## Pending events -/

/-- The ids of the events that are still going to fire. -/
def pendingIds (timeEvents : List TimeEvent) : List ℤ :=
  (timeEvents.map TimeEvent.id).filter (· ≠ aeDeletedEventId)

theorem mem_pendingIds {timeEvents : List TimeEvent} {id : ℤ} :
    id ∈ pendingIds timeEvents ↔
      (∃ te ∈ timeEvents, te.id = id) ∧ id ≠ aeDeletedEventId := by
  simp [pendingIds]

@[simp] theorem pendingIds_nil : pendingIds [] = [] := rfl

@[simp] theorem pendingIds_cons (te : TimeEvent) (rest : List TimeEvent) :
    pendingIds (te :: rest) =
      if te.id = aeDeletedEventId then pendingIds rest else te.id :: pendingIds rest := by
  by_cases hdeleted : te.id = aeDeletedEventId <;> simp [pendingIds, hdeleted]

namespace CloudTimers

variable {s : CloudTimers} {timeEvents : List TimeEvent} {te : TimeEvent} {id : ℤ}

theorem pendingIds_delete (hid : id ≠ aeDeletedEventId) :
    pendingIds (aeDeleteTimeEvent id timeEvents) = (pendingIds timeEvents).erase id := by
  induction timeEvents with
  | nil => rfl
  | cons te rest ih =>
      rw [aeDeleteTimeEvent]
      by_cases hmatch : te.id = id
      · rw [if_pos hmatch, pendingIds_cons, pendingIds_cons, if_pos rfl, hmatch, if_neg hid,
          List.erase_cons_head]
      · rw [if_neg hmatch, pendingIds_cons, pendingIds_cons, ih]
        split_ifs with hdeleted
        · rfl
        · rw [List.erase_cons_tail (by simpa using hmatch)]

/-- An event with another id stays. -/
theorem mem_delete (hte : te ∈ timeEvents) (hne : te.id ≠ id) :
    te ∈ aeDeleteTimeEvent id timeEvents := by
  induction timeEvents with
  | nil => exact hte
  | cons first rest ih =>
      rw [aeDeleteTimeEvent]
      rcases List.mem_cons.mp hte with rfl | hrest
      · rw [if_neg hne]
        exact List.mem_cons_self
      · split_ifs
        · exact List.mem_cons_of_mem _ hrest
        · exact List.mem_cons_of_mem _ (ih hrest)

theorem delete_pending (hte : te ∈ aeDeleteTimeEvent id timeEvents)
    (hpending : te.id ≠ aeDeletedEventId) : te ∈ timeEvents := by
  induction timeEvents with
  | nil => exact hte
  | cons first rest ih =>
      rw [aeDeleteTimeEvent] at hte
      split_ifs at hte with hmatch
      · rcases List.mem_cons.mp hte with rfl | hrest
        · exact absurd rfl hpending
        · exact List.mem_cons_of_mem _ hrest
      · rcases List.mem_cons.mp hte with rfl | hrest
        · exact List.mem_cons_self
        · exact List.mem_cons_of_mem _ (ih hrest)

/-- The pass over the events takes the ids that fire once off the pending ones. -/
theorem visit_perm (maxId : ℤ) (clock : ℕ → TimeStamp) (i : ℕ) (timeEvents : List TimeEvent) :
    ((visitTimeEvents maxId clock i timeEvents).2 ++
      pendingIds (visitTimeEvents maxId clock i timeEvents).1).Perm (pendingIds timeEvents) := by
  induction timeEvents generalizing i with
  | nil => exact List.Perm.nil
  | cons te rest ih =>
      have hrest := ih (i + 1)
      -- An event that stays stands behind the ids that fire later.
      have hkeeps : ((visitTimeEvents maxId clock (i + 1) rest).2 ++
          te.id :: pendingIds (visitTimeEvents maxId clock (i + 1) rest).1).Perm
          (te.id :: pendingIds rest) :=
        List.perm_middle.trans (hrest.cons te.id)
      simp only [visitTimeEvents]
      by_cases hdeleted : te.id = aeDeletedEventId
      · rw [if_pos hdeleted, pendingIds_cons, if_pos hdeleted]
        exact hrest
      · rw [if_neg hdeleted, pendingIds_cons te rest, if_neg hdeleted]
        split_ifs with hlater hdue
        · simpa only [pendingIds_cons, if_neg hdeleted] using hkeeps
        · cases te.timeProc with
          | onCloudDisconnected =>
              simp only [pendingIds_cons, if_pos, List.cons_append]
              exact hrest.cons te.id
          | timePrintCurTime => simpa only [pendingIds_cons, if_neg hdeleted] using hkeeps
        · simpa only [pendingIds_cons, if_neg hdeleted] using hkeeps

/-- What is pending after the pass was pending before, for the same callback. -/
theorem visit_mem {maxId : ℤ} {clock : ℕ → TimeStamp} {i : ℕ}
    (hte : te ∈ (visitTimeEvents maxId clock i timeEvents).1)
    (hpending : te.id ≠ aeDeletedEventId) :
    ∃ before ∈ timeEvents, before.id = te.id ∧ before.timeProc = te.timeProc := by
  induction timeEvents generalizing i with
  | nil => exact absurd hte List.not_mem_nil
  | cons first rest ih =>
      have hlater (hrest : te ∈ (visitTimeEvents maxId clock (i + 1) rest).1) :
          ∃ before ∈ first :: rest, before.id = te.id ∧ before.timeProc = te.timeProc := by
        obtain ⟨before, hbefore, hsame⟩ := ih hrest
        exact ⟨before, List.mem_cons_of_mem first hbefore, hsame⟩
      simp only [visitTimeEvents] at hte
      split_ifs at hte with hdeleted hmax hdue
      · exact hlater hte
      · rcases List.mem_cons.mp hte with rfl | hrest
        · exact ⟨te, List.mem_cons_self, rfl, rfl⟩
        · exact hlater hrest
      · cases hproc : first.timeProc with
        | onCloudDisconnected =>
            simp only [hproc] at hte
            rcases List.mem_cons.mp hte with rfl | hrest
            · exact absurd rfl hpending
            · exact hlater hrest
        | timePrintCurTime =>
            simp only [hproc] at hte
            rcases List.mem_cons.mp hte with rfl | hrest
            · exact ⟨first, List.mem_cons_self, rfl, hproc⟩
            · exact hlater hrest
      · rcases List.mem_cons.mp hte with rfl | hrest
        · exact ⟨te, List.mem_cons_self, rfl, rfl⟩
        · exact hlater hrest

/-- Only reports of the loss of the cloud are put out. -/
theorem visit_fired {maxId : ℤ} {clock : ℕ → TimeStamp} {i : ℕ}
    (hid : id ∈ (visitTimeEvents maxId clock i timeEvents).2) :
    ∃ te ∈ timeEvents, te.id = id ∧ te.timeProc = .onCloudDisconnected := by
  induction timeEvents generalizing i with
  | nil => exact absurd hid List.not_mem_nil
  | cons first rest ih =>
      have hlater (hrest : id ∈ (visitTimeEvents maxId clock (i + 1) rest).2) :
          ∃ te ∈ first :: rest, te.id = id ∧ te.timeProc = .onCloudDisconnected := by
        obtain ⟨te, hte, hsame⟩ := ih hrest
        exact ⟨te, List.mem_cons_of_mem first hte, hsame⟩
      simp only [visitTimeEvents] at hid
      split_ifs at hid with hdeleted hmax hdue
      · exact hlater hid
      · exact hlater hid
      · cases hproc : first.timeProc with
        | onCloudDisconnected =>
            simp only [hproc] at hid
            rcases List.mem_cons.mp hid with rfl | hrest
            · exact ⟨first, List.mem_cons_self, rfl, hproc⟩
            · exact hlater hrest
        | timePrintCurTime =>
            simp only [hproc] at hid
            exact hlater hid
      · exact hlater hid

theorem overdue_pendingIds (s : CloudTimers) (now : ℤ) :
    pendingIds (s.overdue now) = pendingIds s.timeEvents := by
  unfold overdue pendingIds
  split_ifs
  · rw [List.map_map]
    rfl
  · rfl

theorem overdue_mem {now : ℤ} (hte : te ∈ s.overdue now) :
    ∃ before ∈ s.timeEvents, before.id = te.id ∧ before.timeProc = te.timeProc := by
  unfold overdue at hte
  split_ifs at hte
  · obtain ⟨before, hbefore, rfl⟩ := List.mem_map.mp hte
    exact ⟨before, hbefore, rfl, rfl⟩
  · exact ⟨te, hte, rfl, rfl⟩

/-- The reports that a round makes. -/
def fired (s : CloudTimers) (now : ℤ) (clock : ℕ → TimeStamp) : List ℤ :=
  (visitTimeEvents (s.timeEventNextId - 1) clock 0 (s.overdue now)).2

theorem round_perm (s : CloudTimers) (now : ℤ) (clock : ℕ → TimeStamp) :
    (s.fired now clock ++ pendingIds (s.processTimeEvents now clock).timeEvents).Perm
      (pendingIds s.timeEvents) := by
  rw [← overdue_pendingIds s now]
  exact visit_perm _ clock 0 (s.overdue now)

/-! ## The id in `cloud_expired_id` -/

/-- The event is the notice of the start, the clock, or the notice of a disconnect. -/
def Known (created : List ℤ) (te : TimeEvent) : Prop :=
  te.id = 0 ∧ te.timeProc = .onCloudDisconnected ∨ te.id = 1 ∧ te.timeProc = .timePrintCurTime ∨
    te.id ∈ created ∧ te.timeProc = .onCloudDisconnected

/-- The ids of pending events differ, and `cloud_expired_id` holds that of none of
them, but for the notice of the start while nobody has connected. -/
structure Tracked (s : CloudTimers) : Prop where
  nodup : (pendingIds s.timeEvents).Nodup
  known : ∀ te ∈ s.timeEvents, te.id ≠ aeDeletedEventId → Known s.created te
  created : ∀ id ∈ s.created, 2 ≤ id ∧ id < s.timeEventNextId
  nextId : 2 ≤ s.timeEventNextId ∧ s.timeEventNextId ≤ 2 ^ 31
  expired : s.cloudExpiredId = 0 ∨
    s.cloudExpiredId ∈ s.created ∧ s.cloudExpiredId ∉ pendingIds s.timeEvents
  start : s.clients ≠ 0 ∨ s.created ≠ [] → 0 ∉ pendingIds s.timeEvents

theorem tracked_initial (now : TimeStamp) : Tracked (initial now) where
  nodup := by simp [initial, aeDeletedEventId]
  known := by
    intro te hte _
    simp only [initial, List.mem_cons, List.not_mem_nil, or_false] at hte
    rcases hte with rfl | rfl
    · exact Or.inr (Or.inl ⟨rfl, rfl⟩)
    · exact Or.inl ⟨rfl, rfl⟩
  created := fun id hid => absurd hid List.not_mem_nil
  nextId := by simp [initial]
  expired := Or.inl rfl
  start := by simp [initial]

theorem Tracked.known_pending (h : Tracked s) (hid : id ∈ pendingIds s.timeEvents) :
    id = 0 ∨ id = 1 ∨ id ∈ s.created := by
  obtain ⟨⟨te, hte, rfl⟩, hpending⟩ := mem_pendingIds.mp hid
  rcases h.known te hte hpending with ⟨hzero, -⟩ | ⟨hone, -⟩ | ⟨hcreated, -⟩
  · exact Or.inl hzero
  · exact Or.inr (Or.inl hone)
  · exact Or.inr (Or.inr hcreated)

theorem Tracked.expired_ne (h : Tracked s) :
    s.cloudExpiredId ≠ aeDeletedEventId ∧ s.cloudExpiredId ≠ 1 := by
  have hdeleted : aeDeletedEventId = -1 := rfl
  rcases h.expired with hzero | ⟨hcreated, -⟩
  · omega
  · have hbound := (h.created _ hcreated).1
    omega

theorem Tracked.accept (h : Tracked s) : Tracked s.connAcceptTcpHandler where
  nodup := by
    rw [connAcceptTcpHandler, pendingIds_delete h.expired_ne.1]
    exact h.nodup.erase _
  known te hte hpending := h.known te (delete_pending hte hpending) hpending
  created := h.created
  nextId := h.nextId
  expired := by
    refine h.expired.imp_right fun ⟨hcreated, hnot⟩ => ⟨hcreated, fun hmem => hnot ?_⟩
    rw [connAcceptTcpHandler, pendingIds_delete h.expired_ne.1] at hmem
    exact List.mem_of_mem_erase hmem
  start := by
    intro _ hmem
    rw [connAcceptTcpHandler, pendingIds_delete h.expired_ne.1] at hmem
    have hpending := List.mem_of_mem_erase hmem
    -- The notice of the start is the one deleted when nobody has disconnected yet.
    rcases h.expired with hzero | ⟨hcreated, -⟩
    · rw [hzero] at hmem
      exact h.nodup.not_mem_erase hmem
    · exact h.start (Or.inr (List.ne_nil_of_mem hcreated)) hpending

theorem Tracked.disconnect (h : Tracked s) (hfits : s.timeEventNextId < 2 ^ 31)
    (now : TimeStamp) : Tracked (s.connReadFromClientTcp now) := by
  unfold connReadFromClientTcp
  split_ifs with hclients
  · exact h
  · have hnext := h.nextId.1
    have hdeleted : s.timeEventNextId ≠ aeDeletedEventId := by
      unfold aeDeletedEventId
      omega
    -- The counter has passed every id that was given out.
    have hfresh : s.timeEventNextId ∉ pendingIds s.timeEvents := by
      intro hmem
      rcases h.known_pending hmem with hzero | hone | hcreated
      · omega
      · omega
      · exact absurd (h.created _ hcreated).2 (Int.lt_irrefl _)
    refine ⟨?_, ?_, ?_, ?_, ?_, fun _ => ?_⟩
    · rw [pendingIds_cons, if_neg hdeleted]
      exact List.nodup_cons.mpr ⟨hfresh, h.nodup⟩
    · intro te hte hpending
      rcases List.mem_cons.mp hte with rfl | hold
      · exact Or.inr (Or.inr ⟨List.mem_append_right _ List.mem_cons_self, rfl⟩)
      · exact (h.known te hold hpending).imp_right fun hrest =>
          hrest.imp_right fun ⟨hcreated, hproc⟩ => ⟨List.mem_append_left _ hcreated, hproc⟩
    · intro id hid
      rcases List.mem_append.mp hid with hold | hnew
      · exact ⟨(h.created id hold).1, Int.lt_trans (h.created id hold).2 (Int.lt_succ _)⟩
      · rw [List.mem_singleton.mp hnew]
        exact ⟨hnext, Int.lt_succ _⟩
    · exact ⟨Int.le_trans hnext (Int.le_of_lt (Int.lt_succ _)), hfits⟩
    · refine h.expired.imp_right fun ⟨hcreated, hnot⟩ => ⟨List.mem_append_left _ hcreated, ?_⟩
      rw [pendingIds_cons, if_neg hdeleted]
      have hbound := (h.created _ hcreated).2
      exact List.not_mem_cons_of_ne_of_not_mem (Int.ne_of_lt hbound) hnot
    · rw [pendingIds_cons, if_neg hdeleted]
      have hzero : (0 : ℤ) ≠ s.timeEventNextId := by omega
      exact List.not_mem_cons_of_ne_of_not_mem hzero (h.start (Or.inl hclients))

theorem foldl_toInt32 (ids : List ℤ) (start : ℤ) :
    ids.foldl (fun _ id => toInt32 id) start = start ∨
      ∃ id ∈ ids, ids.foldl (fun _ id => toInt32 id) start = toInt32 id := by
  induction ids generalizing start with
  | nil => exact Or.inl rfl
  | cons first rest ih =>
      rcases ih (toInt32 first) with hfirst | ⟨id, hid, hlast⟩
      · exact Or.inr ⟨first, List.mem_cons_self, hfirst⟩
      · exact Or.inr ⟨id, List.mem_cons_of_mem first hid, hlast⟩

theorem Tracked.round (h : Tracked s) (now : ℤ) (clock : ℕ → TimeStamp) :
    Tracked (s.processTimeEvents now clock) := by
  have hperm := round_perm s now clock
  have hnodup := (hperm.nodup_iff.mpr h.nodup)
  have hsubset (id : ℤ) (hid : id ∈ pendingIds (s.processTimeEvents now clock).timeEvents) :
      id ∈ pendingIds s.timeEvents :=
    hperm.subset (List.mem_append_right _ hid)
  refine ⟨(List.nodup_append.mp hnodup).2.1, ?_, h.created, h.nextId, ?_, ?_⟩
  · intro te hte hpending
    obtain ⟨middle, hmiddle, hid, hproc⟩ := visit_mem hte hpending
    obtain ⟨before, hbefore, hidBefore, hprocBefore⟩ := overdue_mem hmiddle
    have hknown := h.known before hbefore (by rwa [hidBefore, hid])
    rwa [Known, hidBefore, hprocBefore, hid, hproc] at hknown
  · have hstored : (s.processTimeEvents now clock).cloudExpiredId = s.cloudExpiredId ∨
        ∃ id ∈ s.fired now clock,
          (s.processTimeEvents now clock).cloudExpiredId = toInt32 id :=
      foldl_toInt32 _ _
    rcases hstored with hsame | ⟨id, hid, hlast⟩
    · rw [hsame]
      exact h.expired.imp_right fun ⟨hcreated, hnot⟩ => ⟨hcreated, fun hmem =>
        hnot (hsubset _ hmem)⟩
    · have hpending : id ∈ pendingIds s.timeEvents :=
        hperm.subset (List.mem_append_left _ hid)
      -- What fires leaves the list, so the id it stores is that of no pending event.
      have hgone : id ∉ pendingIds (s.processTimeEvents now clock).timeEvents := fun hmem =>
        (List.nodup_append.mp hnodup).2.2 id hid id hmem rfl
      obtain ⟨te, hte, rfl, hproc⟩ := visit_fired hid
      obtain ⟨before, hbefore, hidBefore, hprocBefore⟩ := overdue_mem hte
      rw [← hidBefore] at hpending hgone hlast
      rcases h.known before hbefore (mem_pendingIds.mp hpending).2 with
        ⟨hzero, -⟩ | ⟨-, hclock⟩ | ⟨hcreated, -⟩
      · rw [hzero] at hlast
        exact Or.inl hlast
      · rw [hprocBefore, hproc] at hclock
        cases hclock
      · have hbound := h.created _ hcreated
        have hnext := h.nextId.2
        have hexact : toInt32 before.id = before.id := by
          unfold toInt32
          omega
        rw [hlast, hexact]
        exact Or.inr ⟨hcreated, hgone⟩
  · exact fun hsome hmem => h.start hsome (hsubset 0 hmem)

/-! ## Reconnections -/

/-- No notice of a disconnect is pending. -/
def NoNotice (s : CloudTimers) : Prop :=
  ∀ id ∈ s.created, id ∉ pendingIds s.timeEvents

/-- What accepting a client in this state does: every pending notice of an earlier
disconnect is cancelled, and no other event is, but for the notice of the start
when the first client connects. -/
structure Cancels (s : CloudTimers) : Prop where
  notices : s.connAcceptTcpHandler.NoNotice
  others : ∀ te ∈ s.timeEvents, te.id ≠ aeDeletedEventId → te.id ∉ s.created →
    te ∈ s.connAcceptTcpHandler.timeEvents ∨
      s.created = [] ∧ te.timeProc = .onCloudDisconnected

theorem Tracked.cancels_iff (h : Tracked s) : s.Cancels ↔ s.NoNotice := by
  have hpendingIds : pendingIds s.connAcceptTcpHandler.timeEvents =
      (pendingIds s.timeEvents).erase s.cloudExpiredId := pendingIds_delete h.expired_ne.1
  constructor
  · intro hcancels id hcreated hpending
    have hgone := hcancels.notices id hcreated
    rw [hpendingIds, List.mem_erase_of_ne] at hgone
    · exact hgone hpending
    · rintro rfl
      rcases h.expired with hzero | ⟨-, hnot⟩
      · have hbound := (h.created _ hcreated).1
        omega
      · exact hnot hpending
  · intro hnone
    refine ⟨fun id hcreated hpending => ?_, fun te hte hpending hother => ?_⟩
    · rw [hpendingIds] at hpending
      exact hnone id hcreated (List.mem_of_mem_erase hpending)
    -- Only the notice of the start can be stored in vain, as nobody has disconnected.
    · by_cases hstored : te.id = s.cloudExpiredId
      · have hzero : s.cloudExpiredId = 0 :=
          h.expired.resolve_right fun ⟨hcreated, _⟩ => hother (hstored ▸ hcreated)
        have hmem : (0 : ℤ) ∈ pendingIds s.timeEvents :=
          mem_pendingIds.mpr ⟨⟨te, hte, hstored.trans hzero⟩, by decide⟩
        refine Or.inr ⟨?_, ?_⟩
        · by_contra hsome
          exact h.start (Or.inr hsome) hmem
        · rcases h.known te hte hpending with ⟨-, hproc⟩ | ⟨hone, -⟩ | ⟨hcreated, -⟩
          · exact hproc
          · exact absurd (hstored.symm.trans hone) h.expired_ne.2
          · exact absurd hcreated hother
      · exact Or.inl (mem_delete hte hstored)

/-- The id was given to an event that is no longer pending, and what it has reported
it reported before. -/
structure Spent (id : ℤ) (before : List ℤ) (s : CloudTimers) : Prop where
  old : id < s.timeEventNextId
  gone : id ∉ pendingIds s.timeEvents
  reported : id ∈ s.reported → id ∈ before

theorem Spent.step {before : List ℤ} (h : Spent id before s) (hs : Tracked s)
    (action : TimerAction) : Spent id before (timerStep s action) := by
  cases action with
  | accept =>
      refine ⟨h.old, fun hmem => h.gone ?_, h.reported⟩
      rw [timerStep, connAcceptTcpHandler, pendingIds_delete hs.expired_ne.1] at hmem
      exact List.mem_of_mem_erase hmem
  | disconnect now =>
      simp only [timerStep, connReadFromClientTcp]
      split_ifs
      · exact h
      · refine ⟨Int.lt_trans h.old (Int.lt_succ _), ?_, h.reported⟩
        rw [pendingIds_cons]
        split_ifs
        · exact h.gone
        · exact List.not_mem_cons_of_ne_of_not_mem (Int.ne_of_lt h.old) h.gone
  | round now clock =>
      have hperm := round_perm s now clock
      refine ⟨h.old, fun hmem => ?_, fun hmem => ?_⟩
      · exact h.gone (hperm.subset (List.mem_append_right _ hmem))
      · rcases List.mem_append.mp hmem with hbefore | hnow
        · exact h.reported hbefore
        · exact absurd (hperm.subset (List.mem_append_left _ hnow)) h.gone

/-- So few events are created that their ids fit `cloud_expired_id`. -/
def IdsFit (s : CloudTimers) : TimerAction → Prop
  | .disconnect _ => s.timeEventNextId < 2 ^ 31
  | _ => True

theorem Tracked.step (h : Tracked s) {action : TimerAction} (hfits : IdsFit s action) :
    Tracked (timerStep s action) := by
  cases action with
  | accept => exact h.accept
  | disconnect now => exact h.disconnect hfits now
  | round now clock => exact h.round now clock

/-- At each accept the notices of earlier disconnects are cancelled, and no other
event is; and no disconnect before it is reported after it. -/
def ReconnectsCancel (s : CloudTimers) (actions : List TimerAction) : Prop :=
  ∀ before after, actions = before ++ .accept :: after →
    (run timerStep s before).Cancels ∧
      ∀ id ∈ (run timerStep s before).created,
        id ∈ (run timerStep s actions).reported → id ∈ (run timerStep s before).reported

/-- No notice of a disconnect is pending when a client is accepted. -/
def NoNoticeAtAccept (s : CloudTimers) : TimerAction → Prop
  | .accept => s.NoNotice
  | _ => True

/-- While the ids fit, the reconnections of a run cancel what they are to cancel exactly
if each of them comes when no notice is pending. -/
theorem reconnectsCancel_iff (now : TimeStamp) (actions : List TimerAction)
    (hfits : Guarded timerStep IdsFit (initial now) actions) :
    ReconnectsCancel (initial now) actions ↔
      Guarded timerStep NoNoticeAtAccept (initial now) actions := by
  have htracked {first rest : List TimerAction} (hsplit : actions = first ++ rest) :
      Tracked (run timerStep (initial now) first) := by
    rw [hsplit] at hfits
    exact (Guarded.append.mp hfits).1.invariant Tracked (tracked_initial now)
      fun _ _ h hok => h.step hok
  rw [guarded_iff_steps]
  constructor
  · intro hcancel first last hprefix
    obtain ⟨rest, hrest⟩ := hprefix
    cases last with
    | accept =>
        rw [List.append_assoc] at hrest
        exact (htracked hrest.symm).cancels_iff.mp (hcancel first rest hrest.symm).1
    | disconnect => trivial
    | round => trivial
  · rintro hguard before after rfl
    have hs := htracked rfl
    have hnone : (run timerStep (initial now) before).NoNotice :=
      hguard before .accept (by simp)
    have hcancels := hs.cancels_iff.mpr hnone
    refine ⟨hcancels, fun id hcreated hreported => ?_⟩
    rw [run_append, run_cons] at hreported
    have hlater : Guarded timerStep IdsFit
        (timerStep (run timerStep (initial now) before) .accept) after :=
      (Guarded.append.mp hfits).2.2
    have hspent := hlater.invariant
      (fun s' => Tracked s' ∧ Spent id (run timerStep (initial now) before).reported s')
      ⟨hs.accept, (hs.created id hcreated).2, hcancels.notices id hcreated, fun hmem => hmem⟩
      fun _ action h hok => ⟨h.1.step hok, h.2.step h.1 action⟩
    exact hspent.2.reported hreported

/-- The cloud is lost at second 10 and back at once; five seconds later the loss is
reported all the same. -/
def quickReconnect : List TimerAction :=
  [.accept, .disconnect ⟨10, 0⟩, .accept, .round 15 fun _ => ⟨15, 0⟩]

theorem lost_after_reconnect :
    (run timerStep (initial ⟨0, 0⟩) quickReconnect).reported = [2] ∧
      (run timerStep (initial ⟨0, 0⟩) quickReconnect).clients = 1 ∧
      ¬ ReconnectsCancel (initial ⟨0, 0⟩) quickReconnect := by
  have hreported : (run timerStep (initial ⟨0, 0⟩) quickReconnect).reported = [2] := by decide
  refine ⟨hreported, by decide, fun hcancel => ?_⟩
  have hbefore := (hcancel [.accept, .disconnect ⟨10, 0⟩] _ rfl).2 2 (by decide)
    (by rw [hreported]; exact List.mem_cons_self)
  exact absurd hbefore (by decide)

/-- A reconnection after the loss was reported: nothing is left to cancel. -/
theorem lateReconnect_cancels :
    ReconnectsCancel (initial ⟨0, 0⟩)
      [.accept, .disconnect ⟨10, 0⟩, .round 15 fun _ => ⟨15, 0⟩, .accept] := by
  apply (reconnectsCancel_iff ⟨0, 0⟩ _ ?_).mpr
  · refine ⟨?_, trivial, trivial, ?_, trivial⟩
    · exact fun id hid => absurd hid List.not_mem_nil
    · unfold NoNoticeAtAccept NoNotice
      decide
  · refine ⟨trivial, ?_, trivial, trivial, trivial⟩
    unfold IdsFit
    decide

end CloudTimers

end AdaptiveSignal.Network
