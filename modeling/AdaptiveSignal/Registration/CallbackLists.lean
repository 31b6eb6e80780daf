import AdaptiveSignal.Foundation.Run
import AdaptiveSignal.Foundation.StableOrder
import Mathlib.Data.UInt
import Mathlib.Logic.Function.Basic

/-! # Registration of applications

An application is put on the list of applications and each of its handlers on the
callback list of its event; further handlers are registered for single kinds of
messages. A callback list is kept by priority. The list of applications reports its
first insertion with a variable that was never set.
-/

namespace AdaptiveSignal.Registration

open Foundation

inductive EventType
  | obuPacketRx
  | obuPacketTx
  | rsuPacketRx
  | rsuPacketTx
  | cloudPacketRx
  | cloudPacketTx
  | trafficSignalCommandTx
  | cameraPacketRx
  | registration
  | pedestrianPacketRx
  | middlewareRestart
  deriving DecidableEq

/-- The handlers that `app_register` looks at, in its order. -/
def registeredEvents : List EventType :=
  [.obuPacketRx, .obuPacketTx, .rsuPacketRx, .rsuPacketTx, .cloudPacketRx, .cloudPacketTx,
    .cameraPacketRx, .pedestrianPacketRx, .trafficSignalCommandTx, .registration]

/-- The characters of a name, without the terminating zero. -/
abbrev AppName := List Char

def appNameMaxLen : ℕ := 10

/-- `strncmp(a, b, APP_NAME_MAX_LEN) == 0`. -/
def sameName (a b : AppName) : Bool :=
  a.take appNameMaxLen = b.take appNameMaxLen

variable {Handler : Type*}

/-- An application; a handler may be missing. -/
structure AppObj (Handler : Type*) where
  name : AppName
  id : UInt8
  priority : UInt8
  handler : EventType → Option Handler

/-- What a callback is registered for. -/
inductive EventCallbackId
  | app (id : UInt8)
  | msg (id : ℕ)
  deriving DecidableEq

structure EventCallback (Handler : Type*) where
  name : AppName
  eventCallbackId : EventCallbackId
  priority : UInt8
  callback : Handler
  appObj : AppObj Handler

/-- The callback lists are in the order of this number. -/
def EventCallback.rank (c : EventCallback Handler) : ℕ := c.priority.toNat

/-- Return codes of `app_register`. -/
def appRegisterAccept : ℤ := 0
def appRegisterInvalidAppName : ℤ := -1
def appRegisterInvalidAppId : ℤ := -2
def appRegisterInvalidAppPriority : ℤ := -3
def appRegisterDuplicateAppName : ℤ := -4
def appRegisterDuplicateAppId : ℤ := -5

structure Registry (Handler : Type*) where
  appList : List (AppObj Handler)
  appNum : UInt8
  callbackList : EventType → List (EventCallback Handler)
  /-- The process has ended in `event_callback_new`. -/
  exited : Bool
  /-- The applications that `app_register` accepted, in order. -/
  accepted : List (AppObj Handler)
  /-- What was registered for an event, in order. -/
  registered : EventType → List (EventCallback Handler)

inductive RegistryCall (Handler : Type*)
  /-- `app_register`; `ret` is what lies in the variable of that name. -/
  | appRegister (ret : ℤ) (app : AppObj Handler)
  /-- `event_callback_msg_id_insert`. -/
  | msgIdInsert (event : EventType) (name : AppName) (priority : ℤ) (msgId : ℕ)
      (callback : Handler)

namespace Registry

def initial : Registry Handler where
  appList := []
  appNum := 0
  callbackList := fun _ => []
  exited := false
  accepted := []
  registered := fun _ => []

def getAppObjByAppName (apps : List (AppObj Handler)) (name : AppName) :
    Option (AppObj Handler) :=
  if name = [] then none else apps.find? fun app => sameName app.name name

/-- An `int` as a `uint8_t`. -/
def toUInt8 (n : ℤ) : UInt8 := UInt8.ofNat (n % 256).toNat

/-- A new node, unless no application has the name. -/
def eventCallbackNew (apps : List (AppObj Handler)) (name : AppName) (priority : ℤ)
    (id : EventCallbackId) (callback : Handler) : Option (EventCallback Handler) :=
  (getAppObjByAppName apps name).map fun app =>
    { name := name.take appNameMaxLen, eventCallbackId := id, priority := toUInt8 priority,
      callback, appObj := app }

/-- The list after the walk of `event_callback_msg_id_insert`. -/
def insertByPriority (priority : ℤ) (new : EventCallback Handler) :
    List (EventCallback Handler) → List (EventCallback Handler)
  | [] => [new]
  | current :: rest =>
      if priority < current.priority.toNat then new :: current :: rest
      else current :: insertByPriority priority new rest

/-- The list after the walk of `event_callback_insert`, which makes the node only where
it inserts it. -/
def insertApp (app : AppObj Handler) (new : Option (EventCallback Handler)) :
    List (EventCallback Handler) → Option (List (EventCallback Handler))
  | [] => new.map fun new => [new]
  | current :: rest =>
      if current.eventCallbackId = .app app.id then some (current :: rest)
      else if app.priority < current.priority then new.map fun new => new :: current :: rest
      else (insertApp app new rest).map (current :: ·)

/-- `event_callback_insert` for the handler of an event, if the application has one. -/
def eventCallbackInsert (app : AppObj Handler) (s : Registry Handler) (event : EventType) :
    Registry Handler :=
  match app.handler event with
  | none => s
  | some callback =>
      let new := eventCallbackNew s.appList app.name app.priority.toNat (.app app.id) callback
      match insertApp app new (s.callbackList event) with
      | none => { s with exited := true }
      | some callbacks =>
          { s with
            callbackList := Function.update s.callbackList event callbacks
            registered := Function.update s.registered event
              (s.registered event ++ new.toList) }

/-- The walk of `app_obj_insert` over the nodes from the first on: its result and the list. -/
def appObjInsertFrom (app : AppObj Handler) :
    UInt8 → List (AppObj Handler) → ℤ × List (AppObj Handler)
  | num, [] => (num.toNat, [app])
  | num, current :: rest =>
      if sameName current.name app.name then (appRegisterDuplicateAppName, current :: rest)
      else if current.id = app.id then (appRegisterDuplicateAppId, current :: rest)
      else
        let (ret, apps) := appObjInsertFrom app (num + 1) rest
        (ret, current :: apps)

def appObjInsert (ret : ℤ) (app : AppObj Handler) :
    List (AppObj Handler) → ℤ × List (AppObj Handler)
  -- The empty list is left without an assignment to `ret`.
  | [] => (ret, [app])
  | current :: rest => appObjInsertFrom app 0 (current :: rest)

def appRegister (s : Registry Handler) (ret : ℤ) (app : AppObj Handler) : ℤ × Registry Handler :=
  if app.name = [] then (appRegisterInvalidAppName, s)
  else if app.id = 0 then (appRegisterInvalidAppId, s)
  else if app.priority = 0 then (appRegisterInvalidAppPriority, s)
  else
    let (ret, apps) := appObjInsert ret app s.appList
    if ret < 0 then (ret, { s with appList := apps })
    else
      (appRegisterAccept,
        registeredEvents.foldl (eventCallbackInsert app)
          { s with
            appList := apps
            appNum := toUInt8 (ret + 1)
            accepted := s.accepted ++ [app] })

def eventCallbackMsgIdInsert (s : Registry Handler) (event : EventType) (name : AppName)
    (priority : ℤ) (msgId : ℕ) (callback : Handler) : Registry Handler :=
  match eventCallbackNew s.appList name priority (.msg msgId) callback with
  | none => { s with exited := true }
  | some new =>
      { s with
        callbackList := Function.update s.callbackList event
          (insertByPriority priority new (s.callbackList event))
        registered := Function.update s.registered event (s.registered event ++ [new]) }

def step (s : Registry Handler) : RegistryCall Handler → Registry Handler
  | .appRegister ret app => if s.exited then s else (s.appRegister ret app).2
  | .msgIdInsert event name priority msgId callback =>
      if s.exited then s else s.eventCallbackMsgIdInsert event name priority msgId callback

end Registry

/-! ## One insertion -/

/-- The callback of an application for an event. -/
def AppObj.entry (app : AppObj Handler) (event : EventType) : Option (EventCallback Handler) :=
  (app.handler event).map fun callback =>
    { name := app.name.take appNameMaxLen, eventCallbackId := .app app.id,
      priority := app.priority, callback, appObj := app }

/-- Two applications that can both be registered. -/
def Compatible (a b : AppObj Handler) : Prop :=
  sameName a.name b.name = false ∧ a.id ≠ b.id

/-- What `app_register` checks of the application alone. -/
structure Valid (app : AppObj Handler) : Prop where
  name : app.name ≠ []
  id : app.id ≠ 0
  priority : app.priority ≠ 0

namespace Registry

variable {app : AppObj Handler} {apps : List (AppObj Handler)}
  {callbacks : List (EventCallback Handler)} {s : Registry Handler}

theorem toUInt8_toNat (n : UInt8) : toUInt8 n.toNat = n := by
  have hlt := n.toNat_lt
  have hmod : ((n.toNat : ℤ) % 256).toNat = n.toNat := by omega
  rw [toUInt8, hmod, UInt8.ofNat_toNat]

theorem toNat_toUInt8 {n : ℤ} (hn : 0 ≤ n ∧ n ≤ 255) : ((toUInt8 n).toNat : ℤ) = n := by
  rw [toUInt8, UInt8.toNat_ofNat']
  omega

theorem insertByPriority_eq {priority : ℤ} {new : EventCallback Handler}
    (hpriority : (new.rank : ℤ) = priority) :
    insertByPriority priority new callbacks = insertStable EventCallback.rank new callbacks := by
  induction callbacks with
  | nil => rfl
  | cons current rest ih =>
      have hiff : priority < current.priority.toNat ↔ new.rank < current.rank := by
        rw [← hpriority]
        exact Int.ofNat_lt
      rw [insertByPriority, insertStable_cons, ih]
      simp only [hiff]

theorem insertApp_eq {new : EventCallback Handler} (hpriority : new.priority = app.priority)
    (hfresh : ∀ current ∈ callbacks, current.eventCallbackId ≠ .app app.id) :
    insertApp app (some new) callbacks = some (insertStable EventCallback.rank new callbacks) := by
  induction callbacks with
  | nil => rfl
  | cons current rest ih =>
      obtain ⟨hcurrent, hrest⟩ := List.forall_mem_cons.mp hfresh
      have hiff : app.priority < current.priority ↔ new.rank < current.rank := by
        rw [← hpriority]
        exact UInt8.lt_iff_toNat_lt
      rw [insertApp, if_neg hcurrent, ih hrest, insertStable_cons]
      simp only [hiff]
      split_ifs <;> rfl

/-- An application that nothing on the list is incompatible with goes to its end. -/
theorem appObjInsertFrom_eq (num : UInt8) (hfresh : ∀ other ∈ apps, Compatible other app) :
    appObjInsertFrom app num apps =
      (((num + UInt8.ofNat apps.length).toNat : ℤ), apps ++ [app]) := by
  induction apps generalizing num with
  | nil => simp [appObjInsertFrom]
  | cons current rest ih =>
      obtain ⟨⟨hname, hid⟩, hrest⟩ := List.forall_mem_cons.mp hfresh
      rw [appObjInsertFrom, if_neg (by simp [hname]), if_neg hid, ih (num + 1) hrest]
      have hlength : num + 1 + UInt8.ofNat rest.length =
          num + UInt8.ofNat (current :: rest).length := by
        rw [List.length_cons, UInt8.ofNat_add, UInt8.add_assoc, UInt8.add_comm 1]
        rfl
      rw [hlength]
      rfl

/-- One that something is incompatible with is refused and not inserted. -/
theorem appObjInsertFrom_refused (num : UInt8)
    (hclash : ∃ other ∈ apps, ¬ Compatible other app) :
    (appObjInsertFrom app num apps).1 < 0 ∧ (appObjInsertFrom app num apps).2 = apps := by
  induction apps generalizing num with
  | nil => simp at hclash
  | cons current rest ih =>
      rw [appObjInsertFrom]
      split_ifs with hname hid
      · exact ⟨by simp [appRegisterDuplicateAppName], rfl⟩
      · exact ⟨by simp [appRegisterDuplicateAppId], rfl⟩
      · obtain ⟨other, hother, hincompatible⟩ := hclash
        have hlater : ∃ other ∈ rest, ¬ Compatible other app := by
          rcases List.mem_cons.mp hother with rfl | hrest
          · exact absurd ⟨by simpa using hname, hid⟩ hincompatible
          · exact ⟨other, hrest, hincompatible⟩
        obtain ⟨hret, hlist⟩ := ih (num + 1) hlater
        exact ⟨hret, by simp only [hlist]⟩

/-- The application itself is found under its name. -/
theorem getAppObjByAppName_self (hname : app.name ≠ [])
    (hfresh : ∀ other ∈ apps, Compatible other app) :
    getAppObjByAppName (apps ++ [app]) app.name = some app := by
  have hnone : apps.find? (fun other => sameName other.name app.name) = none := by
    apply List.find?_eq_none.mpr
    intro other hother
    simp [(hfresh other hother).1]
  rw [getAppObjByAppName, if_neg hname, List.find?_append, hnone, Option.none_or]
  simp [sameName]

/-- The state after the handlers for some events were inserted. -/
def withEntries (s : Registry Handler) (app : AppObj Handler) (events : List EventType) :
    Registry Handler :=
  { s with
    callbackList := fun event =>
      if event ∈ events then
        (app.entry event).toList.foldr (insertStable EventCallback.rank) (s.callbackList event)
      else s.callbackList event
    registered := fun event =>
      if event ∈ events then s.registered event ++ (app.entry event).toList
      else s.registered event }

theorem eventCallbackInsert_eq (hfind : getAppObjByAppName s.appList app.name = some app)
    {event : EventType}
    (hfresh : ∀ current ∈ s.callbackList event, current.eventCallbackId ≠ .app app.id) :
    eventCallbackInsert app s event = s.withEntries app [event] := by
  have hupdate {Value : Type _} (f : EventType → Value) (value : Value) :
      (fun e => if e ∈ [event] then value else f e) = Function.update f event value := by
    funext e
    rw [Function.update_apply]
    simp
  have hat {Value : Type _} (f g : EventType → Value) :
      (fun e => if e ∈ [event] then g e else f e) =
        fun e => if e ∈ [event] then g event else f e := by
    funext e
    split_ifs with he
    · rw [List.mem_singleton.mp he]
    · rfl
  unfold eventCallbackInsert withEntries
  rw [hat, hat s.registered, hupdate, hupdate]
  cases hhandler : app.handler event with
  | none => simp [AppObj.entry, hhandler]
  | some callback =>
      have hentry : app.entry event =
          eventCallbackNew s.appList app.name app.priority.toNat (.app app.id) callback := by
        simp only [AppObj.entry, hhandler, eventCallbackNew, hfind, Option.map_some,
          toUInt8_toNat]
      simp only [← hentry]
      simp only [AppObj.entry, hhandler, Option.map_some]
      rw [insertApp_eq rfl hfresh]
      rfl

theorem foldl_eventCallbackInsert (hfind : getAppObjByAppName s.appList app.name = some app)
    (events : List EventType) (hnodup : events.Nodup)
    (hfresh : ∀ event ∈ events, ∀ current ∈ s.callbackList event,
      current.eventCallbackId ≠ .app app.id) :
    events.foldl (eventCallbackInsert app) s = s.withEntries app events := by
  induction events generalizing s with
  | nil => simp [withEntries]
  | cons event rest ih =>
      obtain ⟨hevent, hrest⟩ := List.nodup_cons.mp hnodup
      obtain ⟨hfirst, hlater⟩ := List.forall_mem_cons.mp hfresh
      have hother (other : EventType) (hother : other ∈ rest) :
          (s.withEntries app [event]).callbackList other = s.callbackList other := by
        have hne : other ≠ event := fun heq => hevent (heq ▸ hother)
        simp [withEntries, hne]
      rw [List.foldl_cons, eventCallbackInsert_eq hfind hfirst, ih]
      · unfold withEntries
        congr 1
        · funext e
          by_cases he : e = event
          · simp [he, hevent]
          · simp [he]
        · funext e
          by_cases he : e = event
          · simp [he, hevent]
          · simp [he]
      · exact hfind
      · exact hrest
      · intro other hmem
        rw [hother other hmem]
        exact hlater other hmem

theorem exists_insertApp (app : AppObj Handler) (new : EventCallback Handler)
    (callbacks : List (EventCallback Handler)) :
    ∃ inserted, insertApp app (some new) callbacks = some inserted := by
  induction callbacks with
  | nil => exact ⟨_, rfl⟩
  | cons current rest ih =>
      obtain ⟨inserted, hinserted⟩ := ih
      rw [insertApp, hinserted]
      split_ifs
      · exact ⟨_, rfl⟩
      · exact ⟨_, rfl⟩
      · exact ⟨_, rfl⟩

@[simp] theorem appList_eventCallbackInsert (s : Registry Handler) (event : EventType) :
    (eventCallbackInsert app s event).appList = s.appList := by
  unfold eventCallbackInsert
  split
  · rfl
  · dsimp only
    split <;> rfl

/-- The process goes on where an application has the name. -/
theorem exited_eventCallbackInsert (event : EventType) {found : AppObj Handler}
    (hfind : getAppObjByAppName s.appList app.name = some found) :
    (eventCallbackInsert app s event).exited = s.exited := by
  unfold eventCallbackInsert
  split
  · rfl
  · rw [eventCallbackNew, hfind, Option.map_some]
    obtain ⟨inserted, hinserted⟩ := exists_insertApp app _ (s.callbackList event)
    dsimp only
    rw [hinserted]

@[simp] theorem appList_eventCallbackMsgIdInsert (s : Registry Handler) (event : EventType)
    (name : AppName) (priority : ℤ) (msgId : ℕ) (callback : Handler) :
    (s.eventCallbackMsgIdInsert event name priority msgId callback).appList = s.appList := by
  unfold eventCallbackMsgIdInsert
  split <;> rfl

theorem appList_foldl_eventCallbackInsert (s : Registry Handler) (events : List EventType) :
    (events.foldl (eventCallbackInsert app) s).appList = s.appList := by
  induction events generalizing s with
  | nil => rfl
  | cons event rest ih => rw [List.foldl_cons, ih, appList_eventCallbackInsert]

theorem exited_foldl_eventCallbackInsert (events : List EventType) {found : AppObj Handler}
    (hfind : getAppObjByAppName s.appList app.name = some found) :
    (events.foldl (eventCallbackInsert app) s).exited = s.exited := by
  induction events generalizing s with
  | nil => rfl
  | cons event rest ih =>
      rw [List.foldl_cons, ih, exited_eventCallbackInsert event hfind]
      rwa [appList_eventCallbackInsert]

/-! ## Runs -/

end Registry

/-- A callback that was registered by `app_register`. -/
def EventCallback.isApp (c : EventCallback Handler) : Bool :=
  match c.eventCallbackId with
  | .app _ => true
  | .msg _ => false

/-- The callbacks are not both there for one application. -/
def OtherApp (a b : EventCallback Handler) : Prop :=
  ∀ id, a.eventCallbackId = .app id → b.eventCallbackId ≠ .app id

namespace Registry

variable {app : AppObj Handler} {s : Registry Handler}

/-- Every callback list holds what was registered, in stable order; among it are the
handlers of the accepted applications, each once. -/
structure Orderly (s : Registry Handler) : Prop where
  compatible : s.appList.Pairwise Compatible
  accepted : s.accepted.Sublist s.appList
  ordered : ∀ event, StableOrder EventCallback.rank (s.registered event) (s.callbackList event)
  apps : ∀ event, (s.registered event).filter EventCallback.isApp =
    if event ∈ registeredEvents then s.accepted.filterMap (·.entry event) else []

theorem orderly_initial : Orderly (initial : Registry Handler) where
  compatible := List.Pairwise.nil
  accepted := List.Sublist.refl []
  ordered _ := StableOrder.nil
  apps event := by
    change [] = _
    split_ifs <;> rfl

theorem mem_entry {event : EventType} {c : EventCallback Handler} (hc : app.entry event = some c) :
    c.eventCallbackId = .app app.id ∧ c.isApp = true := by
  unfold AppObj.entry at hc
  obtain ⟨callback, -, rfl⟩ := Option.map_eq_some_iff.mp hc
  exact ⟨rfl, rfl⟩

theorem Orderly.exists_app (h : Orderly s) {event : EventType} {c : EventCallback Handler}
    (hc : c ∈ s.callbackList event) (hisApp : c.isApp = true) :
    ∃ app ∈ s.accepted, app.entry event = some c := by
  have hmem : c ∈ (s.registered event).filter EventCallback.isApp :=
    List.mem_filter.mpr ⟨(h.ordered event).perm.subset hc, hisApp⟩
  rw [h.apps event] at hmem
  split_ifs at hmem with hevent
  · exact List.mem_filterMap.mp hmem
  · exact absurd hmem List.not_mem_nil

/-- No callback is there for an application that can still be registered. -/
theorem Orderly.fresh (h : Orderly s) (hfresh : ∀ other ∈ s.appList, Compatible other app)
    (event : EventType) :
    ∀ current ∈ s.callbackList event, current.eventCallbackId ≠ .app app.id := by
  intro current hcurrent hid
  have hisApp : current.isApp = true := by
    rw [EventCallback.isApp, hid]
  obtain ⟨other, hother, hentry⟩ := h.exists_app hcurrent hisApp
  rw [(mem_entry hentry).1] at hid
  exact (hfresh other (h.accepted.subset hother)).2 (EventCallbackId.app.inj hid)

/-- No list has two callbacks for one application. -/
theorem Orderly.otherApp (h : Orderly s) (event : EventType) :
    (s.callbackList event).Pairwise OtherApp := by
  have hsymm {a b : EventCallback Handler} (hab : OtherApp a b) : OtherApp b a :=
    fun id hb ha => hab id ha hb
  rw [(h.ordered event).perm.pairwise_iff hsymm]
  have happs : ((s.registered event).filter EventCallback.isApp).Pairwise OtherApp := by
    rw [h.apps event]
    split_ifs
    · refine (h.compatible.sublist h.accepted).filterMap _ fun a b hab c hc d hd id hid => ?_
      rw [(mem_entry hc).1] at hid
      rw [(mem_entry hd).1, ← hid]
      exact fun heq => hab.2 (EventCallbackId.app.inj heq).symm
    · exact List.Pairwise.nil
  -- Two callbacks for one application would both be among those of the applications.
  refine (List.pairwise_filter.mp happs).imp fun {a b} hab id ha hb => ?_
  have hisApp {c : EventCallback Handler} (hc : c.eventCallbackId = .app id) : c.isApp = true := by
    rw [EventCallback.isApp, hc]
  exact hab (hisApp ha) (hisApp hb) id ha hb

/-- What `app_obj_insert` can do. -/
inductive InsertMove (ret : ℤ) (app : AppObj Handler) (apps : List (AppObj Handler)) :
    ℤ × List (AppObj Handler) → Prop
  | refuses (code : ℤ) (hcode : code < 0) (hclash : ∃ other ∈ apps, ¬ Compatible other app) :
      InsertMove ret app apps (code, apps)
  | first (hempty : apps = []) : InsertMove ret app apps (ret, [app])
  | appends (num : ℤ) (hnum : 0 ≤ num) (hfresh : ∀ other ∈ apps, Compatible other app)
      (hne : apps ≠ []) : InsertMove ret app apps (num, apps ++ [app])

theorem insertMove (ret : ℤ) (app : AppObj Handler) (apps : List (AppObj Handler)) :
    InsertMove ret app apps (appObjInsert ret app apps) := by
  cases apps with
  | nil => exact .first rfl
  | cons first rest =>
      change InsertMove ret app (first :: rest) (appObjInsertFrom app 0 (first :: rest))
      by_cases hfresh : ∀ other ∈ first :: rest, Compatible other app
      · rw [appObjInsertFrom_eq 0 hfresh]
        exact .appends _ (Int.natCast_nonneg _) hfresh (List.cons_ne_nil first rest)
      · have hclash : ∃ other ∈ first :: rest, ¬ Compatible other app := by
          simpa only [not_forall, exists_prop] using hfresh
        obtain ⟨hcode, hsame⟩ := appObjInsertFrom_refused 0 hclash
        generalize appObjInsertFrom app 0 (first :: rest) = result at hcode hsame ⊢
        obtain ⟨code, apps⟩ := result
        cases hsame
        exact .refuses code hcode hclash

/-- What a call of `app_register` can do. -/
inductive RegisterMove (s : Registry Handler) (ret : ℤ) (app : AppObj Handler) :
    ℤ × Registry Handler → Prop
  | refuses (code : ℤ) (hcode : code < 0)
      (hwhy : ¬ Valid app ∨ ∃ other ∈ s.appList, ¬ Compatible other app) :
      RegisterMove s ret app (code, s)
  /-- The first application is inserted and reported as refused. -/
  | unset (hvalid : Valid app) (hempty : s.appList = []) (hret : ret < 0) :
      RegisterMove s ret app (ret, { s with appList := [app] })
  | accepts (appNum : UInt8) (hvalid : Valid app)
      (hfresh : ∀ other ∈ s.appList, Compatible other app)
      (hret : s.appList = [] → 0 ≤ ret) :
      RegisterMove s ret app (appRegisterAccept,
        { s with
          appList := s.appList ++ [app]
          appNum := appNum
          accepted := s.accepted ++ [app] }.withEntries app registeredEvents)

theorem Orderly.registerMove (h : Orderly s) (ret : ℤ) (app : AppObj Handler) :
    RegisterMove s ret app (s.appRegister ret app) := by
  unfold appRegister
  split_ifs with hname hid hpriority
  · exact .refuses _ (by decide) (Or.inl fun hvalid => hvalid.name hname)
  · exact .refuses _ (by decide) (Or.inl fun hvalid => hvalid.id hid)
  · exact .refuses _ (by decide) (Or.inl fun hvalid => hvalid.priority hpriority)
  · have hvalid : Valid app := ⟨hname, hid, hpriority⟩
    have hinserts (ret' : ℤ) (hfresh : ∀ other ∈ s.appList, Compatible other app)
        (hret : s.appList = [] → 0 ≤ ret) :
        RegisterMove s ret app (appRegisterAccept,
          registeredEvents.foldl (eventCallbackInsert app)
            { s with
              appList := s.appList ++ [app]
              appNum := toUInt8 (ret' + 1)
              accepted := s.accepted ++ [app] }) := by
      have hfold := foldl_eventCallbackInsert
        (s := { s with
          appList := s.appList ++ [app]
          appNum := toUInt8 (ret' + 1)
          accepted := s.accepted ++ [app] })
        (getAppObjByAppName_self hname hfresh) registeredEvents (by decide)
        fun event _ => h.fresh hfresh event
      rw [hfold]
      exact .accepts _ hvalid hfresh hret
    have hmove := insertMove ret app s.appList
    generalize appObjInsert ret app s.appList = result at hmove ⊢
    cases hmove with
    | refuses code hcode hclash =>
        simp only [if_pos hcode]
        exact .refuses code hcode (Or.inr hclash)
    | first hempty =>
        simp only
        split_ifs with hret
        · exact .unset hvalid hempty hret
        · have haccepts := hinserts ret
            (fun other hother => absurd (hempty ▸ hother) List.not_mem_nil)
            fun _ => Int.not_lt.mp hret
          rwa [hempty] at haccepts
    | appends num hnum hfresh hne =>
        simp only [if_neg (Int.not_lt.mpr hnum)]
        exact hinserts num hfresh fun hempty => absurd hempty hne

/-! ## Sequences of calls -/

/-- A priority fits the field of a callback that it is stored in. -/
def InRange (_ : Registry Handler) : RegistryCall Handler → Prop
  | .appRegister _ _ => True
  | .msgIdInsert _ _ priority _ _ => 0 ≤ priority ∧ priority ≤ 255

/-- What lies in the variable does not read as an error when the first application
is inserted. -/
def RetSet (s : Registry Handler) : RegistryCall Handler → Prop
  | .appRegister ret app => s.exited = false → s.appList = [] → Valid app → 0 ≤ ret
  | .msgIdInsert _ _ _ _ _ => True

theorem Orderly.accepts (h : Orderly s) (appNum : UInt8)
    (hfresh : ∀ other ∈ s.appList, Compatible other app) :
    Orderly ({ s with
      appList := s.appList ++ [app]
      appNum := appNum
      accepted := s.accepted ++ [app] }.withEntries app registeredEvents) where
  compatible := by
    refine List.pairwise_append.mpr ⟨h.compatible, List.pairwise_singleton _ _, ?_⟩
    intro other hother last hlast
    rw [List.mem_singleton.mp hlast]
    exact hfresh other hother
  accepted := h.accepted.append (List.Sublist.refl [app])
  ordered event := by
    have hbefore := h.ordered event
    simp only [withEntries]
    split_ifs with hevent
    · cases app.entry event with
      | none => simpa using hbefore
      | some c => exact hbefore.insert c
    · exact hbefore
  apps event := by
    have hbefore := h.apps event
    simp only [withEntries]
    split_ifs with hevent
    · rw [if_pos hevent] at hbefore
      have hentry : (app.entry event).toList.filter EventCallback.isApp =
          [app].filterMap (·.entry event) := by
        cases hc : app.entry event with
        | none => simp [hc]
        | some c => simp [hc, (mem_entry hc).2]
      rw [List.filter_append, List.filterMap_append, hbefore, hentry]
    · rwa [if_neg hevent] at hbefore

theorem Orderly.msgIdInsert (h : Orderly s) (event : EventType) (name : AppName) {priority : ℤ}
    (hpriority : 0 ≤ priority ∧ priority ≤ 255) (msgId : ℕ) (callback : Handler) :
    Orderly (s.eventCallbackMsgIdInsert event name priority msgId callback) := by
  unfold eventCallbackMsgIdInsert
  cases hnew : eventCallbackNew s.appList name priority (.msg msgId) callback with
  | none => exact ⟨h.compatible, h.accepted, h.ordered, h.apps⟩
  | some new =>
      obtain ⟨found, -, hfields⟩ := Option.map_eq_some_iff.mp hnew
      have hrank : (new.rank : ℤ) = priority := by
        rw [← hfields]
        exact toNat_toUInt8 hpriority
      have hmsg : [new].filter EventCallback.isApp = [] := by
        rw [← hfields]
        rfl
      refine ⟨h.compatible, h.accepted, fun other => ?_, fun other => ?_⟩
      · by_cases hother : other = event
        · subst hother
          simp only [Function.update_self]
          rw [insertByPriority_eq hrank]
          exact (h.ordered other).insert _
        · simp only [Function.update_of_ne hother]
          exact h.ordered other
      · by_cases hother : other = event
        · subst hother
          simp only [Function.update_self]
          rw [List.filter_append, hmsg, List.append_nil]
          exact h.apps other
        · simp only [Function.update_of_ne hother]
          exact h.apps other

theorem Orderly.step (h : Orderly s) {call : RegistryCall Handler} (hcall : InRange s call) :
    Orderly (s.step call) := by
  cases call with
  | appRegister ret app =>
      simp only [Registry.step]
      split_ifs
      · exact h
      · have hmove := h.registerMove ret app
        generalize s.appRegister ret app = result at hmove ⊢
        cases hmove with
        | refuses code hcode hwhy => exact h
        | unset hvalid hempty hret =>
            refine ⟨List.pairwise_singleton _ _, ?_, h.ordered, h.apps⟩
            have hnone : s.accepted = [] := List.sublist_nil.mp (hempty ▸ h.accepted)
            rw [hnone]
            exact List.nil_sublist _
        | accepts appNum hvalid hfresh hret => exact h.accepts appNum hfresh
  | msgIdInsert event name priority msgId callback =>
      simp only [Registry.step]
      split_ifs
      · exact h
      · exact h.msgIdInsert event name hcall msgId callback

theorem orderly_run {calls : List (RegistryCall Handler)}
    (hrange : Guarded step InRange initial calls) : Orderly (run step initial calls) :=
  hrange.invariant Orderly orderly_initial fun _ _ hs hcall => hs.step hcall

/-- With the variable set, no application is on the list that was not accepted. -/
theorem Orderly.step_accepted (h : Orderly s) (hall : s.accepted = s.appList)
    {call : RegistryCall Handler} (hcall : RetSet s call) :
    (s.step call).accepted = (s.step call).appList := by
  cases call with
  | appRegister ret app =>
      simp only [Registry.step]
      split_ifs with hexited
      · exact hall
      · have hmove := h.registerMove ret app
        generalize s.appRegister ret app = result at hmove ⊢
        cases hmove with
        | refuses code hcode hwhy => exact hall
        | unset hvalid hempty hret =>
            exact absurd hret (Int.not_lt.mpr (hcall (by simpa using hexited) hempty hvalid))
        | accepts appNum hvalid hfresh hret => simp only [withEntries, hall]
  | msgIdInsert event name priority msgId callback =>
      simp only [Registry.step, eventCallbackMsgIdInsert]
      split_ifs
      · exact hall
      · split <;> exact hall

theorem accepted_run {calls : List (RegistryCall Handler)}
    (hrange : Guarded step InRange initial calls) (hset : Guarded step RetSet initial calls) :
    (run step initial calls).accepted = (run step initial calls).appList := by
  have hboth := (hrange.and hset).invariant
    (fun s : Registry Handler => Orderly s ∧ s.accepted = s.appList)
    ⟨orderly_initial, rfl⟩
    fun s call hs hcall => ⟨hs.1.step hcall.1, hs.1.step_accepted hs.2 hcall.2⟩
  exact hboth.2

/-- An application is accepted exactly where nothing speaks against it, and a refused
one leaves everything as it was. -/
def Answers (s : Registry Handler) : RegistryCall Handler → Prop
  | .appRegister ret app =>
      s.exited = false →
        ((s.appRegister ret app).1 = appRegisterAccept ↔
            Valid app ∧ ∀ other ∈ s.accepted, Compatible other app) ∧
          ((s.appRegister ret app).1 ≠ appRegisterAccept → (s.appRegister ret app).2 = s)
  | .msgIdInsert _ _ _ _ _ => True

theorem Orderly.answers (h : Orderly s) (hall : s.accepted = s.appList)
    {call : RegistryCall Handler} (hcall : RetSet s call) : Answers s call := by
  cases call with
  | appRegister ret app =>
      intro hexited
      have hmove := h.registerMove ret app
      rw [hall]
      generalize s.appRegister ret app = result at hmove ⊢
      cases hmove with
      | refuses code hcode hwhy =>
          refine ⟨⟨fun haccept => absurd haccept (Int.ne_of_lt hcode), fun hright => ?_⟩,
            fun _ => rfl⟩
          rcases hwhy with hinvalid | ⟨other, hother, hclash⟩
          · exact absurd hright.1 hinvalid
          · exact absurd (hright.2 other hother) hclash
      | unset hvalid hempty hret =>
          exact absurd hret (Int.not_lt.mpr (hcall hexited hempty hvalid))
      | accepts appNum hvalid hfresh hret =>
          exact ⟨⟨fun _ => ⟨hvalid, hfresh⟩, fun _ => rfl⟩, fun hne => absurd rfl hne⟩
  | msgIdInsert event name priority msgId callback => trivial

/-- A first application that the variable refuses is on the list nevertheless. -/
theorem Orderly.retSet (h : Orderly s) {call : RegistryCall Handler} (hcall : Answers s call) :
    RetSet s call := by
  cases call with
  | appRegister ret app =>
      intro hexited hempty hvalid
      obtain ⟨-, hunchanged⟩ := hcall hexited
      have hmove := h.registerMove ret app
      generalize s.appRegister ret app = result at hmove hunchanged
      cases hmove with
      -- A refusal for a reason is excluded, as the list is empty.
      | refuses code hcode hwhy =>
          rcases hwhy with hinvalid | ⟨other, hother, -⟩
          · exact absurd hvalid hinvalid
          · exact absurd (hempty ▸ hother) List.not_mem_nil
      | unset _ _ hret =>
          have happs := congrArg Registry.appList (hunchanged (Int.ne_of_lt hret))
          rw [hempty] at happs
          exact absurd happs (List.cons_ne_nil app [])
      | accepts appNum _ hfresh hret => exact hret hempty
  | msgIdInsert event name priority msgId callback => trivial

/-- What the callback lists hold. -/
structure Listed (s : Registry Handler) : Prop where
  ordered : ∀ event, StableOrder EventCallback.rank (s.registered event) (s.callbackList event)
  handlers : ∀ event ∈ registeredEvents,
    ((s.callbackList event).filter EventCallback.isApp).Perm (s.accepted.filterMap (·.entry event))
  otherApp : ∀ event, (s.callbackList event).Pairwise OtherApp

theorem Orderly.listed (h : Orderly s) : Listed s where
  ordered := h.ordered
  handlers event hevent := by
    have hperm := (h.ordered event).perm.filter EventCallback.isApp
    rwa [h.apps event, if_pos hevent] at hperm
  otherApp := h.otherApp

/-- Registration works throughout a sequence of calls. -/
structure Registers (calls : List (RegistryCall Handler)) : Prop where
  answers : Guarded step Answers initial calls
  listed : ∀ first, first <+: calls → Listed (run step initial first)

/-- With priorities that fit their field, registration works throughout exactly if the
variable does not refuse the first application. -/
theorem registers_iff (calls : List (RegistryCall Handler))
    (hrange : Guarded step InRange initial calls) :
    Registers calls ↔ Guarded step RetSet initial calls := by
  have horderly (first : List (RegistryCall Handler)) (hfirst : first <+: calls) :
      Orderly (run step initial first) := orderly_run (hrange.of_prefix hfirst)
  constructor
  · intro h
    rw [guarded_iff_steps]
    intro first last hfirst
    have hbefore := (List.prefix_append first [last]).trans hfirst
    exact (horderly first hbefore).retSet ((guarded_iff_steps calls).mp h.answers first last hfirst)
  · intro hset
    refine ⟨?_, fun first hfirst => (horderly first hfirst).listed⟩
    rw [guarded_iff_steps]
    intro first last hfirst
    have hbefore := (List.prefix_append first [last]).trans hfirst
    exact (horderly first hbefore).answers
      (accepted_run (hrange.of_prefix hbefore) (hset.of_prefix hbefore))
      ((guarded_iff_steps calls).mp hset first last hfirst)

/-- An application that handles its registration only. -/
def atsc : AppObj Unit where
  name := ['A', 'T', 'S', 'C']
  id := 3
  priority := 30
  handler event := if event = .registration then some () else none

theorem registers_atsc :
    Registers [.appRegister 0 atsc, .msgIdInsert .obuPacketRx atsc.name 30 20 ()] := by
  apply (registers_iff _ ?_).mpr
  · exact ⟨fun _ _ _ => Int.le_refl 0, trivial, trivial⟩
  · exact ⟨trivial, ⟨by decide, by decide⟩, trivial⟩

/-- The first application is refused and yet on the list, where it keeps its name and id
from everyone. -/
theorem first_application_refused :
    ¬ Registers [.appRegister (-1) atsc] := by
  intro h
  have hvalid : Valid atsc := ⟨by decide, by decide, by decide⟩
  have haccepts := (h.answers.1 rfl).1.mpr
    ⟨hvalid, fun other hother => absurd hother List.not_mem_nil⟩
  exact absurd haccepts (by decide)

end Registry

end AdaptiveSignal.Registration
