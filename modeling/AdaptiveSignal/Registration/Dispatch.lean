import AdaptiveSignal.Foundation.CString
import AdaptiveSignal.Registration.CallbackLists

/-! # Dispatch of packets to applications

The handler of a packet walks the callback list of its event and calls the entries
that it selects: by the service of a cloud packet, by the kind of an OBU message, all
applications for pedestrians. For camera packets the selection is a constant that
hides the one that the applications register under.
-/

namespace AdaptiveSignal.Registration

open Foundation

variable {Handler : Type*}

def c2rCommonFieldLen : ℕ := 35
def deviceTypeNumber : ℕ := 3
def rsuNameMaxLen : ℕ := 10

/-- `CPS_ID` as `com_packet_processing.c` redefines it. -/
def cpsId : UInt8 := 3

/-- `CPS_ID` and `WA_ID` of `application_id_t`. -/
def ApplicationId.cps : UInt8 := 4
def ApplicationId.wa : UInt8 := 8

/-! ## The handlers of packets -/

def packetNotJ2735 : ℤ := 1
def packetProcessingAccept : ℤ := 0
def packetInvalidPacketLen : ℤ := -1
def packetInvalidDeviceType : ℤ := -2
def packetInvalidRsuName : ℤ := -3
def packetInvalidServiceId : ℤ := -4

/-- The fields of a cloud packet that its handler checks. -/
structure C2RCommonField where
  packetLen : UInt32
  deviceType : UInt8
  rsuName : List UInt8
  serviceId : UInt8

/-- A decoded message, and whether a record can be made of it. -/
structure MessageFrame where
  messageId : ℕ
  hasRecord : Bool

inductive Packet
  | cloud (field : C2RCommonField)
  /-- From an OBU, as far as it can be decoded. -/
  | obu (msgf : Option MessageFrame)
  | pedestrian
  | camera

namespace Registry

variable (rsuName : List UInt8) (s : Registry Handler)

def cloudPacketRxEventHandler (field : C2RCommonField) : ℤ × List (EventCallback Handler) :=
  if field.packetLen.toNat < c2rCommonFieldLen then (packetInvalidPacketLen, [])
  else if deviceTypeNumber ≤ field.deviceType.toNat then (packetInvalidDeviceType, [])
  else if (cString field.rsuName).take rsuNameMaxLen ≠ (cString rsuName).take rsuNameMaxLen then
    (packetInvalidRsuName, [])
  else if field.serviceId < 1 then (packetInvalidServiceId, [])
  else
    (packetProcessingAccept,
      (s.callbackList .cloudPacketRx).filter (·.eventCallbackId = .app field.serviceId))

def obuPacketRxEventHandler : Option MessageFrame → ℤ × List (EventCallback Handler)
  | none => (packetNotJ2735, [])
  | some msgf =>
      if msgf.hasRecord then
        (packetProcessingAccept,
          (s.callbackList .obuPacketRx).filter (·.eventCallbackId = .msg msgf.messageId))
      else (-1, [])

def pedestrianPacketRxEventHandler : ℤ × List (EventCallback Handler) :=
  (0, (s.callbackList .pedestrianPacketRx).filter EventCallback.isApp)

def smartAviPacketRxEventHandler : ℤ × List (EventCallback Handler) :=
  (0, (s.callbackList .cameraPacketRx).filter (·.eventCallbackId = .app cpsId))

/-- What the handler of a packet returns, and the callbacks that it calls. -/
def receive : Packet → ℤ × List (EventCallback Handler)
  | .cloud field => s.cloudPacketRxEventHandler rsuName field
  | .obu msgf => s.obuPacketRxEventHandler msgf
  | .pedestrian => s.pedestrianPacketRxEventHandler
  | .camera => s.smartAviPacketRxEventHandler

/-! ## Completeness -/

/-- The callbacks that were registered for a packet, in the order of registration. -/
def expected (s : Registry Handler) : Packet → List (EventCallback Handler)
  | .cloud field =>
      (s.accepted.filter (·.id = field.serviceId)).filterMap (·.entry .cloudPacketRx)
  | .obu none => []
  | .obu (some msgf) =>
      (s.registered .obuPacketRx).filter (·.eventCallbackId = .msg msgf.messageId)
  | .pedestrian => s.accepted.filterMap (·.entry .pedestrianPacketRx)
  | .camera => s.accepted.filterMap (·.entry .cameraPacketRx)

/-- A packet that is handled reaches every callback registered for it, by priority. -/
def Complete (packet : Packet) : Prop :=
  (s.receive rsuName packet).1 = packetProcessingAccept →
    StableOrder EventCallback.rank (s.expected packet) (s.receive rsuName packet).2

variable {rsuName s}

/-- Nothing is lost in a selection of the applications that has all with a handler. -/
theorem filterMap_entry_filter {event : EventType} (selected : AppObj Handler → Bool)
    (apps : List (AppObj Handler))
    (hall : ∀ app ∈ apps, (app.handler event).isSome → selected app) :
    (apps.filter selected).filterMap (·.entry event) = apps.filterMap (·.entry event) := by
  induction apps with
  | nil => rfl
  | cons app rest ih =>
      obtain ⟨happ, hrest⟩ := List.forall_mem_cons.mp hall
      cases hselected : selected app with
      | true => simp [hselected, List.filterMap_cons, ih hrest]
      | false =>
          have hhandler : app.handler event = none := by
            by_contra hsome
            rw [happ (Option.isSome_iff_ne_none.mpr hsome)] at hselected
            cases hselected
          have hnone : app.entry event = none := by rw [AppObj.entry, hhandler, Option.map_none]
          simp [hselected, hnone, ih hrest]

/-- The callbacks of one application, in the log of an event. -/
theorem Orderly.filter_app (h : Orderly s) {event : EventType} (hevent : event ∈ registeredEvents)
    (id : UInt8) :
    (s.registered event).filter (·.eventCallbackId = .app id) =
      (s.accepted.filter (·.id = id)).filterMap (·.entry event) := by
  have happs := h.apps event
  rw [if_pos hevent] at happs
  have hisApp : (s.registered event).filter (·.eventCallbackId = .app id) =
      ((s.registered event).filter EventCallback.isApp).filter (·.eventCallbackId = .app id) := by
    rw [List.filter_filter]
    apply List.filter_congr
    intro c _
    cases hc : c.eventCallbackId <;> simp [EventCallback.isApp, hc]
  rw [hisApp, happs]
  induction s.accepted with
  | nil => rfl
  | cons app rest ih =>
      cases hentry : app.entry event with
      | none =>
          by_cases hid : app.id = id
          · simp [hentry, hid, ih]
          · simp [hentry, hid, ih]
      | some c =>
          have hc := (mem_entry hentry).1
          by_cases hid : app.id = id
          · simp [hentry, hid, hc, ih]
          · simp [hentry, hid, hc, ih]

theorem Orderly.complete_cloud (h : Orderly s) (field : C2RCommonField) :
    s.Complete rsuName (.cloud field) := by
  intro haccept
  simp only [receive, cloudPacketRxEventHandler] at haccept ⊢
  split_ifs at haccept ⊢ with hlen hdevice hname hservice
  · exact absurd haccept (show packetInvalidPacketLen ≠ packetProcessingAccept by decide)
  · exact absurd haccept (show packetInvalidDeviceType ≠ packetProcessingAccept by decide)
  · exact absurd haccept (show packetInvalidRsuName ≠ packetProcessingAccept by decide)
  · exact absurd haccept (show packetInvalidServiceId ≠ packetProcessingAccept by decide)
  · have hfilter := (h.ordered .cloudPacketRx).filter (·.eventCallbackId = .app field.serviceId)
    rwa [h.filter_app (by decide)] at hfilter

theorem Orderly.complete_obu (h : Orderly s) (msgf : Option MessageFrame) :
    s.Complete rsuName (.obu msgf) := by
  intro haccept
  cases msgf with
  | none => exact absurd haccept (show packetNotJ2735 ≠ packetProcessingAccept by decide)
  | some msgf =>
      simp only [receive, obuPacketRxEventHandler] at haccept ⊢
      split_ifs at haccept ⊢ with hrecord
      · exact (h.ordered .obuPacketRx).filter _
      · exact absurd haccept (show (-1 : ℤ) ≠ packetProcessingAccept by decide)

theorem Orderly.complete_pedestrian (h : Orderly s) : s.Complete rsuName .pedestrian := by
  intro _
  have hfilter := (h.ordered .pedestrianPacketRx).filter EventCallback.isApp
  rwa [h.apps, if_pos (by decide)] at hfilter

/-- A camera packet reaches everyone exactly if the only one there is has the constant
for its id. -/
theorem Orderly.complete_camera (h : Orderly s) :
    s.Complete rsuName .camera ↔
      ∀ app ∈ s.accepted, (app.handler .cameraPacketRx).isSome → app.id = cpsId := by
  have hfilter := (h.ordered .cameraPacketRx).filter (·.eventCallbackId = .app cpsId)
  rw [h.filter_app (by decide)] at hfilter
  constructor
  · intro hcomplete app happ hhandler
    have hordered := hcomplete rfl
    obtain ⟨callback, hcallback⟩ := Option.isSome_iff_exists.mp hhandler
    obtain ⟨c, hentry⟩ : ∃ c, app.entry .cameraPacketRx = some c := by
      simp [AppObj.entry, hcallback]
    have hc : c ∈ s.expected .camera := List.mem_filterMap.mpr ⟨app, happ, hentry⟩
    have hcalled := (List.mem_filter.mp (hordered.perm.symm.subset hc)).2
    rw [decide_eq_true_eq, (mem_entry hentry).1] at hcalled
    exact EventCallbackId.app.inj hcalled
  · intro hall _
    have hsame := filterMap_entry_filter (fun app => app.id = cpsId) s.accepted
      fun app happ hhandler => decide_eq_true (hall app happ hhandler)
    rw [hsame] at hfilter
    exact hfilter

/-- Whatever was registered, packets reach the callbacks registered for them exactly if,
for a camera packet, nobody handles those but the application with the constant for
its id. -/
theorem complete_iff (calls : List (RegistryCall Handler))
    (hrange : Guarded step InRange initial calls) (rsuName : List UInt8) (packet : Packet) :
    (run step initial calls).Complete rsuName packet ↔
      (packet = .camera → ∀ app ∈ (run step initial calls).accepted,
        (app.handler .cameraPacketRx).isSome → app.id = cpsId) := by
  have h := orderly_run hrange
  cases packet with
  | cloud field => simp [h.complete_cloud field]
  | obu msgf => simp [h.complete_obu msgf]
  | pedestrian => simp [h.complete_pedestrian]
  | camera => simp [h.complete_camera]

/-- An application that handles camera packets. -/
def cameraApp (id : UInt8) : AppObj Unit where
  name := ['C', 'P', 'S']
  id := id
  priority := 40
  handler event := if event = .cameraPacketRx then some () else none

theorem complete_iff_cps :
    (run step initial [.appRegister 0 (cameraApp cpsId)]).Complete [] .camera := by
  apply (complete_iff _ ?_ [] .camera).mpr
  · intro _ app happ _
    rw [List.mem_singleton.mp happ]
    rfl
  · exact ⟨trivial, trivial⟩

/-- Under their own ids the applications for camera packets are passed over. -/
theorem camera_packet_missed :
    ¬ (run step initial [.appRegister 0 (cameraApp ApplicationId.cps)]).Complete [] .camera ∧
      ¬ (run step initial [.appRegister 0 (cameraApp ApplicationId.wa)]).Complete [] .camera := by
  constructor
  · intro hcomplete
    exact absurd (hcomplete rfl).perm.length_eq (by decide)
  · intro hcomplete
    exact absurd (hcomplete rfl).perm.length_eq (by decide)

end Registry

end AdaptiveSignal.Registration
