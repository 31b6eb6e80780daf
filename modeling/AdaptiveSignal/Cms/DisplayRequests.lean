import AdaptiveSignal.Foundation.PrioritySlot
import Mathlib.Data.Fintype.Basic
import Mathlib.Tactic.FinCases

/-! # Who decides what the signs display

The applications ask for a display of the signs, each with its priority. The
handler of the signs broadcasts what the display buffer holds in every round, and
frees it when its request has become too old.
-/

namespace AdaptiveSignal.Cms

open Foundation

abbrev cmsNumMax : ℕ := 16

abbrev cmsRequestTimeout : ℤ := 60

/-- `cms_display_buffer`. Application 0 is none. -/
@[ext] structure DisplayBuffer where
  appId : UInt8
  appPriority : UInt8
  requestTime : ℤ
  buffer : Fin cmsNumMax → UInt8

namespace DisplayBuffer

def clear : DisplayBuffer := ⟨0, 0, 0, fun _ => 0⟩

/-- `CMS_request_start`. The application is an `int`, of which the buffer keeps a byte. -/
def cmsRequestStart (b : DisplayBuffer) (appID : ℤ) (priority : UInt8)
    (displayBuffer : Fin cmsNumMax → UInt8) (now : ℤ) : DisplayBuffer × ℤ :=
  if b.appId = 0 ∨ b.appPriority > priority then
    (⟨UInt8.ofNat (appID % 256).toNat, priority, now, displayBuffer⟩, 1)
  else (b, -1)

/-- `CMS_request_end`. -/
def cmsRequestEnd (b : DisplayBuffer) (appID : ℤ) : DisplayBuffer × ℤ :=
  if appID = b.appId.toNat then (clear, 1) else (b, -1)

/-- The packet of a round: its length, command and type, and the image of each sign. -/
def displayPacket (b : DisplayBuffer) : List UInt8 :=
  let body := 2 :: 1 :: (List.finRange cmsNumMax).flatMap fun i =>
    [UInt8.ofNat (i.val + 1), b.buffer i]
  UInt8.ofNat (body.length + 1) :: body

/-- The part of a round under the lock of the buffer: the packet is made before
the age of the request is looked at. -/
def sendDisplay (b : DisplayBuffer) (now : ℤ) : DisplayBuffer × List UInt8 :=
  (if b.appId ≠ 0 ∧ now - b.requestTime > cmsRequestTimeout then clear else b, b.displayPacket)

end DisplayBuffer

inductive DisplayEvent
  | requestStart (appID : ℤ) (priority : UInt8) (displayBuffer : Fin cmsNumMax → UInt8) (now : ℤ)
  | requestEnd (appID : ℤ)
  | round (now : ℤ)

/-- A request as `CMS_request_start` gets it. -/
structure DisplayRequest where
  appID : ℤ
  priority : UInt8
  requestTime : ℤ
  displayBuffer : Fin cmsNumMax → UInt8

/-- The smaller the number, the more urgent. -/
def DisplayRequest.rank (request : DisplayRequest) : ℕ := request.priority.toNat

namespace DisplayEvent

/-- The ids of the applications are bytes, and not 0. -/
def Identified : DisplayEvent → Prop
  | requestStart appID _ _ _ => 1 ≤ appID ∧ appID ≤ 255
  | _ => True

def toSlotEvent : DisplayEvent → SlotEvent DisplayRequest ℤ
  | requestStart appID priority displayBuffer now => .start ⟨appID, priority, now, displayBuffer⟩
  | requestEnd appID => .finish appID
  | round now => .expire fun request => decide (cmsRequestTimeout < now - request.requestTime)

end DisplayEvent

namespace DisplayBuffer

def step (b : DisplayBuffer) : DisplayEvent → DisplayBuffer
  | .requestStart appID priority displayBuffer now =>
      (b.cmsRequestStart appID priority displayBuffer now).1
  | .requestEnd appID => (b.cmsRequestEnd appID).1
  | .round now => (b.sendDisplay now).1

/-- What the buffer looks like while it serves a request. -/
def ofHolder : Option DisplayRequest → DisplayBuffer
  | none => clear
  | some request =>
      ⟨UInt8.ofNat (request.appID % 256).toNat, request.priority, request.requestTime,
        request.displayBuffer⟩

/-- The byte of an application is its id. -/
theorem toNat_appId {id : ℤ} (hid : 1 ≤ id ∧ id ≤ 255) :
    ((UInt8.ofNat (id % 256).toNat).toNat : ℤ) = id := by
  rw [UInt8.toNat_ofNat']
  omega

theorem appId_ne_zero {id : ℤ} (hid : 1 ≤ id ∧ id ≤ 255) : UInt8.ofNat (id % 256).toNat ≠ 0 := by
  intro hzero
  have hnat := toNat_appId hid
  rw [hzero] at hnat
  change ((0 : ℕ) : ℤ) = id at hnat
  omega

/-- The buffer does what the slot does. -/
theorem step_ofHolder {slot : Option DisplayRequest}
    (hslot : ∀ request ∈ slot, 1 ≤ request.appID ∧ request.appID ≤ 255) (event : DisplayEvent) :
    (ofHolder slot).step event = ofHolder (PrioritySlot.step DisplayRequest.rank
      DisplayRequest.appID slot event.toSlotEvent) := by
  cases event with
  | requestStart appID priority displayBuffer now =>
      cases slot with
      | none => rfl
      | some request =>
          have hne := appId_ne_zero (hslot request rfl)
          simp only [step, cmsRequestStart, ofHolder, hne, false_or, gt_iff_lt,
            UInt8.lt_iff_toNat_lt, DisplayEvent.toSlotEvent, PrioritySlot.step,
            DisplayRequest.rank]
          by_cases hlt : priority.toNat < request.priority.toNat
          · simp only [hlt, if_true]
          · simp only [hlt, if_false]
  | requestEnd appID =>
      cases slot with
      | none =>
          change (clear.cmsRequestEnd appID).1 = clear
          unfold cmsRequestEnd
          split_ifs <;> rfl
      | some request =>
          have hid := toNat_appId (hslot request rfl)
          simp only [step, cmsRequestEnd, ofHolder, hid, DisplayEvent.toSlotEvent,
            PrioritySlot.step, Option.filter_some]
          by_cases heq : appID = request.appID
          · simp [heq]
          · simp [heq, Ne.symm heq]
  | round now =>
      cases slot with
      | none => rfl
      | some request =>
          have hne := appId_ne_zero (hslot request rfl)
          simp only [step, sendDisplay, ofHolder, DisplayEvent.toSlotEvent, PrioritySlot.step,
            Option.filter_some]
          by_cases hold : cmsRequestTimeout < now - request.requestTime
          · simp [hold, hne]
          · simp [hold]

/-- Every sign finds its number and its image in the packet, whose first byte is
its length. -/
theorem displayPacket_spec (b : DisplayBuffer) :
    b.displayPacket.length = 35 ∧ b.displayPacket.head? = some 35 ∧
      ∀ i : Fin cmsNumMax, b.displayPacket[3 + 2 * i.val]? = some (UInt8.ofNat (i.val + 1)) ∧
        b.displayPacket[4 + 2 * i.val]? = some (b.buffer i) := by
  refine ⟨rfl, rfl, fun i => ?_⟩
  fin_cases i <;> exact ⟨rfl, rfl⟩

/-- The requests made since the display was last free. -/
def pendingRequests (events : List DisplayEvent) : List DisplayRequest :=
  run (PrioritySlot.track DisplayRequest.rank DisplayRequest.appID) []
    (events.map DisplayEvent.toSlotEvent)

theorem identified_start {event : DisplayEvent} (hid : event.Identified)
    {request : DisplayRequest} (hstart : event.toSlotEvent = .start request) :
    1 ≤ request.appID ∧ request.appID ≤ 255 := by
  cases event with
  | requestStart appID priority displayBuffer now =>
      obtain rfl := SlotEvent.start.inj hstart
      exact hid
  | requestEnd appID => cases hstart
  | round now => cases hstart

theorem run_eq_ofHolder {events : List DisplayEvent}
    (hids : ∀ event ∈ events, event.Identified) :
    run step clear events =
      ofHolder (PrioritySlot.holder DisplayRequest.rank (pendingRequests events)) := by
  have hnone : ∀ request ∈ ([] : List DisplayRequest), 1 ≤ request.appID ∧ request.appID ≤ 255 :=
    by simp
  refine PrioritySlot.run_simulates DisplayRequest.rank DisplayRequest.appID
    (fun b slot => b = ofHolder slot) ?_ rfl hnone
    fun event hevent request hstart => identified_start (hids event hevent) hstart
  rintro b slot event rfl hslot
  exact step_ofHolder hslot event

/-- In every interleaving of the applications' requests with the rounds of the
handler: the signs are sent blank images exactly when no request was made since
the display was last free, and else those of the first of the most urgent
requests made since. The display becomes free when the application of that
request ends it, or after the first round that finds it more than a minute old,
which is still sent. -/
theorem signs_show_most_urgent {events : List DisplayEvent}
    (hids : ∀ event ∈ events, event.Identified) :
    let b := run step clear events
    let requests := pendingRequests events
    (requests = [] ∧ b = clear ∨
      ∃ before request after, requests = before ++ request :: after ∧
        (∀ earlier ∈ before, request.priority < earlier.priority) ∧
        (∀ later ∈ after, request.priority ≤ later.priority) ∧
        (b.appId.toNat : ℤ) = request.appID ∧ b.buffer = request.displayBuffer ∧
        (∀ appID, pendingRequests (events ++ [.requestEnd appID]) =
          if request.appID = appID then [] else requests) ∧
        ∀ now, pendingRequests (events ++ [.round now]) =
          if cmsRequestTimeout < now - request.requestTime then [] else requests) ∧
    ∀ now (i : Fin cmsNumMax), (b.sendDisplay now).2[4 + 2 * i.val]? = some (b.buffer i) := by
  intro b requests
  refine ⟨?_, fun now i => ((displayPacket_spec b).2.2 i).2⟩
  have hb : b = ofHolder (PrioritySlot.holder DisplayRequest.rank requests) := run_eq_ofHolder hids
  rcases PrioritySlot.holder_cases DisplayRequest.rank requests with
    ⟨hnil, hslot⟩ | ⟨before, request, after, heq, hslot, hbefore, hafter⟩
  · exact Or.inl ⟨hnil, by rw [hb, hslot]; rfl⟩
  · rw [hslot] at hb
    have hall : ∀ request ∈ requests, 1 ≤ request.appID ∧ request.appID ≤ 255 := by
      refine PrioritySlot.run_track_forall DisplayRequest.rank DisplayRequest.appID
        fun request hstart => ?_
      obtain ⟨event, hevent, hstart⟩ := List.mem_map.mp hstart
      exact identified_start (hids event hevent) hstart
    have hid := hall request (PrioritySlot.holder_mem DisplayRequest.rank hslot)
    have hend : ∀ leaves : DisplayRequest → Bool,
        ((PrioritySlot.holder DisplayRequest.rank requests).any leaves) = leaves request := by
      intro leaves
      rw [hslot, Option.any_some]
    have htrack : ∀ event, pendingRequests (events ++ [event]) =
        PrioritySlot.track DisplayRequest.rank DisplayRequest.appID requests event.toSlotEvent := by
      intro event
      rw [pendingRequests, List.map_append, List.map_singleton, run_concat]
      rfl
    refine Or.inr ⟨before, request, after, heq, fun earlier hearlier => ?_, fun later hlater => ?_,
      ?_, ?_, fun appID => ?_, fun now => ?_⟩
    · exact UInt8.lt_iff_toNat_lt.mpr (hbefore earlier hearlier)
    · exact UInt8.le_iff_toNat_le.mpr (hafter later hlater)
    · rw [hb]
      exact toNat_appId hid
    · rw [hb]
      rfl
    · simp only [htrack, DisplayEvent.toSlotEvent, PrioritySlot.track, hend, decide_eq_true_eq]
    · simp only [htrack, DisplayEvent.toSlotEvent, PrioritySlot.track, hend, decide_eq_true_eq]

/-- The second application is more urgent, and the first one cannot end what it
does not hold. -/
theorem signs_show_most_urgent_of_two :
    let events : List DisplayEvent :=
      [.requestStart 3 5 (fun _ => 20) 100, .requestStart 4 1 (fun _ => 30) 101, .requestEnd 3]
    let b := run step clear events
    b.appId = 4 ∧ ∃ request ∈ pendingRequests events, b.buffer = request.displayBuffer := by
  intro events b
  have hids : ∀ event ∈ events, event.Identified := by
    simp [events, DisplayEvent.Identified]
  have happ : b.appId = 4 := by decide
  refine ⟨happ, ?_⟩
  rcases (signs_show_most_urgent hids).1 with
    ⟨_, hclear⟩ | ⟨_, request, _, heq, _, _, _, hbuffer, _⟩
  · rw [show b = clear from hclear] at happ
    exact absurd happ (by decide)
  · exact ⟨request, heq ▸ by simp, hbuffer⟩

end DisplayBuffer

end AdaptiveSignal.Cms
