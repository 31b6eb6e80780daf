import AdaptiveSignal.Foundation.KeyedList
import AdaptiveSignal.Vehicles.Lists

/-! # Signal status messages

A round of the repeater walks along the vehicles that have asked for priority. Each request is
answered with a package; packages fill status lists, and status lists fill messages.
-/

namespace AdaptiveSignal.Spm

open Foundation Vehicles

inductive PriorityRequestType
  | priorityRequestTypeReserved
  | priorityRequest
  | priorityRequestUpdate
  | priorityCancellation
  deriving DecidableEq

inductive PrioritizationResponseStatus
  | requested
  | processing
  | granted
  | rejected
  | reserviceLocked
  deriving DecidableEq

/-- A request; `Lane` stands for `IntersectionAccessPoint`. -/
structure SignalRequestPackage (Lane : Type*) where
  requestType : PriorityRequestType
  requestId : UInt8
  inBoundLane : Lane
  outBoundLane : Option Lane
  minute : Option UInt32
  second : Option UInt16
  duration : Option UInt16
  deriving DecidableEq

/-- `SPM_OBU_obj_t`; `places` is `SignalRequestList_MAX_SIZE`. -/
structure SpmObuObj (Lane : Type*) (places : ℕ) where
  id : IdBytes
  role : BasicVehicleRole
  obuName : ObuName
  vehicleType : VehicleType
  timeSecond : ℤ
  sigRequestList : Vector (SignalRequestPackage Lane) places
  sigRequestCount : ℕ
  count_le : sigRequestCount ≤ places

/-- `SPM_OBU_list`; a name is searched before it is inserted. -/
abbrev SpmObuList (Lane : Type*) (places : ℕ) : Type _ :=
  KeyedList (SpmObuObj Lane places) ObuName SpmObuObj.obuName

structure SignalStatusPackage (Lane : Type*) where
  /-- The vehicle and the place in its table that the package is made for. -/
  source : ObuName × ℕ
  status : PrioritizationResponseStatus
  stationId : IdBytes
  request : UInt8
  role : BasicVehicleRole
  inboundOn : Lane
  outboundOn : Option Lane
  minute : Option UInt32
  second : Option UInt16
  duration : Option UInt16
  deriving DecidableEq

structure SignalStatus (Lane : Type*) where
  sequenceNumber : ℕ
  sigStatus : List (SignalStatusPackage Lane)

structure SignalStatusMessage (Lane : Type*) where
  timeStamp : ℕ
  second : ℕ
  status : List (SignalStatus Lane)

/-- `struct tm` and `tv_usec`, as far as they are read. -/
structure LocalTime where
  yday : ℕ
  hour : ℕ
  min : ℕ
  sec : ℕ
  usec : ℕ

/-- What a round reads beside the list. -/
structure Setting where
  /-- `SignalStatusList_MAX_SIZE`. -/
  listMax : ℕ
  listMax_pos : 0 < listMax
  now : ℤ
  time : LocalTime
  /-- `special_OBU_list_search_status`. -/
  searchStatus : VehicleType → ObuName → ObuObjectStatus

variable {Lane : Type*} {places : ℕ} (setting : Setting)

/-! ## One package -/

def SpmObuObj.expired (obu : SpmObuObj Lane places) : Bool := 20 < setting.now - obu.timeSecond

/-- The status of an answer behind the others of its list, if there is one. -/
def responseStatus (obu : SpmObuObj Lane places) (request : SignalRequestPackage Lane)
    (tab : List (SignalStatusPackage Lane)) : Option PrioritizationResponseStatus :=
  match request.requestType with
  | .priorityRequest => some .requested
  | .priorityRequestUpdate =>
      match setting.searchStatus obu.vehicleType obu.obuName with
      | .unknown => none
      | .processing => some .processing
      | .granted =>
          if tab.any (·.status = .granted) then some .reserviceLocked else some .granted
      | .rejected => some .rejected
  | .priorityRequestTypeReserved | .priorityCancellation => none

def statusPackage (obu : SpmObuObj Lane places) (j : ℕ) (request : SignalRequestPackage Lane)
    (tab : List (SignalStatusPackage Lane)) : Option (SignalStatusPackage Lane) :=
  (responseStatus setting obu request tab).map fun status => {
    source := (obu.obuName, j)
    status
    stationId := obu.id
    request := request.requestId
    role := obu.role
    inboundOn := request.inBoundLane
    outboundOn := request.outBoundLane
    minute := request.minute
    second := request.second
    duration := request.duration }

/-! ## The loops -/

/-- The loop over the requests of a vehicle; there is no result when a place behind the table is
read. -/
def answerRequests (obu : SpmObuObj Lane places) :
    List ℕ → List (SignalStatusPackage Lane) → Option (List (SignalStatusPackage Lane))
  | [], tab => some tab
  | j :: rest, tab =>
      if tab.length < setting.listMax then
        match obu.sigRequestList[j]? with
        | none => none
        | some request =>
            answerRequests obu rest (tab ++ (statusPackage setting obu j request tab).toList)
      else some tab

/-- What a loop has filled, the vehicles that it passed and left on the list, and those that it
did not come to. -/
structure Filled (Entry Lane : Type*) (places : ℕ) where
  tab : List Entry
  passed : List (SpmObuObj Lane places)
  rest : List (SpmObuObj Lane places)

/-- The loop that fills a status list. -/
def fillStatus : List (SpmObuObj Lane places) → List (SignalStatusPackage Lane) →
    Option (Filled (SignalStatusPackage Lane) Lane places)
  | [], tab => some ⟨tab, [], []⟩
  | obu :: obus, tab =>
      if tab.length < setting.listMax then
        if obu.expired setting then fillStatus obus tab
        else
          match answerRequests setting obu (List.range (obu.sigRequestCount + 1)) tab with
          | none => none
          | some tab =>
              (fillStatus obus tab).map fun filled =>
                { filled with passed := obu :: filled.passed }
      else some ⟨tab, [], obu :: obus⟩

/-- A list with room goes past a vehicle. -/
theorem exists_fillStatus {obu : SpmObuObj Lane places} {obus : List (SpmObuObj Lane places)}
    {tab : List (SignalStatusPackage Lane)} {filled : Filled _ Lane places}
    (hroom : tab.length < setting.listMax)
    (hfill : fillStatus setting (obu :: obus) tab = some filled) :
    ∃ tab' filled', fillStatus setting obus tab' = some filled' ∧ filled'.rest = filled.rest := by
  rw [fillStatus, if_pos hroom] at hfill
  split_ifs at hfill
  · exact ⟨tab, filled, hfill, rfl⟩
  · cases hanswer : answerRequests setting obu (List.range (obu.sigRequestCount + 1)) tab with
    | none => simp [hanswer] at hfill
    | some tab' =>
        simp only [hanswer, Option.map_eq_some_iff] at hfill
        obtain ⟨filled', hrest, rfl⟩ := hfill
        exact ⟨tab', filled', hrest, rfl⟩

theorem fillStatus_rest_le {obus : List (SpmObuObj Lane places)}
    {tab : List (SignalStatusPackage Lane)} {filled : Filled _ Lane places}
    (hfill : fillStatus setting obus tab = some filled) :
    filled.rest.length ≤ obus.length := by
  induction obus generalizing tab filled with
  | nil => simp [← Option.some.inj hfill]
  | cons obu obus ih =>
      by_cases hroom : tab.length < setting.listMax
      · obtain ⟨tab', filled', hrest, heq⟩ := exists_fillStatus setting hroom hfill
        rw [← heq]
        exact (ih hrest).trans (Nat.le_succ _)
      · rw [fillStatus, if_neg hroom] at hfill
        rw [← Option.some.inj hfill]

/-- A new status list takes at least one vehicle. -/
theorem fillStatus_rest_lt {obus : List (SpmObuObj Lane places)} {filled : Filled _ Lane places}
    (hne : obus ≠ []) (hfill : fillStatus setting obus [] = some filled) :
    filled.rest.length < obus.length := by
  obtain ⟨obu, obus, rfl⟩ := List.exists_cons_of_ne_nil hne
  obtain ⟨tab', filled', hrest, heq⟩ :=
    @exists_fillStatus _ _ setting _ _ [] _ setting.listMax_pos hfill
  rw [← heq]
  exact Nat.lt_succ_of_le (fillStatus_rest_le setting hrest)

/-- The loop that fills a message. A status list that stays empty is not counted. -/
def fillMessage (obus : List (SpmObuObj Lane places)) (sequenceNumber : ℕ)
    (tab : List (SignalStatus Lane)) : Option (Filled (SignalStatus Lane) Lane places × ℕ) :=
  if _ : obus ≠ [] ∧ tab.length < setting.listMax then
    match hfill : fillStatus setting obus [] with
    | none => none
    | some filled =>
        let next := if filled.tab = [] then tab else tab ++ [⟨sequenceNumber, filled.tab⟩]
        (fillMessage filled.rest ((sequenceNumber + 1) % 128) next).map fun (message, next) =>
          ({ message with passed := filled.passed ++ message.passed }, next)
  else some (⟨tab, [], obus⟩, sequenceNumber)
termination_by obus.length
decreasing_by
  exact fillStatus_rest_lt setting ‹obus ≠ [] ∧ tab.length < setting.listMax›.1 hfill

section Message

variable {setting} {obus : List (SpmObuObj Lane places)} {tab : List (SignalStatus Lane)}

theorem fillMessage_done (hdone : ¬ (obus ≠ [] ∧ tab.length < setting.listMax))
    (sequenceNumber : ℕ) :
    fillMessage setting obus sequenceNumber tab = some (⟨tab, [], obus⟩, sequenceNumber) := by
  rw [fillMessage, dif_neg hdone]

theorem fillMessage_none (hmore : obus ≠ [] ∧ tab.length < setting.listMax)
    (hfill : fillStatus setting obus [] = none) (sequenceNumber : ℕ) :
    fillMessage setting obus sequenceNumber tab = none := by
  rw [fillMessage, dif_pos hmore]
  split
  · rfl
  · next heq => rw [hfill] at heq; cases heq

theorem fillMessage_some (hmore : obus ≠ [] ∧ tab.length < setting.listMax)
    {filled : Filled _ Lane places} (hfill : fillStatus setting obus [] = some filled)
    (sequenceNumber : ℕ) :
    fillMessage setting obus sequenceNumber tab =
      (fillMessage setting filled.rest ((sequenceNumber + 1) % 128)
        (if filled.tab = [] then tab else tab ++ [⟨sequenceNumber, filled.tab⟩])).map
          fun (message, next) =>
            ({ message with passed := filled.passed ++ message.passed }, next) := by
  rw [fillMessage, dif_pos hmore]
  split
  · next heq => rw [hfill] at heq; cases heq
  · next heq =>
      rw [hfill] at heq
      cases heq
      rfl

end Message

theorem fillMessage_rest_le {obus : List (SpmObuObj Lane places)} {sequenceNumber : ℕ}
    {tab : List (SignalStatus Lane)} {result : Filled _ Lane places × ℕ}
    (hfill : fillMessage setting obus sequenceNumber tab = some result) :
    result.1.rest.length ≤ obus.length := by
  induction hlength : obus.length using Nat.strong_induction_on
    generalizing obus sequenceNumber tab result with
  | h n ih =>
      subst hlength
      by_cases hmore : obus ≠ [] ∧ tab.length < setting.listMax
      · cases hstatus : fillStatus setting obus [] with
        | none => simp [fillMessage_none hmore hstatus] at hfill
        | some filled =>
            rw [fillMessage_some hmore hstatus, Option.map_eq_some_iff] at hfill
            obtain ⟨message, hrest, rfl⟩ := hfill
            have hlt := fillStatus_rest_lt setting hmore.1 hstatus
            exact (ih _ hlt hrest rfl).trans hlt.le
      · rw [fillMessage_done hmore] at hfill
        rw [← Option.some.inj hfill]

/-- A new message takes at least one vehicle. -/
theorem fillMessage_rest_lt {obus : List (SpmObuObj Lane places)} {sequenceNumber : ℕ}
    {result : Filled _ Lane places × ℕ} (hne : obus ≠ [])
    (hfill : fillMessage setting obus sequenceNumber [] = some result) :
    result.1.rest.length < obus.length := by
  have hmore : obus ≠ [] ∧ ([] : List (SignalStatus Lane)).length < setting.listMax :=
    ⟨hne, setting.listMax_pos⟩
  cases hstatus : fillStatus setting obus [] with
  | none => simp [fillMessage_none hmore hstatus] at hfill
  | some filled =>
      rw [fillMessage_some hmore hstatus, Option.map_eq_some_iff] at hfill
      obtain ⟨message, hrest, rfl⟩ := hfill
      exact (fillMessage_rest_le setting hrest).trans_lt (fillStatus_rest_lt setting hne hstatus)

/-- A round: its messages, the list that it leaves, and the next sequence number. A message that
stays empty is not sent. -/
structure Round (Lane : Type*) (places : ℕ) where
  messages : List (SignalStatusMessage Lane)
  obus : List (SpmObuObj Lane places)
  sequenceNumber : ℕ

def LocalTime.timeStamp (time : LocalTime) : ℕ := (time.yday * 24 + time.hour) * 60 + time.min

def LocalTime.second (time : LocalTime) : ℕ := time.sec * 1000 + time.usec / 1000

/-- The loop over the messages. -/
def fillMessages (obus : List (SpmObuObj Lane places)) (sequenceNumber : ℕ)
    (messages : List (SignalStatusMessage Lane)) : Option (Round Lane places) :=
  if _ : obus ≠ [] then
    match hfill : fillMessage setting obus sequenceNumber [] with
    | none => none
    | some (message, next) =>
        let messages :=
          if message.tab = [] then messages
          else messages ++ [⟨setting.time.timeStamp, setting.time.second, message.tab⟩]
        (fillMessages message.rest next messages).map fun round =>
          { round with obus := message.passed ++ round.obus }
  else some ⟨messages, [], sequenceNumber⟩
termination_by obus.length
decreasing_by exact fillMessage_rest_lt setting ‹obus ≠ []› hfill

/-- A round of `SPM_repeater`. -/
def spmRepeater (obus : SpmObuList Lane places) (sequenceNumber : ℕ) :
    Option (Round Lane places) :=
  fillMessages setting obus.entries sequenceNumber []

end AdaptiveSignal.Spm
