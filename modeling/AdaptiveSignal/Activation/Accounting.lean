import AdaptiveSignal.Activation.Handlers
import AdaptiveSignal.Foundation.Run

/-! # The number of active vehicles

`activate_amount` is meant to be the number of activated emergency vehicles and
listed buses: the pedestrian countdown stays off while it is positive. Every
handler changes the counter and the lists each by an amount of its own. A step
keeps the two equal exactly when these amounts agree, and the runs that do so
throughout are characterized by a condition on their single steps.
-/

namespace AdaptiveSignal.Signal

open Foundation

namespace Middleware

/-! ## What leaves the counter alone -/

/-- Neither the counter nor the switch of the bus application changes. -/
structure SameActivation (s s' : Middleware) : Prop where
  amount : s'.activateAmount = s.activateAmount
  tspSwitch : s'.tspDontSend2TC = s.tspDontSend2TC

theorem SameActivation.refl (s : Middleware) : SameActivation s s := ⟨rfl, rfl⟩

theorem SameActivation.trans {s s' s'' : Middleware} (h : SameActivation s s')
    (h' : SameActivation s' s'') : SameActivation s s'' :=
  ⟨h'.amount.trans h.amount, h'.tspSwitch.trans h.tspSwitch⟩

theorem insert_sameActivation (s : Middleware) (command : TscCommand) :
    SameActivation s (s.commandBufInsertEffectTime command).2 := by
  by_cases haccept : (s.commandBufInsertEffectTime command).1 = .insertAccept
  · rw [(insert_accepted haccept).2.2]
    exact ⟨rfl, rfl⟩
  · rw [insert_refused haccept]
    exact SameActivation.refl s

theorem resumeControl_sameActivation (s : Middleware) (app : Option Bool) :
    SameActivation s (s.commandBufResumeControl app).2 := by
  unfold commandBufResumeControl
  split
  · exact insert_sameActivation s _
  · exact SameActivation.refl s

theorem insertAdjustment_sameActivation (s : Middleware) (bounds : AdjustBounds)
    (command : TscCommand) (adjustment : Int8) :
    SameActivation s (s.commandBufInsertAdjustment bounds command adjustment).2 := by
  unfold commandBufInsertAdjustment
  split_ifs
  · exact SameActivation.refl s
  · exact SameActivation.refl s
  all_goals exact insert_sameActivation s _

theorem tspFirstInsert_sameActivation (s : Middleware) (bounds : AdjustBounds)
    (obuName : HostName) (targetPhase : UInt8) :
    SameActivation s (s.tspFirstInsert bounds obuName targetPhase) := by
  unfold tspFirstInsert
  split_ifs
  · exact SameActivation.refl s
  · exact insertAdjustment_sameActivation s bounds _ 1

theorem commandBufSend_sameActivation (s : Middleware) (obj : TscCommandObject) (phase : UInt8) :
    SameActivation s (s.commandBufSend obj phase) := by
  simp only [commandBufSend, countdownOff, setCompensationBuffer, countdownOn]
  split_ifs <;> exact ⟨rfl, rfl⟩

theorem startCompensation_sameActivation (s : Middleware)
    (requests : List CompensationRequest) :
    SameActivation s (s.startCompensation requests) := by
  have hinserts := run_related
    (fun (s : Middleware) (request : CompensationRequest) =>
      (s.commandBufInsertEffectTime request.command).2)
    SameActivation.refl SameActivation.trans
    (fun s request => insert_sameActivation s request.command) s requests
  unfold startCompensation
  split_ifs
  · exact hinserts.trans ⟨rfl, rfl⟩
  · exact ⟨rfl, rfl⟩

theorem crossPhase_sameActivation (s : Middleware) (snapshot : TrafficSignalStatus)
    (requests : List CompensationRequest) :
    SameActivation s (s.crossPhase snapshot requests) := by
  unfold crossPhase compensated
  split_ifs
  · exact (startCompensation_sameActivation s requests).trans ⟨rfl, rfl⟩
  · exact ⟨rfl, rfl⟩
  · exact SameActivation.refl s

theorem beforeSend_sameActivation (s : Middleware) (snapshot : TrafficSignalStatus)
    (requests : List CompensationRequest) :
    SameActivation s (s.beforeSend snapshot requests) := by
  refine (crossPhase_sameActivation s snapshot requests).trans ?_
  unfold beforeSend pretimeStep
  split_ifs <;> exact ⟨rfl, rfl⟩

theorem sendReady_sameActivation (s : Middleware) (snapshot : TrafficSignalStatus) :
    SameActivation s (s.sendReady snapshot) := by
  unfold sendReady
  split_ifs
  · exact (commandBufSend_sameActivation s _ _).trans ⟨rfl, rfl⟩
  · exact SameActivation.refl s

theorem poll_sameActivation (s : Middleware) (requests : List CompensationRequest) :
    SameActivation s (s.commandBufPolling requests) := by
  have hbody := (beforeSend_sameActivation s s.status requests).trans
    (sendReady_sameActivation _ s.status)
  unfold commandBufPolling commandBufPollingFrom
  split_ifs
  · exact SameActivation.refl s
  · exact ⟨rfl, rfl⟩
  · exact ⟨hbody.amount, hbody.tspSwitch⟩

theorem packet5FCC_sameActivation (s : Middleware) (packet : TrafficSignalPacket) :
    SameActivation s (s.packet5FCC packet) := by
  simp only [packet5FCC, updateSubPhase, updateCycleIndex]
  split_ifs <;> exact ⟨rfl, rfl⟩

theorem packet5FC8_sameActivation (s : Middleware) (packet : TrafficSignalPacket) :
    SameActivation s (s.packet5FC8 packet) := by
  simp only [packet5FC8, updatePhaseOrder, commandBufClear]
  split_ifs <;> exact ⟨rfl, rfl⟩

theorem packet5FC5_sameActivation (s : Middleware) (packet : TrafficSignalPacket) :
    SameActivation s (s.packet5FC5 packet) := by
  simp only [packet5FC5, updatePhaseOrder, commandBufClear]
  split_ifs <;> exact ⟨rfl, rfl⟩

/-! ## What moves the counter -/

theorem countEmergency_amount (s : Middleware) :
    s.countEmergency.activateAmount.toNat =
      s.activateAmount.toNat / 256 * 256 + (s.activateAmount.toNat + 1) % 256 := by
  have hlt := s.activateAmount.toNat_lt
  simp only [countEmergency, UInt32.toNat_add, UInt32.toNat_mul, UInt32.toNat_div,
    UInt32.toNat_mod, UInt32.reduceToNat]
  omega

theorem countBus_amount (s : Middleware) :
    s.countBus.activateAmount.toNat = (s.activateAmount.toNat + 1) % UInt32.size := by
  simp [countBus]

theorem deleteObu_amount (s : Middleware) (hostObuName : HostName) :
    (s.commandBufDeleteObu hostObuName).activateAmount.toNat = s.activateAmount.toNat - 1 := by
  have hlt := s.activateAmount.toNat_lt
  simp only [commandBufDeleteObu, UInt32.lt_iff_toNat_lt, UInt32.reduceToNat]
  split_ifs with hpos
  · rw [UInt32.toNat_sub_of_le]
    · rfl
    · rw [UInt32.le_iff_toNat_le]
      exact hpos
  · omega

end Middleware

/-! ## The count -/

inductive ActivationEvent
  | obuPacket (packet : EvspObuPacket)
  | evspHostObuPacketTimeout (obuName : HostName) (now : Int)
  | evspHostObuListTimeout (obuName : HostName) (now : Int)
  | tspIntersectionControl (obuName : HostName) (targetPhase : UInt8)
  | tspHostDelete (obuName : HostName)
  | tspHostObuListTimeout (obuName : HostName)
  | command (command : TscCommand)
  | poll (requests : List CompensationRequest)
  | packet5FCC (packet : TrafficSignalPacket)
  | packet5FC8 (packet : TrafficSignalPacket)
  | packet5FC5 (packet : TrafficSignalPacket)

namespace Intersection

def amount (s : Intersection) : ℕ := s.middleware.activateAmount.toNat

/-- Activated emergency vehicles and listed buses. -/
def counted (s : Intersection) : ℕ :=
  s.evspHosts.count EvspHostObu.activated + s.tspHosts.count fun _ => true

def Accounted (s : Intersection) : Prop := s.amount = s.counted

instance (s : Intersection) : Decidable s.Accounted :=
  inferInstanceAs (Decidable (s.amount = s.counted))

def step (s : Intersection) : ActivationEvent → Intersection
  | .obuPacket packet => s.evspOnObuPacketRx packet
  | .evspHostObuPacketTimeout obuName now => s.evspHostObuPacketTimeout obuName now
  | .evspHostObuListTimeout obuName now => s.evspHostObuListTimeout obuName now
  | .tspIntersectionControl obuName targetPhase => s.tspIntersectionControl obuName targetPhase
  | .tspHostDelete obuName => s.tspHostDelete obuName
  | .tspHostObuListTimeout obuName => s.tspHostObuListTimeout obuName
  | .command command =>
      { s with middleware := (s.middleware.commandBufInsertEffectTime command).2 }
  | .poll requests => { s with middleware := s.middleware.commandBufPolling requests }
  | .packet5FCC packet => { s with middleware := s.middleware.packet5FCC packet }
  | .packet5FC8 packet => { s with middleware := s.middleware.packet5FC8 packet }
  | .packet5FC5 packet => { s with middleware := s.middleware.packet5FC5 packet }

/-- The handler gets as far as to search the vehicle. -/
def searches (s : Intersection) (packet : EvspObuPacket) : Bool :=
  packet.admitted s.rsuId && s.middleware.status.subPhaseId ≠ 0

/-- The listed vehicle that a packet finds in a terminate area. -/
def leaving (s : Intersection) (packet : EvspObuPacket) : Option EvspHostObu :=
  if s.searches packet then
    ((s.evspSeen packet).evspHosts.search packet.obuName.obuName).filter fun host =>
      (host.area.terminate packet.terminateAreas).isSome
  else none

/-- The packet is the touch that activates a vehicle listed before. -/
def activates (s : Intersection) (packet : EvspObuPacket) (host : EvspHostObu) : Bool :=
  (host.area.terminate packet.terminateAreas).isNone && host.isActivate = 1 &&
    (s.evspTouched packet).isSome && s.evspReaches host

def activating (s : Intersection) (packet : EvspObuPacket) : Bool :=
  s.searches packet &&
    ((s.evspSeen packet).evspHosts.search packet.obuName.obuName).any
      ((s.evspSeen packet).activates packet)

/-- The removal of the vehicle takes off what its activation added. -/
def Counts (s : Intersection) (host : EvspHostObu) : Prop :=
  host.activated = true ∨ s.amount = 0

/-- A bus is requested only when it is not listed, and removed only when it is;
an emergency vehicle is removed only after its activation; and no timer removes
a bus. Nothing is taken off an empty counter, and neither increment may wrap. -/
def KeepsCount (s : Intersection) : ActivationEvent → Prop
  | .obuPacket packet =>
      (∀ host ∈ s.leaving packet, s.Counts host) ∧
        (s.activating packet = true → s.amount % 256 ≠ 255)
  | .evspHostObuPacketTimeout obuName _ =>
      ∀ host ∈ s.evspHosts.search obuName.obuName, s.Counts host
  | .evspHostObuListTimeout obuName _ =>
      ∀ host ∈ s.evspHosts.search obuName.obuName, s.Counts host
  | .tspIntersectionControl obuName _ =>
      s.tspHosts.search obuName.obuName = none ∧ s.amount + 1 < UInt32.size
  | .tspHostDelete obuName =>
      (s.tspHosts.search obuName.obuName).isSome = true ∨ s.amount = 0
  | .tspHostObuListTimeout obuName => s.tspHosts.search obuName.obuName = none
  | _ => True

/-! ## What one handler adds and takes off -/

section Effects

variable {s : Intersection} {host : EvspHostObu} {obuName : HostName}

theorem evspSeen_counted (s : Intersection) (packet : EvspObuPacket) :
    (s.evspSeen packet).counted = s.counted := by
  have hsame : (s.evspSeen packet).evspHosts.count EvspHostObu.activated =
      s.evspHosts.count EvspHostObu.activated := by
    cases hsearch : s.evspHosts.search packet.obuName.obuName with
    | none =>
        have hseen : (s.evspSeen packet).evspHosts = s.evspHosts :=
          KeyedList.update_of_absent (f := EvspHostObu.update ⟨packet.strayTouching, 0⟩)
            (fun _ => rfl) hsearch
        rw [hseen]
    | some host =>
        have hcount : (s.evspSeen packet).evspHosts.count EvspHostObu.activated + _ = _ :=
          KeyedList.count_update (f := EvspHostObu.update ⟨packet.strayTouching, 0⟩)
            (fun _ => rfl) hsearch EvspHostObu.activated
        rw [update_activated_of_idle] at hcount
        exact Nat.add_right_cancel hcount
  rw [counted, hsame]
  rfl

theorem evspHostLeaves_sameActivation (s : Intersection) (host : EvspHostObu) (now : Int) :
    Middleware.SameActivation (s.middleware.commandBufDeleteObu host.obuName)
      (s.evspHostLeaves host now).middleware := by
  simp only [evspHostLeaves]
  split_ifs
  · exact Middleware.resumeControl_sameActivation _ _
  · exact .refl _

theorem evspHostLeaves_amount (s : Intersection) (host : EvspHostObu) (now : Int) :
    (s.evspHostLeaves host now).amount = s.amount - 1 := by
  rw [amount, (evspHostLeaves_sameActivation s host now).amount, Middleware.deleteObu_amount]
  rfl

theorem evspHostLeaves_counted (hsearch : s.evspHosts.search obuName.obuName = some host)
    (now : Int) :
    (s.evspHostLeaves host now).counted + host.activated.toNat = s.counted := by
  have hlists : (s.evspHostLeaves host now).counted =
      (s.evspHosts.delete host.key).count EvspHostObu.activated +
        s.tspHosts.count fun _ => true := by
    simp only [evspHostLeaves]
    split_ifs <;> rfl
  rw [← KeyedList.search_eq_some hsearch] at hsearch
  have hcount := KeyedList.count_delete hsearch EvspHostObu.activated
  rw [hlists, counted]
  omega

@[simp] theorem new_key (obuName : HostName) (targetPhase : UInt8) (area : EvspTouchingArea) :
    (EvspHostObu.new obuName targetPhase area).key = obuName.obuName :=
  obuName_obuName obuName

theorem evspInsert_counted (s : Intersection) (obuName : HostName) (targetPhase : UInt8)
    (area : EvspTouchingArea) (isActivate : UInt8) :
    (s.evspInsert obuName targetPhase area isActivate).counted =
      (s.evspHosts.insertObu obuName targetPhase area ⟨1, isActivate⟩).count
          EvspHostObu.activated +
        s.tspHosts.count fun _ => true := rfl

theorem evspInsert_counted_listed (targetPhase : UInt8) (area : EvspTouchingArea)
    {isActivate : UInt8} (hsearch : s.evspHosts.search obuName.obuName = some host)
    (hidle : host.activated = false) (hset : isActivate ≠ 0) :
    (s.evspInsert obuName targetPhase area isActivate).counted =
      s.counted + (decide (isActivate = 2)).toNat := by
  rw [← new_key obuName targetPhase area] at hsearch
  have hcount : (s.evspHosts.insertObu obuName targetPhase area ⟨1, isActivate⟩).count
      EvspHostObu.activated + _ = _ :=
    KeyedList.count_insert_of_listed hsearch EvspHostObu.activated
  have hupdated : (host.update ⟨1, isActivate⟩).activated = decide (isActivate = 2) := by
    simp [EvspHostObu.update, EvspHostObu.activated, hset]
  rw [hidle, hupdated, Bool.toNat_false] at hcount
  rw [evspInsert_counted, counted]
  omega

theorem evspInsert_counted_absent (targetPhase : UInt8) (area : EvspTouchingArea)
    (hsearch : s.evspHosts.search obuName.obuName = none) :
    (s.evspInsert obuName targetPhase area 1).counted = s.counted := by
  rw [← new_key obuName targetPhase area] at hsearch
  have hcount : (s.evspHosts.insertObu obuName targetPhase area ⟨1, 1⟩).count
      EvspHostObu.activated = _ :=
    KeyedList.count_insert_of_absent hsearch EvspHostObu.activated
  have hupdated : ((EvspHostObu.new obuName targetPhase area).update ⟨1, 1⟩).activated =
      false := rfl
  rw [hupdated, Bool.toNat_false] at hcount
  rw [evspInsert_counted, counted]
  omega

/-- What a touch of a listed vehicle adds: one, if it is the touch that
activates the vehicle. -/
theorem evspTouchesAgain_effect (packet : EvspObuPacket)
    (hsearch : s.evspHosts.search packet.obuName.obuName = some host)
    (hstays : host.area.terminate packet.terminateAreas = none) :
    if s.activates packet host then
      (s.evspTouchesAgain host packet).amount =
          s.amount / 256 * 256 + (s.amount + 1) % 256 ∧
        (s.evspTouchesAgain host packet).counted = s.counted + 1
    else
      (s.evspTouchesAgain host packet).amount = s.amount ∧
        (s.evspTouchesAgain host packet).counted = s.counted := by
  by_cases hwaits : host.isActivate = 1
  · have hidle : host.activated = false := by simp [EvspHostObu.activated, hwaits]
    cases htouched : s.evspTouched packet with
    | none => simp [activates, evspTouchesAgain, hwaits, htouched]
    | some touched =>
        obtain ⟨targetPhase, area⟩ := touched
        by_cases hreaches : s.evspReaches host = true
        · simp only [activates, evspTouchesAgain, hstays, hwaits, htouched, hreaches,
            Option.isNone_none, Option.isSome_some, decide_true, Bool.and_self, if_true]
          exact ⟨Middleware.countEmergency_amount s.middleware,
            evspInsert_counted_listed targetPhase area hsearch hidle (by decide)⟩
        · simp only [activates, evspTouchesAgain, hwaits, htouched, hreaches, Bool.and_false,
            Bool.false_eq_true, if_true, if_false]
          exact ⟨rfl, evspInsert_counted_listed targetPhase area hsearch hidle (by decide)⟩
  · simp [activates, evspTouchesAgain, hwaits]

theorem evspTouchesFirst_effect (packet : EvspObuPacket)
    (hsearch : s.evspHosts.search packet.obuName.obuName = none) :
    (s.evspTouchesFirst packet).amount = s.amount ∧
      (s.evspTouchesFirst packet).counted = s.counted := by
  unfold evspTouchesFirst
  split
  · exact ⟨rfl, rfl⟩
  · split
    · exact ⟨rfl, rfl⟩
    · next targetPhase area _ =>
        simp only []
        split_ifs
        · exact ⟨rfl, evspInsert_counted_absent targetPhase area hsearch⟩
        · exact ⟨rfl, rfl⟩

theorem evspOnObuPacketRx_of_searches {packet : EvspObuPacket}
    (hsearches : s.searches packet = true) :
    s.evspOnObuPacketRx packet = (s.evspSeen packet).evspSearched packet := by
  simp only [searches, Bool.and_eq_true, decide_eq_true_eq] at hsearches
  simp only [evspOnObuPacketRx, hsearches.1, if_true]
  exact if_neg hsearches.2

theorem evspOnObuPacketRx_of_not_searches {packet : EvspObuPacket}
    (hsearches : ¬ s.searches packet = true) :
    s.evspOnObuPacketRx packet = s ∨ s.evspOnObuPacketRx packet = s.evspSeen packet := by
  by_cases hadmitted : packet.admitted s.rsuId = true
  · have hphase : s.middleware.status.subPhaseId = 0 := by
      simpa [searches, hadmitted] using hsearches
    simp only [evspOnObuPacketRx, hadmitted, if_true]
    exact Or.inr (if_pos hphase)
  · exact Or.inl (if_neg hadmitted)

/-- A packet removes a vehicle, activates one, or leaves counter and count alone. -/
theorem obuPacket_effect (s : Intersection) (packet : EvspObuPacket) :
    (∃ host, s.leaving packet = some host ∧ s.activating packet = false ∧
      (s.evspOnObuPacketRx packet).amount = s.amount - 1 ∧
      (s.evspOnObuPacketRx packet).counted + host.activated.toNat = s.counted) ∨
    (s.leaving packet = none ∧ s.activating packet = true ∧
      (s.evspOnObuPacketRx packet).amount = s.amount / 256 * 256 + (s.amount + 1) % 256 ∧
      (s.evspOnObuPacketRx packet).counted = s.counted + 1) ∨
    (s.leaving packet = none ∧ s.activating packet = false ∧
      (s.evspOnObuPacketRx packet).amount = s.amount ∧
      (s.evspOnObuPacketRx packet).counted = s.counted) := by
  -- the update on the way to the vehicle activates nothing
  have hseen := evspSeen_counted s packet
  have hsame : (s.evspSeen packet).amount = s.amount := rfl
  by_cases hsearches : s.searches packet = true
  · rw [evspOnObuPacketRx_of_searches hsearches]
    cases hsearch : (s.evspSeen packet).evspHosts.search packet.obuName.obuName with
    | none =>
        have heffect := evspTouchesFirst_effect packet hsearch
        simp only [hseen, hsame] at heffect
        simp only [evspSearched, hsearch]
        exact Or.inr (Or.inr
          ⟨by simp [leaving, hsearch], by simp [activating, hsearch], heffect⟩)
    | some host =>
        cases harea : host.area.terminate packet.terminateAreas with
        | some _ =>
            have hcounted := evspHostLeaves_counted hsearch packet.now
            have hamount := evspHostLeaves_amount (s.evspSeen packet) host packet.now
            rw [hseen] at hcounted
            rw [hsame] at hamount
            simp only [evspSearched, hsearch, harea]
            exact Or.inl ⟨host, by simp [leaving, hsearches, hsearch, harea],
              by simp [activating, activates, hsearch, harea], hamount, hcounted⟩
        | none =>
            have hleaving : s.leaving packet = none := by simp [leaving, hsearch, harea]
            have heffect := evspTouchesAgain_effect packet hsearch harea
            rw [hseen, hsame] at heffect
            simp only [evspSearched, hsearch, harea]
            by_cases hactivates : (s.evspSeen packet).activates packet host = true
            · rw [if_pos hactivates] at heffect
              exact Or.inr (Or.inl
                ⟨hleaving, by simp [activating, hsearches, hsearch, hactivates], heffect⟩)
            · rw [if_neg hactivates] at heffect
              exact Or.inr (Or.inr
                ⟨hleaving, by simp [activating, hsearch, hactivates], heffect⟩)
  · refine Or.inr (Or.inr
      ⟨by simp [leaving, hsearches], by simp [activating, hsearches], ?_⟩)
    rcases evspOnObuPacketRx_of_not_searches hsearches with heq | heq <;> rw [heq]
    · exact ⟨rfl, rfl⟩
    · exact ⟨hsame, hseen⟩

/-- A removal keeps counter and count equal if it removes what counts, or
nothing is left to take off. -/
theorem removal_iff {amount amount' counted counted' : ℕ} {counts : Bool}
    (hbefore : amount = counted) (hamount : amount' = amount - 1)
    (hcounted : counted' + counts.toNat = counted) :
    amount' = counted' ↔ counts = true ∨ amount = 0 := by
  cases counts with
  | false =>
      rw [Bool.toNat_false] at hcounted
      simp only [Bool.false_eq_true, false_or]
      omega
  | true =>
      rw [Bool.toNat_true] at hcounted
      simp only [true_or, iff_true]
      omega

theorem evspHostTimeout_accounted (hcount : s.Accounted) (obuName : HostName) (now : Int) :
    (s.evspHostTimeout obuName now).Accounted ↔
      ∀ host ∈ s.evspHosts.search obuName.obuName, s.Counts host := by
  unfold evspHostTimeout
  cases hsearch : s.evspHosts.search obuName.obuName with
  | none => simpa using hcount
  | some host =>
      simp only [Option.mem_some_iff, forall_eq']
      exact removal_iff hcount (evspHostLeaves_amount s host now)
        (evspHostLeaves_counted hsearch now)

theorem obuPacket_accounted (hcount : s.Accounted) (packet : EvspObuPacket) :
    (s.evspOnObuPacketRx packet).Accounted ↔
      (∀ host ∈ s.leaving packet, s.Counts host) ∧
        (s.activating packet = true → s.amount % 256 ≠ 255) := by
  have hbefore : s.amount = s.counted := hcount
  rcases obuPacket_effect s packet with
    ⟨host, hleaving, hactivating, hamount, hcounted⟩ |
    ⟨hleaving, hactivating, hamount, hcounted⟩ | ⟨hleaving, hactivating, hamount, hcounted⟩
  · simp only [hleaving, hactivating, Option.mem_some_iff, forall_eq', Bool.false_eq_true,
      false_implies, and_true]
    exact removal_iff hcount hamount hcounted
  · simp only [Accounted, hleaving, hactivating, hamount, hcounted, Option.not_mem_none,
      false_implies, implies_true, true_and, forall_const]
    omega
  · simpa [Accounted, hleaving, hactivating, hamount, hcounted] using hbefore

@[simp] theorem bus_key (obuName : HostName) (targetPhase : UInt8) :
    (TspHostObu.new obuName targetPhase).key = obuName.obuName :=
  obuName_obuName obuName

/-- A request for a bus adds it once. -/
theorem tspHostObuInsert_counted (s : Intersection) (obuName : HostName) (targetPhase : UInt8) :
    (s.tspHostObuInsert obuName targetPhase).counted =
      s.counted + (s.tspHosts.search obuName.obuName).isNone.toNat := by
  have hsearch : s.tspHosts.search (TspHostObu.new obuName targetPhase).key =
      s.tspHosts.search obuName.obuName := by rw [bus_key]
  unfold tspHostObuInsert
  cases hlisted : s.tspHosts.search obuName.obuName with
  | some host =>
      have hcount : (s.tspHosts.insertObu obuName targetPhase).count (fun _ => true) + _ = _ :=
        KeyedList.count_insert_of_listed (hsearch.trans hlisted) fun _ => true
      change s.evspHosts.count _ + (s.tspHosts.insertObu obuName targetPhase).count _ = _
      simp only [Bool.toNat_true] at hcount
      simp only [counted, Option.isNone_some, Bool.toNat_false]
      omega
  | none =>
      have hcount : (s.tspHosts.insertObu obuName targetPhase).count (fun _ => true) = _ :=
        KeyedList.count_insert_of_absent (hsearch.trans hlisted) fun _ => true
      change s.evspHosts.count _ + (s.tspHosts.insertObu obuName targetPhase).count _ = _
      simp only [Bool.toNat_true] at hcount
      simp only [counted, Option.isNone_none, Bool.toNat_true]
      omega

theorem tspHostObuInsert_sameActivation (s : Intersection) (obuName : HostName)
    (targetPhase : UInt8) :
    Middleware.SameActivation s.middleware (s.tspHostObuInsert obuName targetPhase).middleware := by
  unfold tspHostObuInsert
  cases s.tspHosts.search obuName.obuName with
  | some _ => exact .refl _
  | none => exact Middleware.tspFirstInsert_sameActivation _ _ _ _

theorem tspIntersectionControl_accounted (hcount : s.Accounted)
    (henabled : s.middleware.tspDontSend2TC = false) (obuName : HostName) (targetPhase : UInt8) :
    (s.tspIntersectionControl obuName targetPhase).Accounted ↔
      s.tspHosts.search obuName.obuName = none ∧ s.amount + 1 < UInt32.size := by
  obtain ⟨hsame, hswitch⟩ := tspHostObuInsert_sameActivation s obuName targetPhase
  have hbefore : s.amount = s.counted := hcount
  have hlt : s.amount < UInt32.size := s.middleware.activateAmount.toNat_lt
  have hcounted := tspHostObuInsert_counted s obuName targetPhase
  have hamount : (s.tspIntersectionControl obuName targetPhase).amount =
      (s.amount + 1) % UInt32.size := by
    simp only [tspIntersectionControl, hswitch, henabled, Bool.false_eq_true, if_false]
    exact (Middleware.countBus_amount _).trans (by rw [hsame]; rfl)
  have hlists : (s.tspIntersectionControl obuName targetPhase).counted =
      (s.tspHostObuInsert obuName targetPhase).counted := by
    simp only [tspIntersectionControl]
    split_ifs <;> rfl
  rw [Accounted, hamount, hlists, hcounted]
  simp only [UInt32.size] at hlt ⊢
  cases s.tspHosts.search obuName.obuName with
  | some host =>
      simp only [Option.isNone_some, Bool.toNat_false, reduceCtorEq, false_and, iff_false]
      omega
  | none =>
      simp only [Option.isNone_none, Bool.toNat_true, true_and]
      omega

theorem tspHostObuDelete_counted (s : Intersection) (obuName : HostName) :
    (s.tspHostObuDelete obuName).counted + (s.tspHosts.search obuName.obuName).isSome.toNat =
      s.counted := by
  have hlists : (s.tspHostObuDelete obuName).counted =
      s.evspHosts.count EvspHostObu.activated +
        (s.tspHosts.delete obuName.obuName).count fun _ => true := rfl
  rw [hlists, counted]
  cases hsearch : s.tspHosts.search obuName.obuName with
  | none =>
      rw [KeyedList.delete_of_absent hsearch]
      rfl
  | some host =>
      have hcount := KeyedList.count_delete hsearch fun _ => true
      simp only [Bool.toNat_true] at hcount
      simp only [Option.isSome_some, Bool.toNat_true]
      omega

theorem tspHostDelete_sameActivation (s : Intersection) (obuName : HostName) :
    Middleware.SameActivation (s.middleware.commandBufDeleteObu obuName.obuName)
      (s.tspHostDelete obuName).middleware :=
  Middleware.resumeControl_sameActivation _ _

theorem tspHostDelete_accounted (hcount : s.Accounted) (obuName : HostName) :
    (s.tspHostDelete obuName).Accounted ↔
      (s.tspHosts.search obuName.obuName).isSome = true ∨ s.amount = 0 := by
  have hamount : (s.tspHostDelete obuName).amount = s.amount - 1 := by
    rw [amount, (tspHostDelete_sameActivation s obuName).amount, Middleware.deleteObu_amount]
    rfl
  exact removal_iff hcount hamount (tspHostObuDelete_counted s obuName)

theorem tspHostObuListTimeout_accounted (hcount : s.Accounted) (obuName : HostName) :
    (s.tspHostObuListTimeout obuName).Accounted ↔ s.tspHosts.search obuName.obuName = none := by
  have hbefore : s.amount = s.counted := hcount
  have hamount : (s.tspHostObuListTimeout obuName).amount = s.amount := rfl
  have hcounted : (s.tspHostObuListTimeout obuName).counted + _ = s.counted :=
    tspHostObuDelete_counted s obuName
  rw [Accounted, hamount]
  cases hsearch : s.tspHosts.search obuName.obuName with
  | none =>
      rw [hsearch, Option.isSome_none, Bool.toNat_false] at hcounted
      simp only [iff_true]
      omega
  | some host =>
      rw [hsearch, Option.isSome_some, Bool.toNat_true] at hcounted
      simp only [reduceCtorEq, iff_false]
      omega

theorem middleware_accounted {m : Middleware} (hsame : Middleware.SameActivation s.middleware m)
    (hcount : s.Accounted) : ({ s with middleware := m } : Intersection).Accounted := by
  change m.activateAmount.toNat = _
  rw [hsame.amount]
  exact hcount

end Effects

/-! ## Runs -/

theorem evspTouchesAgain_tspSwitch (s : Intersection) (host : EvspHostObu)
    (packet : EvspObuPacket) :
    (s.evspTouchesAgain host packet).middleware.tspDontSend2TC = s.middleware.tspDontSend2TC := by
  unfold evspTouchesAgain
  by_cases hwaits : host.isActivate = 1
  · rw [if_pos hwaits]
    cases s.evspTouched packet with
    | none => rfl
    | some touched =>
        simp only []
        split_ifs <;> rfl
  · rw [if_neg hwaits]

theorem evspTouchesFirst_tspSwitch (s : Intersection) (packet : EvspObuPacket) :
    (s.evspTouchesFirst packet).middleware.tspDontSend2TC = s.middleware.tspDontSend2TC := by
  unfold evspTouchesFirst
  split
  · rfl
  · split
    · rfl
    · simp only []
      split_ifs <;> rfl

theorem evspSearched_tspSwitch (s : Intersection) (packet : EvspObuPacket) :
    (s.evspSearched packet).middleware.tspDontSend2TC = s.middleware.tspDontSend2TC := by
  unfold evspSearched
  split
  · split
    · exact (evspHostLeaves_sameActivation s _ packet.now).tspSwitch
    · exact evspTouchesAgain_tspSwitch s _ packet
  · exact evspTouchesFirst_tspSwitch s packet

theorem evspHostTimeout_tspSwitch (s : Intersection) (obuName : HostName) (now : Int) :
    (s.evspHostTimeout obuName now).middleware.tspDontSend2TC = s.middleware.tspDontSend2TC := by
  unfold evspHostTimeout
  split
  · exact (evspHostLeaves_sameActivation s _ now).tspSwitch
  · rfl

/-- No handler of a vehicle or of the controller moves the switch. -/
theorem step_tspSwitch (s : Intersection) (event : ActivationEvent) :
    (s.step event).middleware.tspDontSend2TC = s.middleware.tspDontSend2TC := by
  cases event with
  | obuPacket packet =>
      by_cases hsearches : s.searches packet = true
      · exact congrArg (fun s => s.middleware.tspDontSend2TC)
          (evspOnObuPacketRx_of_searches hsearches) |>.trans (evspSearched_tspSwitch _ packet)
      · rcases evspOnObuPacketRx_of_not_searches hsearches with heq | heq <;>
          exact congrArg (fun s => s.middleware.tspDontSend2TC) heq
  | evspHostObuPacketTimeout obuName now => exact evspHostTimeout_tspSwitch s obuName now
  | evspHostObuListTimeout obuName now => exact evspHostTimeout_tspSwitch s obuName now
  | tspIntersectionControl obuName targetPhase =>
      have hinsert := (tspHostObuInsert_sameActivation s obuName targetPhase).tspSwitch
      simp only [step, tspIntersectionControl]
      split_ifs <;> exact hinsert
  | tspHostDelete obuName => exact (tspHostDelete_sameActivation s obuName).tspSwitch
  | tspHostObuListTimeout obuName => rfl
  | command command => exact (Middleware.insert_sameActivation _ command).tspSwitch
  | poll requests => exact (Middleware.poll_sameActivation _ requests).tspSwitch
  | packet5FCC packet => exact (Middleware.packet5FCC_sameActivation _ packet).tspSwitch
  | packet5FC8 packet => exact (Middleware.packet5FC8_sameActivation _ packet).tspSwitch
  | packet5FC5 packet => exact (Middleware.packet5FC5_sameActivation _ packet).tspSwitch

/-- A step from equal counter and count keeps them equal exactly under its
condition. -/
theorem step_accounted {s : Intersection} (hcount : s.Accounted)
    (henabled : s.middleware.tspDontSend2TC = false) (event : ActivationEvent) :
    (s.step event).Accounted ↔ s.KeepsCount event := by
  cases event with
  | obuPacket packet => exact obuPacket_accounted hcount packet
  | evspHostObuPacketTimeout obuName now => exact evspHostTimeout_accounted hcount obuName now
  | evspHostObuListTimeout obuName now => exact evspHostTimeout_accounted hcount obuName now
  | tspIntersectionControl obuName targetPhase =>
      exact tspIntersectionControl_accounted hcount henabled obuName targetPhase
  | tspHostDelete obuName => exact tspHostDelete_accounted hcount obuName
  | tspHostObuListTimeout obuName => exact tspHostObuListTimeout_accounted hcount obuName
  | command command =>
      exact iff_of_true (middleware_accounted (Middleware.insert_sameActivation _ _) hcount) trivial
  | poll requests =>
      exact iff_of_true (middleware_accounted (Middleware.poll_sameActivation _ _) hcount) trivial
  | packet5FCC packet =>
      exact iff_of_true
        (middleware_accounted (Middleware.packet5FCC_sameActivation _ _) hcount) trivial
  | packet5FC8 packet =>
      exact iff_of_true
        (middleware_accounted (Middleware.packet5FC8_sameActivation _ _) hcount) trivial
  | packet5FC5 packet =>
      exact iff_of_true
        (middleware_accounted (Middleware.packet5FC5_sameActivation _ _) hcount) trivial

/-- With both lists empty the counter is back at zero, and the next command that
reaches the controller leaves the countdown switched on. -/
def CountdownReturns (s : Intersection) : Prop :=
  s.evspHosts.isEmpty = true → s.tspHosts.isEmpty = true →
    s.middleware.activateAmount = 0 ∧
      ∀ requests obj, s.middleware.sentToController s.middleware.status requests = some obj →
        (s.middleware.commandBufPolling requests).pedCountdown = true

theorem send_countdown_on {m : Middleware} (hnone : m.activateAmount = 0) (obj : TscCommandObject)
    (phase : UInt8) (hsend : m.sendRefused obj = false) :
    (m.commandBufSend obj phase).pedCountdown = true := by
  simp only [Middleware.commandBufSend, hsend, Bool.false_eq_true, if_false,
    Middleware.countdownOff, Middleware.setCompensationBuffer, Middleware.countdownOn, hnone]
  split_ifs <;> simp_all

theorem poll_countdown_on {m : Middleware} (hnone : m.activateAmount = 0)
    {requests : List CompensationRequest} {obj : TscCommandObject}
    (hsent : m.sentToController m.status requests = some obj) :
    (m.commandBufPolling requests).pedCountdown = true := by
  obtain ⟨hpass, hsend⟩ := Option.filter_eq_some_iff.mp hsent
  simp only [Middleware.passedToSend, Option.ite_none_right_eq_some, Option.some.injEq,
    Bool.and_eq_true] at hpass
  obtain ⟨⟨henters, hready⟩, hobj⟩ := hpass
  have hbefore : (m.beforeSend m.status requests).activateAmount = 0 :=
    (Middleware.beforeSend_sameActivation m m.status requests).amount.trans hnone
  rw [Middleware.commandBufPolling, Middleware.commandBufPollingFrom_of_enters _ _ _ henters]
  simp only [Middleware.sendReady, hready, if_true, hobj]
  exact send_countdown_on hbefore obj m.status.subPhaseId (by simpa using hsend)

theorem Accounted.countdownReturns {s : Intersection} (hcount : s.Accounted) :
    s.CountdownReturns := by
  intro hevsp htsp
  have hzero : s.amount = 0 := by
    rw [show s.amount = s.counted from hcount, counted, KeyedList.count_of_isEmpty hevsp,
      KeyedList.count_of_isEmpty htsp]
  have hnone : s.middleware.activateAmount = 0 := UInt32.toNat_inj.mp hzero
  exact ⟨hnone, fun requests obj hsent => poll_countdown_on hnone hsent⟩

/-- From the start with both applications enabled, counter and count agree in
every state reached exactly if every step of the run meets its condition. -/
theorem activate_amount_accounted_iff (config : Config) (status : TrafficSignalStatus)
    (rsuId : UInt32) (evspConfig : EvspConfig) (bounds : AdjustBounds)
    (events : List ActivationEvent) :
    Guarded step KeepsCount (boot config status rsuId evspConfig bounds) events ↔
      ∀ first, first <+: events →
        let s := run step (boot config status rsuId evspConfig bounds) first
        s.Accounted ∧ s.CountdownReturns := by
  -- a bus is counted only while its application may send, so the switch is carried along
  have hstep : ∀ (s : Intersection) event,
      s.middleware.tspDontSend2TC = false ∧ s.Accounted →
        ((s.step event).middleware.tspDontSend2TC = false ∧ (s.step event).Accounted ↔
          s.KeepsCount event) := by
    rintro s event ⟨henabled, hcount⟩
    rw [step_tspSwitch, step_accounted hcount henabled event]
    exact and_iff_right henabled
  have hboot : (boot config status rsuId evspConfig bounds).middleware.tspDontSend2TC = false ∧
      (boot config status rsuId evspConfig bounds).Accounted := ⟨rfl, rfl⟩
  rw [guarded_iff_invariant hstep events hboot]
  refine forall₂_congr fun first _ => ⟨fun h => ⟨h.2, h.2.countdownReturns⟩, fun h => ⟨?_, h.1⟩⟩
  exact @run_invariant _ _ step (fun s => s.middleware.tspDontSend2TC = false)
    (fun s event henabled => (step_tspSwitch s event).trans henabled) _ first rfl

/-- The cloud asks twice for one bus and withdraws it once: both lists are empty
again, the counter is not. -/
theorem repeated_request_leaves_count :
    let bus : HostName := ⟨['B', 'U', 'S', '1'], by decide⟩
    let s := run step
      (boot .initial (.initial fun _ => .unset) 1 ⟨3, 60, []⟩ ⟨none, none⟩)
      [.tspIntersectionControl bus 2, .tspIntersectionControl bus 2, .tspHostDelete bus]
    s.evspHosts.isEmpty = true ∧ s.tspHosts.isEmpty = true ∧ s.middleware.activateAmount = 1 ∧
      ¬ s.Accounted := by
  intro bus s
  decide

end Intersection

end AdaptiveSignal.Signal
