import AdaptiveSignal.Activation.Accounting

/-! # The touches that activate a vehicle

A vehicle is activated when it has touched its area often enough. Packets are counted in
`touched_amount`, by the insertion and by the search for the vehicle alike; whether the search
counts depends on a field of the update record that is not written before.
-/

namespace AdaptiveSignal.Signal

open Foundation

namespace Intersection

variable {s : Intersection} {obuName : HostName} {packet : EvspObuPacket} {host : EvspHostObu}

/-! ## What a step does to one vehicle -/

/-- The packet is taken, and comes from a touching area of the running plan. -/
def located (s : Intersection) (packet : EvspObuPacket) : Bool :=
  s.searches packet && (s.evspTouched packet).isSome

/-- The listed vehicle after a packet that leaves it listed. -/
def touchedHost (s : Intersection) (packet : EvspObuPacket) (host : EvspHostObu) : EvspHostObu :=
  let host := host.update ⟨packet.strayTouching, 0⟩
  if host.isActivate = 1 ∧ s.located packet then
    host.update ⟨1, if s.evspReaches host then 2 else 1⟩
  else host

theorem evspSeen_search (s : Intersection) (packet : EvspObuPacket) (key : HostName) :
    (s.evspSeen packet).evspHosts.search key =
      if key = packet.obuName.obuName then
        (s.evspHosts.search key).map (EvspHostObu.update ⟨packet.strayTouching, 0⟩)
      else s.evspHosts.search key :=
  seen_search packet.obuName ⟨packet.strayTouching, 0⟩ key

theorem evspInsert_search (s : Intersection) (obuName : HostName) (targetPhase : UInt8)
    (area : EvspTouchingArea) (isActivate : UInt8) (key : HostName) :
    (s.evspInsert obuName targetPhase area isActivate).evspHosts.search key =
      if key = obuName.obuName then
        some (((s.evspHosts.search key).getD (.new obuName targetPhase area)).update
          ⟨1, isActivate⟩)
      else s.evspHosts.search key :=
  insertObu_search obuName targetPhase area ⟨1, isActivate⟩ key

theorem evspHostLeaves_search (s : Intersection) (host : EvspHostObu) (now : ℤ)
    (key : HostName) :
    (s.evspHostLeaves host now).evspHosts.search key =
      if key = host.key then none else s.evspHosts.search key := by
  have hlists : (s.evspHostLeaves host now).evspHosts = s.evspHosts.delete host.key := by
    simp only [evspHostLeaves]
    split_ifs <;> rfl
  rw [hlists]
  split_ifs with hkey
  · rw [hkey]
    exact KeyedList.search_delete_self s.evspHosts host.key
  · exact KeyedList.search_delete_of_ne hkey

theorem evspHostTimeout_search (s : Intersection) (name : HostName) (now : ℤ) (key : HostName) :
    (s.evspHostTimeout name now).evspHosts.search key =
      if key = name.obuName then none else s.evspHosts.search key := by
  unfold evspHostTimeout
  cases hsearch : s.evspHosts.search name.obuName with
  | none =>
      split_ifs with hkey
      · rw [hkey, hsearch]
      · rfl
  | some host =>
      dsimp only
      rw [evspHostLeaves_search, KeyedList.search_eq_some hsearch]

/-- A vehicle that is not listed is inserted only where it is located. -/
theorem evspTouchesFirst_cases (s : Intersection) (packet : EvspObuPacket) :
    (s.evspTouchesFirst packet).evspHosts = s.evspHosts ∨
      (s.evspTouched packet).isSome = true ∧ ∃ targetPhase area,
        (s.evspTouchesFirst packet).evspHosts =
          (s.evspInsert packet.obuName targetPhase area 1).evspHosts := by
  unfold evspTouchesFirst evspTouched
  cases s.evspConfig.planTableSearch s.middleware.status.planId with
  | none => exact Or.inl rfl
  | some table =>
      cases hactivate : table.activate packet.touchingAreas with
      | none => exact Or.inl (by simp [hactivate])
      | some touched =>
          obtain ⟨targetPhase, area⟩ := touched
          simp only [hactivate]
          split_ifs with hinsert
          · refine Or.inr ⟨?_, targetPhase, area, rfl⟩
            simp only [Bool.and_eq_true] at hinsert
            simp [hinsert.1.2, hinsert.2]
          · exact Or.inl rfl

theorem evspTouchesAgain_search (hsearch : s.evspHosts.search packet.obuName.obuName = some host)
    (key : HostName) :
    (s.evspTouchesAgain host packet).evspHosts.search key =
      if key = packet.obuName.obuName then
        some (if host.isActivate = 1 ∧ (s.evspTouched packet).isSome = true then
          host.update ⟨1, if s.evspReaches host then 2 else 1⟩ else host)
      else s.evspHosts.search key := by
  have hinserted (targetPhase : UInt8) (area : EvspTouchingArea) (isActivate : UInt8) :
      (s.evspInsert packet.obuName targetPhase area isActivate).evspHosts.search key =
        if key = packet.obuName.obuName then some (host.update ⟨1, isActivate⟩)
        else s.evspHosts.search key := by
    rw [evspInsert_search]
    split_ifs with hkey
    · rw [hkey, hsearch, Option.getD_some]
    · rfl
  have hsame : s.evspHosts.search key =
      if key = packet.obuName.obuName then some host else s.evspHosts.search key := by
    split_ifs with hkey
    · rw [hkey, hsearch]
    · rfl
  unfold evspTouchesAgain
  by_cases hwaits : host.isActivate = 1
  · cases htouched : s.evspTouched packet with
    | none => simpa [hwaits] using hsame
    | some touched =>
        simp only [hwaits, if_true]
        by_cases hreaches : s.evspReaches host = true
        · simpa [hreaches] using hinserted touched.1 touched.2 2
        · simpa [hreaches] using hinserted touched.1 touched.2 1
  · simpa [hwaits] using hsame

/-- A packet of another vehicle leaves this one alone. -/
theorem evspOnObuPacketRx_search_of_ne {key : HostName} (hne : key ≠ packet.obuName.obuName) :
    (s.evspOnObuPacketRx packet).evspHosts.search key = s.evspHosts.search key := by
  have hseen : (s.evspSeen packet).evspHosts.search key = s.evspHosts.search key := by
    rw [evspSeen_search, if_neg hne]
  by_cases hsearches : s.searches packet = true
  · rw [evspOnObuPacketRx_of_searches hsearches, evspSearched, ← hseen]
    cases hsearch : (s.evspSeen packet).evspHosts.search packet.obuName.obuName with
    | none =>
        dsimp only
        rcases (s.evspSeen packet).evspTouchesFirst_cases packet with heq | ⟨-, _, _, heq⟩
        · rw [heq]
        · rw [heq, evspInsert_search, if_neg hne]
    | some host =>
        dsimp only
        split
        · rw [evspHostLeaves_search, KeyedList.search_eq_some hsearch, if_neg hne]
        · rw [evspTouchesAgain_search hsearch, if_neg hne]
  · rcases evspOnObuPacketRx_of_not_searches hsearches with heq | heq
    · rw [heq]
    · rw [heq, hseen]

/-- A vehicle is listed from a located packet on, touched once and not activated. -/
theorem evspOnObuPacketRx_of_absent {key : HostName} (hkey : packet.obuName.obuName = key)
    (hsearch : s.evspHosts.search key = none) :
    (s.evspOnObuPacketRx packet).evspHosts.search key = none ∨
      s.located packet = true ∧ ∃ host, (s.evspOnObuPacketRx packet).evspHosts.search key =
        some host ∧ host.touchedAmount = 1 ∧ host.isActivate = 1 := by
  subst hkey
  have hseen : (s.evspSeen packet).evspHosts.search packet.obuName.obuName = none := by
    rw [evspSeen_search, if_pos rfl, hsearch]
    rfl
  by_cases hsearches : s.searches packet = true
  · rw [evspOnObuPacketRx_of_searches hsearches, evspSearched, hseen]
    dsimp only
    rcases (s.evspSeen packet).evspTouchesFirst_cases packet with
      heq | ⟨htouched, targetPhase, area, heq⟩
    · exact Or.inl (by rw [heq, hseen])
    · refine Or.inr ⟨?_, (EvspHostObu.new packet.obuName targetPhase area).update ⟨1, 1⟩, ?_⟩
      · rw [located, hsearches]
        exact htouched
      · rw [heq, evspInsert_search, if_pos rfl, hseen]
        exact ⟨rfl, rfl, rfl⟩
  · rcases evspOnObuPacketRx_of_not_searches hsearches with heq | heq
    · exact Or.inl (by rw [heq, hsearch])
    · exact Or.inl (by rw [heq, hseen])

/-- A listed vehicle leaves, or its record is brought up to date. -/
theorem evspOnObuPacketRx_of_listed {key : HostName} (hkey : packet.obuName.obuName = key)
    (hsearch : s.evspHosts.search key = some host) (hadmitted : packet.admitted s.rsuId = true) :
    (s.evspOnObuPacketRx packet).evspHosts.search key =
      if (s.leaving packet).isSome then none else some (s.touchedHost packet host) := by
  subst hkey
  have hseen : (s.evspSeen packet).evspHosts.search packet.obuName.obuName =
      some (host.update ⟨packet.strayTouching, 0⟩) := by
    rw [evspSeen_search, if_pos rfl, hsearch]
    rfl
  unfold leaving touchedHost located
  by_cases hsearches : s.searches packet = true
  · rw [evspOnObuPacketRx_of_searches hsearches, evspSearched, hseen]
    dsimp only
    cases hterminate : (host.update ⟨packet.strayTouching, 0⟩).area.terminate
        packet.terminateAreas with
    | some area =>
        dsimp only
        rw [evspHostLeaves_search, KeyedList.search_eq_some hseen]
        simp [hsearches, hterminate]
    | none =>
        dsimp only
        rw [evspTouchesAgain_search hseen]
        simp only [hsearches, if_true, Option.filter, hterminate, Option.isSome_none,
          Bool.true_and]
        rfl
  · have heq : s.evspOnObuPacketRx packet = s.evspSeen packet := by
      rw [evspOnObuPacketRx, if_pos hadmitted]
      refine if_pos ?_
      change s.middleware.status.subPhaseId = 0
      simpa [searches, hadmitted] using hsearches
    rw [heq, hseen]
    simp [hsearches]

theorem evspOnObuPacketRx_of_not_admitted (hadmitted : packet.admitted s.rsuId = false) :
    s.evspOnObuPacketRx packet = s := by
  rw [evspOnObuPacketRx, hadmitted]
  rfl

theorem tspIntersectionControl_evsp (s : Intersection) (obuName : HostName)
    (targetPhase : UInt8) :
    (s.tspIntersectionControl obuName targetPhase).evspHosts = s.evspHosts ∧
      (s.tspIntersectionControl obuName targetPhase).evspConfig = s.evspConfig := by
  have hinsert : (s.tspHostObuInsert obuName targetPhase).evspHosts = s.evspHosts ∧
      (s.tspHostObuInsert obuName targetPhase).evspConfig = s.evspConfig := by
    unfold tspHostObuInsert
    cases s.tspHosts.search obuName.obuName <;> exact ⟨rfl, rfl⟩
  simp only [tspIntersectionControl]
  split_ifs <;> exact hinsert

/-! ## The count -/

/-- The event is a packet of the vehicle that is located in a touching area. -/
def isLocated (obuName : HostName) (s : Intersection) : ActivationEvent → Bool
  | .obuPacket packet => packet.obuName.obuName = obuName.obuName && s.located packet
  | _ => false

/-- A step, with the number of packets of the vehicle that have been located in a touching area
since it was inserted. -/
def countTouch (obuName : HostName) (s : Intersection × ℕ) (event : ActivationEvent) :
    Intersection × ℕ :=
  (s.1.step event,
    if ((s.1.step event).evspHosts.search obuName.obuName).isSome then
      s.2 + (isLocated obuName s.1 event).toNat
    else 0)

/-- Up to the activation `touched_amount` is the number of located packets, the activation needs
as many as the threshold, and no other packet increases the amount. -/
structure CountsTouches (obuName : HostName) (s : Intersection × ℕ) (event : ActivationEvent) :
    Prop where
  amount : (∀ host ∈ s.1.evspHosts.search obuName.obuName, host.isActivate ≠ 2) →
    ∀ host ∈ (s.1.step event).evspHosts.search obuName.obuName,
      host.touchedAmount.toNat = (countTouch obuName s event).2
  activated : ∀ host ∈ (s.1.step event).evspHosts.search obuName.obuName, host.isActivate = 2 →
    s.1.evspConfig.touchingThreshold.toNat ≤ (countTouch obuName s event).2
  outside : isLocated obuName s.1 event = false →
    ∀ host ∈ s.1.evspHosts.search obuName.obuName,
      ∀ host' ∈ (s.1.step event).evspHosts.search obuName.obuName,
        host'.touchedAmount ≤ host.touchedAmount

/-- The search of a listed vehicle does not find 1 in `is_touching`, unless the vehicle leaves,
or is activated already and either located or at the end of its counter. -/
def NoStrayTouch (obuName : HostName) (s : Intersection) : ActivationEvent → Prop
  | .obuPacket packet =>
      packet.obuName.obuName = obuName.obuName → packet.admitted s.rsuId = true →
        packet.strayTouching = 1 → ∀ host ∈ s.evspHosts.search obuName.obuName,
          (s.leaving packet).isSome = true ∨
            host.isActivate = 2 ∧ (s.located packet = true ∨ host.touchedAmount = 255)
  | _ => True

/-- What holds of a listed vehicle whose touches have been counted. -/
structure Counted (config : EvspConfig) (touches : ℕ) (host : EvspHostObu) : Prop where
  state : host.isActivate = 1 ∨ host.isActivate = 2
  waits : host.isActivate = 1 → host.touchedAmount.toNat = touches ∧ touches < 255
  active : host.isActivate = 2 → config.touchingThreshold.toNat ≤ touches

/-- What holds as long as the touches of the vehicle have been counted. -/
structure TouchInvariant (obuName : HostName) (s : Intersection × ℕ) : Prop where
  absent : s.1.evspHosts.search obuName.obuName = none → s.2 = 0
  listed : ∀ host ∈ s.1.evspHosts.search obuName.obuName, Counted s.1.evspConfig s.2 host

theorem evspHostTimeout_evspConfig (s : Intersection) (name : HostName) (now : ℤ) :
    (s.evspHostTimeout name now).evspConfig = s.evspConfig := by
  simp only [evspHostTimeout, evspHostLeaves]
  split
  · split_ifs <;> rfl
  · rfl

theorem evspOnObuPacketRx_evspConfig (s : Intersection) (packet : EvspObuPacket) :
    (s.evspOnObuPacketRx packet).evspConfig = s.evspConfig := by
  have hsearched (s : Intersection) : (s.evspSearched packet).evspConfig = s.evspConfig := by
    unfold evspSearched
    split
    · split
      · simp only [evspHostLeaves]
        split_ifs <;> rfl
      · unfold evspTouchesAgain
        repeat' split
        all_goals rfl
    · unfold evspTouchesFirst
      repeat' split
      all_goals try rfl
      simp only []
      split_ifs <;> rfl
  simp only [evspOnObuPacketRx]
  split_ifs
  · rfl
  · exact hsearched _
  · rfl

theorem step_evspConfig (s : Intersection) (event : ActivationEvent) :
    (s.step event).evspConfig = s.evspConfig := by
  cases event with
  | obuPacket packet => exact evspOnObuPacketRx_evspConfig s packet
  | evspHostObuPacketTimeout name now => exact evspHostTimeout_evspConfig s name now
  | evspHostObuListTimeout name now => exact evspHostTimeout_evspConfig s name now
  | tspIntersectionControl name targetPhase =>
      exact (tspIntersectionControl_evsp s name targetPhase).2
  | _ => rfl

/-! ## One step -/

/-- What is not a packet of the vehicle leaves it alone or takes it off the list. -/
theorem step_search_of_other {event : ActivationEvent}
    (hother : ∀ packet, event = .obuPacket packet → packet.obuName.obuName ≠ obuName.obuName) :
    (s.step event).evspHosts.search obuName.obuName = s.evspHosts.search obuName.obuName ∨
      (s.step event).evspHosts.search obuName.obuName = none := by
  have htimeout (name : HostName) (now : ℤ) :
      (s.evspHostTimeout name now).evspHosts.search obuName.obuName =
          s.evspHosts.search obuName.obuName ∨
        (s.evspHostTimeout name now).evspHosts.search obuName.obuName = none := by
    rw [evspHostTimeout_search]
    split_ifs
    · exact Or.inr rfl
    · exact Or.inl rfl
  cases event with
  | obuPacket packet =>
      exact Or.inl (evspOnObuPacketRx_search_of_ne (hother packet rfl).symm)
  | evspHostObuPacketTimeout name now => exact htimeout name now
  | evspHostObuListTimeout name now => exact htimeout name now
  | tspIntersectionControl name targetPhase =>
      exact Or.inl (by rw [step, (tspIntersectionControl_evsp s name targetPhase).1])
  | _ => exact Or.inl rfl

section Counting

variable {event : ActivationEvent} {n : ℕ}

theorem TouchInvariant.of_same (h : TouchInvariant obuName (s, n))
    (hsearch : (s.step event).evspHosts.search obuName.obuName =
      s.evspHosts.search obuName.obuName) (hlocated : isLocated obuName s event = false) :
    CountsTouches obuName (s, n) event ∧
      TouchInvariant obuName (countTouch obuName (s, n) event) := by
  have hcount : (countTouch obuName (s, n) event).2 = n := by
    simp only [countTouch, hsearch, hlocated, Bool.toNat_false, Nat.add_zero]
    split_ifs with hlisted
    · rfl
    · exact (h.absent (by simpa using hlisted)).symm
  have hlisted (host : EvspHostObu) (hhost : host ∈ s.evspHosts.search obuName.obuName) :=
    h.listed host hhost
  refine ⟨⟨?_, ?_, ?_⟩, ?_, ?_⟩
  · intro hwaits host hhost
    rw [hsearch] at hhost
    rw [hcount]
    exact ((hlisted host hhost).waits
      ((hlisted host hhost).state.resolve_right (hwaits host hhost))).1
  · intro host hhost hactive
    rw [hsearch] at hhost
    rw [hcount]
    exact (hlisted host hhost).active hactive
  · intro _ host hhost host' hhost'
    rw [hsearch] at hhost'
    rw [Option.mem_unique hhost hhost']
    exact UInt8.le_refl _
  · intro hnone
    rw [hcount]
    exact h.absent (hsearch ▸ hnone)
  · intro host hhost
    change host ∈ (s.step event).evspHosts.search obuName.obuName at hhost
    rw [hsearch] at hhost
    obtain ⟨hstate, hwaits, hactive⟩ := hlisted host hhost
    rw [hcount, countTouch, step_evspConfig]
    exact ⟨hstate, hwaits, hactive⟩

theorem TouchInvariant.of_none
    (hsearch : (s.step event).evspHosts.search obuName.obuName = none) :
    CountsTouches obuName (s, n) event ∧
      TouchInvariant obuName (countTouch obuName (s, n) event) := by
  have hnone : ∀ host, host ∉ (s.step event).evspHosts.search obuName.obuName := by
    simp [hsearch]
  refine ⟨⟨fun _ host hhost => absurd hhost (hnone host),
    fun host hhost => absurd hhost (hnone host),
    fun _ _ _ host hhost => absurd hhost (hnone host)⟩, fun _ => ?_,
    fun host hhost => absurd hhost (hnone host)⟩
  simp [countTouch, hsearch]

/-- The packet that inserts the vehicle is its first touch. -/
theorem TouchInvariant.of_first (h : TouchInvariant obuName (s, n))
    (hsearch : s.evspHosts.search obuName.obuName = none)
    (hlocated : isLocated obuName s event = true)
    (hstep : (s.step event).evspHosts.search obuName.obuName = some host)
    (hamount : host.touchedAmount = 1) (hactivate : host.isActivate = 1) :
    CountsTouches obuName (s, n) event ∧
      TouchInvariant obuName (countTouch obuName (s, n) event) := by
  have hcount : (countTouch obuName (s, n) event).2 = 1 := by
    simp [countTouch, hstep, hlocated, show n = 0 from h.absent hsearch]
  have hidle : host.isActivate ≠ 2 := by simp [hactivate]
  refine ⟨⟨?_, ?_, ?_⟩, ?_, ?_⟩
  · intro _ host' hhost'
    obtain rfl := Option.mem_unique hstep hhost'
    rw [hcount, hamount]
    rfl
  · intro host' hhost' hactive
    obtain rfl := Option.mem_unique hstep hhost'
    exact absurd hactive hidle
  · intro hout
    cases hlocated.symm.trans hout
  · intro hnone
    cases hstep.symm.trans hnone
  · intro host' hhost'
    obtain rfl := Option.mem_unique hstep hhost'
    rw [hcount]
    refine ⟨Or.inl hactivate, fun _ => ⟨?_, by decide⟩, fun hactive => absurd hactive hidle⟩
    rw [hamount]
    rfl

/-- What becomes of the amount and of the state in the record of a listed vehicle. -/
theorem touchedHost_touchedAmount (s : Intersection) (packet : EvspObuPacket)
    (host : EvspHostObu) :
    (s.touchedHost packet host).touchedAmount.toNat =
      (host.touchedAmount.toNat + (decide (packet.strayTouching = 1)).toNat +
        (decide (host.isActivate = 1 ∧ s.located packet = true)).toNat) % 256 := by
  have hlt := host.touchedAmount.toNat_lt
  by_cases hstray : packet.strayTouching = 1 <;>
    by_cases hlocated : host.isActivate = 1 ∧ s.located packet = true <;>
    simp [touchedHost, EvspHostObu.update, hstray, hlocated, Nat.mod_eq_of_lt hlt]

theorem touchedHost_isActivate (s : Intersection) (packet : EvspObuPacket)
    (host : EvspHostObu) :
    (s.touchedHost packet host).isActivate =
      if host.isActivate = 1 ∧ s.located packet = true then
        if s.evspReaches (host.update ⟨packet.strayTouching, 0⟩) then 2 else 1
      else host.isActivate := by
  unfold touchedHost
  by_cases hlocated : host.isActivate = 1 ∧ s.located packet = true
  · have hupdated : (host.update ⟨packet.strayTouching, 0⟩).isActivate = 1 ∧
        s.located packet = true := hlocated
    rw [if_pos hlocated, if_pos hupdated]
    split_ifs <;> rfl
  · have hupdated : ¬ ((host.update ⟨packet.strayTouching, 0⟩).isActivate = 1 ∧
        s.located packet = true) := hlocated
    rw [if_neg hlocated, if_neg hupdated]
    rfl

theorem evspReaches_iff (s : Intersection) (packet : EvspObuPacket) (host : EvspHostObu)
    (hstray : packet.strayTouching ≠ 1) :
    s.evspReaches (host.update ⟨packet.strayTouching, 0⟩) = true ↔
      s.evspConfig.touchingThreshold.toNat ≤ host.touchedAmount.toNat + 1 := by
  simp [evspReaches, EvspHostObu.update, hstray]

/-- The event is a packet that leaves the vehicle listed. -/
structure StaysListed (obuName : HostName) (s : Intersection) (event : ActivationEvent)
    (packet : EvspObuPacket) (host : EvspHostObu) : Prop where
  located : isLocated obuName s event = s.located packet
  search : s.evspHosts.search obuName.obuName = some host
  step : (s.step event).evspHosts.search obuName.obuName = some (s.touchedHost packet host)

theorem StaysListed.count (h : StaysListed obuName s event packet host) :
    (countTouch obuName (s, n) event).2 = n + (s.located packet).toNat := by
  simp [countTouch, h.step, h.located]

/-- The search counts a packet that it should not. -/
theorem StaysListed.noStray (h : StaysListed obuName s event packet host)
    (hcounted : Counted s.evspConfig n host) (hcounts : CountsTouches obuName (s, n) event)
    (hstray : packet.strayTouching = 1) :
    host.isActivate = 2 ∧ (s.located packet = true ∨ host.touchedAmount = 255) := by
  have hamount := touchedHost_touchedAmount s packet host
  have hlt := host.touchedAmount.toNat_lt
  rcases hcounted.state with hone | htwo
  -- The amount would be ahead of the count by one.
  · have hequal := hcounts.amount (by simp [h.search, hone]) _ h.step
    rw [h.count, hamount] at hequal
    obtain ⟨hn, hless⟩ := hcounted.waits hone
    cases hin : s.located packet <;> simp [hin, hstray, hone] at hequal hless hn <;> omega
  · refine ⟨htwo, or_iff_not_imp_left.mpr fun hout => ?_⟩
    have hout : s.located packet = false := by simpa using hout
    have hle := hcounts.outside (h.located.trans hout) host h.search _ h.step
    rw [UInt8.le_iff_toNat_le, hamount] at hle
    rw [← UInt8.toNat_inj]
    simp only [hstray, hout, Bool.false_eq_true, and_false, decide_true, decide_false,
      Bool.toNat_true, Bool.toNat_false] at hle
    change _ = 255
    omega

theorem StaysListed.counts (h : StaysListed obuName s event packet host)
    (hcounted : Counted s.evspConfig n host)
    (hno : packet.strayTouching = 1 →
      host.isActivate = 2 ∧ (s.located packet = true ∨ host.touchedAmount = 255)) :
    CountsTouches obuName (s, n) event := by
  have hamount := touchedHost_touchedAmount s packet host
  have hlt := host.touchedAmount.toNat_lt
  refine ⟨?_, ?_, ?_⟩
  · intro hidle host' hhost'
    have hidle : host.isActivate ≠ 2 := hidle host h.search
    have hone := hcounted.state.resolve_right hidle
    have hstray : packet.strayTouching ≠ 1 := fun hstray => hidle (hno hstray).1
    obtain ⟨hn, hless⟩ := hcounted.waits hone
    obtain rfl := Option.mem_unique h.step hhost'
    rw [h.count, hamount]
    cases hin : s.located packet <;> simp [hstray, hone] at hn hless ⊢ <;> omega
  · intro host' hhost' htwo'
    obtain rfl := Option.mem_unique h.step hhost'
    rw [h.count]
    by_cases htwo : host.isActivate = 2
    · exact Nat.le_add_right_of_le (hcounted.active htwo)
    · have hstray : packet.strayTouching ≠ 1 := fun hstray => htwo (hno hstray).1
      have hone := hcounted.state.resolve_right htwo
      have hn : host.touchedAmount.toNat = n := (hcounted.waits hone).1
      rw [touchedHost_isActivate] at htwo'
      split_ifs at htwo' with hin hreaches
      · rw [evspReaches_iff s packet host hstray, hn] at hreaches
        rw [hin.2]
        exact hreaches
      · cases htwo'
      · exact absurd htwo' htwo
  · intro hout host' hhost' host'' hhost''
    obtain rfl := Option.mem_unique h.search hhost'
    obtain rfl := Option.mem_unique h.step hhost''
    have hout := h.located.symm.trans hout
    rw [UInt8.le_iff_toNat_le, hamount]
    by_cases hstray : packet.strayTouching = 1
    · have hfull := (hno hstray).2.resolve_left (by simp [hout])
      simp [hstray, hout, hfull]
    · simp [hstray, hout, Nat.mod_eq_of_lt hlt]

theorem StaysListed.keeps (h : StaysListed obuName s event packet host)
    (hcounted : Counted s.evspConfig n host)
    (hno : packet.strayTouching = 1 → host.isActivate = 2) :
    TouchInvariant obuName (countTouch obuName (s, n) event) := by
  refine ⟨fun hnone => ?_, fun host' hhost' => ?_⟩
  · cases h.step.symm.trans hnone
  obtain rfl := Option.mem_unique h.step hhost'
  have hconfig : (countTouch obuName (s, n) event).1.evspConfig = s.evspConfig :=
    step_evspConfig s event
  have hstate := touchedHost_isActivate s packet host
  rw [h.count, hconfig]
  by_cases htwo : host.isActivate = 2
  · have htwo' : (s.touchedHost packet host).isActivate = 2 := by
      rw [hstate, if_neg (by simp [htwo]), htwo]
    exact ⟨Or.inr htwo', fun hone' => absurd (hone'.symm.trans htwo') (by decide),
      fun _ => Nat.le_add_right_of_le (hcounted.active htwo)⟩
  have hone := hcounted.state.resolve_right htwo
  have hstray : packet.strayTouching ≠ 1 := fun hstray => htwo (hno hstray)
  obtain ⟨hn, hless⟩ := hcounted.waits hone
  have hreaches := evspReaches_iff s packet host hstray
  have hthreshold := s.evspConfig.touchingThreshold.toNat_lt
  have hamount : (s.touchedHost packet host).touchedAmount.toNat =
      n + (s.located packet).toNat := by
    rw [touchedHost_touchedAmount]
    cases hin : s.located packet <;> simp [hstray, hone] <;> omega
  cases hin : s.located packet with
  | false =>
      simp only [hin, Bool.false_eq_true, and_false, if_false] at hstate
      exact ⟨Or.inl (hstate.trans hone), fun _ => ⟨hin ▸ hamount, hless⟩,
        fun htwo' => absurd (hstate.symm.trans htwo') htwo⟩
  | true =>
      rw [if_pos ⟨hone, hin⟩] at hstate
      rw [hin] at hamount
      split_ifs at hstate with hact
      · exact ⟨Or.inr hstate, fun hone' => absurd (hone'.symm.trans hstate) (by decide),
          fun _ => hn ▸ hreaches.mp hact⟩
      -- Another touch is to come, so that the count is below the threshold.
      · refine ⟨Or.inl hstate, fun _ => ⟨hamount, ?_⟩,
          fun htwo' => absurd (hstate.symm.trans htwo') (by decide)⟩
        have hbelow := mt hreaches.mpr hact
        rw [Bool.toNat_true]
        omega

end Counting

/-! ## Runs -/

theorem counts_iff_of_packet {n : ℕ} (h : TouchInvariant obuName (s, n))
    (hkey : packet.obuName.obuName = obuName.obuName) :
    (CountsTouches obuName (s, n) (.obuPacket packet) ↔
        NoStrayTouch obuName s (.obuPacket packet)) ∧
      (NoStrayTouch obuName s (.obuPacket packet) →
        TouchInvariant obuName (countTouch obuName (s, n) (.obuPacket packet))) := by
  have hlocated : isLocated obuName s (.obuPacket packet) = s.located packet := by
    simp [isLocated, hkey]
  cases hadmitted : packet.admitted s.rsuId with
  | false =>
      have hout : isLocated obuName s (.obuPacket packet) = false := by
        simp [hlocated, located, searches, hadmitted]
      obtain ⟨hcounts, hkeeps⟩ := h.of_same
        (by rw [step, evspOnObuPacketRx_of_not_admitted hadmitted]) hout
      exact ⟨iff_of_true hcounts fun _ hadmit => by simp [hadmitted] at hadmit, fun _ => hkeeps⟩
  | true =>
      cases hsearch : s.evspHosts.search obuName.obuName with
      | none =>
          have hno : NoStrayTouch obuName s (.obuPacket packet) :=
            fun _ _ _ host hhost => by simp [hsearch] at hhost
          rcases evspOnObuPacketRx_of_absent hkey hsearch with
            hnone | ⟨hin, host, hhost, hamount, hactivate⟩
          · obtain ⟨hcounts, hkeeps⟩ := TouchInvariant.of_none
              (show (s.step (.obuPacket packet)).evspHosts.search _ = none from hnone)
            exact ⟨iff_of_true hcounts hno, fun _ => hkeeps⟩
          · obtain ⟨hcounts, hkeeps⟩ := h.of_first hsearch (hlocated.trans hin) hhost hamount
              hactivate
            exact ⟨iff_of_true hcounts hno, fun _ => hkeeps⟩
      | some host =>
          have hstep := evspOnObuPacketRx_of_listed hkey hsearch hadmitted
          cases hleaving : (s.leaving packet).isSome with
          | true =>
              rw [hleaving, if_pos rfl] at hstep
              obtain ⟨hcounts, hkeeps⟩ := TouchInvariant.of_none
                (show (s.step (.obuPacket packet)).evspHosts.search _ = none from hstep)
              exact ⟨iff_of_true hcounts fun _ _ _ _ _ => Or.inl hleaving, fun _ => hkeeps⟩
          | false =>
              rw [hleaving, if_neg Bool.false_ne_true] at hstep
              have hcounted := h.listed host hsearch
              have hstays : StaysListed obuName s (.obuPacket packet) packet host :=
                ⟨hlocated, hsearch, hstep⟩
              have hno : NoStrayTouch obuName s (.obuPacket packet) ↔
                  (packet.strayTouching = 1 →
                    host.isActivate = 2 ∧
                      (s.located packet = true ∨ host.touchedAmount = 255)) := by
                simp [NoStrayTouch, hkey, hadmitted, hsearch, hleaving]
              rw [hno]
              exact ⟨⟨hstays.noStray hcounted, hstays.counts hcounted⟩,
                fun hno => hstays.keeps hcounted fun hstray => (hno hstray).1⟩

theorem counts_iff {s' : Intersection × ℕ} (h : TouchInvariant obuName s')
    (event : ActivationEvent) :
    (CountsTouches obuName s' event ↔ NoStrayTouch obuName s'.1 event) ∧
      (NoStrayTouch obuName s'.1 event → TouchInvariant obuName (countTouch obuName s' event)) := by
  obtain ⟨s, n⟩ := s'
  by_cases hpacket : ∃ packet, event = .obuPacket packet ∧ packet.obuName.obuName = obuName.obuName
  · obtain ⟨packet, rfl, hkey⟩ := hpacket
    exact counts_iff_of_packet h hkey
  have hother (packet : EvspObuPacket) (hevent : event = .obuPacket packet) :
      packet.obuName.obuName ≠ obuName.obuName := fun hkey => hpacket ⟨packet, hevent, hkey⟩
  have hlocated : isLocated obuName s event = false := by
    cases event with
    | obuPacket packet => simp [isLocated, hother packet rfl]
    | _ => rfl
  have hno : NoStrayTouch obuName s event := by
    cases event with
    | obuPacket packet => exact fun hkey => absurd hkey (hother packet rfl)
    | _ => trivial
  rcases @step_search_of_other s obuName event hother with hsame | hnone
  · obtain ⟨hcounts, hkeeps⟩ := h.of_same hsame hlocated
    exact ⟨iff_of_true hcounts hno, fun _ => hkeeps⟩
  · obtain ⟨hcounts, hkeeps⟩ := TouchInvariant.of_none hnone
    exact ⟨iff_of_true hcounts hno, fun _ => hkeeps⟩

/-- The touches of a vehicle are counted throughout a run exactly if no search finds a stray
touch. -/
theorem touches_counted_iff (config : Config) (status : TrafficSignalStatus) (rsuId : UInt32)
    (evspConfig : EvspConfig) (adjustBounds : AdjustBounds) (obuName : HostName)
    (events : List ActivationEvent) :
    (∀ before event, before ++ [event] <+: events →
        CountsTouches obuName
          (run (countTouch obuName) (boot config status rsuId evspConfig adjustBounds, 0) before)
          event) ↔
      Guarded step (NoStrayTouch obuName) (boot config status rsuId evspConfig adjustBounds)
        events := by
  have hboot : TouchInvariant obuName (boot config status rsuId evspConfig adjustBounds, 0) :=
    ⟨fun _ => rfl, fun host hhost => by cases hhost⟩
  have hcongr : Guarded (countTouch obuName) (CountsTouches obuName)
      (boot config status rsuId evspConfig adjustBounds, 0) events ↔
        Guarded (countTouch obuName) (fun s event => NoStrayTouch obuName s.1 event)
          (boot config status rsuId evspConfig adjustBounds, 0) events :=
    guarded_congr_of_invariant (fun s event h hno => (counts_iff h event).2 hno)
      (fun s event h => (counts_iff h event).1) hboot
  rw [← guarded_iff_steps, hcongr]
  exact @guarded_component _ _ (countTouch obuName) _ Prod.fst step (fun _ _ => rfl)
    (NoStrayTouch obuName) _ events

/-- Three touches are to activate the vehicle. The second packet comes from outside, but with 1 on
the stack, and the third one activates. -/
theorem stray_touch_activates :
    let ambulance : HostName := ⟨['A', '1'], by decide⟩
    let s := boot .initial { TrafficSignalStatus.initial (fun _ => .unset) with subPhaseId := 1 } 1
      ⟨3, 60, [⟨[0], [⟨1, [⟨7, []⟩]⟩]⟩]⟩ ⟨none, none⟩
    let packet (stray : UInt8) (areas : List UInt32) : ActivationEvent :=
      .obuPacket ⟨ambulance, .ambulance, .basicSafety, stray, areas, [], 0⟩
    ¬ ∀ before event, before ++ [event] <+: [packet 0 [7], packet 1 [], packet 0 [7]] →
      CountsTouches ambulance (run (countTouch ambulance) (s, 0) before) event := by
  intro ambulance s packet h
  have hactivated := (h [packet 0 [7], packet 1 []] (packet 0 [7]) List.prefix_rfl).activated
  have hhost : ((run step s [packet 0 [7], packet 1 [], packet 0 [7]]).evspHosts.search
      ambulance.obuName).map EvspHostObu.isActivate = some 2 := by decide +kernel
  obtain ⟨host, hhost, hactive⟩ := Option.map_eq_some_iff.mp hhost
  have hcount : (run (countTouch ambulance) (s, 0)
      [packet 0 [7], packet 1 [], packet 0 [7]]).2 = 2 := by decide +kernel
  have hthree : 3 ≤ 2 := hcount ▸ hactivated host hhost hactive
  exact absurd hthree (by decide)

end Intersection

end AdaptiveSignal.Signal
