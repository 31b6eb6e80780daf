import AdaptiveSignal.Serial.Receive

/-! # Positions in the received packet

The length of an information frame is what its header says, and is not checked before
the INFO bytes are stored and summed up.
-/

namespace AdaptiveSignal.Serial

open Foundation

/-- A packet has room for a frame of this LEN. -/
def Possible (packetLen : UInt16) : Prop :=
  headerLen ≤ packetLen.toNat ∧ packetLen.toNat ≤ maxPacketLen

/-- INFO has a byte at every position where one is stored or summed up. -/
def StaysWithin (events : List SerialEvent) : Prop :=
  ∀ position, .store position ∈ events ∨ .sum position ∈ events → position < maxPayloadLen

/-- A frame of an impossible length is refused, and nothing stored before. -/
def RefusesImpossible (events : List SerialEvent) : Prop :=
  ∀ before packetLen after, events = before ++ .header packetLen :: after →
    ¬ Possible packetLen → after.head? = some (.refuse .info)

/-- The number of INFO bytes, in 16 bits. -/
def wireInfoLen (packetLen : UInt16) : ℕ := (packetLen - 10).toNat

theorem Possible.wireInfoLen_le {packetLen : UInt16} (hpossible : Possible packetLen) :
    wireInfoLen packetLen ≤ maxPayloadLen := by
  obtain ⟨hmin, hmax⟩ := hpossible
  have hle : (10 : UInt16) ≤ packetLen := UInt16.le_iff_toNat_le.mpr hmin
  rw [wireInfoLen, UInt16.toNat_sub_of_le _ _ hle]
  exact Nat.sub_le_sub_right hmax headerLen

/-- A LEN below `HEADER_LEN` wraps around. -/
theorem wireInfoLen_pos {packetLen : UInt16} (himpossible : ¬ Possible packetLen) :
    0 < wireInfoLen packetLen := by
  have hlt := packetLen.toNat_lt
  unfold Possible headerLen maxPacketLen at himpossible
  unfold wireInfoLen
  rw [UInt16.toNat_sub]
  change 0 < (2 ^ 16 - 10 + packetLen.toNat) % 2 ^ 16
  omega

/-! ## What one frame does -/

/-- No position from `bound` on, and no header of an information frame. -/
def Inside (bound : ℕ) (event : SerialEvent) : Prop :=
  (∀ position, event = .store position ∨ event = .sum position → position < bound) ∧
    ∀ packetLen, event ≠ .header packetLen

/-- INFO is stored from its beginning on. -/
theorem run_readInfo_head {infoLen : ℕ} (hpositive : 0 < infoLen) (p : SerialPacket)
    (stream : List UInt8) :
    (readInfo infoLen infoLen 0 p).run stream = ([], none) ∨
      ∃ later result, (readInfo infoLen infoLen 0 p).run stream = (.store 0 :: later, result) := by
  obtain ⟨fuel, rfl⟩ : ∃ fuel, infoLen = fuel + 1 := ⟨infoLen - 1, by omega⟩
  obtain ⟨count, hcount, hcountPos, -⟩ := exists_count hpositive
  unfold readInfo
  rw [if_pos hpositive]
  dsimp only
  rw [hcount]
  rcases Nat.lt_or_ge stream.length count with hshort | hlong
  · exact Or.inl (Reader.run_receive_bind_of_lt _ _ hshort)
  · right
    obtain ⟨more, rfl⟩ : ∃ more, count = more + 1 := ⟨count - 1, by omega⟩
    rw [← List.take_append_drop (more + 1) stream,
      Reader.run_receive_bind _ _ _ (List.length_take_of_le hlong), Reader.run_say_bind,
      List.range'_succ]
    exact ⟨_, _, rfl⟩

/-- The INFO bytes and what follows them. -/
theorem meets_info_inside (infoLen : ℕ) (p : SerialPacket) :
    (readInfo infoLen infoLen 0 p >>= finishInfo infoLen).Meets
      (fun _ event => Inside infoLen event) (fun _ _ => True) 0 := by
  refine Reader.meets_bind.mpr ((meets_readInfo (by simp [Inside]) (Nat.zero_le _)
    (Nat.le_refl _)).mono fun _ _ _ => ?_)
  exact meets_finishInfo (by simp [Inside]) (by simp [Inside]) (by simp [Inside])
    (by simp [Inside]) (by simp [Inside])

/-- What one repetition puts out: nothing outside INFO, or the header of an information
frame and, when its length is impossible, a store. -/
inductive Repetition (blocked : Bool) : List SerialEvent → Prop
  | other {events} (inside : ∀ event ∈ events, Inside 1 event) : Repetition blocked events
  | info {packetLen later} (inside : ∀ event ∈ later, Inside (wireInfoLen packetLen) event)
      (stores : ¬ Possible packetLen →
        (blocked = true ∧ later = []) ∨ ∃ after, later = .store 0 :: after) :
      Repetition blocked (.header packetLen :: later)

theorem repetition_recvInfo (p : SerialPacket) (stream : List UInt8) :
    Repetition ((recvInfo p).run stream).2.isNone ((recvInfo p).run stream).1 := by
  rcases hheader : (readHeader p).run stream with ⟨events, result⟩
  have hsilent : events = [] := by
    have hmeets : (readHeader p).Meets (fun _ _ => False) _ 0 := meets_readHeader
    refine List.eq_nil_iff_forall_not_mem.mpr fun event hevent => ?_
    rw [show events = ((readHeader p).run stream).1 from (congrArg Prod.fst hheader).symm]
      at hevent
    obtain ⟨_, _, hfalse⟩ := (hmeets.run stream).1 event hevent
    exact hfalse
  subst hsilent
  unfold recvInfo
  rcases result with _ | ⟨p', rest⟩
  · rw [Reader.run_bind_none _ hheader]
    exact .other (by simp)
  · rw [Reader.run_bind_some _ hheader, List.nil_append, Reader.run_say_bind]
    refine .info (fun event hevent => ?_) fun himpossible => ?_
    · obtain ⟨_, _, hinside⟩ := ((meets_info_inside _ p').run rest).1 event hevent
      exact hinside
    · have hpositive := wireInfoLen_pos himpossible
      rcases run_readInfo_head hpositive p' rest with hblocked | ⟨later, result, hstored⟩
      · rw [wireInfoLen] at hblocked
        rw [Reader.run_bind_none _ hblocked]
        exact Or.inl ⟨rfl, rfl⟩
      · right
        rw [wireInfoLen] at hstored
        rcases result with _ | ⟨p'', rest'⟩
        · rw [Reader.run_bind_none _ hstored]
          exact ⟨later, rfl⟩
        · rw [Reader.run_bind_some _ hstored]
          exact ⟨_, rfl⟩

/-- A byte that begins no information frame. -/
theorem meets_rxByte_inside {r : Receiver} {byte : UInt8}
    (hinfo : ¬ (r.escapeFlag = true ∧ byte = stxVal)) :
    (rxByte r byte).Meets (fun _ event => Inside 1 event) (fun _ _ => True) 0 := by
  unfold rxByte
  rw [if_neg hinfo]
  split_ifs
  · trivial
  · refine Reader.meets_bind.mpr ((meets_recvAck (by simp [Inside])
      (by simp [Inside])).mono fun _ _ _ => ?_)
    exact Reader.meets_say_bind.mpr ⟨by simp [Inside], trivial⟩
  · exact Reader.meets_bind.mpr ((meets_recvNak (by simp [Inside]) (by simp [Inside])
      (by simp [Inside])).mono fun _ _ _ => trivial)
  · trivial

theorem repetition_rxBody (r : Receiver) (stream : List UInt8) :
    Repetition ((rxBody r).run stream).2.isNone ((rxBody r).run stream).1 := by
  cases stream with
  | nil =>
      rw [run_rxBody_nil]
      exact .other (by simp)
  | cons byte rest =>
      rw [run_rxBody]
      by_cases hinfo : r.escapeFlag = true ∧ byte = stxVal
      · have hframe := repetition_recvInfo (r.packet.typed stxVal) rest
        have hdle : ¬ (byte = dleVal ∧ r.escapeFlag = false) := fun h => by simp [h.2] at hinfo
        rw [rxByte, if_neg hdle, if_pos hinfo]
        rcases hrun : (recvInfo (r.packet.typed stxVal)).run rest with ⟨events, _ | ⟨p', rest'⟩⟩
        · rw [hrun] at hframe
          rwa [Reader.run_bind_none _ hrun]
        · rw [hrun] at hframe
          rwa [Reader.run_bind_some _ hrun, Reader.run_pure, List.append_nil]
      · refine .other fun event hevent => ?_
        obtain ⟨_, _, hinside⟩ := ((meets_rxByte_inside hinfo).run rest).1 event hevent
        exact hinside

section Repetition

variable {blocked : Bool} {events later : List SerialEvent}

theorem Repetition.of_run {r : Receiver} {stream : List UInt8}
    {result : Option (Receiver × List UInt8)}
    (hrun : (rxHandler.body r).run stream = (events, result)) :
    Repetition result.isNone events := by
  have hbody := repetition_rxBody r stream
  rwa [show (rxBody r).run stream = _ from hrun] at hbody

theorem Repetition.staysWithin (h : Repetition blocked events)
    (hpossible : ∀ packetLen, .header packetLen ∈ events → Possible packetLen) :
    StaysWithin events := by
  cases h with
  | other hinside =>
      rintro position (hstore | hsum)
      · exact Nat.lt_of_lt_of_le ((hinside _ hstore).1 position (Or.inl rfl)) (by decide)
      · exact Nat.lt_of_lt_of_le ((hinside _ hsum).1 position (Or.inr rfl)) (by decide)
  | info hinside _ =>
      have hbound := (hpossible _ List.mem_cons_self).wireInfoLen_le
      rintro position (hstore | hsum)
      · obtain ⟨⟩ | ⟨_, hmem⟩ := hstore
        exact Nat.lt_of_lt_of_le ((hinside _ hmem).1 position (Or.inl rfl)) hbound
      · obtain ⟨⟩ | ⟨_, hmem⟩ := hsum
        exact Nat.lt_of_lt_of_le ((hinside _ hmem).1 position (Or.inr rfl)) hbound

/-- After an impossible length comes a store or nothing, not a refusal. -/
theorem Repetition.possible (h : Repetition blocked events)
    (hlater : blocked = true → later = []) (hrefuses : RefusesImpossible (events ++ later)) :
    ∀ packetLen, .header packetLen ∈ events → Possible packetLen := by
  intro packetLen hheader
  cases h with
  | other hinside => exact absurd rfl ((hinside _ hheader).2 packetLen)
  | @info packetLen' body hinside hstores =>
      rcases List.mem_cons.mp hheader with hfirst | hmem
      · obtain rfl : packetLen = packetLen' := by simpa using hfirst
        by_contra himpossible
        -- with at least one INFO byte to read, the next event is its store
        have hrefused := hrefuses [] packetLen (body ++ later) rfl himpossible
        rcases hstores himpossible with ⟨hblocked, rfl⟩ | ⟨after, rfl⟩
        · rw [hlater hblocked] at hrefused
          simp at hrefused
        · simp at hrefused
      · exact absurd rfl ((hinside _ hmem).2 packetLen)

end Repetition

/-! ## What a whole stream does -/

theorem RefusesImpossible.later {events later : List SerialEvent}
    (hrefuses : RefusesImpossible (events ++ later)) : RefusesImpossible later := by
  intro before packetLen after hsplit
  apply hrefuses (events ++ before)
  rw [hsplit, List.append_assoc]

theorem serve_staysWithin (r : Receiver) (stream : List UInt8) :
    (∀ packetLen, .header packetLen ∈ (rxHandler.serve r stream).1 → Possible packetLen) →
      StaysWithin (rxHandler.serve r stream).1 := by
  refine rxHandler.serve_induction
    (motive := fun _ _ events => (∀ packetLen, .header packetLen ∈ events → Possible packetLen) →
      StaysWithin events) ?_ ?_ r stream
  · intro r stream events hrun hpossible
    exact (Repetition.of_run hrun).staysWithin hpossible
  · intro r stream events r' rest later hrun ih hpossible
    have hnow := (Repetition.of_run hrun).staysWithin fun packetLen hmem =>
      hpossible packetLen (List.mem_append_left _ hmem)
    have hrest := ih fun packetLen hmem => hpossible packetLen (List.mem_append_right _ hmem)
    intro position hposition
    simp only [List.mem_append] at hposition
    rcases hposition with (hmem | hmem) | (hmem | hmem)
    · exact hnow position (Or.inl hmem)
    · exact hrest position (Or.inl hmem)
    · exact hnow position (Or.inr hmem)
    · exact hrest position (Or.inr hmem)

theorem serve_possible (r : Receiver) (stream : List UInt8) :
    RefusesImpossible (rxHandler.serve r stream).1 →
      ∀ packetLen, .header packetLen ∈ (rxHandler.serve r stream).1 → Possible packetLen := by
  refine rxHandler.serve_induction
    (motive := fun _ _ events => RefusesImpossible events →
      ∀ packetLen, .header packetLen ∈ events → Possible packetLen) ?_ ?_ r stream
  · intro r stream events hrun hrefuses
    rw [← List.append_nil events] at hrefuses
    exact (Repetition.of_run hrun).possible (fun _ => rfl) hrefuses
  · intro r stream events r' rest later hrun ih hrefuses packetLen hmem
    rcases List.mem_append.mp hmem with hnow | hlater
    · exact (Repetition.of_run hrun).possible (fun hblocked => absurd hblocked (by simp)) hrefuses
        packetLen hnow
    · exact ih hrefuses.later packetLen hlater

/-- Positions stay inside INFO, and impossible lengths are refused, exactly when there
is no header with an impossible length. -/
theorem within_iff_possible (r : Receiver) (stream : List UInt8) :
    let events := (rxHandler.serve r stream).1
    StaysWithin events ∧ RefusesImpossible events ↔
      ∀ packetLen, .header packetLen ∈ events → Possible packetLen := by
  constructor
  · rintro ⟨-, hrefuses⟩
    exact serve_possible r stream hrefuses
  · intro hpossible
    refine ⟨serve_staysWithin r stream hpossible, ?_⟩
    rintro before packetLen after hsplit himpossible
    refine absurd (hpossible packetLen ?_) himpossible
    rw [hsplit]
    exact List.mem_append_right _ List.mem_cons_self

/-- A report of 119 INFO bytes: the last one is stored behind the packet. -/
theorem report_stored_outside :
    let report := [dleVal, stxVal, 0, 0xFF, 0xFF, 0, 129] ++ List.replicate 119 0
    ¬ StaysWithin (rxHandler.serve Receiver.initial report).1 := by
  intro report hwithin
  have hstored : (rxHandler.serve Receiver.initial report).1.any
      (fun event => match event with
        | .store position => position == maxPayloadLen
        | _ => false) = true := by
    decide +kernel
  obtain ⟨event, hevent, hposition⟩ := List.any_eq_true.mp hstored
  cases event with
  | store position =>
      obtain rfl : position = maxPayloadLen := by simpa using hposition
      exact absurd (hwithin _ (Or.inl hevent)) (Nat.lt_irrefl _)
  | _ => exact absurd hposition (by simp)

end AdaptiveSignal.Serial
