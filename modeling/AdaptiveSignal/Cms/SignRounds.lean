import AdaptiveSignal.Cms.DisplayRequests
import AdaptiveSignal.Foundation.Batches

/-! # The rounds of the sign handler

In a round the handler broadcasts the display and receives until every sign has
answered or nothing comes for a second. The answers report which image a sign
lights; the reports go to the cloud together, one for each sign, as soon as a
sign reports for the second time.
-/

namespace AdaptiveSignal.Cms

open Foundation

abbrev bufferBytes : ℕ := 1024

/-- What `CMS_recv_timeout` returns: nothing, or a datagram with its length. -/
inductive Received
  | timeout
  | datagram (bytes : List UInt8)

/-- The state of `CMS_handler` while it waits in a round, and the error bit of the
signs. An index that is no sign stands for memory beside the arrays. -/
structure SignHandler where
  buffer : ℕ → UInt8
  recvflags : ℤ → Bool
  lightingCheck : ℤ → Bool
  lightingId : ℤ → UInt8
  vmsError : Bool

/-- A datagram overwrites the front of the buffer and leaves the rest. -/
def receiveInto (buffer : ℕ → UInt8) (bytes : List UInt8) : ℕ → UInt8 :=
  fun i => (bytes.take bufferBytes).getD i (buffer i)

namespace SignHandler

/-- The packet of the lit images: the command, and the image of each sign. -/
def lightingPacket (lightingId : ℤ → UInt8) : List UInt8 :=
  6 :: (List.range cmsNumMax).flatMap fun i => [UInt8.ofNat (i + 1), lightingId i]

/-- The memory of the lit images, without those of the signs. -/
def forget (s : SignHandler) : SignHandler :=
  { s with
    lightingCheck := fun i => if 0 ≤ i ∧ i < cmsNumMax then false else s.lightingCheck i
    lightingId := fun i => if 0 ≤ i ∧ i < cmsNumMax then 0 else s.lightingId i }

/-- The sign that the datagram in the buffer is from. -/
def cmsID (s : SignHandler) : ℤ := (s.buffer 3).toNat

/-- Case 2 of the commands, of a sign that lights an image. -/
def light (s : SignHandler) : SignHandler × List (List UInt8) :=
  let again := s.lightingCheck (s.cmsID - 1)
  let sent := if again then [lightingPacket s.lightingId] else []
  let s := if again then { s.forget with vmsError := false } else s
  ({ s with
    lightingCheck := Function.update s.lightingCheck (s.cmsID - 1) true
    lightingId := Function.update s.lightingId (s.cmsID - 1) (s.buffer 5) }, sent)

/-- The `switch (cmd)`. Case 1 compares the hash of an image with that of its file,
which may set the error bit too. -/
def command (s : SignHandler) (hashError : Bool) : SignHandler × List (List UInt8) :=
  let status := s.buffer 4
  let imgID := s.buffer 5
  if s.buffer 1 = 1 then
    if status = 1 ∨ status = 2 then ({ s with vmsError := true }, [])
    else if imgID ≠ 0 then ({ s with vmsError := s.vmsError || hashError }, [])
    else (s, [])
  else if s.buffer 1 = 2 then
    if status = 1 ∨ status = 2 then ({ s with vmsError := true }, [])
    else if imgID ≠ 0 then s.light
    else (s, [])
  else (s, [])

/-- A sign that answers as it should is marked. -/
def mark (s : SignHandler) (cmsNumber length : ℕ) : SignHandler :=
  if 4 < length ∧ (s.buffer 0).toNat = length ∧ (s.buffer 3).toNat ≤ cmsNumber then
    { s with recvflags := Function.update s.recvflags (s.cmsID - 1) true }
  else s

/-- All signs have answered. -/
def complete (s : SignHandler) (cmsNumber : ℕ) : Bool :=
  (List.range cmsNumber).all fun i => s.recvflags i

/-- The start of a round: the packet in the buffer, and no sign marked. -/
def startRound (s : SignHandler) (display : DisplayBuffer) : SignHandler :=
  { s with
    buffer := receiveInto s.buffer display.displayPacket
    recvflags := fun i => if 0 ≤ i ∧ i < cmsNumMax then false else s.recvflags i }

end SignHandler

/-- A call of `CMS_recv_timeout`, the display of the round after it if it is the
last one of its own, and whether the hash of an image is wrong. -/
structure SignInput where
  received : Received
  display : DisplayBuffer
  hashError : Bool

namespace SignHandler

variable (cmsNumber : ℕ)

/-- What a datagram does before the round may end. -/
def receive (s : SignHandler) (bytes : List UInt8) (hashError : Bool) :
    SignHandler × List (List UInt8) :=
  let s := { s with buffer := receiveInto s.buffer bytes }
  (s.mark cmsNumber (min bytes.length bufferBytes)).command hashError

/-- One pass of the receiving loop. The round ends with the error bit set if it
timed out, and with the bit cleared if all signs have answered. -/
def step (s : SignHandler) (input : SignInput) : SignHandler :=
  match input.received with
  | .timeout => { s with vmsError := true }.startRound input.display
  | .datagram bytes =>
      let s := (s.receive cmsNumber bytes input.hashError).1
      if s.complete cmsNumber then { s with vmsError := false }.startRound input.display else s

def sent (s : SignHandler) (input : SignInput) : List (List UInt8) :=
  match input.received with
  | .timeout => []
  | .datagram bytes => (s.receive cmsNumber bytes input.hashError).2

/-- The image that the datagram in the buffer reports as lit, with the place of its
sign. -/
def litInBuffer (s : SignHandler) : List (ℤ × UInt8) :=
  if s.buffer 1 = 2 ∧ s.buffer 4 ≠ 1 ∧ s.buffer 4 ≠ 2 ∧ s.buffer 5 ≠ 0 then
    [(s.cmsID - 1, s.buffer 5)]
  else []

def lit (s : SignHandler) (input : SignInput) : List (ℤ × UInt8) :=
  match input.received with
  | .timeout => []
  | .datagram bytes => litInBuffer { s with buffer := receiveInto s.buffer bytes }

/-- The image that a batch of reports has for a sign, 0 if it has none. -/
def imageIn (batch : List (ℤ × UInt8)) (i : ℤ) : UInt8 :=
  (batch.lookup i).getD 0

/-- The arrays hold the reports since the last packet. -/
structure Collects (s : SignHandler) (pending : List (ℤ × UInt8)) : Prop where
  inRange : ∀ report ∈ pending, 0 ≤ report.1 ∧ report.1 < cmsNumMax
  check : ∀ i : ℤ, 0 ≤ i → i < cmsNumMax →
    (s.lightingCheck i = true ↔ i ∈ pending.map Prod.fst)
  image : ∀ i : ℤ, 0 ≤ i → i < cmsNumMax → s.lightingId i = imageIn pending i

variable {s s' : SignHandler} {pending : List (ℤ × UInt8)}

theorem Collects.congr (h : s.Collects pending) (hcheck : s'.lightingCheck = s.lightingCheck)
    (himage : s'.lightingId = s.lightingId) : s'.Collects pending :=
  ⟨h.inRange, by rw [hcheck]; exact h.check, by rw [himage]; exact h.image⟩

theorem Collects.forget (s : SignHandler) : s.forget.Collects [] where
  inRange := by simp
  check i hlow hhigh := by
    simp only [SignHandler.forget, if_pos (And.intro hlow hhigh)]
    simp
  image i hlow hhigh := by
    simp only [SignHandler.forget, if_pos (And.intro hlow hhigh)]
    rfl

/-- A sign that has not reported yet is added. -/
theorem Collects.add (h : s.Collects pending) {i : ℤ} (img : UInt8) (hlow : 0 ≤ i)
    (hhigh : i < cmsNumMax) (hnew : i ∉ pending.map Prod.fst) :
    { s with
      lightingCheck := Function.update s.lightingCheck i true
      lightingId := Function.update s.lightingId i img }.Collects (pending ++ [(i, img)]) := by
  refine ⟨fun report hreport => ?_, fun j hj hj' => ?_, fun j hj hj' => ?_⟩
  · rcases List.mem_append.mp hreport with hold | hlast
    · exact h.inRange report hold
    · rw [List.mem_singleton.mp hlast]
      exact ⟨hlow, hhigh⟩
  · rw [List.map_append, List.mem_append, ← h.check j hj hj']
    by_cases heq : j = i
    · simp [heq]
    · simp [heq]
  · rw [imageIn, List.lookup_append]
    by_cases heq : j = i
    · subst heq
      have hnone : pending.lookup j = none := by
        rw [List.lookup_eq_none_iff]
        intro report hreport
        simpa using fun heq : j = report.1 => hnew (heq ▸ List.mem_map_of_mem hreport)
      simp [hnone]
    · have hother : [(i, img)].lookup j = none := by
        rw [List.lookup_cons, beq_false_of_ne heq]
        rfl
      simp [heq, hother, h.image j hj hj', imageIn]

theorem Collects.lightingPacket_eq (h : s.Collects pending) :
    lightingPacket s.lightingId = lightingPacket (imageIn pending) := by
  unfold lightingPacket
  congr 1
  refine List.flatMap_congr fun i hi => ?_
  rw [h.image i (by omega) (by exact_mod_cast List.mem_range.mp hi)]

/-- A sign that reports for the second time has the batch sent, and begins the next. -/
theorem Collects.light (h : s.Collects pending) (hlow : 0 ≤ s.cmsID - 1)
    (hhigh : s.cmsID - 1 < cmsNumMax) :
    s.light.1.Collects (collect Prod.fst pending (s.cmsID - 1, s.buffer 5)) ∧
      s.light.2 = (handedOn Prod.fst pending (s.cmsID - 1, s.buffer 5)).map fun batch =>
        lightingPacket (imageIn batch) := by
  have hagain := h.check (s.cmsID - 1) hlow hhigh
  unfold SignHandler.light collect handedOn
  by_cases hcheck : s.lightingCheck (s.cmsID - 1) = true
  · simp only [hcheck, if_true, if_pos (hagain.mp hcheck), List.map_singleton]
    refine ⟨?_, by rw [h.lightingPacket_eq]⟩
    have hempty : { s.forget with vmsError := false }.Collects [] :=
      (Collects.forget s).congr rfl rfl
    exact hempty.add (s.buffer 5) hlow hhigh (by simp)
  · have hnew : s.cmsID - 1 ∉ pending.map Prod.fst := fun hmem => hcheck (hagain.mpr hmem)
    simp only [hcheck, Bool.false_eq_true, if_false, if_neg hnew, List.map_nil, and_true]
    exact h.add (s.buffer 5) hlow hhigh hnew

section Receive

/-- A command lights the image that the buffer reports, or none. -/
theorem command_cases (s : SignHandler) (hashError : Bool) :
    (s.litInBuffer = [(s.cmsID - 1, s.buffer 5)] ∧ s.command hashError = s.light) ∨
      (s.litInBuffer = [] ∧ (s.command hashError).2 = [] ∧
        (s.command hashError).1.lightingCheck = s.lightingCheck ∧
        (s.command hashError).1.lightingId = s.lightingId) := by
  unfold SignHandler.command litInBuffer
  dsimp only
  by_cases hone : s.buffer 1 = 1
  · right
    rw [if_pos hone, hone, if_neg fun hlit => absurd hlit.1 (by decide)]
    refine ⟨rfl, ?_⟩
    split_ifs <;> exact ⟨rfl, rfl, rfl⟩
  · rw [if_neg hone]
    by_cases htwo : s.buffer 1 = 2
    · rw [if_pos htwo]
      by_cases hstatus : s.buffer 4 = 1 ∨ s.buffer 4 = 2
      · rw [if_pos hstatus, if_neg fun hlit => hstatus.elim hlit.2.1 hlit.2.2.1]
        exact Or.inr ⟨rfl, rfl, rfl, rfl⟩
      · rw [if_neg hstatus]
        obtain ⟨hfirst, hsecond⟩ := not_or.mp hstatus
        by_cases himg : s.buffer 5 = 0
        · rw [if_neg (not_not.mpr himg), if_neg fun hlit => hlit.2.2.2 himg]
          exact Or.inr ⟨rfl, rfl, rfl, rfl⟩
        · rw [if_pos himg, if_pos ⟨htwo, hfirst, hsecond, himg⟩]
          exact Or.inl ⟨rfl, rfl⟩
    · rw [if_neg htwo, if_neg fun hlit => htwo hlit.1]
      exact Or.inr ⟨rfl, rfl, rfl, rfl⟩

/-- The batches that reports have sent. -/
def packetsOf (batches : List (List (ℤ × UInt8))) : List (List UInt8) :=
  batches.map fun batch => lightingPacket (imageIn batch)

theorem Collects.command (h : s.Collects pending) (hashError : Bool)
    (hsigns : ∀ report ∈ s.litInBuffer, 0 ≤ report.1 ∧ report.1 < cmsNumMax) :
    (s.command hashError).1.Collects (run (collect Prod.fst) pending s.litInBuffer) ∧
      (s.command hashError).2 =
        packetsOf (emitted (collect Prod.fst) (handedOn Prod.fst) pending s.litInBuffer) := by
  rcases command_cases s hashError with ⟨hlit, hlight⟩ | ⟨hlit, hsent, hcheck, himage⟩
  · rw [hlit] at hsigns ⊢
    obtain ⟨hlow, hhigh⟩ := hsigns _ List.mem_cons_self
    obtain ⟨hcollects, hsent⟩ := h.light hlow hhigh
    rw [hlight]
    exact ⟨hcollects, by simpa [emitted, packetsOf] using hsent⟩
  · rw [hlit, hsent]
    exact ⟨h.congr hcheck himage, rfl⟩

/-- What a receive does to the batch in hand, and what it sends. -/
theorem Collects.step (h : s.Collects pending) {input : SignInput}
    (hsigns : ∀ report ∈ s.lit input, 0 ≤ report.1 ∧ report.1 < cmsNumMax) :
    (s.step cmsNumber input).Collects (run (collect Prod.fst) pending (s.lit input)) ∧
      s.sent cmsNumber input =
        packetsOf (emitted (collect Prod.fst) (handedOn Prod.fst) pending (s.lit input)) := by
  unfold SignHandler.step SignHandler.sent
  unfold lit at hsigns ⊢
  cases hreceived : input.received with
  | timeout => exact ⟨h.congr rfl rfl, rfl⟩
  | datagram bytes =>
      simp only [hreceived] at hsigns ⊢
      -- neither the marks nor the end and the start of a round concern the arrays
      have hmark : ∀ (s : SignHandler) (length : ℕ),
          (∀ pending, s.Collects pending → (s.mark cmsNumber length).Collects pending) ∧
            (s.mark cmsNumber length).litInBuffer = s.litInBuffer := by
        intro s length
        unfold SignHandler.mark
        split_ifs
        · exact ⟨fun pending hs => hs.congr rfl rfl, rfl⟩
        · exact ⟨fun pending hs => hs, rfl⟩
      have hround : ∀ {s : SignHandler} {pending}, s.Collects pending →
          (if s.complete cmsNumber then { s with vmsError := false }.startRound input.display
            else s).Collects pending := by
        intro s pending hs
        split_ifs
        · exact hs.congr rfl rfl
        · exact hs
      have hbuffer : { s with buffer := receiveInto s.buffer bytes }.Collects pending :=
        h.congr rfl rfl
      obtain ⟨hmarked, hlit⟩ := hmark { s with buffer := receiveInto s.buffer bytes }
        (min bytes.length bufferBytes)
      rw [← hlit] at hsigns ⊢
      obtain ⟨hcollects, hsent⟩ := (hmarked pending hbuffer).command input.hashError hsigns
      exact ⟨hround hcollects, hsent⟩

end Receive

/-! ## Runs of the handler -/

/-- The handler in its first round. What the buffer held before is any. -/
def boot (memory : ℕ → UInt8) (display : DisplayBuffer) : SignHandler :=
  startRound ⟨memory, fun _ => false, fun _ => false, fun _ => 0, false⟩ display

variable (memory : ℕ → UInt8) (display : DisplayBuffer)

theorem Collects.boot : (boot memory display).Collects [] :=
  ⟨by simp, fun i _ _ => by simp [SignHandler.boot, startRound], fun i _ _ => rfl⟩

theorem collects_run {inputs : List SignInput}
    (hsigns : ∀ report ∈ emitted (step cmsNumber) lit (boot memory display) inputs,
      0 ≤ report.1 ∧ report.1 < cmsNumMax) :
    let reports := emitted (step cmsNumber) lit (boot memory display) inputs
    (run (step cmsNumber) (boot memory display) inputs).Collects
        (run (collect Prod.fst) [] reports) ∧
      emitted (step cmsNumber) (sent cmsNumber) (boot memory display) inputs =
        packetsOf (emitted (collect Prod.fst) (handedOn Prod.fst) [] reports) := by
  induction inputs using List.reverseRecOn with
  | nil => exact ⟨Collects.boot memory display, rfl⟩
  | append_singleton inputs last ih =>
      rw [emitted_concat] at hsigns
      obtain ⟨hcollects, hsent⟩ := ih fun report hreport =>
        hsigns report (List.mem_append_left _ hreport)
      obtain ⟨hnow, hpackets⟩ := hcollects.step cmsNumber fun report hreport =>
        hsigns report (List.mem_append_right _ hreport)
      dsimp only
      rw [emitted_concat, emitted_concat, run_concat, run_append, emitted_append, hsent, hpackets]
      exact ⟨hnow, by simp [packetsOf]⟩

theorem imageIn_of_mem {batch : List (ℤ × UInt8)} (hdistinct : (batch.map Prod.fst).Nodup)
    {report : ℤ × UInt8} (hreport : report ∈ batch) : imageIn batch report.1 = report.2 := by
  induction batch with
  | nil => simp at hreport
  | cons first rest ih =>
      obtain ⟨hfirst, hrest⟩ := List.nodup_cons.mp hdistinct
      rw [imageIn, List.lookup_cons]
      rcases List.mem_cons.mp hreport with rfl | hlater
      · simp
      · have hne : (report.1 == first.1) = false :=
          beq_false_of_ne fun heq => hfirst (heq ▸ List.mem_map_of_mem hlater)
        rw [hne]
        exact ih hrest hlater

theorem imageIn_of_notMem {batch : List (ℤ × UInt8)} {i : ℤ} (hnone : i ∉ batch.map Prod.fst) :
    imageIn batch i = 0 := by
  have hlookup : batch.lookup i = none := by
    rw [List.lookup_eq_none_iff]
    intro report hreport
    simpa using fun heq : i = report.1 => hnone (heq ▸ List.mem_map_of_mem hreport)
  rw [imageIn, hlookup]
  rfl

theorem lightingPacket_get (lightingId : ℤ → UInt8) (i : Fin cmsNumMax) :
    (lightingPacket lightingId)[1 + 2 * i.val]? = some (UInt8.ofNat (i.val + 1)) ∧
      (lightingPacket lightingId)[2 + 2 * i.val]? = some (lightingId i.val) := by
  fin_cases i <;> exact ⟨rfl, rfl⟩

/-- In every run of the handler, whatever its rounds receive from signs that are
numbered as they should be: the reports of lit images are cut into batches of
different signs, as long as they can be, of which only the last one is still
to come. Each of the others is sent in one packet, which has the image reported
for every sign of the batch and none for the others. -/
theorem lit_images_reported_in_batches {inputs : List SignInput}
    (hsigns : ∀ report ∈ emitted (step cmsNumber) lit (boot memory display) inputs,
      0 ≤ report.1 ∧ report.1 < cmsNumMax) :
    ∃ batches pending,
      Batched Prod.fst (emitted (step cmsNumber) lit (boot memory display) inputs) batches
        pending ∧
      emitted (step cmsNumber) (sent cmsNumber) (boot memory display) inputs =
        packetsOf batches ∧
      ∀ batch ∈ batches, ∀ i : Fin cmsNumMax,
        (lightingPacket (imageIn batch))[1 + 2 * i.val]? = some (UInt8.ofNat (i.val + 1)) ∧
        (∀ img, ((i.val : ℤ), img) ∈ batch →
          (lightingPacket (imageIn batch))[2 + 2 * i.val]? = some img) ∧
        ((i.val : ℤ) ∉ batch.map Prod.fst →
          (lightingPacket (imageIn batch))[2 + 2 * i.val]? = some 0) := by
  have hbatched :
      Batched Prod.fst (emitted (step cmsNumber) lit (boot memory display) inputs) _ _ :=
    batched_run (emitted (step cmsNumber) lit (boot memory display) inputs)
  have hsent := (collects_run cmsNumber memory display hsigns).2
  refine ⟨_, _, hbatched, hsent, fun batch hbatch i => ?_⟩
  obtain ⟨hnumber, himage⟩ := lightingPacket_get (imageIn batch) i
  have hdistinct := hbatched.distinct batch (List.mem_append_left _ hbatch)
  refine ⟨hnumber, fun img hmem => ?_, fun hnone => ?_⟩
  · rw [himage, imageIn_of_mem hdistinct hmem]
  · rw [himage, imageIn_of_notMem hnone]

/-! ## How a round ends -/

/-- The sign that a datagram answers for: one of more than four bytes that begins
with its length and has the number of a sign. -/
def answerOf (bytes : List UInt8) : Option ℕ :=
  let length := min bytes.length bufferBytes
  if 4 < length ∧ (bytes.getD 0 0).toNat = length ∧ (bytes.getD 3 0).toNat ≤ cmsNumber then
    some (bytes.getD 3 0).toNat
  else none

/-- The signs that have answered in the round, after one more receive. -/
def answering (answered : List ℕ) (input : SignInput) : List ℕ :=
  match input.received with
  | .timeout => answered
  | .datagram bytes => answered ++ (answerOf cmsNumber bytes).toList

/-- The round is over when nothing came, or when every sign has answered in it. -/
def endsRound (answered : List ℕ) (input : SignInput) : Bool :=
  input.received matches .timeout ||
    (List.range cmsNumber).all fun i => i + 1 ∈ answering cmsNumber answered input

/-- The signs that have answered since the round began. -/
def answeredStep (answered : List ℕ) (input : SignInput) : List ℕ :=
  if endsRound cmsNumber answered input then [] else answering cmsNumber answered input

/-- The marks are the signs that have answered. -/
def Marks (s : SignHandler) (answered : List ℕ) : Prop :=
  ∀ i < cmsNumber, s.recvflags i = true ↔ i + 1 ∈ answered

variable {answered : List ℕ}

theorem receiveInto_of_lt {buffer : ℕ → UInt8} {bytes : List UInt8} {i : ℕ}
    (hi : i < min bytes.length bufferBytes) : receiveInto buffer bytes i = bytes.getD i 0 := by
  obtain ⟨hlength, hbound⟩ := lt_min_iff.mp hi
  simp [receiveInto, List.getD_eq_getElem?_getD, hbound, List.getElem?_eq_getElem hlength]

theorem light_recvflags (s : SignHandler) : s.light.1.recvflags = s.recvflags := by
  unfold light
  dsimp only
  split_ifs <;> rfl

theorem command_recvflags (s : SignHandler) (hashError : Bool) :
    (s.command hashError).1.recvflags = s.recvflags := by
  unfold command
  dsimp only
  split_ifs <;> first | rfl | exact light_recvflags s

theorem mark_iff (s : SignHandler) (length : ℕ) (i : ℤ) :
    (s.mark cmsNumber length).recvflags i = true ↔ s.recvflags i = true ∨
      ((4 < length ∧ (s.buffer 0).toNat = length ∧ (s.buffer 3).toNat ≤ cmsNumber) ∧
        i = (s.buffer 3).toNat - 1) := by
  unfold mark
  split_ifs with hanswer
  · by_cases heq : i = s.cmsID - 1
    · have hplace : i = (s.buffer 3).toNat - 1 := heq
      simp [heq, hanswer, hplace.symm]
    · have hplace : ¬ i = (s.buffer 3).toNat - 1 := heq
      simp [heq, hplace]
  · simp [hanswer]

theorem mem_answerOf {bytes : List UInt8} {sign : ℕ} :
    sign ∈ (answerOf cmsNumber bytes).toList ↔
      (4 < min bytes.length bufferBytes ∧
        (bytes.getD 0 0).toNat = min bytes.length bufferBytes ∧
        (bytes.getD 3 0).toNat ≤ cmsNumber) ∧ sign = (bytes.getD 3 0).toNat := by
  unfold answerOf
  dsimp only
  split_ifs with hanswer
  · simp only [hanswer, Option.toList_some, List.mem_singleton, true_and, and_self]
  · simp only [hanswer, Option.toList_none, List.not_mem_nil, false_and]

/-- A datagram marks the sign that it answers for. -/
theorem Marks.receive {s : SignHandler} (h : s.Marks cmsNumber answered) (bytes : List UInt8)
    (hashError : Bool) :
    (s.receive cmsNumber bytes hashError).1.Marks cmsNumber
      (answered ++ (answerOf cmsNumber bytes).toList) := by
  intro i hi
  rw [SignHandler.receive, command_recvflags, mark_iff, List.mem_append, mem_answerOf]
  refine or_congr (h i hi) ?_
  dsimp only
  by_cases hlength : 4 < min bytes.length bufferBytes
  · rw [receiveInto_of_lt (by omega), receiveInto_of_lt (by omega)]
    exact and_congr_right fun _ => by omega
  · simp only [hlength, false_and]

theorem Marks.complete {s : SignHandler} (h : s.Marks cmsNumber answered) :
    s.complete cmsNumber = (List.range cmsNumber).all fun i => i + 1 ∈ answered := by
  rw [SignHandler.complete, Bool.eq_iff_iff, List.all_eq_true, List.all_eq_true]
  refine forall₂_congr fun i hi => ?_
  rw [h i (List.mem_range.mp hi), decide_eq_true_eq]

theorem Marks.startRound {s : SignHandler} (hsigns : cmsNumber ≤ cmsNumMax)
    (display : DisplayBuffer) : (s.startRound display).Marks cmsNumber [] := by
  intro i hi
  have hin : (0 : ℤ) ≤ i ∧ (i : ℤ) < cmsNumMax := ⟨by omega, by exact_mod_cast hi.trans_le hsigns⟩
  simp only [SignHandler.startRound, if_pos hin]
  simp

/-- A receive marks the sign that answered, ends the round when it should, and then
has set the error bit if it timed out and cleared it if not. -/
theorem Marks.step {s : SignHandler} (h : s.Marks cmsNumber answered)
    (hsigns : cmsNumber ≤ cmsNumMax) (input : SignInput) :
    (s.step cmsNumber input).Marks cmsNumber (answeredStep cmsNumber answered input) ∧
      (endsRound cmsNumber answered input = true →
        (s.step cmsNumber input).vmsError = (input.received matches .timeout)) := by
  unfold SignHandler.step answeredStep endsRound answering
  cases hreceived : input.received with
  | timeout =>
      simp only [Bool.true_or, if_true]
      exact ⟨Marks.startRound cmsNumber hsigns input.display, fun _ => rfl⟩
  | datagram bytes =>
      have hmarks := h.receive cmsNumber bytes input.hashError
      simp only [Bool.false_or, ← hmarks.complete]
      split_ifs with hcomplete
      · exact ⟨Marks.startRound cmsNumber hsigns input.display, fun _ => rfl⟩
      · exact ⟨hmarks, fun hends => absurd hends hcomplete⟩

section Example

/-- An answer of a sign that lights an image. -/
def lights (sign img : UInt8) : SignInput where
  received := .datagram [6, 2, 1, sign, 0, img]
  display := .clear
  hashError := false

theorem lit_images_reported_in_batches_of_two :
    ∃ batches pending, Batched Prod.fst [(0, 20), (1, 21), (0, 22)] batches pending ∧
      emitted (step 2) (sent 2) (boot (fun _ => 0) .clear) [lights 1 20, lights 2 21, lights 1 22] =
        packetsOf batches := by
  have hsigns : ∀ report ∈ emitted (step 2) lit (boot (fun _ => 0) .clear)
      [lights 1 20, lights 2 21, lights 1 22], 0 ≤ report.1 ∧ report.1 < cmsNumMax := by decide
  obtain ⟨batches, pending, hbatched, hsent, _⟩ :=
    lit_images_reported_in_batches 2 (fun _ => 0) .clear hsigns
  exact ⟨batches, pending, hbatched, hsent⟩

end Example

end SignHandler

end AdaptiveSignal.Cms
