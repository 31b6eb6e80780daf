import AdaptiveSignal.Foundation.CString
import AdaptiveSignal.Pedestrian.StageOrder

/-! # The web clients of the VIPS+ display

After every tick of the algorithm the timer thread rewrites the message and asks
for a writable callback of each registered client. The service thread answers
the callbacks one at a time. It copies the message under the lock and measures
it a second time without the lock, when it writes the copy.
-/

namespace AdaptiveSignal.Pedestrian

open Foundation

abbrev messageSize : ℕ := 128

abbrev maxClients : ℕ := 10

/-- `message_buffer_plus` after `snprintf`, up to its terminating zero. -/
def messageBuffer (text : String) : List UInt8 :=
  (utf8Bytes text.toList).take (messageSize - 1) ++ [0]

/-- The buffer of the writable callback after its `memset` and `memcpy`. -/
def copyMessage (buffer : List UInt8) : List UInt8 :=
  cString buffer ++ List.replicate (messageSize - (cString buffer).length) 0

/-- The connections of the service thread. `requested` are those whose writable
callback is due, `serving` the one whose callback runs, with its copy of the
message once it has made one. -/
structure Display (Wsi : Type*) where
  timer : TimerPlus
  clientsPlus : List Wsi
  connected : Wsi → Bool
  requested : Wsi → Bool
  serving : Option (Wsi × Option (List UInt8))
  delivered : List (Wsi × List UInt8)

/-- A tick of the timer thread, or what the service thread does next. -/
inductive DisplayEvent (Wsi : Type*)
  | tick (input : TickInput)
  | established (wsi : Wsi)
  | writeable (wsi : Wsi)
  | copy
  | write
  | closed (wsi : Wsi)

namespace Display

variable {Wsi : Type*} [DecidableEq Wsi]

def boot : Display Wsi where
  timer := TimerPlus.boot
  clientsPlus := []
  connected := fun _ => false
  requested := fun _ => false
  serving := none
  delivered := []

def message (d : Display Wsi) : List UInt8 := messageBuffer d.timer.messageBufferPlus

/-- One event. The service thread is in one callback at a time, and an event that
it cannot meet leaves everything as it is. -/
def step (d : Display Wsi) : DisplayEvent Wsi → Display Wsi
  | .tick input =>
      let timer := d.timer.tick input
      { d with
        timer := timer
        requested := fun wsi =>
          d.requested wsi || (timer.isSynchronized && decide (wsi ∈ d.clientsPlus)) }
  | .established wsi =>
      if d.connected wsi = false ∧ d.serving = none then
        let d := { d with connected := Function.update d.connected wsi true }
        if d.clientsPlus.length < maxClients then
          { d with
            clientsPlus := d.clientsPlus ++ [wsi]
            requested := Function.update d.requested wsi true }
        else d
      else d
  | .writeable wsi =>
      if d.requested wsi = true ∧ d.serving = none then
        { d with
          requested := Function.update d.requested wsi false
          serving := some (wsi, none) }
      else d
  | .copy =>
      match d.serving with
      | some (wsi, none) => { d with serving := some (wsi, some (copyMessage d.message)) }
      | _ => d
  | .write =>
      match d.serving with
      -- `strlen` reads the message as it is now, not the copy
      | some (wsi, some buf) =>
          { d with
            serving := none
            delivered := d.delivered ++ [(wsi, buf.take (cString d.message).length)] }
      | _ => d
  | .closed wsi =>
      if d.connected wsi = true ∧ d.serving = none then
        { d with
          connected := Function.update d.connected wsi false
          clientsPlus := d.clientsPlus.erase wsi
          requested := Function.update d.requested wsi false }
      else d

/-- The text that a connection was last sent. -/
def lastDelivered (d : Display Wsi) (wsi : Wsi) : Option (List UInt8) :=
  ((d.delivered.filter fun sent => sent.1 = wsi).getLast?).map Prod.snd

end Display

/-! ## The messages -/

/-- A text the display can hold: it fits the buffer, with its terminating zero. -/
def IsMessage (text : String) : Prop :=
  text = "Red" ∨ ∃ c phase step, text = messagePlus c phase step

theorem isMessage_boot : IsMessage TimerPlus.boot.messageBufferPlus := Or.inl rfl

section Message

variable (s : TimerPlus) (input : TickInput)

theorem TimerPlus.synchronize_message :
    (s.synchronize input).1.messageBufferPlus = s.messageBufferPlus := by
  unfold TimerPlus.synchronize
  dsimp only
  split_ifs <;> rfl

theorem TimerPlus.initialise_message : s.initialise.messageBufferPlus = s.messageBufferPlus := by
  unfold TimerPlus.initialise
  split_ifs <;> rfl

/-- The message is rewritten by the ticks of a synchronised handler alone. -/
theorem TimerPlus.tick_message :
    ((s.tick input).isSynchronized = false ∧
        (s.tick input).messageBufferPlus = s.messageBufferPlus) ∨
      ((s.tick input).isSynchronized = true ∧ (s.tick input).messageBufferPlus =
        messagePlus (s.tick input).control input.subPhaseId input.stepId) := by
  have hsame : (s.synchronize input).1.initialise.messageBufferPlus = s.messageBufferPlus := by
    rw [TimerPlus.initialise_message, TimerPlus.synchronize_message]
  simp only [TimerPlus.tick, pedestrianPlusTimerHandler, TimerPlus.advance]
  by_cases hflag : (s.synchronize input).1.initialise.isSynchronized = true
  · rw [if_pos hflag]
    exact Or.inr ⟨hflag, rfl⟩
  · rw [if_neg hflag]
    exact Or.inl ⟨Bool.eq_false_iff.mpr hflag, hsame⟩

end Message

/-- A text without zeros, of at most `bound` bytes. -/
def Fits (bound : ℕ) (text : String) : Prop :=
  0 ∉ utf8Bytes text.toList ∧ (utf8Bytes text.toList).length ≤ bound

instance (bound : ℕ) (text : String) : Decidable (Fits bound text) :=
  inferInstanceAs (Decidable (_ ∧ _))

theorem Fits.append {bound bound' : ℕ} {first second : String} (hfirst : Fits bound first)
    (hsecond : Fits bound' second) : Fits (bound + bound') (first ++ second) := by
  rw [Fits, String.toList_append, utf8Bytes_append, List.length_append]
  refine ⟨fun hzero => ?_, Nat.add_le_add hfirst.2 hsecond.2⟩
  exact (List.mem_append.mp hzero).elim hfirst.1 hsecond.1

theorem fits_toString (n : UInt8) : Fits 3 (toString n) := by
  have hlist : (toString n).toList = Nat.toDigits 10 n.toNat := Nat.toList_repr
  have hdigit : ∀ c ∈ Nat.toDigits 10 n.toNat, c.isDigit = true := fun c =>
    Nat.isDigit_of_mem_toDigits (by decide) (by decide)
  have hlength : (Nat.toDigits 10 n.toNat).length ≤ 3 :=
    (Nat.length_toDigits_le_iff (by decide) (by decide)).mpr (n.toNat_lt.trans (by decide))
  rw [Fits, hlist]
  refine ⟨zero_notMem_utf8Bytes fun hzero => absurd (hdigit _ hzero) (by decide), ?_⟩
  rwa [length_utf8Bytes_ascii]
  intro c hc
  have hc := hdigit c hc
  simp only [Char.isDigit, Bool.and_eq_true, decide_eq_true_eq] at hc
  exact le_trans (UInt32.le_iff_toNat_le.mp hc.2) (by decide)

/-- The longest text is the one of the all-red stage. -/
theorem fits_messagePlus (c : ControlPlus) (phase step : UInt8) :
    Fits 57 (messagePlus c phase step) := by
  have hseparator : Fits 3 " | " := by decide
  have hdirection : Fits 11 (if c.directionFlagPlus then "East/West" else "North/South") := by
    cases c.directionFlagPlus <;> decide
  have hdash : Fits 1 "-" := by decide
  have hrest : ∀ lights : String, Fits 33 lights → Fits 57 (lights ++ " | " ++
      (if c.directionFlagPlus then "East/West" else "North/South") ++ " | " ++ toString phase ++
      "-" ++ toString step) := fun lights h =>
    (((((h.append hseparator).append hdirection).append hseparator).append
      (fits_toString phase)).append hdash).append (fits_toString step)
  unfold messagePlus
  apply hrest
  split <;> decide

theorem IsMessage.fits {text : String} (h : IsMessage text) : Fits 57 text := by
  rcases h with rfl | ⟨c, phase, step, rfl⟩
  · decide
  · exact fits_messagePlus c phase step

/-- The buffer holds the whole of a message that fits it. -/
theorem cString_messageBuffer {text : String} (h : Fits 57 text) :
    cString (messageBuffer text) = utf8Bytes text.toList := by
  rw [messageBuffer, List.take_of_length_le (h.2.trans (by decide)), cString,
    List.takeWhile_append_of_pos]
  · simp
  · exact fun byte hbyte => by simpa using fun hzero : byte = 0 => h.1 (hzero ▸ hbyte)

/-- The copy of a message, of which the length of another one is written: cut, or
filled with zeros. -/
theorem take_copyMessage {first last : String} (hfirst : Fits 57 first) (hlast : Fits 57 last) :
    (copyMessage (messageBuffer first)).take (cString (messageBuffer last)).length =
      (utf8Bytes first.toList ++ List.replicate messageSize 0).take
        (utf8Bytes last.toList).length := by
  rw [copyMessage, cString_messageBuffer hfirst, cString_messageBuffer hlast]
  have hfits := hlast.2
  have hsize : messageSize = 128 := rfl
  rw [List.take_append, List.take_append, List.take_replicate, List.take_replicate]
  congr 2
  omega

/-! ## What one event keeps -/

namespace Display

variable {Wsi : Type*} [DecidableEq Wsi]

/-- A registered client has a callback coming, is in one that will write the
message as it is, or is in none and was last sent just that. -/
def UpToDate (d : Display Wsi) (wsi : Wsi) : Prop :=
  d.requested wsi = true ∨ d.serving = some (wsi, none) ∨
    d.serving = some (wsi, some (copyMessage d.message)) ∨
    ((∀ buf, d.serving ≠ some (wsi, buf)) ∧
      d.lastDelivered wsi = some (utf8Bytes d.timer.messageBufferPlus.toList))

/-- The registered clients are distinct open connections, only they are served,
and none of them misses a message. -/
structure Kept (d : Display Wsi) : Prop where
  nodup : d.clientsPlus.Nodup
  atMost : d.clientsPlus.length ≤ maxClients
  connected : ∀ wsi ∈ d.clientsPlus, d.connected wsi = true
  requested : ∀ wsi, d.requested wsi = true → wsi ∈ d.clientsPlus
  served : ∀ wsi buf, d.serving = some (wsi, buf) → wsi ∈ d.clientsPlus
  copied : ∀ wsi buf, d.serving = some (wsi, some buf) →
    ∃ text, IsMessage text ∧ buf = copyMessage (messageBuffer text)
  message : IsMessage d.timer.messageBufferPlus
  upToDate : ∀ wsi ∈ d.clientsPlus, d.UpToDate wsi
  delivered : ∀ sent ∈ d.delivered, ∃ first last, IsMessage first ∧ IsMessage last ∧
    sent.2 = (utf8Bytes first.toList ++ List.replicate messageSize 0).take
      (utf8Bytes last.toList).length

theorem Kept.boot : (boot : Display Wsi).Kept where
  nodup := List.nodup_nil
  atMost := Nat.zero_le _
  connected := fun _ h => nomatch h
  requested := fun _ h => nomatch h
  served := fun _ _ h => nomatch h
  copied := fun _ _ h => nomatch h
  message := isMessage_boot
  upToDate := fun _ h => nomatch h
  delivered := fun _ h => nomatch h

variable {d : Display Wsi}

theorem Kept.tick (h : d.Kept) (input : TickInput) : (d.step (.tick input)).Kept := by
  have hmessage := d.timer.tick_message input
  refine ⟨h.nodup, h.atMost, h.connected, fun wsi hrequested => ?_, h.served, h.copied, ?_,
    fun wsi hwsi => ?_, h.delivered⟩
  · rcases Bool.or_eq_true_iff.mp hrequested with hbefore | hnow
    · exact h.requested wsi hbefore
    · exact of_decide_eq_true (Bool.and_eq_true_iff.mp hnow).2
  · rcases hmessage with ⟨_, hsame⟩ | ⟨_, hnew⟩
    · exact hsame ▸ h.message
    · exact Or.inr ⟨_, _, _, hnew⟩
  · rcases hmessage with ⟨hflag, hsame⟩ | ⟨hflag, _⟩
    · have hold := h.upToDate wsi hwsi
      unfold UpToDate at hold ⊢
      simp only [Display.step, hflag, Bool.false_and, Bool.or_false, Display.message,
        lastDelivered, hsame] at hold ⊢
      exact hold
    · refine Or.inl ?_
      simp only [Display.step, hflag, Bool.true_and, Bool.or_eq_true, decide_eq_true_eq]
      exact Or.inr hwsi

theorem update_true_iff (f : Wsi → Bool) (wsi other : Wsi) :
    Function.update f wsi true other = true ↔ other = wsi ∨ f other = true := by
  by_cases heq : other = wsi
  · simp [heq]
  · simp [heq]

theorem update_false_iff (f : Wsi → Bool) (wsi other : Wsi) :
    Function.update f wsi false other = true ↔ other ≠ wsi ∧ f other = true := by
  by_cases heq : other = wsi
  · simp [heq]
  · simp [heq]

/-- While no callback runs, a client that is up to date waits for one or was last
sent the message. -/
theorem upToDate_idle {wsi : Wsi} (hidle : d.serving = none) :
    d.UpToDate wsi ↔ d.requested wsi = true ∨
      d.lastDelivered wsi = some (utf8Bytes d.timer.messageBufferPlus.toList) := by
  simp [UpToDate, hidle]

theorem Kept.established (h : d.Kept) (wsi : Wsi) : (d.step (.established wsi)).Kept := by
  simp only [Display.step]
  split_ifs with hnew hroom
  · -- the place of the new client is still free, and it was not registered
    have hfresh : wsi ∉ d.clientsPlus := fun hmem => by
      rw [h.connected wsi hmem] at hnew
      exact Bool.noConfusion hnew.1
    refine ⟨?_, ?_, fun other hmem => ?_, fun other hrequested => ?_, fun other buf hserving => ?_,
      h.copied, h.message, fun other hmem => ?_, h.delivered⟩
    · exact List.nodup_append'.mpr ⟨h.nodup, List.nodup_singleton wsi,
        List.disjoint_singleton.mpr hfresh⟩
    · simpa using Nat.succ_le_of_lt hroom
    · rw [update_true_iff]
      rcases List.mem_append.mp hmem with hold | hlast
      · exact Or.inr (h.connected other hold)
      · exact Or.inl (List.mem_singleton.mp hlast)
    · rw [update_true_iff] at hrequested
      refine List.mem_append.mpr (hrequested.symm.imp (h.requested other) fun heq => ?_)
      exact List.mem_singleton.mpr heq
    · exact absurd (hserving.symm.trans hnew.2) (by simp)
    · refine (upToDate_idle ?_).mpr ?_
      · exact hnew.2
      rw [update_true_iff]
      rcases List.mem_append.mp hmem with hold | hlast
      · exact ((upToDate_idle hnew.2).mp (h.upToDate other hold)).imp_left Or.inr
      · exact Or.inl (Or.inl (List.mem_singleton.mp hlast))
  · refine ⟨h.nodup, h.atMost, fun other hmem => ?_, h.requested, h.served, h.copied, h.message,
      h.upToDate, h.delivered⟩
    exact (update_true_iff _ _ _).mpr (Or.inr (h.connected other hmem))
  · exact h

theorem Kept.closed (h : d.Kept) (wsi : Wsi) : (d.step (.closed wsi)).Kept := by
  simp only [Display.step]
  split_ifs with hopen
  · refine ⟨h.nodup.erase wsi, List.erase_sublist.length_le.trans h.atMost, fun other hmem => ?_,
      fun other hrequested => ?_, fun other buf hserving => ?_, h.copied, h.message,
      fun other hmem => ?_, h.delivered⟩
    · obtain ⟨hne, hold⟩ := h.nodup.mem_erase_iff.mp hmem
      exact (update_false_iff _ _ _).mpr ⟨hne, h.connected other hold⟩
    · obtain ⟨hne, hbefore⟩ := (update_false_iff _ _ _).mp hrequested
      exact h.nodup.mem_erase_iff.mpr ⟨hne, h.requested other hbefore⟩
    · exact absurd (hserving.symm.trans hopen.2) (by simp)
    · obtain ⟨hne, hold⟩ := h.nodup.mem_erase_iff.mp hmem
      refine (upToDate_idle ?_).mpr ?_
      · exact hopen.2
      rw [update_false_iff]
      exact ((upToDate_idle hopen.2).mp (h.upToDate other hold)).imp_left fun hbefore =>
        ⟨hne, hbefore⟩
  · exact h

theorem Kept.writeable (h : d.Kept) (wsi : Wsi) : (d.step (.writeable wsi)).Kept := by
  simp only [Display.step]
  split_ifs with hdue
  · refine ⟨h.nodup, h.atMost, h.connected, fun other hrequested => ?_,
      fun other buf hserving => ?_, fun other buf hserving => ?_, h.message, fun other hmem => ?_,
      h.delivered⟩
    · exact h.requested other ((update_false_iff _ _ _).mp hrequested).2
    · obtain ⟨rfl, _⟩ := Prod.mk.inj (Option.some.inj hserving)
      exact h.requested _ hdue.1
    · exact absurd (Prod.mk.inj (Option.some.inj hserving)).2 (by simp)
    · by_cases heq : other = wsi
      · exact Or.inr (Or.inl (by rw [heq]))
      · rcases (upToDate_idle hdue.2).mp (h.upToDate other hmem) with hbefore | hlast
        · exact Or.inl ((update_false_iff _ _ _).mpr ⟨heq, hbefore⟩)
        · refine Or.inr (Or.inr (Or.inr ⟨fun buf hnow => ?_, hlast⟩))
          exact heq (Prod.mk.inj (Option.some.inj hnow)).1.symm
  · exact h

theorem Kept.copy (h : d.Kept) : (d.step .copy).Kept := by
  simp only [Display.step]
  split
  · rename_i wsi hserving
    refine ⟨h.nodup, h.atMost, h.connected, h.requested, fun other buf hnow => ?_,
      fun other buf hnow => ?_, h.message, fun other hmem => ?_, h.delivered⟩
    · obtain ⟨rfl, _⟩ := Prod.mk.inj (Option.some.inj hnow)
      exact h.served _ _ hserving
    · obtain ⟨_, hbuf⟩ := Prod.mk.inj (Option.some.inj hnow)
      exact ⟨_, h.message, (Option.some.inj hbuf).symm⟩
    · have hstill := h.upToDate other hmem
      unfold UpToDate at hstill ⊢
      rw [hserving] at hstill
      rcases hstill with hrequested | hnow | hnow | ⟨hother, hlast⟩
      · exact Or.inl hrequested
      · obtain ⟨rfl, _⟩ := Prod.mk.inj (Option.some.inj hnow)
        exact Or.inr (Or.inr (Or.inl rfl))
      · exact absurd (Prod.mk.inj (Option.some.inj hnow)).2 (by simp)
      · refine Or.inr (Or.inr (Or.inr ⟨fun buf hnow => ?_, hlast⟩))
        exact hother none (by rw [(Prod.mk.inj (Option.some.inj hnow)).1])
  · exact h

theorem lastDelivered_append (sent : List (Wsi × List UInt8)) (text : List UInt8)
    (wsi other : Wsi) :
    (((sent ++ [(wsi, text)]).filter fun sent => sent.1 = other).getLast?).map Prod.snd =
      if other = wsi then some text
      else ((sent.filter fun sent => sent.1 = other).getLast?).map Prod.snd := by
  rw [List.filter_append]
  split_ifs with heq
  · simp [heq]
  · simp [Ne.symm heq]

theorem Kept.write (h : d.Kept) : (d.step .write).Kept := by
  simp only [Display.step]
  split
  · rename_i wsi buf hserving
    obtain ⟨text, htext, rfl⟩ := h.copied wsi buf hserving
    have hwritten := take_copyMessage htext.fits h.message.fits
    refine ⟨h.nodup, h.atMost, h.connected, h.requested, fun _ _ hnow => (by cases hnow),
      fun _ _ hnow => (by cases hnow), h.message, fun other hmem => ?_, fun sent hsent => ?_⟩
    · refine (upToDate_idle rfl).mpr ?_
      rw [lastDelivered, lastDelivered_append]
      have hstill := h.upToDate other hmem
      rw [UpToDate, hserving] at hstill
      rcases hstill with hrequested | hnow | hnow | ⟨hother, hlast⟩
      · exact Or.inl hrequested
      · exact absurd (Prod.mk.inj (Option.some.inj hnow)).2 (by simp)
      · -- the copy of the message as it still is: it is written whole
        obtain ⟨rfl, hcopy⟩ := Prod.mk.inj (Option.some.inj hnow)
        rw [if_pos rfl, Option.some.inj hcopy, Display.message,
          take_copyMessage h.message.fits h.message.fits, List.take_left]
        exact Or.inr rfl
      · rw [if_neg fun heq : other = wsi => hother _ (by rw [heq])]
        exact Or.inr hlast
    · rcases List.mem_append.mp hsent with hbefore | hlast
      · exact h.delivered sent hbefore
      · refine ⟨text, d.timer.messageBufferPlus, htext, h.message, ?_⟩
        rw [List.mem_singleton.mp hlast, ← hwritten]
        rfl
  · exact h

theorem Kept.step (h : d.Kept) (event : DisplayEvent Wsi) : (d.step event).Kept := by
  cases event with
  | tick input => exact h.tick input
  | established wsi => exact h.established wsi
  | writeable wsi => exact h.writeable wsi
  | copy => exact h.copy
  | write => exact h.write
  | closed wsi => exact h.closed wsi

/-- The service thread calls back each of the connections in turn. -/
def serviceRound (clients : List Wsi) : List (DisplayEvent Wsi) :=
  clients.flatMap fun wsi => [.writeable wsi, .copy, .write]

/-- One callback changes neither the message nor the clients, and it is due no more. -/
theorem serve_one (hidle : d.serving = none) (wsi : Wsi) :
    let d' := run Display.step d [.writeable wsi, .copy, .write]
    d'.serving = none ∧ d'.timer = d.timer ∧ d'.clientsPlus = d.clientsPlus ∧
      ∀ other, d'.requested other = true → other ≠ wsi ∧ d.requested other = true := by
  simp only [run_cons, run_nil, Display.step]
  by_cases hdue : d.requested wsi = true
  · simp only [hdue, hidle, and_self, if_true, update_false_iff, true_and]
    exact fun other hrequested => hrequested
  · simp only [hdue, Bool.false_eq_true, false_and, if_false, hidle, true_and]
    refine fun other hrequested => ⟨fun heq => hdue (heq ▸ hrequested), hrequested⟩

theorem serviceRound_spec (clients : List Wsi) (hidle : d.serving = none) :
    let d' := run Display.step d (serviceRound clients)
    d'.serving = none ∧ d'.timer = d.timer ∧ d'.clientsPlus = d.clientsPlus ∧
      ∀ wsi, d'.requested wsi = true → wsi ∉ clients ∧ d.requested wsi = true := by
  induction clients generalizing d with
  | nil => exact ⟨hidle, rfl, rfl, fun wsi hrequested => ⟨List.not_mem_nil, hrequested⟩⟩
  | cons wsi rest ih =>
      obtain ⟨hserving, htimer, hclients, hrequested⟩ := serve_one hidle wsi
      obtain ⟨hserving', htimer', hclients', hrequested'⟩ := ih hserving
      rw [serviceRound, List.flatMap_cons, run_append]
      refine ⟨hserving', htimer'.trans htimer, hclients'.trans hclients, fun other hdue => ?_⟩
      obtain ⟨hrest, hbefore⟩ := hrequested' other hdue
      obtain ⟨hne, hfirst⟩ := hrequested other hbefore
      exact ⟨fun hmem => (List.mem_cons.mp hmem).elim hne hrest, hfirst⟩

/-- In every interleaving of the timer thread with the service thread: at most ten
distinct open connections are registered, and only these are ever due a callback.
Whenever no callback runs, a registered client that is due none was last sent the
message as it is, and one round of callbacks sends it to all of them. What is
written is the text of one message, cut or filled with zeros to the length of
another one. -/
theorem clients_see_last_message (events : List (DisplayEvent Wsi)) :
    let d := run Display.step (boot : Display Wsi) events
    let message := utf8Bytes d.timer.messageBufferPlus.toList
    let d' := run Display.step d (serviceRound d.clientsPlus)
    d.clientsPlus.Nodup ∧ d.clientsPlus.length ≤ maxClients ∧
    (∀ wsi ∈ d.clientsPlus, d.connected wsi = true) ∧
    (∀ wsi, d.requested wsi = true → wsi ∈ d.clientsPlus) ∧
    (d.serving = none → ∀ wsi ∈ d.clientsPlus,
      (d.requested wsi = false → d.lastDelivered wsi = some message) ∧
        d'.lastDelivered wsi = some message) ∧
    ∀ sent ∈ d.delivered, ∃ first last, IsMessage first ∧ IsMessage last ∧
      sent.2 = (utf8Bytes first.toList ++ List.replicate messageSize 0).take
        (utf8Bytes last.toList).length := by
  intro d message d'
  have hkeep : ∀ (d : Display Wsi) (event : DisplayEvent Wsi), d.Kept → (d.step event).Kept :=
    fun _ event hd => hd.step event
  have h : d.Kept := run_invariant Display.step hkeep _ events Kept.boot
  have h' : d'.Kept := run_invariant Display.step hkeep d _ h
  have hlast : ∀ {d : Display Wsi}, d.Kept → d.serving = none → ∀ wsi ∈ d.clientsPlus,
      d.requested wsi = false →
        d.lastDelivered wsi = some (utf8Bytes d.timer.messageBufferPlus.toList) := by
    intro d hd hidle wsi hmem hdue
    refine ((upToDate_idle hidle).mp (hd.upToDate wsi hmem)).resolve_left fun hrequested => ?_
    rw [hdue] at hrequested
    exact Bool.false_ne_true hrequested
  refine ⟨h.nodup, h.atMost, h.connected, h.requested, fun hidle wsi hmem => ?_, h.delivered⟩
  obtain ⟨hserving, htimer, hclients, hdone⟩ := serviceRound_spec d.clientsPlus hidle
  refine ⟨hlast h hidle wsi hmem, ?_⟩
  have hmem' : wsi ∈ d'.clientsPlus := hclients ▸ hmem
  have hdue : d'.requested wsi = false :=
    Bool.eq_false_iff.mpr fun hrequested => (hdone wsi hrequested).1 hmem
  have hmessage := hlast h' hserving wsi hmem' hdue
  rw [show d'.timer = d.timer from htimer] at hmessage
  exact hmessage

end Display

end AdaptiveSignal.Pedestrian
