import AdaptiveSignal.Foundation.Run
import AdaptiveSignal.Network.ClientBuffer

/-! # Registering for writable events

A sender pushes its buffer on the client's ring and then registers the client
for writable events; the event loop calls the write handler of a registered
client, which pops and sends a buffer, deregisters the client when it finds the
ring empty, and over TCP deregisters it once more at its end. The ring's mutex
makes a push, a pop, and the test together with its deregistration exclude each
other; registering takes no mutex.
-/

namespace AdaptiveSignal.Network

open Foundation

inductive Transport
  | tcp
  | udp
  deriving DecidableEq

/-- Where a thread is in `com_send` for the client. -/
inductive SendPlace
  | outside
  /-- In the loop around `buff_ring_push`. -/
  | pushing (buffer : Buffer)
  /-- The buffer is on the ring, the event not yet registered. -/
  | registering

/-- Where the event loop is in the write handler of the client. -/
inductive WritePlace
  | outside
  | sending
  /-- Before the mutex is locked and the ring tested. -/
  | testing
  /-- With the mutex locked, after the ring was found empty. -/
  | clearing
  /-- Before the deregistration that depends on nothing. -/
  | deleting
  deriving DecidableEq

/-- A client that lives throughout. -/
structure WriteState (Thread : Type*) where
  ring : RingBuffer Buffer
  registered : Bool
  sender : Thread → SendPlace
  handler : WritePlace

inductive WriteAction (Thread : Type*)
  | comSend (t : Thread) (buf : List UInt8)
  | push (t : Thread)
  | register (t : Thread)
  /-- The socket is writable, and the event loop calls the handler. -/
  | writable
  | proceed

section Step

variable {Thread : Type*} [DecidableEq Thread]

def WriteState.moveTo (s : WriteState Thread) (t : Thread) (p : SendPlace) : WriteState Thread :=
  { s with sender := Function.update s.sender t p }

/-- What follows the test in the two handlers. -/
def afterTest : Transport → WritePlace
  | .tcp => .deleting
  | .udp => .outside

/-- The next operation of `conn_write_to_client_TCP` or `conn_write_to_client_UDP`. -/
def connWriteToClient (transport : Transport) (s : WriteState Thread) : WriteState Thread :=
  match s.handler with
  | .outside => s
  | .sending => { s with ring := s.ring.pop.2, handler := .testing }
  | .testing =>
      if s.ring.isEmpty then { s with handler := .clearing }
      else { s with handler := afterTest transport }
  | .clearing => { s with registered := false, handler := afterTest transport }
  | .deleting => { s with registered := false, handler := .outside }

def writeStep (transport : Transport) (s : WriteState Thread) :
    WriteAction Thread → WriteState Thread
  | .comSend t buf =>
      match s.sender t with
      | .outside => s.moveTo t (.pushing (.prepareForSending buf))
      | _ => s
  | .push t =>
      match s.sender t with
      | .pushing buffer =>
          -- The handler holds the mutex of the ring while it clears.
          if s.handler = .clearing ∨ s.ring.isFull then s
          else { s with ring := (s.ring.push buffer).2 }.moveTo t .registering
      | _ => s
  | .register t =>
      match s.sender t with
      | .registering => { s with registered := true }.moveTo t .outside
      | _ => s
  | .writable =>
      if s.handler = .outside ∧ s.registered then { s with handler := .sending } else s
  | .proceed => connWriteToClient transport s

/-- A client just accepted. -/
def WriteState.initial : WriteState Thread where
  ring := clientRing
  registered := false
  sender := fun _ => .outside
  handler := .outside

end Step

section Invariant

variable {Thread : Type*}

/-- Some sender has pushed and not yet registered. -/
def SomeRegistering (s : WriteState Thread) : Prop := ∃ t, s.sender t = .registering

/-- No queued buffer waits for a later `com_send`. -/
def NoStranded (s : WriteState Thread) : Prop :=
  s.ring.isEmpty = false → s.registered = true ∨ SomeRegistering s

/-- The ring stays empty while the handler clears the registration. -/
def Cleared (s : WriteState Thread) : Prop :=
  s.handler = .clearing → s.ring.isEmpty = true

/-- The deregistration at the end of the TCP handler finds the ring empty, or a
sender that will register. -/
def DeletesHarmlessly (s : WriteState Thread) : WriteAction Thread → Prop
  | .proceed => s.handler = .deleting → s.ring.isEmpty = true ∨ SomeRegistering s
  | _ => True

variable [DecidableEq Thread] {transport : Transport} {s s' : WriteState Thread}
  {action : WriteAction Thread}

/-- What one action can do. -/
inductive WriteMove (transport : Transport) (s : WriteState Thread) :
    WriteAction Thread → WriteState Thread → Prop
  | stays (action : WriteAction Thread) (hidle : action = .proceed → s.handler = .outside) :
      WriteMove transport s action s
  | comSend (t : Thread) (buf : List UInt8) (hplace : s.sender t = .outside) :
      WriteMove transport s (.comSend t buf) (s.moveTo t (.pushing (.prepareForSending buf)))
  | push (t : Thread) (buffer : Buffer) (hplace : s.sender t = .pushing buffer)
      (hfree : s.handler ≠ .clearing) :
      WriteMove transport s (.push t)
        ({ s with ring := (s.ring.push buffer).2 }.moveTo t .registering)
  | register (t : Thread) (hplace : s.sender t = .registering) :
      WriteMove transport s (.register t) ({ s with registered := true }.moveTo t .outside)
  | writable (hplace : s.handler = .outside) :
      WriteMove transport s .writable { s with handler := .sending }
  | sends (hplace : s.handler = .sending) :
      WriteMove transport s .proceed { s with ring := s.ring.pop.2, handler := .testing }
  | findsEmpty (hplace : s.handler = .testing) (hempty : s.ring.isEmpty = true) :
      WriteMove transport s .proceed { s with handler := .clearing }
  | findsMore (hplace : s.handler = .testing) :
      WriteMove transport s .proceed { s with handler := afterTest transport }
  | clears (hplace : s.handler = .clearing) :
      WriteMove transport s .proceed
        { s with registered := false, handler := afterTest transport }
  | deletes (hplace : s.handler = .deleting) :
      WriteMove transport s .proceed { s with registered := false, handler := .outside }

theorem SomeRegistering.moveTo (h : SomeRegistering s) {t : Thread} {p : SendPlace}
    (hout : s.sender t ≠ .registering) : SomeRegistering (s.moveTo t p) := by
  obtain ⟨t', ht'⟩ := h
  refine ⟨t', ?_⟩
  have hne : t' ≠ t := by
    rintro rfl
    exact hout ht'
  simpa [WriteState.moveTo, Function.update_of_ne hne] using ht'

/-- What a pop leaves was in the ring before. -/
theorem isEmpty_of_pop {ring : RingBuffer Buffer} (h : ring.pop.2.isEmpty = false) :
    ring.isEmpty = false := by
  cases hempty : ring.isEmpty with
  | false => rfl
  | true =>
      rw [RingBuffer.pop_empty hempty, hempty] at h
      cases h

theorem writeMove (transport : Transport) (s : WriteState Thread) (action : WriteAction Thread) :
    WriteMove transport s action (writeStep transport s action) := by
  cases action with
  | comSend t buf =>
      simp only [writeStep]
      cases hplace : s.sender t with
      | outside => exact .comSend t buf hplace
      | _ => exact .stays _ (fun hproceed => by cases hproceed)
  | push t =>
      simp only [writeStep]
      cases hplace : s.sender t with
      | pushing buffer =>
          dsimp only
          split_ifs with hwait
          · exact .stays _ (fun hproceed => by cases hproceed)
          · exact .push t buffer hplace (fun hclearing => hwait (Or.inl hclearing))
      | _ => exact .stays _ (fun hproceed => by cases hproceed)
  | register t =>
      simp only [writeStep]
      cases hplace : s.sender t with
      | registering => exact .register t hplace
      | _ => exact .stays _ (fun hproceed => by cases hproceed)
  | writable =>
      simp only [writeStep]
      split_ifs with hcalled
      · exact .writable hcalled.1
      · exact .stays _ (fun hproceed => by cases hproceed)
  | proceed =>
      simp only [writeStep, connWriteToClient]
      cases hplace : s.handler with
      | outside => exact .stays _ (fun _ => hplace)
      | sending => exact .sends hplace
      | testing =>
          dsimp only
          split_ifs with hempty
          · exact .findsEmpty hplace hempty
          · exact .findsMore hplace
      | clearing => exact .clears hplace
      | deleting => exact .deletes hplace

theorem afterTest_ne_clearing : afterTest transport ≠ .clearing := by
  cases transport <;> simp [afterTest]

theorem WriteMove.cleared (hmove : WriteMove transport s action s') (h : Cleared s) :
    Cleared s' := by
  intro hclearing
  cases hmove with
  | stays => exact h hclearing
  | comSend => exact h hclearing
  | push t buffer hplace hfree => exact absurd hclearing hfree
  | register => exact h hclearing
  | writable => cases hclearing
  | sends => cases hclearing
  | findsEmpty hplace hempty => exact hempty
  | findsMore => exact absurd hclearing afterTest_ne_clearing
  | clears => exact absurd hclearing afterTest_ne_clearing
  | deletes => cases hclearing

theorem WriteMove.noStranded (hmove : WriteMove transport s action s') (h : NoStranded s)
    (hcleared : Cleared s) : NoStranded s' ↔ DeletesHarmlessly s action := by
  cases hmove with
  | stays _ hidle =>
      refine iff_of_true h ?_
      cases action with
      | proceed => exact fun hdeleting => by simp [hidle rfl] at hdeleting
      | _ => trivial
  | comSend t buf hplace =>
      refine iff_of_true (fun hring => ?_) trivial
      exact (h hring).imp_right (·.moveTo (by simp [hplace]))
  | push t => exact iff_of_true (fun _ => Or.inr ⟨t, by simp [WriteState.moveTo]⟩) trivial
  | register => exact iff_of_true (fun _ => Or.inl rfl) trivial
  | writable => exact iff_of_true h trivial
  | sends hplace =>
      refine iff_of_true (fun hring => h (isEmpty_of_pop hring)) ?_
      simp [DeletesHarmlessly, hplace]
  | findsEmpty hplace => exact iff_of_true h (by simp [DeletesHarmlessly, hplace])
  | findsMore hplace => exact iff_of_true h (by simp [DeletesHarmlessly, hplace])
  | clears hplace =>
      refine iff_of_true (fun hring => ?_) (by simp [DeletesHarmlessly, hplace])
      rw [hcleared hplace] at hring
      cases hring
  | deletes hplace =>
      constructor
      · intro hafter _
        cases hring : s.ring.isEmpty with
        | true => exact Or.inl rfl
        | false => exact Or.inr ((hafter hring).resolve_left Bool.false_ne_true)
      · intro hok hring
        refine Or.inr ((hok hplace).resolve_left ?_)
        rw [hring]
        exact Bool.false_ne_true

/-- Over UDP no handler is about to deregister without a test. -/
theorem WriteMove.udp_handler (hmove : WriteMove .udp s action s') (h : s.handler ≠ .deleting) :
    s'.handler ≠ .deleting := by
  cases hmove with
  | findsMore => simp [afterTest]
  | clears => simp [afterTest]
  | writable => simp
  | sends => simp
  | findsEmpty => simp
  | deletes hplace => exact absurd hplace h
  | _ => exact h

variable (transport)

theorem noStranded_iff_guarded (inputs : List (WriteAction Thread)) :
    (∀ first, first <+: inputs →
        NoStranded (run (writeStep transport) WriteState.initial first)) ↔
      Guarded (writeStep transport) DeletesHarmlessly WriteState.initial inputs := by
  have hcleared : ∀ first, Cleared (run (writeStep transport)
      (WriteState.initial : WriteState Thread) first) := fun first =>
    run_invariant (writeStep transport)
      (fun s action h => (writeMove transport s action).cleared h) _ first
      (fun hclearing => by cases hclearing)
  refine Iff.symm (guarded_iff_prefixes ?_ ?_ inputs)
  · exact fun hring => by cases hring
  · intro first last h
    rw [run_concat]
    exact (writeMove transport _ last).noStranded h (hcleared first)

theorem udp_guarded (inputs : List (WriteAction Thread)) :
    Guarded (writeStep .udp) DeletesHarmlessly WriteState.initial inputs := by
  refine (guarded_iff_steps inputs).mpr fun first last _ => ?_
  have hplace : (run (writeStep .udp) (WriteState.initial : WriteState Thread) first).handler ≠
      .deleting :=
    run_invariant_of_mem (writeStep .udp) (fun s => s.handler ≠ .deleting) first
      (by simp [WriteState.initial]) fun s action _ h => (writeMove .udp s action).udp_handler h
  cases last with
  | proceed => exact fun hdeleting => absurd hdeleting hplace
  | _ => trivial

/-- Of any interleaving of senders and the event loop: no buffer is ever stranded
over UDP; over TCP exactly if the deregistration at the end of the handler always
finds the ring empty or a sender that has pushed and not yet registered. -/
theorem noStranded_iff (inputs : List (WriteAction Thread)) :
    (∀ first, first <+: inputs → NoStranded (run (writeStep .udp) WriteState.initial first)) ∧
      ((∀ first, first <+: inputs → NoStranded (run (writeStep .tcp) WriteState.initial first)) ↔
        Guarded (writeStep .tcp) DeletesHarmlessly WriteState.initial inputs) :=
  ⟨(noStranded_iff_guarded .udp inputs).mpr (udp_guarded inputs),
    noStranded_iff_guarded .tcp inputs⟩

/-- Two buffers queued for one writable event: the second stays behind, deregistered. -/
theorem tcp_strands_second_buffer :
    let send : List (WriteAction Unit) := [.comSend () [], .push (), .register ()]
    let inputs := send ++ send ++ [.writable, .proceed, .proceed, .proceed]
    let s := run (writeStep .tcp) WriteState.initial inputs
    s.ring.isEmpty = false ∧ s.registered = false ∧ s.handler = .outside ∧
      ¬ NoStranded s := by
  refine ⟨by decide, by decide, by decide, fun h => ?_⟩
  rcases h (by decide) with hregistered | ⟨t, ht⟩
  · exact absurd hregistered (by decide)
  · cases ht

end Invariant

end AdaptiveSignal.Network
