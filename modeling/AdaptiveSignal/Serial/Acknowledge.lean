import AdaptiveSignal.Foundation.Run
import AdaptiveSignal.Serial.Receive

/-! # Waiting for acknowledgements

Several threads send commands: each takes a sequence number, writes its command
and compares that number with `ack_seq` until they agree or a time-out has
passed. The receive thread stores the number of every ACK in `ack_seq`, whoever
waits for it. A thread that waits records the frames received since its command
was written.
-/

namespace AdaptiveSignal.Serial

open Foundation

/-- Where a sending thread is. -/
inductive SenderPlace
  | outside
  /-- `get_seq_num` has returned. -/
  | numbered (seq : UInt8)
  /-- The command is written, and `WAIT_ACK_LOOP` not left; the frames received since. -/
  | waiting (seq : UInt8) (heard : List Frame)

structure AckState (Thread : Type*) where
  seqNum : UInt8
  ackSeq : Int16
  place : Thread → SenderPlace

inductive AckAction (Thread : Type*)
  | getSeqNum (t : Thread)
  /-- `TC_packet_tx` writes the command. -/
  | write (t : Thread)
  /-- The condition of `WAIT_ACK_LOOP` is tested. -/
  | test (t : Thread)
  /-- The time-out has passed, or the caller does not wait at all. -/
  | giveUp (t : Thread)
  | receive (f : Frame)

/-- The value of `ack_seq` after what is seen of the receive thread. -/
def ackSeqAfter (seq : Int16) : List Reception → Int16
  | [] => seq
  | .ackSeq stored :: rest => ackSeqAfter stored rest
  | _ :: rest => ackSeqAfter seq rest

namespace SenderPlace

/-- `temp_ack_seq`, compared as an `int` with `ack_seq`. -/
def matched (ackSeq : Int16) : SenderPlace → Bool
  | .waiting seq _ => Int16.ofNat seq.toNat = ackSeq
  | _ => false

@[simp] theorem matched_waiting {seq : UInt8} {heard : List Frame} {ackSeq : Int16} :
    (waiting seq heard).matched ackSeq = true ↔ Int16.ofNat seq.toNat = ackSeq := by
  simp [matched]

def hears (f : Frame) : SenderPlace → SenderPlace
  | .waiting seq heard => .waiting seq (heard ++ [f])
  | place => place

end SenderPlace

section Step

variable {Thread : Type*} [DecidableEq Thread]

def AckState.moveTo (s : AckState Thread) (t : Thread) (p : SenderPlace) : AckState Thread :=
  { s with place := Function.update s.place t p }

def ackStep (s : AckState Thread) : AckAction Thread → AckState Thread
  | .getSeqNum t =>
      match s.place t with
      | .outside => { s with seqNum := s.seqNum + 1 }.moveTo t (.numbered s.seqNum)
      | _ => s
  | .write t =>
      match s.place t with
      | .numbered seq => s.moveTo t (.waiting seq [])
      | _ => s
  | .test t => if (s.place t).matched s.ackSeq then s.moveTo t .outside else s
  | .giveUp t =>
      match s.place t with
      | .waiting _ _ => s.moveTo t .outside
      | _ => s
  | .receive f =>
      { s with
        ackSeq := ackSeqAfter s.ackSeq f.outcome
        place := fun t => (s.place t).hears f }

/-- The program starts with both numbers 0 and no command under way. -/
def AckState.initial : AckState Thread where
  seqNum := 0
  ackSeq := 0
  place := fun _ => .outside

end Step

/-! ## What a match says -/

/-- An intact ACK that carries the number. -/
def Frame.Acknowledges (f : Frame) (seq : UInt8) : Prop :=
  f.kind = .ack ∧ f.Intact ∧ f.seq = seq

instance (f : Frame) (seq : UInt8) : Decidable (f.Acknowledges seq) :=
  inferInstanceAs (Decidable (_ ∧ _ ∧ _))

/-- The thread has received an ACK for its command since it wrote it. -/
def SenderPlace.Acknowledged : SenderPlace → Prop
  | .waiting seq heard => ∃ f ∈ heard, f.Acknowledges seq
  | _ => True

/-- Every loop that is left at its next test has had an ACK for its command. -/
def Justified {Thread : Type*} (s : AckState Thread) : Prop :=
  ∀ t, (s.place t).matched s.ackSeq = true → (s.place t).Acknowledged

/-- A command is written while `ack_seq` differs from its number. -/
def WritesUnmatched {Thread : Type*} (s : AckState Thread) : AckAction Thread → Prop
  | .write t => ∀ seq, s.place t = .numbered seq → Int16.ofNat seq.toNat ≠ s.ackSeq
  | _ => True

theorem ofNat_seq_inj {seq seq' : UInt8}
    (h : Int16.ofNat seq.toNat = Int16.ofNat seq'.toNat) : seq = seq' := by
  have hseq := seq.toNat_lt
  have hseq' := seq'.toNat_lt
  have hint := congrArg Int16.toInt h
  rw [Int16.toInt_ofNat_of_lt (by omega), Int16.toInt_ofNat_of_lt (by omega)] at hint
  exact UInt8.toNat_inj.mp (Int.ofNat_inj.mp hint)

/-- No sequence number agrees with what a corrupted ACK stores. -/
theorem ofNat_seq_ne (seq : UInt8) : Int16.ofNat seq.toNat ≠ -1 := by
  intro h
  have hseq := seq.toNat_lt
  have hint := congrArg Int16.toInt h
  rw [Int16.toInt_ofNat_of_lt (by omega)] at hint
  simp at hint

/-- A frame leaves `ack_seq` alone, or it is an ACK: the number of an intact one is stored. -/
theorem ackSeqAfter_outcome (seq : Int16) (f : Frame) :
    ackSeqAfter seq f.outcome =
      if f.kind = .ack then (if f.Intact then Int16.ofNat f.seq.toNat else -1) else seq := by
  unfold Frame.outcome
  cases hkind : f.kind <;> split_ifs <;> simp_all [ackSeqAfter]

theorem matched_hears (f : Frame) (ackSeq : Int16) (p : SenderPlace) :
    (p.hears f).matched ackSeq = p.matched ackSeq := by
  cases p <;> rfl

theorem Acknowledged_hears {f : Frame} {p : SenderPlace} (h : p.Acknowledged) :
    (p.hears f).Acknowledged := by
  cases p with
  | waiting seq heard =>
      obtain ⟨f', hmem, hack⟩ := h
      exact ⟨f', List.mem_append_left _ hmem, hack⟩
  | _ => trivial

/-- A frame that makes a waiting thread match is the ACK it waits for. -/
theorem acknowledged_of_matched {f : Frame} {p : SenderPlace} {seq : Int16}
    (hbefore : p.matched seq = true → p.Acknowledged)
    (hmatched : (p.hears f).matched (ackSeqAfter seq f.outcome) = true) :
    (p.hears f).Acknowledged := by
  rw [matched_hears, ackSeqAfter_outcome] at hmatched
  cases p with
  | outside => trivial
  | numbered => trivial
  | waiting s heard =>
      split_ifs at hmatched with hack hintact
      · have hseq : Int16.ofNat s.toNat = Int16.ofNat f.seq.toNat := by
          simpa [SenderPlace.matched] using hmatched
        exact ⟨f, by simp, hack, hintact, (ofNat_seq_inj hseq).symm⟩
      · exact absurd (by simpa [SenderPlace.matched] using hmatched) (ofNat_seq_ne s)
      · exact Acknowledged_hears (hbefore hmatched)

section Runs

variable {Thread : Type*} [DecidableEq Thread] {s : AckState Thread}

/-- Moving one thread to a place where nothing is left to justify. -/
theorem Justified.moveTo (h : Justified s) {s' : AckState Thread} {t : Thread} {p : SenderPlace}
    (hack : s'.ackSeq = s.ackSeq) (hplace : s'.place = Function.update s.place t p)
    (hp : p.matched s.ackSeq = true → p.Acknowledged) : Justified s' := by
  intro t' hmatched
  rw [hack, hplace] at hmatched
  rw [hplace]
  rcases eq_or_ne t' t with rfl | hne
  · rw [Function.update_self] at hmatched ⊢
    exact hp hmatched
  · rw [Function.update_of_ne hne] at hmatched ⊢
    exact h t' hmatched

theorem justified_step (action : AckAction Thread) (h : Justified s) :
    Justified (ackStep s action) ↔ WritesUnmatched s action := by
  cases action with
  | getSeqNum t =>
      refine iff_of_true ?_ trivial
      simp only [ackStep]
      cases hplace : s.place t with
      | outside => exact h.moveTo (p := .numbered s.seqNum) rfl rfl fun _ => trivial
      | _ => exact h
  | write t =>
      simp only [ackStep, WritesUnmatched]
      cases hplace : s.place t with
      | numbered seq =>
          constructor
          · intro hafter seq' hseq' hmatched
            cases hseq'
            have hack := hafter t (by simpa [AckState.moveTo] using hmatched)
            simp [AckState.moveTo, SenderPlace.Acknowledged] at hack
          · intro hne
            refine h.moveTo (p := .waiting seq []) rfl rfl fun hmatched => ?_
            exact absurd (SenderPlace.matched_waiting.mp hmatched) (hne seq rfl)
      | outside => exact iff_of_true h (by simp)
      | waiting seq heard => exact iff_of_true h (by simp)
  | test t =>
      refine iff_of_true ?_ trivial
      simp only [ackStep]
      split_ifs
      · exact h.moveTo (p := .outside) rfl rfl fun _ => trivial
      · exact h
  | giveUp t =>
      refine iff_of_true ?_ trivial
      simp only [ackStep]
      cases hplace : s.place t with
      | waiting seq heard => exact h.moveTo (p := .outside) rfl rfl fun _ => trivial
      | _ => exact h
  | receive f =>
      exact iff_of_true (fun t hmatched => acknowledged_of_matched (h t) hmatched) trivial

/-- Of any interleaving of senders and received frames: at every moment each loop
that is left before its time-out has had an ACK for its command since the command
was written, exactly if every command is written while `ack_seq` differs from its
number. -/
theorem loops_justified_iff (inputs : List (AckAction Thread)) :
    (∀ first, first <+: inputs → Justified (run ackStep AckState.initial first)) ↔
      Guarded ackStep WritesUnmatched AckState.initial inputs :=
  (guarded_iff_invariant (fun _ action h => justified_step action h) inputs
    fun _ hmatched => by simp [AckState.initial, SenderPlace.matched] at hmatched).symm

/-- The first command of the program is left at once, with no frame received. -/
theorem first_command_unacknowledged :
    let inputs : List (AckAction Unit) := [.getSeqNum (), .write ()]
    let s := run ackStep AckState.initial inputs
    s.place () = .waiting 0 [] ∧ (s.place ()).matched s.ackSeq = true ∧
      (ackStep s (.test ())).place () = .outside ∧ ¬ Justified s := by
  refine ⟨rfl, by decide, rfl, fun h => ?_⟩
  obtain ⟨f, hmem, -⟩ := h () (by decide)
  cases hmem

end Runs

end AdaptiveSignal.Serial
