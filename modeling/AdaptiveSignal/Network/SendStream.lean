import AdaptiveSignal.Foundation.Run
import AdaptiveSignal.Network.ClientBuffer
import Mathlib.Data.List.TakeDrop

/-! # Sending to a TCP client

`com_send` pushes a copy of its bytes on the client's ring. For every writable
event a buffer is popped and written to the socket, which takes as many bytes of
each write as it likes. What the socket has taken is compared with what was
given to `com_send`.
-/

namespace AdaptiveSignal.Network

open Foundation

/-- What a `write` to the socket returns: −1, or the number of bytes taken when
it was offered at least so many. -/
inductive WriteResult
  | error
  | took (n : ℕ)

/-- `net_TCP_write`: the bytes that reach the socket, and the returned value,
`none` for −1. Where the results end the socket takes nothing more. -/
def netTcpWrite (tolen : ℕ) : List UInt8 → List WriteResult → List UInt8 × Option ℕ
  | [], _ => ([], some tolen)
  | _ :: _, [] => ([], some tolen)
  | _ :: _, .error :: _ => ([], none)
  | _ :: _, .took 0 :: _ => ([], some tolen)
  | byte :: rest, .took (n + 1) :: more =>
      let piece := (byte :: rest).take (n + 1)
      let (later, value) := netTcpWrite (tolen + piece.length) ((byte :: rest).drop (n + 1)) more
      (piece ++ later, value)

/-- How many bytes a socket takes until a write returns 0 or −1. -/
def takenInAll : List WriteResult → ℕ
  | .took (n + 1) :: more => n + 1 + takenInAll more
  | _ => 0

theorem netTcpWrite_bytes (tolen : ℕ) (rest : List UInt8) (results : List WriteResult) :
    (netTcpWrite tolen rest results).1 = rest.take (takenInAll results) := by
  induction results generalizing tolen rest with
  | nil => cases rest <;> simp [netTcpWrite, takenInAll]
  | cons result more ih =>
      cases rest with
      | nil => simp [netTcpWrite]
      | cons byte rest =>
          cases result with
          | error => simp [netTcpWrite, takenInAll]
          | took n =>
              cases n with
              | zero => simp [netTcpWrite, takenInAll]
              | succ n =>
                  simp only [netTcpWrite, takenInAll, ih]
                  exact List.take_add.symm

/-- A live TCP client: its ring, what `com_send` was given, and what the socket has taken. -/
structure SendState where
  ring : RingBuffer Buffer
  given : List (List UInt8)
  written : List UInt8

inductive SendAction
  /-- A round of the loop in `ae_prepare_for_sending`. -/
  | comSend (buf : List UInt8)
  /-- A writable event, and what the writes of its handler return. -/
  | writable (results : List WriteResult)

namespace SendState

/-- `tcp_send`: the buffer has left the ring before it is written. -/
def tcpSend (s : SendState) (results : List WriteResult) : SendState :=
  match s.ring.pop with
  | (none, _) => s
  | (some buffer, ring) =>
      { s with ring := ring, written := s.written ++ (netTcpWrite 0 buffer.bytes results).1 }

def step (s : SendState) : SendAction → SendState
  | .comSend buf =>
      match s.ring.push (.prepareForSending buf) with
      | (false, _) => s
      | (true, ring) => { s with ring := ring, given := s.given ++ [buf] }
  | .writable results => s.tcpSend results

/-- A client just accepted. -/
def initial : SendState where
  ring := clientRing
  given := []
  written := []

/-- The bytes still queued. -/
def queued (s : SendState) : List UInt8 :=
  s.ring.contents.flatMap Buffer.bytes

/-- Every byte given to `com_send` is written or still queued, in order. -/
def Conserved (s : SendState) : Prop :=
  s.written ++ s.queued = s.given.flatten

/-- A buffer fits its allocation; a buffer that is popped is written whole, which
the writes allow if they take enough before one of them returns 0 or −1. -/
def WritesThrough (s : SendState) : SendAction → Prop
  | .comSend buf => s.ring.isFull = true ∨ buf.length ≤ defaultBuffSize
  | .writable results => ∀ buffer ∈ s.ring.contents.head?, buffer.size ≤ takenInAll results

instance (s : SendState) : Decidable s.Conserved :=
  inferInstanceAs (Decidable (_ = _))

variable {s : SendState}

theorem Conserved.written_prefix (h : s.Conserved) : s.written <+: s.given.flatten :=
  h ▸ List.prefix_append _ _

theorem conserved_comSend (buf : List UInt8) (h : s.Conserved) :
    (s.step (.comSend buf)).Conserved ↔ s.WritesThrough (.comSend buf) := by
  cases hfull : s.ring.isFull with
  | true => exact iff_of_true (by simpa [step, RingBuffer.push, hfull] using h) (Or.inl hfull)
  | false =>
      obtain ⟨ring, hpush, hcontents⟩ :=
        RingBuffer.push_contents (x := Buffer.prepareForSending buf) hfull
      have hqueued : ring.contents.flatMap Buffer.bytes =
          s.queued ++ (Buffer.prepareForSending buf).bytes := by
        simp [queued, hcontents]
      have hconserved : (s.step (.comSend buf)).Conserved ↔
          (Buffer.prepareForSending buf).bytes = buf := by
        have hbefore : s.written ++ s.queued = s.given.flatten := h
        rw [Conserved, step, hpush]
        simp only [queued, List.flatten_append, List.flatten_singleton]
        rw [hqueued, ← List.append_assoc, hbefore, List.append_right_inj]
      rw [hconserved, WritesThrough, hfull]
      simp only [Bool.false_eq_true, false_or]
      exact Buffer.prepareForSending_bytes

theorem conserved_writable (results : List WriteResult) (h : s.Conserved) :
    (s.step (.writable results)).Conserved ↔ s.WritesThrough (.writable results) := by
  cases hempty : s.ring.isEmpty with
  | true =>
      refine iff_of_true (by simpa [step, tcpSend, RingBuffer.pop_empty hempty] using h) ?_
      simp [WritesThrough, RingBuffer.isEmpty_iff.mp hempty]
  | false =>
      obtain ⟨buffer, ring, hpop, hcontents⟩ := RingBuffer.pop_contents hempty
      have hwhole : s.written ++ buffer.bytes ++ ring.contents.flatMap Buffer.bytes =
          s.given.flatten := by
        rw [← h, queued, hcontents, List.flatMap_cons, List.append_assoc]
      simp only [step, tcpSend, hpop, Conserved, queued, netTcpWrite_bytes, WritesThrough,
        hcontents, List.head?_cons, ← hwhole]
      rw [List.append_left_inj, List.append_right_inj, List.take_eq_self_iff,
        Buffer.bytes_length]
      simp

theorem conserved_step (action : SendAction) (h : s.Conserved) :
    (s.step action).Conserved ↔ s.WritesThrough action := by
  cases action with
  | comSend buf => exact conserved_comSend buf h
  | writable results => exact conserved_writable results h

/-- Of every sequence of calls and events: what the socket has taken is at every
moment what was given, less what is still queued in order, exactly if no buffer
is too long and every buffer popped is taken whole before a write returns 0 or −1. -/
theorem conserved_iff (inputs : List SendAction) :
    (∀ first, first <+: inputs →
        (run step initial first).Conserved ∧
          (run step initial first).written <+: (run step initial first).given.flatten) ↔
      Guarded step WritesThrough initial inputs := by
  rw [guarded_iff_invariant (fun _ action h => conserved_step action h) inputs
    (rfl : initial.Conserved)]
  exact forall₂_congr fun first _ => ⟨And.left, fun h => ⟨h, h.written_prefix⟩⟩

/-- A write of one byte that is followed by −1 loses the rest of its buffer. -/
theorem partial_write_lost :
    let inputs : List SendAction := [.comSend [1, 2], .comSend [3],
      .writable [.took 1, .error], .writable [.took 1]]
    let s := run step initial inputs
    s.written = [1, 3] ∧ ¬ s.written <+: s.given.flatten ∧ ¬ s.Conserved := by
  decide

end SendState

end AdaptiveSignal.Network
