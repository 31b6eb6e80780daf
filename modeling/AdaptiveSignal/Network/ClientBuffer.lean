import AdaptiveSignal.Foundation.RingBuffer

/-! # Buffers of a client

What is to be sent to a client is copied into a buffer of fixed size and pushed
on the client's ring. The ring keeps its positions and its length in bytes. What
is received from a client is read into another buffer, which is copied into a
message for the dispatcher.
-/

namespace AdaptiveSignal.Network

open Foundation

def defaultBuffSize : ℕ := 25600

def clientRingMax : ℕ := 4000

/-- An allocated buffer, and how many of its bytes are used. -/
structure Buffer where
  buff : ℕ → UInt8
  size : ℕ

namespace Buffer

/-- The bytes in use. -/
def bytes (b : Buffer) : List UInt8 :=
  (List.range b.size).map b.buff

/-- The size is capped; the bytes stay. -/
def increaseBufferSize (b : Buffer) (dataN : ℕ) : Buffer :=
  { b with size := if defaultBuffSize < dataN then defaultBuffSize else dataN }

/-- `ae_prepare_for_sending` before the push: the bytes are copied over zeros. -/
def prepareForSending (buf : List UInt8) : Buffer :=
  increaseBufferSize { buff := fun i => buf.getD i 0, size := 0 } buf.length

theorem prepareForSending_size (buf : List UInt8) :
    (prepareForSending buf).size = min buf.length defaultBuffSize := by
  simp only [prepareForSending, increaseBufferSize]
  split <;> omega

theorem bytes_length (b : Buffer) : b.bytes.length = b.size := by
  simp [bytes]

/-- A buffer holds what it was given, unless that is too long. -/
theorem prepareForSending_bytes {buf : List UInt8} :
    (prepareForSending buf).bytes = buf ↔ buf.length ≤ defaultBuffSize := by
  constructor
  · intro h
    have hlength := congrArg List.length h
    rw [bytes_length, prepareForSending_size] at hlength
    omega
  · intro h
    apply List.ext_getElem
    · simp [bytes, prepareForSending_size, h]
    · intro i hi hi'
      simp [bytes, prepareForSending, increaseBufferSize, hi']

end Buffer

/-- `alloc_buffer_ring`: the length is stored in eight bits. -/
def allocBufferRing (max : ℕ) (h : 0 < max % 256) : RingBuffer Buffer where
  max := max % 256
  first := 0
  last := 0
  record := fun _ => ⟨fun _ => 0, 0⟩
  first_lt := h
  last_lt := h

/-- The ring of a new client. -/
def clientRing : RingBuffer Buffer := allocBufferRing clientRingMax (by decide)

example : clientRing.max = 160 := rfl

/-! ## Messages for the dispatcher -/

def fromCloud : UInt8 := 1

def fromDsrc : UInt8 := 2

def fromSmartAvi : UInt8 := 3

def fromPedestrian : UInt8 := 4

structure MsgObj where
  msg : ℕ → UInt8
  msgLen : ℕ
  deviceId : UInt8
  handleId : UInt8

/-- The whole buffer is copied, used or not. -/
def msgObjCreate (buf : Buffer) (deviceId handleId : UInt8) : MsgObj where
  msg := buf.buff
  msgLen := buf.size
  deviceId := deviceId
  handleId := handleId

/-- The bytes of a message that its length covers. -/
def MsgObj.bytes (m : MsgObj) : List UInt8 := (List.range m.msgLen).map m.msg

end AdaptiveSignal.Network
