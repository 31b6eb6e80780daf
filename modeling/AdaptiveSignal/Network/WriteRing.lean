import AdaptiveSignal.Foundation.Run
import AdaptiveSignal.Network.ClientBuffer

/-! # The capacity of a write ring

The capacity of a ring is asked for with an `int`, and as many places are allocated. The
ring itself keeps its capacity and its two positions in bytes. A remainder by zero and a
position behind the places have no result.
-/

namespace AdaptiveSignal.Network

open Foundation

variable {Record : Type}

/-- `buffer_ring_t`; a place holds no buffer at first. -/
structure BufferRing (Record : Type) where
  record : List (Option Record)
  max : UInt8
  firstRecordPointer : UInt8
  lastRecordPointer : UInt8

/-- What threads do with a ring, one after the other. -/
inductive RingCall (Record : Type)
  | push (record : Record)
  | pop

inductive RingAnswer (Record : Type)
  | pushed (accepted : Bool)
  /-- `NULL`, or a buffer. -/
  | popped (record : Option Record)
  deriving DecidableEq

namespace BufferRing

/-- `alloc_buffer_ring`. -/
def alloc (max : ℕ) : BufferRing Record where
  record := List.replicate max none
  max := .ofNat max
  firstRecordPointer := 0
  lastRecordPointer := 0

/-- The position after another one, unless the capacity is zero. -/
def next (ring : BufferRing Record) (position : UInt8) : Option ℕ :=
  if ring.max = 0 then none else some ((position.toNat + 1) % ring.max.toNat)

def empty (ring : BufferRing Record) : Bool :=
  ring.firstRecordPointer = ring.lastRecordPointer

def full (ring : BufferRing Record) : Option Bool :=
  (ring.next ring.lastRecordPointer).map fun position =>
    position = ring.firstRecordPointer.toNat

/-- `buff_ring_push`. -/
def push (ring : BufferRing Record) (record : Record) : Option (Bool × BufferRing Record) := do
  if ← ring.full then return (false, ring)
  else if ring.lastRecordPointer.toNat < ring.record.length then
    let position ← ring.next ring.lastRecordPointer
    return (true, { ring with
      record := ring.record.set ring.lastRecordPointer.toNat record
      lastRecordPointer := .ofNat position })
  else none

/-- `buff_ring_pop`. -/
def pop (ring : BufferRing Record) : Option (Option Record × BufferRing Record) := do
  if ring.empty then return (none, ring)
  else
    let record ← ring.record[ring.firstRecordPointer.toNat]?
    let position ← ring.next ring.firstRecordPointer
    return (record, { ring with firstRecordPointer := .ofNat position })

def step (ring : BufferRing Record) :
    RingCall Record → Option (RingAnswer Record × BufferRing Record)
  | .push record => ring.push record |>.map fun (accepted, ring) => (.pushed accepted, ring)
  | .pop => ring.pop |>.map fun (record, ring) => (.popped record, ring)

/-- What the calls return one after the other. -/
def answers : BufferRing Record → List (RingCall Record) → Option (List (RingAnswer Record))
  | _, [] => some []
  | ring, call :: calls => do
      let (answer, ring) ← ring.step call
      return answer :: (← answers ring calls)

end BufferRing

/-! ## What a ring is for -/

/-- A queue that takes so many buffers at most. -/
def fifoStep (capacity : ℕ) (queue : List Record) : RingCall Record → List Record
  | .push record => if queue.length = capacity then queue else queue ++ [record]
  | .pop => queue.tail

def fifoAnswer (capacity : ℕ) (queue : List Record) : RingCall Record → RingAnswer Record
  | .push _ => .pushed (queue.length ≠ capacity)
  | .pop => .popped queue.head?

def fifoAnswers (capacity : ℕ) : List Record → List (RingCall Record) → List (RingAnswer Record)
  | _, [] => []
  | queue, call :: calls =>
      fifoAnswer capacity queue call :: fifoAnswers capacity (fifoStep capacity queue call) calls

/-- A push finds room in a ring whose capacity was cut to a byte. -/
def FindsRoom (max : ℕ) (queue : List Record) : RingCall Record → Prop
  | .push _ => queue.length < max % 256 - 1
  | .pop => True

/-! ## A ring with places -/

/-- The ring as one with positions below its capacity. -/
structure BufferRing.Refines (ring : BufferRing Record) (r : RingBuffer (Option Record)) :
    Prop where
  max : ring.max.toNat = r.max
  first : ring.firstRecordPointer.toNat = r.first
  last : ring.lastRecordPointer.toNat = r.last
  record : ∀ i < r.max, ring.record[i]? = some (r.record i)

namespace BufferRing.Refines

variable {ring : BufferRing Record} {r : RingBuffer (Option Record)}

theorem next_eq (h : ring.Refines r) (position : UInt8) :
    ring.next position = some ((position.toNat + 1) % r.max) := by
  have hmax : ring.max ≠ 0 := by
    intro hzero
    have hpos := r.first_lt
    rw [← h.max, hzero] at hpos
    exact Nat.not_lt_zero _ hpos
  rw [next, if_neg hmax, h.max]

theorem full_eq (h : ring.Refines r) : ring.full = some r.isFull := by
  rw [full, h.next_eq, Option.map_some, h.last, h.first]
  rfl

theorem empty_eq (h : ring.Refines r) : ring.empty = r.isEmpty := by
  rw [empty, RingBuffer.isEmpty, ← h.first, ← h.last]
  exact decide_eq_decide.mpr UInt8.toNat_inj.symm

/-- A position of the ring is kept in a byte as it is. -/
theorem toNat_position (h : ring.Refines r) (position : ℕ) :
    (UInt8.ofNat ((position + 1) % r.max)).toNat = (position + 1) % r.max := by
  have hlt := r.next_lt position
  have hbyte := ring.max.toNat_lt
  rw [h.max] at hbyte
  exact UInt8.toNat_ofNat_of_lt' (Nat.lt_trans hlt hbyte)

theorem push (h : ring.Refines r) (record : Record) :
    ∃ ring', ring.push record = some ((r.push (some record)).1, ring') ∧
      ring'.Refines (r.push (some record)).2 := by
  have hlast : r.last < ring.record.length := by
    have hrecord := h.record r.last r.last_lt
    exact (List.getElem?_eq_some_iff.mp hrecord).1
  rw [BufferRing.push, h.full_eq, h.next_eq, h.last, if_pos hlast]
  cases hfull : r.isFull with
  | true =>
      rw [RingBuffer.push, if_pos hfull]
      exact ⟨ring, rfl, h⟩
  | false =>
      rw [RingBuffer.push, if_neg (by simp [hfull])]
      refine ⟨_, rfl, h.max, h.first, h.toNat_position r.last, fun i hi => ?_⟩
      change (ring.record.set r.last (some record))[i]? =
        some (Function.update r.record r.last (some record) i)
      by_cases heq : r.last = i
      · subst heq
        rw [List.getElem?_set_self hlast, Function.update_self]
      · rw [List.getElem?_set_ne heq, Function.update_of_ne (Ne.symm heq), h.record i hi]

theorem pop (h : ring.Refines r) :
    ∃ ring', ring.pop = some (r.pop.1.join, ring') ∧ ring'.Refines r.pop.2 := by
  rw [BufferRing.pop, h.empty_eq, h.next_eq, h.first, h.record r.first r.first_lt]
  cases hempty : r.isEmpty with
  | true =>
      rw [RingBuffer.pop_empty hempty]
      exact ⟨ring, rfl, h⟩
  | false =>
      have hpop : r.pop = (some (r.record r.first), r.pop.2) := by
        rw [RingBuffer.pop, hempty]
        rfl
      rw [hpop]
      refine ⟨_, rfl, ?_⟩
      rw [RingBuffer.pop, hempty]
      exact ⟨h.max, h.toNat_position r.first, h.last, h.record⟩

/-- With room for one record less than its places, the ring is a queue. -/
theorem step (h : ring.Refines r) {queue : List Record} (hqueue : r.contents = queue.map some)
    (call : RingCall Record) :
    ∃ ring' r', ring.step call = some (fifoAnswer (r.max - 1) queue call, ring') ∧
      ring'.Refines r' ∧ r'.max = r.max ∧
        r'.contents = (fifoStep (r.max - 1) queue call).map some := by
  have hpos := r.first_lt
  have hlength := congrArg List.length hqueue
  rw [List.length_map] at hlength
  cases call with
  | push record =>
      obtain ⟨ring', hpush, hrefines⟩ := h.push record
      rw [BufferRing.step, hpush, Option.map_some, fifoAnswer, fifoStep]
      cases hfull : r.isFull with
      | true =>
          have hcapacity : queue.length = r.max - 1 := by
            have := RingBuffer.isFull_iff.mp hfull
            omega
          refine ⟨ring', (r.push (some record)).2, ?_, hrefines, ?_, ?_⟩
          · simp [RingBuffer.push, hfull, hcapacity]
          · simp [RingBuffer.push, hfull]
          · rw [if_pos hcapacity, ← hqueue]
            simp [RingBuffer.push, hfull]
      | false =>
          have hcapacity : queue.length ≠ r.max - 1 := by
            intro heq
            rw [RingBuffer.isFull_iff.mpr (by omega)] at hfull
            cases hfull
          obtain ⟨r', hpush', hcontents⟩ := RingBuffer.push_contents (x := some record) hfull
          have hmax : (r.push (some record)).2.max = r.max := by simp [RingBuffer.push, hfull]
          rw [hpush'] at hrefines hmax ⊢
          refine ⟨ring', r', ?_, hrefines, hmax, ?_⟩
          · simp [hcapacity]
          · rw [if_neg hcapacity, hcontents, hqueue, List.map_append, List.map_singleton]
  | pop =>
      obtain ⟨ring', hpop, hrefines⟩ := h.pop
      rw [BufferRing.step, hpop, Option.map_some, fifoAnswer, fifoStep]
      cases hempty : r.isEmpty with
      | true =>
          have hnil : queue = [] := by
            rw [RingBuffer.isEmpty_iff.mp hempty] at hqueue
            exact List.map_eq_nil_iff.mp hqueue.symm
          rw [RingBuffer.pop_empty hempty] at hrefines ⊢
          subst hnil
          exact ⟨ring', r, rfl, hrefines, rfl, hqueue⟩
      | false =>
          obtain ⟨record, r', hpop', hcontents⟩ := RingBuffer.pop_contents hempty
          have hmax : r.pop.2.max = r.max := by simp [RingBuffer.pop, hempty]
          rw [hpop'] at hrefines hmax ⊢
          rw [hcontents] at hqueue
          cases queue with
          | nil => cases hqueue
          | cons first rest =>
              obtain ⟨hrecord, hrest⟩ := List.cons.inj hqueue
              refine ⟨ring', r', ?_, hrefines, hmax, hrest⟩
              rw [hrecord]
              rfl

/-- Over a sequence of calls. -/
theorem answers_eq (h : ring.Refines r) {queue : List Record}
    (hqueue : r.contents = queue.map some) (calls : List (RingCall Record)) :
    ring.answers calls = some (fifoAnswers (r.max - 1) queue calls) := by
  induction calls generalizing ring r queue with
  | nil => rfl
  | cons call calls ih =>
      obtain ⟨ring', r', hstep, hrefines, hmax, hcontents⟩ := h.step hqueue call
      have hrest := ih hrefines hcontents
      rw [hmax] at hrest
      rw [BufferRing.answers, hstep, fifoAnswers]
      simp [hrest]

end BufferRing.Refines

/-! ## The capacity -/

theorem exists_alloc_refines {max : ℕ} (hpos : 0 < max % 256) :
    ∃ r : RingBuffer (Option Record), (BufferRing.alloc max).Refines r ∧ r.max = max % 256 ∧
      r.contents = [] := by
  refine ⟨⟨max % 256, 0, 0, fun _ => none, hpos, hpos⟩, ⟨?_, rfl, rfl, fun i hi => ?_⟩, rfl, rfl⟩
  · exact UInt8.toNat_ofNat
  · have hle : max % 256 ≤ max := Nat.mod_le max 256
    exact List.getElem?_replicate_of_lt (Nat.lt_of_lt_of_le hi hle)

/-- A smaller queue does what a larger one does as long as a push finds room in it. -/
theorem fifoAnswers_eq_iff {max large : ℕ} (hlt : max % 256 - 1 < large) {queue : List Record}
    (hqueue : queue.length ≤ max % 256 - 1) (calls : List (RingCall Record)) :
    fifoAnswers (max % 256 - 1) queue calls = fifoAnswers large queue calls ↔
      Guarded (fifoStep large) (FindsRoom max) queue calls := by
  induction calls generalizing queue with
  | nil => exact iff_of_true rfl trivial
  | cons call calls ih =>
      rw [fifoAnswers, fifoAnswers, Guarded, List.cons.injEq]
      cases call with
      | push record =>
          have hlarge : queue.length ≠ large := by omega
          rcases Nat.eq_or_lt_of_le hqueue with heq | hroom
          · refine iff_of_false (fun h => ?_) fun h => ?_
            · simp [fifoAnswer, heq] at h
              omega
            · exact absurd h.1 (by rw [FindsRoom]; omega)
          · have hsame : fifoStep (max % 256 - 1) queue (.push record) =
                fifoStep large queue (.push record) := by
              rw [fifoStep, fifoStep, if_neg hroom.ne, if_neg hlarge]
            have hnext : (fifoStep large queue (.push record)).length ≤ max % 256 - 1 := by
              rw [fifoStep, if_neg hlarge, List.length_append, List.length_singleton]
              omega
            rw [hsame, ih hnext]
            refine and_congr ?_ Iff.rfl
            simp [fifoAnswer, FindsRoom, hroom.ne, hlarge, hroom]
      | pop =>
          have hnext : (fifoStep large queue .pop).length ≤ max % 256 - 1 := by
            rw [fifoStep, List.length_tail]
            omega
          refine and_congr ?_ (ih hnext)
          simp [fifoAnswer, FindsRoom]

/-- A ring without a capacity has no result for a push. -/
theorem answers_eq_iff_of_zero {ring : BufferRing Record} (hmax : ring.max = 0)
    (hempty : ring.empty = true) {max : ℕ} (hzero : max % 256 = 0) (capacity : ℕ)
    (calls : List (RingCall Record)) :
    ring.answers calls = some (fifoAnswers capacity [] calls) ↔
      Guarded (fifoStep capacity) (FindsRoom max) [] calls := by
  induction calls with
  | nil => exact iff_of_true rfl trivial
  | cons call calls ih =>
      rw [BufferRing.answers, Guarded]
      cases call with
      | push record =>
          refine iff_of_false ?_ fun h => ?_
          · simp [BufferRing.step, BufferRing.push, BufferRing.full, BufferRing.next, hmax]
          · exact absurd h.1 (by rw [FindsRoom, hzero]; omega)
      | pop =>
          have hstep : ring.step .pop = some (.popped none, ring) := by
            simp [BufferRing.step, BufferRing.pop, hempty]
          rw [hstep]
          change ((ring.answers calls).bind fun rest => some (.popped none :: rest)) =
            some (.popped none :: fifoAnswers capacity [] calls) ↔ True ∧ _
          rw [true_and, show fifoStep capacity ([] : List Record) .pop = [] from rfl, ← ih]
          cases ring.answers calls with
          | none => simp
          | some rest => simp

/-- A ring is the queue of the capacity that was asked for exactly if that fits a byte, or no
push comes when the ring that was made has no room. -/
theorem writeRing_fifo_iff {max : ℕ} (hmax : 2 ≤ max) (calls : List (RingCall Record)) :
    (BufferRing.alloc max).answers calls = some (fifoAnswers (max - 1) [] calls) ↔
      max < 256 ∨ Guarded (fifoStep (max - 1)) (FindsRoom max) [] calls := by
  by_cases hzero : max % 256 = 0
  · have hring : (BufferRing.alloc max : BufferRing Record).max = 0 := by
      apply UInt8.toNat_inj.mp
      exact UInt8.toNat_ofNat.trans hzero
    rw [answers_eq_iff_of_zero hring rfl hzero]
    exact ⟨Or.inr, fun h => h.resolve_left (by omega)⟩
  · obtain ⟨r, hrefines, hcapacity, hcontents⟩ :=
      @exists_alloc_refines Record max (Nat.pos_of_ne_zero hzero)
    rw [@BufferRing.Refines.answers_eq _ _ _ hrefines [] hcontents calls, hcapacity,
      Option.some_inj]
    by_cases hfits : max < 256
    · rw [Nat.mod_eq_of_lt hfits]
      exact iff_of_true rfl (Or.inl hfits)
    · rw [fifoAnswers_eq_iff (by omega) (Nat.zero_le _)]
      exact ⟨Or.inr, fun h => h.resolve_left hfits⟩

/-- Some calls on a ring of three places. -/
theorem writeRing_fifo_iff_three :
    (BufferRing.alloc 3).answers [.push 7, .push 8, .push 9, .pop] =
        some (fifoAnswers 2 [] [.push 7, .push 8, .push 9, .pop]) ↔
      3 < 256 ∨
        Guarded (fifoStep 2) (FindsRoom 3) [] [.push 7, .push 8, .push 9, .pop] :=
  writeRing_fifo_iff (by decide) [.push 7, .push 8, .push 9, .pop]

/-- The ring of a client has 160 places, not 4000: the push that finds 159 buffers in it is
refused. -/
theorem client_ring_refuses :
    (BufferRing.alloc clientRingMax).answers (List.replicate 160 (.push ())) ≠
      some (fifoAnswers (clientRingMax - 1) [] (List.replicate 160 (.push ()))) := by
  decide +kernel

end AdaptiveSignal.Network
