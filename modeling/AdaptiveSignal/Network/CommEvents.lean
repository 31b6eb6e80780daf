import AdaptiveSignal.Foundation.Run
import Mathlib.Data.Int.Basic
import Mathlib.Logic.Function.Basic

/-! # The descriptors that the event loop watches

The loop keeps a table with an entry for each descriptor, and tells the kernel
what to watch. A descriptor that is closed leaves the kernel's set by itself, but
its entry stays.
-/

namespace AdaptiveSignal.Network

/-- `AE_READABLE` and `AE_WRITABLE`. -/
structure EventMask where
  readable : Bool
  writable : Bool
  deriving DecidableEq

namespace EventMask

/-- `AE_NONE`. -/
def none : EventMask := ⟨false, false⟩

def readableOnly : EventMask := ⟨true, false⟩

def writableOnly : EventMask := ⟨false, true⟩

def union (a b : EventMask) : EventMask := ⟨a.readable || b.readable, a.writable || b.writable⟩

def inter (a b : EventMask) : EventMask := ⟨a.readable && b.readable, a.writable && b.writable⟩

def diff (a b : EventMask) : EventMask := ⟨a.readable && !b.readable, a.writable && !b.writable⟩

end EventMask

/-! ## The kernel -/

inductive EpollOp
  | add
  | mod
  | del

/-- The open descriptors, and what the epoll instance watches of each. -/
structure Kernel where
  isOpen : ℕ → Bool
  interest : ℕ → Option EventMask

namespace Kernel

/-- `epoll_ctl`, which returns whether it succeeds; `full` tells that no further
descriptor can be watched. -/
def epollCtl (k : Kernel) (full : Bool) (op : EpollOp) (fd : ℕ) (wanted : EventMask) :
    Bool × Kernel :=
  if k.isOpen fd then
    match op, k.interest fd with
    | .add, .none =>
        if full then (false, k)
        else (true, { k with interest := Function.update k.interest fd (some wanted) })
    | .add, some _ => (false, k)
    | .mod, .none => (false, k)
    | .mod, some _ => (true, { k with interest := Function.update k.interest fd (some wanted) })
    | .del, .none => (false, k)
    | .del, some _ => (true, { k with interest := Function.update k.interest fd .none })
  else (false, k)

/-- A call returns a new descriptor. -/
def opened (k : Kernel) (fd : ℕ) : Kernel :=
  { k with isOpen := Function.update k.isOpen fd true }

def close (k : Kernel) (fd : ℕ) : Kernel where
  isOpen := Function.update k.isOpen fd false
  interest := Function.update k.interest fd .none

theorem close_opened {k : Kernel} {fd : ℕ} (hclosed : k.isOpen fd = false)
    (hinterest : k.interest fd = .none) : (k.opened fd).close fd = k := by
  have hopen : Function.update (Function.update k.isOpen fd true) fd false = k.isOpen := by
    rw [Function.update_idem, ← hclosed, Function.update_eq_self]
  have hsame : Function.update k.interest fd .none = k.interest := by
    rw [← hinterest, Function.update_eq_self]
  simp only [close, opened, hopen, hsame]

end Kernel

/-! ## The table -/

/-- `ae_comm_event`. -/
structure CommEvent (Proc Data : Type*) where
  mask : EventMask
  rCommProc : Option Proc
  wCommProc : Option Proc
  clientData : Option Data

structure EventLoop (Proc Data : Type*) where
  maxfd : ℤ
  setsize : ℕ
  events : ℕ → CommEvent Proc Data
  kernel : Kernel

namespace EventLoop

variable {Proc Data : Type*}

/-- What an entry wants watched. -/
def mask (el : EventLoop Proc Data) (fd : ℕ) : EventMask := (el.events fd).mask

def aeEpollAddEvent (el : EventLoop Proc Data) (full : Bool) (fd : ℕ) (mask : EventMask) :
    Bool × EventLoop Proc Data :=
  let op := if el.mask fd = .none then EpollOp.add else EpollOp.mod
  let (done, kernel) := el.kernel.epollCtl full op fd (mask.union (el.mask fd))
  (done, { el with kernel := kernel })

def aeEpollDelEvent (el : EventLoop Proc Data) (fd : ℕ) (delmask : EventMask) :
    EventLoop Proc Data :=
  let mask := (el.mask fd).diff delmask
  let op := if mask = .none then EpollOp.del else EpollOp.mod
  { el with kernel := (el.kernel.epollCtl false op fd mask).2 }

/-- The entry with another event to watch for. -/
def CommEvent.merged (ce : CommEvent Proc Data) (mask : EventMask) (proc : Proc) (data : Data) :
    CommEvent Proc Data where
  mask := ce.mask.union mask
  rCommProc := if mask.readable then some proc else ce.rCommProc
  wCommProc := if mask.writable then some proc else ce.wCommProc
  clientData := some data

/-- Whether it succeeds, and the loop. -/
def aeCreateCommEvent (el : EventLoop Proc Data) (full : Bool) (fd : ℕ) (mask : EventMask)
    (proc : Proc) (data : Data) : Bool × EventLoop Proc Data :=
  if el.setsize ≤ fd then (false, el)
  else
    match el.aeEpollAddEvent full fd mask with
    | (false, el) => (false, el)
    | (true, el) =>
        (true, { el with
          events := Function.update el.events fd (CommEvent.merged (el.events fd) mask proc data)
          maxfd := if el.maxfd < fd then fd else el.maxfd })

/-- The loop that looks for the next lower entry that is watched. -/
def nextBelow (events : ℕ → CommEvent Proc Data) : ℕ → ℤ
  | 0 => -1
  | j + 1 => if (events j).mask = .none then nextBelow events j else j

def aeDeleteCommEvent (el : EventLoop Proc Data) (fd : ℕ) (mask : EventMask) :
    EventLoop Proc Data :=
  if el.setsize ≤ fd then el
  else if el.mask fd = .none then el
  else
    let el := el.aeEpollDelEvent fd mask
    let left := (el.mask fd).diff mask
    let events := Function.update el.events fd { el.events fd with mask := left }
    { el with
      events := events
      maxfd := if fd = el.maxfd ∧ left = .none then nextBelow events fd else el.maxfd }

/-! ## Table and kernel agree -/

/-- The kernel watches what the table says, of descriptors that are open and in
the table, and the highest of them is known. -/
structure Agrees (el : EventLoop Proc Data) : Prop where
  interest : ∀ fd, el.kernel.interest fd =
    if el.mask fd = .none then Option.none else some (el.mask fd)
  inTable : ∀ fd, el.mask fd ≠ .none → fd < el.setsize ∧ el.kernel.isOpen fd = true
  below : ∀ fd, el.mask fd ≠ .none → (fd : ℤ) ≤ el.maxfd
  highest : el.maxfd = -1 ∨ ∃ fd : ℕ, (fd : ℤ) = el.maxfd ∧ el.mask fd ≠ .none

theorem nextBelow_spec (events : ℕ → CommEvent Proc Data) (n : ℕ) :
    (∀ fd < n, (events fd).mask ≠ .none → (fd : ℤ) ≤ nextBelow events n) ∧
      (nextBelow events n = -1 ∨
        ∃ fd : ℕ, (fd : ℤ) = nextBelow events n ∧ (events fd).mask ≠ .none) := by
  induction n with
  | zero => exact ⟨fun fd hfd => absurd hfd (Nat.not_lt_zero fd), Or.inl rfl⟩
  | succ n ih =>
      unfold nextBelow
      split_ifs with hnone
      · refine ⟨fun fd hfd hmask => ?_, ih.2⟩
        rcases Nat.lt_succ_iff_lt_or_eq.mp hfd with hlt | rfl
        · exact ih.1 fd hlt hmask
        · exact absurd hnone hmask
      · exact ⟨fun fd hfd _ => by omega, Or.inr ⟨n, rfl, hnone⟩⟩

section Operations

variable {el : EventLoop Proc Data} {fd : ℕ}

theorem mask_update (el : EventLoop Proc Data) (fd : ℕ) (ce : CommEvent Proc Data) (other : ℕ) :
    (Function.update el.events fd ce other).mask =
      if other = fd then ce.mask else el.mask other := by
  by_cases h : other = fd
  · rw [if_pos h, h, Function.update_self]
  · rw [if_neg h, Function.update_of_ne h, mask]

/-- The loop with an event created. -/
def watching (el : EventLoop Proc Data) (fd : ℕ) (mask : EventMask) (proc : Proc) (data : Data) :
    EventLoop Proc Data :=
  { el with
    events := Function.update el.events fd (CommEvent.merged (el.events fd) mask proc data)
    maxfd := if el.maxfd < fd then fd else el.maxfd
    kernel := { el.kernel with
      interest := Function.update el.kernel.interest fd (some (mask.union (el.mask fd))) } }

/-- An event is created, unless the descriptor is not watched yet and there is no
room for it; then nothing changes. -/
theorem Agrees.aeCreateCommEvent_cases (h : el.Agrees) (hopen : el.kernel.isOpen fd = true)
    (full : Bool) (mask : EventMask) (proc : Proc) (data : Data) :
    el.aeCreateCommEvent full fd mask proc data = (false, el) ∧ el.mask fd = .none ∧
        (el.setsize ≤ fd ∨ full = true) ∨
      el.aeCreateCommEvent full fd mask proc data = (true, el.watching fd mask proc data) ∧
        fd < el.setsize := by
  unfold aeCreateCommEvent
  split_ifs with hsize
  · refine Or.inl ⟨rfl, ?_, Or.inl hsize⟩
    by_contra hmask
    exact absurd (h.inTable fd hmask).1 (by omega)
  · have hinterest := h.interest fd
    by_cases hmask : el.mask fd = .none
    · rw [if_pos hmask] at hinterest
      cases full with
      | true =>
          refine Or.inl ⟨?_, hmask, Or.inr rfl⟩
          simp [aeEpollAddEvent, Kernel.epollCtl, hmask, hopen, hinterest]
      | false =>
          refine Or.inr ⟨?_, by omega⟩
          simp [aeEpollAddEvent, Kernel.epollCtl, hmask, hopen, hinterest, watching]
    · rw [if_neg hmask] at hinterest
      refine Or.inr ⟨?_, by omega⟩
      simp [aeEpollAddEvent, Kernel.epollCtl, hmask, hopen, hinterest, watching]

theorem union_ne_none {mask old : EventMask} (h : mask ≠ .none) : mask.union old ≠ .none := by
  obtain ⟨r, w⟩ := mask
  obtain ⟨r', w'⟩ := old
  revert h r w r' w'
  decide

theorem mask_watching (el : EventLoop Proc Data) (fd : ℕ) (mask : EventMask) (proc : Proc)
    (data : Data) (other : ℕ) :
    (el.watching fd mask proc data).mask other =
      if other = fd then (el.mask fd).union mask else el.mask other :=
  mask_update el fd _ other

theorem union_comm (a b : EventMask) : a.union b = b.union a := by
  simp [EventMask.union, Bool.or_comm]

theorem Agrees.watching (h : el.Agrees) (hopen : el.kernel.isOpen fd = true)
    (hsize : fd < el.setsize) {mask : EventMask} (hmask : mask ≠ .none) (proc : Proc)
    (data : Data) : (el.watching fd mask proc data).Agrees := by
  have hnew : (el.mask fd).union mask ≠ .none := by
    rw [union_comm]
    exact union_ne_none hmask
  have hmaxfd : el.maxfd ≤ (el.watching fd mask proc data).maxfd ∧
      (fd : ℤ) ≤ (el.watching fd mask proc data).maxfd := by
    unfold EventLoop.watching
    dsimp only
    split_ifs <;> omega
  refine ⟨fun other => ?_, fun other hother => ?_, fun other hother => ?_, ?_⟩
  · rw [mask_watching]
    by_cases heq : other = fd
    · simp only [EventLoop.watching, heq, Function.update_self, if_true, if_neg hnew,
        union_comm mask]
    · simp only [EventLoop.watching, Function.update_of_ne heq, if_neg heq, h.interest]
  · rw [mask_watching] at hother
    split_ifs at hother with heq
    · rw [heq]
      exact ⟨hsize, hopen⟩
    · exact h.inTable other hother
  · rw [mask_watching] at hother
    split_ifs at hother with heq
    · rw [heq]
      exact hmaxfd.2
    · exact Int.le_trans (h.below other hother) hmaxfd.1
  · by_cases hlt : el.maxfd < fd
    · refine Or.inr ⟨fd, (if_pos hlt).symm, ?_⟩
      rw [mask_watching, if_pos rfl]
      exact hnew
    · have hsame : (el.watching fd mask proc data).maxfd = el.maxfd := if_neg hlt
      rw [hsame]
      rcases h.highest with hnone | ⟨other, hother, hwatched⟩
      · exact Or.inl hnone
      · refine Or.inr ⟨other, hother, ?_⟩
        rw [mask_watching]
        split_ifs with heq
        · exact hnew
        · exact hwatched

/-- The loop with an event deleted. -/
def unwatching (el : EventLoop Proc Data) (fd : ℕ) (mask : EventMask) : EventLoop Proc Data :=
  let left := (el.mask fd).diff mask
  let events := Function.update el.events fd { el.events fd with mask := left }
  { el with
    events := events
    maxfd := if fd = el.maxfd ∧ left = .none then nextBelow events fd else el.maxfd
    kernel := { el.kernel with
      interest := Function.update el.kernel.interest fd
        (if left = .none then Option.none else some left) } }

theorem Agrees.aeDeleteCommEvent_eq (h : el.Agrees) (mask : EventMask) :
    el.aeDeleteCommEvent fd mask = if el.mask fd = .none then el else el.unwatching fd mask := by
  unfold aeDeleteCommEvent
  by_cases hmask : el.mask fd = .none
  · rw [if_pos hmask, if_pos hmask, ite_self]
  · obtain ⟨hsize, hopen⟩ := h.inTable fd hmask
    have hinterest := h.interest fd
    rw [if_neg hmask] at hinterest
    rw [if_neg (by omega), if_neg hmask, if_neg hmask]
    have hdel : el.aeEpollDelEvent fd mask = { el with kernel := { el.kernel with
        interest := Function.update el.kernel.interest fd
          (if (el.mask fd).diff mask = .none then Option.none
            else some ((el.mask fd).diff mask)) } } := by
      by_cases hleft : (el.mask fd).diff mask = .none
      · simp [aeEpollDelEvent, Kernel.epollCtl, hopen, hinterest, hleft]
      · simp [aeEpollDelEvent, Kernel.epollCtl, hopen, hinterest, hleft]
    rw [hdel]
    rfl

theorem mask_unwatching (el : EventLoop Proc Data) (fd : ℕ) (mask : EventMask) (other : ℕ) :
    (el.unwatching fd mask).mask other =
      if other = fd then (el.mask fd).diff mask else el.mask other :=
  mask_update el fd _ other

theorem Agrees.unwatching (h : el.Agrees) (hwatched : el.mask fd ≠ .none) (mask : EventMask) :
    (el.unwatching fd mask).Agrees := by
  have hkept : ∀ other, (el.unwatching fd mask).mask other ≠ .none → el.mask other ≠ .none := by
    intro other hother
    rw [mask_unwatching] at hother
    split_ifs at hother with heq
    · rw [heq]
      exact hwatched
    · exact hother
  obtain ⟨hbelow, hhighest⟩ := nextBelow_spec (el.unwatching fd mask).events fd
  refine ⟨fun other => ?_, fun other hother => h.inTable other (hkept other hother),
    fun other hother => ?_, ?_⟩
  · rw [mask_unwatching]
    by_cases heq : other = fd
    · simp only [EventLoop.unwatching, heq, Function.update_self, if_true]
    · simp only [EventLoop.unwatching, Function.update_of_ne heq, if_neg heq, h.interest]
  · have hle := h.below other (hkept other hother)
    by_cases hlast : (fd : ℤ) = el.maxfd ∧ (el.mask fd).diff mask = .none
    · have hne : other ≠ fd := by
        rintro rfl
        rw [mask_unwatching, if_pos rfl] at hother
        exact hother hlast.2
      rw [show (el.unwatching fd mask).maxfd = nextBelow (el.unwatching fd mask).events fd
        from if_pos hlast]
      exact hbelow other (by omega) hother
    · rw [show (el.unwatching fd mask).maxfd = el.maxfd from if_neg hlast]
      exact hle
  · by_cases hlast : (fd : ℤ) = el.maxfd ∧ (el.mask fd).diff mask = .none
    · rw [show (el.unwatching fd mask).maxfd = nextBelow (el.unwatching fd mask).events fd
        from if_pos hlast]
      exact hhighest
    · rw [show (el.unwatching fd mask).maxfd = el.maxfd from if_neg hlast]
      rcases h.highest with hnone | ⟨other, hother, hmask⟩
      · exact Or.inl hnone
      · refine Or.inr ⟨other, hother, ?_⟩
        rw [mask_unwatching]
        split_ifs with heq
        · intro hleft
          exact hlast ⟨heq ▸ hother, hleft⟩
        · exact hmask

theorem Agrees.aeDeleteCommEvent (h : el.Agrees) (fd : ℕ) (mask : EventMask) :
    (el.aeDeleteCommEvent fd mask).Agrees := by
  rw [h.aeDeleteCommEvent_eq]
  split_ifs with hnone
  · exact h
  · exact h.unwatching hnone mask

/-- A deletion changes the mask of one entry, and closes nothing. -/
theorem Agrees.aeDeleteCommEvent_frame (h : el.Agrees) (fd : ℕ) (mask : EventMask) :
    (el.aeDeleteCommEvent fd mask).setsize = el.setsize ∧
      (el.aeDeleteCommEvent fd mask).kernel.isOpen = el.kernel.isOpen ∧
      ∀ other, (el.aeDeleteCommEvent fd mask).events other =
        if other = fd then { el.events fd with mask := (el.mask fd).diff mask }
        else el.events other := by
  rw [h.aeDeleteCommEvent_eq]
  split_ifs with hnone
  · refine ⟨rfl, rfl, fun other => ?_⟩
    split_ifs with heq
    · have hdiff : (el.mask fd).diff mask = (el.events fd).mask := by
        rw [hnone, show (el.events fd).mask = .none from hnone]
        rfl
      rw [heq, hdiff]
    · rfl
  · refine ⟨rfl, rfl, fun other => ?_⟩
    by_cases heq : other = fd
    · simp only [EventLoop.unwatching, heq, Function.update_self, if_true]
    · simp only [EventLoop.unwatching, Function.update_of_ne heq, if_neg heq]

/-- With both events deleted nothing is watched of a descriptor. -/
theorem Agrees.delete_both (h : el.Agrees) (fd : ℕ) :
    let el' := (el.aeDeleteCommEvent fd .readableOnly).aeDeleteCommEvent fd .writableOnly
    el'.Agrees ∧ el'.kernel.isOpen = el.kernel.isOpen ∧ el'.mask fd = .none ∧
      ∀ other, other ≠ fd → el'.events other = el.events other := by
  intro el'
  have hread := h.aeDeleteCommEvent fd .readableOnly
  obtain ⟨_, hopen, hevents⟩ := h.aeDeleteCommEvent_frame fd .readableOnly
  obtain ⟨_, hopen', hevents'⟩ := hread.aeDeleteCommEvent_frame fd .writableOnly
  refine ⟨hread.aeDeleteCommEvent fd .writableOnly, hopen'.trans hopen, ?_, fun other hne => ?_⟩
  · have hmask : (el.aeDeleteCommEvent fd .readableOnly).mask fd =
        (el.mask fd).diff .readableOnly := by rw [EventLoop.mask, hevents, if_pos rfl]
    rw [EventLoop.mask, hevents', if_pos rfl, hmask]
    simp [EventMask.diff, EventMask.none, EventMask.readableOnly, EventMask.writableOnly]
  · rw [hevents', if_neg hne, hevents, if_neg hne]

/-- A descriptor that is not watched can be closed, and one that is not open opened. -/
theorem Agrees.close (h : el.Agrees) (hmask : el.mask fd = .none) :
    { el with kernel := el.kernel.close fd }.Agrees := by
  refine ⟨fun other => ?_, fun other hother => ?_, h.below, h.highest⟩
  · by_cases heq : other = fd
    · simp only [Kernel.close, heq, Function.update_self]
      exact (if_pos hmask).symm
    · simp only [Kernel.close, Function.update_of_ne heq]
      exact h.interest other
  · have hne : other ≠ fd := fun heq => hother (heq ▸ hmask)
    simp only [Kernel.close, Function.update_of_ne hne]
    exact h.inTable other hother

theorem Agrees.opened (h : el.Agrees) (fd : ℕ) :
    { el with kernel := el.kernel.opened fd }.Agrees := by
  refine ⟨h.interest, fun other hother => ?_, h.below, h.highest⟩
  refine ⟨(h.inTable other hother).1, ?_⟩
  by_cases heq : other = fd
  · simp only [Kernel.opened, heq, Function.update_self]
  · simp only [Kernel.opened, Function.update_of_ne heq]
    exact (h.inTable other hother).2

end Operations

end EventLoop

end AdaptiveSignal.Network
