import Mathlib.Data.List.Range
import Mathlib.Data.Nat.ModEq
import Mathlib.Logic.Function.Basic

/-! # Ring buffers

A ring of records keeps a first and a last position, and one place free, so that
equal positions mean an empty ring. Its contents are the records from the first
position on. Pushing appends to them unless the ring is full; popping takes
their head unless it is empty.
-/

namespace AdaptiveSignal.Foundation

structure RingBuffer (Record : Type*) where
  max : ℕ
  first : ℕ
  last : ℕ
  record : ℕ → Record
  first_lt : first < max
  last_lt : last < max

namespace RingBuffer

variable {Record : Type*} (r : RingBuffer Record) (x : Record)

/-- A position and the one after it lie on the ring. -/
theorem next_lt (position : ℕ) : (position + 1) % r.max < r.max :=
  Nat.mod_lt _ (Nat.zero_lt_of_lt r.first_lt)

def isEmpty : Bool := r.first = r.last

def isFull : Bool := (r.last + 1) % r.max = r.first

/-- The new ring, and whether the record is in it. -/
def push : Bool × RingBuffer Record :=
  if r.isFull then (false, r)
  else (true, { r with
    record := Function.update r.record r.last x
    last := (r.last + 1) % r.max
    last_lt := r.next_lt r.last })

def pop : Option Record × RingBuffer Record :=
  if r.isEmpty then (none, r)
  else (some (r.record r.first), { r with
    first := (r.first + 1) % r.max
    first_lt := r.next_lt r.first })

/-- The number of records between the two positions. -/
def size : ℕ :=
  if r.first ≤ r.last then r.last - r.first else r.last + r.max - r.first

/-- The records in the order in which they were pushed. -/
def contents : List Record :=
  (List.range r.size).map fun i => r.record ((r.first + i) % r.max)

variable {r x}

theorem isEmpty_iff : r.isEmpty = true ↔ r.contents = [] := by
  have hfirst := r.first_lt
  simp only [isEmpty, decide_eq_true_eq, contents, List.map_eq_nil_iff, List.range_eq_nil, size]
  split <;> omega

/-- A position is followed by the next one, or by the start of the ring. -/
theorem next_eq {position : ℕ} (h : position < r.max) :
    (position + 1) % r.max = if position + 1 < r.max then position + 1 else 0 := by
  split_ifs with hlt
  · exact Nat.mod_eq_of_lt hlt
  · rw [show position + 1 = r.max by omega, Nat.mod_self]

theorem size_lt : r.size < r.max := by
  have hfirst := r.first_lt
  have hlast := r.last_lt
  unfold size
  split_ifs <;> omega

/-- The place after the last record is the last position. -/
theorem place_last : (r.first + r.size) % r.max = r.last := by
  have hfirst := r.first_lt
  have hlast := r.last_lt
  unfold size
  split_ifs
  · rw [show r.first + (r.last - r.first) = r.last by omega, Nat.mod_eq_of_lt hlast]
  · rw [show r.first + (r.last + r.max - r.first) = r.last + r.max by omega,
      Nat.add_mod_right, Nat.mod_eq_of_lt hlast]

/-- No record stands at the last position. -/
theorem place_ne_last {i : ℕ} (hi : i < r.size) : (r.first + i) % r.max ≠ r.last := by
  rw [← r.place_last]
  intro heq
  have hsize := r.size_lt
  have hmod : i % r.max = r.size % r.max := Nat.ModEq.add_left_cancel' r.first heq
  rw [Nat.mod_eq_of_lt (by omega), Nat.mod_eq_of_lt hsize] at hmod
  omega

theorem isFull_iff : r.isFull = true ↔ r.contents.length + 1 = r.max := by
  have hfirst := r.first_lt
  have hlast := r.last_lt
  simp only [isFull, decide_eq_true_eq, next_eq hlast, contents, List.length_map,
    List.length_range, size]
  split_ifs <;> omega

theorem push_size (h : r.isFull = false) : (r.push x).2.size = r.size + 1 := by
  have hfirst := r.first_lt
  have hlast := r.last_lt
  have hnext := next_eq hlast
  have hfull : (r.last + 1) % r.max ≠ r.first := by simpa [isFull] using h
  simp only [push, h, Bool.false_eq_true, if_false, size]
  rw [hnext] at hfull ⊢
  split_ifs at hfull ⊢ <;> omega

/-- A record pushed on a ring with a free place comes last. -/
theorem push_contents (h : r.isFull = false) :
    ∃ ring, r.push x = (true, ring) ∧ ring.contents = r.contents ++ [x] := by
  refine ⟨(r.push x).2, by simp [push, h], ?_⟩
  rw [contents, push_size h, List.range_succ, List.map_append, contents]
  congr 1
  · apply List.map_congr_left
    intro i hi
    simp [push, h, Function.update_of_ne (place_ne_last (List.mem_range.mp hi))]
  · simp [push, h, place_last]

theorem pop_empty (h : r.isEmpty = true) : r.pop = (none, r) := by
  simp [pop, h]

theorem pop_size (h : r.isEmpty = false) : (r.pop).2.size + 1 = r.size := by
  have hfirst := r.first_lt
  have hlast := r.last_lt
  have hnext := next_eq hfirst
  have hempty : r.first ≠ r.last := by simpa [isEmpty] using h
  simp only [pop, h, Bool.false_eq_true, if_false, size]
  rw [hnext]
  split_ifs <;> omega

/-- A ring that is not empty gives its first record and keeps the others. -/
theorem pop_contents (h : r.isEmpty = false) :
    ∃ x ring, r.pop = (some x, ring) ∧ r.contents = x :: ring.contents := by
  refine ⟨r.record r.first, r.pop.2, by simp [pop, h], ?_⟩
  rw [contents, ← pop_size h, List.range_succ_eq_map, List.map_cons, List.map_map, contents]
  congr 1
  · rw [Nat.add_zero, Nat.mod_eq_of_lt r.first_lt]
  · apply List.map_congr_left
    intro i _
    simp only [Function.comp_apply, pop, h, Bool.false_eq_true, if_false]
    rw [Nat.mod_add_mod, Nat.add_right_comm, Nat.add_assoc]

end RingBuffer

end AdaptiveSignal.Foundation
