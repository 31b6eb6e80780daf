import Mathlib.Data.List.Sort

/-! # Lists kept in stable order

A list is kept in the order of a key by putting each new entry before the first
one with a larger key. It then holds what was put in, sorted, and entries with
one key in the order in which they came.
-/

namespace AdaptiveSignal.Foundation

variable {Entry Key : Type*} [LinearOrder Key] {key : Entry → Key}
  {log ordered : List Entry} {new : Entry}

/-- The list holds the entries of a log, sorted by their keys and otherwise in the
order of the log. -/
structure StableOrder (key : Entry → Key) (log ordered : List Entry) : Prop where
  perm : ordered.Perm log
  sorted : ordered.Pairwise fun a b => key a ≤ key b
  stable : ∀ k, ordered.filter (key · = k) = log.filter (key · = k)

theorem StableOrder.nil : StableOrder key [] [] :=
  ⟨List.Perm.nil, List.Pairwise.nil, fun _ => rfl⟩

/-- Insertion before the first entry with a larger key. -/
def insertStable (key : Entry → Key) (new : Entry) (ordered : List Entry) : List Entry :=
  ordered.orderedInsert (fun a b => key a < key b) new

@[simp] theorem insertStable_nil (key : Entry → Key) (new : Entry) :
    insertStable key new [] = [new] := rfl

@[simp] theorem insertStable_cons (key : Entry → Key) (new first : Entry) (rest : List Entry) :
    insertStable key new (first :: rest) =
      if key new < key first then new :: first :: rest
      else first :: insertStable key new rest := rfl

theorem sorted_insertStable (hsorted : ordered.Pairwise fun a b => key a ≤ key b) (new : Entry) :
    (insertStable key new ordered).Pairwise fun a b => key a ≤ key b := by
  induction ordered with
  | nil => exact List.pairwise_singleton _ _
  | cons first rest ih =>
      obtain ⟨hfirst, hrest⟩ := List.pairwise_cons.mp hsorted
      rw [insertStable_cons]
      split_ifs with hlt
      · refine List.pairwise_cons.mpr ⟨fun entry hentry => ?_, hsorted⟩
        rcases List.mem_cons.mp hentry with rfl | hlater
        · exact hlt.le
        · exact hlt.le.trans (hfirst entry hlater)
      · refine List.pairwise_cons.mpr ⟨fun entry hentry => ?_, ih hrest⟩
        rcases (List.mem_orderedInsert _).mp hentry with rfl | hlater
        · exact not_lt.mp hlt
        · exact hfirst entry hlater

/-- The new entry comes after all that have its key. -/
theorem filter_insertStable (hsorted : ordered.Pairwise fun a b => key a ≤ key b) (new : Entry)
    (k : Key) :
    (insertStable key new ordered).filter (key · = k) =
      (ordered ++ [new]).filter (key · = k) := by
  induction ordered with
  | nil => rfl
  | cons first rest ih =>
      obtain ⟨hfirst, hrest⟩ := List.pairwise_cons.mp hsorted
      rw [insertStable_cons]
      split_ifs with hlt
      · -- Everything from here on has a larger key.
        have hlarger : ∀ entry ∈ first :: rest, key new < key entry := by
          intro entry hentry
          rcases List.mem_cons.mp hentry with rfl | hlater
          · exact hlt
          · exact hlt.trans_le (hfirst entry hlater)
        rw [List.filter_append]
        by_cases hnew : key new = k
        · have hnone : (first :: rest).filter (key · = k) = [] := by
            apply List.filter_eq_nil_iff.mpr
            intro entry hentry hkey
            have hlt' := hlarger entry hentry
            rw [of_decide_eq_true hkey, hnew] at hlt'
            exact lt_irrefl k hlt'
          rw [hnone, List.filter_cons_of_pos (by simpa using hnew), hnone]
          simp [hnew]
        · rw [List.filter_cons_of_neg (by simpa using hnew)]
          simp [hnew]
      · rw [List.cons_append, List.filter_cons, List.filter_cons, ih hrest]

theorem StableOrder.insert (h : StableOrder key log ordered) (new : Entry) :
    StableOrder key (log ++ [new]) (insertStable key new ordered) where
  perm := (List.perm_orderedInsert _ new ordered).trans
    ((h.perm.cons new).trans (List.perm_append_singleton new log).symm)
  sorted := sorted_insertStable h.sorted new
  stable k := by
    rw [filter_insertStable h.sorted, List.filter_append, List.filter_append, h.stable k]

/-- A selection from the list is in the order of the same selection from the log. -/
theorem StableOrder.filter (h : StableOrder key log ordered) (p : Entry → Bool) :
    StableOrder key (log.filter p) (ordered.filter p) where
  perm := h.perm.filter p
  sorted := h.sorted.filter p
  stable k := by
    rw [List.filter_comm, h.stable k, List.filter_comm]

end AdaptiveSignal.Foundation
