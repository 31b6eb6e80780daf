import Mathlib.Data.List.FinRange
import Mathlib.Data.List.Range
import Mathlib.Logic.Function.Basic
import Mathlib.Tactic.Common

/-! # Tables that own their contents

Each place of a table holds a block of memory or none. A content that is put in a place is
allocated, and the block that was there is freed. As long as every block that was allocated
is either freed or held, and only once, freeing what is held frees each block once.
-/

namespace AdaptiveSignal.Foundation

/-- Blocks are numbered in the order in which they are allocated. -/
structure OwnedTable (n : ℕ) (α : Type*) where
  entry : Fin n → Option (ℕ × α)
  allocated : ℕ
  freed : List ℕ

namespace OwnedTable

variable {n : ℕ} {α : Type*}

def empty : OwnedTable n α where
  entry _ := none
  allocated := 0
  freed := []

def content (t : OwnedTable n α) (i : Fin n) : Option α :=
  (t.entry i).map Prod.snd

def blocks (t : OwnedTable n α) (places : List (Fin n)) : List ℕ :=
  places.flatMap fun i => ((t.entry i).map Prod.fst).toList

/-- Free what is in the place, and put a new block there. -/
def put (t : OwnedTable n α) (i : Fin n) (a : α) : OwnedTable n α where
  entry := Function.update t.entry i (some (t.allocated, a))
  allocated := t.allocated + 1
  freed := t.freed ++ t.blocks [i]

/-- Free what is in all places, without clearing them. -/
def freeAll (t : OwnedTable n α) : OwnedTable n α :=
  { t with freed := t.freed ++ t.blocks (List.finRange n) }

/-- Every block is freed or held, once. -/
def Owned (t : OwnedTable n α) : Prop :=
  (t.freed ++ t.blocks (List.finRange n)).Perm (List.range t.allocated)

theorem entry_put (t : OwnedTable n α) (i : Fin n) (a : α) (j : Fin n) :
    (t.put i a).entry j = if j = i then some (t.allocated, a) else t.entry j :=
  Function.update_apply _ _ _ _

theorem content_put (t : OwnedTable n α) (i : Fin n) (a : α) (j : Fin n) :
    (t.put i a).content j = if j = i then some a else t.content j := by
  rw [content, entry_put]
  split_ifs <;> rfl

theorem owned_empty : (empty : OwnedTable n α).Owned := by
  simp [Owned, empty, blocks]

theorem blocks_put_of_notMem (t : OwnedTable n α) {i : Fin n} (a : α) {places : List (Fin n)}
    (hi : i ∉ places) : (t.put i a).blocks places = t.blocks places := by
  refine List.flatMap_congr fun j hj => ?_
  rw [entry_put, if_neg (ne_of_mem_of_not_mem hj hi)]

/-- The new block takes the place of the one that is freed. -/
theorem blocks_put_perm (t : OwnedTable n α) (i : Fin n) (a : α) :
    (t.blocks [i] ++ (t.put i a).blocks (List.finRange n)).Perm
      (t.allocated :: t.blocks (List.finRange n)) := by
  obtain ⟨before, after, hplaces⟩ := List.append_of_mem (List.mem_finRange i)
  have hnodup := List.nodup_finRange n
  rw [hplaces] at hnodup ⊢
  have hout := (List.nodup_cons.mp (List.nodup_middle.mp hnodup)).1
  have hbefore := t.blocks_put_of_notMem a fun hi => hout (List.mem_append_left after hi)
  have hafter := t.blocks_put_of_notMem a fun hi => hout (List.mem_append_right before hi)
  have hsplit (t : OwnedTable n α) :
      t.blocks (before ++ i :: after) = t.blocks before ++ (t.blocks [i] ++ t.blocks after) := by
    simp [blocks]
  have hnew : (t.put i a).blocks [i] = [t.allocated] := by
    simp [blocks, put]
  rw [hsplit, hsplit, hbefore, hafter, hnew]
  have hmiddle : ((t.blocks [i] ++ t.blocks before) ++ t.allocated :: t.blocks after).Perm
      (t.allocated :: ((t.blocks [i] ++ t.blocks before) ++ t.blocks after)) := List.perm_middle
  have hswap : ((t.blocks [i] ++ t.blocks before) ++ t.blocks after).Perm
      ((t.blocks before ++ t.blocks [i]) ++ t.blocks after) :=
    List.perm_append_comm.append_right _
  have hperm := hmiddle.trans (hswap.cons _)
  simpa only [List.append_assoc, List.singleton_append] using hperm

theorem Owned.put {t : OwnedTable n α} (h : t.Owned) (i : Fin n) (a : α) : (t.put i a).Owned := by
  unfold Owned at h ⊢
  have hblocks := (t.blocks_put_perm i a).append_left t.freed
  rw [← List.append_assoc] at hblocks
  have hallocated : (t.put i a).allocated = t.allocated + 1 := rfl
  rw [hallocated, List.range_succ]
  have hmiddle : (t.freed ++ t.allocated :: t.blocks (List.finRange n)).Perm
      (t.allocated :: (t.freed ++ t.blocks (List.finRange n))) := List.perm_middle
  exact hblocks.trans (hmiddle.trans ((h.cons _).trans (List.perm_append_singleton _ _).symm))

/-- Freeing what is held once frees every block once. -/
theorem Owned.freed_freeAll {t : OwnedTable n α} (h : t.Owned) :
    t.freeAll.freed.Perm (List.range t.allocated) := h

end OwnedTable

end AdaptiveSignal.Foundation
