import AdaptiveSignal.Foundation.Run
import Mathlib.Data.List.Chain
import Mathlib.Data.List.Nodup

/-! # Batches of items with different keys

A collector keeps the items that have come since it last handed on a batch, and
hands them on as soon as a key comes twice. The item with that key begins the
next batch, so the stream is cut into batches that are as long as they can be.
-/

namespace AdaptiveSignal.Foundation

variable {Item Key : Type*} (key : Item → Key)

/-- The stream is the batches and then what is in hand. -/
structure Batched (items : List Item) (batches : List (List Item)) (pending : List Item) :
    Prop where
  flatten : (batches ++ [pending]).flatten = items
  distinct : ∀ batch ∈ batches ++ [pending], (batch.map key).Nodup
  started : pending = [] → batches = []
  maximal : (batches ++ [pending]).IsChain fun batch next =>
    ∀ item ∈ next.head?, key item ∈ batch.map key

theorem Batched.nil : Batched key ([] : List Item) [] [] where
  flatten := rfl
  distinct := by simp
  started := fun _ => rfl
  maximal := List.isChain_singleton []

variable [DecidableEq Key]

/-- The batch in hand after one more item. -/
def collect (batch : List Item) (item : Item) : List Item :=
  if key item ∈ batch.map key then [item] else batch ++ [item]

def handedOn (batch : List Item) (item : Item) : List (List Item) :=
  if key item ∈ batch.map key then [batch] else []

variable {key}

theorem Batched.concat {items : List Item} {batches : List (List Item)} {pending : List Item}
    (h : Batched key items batches pending) (item : Item) :
    Batched key (items ++ [item]) (batches ++ handedOn key pending item)
      (collect key pending item) := by
  unfold handedOn collect
  by_cases hagain : key item ∈ pending.map key
  · simp only [if_pos hagain]
    refine ⟨?_, ?_, by simp, ?_⟩
    · rw [List.flatten_append, h.flatten]
      simp
    · intro batch hbatch
      rcases List.mem_append.mp hbatch with hold | hnew
      · exact h.distinct batch hold
      · rw [List.mem_singleton.mp hnew]
        simp
    · refine h.maximal.append (List.isChain_singleton _) ?_
      simpa using hagain
  · simp only [if_neg hagain, List.append_nil]
    refine ⟨?_, ?_, by simp, ?_⟩
    · rw [← h.flatten]
      simp
    · intro batch hbatch
      rcases List.mem_append.mp hbatch with hold | hnew
      · exact h.distinct batch (List.mem_append_left _ hold)
      · rw [List.mem_singleton.mp hnew, List.map_append]
        have hdistinct := h.distinct pending (by simp)
        exact List.nodup_append'.mpr ⟨hdistinct, by simp, by simpa using hagain⟩
    · -- the batch in hand keeps its first item
      obtain ⟨hbatches, _, hlast⟩ := List.isChain_append.mp h.maximal
      refine hbatches.append (List.isChain_singleton _) ?_
      cases pending with
      | nil => simp [h.started rfl]
      | cons first rest => simpa using hlast

/-- Over every stream the collector hands on batches of different keys, none of
which could have taken the item after it, and loses nothing. -/
theorem batched_run (items : List Item) :
    Batched key items (emitted (collect key) (handedOn key) [] items)
      (run (collect key) [] items) := by
  induction items using List.reverseRecOn with
  | nil => exact Batched.nil key
  | append_singleton items item ih =>
      rw [emitted_concat, run_concat]
      exact ih.concat item

end AdaptiveSignal.Foundation
