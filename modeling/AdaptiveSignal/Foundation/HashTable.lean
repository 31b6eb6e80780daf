import Mathlib.Data.List.Nodup
import Mathlib.Data.List.Perm.Basic

/-! # Chained hash tables

A table keeps every entry in the bucket that the hash of its key selects. An
entry is added only under a key that has none yet, and the table doubles when it
holds as many entries as buckets. Whatever the hash function, a table built by
these operations is read as a partial function of its keys.
-/

namespace AdaptiveSignal.Foundation

structure HashTable (Key Value : Type*) where
  buckets : List (List (Key × Value))
  used : ℕ

namespace HashTable

variable {Key Value : Type*}

def empty : HashTable Key Value := ⟨[], 0⟩

def initialSize : ℕ := 4

/-- The first of `i`, `2 * i`, `4 * i` and so on that is at least `size`. -/
def nextPowerFrom (size i : ℕ) (hi : 0 < i) : ℕ :=
  if size ≤ i then i else nextPowerFrom size (i * 2) (by omega)
termination_by size - i

def nextPower (size : ℕ) : ℕ :=
  nextPowerFrom size initialSize (by decide)

theorem le_nextPowerFrom (size i : ℕ) (hi : 0 < i) : i ≤ nextPowerFrom size i hi := by
  fun_induction nextPowerFrom size i hi with
  | case1 i hi hsize => exact Nat.le_refl i
  | case2 i hi hsize ih => omega

theorem nextPower_pos (size : ℕ) : 0 < nextPower size :=
  Nat.lt_of_lt_of_le (by decide) (le_nextPowerFrom size initialSize (by decide))

section Operations

variable (hash : Key → ℕ)

/-- The bucket of a key, in a table whose size is a power of two. -/
def slot (size : ℕ) (key : Key) : ℕ := hash key &&& (size - 1)

/-- The entry becomes the head of its bucket. -/
def push (buckets : List (List (Key × Value))) (entry : Key × Value) :
    List (List (Key × Value)) :=
  buckets.modify (slot hash buckets.length entry.1) (entry :: ·)

variable (t : HashTable Key Value) (key : Key) (value : Value)

def size : ℕ := t.buckets.length

def entries : List (Key × Value) := t.buckets.flatten

/-- All entries move to a new table of at least the given size. -/
def expand (size : ℕ) : Option (HashTable Key Value) :=
  if size < t.used then none
  else some
    ⟨t.entries.foldl (push hash) (List.replicate (nextPower size) []), t.used⟩

def expandIfNeeded : Option (HashTable Key Value) :=
  if t.size = 0 then t.expand hash initialSize
  else if t.size = t.used then t.expand hash (t.size * 2)
  else some t

def bucket : List (Key × Value) := t.buckets.getD (slot hash t.size key) []

variable [DecidableEq Key]

def hasKey (entry : Key × Value) : Bool := entry.1 = key

/-- Whether the entry was added, and the table. -/
def add : Bool × HashTable Key Value :=
  match t.expandIfNeeded hash with
  | none => (false, t)
  | some t =>
      if (t.bucket hash key).any (hasKey key) then (false, t)
      else (true, ⟨push hash t.buckets (key, value), t.used + 1⟩)

def find : Option Value :=
  if t.size = 0 then none else ((t.bucket hash key).find? (hasKey key)).map Prod.snd

/-- Whether an entry was deleted, and the table. -/
def delete : Bool × HashTable Key Value :=
  if t.size = 0 then (false, t)
  else if (t.bucket hash key).any (hasKey key) then
    (true, ⟨t.buckets.modify (slot hash t.size key) (·.eraseP (hasKey key)), t.used - 1⟩)
  else (false, t)

/-- Every entry is in the bucket of its key. -/
def Placed (buckets : List (List (Key × Value))) : Prop :=
  ∀ i bucket, buckets[i]? = some bucket →
    ∀ entry ∈ bucket, slot hash buckets.length entry.1 = i

/-- Moreover no key has two entries, and all entries are counted. -/
structure Valid : Prop where
  placed : Placed hash t.buckets
  nodup : (t.entries.map Prod.fst).Nodup
  used_eq : t.used = t.entries.length

end Operations

variable {hash : Key → ℕ} {t : HashTable Key Value} {key : Key} {value : Value}

theorem slot_lt (hash : Key → ℕ) {size : ℕ} (hsize : 0 < size) (key : Key) :
    slot hash size key < size :=
  Nat.lt_of_le_of_lt Nat.and_le_right (by omega)

/-- Changing one bucket leaves the entries of the others as they are. -/
theorem flatten_perm (buckets : List (List (Key × Value))) {i : ℕ} (hi : i < buckets.length) :
    ∃ others, buckets.flatten.Perm (buckets[i] ++ others) ∧
      ∀ f : List (Key × Value) → List (Key × Value),
        (buckets.modify i f).flatten.Perm (f buckets[i] ++ others) := by
  have hsplit (f : List (Key × Value) → List (Key × Value)) :
      (buckets.modify i f).flatten.Perm
        (f buckets[i] ++ (buckets.take i ++ buckets.drop (i + 1)).flatten) := by
    rw [List.modify_eq_take_cons_drop hi, List.flatten_append, List.flatten_append,
      List.flatten_cons, ← List.append_assoc, ← List.append_assoc]
    exact List.perm_append_comm.append_right _
  exact ⟨_, by simpa using hsplit id, hsplit⟩

@[simp] theorem length_push (buckets : List (List (Key × Value))) (entry : Key × Value) :
    (push hash buckets entry).length = buckets.length := by
  simp [push]

theorem length_foldl_push (buckets : List (List (Key × Value)))
    (entries : List (Key × Value)) :
    (entries.foldl (push hash) buckets).length = buckets.length := by
  induction entries generalizing buckets with
  | nil => rfl
  | cons entry rest ih => rw [List.foldl_cons, ih, length_push]

theorem push_perm {buckets : List (List (Key × Value))} (hbuckets : 0 < buckets.length)
    (entry : Key × Value) :
    (push hash buckets entry).flatten.Perm (entry :: buckets.flatten) := by
  have hslot := slot_lt hash hbuckets entry.1
  obtain ⟨others, hbefore, hafter⟩ := flatten_perm buckets hslot
  exact (hafter (entry :: ·)).trans (hbefore.symm.cons entry)

namespace Placed

variable {buckets : List (List (Key × Value))}

theorem push (hplaced : Placed hash buckets) (entry : Key × Value) :
    Placed hash (push hash buckets entry) := by
  intro i bucket hbucket e he
  rw [length_push]
  rw [HashTable.push, List.getElem?_modify] at hbucket
  obtain ⟨old, hold, rfl⟩ := Option.map_eq_some_iff.mp hbucket
  split_ifs at he with hi
  · rcases List.mem_cons.mp he with rfl | he
    · exact hi
    · exact hplaced i old hold e he
  · exact hplaced i old hold e he

theorem erase [DecidableEq Key] (hplaced : Placed hash buckets) (j : ℕ) (key : Key) :
    Placed hash (buckets.modify j (·.eraseP (hasKey key))) := by
  intro i bucket hbucket e he
  rw [List.length_modify]
  rw [List.getElem?_modify] at hbucket
  obtain ⟨old, hold, rfl⟩ := Option.map_eq_some_iff.mp hbucket
  split_ifs at he
  · exact hplaced i old hold e (List.mem_of_mem_eraseP he)
  · exact hplaced i old hold e he

theorem replicate (hash : Key → ℕ) (n : ℕ) :
    Placed hash (List.replicate n ([] : List (Key × Value))) := by
  intro i bucket hbucket e he
  rw [List.getElem?_replicate] at hbucket
  split_ifs at hbucket
  rw [← Option.some.inj hbucket] at he
  exact absurd he List.not_mem_nil

/-- The entries pushed one after the other are the entries of the table. -/
theorem foldl_push (hplaced : Placed hash buckets) (hbuckets : 0 < buckets.length)
    (entries : List (Key × Value)) :
    Placed hash (entries.foldl (HashTable.push hash) buckets) ∧
      (entries.foldl (HashTable.push hash) buckets).flatten.Perm
        (entries ++ buckets.flatten) := by
  induction entries generalizing buckets with
  | nil => exact ⟨hplaced, List.Perm.refl _⟩
  | cons entry rest ih =>
      obtain ⟨hrest, hperm⟩ := ih (hplaced.push entry) (by rwa [length_push])
      refine ⟨hrest, hperm.trans ?_⟩
      exact ((push_perm hbuckets entry).append_left rest).trans List.perm_middle

end Placed

theorem entries_eq_nil (hsize : t.size = 0) : t.entries = [] := by
  rw [entries, List.eq_nil_of_length_eq_zero hsize]
  rfl

namespace Valid

theorem empty : (empty : HashTable Key Value).Valid hash where
  placed i bucket hbucket := by simp [HashTable.empty] at hbucket
  nodup := List.nodup_nil
  used_eq := rfl

theorem expand (h : t.Valid hash) {size : ℕ} (hsize : t.used ≤ size) :
    ∃ t', t.expand hash size = some t' ∧ t'.Valid hash ∧ 0 < t'.size ∧
      t'.entries.Perm t.entries := by
  have hnew : 0 < (List.replicate (nextPower size) ([] : List (Key × Value))).length := by
    rw [List.length_replicate]
    exact nextPower_pos size
  obtain ⟨hplaced, hperm⟩ := (Placed.replicate hash _).foldl_push hnew t.entries
  rw [List.flatten_replicate_nil, List.append_nil] at hperm
  refine ⟨_, if_neg (Nat.not_lt.mpr hsize), ⟨hplaced, ?_, ?_⟩, ?_, hperm⟩
  · exact (hperm.map Prod.fst).nodup_iff.mpr h.nodup
  · exact h.used_eq.trans hperm.length_eq.symm
  · rw [HashTable.size, length_foldl_push]
    exact hnew

theorem expandIfNeeded (h : t.Valid hash) :
    ∃ t', t.expandIfNeeded hash = some t' ∧ t'.Valid hash ∧ 0 < t'.size ∧
      t'.entries.Perm t.entries := by
  unfold HashTable.expandIfNeeded
  split_ifs with hzero hfull
  · refine h.expand ?_
    rw [h.used_eq, entries_eq_nil hzero]
    exact Nat.zero_le _
  · exact h.expand (by omega)
  · exact ⟨t, rfl, h, Nat.pos_of_ne_zero hzero, List.Perm.refl _⟩

/-- The bucket of a key holds the entry of the key, if there is one. -/
theorem mem_bucket_iff (h : t.Valid hash) :
    (key, value) ∈ t.bucket hash key ↔ (key, value) ∈ t.entries := by
  rw [bucket, entries, List.mem_flatten]
  constructor
  · intro hmem
    cases hbucket : t.buckets[slot hash t.size key]? with
    | none => simp [List.getD, hbucket] at hmem
    | some bucket =>
        refine ⟨bucket, List.mem_of_getElem? hbucket, ?_⟩
        simpa [List.getD, hbucket] using hmem
  · rintro ⟨bucket, hbucket, hmem⟩
    obtain ⟨i, hi⟩ := List.getElem?_of_mem hbucket
    have hslot := h.placed i bucket hi _ hmem
    rw [List.getD, show slot hash t.size key = i from hslot, hi]
    exact hmem

theorem entry_unique (h : t.Valid hash) {other : Value} (hvalue : (key, value) ∈ t.entries)
    (hother : (key, other) ∈ t.entries) : value = other :=
  (Prod.mk.inj (List.inj_on_of_nodup_map h.nodup hvalue hother rfl)).2

variable [DecidableEq Key]

theorem find_eq_some_iff (h : t.Valid hash) :
    t.find hash key = some value ↔ (key, value) ∈ t.entries := by
  by_cases hsize : t.size = 0
  · simp [find, hsize, entries_eq_nil hsize]
  rw [find, if_neg hsize]
  constructor
  · intro hfind
    obtain ⟨⟨k, v⟩, hentry, rfl⟩ := Option.map_eq_some_iff.mp hfind
    obtain rfl : k = key := by simpa [hasKey] using List.find?_some hentry
    exact h.mem_bucket_iff.mp (List.mem_of_find?_eq_some hentry)
  · intro hmem
    cases hentry : (t.bucket hash key).find? (hasKey key) with
    | none =>
        have := List.find?_eq_none.mp hentry _ (h.mem_bucket_iff.mpr hmem)
        simp [hasKey] at this
    | some entry =>
        obtain ⟨k, v⟩ := entry
        obtain rfl : k = key := by simpa [hasKey] using List.find?_some hentry
        have hv := h.mem_bucket_iff.mp (List.mem_of_find?_eq_some hentry)
        rw [Option.map_some, h.entry_unique hmem hv]

theorem any_hasKey_iff (h : t.Valid hash) :
    (t.bucket hash key).any (hasKey key) = true ↔ ∃ value, (key, value) ∈ t.entries := by
  rw [List.any_eq_true]
  constructor
  · rintro ⟨⟨k, v⟩, hmem, hk⟩
    obtain rfl : k = key := by simpa [hasKey] using hk
    exact ⟨v, h.mem_bucket_iff.mp hmem⟩
  · rintro ⟨value, hmem⟩
    exact ⟨_, h.mem_bucket_iff.mpr hmem, by simp [hasKey]⟩

/-- Tables with the same entries find the same. -/
theorem find_congr (h : t.Valid hash) {t' : HashTable Key Value} (h' : t'.Valid hash)
    (hperm : t'.entries.Perm t.entries) : t'.find hash key = t.find hash key :=
  Option.ext fun _ => by rw [h'.find_eq_some_iff, h.find_eq_some_iff, hperm.mem_iff]

/-- An entry is added under a key that has none, and changes no other key. -/
theorem add (h : t.Valid hash) (key : Key) (value : Value) :
    (t.add hash key value).2.Valid hash ∧ ∀ other,
      (t.add hash key value).2.find hash other =
        if other = key then some ((t.find hash key).getD value) else t.find hash other := by
  obtain ⟨grown, hgrown, hvalid, hsize, hperm⟩ := h.expandIfNeeded
  have hfind (other : Key) : grown.find hash other = t.find hash other :=
    h.find_congr hvalid hperm
  unfold HashTable.add
  rw [hgrown]
  dsimp only
  split_ifs with hany
  · obtain ⟨old, hold⟩ := hvalid.any_hasKey_iff.mp hany
    refine ⟨hvalid, fun other => ?_⟩
    split_ifs with hother
    · rw [hother, ← hfind, hvalid.find_eq_some_iff.mpr hold]
      rfl
    · exact hfind other
  · have hnone (v : Value) : (key, v) ∉ grown.entries := fun hv =>
      hany (hvalid.any_hasKey_iff.mpr ⟨v, hv⟩)
    have hpush : (push hash grown.buckets (key, value)).flatten.Perm
        ((key, value) :: grown.entries) := push_perm hsize _
    have hadded : Valid hash ⟨push hash grown.buckets (key, value), grown.used + 1⟩ := by
      refine ⟨hvalid.placed.push _, ?_, ?_⟩
      · refine (hpush.map Prod.fst).nodup_iff.mpr (List.nodup_cons.mpr ⟨?_, hvalid.nodup⟩)
        rintro hkey
        obtain ⟨⟨k, v⟩, hmem, rfl⟩ := List.mem_map.mp hkey
        exact hnone v hmem
      · rw [hvalid.used_eq]
        exact hpush.length_eq.symm
    refine ⟨hadded, fun other => Option.ext fun v => ?_⟩
    rw [hadded.find_eq_some_iff, entries, hpush.mem_iff, List.mem_cons]
    have hgone : grown.find hash key = none :=
      Option.eq_none_iff_forall_ne_some.mpr fun v hv =>
        hnone v (hvalid.find_eq_some_iff.mp hv)
    split_ifs with hother
    · subst hother
      rw [← hfind, hgone]
      simp [hnone, eq_comm]
    · rw [← hfind, hvalid.find_eq_some_iff]
      simp [hother]

/-- Deleting a key removes its entry and no other one. -/
theorem delete (h : t.Valid hash) (key : Key) :
    (t.delete hash key).2.Valid hash ∧ ∀ other,
      (t.delete hash key).2.find hash other =
        if other = key then none else t.find hash other := by
  unfold HashTable.delete
  split_ifs with hsize hany
  · refine ⟨h, fun other => ?_⟩
    have hnone : t.find hash other = none := if_pos hsize
    rw [hnone, ite_self]
  · have hslot : slot hash t.size key < t.buckets.length :=
      slot_lt hash (Nat.pos_of_ne_zero hsize) key
    obtain ⟨others, hbefore, hafter⟩ := flatten_perm t.buckets hslot
    obtain ⟨e, he, hkey⟩ := List.any_eq_true.mp hany
    have hbucket : t.bucket hash key = t.buckets[slot hash t.size key] := by
      simp [bucket, List.getD, hslot]
    rw [hbucket] at he
    obtain ⟨⟨k, old⟩, before, after, -, hk, heq, herase⟩ := List.exists_of_eraseP he hkey
    obtain rfl : k = key := by simpa [hasKey] using hk
    have hperm : t.entries.Perm ((k, old) ::
        (t.buckets.modify (slot hash t.size k) (·.eraseP (hasKey k))).flatten) := by
      have hothers := hafter (·.eraseP (hasKey k))
      rw [herase] at hothers
      refine hbefore.trans ?_
      rw [heq, List.append_assoc, List.cons_append]
      refine List.perm_middle.trans (List.Perm.cons _ ?_)
      rw [← List.append_assoc]
      exact hothers.symm
    have hnodup := (hperm.map Prod.fst).nodup_iff.mp h.nodup
    obtain ⟨hfresh, hrest⟩ := List.nodup_cons.mp hnodup
    have hdeleted : Valid hash
        ⟨t.buckets.modify (slot hash t.size k) (·.eraseP (hasKey k)), t.used - 1⟩ := by
      refine ⟨h.placed.erase _ k, hrest, ?_⟩
      rw [h.used_eq, hperm.length_eq]
      rfl
    refine ⟨hdeleted, fun other => Option.ext fun v => ?_⟩
    rw [hdeleted.find_eq_some_iff]
    split_ifs with hother
    · subst hother
      refine iff_of_false (fun hmem => hfresh (List.mem_map.mpr ⟨_, hmem, rfl⟩)) (by simp)
    · rw [h.find_eq_some_iff, hperm.mem_iff, List.mem_cons]
      simp [entries, hother]
  · refine ⟨h, fun other => ?_⟩
    split_ifs with hother
    · rw [hother]
      refine Option.eq_none_iff_forall_ne_some.mpr fun v hv => hany ?_
      exact h.any_hasKey_iff.mpr ⟨v, h.find_eq_some_iff.mp hv⟩
    · rfl

end Valid

end HashTable

end AdaptiveSignal.Foundation
