import Mathlib.Data.List.Nodup

/-! # Linked lists with distinct keys

A list that is searched by key before anything is appended holds every key at
most once, and keeps doing so while entries are updated in place or deleted.
The counts of entries change by the one entry an operation touches.
-/

namespace AdaptiveSignal.Foundation

/-- A linked list whose entries have pairwise different keys. -/
structure KeyedList (Entry Key : Type*) (key : Entry → Key) where
  entries : List Entry
  distinct : (entries.map key).Nodup

namespace KeyedList

variable {Entry Key : Type*} {key : Entry → Key}

def empty : KeyedList Entry Key key := ⟨[], List.nodup_nil⟩

def isEmpty (l : KeyedList Entry Key key) : Bool := l.entries.isEmpty

/-- The number of entries with a property. -/
def count (l : KeyedList Entry Key key) (p : Entry → Bool) : ℕ := l.entries.countP p

theorem count_of_isEmpty {l : KeyedList Entry Key key} (hempty : l.isEmpty = true)
    (p : Entry → Bool) : l.count p = 0 := by
  have hnil : l.entries = [] := List.isEmpty_iff.mp hempty
  rw [count, hnil, List.countP_nil]

variable [DecidableEq Key]

/-- The first entry with the key. -/
def search (l : KeyedList Entry Key key) (k : Key) : Option Entry :=
  l.entries.find? fun e => key e = k

theorem search_eq_some {l : KeyedList Entry Key key} {k : Key} {e : Entry}
    (hsearch : l.search k = some e) : key e = k := by
  simpa using List.find?_some hsearch

theorem search_eq_none {l : KeyedList Entry Key key} {k : Key} :
    l.search k = none ↔ k ∉ l.entries.map key := by
  simp [search]

/-- Change the entry with the key in place. -/
def update (l : KeyedList Entry Key key) (k : Key) (f : Entry → Entry)
    (hkey : ∀ e, key (f e) = key e) : KeyedList Entry Key key where
  entries := l.entries.map fun e => if key e = k then f e else e
  distinct := by
    have hkeys : key ∘ (fun e => if key e = k then f e else e) = key := by
      funext e
      simp only [Function.comp_apply]
      split_ifs
      · exact hkey e
      · rfl
    rw [List.map_map, hkeys]
    exact l.distinct

/-- Remove the first entry with the key. -/
def delete (l : KeyedList Entry Key key) (k : Key) : KeyedList Entry Key key where
  entries := l.entries.eraseP fun e => key e = k
  distinct := (List.eraseP_sublist.map key).nodup l.distinct

/-- Add an entry with a new key behind the last one. -/
def append (l : KeyedList Entry Key key) (e : Entry) (hfresh : l.search (key e) = none) :
    KeyedList Entry Key key where
  entries := l.entries ++ [e]
  distinct := by
    rw [List.map_append]
    refine List.nodup_append.mpr ⟨l.distinct, List.nodup_singleton _, ?_⟩
    rintro k hmem _ hlast rfl
    rw [List.map_singleton, List.mem_singleton] at hlast
    exact search_eq_none.mp hfresh (hlast ▸ hmem)

/-- Update the entry with the key of `new`, or append `new`, updated as well. -/
def insert (l : KeyedList Entry Key key) (new : Entry) (f : Entry → Entry)
    (hkey : ∀ e, key (f e) = key e) : KeyedList Entry Key key :=
  match hsearch : l.search (key new) with
  | some _ => l.update (key new) f hkey
  | none => l.append (f new) (by rw [hkey, hsearch])

section Operations

variable {l : KeyedList Entry Key key} {k : Key} {e new : Entry} {f : Entry → Entry}
variable {hkey : ∀ e, key (f e) = key e}

/-- The one entry with a key splits the list. -/
theorem exists_split (hsearch : l.search k = some e) :
    ∃ before after, l.entries = before ++ e :: after ∧ key e = k ∧
      (∀ a ∈ before, key a ≠ k) ∧ ∀ a ∈ after, key a ≠ k := by
  obtain ⟨hk, before, after, hsplit, hbefore⟩ := List.find?_eq_some_iff_append.mp hsearch
  have hk : key e = k := by simpa using hk
  refine ⟨before, after, hsplit, hk, fun a ha => by simpa using hbefore a ha, ?_⟩
  intro a ha hak
  -- a second entry with the key would repeat it in the list of keys
  have hdistinct := l.distinct
  rw [hsplit, List.map_append, List.map_cons] at hdistinct
  have htail := (List.nodup_append.mp hdistinct).2.1
  exact (List.nodup_cons.mp htail).1 (List.mem_map.mpr ⟨a, ha, hak.trans hk.symm⟩)

theorem search_of_mem (he : e ∈ l.entries) : l.search (key e) = some e := by
  cases hsearch : l.search (key e) with
  | none => exact absurd (List.mem_map_of_mem he) (search_eq_none.mp hsearch)
  | some found =>
      obtain ⟨before, after, hsplit, -, hbefore, hafter⟩ := exists_split hsearch
      rw [hsplit] at he
      rcases List.mem_append.mp he with he | he
      · exact absurd rfl (hbefore e he)
      · rcases List.mem_cons.mp he with rfl | he
        · rfl
        · exact absurd rfl (hafter e he)

theorem map_of_other {entries : List Entry} (hother : ∀ a ∈ entries, key a ≠ k) :
    (entries.map fun a => if key a = k then f a else a) = entries := by
  calc
    _ = entries.map id := List.map_congr_left fun a ha => if_neg (hother a ha)
    _ = entries := List.map_id entries

theorem count_update (hkey : ∀ e, key (f e) = key e) (hsearch : l.search k = some e)
    (p : Entry → Bool) :
    (l.update k f hkey).count p + (p e).toNat = l.count p + (p (f e)).toNat := by
  obtain ⟨before, after, hsplit, hk, hbefore, hafter⟩ := exists_split hsearch
  simp only [count, update, hsplit, List.map_append, List.map_cons, if_pos hk,
    map_of_other hbefore, map_of_other hafter, List.countP_append, List.countP_cons]
  cases p e <;> cases p (f e) <;> simp <;> omega

theorem update_of_absent (hkey : ∀ e, key (f e) = key e) (hsearch : l.search k = none) :
    l.update k f hkey = l := by
  obtain ⟨entries, hdistinct⟩ := l
  have hother : ∀ a ∈ entries, key a ≠ k := by simpa [search] using hsearch
  simp only [update, map_of_other hother]

/-- A deletion takes out the one entry with the key. -/
theorem exists_delete (hsearch : l.search k = some e) :
    ∃ before after, l.entries = before ++ e :: after ∧ (l.delete k).entries = before ++ after ∧
      ∀ a ∈ before ++ after, key a ≠ k := by
  obtain ⟨before, after, hsplit, hk, hbefore, hafter⟩ := exists_split hsearch
  have hskip : ∀ a ∈ before, ¬ decide (key a = k) = true := by simpa using hbefore
  refine ⟨before, after, hsplit, ?_, fun a ha => ?_⟩
  · change l.entries.eraseP _ = before ++ after
    rw [hsplit, List.eraseP_append_right _ hskip,
      List.eraseP_cons_of_pos (p := fun b => decide (key b = k)) (decide_eq_true hk)]
  · exact (List.mem_append.mp ha).elim (hbefore a) (hafter a)

theorem count_delete (hsearch : l.search k = some e) (p : Entry → Bool) :
    (l.delete k).count p + (p e).toNat = l.count p := by
  obtain ⟨before, after, hsplit, herased, -⟩ := exists_delete hsearch
  simp only [count, herased, hsplit, List.countP_append, List.countP_cons]
  cases p e <;> simp
  omega

theorem delete_of_absent (hsearch : l.search k = none) : l.delete k = l := by
  obtain ⟨entries, hdistinct⟩ := l
  have hother : ∀ a ∈ entries, ¬ decide (key a = k) = true := by simpa [search] using hsearch
  simp only [delete, List.eraseP_of_forall_not hother]

theorem count_append (hfresh : l.search (key e) = none) (p : Entry → Bool) :
    (l.append e hfresh).count p = l.count p + (p e).toNat := by
  simp only [count, append, List.countP_append, List.countP_singleton]
  cases p e <;> rfl

theorem insert_of_listed (hsearch : l.search (key new) = some e) :
    l.insert new f hkey = l.update (key new) f hkey := by
  unfold insert
  split
  · rfl
  · simp_all

theorem insert_of_absent (hsearch : l.search (key new) = none) :
    l.insert new f hkey = l.append (f new) (by rw [hkey, hsearch]) := by
  unfold insert
  split
  · simp_all
  · rfl

theorem search_update (hkey : ∀ e, key (f e) = key e) (k' : Key) :
    (l.update k f hkey).search k' = if k' = k then (l.search k').map f else l.search k' := by
  have hfind (entries : List Entry) :
      (entries.map fun e => if key e = k then f e else e).find? (fun e => key e = k') =
        if k' = k then (entries.find? fun e => key e = k').map f
        else entries.find? fun e => key e = k' := by
    induction entries with
    | nil => simp
    | cons first rest ih =>
        rw [List.map_cons, List.find?_cons, List.find?_cons, ih]
        by_cases hfirst : key first = k
        · by_cases hk : k' = k
          · simp [hfirst, hk, hkey]
          · simp [hfirst, hk, hkey, Ne.symm hk]
        · by_cases hk : key first = k'
          · simp [hfirst, ← hk]
          · simp [hfirst, hk]
  exact hfind l.entries

theorem search_delete_self (l : KeyedList Entry Key key) (k : Key) :
    (l.delete k).search k = none := by
  cases hsearch : l.search k with
  | none => rw [delete_of_absent hsearch, hsearch]
  | some e =>
      obtain ⟨before, after, -, herased, hother⟩ := exists_delete hsearch
      rw [search, herased]
      simpa only [List.find?_eq_none, decide_eq_true_eq] using hother

theorem search_delete_of_ne {k' : Key} (hne : k' ≠ k) : (l.delete k).search k' = l.search k' := by
  have hfind (entries : List Entry) :
      (entries.eraseP fun e => key e = k).find? (fun e => key e = k') =
        entries.find? fun e => key e = k' := by
    induction entries with
    | nil => rfl
    | cons first rest ih =>
        by_cases hfirst : key first = k
        · have hk : key first ≠ k' := fun heq => hne (heq.symm.trans hfirst)
          rw [List.eraseP_cons_of_pos (p := fun e => decide (key e = k)) (decide_eq_true hfirst),
            List.find?_cons_of_neg (by simpa using hk)]
        · rw [List.eraseP_cons_of_neg (p := fun e => decide (key e = k)) (by simpa using hfirst),
            List.find?_cons, List.find?_cons, ih]
  exact hfind l.entries

/-- A new entry may be brought up to date where it stands. -/
theorem insert_entries_of_absent (hsearch : l.search (key new) = none) :
    (l.insert new f hkey).entries = ((l.append new hsearch).update (key new) f hkey).entries := by
  have hother : ∀ a ∈ l.entries, key a ≠ key new := by simpa [search] using hsearch
  rw [insert_of_absent hsearch]
  simp only [append, update, List.map_append, map_of_other hother, List.map_singleton, if_true]

theorem search_append (hfresh : l.search (key e) = none) (k' : Key) :
    (l.append e hfresh).search k' = if k' = key e then some e else l.search k' := by
  rw [append, search, List.find?_append]
  by_cases hk : k' = key e
  · have hnone : l.entries.find? (fun a => key a = k') = none := hk ▸ hfresh
    rw [hnone, if_pos hk]
    simp [hk]
  · rw [if_neg hk]
    simp [search, Ne.symm hk]

theorem search_insert (k' : Key) :
    (l.insert new f hkey).search k' =
      if k' = key new then some (f ((l.search k').getD new)) else l.search k' := by
  cases hsearch : l.search (key new) with
  | some e =>
      rw [insert_of_listed hsearch, search_update]
      split_ifs with hk
      · rw [hk, hsearch]
        rfl
      · rfl
  | none =>
      rw [insert_of_absent hsearch, search_append, hkey]
      split_ifs with hk
      · rw [hk, hsearch]
        rfl
      · rfl

theorem count_insert_of_listed (hsearch : l.search (key new) = some e) (p : Entry → Bool) :
    (l.insert new f hkey).count p + (p e).toNat = l.count p + (p (f e)).toNat := by
  rw [insert_of_listed hsearch, count_update hkey hsearch]

theorem count_insert_of_absent (hsearch : l.search (key new) = none) (p : Entry → Bool) :
    (l.insert new f hkey).count p = l.count p + (p (f new)).toNat := by
  rw [insert_of_absent hsearch, count_append]

end Operations

end KeyedList

end AdaptiveSignal.Foundation
