import AdaptiveSignal.Emergency.TableFile
import Mathlib.Data.List.DropRight

/-! # Trimming a string in place

Two pointers move towards each other over a string, and what is left between them is moved
to its start. The memory is a list of cells; an access outside of them has no result.
-/

namespace AdaptiveSignal.Configuration

open Foundation
open Signal (trimSpace)

/-- The terminating zero. -/
def terminator : Char := Char.ofNat 0

/-- `*p`. -/
def load (cells : List Char) (p : ℤ) : Option Char :=
  if 0 ≤ p then cells[p.toNat]? else none

/-- `*p = c`. -/
def store (cells : List Char) (p : ℤ) (c : Char) : Option (List Char) :=
  if 0 ≤ p ∧ p < cells.length then some (cells.set p.toNat c) else none

def memmove (cells : List Char) (dst src len : ℤ) : Option (List Char) :=
  if 0 ≤ len ∧ 0 ≤ dst ∧ 0 ≤ src ∧ src + len ≤ cells.length ∧ dst + len ≤ cells.length then
    some (cells.take dst.toNat ++ (cells.drop src.toNat).take len.toNat ++
      cells.drop (dst + len).toNat)
  else none

/-- Forward from a pointer over the cells with a property, as far as the fuel lasts. -/
def forward (cells : List Char) (skips : Char → Bool) : ℕ → ℤ → Option ℤ
  | 0, _ => none
  | fuel + 1, p => do
      let c ← load cells p
      if skips c then forward cells skips fuel (p + 1) else some p

/-- `while (end > start && isspace(*end)) end--`. -/
def backward (cells : List Char) (start : ℤ) : ℕ → ℤ → Option ℤ
  | 0, _ => none
  | fuel + 1, p =>
      if start < p then do
        let c ← load cells p
        if isSpace c then backward cells start fuel (p - 1) else some p
      else some p

/-- `strlen` of the string at the first cell. -/
def strlen (cells : List Char) : Option ℤ := forward cells (· ≠ terminator) (cells.length + 1) 0

/-- `trim_space` of the string at the first cell: the length it copies, and the cells
after it. No walk is longer than the cells. -/
def trimSpaceCells (cells : List Char) : Option (ℤ × List Char) := do
  let length ← strlen cells
  let start ← forward cells isSpace (cells.length + 1) 0
  let last ← backward cells start (cells.length + 1) (length - 1)
  let cells ← store cells (last + 1) terminator
  let cells ← memmove cells 0 start (last - start + 2)
  return (last - start + 2, cells)

/-- The string at the first cell. -/
def stringIn (cells : List Char) : List Char := cells.takeWhile (· ≠ terminator)

/-- What a string is without the white space around it. -/
structure Strips (s t : List Char) : Prop where
  around : ∃ before after, s = before ++ t ++ after ∧
    (∀ c ∈ before, isSpace c = true) ∧ ∀ c ∈ after, isSpace c = true
  first : ∀ c ∈ t.head?, isSpace c = false
  last : ∀ c ∈ t.getLast?, isSpace c = false

/-! ## The walks -/

theorem load_append (front : List Char) (c : Char) (rest : List Char) :
    load (front ++ c :: rest) front.length = some c := by
  simp [load]

theorem forward_eq {skips : Char → Bool} {c : Char} (hc : skips c = false) (rest : List Char)
    {front passed : List Char} (hpassed : ∀ d ∈ passed, skips d = true) {fuel : ℕ}
    (hfuel : passed.length < fuel) :
    forward (front ++ passed ++ c :: rest) skips fuel front.length =
      some (front.length + passed.length : ℤ) := by
  induction passed generalizing front fuel with
  | nil =>
      obtain ⟨fuel, rfl⟩ := Nat.exists_eq_succ_of_ne_zero (Nat.ne_zero_of_lt hfuel)
      rw [forward, List.append_nil, load_append]
      simp [hc]
  | cons d passed ih =>
      obtain ⟨fuel, rfl⟩ := Nat.exists_eq_succ_of_ne_zero (Nat.ne_zero_of_lt hfuel)
      have hnext := @ih (front ++ [d]) (fun e he => hpassed e (List.mem_cons_of_mem d he)) fuel
        (Nat.lt_of_succ_lt_succ hfuel)
      have hsplit : front ++ [d] ++ passed ++ c :: rest = front ++ d :: passed ++ c :: rest := by
        simp
      rw [hsplit, List.length_append, List.length_singleton, Nat.cast_add, Nat.cast_one] at hnext
      rw [forward, show front ++ d :: passed ++ c :: rest = front ++ d :: (passed ++ c :: rest) by
        simp, load_append]
      simp only [Option.bind_eq_bind, Option.bind_some, hpassed d List.mem_cons_self, if_true]
      rw [← List.cons_append, ← List.append_assoc, hnext, List.length_cons]
      congr 1
      omega

/-- Backward over white space to a character that is none. -/
theorem backward_eq {x : Char} (hx : isSpace x = false) (rest : List Char)
    {front passed : List Char} (hpassed : ∀ d ∈ passed, isSpace d = true) {start : ℤ}
    (hstart : start ≤ front.length) {fuel : ℕ} (hfuel : passed.length < fuel) :
    backward (front ++ x :: passed ++ rest) start fuel (front.length + passed.length) =
      some (front.length : ℤ) := by
  induction passed using List.reverseRecOn generalizing rest fuel with
  | nil =>
      obtain ⟨fuel, rfl⟩ := Nat.exists_eq_succ_of_ne_zero (Nat.ne_zero_of_lt hfuel)
      have hload : load (front ++ [x] ++ rest) front.length = some x := by
        rw [List.append_assoc]
        exact load_append front x rest
      rw [backward, List.length_nil, Nat.cast_zero, Int.add_zero, hload]
      simp [hx]
  | append_singleton passed d ih =>
      obtain ⟨fuel, rfl⟩ := Nat.exists_eq_succ_of_ne_zero (Nat.ne_zero_of_lt hfuel)
      rw [List.length_append, List.length_singleton] at hfuel ⊢
      have hnext := @ih (d :: rest) (fun e he => hpassed e (List.mem_append_left _ he)) fuel
        (Nat.lt_of_succ_lt_succ hfuel)
      have hsplit : front ++ x :: (passed ++ [d]) ++ rest = front ++ x :: passed ++ d :: rest := by
        simp
      have hload := load_append (front ++ x :: passed) d rest
      rw [List.length_append, List.length_cons] at hload
      rw [backward, if_pos (by omega), hsplit]
      push_cast at hload ⊢
      rw [hload]
      simp only [Option.bind_eq_bind, Option.bind_some, hpassed d (by simp), if_true]
      rw [← hnext]
      congr 1
      omega

/-! ## The string -/

variable {s t before after rest : List Char}

theorem strlen_eq (hs : terminator ∉ s) (rest : List Char) :
    strlen (s ++ terminator :: rest) = some (s.length : ℤ) := by
  have hpassed : ∀ d ∈ s, decide (d ≠ terminator) = true := fun d hd =>
    decide_eq_true (ne_of_mem_of_not_mem hd hs)
  have hwalk := @forward_eq (· ≠ terminator) terminator (by simp) rest [] s hpassed
    ((s ++ terminator :: rest).length + 1) (by simp)
  simpa [strlen] using hwalk

/-- A string as its white space and what is between; a blank one has it all in front. -/
structure Parts (s before t after : List Char) : Prop where
  split : s = before ++ t ++ after
  spaceBefore : ∀ c ∈ before, isSpace c = true
  spaceAfter : ∀ c ∈ after, isSpace c = true
  first : ∀ c ∈ t.head?, isSpace c = false
  last : ∀ c ∈ t.getLast?, isSpace c = false
  blank : t = [] → after = []

namespace Parts

/-- The first pointer stops behind the white space in front. -/
theorem start_eq (h : Parts s before t after) (rest : List Char) {fuel : ℕ}
    (hfuel : before.length < fuel) :
    forward (s ++ terminator :: rest) isSpace fuel 0 = some (before.length : ℤ) := by
  have hnul : isSpace terminator = false := by decide
  have hwalk {c : Char} {more : List Char} (hc : isSpace c = false)
      (hmore : t ++ after ++ terminator :: rest = c :: more) :
      forward (s ++ terminator :: rest) isSpace fuel 0 = some (before.length : ℤ) := by
    have hforward := @forward_eq isSpace c hc more [] before h.spaceBefore fuel hfuel
    rw [List.nil_append, ← hmore] at hforward
    rw [h.split]
    simpa using hforward
  cases t with
  | nil => exact hwalk hnul (by rw [h.blank rfl]; rfl)
  | cons c t => exact hwalk (h.first c rfl) rfl

/-- The second pointer stops at the last character that is left, or before the first
pointer. -/
theorem last_eq (h : Parts s before t after) (rest : List Char) {fuel : ℕ}
    (hfuel : after.length < fuel) :
    backward (s ++ terminator :: rest) before.length fuel (s.length - 1) =
      some (before.length + t.length - 1 : ℤ) := by
  have hlength := congrArg List.length h.split
  simp only [List.length_append] at hlength
  rcases List.eq_nil_or_concat' t with rfl | ⟨body, x, rfl⟩
  · rw [h.blank rfl] at hlength hfuel
    obtain ⟨fuel, rfl⟩ := Nat.exists_eq_succ_of_ne_zero (Nat.ne_zero_of_lt hfuel)
    simp only [List.length_nil, Nat.add_zero] at hlength
    rw [backward, hlength, if_neg (by omega)]
    simp
  · have hx : isSpace x = false := h.last x (by simp)
    have hbackward := @backward_eq x hx (terminator :: rest) (before ++ body) after h.spaceAfter
      before.length (by simp) fuel hfuel
    have hcells : before ++ body ++ x :: after ++ terminator :: rest = s ++ terminator :: rest := by
      rw [h.split]
      simp
    rw [hcells] at hbackward
    simp only [List.length_append, List.length_singleton] at hlength hbackward ⊢
    push_cast at hbackward ⊢
    rw [show (s.length : ℤ) - 1 = before.length + body.length + after.length by omega, hbackward]
    congr 1
    omega

/-- What is left is moved to the first cell, with a zero behind it. -/
theorem trimSpaceCells_eq (h : Parts s before t after) (hs : terminator ∉ s) (rest : List Char) :
    trimSpaceCells (s ++ terminator :: rest) =
      some ((t.length + 1 : ℤ), t ++ terminator ::
        ((s ++ terminator :: rest).set (before.length + t.length) terminator).drop
          (t.length + 1)) := by
  have hlength := congrArg List.length h.split
  have hcells : (s ++ terminator :: rest).length = s.length + rest.length + 1 := by
    simp [Nat.add_assoc]
  simp only [List.length_append] at hlength
  have hlast : (before.length + t.length - 1 + 1 : ℤ) = ((before.length + t.length : ℕ) : ℤ) := by
    omega
  have hlen : (before.length + t.length - 1 - before.length + 2 : ℤ) =
      ((t.length + 1 : ℕ) : ℤ) := by omega
  -- the cells with the zero in place, from the first character that is left on
  have hmoved : (((s ++ terminator :: rest).set (before.length + t.length) terminator).drop
      before.length).take (t.length + 1) = t ++ [terminator] := by
    obtain ⟨c, more, hmore⟩ := List.exists_cons_of_ne_nil
      (List.append_ne_nil_of_right_ne_nil after (List.cons_ne_nil terminator rest))
    rw [h.split, List.append_assoc, List.append_assoc, hmore, List.set_append_right _ _ (by omega),
      List.drop_left, Nat.add_sub_cancel_left, List.set_append_right _ _ le_rfl, Nat.sub_self,
      List.set_cons_zero, List.append_cons t terminator more, List.take_left' (by simp)]
  rw [trimSpaceCells, strlen_eq hs, h.start_eq rest (by omega)]
  simp only [Option.bind_eq_bind, Option.bind_some]
  rw [h.last_eq rest (by omega)]
  simp only [Option.bind_some]
  rw [hlast, store, if_pos (by omega)]
  simp only [Option.bind_some]
  rw [hlen, memmove, List.length_set, if_pos (by omega)]
  simp only [Option.bind_some, Int.toNat_natCast, hmoved, Int.zero_add, Int.toNat_zero,
    List.take_zero, List.nil_append]
  simp

theorem strips (h : Parts s before t after) : Strips s t :=
  ⟨⟨before, after, h.split, h.spaceBefore, h.spaceAfter⟩, h.first, h.last⟩

end Parts

/-! ## What is left of a string -/

theorem head_dropWhile_isSpace (s : List Char) :
    ∀ c ∈ (s.dropWhile isSpace).head?, isSpace c = false := by
  intro c hc
  have hhead := List.head?_dropWhile_not isSpace s
  rw [Option.mem_def.mp hc] at hhead
  exact hhead

theorem exists_parts (s : List Char) : ∃ before after, Parts s before (trimSpace s) after := by
  have hprefix := List.rdropWhile_prefix isSpace (s.dropWhile isSpace)
  have hhead := head_dropWhile_isSpace s
  refine ⟨s.takeWhile isSpace, (s.dropWhile isSpace).rtakeWhile isSpace, ?_, ?_, ?_, ?_, ?_, ?_⟩
  · rw [List.append_assoc]
    change s = _ ++ ((s.dropWhile isSpace).rdropWhile isSpace ++ _)
    rw [List.rdropWhile_append_rtakeWhile, List.takeWhile_append_dropWhile]
  · exact fun c hc => List.mem_takeWhile_imp hc
  · exact fun c hc => List.mem_rtakeWhile_imp hc
  · intro c hc
    obtain ⟨more, hmore⟩ := hprefix
    refine hhead c ?_
    rw [← hmore]
    exact List.mem_head?_append_of_mem_head? hc
  · intro c hc
    exact head_dropWhile_isSpace _ c (by simpa [trimSpace] using hc)
  · intro hnil
    have hall := List.rdropWhile_eq_nil_iff.mp (show (s.dropWhile isSpace).rdropWhile isSpace = []
      from hnil)
    cases hrest : s.dropWhile isSpace with
    | nil => exact List.rtakeWhile_nil _
    | cons c rest =>
        rw [hrest] at hhead hall
        exact absurd (hall c List.mem_cons_self) (by simp [hhead c rfl])

/-- What is left of a string has nothing to trim. -/
theorem Parts.trimmed (h : Parts s before t after) : Parts t [] t [] where
  split := by simp
  spaceBefore c hc := absurd hc List.not_mem_nil
  spaceAfter c hc := absurd hc List.not_mem_nil
  first := h.first
  last := h.last
  blank _ := rfl

theorem Parts.trimSpaceCells_trimmed (h : Parts s before t after) (ht : terminator ∉ t)
    (rest : List Char) :
    trimSpaceCells (t ++ terminator :: rest) =
      some ((t.length + 1 : ℤ), t ++ terminator :: rest) := by
  rw [h.trimmed.trimSpaceCells_eq ht rest, List.length_nil, Nat.zero_add,
    List.set_append_right _ _ le_rfl, Nat.sub_self, List.set_cons_zero,
    List.append_cons t terminator rest,
    List.drop_left' (by simp), ← List.append_cons]

theorem stringIn_append (ht : terminator ∉ t) (rest : List Char) :
    stringIn (t ++ terminator :: rest) = t := by
  have htakes : ∀ c ∈ t, decide (c ≠ terminator) = true := fun c hc =>
    decide_eq_true (ne_of_mem_of_not_mem hc ht)
  rw [stringIn, List.takeWhile_append_of_pos htakes]
  simp

/-- In the cells of a string and its zero, which are the only ones accessed, the string
becomes what it is without the white space around it; at least one cell is copied, and doing
it again changes no cell. -/
theorem trimSpaceCells_strips (s : List Char) (hs : terminator ∉ s) :
    ∃ (len : ℤ) (cells : List Char), trimSpaceCells (s ++ [terminator]) = some (len, cells) ∧
      cells.length = s.length + 1 ∧ 1 ≤ len ∧ Strips s (stringIn cells) ∧
        ∃ len' : ℤ, 1 ≤ len' ∧ trimSpaceCells cells = some (len', cells) := by
  obtain ⟨before, after, h⟩ := exists_parts s
  have ht : terminator ∉ trimSpace s := by
    intro hmem
    refine hs ?_
    rw [h.split]
    exact List.mem_append_left _ (List.mem_append_right _ hmem)
  have hlength := congrArg List.length h.split
  simp only [List.length_append] at hlength
  refine ⟨_, _, h.trimSpaceCells_eq hs [], ?_, by omega, ?_, _, ?_,
    h.trimSpaceCells_trimmed ht _⟩
  · simp
    omega
  · rw [stringIn_append ht]
    exact h.strips
  · omega

/-- Also if nothing is left. -/
theorem trimSpaceCells_strips_blank :
    ∃ (len : ℤ) (cells : List Char),
      trimSpaceCells ([' ', '\t'] ++ [terminator]) = some (len, cells) ∧
        cells.length = [' ', '\t'].length + 1 ∧ 1 ≤ len ∧ Strips [' ', '\t'] (stringIn cells) ∧
        ∃ len' : ℤ, 1 ≤ len' ∧ trimSpaceCells cells = some (len', cells) :=
  trimSpaceCells_strips [' ', '\t'] (by decide)

end AdaptiveSignal.Configuration
