import AdaptiveSignal.Configuration.Values

/-! # The line of the weights

The line has eight numbers and can be longer than the buffer it is read into. What does
not fit is read as a line of its own: the last weight loses digits, or is missing.
-/

namespace AdaptiveSignal.Configuration

open Foundation

variable {single : SingleFormat} {double : DoubleFormat}

/-! ## The numbers of the line -/

/-- The numbers that are printed. -/
def amounts (weight : Fin phaseCountMaxNum → Amount single) : List ℕ :=
  (List.finRange phaseCountMaxNum).map fun i => scaled 0 (single.toRat (weight i).1)

theorem length_amounts (weight : Fin phaseCountMaxNum → Amount single) :
    (amounts weight).length = phaseCountMaxNum := by
  simp [amounts]

theorem getD_amounts (weight : Fin phaseCountMaxNum → Amount single) (i : Fin phaseCountMaxNum) :
    (amounts weight).getD i 0 = scaled 0 (single.toRat (weight i).1) := by
  simp [amounts]

theorem cons_flatten_intersperse {words : List (List Char)} (hne : words ≠ []) :
    ' ' :: (words.intersperse [' ']).flatten = words.flatMap fun word => ' ' :: word := by
  induction words with
  | nil => exact absurd rfl hne
  | cons word words ih =>
      cases words with
      | nil => simp
      | cons next words =>
          rw [List.intersperse_cons_cons, List.flatten_cons, List.flatten_cons, List.flatMap_cons,
            ← ih (List.cons_ne_nil _ _)]
          simp

theorem cons_formatWeights (weight : Fin phaseCountMaxNum → Amount single) :
    ' ' :: formatWeights weight = spaced (amounts weight) := by
  have hformat : ∀ i, (weight i).format = decimal (scaled 0 (single.toRat (weight i).1)) :=
    fun i => formatFixed_zero (weight i).2
  rw [formatWeights, cons_flatten_intersperse (by simp), spaced, amounts]
  simp only [hformat, List.flatMap_map]

/-- A whole amount is printed as it is. -/
theorem scaled_whole {x : Amount single} (hx : ∃ n : ℤ, single.toRat x.1 = n) :
    ((scaled 0 (single.toRat x.1) : ℕ) : ℚ) = single.toRat x.1 := by
  obtain ⟨n, hn⟩ := hx
  rw [← roundTo_zero x.2, hn, roundTo_zero_intCast]

/-! ## What is stored -/

/-- What the numbers that fit in the buffer are read as. -/
def Stored (weight weight' : Fin phaseCountMaxNum → Amount single) : Prop :=
  ∃ qs, scanDecimals phaseCountMaxNum (' ' :: (formatWeights weight).take 242) = some qs ∧
    ∀ i, (weight' i).1 = single.nearest (qs.getD i 0)

theorem scanDecimals_formatWeights (weight : Fin phaseCountMaxNum → Amount single)
    {rest : List Char} (hrest : Ends rest) :
    scanDecimals phaseCountMaxNum (' ' :: (formatWeights weight ++ rest)) =
      some ((amounts weight).map fun n : ℕ => (n : ℚ)) := by
  rw [← List.cons_append, cons_formatWeights, ← length_amounts weight]
  exact scanDecimals_spaced (amounts weight) hrest

theorem stored_self (weight : Fin phaseCountMaxNum → Amount single) :
    Stored weight weight ↔
      (∀ i, ∃ n : ℤ, single.toRat (weight i).1 = n) ∧ (formatWeights weight).length ≤ 242 := by
  have hall := scanDecimals_formatWeights weight ends_nil
  rw [List.append_nil] at hall
  have hget : ∀ i : Fin phaseCountMaxNum,
      ((amounts weight).map fun n : ℕ => (n : ℚ)).getD i 0 =
        ((scaled 0 (single.toRat (weight i).1) : ℕ) : ℚ) := by
    intro i
    simp [amounts]
  constructor
  · rintro ⟨qs, hscan, hweight⟩
    by_cases hlength : (formatWeights weight).length ≤ 242
    · rw [List.take_of_length_le hlength, hall] at hscan
      cases hscan
      refine ⟨fun i => ?_, hlength⟩
      obtain ⟨m, hm⟩ := single.nearest_intCast (scaled 0 (single.toRat (weight i).1))
      refine ⟨m, ?_⟩
      rw [hweight i, hget i, ← hm]
      rfl
    · -- The last number was cut.
      exfalso
      have hcut : ' ' :: (formatWeights weight).take 242 <+: spaced (amounts weight) := by
        rw [← cons_formatWeights]
        exact List.cons_prefix_cons.mpr ⟨rfl, List.take_prefix _ _⟩
      have hproper : ' ' :: (formatWeights weight).take 242 ≠ spaced (amounts weight) := by
        intro heq
        have hlengths := congrArg List.length heq
        rw [← cons_formatWeights] at hlengths
        simp only [List.length_cons, List.length_take] at hlengths
        omega
      rw [← length_amounts weight] at hscan
      obtain ⟨before, d, n, hamounts, hn, hle, rfl⟩ := scanDecimals_cut hcut hproper hscan
      have hbefore : before.length = 7 := by
        have hlengths := congrArg List.length hamounts
        rw [length_amounts, List.length_append] at hlengths
        exact Nat.succ.inj hlengths.symm
      have hgetD : ∀ {α : Type} (l : List α) (x y : α), l.length = 7 →
          (l ++ [x]).getD (7 : Fin phaseCountMaxNum) y = x := by
        intro α l x y hl
        have hseven : ((7 : Fin phaseCountMaxNum) : ℕ) = l.length := hl.symm
        rw [hseven, List.getD_eq_getElem?_getD, List.getElem?_concat_length, Option.getD_some]
      have hlast : single.toRat (weight 7).1 = single.toRat (single.nearest (d : ℚ)) := by
        rw [hweight 7, List.map_append, List.map_singleton,
          hgetD _ _ _ ((List.length_map _).trans hbefore)]
      have hprinted : scaled 0 (single.toRat (weight 7).1) = n := by
        rw [← getD_amounts weight 7, hamounts, hgetD _ _ _ hbefore]
      obtain ⟨m, hm⟩ := single.nearest_intCast d
      have hwhole := scaled_whole (x := weight 7) ⟨m, by rw [hlast]; exact_mod_cast hm⟩
      apply single.nearest_cut hn hle
      rw [← hlast, ← hwhole, hprinted]
  · rintro ⟨hwhole, hlength⟩
    refine ⟨_, by rw [List.take_of_length_le hlength, hall], fun i => ?_⟩
    rw [hget i, scaled_whole (hwhole i), single.nearest_toRat]

/-! ## The loop over the weights -/

theorem assignWeights_last (weights : Fin phaseCountMaxNum → single.Value)
    (slots : List (Fin phaseCountMaxNum)) (config : Config single double) :
    (assignWeights weights slots config).last = assignWeights weights slots config := by
  induction slots generalizing config with
  | nil => rfl
  | cons slot slots ih =>
      rw [assignWeights]
      split_ifs
      · exact ih _
      · rfl

theorem assignWeights_next (weights : Fin phaseCountMaxNum → single.Value)
    (slots : List (Fin phaseCountMaxNum)) (config config' : Config single double) :
    assignWeights weights slots config = .next config' ↔
      ∃ weight : Fin phaseCountMaxNum → Amount single,
        (∀ i ∈ slots, (weight i).1 = weights i) ∧
          (∀ i ∉ slots, weight i = config.phaseWeight i) ∧
            config' = { config with phaseWeight := weight } := by
  induction slots generalizing config with
  | nil =>
      rw [assignWeights, Outcome.next_eq_next]
      constructor
      · rintro rfl
        exact ⟨config'.phaseWeight, fun i hi => absurd hi List.not_mem_nil, fun i _ => rfl, rfl⟩
      · rintro ⟨weight, _, hsame, rfl⟩
        rw [show weight = config.phaseWeight from funext fun i => hsame i List.not_mem_nil]
  | cons slot slots ih =>
      rw [assignWeights]
      split_ifs with hslot
      · rw [ih]
        constructor
        · rintro ⟨weight, hread, hsame, rfl⟩
          replace hsame : ∀ i ∉ slots, weight i =
              Function.update config.phaseWeight slot ⟨weights slot, hslot⟩ i := hsame
          refine ⟨weight, ?_, ?_, rfl⟩
          · intro i hi
            by_cases hmem : i ∈ slots
            · exact hread i hmem
            · rw [hsame i hmem, (List.mem_cons.mp hi).resolve_right hmem, Function.update_self]
          · intro i hi
            obtain ⟨hne, hmem⟩ := not_or.mp (List.mem_cons.not.mp hi)
            rw [hsame i hmem, Function.update_of_ne hne]
        · rintro ⟨weight, hread, hsame, rfl⟩
          refine ⟨weight, fun i hi => hread i (List.mem_cons_of_mem _ hi), ?_, rfl⟩
          intro i hi
          change weight i = Function.update config.phaseWeight slot ⟨weights slot, hslot⟩ i
          by_cases heq : i = slot
          · subst heq
            rw [Function.update_self]
            exact Subtype.ext (hread i List.mem_cons_self)
          · rw [Function.update_of_ne heq]
            exact hsame i fun hmem => (List.mem_cons.mp hmem).elim heq hi
      · constructor
        · intro h
          cases h
        · rintro ⟨weight, hread, _, _⟩
          exact absurd (hread slot List.mem_cons_self ▸ (weight slot).2) hslot

theorem readKey_phaseWeight (value : List Char) (config config' : Config single double) :
    (readKey .phaseWeight (Key.phaseWeight.name.toList ++ ' ' :: value) config).last =
        .next config' ↔
      ∃ qs, scanDecimals phaseCountMaxNum (' ' :: value) = some qs ∧
        ∃ weight : Fin phaseCountMaxNum → Amount single,
          (∀ i, (weight i).1 = single.nearest (qs.getD i 0)) ∧
            config' = { config with phaseWeight := weight } := by
  have hread : readDecimals phaseCountMaxNum (Key.phaseWeight.name.toList ++ ' ' :: value) =
      scanDecimals phaseCountMaxNum (' ' :: value) := by
    rw [readDecimals, scanWord_key]
    rfl
  rw [readKey, hread]
  cases hscan : scanDecimals phaseCountMaxNum (' ' :: value) with
  | none =>
      constructor
      · intro h
        cases h
      · rintro ⟨qs, hqs, _⟩
        cases hqs
  | some qs =>
      have hassign := assignWeights_next (fun i => single.nearest (qs.getD i 0))
        (List.finRange phaseCountMaxNum) config config'
      simp only [List.mem_finRange, forall_true_left, not_true_eq_false, false_implies,
        implies_true, true_and] at hassign
      rw [assignWeights_last, hassign]
      simp only [Option.some.injEq, exists_eq_left']

/-! ## The line in the buffer -/

theorem formatWeights_chars (weight : Fin phaseCountMaxNum → Amount single) :
    ∀ c ∈ formatWeights weight, c ≠ '\n' ∧ isUpper c = false := by
  intro c hc
  have hspaced : c ∈ spaced (amounts weight) := by
    rw [← cons_formatWeights]
    exact List.mem_cons_of_mem _ hc
  rcases spaced_chars hspaced with rfl | hnumeral
  · decide
  · refine ⟨?_, isUpper_of_isNumeral hnumeral⟩
    rintro rfl
    exact absurd hnumeral (by decide)

theorem length_format_le (x : Amount single) : x.format.length ≤ 42 := by
  have hbound : |single.toRat x.1| ≤ (10 ^ 39 : ℕ) := by
    push_cast
    exact (single.bounded x.1).le
  exact length_formatFixed_le (by decide : 0 < 40) hbound (by norm_num)

theorem length_formatWeights_le (weight : Fin phaseCountMaxNum → Amount single) :
    (formatWeights weight).length ≤ 343 := by
  have hdecimal : ∀ n ∈ amounts weight, (decimal n).length ≤ 42 := by
    intro n hn
    obtain ⟨i, _, rfl⟩ := List.mem_map.mp hn
    rw [← formatFixed_zero (weight i).2]
    exact length_format_le (weight i)
  have hlength := length_spaced_le hdecimal
  rw [length_amounts, ← cons_formatWeights, List.length_cons] at hlength
  change _ ≤ 8 * 43 at hlength
  omega

/-- The line of the weights, as it is read. -/
def weightsChunks (weight : Fin phaseCountMaxNum → Amount single) : List (List Char) :=
  if (formatWeights weight).length < 242 then [line "PHASE_WEIGHT" (formatWeights weight)]
  else
    ["PHASE_WEIGHT".toList ++ ' ' :: (formatWeights weight).take 242,
      (formatWeights weight).drop 242 ++ ['\n']]

theorem flatten_weightsChunks (weight : Fin phaseCountMaxNum → Amount single) :
    (weightsChunks weight).flatten = line "PHASE_WEIGHT" (formatWeights weight) := by
  unfold weightsChunks
  split_ifs
  · simp
  · simp [line, ← List.append_assoc]

theorem chunk_weightsChunks (weight : Fin phaseCountMaxNum → Amount single) :
    ∀ chunk ∈ weightsChunks weight, Chunk chunk := by
  have hchars := formatWeights_chars weight
  have hname : '\n' ∉ "PHASE_WEIGHT".toList := by decide
  have hlength := length_formatWeights_le weight
  intro chunk hchunk
  unfold weightsChunks at hchunk
  split_ifs at hchunk with hshort
  · rw [List.mem_singleton.mp hchunk]
    apply chunk_line
    · rw [List.length_append, List.length_cons]
      change 12 + _ < 255
      omega
    · simp only [List.mem_append, List.mem_cons, hname, false_or, not_or]
      exact ⟨by decide, fun hmem => (hchars _ hmem).1 rfl⟩
  · rcases List.mem_pair.mp hchunk with rfl | rfl
    · apply chunk_full
      · rw [List.length_append, List.length_cons, List.length_take]
        change 12 + _ = 255
        omega
      · simp only [List.mem_append, List.mem_cons, hname, false_or, not_or]
        exact ⟨by decide, fun hmem => (hchars _ (List.mem_of_mem_take hmem)).1 rfl⟩
    · apply chunk_line
      · rw [List.length_drop]
        change _ < 255
        omega
      · exact fun hmem => (hchars _ (List.mem_of_mem_drop hmem)).1 rfl

theorem reads_weights (weight : Fin phaseCountMaxNum → Amount single)
    (config config' : Config single double) :
    Reads (weightsChunks weight) config config' ↔
      ∃ weight', Stored weight weight' ∧ config' = { config with phaseWeight := weight' } := by
  have hupper := fun c hc => (formatWeights_chars weight c hc).2
  have hfirst : ∀ value, (∀ c ∈ value, isUpper c = false) →
      scanDecimals phaseCountMaxNum (' ' :: value) =
        scanDecimals phaseCountMaxNum (' ' :: (formatWeights weight).take 242) →
      (Reads [Key.phaseWeight.name.toList ++ ' ' :: value] config config' ↔
        ∃ weight', Stored weight weight' ∧ config' = { config with phaseWeight := weight' }) := by
    intro value hvalue hscan
    rw [reads_key _ hvalue, readKey_phaseWeight, hscan]
    constructor
    · rintro ⟨qs, hqs, weight', hread, rfl⟩
      exact ⟨weight', ⟨qs, hqs, hread⟩, rfl⟩
    · rintro ⟨weight', ⟨qs, hqs, hread⟩, rfl⟩
      exact ⟨qs, hqs, weight', hread, rfl⟩
  unfold weightsChunks
  split_ifs with hshort
  · rw [line_eq]
    apply hfirst _ (newline_not_upper hupper)
    have hall := scanDecimals_formatWeights weight ends_nil
    rw [List.append_nil] at hall
    rw [List.take_of_length_le hshort.le, scanDecimals_formatWeights weight ends_newline, hall]
  · have hrest : ∀ d, Reads [(formatWeights weight).drop 242 ++ ['\n']] d config' ↔
        config' = d := by
      intro d
      have hdrop : ∀ c ∈ (formatWeights weight).drop 242, isUpper c = false :=
        fun c hc => hupper c (List.mem_of_mem_drop hc)
      have hread := readLine_lower (newline_not_upper hdrop) d
      simp only [Reads, hread, Outcome.last, Outcome.next_eq_next, exists_eq_left]
    rw [reads_cons]
    simp only [hrest, exists_eq_right']
    exact hfirst _ (fun c hc => hupper c (List.mem_of_mem_take hc)) rfl

end AdaptiveSignal.Configuration
