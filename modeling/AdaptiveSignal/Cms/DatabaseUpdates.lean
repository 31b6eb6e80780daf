import AdaptiveSignal.Cms.Database

/-! # Updates of the image database

Line by line the entries of a file come into the table as they are, and the file that is
written from it has them again, with the new one.
-/

namespace AdaptiveSignal.Cms

open Foundation
open AdaptiveSignal.Configuration (fgets)
open Signal (trimComments trimSpace)

variable {size : ℕ} {body rest : List Char}

/-! ## Pieces of a file -/

theorem fgets_line (hbody : '\n' ∉ body) (hsize : body.length < size) (rest : List Char) :
    fgets size (body ++ '\n' :: rest) = (body ++ ['\n'], rest) := by
  induction body generalizing size with
  | nil =>
      obtain ⟨size, rfl⟩ := Nat.exists_eq_succ_of_ne_zero (Nat.ne_of_gt hsize)
      simp [fgets]
  | cons c body ih =>
      obtain ⟨size, rfl⟩ := Nat.exists_eq_succ_of_ne_zero (Nat.ne_zero_of_lt hsize)
      have hc : c ≠ '\n' := fun hc => hbody (hc ▸ List.mem_cons_self)
      have hrest := ih (fun hmem => hbody (List.mem_cons_of_mem c hmem))
        (Nat.lt_of_succ_lt_succ hsize)
      rw [List.cons_append, fgets, if_neg hc, hrest]
      rfl

theorem fgets_full (hbody : '\n' ∉ body) (rest : List Char) :
    fgets body.length (body ++ rest) = (body, rest) := by
  induction body with
  | nil => rfl
  | cons c body ih =>
      have hc : c ≠ '\n' := fun hc => hbody (hc ▸ List.mem_cons_self)
      rw [List.cons_append, List.length_cons, fgets, if_neg hc,
        ih fun hmem => hbody (List.mem_cons_of_mem c hmem)]

theorem fgets_append (size : ℕ) (file : List Char) :
    (fgets size file).1 ++ (fgets size file).2 = file := by
  induction size generalizing file with
  | zero => rfl
  | succ size ih =>
      cases file with
      | nil => rfl
      | cons c file =>
          rw [fgets]
          split_ifs
          · rfl
          · exact congrArg (c :: ·) (ih file)

theorem pieces_nil : pieces [] = [] := by
  rw [pieces, dif_pos rfl]

theorem pieces_of_ne_nil {file : List Char} (hne : file ≠ []) :
    pieces file =
      (fgets (bufferSize - 1) file).1 :: pieces (fgets (bufferSize - 1) file).2 := by
  rw [pieces, dif_neg hne]

/-- A short line is read at once. -/
theorem pieces_line (hbody : '\n' ∉ body) (hshort : body.length < bufferSize - 1)
    (rest : List Char) :
    pieces (body ++ '\n' :: rest) = (body ++ ['\n']) :: pieces rest := by
  rw [pieces_of_ne_nil (by simp), fgets_line hbody hshort]

/-- The lines of a file are read one after the other. -/
theorem pieces_append (hbody : '\n' ∉ body) (rest : List Char) :
    pieces (body ++ '\n' :: rest) = pieces (body ++ ['\n']) ++ pieces rest := by
  induction hlength : body.length using Nat.strong_induction_on generalizing body with
  | h n ih =>
      subst hlength
      by_cases hshort : body.length < bufferSize - 1
      · rw [pieces_line hbody hshort, pieces_line hbody hshort, pieces_nil]
        rfl
      · -- The buffer is filled before the line ends.
        obtain ⟨first, later, rfl, hfirst⟩ : ∃ first later, body = first ++ later ∧
            first.length = bufferSize - 1 :=
          ⟨_, _, (List.take_append_drop (bufferSize - 1) body).symm,
            List.length_take_of_le (not_lt.mp hshort)⟩
        have hrest := ih later.length (by simp [hfirst])
          (fun hmem => hbody (List.mem_append_right first hmem)) rfl
        have hpiece (rest : List Char) :
            pieces (first ++ later ++ '\n' :: rest) = first :: pieces (later ++ '\n' :: rest) := by
          have hfull := fgets_full (fun hmem => hbody (List.mem_append_left later hmem))
            (later ++ '\n' :: rest)
          rw [hfirst] at hfull
          rw [List.append_assoc, pieces_of_ne_nil (by simp), hfull]
        rw [hpiece, hpiece, hrest]
        rfl

/-- The file ends with a line break. -/
def EndsLine (file : List Char) : Prop := file.getLast? = some '\n'

theorem EndsLine.of_append {front : List Char} (h : EndsLine (front ++ rest)) (hne : rest ≠ []) :
    EndsLine rest := by
  obtain ⟨rest, last, rfl⟩ := (List.eq_nil_or_concat rest).resolve_left hne
  simpa [EndsLine, ← List.append_assoc] using h

theorem EndsLine.feof_eq_false {line : List Char} (h : EndsLine (line ++ rest)) :
    feof line rest = false := by
  unfold feof
  by_cases hrest : rest = []
  · subst hrest
    rw [List.append_nil] at h
    have hlast : line.getLast? = some '\n' := h
    simp [hlast]
  · simp [hrest]

/-! ## The loop -/

theorem trimComments_subset (s : List Char) : trimComments s ⊆ s := by
  intro c hc
  unfold trimComments trimSpace at hc
  have hlast := (List.dropWhile_sublist _).mem (List.mem_reverse.mp hc)
  have hfirst := (List.dropWhile_sublist _).mem (List.mem_reverse.mp hlast)
  exact (List.takeWhile_sublist _).mem hfirst

theorem blank_notMem_headD_readStringArr (line : List Char) :
    ' ' ∉ (readStringArr line).headD [] := by
  unfold readStringArr
  cases htokens : tokens ' ' (line.takeWhile (· ≠ zeroByte)) with
  | nil => exact List.not_mem_nil
  | cons token later =>
      have hmem : token ∈ tokens ' ' (line.takeWhile (· ≠ zeroByte)) :=
        htokens ▸ List.mem_cons_self
      exact fun hblank => notMem_of_mem_tokens hmem (trimComments_subset token hblank)

/-- What is left of a line in the buffer is one string at most. -/
theorem readEntry_leftOver (line : List Char) : readEntry (leftOver line) = none := by
  have hblanks : ∀ c ∈ line.takeWhile (· = ' '), c = ' ' := fun c hc => by
    simpa using List.mem_takeWhile_imp hc
  have hnonzero : ∀ c ∈ line.takeWhile (· = ' '), decide (c ≠ zeroByte) = true := fun c hc => by
    rw [hblanks c hc]
    decide
  have htoken : ' ' ∉ ((readStringArr line).headD []).takeWhile (· ≠ zeroByte) := fun hmem =>
    blank_notMem_headD_readStringArr line ((List.takeWhile_sublist _).mem hmem)
  have hlength : (readStringArr (leftOver line)).length ≤ 1 := by
    rw [readStringArr, leftOver, List.takeWhile_append_of_pos hnonzero, List.length_map,
      tokens_append_of_all hblanks]
    exact length_tokens_le_one htoken
  unfold readEntry
  split
  · rename_i heq
    rw [heq] at hlength
    exact absurd hlength (by simp)
  · rfl

theorem readDatabase_eq {file : List Char} (t : Filenames) {buffer : List Char}
    (hbuffer : file = [] → readEntry buffer = none) (hfile : file ≠ [] → EndsLine file) :
    readDatabase buffer file t = (pieces file).foldlM assign t := by
  induction hlength : file.length using Nat.strong_induction_on generalizing file t buffer with
  | h n ih =>
      subst hlength
      rw [readDatabase]
      split_ifs with hnil
      · rw [hnil, pieces_nil, assign, hbuffer hnil]
        rfl
      · have hends := hfile hnil
        rw [← fgets_append (bufferSize - 1) file] at hends
        rw [pieces_of_ne_nil hnil, List.foldlM_cons]
        dsimp only
        rw [hends.feof_eq_false]
        cases hassign : assign t (fgets (bufferSize - 1) file).1 with
        | none => rfl
        | some t' =>
            exact ih (fgets (bufferSize - 1) file).2.length
              (Configuration.fgets_rest_length_lt (by decide) hnil) t'
              (fun _ => readEntry_leftOver (fgets (bufferSize - 1) file).1)
              (fun hne => hends.of_append hne) rfl

/-! ## Lines -/

theorem trimSpace_append_space {c : Char} (hc : isSpace c = true) (s : List Char) :
    trimSpace (s ++ [c]) = trimSpace s := by
  unfold trimSpace
  rw [List.dropWhile_append]
  split_ifs with hnil
  · rw [List.isEmpty_iff.mp hnil]
    simp [hc]
  · simp [hc]

theorem trimSpace_of_not_space {s : List Char} (hs : ∀ c ∈ s, isSpace c = false) :
    trimSpace s = s := by
  have hdrop {s : List Char} (hs : ∀ c ∈ s, isSpace c = false) : s.dropWhile isSpace = s := by
    cases s with
    | nil => rfl
    | cons c s => exact List.dropWhile_cons_of_neg (by simp [hs c List.mem_cons_self])
  rw [trimSpace, hdrop hs, hdrop fun c hc => hs c (List.mem_reverse.mp hc), List.reverse_reverse]

theorem trimComments_eq {s : List Char} (hcomment : '#' ∉ s) (hzero : zeroByte ∉ s) :
    trimComments s = trimSpace s := by
  have hall : ∀ c ∈ s, (decide (c ≠ '#') && decide (c ≠ Char.ofNat 0)) = true := fun c hc => by
    simp [ne_of_mem_of_not_mem hc hcomment, ne_of_mem_of_not_mem hc hzero]
  have htake : s.takeWhile (fun c => c ≠ '#' && c ≠ Char.ofNat 0) = s :=
    List.takeWhile_eq_self_iff.mpr hall
  rw [trimComments, htake]

/-- Of the characters with a meaning none is in a number. -/
theorem notMem_formatInt {c : Char} (hc : isNumeral c = false) (n : ℤ) : c ∉ formatInt n :=
  fun hmem => by simp [formatInt_numeral n c hmem] at hc

theorem isSpace_of_mem_formatInt {n : ℤ} {c : Char} (hc : c ∈ formatInt n) :
    isSpace c = false := by
  have hnumeral := formatInt_numeral n c hc
  by_contra hspace
  have hdigit := isDigit_of_isSpace (by simpa using hspace)
  simp only [isNumeral, hdigit, Bool.false_or, Bool.or_eq_true, decide_eq_true_eq] at hnumeral
  rcases hnumeral with rfl | rfl
  · exact hspace (by decide)
  · exact hspace (by decide)

theorem formatInt_ne_nil (n : ℤ) : formatInt n ≠ [] :=
  List.append_ne_nil_of_right_ne_nil _ (decimal_ne_nil n.natAbs)

theorem Entry.line_eq (e : Entry) :
    e.line = (formatInt e.id ++ ' ' :: e.name.chars) ++ '\n' :: [] := rfl

theorem Entry.break_notMem (e : Entry) : '\n' ∉ formatInt e.id ++ ' ' :: e.name.chars := by
  intro hmem
  rcases List.mem_append.mp hmem with hmem | hmem
  · exact notMem_formatInt (by decide) e.id hmem
  · rcases List.mem_cons.mp hmem with hblank | hmem
    · exact absurd hblank (by decide)
    · exact e.name.noBreak hmem

theorem Entry.zero_notMem (e : Entry) : zeroByte ∉ e.line := by
  intro hmem
  rcases List.mem_append.mp hmem with hmem | hmem
  · rcases List.mem_append.mp hmem with hmem | hmem
    · exact notMem_formatInt (by decide) e.id hmem
    · rcases List.mem_cons.mp hmem with hblank | hmem
      · exact absurd hblank (by decide)
      · exact e.name.noZero hmem
  · exact absurd (List.mem_singleton.mp hmem) (by decide)

theorem Entry.pieces_line {e : Entry} (hfits : e.line.length < bufferSize) :
    pieces e.line = [e.line] := by
  rw [e.line_eq] at hfits ⊢
  rw [List.length_append] at hfits
  rw [Cms.pieces_line e.break_notMem (Nat.lt_sub_of_add_lt hfits), pieces_nil]

/-- A plain line is read as its entry. -/
theorem Entry.Plain.readEntry_line {e : Entry} (h : e.Plain) :
    readEntry e.line = some (e.id, e.name.chars) := by
  have hstring : e.line.takeWhile (· ≠ zeroByte) = e.line :=
    List.takeWhile_eq_self_iff.mpr fun c hc => by
      simpa using ne_of_mem_of_not_mem hc e.zero_notMem
  have hline : e.line = formatInt e.id ++ ' ' :: (e.name.chars ++ ['\n']) :=
    List.append_assoc (formatInt e.id) (' ' :: e.name.chars) ['\n']
  have hblank : ' ' ∉ e.name.chars ++ ['\n'] := by
    simpa using h.noBlank
  have hzero : zeroByte ∉ e.name.chars ++ ['\n'] := by
    simpa using ⟨e.name.noZero, by decide⟩
  have hid : trimComments (formatInt e.id) = formatInt e.id := by
    rw [trimComments_eq (notMem_formatInt (by decide) _) (notMem_formatInt (by decide) _)]
    exact trimSpace_of_not_space fun c hc => isSpace_of_mem_formatInt hc
  have hname : trimComments (e.name.chars ++ ['\n']) = e.name.chars := by
    rw [trimComments_eq (by simpa using h.noComment) hzero,
      trimSpace_append_space (by decide), h.trimmed]
  have hstrings : readStringArr e.line = [formatInt e.id, e.name.chars] := by
    rw [readStringArr, hstring, hline, tokens_append_cons (formatInt_ne_nil e.id)
      (notMem_formatInt (by decide) e.id), tokens_of_notMem (by simp) hblank, List.map_cons,
      List.map_singleton, hid, hname]
  have hscan := scanInt_formatInt e.id ends_nil
  have hint : e.id.bmod (2 ^ 32) = e.id := by
    have hnonneg : 0 ≤ e.id := h.inRange.1
    have hlt : e.id < 256 := h.inRange.2
    exact Int.bmod_eq_of_le_mul_two (by omega) (by omega)
  rw [List.append_nil] at hscan
  simp only [readEntry, hstrings, hscan, Option.map_some, hint]

/-! ## The table -/

/-- The strings that were allocated are in order, and outside of one id the table has these
entries. -/
structure Holds (imgId : ℤ) (entries : List Entry) (t : Filenames) : Prop where
  owned : t.Owned
  content : ∀ i : Fin filenameCount, i.val ≠ imgId → ∀ name,
    t.content i = some name ↔ ∃ e ∈ entries, e.id = i.val ∧ e.name.chars = name

theorem holds_empty (imgId : ℤ) : Holds imgId [] .empty where
  owned := OwnedTable.owned_empty
  content i _ name := by simp [OwnedTable.content, OwnedTable.empty]

variable {imgId : ℤ} {entries : List Entry} {t : Filenames}

theorem setFilename_eq {id : ℤ} (hid : 0 ≤ id ∧ id < filenameCount) (name : List Char)
    (t : Filenames) :
    ∃ i : Fin filenameCount, (i.val : ℤ) = id ∧ setFilename id name t = some (t.put i name) :=
  ⟨⟨id.toNat, by omega⟩, Int.toNat_of_nonneg hid.1, dif_pos hid⟩

/-- An entry of the other ids is added. -/
theorem Holds.plain (h : Holds imgId entries t) {e : Entry} (hplain : e.Plain)
    (hfresh : ∀ other ∈ entries, other.id ≠ e.id) :
    ∃ t', (pieces e.line).foldlM assign t = some t' ∧ Holds imgId (entries ++ [e]) t' := by
  obtain ⟨i, hi, hset⟩ := setFilename_eq hplain.inRange e.name.chars t
  refine ⟨t.put i e.name.chars, ?_, h.owned.put i _, fun j hj name => ?_⟩
  · rw [Entry.pieces_line hplain.fits, List.foldlM_cons, assign, hplain.readEntry_line]
    dsimp only
    rw [hset]
    rfl
  · rw [OwnedTable.content_put]
    split_ifs with hji
    · subst hji
      constructor
      · intro hname
        exact ⟨e, by simp, hi.symm, Option.some.inj hname⟩
      · rintro ⟨other, hother, hid, rfl⟩
        rcases List.mem_append.mp hother with hother | hother
        · exact absurd (hid.trans hi) (hfresh other hother)
        · rw [List.mem_singleton.mp hother]
    · refine (h.content j hj name).trans (exists_congr fun other => ?_)
      refine and_congr_left fun hother => ?_
      have hne : other ≠ e := by
        rintro rfl
        exact hji (Fin.ext (Int.ofNat_inj.mp (hother.1.symm.trans hi.symm)))
      simp [hne]

theorem Holds.foldlM_assign (h : Holds imgId entries t)
    (hrange : 0 ≤ imgId ∧ imgId < filenameCount) {lines : List (List Char)}
    (hlines : ∀ line ∈ lines, ∀ read ∈ readEntry line, read.1 = imgId) :
    ∃ t', lines.foldlM assign t = some t' ∧ Holds imgId entries t' := by
  induction lines generalizing t with
  | nil => exact ⟨t, rfl, h⟩
  | cons line lines ih =>
      have hlater := fun later hlater => hlines later (List.mem_cons_of_mem line hlater)
      rw [List.foldlM_cons, assign]
      cases hread : readEntry line with
      | none => exact ih h hlater
      | some read =>
          obtain ⟨id, name⟩ := read
          obtain rfl : id = imgId := hlines line List.mem_cons_self _ hread
          obtain ⟨i, hi, hset⟩ := setFilename_eq hrange name t
          have hput : Holds id entries (t.put i name) := by
            refine ⟨h.owned.put i name, fun j hj other => ?_⟩
            have hji : j ≠ i := by
              rintro rfl
              exact hj hi
            rw [OwnedTable.content_put, if_neg hji]
            exact h.content j hj other
          dsimp only
          rw [hset]
          exact ih hput hlater

/-- Entries of the one id change only what is there. -/
theorem Holds.harmless (h : Holds imgId entries t) (hrange : 0 ≤ imgId ∧ imgId < filenameCount)
    {e : Entry} (hid : e.id = imgId) (hharmless : e.Harmless) :
    ∃ t', (pieces e.line).foldlM assign t = some t' ∧ Holds imgId (entries ++ [e]) t' := by
  subst hid
  obtain ⟨t', hfold, hholds⟩ := h.foldlM_assign hrange hharmless
  refine ⟨t', hfold, hholds.owned, fun i hi name => (hholds.content i hi name).trans ?_⟩
  refine exists_congr fun other => and_congr_left fun hother => ?_
  have hne : other ≠ e := by
    rintro rfl
    exact hi hother.1.symm
  simp [hne]

theorem Holds.rendered {u : Update} {before later : List Entry} (h : Holds u.imgId before t)
    (hplain : ∀ e ∈ later, e.id ≠ u.imgId → e.Plain)
    (hharmless : ∀ e ∈ later, e.id = u.imgId → e.Harmless)
    (hdistinct : (((before ++ later).filter fun e => e.id ≠ u.imgId).map Entry.id).Nodup) :
    ∃ t', (pieces (rendered later)).foldlM assign t = some t' ∧
      Holds u.imgId (before ++ later) t' := by
  induction later generalizing before t with
  | nil => exact ⟨t, by rw [Cms.rendered, List.flatMap_nil, pieces_nil]; rfl, by simpa using h⟩
  | cons e later ih =>
      have hfirst : ∃ t', (pieces e.line).foldlM assign t = some t' ∧
          Holds u.imgId (before ++ [e]) t' := by
        by_cases hid : e.id = u.imgId
        · exact h.harmless u.inRange hid (hharmless e List.mem_cons_self hid)
        · refine h.plain (hplain e List.mem_cons_self hid) fun other hother hsame => ?_
          rw [List.filter_append, List.map_append] at hdistinct
          refine (List.nodup_append.mp hdistinct).2.2 other.id ?_ e.id ?_ hsame
          · exact List.mem_map_of_mem (List.mem_filter.mpr ⟨hother, by simpa [hsame] using hid⟩)
          · exact List.mem_map_of_mem (List.mem_filter.mpr ⟨List.mem_cons_self, by simpa using hid⟩)
      obtain ⟨t', hfold, hholds⟩ := hfirst
      have hdistinct' : (((before ++ [e] ++ later).filter fun e => e.id ≠ u.imgId).map
          Entry.id).Nodup := by
        rwa [List.append_assoc]
      obtain ⟨t'', hrest, hholds'⟩ := ih hholds
        (fun other hother => hplain other (List.mem_cons_of_mem e hother))
        (fun other hother => hharmless other (List.mem_cons_of_mem e hother)) hdistinct'
      rw [List.append_assoc] at hholds'
      refine ⟨t'', ?_, hholds'⟩
      have hlines : Cms.rendered (e :: later) =
          (formatInt e.id ++ ' ' :: e.name.chars) ++ '\n' :: Cms.rendered later := by
        rw [Cms.rendered, List.flatMap_cons, e.line_eq, List.append_assoc]
        rfl
      rw [hlines, pieces_append e.break_notMem, List.foldlM_append, ← e.line_eq, hfold]
      exact hrest

/-! ## The new file -/

theorem filter_id_eq (hdistinct : (entries.map Entry.id).Nodup) {e : Entry} (he : e ∈ entries) :
    entries.filter (fun other => other.id = e.id) = [e] := by
  obtain ⟨before, after, rfl⟩ := List.append_of_mem he
  rw [List.map_append, List.map_cons] at hdistinct
  have hout := (List.nodup_cons.mp (List.nodup_middle.mp hdistinct)).1
  have hother : ∀ other ∈ before ++ after, other.id ≠ e.id := fun other hmem hid =>
    hout (List.map_append (f := Entry.id) ▸ hid ▸ List.mem_map_of_mem hmem)
  have hbefore : before.filter (fun other => other.id = e.id) = [] :=
    List.filter_eq_nil_iff.mpr fun other hmem => by
      simpa using hother other (List.mem_append_left after hmem)
  have hafter : after.filter (fun other => other.id = e.id) = [] :=
    List.filter_eq_nil_iff.mpr fun other hmem => by
      simpa using hother other (List.mem_append_right before hmem)
  simp [hbefore, hafter]

theorem inOrder_perm (hdistinct : (entries.map Entry.id).Nodup)
    (hrange : ∀ e ∈ entries, 0 ≤ e.id ∧ e.id < filenameCount) : (inOrder entries).Perm entries := by
  have hnodup : entries.Nodup := List.Nodup.of_map _ hdistinct
  refine (List.perm_ext_iff_of_nodup ?_ hnodup).mpr fun e => ?_
  · refine List.nodup_flatMap.mpr ⟨fun i _ => hnodup.filter _, ?_⟩
    refine (List.nodup_finRange filenameCount).imp fun {i j} hij e hi hj => hij ?_
    have hidi := (List.mem_filter.mp hi).2
    have hidj := (List.mem_filter.mp hj).2
    simp only [decide_eq_true_eq] at hidi hidj
    exact Fin.ext (Int.ofNat_inj.mp (hidi.symm.trans hidj))
  · simp only [inOrder, List.mem_flatMap, List.mem_finRange, true_and, List.mem_filter,
      decide_eq_true_eq, exists_and_left, and_iff_left_iff_imp]
    intro he
    obtain ⟨hnonneg, hlt⟩ := hrange e he
    exact ⟨⟨e.id.toNat, by omega⟩, (Int.toNat_of_nonneg hnonneg).symm⟩

/-- The table is written entry by entry. -/
theorem writeDatabase_eq (hdistinct : (entries.map Entry.id).Nodup)
    (hfits : ∀ e ∈ entries, e.line.length < bufferSize)
    (hcontent : ∀ i name,
      t.content i = some name ↔ ∃ e ∈ entries, e.id = i.val ∧ e.name.chars = name)
    (places : List (Fin filenameCount)) :
    writeDatabase t places =
      some (rendered (places.flatMap fun i => entries.filter fun e => e.id = i.val)) := by
  induction places with
  | nil => rfl
  | cons i later ih =>
      have hline : writePlace t i = some (rendered (entries.filter fun e => e.id = i.val)) := by
        unfold writePlace
        cases hi : t.content i with
        | none =>
            have hnone : (entries.filter fun e => e.id = (i.val : ℤ)) = [] := by
              refine List.filter_eq_nil_iff.mpr fun e he hid => ?_
              have hsome := (hcontent i e.name.chars).mpr ⟨e, he, by simpa using hid, rfl⟩
              rw [hi] at hsome
              cases hsome
            rw [hnone]
            rfl
        | some name =>
            obtain ⟨e, he, hid, rfl⟩ := (hcontent i name).mp hi
            rw [← hid, filter_id_eq hdistinct he]
            have hwritten : writeEntry e.id e.name.chars = some e.line := if_pos (hfits e he)
            simp [hwritten, rendered]
      rw [writeDatabase, hline, ih]
      simp [rendered]

/-- The entries after an update, where those of the other ids are plain. -/
theorem Update.distinct_replaced (u : Update)
    (hdistinct : ((entries.filter fun e => e.id ≠ u.imgId).map Entry.id).Nodup) :
    ((u.replaced entries).map Entry.id).Nodup := by
  refine List.nodup_cons.mpr ⟨fun hmem => ?_, hdistinct⟩
  obtain ⟨e, he, hid⟩ := List.mem_map.mp hmem
  have hother : e.id ≠ u.imgId := by
    simpa using (List.mem_filter.mp he).2
  exact hother hid

/-- What `CMS_update_database` does once the table is there. -/
theorem Update.Writes.write {u : Update} (hwrites : u.Writes) (h : Holds u.imgId entries t)
    (hplain : ∀ e ∈ entries, e.id ≠ u.imgId → e.Plain)
    (hdistinct : ((entries.filter fun e => e.id ≠ u.imgId).map Entry.id).Nodup)
    (file : List Char) :
    ∃ exit, u.write t file = some exit ∧ exit.ret = 1 ∧
      exit.file = some (rendered (inOrder (u.replaced entries))) ∧
      exit.freed.Perm (List.range exit.allocated) := by
  obtain ⟨i, hi, hset⟩ := setFilename_eq u.inRange u.imgName.chars t
  have hfits : ∀ e ∈ u.replaced entries, e.line.length < bufferSize := by
    intro e he
    rcases List.mem_cons.mp he with rfl | he
    · exact hwrites.2
    · have hother := List.mem_filter.mp he
      exact (hplain e hother.1 (by simpa using hother.2)).fits
  have hcontent : ∀ j name, (t.put i u.imgName.chars).content j = some name ↔
      ∃ e ∈ u.replaced entries, e.id = j.val ∧ e.name.chars = name := by
    intro j name
    rw [OwnedTable.content_put]
    split_ifs with hji
    · subst hji
      constructor
      · intro hname
        exact ⟨u.entry, List.mem_cons_self, hi.symm, Option.some.inj hname⟩
      · rintro ⟨e, he, hid, rfl⟩
        rcases List.mem_cons.mp he with rfl | he
        · rfl
        · have hother := (List.mem_filter.mp he).2
          exact absurd (hid.trans hi) (by simpa using hother)
    · have hj : (j.val : ℤ) ≠ u.imgId := fun hj =>
        hji (Fin.ext (Int.ofNat_inj.mp (hj.trans hi.symm)))
      refine (h.content j hj name).trans (exists_congr fun e => and_congr_left fun he => ?_)
      have hid : e.id ≠ u.imgId := he.1 ▸ hj
      have hne : e ≠ u.entry := fun hentry => hid (hentry ▸ rfl)
      simp [Update.replaced, hid, hne]
  have hwritten := writeDatabase_eq (u.distinct_replaced hdistinct) hfits hcontent
    (List.finRange filenameCount)
  refine ⟨⟨1, some (rendered (inOrder (u.replaced entries))), (t.put i u.imgName.chars).allocated,
    (t.put i u.imgName.chars).freeAll.freed⟩, ?_, rfl, rfl,
    (h.owned.put i u.imgName.chars).freed_freeAll⟩
  simp only [Update.write, hset, hwrites.1, hwritten, Option.bind_eq_bind, Option.bind_some,
    if_true]
  rfl

/-- The new entries are those of the old file, with the new one for its id. -/
theorem Update.inOrder_perm (u : Update) (hplain : ∀ e ∈ entries, e.id ≠ u.imgId → e.Plain)
    (hdistinct : ((entries.filter fun e => e.id ≠ u.imgId).map Entry.id).Nodup) :
    (inOrder (u.replaced entries)).Perm (u.replaced entries) := by
  refine Cms.inOrder_perm (u.distinct_replaced hdistinct) fun e he => ?_
  rcases List.mem_cons.mp he with rfl | he
  · exact u.inRange
  · have hother := List.mem_filter.mp he
    exact (hplain e hother.1 (by simpa using hother.2)).inRange

/-- Before there is a file, or after it was cut to nothing. -/
theorem Update.Writes.write_empty {u : Update} (hwrites : u.Writes) :
    ∃ exit, u.write .empty [] = some exit ∧ exit.ret = 1 ∧
      exit.file = some (rendered (inOrder (u.replaced []))) ∧
      exit.freed.Perm (List.range exit.allocated) :=
  hwrites.write (holds_empty u.imgId) (fun _ he => absurd he List.not_mem_nil) List.nodup_nil []

theorem rendered_ne_nil (hne : entries ≠ []) : rendered entries ≠ [] := by
  obtain ⟨e, later, rfl⟩ := List.exists_cons_of_ne_nil hne
  simp [rendered, Entry.line, entryLine]

theorem endsLine_rendered (hne : entries ≠ []) : EndsLine (rendered entries) := by
  obtain ⟨before, e, rfl⟩ := (List.eq_nil_or_concat' entries).resolve_left hne
  have hlast : rendered (before ++ [e]) =
      (rendered before ++ (formatInt e.id ++ ' ' :: e.name.chars)) ++ ['\n'] := by
    simp [rendered, Entry.line, entryLine]
  rw [EndsLine, hlast, List.getLast?_concat]

theorem cmsUpdateDatabase_of_readable {u : Update} (hreadable : u.readable) {text : List Char}
    (hne : text ≠ []) :
    cmsUpdateDatabase u (some text) = (readDatabase [] text .empty).bind (u.write · text) := by
  obtain ⟨c, text, rfl⟩ := List.exists_cons_of_ne_nil hne
  rw [cmsUpdateDatabase, if_pos hreadable]
  rfl

theorem cmsUpdateDatabase_of_not_readable {u : Update} (hreadable : ¬ u.readable)
    (file : Option (List Char)) :
    cmsUpdateDatabase u file =
      if u.creatable then u.write .empty [] else some ⟨-1, file, 0, []⟩ := by
  rw [cmsUpdateDatabase, if_neg hreadable]

/-- An admitted call is right, and leaves the entries it should. -/
theorem Update.Admitted.call {u : Update} {before : Option (List Entry)}
    (h : Update.Admitted before u) :
    ∃ exit, cmsUpdateDatabase u (before.map rendered) = some exit ∧
      exit.file = (step before u).map rendered ∧ u.Correct before exit := by
  cases before with
  | none =>
      by_cases hcreatable : u.creatable
      · obtain ⟨exit, hexit, -, hfile, hfreed⟩ := (h hcreatable).write_empty
        refine ⟨exit, by simpa [cmsUpdateDatabase, hcreatable] using hexit,
          by simpa [step, hcreatable] using hfile, hfreed, fun _ => ⟨_, hfile, ?_⟩⟩
        exact u.inOrder_perm (fun _ he => absurd he List.not_mem_nil) List.nodup_nil
      · refine ⟨⟨-1, none, 0, []⟩, by simp [cmsUpdateDatabase, hcreatable],
          by simp [step, hcreatable], List.Perm.refl _, fun hret => ?_⟩
        exact absurd hret (by decide)
  | some entries =>
      by_cases hreadable : u.readable
      · simp only [Update.Admitted, hreadable, if_true] at h
        obtain ⟨hreads, hwrites⟩ := h
        obtain ⟨t, hfold, hholds⟩ := (holds_empty u.imgId).rendered hreads.plain
          hreads.harmless hreads.distinct
        have hread : readDatabase [] (rendered entries) .empty = some t := (readDatabase_eq _
          (fun hnil => absurd hnil (rendered_ne_nil hreads.nonempty))
          (fun _ => endsLine_rendered hreads.nonempty)).trans hfold
        obtain ⟨exit, hexit, -, hfile, hfreed⟩ :=
          hwrites.write hholds hreads.plain hreads.distinct (rendered entries)
        refine ⟨exit, ?_, by simpa [step, hreadable] using hfile, hfreed, fun _ =>
          ⟨_, hfile, u.inOrder_perm hreads.plain hreads.distinct⟩⟩
        rw [Option.map_some, cmsUpdateDatabase_of_readable hreadable
          (rendered_ne_nil hreads.nonempty), hread]
        exact hexit
      · simp only [Update.Admitted, hreadable, Bool.false_eq_true, if_false] at h
        rw [cmsUpdateDatabase_of_not_readable hreadable]
        by_cases hcreatable : u.creatable
        · obtain ⟨hids, hwrites⟩ := h hcreatable
          obtain ⟨exit, hexit, -, hfile, hfreed⟩ := hwrites.write_empty
          have hnone : (entries.filter fun e => e.id ≠ u.imgId) = [] :=
            List.filter_eq_nil_iff.mpr fun e he => by simp [hids e he]
          refine ⟨exit, by simpa [hcreatable] using hexit,
            by simpa [step, hreadable, hcreatable] using hfile, hfreed, fun _ => ⟨_, hfile, ?_⟩⟩
          rw [Option.getD_some, Update.replaced, Update.replaced, hnone]
          exact u.inOrder_perm (fun _ he => absurd he List.not_mem_nil) List.nodup_nil
        · refine ⟨⟨-1, some (rendered entries), 0, []⟩, by simp [hcreatable],
            by simp [step, hreadable, hcreatable], List.Perm.refl _, fun hret => ?_⟩
          exact absurd hret (show (-1 : ℤ) ≠ 1 by decide)

/-- `CMS_update_database` for one call after the other. -/
def afterCalls (file : Option (List Char)) (updates : List Update) :
    Option (Option (List Char)) :=
  updates.foldlM (fun file u => (cmsUpdateDatabase u file).map Exit.file) file

theorem afterCalls_eq {file : Option (List Entry)} {updates : List Update}
    (h : Guarded step Update.Admitted file updates) :
    afterCalls (file.map rendered) updates = some ((run step file updates).map rendered) := by
  induction updates generalizing file with
  | nil => rfl
  | cons u later ih =>
      obtain ⟨exit, hexit, hfile, -⟩ := h.1.call
      rw [afterCalls, List.foldlM_cons, hexit, Option.map_some, hfile]
      exact ih h.2

/-- While every call is admitted in the state it is taken in, every call is right. -/
theorem database_run {file : Option (List Entry)} {updates : List Update}
    (h : Guarded step Update.Admitted file updates) {done later : List Update} {u : Update}
    (hupdates : updates = done ++ u :: later) :
    ∃ text exit, afterCalls (file.map rendered) done = some text ∧
      text = (run step file done).map rendered ∧
      cmsUpdateDatabase u text = some exit ∧
      exit.file = (run step file (done ++ [u])).map rendered ∧
      u.Correct (run step file done) exit := by
  rw [hupdates, Guarded.append] at h
  obtain ⟨hdone, hnow, -⟩ := h
  obtain ⟨exit, hexit, hfile, hcorrect⟩ := hnow.call
  exact ⟨_, exit, afterCalls_eq hdone, rfl, hexit, by rw [run_concat, hfile], hcorrect⟩

/-- An update whose files can be opened. -/
def openUpdate (imgId : Fin filenameCount) (imgName : Name) : Update where
  imgId := imgId.val
  inRange := ⟨Int.natCast_nonneg _, Int.ofNat_lt.mpr imgId.isLt⟩
  imgName
  readable := true
  creatable := true
  writable := true

def firstUpdate : Update := openUpdate 5 ⟨['a'], by decide, by decide⟩
def secondUpdate : Update := openUpdate 6 ⟨['c'], by decide, by decide⟩

/-- Two updates of a file that is not there at first. -/
theorem database_run_two :
    ∃ text exit, afterCalls (Option.map rendered none) [firstUpdate] = some text ∧
      text = (run step none [firstUpdate]).map rendered ∧
      cmsUpdateDatabase secondUpdate text = some exit ∧
      exit.file = (run step none ([firstUpdate] ++ [secondUpdate])).map rendered ∧
      secondUpdate.Correct (run step none [firstUpdate]) exit := by
  have hentries : run step none [firstUpdate] = some [firstUpdate.entry] := by decide +kernel
  have hplain : firstUpdate.entry.Plain :=
    ⟨by decide, by decide, by decide, by decide, by decide⟩
  have hsecond : Update.Admitted (run step none [firstUpdate]) secondUpdate := by
    rw [hentries]
    refine ⟨⟨by simp, fun e he _ => ?_, fun e he hid => ?_, by decide⟩, rfl, by decide⟩
    · rw [List.mem_singleton.mp he]
      exact hplain
    · rw [List.mem_singleton.mp he] at hid
      exact absurd hid (by decide)
  have hguarded : Guarded step Update.Admitted none ([firstUpdate] ++ [secondUpdate]) :=
    ⟨fun _ => ⟨rfl, by decide⟩, hsecond, trivial⟩
  exact database_run hguarded rfl

/-- A name of two words. -/
def wordsUpdate : Update := openUpdate 5 ⟨['a', ' ', 'b'], by decide, by decide⟩

/-- Nothing is read of a line with three words. -/
theorem readDatabase_words :
    readDatabase [] (rendered [wordsUpdate.entry]) .empty = some OwnedTable.empty := by
  have hfile : rendered [wordsUpdate.entry] = wordsUpdate.entry.line := List.append_nil _
  have hread : readEntry wordsUpdate.entry.line = none := by decide
  rw [readDatabase_eq _ (fun hnil => absurd hnil (rendered_ne_nil (by simp)))
    (fun _ => endsLine_rendered (by simp)), hfile, Entry.pieces_line (by decide),
    List.foldlM_cons, assign, hread]
  rfl

/-- The line with the name of two words is lost in the next update, which returns 1. -/
theorem words_lost :
    ∃ exit, afterCalls none [wordsUpdate] = some (some (rendered [wordsUpdate.entry])) ∧
      cmsUpdateDatabase secondUpdate (some (rendered [wordsUpdate.entry])) = some exit ∧
      exit.ret = 1 ∧ ¬ secondUpdate.Correct (some [wordsUpdate.entry]) exit := by
  have hfirst : Guarded step Update.Admitted none [wordsUpdate] :=
    ⟨fun _ => ⟨rfl, by decide⟩, trivial⟩
  have hentries : run step none [wordsUpdate] = some [wordsUpdate.entry] := by decide +kernel
  have htext := afterCalls_eq hfirst
  rw [hentries] at htext
  have hwrites : secondUpdate.Writes := ⟨rfl, by decide⟩
  obtain ⟨exit, hexit, hret, hfile, -⟩ := hwrites.write (holds_empty _)
    (fun _ he => absurd he List.not_mem_nil) List.nodup_nil (rendered [wordsUpdate.entry])
  have hread : secondUpdate.readable = true := rfl
  have hcall := cmsUpdateDatabase_of_readable hread
    (rendered_ne_nil (List.cons_ne_nil wordsUpdate.entry []))
  rw [readDatabase_words, Option.bind_some] at hcall
  refine ⟨exit, htext, hcall.trans hexit, hret, fun hcorrect => ?_⟩
  · -- The file has one line, and two are asked for.
    obtain ⟨after, hafter, hperm⟩ := hcorrect.updated hret
    have hsame : rendered (inOrder (secondUpdate.replaced [])) = rendered after :=
      Option.some.inj (hfile.symm.trans hafter)
    have hone : (rendered (inOrder (secondUpdate.replaced []))).length = 4 := by decide +kernel
    have htwo := (hperm.flatMap_right Entry.line).length_eq
    have hten : (rendered (secondUpdate.replaced [wordsUpdate.entry])).length = 10 := by
      decide +kernel
    rw [hsame] at hone
    exact absurd (hone.symm.trans (htwo.trans hten)) (by decide)

end AdaptiveSignal.Cms
