import AdaptiveSignal.Configuration.ChangeStrategy
import AdaptiveSignal.Emergency.TableFile
import AdaptiveSignal.Foundation.CutText

/-! # An update of the carousel

The file with the programs of the signs is copied line by line, with a new line in the place of the
old one, before the parts of the request are looked at. A line that does not fit into the buffer is
copied in parts, and each part is looked at as if it were a line.
-/

namespace AdaptiveSignal.Configuration

open Foundation Signal

abbrev rtmMax : ℕ := 8

/-- `vms_config`, as far as the carousel goes. -/
@[ext] structure VmsConfig where
  activateDirections : Fin rtmMax → UInt8
  programIdsGreen : Fin rtmMax → UInt8
  programIdsNotGreen : Fin rtmMax → UInt8

@[ext] structure VmsState where
  config : VmsConfig
  /-- `program_ids_green` and `program_ids_not_green`, which the signs are sent. -/
  shownGreen : Fin rtmMax → UInt8
  shownNotGreen : Fin rtmMax → UInt8
  /-- The content of `VMS_CONFIG_FILE`. -/
  file : List Char

/-- The arguments of `carousel_update`. -/
structure CarouselRequest where
  vmsId : UInt8
  programType : UInt8
  programId : UInt8

/-! ## Rewriting the file -/

abbrev nul : Char := Char.ofNat 0

/-- `search_str`. -/
def CarouselRequest.searchStr (request : CarouselRequest) : List Char :=
  if request.programType = 0 then "PROGRAM_IDs_GREEN".toList else "PROGRAM_IDs_NOT_GREEN".toList

def VmsConfig.table (config : VmsConfig) (request : CarouselRequest) : Fin rtmMax → UInt8 :=
  if request.programType = 0 then config.programIdsGreen else config.programIdsNotGreen

/-- A table with the entry that is asked for. -/
def CarouselRequest.entered (request : CarouselRequest) (table : Fin rtmMax → UInt8) :
    Fin rtmMax → UInt8 :=
  fun i => if i.val = request.vmsId.toNat then request.programId else table i

/-- The line of a table. -/
def programsLine (key : List Char) (table : Fin rtmMax → UInt8) : List Char :=
  key ++ ((List.finRange rtmMax).flatMap fun i => ' ' :: formatUint8 (table i)) ++ ['\n']

/-- `write_buf`. -/
def CarouselRequest.writeBuf (request : CarouselRequest) (config : VmsConfig) : List Char :=
  programsLine request.searchStr (request.entered (config.table request))

/-- What is written for what `fgets` has read; a string ends at its first zero. -/
def rewriteChunk (key line chunk : List Char) : List Char :=
  if key <+: chunk then line else chunk.takeWhile (· ≠ nul)

/-- The loop over the file. -/
def rewriteText (key line text : List Char) : List Char :=
  (bufferedLines [] text).flatMap (rewriteChunk key line)

/-! ## The update -/

/-- The loop that fills what is shown with the entries of the active directions; `j` is the next
place. -/
def fillShown (active table : Fin rtmMax → UInt8) :
    List (Fin rtmMax) → ℕ → (Fin rtmMax → UInt8) → Fin rtmMax → UInt8
  | [], _, shown => shown
  | i :: directions, j, shown =>
      if active i ≠ 0 then
        fillShown active table directions (j + 1) fun k => if k.val = j then table i else shown k
      else fillShown active table directions j shown

def VmsConfig.enter (config : VmsConfig) (request : CarouselRequest) : VmsConfig :=
  if request.programType = 0 then
    { config with programIdsGreen := request.entered config.programIdsGreen }
  else { config with programIdsNotGreen := request.entered config.programIdsNotGreen }

/-- `carousel_update`; `opened` tells whether both files can be opened. -/
def carouselUpdate (opened : Bool) (request : CarouselRequest) (s : VmsState) : ℤ × VmsState :=
  if opened then
    let file := rewriteText request.searchStr (request.writeBuf s.config) s.file
    if 7 < request.vmsId then (-1, { s with file := file })
    else if request.programType ≠ 0 ∧ request.programType ≠ 1 then (-2, { s with file := file })
    else if request.programId = 0 then (-3, { s with file := file })
    else
      let config := s.config.enter request
      (0, {
        config := config
        shownGreen := fillShown config.activateDirections config.programIdsGreen
          (List.finRange rtmMax) 0 s.shownGreen
        shownNotGreen := fillShown config.activateDirections config.programIdsNotGreen
          (List.finRange rtmMax) 0 s.shownNotGreen
        file := file })
  else (-4, s)

/-! ## All or nothing -/

abbrev fileLines (file : List Char) : List (List Char) := cutAfter '\n' file

/-- The entries of the active directions in order. -/
def VmsConfig.activeEntries (config : VmsConfig) (table : Fin rtmMax → UInt8) : List UInt8 :=
  ((List.finRange rtmMax).filter fun i => config.activateDirections i ≠ 0).map table

/-- The file lists the table in the line of its type, and its other lines are as they were. -/
structure Listed (key : List Char) (table : Fin rtmMax → UInt8) (file file' : List Char) :
    Prop where
  listed : ∃ line ∈ fileLines file, key <+: line
  lines : file' = (fileLines file).flatMap fun line =>
    if key <+: line then programsLine key table else line

/-- What an accepted request leaves. -/
structure Entered (request : CarouselRequest) (s s' : VmsState) : Prop where
  table : s'.config.table request =
    fun i => if i.val = request.vmsId.toNat then request.programId else s.config.table request i
  green : request.programType ≠ 0 → s'.config.programIdsGreen = s.config.programIdsGreen
  notGreen : request.programType = 0 → s'.config.programIdsNotGreen = s.config.programIdsNotGreen
  directions : s'.config.activateDirections = s.config.activateDirections
  file : Listed request.searchStr (s'.config.table request) s.file s'.file
  shownGreen : s'.config.activeEntries s'.config.programIdsGreen <+: List.ofFn s'.shownGreen
  shownNotGreen :
    s'.config.activeEntries s'.config.programIdsNotGreen <+: List.ofFn s'.shownNotGreen

/-- A request that is refused changes neither the tables nor the file, and one that is accepted is
in both. -/
structure AllOrNothing (opened : Bool) (request : CarouselRequest) (s : VmsState) : Prop where
  refused : (carouselUpdate opened request s).1 ≠ 0 →
    (carouselUpdate opened request s).2.config = s.config ∧
      (carouselUpdate opened request s).2.file = s.file
  accepted : (carouselUpdate opened request s).1 = 0 →
    Entered request s (carouselUpdate opened request s).2

/-- No part of the text is taken for the line of the key, unless it is that line already, and the
text has no zero. -/
structure Kept (key line text : List Char) : Prop where
  chunks : ∀ chunk ∈ bufferedLines [] text, key <+: chunk → chunk = line
  zero : nul ∉ text

/-- The parts of the request are right. -/
structure CarouselRequest.Valid (request : CarouselRequest) : Prop where
  vmsId : request.vmsId ≤ 7
  programType : request.programType = 0 ∨ request.programType = 1
  programId : request.programId ≠ 0

/-- The file already is what a refused request makes of it; for a valid one a line has the key, each
line that has it fits into the buffer, and the others are kept. -/
structure Intact (request : CarouselRequest) (s : VmsState) : Prop where
  refused : ¬ request.Valid →
    Kept request.searchStr (request.writeBuf s.config) s.file
  listed : request.Valid → ∃ line ∈ fileLines s.file, request.searchStr <+: line
  short : request.Valid → ∀ line ∈ fileLines s.file, request.searchStr <+: line →
    line.length < configLineBufferSize
  kept : request.Valid → ∀ line ∈ fileLines s.file, ¬ request.searchStr <+: line →
    Kept request.searchStr (request.writeBuf s.config) line

/-! ## What one read after the other returns -/

section Buffer

variable {buffer text : List Char}

theorem flatten_bufferedLines (buffer text : List Char) :
    (bufferedLines buffer text).flatten = buffer ++ text := by
  induction text generalizing buffer with
  | nil => cases buffer <;> simp [bufferedLines]
  | cons c text ih =>
      rw [bufferedLines]
      split_ifs <;> simp [ih]

/-- A line break ends what is read. -/
theorem endsOnce_or_of_mem_bufferedLines (hbuffer : '\n' ∉ buffer) {chunk : List Char}
    (hmem : chunk ∈ bufferedLines buffer text) : EndsOnce '\n' chunk ∨ '\n' ∉ chunk := by
  induction text generalizing buffer with
  | nil =>
      cases buffer with
      | nil => exact absurd hmem List.not_mem_nil
      | cons c buffer =>
          rw [bufferedLines, List.mem_singleton] at hmem
          · exact Or.inr (hmem ▸ hbuffer)
          · exact fun h => absurd h (List.cons_ne_nil _ _)
  | cons c text ih =>
      rw [bufferedLines] at hmem
      by_cases hc : c = '\n'
      · rw [if_pos (Or.inl hc)] at hmem
        rcases List.mem_cons.mp hmem with rfl | hmem
        · exact Or.inl ⟨buffer, hbuffer, by rw [hc]⟩
        · exact ih List.not_mem_nil hmem
      · have hnext : '\n' ∉ buffer ++ [c] := by
          simp [hbuffer, Ne.symm hc]
        split_ifs at hmem
        · rcases List.mem_cons.mp hmem with rfl | hmem
          · exact Or.inr hnext
          · exact ih List.not_mem_nil hmem
        · exact ih hnext hmem

theorem bufferedLines_append (buffer body rest : List Char) :
    bufferedLines buffer (body ++ '\n' :: rest) =
      bufferedLines buffer (body ++ ['\n']) ++ bufferedLines [] rest := by
  induction body generalizing buffer with
  | nil => simp [bufferedLines]
  | cons c body ih =>
      simp only [List.cons_append, bufferedLines]
      split_ifs
      · rw [ih, List.cons_append]
      · exact ih _

/-- The last that is read of a text is the end of the text. -/
theorem bufferedLines_last (buffer body : List Char) :
    ∃ chunks last, bufferedLines buffer (body ++ ['\n']) = chunks ++ [last ++ ['\n']] := by
  induction body generalizing buffer with
  | nil => exact ⟨[], buffer, by simp [bufferedLines]⟩
  | cons c body ih =>
      simp only [List.cons_append, bufferedLines]
      split_ifs
      · obtain ⟨chunks, last, heq⟩ := ih []
        exact ⟨(buffer ++ [c]) :: chunks, last, by rw [heq, List.cons_append]⟩
      · exact ih _

/-- The buffer is filled. -/
theorem bufferedLines_full {body : List Char} (hbody : body ≠ []) (hbreak : '\n' ∉ body.dropLast)
    (hfull : buffer.length + body.length + 1 = configLineBufferSize) (rest : List Char) :
    bufferedLines buffer (body ++ rest) = (buffer ++ body) :: bufferedLines [] rest := by
  induction body generalizing buffer with
  | nil => exact absurd rfl hbody
  | cons c body ih =>
      simp only [List.length_cons] at hfull
      rw [List.cons_append, bufferedLines]
      cases body with
      | nil =>
          rw [if_pos (Or.inr (by simpa using hfull))]
          rfl
      | cons d body =>
          rw [List.dropLast_cons_of_ne_nil (List.cons_ne_nil _ _)] at hbreak
          have hc : ¬ (c = '\n' ∨ buffer.length + 2 = configLineBufferSize) := by
            rintro (rfl | hlength)
            · exact hbreak List.mem_cons_self
            · simp only [List.length_cons] at hfull
              omega
          rw [if_neg hc, ih (List.cons_ne_nil _ _) (fun h => hbreak (List.mem_cons_of_mem _ h))
            (by simp only [List.length_append, List.length_cons, List.length_nil] at *; omega)]
          simp

/-- A line that fits into the buffer is read at once. -/
theorem bufferedLines_short (htext : text ≠ []) (hbreak : '\n' ∉ text.dropLast)
    (hshort : buffer.length + text.length < configLineBufferSize) :
    bufferedLines buffer text = [buffer ++ text] := by
  induction text generalizing buffer with
  | nil => exact absurd rfl htext
  | cons c text ih =>
      simp only [List.length_cons] at hshort
      rw [bufferedLines]
      cases text with
      | nil => split_ifs <;> simp [bufferedLines]
      | cons d text =>
          rw [List.dropLast_cons_of_ne_nil (List.cons_ne_nil _ _)] at hbreak
          have hc : ¬ (c = '\n' ∨ buffer.length + 2 = configLineBufferSize) := by
            rintro (rfl | hlength)
            · exact hbreak List.mem_cons_self
            · simp only [List.length_cons] at hshort
              omega
          rw [if_neg hc, ih (List.cons_ne_nil _ _) (fun h => hbreak (List.mem_cons_of_mem _ h))
            (by simp only [List.length_append, List.length_cons, List.length_nil] at *; omega)]
          simp

theorem break_notMem_dropLast {piece : List Char}
    (hpiece : EndsOnce '\n' piece ∨ piece ≠ [] ∧ '\n' ∉ piece) : '\n' ∉ piece.dropLast := by
  rcases hpiece with ⟨body, hbody, rfl⟩ | ⟨-, hbreak⟩
  · simpa using hbody
  · exact fun h => hbreak (List.mem_of_mem_dropLast h)

end Buffer

/-! ## What is written -/

section Rewriting

variable {key line text chunk : List Char}

theorem rewriteText_append (key line body rest : List Char) :
    rewriteText key line (body ++ '\n' :: rest) =
      rewriteText key line (body ++ ['\n']) ++ rewriteText key line rest := by
  rw [rewriteText, bufferedLines_append, List.flatMap_append]
  rfl

/-- The file is rewritten line by line. -/
theorem rewriteText_eq_flatMap (key line file : List Char) :
    rewriteText key line file = (fileLines file).flatMap (rewriteText key line) := by
  induction file using cutAfter_induction '\n' with
  | nil => rfl
  | last text hne htext => simp [fileLines, cutAfter_last hne htext]
  | piece body rest hbody ih =>
      rw [rewriteText_append, ih, fileLines, fileLines, cutAfter_append hbody, List.flatMap_cons]

theorem rewriteChunk_plain (hkey : ¬ key <+: chunk) (hzero : nul ∉ chunk) :
    rewriteChunk key line chunk = chunk := by
  rw [rewriteChunk, if_neg hkey, List.takeWhile_eq_self_iff]
  intro c hc
  exact decide_eq_true fun heq => hzero (heq ▸ hc)

theorem zero_notMem_of_mem (hzero : nul ∉ text) (hmem : chunk ∈ bufferedLines [] text) :
    nul ∉ chunk := by
  intro hnul
  have htext := flatten_bufferedLines [] text
  rw [List.nil_append] at htext
  exact hzero (htext ▸ List.mem_flatten.mpr ⟨chunk, hmem, hnul⟩)

theorem zero_notMem_rewriteText (hnul : nul ∉ line) (key text : List Char) :
    nul ∉ rewriteText key line text := by
  intro hmem
  obtain ⟨chunk, -, hmem⟩ := List.mem_flatMap.mp hmem
  rw [rewriteChunk] at hmem
  split_ifs at hmem
  · exact hnul hmem
  · exact absurd (List.mem_takeWhile_imp hmem) (by simp)

/-- A line of the key that fits into the buffer is replaced. -/
theorem rewriteText_short (htext : EndsOnce '\n' text ∨ text ≠ [] ∧ '\n' ∉ text)
    (hkey : key <+: text) (hshort : text.length < configLineBufferSize) :
    rewriteText key line text = line := by
  have hne : text ≠ [] := htext.elim EndsOnce.ne_nil And.left
  rw [rewriteText, bufferedLines_short hne (break_notMem_dropLast htext) (by simpa using hshort)]
  simp [rewriteChunk, hkey]

/-- A longer one is replaced as far as it fits. -/
theorem rewriteText_long (line : List Char)
    (htext : EndsOnce '\n' text ∨ text ≠ [] ∧ '\n' ∉ text)
    (hkey : key <+: text) (hlength : key.length < configLineBufferSize)
    (hlong : configLineBufferSize ≤ text.length) :
    rewriteText key line text =
      line ++ rewriteText key line (text.drop (configLineBufferSize - 1)) := by
  have hfirst : (text.take (configLineBufferSize - 1)).length = configLineBufferSize - 1 :=
    List.length_take_of_le (by omega)
  have hne : text.take (configLineBufferSize - 1) ≠ [] := by
    rw [← List.length_pos_iff_ne_nil, hfirst]
    decide
  have hrest : text.drop (configLineBufferSize - 1) ≠ [] := by
    rw [← List.length_pos_iff_ne_nil, List.length_drop]
    omega
  have hprefix : key <+: text.take (configLineBufferSize - 1) :=
    List.prefix_take_iff.mpr ⟨hkey, by omega⟩
  have hbreak := break_notMem_dropLast htext
  rw [← List.take_append_drop (configLineBufferSize - 1) text,
    List.dropLast_append_of_ne_nil hrest, List.mem_append, not_or] at hbreak
  have hread := @bufferedLines_full [] _ hne
    (fun hmem => hbreak.1 (List.mem_of_mem_dropLast hmem)) (by rw [hfirst]; rfl)
    (text.drop (configLineBufferSize - 1))
  rw [List.take_append_drop] at hread
  rw [rewriteText, hread, List.flatMap_cons, List.nil_append, rewriteChunk, if_pos hprefix]
  rfl

theorem rewriteText_lines
    (hshort : ∀ piece ∈ fileLines text, key <+: piece → piece.length < configLineBufferSize)
    (hkept : ∀ piece ∈ fileLines text, ¬ key <+: piece → rewriteText key line piece = piece) :
    rewriteText key line text =
      (fileLines text).flatMap fun piece => if key <+: piece then line else piece := by
  rw [rewriteText_eq_flatMap]
  refine List.flatMap_congr fun piece hmem => ?_
  split_ifs with hkey
  · exact rewriteText_short (endsOnce_or_of_mem hmem) hkey (hshort piece hmem hkey)
  · exact hkept piece hmem hkey

variable (hline : EndsOnce '\n' line)

include hline

theorem count_rewriteChunk_le (hchunk : EndsOnce '\n' chunk ∨ '\n' ∉ chunk) (hzero : nul ∉ chunk) :
    chunk.count '\n' ≤ (rewriteChunk key line chunk).count '\n' := by
  by_cases hkey : key <+: chunk
  · rw [rewriteChunk, if_pos hkey, hline.count_eq]
    rcases hchunk with hends | hbreak
    · exact hends.count_eq.le
    · rw [List.count_eq_zero.mpr hbreak]
      exact Nat.zero_le 1
  · rw [rewriteChunk_plain hkey hzero]

/-- No line break gets lost. -/
theorem count_rewriteText_le (key : List Char) (hzero : nul ∉ text) :
    text.count '\n' ≤ (rewriteText key line text).count '\n' := by
  have htext : (bufferedLines [] text).flatMap id = text := by
    rw [List.flatMap_id, flatten_bufferedLines, List.nil_append]
  calc text.count '\n' = ((bufferedLines [] text).flatMap id).count '\n' := by rw [htext]
    _ ≤ (rewriteText key line text).count '\n' := count_flatMap_le fun chunk hmem =>
        count_rewriteChunk_le hline (endsOnce_or_of_mem_bufferedLines List.not_mem_nil hmem)
          (zero_notMem_of_mem hzero hmem)

/-- A line that is ended is written so that it is ended. -/
theorem rewriteText_ends (key : List Char) {body : List Char} (hzero : nul ∉ body ++ ['\n']) :
    ∃ written, rewriteText key line (body ++ ['\n']) = written ++ ['\n'] := by
  obtain ⟨chunks, last, heq⟩ := bufferedLines_last [] body
  have hlast : nul ∉ last ++ ['\n'] := zero_notMem_of_mem hzero (heq ▸ by simp)
  rw [rewriteText, heq, List.flatMap_append, List.flatMap_singleton]
  by_cases hkey : key <+: last ++ ['\n']
  · obtain ⟨start, -, rfl⟩ := hline
    exact ⟨chunks.flatMap (rewriteChunk key (start ++ ['\n'])) ++ start, by
      rw [rewriteChunk, if_pos hkey, List.append_assoc]⟩
  · rw [rewriteChunk_plain hkey hlast]
    exact ⟨chunks.flatMap (rewriteChunk key line) ++ last, by rw [List.append_assoc]⟩

theorem eq_nil_of_rewriteText (hzero : nul ∉ text) (h : rewriteText key line text = []) :
    text = [] := by
  have hchunks := List.flatMap_eq_nil_iff.mp h
  have htext := flatten_bufferedLines [] text
  rw [List.nil_append] at htext
  rw [← htext, List.flatten_eq_nil_iff]
  intro chunk hmem
  have hchunk := hchunks chunk hmem
  by_cases hkey : key <+: chunk
  · rw [rewriteChunk, if_pos hkey] at hchunk
    exact absurd hchunk hline.ne_nil
  · rwa [rewriteChunk_plain hkey (zero_notMem_of_mem hzero hmem)] at hchunk

/-- A line that is ended and written with one line break has it at the end. -/
theorem endsOnce_rewriteText (hends : EndsOnce '\n' text) (hzero : nul ∉ text)
    (hone : (rewriteText key line text).count '\n' = 1) :
    EndsOnce '\n' (rewriteText key line text) := by
  obtain ⟨body, hbody, rfl⟩ := hends
  obtain ⟨written, heq⟩ := rewriteText_ends hline key hzero
  rw [heq, List.count_append, List.count_singleton_self] at hone
  exact ⟨written, List.count_eq_zero.mp (by omega), heq⟩

/-- The line break of a long line of the key is written behind that of the new line. -/
theorem two_le_count_rewriteText (hends : EndsOnce '\n' text) (hkey : key <+: text)
    (hlength : key.length < configLineBufferSize) (hlong : configLineBufferSize ≤ text.length)
    (hrest : nul ∉ text.drop (configLineBufferSize - 1)) :
    2 ≤ (rewriteText key line text).count '\n' := by
  rw [rewriteText_long line (Or.inl hends) hkey hlength hlong, List.count_append,
    hline.count_eq]
  have hle := count_rewriteText_le hline key hrest
  obtain ⟨body, -, rfl⟩ := hends
  rw [List.length_append, List.length_singleton] at hlong
  rw [List.drop_append_of_le_length (by omega), List.count_append,
    List.count_singleton_self] at hle
  rw [List.drop_append_of_le_length (by omega)]
  omega

/-- No line has more line breaks than are written for it. -/
theorem count_line_le {piece : List Char} (hmem : piece ∈ fileLines text)
    (hlength : key.length < configLineBufferSize) (hzero : ¬ key <+: piece → nul ∉ piece) :
    (if key <+: piece then line else piece).count '\n' ≤
      (rewriteText key line piece).count '\n' := by
  split_ifs with hkey
  · rw [hline.count_eq]
    rcases Nat.lt_or_ge piece.length configLineBufferSize with hshort | hlong
    · rw [rewriteText_short (endsOnce_or_of_mem hmem) hkey hshort, hline.count_eq]
    · rw [rewriteText_long line (endsOnce_or_of_mem hmem) hkey hlength hlong, List.count_append,
        hline.count_eq]
      omega
  · exact count_rewriteText_le hline key (hzero hkey)

/-- Every line is replaced as it should, if all of them together are and no line of the key has a
zero behind the buffer. -/
theorem rewriteText_line_eq (hlength : key.length < configLineBufferSize)
    (hrest : ∀ piece ∈ fileLines text, key <+: piece →
      nul ∉ piece.drop (configLineBufferSize - 1))
    (hzero : ∀ piece ∈ fileLines text, ¬ key <+: piece → nul ∉ piece)
    (h : (fileLines text).flatMap (rewriteText key line) =
      (fileLines text).flatMap fun piece => if key <+: piece then line else piece) :
    ∀ piece ∈ fileLines text,
      rewriteText key line piece = if key <+: piece then line else piece := by
  have hcount := count_eq_of_flatMap_eq '\n' (fun piece hmem =>
    count_line_le hline hmem hlength (hzero piece hmem)) h
  refine eq_of_flatMap_eq '\n' (fun piece hlast => ?_) h
  have hmem := List.mem_of_mem_dropLast hlast
  have hends := endsOnce_of_mem_dropLast hlast
  have hone := hcount piece hmem
  by_cases hkey : key <+: piece
  · rw [if_pos hkey] at hone ⊢
    rcases Nat.lt_or_ge piece.length configLineBufferSize with hshort | hlong
    · exact Or.inl (rewriteText_short (Or.inl hends) hkey hshort)
    · have htwo := two_le_count_rewriteText hline hends hkey hlength hlong (hrest piece hmem hkey)
      rw [hone, hline.count_eq] at htwo
      exact absurd htwo (by decide)
  · rw [if_neg hkey] at hone ⊢
    rw [hends.count_eq] at hone
    exact Or.inr ⟨endsOnce_rewriteText hline hends (hzero piece hmem hkey) hone, hends⟩

variable (hnul : nul ∉ line)

include hnul

/-- What is rewritten as it was. -/
theorem rewriteText_eq_iff : rewriteText key line text = text ↔ Kept key line text := by
  have htext : (bufferedLines [] text).flatMap id = text := by
    rw [List.flatMap_id, flatten_bufferedLines, List.nil_append]
  constructor
  · intro h
    have hzero : nul ∉ text := h ▸ zero_notMem_rewriteText hnul key text
    refine ⟨fun chunk hmem hkey => ?_, hzero⟩
    have hflat : (bufferedLines [] text).flatMap (rewriteChunk key line) =
        (bufferedLines [] text).flatMap id := h.trans htext.symm
    have hends := fun chunk (hmem : chunk ∈ bufferedLines [] text) =>
      endsOnce_or_of_mem_bufferedLines List.not_mem_nil hmem
    have hcount := count_eq_of_flatMap_eq '\n' (fun chunk hmem =>
      count_rewriteChunk_le hline (hends chunk hmem) (zero_notMem_of_mem hzero hmem)) hflat
    -- What was replaced by a line was one.
    have heq := eq_of_flatMap_eq '\n' (fun chunk hmem => ?_) hflat chunk hmem
    · rw [rewriteChunk, if_pos hkey] at heq
      exact heq.symm
    · have hmem := List.mem_of_mem_dropLast hmem
      by_cases hkey : key <+: chunk
      · have hone := hcount chunk hmem
        rw [rewriteChunk, if_pos hkey] at hone ⊢
        refine Or.inr ⟨hline, (hends chunk hmem).resolve_right fun hbreak => ?_⟩
        rw [hline.count_eq, List.count_eq_zero.mpr hbreak] at hone
        exact absurd hone one_ne_zero
      · exact Or.inl (rewriteChunk_plain hkey (zero_notMem_of_mem hzero hmem))
  · rintro ⟨hchunks, hzero⟩
    rw [rewriteText]
    refine Eq.trans (List.flatMap_congr fun chunk hmem => ?_) htext
    by_cases hkey : key <+: chunk
    · rw [rewriteChunk, if_pos hkey]
      exact (hchunks chunk hmem hkey).symm
    · exact rewriteChunk_plain hkey (zero_notMem_of_mem hzero hmem)

/-- A line of the key that is replaced as it should is not longer than the buffer, unless the rest
of it has a zero. -/
theorem lines_of_rewriteText (hlength : key.length < configLineBufferSize)
    (hrest : ∀ piece ∈ fileLines text, key <+: piece →
      nul ∉ piece.drop (configLineBufferSize - 1))
    (h : rewriteText key line text =
      (fileLines text).flatMap fun piece => if key <+: piece then line else piece) :
    ∀ piece ∈ fileLines text,
      (key <+: piece → piece.length < configLineBufferSize) ∧
        (¬ key <+: piece → Kept key line piece) := by
  have hzero : ∀ piece ∈ fileLines text, ¬ key <+: piece → nul ∉ piece := by
    intro piece hmem hkey hnulmem
    have hwritten : nul ∈ rewriteText key line text := by
      rw [h]
      exact List.mem_flatMap.mpr ⟨piece, hmem, by rwa [if_neg hkey]⟩
    exact zero_notMem_rewriteText hnul key text hwritten
  rw [rewriteText_eq_flatMap] at h
  have heq := rewriteText_line_eq hline hlength hrest hzero h
  intro piece hmem
  have hwritten := heq piece hmem
  refine ⟨fun hkey => ?_, fun hkey => ?_⟩
  · by_contra hshort
    have hlong := Nat.le_of_not_lt hshort
    rw [if_pos hkey, rewriteText_long line (endsOnce_or_of_mem hmem) hkey hlength hlong]
      at hwritten
    have hnone := eq_nil_of_rewriteText hline (hrest piece hmem hkey)
      (List.append_right_eq_self.mp hwritten)
    have hlengths := congrArg List.length hnone
    rw [List.length_drop, List.length_nil] at hlengths
    omega
  · rw [if_neg hkey] at hwritten
    exact (rewriteText_eq_iff hline hnul).mp hwritten

end Rewriting

/-! ## What is shown -/

section Shown

variable {active table : Fin rtmMax → UInt8}

theorem fillShown_of_lt {directions : List (Fin rtmMax)} {j : ℕ} {shown : Fin rtmMax → UInt8}
    {k : Fin rtmMax} (hk : k.val < j) :
    fillShown active table directions j shown k = shown k := by
  induction directions generalizing j shown with
  | nil => rfl
  | cons i directions ih =>
      rw [fillShown]
      split_ifs
      · rw [ih (Nat.lt_succ_of_lt hk), if_neg hk.ne]
      · exact ih hk

/-- The entry of the active direction that comes at a place. -/
theorem fillShown_getElem {directions : List (Fin rtmMax)} {j n : ℕ} {shown : Fin rtmMax → UInt8}
    {k : Fin rtmMax} (hk : k.val = j + n)
    (hn : n < ((directions.filter fun i => active i ≠ 0).map table).length) :
    fillShown active table directions j shown k =
      ((directions.filter fun i => active i ≠ 0).map table)[n] := by
  induction directions generalizing j n shown with
  | nil => exact absurd hn (Nat.not_lt_zero n)
  | cons i directions ih =>
      rw [fillShown]
      by_cases hactive : active i ≠ 0
      · simp only [List.filter_cons_of_pos (p := fun i => decide (active i ≠ 0))
          (decide_eq_true hactive), List.map_cons, if_pos hactive] at hn ⊢
        cases n with
        | zero =>
            rw [fillShown_of_lt (by omega), if_pos (by omega), List.getElem_cons_zero]
        | succ n =>
            rw [List.getElem_cons_succ]
            exact ih (by omega) (Nat.lt_of_succ_lt_succ hn)
      · simp only [List.filter_cons_of_neg (p := fun i => decide (active i ≠ 0))
          (by simpa using hactive), if_neg hactive] at hn ⊢
        exact ih hk hn

/-- What is shown begins with the entries of the active directions. -/
theorem activeEntries_shown (config : VmsConfig) (table shown : Fin rtmMax → UInt8) :
    config.activeEntries table <+:
      List.ofFn (fillShown config.activateDirections table (List.finRange rtmMax) 0 shown) := by
  rw [List.prefix_iff_getElem]
  have hlength : (config.activeEntries table).length ≤ rtmMax := by
    rw [VmsConfig.activeEntries, List.length_map]
    exact (List.length_filter_le _ _).trans (List.length_finRange).le
  refine ⟨by rwa [List.length_ofFn], fun n hn => ?_⟩
  rw [List.getElem_ofFn]
  exact (fillShown_getElem (Nat.zero_add n).symm hn).symm

end Shown

/-! ## The request -/

section Request

variable {opened : Bool} {request : CarouselRequest} {s : VmsState}

theorem searchStr_length (request : CarouselRequest) :
    request.searchStr.length < configLineBufferSize := by
  rw [CarouselRequest.searchStr]
  split_ifs <;> decide

theorem searchStr_chars (request : CarouselRequest) :
    '\n' ∉ request.searchStr ∧ nul ∉ request.searchStr := by
  rw [CarouselRequest.searchStr]
  split_ifs <;> decide

/-- No character that is not of a number stands behind the key. -/
theorem notMem_entries (table : Fin rtmMax → UInt8) {c : Char} (hspace : c ≠ ' ')
    (hc : isNumeral c = false) :
    c ∉ (List.finRange rtmMax).flatMap fun i => ' ' :: formatUint8 (table i) := by
  intro hmem
  obtain ⟨i, -, hmem⟩ := List.mem_flatMap.mp hmem
  rcases List.mem_cons.mp hmem with rfl | hmem
  · exact hspace rfl
  · exact absurd (formatInt_numeral _ c hmem) (by simp [hc])

theorem programsLine_ends (request : CarouselRequest) (table : Fin rtmMax → UInt8) :
    EndsOnce '\n' (programsLine request.searchStr table) :=
  ⟨_, by simpa [(searchStr_chars request).1] using
    notMem_entries table (by decide) (by decide : isNumeral '\n' = false), rfl⟩

theorem zero_notMem_programsLine (request : CarouselRequest) (table : Fin rtmMax → UInt8) :
    nul ∉ programsLine request.searchStr table := by
  intro hmem
  rcases List.mem_append.mp hmem with hmem | hmem
  · rcases List.mem_append.mp hmem with hmem | hmem
    · exact (searchStr_chars request).2 hmem
    · exact notMem_entries table (by decide) (by decide) hmem
  · exact absurd hmem (by decide)

theorem carouselUpdate_not_valid (hopened : opened = true) (hvalid : ¬ request.Valid) :
    (carouselUpdate opened request s).1 ≠ 0 ∧
      (carouselUpdate opened request s).2 =
        { s with file := rewriteText request.searchStr (request.writeBuf s.config) s.file } := by
  rw [carouselUpdate, if_pos hopened]
  dsimp only
  split_ifs with hid htype hprogram
  · exact ⟨(by decide : (-1 : ℤ) ≠ 0), rfl⟩
  · exact ⟨(by decide : (-2 : ℤ) ≠ 0), rfl⟩
  · exact ⟨(by decide : (-3 : ℤ) ≠ 0), rfl⟩
  · refine absurd ⟨UInt8.not_lt.mp hid, ?_, hprogram⟩ hvalid
    rwa [not_and_or, not_not, not_not] at htype

theorem carouselUpdate_valid (hopened : opened = true) (hvalid : request.Valid) :
    (carouselUpdate opened request s).1 = 0 ∧
      (carouselUpdate opened request s).2.config = s.config.enter request ∧
      (carouselUpdate opened request s).2.file =
        rewriteText request.searchStr (request.writeBuf s.config) s.file := by
  obtain ⟨hid, htype, hprogram⟩ := hvalid
  rw [carouselUpdate, if_pos hopened]
  dsimp only
  rw [if_neg (UInt8.not_lt.mpr hid), if_neg (by tauto), if_neg hprogram]
  exact ⟨rfl, rfl, rfl⟩

theorem enter_table (config : VmsConfig) :
    (config.enter request).table request = request.entered (config.table request) := by
  rw [VmsConfig.enter, VmsConfig.table, VmsConfig.table]
  split_ifs <;> rfl

theorem carouselUpdate_shown (hopened : opened = true) (hvalid : request.Valid) :
    let s' := (carouselUpdate opened request s).2
    s'.config.activeEntries s'.config.programIdsGreen <+: List.ofFn s'.shownGreen ∧
      s'.config.activeEntries s'.config.programIdsNotGreen <+: List.ofFn s'.shownNotGreen := by
  obtain ⟨hid, htype, hprogram⟩ := hvalid
  rw [carouselUpdate, if_pos hopened]
  dsimp only
  rw [if_neg (UInt8.not_lt.mpr hid), if_neg (by tauto), if_neg hprogram]
  exact ⟨activeEntries_shown _ _ _, activeEntries_shown _ _ _⟩

/-- A request that is accepted is in the tables; whether it is in the file is left to show. -/
theorem entered_of_listed (hopened : opened = true) (hvalid : request.Valid)
    (hlisted : Listed request.searchStr (request.entered (s.config.table request)) s.file
      (rewriteText request.searchStr (request.writeBuf s.config) s.file)) :
    Entered request s (carouselUpdate opened request s).2 := by
  obtain ⟨-, hconfig, hfile⟩ := carouselUpdate_valid (s := s) hopened hvalid
  obtain ⟨hgreen, hnotGreen⟩ := carouselUpdate_shown (s := s) hopened hvalid
  refine ⟨?_, fun htype => ?_, fun htype => ?_, ?_, ?_, hgreen, hnotGreen⟩
  · rw [hconfig, enter_table]
    rfl
  · rw [hconfig, VmsConfig.enter, if_neg htype]
  · rw [hconfig, VmsConfig.enter, if_pos htype]
  · rw [hconfig, VmsConfig.enter]
    split_ifs <;> rfl
  · rwa [hfile, hconfig, enter_table]

theorem listed_of_entered (hopened : opened = true) (hvalid : request.Valid)
    (h : Entered request s (carouselUpdate opened request s).2) :
    Listed request.searchStr (request.entered (s.config.table request)) s.file
      (rewriteText request.searchStr (request.writeBuf s.config) s.file) := by
  obtain ⟨-, hconfig, hfile⟩ := carouselUpdate_valid (s := s) hopened hvalid
  have hlisted := h.file
  rwa [hfile, hconfig, enter_table] at hlisted

/-- Every sign shows the program 1. -/
def VmsState.ones : VmsState where
  config := ⟨fun _ => 1, fun _ => 1, fun _ => 1⟩
  shownGreen := fun _ => 1
  shownNotGreen := fun _ => 1
  file := "PROGRAM_IDs_GREEN 1 1 1 1 1 1 1 1\n".toList

end Request

end AdaptiveSignal.Configuration
