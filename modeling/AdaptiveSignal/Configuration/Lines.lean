import AdaptiveSignal.Configuration.ChangeStrategy

/-! # Reading what was written

A line that was written has the name of one key in front of its first space, and no
capital letter after it. It is read at that key and at no other.
-/

namespace AdaptiveSignal.Configuration

open Foundation

variable {single : SingleFormat} {double : DoubleFormat}

/-! ## The names of the keys -/

def isUpper (c : Char) : Bool := 65 ≤ c.toNat && c.toNat ≤ 90

theorem eq_false_of_all {p : Char → Bool} {chars : List Char}
    (h : (chars.all fun c => !p c) = true) : ∀ c ∈ chars, p c = false := by
  simpa using h

theorem Key.mem_all (key : Key) : key ∈ Key.all := by
  cases key with
  | flag flag => cases flag <;> decide
  | _ => decide

theorem Key.all_nodup : Key.all.Nodup := by decide

theorem Key.name_no_space (key : Key) : ∀ c ∈ key.name.toList, isSpace c = false := by
  have hall : ∀ key ∈ Key.all, (key.name.toList.all fun c => !isSpace c) = true := by
    decide +kernel
  exact eq_false_of_all (hall key key.mem_all)

theorem Key.space_notMem_name (key : Key) : ' ' ∉ key.name.toList :=
  fun hmem => absurd (key.name_no_space ' ' hmem) (by decide)

theorem Key.name_head (key : Key) : ∃ c rest, key.name.toList = c :: rest ∧ isUpper c = true := by
  have hall : ∀ key ∈ Key.all, key.name.toList.head?.any isUpper = true := by
    decide +kernel
  have hkey := hall key key.mem_all
  cases hname : key.name.toList with
  | nil =>
      rw [hname] at hkey
      exact absurd hkey (by decide)
  | cons c rest =>
      rw [hname] at hkey
      exact ⟨c, rest, rfl, hkey⟩

/-- No name of a key ends in the name of another. -/
theorem Key.eq_of_suffix {key other : Key} (h : key.name.toList <:+ other.name.toList) :
    key = other := by
  have hall : ∀ key ∈ Key.all, ∀ other ∈ Key.all,
      key.name.toList <:+ other.name.toList → key = other := by decide +kernel
  exact hall key key.mem_all other other.mem_all h

/-! ## The key of a line -/

theorem eq_of_append_space {xs ys xs' ys' : List Char} (hxs : ' ' ∉ xs) (hys : ' ' ∉ ys)
    (h : xs ++ ' ' :: xs' = ys ++ ' ' :: ys') : xs = ys := by
  induction xs generalizing ys with
  | nil =>
      cases ys with
      | nil => rfl
      | cons c ys => exact absurd (List.cons.inj h).1 fun hc => hys (hc ▸ List.mem_cons_self)
  | cons c xs ih =>
      cases ys with
      | nil => exact absurd (List.cons.inj h).1 fun hc => hxs (hc ▸ List.mem_cons_self)
      | cons d ys =>
          obtain ⟨hhead, htail⟩ := List.cons.inj h
          rw [hhead, ih (fun hmem => hxs (List.mem_cons_of_mem _ hmem))
            (fun hmem => hys (List.mem_cons_of_mem _ hmem)) htail]

/-- A key stands in a line only at the end of the name. -/
theorem strstr_line {name value : List Char} (hname : ' ' ∉ name)
    (hvalue : ∀ c ∈ value, isUpper c = false) (key : Key) :
    strstr (name ++ ' ' :: value) (key.name.toList ++ [' ']) =
      decide (key.name.toList <:+ name) := by
  apply decide_eq_decide.mpr
  constructor
  · rintro ⟨before, after, heq⟩
    have heq : before ++ (key.name.toList ++ ' ' :: after) = name ++ ' ' :: value := by
      simpa using heq
    rcases List.append_eq_append_iff.mp heq with ⟨more, hmore, hrest⟩ | ⟨more, hmore, hrest⟩
    · have hno : ' ' ∉ more := fun hmem => hname (hmore ▸ List.mem_append_right _ hmem)
      rw [hmore, eq_of_append_space key.space_notMem_name hno hrest]
      exact List.suffix_append _ _
    · obtain ⟨c, rest, hhead, hupper⟩ := key.name_head
      have hmem : c ∈ ' ' :: value := by
        rw [hrest, hhead]
        exact List.mem_append_right _ List.mem_cons_self
      rcases List.mem_cons.mp hmem with rfl | hmem
      · exact absurd hupper (by decide)
      · exact absurd hupper (by simp [hvalue c hmem])
  · rintro ⟨before, rfl⟩
    exact ⟨before, value, by simp⟩

/-- What becomes of a line at its only key. -/
def Outcome.last {Config : Type} : Outcome Config → Outcome Config
  | .next config => .next config
  | .on config => .next config
  | .fail code config => .fail code config

theorem readKeys_none {keys : List Key} {line : List Char} (config : Config single double)
    (hkeys : ∀ key ∈ keys, strstr line (key.name.toList ++ [' ']) = false) :
    readKeys line keys config = .next config := by
  induction keys with
  | nil => rfl
  | cons key keys ih =>
      rw [readKeys, hkeys key List.mem_cons_self]
      exact ih fun other hother => hkeys other (List.mem_cons_of_mem _ hother)

theorem readKeys_one {keys : List Key} {line : List Char} {key : Key}
    (config : Config single double)
    (hkeys : ∀ other ∈ keys, strstr line (other.name.toList ++ [' ']) = decide (other = key))
    (hnodup : keys.Nodup) (hmem : key ∈ keys) :
    readKeys line keys config = (readKey key line config).last := by
  induction keys with
  | nil => exact absurd hmem List.not_mem_nil
  | cons other keys ih =>
      obtain ⟨hother, hnodup⟩ := List.nodup_cons.mp hnodup
      have hrest : ∀ other ∈ keys, strstr line (other.name.toList ++ [' ']) =
          decide (other = key) := fun other hother => hkeys other (List.mem_cons_of_mem _ hother)
      rw [readKeys, hkeys other List.mem_cons_self]
      by_cases heq : other = key
      · subst heq
        have hnone := fun config : Config single double =>
          readKeys_none config fun key hkey => (hrest key hkey).trans
            (decide_eq_false fun heq => hother (heq ▸ hkey))
        rw [if_pos (decide_eq_true rfl)]
        cases readKey other line config with
        | next config => rfl
        | on config => exact hnone config
        | fail code config => rfl
      · rw [if_neg (by simp [heq])]
        exact ih hrest hnodup ((List.mem_cons.mp hmem).resolve_left fun h => heq h.symm)

theorem readLine_upper {c : Char} (hc : isUpper c = true) (line : List Char)
    (config : Config single double) :
    readLine (c :: line) config = readKeys (c :: line) Key.all config := by
  rw [readLine, if_neg]
  rintro (h | h | h) <;>
  · rw [← Option.some.inj h.symm] at hc
    exact absurd hc (by decide)

/-- A line is read at the key that its name is. -/
theorem readLine_key (key : Key) {value : List Char} (hvalue : ∀ c ∈ value, isUpper c = false)
    (config : Config single double) :
    readLine (key.name.toList ++ ' ' :: value) config =
      (readKey key (key.name.toList ++ ' ' :: value) config).last := by
  have hline : readLine (key.name.toList ++ ' ' :: value) config =
      readKeys (key.name.toList ++ ' ' :: value) Key.all config := by
    obtain ⟨c, rest, hhead, hupper⟩ := key.name_head
    rw [hhead]
    exact readLine_upper hupper _ _
  rw [hline]
  apply readKeys_one config _ Key.all_nodup key.mem_all
  intro other _
  rw [strstr_line key.space_notMem_name hvalue]
  exact decide_eq_decide.mpr ⟨Key.eq_of_suffix, fun heq => heq ▸ List.suffix_rfl⟩

/-- A line in front of whose first space no key ends is passed over. -/
theorem readLine_none {name value : List Char} (hname : ' ' ∉ name)
    (hvalue : ∀ c ∈ value, isUpper c = false) (hkeys : ∀ key ∈ Key.all, ¬ key.name.toList <:+ name)
    (config : Config single double) : readLine (name ++ ' ' :: value) config = .next config := by
  unfold readLine
  split_ifs
  · rfl
  · apply readKeys_none
    intro key hkey
    rw [strstr_line hname hvalue]
    exact decide_eq_false (hkeys key hkey)

/-- A line without capital letters is passed over. -/
theorem readLine_lower {line : List Char} (hline : ∀ c ∈ line, isUpper c = false)
    (config : Config single double) : readLine line config = .next config := by
  unfold readLine
  split_ifs
  · rfl
  · apply readKeys_none
    intro key _
    apply decide_eq_false
    rintro ⟨before, after, rfl⟩
    obtain ⟨c, rest, hhead, hupper⟩ := key.name_head
    have hmem : c ∈ before ++ (key.name.toList ++ [' ']) ++ after := by simp [hhead]
    exact absurd hupper (by simp [hline c hmem])

/-! ## Lines that are read one after another -/

theorem assignWeights_fail {weights : Fin phaseCountMaxNum → single.Value}
    {slots : List (Fin phaseCountMaxNum)} {config config' : Config single double} {code : ℤ}
    (h : assignWeights weights slots config = .fail code config') : code ≠ configAccept := by
  induction slots generalizing config with
  | nil => cases h
  | cons slot slots ih =>
      rw [assignWeights] at h
      split_ifs at h
      · exact ih h
      · cases h
        decide

theorem readKey_fail {key : Key} {line : List Char} {config config' : Config single double}
    {code : ℤ} (h : readKey key line config = .fail code config') : code ≠ configAccept := by
  cases key with
  | phaseWeight =>
      rw [readKey] at h
      split at h
      · exact assignWeights_fail h
      · cases h
        decide
  | flag flag =>
      have hcode : flag.invalid ≠ configAccept := by cases flag <;> decide
      rw [readKey] at h
      split at h
      · split_ifs at h
        cases h
        exact hcode
      · cases h
        exact hcode
  | _ =>
      simp only [readKey] at h
      split at h
      all_goals try split_ifs at h
      all_goals cases h
      all_goals decide

theorem readKeys_fail {keys : List Key} {line : List Char} {config config' : Config single double}
    {code : ℤ} (h : readKeys line keys config = .fail code config') : code ≠ configAccept := by
  induction keys generalizing config with
  | nil => cases h
  | cons key keys ih =>
      rw [readKeys] at h
      split_ifs at h
      · cases hkey : readKey key line config with
        | next d =>
            rw [hkey] at h
            cases h
        | on d =>
            rw [hkey] at h
            exact ih h
        | fail code' d =>
            rw [hkey] at h
            cases h
            exact readKey_fail hkey
      · exact ih h

theorem readLine_fail {line : List Char} {config config' : Config single double} {code : ℤ}
    (h : readLine line config = .fail code config') : code ≠ configAccept := by
  unfold readLine at h
  split_ifs at h
  exact readKeys_fail h

/-- The lines are read without an error. -/
def Reads : List (List Char) → Config single double → Config single double → Prop
  | [], config, config' => config' = config
  | line :: lines, config, config' =>
      ∃ d, (readLine line config).last = .next d ∧ Reads lines d config'

theorem reads_append (first second : List (List Char)) (config config' : Config single double) :
    Reads (first ++ second) config config' ↔
      ∃ d, Reads first config d ∧ Reads second d config' := by
  induction first generalizing config with
  | nil => simp [Reads]
  | cons line first ih =>
      simp only [List.cons_append, Reads, ih]
      constructor
      · rintro ⟨d, hline, e, hfirst, hsecond⟩
        exact ⟨e, ⟨d, hline, hfirst⟩, hsecond⟩
      · rintro ⟨e, ⟨d, hline, hfirst⟩, hsecond⟩
        exact ⟨d, hline, e, hfirst, hsecond⟩

/-- What `fgets` returns at once. -/
structure Chunk (chunk : List Char) : Prop where
  fgets_eq : ∀ rest, fgets (configLineBufferSize - 1) (chunk ++ rest) = (chunk, rest)
  ne_nil : chunk ≠ []
  not_reachesEnd : ∀ rest, reachesEnd chunk rest = false

theorem fgets_line {size : ℕ} {body : List Char} (hsize : body.length < size)
    (hbody : '\n' ∉ body) (rest : List Char) :
    fgets size (body ++ '\n' :: rest) = (body ++ ['\n'], rest) := by
  induction body generalizing size with
  | nil =>
      obtain ⟨size, rfl⟩ := Nat.exists_eq_succ_of_ne_zero (Nat.ne_of_gt hsize)
      rfl
  | cons c body ih =>
      obtain ⟨size, rfl⟩ := Nat.exists_eq_succ_of_ne_zero (Nat.ne_of_gt (Nat.zero_lt_of_lt hsize))
      have hc : c ≠ '\n' := fun heq => hbody (heq ▸ List.mem_cons_self)
      rw [List.cons_append, fgets, if_neg hc, ih (Nat.lt_of_succ_lt_succ hsize)
        fun hmem => hbody (List.mem_cons_of_mem _ hmem)]
      rfl

theorem fgets_full {body : List Char} (hbody : '\n' ∉ body) (rest : List Char) :
    fgets body.length (body ++ rest) = (body, rest) := by
  induction body with
  | nil => rfl
  | cons c body ih =>
      have hc : c ≠ '\n' := fun heq => hbody (heq ▸ List.mem_cons_self)
      rw [List.cons_append, List.length_cons, fgets, if_neg hc,
        ih fun hmem => hbody (List.mem_cons_of_mem _ hmem)]

theorem chunk_line {body : List Char} (hlength : body.length < configLineBufferSize - 1)
    (hbody : '\n' ∉ body) : Chunk (body ++ ['\n']) where
  fgets_eq := fun rest => by
    rw [List.append_assoc]
    exact fgets_line hlength hbody rest
  ne_nil := List.append_ne_nil_of_right_ne_nil _ (List.cons_ne_nil _ _)
  not_reachesEnd := fun rest => by simp [reachesEnd]

theorem chunk_full {body : List Char} (hlength : body.length = configLineBufferSize - 1)
    (hbody : '\n' ∉ body) : Chunk body where
  fgets_eq := fun rest => by
    rw [← hlength]
    exact fgets_full hbody rest
  ne_nil := by
    rintro rfl
    cases hlength
  not_reachesEnd := fun rest => by simp [reachesEnd, hlength]

/-- The last line is read twice. -/
theorem readLoop_accept {chunks : List (List Char)} (hchunks : ∀ chunk ∈ chunks, Chunk chunk)
    (line : List Char) (config config' : Config single double) :
    readLoop line chunks.flatten config = (configAccept, config') ↔
      Reads (chunks ++ [chunks.getLastD line]) config config' := by
  induction chunks generalizing line config with
  | nil =>
      rw [List.flatten_nil, readLoop, dif_pos rfl]
      simp only [List.nil_append, List.getLastD_nil, Reads]
      cases hline : readLine line config with
      | next d => simp [Outcome.last, eq_comm]
      | on d => simp [Outcome.last, eq_comm]
      | fail code d => simp [Outcome.last, readLine_fail hline]
  | cons chunk chunks ih =>
      have hchunk := hchunks chunk List.mem_cons_self
      have hih := fun d => ih (fun other hother => hchunks other (List.mem_cons_of_mem _ hother))
        chunk d
      have hne : (chunk :: chunks).flatten ≠ [] :=
        List.append_ne_nil_of_left_ne_nil hchunk.ne_nil _
      rw [readLoop, dif_neg hne]
      simp only [List.flatten_cons, hchunk.fgets_eq, hchunk.not_reachesEnd, Bool.false_eq_true,
        if_false, List.cons_append, List.getLastD_cons, Reads]
      cases hline : readLine chunk config with
      | next d => simp [Outcome.last, hih]
      | on d => simp [Outcome.last, hih]
      | fail code d => simp [Outcome.last, readLine_fail hline]

end AdaptiveSignal.Configuration
