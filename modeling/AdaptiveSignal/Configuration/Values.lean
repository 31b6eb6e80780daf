import AdaptiveSignal.Configuration.Lines

/-! # The lines that were written, one by one

What reading each line does to the configuration: a name, a flag and an integer come
back as they were; a decimal number comes back as the number it was rounded to.
-/

namespace AdaptiveSignal.Configuration

open Foundation

variable {single : SingleFormat} {double : DoubleFormat}

/-! ## Scanning a written line -/

theorem line_eq (name : String) (value : List Char) :
    line name value = name.toList ++ ' ' :: (value ++ ['\n']) := by
  simp [line]

theorem ends_newline : Ends ['\n'] := by
  intro c hc
  rw [← Option.some.inj hc]
  decide

theorem scanWord_space (s : List Char) : scanWord (' ' :: s) = scanWord s := rfl

theorem scanInt_space (s : List Char) : scanInt (' ' :: s) = scanInt s := rfl

theorem scanWord_word {word rest : List Char} (hne : word ≠ [])
    (hword : ∀ c ∈ word, isSpace c = false) (hrest : Ends rest) :
    scanWord (word ++ rest) = some (word, rest) := by
  obtain ⟨c, more, rfl⟩ := List.exists_cons_of_ne_nil hne
  have hskip : skipSpace (c :: more ++ rest) = c :: more ++ rest :=
    List.dropWhile_cons_of_neg (by simp [hword c List.mem_cons_self])
  have hall : ∀ d ∈ c :: more, (!isSpace d) = true := fun d hd => by simp [hword d hd]
  have hstop : rest.takeWhile (fun c => !isSpace c) = [] ∧
      rest.dropWhile (fun c => !isSpace c) = rest := by
    cases rest with
    | nil => exact ⟨rfl, rfl⟩
    | cons d rest =>
        have hd := hrest d rfl
        exact ⟨by simp [hd], by simp [hd]⟩
  rw [scanWord, hskip]
  simp only [List.takeWhile_append_of_pos hall, List.dropWhile_append_of_pos hall, hstop.1,
    hstop.2, List.append_nil, if_neg (List.cons_ne_nil c more)]

theorem Key.name_ne_nil (key : Key) : key.name.toList ≠ [] := by
  obtain ⟨c, rest, hname, _⟩ := key.name_head
  rw [hname]
  exact List.cons_ne_nil c rest

theorem scanWord_key (key : Key) (value : List Char) :
    scanWord (key.name.toList ++ ' ' :: value) = some (key.name.toList, ' ' :: value) := by
  apply scanWord_word key.name_ne_nil key.name_no_space
  intro c hc
  rw [← Option.some.inj hc]
  decide

theorem ofInt_toNat (n : UInt8) : UInt8.ofInt n.toNat = n := by
  have hlt := n.toNat_lt
  have hmod : ((n.toNat : ℤ) % 2 ^ 8).toNat = n.toNat := by omega
  rw [UInt8.ofInt, hmod, UInt8.ofNat_toNat]

/-- An integer that is printed with a sign is scanned without one. -/
theorem ofInt_toInt32 (n : UInt32) : UInt32.ofInt n.toInt32.toInt = n := by
  have hint : n.toInt32.toInt = n.toBitVec.toInt := rfl
  have hlt : n.toBitVec.toNat < 2 ^ 32 := n.toNat_lt
  have hmod : (n.toBitVec.toInt % 2 ^ 32).toNat = n.toNat := by
    rw [BitVec.toInt_eq_toNat_cond, UInt32.toNat]
    split <;> omega
  rw [UInt32.ofInt, hint, hmod, UInt32.ofNat_toNat]

theorem readUint8_line (key : Key) (n : UInt8) :
    readUint8 (line key.name (formatUint8 n)) = some n := by
  rw [line_eq, readUint8, scanWord_key]
  simp [scanInt_space, formatUint8, scanInt_formatInt _ ends_newline, ofInt_toNat]

theorem readUint32_line (key : Key) (n : UInt32) :
    readUint32 (line key.name (formatUint32 n)) = some n := by
  rw [line_eq, readUint32, scanWord_key]
  simp [scanInt_space, formatUint32, scanInt_formatInt _ ends_newline, ofInt_toInt32]

theorem readDecimal_line (key : Key) (places : ℕ) (q : ℚ) :
    readDecimal (line key.name (formatFixed places q)) = some (roundTo places q) := by
  rw [line_eq, readDecimal, scanWord_key]
  simp [scanDecimal_space, scanDecimal_formatFixed places q ends_newline]

theorem readString_line (key : Key) {word : List Char} (hne : word ≠ [])
    (hword : ∀ c ∈ word, isSpace c = false) : readString (line key.name word) = some word := by
  rw [line_eq, readString, scanWord_key]
  simp [scanWord_space, scanWord_word hne hword ends_newline]

theorem readName_line (name : RsuName) :
    readName (line Key.rsuName.name ('"' :: name.chars ++ ['"'])) = some name.chars := by
  have htake : (name.chars ++ ['"', '\n']).takeWhile isQuotable = name.chars := by
    rw [List.takeWhile_append_of_pos (List.all_eq_true.mp name.quotable)]
    simp [isQuotable]
  have hskip : skipSpace (' ' :: '"' :: (name.chars ++ ['"', '\n'])) =
      '"' :: (name.chars ++ ['"', '\n']) := rfl
  have hline : line Key.rsuName.name ('"' :: name.chars ++ ['"']) =
      Key.rsuName.name.toList ++ ' ' :: '"' :: (name.chars ++ ['"', '\n']) := by simp [line_eq]
  rw [hline, readName, scanWord_key]
  simp only [Option.bind_eq_bind, Option.bind_some, hskip, htake, if_neg name.nonempty]

theorem RsuName.ofChars_chars (name : RsuName) : RsuName.ofChars name.chars = some name :=
  dif_pos ⟨name.nonempty, name.short, name.quotable⟩

/-! ## What a line does -/

theorem isUpper_of_isNumeral {c : Char} (hc : isNumeral c = true) : isUpper c = false := by
  have hdigit : isDigit c = true → isUpper c = false := by
    simp only [isDigit, isUpper, Bool.and_eq_true, decide_eq_true_eq, Bool.and_eq_false_iff,
      decide_eq_false_iff_not]
    omega
  simp only [isNumeral, Bool.or_eq_true, decide_eq_true_eq] at hc
  rcases hc with (hc | rfl) | rfl
  · exact hdigit hc
  · decide
  · decide

theorem reads_cons (line : List Char) (lines : List (List Char))
    (config config' : Config single double) :
    Reads (line :: lines) config config' ↔
      ∃ d, Reads [line] config d ∧ Reads lines d config' :=
  reads_append [line] lines config config'

theorem Outcome.next_eq_next {Config : Type} {config config' : Config} :
    Outcome.next config = .next config' ↔ config' = config := by
  rw [Outcome.next.injEq, eq_comm]

theorem reads_key (key : Key) {value : List Char} (hvalue : ∀ c ∈ value, isUpper c = false)
    (config config' : Config single double) :
    Reads [key.name.toList ++ ' ' :: value] config config' ↔
      (readKey key (key.name.toList ++ ' ' :: value) config).last = .next config' := by
  have hlast : (readLine (key.name.toList ++ ' ' :: value) config).last =
      (readKey key (key.name.toList ++ ' ' :: value) config).last := by
    rw [readLine_key key hvalue]
    cases readKey key (key.name.toList ++ ' ' :: value) config <;> rfl
  simp only [Reads, hlast]
  constructor
  · rintro ⟨d, hd, rfl⟩
    exact hd
  · exact fun h => ⟨config', h, rfl⟩

theorem newline_not_upper {value : List Char} (hvalue : ∀ c ∈ value, isUpper c = false) :
    ∀ c ∈ value ++ ['\n'], isUpper c = false := by
  intro c hc
  rcases List.mem_append.mp hc with hc | hc
  · exact hvalue c hc
  · rw [List.mem_singleton.mp hc]
    decide

theorem reads_line (key : Key) {value : List Char} (hvalue : ∀ c ∈ value, isUpper c = false)
    (config config' : Config single double) :
    Reads [line key.name value] config config' ↔
      (readKey key (line key.name value) config).last = .next config' := by
  rw [line_eq]
  exact reads_key key (newline_not_upper hvalue) config config'

theorem reads_rsuName (name : RsuName) (config config' : Config single double) :
    Reads [line "RSU_NAME" ('"' :: name.chars ++ ['"'])] config config' ↔
      config' = { config with
        rsuName := name
        rsuId := UInt32.ofInt (atoi ((name.chars.drop 1).take 4)) } := by
  set text := line "RSU_NAME" ('"' :: name.chars ++ ['"']) with htext
  have hread : readLine text config = .next { config with
      rsuName := name
      rsuId := UInt32.ofInt (atoi ((name.chars.drop 1).take 4)) } := by
    have hmatch : strstr text (Key.rsuName.name.toList ++ [' ']) = true := by
      apply decide_eq_true
      exact ⟨[], '"' :: name.chars ++ ['"'] ++ ['\n'], by simp [htext, line, Key.name]⟩
    have hname : (readName text).bind RsuName.ofChars = some name := by
      rw [htext, show "RSU_NAME" = Key.rsuName.name from rfl, readName_line]
      exact name.ofChars_chars
    have hupper : readLine text config = readKeys text Key.all config :=
      readLine_upper (c := 'R') (by decide) _ config
    rw [hupper, Key.all, readKeys, if_pos hmatch, readKey, hname]
  simp [Reads, hread, Outcome.last, eq_comm]

theorem formatUint32_not_upper (n : UInt32) : ∀ c ∈ formatUint32 n, isUpper c = false :=
  fun c hc => isUpper_of_isNumeral (formatInt_numeral _ c hc)

theorem formatUint8_not_upper (n : UInt8) : ∀ c ∈ formatUint8 n, isUpper c = false :=
  fun c hc => isUpper_of_isNumeral (formatInt_numeral _ c hc)

theorem formatFixed_not_upper (places : ℕ) (q : ℚ) :
    ∀ c ∈ formatFixed places q, isUpper c = false :=
  fun c hc => isUpper_of_isNumeral (formatFixed_numeral places q c hc)

theorem reads_rsuId (n : UInt32) (config config' : Config single double) :
    Reads [line "RSU_id" (formatUint32 n)] config config' ↔
      n ≤ 65535 ∧ config' = { config with rsuId := n } := by
  rw [show "RSU_id" = Key.rsuId.name from rfl, reads_line _ (formatUint32_not_upper n), readKey,
    readUint32_line]
  by_cases hn : n ≤ 65535 <;> simp [hn, Outcome.last, eq_comm]

theorem reads_rsuRegion (n : { n : UInt32 // n ≤ 65535 }) (config config' : Config single double) :
    Reads [line "RSU_region" (formatUint32 n.1)] config config' ↔
      config' = { config with rsuRegion := n } := by
  rw [show "RSU_region" = Key.rsuRegion.name from rfl, reads_line _ (formatUint32_not_upper n.1),
    readKey, readUint32_line]
  simp [n.2, Outcome.last, eq_comm]

/-- A value that is stored when it passes its check. -/
theorem checked_next {Value Stored : Type} {p : Value → Prop} [DecidablePred p] (x : Value)
    (store : { x // p x } → Stored) (code : ℤ) (config config' : Stored) :
    (if h : p x then Outcome.next (store ⟨x, h⟩) else .fail code config).last = .next config' ↔
      ∃ y : { x // p x }, y.1 = x ∧ config' = store y := by
  by_cases hx : p x
  · rw [dif_pos hx]
    constructor
    · intro h
      cases h
      exact ⟨⟨x, hx⟩, rfl, rfl⟩
    · rintro ⟨y, rfl, rfl⟩
      rfl
  · rw [dif_neg hx]
    constructor
    · intro h
      cases h
    · rintro ⟨y, rfl, _⟩
      exact absurd y.2 hx

theorem reads_rsuLat (x : double.Value) (config config' : Config single double) :
    Reads [line "RSU_LAT" (formatDouble x)] config config' ↔
      ∃ y : Latitude double, y.1 = double.nearest (roundTo 6 (double.toRat x)) ∧
        config' = { config with rsuLat := y } := by
  rw [show "RSU_LAT" = Key.rsuLat.name from rfl, formatDouble,
    reads_line _ (formatFixed_not_upper _ _), readKey, readDecimal_line]
  exact checked_next (p := fun x => -90 ≤ double.toRat x ∧ double.toRat x ≤ 90)
    (double.nearest _) (fun y => { config with rsuLat := y }) _ config config'

theorem reads_rsuLon (x : double.Value) (config config' : Config single double) :
    Reads [line "RSU_LON" (formatDouble x)] config config' ↔
      ∃ y : Longitude double, y.1 = double.nearest (roundTo 6 (double.toRat x)) ∧
        config' = { config with rsuLon := y } := by
  rw [show "RSU_LON" = Key.rsuLon.name from rfl, formatDouble,
    reads_line _ (formatFixed_not_upper _ _), readKey, readDecimal_line]
  exact checked_next (p := fun x => -180 < double.toRat x ∧ double.toRat x ≤ 180)
    (double.nearest _) (fun y => { config with rsuLon := y }) _ config config'

theorem reads_manufacturer (manufacturer : Manufacturer) (config config' : Config single double) :
    Reads [line "SIGNAL_CONTROLLER_MANUFACTURER" manufacturer.name] config config' ↔
      config' = { config with signalControllerManufacturer := manufacturer } := by
  have hvalue : ∀ c ∈ manufacturer.name, isUpper c = false :=
    eq_false_of_all (by cases manufacturer <;> decide)
  have hne : manufacturer.name ≠ [] := by cases manufacturer <;> decide
  have hword : ∀ c ∈ manufacturer.name, isSpace c = false :=
    eq_false_of_all (by cases manufacturer <;> decide)
  have hread : (readKey .signalControllerManufacturer
      (line Key.signalControllerManufacturer.name manufacturer.name) config).last =
        .next { config with signalControllerManufacturer := manufacturer } := by
    rw [readKey, readString_line _ hne hword]
    cases manufacturer <;> rfl
  rw [show "SIGNAL_CONTROLLER_MANUFACTURER" = Key.signalControllerManufacturer.name from rfl,
    reads_line _ hvalue, hread]
  exact Outcome.next_eq_next

theorem reads_upperBoundPercentage (x : Amount single) (config config' : Config single double) :
    Reads [line "SIGNAL_ADJUST_UPPER_BOUND_PERCENTAGE" x.format] config config' ↔
      ∃ y : Amount single, y.1 = single.nearest (roundTo 0 (single.toRat x.1)) ∧
        config' = { config with signalAdjustUpperBoundPercentage := y } := by
  rw [show "SIGNAL_ADJUST_UPPER_BOUND_PERCENTAGE" = Key.signalAdjustUpperBoundPercentage.name
    from rfl, Amount.format, reads_line _ (formatFixed_not_upper _ _), readKey, readDecimal_line]
  exact checked_next (p := fun x => 0 ≤ single.toRat x) (single.nearest _)
    (fun y => { config with signalAdjustUpperBoundPercentage := y }) _ config config'

theorem reads_lowerBoundPercentage (x : Amount single) (config config' : Config single double) :
    Reads [line "SIGNAL_ADJUST_LOWER_BOUND_PERCENTAGE" x.format] config config' ↔
      ∃ y : Amount single, y.1 = single.nearest (roundTo 0 (single.toRat x.1)) ∧
        config' = { config with signalAdjustLowerBoundPercentage := y } := by
  rw [show "SIGNAL_ADJUST_LOWER_BOUND_PERCENTAGE" = Key.signalAdjustLowerBoundPercentage.name
    from rfl, Amount.format, reads_line _ (formatFixed_not_upper _ _), readKey, readDecimal_line]
  exact checked_next (p := fun x => 0 ≤ single.toRat x) (single.nearest _)
    (fun y => { config with signalAdjustLowerBoundPercentage := y }) _ config config'

theorem reads_method (n : UInt8) (config config' : Config single double) :
    Reads [line "TRAFFIC_COMPENSATION_METHOD" (formatUint8 n)] config config' ↔
      config' = { config with trafficCompensationMethod := n } := by
  rw [show "TRAFFIC_COMPENSATION_METHOD" = Key.trafficCompensationMethod.name from rfl,
    reads_line _ (formatUint8_not_upper n), readKey, readUint8_line]
  exact Outcome.next_eq_next

theorem reads_cycleNumber (n : UInt8) (config config' : Config single double) :
    Reads [line "TRAFFIC_COMPENSATION_CYCLE_NUMBER" (formatUint8 n)] config config' ↔
      config' = { config with trafficCompensationCycleNumber := n } := by
  rw [show "TRAFFIC_COMPENSATION_CYCLE_NUMBER" = Key.trafficCompensationCycleNumber.name from rfl,
    reads_line _ (formatUint8_not_upper n), readKey, readUint8_line]
  exact Outcome.next_eq_next

theorem reads_cmsNumber (n : UInt8) (config config' : Config single double) :
    Reads [line "CMS_NUMBER" (formatUint8 n)] config config' ↔
      config' = { config with cmsNumber := n } := by
  rw [show "CMS_NUMBER" = Key.cmsNumber.name from rfl,
    reads_line _ (formatUint8_not_upper n), readKey, readUint8_line]
  exact Outcome.next_eq_next

theorem yesNo_not_upper (b : Bool) : ∀ c ∈ yesNo b, isUpper c = false :=
  eq_false_of_all (by cases b <;> decide)

theorem reads_flag (flag : Flag) (b : Bool) (config config' : Config single double) :
    Reads [line flag.name (yesNo b)] config config' ↔
      config' = { config with flag := Function.update config.flag flag b } := by
  have hne : yesNo b ≠ [] := by cases b <;> decide
  have hword : ∀ c ∈ yesNo b, isSpace c = false := eq_false_of_all (by cases b <;> decide)
  have hread : (readKey (.flag flag) (line (Key.flag flag).name (yesNo b)) config).last =
      .next { config with flag := Function.update config.flag flag b } := by
    rw [readKey, readString_line _ hne hword]
    cases b <;> rfl
  rw [show flag.name = (Key.flag flag).name from rfl, reads_line _ (yesNo_not_upper b), hread]
  exact Outcome.next_eq_next

/-- Lines for some of the flags. -/
theorem reads_flags (flags : List Flag) (value : Flag → Bool)
    (config config' : Config single double) :
    Reads (flags.map fun flag => line flag.name (yesNo (value flag))) config config' ↔
      config' = { config with
        flag := fun flag => if flag ∈ flags then value flag else config.flag flag } := by
  induction flags generalizing config with
  | nil => simp [Reads]
  | cons flag flags ih =>
      have hflag : ∀ other, (if other ∈ flags then value other
          else Function.update config.flag flag (value flag) other) =
            if other ∈ flag :: flags then value other else config.flag other := by
        intro other
        by_cases heq : other = flag
        · subst heq
          simp
        · simp [heq]
      rw [List.map_cons, reads_cons]
      simp only [reads_flag, ih, exists_eq_left, hflag]

/-- The line whose name is no key. -/
theorem reads_none (b : Bool) (config config' : Config single double) :
    Reads [line "LOG_CLOUD_PACKET_RXA" (yesNo b)] config config' ↔ config' = config := by
  have hname : ' ' ∉ "LOG_CLOUD_PACKET_RXA".toList := by decide
  have hkeys : ∀ key ∈ Key.all, ¬ key.name.toList <:+ "LOG_CLOUD_PACKET_RXA".toList := by
    decide +kernel
  have hnone := readLine_none hname (newline_not_upper (yesNo_not_upper b)) hkeys config
  rw [← line_eq] at hnone
  simp [Reads, hnone, Outcome.last, eq_comm]

end AdaptiveSignal.Configuration
