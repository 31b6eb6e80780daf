import AdaptiveSignal.Configuration.Weights
import AdaptiveSignal.Foundation.BinaryFormat

/-! # Reading the configuration back

What the file does not mention stays as it is compiled in, and what it mentions was
rounded. The configuration survives a change of the strategy and a restart exactly when
neither makes a difference.
-/

namespace AdaptiveSignal.Configuration

open Foundation

variable {single : SingleFormat} {double : DoubleFormat}

/-! ## The file in the buffer -/

def flagLine (config : Config single double) (flag : Flag) : List Char :=
  line flag.name (yesNo (config.flag flag))

def signalFlags : List Flag :=
  [.signalStatusReportActive, .signalAdjustUpperBoundActive, .signalAdjustLowerBoundActive]

def logFlags : List Flag :=
  [.logMiddlewareTimerEvent, .logApplicationRegisterEvent, .logCommandBuffer, .logSignalPacketRx,
    .logSignalPacketTx, .logSignalPacketInfo]

def lastFlags : List Flag := [.logCloudPacketTx, .logObuPacketRx, .logObuPacketTx, .logObuList]

/-- The lines that are written, as they are read. -/
def configChunks (config : Config single double) : List (List Char) :=
  [line "RSU_NAME" ('"' :: config.rsuName.chars ++ ['"']),
    line "RSU_id" (formatUint32 config.rsuId),
    line "RSU_region" (formatUint32 config.rsuRegion),
    line "RSU_LAT" (formatDouble config.rsuLat.1),
    line "RSU_LON" (formatDouble config.rsuLon.1),
    line "SIGNAL_CONTROLLER_MANUFACTURER" config.signalControllerManufacturer.name] ++
  (signalFlags.map (flagLine config) ++
  ([line "SIGNAL_ADJUST_UPPER_BOUND_PERCENTAGE" config.signalAdjustUpperBoundPercentage.format,
    line "SIGNAL_ADJUST_LOWER_BOUND_PERCENTAGE" config.signalAdjustLowerBoundPercentage.format,
    line "TRAFFIC_COMPENSATION_METHOD" (formatUint8 config.trafficCompensationMethod),
    line "TRAFFIC_COMPENSATION_CYCLE_NUMBER"
      (if config.trafficCompensationCycleNumber = 1 then "1".toList else "2".toList)] ++
  (weightsChunks config.phaseWeight ++
  (logFlags.map (flagLine config) ++
  ([line "LOG_CLOUD_PACKET_RXA" (yesNo (config.flag .logCloudPacketRx))] ++
  lastFlags.map (flagLine config))))))

theorem flatten_configChunks (config : Config single double) :
    (configChunks config).flatten = (configLines config).flatten := by
  simp only [configChunks, List.flatten_append, flatten_weightsChunks]
  simp [configLines, signalFlags, logFlags, lastFlags, flagLine, Flag.name]

theorem reads_cons_cons (first second : List Char) (lines : List (List Char))
    (config config' : Config single double) :
    Reads (first :: second :: lines) config config' ↔
      ∃ d, Reads [first] config d ∧ Reads (second :: lines) d config' :=
  reads_cons first (second :: lines) config config'

theorem exists_stored {α β : Type} {p : α → Prop} {f : α → β} {q : β → Prop} :
    (∃ y, (∃ x, p x ∧ y = f x) ∧ q y) ↔ ∃ x, p x ∧ q (f x) := by
  constructor
  · rintro ⟨_, ⟨x, hx, rfl⟩, hq⟩
    exact ⟨x, hx, hq⟩
  · rintro ⟨x, hx, hq⟩
    exact ⟨f x, ⟨x, hx, rfl⟩, hq⟩

theorem reads_cycleLine (n : UInt8) (config config' : Config single double) :
    Reads [line "TRAFFIC_COMPENSATION_CYCLE_NUMBER"
        (if n = 1 then "1".toList else "2".toList)] config config' ↔
      config' = { config with trafficCompensationCycleNumber := if n = 1 then 1 else 2 } := by
  have hformat : (if n = 1 then "1".toList else "2".toList) =
      formatUint8 (if n = 1 then 1 else 2) := by
    split_ifs <;> simp [formatUint8, formatInt, decimal, padded, Nat.digitChar]
  rw [hformat, reads_cycleNumber]

/-- What is read: the file says nothing of the baseline, the number of signs, and two flags. -/
theorem reads_configChunks (config d config' : Config single double) :
    Reads (configChunks config ++ [flagLine config .logObuList]) d config' ↔
      config.rsuId ≤ 65535 ∧
        ∃ lat : Latitude double, lat.1 = double.nearest (roundTo 6 (double.toRat config.rsuLat.1)) ∧
        ∃ lon : Longitude double,
          lon.1 = double.nearest (roundTo 6 (double.toRat config.rsuLon.1)) ∧
        ∃ upper : Amount single, upper.1 =
          single.nearest (roundTo 0 (single.toRat config.signalAdjustUpperBoundPercentage.1)) ∧
        ∃ lower : Amount single, lower.1 =
          single.nearest (roundTo 0 (single.toRat config.signalAdjustLowerBoundPercentage.1)) ∧
        ∃ weight, Stored config.phaseWeight weight ∧
          config' = { config with
            rsuLat := lat
            rsuLon := lon
            signalAdjustUpperBoundPercentage := upper
            signalAdjustLowerBoundPercentage := lower
            trafficCompensationBaseline := d.trafficCompensationBaseline
            trafficCompensationCycleNumber :=
              if config.trafficCompensationCycleNumber = 1 then 1 else 2
            phaseWeight := weight
            cmsNumber := d.cmsNumber
            flag := fun flag => if flag = .logCloudPacketRx ∨ flag = .pedCountdownSend then
              d.flag flag else config.flag flag } := by
  have hlast : lastFlags.map (flagLine config) ++ [flagLine config .logObuList] =
      (lastFlags ++ [Flag.logObuList]).map (flagLine config) := rfl
  have hflags : ∀ (flags : List Flag) (c c' : Config single double),
      Reads (flags.map (flagLine config)) c c' ↔ c' = { c with
        flag := fun flag => if flag ∈ flags then config.flag flag else c.flag flag } :=
    fun flags c c' => reads_flags flags config.flag c c'
  simp only [configChunks, List.append_assoc, hlast, reads_append, reads_cons_cons, reads_rsuName,
    reads_rsuId, reads_rsuRegion, reads_rsuLat, reads_rsuLon, reads_manufacturer, hflags,
    reads_upperBoundPercentage, reads_lowerBoundPercentage, reads_method, reads_cycleLine,
    reads_weights, reads_none, exists_stored, exists_eq_left, and_assoc, exists_and_left]
  have hsaved : (fun flag => if flag ∈ lastFlags ++ [Flag.logObuList] then config.flag flag
      else if flag ∈ logFlags then config.flag flag
      else if flag ∈ signalFlags then config.flag flag else d.flag flag) =
        fun flag => if flag = .logCloudPacketRx ∨ flag = .pedCountdownSend then d.flag flag
          else config.flag flag := by
    funext flag
    cases flag <;> rfl
  constructor
  · rintro ⟨hid, _, ⟨lat, hlat, lon, hlon, rfl⟩, _, ⟨upper, hupper, lower, hlower, rfl⟩, weight,
      hweight, rfl⟩
    refine ⟨hid, lat, hlat, lon, hlon, upper, hupper, lower, hlower, weight, hweight, ?_⟩
    rw [← hsaved]
  · rintro ⟨hid, lat, hlat, lon, hlon, upper, hupper, lower, hlower, weight, hweight, rfl⟩
    refine ⟨hid, _, ⟨lat, hlat, lon, hlon, rfl⟩, _, ⟨upper, hupper, lower, hlower, rfl⟩, weight,
      hweight, ?_⟩
    rw [← hsaved]

/-! ## Every line fits in the buffer -/

theorem chunk_named {name : String} {value : List Char} (hname : '\n' ∉ name.toList)
    (hvalue : '\n' ∉ value) (hlength : name.toList.length + value.length < 254) :
    Chunk (line name value) := by
  apply chunk_line
  · rw [List.length_append, List.length_cons]
    change _ < 255
    omega
  · simp only [List.mem_append, List.mem_cons, hname, hvalue, or_false, false_or]
    decide

theorem Key.length_name_le (key : Key) : key.name.toList.length ≤ 40 := by
  have hall : ∀ key ∈ Key.all, key.name.toList.length ≤ 40 := by decide +kernel
  exact hall key key.mem_all

theorem chunk_key (key : Key) {value : List Char} (hvalue : '\n' ∉ value)
    (hlength : value.length ≤ 200) : Chunk (line key.name value) := by
  have hname := key.length_name_le
  apply chunk_named _ hvalue (by omega)
  exact fun hmem => absurd (key.name_no_space '\n' hmem) (by decide)

theorem newline_not_numeral {value : List Char} (hvalue : ∀ c ∈ value, isNumeral c = true) :
    '\n' ∉ value :=
  fun hmem => absurd (hvalue '\n' hmem) (by decide)

theorem chunk_formatUint32 (key : Key) (n : UInt32) : Chunk (line key.name (formatUint32 n)) := by
  have hlow := n.toInt32.le_toInt
  have hhigh := n.toInt32.toInt_lt
  have hlength : (formatUint32 n).length ≤ 10 + 1 := length_formatInt_le (by decide) (by omega)
  exact chunk_key key (newline_not_numeral (formatInt_numeral _)) (by omega)

theorem chunk_formatUint8 (key : Key) (n : UInt8) : Chunk (line key.name (formatUint8 n)) := by
  have hlt := n.toNat_lt
  have hlength : (formatUint8 n).length ≤ 3 + 1 := length_formatInt_le (by decide) (by omega)
  exact chunk_key key (newline_not_numeral (formatInt_numeral _)) (by omega)

theorem chunk_formatDouble (key : Key) {x : double.Value} (hx : |double.toRat x| ≤ 180) :
    Chunk (line key.name (formatDouble x)) := by
  have hlength : (formatDouble x).length ≤ 3 + 6 + 2 :=
    length_formatFixed_le (by decide) (by exact_mod_cast hx) (by decide)
  exact chunk_key key (newline_not_numeral (formatFixed_numeral _ _)) (by omega)

theorem chunk_format (key : Key) (x : Amount single) : Chunk (line key.name x.format) := by
  have hlength := length_format_le x
  exact chunk_key key (newline_not_numeral (formatFixed_numeral _ _)) (by omega)

theorem chunk_flagLine (config : Config single double) (flag : Flag) :
    Chunk (flagLine config flag) := by
  apply chunk_key (.flag flag)
  · cases config.flag flag <;> decide
  · cases config.flag flag <;> decide

theorem Config.abs_rsuLat_le (config : Config single double) :
    |double.toRat config.rsuLat.1| ≤ 180 :=
  abs_le.mpr ⟨by linarith [config.rsuLat.2.1], by linarith [config.rsuLat.2.2]⟩

theorem Config.abs_rsuLon_le (config : Config single double) :
    |double.toRat config.rsuLon.1| ≤ 180 :=
  abs_le.mpr ⟨config.rsuLon.2.1.le, config.rsuLon.2.2⟩

theorem chunk_configChunks (config : Config single double) :
    ∀ chunk ∈ configChunks config, Chunk chunk := by
  have hname : Chunk (line "RSU_NAME" ('"' :: config.rsuName.chars ++ ['"'])) := by
    apply chunk_key .rsuName
    · simp only [List.cons_append, List.mem_cons, List.mem_append, List.not_mem_nil, or_false,
        not_or]
      have hquotable := List.all_eq_true.mp config.rsuName.quotable
      exact ⟨by decide, fun hmem => absurd (hquotable _ hmem) (by decide), by decide⟩
    · have hshort : config.rsuName.chars.length ≤ 10 := config.rsuName.short
      simp only [List.cons_append, List.length_cons, List.length_append, List.length_nil]
      omega
  have hmanufacturer : Chunk (line "SIGNAL_CONTROLLER_MANUFACTURER"
      config.signalControllerManufacturer.name) := by
    apply chunk_key .signalControllerManufacturer
    · cases config.signalControllerManufacturer <;> decide
    · cases config.signalControllerManufacturer <;> decide
  have hcycle : Chunk (line "TRAFFIC_COMPENSATION_CYCLE_NUMBER"
      (if config.trafficCompensationCycleNumber = 1 then "1".toList else "2".toList)) := by
    apply chunk_key .trafficCompensationCycleNumber
    · split_ifs <;> decide
    · split_ifs <;> decide
  have hnone : Chunk (line "LOG_CLOUD_PACKET_RXA" (yesNo (config.flag .logCloudPacketRx))) := by
    apply chunk_named (by decide)
    · cases config.flag .logCloudPacketRx <;> decide
    · cases config.flag .logCloudPacketRx <;> decide
  have hflags : ∀ flags : List Flag, ∀ chunk ∈ flags.map (flagLine config), Chunk chunk := by
    intro flags chunk hchunk
    obtain ⟨flag, _, rfl⟩ := List.mem_map.mp hchunk
    exact chunk_flagLine config flag
  simp only [configChunks, List.forall_mem_append, List.forall_mem_cons, List.not_mem_nil,
    false_implies, implies_true, and_true]
  exact ⟨⟨hname, chunk_formatUint32 .rsuId _, chunk_formatUint32 .rsuRegion _,
      chunk_formatDouble .rsuLat config.abs_rsuLat_le,
      chunk_formatDouble .rsuLon config.abs_rsuLon_le, hmanufacturer⟩,
    hflags signalFlags,
    ⟨chunk_format .signalAdjustUpperBoundPercentage _,
      chunk_format .signalAdjustLowerBoundPercentage _,
      chunk_formatUint8 .trafficCompensationMethod _, hcycle⟩,
    chunk_weightsChunks _, hflags logFlags, hnone, hflags lastFlags⟩

theorem configInit_configLines (text : List Char) (config d config' : Config single double) :
    configInit text (some (configLines config).flatten) d = (configAccept, config') ↔
      Reads (configChunks config ++ [flagLine config .logObuList]) d config' := by
  have hlast : (configChunks config).getLastD text = flagLine config .logObuList := by
    simp only [configChunks, List.getLastD_eq_getLast?, List.getLast?_append]
    rfl
  rw [configInit, ← flatten_configChunks, readLoop_accept (chunk_configChunks config), hlast]

/-! ## What survives -/

theorem nearest_rounded {x : double.Value} (hx : |double.toRat x| ≤ 180) :
    x = double.nearest (roundTo 6 (double.toRat x)) ↔
      ∃ k : ℤ, x = double.nearest (k / 10 ^ 6) := by
  constructor
  · intro h
    obtain ⟨k, hk⟩ := exists_roundTo 6 (double.toRat x)
    exact ⟨k, hk ▸ h⟩
  · rintro ⟨k, hk⟩
    have hprecise := double.precise (k / 10 ^ 6) (Or.inl (hk ▸ hx))
    rw [← hk] at hprecise
    have hclose : |double.toRat x * 10 ^ 6 - k| < 1 / 2 := by
      calc |double.toRat x * 10 ^ 6 - k| = |(double.toRat x - k / 10 ^ 6) * 10 ^ 6| := by
            congr 1
            ring
        _ = |double.toRat x - k / 10 ^ 6| * 10 ^ 6 := by
            rw [abs_mul, abs_of_pos (show (0 : ℚ) < 10 ^ 6 by norm_num)]
        _ < 1 / 2 := hprecise
    rw [roundTo_eq hclose]
    exact hk

theorem nearest_whole (x : Amount single) :
    x.1 = single.nearest (roundTo 0 (single.toRat x.1)) ↔ ∃ n : ℤ, single.toRat x.1 = n := by
  rw [roundTo_zero x.2]
  constructor
  · intro h
    obtain ⟨n, hn⟩ := single.nearest_intCast (scaled 0 (single.toRat x.1))
    refine ⟨n, ?_⟩
    rw [h, ← hn]
    rfl
  · intro h
    rw [scaled_whole h, single.nearest_toRat]

/-- When a configuration is read back as itself. -/
theorem reads_self (config d : Config single double) :
    Reads (configChunks config ++ [flagLine config .logObuList]) d config ↔
      config.rsuId ≤ 65535 ∧
        (∃ k : ℤ, config.rsuLat.1 = double.nearest (k / 10 ^ 6)) ∧
        (∃ k : ℤ, config.rsuLon.1 = double.nearest (k / 10 ^ 6)) ∧
        (∃ n : ℤ, single.toRat config.signalAdjustUpperBoundPercentage.1 = n) ∧
        (∃ n : ℤ, single.toRat config.signalAdjustLowerBoundPercentage.1 = n) ∧
        Stored config.phaseWeight config.phaseWeight ∧
        d.trafficCompensationBaseline = config.trafficCompensationBaseline ∧
        (config.trafficCompensationCycleNumber = 1 ∨ config.trafficCompensationCycleNumber = 2) ∧
        d.cmsNumber = config.cmsNumber ∧
        d.flag .logCloudPacketRx = config.flag .logCloudPacketRx ∧
        d.flag .pedCountdownSend = config.flag .pedCountdownSend := by
  rw [reads_configChunks, ← nearest_rounded config.abs_rsuLat_le,
    ← nearest_rounded config.abs_rsuLon_le, ← nearest_whole, ← nearest_whole]
  constructor
  · rintro ⟨hid, lat, hlat, lon, hlon, upper, hupper, lower, hlower, weight, hweight, heq⟩
    have hext := Config.ext_iff.mp heq
    simp only [true_and] at hext
    obtain ⟨rfl, rfl, rfl, rfl, hbaseline, hcycle, rfl, hcms, hflag⟩ := hext
    have hcycle : config.trafficCompensationCycleNumber = 1 ∨
        config.trafficCompensationCycleNumber = 2 := by
      by_cases hone : config.trafficCompensationCycleNumber = 1
      · exact Or.inl hone
      · rw [if_neg hone] at hcycle
        exact Or.inr hcycle
    exact ⟨hid, hlat, hlon, hupper, hlower, hweight, hbaseline.symm, hcycle, hcms.symm,
      (congrFun hflag .logCloudPacketRx).symm, (congrFun hflag .pedCountdownSend).symm⟩
  · rintro ⟨hid, hlat, hlon, hupper, hlower, hweight, hbaseline, hcycle, hcms, hrx, hped⟩
    refine ⟨hid, _, hlat, _, hlon, _, hupper, _, hlower, _, hweight, ?_⟩
    have hcycleEq : (if config.trafficCompensationCycleNumber = 1 then 1 else 2) =
        config.trafficCompensationCycleNumber := by
      rcases hcycle with h | h <;> rw [h] <;> rfl
    have hflag : (fun flag => if flag = .logCloudPacketRx ∨ flag = .pedCountdownSend then
        d.flag flag else config.flag flag) = config.flag := by
      funext flag
      split_ifs with h
      · rcases h with rfl | rfl
        · exact hrx
        · exact hped
      · rfl
    rw [hbaseline, hcms, hcycleEq, hflag]

/-! ## A restart after a change of the strategy -/

/-- The running configuration is the one that the next start reads, whatever lies in the
buffer at first. -/
def Reloads (command : Command) (config : Config single double) : Prop :=
  ∀ stack text, (changeStrategy command config).2 = some text →
    configInit stack (some text) Config.initial = (configAccept, (changeStrategy command config).1)

/-- What the file can hold, and what it does not hold is as compiled in. -/
structure Survives (command : Command) (config : Config single double) : Prop where
  rsuId : config.rsuId ≤ 65535
  rsuLat : ∃ k : ℤ, config.rsuLat.1 = double.nearest (k / 10 ^ 6)
  rsuLon : ∃ k : ℤ, config.rsuLon.1 = double.nearest (k / 10 ^ 6)
  upper : ∃ n : ℤ, single.toRat config.signalAdjustUpperBoundPercentage.1 = n
  lower : ∃ n : ℤ, single.toRat config.signalAdjustLowerBoundPercentage.1 = n
  baseline : config.trafficCompensationBaseline = .notSet
  /-- The command sets the weights, or they are whole and their line is not too long. -/
  phaseWeight : command.setsWeights = true ∨
    (∀ i, ∃ n : ℤ, single.toRat (config.phaseWeight i).1 = n) ∧
      (formatWeights config.phaseWeight).length ≤ 242
  cmsNumber : config.cmsNumber = 0
  logCloudPacketRx : config.flag .logCloudPacketRx = true
  pedCountdownSend : config.flag .pedCountdownSend = true

theorem stored_ofUint8 (weight : Fin phaseCountMaxNum → UInt8) :
    Stored (fun i => Amount.ofUint8 single (weight i))
      (fun i => Amount.ofUint8 single (weight i)) := by
  have hvalue : ∀ i, single.toRat (Amount.ofUint8 single (weight i)).1 = (weight i).toNat :=
    fun i => single.nearest_byte (weight i).toNat_lt
  have hwhole : ∀ i, ∃ n : ℤ, single.toRat (Amount.ofUint8 single (weight i)).1 = n :=
    fun i => ⟨(weight i).toNat, by exact_mod_cast hvalue i⟩
  have hdecimal : ∀ n ∈ amounts fun i => Amount.ofUint8 single (weight i),
      (decimal n).length ≤ 3 := by
    intro n hn
    obtain ⟨i, _, rfl⟩ := List.mem_map.mp hn
    apply length_decimal_le (by decide)
    have hscaled := (scaled_whole (hwhole i)).trans (hvalue i)
    rw [Nat.cast_inj] at hscaled
    rw [hscaled]
    exact Nat.lt_trans (weight i).toNat_lt (by decide)
  have hlength := length_spaced_le hdecimal
  rw [length_amounts, ← cons_formatWeights, List.length_cons] at hlength
  change _ ≤ 8 * 4 at hlength
  exact (stored_self _).mpr ⟨hwhole, by omega⟩

theorem Command.cycleNumber_of_accepted (command : Command) (h : command.accepted = true) :
    command.cycleNumber = 1 ∨ command.cycleNumber = 2 := by
  simp only [accepted, Bool.and_eq_true, decide_eq_true_eq, UInt8.lt_iff_toNat_lt] at h
  obtain ⟨⟨_, hlow⟩, hhigh⟩ := h
  change 0 < _ at hlow
  change _ < 3 at hhigh
  simp only [← UInt8.toNat_inj]
  change _ = 1 ∨ _ = 2
  omega

theorem changeStrategy_accepted {command : Command} (hcommand : command.accepted = true)
    (config : Config single double) :
    ∃ config' weight, changeStrategy command config =
        (config', some (configLines config').flatten) ∧
      config' = { config with
        phaseWeight := weight
        trafficCompensationCycleNumber := command.cycleNumber
        trafficCompensationMethod := command.strategy } ∧
      weight = if command.setsWeights then fun i => Amount.ofUint8 single (command.phaseWeight i)
        else config.phaseWeight := by
  refine ⟨_, _, ?_, rfl, rfl⟩
  rw [changeStrategy, if_pos hcommand]
  cases command.setsWeights <;> rfl

theorem reloads_accepted {command : Command} (hcommand : command.accepted = true)
    (config : Config single double) :
    Reloads command config ↔
      Reads (configChunks (changeStrategy command config).1 ++
        [flagLine (changeStrategy command config).1 .logObuList]) Config.initial
          (changeStrategy command config).1 := by
  obtain ⟨config', _, hchange, _, _⟩ := changeStrategy_accepted hcommand config
  simp only [Reloads, hchange, Option.some.injEq, forall_eq', configInit_configLines, forall_const]

/-- The running configuration is read back after a restart exactly when it survives: two
flags, the baseline and the number of signs are not in the file, and numbers are rounded. -/
theorem reloads_iff (command : Command) (config : Config single double) :
    Reloads command config ↔ (command.accepted = true → Survives command config) := by
  by_cases hcommand : command.accepted = true
  · obtain ⟨config', weight, hchange, hconfig, hweight⟩ :=
      changeStrategy_accepted hcommand config
    have hcycle := command.cycleNumber_of_accepted hcommand
    have hstored : Stored weight weight ↔ (command.setsWeights = true ∨
        (∀ i, ∃ n : ℤ, single.toRat (config.phaseWeight i).1 = n) ∧
          (formatWeights config.phaseWeight).length ≤ 242) := by
      rw [hweight]
      cases hsets : command.setsWeights with
      | true => simpa using stored_ofUint8 command.phaseWeight
      | false => simpa using stored_self config.phaseWeight
    rw [reloads_accepted hcommand, hchange, reads_self, hconfig]
    constructor
    · rintro ⟨hid, hlat, hlon, hupper, hlower, hstore, hbaseline, _, hcms, hrx, hped⟩ _
      exact ⟨hid, hlat, hlon, hupper, hlower, hbaseline.symm, hstored.mp hstore, hcms.symm,
        hrx.symm, hped.symm⟩
    · intro h
      have h := h hcommand
      exact ⟨h.rsuId, h.rsuLat, h.rsuLon, h.upper, h.lower, hstored.mpr h.phaseWeight,
        h.baseline.symm, hcycle, h.cmsNumber.symm, h.logCloudPacketRx.symm,
        h.pedCountdownSend.symm⟩
  · have hchange : (changeStrategy command config).2 = none := by
      rw [changeStrategy, if_neg hcommand]
    simp [Reloads, hchange, hcommand]

/-- A file with the number of signs, as it may be written by hand. -/
theorem configInit_cmsNumber (stack : List Char) (d : Config single double) :
    configInit stack (some "CMS_NUMBER 4\n".toList) d =
      (configAccept, { d with cmsNumber := 4 }) := by
  have htext : "CMS_NUMBER 4\n".toList = [line "CMS_NUMBER" (formatUint8 4)].flatten := by
    simp [line, formatUint8, formatInt, decimal, padded, Nat.digitChar]
  have hchunk : ∀ chunk ∈ [line "CMS_NUMBER" (formatUint8 4)], Chunk chunk := by
    intro chunk hmem
    rw [List.mem_singleton.mp hmem]
    exact chunk_formatUint8 .cmsNumber 4
  have htwice : ∀ d' : Config single double,
      Reads ([line "CMS_NUMBER" (formatUint8 4)] ++ [line "CMS_NUMBER" (formatUint8 4)]) d d' ↔
        d' = { d with cmsNumber := 4 } := by
    intro d'
    rw [reads_append]
    simp only [reads_cmsNumber, exists_eq_left]
  rw [configInit, htext]
  exact (readLoop_accept hchunk stack d _).mpr ((htwice _).mpr rfl)

/-- Four signs are forgotten at the restart. -/
theorem cmsNumber_lost :
    ¬ Reloads ⟨0, 1, fun _ => 0⟩
      (configInit [] (some "CMS_NUMBER 4\n".toList)
        (Config.initial : Config binary32 binary64)).2 := by
  intro h
  rw [configInit_cmsNumber, reloads_accepted (by decide), reads_self] at h
  obtain ⟨_, _, _, _, _, _, _, _, hcms, _, _⟩ := h
  exact absurd hcms (by decide)

end AdaptiveSignal.Configuration
