import AdaptiveSignal.Foundation.CString
import Mathlib.Data.Int.Init
import Mathlib.Tactic.Common

/-! # Names of vehicles

The record of a vehicle is made from a safety or a request message. Its name is a
prefix for the class of the vehicle, and the four bytes of its id as a string. A
safety message of another classification leaves the record as it was cleared.
-/

namespace AdaptiveSignal.Vehicles

open Foundation

inductive VehicleType
  | normal
  | ambulance
  | bus
  | fireTruck
  | policeCar
  deriving DecidableEq

abbrev obuNameMaxLen : ℕ := 10

/-- A string that fits `OBU_name`, without the terminating zero. -/
structure ObuName where
  chars : List UInt8
  nonzero : 0 ∉ chars
  fits : chars.length ≤ obuNameMaxLen
  deriving DecidableEq

def ObuName.empty : ObuName := ⟨[], by decide, by decide⟩

/-- The four bytes of an id as they lie in memory. -/
structure IdBytes where
  buf : List UInt8
  four : buf.length = 4
  deriving DecidableEq

/-! ## Messages -/

/-- The fields of a safety message that a record is made of. Positions are in units of
1e-7 degrees. -/
structure BasicSafetyMessage where
  partIIOption : Bool
  partIICount : ℕ
  /-- The first part is a `SupplementalVehicleExt`. -/
  supplementalExt : Bool
  classificationOption : Bool
  classification : ℕ
  id : IdBytes
  secMark : ℤ
  lat : ℤ
  long : ℤ
  speed : ℤ
  heading : ℤ

inductive BasicVehicleRole
  | ambulance
  | fire
  | police
  | other (role : ℕ)
  deriving DecidableEq

inductive VehicleId
  | entityId (buf : IdBytes)
  | stationId (bytes : IdBytes)

structure SignalRequestMessage where
  typeOption : Bool
  hpmsTypeOption : Bool
  /-- `hpmsType` is `VehicleType_car`. -/
  hpmsTypeCar : Bool
  positionOption : Bool
  speedOption : Bool
  headingOption : Bool
  role : BasicVehicleRole
  id : VehicleId
  timeStamp : ℤ
  second : ℤ
  lat : ℤ
  long : ℤ
  speed : ℤ
  heading : ℤ

inductive MessageFrame
  | bsm (bsm : BasicSafetyMessage)
  | srm (srm : SignalRequestMessage)
  | other (messageId : ℕ)

/-! ## Time -/

structure Tm where
  tmYear : ℤ
  tmMon : ℤ
  tmMday : ℤ
  tmHour : ℤ
  tmMin : ℤ
  tmSec : ℤ
  tmIsdst : ℤ

/-- The system time and how it is converted. -/
structure Clock where
  tvSec : ℤ
  localtime : ℤ → Tm
  mktime : Tm → ℤ

/-- The month, counted from the given one on, and the day in it. -/
def monthDay : List ℤ → ℤ → ℤ → ℤ × ℤ
  | [], month, yday => (month, yday)
  | days :: later, month, yday =>
      if yday ≤ days then (month, yday) else monthDay later (month + 1) (yday - days)

/-- `timeinfo` with the day of the month, unless the day is not in its month. -/
def yday2monthDay (timeinfo : Tm) (yday : ℤ) : Option Tm :=
  let year := timeinfo.tmYear + 1900
  let february := if (year % 400 = 0 ∨ year % 100 ≠ 0) ∧ year % 4 = 0 then 29 else 28
  let (month, day) := monthDay [31, february, 31, 30, 31, 30, 31, 31, 30, 31, 30, 31] 0 yday
  if 12 ≤ month ∨ timeinfo.tmMon ≠ month then none else some { timeinfo with tmMday := day }

/-! ## Records -/

structure ObuRecord where
  timeSecond : ℤ
  positionLon : ℤ
  positionLat : ℤ
  speed : UInt8
  direction : UInt8

structure ObuRecordCommonField extends ObuRecord where
  obuName : ObuName
  vehicleType : VehicleType

/-- The record cleared with zeros. -/
def ObuRecordCommonField.cleared : ObuRecordCommonField where
  timeSecond := 0
  positionLon := 0
  positionLat := 0
  speed := 0
  direction := 0
  obuName := .empty
  vehicleType := .ambulance

/-- A prefix and an id fit the name. -/
theorem length_prefixed_le (namePrefix id : IdBytes) :
    (strncat namePrefix.buf id.buf 4).length ≤ obuNameMaxLen := by
  have hlength := length_cString_le (id.buf.take 4)
  rw [List.length_take] at hlength
  have hfour := namePrefix.four
  rw [strncat, List.length_append, obuNameMaxLen]
  omega

/-- `strcpy` of a prefix of four characters and `strncat` of the id. -/
def prefixedName (namePrefix : IdBytes) (hzero : 0 ∉ namePrefix.buf) (id : IdBytes) :
    ObuName where
  chars := strncat namePrefix.buf id.buf 4
  nonzero := by
    intro hmem
    rcases List.mem_append.mp hmem with hmem | hmem
    · exact hzero hmem
    · exact zero_notMem_cString _ hmem
  fits := length_prefixed_le namePrefix id

/-- `"bus_"`, `"amb_"`, `"fir_"` and `"pol_"`. -/
def busPrefix : IdBytes := ⟨[98, 117, 115, 95], rfl⟩
def ambPrefix : IdBytes := ⟨[97, 109, 98, 95], rfl⟩
def firPrefix : IdBytes := ⟨[102, 105, 114, 95], rfl⟩
def polPrefix : IdBytes := ⟨[112, 111, 108, 95], rfl⟩

def busName : IdBytes → ObuName := prefixedName busPrefix (by decide)
def ambName : IdBytes → ObuName := prefixedName ambPrefix (by decide)
def firName : IdBytes → ObuName := prefixedName firPrefix (by decide)
def polName : IdBytes → ObuName := prefixedName polPrefix (by decide)

def VehicleId.bytes : VehicleId → IdBytes
  | .entityId buf => buf
  | .stationId bytes => bytes

namespace BasicSafetyMessage

/-- The parts that a record needs are there. -/
def usable (bsm : BasicSafetyMessage) : Bool :=
  bsm.partIIOption && bsm.partIICount = 1 && bsm.supplementalExt && bsm.classificationOption

/-- The record with the name and the type for the classification. -/
def classify (bsm : BasicSafetyMessage) (record : ObuRecordCommonField) : ObuRecordCommonField :=
  match bsm.classification with
  | 50 => { record with obuName := busName bsm.id, vehicleType := .bus }
  | 60 => { record with obuName := ambName bsm.id, vehicleType := .ambulance }
  | 63 => { record with obuName := firName bsm.id, vehicleType := .fireTruck }
  | 66 => { record with obuName := polName bsm.id, vehicleType := .policeCar }
  -- Nothing is assigned, and the message goes on to be accepted.
  | _ => record

def timeSecond (clock : Clock) (bsm : BasicSafetyMessage) : ℤ :=
  let second := clock.tvSec.tmod 60
  let secMark := bsm.secMark.tdiv 1000
  let tvSec := if secMark < second ∧ 30 < second - secMark then clock.tvSec - 60 else clock.tvSec
  clock.mktime (clock.localtime (tvSec - second + secMark))

def toRecord (clock : Clock) (bsm : BasicSafetyMessage) : Option ObuRecordCommonField :=
  if bsm.usable then
    some { bsm.classify .cleared with
      timeSecond := bsm.timeSecond clock
      positionLat := bsm.lat
      positionLon := bsm.long
      speed := UInt8.ofInt (bsm.speed.tdiv 50)
      direction := UInt8.ofInt (bsm.heading.tdiv 3600) &&& 7 }
  else none

end BasicSafetyMessage

namespace SignalRequestMessage

def usable (srm : SignalRequestMessage) : Bool :=
  srm.typeOption && srm.hpmsTypeOption && srm.hpmsTypeCar && srm.positionOption &&
    srm.speedOption && srm.headingOption

def classify (srm : SignalRequestMessage) (record : ObuRecordCommonField) :
    Option ObuRecordCommonField :=
  match srm.role with
  | .ambulance => some { record with obuName := ambName srm.id.bytes, vehicleType := .ambulance }
  | .fire => some { record with obuName := firName srm.id.bytes, vehicleType := .fireTruck }
  | .police => some { record with obuName := polName srm.id.bytes, vehicleType := .policeCar }
  | .other _ => none

/-- The time of the message, if its day is in the current month. -/
def timeinfo (clock : Clock) (srm : SignalRequestMessage) : Option Tm :=
  let dmin := srm.timeStamp.tmod 1440
  (yday2monthDay (clock.localtime clock.tvSec) (srm.timeStamp.tdiv 1440 + 1)).map fun timeinfo =>
    { timeinfo with
      tmHour := dmin.tdiv 60
      tmMin := dmin.tmod 60
      tmSec := srm.second.tdiv 1000
      tmIsdst := -1 }

def toRecord (clock : Clock) (srm : SignalRequestMessage) : Option ObuRecordCommonField :=
  if srm.usable then
    match srm.classify .cleared, srm.timeinfo clock with
    | some record, some timeinfo =>
        some { record with
          timeSecond := clock.mktime timeinfo
          positionLat := srm.lat
          positionLon := srm.long
          speed := UInt8.ofInt (srm.speed.tdiv 50)
          direction := UInt8.ofInt (srm.heading.tdiv 3600) &&& 7 }
    | _, _ => none
  else none

end SignalRequestMessage

/-- The record of a message, if it is accepted. -/
def v2rMsgf2ObuRecord (clock : Clock) : MessageFrame → Option ObuRecordCommonField
  | .bsm bsm => bsm.toRecord clock
  | .srm srm => srm.toRecord clock
  | .other _ => none

/-! ## Identity -/

/-- The class that a classification stands for. -/
def classOfClassification : ℕ → Option VehicleType
  | 50 => some .bus
  | 60 => some .ambulance
  | 63 => some .fireTruck
  | 66 => some .policeCar
  | _ => none

def classOfRole : BasicVehicleRole → Option VehicleType
  | .ambulance => some .ambulance
  | .fire => some .fireTruck
  | .police => some .policeCar
  | .other _ => none

/-- The name of a vehicle of a class. -/
def nameOf : VehicleType → IdBytes → ObuName
  | .bus => busName
  | .ambulance => ambName
  | .fireTruck => firName
  | .policeCar => polName
  | .normal => fun _ => .empty

namespace MessageFrame

def vehicleClass : MessageFrame → Option VehicleType
  | .bsm msg => classOfClassification msg.classification
  | .srm msg => classOfRole msg.role
  | .other _ => none

def id : MessageFrame → Option IdBytes
  | .bsm msg => some msg.id
  | .srm msg => some msg.id.bytes
  | .other _ => none

/-- What is required of a message besides its class. -/
def usable (clock : Clock) : MessageFrame → Bool
  | .bsm msg => msg.usable
  | .srm msg => msg.usable && (msg.timeinfo clock).isSome
  | .other _ => false

/-- A usable safety message of another classification. -/
def unclassified : MessageFrame → Bool
  | .bsm msg => msg.usable && (classOfClassification msg.classification).isNone
  | .srm _ => false
  | .other _ => false

end MessageFrame

theorem prefixedName_eq_iff {p q : IdBytes} {hp : 0 ∉ p.buf} {hq : 0 ∉ q.buf} {a b : IdBytes} :
    prefixedName p hp a = prefixedName q hq b ↔ p = q ∧ cString a.buf = cString b.buf := by
  have htake (id : IdBytes) : id.buf.take 4 = id.buf := List.take_of_length_le (by rw [id.four])
  have hstrncat := strncat_eq_iff (p.four.trans q.four.symm) a.buf b.buf 4
  rw [htake, htake] at hstrncat
  rw [ObuName.mk.injEq, IdBytes.mk.injEq]
  exact hstrncat

/-- A name tells the class, and the id up to its first zero. -/
theorem nameOf_eq_iff {v w : VehicleType} (hv : v ≠ .normal) (hw : w ≠ .normal) {a b : IdBytes} :
    nameOf v a = nameOf w b ↔ v = w ∧ cString a.buf = cString b.buf := by
  cases v <;> cases w <;>
    simp_all [nameOf, busName, ambName, firName, polName, prefixedName_eq_iff, busPrefix,
      ambPrefix, firPrefix, polPrefix]

theorem BasicSafetyMessage.classify_eq (bsm : BasicSafetyMessage)
    (record : ObuRecordCommonField) :
    bsm.classify record =
      match classOfClassification bsm.classification with
      | some v => { record with obuName := nameOf v bsm.id, vehicleType := v }
      | none => record := by
  unfold classify classOfClassification
  split <;> simp_all [nameOf]

theorem SignalRequestMessage.classify_eq (srm : SignalRequestMessage)
    (record : ObuRecordCommonField) :
    srm.classify record = (classOfRole srm.role).map fun v =>
      { record with obuName := nameOf v srm.id.bytes, vehicleType := v } := by
  unfold classify
  cases srm.role <;> rfl

variable {clock clock' : Clock} {m m' : MessageFrame} {record record' : ObuRecordCommonField}

theorem vehicleClass_ne_normal {v : VehicleType} (hv : m.vehicleClass = some v) :
    v ≠ .normal := by
  rintro rfl
  cases m with
  | bsm msg =>
      simp only [MessageFrame.vehicleClass, classOfClassification] at hv
      split at hv <;> cases hv
  | srm msg =>
      simp only [MessageFrame.vehicleClass, classOfRole] at hv
      split at hv <;> cases hv
  | other messageId => cases hv

/-- What is recorded of a message of a known class. -/
theorem v2rMsgf2ObuRecord_of_class {v : VehicleType} (hv : m.vehicleClass = some v)
    (hrecord : v2rMsgf2ObuRecord clock m = some record) :
    ∃ id, m.id = some id ∧ record.obuName = nameOf v id ∧ record.vehicleType = v := by
  cases m with
  | bsm msg =>
      simp only [v2rMsgf2ObuRecord, BasicSafetyMessage.toRecord] at hrecord
      split_ifs at hrecord
      cases hrecord
      rw [msg.classify_eq]
      simp only [MessageFrame.vehicleClass] at hv
      rw [hv]
      exact ⟨msg.id, rfl, rfl, rfl⟩
  | srm msg =>
      simp only [v2rMsgf2ObuRecord, SignalRequestMessage.toRecord] at hrecord
      simp only [MessageFrame.vehicleClass] at hv
      rw [msg.classify_eq, hv] at hrecord
      split_ifs at hrecord
      cases htime : msg.timeinfo clock with
      | none => simp [htime] at hrecord
      | some timeinfo =>
          simp only [htime, Option.map_some, Option.some.injEq] at hrecord
          subst hrecord
          exact ⟨msg.id.bytes, rfl, rfl, rfl⟩
  | other messageId => cases hv

/-- A message is recorded if it is usable and of a known class, or a safety message. -/
theorem v2rMsgf2ObuRecord_isSome :
    (v2rMsgf2ObuRecord clock m).isSome =
      (m.usable clock && m.vehicleClass.isSome || m.unclassified) := by
  cases m with
  | bsm msg =>
      simp only [v2rMsgf2ObuRecord, BasicSafetyMessage.toRecord, MessageFrame.usable,
        MessageFrame.vehicleClass, MessageFrame.unclassified]
      cases msg.usable <;> cases classOfClassification msg.classification <;> rfl
  | srm msg =>
      simp only [v2rMsgf2ObuRecord, SignalRequestMessage.toRecord, MessageFrame.usable,
        MessageFrame.vehicleClass, MessageFrame.unclassified, msg.classify_eq]
      cases msg.usable <;> cases msg.timeinfo clock <;> cases classOfRole msg.role <;> rfl
  | other messageId => rfl

theorem usable_of_record (hrecord : v2rMsgf2ObuRecord clock m = some record)
    (hclassified : m.unclassified = false) : m.usable clock = true := by
  have hsome : (v2rMsgf2ObuRecord clock m).isSome = true := by rw [hrecord, Option.isSome_some]
  rw [v2rMsgf2ObuRecord_isSome, hclassified, Bool.or_false, Bool.and_eq_true] at hsome
  exact hsome.1

/-- Two messages name their vehicles alike exactly for the same vehicle, and neither is
recorded without a class. -/
structure Identified (clock clock' : Clock) (m m' : MessageFrame) : Prop where
  names : ∀ record record', v2rMsgf2ObuRecord clock m = some record →
    v2rMsgf2ObuRecord clock' m' = some record' →
    m.vehicleClass.isSome → m'.vehicleClass.isSome →
    (record.obuName = record'.obuName ↔ m.vehicleClass = m'.vehicleClass ∧ m.id = m'.id)
  others : m.vehicleClass = none → v2rMsgf2ObuRecord clock m = none
  others' : m'.vehicleClass = none → v2rMsgf2ObuRecord clock' m' = none

/-- Two usable messages of one class have the same id where their ids agree up to a zero. -/
def SameUpToZero (clock clock' : Clock) (m m' : MessageFrame) : Prop :=
  m.usable clock → m'.usable clock' → m.vehicleClass.isSome → m.vehicleClass = m'.vehicleClass →
    m.id.map (fun id => cString id.buf) = m'.id.map (fun id => cString id.buf) → m.id = m'.id

theorem v2rMsgf2ObuRecord_unclassified (hclass : m.vehicleClass = none) :
    v2rMsgf2ObuRecord clock m = none ↔ m.unclassified = false := by
  have hsome : (v2rMsgf2ObuRecord clock m).isSome = m.unclassified := by
    rw [v2rMsgf2ObuRecord_isSome, hclass]
    simp
  rw [← hsome, Option.isSome_eq_false_iff, Option.isNone_iff_eq_none]

theorem unclassified_of_class (hclass : m.vehicleClass ≠ none) : m.unclassified = false := by
  cases m with
  | bsm msg =>
      have hnone : (classOfClassification msg.classification).isNone = false := by
        rw [Option.isNone_eq_false_iff]
        exact Option.isSome_iff_ne_none.mpr hclass
      simp [MessageFrame.unclassified, hnone]
  | srm msg => rfl
  | other messageId => rfl

theorem others_iff :
    (m.vehicleClass = none → v2rMsgf2ObuRecord clock m = none) ↔ m.unclassified = false := by
  by_cases hclass : m.vehicleClass = none
  · simp [hclass, v2rMsgf2ObuRecord_unclassified hclass]
  · simp [hclass, unclassified_of_class hclass]

/-- Vehicles are identified exactly if neither message is a safety message of another
classification and no two ids of one class agree up to a zero byte only. -/
theorem identified_iff (clock clock' : Clock) (m m' : MessageFrame) :
    Identified clock clock' m m' ↔
      m.unclassified = false ∧ m'.unclassified = false ∧ SameUpToZero clock clock' m m' := by
  constructor
  · intro h
    refine ⟨others_iff.mp h.others, others_iff.mp h.others', ?_⟩
    intro husable husable' hclass hsame hstring
    have hclass' : m'.vehicleClass.isSome := hsame ▸ hclass
    obtain ⟨record, hrecord⟩ : ∃ record, v2rMsgf2ObuRecord clock m = some record := by
      rw [← Option.isSome_iff_exists, v2rMsgf2ObuRecord_isSome, husable, hclass]
      rfl
    obtain ⟨record', hrecord'⟩ : ∃ record', v2rMsgf2ObuRecord clock' m' = some record' := by
      rw [← Option.isSome_iff_exists, v2rMsgf2ObuRecord_isSome, husable', hclass']
      rfl
    obtain ⟨v, hv⟩ := Option.isSome_iff_exists.mp hclass
    obtain ⟨id, hid, hname, -⟩ := v2rMsgf2ObuRecord_of_class hv hrecord
    obtain ⟨id', hid', hname', -⟩ := v2rMsgf2ObuRecord_of_class (hsame ▸ hv) hrecord'
    -- The names stop at the first zero, so the ids that agree up to there give one name.
    have hnames : record.obuName = record'.obuName := by
      rw [hname, hname', nameOf_eq_iff (vehicleClass_ne_normal hv) (vehicleClass_ne_normal hv)]
      rw [hid, hid'] at hstring
      exact ⟨rfl, Option.some.inj hstring⟩
    exact ((h.names record record' hrecord hrecord' hclass hclass').mp hnames).2
  · rintro ⟨hclassified, hclassified', hzero⟩
    refine ⟨?_, others_iff.mpr hclassified, others_iff.mpr hclassified'⟩
    intro record record' hrecord hrecord' hclass hclass'
    obtain ⟨v, hv⟩ := Option.isSome_iff_exists.mp hclass
    obtain ⟨w, hw⟩ := Option.isSome_iff_exists.mp hclass'
    obtain ⟨id, hid, hname, -⟩ := v2rMsgf2ObuRecord_of_class hv hrecord
    obtain ⟨id', hid', hname', -⟩ := v2rMsgf2ObuRecord_of_class hw hrecord'
    have husable := usable_of_record hrecord hclassified
    have husable' := usable_of_record hrecord' hclassified'
    rw [hname, hname', nameOf_eq_iff (vehicleClass_ne_normal hv) (vehicleClass_ne_normal hw)]
    constructor
    · rintro ⟨rfl, hstring⟩
      refine ⟨hv.trans hw.symm, hzero husable husable' hclass (hv.trans hw.symm) ?_⟩
      rw [hid, hid', Option.map_some, Option.map_some, hstring]
    · rintro ⟨hsame, hids⟩
      rw [hv, hw] at hsame
      rw [hid, hid'] at hids
      exact ⟨Option.some.inj hsame, by rw [Option.some.inj hids]⟩

def Clock.epoch : Clock where
  tvSec := 0
  localtime _ := ⟨70, 0, 1, 0, 0, 0, 0⟩
  mktime _ := 0

/-- A usable safety message. -/
def safetyMessage (classification : ℕ) (id : IdBytes) : MessageFrame :=
  .bsm {
    partIIOption := true
    partIICount := 1
    supplementalExt := true
    classificationOption := true
    classification := classification
    id := id
    secMark := 0
    lat := 0
    long := 0
    speed := 0
    heading := 0 }

/-- Two buses with a zero in their ids have one name, and a car that is no special vehicle
is recorded as an ambulance without a name. -/
theorem not_identified :
    ¬ Identified .epoch .epoch (safetyMessage 50 ⟨[1, 0, 0, 0], rfl⟩)
        (safetyMessage 50 ⟨[1, 0, 2, 0], rfl⟩) ∧
      ¬ Identified .epoch .epoch (safetyMessage 20 ⟨[1, 2, 3, 4], rfl⟩)
        (safetyMessage 20 ⟨[1, 2, 3, 4], rfl⟩) := by
  constructor
  · intro h
    have hsame : busName ⟨[1, 0, 0, 0], rfl⟩ = busName ⟨[1, 0, 2, 0], rfl⟩ := by decide
    exact absurd ((h.names _ _ rfl rfl rfl rfl).mp hsame).2 (by decide)
  · intro h
    exact absurd (h.others rfl) (by simp [safetyMessage, v2rMsgf2ObuRecord,
      BasicSafetyMessage.toRecord, BasicSafetyMessage.usable])

end AdaptiveSignal.Vehicles
