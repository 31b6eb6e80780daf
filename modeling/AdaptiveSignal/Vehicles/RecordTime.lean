import AdaptiveSignal.Foundation.Calendar
import AdaptiveSignal.Vehicles.Identity
import Mathlib.Algebra.Order.Group.Abs
import Mathlib.Data.Int.ModEq

/-! # The time of a record

A message has only a part of its time, the second of a minute or the minute of a year; the
rest is taken from the clock.
-/

namespace AdaptiveSignal.Vehicles

open Foundation

/-- The days of 1970-01-01. -/
def epochDay : ℤ := 719162

/-- `localtime_r` and `mktime` in a zone that is so many minutes ahead all the year. -/
def zoneClock (offset tvSec : ℤ) : Clock where
  tvSec
  localtime t :=
    let seconds := t + 60 * offset
    let date := Date.ofDay (epochDay + seconds / 86400)
    let second := seconds % 86400
    { tmYear := date.year - 1900
      tmMon := date.month
      tmMday := date.day + 1
      tmHour := second / 3600
      tmMin := second / 60 % 60
      tmSec := second % 60
      tmIsdst := 0 }
  mktime timeinfo :=
    let date : Date :=
      { year := timeinfo.tmYear + 1900 + timeinfo.tmMon / 12
        month := (timeinfo.tmMon % 12).toNat
        day := timeinfo.tmMday - 1 }
    86400 * (date.toDay - epochDay) + 3600 * timeinfo.tmHour + 60 * timeinfo.tmMin +
      timeinfo.tmSec - 60 * offset

theorem mktime_eq (offset tvSec : ℤ) {timeinfo : Tm} {month : ℕ} (htmMon : timeinfo.tmMon = month)
    (hmonth : month < 12) :
    (zoneClock offset tvSec).mktime timeinfo =
      86400 * ((Date.mk (timeinfo.tmYear + 1900) month (timeinfo.tmMday - 1)).toDay - epochDay) +
        3600 * timeinfo.tmHour + 60 * timeinfo.tmMin + timeinfo.tmSec - 60 * offset := by
  have hyear : timeinfo.tmMon / 12 = 0 := by omega
  have hnat : (timeinfo.tmMon % 12).toNat = month := by omega
  simp only [zoneClock, hyear, hnat, add_zero]

theorem mktime_localtime (offset tvSec t : ℤ) :
    (zoneClock offset tvSec).mktime ((zoneClock offset tvSec).localtime t) = t := by
  have hday := Date.toDay_ofDay (epochDay + (t + 60 * offset) / 86400)
  rw [mktime_eq offset tvSec rfl (Date.month_ofDay_lt _)]
  simp only [zoneClock, sub_add_cancel, add_sub_cancel_right, hday]
  omega

/-! ## The day of the year -/

theorem monthDay_eq (lengths : List ℤ) (month place : ℤ) :
    monthDay lengths month (place + 1) =
      (month + (locate lengths place).1, (locate lengths place).2 + 1) := by
  induction lengths generalizing month place with
  | nil => simp [monthDay, locate]
  | cons length later ih =>
      unfold monthDay locate
      by_cases hfirst : place < length
      · rw [if_pos (Int.add_one_le_of_lt hfirst), if_pos hfirst]
        simp
      · rw [if_neg (by omega), if_neg hfirst, add_sub_right_comm, ih]
        simp only [Nat.cast_add, Nat.cast_one, Prod.mk.injEq, and_true]
        omega

theorem yday2monthDay_eq (timeinfo : Tm) (place : ℤ) :
    yday2monthDay timeinfo (place + 1) =
      let found := locate (monthLengths (timeinfo.tmYear + 1900)) place
      if 12 ≤ (found.1 : ℤ) ∨ timeinfo.tmMon ≠ found.1 then none
      else some { timeinfo with tmMday := found.2 + 1 } := by
  have hleap (year : ℤ) : ((year % 400 = 0 ∨ year % 100 ≠ 0) ∧ year % 4 = 0) = IsLeap year := by
    unfold IsLeap
    exact propext (by omega)
  simp only [yday2monthDay, hleap]
  change (if 12 ≤ (monthDay (monthLengths (timeinfo.tmYear + 1900)) 0 (place + 1)).1 ∨
      timeinfo.tmMon ≠ (monthDay (monthLengths (timeinfo.tmYear + 1900)) 0 (place + 1)).1 then none
    else some { timeinfo with
      tmMday := (monthDay (monthLengths (timeinfo.tmYear + 1900)) 0 (place + 1)).2 }) = _
  simp only [monthDay_eq, zero_add]

/-- The day of a year gives the day of the current month, for every day of that. -/
theorem yday2monthDay_blockStart (timeinfo : Tm) {month : ℕ} {day length : ℤ}
    (hmonth : (monthLengths (timeinfo.tmYear + 1900))[month]? = some length)
    (htmMon : timeinfo.tmMon = month) (hday : 1 ≤ day) (hlength : day ≤ length) :
    yday2monthDay timeinfo (blockStart (monthLengths (timeinfo.tmYear + 1900)) month + day) =
      some { timeinfo with tmMday := day } := by
  have hfound := locate_blockStart (monthLengths_nonneg _) hmonth (Int.sub_nonneg.mpr hday)
    (Int.sub_one_lt_of_le hlength)
  have hlt : month < 12 := (List.getElem?_eq_some_iff.mp hmonth).1
  have hplace := yday2monthDay_eq timeinfo
    (blockStart (monthLengths (timeinfo.tmYear + 1900)) month + (day - 1))
  rw [hfound, add_assoc, sub_add_cancel] at hplace
  rw [hplace]
  simp only [htmMon, ne_eq, not_true_eq_false, or_false]
  rw [if_neg (by omega), sub_add_cancel]

/-! ## Times -/

/-- The correction takes another minute off where one should be added. -/
theorem timeSecond_eq (offset now : ℤ) (bsm : BasicSafetyMessage) :
    bsm.timeSecond (zoneClock offset now) =
      (if 30 < now.tmod 60 - bsm.secMark.tdiv 1000 then now - 60 else now) - now.tmod 60 +
        bsm.secMark.tdiv 1000 := by
  have hguard : (bsm.secMark.tdiv 1000 < now.tmod 60 ∧ 30 < now.tmod 60 - bsm.secMark.tdiv 1000) =
      (30 < now.tmod 60 - bsm.secMark.tdiv 1000) := propext (by omega)
  simp only [BasicSafetyMessage.timeSecond, mktime_localtime]
  simp only [zoneClock, hguard]

/-- The first second of a year in a zone. -/
def yearStart (offset year : ℤ) : ℤ :=
  86400 * (daysBeforeYear year - epochDay) - 60 * offset

/-- The time of the record is consistent with the message. -/
def ConsistentTime (offset now : ℤ) : MessageFrame → Prop
  | .bsm msg => msg.usable → 0 ≤ msg.secMark → msg.secMark < 60000 →
      ∃ record, v2rMsgf2ObuRecord (zoneClock offset now) (.bsm msg) = some record ∧
        record.timeSecond ≡ msg.secMark / 1000 [ZMOD 60] ∧ |record.timeSecond - now| ≤ 30
  | .srm msg =>
      let timeinfo := (zoneClock offset now).localtime now
      let year := timeinfo.tmYear + 1900
      msg.usable → (classOfRole msg.role).isSome → 0 ≤ msg.timeStamp →
        msg.timeStamp < 1440 * daysInYear year →
        timeinfo.tmMon = (locate (monthLengths year) (msg.timeStamp / 1440)).1 →
        ∃ record, v2rMsgf2ObuRecord (zoneClock offset now) (.srm msg) = some record ∧
          record.timeSecond = yearStart offset year + 60 * msg.timeStamp + msg.second.tdiv 1000
  | .other _ => True

/-- The second of the message is no more than half a minute away in the current minute. -/
def NearMark (now : ℤ) : MessageFrame → Prop
  | .bsm msg => msg.usable → 0 ≤ msg.secMark → msg.secMark < 60000 →
      |now.tmod 60 - msg.secMark / 1000| ≤ 30
  | .srm _ => True
  | .other _ => True

theorem bsm_consistentTime_iff (offset now : ℤ) (bsm : BasicSafetyMessage) :
    ConsistentTime offset now (.bsm bsm) ↔ NearMark now (.bsm bsm) := by
  refine forall_congr' fun husable => forall_congr' fun hnonneg => forall_congr' fun hlt => ?_
  have hrecord : v2rMsgf2ObuRecord (zoneClock offset now) (.bsm bsm) =
      some { bsm.classify .cleared with
        timeSecond := bsm.timeSecond (zoneClock offset now)
        positionLat := bsm.lat
        positionLon := bsm.long
        speed := UInt8.ofInt (bsm.speed.tdiv 50)
        direction := UInt8.ofInt (bsm.heading.tdiv 3600) &&& 7 } := if_pos husable
  have htime := timeSecond_eq offset now bsm
  rw [Int.tdiv_eq_ediv_of_nonneg hnonneg] at htime
  have hsplit := Int.mul_tdiv_add_tmod now 60
  generalize now.tmod 60 = second at htime hsplit ⊢
  rw [hrecord]
  simp only [Option.some.injEq, exists_eq_left', htime, abs_le, Int.ModEq]
  split_ifs with hcorrected
  · omega
  · omega

theorem srm_timeinfo {offset now : ℤ} {srm : SignalRequestMessage}
    (hnonneg : 0 ≤ srm.timeStamp) {year : ℤ}
    (hyear : ((zoneClock offset now).localtime now).tmYear + 1900 = year)
    (hday : srm.timeStamp < 1440 * daysInYear year)
    (hmonth : ((zoneClock offset now).localtime now).tmMon =
      (locate (monthLengths year) (srm.timeStamp / 1440)).1) :
    srm.timeinfo (zoneClock offset now) =
      some { (zoneClock offset now).localtime now with
        tmMday := (locate (monthLengths year) (srm.timeStamp / 1440)).2 + 1
        tmHour := srm.timeStamp % 1440 / 60
        tmMin := srm.timeStamp % 1440 % 60
        tmSec := srm.second.tdiv 1000
        tmIsdst := -1 } := by
  subst hyear
  have hplace : srm.timeStamp / 1440 <
      (monthLengths (((zoneClock offset now).localtime now).tmYear + 1900)).sum := by
    rw [sum_monthLengths]
    omega
  have hmonths := locate_lt hplace (Int.ediv_nonneg hnonneg (by decide))
  have hlt : (locate (monthLengths (((zoneClock offset now).localtime now).tmYear + 1900))
      (srm.timeStamp / 1440)).1 < 12 := hmonths
  have hdmin : 0 ≤ srm.timeStamp % 1440 := Int.emod_nonneg _ (by decide)
  simp only [SignalRequestMessage.timeinfo, Int.tdiv_eq_ediv_of_nonneg hnonneg,
    Int.tmod_eq_emod_of_nonneg hnonneg, Int.tdiv_eq_ediv_of_nonneg hdmin,
    Int.tmod_eq_emod_of_nonneg hdmin, yday2monthDay_eq]
  rw [if_neg]
  · rfl
  · rintro (hge | hne)
    · exact absurd (Int.ofNat_le.mp hge) (Nat.not_le.mpr hlt)
    · exact hne hmonth

theorem classify_of_role {srm : SignalRequestMessage} (hrole : (classOfRole srm.role).isSome)
    (record : ObuRecordCommonField) : ∃ classified, srm.classify record = some classified := by
  unfold SignalRequestMessage.classify
  cases hsrm : srm.role with
  | ambulance => exact ⟨_, rfl⟩
  | fire => exact ⟨_, rfl⟩
  | police => exact ⟨_, rfl⟩
  | other role =>
      rw [hsrm] at hrole
      cases hrole

theorem srm_record {clock : Clock} {srm : SignalRequestMessage}
    {classified : ObuRecordCommonField} {timeinfo : Tm} (husable : srm.usable)
    (hclassify : srm.classify .cleared = some classified)
    (htimeinfo : srm.timeinfo clock = some timeinfo) :
    v2rMsgf2ObuRecord clock (.srm srm) =
      some { classified with
        timeSecond := clock.mktime timeinfo
        positionLat := srm.lat
        positionLon := srm.long
        speed := UInt8.ofInt (srm.speed.tdiv 50)
        direction := UInt8.ofInt (srm.heading.tdiv 3600) &&& 7 } := by
  simp only [v2rMsgf2ObuRecord, SignalRequestMessage.toRecord, husable, hclassify, htimeinfo,
    if_true]

theorem srm_consistentTime (offset now : ℤ) (srm : SignalRequestMessage) :
    ConsistentTime offset now (.srm srm) := by
  intro husable hrole hnonneg hday hmonth
  obtain ⟨classified, hclassify⟩ := classify_of_role hrole .cleared
  have htimeinfo := srm_timeinfo hnonneg rfl hday hmonth
  have hplace := blockStart_locate
    (monthLengths (((zoneClock offset now).localtime now).tmYear + 1900)) (srm.timeStamp / 1440)
  have hlt : (locate (monthLengths (((zoneClock offset now).localtime now).tmYear + 1900))
      (srm.timeStamp / 1440)).1 < 12 := by
    have hdate := Date.month_ofDay_lt (epochDay + (now + 60 * offset) / 86400)
    exact Int.ofNat_lt.mp (hmonth ▸ Int.ofNat_lt.mpr hdate)
  refine ⟨_, srm_record husable hclassify htimeinfo, ?_⟩
  refine (mktime_eq offset now ?_ hlt).trans ?_
  · exact hmonth
  · simp only [Date.toDay, yearStart]
    omega

/-- The time of a record is consistent with every request of the current month, and with
a safety message if and only if its second mark is near in the current minute. -/
theorem consistentTime_iff (offset now : ℤ) (message : MessageFrame) :
    (ConsistentTime offset now message ↔ NearMark now message) ∧
      ∀ (timeinfo : Tm) (month : ℕ) (day length : ℤ),
        (monthLengths (timeinfo.tmYear + 1900))[month]? = some length → timeinfo.tmMon = month →
          1 ≤ day → day ≤ length →
            yday2monthDay timeinfo
                (blockStart (monthLengths (timeinfo.tmYear + 1900)) month + day) =
              some { timeinfo with tmMday := day } := by
  refine ⟨?_, fun timeinfo month day length => yday2monthDay_blockStart timeinfo⟩
  cases message with
  | bsm bsm => exact bsm_consistentTime_iff offset now bsm
  | srm srm => exact iff_of_true (srm_consistentTime offset now srm) trivial
  | other => exact Iff.rfl

/-- A bus with a second mark of 5 s. -/
def earlyBus : BasicSafetyMessage where
  partIIOption := true
  partIICount := 1
  supplementalExt := true
  classificationOption := true
  classification := 50
  id := ⟨[1, 2, 3, 4], rfl⟩
  secMark := 5000
  lat := 0
  long := 0
  speed := 0
  heading := 0

/-- In the second 50 of a minute the mark is taken for one 105 s ago. -/
theorem earlyBus_not_consistentTime : ¬ ConsistentTime 480 1700000030 (.bsm earlyBus) := by
  rw [bsm_consistentTime_iff]
  intro hnear
  exact absurd (hnear rfl (by decide) (by decide)) (by decide)

end AdaptiveSignal.Vehicles
