import AdaptiveSignal.Signal.Middleware
import Mathlib.Algebra.Order.Ring.Int
import Mathlib.Tactic.Ring
import Mathlib.Tactic.SplitIfs

/-! # Extending a step of a CHENG_LONG controller

A CHENG_LONG controller takes the seconds a step is to run from now on. To shorten a step
by more than its green the controller is sent a second at a time, each one worth the green
without the four seconds the machine needs, until the rest is no longer negative.
-/

namespace AdaptiveSignal.Signal

def timeDefense : Int := 5

/-- The change of the step, from the seconds it runs at present. A step that still has the
seconds to defend is left with them. -/
def extendDifference (stepSec : UInt16) (effectTime adjustedTime : UInt8) : Int :=
  let difference : Int := effectTime.toNat - adjustedTime.toNat
  if stepSec.toNat + difference < timeDefense ∧ timeDefense ≤ stepSec.toNat then
    timeDefense - stepSec.toNat
  else difference

/-- The seconds handed to `tsc_extend` one after the other, as far as `fuel` goes. -/
def extendLoop (pretime : UInt16) : ℕ → Int → Option (List Int)
  | 0, _ => none
  | fuel + 1, time =>
      if time < 0 then (extendLoop pretime fuel (time + (pretime.toNat - 4))).map (1 :: ·)
      -- the controller does not react to a zero
      else some [if time = 0 then 1 else time]

/-- The CHENG_LONG case of `command_buf_send`. -/
def sendChengLong (pretime stepSec : UInt16) (effectTime adjustedTime : UInt8) (fuel : ℕ) :
    Option (List Int) :=
  let time := pretime.toNat + extendDifference stepSec effectTime adjustedTime
  extendLoop pretime fuel (if 255 < time then 255 else time)

/-- Seconds as a parameter of type `uint8_t`. -/
def secondsByte (time : Int) : UInt8 := UInt8.ofNat (time % 256).toNat

/-- `tsc_extend`: the INFO of the packet. The byte 170 is the escape character of the
protocol, and a second is added. -/
def tscExtend (subphase step effectTime : UInt8) : List UInt8 :=
  [0x5F, 0x1C, subphase, step, if effectTime = 170 then 171 else effectTime]

/-- The packets sent for the object of a slot. -/
def Middleware.extendPackets (s : Middleware) (obj : TscCommandObject) (phase : UInt8)
    (fuel : ℕ) : Option (List (List UInt8)) :=
  (sendChengLong (s.status.plan phase).preGreen s.status.stepSec obj.effectTime obj.adjustedTime
    fuel).map (List.map fun time => tscExtend phase 1 (secondsByte time))

/-- What the packets are to amount to: seconds of 1 but for the last, which fits a byte and
with the ones before makes up the green and its change, between the caps. -/
structure ExtendsBy (pretime stepSec : UInt16) (effectTime adjustedTime : UInt8) : Prop where
  defended : timeDefense ≤ stepSec.toNat →
    timeDefense ≤ stepSec.toNat + extendDifference stepSec effectTime adjustedTime
  issued : ∃ fuel ones last,
    sendChengLong pretime stepSec effectTime adjustedTime fuel =
        some (List.replicate ones 1 ++ [last]) ∧
      (1 ≤ last ∧ last ≤ 255) ∧ ((secondsByte last).toNat : Int) = last ∧
      last = max 1 (min 255 (pretime.toNat +
        extendDifference stepSec effectTime adjustedTime + ones * (pretime.toNat - 4)))

section Loop

variable {pretime : UInt16} {time : Int}

/-- Seconds that are not negative are sent at once, though no zero is. -/
theorem extendLoop_done (htime : 0 ≤ time) :
    extendLoop pretime 1 time = some (List.replicate 0 1 ++ [max 1 time]) := by
  rw [extendLoop, if_neg (not_lt.mpr htime)]
  simp only [List.replicate_zero, List.nil_append, Option.some.injEq, List.cons.injEq, and_true]
  split_ifs <;> omega

/-- With more than the four seconds of the machine every packet brings the time closer to
zero, and none takes it further than a green. -/
theorem extendLoop_ends (hgreen : 4 < pretime.toNat) (hbelow : time < pretime.toNat - 4) :
    ∃ fuel ones : ℕ, extendLoop pretime fuel time =
        some (List.replicate ones 1 ++ [max 1 (time + ones * (pretime.toNat - 4))]) ∧
      time + ones * (pretime.toNat - 4) < pretime.toNat - 4 := by
  obtain ⟨distance, hdistance⟩ : ∃ distance : ℕ, -time ≤ distance := ⟨(-time).toNat, by omega⟩
  induction distance generalizing time with
  | zero =>
      refine ⟨1, 0, ?_, by omega⟩
      rw [extendLoop_done (by omega)]
      simp
  | succ distance ih =>
      rcases lt_or_ge time 0 with hneg | hnonneg
      · obtain ⟨fuel, ones, hloop, hlast⟩ := @ih (time + (pretime.toNat - 4)) (by omega)
          (by omega)
        have hsum : time + (pretime.toNat - 4) + ones * (pretime.toNat - 4) =
            time + (ones + 1 : ℕ) * (pretime.toNat - 4) := by
          push_cast
          ring
        rw [hsum] at hloop hlast
        refine ⟨fuel + 1, ones + 1, ?_, hlast⟩
        rw [extendLoop, if_pos hneg, hloop]
        rfl
      · refine ⟨1, 0, ?_, by omega⟩
        rw [extendLoop_done hnonneg]
        simp

/-- With four seconds or less no packet does. -/
theorem extendLoop_stuck (hgreen : pretime.toNat ≤ 4) (htime : time < 0) (fuel : ℕ) :
    extendLoop pretime fuel time = none := by
  induction fuel generalizing time with
  | zero => rfl
  | succ fuel ih =>
      rw [extendLoop, if_pos htime, ih (by omega)]
      rfl

end Loop

theorem secondsByte_toNat {time : Int} (htime : 0 ≤ time ∧ time ≤ 255) :
    ((secondsByte time).toNat : Int) = time := by
  rw [secondsByte, UInt8.toNat_ofNat']
  omega

/-- The seconds to defend are left to a step that has them. -/
theorem extendDifference_defended (stepSec : UInt16) (effectTime adjustedTime : UInt8)
    (hstep : timeDefense ≤ stepSec.toNat) :
    timeDefense ≤ stepSec.toNat + extendDifference stepSec effectTime adjustedTime := by
  unfold extendDifference
  dsimp only
  split_ifs <;> omega

/-- No change takes more seconds than a slot holds. -/
theorem extendDifference_ge (stepSec : UInt16) (effectTime adjustedTime : UInt8) :
    -255 ≤ extendDifference stepSec effectTime adjustedTime := by
  have hadjusted := adjustedTime.toNat_lt
  unfold extendDifference timeDefense
  dsimp only
  split_ifs <;> omega

/-- The time is negative exactly if the change takes more than the green and the defence
leaves it. -/
theorem extendTime_nonneg_iff (pretime stepSec : UInt16) (effectTime adjustedTime : UInt8) :
    0 ≤ pretime.toNat + extendDifference stepSec effectTime adjustedTime ↔
      adjustedTime.toNat ≤ pretime.toNat + effectTime.toNat ∨
        5 ≤ stepSec.toNat ∧ stepSec.toNat ≤ pretime.toNat + 5 := by
  unfold extendDifference timeDefense
  dsimp only
  split_ifs <;> omega

/-- A time that is not negative is sent at once, a greater one than a byte holds cut to
that. -/
theorem sendChengLong_once {pretime stepSec : UInt16} {effectTime adjustedTime : UInt8}
    (htime : 0 ≤ pretime.toNat + extendDifference stepSec effectTime adjustedTime) :
    sendChengLong pretime stepSec effectTime adjustedTime 1 = some (List.replicate 0 1 ++
      [max 1 (min 255 (pretime.toNat + extendDifference stepSec effectTime adjustedTime))]) := by
  have hcapped : (if 255 < pretime.toNat + extendDifference stepSec effectTime adjustedTime
      then 255 else pretime.toNat + extendDifference stepSec effectTime adjustedTime) =
      min 255 (pretime.toNat + extendDifference stepSec effectTime adjustedTime) := by
    split_ifs <;> omega
  unfold sendChengLong
  dsimp only
  rw [hcapped]
  exact extendLoop_done (by omega)

/-- A negative time is made up for second by second, if the green is long enough. -/
theorem sendChengLong_repeated {pretime stepSec : UInt16} {effectTime adjustedTime : UInt8}
    (hgreen : 4 < pretime.toNat)
    (htime : pretime.toNat + extendDifference stepSec effectTime adjustedTime < 0) :
    ∃ fuel ones : ℕ, sendChengLong pretime stepSec effectTime adjustedTime fuel =
        some (List.replicate ones 1 ++ [max 1 (pretime.toNat +
          extendDifference stepSec effectTime adjustedTime + ones * (pretime.toNat - 4))]) ∧
      pretime.toNat + extendDifference stepSec effectTime adjustedTime +
        ones * (pretime.toNat - 4) < pretime.toNat - 4 := by
  obtain ⟨fuel, ones, hloop, hlast⟩ := extendLoop_ends hgreen
    (show pretime.toNat + extendDifference stepSec effectTime adjustedTime < _ by omega)
  refine ⟨fuel, ones, ?_, hlast⟩
  unfold sendChengLong
  dsimp only
  rw [if_neg (by omega)]
  exact hloop

/-- The packets amount to the change exactly if the time to send is not negative or the
green is more than the four seconds of the machine. -/
theorem extendsBy_iff (pretime stepSec : UInt16) (effectTime adjustedTime : UInt8) :
    ExtendsBy pretime stepSec effectTime adjustedTime ↔
      (adjustedTime.toNat ≤ pretime.toNat + effectTime.toNat ∨
          5 ≤ stepSec.toNat ∧ stepSec.toNat ≤ pretime.toNat + 5) ∨
        5 ≤ pretime.toNat := by
  rw [← extendTime_nonneg_iff]
  constructor
  · rintro ⟨-, fuel, ones, last, hissued, -⟩
    by_contra hnegative
    obtain ⟨htime, hgreen⟩ := not_or.mp hnegative
    rw [sendChengLong, if_neg (by omega), extendLoop_stuck (by omega) (by omega)] at hissued
    exact absurd hissued (by simp)
  · intro hends
    refine ⟨extendDifference_defended stepSec effectTime adjustedTime, ?_⟩
    have hchange := extendDifference_ge stepSec effectTime adjustedTime
    rcases lt_or_ge (pretime.toNat + extendDifference stepSec effectTime adjustedTime) 0 with
      hneg | hnonneg
    · have hgreen := hends.resolve_left (not_le.mpr hneg)
      obtain ⟨fuel, ones, hissued, hlast⟩ := sendChengLong_repeated hgreen hneg
      -- the change is at most 255 seconds, so the last packet has no more than that
      refine ⟨fuel, ones, _, hissued, ⟨by omega, by omega⟩, secondsByte_toNat ⟨by omega, by omega⟩,
        by omega⟩
    · refine ⟨1, 0, _, sendChengLong_once hnonneg, ⟨by omega, by omega⟩,
        secondsByte_toNat ⟨by omega, by omega⟩, ?_⟩
      rw [Nat.cast_zero, zero_mul, add_zero]

/-- Where the packets amount to the change, they are finitely many, and all but the last
carry one second. -/
theorem extendPackets_finite {s : Middleware} {obj : TscCommandObject} {phase : UInt8}
    (hextends : ExtendsBy (s.status.plan phase).preGreen s.status.stepSec obj.effectTime
      obj.adjustedTime) :
    ∃ fuel ones last, s.extendPackets obj phase fuel =
      some (List.replicate ones (tscExtend phase 1 1) ++ [tscExtend phase 1 last]) := by
  obtain ⟨fuel, ones, last, hissued, -⟩ := hextends.issued
  refine ⟨fuel, ones, secondsByte last, ?_⟩
  rw [Middleware.extendPackets, hissued, Option.map_some, List.map_append, List.map_replicate]
  rfl

/-- A step of four planned seconds that runs for 30 cannot be cut to 5: every second that is
sent leaves the 21 that are missing. -/
theorem cut_never_ends :
    (∀ fuel, sendChengLong 4 30 1 30 fuel = none) ∧ ¬ ExtendsBy 4 30 1 30 := by
  have hnever : ∀ fuel, sendChengLong 4 30 1 30 fuel = none := fun fuel =>
    extendLoop_stuck (by decide) (by decide) fuel
  refine ⟨hnever, ?_⟩
  rintro ⟨-, fuel, ones, last, hissued, -⟩
  rw [hnever] at hissued
  exact absurd hissued (by simp)

end AdaptiveSignal.Signal
