import AdaptiveSignal.Foundation.OneShotTimer

/-! # The error status and its timers

Every kind of error is a bit of one byte. Threads report and clear errors in any order;
that a roadside unit or the controller is silent is reported by a timer, which the thread
that hears from it sets again. Behind the timer of the controller the process ends.
-/

namespace AdaptiveSignal.Signal

open Foundation

abbrev dsrcBitPosition : UInt8 := 1

abbrev vmsBitPosition : UInt8 := 2

abbrev diskBitPosition : UInt8 := 4

abbrev memoryBitPosition : UInt8 := 8

abbrev tcfailBitPosition : UInt8 := 16

abbrev tc655xxErr : UInt8 := 32

abbrev phaseWeightErr : UInt8 := 64

/-- The errors that threads report, and the ones that timers do. -/
inductive Report
  | vms | disk | memory | tc655xx | phaseWeight
  deriving DecidableEq

inductive Watch
  | dsrc | tcFail
  deriving DecidableEq

inductive Error
  | reported (report : Report)
  | silent (watch : Watch)
  deriving DecidableEq

/-- A thread runs a part of one of the functions, or a second passes. `clear_tsc_5fcc_error`
clears the bit and then sets the timer, the receiver of the roadside unit the other way round. -/
inductive ErrorEvent
  | set (report : Report)
  | clear (error : Error)
  | setTimer (watch : Watch)
  | second
  deriving DecidableEq

/-- The seconds that `dsrc_error_detect_init` and `tc_5fcc_error_detect_init` give their timers. -/
def Watch.limit : Watch → ℕ
  | .dsrc => 10
  | .tcFail => 60

def Watch.timer (watch : Watch) : OneShot ErrorEvent where
  limit := watch.limit
  passes event := event = .second
  sets event := event = .setTimer watch
  pos := by cases watch <;> decide
  disjoint event hset := by
    rw [decide_eq_true_eq] at hset
    rw [hset]
    rfl

/-- The byte, the timers, and for each thread that is in the `sleep` of `set_tsc_5fcc_error`
the seconds it still sleeps. -/
structure ErrorStatus where
  errorStatus : UInt8
  timers : Watch → Option ℕ
  sleeping : List ℕ
  exited : Bool

namespace ErrorStatus

def setBit (s : ErrorStatus) (bit : UInt8) : ErrorStatus :=
  { s with errorStatus := s.errorStatus ||| bit }

def clearBit (s : ErrorStatus) (bit : UInt8) : ErrorStatus :=
  { s with errorStatus := s.errorStatus &&& ~~~ bit }

def setDsrcError (s : ErrorStatus) : ErrorStatus := s.setBit dsrcBitPosition

def clearDsrcError (s : ErrorStatus) : ErrorStatus := s.clearBit dsrcBitPosition

def setVmsError (s : ErrorStatus) : ErrorStatus := s.setBit vmsBitPosition

def clearVmsError (s : ErrorStatus) : ErrorStatus := s.clearBit vmsBitPosition

def setDiskError (s : ErrorStatus) : ErrorStatus := s.setBit diskBitPosition

def clearDiskError (s : ErrorStatus) : ErrorStatus := s.clearBit diskBitPosition

def setMemoryError (s : ErrorStatus) : ErrorStatus := s.setBit memoryBitPosition

def clearMemoryError (s : ErrorStatus) : ErrorStatus := s.clearBit memoryBitPosition

def set655xxError (s : ErrorStatus) : ErrorStatus := s.setBit tc655xxErr

def clear655xxError (s : ErrorStatus) : ErrorStatus := s.clearBit tc655xxErr

def setPhaseWeightErr (s : ErrorStatus) : ErrorStatus := s.setBit phaseWeightErr

def clearPhaseWeightErr (s : ErrorStatus) : ErrorStatus := s.clearBit phaseWeightErr

/-- `set_tsc_5fcc_error` as far as its `sleep(5)`. -/
def setTsc5fccError (s : ErrorStatus) : ErrorStatus :=
  { s.setBit tcfailBitPosition with sleeping := s.sleeping ++ [5] }

/-- The part of `clear_tsc_5fcc_error` under the mutex. -/
def clearTsc5fccError (s : ErrorStatus) : ErrorStatus := s.clearBit tcfailBitPosition

/-- A second of the sleepers. One that wakes kills the process, whose handler exits. -/
def wake (s : ErrorStatus) : ErrorStatus :=
  { s with
    sleeping := s.sleeping.filterMap fun n => if n ≤ 1 then none else some (n - 1)
    exited := s.exited || s.sleeping.contains 1 }

def set (s : ErrorStatus) : Report → ErrorStatus
  | .vms => s.setVmsError
  | .disk => s.setDiskError
  | .memory => s.setMemoryError
  | .tc655xx => s.set655xxError
  | .phaseWeight => s.setPhaseWeightErr

def clear (s : ErrorStatus) : Error → ErrorStatus
  | .reported .vms => s.clearVmsError
  | .reported .disk => s.clearDiskError
  | .reported .memory => s.clearMemoryError
  | .reported .tc655xx => s.clear655xxError
  | .reported .phaseWeight => s.clearPhaseWeightErr
  | .silent .dsrc => s.clearDsrcError
  | .silent .tcFail => s.clearTsc5fccError

def expires (s : ErrorStatus) (event : ErrorEvent) (watch : Watch) : Bool :=
  watch.timer.fires (s.timers watch) event

/-- The timers that expire start `set_dsrc_error` and `set_tsc_5fcc_error`. -/
def notify (s : ErrorStatus) (expires : Watch → Bool) : ErrorStatus :=
  let s := if expires .dsrc then s.setDsrcError else s
  if expires .tcFail then s.setTsc5fccError else s

def step (s : ErrorStatus) (event : ErrorEvent) : ErrorStatus :=
  let next := { s with timers := fun watch => watch.timer.step (s.timers watch) event }
  match event with
  | .set report => next.set report
  | .clear error => next.clear error
  | .setTimer _ => next
  | .second => next.wake.notify (s.expires .second)

/-- The state that the init functions leave. -/
def init : ErrorStatus :=
  { errorStatus := 0
    timers := fun watch => some watch.limit
    sleeping := []
    exited := false }

end ErrorStatus

/-- The bit of `error_status` that stands for an error. -/
def Error.bit : Error → UInt8
  | .reported .vms => vmsBitPosition
  | .reported .disk => diskBitPosition
  | .reported .memory => memoryBitPosition
  | .reported .tc655xx => tc655xxErr
  | .reported .phaseWeight => phaseWeightErr
  | .silent .dsrc => dsrcBitPosition
  | .silent .tcFail => tcfailBitPosition

/-! ## Bits -/

theorem Error.bit_ne_zero (error : Error) : error.bit ≠ 0 := by
  rcases error with report | watch
  · cases report <;> decide
  · cases watch <;> decide

/-- The bits of two errors are different ones. -/
theorem Error.bit_masks (error other : Error) :
    other.bit &&& error.bit = (if other = error then error.bit else 0) ∧
      ~~~ other.bit &&& error.bit = (if other = error then 0 else error.bit) := by
  rcases error with report | watch <;> rcases other with report' | watch'
  · cases report <;> cases report' <;> exact ⟨rfl, rfl⟩
  · cases report <;> cases watch' <;> exact ⟨rfl, rfl⟩
  · cases watch <;> cases report' <;> exact ⟨rfl, rfl⟩
  · cases watch <;> cases watch' <;> exact ⟨rfl, rfl⟩

namespace ErrorStatus

variable (s : ErrorStatus) (event : ErrorEvent)

/-- The byte that `get_error_status` returns tells of an error. -/
def tells (error : Error) : Prop := s.errorStatus &&& error.bit ≠ 0

instance (error : Error) : Decidable (s.tells error) :=
  inferInstanceAs (Decidable (_ ≠ _))

theorem tells_setBit (error other : Error) :
    (s.setBit other.bit).tells error ↔ other = error ∨ s.tells error := by
  rw [tells, tells, setBit]
  have hdistrib : (s.errorStatus ||| other.bit) &&& error.bit =
      s.errorStatus &&& error.bit ||| other.bit &&& error.bit :=
    UInt8.toBitVec_inj.mp BitVec.and_or_distrib_right
  rw [hdistrib, (error.bit_masks other).1, Ne, UInt8.or_eq_zero_iff]
  split_ifs with hother
  · exact iff_of_true (fun h => error.bit_ne_zero h.2) (.inl hother)
  · simp [hother]

theorem tells_clearBit (error other : Error) :
    (s.clearBit other.bit).tells error ↔ s.tells error ∧ other ≠ error := by
  rw [tells, tells, clearBit, UInt8.and_assoc, (error.bit_masks other).2]
  split_ifs with hother
  · simp [hother]
  · simp [hother]

/-! ## Steps -/

theorem set_eq (report : Report) : s.set report = s.setBit (Error.reported report).bit := by
  cases report <;> rfl

theorem clear_eq (error : Error) : s.clear error = s.clearBit error.bit := by
  rcases error with report | watch
  · cases report <;> rfl
  · cases watch <;> rfl

theorem tells_notify (expires : Watch → Bool) (error : Error) :
    (s.notify expires).tells error ↔
      (∃ watch, error = .silent watch ∧ expires watch = true) ∨ s.tells error := by
  have hdsrc : s.setDsrcError.tells error ↔ .silent .dsrc = error ∨ s.tells error :=
    tells_setBit s error (.silent .dsrc)
  have htcFail (s : ErrorStatus) : s.setTsc5fccError.tells error ↔
      .silent .tcFail = error ∨ s.tells error := tells_setBit s error (.silent .tcFail)
  have hwatch : (∃ watch, error = .silent watch ∧ expires watch = true) ↔
      (.silent .tcFail = error ∧ expires .tcFail = true) ∨
        .silent .dsrc = error ∧ expires .dsrc = true := by
    constructor
    · rintro ⟨_ | _, rfl, hexpires⟩
      · exact .inr ⟨rfl, hexpires⟩
      · exact .inl ⟨rfl, hexpires⟩
    · rintro (⟨rfl, hexpires⟩ | ⟨rfl, hexpires⟩) <;> exact ⟨_, rfl, hexpires⟩
  rw [hwatch, notify]
  cases expires .dsrc <;> cases expires .tcFail <;> simp [hdsrc, htcFail, or_assoc]

/-- Whether a step raises an error. -/
def raises : Error → Prop
  | .reported report => event = .set report
  | .silent watch => s.expires event watch = true

theorem expires_of_ne_second (hevent : event ≠ .second) (watch : Watch) :
    s.expires event watch = false := by
  rw [expires, OneShot.fires, Watch.timer]
  simp [hevent]

theorem tells_step (error : Error) :
    (s.step event).tells error ↔
      s.raises event error ∨ s.tells error ∧ event ≠ .clear error := by
  cases event with
  | set report =>
      have hraises : s.raises (.set report) error ↔ .reported report = error := by
        rcases error with report' | watch
        · rw [raises, ErrorEvent.set.injEq, Error.reported.injEq]
        · simp [raises, expires_of_ne_second]
      rw [step, set_eq, tells_setBit, hraises]
      simp [tells]
  | clear other =>
      have hraises : ¬ s.raises (.clear other) error := by
        rcases error with report | watch <;> simp [raises, expires_of_ne_second]
      rw [step, clear_eq, tells_clearBit, or_iff_right hraises, Ne, Ne, ErrorEvent.clear.injEq]
      rfl
  | setTimer watch =>
      have hraises : ¬ s.raises (.setTimer watch) error := by
        rcases error with report | watch <;> simp [raises, expires_of_ne_second]
      simp [step, tells, hraises]
  | second =>
      rw [step, tells_notify]
      refine or_congr ?_ (by simp [tells, wake])
      rcases error with report | watch <;> simp [raises]

theorem timers_step (watch : Watch) :
    (s.step event).timers watch = watch.timer.step (s.timers watch) event := by
  cases event with
  | set report => rw [step, set_eq, setBit]
  | clear error => rw [step, clear_eq, clearBit]
  | setTimer other => rfl
  | second =>
      rw [step, notify]
      split_ifs <;> rfl

/-! ## Runs -/

theorem run_timers (events : List ErrorEvent) (watch : Watch) :
    (run step init events).timers watch =
      run watch.timer.step (some watch.limit) events := by
  induction events using List.reverseRecOn with
  | nil => rfl
  | append_singleton events event ih => rw [run_concat, run_concat, timers_step, ih]

/-- The event after these raises the error: a thread reports it, or a second is the last
of as many as the timer waits in which it has not been set. -/
def Raises (before : List ErrorEvent) (event : ErrorEvent) : Error → Prop
  | .reported report => event = .set report
  | .silent watch => event = .second ∧ ∃ earlier silence, before ++ [event] = earlier ++ silence ∧
      watch.timer.Silence earlier silence ∧ silence.count .second = watch.limit

theorem raises_run_iff (events : List ErrorEvent) (error : Error) :
    (run step init events).raises event error ↔ Raises events event error := by
  rcases error with report | watch
  · exact Iff.rfl
  · rw [raises, expires, run_timers]
    exact watch.timer.fires_iff.trans (and_congr_left' decide_eq_true_iff)

/-- In every run the byte tells of an error exactly if it has been raised and not cleared
since then. -/
theorem tells_iff_since_raised (events : List ErrorEvent) (error : Error) :
    (run step init events).tells error ↔
      ∃ before event after, events = before ++ event :: after ∧ Raises before event error ∧
        .clear error ∉ after := by
  induction events using List.reverseRecOn with
  | nil =>
      refine iff_of_false ?_ fun ⟨_, _, _, heq, _⟩ => by simp at heq
      simp [tells, init]
  | append_singleton events event ih =>
      rw [run_concat, tells_step, exists_split_concat, raises_run_iff, ih]
      refine or_congr (by simp) ?_
      constructor
      · rintro ⟨⟨before, raised, after, rfl, hraised, hkept⟩, hevent⟩
        exact ⟨before, raised, after, rfl, hraised, by simp [hkept, Ne.symm hevent]⟩
      · rintro ⟨before, raised, after, rfl, hraised, hkept⟩
        rw [List.mem_append, not_or, List.mem_singleton] at hkept
        exact ⟨⟨before, raised, after, rfl, hraised, hkept.1⟩, Ne.symm hkept.2⟩

/-! ## The end of the process -/

theorem wake_sleeping {n : ℕ} : n ∈ s.wake.sleeping ↔ 0 < n ∧ n + 1 ∈ s.sleeping := by
  rw [wake, List.mem_filterMap]
  constructor
  · rintro ⟨m, hm, heq⟩
    split_ifs at heq with hle
    obtain rfl := Option.some_inj.mp heq
    exact ⟨by omega, by rwa [Nat.sub_add_cancel (by omega)]⟩
  · rintro ⟨hpos, hn⟩
    exact ⟨n + 1, hn, by rw [if_neg (by omega)]; rfl⟩

theorem notify_sleeping (expires : Watch → Bool) {n : ℕ} :
    n ∈ (s.notify expires).sleeping ↔ n ∈ s.sleeping ∨ n = 5 ∧ expires .tcFail = true := by
  rw [notify]
  cases expires .dsrc <;> cases expires .tcFail <;>
    simp [setTsc5fccError, setDsrcError, setBit]

theorem notify_exited (expires : Watch → Bool) : (s.notify expires).exited = s.exited := by
  rw [notify]
  split_ifs <;> rfl

theorem step_exited_of_ne_second (hevent : event ≠ .second) :
    (s.step event).exited = s.exited ∧ (s.step event).sleeping = s.sleeping := by
  cases event with
  | set report =>
      rw [step, set_eq]
      exact ⟨rfl, rfl⟩
  | clear error =>
      rw [step, clear_eq]
      exact ⟨rfl, rfl⟩
  | setTimer watch => exact ⟨rfl, rfl⟩
  | second => contradiction

/-- The timer of the controller has expired, and `n` seconds have passed since then. -/
def ExpiredAgo (events : List ErrorEvent) (holds : ℕ → Prop) : Prop :=
  ∃ first event rest, events = first ++ event :: rest ∧
    (run step init first).expires event .tcFail = true ∧ holds (rest.count .second)

theorem expiredAgo_second (events : List ErrorEvent) (holds : ℕ → Prop) :
    ExpiredAgo (events ++ [.second]) holds ↔
      (run step init events).expires .second .tcFail = true ∧ holds 0 ∨
        ExpiredAgo events fun n => holds (n + 1) := by
  rw [ExpiredAgo, exists_split_concat, ExpiredAgo]
  simp only [List.count_nil, List.count_append, List.count_singleton_self]

theorem expiredAgo_of_ne_second (hevent : event ≠ .second) (events : List ErrorEvent)
    (holds : ℕ → Prop) : ExpiredAgo (events ++ [event]) holds ↔ ExpiredAgo events holds := by
  have hsingle : List.count .second [event] = 0 := by simp [hevent]
  rw [ExpiredAgo, exists_split_concat, ExpiredAgo]
  simp [expires_of_ne_second _ event hevent, List.count_append, hsingle]

theorem mem_sleeping_iff (events : List ErrorEvent) {n : ℕ} :
    n ∈ (run step init events).sleeping ↔ 0 < n ∧ ExpiredAgo events fun ago => ago + n = 5 := by
  induction events using List.reverseRecOn generalizing n with
  | nil => simp [init, ExpiredAgo]
  | append_singleton events event ih =>
      rw [run_concat]
      by_cases hevent : event = .second
      · subst hevent
        rw [step, notify_sleeping, wake_sleeping, expiredAgo_second]
        change 0 < n ∧ n + 1 ∈ (run step init events).sleeping ∨ _ ↔ _
        have hlater (ago : ℕ) : ago + (n + 1) = 5 ↔ ago + 1 + n = 5 := by omega
        simp only [ih, hlater, Nat.zero_add]
        constructor
        · rintro (⟨hpos, -, hago⟩ | ⟨rfl, hexpires⟩)
          · exact ⟨hpos, .inr hago⟩
          · exact ⟨by omega, .inl ⟨hexpires, rfl⟩⟩
        · rintro ⟨hpos, ⟨hexpires, rfl⟩ | hago⟩
          · exact .inr ⟨rfl, hexpires⟩
          · exact .inl ⟨hpos, by omega, hago⟩
      · rw [(step_exited_of_ne_second _ event hevent).2, ih, expiredAgo_of_ne_second event hevent]

theorem exited_iff_expiredAgo (events : List ErrorEvent) :
    (run step init events).exited = true ↔ ExpiredAgo events (5 ≤ ·) := by
  induction events using List.reverseRecOn with
  | nil => simp [init, ExpiredAgo]
  | append_singleton events event ih =>
      rw [run_concat]
      by_cases hevent : event = .second
      · subst hevent
        rw [step, notify_exited, wake, Bool.or_eq_true, List.contains_iff_mem, expiredAgo_second]
        change (run step init events).exited = true ∨ 1 ∈ (run step init events).sleeping ↔ _
        rw [ih, mem_sleeping_iff]
        constructor
        · rintro (⟨first, event, rest, rfl, hexpires, hago⟩ |
            ⟨-, first, event, rest, rfl, hexpires, hago⟩) <;>
            exact .inr ⟨first, event, rest, rfl, hexpires, by omega⟩
        · rintro (⟨-, hzero⟩ | ⟨first, event, rest, rfl, hexpires, hago⟩)
          · omega
          · rcases Nat.lt_or_ge (rest.count .second) 5 with hlt | hge
            · exact .inr ⟨Nat.one_pos, first, event, rest, rfl, hexpires, by omega⟩
            · exact .inl ⟨first, event, rest, rfl, hexpires, hge⟩
      · rw [(step_exited_of_ne_second _ event hevent).1, ih, expiredAgo_of_ne_second event hevent]

end ErrorStatus

end AdaptiveSignal.Signal
