import AdaptiveSignal.Foundation.Run

/-! # Timers that fire once

A timer runs down unless it is set again. It fires at the end of a time of its length
in which it was not set, and not again before it is set.
-/

namespace AdaptiveSignal.Foundation

/-- A timer, and the events in which a unit of time passes or it is set. -/
structure OneShot (Event : Type*) where
  limit : ℕ
  passes : Event → Bool
  sets : Event → Bool
  pos : 0 < limit
  disjoint : ∀ event, sets event = true → passes event = false

namespace OneShot

variable {Event : Type*} (timer : OneShot Event)

/-- The time left, if the timer is running. -/
def step (left : Option ℕ) (event : Event) : Option ℕ :=
  if timer.sets event then some timer.limit
  else if timer.passes event then left.bind fun n => if n ≤ 1 then none else some (n - 1)
  else left

def fires (left : Option ℕ) (event : Event) : Bool :=
  timer.passes event && left = some 1

/-- The time since the timer was set, or since the start. -/
def quiet (events : List Event) : ℕ :=
  run (fun n event => if timer.sets event then 0 else if timer.passes event then n + 1 else n) 0
    events

theorem quiet_concat (events : List Event) (event : Event) :
    timer.quiet (events ++ [event]) = if timer.sets event then 0
      else if timer.passes event then timer.quiet events + 1 else timer.quiet events :=
  run_concat _ 0 events event

/-- The timer shows how long it was not set. -/
theorem run_step (events : List Event) :
    run timer.step (some timer.limit) events =
      if timer.quiet events < timer.limit then some (timer.limit - timer.quiet events)
      else none := by
  have hpos := timer.pos
  induction events using List.reverseRecOn with
  | nil => exact (if_pos hpos).symm
  | append_singleton events event ih =>
      rw [run_concat, ih, quiet_concat, step]
      by_cases hset : timer.sets event = true
      · simp only [hset, if_true]
        exact (if_pos hpos).symm
      · by_cases hpass : timer.passes event = true
        · simp only [hset, hpass, if_true, Bool.false_eq_true, if_false]
          split_ifs with hbefore hafter hafter
          · rw [Option.bind_some, if_neg (by omega)]
            congr 1
          · rw [Option.bind_some, if_pos (by omega)]
          · omega
          · rfl
        · simp only [hset, hpass, Bool.false_eq_true, if_false]

/-! ## Silence -/

/-- The timer was not set in the last part of a run, and set just before it or never. -/
structure Silence (before silence : List Event) : Prop where
  start : before = [] ∨ ∃ earlier event, before = earlier ++ [event] ∧ timer.sets event = true
  unset : ∀ event ∈ silence, timer.sets event = false

variable {timer}

theorem Silence.of_append {before silence rest : List Event}
    (h : timer.Silence before (silence ++ rest)) : timer.Silence before silence :=
  ⟨h.start, fun event hevent => h.unset event (List.mem_append_left rest hevent)⟩

theorem Silence.quiet_eq {before silence : List Event} (h : timer.Silence before silence) :
    timer.quiet (before ++ silence) = silence.countP timer.passes := by
  induction silence using List.reverseRecOn with
  | nil =>
      rw [List.append_nil]
      rcases h.start with rfl | ⟨earlier, event, rfl, hset⟩
      · rfl
      · rw [quiet_concat, if_pos hset]
        rfl
  | append_singleton silence event ih =>
      have hunset := h.unset event (by simp)
      rw [← List.append_assoc, quiet_concat, if_neg (by simp [hunset]), ih h.of_append,
        List.countP_append, List.countP_singleton]
      split_ifs <;> rfl

variable (timer)

theorem exists_silence (events : List Event) :
    ∃ before silence, events = before ++ silence ∧ timer.Silence before silence := by
  induction events using List.reverseRecOn with
  | nil => exact ⟨[], [], rfl, .inl rfl, by simp⟩
  | append_singleton events event ih =>
      obtain ⟨before, silence, rfl, hsilence⟩ := ih
      cases hset : timer.sets event with
      | true =>
          exact ⟨before ++ silence ++ [event], [], by simp, .inr ⟨_, event, rfl, hset⟩, by simp⟩
      | false =>
          refine ⟨before, silence ++ [event], by simp, hsilence.start, fun other hother => ?_⟩
          rcases List.mem_append.mp hother with hother | hother
          · exact hsilence.unset other hother
          · rwa [List.mem_singleton.mp hother]

theorem quiet_eq_iff {events : List Event} {n : ℕ} :
    timer.quiet events = n ↔ ∃ before silence, events = before ++ silence ∧
      timer.Silence before silence ∧ silence.countP timer.passes = n := by
  constructor
  · rintro rfl
    obtain ⟨before, silence, rfl, hsilence⟩ := timer.exists_silence events
    exact ⟨before, silence, rfl, hsilence, hsilence.quiet_eq.symm⟩
  · rintro ⟨before, silence, rfl, hsilence, rfl⟩
    exact hsilence.quiet_eq

/-- The timer fires when it has not been set for a time of its length. -/
theorem fires_iff {events : List Event} {event : Event} :
    timer.fires (run timer.step (some timer.limit) events) event = true ↔
      timer.passes event = true ∧ ∃ before silence, events ++ [event] = before ++ silence ∧
        timer.Silence before silence ∧ silence.countP timer.passes = timer.limit := by
  rw [fires, run_step, Bool.and_eq_true, decide_eq_true_eq, ← quiet_eq_iff, quiet_concat]
  refine and_congr_right fun hpass => ?_
  have hunset : ¬ timer.sets event = true := fun hset => by
    simp [timer.disjoint event hset] at hpass
  rw [if_neg hunset, if_pos hpass]
  split_ifs with hquiet
  · rw [Option.some_inj]
    omega
  · exact iff_of_false (by simp) (by omega)

/-- A list with some elements that satisfy `p` ends with one of them and others that do not. -/
theorem exists_last_of_countP {p : Event → Bool} {events : List Event}
    (h : 0 < events.countP p) :
    ∃ before event after, events = before ++ event :: after ∧ p event = true ∧
      after.countP p = 0 := by
  rw [List.countP_pos_iff] at h
  induction events using List.reverseRecOn with
  | nil => simp at h
  | append_singleton events last ih =>
      cases hlast : p last with
      | true => exact ⟨events, last, [], rfl, hlast, rfl⟩
      | false =>
          obtain ⟨event, hevent, hp⟩ := h
          rcases List.mem_append.mp hevent with hevent | hevent
          · obtain ⟨before, event, after, rfl, hp, hafter⟩ := ih ⟨event, hevent, hp⟩
            exact ⟨before, event, after ++ [last], by simp, hp, by simp [hafter, hlast]⟩
          · rw [List.mem_singleton.mp hevent, hlast] at hp
            contradiction

/-- The timer has fired and time has passed since then, exactly where it was not set for a
time of its length and the run went on for that time. -/
theorem exists_fires_iff {events : List Event} {n : ℕ} :
    (∃ first event rest, events = first ++ event :: rest ∧
      timer.fires (run timer.step (some timer.limit) first) event = true ∧
      n ≤ rest.countP timer.passes) ↔
    ∃ before silence rest, events = before ++ silence ++ rest ∧ timer.Silence before silence ∧
      silence.countP timer.passes = timer.limit ∧ n ≤ rest.countP timer.passes := by
  constructor
  · rintro ⟨first, event, rest, rfl, hfires, hrest⟩
    obtain ⟨_, before, silence, heq, hsilence, hcount⟩ := timer.fires_iff.mp hfires
    exact ⟨before, silence, rest, by rw [← heq]; simp, hsilence, hcount, hrest⟩
  · rintro ⟨before, silence, rest, rfl, hsilence, hcount, hrest⟩
    obtain ⟨front, event, back, rfl, hpass, hback⟩ :=
      exists_last_of_countP (hcount ▸ timer.pos : 0 < silence.countP timer.passes)
    refine ⟨before ++ front, event, back ++ rest, by simp, timer.fires_iff.mpr
      ⟨hpass, before, front ++ [event], by simp, ⟨hsilence.start, fun other hother => ?_⟩, ?_⟩, ?_⟩
    · refine hsilence.unset other ?_
      rw [← List.singleton_append, ← List.append_assoc]
      exact List.mem_append_left back hother
    · rw [List.countP_append, List.countP_cons, hback] at hcount
      rw [← hcount, List.countP_append, List.countP_singleton]
      omega
    · rw [List.countP_append, hback]
      omega

end OneShot

end AdaptiveSignal.Foundation
