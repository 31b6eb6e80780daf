import AdaptiveSignal.WarningAgent.Levels

/-! # Leading vehicles between the cameras and the timer

A packet of a camera replaces the leading vehicle of its direction. The timer reads the four
vehicles in one critical section and clears them in another, after it has evaluated them. Packets
may arrive in between, and each critical section is one step here.
-/

namespace AdaptiveSignal.WarningAgent

open Foundation

/-- The fields of `Obstacle` that the agent reads. -/
structure Obstacle where
  lat : ℚ
  long : ℚ
  speed : ℤ
  deriving DecidableEq

/-- The distance from the centre of the intersection. -/
structure CenterDistance where
  distance : ℚ → ℚ → ℚ
  nonneg : ∀ lat long, 0 ≤ distance lat long

def noVehicle : WaVehicle where
  speed := -1
  distance := -1

def isValidGps (lat long : ℚ) : Prop :=
  -90 ≤ lat ∧ lat ≤ 90 ∧ -180 ≤ long ∧ long ≤ 180 ∧ ¬ (lat = -1 ∧ long = -1)

instance (lat long : ℚ) : Decidable (isValidGps lat long) :=
  inferInstanceAs (Decidable (_ ∧ _ ∧ _ ∧ _ ∧ _))

def isValidSpeed (speed : ℤ) : Prop := 0 ≤ speed

instance (speed : ℤ) : Decidable (isValidSpeed speed) :=
  inferInstanceAs (Decidable (_ ≤ _))

variable (center : CenterDistance)

/-- The speed in metres a second. -/
def Obstacle.vehicle (obstacle : Obstacle) : WaVehicle where
  speed := obstacle.speed * (2778 / 10000)
  distance := center.distance obstacle.lat obstacle.long

/-- One turn of the loop over the obstacles. -/
def findLeading (leadingVehicle : WaVehicle) (obstacle : Obstacle) : WaVehicle :=
  if ¬ isValidGps obstacle.lat obstacle.long then leadingVehicle
  else if ¬ isValidSpeed obstacle.speed then leadingVehicle
  else
    let currentDistance := center.distance obstacle.lat obstacle.long
    if leadingVehicle.distance = -1 ∨ currentDistance < leadingVehicle.distance then
      obstacle.vehicle center
    else leadingVehicle

def leadingVehicle (obstacles : List Obstacle) : WaVehicle :=
  run (findLeading center) noVehicle obstacles

/-! ## Steps -/

/-- The critical sections of `mutex_LV`. -/
inductive CameraEvent
  /-- The end of `WA_on_camera_packet_rx`. -/
  | camera (direct : Direction) (obstacles : List Obstacle)
  /-- `WA_get_leading_vehicles`, at the start of a run of the timer handler. -/
  | read
  /-- `WA_clear_leading_vehicles`, at its end. -/
  | clear

structure WarningTable where
  leadingVehicles : Direction → WaVehicle
  /-- The runs of the timer handler that have read and not yet cleared. -/
  evaluating : ℕ

namespace WarningTable

/-- `initializationLeadingVehicles`. -/
def initial : WarningTable where
  leadingVehicles := fun _ => noVehicle
  evaluating := 0

def step (s : WarningTable) : CameraEvent → WarningTable
  | .camera direct obstacles =>
      { s with leadingVehicles :=
          Function.update s.leadingVehicles direct (leadingVehicle center obstacles) }
  | .read => { s with evaluating := s.evaluating + 1 }
  | .clear =>
      if s.evaluating = 0 then s else ⟨fun _ => noVehicle, s.evaluating - 1⟩

/-- The table after the events. -/
def after (events : List CameraEvent) : WarningTable := run (step center) initial events

end WarningTable

/-! ## What is asked of the table -/

def Obstacle.Valid (obstacle : Obstacle) : Prop :=
  isValidGps obstacle.lat obstacle.long ∧ isValidSpeed obstacle.speed

instance (obstacle : Obstacle) : Decidable obstacle.Valid :=
  inferInstanceAs (Decidable (_ ∧ _))

/-- The vehicle is that of a valid obstacle of least distance, or the mark if there is none. -/
structure LeastValid (obstacles : List Obstacle) (vehicle : WaVehicle) : Prop where
  mark : vehicle = noVehicle ↔ ∀ obstacle ∈ obstacles, ¬ obstacle.Valid
  least : vehicle ≠ noVehicle → ∃ obstacle ∈ obstacles, obstacle.Valid ∧
    vehicle = obstacle.vehicle center ∧ ∀ other ∈ obstacles, other.Valid →
      (obstacle.vehicle center).distance ≤ (other.vehicle center).distance

/-- What is stored is the leading vehicle, and no vehicle is cleared that has not been replaced
before some evaluation has read it. -/
structure NothingLost (events : List CameraEvent) : Prop where
  stored : ∀ first direct obstacles, first ++ [.camera direct obstacles] <+: events →
    LeastValid center obstacles
      ((WarningTable.after center (first ++ [.camera direct obstacles])).leadingVehicles direct)
  read : ∀ first direct obstacles middle,
    first ++ .camera direct obstacles :: middle ++ [.clear] <+: events →
      leadingVehicle center obstacles ≠ noVehicle →
      (∀ later, .camera direct later ∉ middle) →
      (WarningTable.after center (first ++ .camera direct obstacles :: middle)).evaluating ≠ 0 →
        ∃ before rest, middle = before ++ .read :: rest ∧
          (WarningTable.after center (first ++ .camera direct obstacles :: before)).leadingVehicles
            direct = leadingVehicle center obstacles

/-- The last packet of a direction since the last reading. -/
def unread (direct : Direction) (last : Option (List Obstacle)) :
    CameraEvent → Option (List Obstacle)
  | .camera from' obstacles => if from' = direct then some obstacles else last
  | .read => none
  | .clear => last

/-- Whenever a run of the handler clears, the last packet of each direction since the last reading,
if any, had no valid obstacle. -/
def QuietClears (events : List CameraEvent) : Prop :=
  ∀ first, first ++ [.clear] <+: events → (WarningTable.after center first).evaluating ≠ 0 →
    ∀ direct obstacles, run (unread direct) none first = some obstacles →
      ∀ obstacle ∈ obstacles, ¬ obstacle.Valid

/-! ## The leading vehicle -/

section Leading

variable {center} {obstacles : List Obstacle}

theorem distance_ne_mark (obstacle : Obstacle) : (obstacle.vehicle center).distance ≠ -1 := by
  intro heq
  have hnonneg : 0 ≤ (obstacle.vehicle center).distance := center.nonneg obstacle.lat obstacle.long
  rw [heq] at hnonneg
  exact absurd hnonneg (by decide)

theorem vehicle_ne_noVehicle (obstacle : Obstacle) : obstacle.vehicle center ≠ noVehicle :=
  fun heq => distance_ne_mark obstacle (congrArg WaVehicle.distance heq)

/-- An obstacle that is not valid is passed over, and a valid one is taken if it is nearer. -/
theorem findLeading_valid {obstacle : Obstacle} (hvalid : obstacle.Valid)
    (leading : WaVehicle) :
    findLeading center leading obstacle =
      if leading.distance = -1 ∨ (obstacle.vehicle center).distance < leading.distance then
        obstacle.vehicle center
      else leading := by
  rw [findLeading, if_neg (not_not.mpr hvalid.1), if_neg (not_not.mpr hvalid.2)]
  rfl

theorem findLeading_invalid {obstacle : Obstacle} (hvalid : ¬ obstacle.Valid)
    (leading : WaVehicle) : findLeading center leading obstacle = leading := by
  unfold findLeading
  by_cases hgps : isValidGps obstacle.lat obstacle.long
  · rw [if_neg (not_not.mpr hgps), if_pos fun hspeed => hvalid ⟨hgps, hspeed⟩]
  · rw [if_pos hgps]

/-- Another obstacle is the nearest one if it is nearer than those before, and if it is the first
valid one. -/
theorem leastValid_new {obstacle : Obstacle} (hvalid : obstacle.Valid)
    (hleast : ∀ other ∈ obstacles, other.Valid →
      (obstacle.vehicle center).distance ≤ (other.vehicle center).distance) :
    LeastValid center (obstacles ++ [obstacle]) (obstacle.vehicle center) := by
  have hlast : obstacle ∈ obstacles ++ [obstacle] := by simp
  refine ⟨iff_of_false (vehicle_ne_noVehicle obstacle) fun h => h obstacle hlast hvalid,
    fun _ => ⟨obstacle, hlast, hvalid, rfl, fun other hother hother' => ?_⟩⟩
  rcases List.mem_append.mp hother with hother | hother
  · exact hleast other hother hother'
  · rw [List.mem_singleton.mp hother]

/-- The nearest one so far remains in front of an obstacle that is not valid or not nearer. -/
theorem LeastValid.concat {vehicle : WaVehicle} {obstacle : Obstacle}
    (h : LeastValid center obstacles vehicle)
    (hnearer : obstacle.Valid →
      vehicle ≠ noVehicle ∧ vehicle.distance ≤ (obstacle.vehicle center).distance) :
    LeastValid center (obstacles ++ [obstacle]) vehicle := by
  refine ⟨⟨fun hmark other hother hvalid => ?_, fun hnone => h.mark.mpr fun other hother =>
    hnone other (List.mem_append_left _ hother)⟩, fun hsome => ?_⟩
  · rcases List.mem_append.mp hother with hother | hother
    · exact h.mark.mp hmark other hother hvalid
    · exact (hnearer (List.mem_singleton.mp hother ▸ hvalid)).1 hmark
  · obtain ⟨nearest, hnearest, hvalid, rfl, hleast⟩ := h.least hsome
    refine ⟨nearest, List.mem_append_left _ hnearest, hvalid, rfl, fun other hother hother' => ?_⟩
    rcases List.mem_append.mp hother with hother | hother
    · exact hleast other hother hother'
    · obtain rfl := List.mem_singleton.mp hother
      exact (hnearer hother').2

/-- The loop keeps the first of the nearest obstacles so far. -/
theorem leadingVehicle_leastValid (obstacles : List Obstacle) :
    LeastValid center obstacles (leadingVehicle center obstacles) := by
  induction obstacles using List.reverseRecOn with
  | nil => exact ⟨by simp [leadingVehicle], fun h => absurd rfl h⟩
  | append_singleton obstacles obstacle ih =>
      have hstep : leadingVehicle center (obstacles ++ [obstacle]) =
          findLeading center (leadingVehicle center obstacles) obstacle :=
        run_concat _ _ _ _
      rw [hstep]
      by_cases hvalid : obstacle.Valid
      · rw [findLeading_valid hvalid]
        by_cases hnone : leadingVehicle center obstacles = noVehicle
        · rw [if_pos (Or.inl (by rw [hnone]; rfl))]
          exact leastValid_new hvalid fun other hother hother' =>
            absurd hother' (ih.mark.mp hnone other hother)
        · obtain ⟨nearest, -, -, hleading, hleast⟩ := ih.least hnone
          split_ifs with hnearer
          · rw [hleading] at hnearer
            have hlt := hnearer.resolve_left (distance_ne_mark nearest)
            exact leastValid_new hvalid fun other hother hother' =>
              hlt.le.trans (hleast other hother hother')
          · exact ih.concat fun _ => ⟨hnone, not_lt.mp (not_or.mp hnearer).2⟩
      · rw [findLeading_invalid hvalid]
        exact ih.concat fun h => absurd h hvalid

end Leading

/-! ## Packets that have not been read -/

section Unread

variable {center} {direct : Direction} {obstacles : List Obstacle} {middle : List CameraEvent}

/-- An unread packet is followed neither by a reading nor by another packet of its direction. -/
theorem unread_eq_some {events : List CameraEvent}
    (hunread : run (unread direct) none events = some obstacles) :
    ∃ first later, events = first ++ .camera direct obstacles :: later ∧
      .read ∉ later ∧ ∀ other, .camera direct other ∉ later := by
  induction events using List.reverseRecOn with
  | nil => cases hunread
  | append_singleton events last ih =>
      rw [run_concat] at hunread
      -- The last event leaves the packet unread that was unread before.
      have hkept (hbefore : run (unread direct) none events = some obstacles)
          (hread : last ≠ .read) (hcamera : ∀ other, last ≠ .camera direct other) :
          ∃ first later, events ++ [last] = first ++ .camera direct obstacles :: later ∧
            .read ∉ later ∧ ∀ other, .camera direct other ∉ later := by
        obtain ⟨first, later, rfl, hlater, hothers⟩ := ih hbefore
        refine ⟨first, later ++ [last], by simp, ?_, fun other => ?_⟩
        · simpa [hlater] using hread.symm
        · simpa [hothers other] using (hcamera other).symm
      cases last with
      | camera from' received =>
          by_cases hfrom : from' = direct
          · rw [unread, if_pos hfrom] at hunread
            obtain rfl := Option.some_injective _ hunread
            rw [hfrom]
            exact ⟨events, [], rfl, List.not_mem_nil, fun _ => List.not_mem_nil⟩
          · rw [unread, if_neg hfrom] at hunread
            exact hkept hunread CameraEvent.noConfusion fun other heq =>
              hfrom (CameraEvent.camera.inj heq).1
      | read => cases hunread
      | clear => exact hkept hunread CameraEvent.noConfusion fun _ => CameraEvent.noConfusion

theorem unread_of_later (last : Option (List Obstacle)) (hread : .read ∉ middle)
    (hcamera : ∀ other, .camera direct other ∉ middle) :
    run (unread direct) last middle = last := by
  induction middle with
  | nil => rfl
  | cons event rest ih =>
      have hevent : unread direct last event = last := by
        cases event with
        | camera from' received =>
            refine if_neg fun hfrom => hcamera received ?_
            rw [hfrom]
            exact List.mem_cons_self
        | read => exact absurd List.mem_cons_self hread
        | clear => rfl
      rw [run_cons, hevent]
      exact ih (fun h => hread (List.mem_cons_of_mem event h))
        fun other h => hcamera other (List.mem_cons_of_mem event h)

theorem after_concat (events : List CameraEvent) (last : CameraEvent) :
    WarningTable.after center (events ++ [last]) =
      WarningTable.step center (WarningTable.after center events) last :=
  run_concat _ _ _ _

theorem after_camera (first : List CameraEvent) (direct : Direction) (obstacles : List Obstacle) :
    (WarningTable.after center (first ++ [.camera direct obstacles])).leadingVehicles direct =
      leadingVehicle center obstacles := by
  rw [after_concat]
  exact Function.update_self direct _ _

/-- As long as no clearing meets an unread vehicle, a stored vehicle stays until it is read. -/
theorem read_or_kept {first : List CameraEvent} (hquiet : QuietClears center
      (first ++ .camera direct obstacles :: middle))
    (hvehicle : leadingVehicle center obstacles ≠ noVehicle)
    (hcamera : ∀ other, .camera direct other ∉ middle) :
    (∃ before rest, middle = before ++ .read :: rest ∧
      (WarningTable.after center (first ++ .camera direct obstacles :: before)).leadingVehicles
        direct = leadingVehicle center obstacles) ∨
    .read ∉ middle ∧
      (WarningTable.after center (first ++ .camera direct obstacles :: middle)).leadingVehicles
        direct = leadingVehicle center obstacles := by
  induction middle using List.reverseRecOn with
  | nil => exact Or.inr ⟨List.not_mem_nil, after_camera first direct obstacles⟩
  | append_singleton middle last ih =>
      have hassoc : first ++ .camera direct obstacles :: (middle ++ [last]) =
          first ++ .camera direct obstacles :: middle ++ [last] := by simp
      rw [hassoc] at hquiet ⊢
      have hbefore : QuietClears center (first ++ .camera direct obstacles :: middle) :=
        fun start hstart => hquiet start (hstart.trans (List.prefix_append _ _))
      rcases ih hbefore fun other h => hcamera other (List.mem_append_left _ h) with
        ⟨before, rest, rfl, hread⟩ | ⟨hunread, hkept⟩
      · exact Or.inl ⟨before, rest ++ [last], by simp, hread⟩
      · rw [after_concat]
        cases last with
        | camera from' received =>
            have hfrom : direct ≠ from' := by
              rintro rfl
              exact hcamera received (by simp)
            refine Or.inr ⟨by simpa using hunread, ?_⟩
            rw [← hkept]
            exact Function.update_of_ne hfrom _ _
        | read => exact Or.inl ⟨middle, [], rfl, hkept⟩
        | clear =>
            refine Or.inr ⟨by simpa using hunread, ?_⟩
            by_cases hevaluating : (WarningTable.after center
                (first ++ .camera direct obstacles :: middle)).evaluating = 0
            · rw [WarningTable.step, if_pos hevaluating, hkept]
            · -- The packet would be unread at this clearing.
              have hpending : run (unread direct) none
                  (first ++ .camera direct obstacles :: middle) = some obstacles := by
                rw [run_append, run_cons, unread, if_pos rfl]
                exact unread_of_later _ hunread fun other h =>
                  hcamera other (List.mem_append_left _ h)
              have hinvalid := hquiet _ List.prefix_rfl hevaluating direct obstacles hpending
              exact absurd ((leadingVehicle_leastValid obstacles).mark.mpr hinvalid) hvehicle

end Unread

/-- Nothing is lost exactly if no vehicle arrives between a reading and the clearing after it,
unless a packet without vehicles replaces it. -/
theorem nothingLost_iff (center : CenterDistance) (events : List CameraEvent) :
    NothingLost center events ↔ QuietClears center events := by
  constructor
  · intro hlost start hstart hevaluating direct obstacles hunread
    obtain ⟨first, later, rfl, hread, hcamera⟩ := unread_eq_some hunread
    by_contra hvalid
    have hvehicle := mt (@leadingVehicle_leastValid center obstacles).mark.mp hvalid
    obtain ⟨before, rest, rfl, -⟩ :=
      hlost.read first direct obstacles later hstart hvehicle hcamera hevaluating
    exact hread (by simp)
  · intro hquiet
    refine ⟨fun first direct obstacles _ => ?_,
      fun first direct obstacles middle hfirst hvehicle hcamera hevaluating => ?_⟩
    · rw [after_camera]
      exact leadingVehicle_leastValid obstacles
    · have hbefore : QuietClears center (first ++ .camera direct obstacles :: middle) :=
        fun start hstart =>
          hquiet start (hstart.trans ((List.prefix_append _ _).trans hfirst))
      rcases read_or_kept hbefore hvehicle hcamera with hread | ⟨hunread, -⟩
      · exact hread
      · have hpending : run (unread direct) none
            (first ++ .camera direct obstacles :: middle) = some obstacles := by
          rw [run_append, run_cons, unread, if_pos rfl]
          exact unread_of_later _ hunread hcamera
        have hinvalid := hquiet _ hfirst hevaluating direct obstacles hpending
        exact absurd ((leadingVehicle_leastValid obstacles).mark.mpr hinvalid) hvehicle

/-- A car arrives in the north while the timer evaluates, and is cleared before anybody reads it. -/
theorem vehicle_cleared_unread :
    let center : CenterDistance := ⟨fun lat long => |lat - 23| + |long - 120|,
      fun _ _ => add_nonneg (abs_nonneg _) (abs_nonneg _)⟩
    let car : Obstacle := ⟨23, 121, 36⟩
    let events : List CameraEvent := [.read, .camera 0 [car], .clear]
    (WarningTable.after center events).leadingVehicles 0 = noVehicle ∧
      ¬ NothingLost center events := by
  intro center car events
  refine ⟨rfl, fun hlost => ?_⟩
  have hvalid : car.Valid := by decide +kernel
  have hvehicle : leadingVehicle center [car] ≠ noVehicle :=
    mt (leadingVehicle_leastValid [car]).mark.mp fun h => h car List.mem_cons_self hvalid
  obtain ⟨before, rest, hmiddle, -⟩ := hlost.read [.read] 0 [car] [] List.prefix_rfl hvehicle
    (fun _ => List.not_mem_nil) (by decide)
  simp at hmiddle

end AdaptiveSignal.WarningAgent
