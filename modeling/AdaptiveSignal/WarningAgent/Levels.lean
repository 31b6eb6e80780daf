import AdaptiveSignal.Foundation.Run
import Mathlib.Algebra.Order.Field.Basic
import Mathlib.Algebra.Order.Field.Rat
import Mathlib.Data.Fin.VecNotation
import Mathlib.Data.Finset.Card
import Mathlib.Data.Fintype.Prod

/-! # The warning levels of an unsignalled junction

From the leading vehicle of each direction the warning agent works out when it reaches the
intersection. Two vehicles on different roads that arrive within three seconds of one another are in
conflict, and the message signs of the directions show a level. Times are rational numbers here.
-/

namespace AdaptiveSignal.WarningAgent

open Foundation

/-- The directions of the source, 0 and 2 on one road and 1 and 3 on the other. -/
abbrev Direction := Fin 4

structure WaVehicle where
  speed : ℚ
  distance : ℚ
  deriving DecidableEq

/-- `WA_config`, as far as the levels depend on it. -/
structure WaConfig where
  warningRange : ℤ
  collectorToArterial : ℤ
  collectorToArterialWarningRange : ℤ
  maindirection : ℤ

/-! ## The timer -/

def directionPairs : List (Direction × Direction) := [(0, 1), (0, 3), (2, 1), (2, 3)]

/-- A vehicle that counts is in range and moves. -/
def WaConfig.counts (config : WaConfig) (vehicle : WaVehicle) : Prop :=
  vehicle.distance < config.warningRange ∧ 0 < vehicle.speed

instance (config : WaConfig) (vehicle : WaVehicle) : Decidable (config.counts vehicle) :=
  inferInstanceAs (Decidable (_ ∧ _))

/-- `TTI`, which starts at zero. -/
def timesToIntersection (config : WaConfig) (vehicles : Direction → WaVehicle) (i : Direction) :
    ℚ :=
  if config.counts (vehicles i) then (vehicles i).distance / (vehicles i).speed else 0

def validPairs (tti : Direction → ℚ) : List (Direction × Direction) :=
  directionPairs.filter fun (dir1, dir2) => 0 < tti dir1 ∧ 0 < tti dir2

/-- The pairs with a `PET` of at most three seconds. -/
def belowThreePairs (tti : Direction → ℚ) : List (Direction × Direction) :=
  (validPairs tti).filter fun (dir1, dir2) => |tti dir1 - tti dir2| ≤ 3

/-- The larger of the level and a new one. -/
def raise (warningLevels : Direction → ℕ) (dir : Direction) (level : ℕ) : Direction → ℕ :=
  Function.update warningLevels dir (max (warningLevels dir) level)

def raisePair (warningLevels : Direction → ℕ) (pair : Direction × Direction)
    (level1 level2 : ℕ) : Direction → ℕ :=
  raise (raise warningLevels pair.1 level1) pair.2 level2

/-- One level for both directions of each pair. -/
def raiseAll (warningLevels : Direction → ℕ) (pairs : List (Direction × Direction)) (level : ℕ) :
    Direction → ℕ :=
  run (fun warningLevels pair => raisePair warningLevels pair level level) warningLevels pairs

/-- The levels by the order of arrival: 3 for the one that is later, and for the second direction
of the pair if there is none. -/
def raiseByTime (tti : Direction → ℚ) (pair : Direction × Direction) : Direction → ℕ :=
  if tti pair.1 ≤ tti pair.2 then raisePair (fun _ => 0) pair 2 3
  else raisePair (fun _ => 0) pair 3 2

/-- The levels by the main direction, 0 for that of the directions 0 and 2. -/
def raiseByRoad (config : WaConfig) (pair : Direction × Direction) : Direction → ℕ :=
  if config.maindirection = 0 then
    if pair.1 = 0 ∨ pair.1 = 2 then raisePair (fun _ => 0) pair 2 3
    else raisePair (fun _ => 0) pair 3 2
  else
    if pair.1 = 1 ∨ pair.1 = 3 then raisePair (fun _ => 0) pair 2 3
    else raisePair (fun _ => 0) pair 3 2

/-- The levels that `WA_Agent_timer_handler` assigns. -/
def warningLevels (config : WaConfig) (vehicles : Direction → WaVehicle) : Direction → ℕ :=
  let tti := timesToIntersection config vehicles
  if (∃ i, config.counts (vehicles i)) ∧ (0 < tti 0 ∨ 0 < tti 2) ∧ (0 < tti 1 ∨ 0 < tti 3) then
    match belowThreePairs tti with
    | [] => raiseAll (fun _ => 0) (validPairs tti) 1
    | [pair] =>
        if config.collectorToArterial = 1 then
          if (vehicles pair.1).distance ≤ config.collectorToArterialWarningRange ∧
              (vehicles pair.2).distance ≤ config.collectorToArterialWarningRange then
            raiseAll (raiseByRoad config pair) (validPairs tti) 1
          else raiseAll (raiseByTime tti pair) (validPairs tti) 1
        else if config.collectorToArterial = 0 then
          raiseAll (raiseByTime tti pair) (validPairs tti) 1
        -- an invalid setting is reported, and nothing is shown
        else fun _ => 0
    | _ :: _ :: _ => raiseAll (fun _ => 0) (validPairs tti) 3
  else fun _ => 0

/-! ## What the levels should be -/

/-- The directions are on different roads. -/
def Perpendicular (i j : Direction) : Prop :=
  i.val % 2 ≠ j.val % 2

instance (i j : Direction) : Decidable (Perpendicular i j) :=
  inferInstanceAs (Decidable (_ ≠ _))

/-- The direction and one that crosses it have a vehicle to come. -/
def Warned (tti : Direction → ℚ) (i : Direction) : Prop :=
  0 < tti i ∧ ∃ j, Perpendicular i j ∧ 0 < tti j

/-- The crossing pairs whose vehicles arrive within three seconds, each from the road of the
directions 0 and 2 to the other one. -/
def conflicts (tti : Direction → ℚ) : Finset (Direction × Direction) :=
  {pair | pair.1.val % 2 = 0 ∧ pair.2.val % 2 = 1 ∧ 0 < tti pair.1 ∧ 0 < tti pair.2 ∧
    |tti pair.1 - tti pair.2| ≤ 3}

/-- The direction belongs to the main road. -/
def WaConfig.OnMainRoad (config : WaConfig) (i : Direction) : Prop :=
  i.val % 2 = 0 ↔ config.maindirection = 0

instance (config : WaConfig) (i : Direction) : Decidable (config.OnMainRoad i) :=
  inferInstanceAs (Decidable (_ ↔ _))

/-- Both vehicles of the pair are near a junction with a main road. -/
def WaConfig.Yields (config : WaConfig) (vehicles : Direction → WaVehicle) (i j : Direction) :
    Prop :=
  config.collectorToArterial = 1 ∧
    (vehicles i).distance ≤ config.collectorToArterialWarningRange ∧
    (vehicles j).distance ≤ config.collectorToArterialWarningRange

structure ConsistentLevels (config : WaConfig) (vehicles : Direction → WaVehicle)
    (tti : Direction → ℚ) (levels : Direction → ℕ) : Prop where
  warned : ∀ i, 0 < levels i ↔ Warned tti i
  apart : conflicts tti = ∅ → ∀ i, Warned tti i → levels i = 1
  byRoad : ∀ i j, conflicts tti = {(i, j)} → config.Yields vehicles i j →
    ∀ k, k = i ∨ k = j → levels k = if config.OnMainRoad k then 2 else 3
  byTime : ∀ i j, conflicts tti = {(i, j)} → ¬ config.Yields vehicles i j →
    (levels i = 2 ∧ levels j = 3 ∧ tti i ≤ tti j) ∨ (levels i = 3 ∧ levels j = 2 ∧ tti j ≤ tti i)
  others : ∀ i j, conflicts tti = {(i, j)} → ∀ k, k ≠ i → k ≠ j → Warned tti k → levels k = 1
  several : 2 ≤ (conflicts tti).card → ∀ i, Warned tti i → levels i = 3

/-! ## Raised levels -/

section Raise

variable {levels : Direction → ℕ} {pair : Direction × Direction}

theorem raise_apply (levels : Direction → ℕ) (dir : Direction) (level : ℕ) (k : Direction) :
    raise levels dir level k = if k = dir then max (levels k) level else levels k := by
  rw [raise, Function.update_apply]
  split_ifs with hk
  · rw [hk]
  · rfl

theorem raiseAll_apply (levels : Direction → ℕ) (pairs : List (Direction × Direction))
    (level : ℕ) (k : Direction) :
    raiseAll levels pairs level k =
      if ∃ pair ∈ pairs, k = pair.1 ∨ k = pair.2 then max (levels k) level else levels k := by
  induction pairs generalizing levels with
  | nil => simp [raiseAll]
  | cons pair rest ih =>
      change raiseAll (raisePair levels pair level level) rest level k = _
      have hpair : raisePair levels pair level level k =
          if k = pair.1 ∨ k = pair.2 then max (levels k) level else levels k := by
        rw [raisePair, raise_apply, raise_apply]
        by_cases hfirst : k = pair.1
        · by_cases hsecond : k = pair.2 <;> simp [hfirst]
        · simp [hfirst]
      rw [ih, hpair]
      by_cases hk : k = pair.1 ∨ k = pair.2 <;>
        by_cases hrest : ∃ other ∈ rest, k = other.1 ∨ k = other.2 <;> simp [hk, hrest]

end Raise

/-! ## Pairs -/

section Pairs

variable {tti : Direction → ℚ} {pair : Direction × Direction}

theorem even_direction : ∀ i : Direction, i.val % 2 = 0 → i = 0 ∨ i = 2 := by decide

theorem odd_direction : ∀ i : Direction, i.val % 2 = 1 → i = 1 ∨ i = 3 := by decide

theorem mem_directionPairs :
    ∀ pair, pair ∈ directionPairs ↔ pair.1.val % 2 = 0 ∧ pair.2.val % 2 = 1 := by
  decide

theorem mem_validPairs :
    pair ∈ validPairs tti ↔
      (pair.1.val % 2 = 0 ∧ pair.2.val % 2 = 1) ∧ 0 < tti pair.1 ∧ 0 < tti pair.2 := by
  rw [validPairs, List.mem_filter, mem_directionPairs, decide_eq_true_eq]

theorem nodup_belowThreePairs (tti : Direction → ℚ) : (belowThreePairs tti).Nodup :=
  ((by decide : directionPairs.Nodup).filter _).filter _

/-- The list of close pairs has the conflicts, each once. -/
theorem conflicts_eq (tti : Direction → ℚ) : conflicts tti = (belowThreePairs tti).toFinset := by
  ext pair
  rw [List.mem_toFinset, belowThreePairs, List.mem_filter, mem_validPairs, decide_eq_true_eq,
    conflicts, Finset.mem_filter_univ]
  tauto

theorem card_conflicts (tti : Direction → ℚ) :
    (conflicts tti).card = (belowThreePairs tti).length := by
  rw [conflicts_eq, List.toFinset_card_of_nodup (nodup_belowThreePairs tti)]

/-- A direction is warned if it belongs to a valid pair. -/
theorem warned_iff {i : Direction} :
    Warned tti i ↔ ∃ pair ∈ validPairs tti, i = pair.1 ∨ i = pair.2 := by
  constructor
  · rintro ⟨hi, j, hperpendicular, hj⟩
    rcases Nat.mod_two_eq_zero_or_one i.val with heven | hodd
    · refine ⟨(i, j), mem_validPairs.mpr ⟨⟨heven, ?_⟩, hi, hj⟩, Or.inl rfl⟩
      exact (Nat.mod_two_eq_zero_or_one j.val).resolve_left fun h =>
        hperpendicular (heven.trans h.symm)
    · refine ⟨(j, i), mem_validPairs.mpr ⟨⟨?_, hodd⟩, hj, hi⟩, Or.inr rfl⟩
      exact (Nat.mod_two_eq_zero_or_one j.val).resolve_right fun h =>
        hperpendicular (hodd.trans h.symm)
  · rintro ⟨pair, hpair, rfl | rfl⟩
    · obtain ⟨⟨heven, hodd⟩, hfirst, hsecond⟩ := mem_validPairs.mp hpair
      exact ⟨hfirst, pair.2, by rw [Perpendicular, heven, hodd]; decide, hsecond⟩
    · obtain ⟨⟨heven, hodd⟩, hfirst, hsecond⟩ := mem_validPairs.mp hpair
      exact ⟨hsecond, pair.1, by rw [Perpendicular, heven, hodd]; decide, hfirst⟩

theorem raiseAll_validPairs (levels : Direction → ℕ) (level : ℕ) (k : Direction)
    [Decidable (Warned tti k)] :
    raiseAll levels (validPairs tti) level k =
      if Warned tti k then max (levels k) level else levels k := by
  rw [raiseAll_apply]
  exact if_congr warned_iff.symm rfl rfl

/-- The levels of a close pair are its own, all other warned directions get level 1. -/
theorem raiseAll_raisePair (hpair : pair ∈ validPairs tti) {level1 level2 : ℕ}
    (h1 : 1 ≤ level1) (h2 : 1 ≤ level2) :
    let levels := raiseAll (raisePair (fun _ => 0) pair level1 level2) (validPairs tti) 1
    levels pair.1 = level1 ∧ levels pair.2 = level2 ∧
      (∀ k, k ≠ pair.1 → k ≠ pair.2 → Warned tti k → levels k = 1) ∧
      ∀ k, 0 < levels k ↔ Warned tti k := by
  classical
  intro levels
  have hne : pair.1 ≠ pair.2 := by
    intro heq
    obtain ⟨⟨heven, hodd⟩, -⟩ := mem_validPairs.mp hpair
    rw [heq, hodd] at heven
    cases heven
  have hfirst : Warned tti pair.1 := warned_iff.mpr ⟨pair, hpair, Or.inl rfl⟩
  have hsecond : Warned tti pair.2 := warned_iff.mpr ⟨pair, hpair, Or.inr rfl⟩
  have hbase (k : Direction) : raisePair (fun _ => 0) pair level1 level2 k =
      if k = pair.2 then level2 else if k = pair.1 then level1 else 0 := by
    rw [raisePair, raise_apply, raise_apply]
    by_cases hk : k = pair.2
    · simp [hk, hne.symm]
    · simp [hk]
  have hlevels (k : Direction) : levels k = if Warned tti k then
      max (if k = pair.2 then level2 else if k = pair.1 then level1 else 0) 1
      else if k = pair.2 then level2 else if k = pair.1 then level1 else 0 := by
    rw [← hbase]
    exact raiseAll_validPairs _ 1 k
  refine ⟨?_, ?_, fun k hk1 hk2 hwarned => ?_, fun k => ?_⟩
  · simp [hlevels, hfirst, hne, h1]
  · simp [hlevels, hsecond, h2]
  · simp [hlevels, hwarned, hk1, hk2]
  · rw [hlevels]
    by_cases hwarned : Warned tti k
    · simp [hwarned]
    · have hk1 : k ≠ pair.1 := fun h => hwarned (h ▸ hfirst)
      have hk2 : k ≠ pair.2 := fun h => hwarned (h ▸ hsecond)
      simp [hwarned, hk1, hk2]

theorem mem_validPairs_of_conflict (hpair : pair ∈ conflicts tti) : pair ∈ validPairs tti := by
  rw [conflicts_eq, List.mem_toFinset] at hpair
  exact List.mem_of_mem_filter hpair

theorem warned_of_conflict (hpair : pair ∈ conflicts tti) : Warned tti pair.1 :=
  warned_iff.mpr ⟨pair, mem_validPairs_of_conflict hpair, Or.inl rfl⟩

end Pairs

/-! ## The levels of the timer -/

section Timer

variable {config : WaConfig} {vehicles : Direction → WaVehicle}

/-- Where the timer assigns no levels, nobody is warned. -/
theorem not_warned (hguard : ¬ ((∃ i, config.counts (vehicles i)) ∧
      (0 < timesToIntersection config vehicles 0 ∨ 0 < timesToIntersection config vehicles 2) ∧
      (0 < timesToIntersection config vehicles 1 ∨ 0 < timesToIntersection config vehicles 3)))
    (i : Direction) : ¬ Warned (timesToIntersection config vehicles) i := by
  intro hwarned
  obtain ⟨⟨a, b⟩, hpair, -⟩ := warned_iff.mp hwarned
  obtain ⟨⟨heven, hodd⟩, hfirst, hsecond⟩ := mem_validPairs.mp hpair
  refine hguard ⟨⟨a, ?_⟩, ?_, ?_⟩
  · by_contra hcounts
    rw [timesToIntersection, if_neg hcounts] at hfirst
    exact lt_irrefl _ hfirst
  · rcases even_direction a heven with rfl | rfl
    · exact Or.inl hfirst
    · exact Or.inr hfirst
  · rcases odd_direction b hodd with rfl | rfl
    · exact Or.inl hsecond
    · exact Or.inr hsecond

theorem raiseByTime_cases (tti : Direction → ℚ) (pair : Direction × Direction) :
    (raiseByTime tti pair = raisePair (fun _ => 0) pair 2 3 ∧ tti pair.1 ≤ tti pair.2) ∨
      (raiseByTime tti pair = raisePair (fun _ => 0) pair 3 2 ∧ tti pair.2 ≤ tti pair.1) := by
  unfold raiseByTime
  split_ifs with hle
  · exact Or.inl ⟨rfl, hle⟩
  · exact Or.inr ⟨rfl, (not_le.mp hle).le⟩

/-- On a crossing pair the main road gets level 2 and the other one level 3. -/
theorem raiseByRoad_eq {pair : Direction × Direction} (heven : pair.1.val % 2 = 0)
    (hodd : pair.2.val % 2 = 1) :
    raiseByRoad config pair = raisePair (fun _ => 0) pair
      (if config.OnMainRoad pair.1 then 2 else 3) (if config.OnMainRoad pair.2 then 2 else 3) := by
  have hsecond : ¬ (pair.1 = 1 ∨ pair.1 = 3) := by
    rintro (h | h) <;> rw [h] at heven <;> cases heven
  have hmain1 : config.OnMainRoad pair.1 ↔ config.maindirection = 0 := by
    simp [WaConfig.OnMainRoad, heven]
  have hmain2 : config.OnMainRoad pair.2 ↔ config.maindirection ≠ 0 := by
    simp [WaConfig.OnMainRoad, hodd]
  unfold raiseByRoad
  rw [if_pos (even_direction _ heven), if_neg hsecond]
  by_cases hmain : config.maindirection = 0
  · simp only [hmain1, hmain2, hmain, ne_eq, not_true_eq_false, if_true, if_false]
  · simp only [hmain1, hmain2, hmain, ne_eq, not_false_eq_true, if_true, if_false]

instance (config : WaConfig) (vehicles : Direction → WaVehicle) (i j : Direction) :
    Decidable (config.Yields vehicles i j) :=
  inferInstanceAs (Decidable (_ ∧ _ ∧ _))

/-- The levels where exactly one pair is close. -/
theorem warningLevels_of_conflict {pair : Direction × Direction}
    (hconflict : conflicts (timesToIntersection config vehicles) = {pair})
    (hsetting : config.collectorToArterial = 0 ∨ config.collectorToArterial = 1) :
    warningLevels config vehicles = raiseAll
      (if config.Yields vehicles pair.1 pair.2 then raiseByRoad config pair
        else raiseByTime (timesToIntersection config vehicles) pair)
      (validPairs (timesToIntersection config vehicles)) 1 := by
  have hbelow : belowThreePairs (timesToIntersection config vehicles) = [pair] := by
    have hlength : (belowThreePairs (timesToIntersection config vehicles)).length = 1 := by
      rw [← card_conflicts, hconflict, Finset.card_singleton]
    obtain ⟨other, hother⟩ := List.length_eq_one_iff.mp hlength
    rw [conflicts_eq, hother] at hconflict
    rw [hother, show other = pair by simpa using hconflict]
  have hguard := mt (@not_warned config vehicles) fun h =>
    h pair.1 (warned_of_conflict (hconflict ▸ Finset.mem_singleton_self pair))
  rw [warningLevels]
  simp only [not_not.mp hguard, hbelow, WaConfig.Yields]
  rcases hsetting with hsetting | hsetting
  · simp [hsetting]
  · simp only [hsetting, if_true, true_and]
    split_ifs <;> rfl

/-- Where the number of close pairs is not one, all warned directions get the same level. -/
theorem warningLevels_of_card (hcard : (conflicts (timesToIntersection config vehicles)).card ≠ 1)
    (k : Direction) [Decidable (Warned (timesToIntersection config vehicles) k)] :
    warningLevels config vehicles k =
      if Warned (timesToIntersection config vehicles) k then
        if conflicts (timesToIntersection config vehicles) = ∅ then 1 else 3
      else 0 := by
  rw [card_conflicts] at hcard
  by_cases hguard : (∃ i, config.counts (vehicles i)) ∧
      (0 < timesToIntersection config vehicles 0 ∨ 0 < timesToIntersection config vehicles 2) ∧
      (0 < timesToIntersection config vehicles 1 ∨ 0 < timesToIntersection config vehicles 3)
  · rw [conflicts_eq, warningLevels]
    simp only [if_pos hguard]
    cases hbelow : belowThreePairs (timesToIntersection config vehicles) with
    | nil => simp [raiseAll_validPairs]
    | cons first rest =>
        cases rest with
        | nil =>
            rw [hbelow] at hcard
            exact absurd rfl hcard
        | cons second rest => simp [raiseAll_validPairs]
  · rw [warningLevels, if_neg hguard, if_neg (not_warned hguard k)]

/-- The levels of a single close pair, whatever they are, are those of its two directions. -/
theorem exists_levels_of_conflict {i j : Direction}
    (hconflict : conflicts (timesToIntersection config vehicles) = {(i, j)})
    (hsetting : config.collectorToArterial = 0 ∨ config.collectorToArterial = 1) :
    ∃ level1 level2, 1 ≤ level1 ∧ 1 ≤ level2 ∧
      warningLevels config vehicles = raiseAll (raisePair (fun _ => 0) (i, j) level1 level2)
        (validPairs (timesToIntersection config vehicles)) 1 ∧
      (config.Yields vehicles i j → level1 = (if config.OnMainRoad i then 2 else 3) ∧
        level2 = if config.OnMainRoad j then 2 else 3) ∧
      (¬ config.Yields vehicles i j →
        (level1 = 2 ∧ level2 = 3 ∧
          timesToIntersection config vehicles i ≤ timesToIntersection config vehicles j) ∨
        (level1 = 3 ∧ level2 = 2 ∧
          timesToIntersection config vehicles j ≤ timesToIntersection config vehicles i)) := by
  have hlevels := warningLevels_of_conflict hconflict hsetting
  have hvalid := mem_validPairs_of_conflict (hconflict ▸ Finset.mem_singleton_self (i, j))
  obtain ⟨⟨heven, hodd⟩, -⟩ := mem_validPairs.mp hvalid
  by_cases hyields : config.Yields vehicles i j
  · rw [if_pos hyields, raiseByRoad_eq heven hodd] at hlevels
    refine ⟨_, _, ?_, ?_, hlevels, fun _ => ⟨rfl, rfl⟩, fun h => absurd hyields h⟩
    · split_ifs <;> decide
    · split_ifs <;> decide
  · rw [if_neg hyields] at hlevels
    rcases raiseByTime_cases (timesToIntersection config vehicles) (i, j) with
      ⟨hbase, hle⟩ | ⟨hbase, hle⟩
    · rw [hbase] at hlevels
      exact ⟨2, 3, by decide, by decide, hlevels, fun h => absurd h hyields,
        fun _ => Or.inl ⟨rfl, rfl, hle⟩⟩
    · rw [hbase] at hlevels
      exact ⟨3, 2, by decide, by decide, hlevels, fun h => absurd h hyields,
        fun _ => Or.inr ⟨rfl, rfl, hle⟩⟩

end Timer

/-- For both settings and all vehicles the levels are consistent with the times. -/
theorem warningLevels_consistent (config : WaConfig) (vehicles : Direction → WaVehicle)
    (hsetting : config.collectorToArterial = 0 ∨ config.collectorToArterial = 1) :
    ConsistentLevels config vehicles (timesToIntersection config vehicles)
      (warningLevels config vehicles) := by
  classical
  set tti := timesToIntersection config vehicles with htti
  have hsingle {i j : Direction} (hconflict : conflicts tti = {(i, j)}) :=
    exists_levels_of_conflict hconflict hsetting
  have hmem {i j : Direction} (hconflict : conflicts tti = {(i, j)}) : (i, j) ∈ validPairs tti :=
    mem_validPairs_of_conflict (hconflict ▸ Finset.mem_singleton_self (i, j))
  refine ⟨fun k => ?_, fun hempty k hwarned => ?_, fun i j hconflict hyields k hk => ?_,
    fun i j hconflict hyields => ?_, fun i j hconflict k hi hj hwarned => ?_,
    fun hseveral k hwarned => ?_⟩
  · by_cases hcard : (conflicts tti).card = 1
    · obtain ⟨⟨i, j⟩, hconflict⟩ := Finset.card_eq_one.mp hcard
      obtain ⟨level1, level2, h1, h2, hlevels, -⟩ := hsingle hconflict
      rw [hlevels]
      exact (raiseAll_raisePair (hmem hconflict) h1 h2).2.2.2 k
    · rw [warningLevels_of_card hcard]
      split_ifs with hwarned hempty <;> simp [htti, hwarned]
  · rw [warningLevels_of_card (by rw [← htti, hempty]; decide), if_pos hwarned, if_pos hempty]
  · obtain ⟨level1, level2, h1, h2, hlevels, hroad, -⟩ := hsingle hconflict
    obtain ⟨hfirst, hsecond, -⟩ := raiseAll_raisePair (hmem hconflict) h1 h2
    rw [hlevels]
    rcases hk with rfl | rfl
    · exact hfirst.trans (hroad hyields).1
    · exact hsecond.trans (hroad hyields).2
  · obtain ⟨level1, level2, h1, h2, hlevels, -, htime⟩ := hsingle hconflict
    obtain ⟨hfirst, hsecond, -⟩ := raiseAll_raisePair (hmem hconflict) h1 h2
    rw [hlevels]
    rcases htime hyields with ⟨rfl, rfl, hle⟩ | ⟨rfl, rfl, hle⟩
    · exact Or.inl ⟨hfirst, hsecond, hle⟩
    · exact Or.inr ⟨hfirst, hsecond, hle⟩
  · obtain ⟨level1, level2, h1, h2, hlevels, -⟩ := hsingle hconflict
    rw [hlevels]
    exact (raiseAll_raisePair (hmem hconflict) h1 h2).2.2.1 k hi hj hwarned
  · have hne : conflicts tti ≠ ∅ := by
      intro hempty
      rw [hempty] at hseveral
      cases hseveral
    rw [warningLevels_of_card (by rw [← htti]; omega), if_pos hwarned, if_neg hne]

/-- A vehicle that yields to one of the main road, while two more are far away. -/
theorem warningLevels_consistent_yielding :
    let config : WaConfig := ⟨150, 1, 50, 0⟩
    let vehicles : Direction → WaVehicle := ![⟨10, 40⟩, ⟨10, 45⟩, ⟨10, 140⟩, ⟨-1, -1⟩]
    (config.collectorToArterial = 0 ∨ config.collectorToArterial = 1) ∧
      ConsistentLevels config vehicles (timesToIntersection config vehicles)
        (warningLevels config vehicles) :=
  ⟨Or.inr rfl, warningLevels_consistent _ _ (Or.inr rfl)⟩

example : (List.finRange 4).map (warningLevels ⟨150, 1, 50, 0⟩
    ![⟨10, 40⟩, ⟨10, 45⟩, ⟨10, 140⟩, ⟨-1, -1⟩]) = [2, 3, 1, 0] := by
  decide +kernel

/-- Every assignment of times comes from some vehicles. -/
theorem exists_vehicles (config : WaConfig) (hrange : 0 < config.warningRange)
    (times : Direction → ℚ) : ∃ vehicles, timesToIntersection config vehicles = times := by
  have hrange : (0 : ℚ) < config.warningRange := by exact_mod_cast hrange
  have hvehicle (time : ℚ) : ∃ vehicle : WaVehicle, config.counts vehicle ∧
      vehicle.distance / vehicle.speed = time := by
    by_cases htime : 0 < time
    · have hhalf : (0 : ℚ) < config.warningRange / 2 := half_pos hrange
      refine ⟨⟨config.warningRange / 2 / time, config.warningRange / 2⟩,
        ⟨half_lt_self hrange, div_pos hhalf htime⟩, ?_⟩
      exact div_div_cancel₀ hhalf.ne'
    · exact ⟨⟨1, time⟩, ⟨(not_lt.mp htime).trans_lt hrange, one_pos⟩, div_one time⟩
  choose vehicle hcounts htime using hvehicle
  exact ⟨fun i => vehicle (times i), funext fun i => (if_pos (hcounts (times i))).trans (htime _)⟩

end AdaptiveSignal.WarningAgent
