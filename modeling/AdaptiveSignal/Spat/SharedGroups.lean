import AdaptiveSignal.Foundation.Run
import AdaptiveSignal.Spat.MapConnections
import AdaptiveSignal.Spat.Termination

/-! # The two messages name the same lights

A row of the configuration ties a group of the map to a signal of the controller.
The map gives a turn the group whose row is for the approach and the turn; the
timing message tells of the group while the signal has the light of the row.
-/

namespace AdaptiveSignal.Signal

open Foundation

/-! ## Reading the rows -/

/-- The octet of a valid row holds its group. -/
theorem SignalGroupRow.Valid.object_toNat {row : SignalGroupRow} (hvalid : row.Valid) :
    (row.object.signalGroupId.toNat : ℤ) = row.signalGroupId := by
  have hnonneg := hvalid.nonneg
  have hoctet := hvalid.octet
  rw [SignalGroupRow.object, UInt8.toNat_ofNat_of_lt' (by simp [UInt8.size]; omega)]
  omega

namespace GroupTables

variable {t t' : GroupTables} {row : SignalGroupRow} {rows : List SignalGroupRow}

theorem readRow_eq_some (hrow : t.readRow row = some t') :
    t.signalGroupId (row.approachId - 1) row.signalGreenType = -1 ∧
      t' = {
        signalGroupId := fun approach green =>
          if approach = row.approachId - 1 ∧ green = row.signalGreenType then row.signalGroupId
          else t.signalGroupId approach green
        signalId := fun signal green =>
          if signal = row.signalId - 1 ∧ green = row.mapGreenType then
            t.signalId signal green ++ [row.object]
          else t.signalId signal green } := by
  rw [readRow] at hrow
  split at hrow
  · cases hrow
  · split at hrow
    · cases hrow
    · split at hrow
      · cases hrow
      · rename_i hfree _
        exact ⟨not_not.mp hfree, (Option.some.inj hrow).symm⟩

/-- A row fills its place of the first table, which was empty. -/
theorem signalGroupId_readRow (hvalid : row.Valid) (hrow : t.readRow row = some t')
    {approach green : ℕ} {group : ℤ} (hgroup : group ≠ -1) :
    t'.signalGroupId approach green = group ↔ t.signalGroupId approach green = group ∨
      row.approachId = approach + 1 ∧ row.signalGreenType = green ∧
        row.signalGroupId = group := by
  obtain ⟨hfree, rfl⟩ := readRow_eq_some hrow
  have happroach := hvalid.approach
  dsimp only
  split
  · rename_i hplace
    obtain ⟨rfl, rfl⟩ := hplace
    rw [hfree, or_iff_right hgroup.symm]
    exact ⟨fun h => ⟨by omega, rfl, h⟩, fun h => h.2.2⟩
  · rename_i hplace
    refine ⟨.inl, Or.rec id fun h => absurd ⟨by omega, h.2.1.symm⟩ hplace⟩

theorem mem_signalId_readRow (hvalid : row.Valid) (hrow : t.readRow row = some t')
    {signal green : ℕ} {object : SignalIdObj} :
    object ∈ t'.signalId signal green ↔ object ∈ t.signalId signal green ∨
      row.signalId = signal + 1 ∧ row.mapGreenType = green ∧ row.object = object := by
  obtain ⟨-, rfl⟩ := readRow_eq_some hrow
  have hsignal := hvalid.signal
  dsimp only
  split
  · rename_i hplace
    obtain ⟨rfl, rfl⟩ := hplace
    rw [List.mem_append, List.mem_singleton]
    exact or_congr_right ⟨fun h => ⟨by omega, rfl, h.symm⟩, fun h => h.2.2.symm⟩
  · rename_i hplace
    refine ⟨.inl, Or.rec id fun h => absurd ⟨by omega, h.2.1.symm⟩ hplace⟩

/-- The first table holds the groups of the rows that were read. -/
theorem signalGroupId_readRows (hvalid : ∀ row ∈ rows, row.Valid)
    (hread : initial.readRows rows = some t) {approach green : ℕ} {group : ℤ}
    (hgroup : group ≠ -1) :
    t.signalGroupId approach green = group ↔
      ∃ row ∈ rows, row.approachId = approach + 1 ∧ row.signalGreenType = green ∧
        row.signalGroupId = group :=
  (foldlM_iff_or_exists (p := fun t : GroupTables => t.signalGroupId approach green = group)
    (fun _ row hrow _ hnext => signalGroupId_readRow (hvalid row hrow) hnext hgroup) hread).trans
    (or_iff_right hgroup.symm)

/-- The second table holds the same groups, by their signals. -/
theorem mem_signalId_readRows (hvalid : ∀ row ∈ rows, row.Valid)
    (hread : initial.readRows rows = some t) {signal green : ℕ} {object : SignalIdObj} :
    object ∈ t.signalId signal green ↔
      ∃ row ∈ rows, row.signalId = signal + 1 ∧ row.mapGreenType = green ∧
        row.object = object :=
  (foldlM_iff_or_exists (p := fun t : GroupTables => object ∈ t.signalId signal green)
    (fun _ row hrow _ hnext => mem_signalId_readRow (hvalid row hrow) hnext) hread).trans
    (or_iff_right List.not_mem_nil)

theorem approach_lt_of_readRows (hread : t.readRows rows = some t') :
    ∀ row ∈ rows, row.approachId < compassNum := by
  induction rows generalizing t with
  | nil => exact fun row hrow => absurd hrow List.not_mem_nil
  | cons row rows ih =>
      obtain ⟨next, hnext, hrest⟩ := Option.bind_eq_some_iff.mp hread
      refine List.forall_mem_cons.mpr ⟨?_, ih hrest⟩
      rw [readRow] at hnext
      split_ifs at hnext
      omega

end GroupTables

/-! ## The connections -/

/-- A row is for the lights of a lane; a sidewalk takes group 0 for none. -/
def SignalGroupRow.Controls (row : SignalGroupRow) (lane : ConfigLane) : Prop :=
  row.approachId = lane.approach.toNat + 1 ∧
    (lane.laneType = .vehicle ∧ lane.ingress ∧ row.signalGreenType < 4 ∨
      lane.laneType = .sidewalk ∧ row.signalGreenType = 4 ∧ row.signalGroupId ≠ 0)

/-- The turns that a light of a colour is for. -/
def ConfigConnectsTo.turns (connectTo : ConfigConnectsTo) : ℕ → List ℕ
  | 0 => connectTo.leftLaneId ++ connectTo.straightLaneId ++ connectTo.rightLaneId
  | 1 => connectTo.leftLaneId
  | 2 => connectTo.straightLaneId
  | 3 => connectTo.rightLaneId
  | _ => connectTo.straightLaneId

namespace MapConfig

variable {config : MapConfig} {connections : List MapConnection} {connection : MapConnection}
  {ℓ : ℕ}

/-- The connection of a lane that has a turn of the colour, under the group. -/
def Connects (config : MapConfig) (ℓ green : ℕ) (group : ℤ) (connection : MapConnection) :
    Prop :=
  ∃ connectTo ∈ config.connectsToList, connectTo.configLaneId = ℓ ∧
    ∃ target ∈ connectTo.turns green, ⟨config.laneIdAt target, group⟩ = connection

theorem mem_setCompassConnectsTo {group : ℤ} {laneIds : List ℕ} :
    connection ∈ config.setCompassConnectsTo group connections laneIds ↔
      connection ∈ connections ∨
        ∃ target ∈ laneIds, ⟨config.laneIdAt target, group⟩ = connection :=
  run_iff_or_exists _ (p := fun connections => connection ∈ connections)
    (fun _ _ _ => by rw [List.mem_append, List.mem_singleton, eq_comm (a := connection)])
    connections

theorem mem_searchSignalCompass {group : ℤ} {turns : List (ConfigConnectsTo → List ℕ)} :
    connection ∈ config.searchSignalCompass ℓ group turns connections ↔
      connection ∈ connections ∨ group ≠ -1 ∧
        ∃ connectTo ∈ config.connectsToList, connectTo.configLaneId = ℓ ∧
          ∃ turn ∈ turns, ∃ target ∈ turn connectTo,
            ⟨config.laneIdAt target, group⟩ = connection := by
  unfold searchSignalCompass
  split
  · rename_i hgroup
    rw [and_iff_right hgroup]
    refine run_iff_or_exists _ (p := fun connections => connection ∈ connections)
      (fun connections connectTo _ => ?_) connections
    split
    · rename_i hlane
      rw [and_iff_right hlane]
      refine run_iff_or_exists _ (p := fun connections => connection ∈ connections)
        (fun connections turn _ => ?_) connections
      exact mem_setCompassConnectsTo
    · rename_i hlane
      exact (or_iff_left fun h => hlane h.1).symm
  · rename_i hgroup
    exact (or_iff_left fun h => hgroup h.1).symm

/-- An arrow searches one list of turns. -/
theorem mem_searchSignalCompass_turn (green : ℕ) (turn : ConfigConnectsTo → List ℕ)
    (hturn : ∀ connectTo, turn connectTo = connectTo.turns green) {group : ℤ} :
    connection ∈ config.searchSignalCompass ℓ group [turn] connections ↔
      connection ∈ connections ∨ group ≠ -1 ∧ config.Connects ℓ green group connection := by
  simp only [mem_searchSignalCompass, List.mem_singleton, exists_eq_left, hturn, Connects]

/-- The round head searches all of them. -/
theorem mem_searchSignalCompass_roundHead {group : ℤ} :
    connection ∈ config.searchSignalCompass ℓ group
        [ConfigConnectsTo.leftLaneId, ConfigConnectsTo.straightLaneId,
          ConfigConnectsTo.rightLaneId] connections ↔
      connection ∈ connections ∨ group ≠ -1 ∧ config.Connects ℓ 0 group connection := by
  simp only [mem_searchSignalCompass, List.mem_cons, List.not_mem_nil, or_false,
    exists_eq_left, Connects, ConfigConnectsTo.turns, List.mem_append, or_and_right, exists_or,
    or_assoc]

theorem mem_connectLane :
    connection ∈ config.connectLane ℓ connections ↔ connection ∈ connections ∨
      ∃ green < 4, config.tables.signalGroupId (config.approachAt ℓ) green ≠ -1 ∧
        config.Connects ℓ green (config.tables.signalGroupId (config.approachAt ℓ) green)
          connection := by
  simp only [connectLane, mem_searchSignalCompass_roundHead,
    mem_searchSignalCompass_turn 1 ConfigConnectsTo.leftLaneId fun _ => rfl,
    mem_searchSignalCompass_turn 2 ConfigConnectsTo.straightLaneId fun _ => rfl,
    mem_searchSignalCompass_turn 3 ConfigConnectsTo.rightLaneId fun _ => rfl, or_assoc,
    Nat.lt_succ_iff_lt_or_eq, Nat.not_lt_zero, false_or, or_and_right, exists_or,
    exists_eq_left]

theorem mem_connectSidewalk {i : ℕ} :
    connection ∈ config.connectSidewalk i ℓ connections ↔ connection ∈ connections ∨
      config.tables.signalGroupId i 4 ≠ 0 ∧ config.tables.signalGroupId i 4 ≠ -1 ∧
        config.Connects ℓ 4 (config.tables.signalGroupId i 4) connection := by
  unfold connectSidewalk
  dsimp only
  split
  · rename_i hgroup
    rw [mem_searchSignalCompass_turn 4 ConfigConnectsTo.straightLaneId fun _ => rfl,
      and_iff_right hgroup]
  · rename_i hgroup
    exact (or_iff_left fun h => hgroup h.1).symm

theorem mem_laneApproach {i : ℕ} :
    ℓ ∈ config.laneApproach i ↔ ∃ lane, config.laneList[ℓ]? = some lane ∧
      lane.approach.toNat = i ∧ lane.laneType = .vehicle ∧ lane.ingress := by
  rw [laneApproach, List.mem_filter, List.mem_range, Option.any_eq_true]
  simp only [decide_eq_true_eq]
  refine and_iff_right_of_imp fun h => ?_
  obtain ⟨lane, hlane, -⟩ := h
  exact (List.getElem?_eq_some_iff.mp hlane).choose

theorem mem_sidewalkApproach {i : ℕ} :
    ℓ ∈ config.sidewalkApproach i ↔ ∃ lane, config.laneList[ℓ]? = some lane ∧
      lane.approach.toNat = i ∧ lane.laneType = .sidewalk := by
  rw [sidewalkApproach, List.mem_filter, List.mem_range, Option.any_eq_true]
  simp only [decide_eq_true_eq]
  refine and_iff_right_of_imp fun h => ?_
  obtain ⟨lane, hlane, -⟩ := h
  exact (List.getElem?_eq_some_iff.mp hlane).choose

/-- A loop over lanes adds to a lane what it adds for this lane. -/
theorem mem_foldl_update (connect : ℕ → List MapConnection → List MapConnection) {brings : Prop}
    (hconnect : ∀ connections, connection ∈ connect ℓ connections ↔
      connection ∈ connections ∨ brings) {lanes : List ℕ} {connections : ℕ → List MapConnection} :
    connection ∈ lanes.foldl
        (fun connections k => Function.update connections k (connect k (connections k)))
        connections ℓ ↔
      connection ∈ connections ℓ ∨ ℓ ∈ lanes ∧ brings := by
  refine (run_iff_or_exists
    (fun connections k => Function.update connections k (connect k (connections k)))
    (p := fun connections => connection ∈ connections ℓ) (q := fun k => k = ℓ ∧ brings)
    (fun connections k _ => ?_) connections).trans (or_congr_right ?_)
  · by_cases hk : k = ℓ
    · subst hk
      rw [Function.update_self, hconnect, and_iff_right rfl]
    · rw [Function.update_of_ne (Ne.symm hk)]
      exact (or_iff_left fun h => hk h.1).symm
  · exact ⟨fun ⟨_, hk, h, hbrings⟩ => ⟨h ▸ hk, hbrings⟩, fun h => ⟨ℓ, h.1, rfl, h.2⟩⟩

/-- The connection of a lane by the light of a colour. -/
def LightConnects (config : MapConfig) (ℓ approach green : ℕ) (connection : MapConnection) :
    Prop :=
  config.tables.signalGroupId approach green ≠ -1 ∧
    config.Connects ℓ green (config.tables.signalGroupId approach green) connection

/-- The body of the loop adds the connections of the lanes of its approach. -/
theorem mem_connectApproach {connections : ℕ → List MapConnection} {i : ℕ} :
    connection ∈ config.connectApproach connections i ℓ ↔ connection ∈ connections ℓ ∨
      ∃ lane, config.laneList[ℓ]? = some lane ∧ lane.approach.toNat = i ∧
        (lane.laneType = .vehicle ∧ lane.ingress ∧
            (∃ green < 4, config.LightConnects ℓ i green connection) ∨
          lane.laneType = .sidewalk ∧ config.tables.signalGroupId i 4 ≠ 0 ∧
            config.LightConnects ℓ i 4 connection) := by
  have hlane : ∀ lane, config.laneList[ℓ]? = some lane →
      config.approachAt ℓ = lane.approach.toNat := fun lane hlane => by
    rw [approachAt, hlane]
    rfl
  rw [connectApproach, mem_foldl_update (config.connectSidewalk i) fun _ => mem_connectSidewalk,
    mem_foldl_update config.connectLane fun _ => mem_connectLane, or_assoc, mem_laneApproach,
    mem_sidewalkApproach]
  refine or_congr_right ?_
  constructor
  · rintro (⟨⟨lane, h, rfl, hvehicle, hingress⟩, hlight⟩ | ⟨⟨lane, h, rfl, hsidewalk⟩, hlight⟩)
    · rw [hlane lane h] at hlight
      exact ⟨lane, h, rfl, .inl ⟨hvehicle, hingress, hlight⟩⟩
    · exact ⟨lane, h, rfl, .inr ⟨hsidewalk, hlight⟩⟩
  · rintro ⟨lane, h, rfl, (⟨hvehicle, hingress, hlight⟩ | ⟨hsidewalk, hlight⟩)⟩
    · rw [hlane lane h]
      exact .inl ⟨⟨lane, h, rfl, hvehicle, hingress⟩, hlight⟩
    · exact .inr ⟨⟨lane, h, rfl, hsidewalk⟩, hlight⟩

theorem mem_mapSignalGroup :
    connection ∈ config.mapSignalGroup ℓ ↔
      ∃ lane, config.laneList[ℓ]? = some lane ∧ lane.approach.toNat < compassNum ∧
        (lane.laneType = .vehicle ∧ lane.ingress ∧
            (∃ green < 4, config.LightConnects ℓ lane.approach.toNat green connection) ∨
          lane.laneType = .sidewalk ∧ config.tables.signalGroupId lane.approach.toNat 4 ≠ 0 ∧
            config.LightConnects ℓ lane.approach.toNat 4 connection) := by
  refine (run_iff_or_exists config.connectApproach
    (p := fun connections => connection ∈ connections ℓ)
    (fun connections i _ => mem_connectApproach) fun _ => []).trans ?_
  rw [or_iff_right List.not_mem_nil]
  constructor
  · rintro ⟨i, hi, lane, h, rfl, hlights⟩
    exact ⟨lane, h, List.mem_range.mp hi, hlights⟩
  · rintro ⟨lane, h, hi, hlights⟩
    exact ⟨_, List.mem_range.mpr hi, lane, h, rfl, hlights⟩

end MapConfig

/-! ## The timing message -/

namespace TrafficSignalStatus

variable {status : TrafficSignalStatus} {table : ℕ → ℕ → List SignalIdObj}

/-- The map of a signal has the greens that some phase shows. -/
theorem greenSignalMap_iff {i : ℕ} {mask : UInt8} (hmask : mask ∈ signalMaskArr) :
    status.greenSignalMap i &&& mask ≠ 0 ↔
      ∃ k < status.subPhaseCount.toNat, status.shows i mask k := by
  have hgreen : greenMask &&& mask = mask := by
    simp only [signalMaskArr, List.mem_cons, List.not_mem_nil, or_false] at hmask
    rcases hmask with rfl | rfl | rfl | rfl | rfl <;> rfl
  refine (run_iff_or_exists (fun map k => map ||| (status.phaseorderPlan k i &&& greenMask))
    (p := fun map => map &&& mask ≠ 0) (q := fun k => status.shows i mask k)
    (fun map k _ => ?_) 0).trans ?_
  · rw [and_or_distrib_right, UInt8.and_assoc, hgreen, Ne, UInt8.or_eq_zero_iff, not_and_or,
      shows, decide_eq_true_eq]
  · simp only [UInt8.zero_and, ne_eq, not_true_eq_false, false_or, List.mem_range]

theorem mem_processedGroups {i : ℕ} {mask : UInt8} {group : SignalIdObj} :
    (i, mask, group) ∈ status.processedGroups table ↔
      i < status.signalCount.toNat ∧ ∃ j, signalMaskArr[j]? = some mask ∧
        (∃ k < status.subPhaseCount.toNat, status.shows i mask k) ∧ group ∈ table i j := by
  rw [processedGroups, List.mem_flatMap]
  constructor
  · rintro ⟨i', hi, hmem⟩
    obtain ⟨⟨mask', j⟩, hj, hmem⟩ := List.mem_flatMap.mp hmem
    rw [List.mem_zipIdx_iff_getElem?] at hj
    dsimp only at hmem hj
    split at hmem
    · rename_i hgreen
      obtain ⟨group', hgroup, heq⟩ := List.mem_map.mp hmem
      cases heq
      exact ⟨List.mem_range.mp hi, j, hj,
        (greenSignalMap_iff (List.mem_of_getElem? hj)).mp hgreen, hgroup⟩
    · cases hmem
  · rintro ⟨hi, j, hj, hshown, hgroup⟩
    refine ⟨i, List.mem_range.mpr hi, List.mem_flatMap.mpr
      ⟨(mask, j), List.mem_zipIdx_iff_getElem?.mpr hj, ?_⟩⟩
    dsimp only
    rw [if_pos ((greenSignalMap_iff (List.mem_of_getElem? hj)).mpr hshown)]
    exact List.mem_map_of_mem hgroup

/-- Some phase of the plan shows the light that a row is for. -/
def Lights (status : TrafficSignalStatus) (row : SignalGroupRow) : Prop :=
  row.signalId ≤ status.signalCount.toNat ∧
    ∃ mask, signalMaskArr[row.mapGreenType]? = some mask ∧
      ∃ k < status.subPhaseCount.toNat, status.shows (row.signalId - 1) mask k

/-- The message tells of the groups that are processed, once its loops end. -/
theorem spatMsgUpdate_groups (table : ℕ → ℕ → List SignalIdObj) (hphase : status.subPhaseId ≠ 0)
    (hinside : status.subPhaseId ≤ status.subPhaseCount) (hstep : status.stepId ≠ 0)
    (hsignals : status.signalCount ≠ 0) :
    ∃ states, status.spatMsgUpdate (status.subPhaseCount.toNat + 1) table = some states ∧
      ∀ id, (∃ state ∈ states, state.signalGroup = id) ↔
        ∃ i mask group, (i, mask, group) ∈ status.processedGroups table ∧
          group.signalGroupId = id := by
  obtain ⟨states, hstates, -⟩ := @scansEnd_of_le status table hinside
  refine ⟨states, hstates, fun id => ?_⟩
  have hcount : status.subPhaseCount ≠ 0 := fun hzero =>
    hphase (UInt8.le_zero_iff.mp (hzero ▸ hinside))
  rw [spatMsgUpdate, if_neg (by
    rintro (hzero | hzero | hzero | hzero) <;> contradiction)] at hstates
  constructor
  · rintro ⟨state, hstate, rfl⟩
    obtain ⟨⟨i, mask, group⟩, hgroup, hstate⟩ := (mem_mapM_iff hstates).mp hstate
    obtain ⟨w, -, rfl⟩ := Option.map_eq_some_iff.mp hstate
    exact ⟨i, mask, group, hgroup, rfl⟩
  · rintro ⟨i, mask, group, hgroup, rfl⟩
    obtain ⟨state, hstate⟩ := exists_mapM_iff.mp ⟨states, hstates⟩ _ hgroup
    refine ⟨state, (mem_mapM_iff hstates).mpr ⟨_, hgroup, hstate⟩, ?_⟩
    obtain ⟨w, -, rfl⟩ := Option.map_eq_some_iff.mp hstate
    rfl

end TrafficSignalStatus

/-! ## Both messages -/

variable {config : MapConfig} {rows : List SignalGroupRow}

/-- A light connects a lane by the group of the row that has it. -/
theorem MapConfig.lightConnects_iff (hvalid : ∀ row ∈ rows, row.Valid)
    (hread : GroupTables.initial.readRows rows = some config.tables) {ℓ approach green : ℕ}
    {connection : MapConnection} :
    config.LightConnects ℓ approach green connection ↔ ∃ row ∈ rows,
      row.approachId = approach + 1 ∧ row.signalGreenType = green ∧
        row.signalGroupId = config.tables.signalGroupId approach green ∧
        config.Connects ℓ green row.signalGroupId connection := by
  constructor
  · rintro ⟨hgroup, hconnects⟩
    obtain ⟨row, hrow, happroach, hgreen, hid⟩ :=
      (GroupTables.signalGroupId_readRows hvalid hread hgroup).mp rfl
    exact ⟨row, hrow, happroach, hgreen, hid, hid ▸ hconnects⟩
  · rintro ⟨row, hrow, happroach, hgreen, hid, hconnects⟩
    have hnonneg := (hvalid row hrow).nonneg
    exact ⟨by omega, hid ▸ hconnects⟩

theorem MapConfig.mem_mapSignalGroup_iff (hvalid : ∀ row ∈ rows, row.Valid)
    (hread : GroupTables.initial.readRows rows = some config.tables) {ℓ : ℕ}
    {connection : MapConnection} :
    connection ∈ config.mapSignalGroup ℓ ↔
      ∃ lane row, config.laneList[ℓ]? = some lane ∧ row ∈ rows ∧ row.Controls lane ∧
        config.Connects ℓ row.signalGreenType row.signalGroupId connection := by
  have htable : ∀ row ∈ rows, row.signalGroupId =
      config.tables.signalGroupId (row.approachId - 1) row.signalGreenType := fun row hrow => by
    have hvalid' := hvalid row hrow
    have happroach := hvalid'.approach
    have hnonneg := hvalid'.nonneg
    exact ((GroupTables.signalGroupId_readRows hvalid hread (by omega)).mpr
      ⟨row, hrow, by omega, rfl, rfl⟩).symm
  rw [mem_mapSignalGroup]
  constructor
  · rintro ⟨lane, hlane, -, (⟨hvehicle, hingress, green, hgreen, hlight⟩ |
      ⟨hsidewalk, hgroup, hlight⟩)⟩
    · obtain ⟨row, hrow, happroach, rfl, -, hconnects⟩ := (lightConnects_iff hvalid hread).mp hlight
      exact ⟨lane, row, hlane, hrow, ⟨happroach, .inl ⟨hvehicle, hingress, hgreen⟩⟩, hconnects⟩
    · obtain ⟨row, hrow, happroach, hgreen, hid, hconnects⟩ :=
        (lightConnects_iff hvalid hread).mp hlight
      exact ⟨lane, row, hlane, hrow, ⟨happroach, .inr ⟨hsidewalk, hgreen, hid ▸ hgroup⟩⟩,
        hgreen.symm ▸ hconnects⟩
  · rintro ⟨lane, row, hlane, hrow, ⟨happroach, hcontrols⟩, hconnects⟩
    have hid := htable row hrow
    rw [happroach, Nat.add_sub_cancel] at hid
    have hlight : config.LightConnects ℓ lane.approach.toNat row.signalGreenType connection :=
      (lightConnects_iff hvalid hread).mpr ⟨row, hrow, happroach, rfl, hid, hconnects⟩
    refine ⟨lane, hlane, ?_, ?_⟩
    · have := GroupTables.approach_lt_of_readRows hread row hrow
      omega
    · rcases hcontrols with ⟨hvehicle, hingress, hgreen⟩ | ⟨hsidewalk, hgreen, hgroup⟩
      · exact .inl ⟨hvehicle, hingress, _, hgreen, hlight⟩
      · rw [hgreen] at hid hlight
        exact .inr ⟨hsidewalk, hid ▸ hgroup, hlight⟩

/-- The map connects a lane under exactly the groups of the rows that control it, along the
turns of their colours, and the timing message tells of exactly the groups whose light some
phase shows. -/
theorem map_groups_in_spat (hvalid : ∀ row ∈ rows, row.Valid)
    (hread : GroupTables.initial.readRows rows = some config.tables)
    {status : TrafficSignalStatus} (hphase : status.subPhaseId ≠ 0)
    (hinside : status.subPhaseId ≤ status.subPhaseCount) (hstep : status.stepId ≠ 0)
    (hsignals : status.signalCount ≠ 0) :
    (∀ ℓ connection, connection ∈ config.mapSignalGroup ℓ ↔
      ∃ lane row, config.laneList[ℓ]? = some lane ∧ row ∈ rows ∧ row.Controls lane ∧
        config.Connects ℓ row.signalGreenType row.signalGroupId connection) ∧
    ∃ states, status.spatMsgUpdate (status.subPhaseCount.toNat + 1) config.tables.signalId =
        some states ∧
      ∀ group : ℤ, (∃ state ∈ states, (state.signalGroup.toNat : ℤ) = group) ↔
        ∃ row ∈ rows, row.signalGroupId = group ∧ status.Lights row := by
  refine ⟨fun ℓ connection => MapConfig.mem_mapSignalGroup_iff hvalid hread, ?_⟩
  obtain ⟨states, hstates, hgroups⟩ :=
    TrafficSignalStatus.spatMsgUpdate_groups config.tables.signalId hphase hinside hstep hsignals
  refine ⟨states, hstates, fun group => ?_⟩
  constructor
  · rintro ⟨state, hstate, rfl⟩
    obtain ⟨i, mask, object, hobject, hid⟩ := (hgroups _).mp ⟨state, hstate, rfl⟩
    obtain ⟨hi, j, hmask, hshown, hmem⟩ := TrafficSignalStatus.mem_processedGroups.mp hobject
    obtain ⟨row, hrow, hsignal, rfl, rfl⟩ :=
      (GroupTables.mem_signalId_readRows hvalid hread).mp hmem
    refine ⟨row, hrow, ?_, ?_, mask, hmask, ?_⟩
    · rw [← hid, (hvalid row hrow).object_toNat]
    · omega
    · rwa [hsignal, Nat.add_sub_cancel]
  · rintro ⟨row, hrow, rfl, hcount, mask, hmask, hshown⟩
    have hsignal := (hvalid row hrow).signal
    obtain ⟨state, hstate, hid⟩ := (hgroups row.object.signalGroupId).mpr
      ⟨row.signalId - 1, mask, row.object, TrafficSignalStatus.mem_processedGroups.mpr
        ⟨by omega, row.mapGreenType, hmask, hshown,
          (GroupTables.mem_signalId_readRows hvalid hread).mpr
            ⟨row, hrow, by omega, rfl, rfl⟩⟩, rfl⟩
    refine ⟨state, hstate, ?_⟩
    rw [hid, (hvalid row hrow).object_toNat]

/-- A lane that leads straight on into another, under the round head of signal 1. -/
def straightOn : MapConfig where
  laneList := [⟨true, 0, 1, .vehicle⟩, ⟨false, 1, 2, .vehicle⟩]
  connectsToList := [⟨0, [], [1], []⟩]
  tables := (GroupTables.initial.readRows [⟨5, 1, 0, 1, 0⟩]).getD .initial

/-- A plan of one phase in which every signal has a round head. -/
def roundHead : TrafficSignalStatus :=
  { TrafficSignalStatus.initial fun _ => .unset with
    subPhaseId := 1
    stepId := 1
    subPhaseCount := 1
    signalCount := 1
    phaseorderPlan := fun _ _ => 4 }

theorem map_groups_in_spat_straight_on :
    ⟨straightOn.laneIdAt 1, 5⟩ ∈ straightOn.mapSignalGroup 0 ∧
      ∃ states, roundHead.spatMsgUpdate 2 straightOn.tables.signalId = some states ∧
        ∃ state ∈ states, (state.signalGroup.toNat : ℤ) = 5 := by
  have hvalid : ∀ row ∈ [(⟨5, 1, 0, 1, 0⟩ : SignalGroupRow)], row.Valid := by
    intro row hrow
    cases List.mem_singleton.mp hrow
    constructor <;> decide
  obtain ⟨hmap, states, hstates, hgroups⟩ := @map_groups_in_spat straightOn _ hvalid rfl
    roundHead (by decide) (by decide) (by decide) (by decide)
  refine ⟨(hmap 0 _).mpr ⟨_, ⟨5, 1, 0, 1, 0⟩, rfl, .head _, ⟨rfl, .inl ⟨rfl, rfl, by decide⟩⟩,
    _, .head _, rfl, 1, by decide, rfl⟩, states, hstates, ?_⟩
  exact (hgroups 5).mpr ⟨_, .head _, rfl, by decide, 4, rfl, 0, by decide, rfl⟩

end AdaptiveSignal.Signal
