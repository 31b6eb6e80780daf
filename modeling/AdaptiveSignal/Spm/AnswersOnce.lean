import AdaptiveSignal.Spm.StatusMessages

/-! # Every request is answered once

The loops of a round together make one pass over the vehicles, in which each vehicle gets what
there is room for. That is all its answers exactly if they fit into the list in which they begin and
nothing lies behind the requests.
-/

namespace AdaptiveSignal.Spm

open Foundation Vehicles

variable {Lane : Type*} {places : ℕ} (setting : Setting)

/-! ## What a round is to give -/

def SignalStatusPackage.isGranted (package : SignalStatusPackage Lane) : Bool :=
  package.status = .granted

/-- A package that is locked because another one of its list is granted, as it was granted. -/
def SignalStatusPackage.unlocked (package : SignalStatusPackage Lane) : SignalStatusPackage Lane :=
  if package.status = .reserviceLocked then { package with status := .granted } else package

def statusPackages (tab : List (SignalStatus Lane)) : List (SignalStatusPackage Lane) :=
  tab.flatMap SignalStatus.sigStatus

def messagePackages (messages : List (SignalStatusMessage Lane)) :
    List (SignalStatusPackage Lane) :=
  messages.flatMap fun message => statusPackages message.status

/-- The answer to the request at a place of the table. -/
def SpmObuObj.answer (obu : SpmObuObj Lane places) (j : ℕ) : Option (SignalStatusPackage Lane) :=
  obu.sigRequestList[j]?.bind fun request => statusPackage setting obu j request []

/-- The answers to the requests of a vehicle. -/
def SpmObuObj.answers (obu : SpmObuObj Lane places) : List (SignalStatusPackage Lane) :=
  (List.range obu.sigRequestCount).filterMap (obu.answer setting)

/-- The answers that a round is to give. -/
def expectedPackages (obus : List (SpmObuObj Lane places)) : List (SignalStatusPackage Lane) :=
  (obus.filter fun obu => !obu.expired setting).flatMap (SpmObuObj.answers setting)

/-- A list is not longer than it can be, and at most one of its packages is granted. -/
structure StatusListOk (tab : List (SignalStatusPackage Lane)) : Prop where
  length_le : tab.length ≤ setting.listMax
  granted_le : tab.countP SignalStatusPackage.isGranted ≤ 1

structure MessageOk (message : SignalStatusMessage Lane) : Prop where
  length_le : message.status.length ≤ setting.listMax
  status : ∀ status ∈ message.status, StatusListOk setting status.sigStatus

/-- The round ends, with the answers in the order of the list and in lists that are right. -/
def AnswersOnce (obus : SpmObuList Lane places) (sequenceNumber : ℕ) : Prop :=
  ∃ round, spmRepeater setting obus sequenceNumber = some round ∧
    (messagePackages round.messages).map .unlocked = expectedPackages setting obus.entries ∧
    ∀ message ∈ round.messages, MessageOk setting message

/-- A list with so many packages has room for the answers to a vehicle; if there is room left
behind them, the place behind the requests lies in the table and has nothing to answer. -/
structure SpmObuObj.FitsIn (obu : SpmObuObj Lane places) (room : ℕ) : Prop where
  length_le : (obu.answers setting).length ≤ room
  behind : (obu.answers setting).length < room →
    obu.sigRequestCount < places ∧ obu.answer setting obu.sigRequestCount = none

/-- The answers to each vehicle fit into the list in which they begin; so many packages have been
made for the vehicles in front. -/
def Fit (made : ℕ) : List (SpmObuObj Lane places) → Prop
  | [] => True
  | obu :: obus =>
      if obu.expired setting then Fit made obus
      else obu.FitsIn setting (setting.listMax - made % setting.listMax) ∧
        Fit (made + (obu.answers setting).length) obus

/-! ## One pass -/

/-- What a vehicle gets when there is so much room. -/
def taken (obu : SpmObuObj Lane places) : List ℕ → ℕ → Option (List (SignalStatusPackage Lane))
  | [], _ => some []
  | _ :: _, 0 => some []
  | j :: rest, room + 1 =>
      if j < places then
        match obu.answer setting j with
        | none => taken obu rest (room + 1)
        | some package => (taken obu rest room).map (package :: ·)
      else none

/-- The round without its lists. -/
def onePass : List (SpmObuObj Lane places) → ℕ → Option (List (SignalStatusPackage Lane))
  | [], _ => some []
  | obu :: obus, made =>
      if obu.expired setting then onePass obus made
      else
        (taken setting obu (List.range (obu.sigRequestCount + 1))
          (setting.listMax - made % setting.listMax)).bind fun packages =>
            (onePass obus (made + packages.length)).map (packages ++ ·)

section Pass

variable {setting} {obu : SpmObuObj Lane places} {obus : List (SpmObuObj Lane places)}

/-- The requests in the table are answered as far as there is room, and the last place is read
only if some is left. -/
theorem taken_concat {js : List ℕ} (hjs : ∀ j ∈ js, j < places) (k room : ℕ) :
    taken setting obu (js ++ [k]) room =
      if (js.filterMap (obu.answer setting)).length < room then
        if k < places then
          some (js.filterMap (obu.answer setting) ++ (obu.answer setting k).toList)
        else none
      else some ((js.filterMap (obu.answer setting)).take room) := by
  induction js generalizing room with
  | nil =>
      cases room with
      | zero => rfl
      | succ room =>
          rw [if_pos (by simp), List.nil_append, taken]
          cases obu.answer setting k <;> rfl
  | cons j js ih =>
      cases room with
      | zero => simp [taken]
      | succ room =>
          have hrest := ih fun i hi => hjs i (List.mem_cons_of_mem _ hi)
          rw [List.cons_append, taken, if_pos (hjs j List.mem_cons_self)]
          cases hanswer : obu.answer setting j with
          | none =>
              rw [List.filterMap_cons_none hanswer]
              exact hrest (room + 1)
          | some package =>
              simp only [hrest room, List.filterMap_cons_some hanswer, List.length_cons,
                Nat.add_lt_add_iff_right, List.cons_append, List.take_succ_cons]
              split_ifs <;> rfl

/-- A vehicle gets its answers exactly if they fit. -/
theorem taken_eq_iff (room : ℕ) :
    taken setting obu (List.range (obu.sigRequestCount + 1)) room = some (obu.answers setting) ↔
      obu.FitsIn setting room := by
  have hrange : ∀ j ∈ List.range obu.sigRequestCount, j < places :=
    fun j hj => (List.mem_range.mp hj).trans_le obu.count_le
  rw [List.range_succ, taken_concat hrange, ← SpmObuObj.answers]
  constructor
  · intro h
    split_ifs at h with hroom hplace
    · refine ⟨hroom.le, fun _ => ⟨hplace, ?_⟩⟩
      rw [Option.some.injEq, List.append_right_eq_self] at h
      simpa using h
    · refine ⟨?_, fun hlt => absurd hlt hroom⟩
      rw [Option.some.injEq, List.take_eq_self_iff] at h
      exact h
  · rintro ⟨hlength, hbehind⟩
    split_ifs with hroom hplace
    · rw [(hbehind hroom).2, Option.toList_none, List.append_nil]
    · exact absurd (hbehind hroom).1 hplace
    · rw [List.take_of_length_le hlength]

theorem source_of_answer {j : ℕ} {package : SignalStatusPackage Lane}
    (hanswer : obu.answer setting j = some package) : package.source.1 = obu.obuName := by
  obtain ⟨request, -, hpackage⟩ := Option.bind_eq_some_iff.mp hanswer
  rw [statusPackage, Option.map_eq_some_iff] at hpackage
  obtain ⟨status, -, rfl⟩ := hpackage
  rfl

theorem source_of_mem_answers {package : SignalStatusPackage Lane}
    (hmem : package ∈ obu.answers setting) : package.source.1 = obu.obuName := by
  obtain ⟨j, -, hanswer⟩ := List.mem_filterMap.mp hmem
  exact source_of_answer hanswer

theorem source_of_mem_taken {js : List ℕ} {room : ℕ} {packages : List (SignalStatusPackage Lane)}
    (htaken : taken setting obu js room = some packages) :
    ∀ package ∈ packages, package.source.1 = obu.obuName := by
  induction js generalizing room packages with
  | nil => simp [← Option.some.inj htaken]
  | cons j js ih =>
      cases room with
      | zero => simp [← Option.some.inj htaken]
      | succ room =>
          rw [taken] at htaken
          split_ifs at htaken
          cases hanswer : obu.answer setting j with
          | none => exact ih (by simpa only [hanswer] using htaken)
          | some package =>
              simp only [hanswer, Option.map_eq_some_iff] at htaken
              obtain ⟨rest, hrest, rfl⟩ := htaken
              intro other hmem
              rcases List.mem_cons.mp hmem with rfl | hmem
              · exact source_of_answer hanswer
              · exact ih hrest other hmem

/-- Each package is made for a vehicle of the list. -/
theorem source_of_mem_onePass {made : ℕ} {packages : List (SignalStatusPackage Lane)}
    (hpass : onePass setting obus made = some packages) :
    ∀ package ∈ packages, package.source.1 ∈ obus.map SpmObuObj.obuName := by
  induction obus generalizing made packages with
  | nil => simp [← Option.some.inj hpass]
  | cons obu obus ih =>
      rw [onePass] at hpass
      intro package hmem
      rw [List.map_cons, List.mem_cons]
      split_ifs at hpass
      · exact Or.inr (ih hpass package hmem)
      · obtain ⟨own, htaken, hpass⟩ := Option.bind_eq_some_iff.mp hpass
        obtain ⟨rest, hrest, rfl⟩ := Option.map_eq_some_iff.mp hpass
        rcases List.mem_append.mp hmem with hmem | hmem
        · exact Or.inl (source_of_mem_taken htaken package hmem)
        · exact Or.inr (ih hrest package hmem)

theorem source_of_mem_expected {package : SignalStatusPackage Lane}
    (hmem : package ∈ expectedPackages setting obus) :
    package.source.1 ∈ obus.map SpmObuObj.obuName := by
  obtain ⟨obu, hobu, hmem⟩ := List.mem_flatMap.mp hmem
  exact List.mem_map.mpr ⟨obu, (List.mem_filter.mp hobu).1, (source_of_mem_answers hmem).symm⟩

/-- What is made for a vehicle and what is made for others can be told apart. -/
theorem eq_of_append_eq {name : ObuName} {own own' rest rest' : List (SignalStatusPackage Lane)}
    (hown : ∀ package ∈ own, package.source.1 = name)
    (hown' : ∀ package ∈ own', package.source.1 = name)
    (hrest : ∀ package ∈ rest, package.source.1 ≠ name)
    (hrest' : ∀ package ∈ rest', package.source.1 ≠ name) (h : own ++ rest = own' ++ rest') :
    own = own' ∧ rest = rest' := by
  have hfilter := congrArg (List.filter fun package => package.source.1 = name) h
  rw [List.filter_append, List.filter_append,
    List.filter_eq_self.mpr fun package hmem => decide_eq_true (hown package hmem),
    List.filter_eq_self.mpr fun package hmem => decide_eq_true (hown' package hmem),
    List.filter_eq_nil_iff.mpr fun package hmem => by simpa using hrest package hmem,
    List.filter_eq_nil_iff.mpr fun package hmem => by simpa using hrest' package hmem,
    List.append_nil, List.append_nil] at hfilter
  exact ⟨hfilter, List.append_cancel_left (hfilter ▸ h)⟩

theorem expectedPackages_cons_expired (hexpired : obu.expired setting = true)
    (obus : List (SpmObuObj Lane places)) :
    expectedPackages setting (obu :: obus) = expectedPackages setting obus := by
  simp [expectedPackages, hexpired]

theorem expectedPackages_cons_live (hlive : ¬ obu.expired setting = true)
    (obus : List (SpmObuObj Lane places)) :
    expectedPackages setting (obu :: obus) =
      obu.answers setting ++ expectedPackages setting obus := by
  simp [expectedPackages, hlive]

theorem onePass_eq_iff (hdistinct : (obus.map SpmObuObj.obuName).Nodup) (made : ℕ) :
    onePass setting obus made = some (expectedPackages setting obus) ↔ Fit setting made obus := by
  induction obus generalizing made with
  | nil => exact iff_of_true rfl trivial
  | cons obu obus ih =>
      rw [List.map_cons, List.nodup_cons] at hdistinct
      obtain ⟨hfresh, hdistinct⟩ := hdistinct
      rw [onePass, Fit]
      by_cases hexpired : obu.expired setting = true
      · rw [if_pos hexpired, if_pos hexpired, expectedPackages_cons_expired hexpired]
        exact ih hdistinct made
      · rw [if_neg hexpired, if_neg hexpired, expectedPackages_cons_live hexpired, ← taken_eq_iff,
          ← ih hdistinct]
        constructor
        · intro hpass
          obtain ⟨own, htaken, hpass⟩ := Option.bind_eq_some_iff.mp hpass
          obtain ⟨rest, hrest, heq⟩ := Option.map_eq_some_iff.mp hpass
          -- The names tell what was made for this vehicle.
          obtain ⟨rfl, rfl⟩ := eq_of_append_eq (source_of_mem_taken htaken)
            (fun package hmem => source_of_mem_answers hmem)
            (fun package hmem hname => hfresh (hname ▸ source_of_mem_onePass hrest package hmem))
            (fun package hmem hname => hfresh (hname ▸ source_of_mem_expected hmem)) heq
          exact ⟨htaken, hrest⟩
        · rintro ⟨htaken, hrest⟩
          rw [htaken, Option.bind_some, hrest, Option.map_some]

theorem onePass_congr {made made' : ℕ}
    (hmod : made % setting.listMax = made' % setting.listMax) :
    onePass setting obus made = onePass setting obus made' := by
  induction obus generalizing made made' with
  | nil => rfl
  | cons obu obus ih =>
      rw [onePass, onePass, hmod, ih hmod]
      have hnext := fun packages : List (SignalStatusPackage Lane) =>
        ih (Nat.ModEq.add_right packages.length hmod)
      simp only [hnext]

end Pass

/-! ## The loops make one pass -/

section Loops

variable {setting} {obu : SpmObuObj Lane places} {obus : List (SpmObuObj Lane places)}
  {tab : List (SignalStatusPackage Lane)}

theorem map_unlocked_statusPackage (j : ℕ) (request : SignalRequestPackage Lane) :
    (statusPackage setting obu j request tab).map .unlocked =
      statusPackage setting obu j request [] := by
  rw [statusPackage, statusPackage, responseStatus, responseStatus]
  cases request.requestType with
  | priorityRequestUpdate =>
      cases setting.searchStatus obu.vehicleType obu.obuName with
      | granted =>
          dsimp only
          split_ifs <;> simp_all [SignalStatusPackage.unlocked]
      | _ => rfl
  | _ => rfl

/-- A package is granted only if none of its list is. -/
theorem countP_of_granted {j : ℕ} {request : SignalRequestPackage Lane}
    {package : SignalStatusPackage Lane}
    (hpackage : statusPackage setting obu j request tab = some package)
    (hgranted : package.isGranted = true) : tab.countP SignalStatusPackage.isGranted = 0 := by
  obtain ⟨status, hstatus, rfl⟩ := Option.map_eq_some_iff.mp hpackage
  have hgranted : status = .granted := of_decide_eq_true hgranted
  subst hgranted
  rw [List.countP_eq_zero]
  intro other hmem hother
  have hany : (tab.any fun package => package.status = .granted) = true :=
    List.any_eq_true.mpr ⟨other, hmem, hother⟩
  rw [responseStatus] at hstatus
  split at hstatus
  · cases hstatus
  · split at hstatus
    · cases hstatus
    · cases hstatus
    · rw [if_pos hany] at hstatus
      cases hstatus
    · cases hstatus
  · cases hstatus
  · cases hstatus

theorem statusListOk_concat {j : ℕ} {request : SignalRequestPackage Lane}
    (htab : StatusListOk setting tab) (hroom : tab.length < setting.listMax) :
    StatusListOk setting (tab ++ (statusPackage setting obu j request tab).toList) := by
  cases hpackage : statusPackage setting obu j request tab with
  | none => simpa using htab
  | some package =>
      refine ⟨by simpa using Nat.succ_le_of_lt hroom, ?_⟩
      rw [Option.toList_some, List.countP_append, List.countP_singleton]
      split_ifs with hgranted
      · rw [countP_of_granted hpackage hgranted]
      · exact htab.granted_le

theorem statusListOk_answerRequests {js : List ℕ} {filled : List (SignalStatusPackage Lane)}
    (htab : StatusListOk setting tab)
    (hanswer : answerRequests setting obu js tab = some filled) : StatusListOk setting filled := by
  induction js generalizing tab with
  | nil => exact Option.some.inj hanswer ▸ htab
  | cons j js ih =>
      rw [answerRequests] at hanswer
      split_ifs at hanswer with hroom
      · cases hlookup : obu.sigRequestList[j]? with
        | none => simp [hlookup] at hanswer
        | some request =>
            rw [hlookup] at hanswer
            exact ih (statusListOk_concat htab hroom) hanswer
      · exact Option.some.inj hanswer ▸ htab

theorem append_comp (first second : List (SignalStatusPackage Lane)) :
    (first ++ ·) ∘ (second ++ ·) = (first ++ second ++ ·) := by
  funext packages
  rw [Function.comp_apply, List.append_assoc]

/-- What a list gets is what there is room for. -/
theorem map_answerRequests (js : List ℕ) (hlength : tab.length ≤ setting.listMax) :
    (answerRequests setting obu js tab).map (List.map .unlocked) =
      (taken setting obu js (setting.listMax - tab.length)).map (tab.map .unlocked ++ ·) := by
  induction js generalizing tab with
  | nil => simp [answerRequests, taken]
  | cons j js ih =>
      rw [answerRequests]
      split_ifs with hroom
      · obtain ⟨room, hsub⟩ := Nat.exists_eq_succ_of_ne_zero (Nat.sub_ne_zero_of_lt hroom)
        rw [hsub, taken, SpmObuObj.answer]
        split_ifs with hj
        · rw [Vector.getElem?_eq_getElem hj, Option.bind_some]
          have hunlocked : (statusPackage setting obu j obu.sigRequestList[j] tab).map .unlocked =
              statusPackage setting obu j obu.sigRequestList[j] [] :=
            map_unlocked_statusPackage j _
          dsimp only
          rw [← hunlocked]
          cases statusPackage setting obu j obu.sigRequestList[j] tab with
          | none =>
              rw [Option.toList_none, List.append_nil, ih hlength, hsub]
              rfl
          | some package =>
              have hlength : (tab ++ [package]).length ≤ setting.listMax := by
                simpa using Nat.succ_le_of_lt hroom
              rw [Option.toList_some, ih hlength, List.length_append, List.length_singleton,
                ← Nat.sub_sub, hsub, Nat.succ_sub_one, List.map_append, Option.map_some]
              simp [Function.comp_def]
        · rw [Vector.getElem?_eq_none (Nat.le_of_not_lt hj)]
          rfl
      · rw [Nat.sub_eq_zero_of_le (Nat.le_of_not_lt hroom), taken]
        simp

/-- A status list goes as far as there is room or there are vehicles, and the live ones that it
passes stay. -/
theorem fillStatus_spec {filled : Filled _ Lane places} (htab : StatusListOk setting tab)
    (hfill : fillStatus setting obus tab = some filled) :
    StatusListOk setting filled.tab ∧
      (filled.rest = [] ∨ filled.tab.length = setting.listMax) ∧
      filled.passed ++ filled.rest.filter (fun obu => !obu.expired setting) =
        obus.filter fun obu => !obu.expired setting := by
  induction obus generalizing tab filled with
  | nil =>
      rw [← Option.some.inj hfill]
      exact ⟨htab, Or.inl rfl, rfl⟩
  | cons obu obus ih =>
      rw [fillStatus] at hfill
      split_ifs at hfill with hroom hexpired
      · obtain ⟨hok, hrest, hpassed⟩ := ih htab hfill
        exact ⟨hok, hrest, by simpa [hexpired] using hpassed⟩
      · cases hanswer : answerRequests setting obu (List.range (obu.sigRequestCount + 1)) tab with
        | none => simp [hanswer] at hfill
        | some tab' =>
            simp only [hanswer, Option.map_eq_some_iff] at hfill
            obtain ⟨filled, hfill, rfl⟩ := hfill
            obtain ⟨hok, hrest, hpassed⟩ := ih (statusListOk_answerRequests htab hanswer) hfill
            exact ⟨hok, hrest, by simpa [hexpired] using hpassed⟩
      · rw [← Option.some.inj hfill]
        exact ⟨htab, Or.inr (le_antisymm htab.length_le (Nat.le_of_not_lt hroom)), rfl⟩

theorem onePass_fillStatus (htab : StatusListOk setting tab) :
    (onePass setting obus tab.length).map (tab.map .unlocked ++ ·) =
      (fillStatus setting obus tab).bind fun filled =>
        (onePass setting filled.rest filled.tab.length).map (filled.tab.map .unlocked ++ ·) := by
  induction obus generalizing tab with
  | nil => rfl
  | cons obu obus ih =>
      rw [fillStatus]
      split_ifs with hroom hexpired
      · rw [onePass, if_pos hexpired, ih htab]
      · have hanswer := @map_answerRequests _ _ setting obu _
          (List.range (obu.sigRequestCount + 1)) htab.length_le
        rw [onePass, if_neg hexpired, Nat.mod_eq_of_lt hroom]
        cases hfill : answerRequests setting obu (List.range (obu.sigRequestCount + 1)) tab with
        | none =>
            rw [hfill, Option.map_none, eq_comm, Option.map_eq_none_iff] at hanswer
            rw [hanswer]
            rfl
        | some tab' =>
            rw [hfill, Option.map_some, eq_comm, Option.map_eq_some_iff] at hanswer
            obtain ⟨own, htaken, hown⟩ := hanswer
            have hlength : tab.length + own.length = tab'.length := by
              simpa using congrArg List.length hown
            have hrest := ih (statusListOk_answerRequests htab hfill)
            rw [htaken, Option.bind_some, hlength, Option.map_map, append_comp, hown, hrest,
              Option.bind_map]
            rfl
      · rfl

/-- A new list begins when the last one is full. -/
theorem onePass_rest {filled : Filled (SignalStatusPackage Lane) Lane places}
    (hrest : filled.rest = [] ∨ filled.tab.length = setting.listMax) :
    onePass setting filled.rest filled.tab.length = onePass setting filled.rest 0 := by
  rcases hrest with hrest | hfull
  · rw [hrest]
    rfl
  · exact onePass_congr (by rw [hfull, Nat.mod_self, Nat.zero_mod])

theorem statusListOk_nil : StatusListOk setting ([] : List (SignalStatusPackage Lane)) :=
  ⟨Nat.zero_le _, Nat.zero_le _⟩

theorem onePass_new (obus : List (SpmObuObj Lane places)) :
    onePass setting obus 0 = (fillStatus setting obus []).bind fun filled =>
      (onePass setting filled.rest 0).map (filled.tab.map .unlocked ++ ·) := by
  have hpass := @onePass_fillStatus _ _ setting obus [] statusListOk_nil
  simp only [List.length_nil, List.map_nil, List.nil_append, Option.map_id'] at hpass
  rw [hpass]
  cases hfill : fillStatus setting obus [] with
  | none => rfl
  | some filled =>
      rw [Option.bind_some, Option.bind_some,
        onePass_rest (fillStatus_spec statusListOk_nil hfill).2.1]

/-- A status list is counted unless it is empty. -/
theorem statusPackages_counted (tab : List (SignalStatus Lane)) (sequenceNumber : ℕ)
    (packages : List (SignalStatusPackage Lane)) :
    statusPackages (if packages = [] then tab else tab ++ [⟨sequenceNumber, packages⟩]) =
      statusPackages tab ++ packages := by
  split_ifs with hempty
  · rw [hempty, List.append_nil]
  · simp [statusPackages]

theorem onePass_fillMessage (obus : List (SpmObuObj Lane places)) (sequenceNumber : ℕ)
    (tab : List (SignalStatus Lane)) :
    (onePass setting obus 0).map ((statusPackages tab).map .unlocked ++ ·) =
      (fillMessage setting obus sequenceNumber tab).bind fun result =>
        (onePass setting result.1.rest 0).map
          ((statusPackages result.1.tab).map .unlocked ++ ·) := by
  induction hlength : obus.length using Nat.strong_induction_on
    generalizing obus sequenceNumber tab with
  | h n ih =>
      subst hlength
      by_cases hmore : obus ≠ [] ∧ tab.length < setting.listMax
      · rw [onePass_new]
        cases hfill : fillStatus setting obus [] with
        | none => rw [fillMessage_none hmore hfill]; rfl
        | some filled =>
            have hrest := ih _ (fillStatus_rest_lt setting hmore.1 hfill) filled.rest
              ((sequenceNumber + 1) % 128)
              (if filled.tab = [] then tab else tab ++ [⟨sequenceNumber, filled.tab⟩]) rfl
            rw [statusPackages_counted, List.map_append] at hrest
            rw [fillMessage_some hmore hfill, Option.bind_some, Option.map_map, append_comp, hrest,
              Option.bind_map]
            rfl
      · rw [fillMessage_done hmore, Option.bind_some]

theorem counted_ok {tab : List (SignalStatus Lane)} (hroom : tab.length < setting.listMax)
    (htab : ∀ status ∈ tab, StatusListOk setting status.sigStatus) (sequenceNumber : ℕ)
    {packages : List (SignalStatusPackage Lane)} (hok : StatusListOk setting packages) :
    let counted := if packages = [] then tab else tab ++ [⟨sequenceNumber, packages⟩]
    counted.length ≤ setting.listMax ∧
      ∀ status ∈ counted, StatusListOk setting status.sigStatus := by
  dsimp only
  split_ifs
  · exact ⟨hroom.le, htab⟩
  · refine ⟨by simpa using Nat.succ_le_of_lt hroom, fun status hmem => ?_⟩
    rcases List.mem_append.mp hmem with hmem | hmem
    · exact htab status hmem
    · rwa [List.mem_singleton.mp hmem]

theorem fillMessage_spec {tab : List (SignalStatus Lane)} {sequenceNumber : ℕ}
    {result : Filled (SignalStatus Lane) Lane places × ℕ} (hlength : tab.length ≤ setting.listMax)
    (htab : ∀ status ∈ tab, StatusListOk setting status.sigStatus)
    (hfill : fillMessage setting obus sequenceNumber tab = some result) :
    result.1.tab.length ≤ setting.listMax ∧
      (∀ status ∈ result.1.tab, StatusListOk setting status.sigStatus) ∧
      result.1.passed ++ result.1.rest.filter (fun obu => !obu.expired setting) =
        obus.filter fun obu => !obu.expired setting := by
  induction hobus : obus.length using Nat.strong_induction_on
    generalizing obus sequenceNumber tab result with
  | h n ih =>
      subst hobus
      by_cases hmore : obus ≠ [] ∧ tab.length < setting.listMax
      · cases hstatus : fillStatus setting obus [] with
        | none => simp [fillMessage_none hmore hstatus] at hfill
        | some filled =>
            rw [fillMessage_some hmore hstatus, Option.map_eq_some_iff] at hfill
            obtain ⟨message, hrest, rfl⟩ := hfill
            obtain ⟨hok, -, hpassed⟩ := fillStatus_spec statusListOk_nil hstatus
            have hcounted := counted_ok hmore.2 htab sequenceNumber hok
            obtain ⟨hmax, hall, hlive⟩ := ih _ (fillStatus_rest_lt setting hmore.1 hstatus)
              hcounted.1 hcounted.2 hrest rfl
            refine ⟨hmax, hall, ?_⟩
            rw [← hpassed, ← hlive, List.append_assoc]
      · rw [fillMessage_done hmore] at hfill
        rw [← Option.some.inj hfill]
        exact ⟨hlength, htab, rfl⟩

theorem fillMessages_none (hne : obus ≠ []) {sequenceNumber : ℕ}
    (hfill : fillMessage setting obus sequenceNumber [] = none)
    (messages : List (SignalStatusMessage Lane)) :
    fillMessages setting obus sequenceNumber messages = none := by
  rw [fillMessages, dif_pos hne]
  split
  · rfl
  · next heq => rw [hfill] at heq; cases heq

theorem fillMessages_some (hne : obus ≠ []) {sequenceNumber : ℕ}
    {result : Filled _ Lane places × ℕ}
    (hfill : fillMessage setting obus sequenceNumber [] = some result)
    (messages : List (SignalStatusMessage Lane)) :
    fillMessages setting obus sequenceNumber messages =
      (fillMessages setting result.1.rest result.2
        (if result.1.tab = [] then messages
          else messages ++ [⟨setting.time.timeStamp, setting.time.second, result.1.tab⟩])).map
          fun round => { round with obus := result.1.passed ++ round.obus } := by
  rw [fillMessages, dif_pos hne]
  split
  · next heq => rw [hfill] at heq; cases heq
  · next heq =>
      rw [hfill] at heq
      cases heq
      rfl

theorem messagePackages_counted (messages : List (SignalStatusMessage Lane))
    (tab : List (SignalStatus Lane)) :
    messagePackages (if tab = [] then messages
      else messages ++ [⟨setting.time.timeStamp, setting.time.second, tab⟩]) =
        messagePackages messages ++ statusPackages tab := by
  split_ifs with hempty
  · rw [hempty, statusPackages, List.flatMap_nil, List.append_nil]
  · simp [messagePackages]

theorem onePass_fillMessages (obus : List (SpmObuObj Lane places)) (sequenceNumber : ℕ)
    (messages : List (SignalStatusMessage Lane)) :
    (onePass setting obus 0).map ((messagePackages messages).map .unlocked ++ ·) =
      (fillMessages setting obus sequenceNumber messages).map fun round =>
        (messagePackages round.messages).map .unlocked := by
  induction hlength : obus.length using Nat.strong_induction_on
    generalizing obus sequenceNumber messages with
  | h n ih =>
      subst hlength
      by_cases hne : obus = []
      · subst hne
        rw [fillMessages, dif_neg (not_not.mpr rfl)]
        simp [onePass]
      · have hpass := @onePass_fillMessage _ _ setting obus sequenceNumber []
        simp only [statusPackages, List.flatMap_nil, List.map_nil, List.nil_append,
          Option.map_id'] at hpass
        rw [hpass]
        cases hfill : fillMessage setting obus sequenceNumber [] with
        | none => rw [fillMessages_none hne hfill]; rfl
        | some result =>
            have hrest := ih _ (fillMessage_rest_lt setting hne hfill) result.1.rest result.2
              (if result.1.tab = [] then messages
                else messages ++ [⟨setting.time.timeStamp, setting.time.second, result.1.tab⟩]) rfl
            rw [messagePackages_counted, List.map_append] at hrest
            rw [fillMessages_some hne hfill, Option.bind_some, Option.map_map, append_comp,
              Option.map_map]
            exact hrest

theorem counted_messageOk {messages : List (SignalStatusMessage Lane)}
    {tab : List (SignalStatus Lane)}
    (hmessages : ∀ message ∈ messages, MessageOk setting message)
    (hmax : tab.length ≤ setting.listMax)
    (htab : ∀ status ∈ tab, StatusListOk setting status.sigStatus) :
    ∀ message ∈ if tab = [] then messages
      else messages ++ [⟨setting.time.timeStamp, setting.time.second, tab⟩],
        MessageOk setting message := by
  split_ifs
  · exact hmessages
  · intro message hmem
    rcases List.mem_append.mp hmem with hmem | hmem
    · exact hmessages message hmem
    · rw [List.mem_singleton.mp hmem]
      exact ⟨hmax, htab⟩

theorem fillMessages_spec {messages : List (SignalStatusMessage Lane)} {sequenceNumber : ℕ}
    {round : Round Lane places} (hmessages : ∀ message ∈ messages, MessageOk setting message)
    (hfill : fillMessages setting obus sequenceNumber messages = some round) :
    (∀ message ∈ round.messages, MessageOk setting message) ∧
      round.obus = obus.filter fun obu => !obu.expired setting := by
  induction hobus : obus.length using Nat.strong_induction_on
    generalizing obus sequenceNumber messages round with
  | h n ih =>
      subst hobus
      by_cases hne : obus = []
      · subst hne
        rw [fillMessages, dif_neg (not_not.mpr rfl)] at hfill
        rw [← Option.some.inj hfill]
        exact ⟨hmessages, rfl⟩
      · cases hmessage : fillMessage setting obus sequenceNumber [] with
        | none => simp [fillMessages_none hne hmessage] at hfill
        | some result =>
            rw [fillMessages_some hne hmessage, Option.map_eq_some_iff] at hfill
            obtain ⟨round, hrest, rfl⟩ := hfill
            obtain ⟨hmax, hall, hlive⟩ := fillMessage_spec (Nat.zero_le _)
              (fun status hmem => absurd hmem List.not_mem_nil) hmessage
            have hcounted := counted_messageOk hmessages hmax hall
            obtain ⟨hok, hobus⟩ :=
              ih _ (fillMessage_rest_lt setting hne hmessage) hcounted hrest rfl
            exact ⟨hok, by rw [← hlive, ← hobus]⟩

/-- The vehicles that are left are the live ones. -/
theorem spmRepeater_obus {obus : SpmObuList Lane places} {sequenceNumber : ℕ}
    {round : Round Lane places} (hround : spmRepeater setting obus sequenceNumber = some round) :
    round.obus = obus.entries.filter fun obu => !obu.expired setting :=
  (fillMessages_spec (fun _ hmem => absurd hmem List.not_mem_nil) hround).2

/-- The lists do not change what is answered. -/
theorem onePass_spmRepeater (obus : SpmObuList Lane places) (sequenceNumber : ℕ) :
    onePass setting obus.entries 0 = (spmRepeater setting obus sequenceNumber).map fun round =>
      (messagePackages round.messages).map .unlocked := by
  have hpass := @onePass_fillMessages _ _ setting obus.entries sequenceNumber []
  simp only [messagePackages, List.flatMap_nil, List.map_nil, List.nil_append,
    Option.map_id'] at hpass
  exact hpass

theorem answersOnce_iff_onePass (obus : SpmObuList Lane places) (sequenceNumber : ℕ) :
    AnswersOnce setting obus sequenceNumber ↔
      onePass setting obus.entries 0 = some (expectedPackages setting obus.entries) := by
  rw [onePass_spmRepeater obus sequenceNumber, Option.map_eq_some_iff]
  constructor
  · rintro ⟨round, hround, hpackages, -⟩
    exact ⟨round, hround, hpackages⟩
  · rintro ⟨round, hround, hpackages⟩
    exact ⟨round, hround, hpackages,
      (fillMessages_spec (fun _ hmem => absurd hmem List.not_mem_nil) hround).1⟩

/-- Signal status messages answer every request once exactly if the answers fit. -/
theorem answersOnce_iff (setting : Setting) (obus : SpmObuList Lane places) (sequenceNumber : ℕ) :
    AnswersOnce setting obus sequenceNumber ↔ Fit setting 0 obus.entries :=
  (answersOnce_iff_onePass obus sequenceNumber).trans (onePass_eq_iff obus.distinct 0)

/-- A vehicle has taken back one of two requests. -/
def takenBack : SpmObuObj ℕ 32 where
  id := ⟨[0, 0, 0, 1], rfl⟩
  role := .police
  obuName := .empty
  vehicleType := .policeCar
  timeSecond := 0
  sigRequestList := Vector.replicate 32 ⟨.priorityRequest, 1, 0, none, none, none, none⟩
  sigRequestCount := 1
  count_le := by decide

def processing : Setting where
  listMax := 32
  listMax_pos := by decide
  now := 0
  time := ⟨0, 0, 0, 0, 0⟩
  searchStatus := fun _ _ => .processing

theorem takenBack_answered :
    ¬ AnswersOnce processing ⟨[takenBack], List.nodup_singleton _⟩ 0 := by
  rw [answersOnce_iff_onePass]
  decide

end Loops

end AdaptiveSignal.Spm
