import AdaptiveSignal.Activation.HostLists
import AdaptiveSignal.Foundation.CircularList
import AdaptiveSignal.Foundation.Run
import AdaptiveSignal.Vehicles.Lists

/-! # The list of vehicles that left

A vehicle that left is put on a circular list with its touching area, to be kept out of the
area for the cooling time. A search walks along the list and frees the entries that have
expired. An insertion links the head into the list of the new entry instead of the entry into
the list of the head.
-/

namespace AdaptiveSignal.Signal

open Foundation

/-- `EVSP_cooling_list_head`, or an entry in allocated memory. -/
inductive CoolingNode
  | head
  | entry (address : ℕ)
  deriving DecidableEq

structure CoolingList where
  links : Links CoolingNode
  info : ℕ → EvspCoolingInfo
  /-- The addresses in use. -/
  allocated : List ℕ

/-- Each `preferred` is the choice of the allocator. -/
inductive CoolingCall
  | insert (preferred : ℕ) (obuName : HostName) (area : EvspTouchingArea) (now : ℤ)
  | search (obuName : HostName) (area : EvspTouchingArea) (now : ℤ)
  deriving DecidableEq

def CoolingCall.now : CoolingCall → ℤ
  | insert _ _ _ now => now
  | search _ _ now => now

namespace CoolingList

/-- `LIST_HEAD`, whatever lies in memory. -/
def initial (memory : ℕ → EvspCoolingInfo) : CoolingList where
  links := ⟨id, id⟩
  info := memory
  allocated := []

/-- `EVSP_cooling_list_insert`. -/
def insert (s : CoolingList) (preferred : ℕ) (obuName : HostName) (area : EvspTouchingArea)
    (now : ℤ) : CoolingList :=
  let node := Vehicles.malloc s.allocated preferred
  { links := (s.links.init (.entry node)).addTail .head (.entry node)
    info := Function.update s.info node ⟨obuName.obuName, area.touchingAreaId, now⟩
    allocated := node :: s.allocated }

/-- `list_del` and `free`. -/
def free (s : CoolingList) (pos : ℕ) : CoolingList :=
  { s with
    links := s.links.unlink (.entry pos)
    allocated := s.allocated.filter (· ≠ pos) }

variable (config : EvspConfig) (obuName : HostName) (area : EvspTouchingArea) (now : ℤ)

/-- `list_for_each_entry_safe` in `EVSP_cooling_list_search`: what is returned, unless the walk
exceeds the fuel. -/
def searchFrom : ℕ → CoolingNode → CoolingNode → CoolingList → ℤ → Option (ℤ × CoolingList)
  | 0, _, _, _, _ => none
  | _ + 1, .head, _, s, ret => some (ret, s)
  | fuel + 1, .entry pos, safe, s, ret =>
      if (s.info pos).expired config now then
        let s := s.free pos
        searchFrom fuel safe (s.links.next safe) s ret
      else if (s.info pos).isFor obuName area then
        searchFrom fuel safe (s.links.next safe) s 1
      else searchFrom fuel safe (s.links.next safe) s ret

/-- `EVSP_cooling_list_search`. No list is longer than there are entries. -/
def search (s : CoolingList) : Option (ℤ × CoolingList) :=
  let pos := s.links.next .head
  searchFrom config obuName area now (s.allocated.length + 1) pos (s.links.next pos) s (-1)

def step (s : CoolingList) : CoolingCall → CoolingList
  | .insert preferred obuName area now => s.insert preferred obuName area now
  | .search obuName area now =>
      match s.search config obuName area now with
      | some (_, s) => s
      | none => s

variable {config obuName area now} {s : CoolingList} {nodes : List ℕ}

@[simp] theorem free_info (s : CoolingList) (pos : ℕ) : (s.free pos).info = s.info := rfl

/-! ## The list that is represented -/

structure Represents (s : CoolingList) (nodes : List ℕ) : Prop where
  threads : s.links.Threads .head (nodes.map .entry)
  allocated : nodes ⊆ s.allocated

theorem represents_initial (memory : ℕ → EvspCoolingInfo) : (initial memory).Represents [] where
  threads := ⟨by simp [initial, Links.Linked], by simp⟩
  allocated := List.nil_subset _

namespace Represents

/-- Whatever was on the list, the new entry is alone on it afterwards. -/
theorem insert (s : CoolingList) (preferred : ℕ) (obuName : HostName) (area : EvspTouchingArea)
    (now : ℤ) :
    (s.insert preferred obuName area now).Represents [Vehicles.malloc s.allocated preferred] where
  threads := by
    have hnew := Links.threads_init (l := s.links)
      (h := CoolingNode.entry (Vehicles.malloc s.allocated preferred))
    have hlinked := hnew.addTail (q := CoolingNode.head) (by simp)
    exact (show Links.Threads _ _ ([] ++ CoolingNode.head :: []) from hlinked).rotate
  allocated := by simp [CoolingList.insert]

theorem nodup (h : s.Represents nodes) : nodes.Nodup :=
  List.Nodup.of_map _ (List.nodup_cons.mp h.threads.nodup).2

theorem length_le (h : s.Represents nodes) : nodes.length ≤ s.allocated.length :=
  (h.nodup.subperm h.allocated).length_le

theorem reaches_iff (h : s.Represents nodes) (address : ℕ) :
    s.links.Reaches .head (.entry address) ↔ address ∈ nodes := by
  rw [h.threads.reaches_iff]
  simp

/-- The entry that is freed comes off the list. -/
theorem free {before rest : List ℕ} {pos : ℕ} (h : s.Represents (before ++ pos :: rest)) :
    (s.free pos).Represents (before ++ rest) where
  threads := by
    have hl := h.threads
    rw [List.map_append, List.map_cons] at hl
    rw [List.map_append]
    change (s.links.unlink (.entry pos)).Threads .head _
    rw [hl.unlink_eq]
    exact hl.remove
  allocated := by
    intro address haddress
    have hpos := (List.nodup_cons.mp (List.nodup_middle.mp h.nodup)).1
    refine List.mem_filter.mpr ⟨h.allocated ?_, ?_⟩
    · exact ((List.sublist_cons_self pos rest).append_left before).subset haddress
    · exact decide_eq_true (ne_of_mem_of_not_mem haddress hpos)

end Represents

/-! ## The walk of a search -/

/-- What a search finds on the rest of the list. -/
def finds (config : EvspConfig) (obuName : HostName) (area : EvspTouchingArea) (now : ℤ)
    (info : ℕ → EvspCoolingInfo) (rest : List ℕ) : Bool :=
  coolingListSearch (rest.map info) config now obuName area

/-- The entries that a search leaves. -/
def unexpired (config : EvspConfig) (now : ℤ) (info : ℕ → EvspCoolingInfo) (rest : List ℕ) :
    List ℕ :=
  rest.filter fun pos => !(info pos).expired config now

theorem finds_cons (info : ℕ → EvspCoolingInfo) (pos : ℕ) (rest : List ℕ) :
    finds config obuName area now info (pos :: rest) =
      (!(info pos).expired config now && (info pos).isFor obuName area ||
        finds config obuName area now info rest) := rfl

theorem next_pos {before rest : List ℕ} {pos : ℕ} (h : s.Represents (before ++ pos :: rest)) :
    s.links.next (.entry pos) = (rest.map .entry).headD .head := by
  have hl := h.threads
  rw [List.map_append, List.map_cons] at hl
  exact hl.linked_around.2.1

theorem searchFrom_eq {before rest : List ℕ} {fuel : ℕ} (ret : ℤ)
    (h : s.Represents (before ++ rest)) (hfuel : rest.length < fuel) :
    ∃ s', searchFrom config obuName area now fuel ((rest.map .entry).headD .head)
        (s.links.next ((rest.map .entry).headD .head)) s ret =
          some (if finds config obuName area now s.info rest then 1 else ret, s') ∧
      s'.Represents (before ++ unexpired config now s.info rest) ∧ s'.info = s.info := by
  induction rest generalizing before fuel s ret with
  | nil =>
      obtain ⟨fuel, rfl⟩ := Nat.exists_eq_succ_of_ne_zero (Nat.ne_of_gt hfuel)
      exact ⟨s, rfl, h, rfl⟩
  | cons pos rest ih =>
      obtain ⟨fuel, rfl⟩ := Nat.exists_eq_succ_of_ne_zero (Nat.ne_zero_of_lt hfuel)
      have hrest := Nat.lt_of_succ_lt_succ hfuel
      rw [List.map_cons, List.headD_cons, next_pos h, searchFrom]
      cases hexpired : (s.info pos).expired config now with
      | true =>
          obtain ⟨s', hsearch, hrep, hinfo⟩ := ih ret h.free hrest
          rw [free_info] at hsearch hrep hinfo
          refine ⟨s', ?_, ?_, hinfo⟩
          · simpa [finds_cons, hexpired] using hsearch
          · simpa [unexpired, hexpired] using hrep
      | false =>
          -- An entry that stays joins those passed.
          have hstays : s.Represents ((before ++ [pos]) ++ rest) := by
            rwa [List.append_assoc]
          cases hfor : (s.info pos).isFor obuName area with
          | true =>
              obtain ⟨s', hsearch, hrep, hinfo⟩ := ih 1 hstays hrest
              refine ⟨s', ?_, ?_, hinfo⟩
              · simpa [finds_cons, hexpired, hfor] using hsearch
              · simpa [unexpired, hexpired] using hrep
          | false =>
              obtain ⟨s', hsearch, hrep, hinfo⟩ := ih ret hstays hrest
              refine ⟨s', ?_, ?_, hinfo⟩
              · simpa [finds_cons, hexpired, hfor] using hsearch
              · simpa [unexpired, hexpired] using hrep

theorem Represents.search (h : s.Represents nodes) (config : EvspConfig) (obuName : HostName)
    (area : EvspTouchingArea) (now : ℤ) :
    ∃ s', s.search config obuName area now =
        some (if coolingListSearch (nodes.map s.info) config now obuName area then 1 else -1, s') ∧
      s'.Represents (unexpired config now s.info nodes) ∧ s'.info = s.info := by
  have hrest : s.Represents ([] ++ nodes) := h
  have hwalk := @searchFrom_eq config obuName area now s _ _ _ (-1) hrest
    (Nat.lt_succ_of_le h.length_le)
  rw [CoolingList.search, h.threads.next_head]
  exact hwalk

/-! ## Runs -/

/-- The entries on the list, as the handlers of the packets have them. -/
def listStep (config : EvspConfig) (cooling : List EvspCoolingInfo) :
    CoolingCall → List EvspCoolingInfo
  | .insert _ obuName area now => coolingListInsert obuName area now
  | .search _ _ now => coolingListExpire cooling config now

theorem Represents.step (h : s.Represents nodes) (config : EvspConfig) (call : CoolingCall) :
    ∃ nodes', (s.step config call).Represents nodes' ∧
      nodes'.map (s.step config call).info = listStep config (nodes.map s.info) call := by
  cases call with
  | insert preferred obuName area now =>
      refine ⟨_, Represents.insert s preferred obuName area now, ?_⟩
      simp [CoolingList.step, CoolingList.insert, listStep, coolingListInsert]
  | search obuName area now =>
      obtain ⟨s', hsearch, hrep, hinfo⟩ := h.search config obuName area now
      simp only [CoolingList.step, hsearch]
      refine ⟨_, hrep, ?_⟩
      rw [hinfo, listStep, coolingListExpire, List.filter_map]
      rfl

theorem exists_represents (config : EvspConfig) (memory : ℕ → EvspCoolingInfo)
    (calls : List CoolingCall) :
    ∃ nodes, (run (step config) (initial memory) calls).Represents nodes ∧
      nodes.map (run (step config) (initial memory) calls).info =
        run (listStep config) [] calls := by
  induction calls using List.reverseRecOn with
  | nil => exact ⟨[], represents_initial memory, rfl⟩
  | append_singleton calls last ih =>
      obtain ⟨nodes, hrep, hinfos⟩ := ih
      rw [run_concat, run_concat, ← hinfos]
      exact hrep.step config last

/-- The last insertion left the entry, and no search since then has found it expired. -/
def Waiting (config : EvspConfig) (info : EvspCoolingInfo) (calls : List CoolingCall) : Prop :=
  ∃ before preferred obuName area now later,
    calls = before ++ .insert preferred obuName area now :: later ∧
      info = ⟨obuName.obuName, area.touchingAreaId, now⟩ ∧
        ∀ call ∈ later, ∃ obuName area now,
          call = .search obuName area now ∧ info.expired config now = false

theorem waiting_insert {info : EvspCoolingInfo} {calls : List CoolingCall} {preferred : ℕ} :
    Waiting config info (calls ++ [.insert preferred obuName area now]) ↔
      info = ⟨obuName.obuName, area.touchingAreaId, now⟩ := by
  constructor
  · rintro ⟨before, other, name, other', time, later, heq, rfl, hlater⟩
    rcases List.eq_nil_or_concat later with rfl | ⟨later, last, rfl⟩
    · obtain ⟨-, hlast⟩ := List.append_inj' heq rfl
      cases hlast
      rfl
    · rw [List.concat_eq_append, ← List.cons_append, ← List.append_assoc] at heq
      obtain ⟨-, hlast⟩ := List.append_inj' heq rfl
      cases hlast
      obtain ⟨_, _, _, hsearch, -⟩ := hlater (.insert preferred obuName area now) (by simp)
      cases hsearch
  · rintro rfl
    exact ⟨calls, preferred, obuName, area, now, [], rfl, rfl,
      fun call hcall => absurd hcall List.not_mem_nil⟩

theorem waiting_search {info : EvspCoolingInfo} {calls : List CoolingCall} :
    Waiting config info (calls ++ [.search obuName area now]) ↔
      Waiting config info calls ∧ info.expired config now = false := by
  constructor
  · rintro ⟨before, other, name, other', time, later, heq, rfl, hlater⟩
    rcases List.eq_nil_or_concat later with rfl | ⟨later, last, rfl⟩
    · obtain ⟨-, hlast⟩ := List.append_inj' heq rfl
      cases hlast
    · rw [List.concat_eq_append, ← List.cons_append, ← List.append_assoc] at heq
      obtain ⟨hbefore, hlast⟩ := List.append_inj' heq rfl
      cases hlast
      obtain ⟨_, _, _, hsearch, hexpired⟩ := hlater (.search obuName area now) (by simp)
      cases hsearch
      exact ⟨⟨before, other, name, other', time, later, hbefore, rfl,
        fun call hcall => hlater call (by simp [hcall])⟩, hexpired⟩
  · rintro ⟨⟨before, other, name, other', time, later, rfl, rfl, hlater⟩, hexpired⟩
    refine ⟨before, other, name, other', time, later ++ [.search obuName area now], by simp, rfl,
      fun call hcall => ?_⟩
    rcases List.mem_append.mp hcall with hcall | hcall
    · exact hlater call hcall
    · exact ⟨obuName, area, now, List.mem_singleton.mp hcall, hexpired⟩

theorem mem_run_iff {info : EvspCoolingInfo} {calls : List CoolingCall} :
    info ∈ run (listStep config) [] calls ↔ Waiting config info calls := by
  induction calls using List.reverseRecOn with
  | nil => simp [Waiting]
  | append_singleton calls last ih =>
      rw [run_concat]
      cases last with
      | insert preferred obuName area now =>
          rw [waiting_insert, listStep, coolingListInsert, List.mem_singleton]
      | search obuName area now =>
          rw [waiting_search, ← ih, listStep, coolingListExpire, List.mem_filter]
          simp

/-! ## What is remembered -/

/-- The insertion of a vehicle of this name and area no longer ago than the cooling time. -/
def within (config : EvspConfig) (obuName : HostName) (area : EvspTouchingArea) (now : ℤ) :
    CoolingCall → Prop
  | .insert _ name other time =>
      strncmpEq obuNameMaxLen name obuName = true ∧
        other.touchingAreaId = area.touchingAreaId ∧ now - time ≤ config.coolingTime.toNat
  | .search _ _ _ => False

/-- Every search finds what was inserted within the cooling time, and no insertion cuts off the
entry of another vehicle or area. -/
structure Remembers (config : EvspConfig) (memory : ℕ → EvspCoolingInfo)
    (calls : List CoolingCall) : Prop where
  answers : ∀ before obuName area now, before ++ [.search obuName area now] <+: calls →
    ∃ ret s', (run (step config) (initial memory) before).search config obuName area now =
        some (ret, s') ∧
      (ret = 1 ↔ ∃ call ∈ before, within config obuName area now call)
  keeps : ∀ before preferred obuName area now,
    before ++ [.insert preferred obuName area now] <+: calls → ∀ address,
      (run (step config) (initial memory) before).links.Reaches .head (.entry address) →
        ((run (step config) (initial memory) before).info address).isFor obuName area = false →
          (run (step config) (initial memory)
            (before ++ [.insert preferred obuName area now])).links.Reaches
              .head (.entry address)

/-- Before an insertion, the previous one was for the same vehicle and area, or a search since
then has found it expired. -/
def KeptApart (config : EvspConfig) (calls : List CoolingCall) : Prop :=
  ∀ before preferred obuName area now,
    before ++ [.insert preferred obuName area now] <+: calls →
      ∀ info, Waiting config info before → info.isFor obuName area = true

theorem KeptApart.of_prefix {first calls : List CoolingCall} (h : KeptApart config calls)
    (hfirst : first <+: calls) : KeptApart config first :=
  fun before preferred obuName area now hinsert =>
    h before preferred obuName area now (hinsert.trans hfirst)

theorem isFor_iff {info : EvspCoolingInfo} :
    info.isFor obuName area = true ↔
      strncmpEq obuNameMaxLen info.obuName obuName = true ∧
        info.touchingAreaId = area.touchingAreaId := by
  simp [EvspCoolingInfo.isFor]

theorem expired_eq_false {info : EvspCoolingInfo} :
    info.expired config now = false ↔ now - info.terminateTime ≤ config.coolingTime.toNat := by
  simp [EvspCoolingInfo.expired]

theorem strncmpEq_obuName (name other : HostName) :
    strncmpEq obuNameMaxLen name.obuName other = strncmpEq obuNameMaxLen name other := by
  simp [strncmpEq, HostName.obuName, List.take_take]

/-- Where the insertions are kept apart, one within the cooling time has an entry. -/
theorem exists_waiting {calls : List CoolingCall} {now : ℤ} (hapart : KeptApart config calls)
    (hsorted : (calls.map CoolingCall.now).Pairwise (· ≤ ·))
    (hnow : ∀ call ∈ calls, call.now ≤ now) {call : CoolingCall} (hcall : call ∈ calls)
    (hwithin : within config obuName area now call) :
    ∃ info, Waiting config info calls ∧ info.isFor obuName area = true ∧
      info.expired config now = false := by
  induction calls using List.reverseRecOn with
  | nil => exact absurd hcall List.not_mem_nil
  | append_singleton calls last ih =>
      rw [List.map_append, List.pairwise_append] at hsorted
      have hearlier := ih (hapart.of_prefix (List.prefix_append calls [last])) hsorted.1
        fun call hcall => hnow call (List.mem_append_left _ hcall)
      cases last with
      | insert preferred name other time =>
          refine ⟨_, waiting_insert.mpr rfl, ?_⟩
          rcases List.mem_append.mp hcall with hcall | hcall
          -- The entry before the last one was for the vehicle and the area of both.
          · obtain ⟨info, hwaiting, hfor, hexpired⟩ := hearlier hcall
            have hsame := isFor_iff.mp (hapart calls preferred name other time List.prefix_rfl
              info hwaiting)
            have hfor := isFor_iff.mp hfor
            have htime : info.terminateTime ≤ time := by
              obtain ⟨before, _, _, _, inserted, later, rfl, rfl, -⟩ := hwaiting
              exact hsorted.2.2 inserted (by simp [CoolingCall.now]) time
                (by simp [CoolingCall.now])
            rw [expired_eq_false] at hexpired
            refine ⟨isFor_iff.mpr ⟨?_, hsame.2.symm.trans hfor.2⟩, expired_eq_false.mpr ?_⟩
            · simp only [strncmpEq_obuName]
              simp only [strncmpEq, decide_eq_true_eq] at hsame hfor ⊢
              exact hsame.1.symm.trans hfor.1
            · change now - time ≤ _
              omega
          · obtain rfl := List.mem_singleton.mp hcall
            obtain ⟨hname, harea, htime⟩ := hwithin
            refine ⟨isFor_iff.mpr ⟨?_, harea⟩, expired_eq_false.mpr htime⟩
            rwa [strncmpEq_obuName]
      | search name other time =>
          rcases List.mem_append.mp hcall with hcall | hcall
          · obtain ⟨info, hwaiting, hfor, hexpired⟩ := hearlier hcall
            refine ⟨info, waiting_search.mpr ⟨hwaiting, ?_⟩, hfor, hexpired⟩
            have htime : time ≤ now := hnow (.search name other time) (by simp)
            rw [expired_eq_false] at hexpired ⊢
            omega
          · obtain rfl := List.mem_singleton.mp hcall
            exact absurd hwithin id

theorem within_of_waiting {calls : List CoolingCall} {info : EvspCoolingInfo}
    (hwaiting : Waiting config info calls) (hfor : info.isFor obuName area = true)
    (hexpired : info.expired config now = false) :
    ∃ call ∈ calls, within config obuName area now call := by
  obtain ⟨before, preferred, name, other, time, later, rfl, rfl, -⟩ := hwaiting
  obtain ⟨hname, harea⟩ := isFor_iff.mp hfor
  refine ⟨.insert preferred name other time, by simp, ?_, harea, expired_eq_false.mp hexpired⟩
  rwa [strncmpEq_obuName] at hname

theorem search_iff (config : EvspConfig) (memory : ℕ → EvspCoolingInfo)
    (calls : List CoolingCall) (obuName : HostName) (area : EvspTouchingArea) (now : ℤ) :
    ∃ ret s', (run (step config) (initial memory) calls).search config obuName area now =
        some (ret, s') ∧
      (ret = 1 ↔ ∃ info, Waiting config info calls ∧ info.isFor obuName area = true ∧
        info.expired config now = false) := by
  obtain ⟨nodes, hrep, hinfos⟩ := exists_represents config memory calls
  obtain ⟨s', hsearch, -⟩ := hrep.search config obuName area now
  refine ⟨_, s', hsearch, ?_⟩
  have hfound : coolingListSearch (run (listStep config) [] calls) config now obuName area =
      true ↔ ∃ info, Waiting config info calls ∧ info.isFor obuName area = true ∧
        info.expired config now = false := by
    simp only [coolingListSearch, List.any_eq_true, mem_run_iff, Bool.and_eq_true,
      Bool.not_eq_true', and_comm]
  rw [hinfos, ← hfound]
  split_ifs with h <;> simp [h]

/-- An entry of another vehicle or area that is still there is cut off. -/
theorem keeps_iff {calls : List CoolingCall} {preferred : ℕ} (memory : ℕ → EvspCoolingInfo) :
    (∀ address,
      (run (step config) (initial memory) calls).links.Reaches .head (.entry address) →
        ((run (step config) (initial memory) calls).info address).isFor obuName area = false →
          (run (step config) (initial memory)
            (calls ++ [.insert preferred obuName area now])).links.Reaches
              .head (.entry address)) ↔
      ∀ info, Waiting config info calls → info.isFor obuName area = true := by
  obtain ⟨nodes, hrep, hinfos⟩ := exists_represents config memory calls
  have hinsert := Represents.insert (run (step config) (initial memory) calls) preferred obuName
    area now
  rw [run_concat]
  constructor
  · intro hkeeps info hwaiting
    rw [← mem_run_iff, ← hinfos] at hwaiting
    obtain ⟨address, haddress, rfl⟩ := List.mem_map.mp hwaiting
    by_contra hfor
    have hreach := hkeeps address ((hrep.reaches_iff address).mpr haddress)
      (Bool.not_eq_true _ ▸ hfor)
    have hnew := (hinsert.reaches_iff address).mp hreach
    rw [List.mem_singleton.mp hnew] at haddress
    exact Vehicles.ObuLists.malloc_notMem _ _ (hrep.allocated haddress)
  · intro hall address hreach hfor
    have haddress := (hrep.reaches_iff address).mp hreach
    have hwaiting := hall _ (mem_run_iff.mp (hinfos ▸ List.mem_map_of_mem haddress))
    rw [hwaiting] at hfor
    cases hfor

/-- At times that do not decrease, everything is remembered exactly where the insertions are
kept apart. -/
theorem remembers_iff (config : EvspConfig) (memory : ℕ → EvspCoolingInfo)
    (calls : List CoolingCall) (hsorted : (calls.map CoolingCall.now).Pairwise (· ≤ ·)) :
    Remembers config memory calls ↔ KeptApart config calls := by
  constructor
  · intro h before preferred obuName area now hinsert
    exact (keeps_iff memory).mp (h.keeps before preferred obuName area now hinsert)
  · intro hapart
    refine ⟨fun before obuName area now hsearch => ?_,
      fun before preferred obuName area now hinsert =>
        (keeps_iff memory).mpr (hapart before preferred obuName area now hinsert)⟩
    obtain ⟨ret, s', hret, hiff⟩ := search_iff config memory before obuName area now
    refine ⟨ret, s', hret, hiff.trans ⟨?_, ?_⟩⟩
    · rintro ⟨info, hwaiting, hfor, hexpired⟩
      exact within_of_waiting hwaiting hfor hexpired
    · rintro ⟨call, hcall, hwithin⟩
      have hfirst := hsorted.sublist (hsearch.sublist.map CoolingCall.now)
      rw [List.map_append, List.pairwise_append] at hfirst
      refine exists_waiting (hapart.of_prefix ((List.prefix_append before _).trans hsearch))
        hfirst.1 (fun call hcall => ?_) hcall hwithin
      exact hfirst.2.2 call.now (List.mem_map_of_mem hcall) now (by simp [CoolingCall.now])

theorem remembers_iff_one :
    Remembers ⟨3, 360, []⟩ (fun _ => ⟨.empty, 0, 0⟩)
        [.insert 0 ⟨['A', '1'], by decide⟩ ⟨1, []⟩ 0,
          .search ⟨['A', '1'], by decide⟩ ⟨1, []⟩ 300] ↔
      KeptApart ⟨3, 360, []⟩
        [.insert 0 ⟨['A', '1'], by decide⟩ ⟨1, []⟩ 0,
          .search ⟨['A', '1'], by decide⟩ ⟨1, []⟩ 300] :=
  remembers_iff _ _ _ (by decide)

/-- A second vehicle leaves a second after the first one, which may come back at once. -/
theorem first_vehicle_forgotten :
    ¬ Remembers ⟨3, 360, []⟩ (fun _ => ⟨.empty, 0, 0⟩)
      [.insert 0 ⟨['A', '1'], by decide⟩ ⟨1, []⟩ 0,
        .insert 1 ⟨['A', '2'], by decide⟩ ⟨2, []⟩ 1,
        .search ⟨['A', '1'], by decide⟩ ⟨1, []⟩ 2] := by
  intro h
  obtain ⟨ret, s', hret, hiff⟩ := h.answers
    [.insert 0 ⟨['A', '1'], by decide⟩ ⟨1, []⟩ 0, .insert 1 ⟨['A', '2'], by decide⟩ ⟨2, []⟩ 1]
    ⟨['A', '1'], by decide⟩ ⟨1, []⟩ 2 List.prefix_rfl
  have hone := hiff.mpr ⟨.insert 0 ⟨['A', '1'], by decide⟩ ⟨1, []⟩ 0, by simp,
    by simp [within, strncmpEq]⟩
  have hfound : ((run (step ⟨3, 360, []⟩) (initial fun _ => ⟨.empty, 0, 0⟩)
      [.insert 0 ⟨['A', '1'], by decide⟩ ⟨1, []⟩ 0,
        .insert 1 ⟨['A', '2'], by decide⟩ ⟨2, []⟩ 1]).search ⟨3, 360, []⟩
          ⟨['A', '1'], by decide⟩ ⟨1, []⟩ 2).map Prod.fst = some (-1) := by decide +kernel
  rw [hret, hone] at hfound
  cases hfound

end CoolingList

end AdaptiveSignal.Signal
