import AdaptiveSignal.Activation.Accounting
import AdaptiveSignal.Foundation.SinglyLinked
import AdaptiveSignal.Vehicles.Lists

/-! # The list of emergency vehicles in memory

The host vehicles are objects in allocated memory, each with the address of the next one. Every
access goes through an address, which may be `NULL` or the address of an object that has been
freed. As long as no access goes wrong, the objects are the entries of the keyed list that the
handlers of packets work on.
-/

namespace AdaptiveSignal.Signal

open Foundation

/-- What goes wrong: `NULL` or a freed object is accessed, or a walk along the list does not
end. -/
inductive HostFault
  | null
  | freed
  | endless
  deriving DecidableEq

/-- `EVSP_host_OBU_obj_t`. -/
structure HostCell where
  obu : EvspHostObu
  next : Option ℕ

structure HostMemory where
  /-- `EVSP_host_OBU_list_head`. -/
  head : Option ℕ
  cell : ℕ → HostCell
  /-- The addresses in use. -/
  allocated : List ℕ

namespace HostMemory

/-- No vehicle is listed, whatever lies in memory. -/
def initial (memory : ℕ → HostCell) : HostMemory where
  head := none
  cell := memory
  allocated := []

/-! ## Accesses -/

def load (s : HostMemory) : Option ℕ → Except HostFault HostCell
  | none => .error .null
  | some address => if address ∈ s.allocated then .ok (s.cell address) else .error .freed

def store (s : HostMemory) (cell : HostCell) : Option ℕ → Except HostFault HostMemory
  | none => .error .null
  | some address =>
      if address ∈ s.allocated then .ok { s with cell := Function.update s.cell address cell }
      else .error .freed

/-- `EVSP_host_OBU_obj_new`: the memory is cleared first. -/
def new (s : HostMemory) (address : ℕ) (obuName : HostName) (targetPhase : UInt8)
    (area : EvspTouchingArea) : HostMemory :=
  { s with
    cell := Function.update s.cell address ⟨.new obuName targetPhase area, none⟩
    allocated := address :: s.allocated }

/-- `free`. -/
def free (s : HostMemory) (address : ℕ) : HostMemory :=
  { s with allocated := s.allocated.filter (· ≠ address) }

/-! ## The operations on the list -/

/-- The loops over the list until a vehicle of the name: the node before it and its own. -/
def walk (s : HostMemory) (obuName : HostName) :
    ℕ → Option ℕ → Option ℕ → Except HostFault (Option ℕ × Option ℕ)
  | 0, _, _ => .error .endless
  | _ + 1, previous, none => .ok (previous, none)
  | fuel + 1, previous, some current => do
      let cell ← s.load (some current)
      if strncmpEq obuNameMaxLen cell.obu.obuName obuName then .ok (previous, some current)
      else s.walk obuName fuel (some current) cell.next

/-- No list is longer than there are objects. -/
def fuel (s : HostMemory) : ℕ := s.allocated.length + 1

/-- `EVSP_host_OBU_obj_update`; without a record it returns at once. -/
def update (s : HostMemory) (current : ℕ) (info : Option EvspObuUpdateInfo) :
    Except HostFault HostMemory :=
  match info with
  | none => .ok s
  | some info => do
      let cell ← s.load (some current)
      s.store { cell with obu := cell.obu.update info } (some current)

/-- `EVSP_host_OBU_obj_insert`; `preferred` is the choice of the allocator. -/
def insert (s : HostMemory) (preferred : ℕ) (obuName : HostName) (targetPhase : UInt8)
    (area : EvspTouchingArea) (info : EvspObuUpdateInfo) : Except HostFault HostMemory :=
  let new := Vehicles.malloc s.allocated preferred
  match s.head with
  | none => { s.new new obuName targetPhase area with head := some new }.update new (some info)
  | some head => do
      let (previous, current) ← s.walk obuName s.fuel (some head) (some head)
      match current with
      | some current => s.update current (some info)
      | none => do
          let s := s.new new obuName targetPhase area
          let cell ← s.load previous
          let s ← s.store { cell with next := some new } previous
          s.update new (some info)

/-- `EVSP_host_OBU_obj_search`. -/
def search (s : HostMemory) (obuName : HostName) (info : Option EvspObuUpdateInfo) :
    Except HostFault (Option ℕ × HostMemory) := do
  let (_, current) ← s.walk obuName s.fuel none s.head
  match current with
  | some address => do
      let s ← s.update address info
      return (current, s)
  | none => return (none, s)

/-- `EVSP_host_OBU_obj_delete`. That the vehicle found is the head is asked before whether one
was found. -/
def delete (s : HostMemory) (obuName : HostName) : Except HostFault HostMemory := do
  let (previous, current) ← s.walk obuName s.fuel none s.head
  let s ←
    if current = s.head then do
      let cell ← s.load current
      pure { s with head := cell.next }
    else if current ≠ none then do
      let cell ← s.load current
      let before ← s.load previous
      s.store { before with next := cell.next } previous
    else pure s
  match current with
  | some address => do
      -- the timers are deleted first
      let _ ← s.load (some address)
      return s.free address
  | none => return s

/-- `EVSP_host_OBU_obj_resume`. -/
def resumeFrom (s : HostMemory) (targetPhase : UInt8) : ℕ → Option ℕ → Except HostFault Bool
  | 0, _ => .error .endless
  | _ + 1, none => .ok true
  | fuel + 1, some current => do
      let cell ← s.load (some current)
      if cell.obu.targetPhase = targetPhase then .ok false
      else s.resumeFrom targetPhase fuel cell.next

/-- The vehicles that `EVSP_host_OBU_obj_print` lists. -/
def printFrom (s : HostMemory) : ℕ → Option ℕ → Except HostFault (List EvspHostObu)
  | 0, _ => .error .endless
  | _ + 1, none => .ok []
  | fuel + 1, some current => do
      let cell ← s.load (some current)
      let rest ← s.printFrom fuel cell.next
      return cell.obu :: rest

def print (s : HostMemory) : Except HostFault (List EvspHostObu) := s.printFrom s.fuel s.head

/-- What both handlers of timeouts do with the object of the timer. -/
def timeoutHandler (s : HostMemory) (obuObj : ℕ) : Except HostFault HostMemory := do
  let host ← s.load (some obuObj)
  let s ← s.delete host.obu.obuName
  let _ ← s.resumeFrom host.obu.targetPhase s.fuel s.head
  -- the name is logged
  let _ ← s.load (some obuObj)
  let _ ← s.print
  return s

/-- `EVSP_host_OBU_packet_timeout_timer_handler`. -/
def packetTimeoutHandler (s : HostMemory) (obuObj : ℕ) : Except HostFault HostMemory :=
  s.timeoutHandler obuObj

/-- `EVSP_host_OBU_list_timeout_timer_handler`. -/
def listTimeoutHandler (s : HostMemory) (obuObj : ℕ) : Except HostFault HostMemory :=
  s.timeoutHandler obuObj

end HostMemory

inductive HostEvent
  | insert (preferred : ℕ) (obuName : HostName) (targetPhase : UInt8) (area : EvspTouchingArea)
      (info : EvspObuUpdateInfo)
  | search (obuName : HostName) (info : Option EvspObuUpdateInfo)
  | delete (obuName : HostName)
  | packetTimeout (obuName : HostName)
  | listTimeout (obuName : HostName)

namespace HostMemory

/-- A timer of a vehicle runs out only while the vehicle is listed. -/
def timeout (s : HostMemory) (obuName : HostName)
    (handler : HostMemory → ℕ → Except HostFault HostMemory) : Except HostFault HostMemory := do
  let (_, current) ← s.walk obuName s.fuel none s.head
  match current with
  | some obuObj => handler s obuObj
  | none => return s

def step (s : HostMemory) : HostEvent → Except HostFault HostMemory
  | .insert preferred obuName targetPhase area info =>
      s.insert preferred obuName targetPhase area info
  | .search obuName info => do
      let (_, s) ← s.search obuName info
      return s
  | .delete obuName => s.delete obuName
  | .packetTimeout obuName => s.timeout obuName packetTimeoutHandler
  | .listTimeout obuName => s.timeout obuName listTimeoutHandler

/-- The events in order, as long as no access goes wrong. -/
def outcome (s : HostMemory) (events : List HostEvent) : Except HostFault HostMemory :=
  events.foldlM step s

/-! ## The list that is represented -/

def link (s : HostMemory) (address : ℕ) : Option ℕ := (s.cell address).next

def obu (s : HostMemory) (address : ℕ) : EvspHostObu := (s.cell address).obu

/-- The links lead along these objects, which are in use and hold the entries of the list. -/
structure Represents (s : HostMemory) (nodes : List ℕ) (hosts : EvspHostObuList) : Prop where
  segment : Segment s.link s.head nodes none
  nodup : nodes.Nodup
  allocated : nodes ⊆ s.allocated
  entries : hosts.entries = nodes.map s.obu

variable {s : HostMemory} {nodes : List ℕ} {hosts : EvspHostObuList} {obuName : HostName}
  {address : ℕ} {host : EvspHostObu}

theorem represents_initial (memory : ℕ → HostCell) :
    (initial memory).Represents [] KeyedList.empty :=
  ⟨rfl, List.nodup_nil, List.nil_subset _, rfl⟩

theorem load_of_mem (haddress : address ∈ s.allocated) :
    s.load (some address) = .ok (s.cell address) :=
  if_pos haddress

theorem store_of_mem (cell : HostCell) (haddress : address ∈ s.allocated) :
    s.store cell (some address) = .ok { s with cell := Function.update s.cell address cell } :=
  if_pos haddress

theorem strncmpEq_iff {a b : HostName} :
    strncmpEq obuNameMaxLen a b = true ↔ a.obuName = b.obuName := by
  simp [strncmpEq, HostName.obuName]

/-- Names that are stored alike are looked for alike. -/
theorem walk_congr {a b : HostName} (hname : a.obuName = b.obuName) : s.walk a = s.walk b := by
  have hcompare (name : HostName) :
      strncmpEq obuNameMaxLen name a = strncmpEq obuNameMaxLen name b := by
    rw [Bool.eq_iff_iff, strncmpEq_iff, strncmpEq_iff, hname]
  funext fuel previous current
  induction fuel generalizing previous current with
  | zero => rfl
  | succ fuel ih =>
      cases current with
      | none => rfl
      | some current => simp only [walk, hcompare, ih]

theorem Represents.length_lt_fuel (h : s.Represents nodes hosts) : nodes.length < s.fuel :=
  Nat.lt_succ_of_le (h.nodup.subperm h.allocated).length_le

/-! ## Walks -/

/-- A walk goes past the vehicles of other names. -/
theorem walk_skip {before : List ℕ} {current middle : Option ℕ}
    (hsegment : Segment s.link current before middle) (hmem : before ⊆ s.allocated)
    (hother : ∀ a ∈ before, (s.obu a).key ≠ obuName.obuName) (fuel : ℕ) (previous : Option ℕ) :
    s.walk obuName (before.length + fuel) previous current =
      s.walk obuName fuel (before.getLast?.or previous) middle := by
  induction before generalizing current previous with
  | nil =>
      obtain rfl : current = middle := hsegment
      simp
  | cons first rest ih =>
      obtain ⟨rfl, hrest⟩ := hsegment
      have hload := load_of_mem (hmem List.mem_cons_self)
      have hname : ¬ strncmpEq obuNameMaxLen (s.cell first).obu.obuName obuName = true :=
        fun heq => hother first List.mem_cons_self (strncmpEq_iff.mp heq)
      have hlast : (first :: rest).getLast?.or previous = rest.getLast?.or (some first) := by
        cases rest with
        | nil => rfl
        | cons second rest => simp [List.getLast?_cons]
      rw [List.length_cons, Nat.add_right_comm, walk, hload, hlast]
      simp only [bind, Except.bind, hname, Bool.false_eq_true, if_false]
      exact ih hrest (fun a ha => hmem (List.mem_cons_of_mem first ha))
        (fun a ha => hother a (List.mem_cons_of_mem first ha)) (some first)

theorem Represents.key_ne (h : s.Represents nodes hosts)
    (hsearch : KeyedList.search hosts obuName.obuName = none) :
    ∀ a ∈ nodes, (s.obu a).key ≠ obuName.obuName := by
  intro a ha heq
  refine KeyedList.search_eq_none.mp hsearch ?_
  rw [h.entries]
  exact heq ▸ List.mem_map_of_mem (List.mem_map_of_mem ha)

theorem Represents.walk_absent (h : s.Represents nodes hosts)
    (hsearch : KeyedList.search hosts obuName.obuName = none) (previous : Option ℕ) :
    s.walk obuName s.fuel previous s.head = .ok (nodes.getLast?.or previous, none) := by
  obtain ⟨more, hmore⟩ := Nat.exists_eq_add_of_lt h.length_lt_fuel
  rw [hmore, Nat.add_assoc, walk_skip h.segment h.allocated (h.key_ne hsearch), walk]

/-- A vehicle that is found stands at one place, and a deletion takes it out there. -/
theorem Represents.walk_listed (h : s.Represents nodes hosts)
    (hsearch : KeyedList.search hosts obuName.obuName = some host) :
    ∃ before address after, nodes = before ++ address :: after ∧ s.obu address = host ∧
      (∀ a ∈ before ++ after, (s.obu a).key ≠ obuName.obuName) ∧
      (KeyedList.delete hosts obuName.obuName).entries = (before ++ after).map s.obu ∧
      ∀ previous, s.walk obuName s.fuel previous s.head =
        .ok (before.getLast?.or previous, some address) := by
  obtain ⟨first, last, hentries, hdelete, hothers⟩ := KeyedList.exists_delete hsearch
  rw [h.entries] at hentries
  obtain ⟨before, rest, rfl, rfl, hrest⟩ := List.map_eq_append_iff.mp hentries
  obtain ⟨address, after, rfl, rfl, rfl⟩ := List.map_eq_cons_iff.mp hrest
  have hother : ∀ a ∈ before ++ after, (s.obu a).key ≠ obuName.obuName := by
    intro a ha
    exact hothers (s.obu a) (by rw [← List.map_append]; exact List.mem_map_of_mem ha)
  refine ⟨before, address, after, rfl, rfl, hother, by rw [hdelete, List.map_append],
    fun previous => ?_⟩
  obtain ⟨middle, hbefore, hmiddle⟩ := Segment.append_iff.mp h.segment
  obtain rfl := hmiddle.1
  have hlength : before.length + 1 ≤ s.fuel := by
    have hlt := h.length_lt_fuel
    rw [List.length_append, List.length_cons] at hlt
    omega
  obtain ⟨more, hmore⟩ := Nat.exists_eq_add_of_le hlength
  have hload := load_of_mem (h.allocated (List.mem_append_right before List.mem_cons_self))
  have hkey : (s.obu address).key = obuName.obuName := KeyedList.search_eq_some hsearch
  have hname : strncmpEq obuNameMaxLen (s.cell address).obu.obuName obuName = true :=
    strncmpEq_iff.mpr hkey
  rw [hmore, Nat.add_assoc, walk_skip hbefore
    (fun a ha => h.allocated (List.mem_append_left _ ha))
    (fun a ha => hother a (List.mem_append_left _ ha)), Nat.add_comm 1 more, walk, hload]
  simp only [bind, Except.bind, hname, if_true]

/-! ## What the operations do -/

theorem Represents.congr {hosts' : EvspHostObuList} (h : s.Represents nodes hosts)
    (hentries : hosts'.entries = hosts.entries) : s.Represents nodes hosts' :=
  ⟨h.segment, h.nodup, h.allocated, hentries.trans h.entries⟩

/-- The object of a vehicle is brought up to date. -/
theorem Represents.update {before after : List ℕ}
    (h : s.Represents (before ++ address :: after) hosts)
    (hkey : (s.obu address).key = obuName.obuName)
    (hothers : ∀ a ∈ before ++ after, (s.obu a).key ≠ obuName.obuName)
    (info : EvspObuUpdateInfo) :
    ∃ s', s.update address (some info) = .ok s' ∧
      s'.Represents (before ++ address :: after) (hosts.seen obuName info) := by
  have hmem := h.allocated (List.mem_append_right before List.mem_cons_self)
  have hout : address ∉ before ++ after :=
    fun hin => hothers address hin hkey
  set cell' : HostCell := { s.cell address with obu := (s.obu address).update info }
  have hlink : (⟨s.head, Function.update s.cell address cell', s.allocated⟩ : HostMemory).link =
      s.link := by
    funext a
    by_cases ha : a = address
    · simp [link, ha, cell']
    · simp [link, ha]
  refine ⟨{ s with cell := Function.update s.cell address cell' }, ?_, ?_⟩
  · simp only [HostMemory.update, load_of_mem hmem, bind, Except.bind]
    exact store_of_mem cell' hmem
  refine ⟨?_, h.nodup, h.allocated, ?_⟩
  · rw [hlink]
    exact h.segment
  · have hentries := h.entries
    change List.map _ hosts.entries = _
    rw [hentries, List.map_map]
    refine List.map_congr_left fun a ha => ?_
    change (if (s.obu a).key = obuName.obuName then (s.obu a).update info else s.obu a) = _
    by_cases hself : a = address
    · subst hself
      rw [if_pos hkey]
      simp [obu, cell']
    · have ha : a ∈ before ++ after := by
        rcases List.mem_append.mp ha with ha | ha
        · exact List.mem_append_left _ ha
        · exact List.mem_append_right _ ((List.mem_cons.mp ha).resolve_left hself)
      rw [if_neg (hothers a ha)]
      simp [obu, hself]

/-- Without a record nothing is brought up to date. -/
def seenWith (hosts : EvspHostObuList) (obuName : HostName) :
    Option EvspObuUpdateInfo → EvspHostObuList
  | none => hosts
  | some info => hosts.seen obuName info

theorem seen_of_absent (hsearch : KeyedList.search hosts obuName.obuName = none)
    (info : EvspObuUpdateInfo) : hosts.seen obuName info = hosts :=
  KeyedList.update_of_absent (f := EvspHostObu.update info) (fun _ => rfl) hsearch

theorem Represents.search (h : s.Represents nodes hosts) (obuName : HostName)
    (info : Option EvspObuUpdateInfo) :
    ∃ current s', s.search obuName info = .ok (current, s') ∧
      s'.Represents nodes (seenWith hosts obuName info) := by
  cases hsearch : KeyedList.search hosts obuName.obuName with
  | none =>
      refine ⟨none, s, ?_, ?_⟩
      · simp only [HostMemory.search, h.walk_absent hsearch, bind, Except.bind]
        rfl
      · cases info with
        | none => exact h
        | some info =>
            rw [seenWith, seen_of_absent hsearch]
            exact h
  | some host =>
      obtain ⟨before, address, after, rfl, rfl, hothers, -, hwalk⟩ := h.walk_listed hsearch
      have hupdate : ∃ s', s.update address info = .ok s' ∧
          s'.Represents (before ++ address :: after) (seenWith hosts obuName info) := by
        cases info with
        | none => exact ⟨s, rfl, h⟩
        | some info => exact h.update (KeyedList.search_eq_some hsearch) hothers info
      obtain ⟨s', hs', hrep⟩ := hupdate
      refine ⟨some address, s', ?_, hrep⟩
      simp only [HostMemory.search, hwalk, bind, Except.bind, hs']
      rfl

/-- A new object is not linked yet. -/
theorem Represents.new (h : s.Represents nodes hosts) (haddress : address ∉ s.allocated)
    (obuName : HostName) (targetPhase : UInt8) (area : EvspTouchingArea) :
    (s.new address obuName targetPhase area).Represents nodes hosts where
  segment := by
    refine h.segment.congr fun a ha => ?_
    have hne : a ≠ address := ne_of_mem_of_not_mem (h.allocated ha) haddress
    simp [link, HostMemory.new, hne]
  nodup := h.nodup
  allocated := fun a ha => List.mem_cons_of_mem address (h.allocated ha)
  entries := by
    rw [h.entries]
    refine List.map_congr_left fun a ha => ?_
    have hne : a ≠ address := ne_of_mem_of_not_mem (h.allocated ha) haddress
    simp [obu, HostMemory.new, hne]

def setNext (s : HostMemory) (address : ℕ) (next : Option ℕ) : HostMemory :=
  { s with cell := Function.update s.cell address ⟨(s.cell address).obu, next⟩ }

@[simp] theorem obu_setNext (s : HostMemory) (address : ℕ) (next : Option ℕ) :
    (s.setNext address next).obu = s.obu := by
  funext a
  by_cases ha : a = address
  · simp [setNext, obu, ha]
  · simp [setNext, obu, ha]

@[simp] theorem link_setNext (s : HostMemory) (address : ℕ) (next : Option ℕ) :
    (s.setNext address next).link = Function.update s.link address next := by
  funext a
  by_cases ha : a = address
  · simp [setNext, link, ha]
  · simp [setNext, link, ha]

/-- A new object is linked from the head of an empty list. -/
theorem Represents.append_first (h : s.Represents [] hosts) (haddress : address ∈ s.allocated)
    (hnext : s.link address = none) {hosts' : EvspHostObuList}
    (hentries : hosts'.entries = hosts.entries ++ [s.obu address]) :
    { s with head := some address }.Represents [address] hosts' where
  segment := ⟨rfl, hnext⟩
  nodup := List.nodup_singleton _
  allocated := by simpa using haddress
  entries := by
    rw [hentries, h.entries]
    rfl

/-- A new object is linked from the last one. -/
theorem Represents.append_last {before : List ℕ} {last : ℕ}
    (h : s.Represents (before ++ [last]) hosts) (haddress : address ∈ s.allocated)
    (hout : address ∉ before ++ [last]) (hnext : s.link address = none)
    {hosts' : EvspHostObuList} (hentries : hosts'.entries = hosts.entries ++ [s.obu address]) :
    (s.setNext last (some address)).Represents (before ++ [last] ++ [address]) hosts' where
  segment := by
    have hnodup := h.nodup
    rw [← List.concat_eq_append, List.nodup_concat] at hnodup
    rw [link_setNext]
    exact h.segment.append_node hnodup.1 hout hnext
  nodup := by
    rw [← List.concat_eq_append]
    exact h.nodup.concat hout
  allocated := List.append_subset.mpr ⟨h.allocated, List.cons_subset.mpr
    ⟨haddress, List.nil_subset _⟩⟩
  entries := by
    simp [hentries, h.entries]

theorem Represents.exists_head (h : s.Represents nodes hosts) (hne : nodes ≠ []) :
    ∃ head, s.head = some head := by
  cases nodes with
  | nil => exact absurd rfl hne
  | cons first rest => exact ⟨first, h.segment.1⟩

theorem key_new (obuName : HostName) (targetPhase : UInt8) (area : EvspTouchingArea) :
    (EvspHostObu.new obuName targetPhase area).key = obuName.obuName :=
  obuName_obuName obuName

theorem Represents.insert_listed (h : s.Represents nodes hosts)
    (hsearch : KeyedList.search hosts obuName.obuName = some host) (preferred : ℕ)
    (targetPhase : UInt8) (area : EvspTouchingArea) (info : EvspObuUpdateInfo) :
    ∃ s', s.insert preferred obuName targetPhase area info = .ok s' ∧
      s'.Represents nodes (hosts.insertObu obuName targetPhase area info) := by
  obtain ⟨before, address, after, rfl, rfl, hothers, -, hwalk⟩ := h.walk_listed hsearch
  obtain ⟨s', hs', hrep⟩ := h.update (KeyedList.search_eq_some hsearch) hothers info
  obtain ⟨head, hhead⟩ :=
    h.exists_head (List.append_ne_nil_of_right_ne_nil before (List.cons_ne_nil address after))
  refine ⟨s', ?_, hrep.congr ?_⟩
  · have hwalk := hwalk (some head)
    rw [hhead] at hwalk
    simp only [HostMemory.insert, hhead, hwalk, bind, Except.bind]
    exact hs'
  · rw [← key_new obuName targetPhase area] at hsearch
    have hinsert := @KeyedList.insert_of_listed _ _ _ _ _ _ _ (EvspHostObu.update info)
      (fun _ => rfl) hsearch
    rw [key_new] at hinsert
    exact congrArg KeyedList.entries hinsert

/-- The object of a new vehicle is linked behind the others and then brought up to date. -/
theorem Represents.exists_linked (h : s.Represents nodes hosts)
    (hsearch : KeyedList.search hosts obuName.obuName = none) (preferred : ℕ)
    (targetPhase : UInt8) (area : EvspTouchingArea) (info : EvspObuUpdateInfo)
    (hfresh : KeyedList.search hosts (EvspHostObu.new obuName targetPhase area).key = none) :
    ∃ (t : HostMemory) (address : ℕ),
      t.obu address = .new obuName targetPhase area ∧
      (∀ a ∈ nodes, (t.obu a).key ≠ obuName.obuName) ∧
      t.Represents (nodes ++ [address]) (KeyedList.append hosts _ hfresh) ∧
      s.insert preferred obuName targetPhase area info = t.update address (some info) := by
  have hwalk := h.walk_absent hsearch
  set address := Vehicles.malloc s.allocated preferred with haddress
  have hfree : address ∉ s.allocated := Vehicles.ObuLists.malloc_notMem _ _
  have hnew := h.new hfree obuName targetPhase area
  set t := s.new address obuName targetPhase area with ht
  have hobu : t.obu address = .new obuName targetPhase area := by
    simp [ht, HostMemory.new, obu]
  have hlink : t.link address = none := by simp [ht, HostMemory.new, link]
  have hmem : address ∈ t.allocated := List.mem_cons_self
  rcases List.eq_nil_or_concat nodes with rfl | ⟨before, last, rfl⟩
  · have hhead : s.head = none := h.segment
    refine ⟨{ t with head := some address }, address, hobu, hnew.key_ne hsearch,
      hnew.append_first hmem hlink (by rw [hobu]; rfl), ?_⟩
    simp only [HostMemory.insert, hhead]
    rfl
  · rw [List.concat_eq_append] at h hwalk hnew ⊢
    have hlast : last ∈ t.allocated :=
      hnew.allocated (List.mem_append_right before List.mem_cons_self)
    have hout : address ∉ before ++ [last] := fun hin => hfree (h.allocated hin)
    have hobu' := obu_setNext t last (some address)
    refine ⟨t.setNext last (some address), address, by rw [hobu', hobu],
      by rw [hobu']; exact hnew.key_ne hsearch,
      hnew.append_last hmem hout hlink (by rw [hobu]; rfl), ?_⟩
    obtain ⟨head, hhead⟩ := h.exists_head (List.concat_ne_nil last before)
    have hwalk := hwalk (some head)
    rw [hhead] at hwalk
    simp only [HostMemory.insert, hhead, hwalk, bind, Except.bind, List.getLast?_append,
      List.getLast?_singleton, Option.some_or, ← haddress, ← ht, load_of_mem hlast,
      store_of_mem _ hlast]
    rfl

/-- A vehicle that is listed is brought up to date, another one is listed at the end. -/
theorem Represents.insert (h : s.Represents nodes hosts) (preferred : ℕ) (obuName : HostName)
    (targetPhase : UInt8) (area : EvspTouchingArea) (info : EvspObuUpdateInfo) :
    ∃ s' nodes', s.insert preferred obuName targetPhase area info = .ok s' ∧
      s'.Represents nodes' (hosts.insertObu obuName targetPhase area info) := by
  cases hsearch : KeyedList.search hosts obuName.obuName with
  | some host =>
      obtain ⟨s', hs', hrep⟩ := h.insert_listed hsearch preferred targetPhase area info
      exact ⟨s', nodes, hs', hrep⟩
  | none =>
      have hfresh :
          KeyedList.search hosts (EvspHostObu.new obuName targetPhase area).key = none := by
        rw [key_new, hsearch]
      obtain ⟨t, address, hobu, hother, hrep, heq⟩ :=
        h.exists_linked hsearch preferred targetPhase area info hfresh
      have hothers : ∀ a ∈ nodes ++ [], (t.obu a).key ≠ obuName.obuName := by
        rwa [List.append_nil]
      obtain ⟨s', hs', hrep'⟩ := hrep.update (by rw [hobu, key_new]) hothers info
      refine ⟨s', nodes ++ [address], heq.trans hs', hrep'.congr ?_⟩
      have hinsert := @KeyedList.insert_entries_of_absent _ _ _ _ _ _ (EvspHostObu.update info)
        (fun _ => rfl) hfresh
      rw [key_new] at hinsert
      exact hinsert

/-- An object that is linked nowhere is freed. -/
theorem Represents.free (h : s.Represents nodes hosts) (haddress : address ∉ nodes) :
    (s.free address).Represents nodes hosts where
  segment := h.segment
  nodup := h.nodup
  allocated := fun _ ha => List.mem_filter.mpr
    ⟨h.allocated ha, decide_eq_true (ne_of_mem_of_not_mem ha haddress)⟩
  entries := h.entries

theorem notMem_free (s : HostMemory) (address : ℕ) : address ∉ (s.free address).allocated := by
  simp [HostMemory.free]

/-- A list that is not empty stays as it is when an unlisted vehicle is deleted. -/
theorem Represents.delete_absent (h : s.Represents nodes hosts) (hne : nodes ≠ [])
    (hsearch : KeyedList.search hosts obuName.obuName = none) : s.delete obuName = .ok s := by
  obtain ⟨first, rest, rfl⟩ := List.exists_cons_of_ne_nil hne
  have hhead : (none : Option ℕ) ≠ s.head := by
    rw [h.segment.1]
    exact (Option.some_ne_none first).symm
  simp only [HostMemory.delete, h.walk_absent hsearch, bind, Except.bind, if_neg hhead]
  rfl

/-- On the empty list the deletion accesses `NULL`. -/
theorem Represents.delete_empty (h : s.Represents [] hosts) (obuName : HostName) :
    s.delete obuName = .error .null := by
  have hhead : s.head = none := h.segment
  simp only [HostMemory.delete, hhead, fuel, walk, bind, Except.bind, if_true, load]

/-- A listed vehicle is unlinked, and its object freed. -/
theorem Represents.delete_listed (h : s.Represents nodes hosts)
    (hsearch : KeyedList.search hosts obuName.obuName = some host) :
    ∃ s' nodes' address, s.delete obuName = .ok s' ∧
      s'.Represents nodes' (KeyedList.delete hosts obuName.obuName) ∧
      (∃ previous, s.walk obuName s.fuel none s.head = .ok (previous, some address)) ∧
      s.load (some address) = .ok (s.cell address) ∧ s.obu address = host ∧
      s'.load (some address) = .error .freed := by
  obtain ⟨before, address, after, rfl, hobu, hothers, hentries, hwalk⟩ := h.walk_listed hsearch
  have hmem := h.allocated (List.mem_append_right before List.mem_cons_self)
  have hout := (List.nodup_cons.mp (List.nodup_middle.mp h.nodup)).1
  have hnodup : (before ++ after).Nodup :=
    (List.nodup_cons.mp (List.nodup_middle.mp h.nodup)).2
  have hsub : before ++ after ⊆ s.allocated := fun a ha => h.allocated
    (((List.sublist_cons_self address after).append_left before).subset ha)
  have hunlinked : ∃ t : HostMemory, t.allocated = s.allocated ∧
      t.Represents (before ++ after) (KeyedList.delete hosts obuName.obuName) ∧
      s.delete obuName = (do let _ ← t.load (some address); return t.free address) := by
    rcases List.eq_nil_or_concat before with rfl | ⟨before, previous, rfl⟩
    · refine ⟨{ s with head := s.link address }, rfl,
        ⟨h.segment.2, hnodup, hsub, hentries⟩, ?_⟩
      have hhead : some address = s.head := h.segment.1.symm
      simp only [HostMemory.delete, hwalk, bind, Except.bind, if_pos hhead, load_of_mem hmem]
      rfl
    · have hhead : some address ≠ s.head := by
        intro heq
        have hfirst : address ∈ before.concat previous := by
          cases before with
          | nil => exact Option.some_injective _ (heq.trans h.segment.1) ▸ List.mem_cons_self
          | cons first before =>
              exact Option.some_injective _ (heq.trans h.segment.1) ▸ List.mem_cons_self
        exact hout (List.mem_append_left after hfirst)
      simp only [List.concat_eq_append, List.append_assoc, List.singleton_append] at *
      have hprevious := h.allocated (List.mem_append_right before List.mem_cons_self)
      refine ⟨s.setNext previous (s.link address), rfl, ⟨?_, hnodup, hsub, ?_⟩, ?_⟩
      · rw [link_setNext]
        exact h.segment.bypass h.nodup
      · rw [obu_setNext, hentries]
      · simp only [HostMemory.delete, hwalk, bind, Except.bind, if_neg hhead,
          load_of_mem hmem, List.getLast?_append, List.getLast?_singleton, Option.some_or,
          load_of_mem hprevious, store_of_mem _ hprevious]
        rfl
  obtain ⟨t, hallocated, hrep, heq⟩ := hunlinked
  refine ⟨t.free address, before ++ after, address, ?_, hrep.free hout, ⟨_, hwalk none⟩,
    load_of_mem hmem, hobu, if_neg (notMem_free t address)⟩
  rw [heq, load_of_mem (hallocated ▸ hmem)]
  rfl

/-! ## Walks that only read -/

theorem Represents.printFrom {rest : List ℕ} {current : Option ℕ}
    (hsegment : Segment s.link current rest none) (hmem : rest ⊆ s.allocated) (fuel : ℕ) :
    s.printFrom (rest.length + (fuel + 1)) current = .ok (rest.map s.obu) := by
  induction rest generalizing current with
  | nil =>
      obtain rfl : current = none := hsegment
      rw [List.length_nil, Nat.zero_add, HostMemory.printFrom]
      rfl
  | cons first rest ih =>
      obtain ⟨rfl, hrest⟩ := hsegment
      have hprinted := ih hrest fun a ha => hmem (List.mem_cons_of_mem first ha)
      have hload := load_of_mem (hmem List.mem_cons_self)
      rw [List.length_cons, Nat.add_right_comm, HostMemory.printFrom, hload]
      simp only [bind, Except.bind]
      erw [hprinted]
      rfl

theorem Represents.print (h : s.Represents nodes hosts) : s.print = .ok hosts.entries := by
  obtain ⟨more, hmore⟩ := Nat.exists_eq_add_of_lt h.length_lt_fuel
  rw [HostMemory.print, hmore, Nat.add_assoc, h.entries]
  exact Represents.printFrom h.segment h.allocated more

theorem resumeFrom_ok {rest : List ℕ} {current : Option ℕ} (targetPhase : UInt8)
    (hsegment : Segment s.link current rest none) (hmem : rest ⊆ s.allocated) (fuel : ℕ) :
    ∃ last, s.resumeFrom targetPhase (rest.length + (fuel + 1)) current = .ok last := by
  induction rest generalizing current with
  | nil =>
      obtain rfl : current = none := hsegment
      exact ⟨true, by rw [List.length_nil, Nat.zero_add, HostMemory.resumeFrom]⟩
  | cons first rest ih =>
      obtain ⟨rfl, hrest⟩ := hsegment
      have hload := load_of_mem (hmem List.mem_cons_self)
      obtain ⟨last, hlast⟩ := ih hrest fun a ha => hmem (List.mem_cons_of_mem first ha)
      rw [List.length_cons, Nat.add_right_comm, HostMemory.resumeFrom, hload]
      simp only [bind, Except.bind]
      split_ifs with hphase
      · exact ⟨false, rfl⟩
      · exact ⟨last, hlast⟩

theorem Represents.resume (h : s.Represents nodes hosts) (targetPhase : UInt8) :
    ∃ last, s.resumeFrom targetPhase s.fuel s.head = .ok last := by
  obtain ⟨more, hmore⟩ := Nat.exists_eq_add_of_lt h.length_lt_fuel
  rw [hmore, Nat.add_assoc]
  exact resumeFrom_ok targetPhase h.segment h.allocated more

/-- The handler of a timeout names the object that it has freed. -/
theorem Represents.timeout_listed (h : s.Represents nodes hosts)
    (hsearch : KeyedList.search hosts obuName.obuName = some host) :
    s.timeout obuName timeoutHandler = .error .freed := by
  obtain ⟨s', nodes', address, hdelete, hrep, ⟨previous, hwalk⟩, hload, hobu, hfreed⟩ :=
    h.delete_listed hsearch
  have hname : (s.cell address).obu.obuName.obuName = obuName.obuName := by
    change (s.obu address).key = obuName.obuName
    rw [hobu]
    exact KeyedList.search_eq_some hsearch
  have hsame : s.delete (s.cell address).obu.obuName = s.delete obuName := by
    simp only [delete, walk_congr hname]
  obtain ⟨last, hlast⟩ := hrep.resume (s.cell address).obu.targetPhase
  simp only [timeout, hwalk, bind, Except.bind, timeoutHandler, hload, hsame, hdelete, hlast,
    hfreed]

theorem Represents.timeout_absent (h : s.Represents nodes hosts)
    (hsearch : KeyedList.search hosts obuName.obuName = none)
    (handler : HostMemory → ℕ → Except HostFault HostMemory) :
    s.timeout obuName handler = .ok s := by
  simp only [timeout, h.walk_absent hsearch, bind, Except.bind]
  rfl

end HostMemory

/-! ## The vehicles that are to be listed -/

namespace HostEvent

/-- Inserted, and since then neither deleted nor timed out. -/
def hosted (names : Finset HostName) : HostEvent → Finset HostName
  | .insert _ obuName _ _ _ => Insert.insert obuName.obuName names
  | .search _ _ => names
  | .delete obuName | .packetTimeout obuName | .listTimeout obuName => names.erase obuName.obuName

/-- A deletion finds the list not empty, and no timer of a listed vehicle runs out. -/
def spares (names : Finset HostName) : HostEvent → Prop
  | .insert .. | .search .. => True
  | .delete _ => names.Nonempty
  | .packetTimeout obuName | .listTimeout obuName => obuName.obuName ∉ names

instance (names : Finset HostName) : DecidablePred (spares names)
  | .insert .. | .search .. => isTrue trivial
  | .delete _ => inferInstanceAs (Decidable names.Nonempty)
  | .packetTimeout obuName | .listTimeout obuName =>
      inferInstanceAs (Decidable (obuName.obuName ∉ names))

/-- What an event that goes well does to the list. -/
def listed (hosts : EvspHostObuList) : HostEvent → EvspHostObuList
  | .insert _ obuName targetPhase area info => hosts.insertObu obuName targetPhase area info
  | .search obuName info => HostMemory.seenWith hosts obuName info
  | .delete obuName | .packetTimeout obuName | .listTimeout obuName =>
      KeyedList.delete hosts obuName.obuName

end HostEvent

/-- The names in the list. -/
def EvspHostObuList.names (hosts : EvspHostObuList) : Finset HostName :=
  (hosts.entries.map EvspHostObu.key).toFinset

namespace HostMemory

variable {s : HostMemory} {nodes : List ℕ} {hosts : EvspHostObuList} {key : HostName}

theorem mem_names : key ∈ hosts.names ↔ (KeyedList.search hosts key).isSome = true := by
  rw [EvspHostObuList.names, List.mem_toFinset, ← not_iff_not, ← KeyedList.search_eq_none,
    Bool.not_eq_true, Option.isSome_eq_false_iff, Option.isNone_iff_eq_none]

theorem seenWith_search (obuName : HostName) (info : Option EvspObuUpdateInfo) (key : HostName) :
    KeyedList.search (seenWith hosts obuName info) key =
      if key = obuName.obuName then
        (KeyedList.search hosts key).map fun host => info.elim host (EvspHostObu.update · host)
      else KeyedList.search hosts key := by
  cases info with
  | none => simp [seenWith]
  | some info => exact seen_search obuName info key

/-- The names follow the events. -/
theorem names_listed (event : HostEvent) :
    (event.listed hosts).names = event.hosted hosts.names := by
  ext key
  rw [mem_names]
  have herase (obuName : HostName) :
      (KeyedList.search (KeyedList.delete hosts obuName.obuName) key).isSome = true ↔
        key ∈ hosts.names.erase obuName.obuName := by
    rw [Finset.mem_erase, mem_names]
    by_cases hkey : key = obuName.obuName
    · simp [hkey, KeyedList.search_delete_self]
    · simp [hkey, KeyedList.search_delete_of_ne hkey]
  cases event with
  | insert preferred obuName targetPhase area info =>
      rw [HostEvent.listed, HostEvent.hosted, insertObu_search, Finset.mem_insert, mem_names]
      split_ifs with hkey <;> simp [hkey]
  | search obuName info =>
      rw [HostEvent.listed, HostEvent.hosted, seenWith_search, mem_names]
      split_ifs <;> simp
  | delete obuName => exact herase obuName
  | packetTimeout obuName => exact herase obuName
  | listTimeout obuName => exact herase obuName

/-- No event changes the phase of a vehicle that stays listed. -/
theorem targetPhase_listed {event : HostEvent} {host host' : EvspHostObu}
    (hsearch : KeyedList.search hosts key = some host)
    (hafter : KeyedList.search (event.listed hosts) key = some host') :
    host'.targetPhase = host.targetPhase := by
  have hdelete (obuName : HostName)
      (hafter : KeyedList.search (KeyedList.delete hosts obuName.obuName) key = some host') :
      host'.targetPhase = host.targetPhase := by
    by_cases hkey : key = obuName.obuName
    · rw [hkey, KeyedList.search_delete_self] at hafter
      cases hafter
    · rw [KeyedList.search_delete_of_ne hkey, hsearch] at hafter
      cases hafter
      rfl
  cases event with
  | insert preferred obuName targetPhase area info =>
      rw [HostEvent.listed, insertObu_search, hsearch] at hafter
      split_ifs at hafter <;> cases hafter <;> rfl
  | search obuName info =>
      rw [HostEvent.listed, seenWith_search, hsearch] at hafter
      split_ifs at hafter
      · cases info <;> cases hafter <;> rfl
      · cases hafter
        rfl
  | delete obuName => exact hdelete obuName hafter
  | packetTimeout obuName => exact hdelete obuName hafter
  | listTimeout obuName => exact hdelete obuName hafter

theorem Represents.nodes_ne_nil (h : s.Represents nodes hosts) (hnames : hosts.names.Nonempty) :
    nodes ≠ [] := by
  rintro rfl
  simp [EvspHostObuList.names, h.entries] at hnames

/-- An event that spares the list does to the objects what it does to the list. -/
theorem Represents.step (h : s.Represents nodes hosts) {event : HostEvent}
    (hspares : event.spares hosts.names) :
    ∃ s' nodes', s.step event = .ok s' ∧ s'.Represents nodes' (event.listed hosts) := by
  have hdelete (obuName : HostName) (hnames : hosts.names.Nonempty) :
      ∃ s' nodes', s.delete obuName = .ok s' ∧
        s'.Represents nodes' (KeyedList.delete hosts obuName.obuName) := by
    cases hsearch : KeyedList.search hosts obuName.obuName with
    | none =>
        rw [KeyedList.delete_of_absent hsearch]
        exact ⟨s, nodes, h.delete_absent (h.nodes_ne_nil hnames) hsearch, h⟩
    | some host =>
        obtain ⟨s', nodes', -, hs', hrep, -⟩ := h.delete_listed hsearch
        exact ⟨s', nodes', hs', hrep⟩
  have htimeout (obuName : HostName) (hnames : obuName.obuName ∉ hosts.names)
      (handler : HostMemory → ℕ → Except HostFault HostMemory) :
      ∃ s' nodes', s.timeout obuName handler = .ok s' ∧
        s'.Represents nodes' (KeyedList.delete hosts obuName.obuName) := by
    have hsearch : KeyedList.search hosts obuName.obuName = none := by
      rw [mem_names, Bool.not_eq_true, Option.isSome_eq_false_iff] at hnames
      exact Option.isNone_iff_eq_none.mp hnames
    rw [KeyedList.delete_of_absent hsearch]
    exact ⟨s, nodes, h.timeout_absent hsearch handler, h⟩
  cases event with
  | insert preferred obuName targetPhase area info =>
      exact h.insert preferred obuName targetPhase area info
  | search obuName info =>
      obtain ⟨current, s', hs', hrep⟩ := h.search obuName info
      refine ⟨s', nodes, ?_, hrep⟩
      rw [HostMemory.step, hs']
      rfl
  | delete obuName => exact hdelete obuName hspares
  | packetTimeout obuName => exact htimeout obuName hspares packetTimeoutHandler
  | listTimeout obuName => exact htimeout obuName hspares listTimeoutHandler

/-- Every other event goes wrong. -/
theorem Represents.step_error (h : s.Represents nodes hosts) {event : HostEvent}
    (hspares : ¬ event.spares hosts.names) : ∃ fault, s.step event = .error fault := by
  have htimeout (obuName : HostName) (hnames : ¬ obuName.obuName ∉ hosts.names) :
      s.timeout obuName timeoutHandler = .error .freed := by
    obtain ⟨host, hsearch⟩ := Option.isSome_iff_exists.mp (mem_names.mp (not_not.mp hnames))
    exact h.timeout_listed hsearch
  cases event with
  | insert preferred obuName targetPhase area info => exact absurd trivial hspares
  | search obuName info => exact absurd trivial hspares
  | delete obuName =>
      have hentries : hosts.entries = [] := by
        have hempty := Finset.not_nonempty_iff_eq_empty.mp hspares
        simpa [EvspHostObuList.names] using hempty
      have hnodes : nodes = [] := List.map_eq_nil_iff.mp (h.entries ▸ hentries)
      exact ⟨.null, (hnodes ▸ h).delete_empty obuName⟩
  | packetTimeout obuName => exact ⟨.freed, htimeout obuName hspares⟩
  | listTimeout obuName => exact ⟨.freed, htimeout obuName hspares⟩

/-! ## Runs -/

/-- The vehicles listed after the events. -/
def listing (memory : ℕ → HostCell) (events : List HostEvent) :
    Except HostFault (List EvspHostObu) := do
  let s ← (initial memory).outcome events
  s.print

/-- At every time no access has gone wrong and the list holds the vehicles that are to be listed,
each once. A deletion of another vehicle changes nothing, and a vehicle keeps its phase while it is
listed. -/
structure KeepsHosts (memory : ℕ → HostCell) (events : List HostEvent) : Prop where
  listed : ∀ first, first <+: events → ∃ hosts, listing memory first = .ok hosts ∧
    (hosts.map EvspHostObu.key).Nodup ∧
      (hosts.map EvspHostObu.key).toFinset = run HostEvent.hosted ∅ first
  absent : ∀ first obuName, first ++ [.delete obuName] <+: events →
    obuName.obuName ∉ run HostEvent.hosted ∅ first →
      (initial memory).outcome (first ++ [.delete obuName]) = (initial memory).outcome first
  targetPhase : ∀ first event, first ++ [event] <+: events → ∀ hosts hosts',
    listing memory first = .ok hosts → listing memory (first ++ [event]) = .ok hosts' →
      ∀ host ∈ hosts, ∀ host' ∈ hosts', host'.key = host.key →
        host'.targetPhase = host.targetPhase

/-- The objects after the events are a list with the names that are to be listed. -/
def Lists (memory : ℕ → HostCell) (events : List HostEvent) : Prop :=
  ∃ s nodes hosts, (initial memory).outcome events = .ok s ∧ s.Represents nodes hosts ∧
    hosts.names = run HostEvent.hosted ∅ events

theorem outcome_concat (s : HostMemory) (events : List HostEvent) (last : HostEvent) :
    s.outcome (events ++ [last]) = (do let s ← s.outcome events; s.step last) := by
  simp [outcome, List.foldlM_append]

theorem outcome_concat_of_ok {memory : ℕ → HostCell} {events : List HostEvent}
    (hs : (initial memory).outcome events = .ok s) (last : HostEvent) :
    (initial memory).outcome (events ++ [last]) = s.step last := by
  rw [outcome_concat, hs]
  rfl

theorem lists_initial (memory : ℕ → HostCell) : Lists memory [] :=
  ⟨initial memory, [], KeyedList.empty, rfl, represents_initial memory, rfl⟩

theorem lists_concat {memory : ℕ → HostCell} {events : List HostEvent}
    (hlists : Lists memory events) (last : HostEvent) :
    Lists memory (events ++ [last]) ↔ last.spares (run HostEvent.hosted ∅ events) := by
  obtain ⟨s, nodes, hosts, hs, hrep, hnames⟩ := hlists
  rw [← hnames, Lists, outcome_concat_of_ok hs]
  constructor
  · rintro ⟨s', -, -, hs', -⟩
    by_contra hspares
    obtain ⟨fault, hfault⟩ := hrep.step_error hspares
    rw [hfault] at hs'
    cases hs'
  · intro hspares
    obtain ⟨s', nodes', hs', hrep'⟩ := hrep.step hspares
    exact ⟨s', nodes', last.listed hosts, hs', hrep', by rw [names_listed, hnames, run_concat]⟩

theorem guarded_iff_lists (memory : ℕ → HostCell) (events : List HostEvent) :
    Guarded HostEvent.hosted HostEvent.spares ∅ events ↔
      ∀ first, first <+: events → Lists memory first :=
  guarded_iff_prefixes (lists_initial memory) (fun _ last hlists => lists_concat hlists last) events

theorem Represents.listing {memory : ℕ → HostCell} {events : List HostEvent}
    (h : s.Represents nodes hosts) (hs : (initial memory).outcome events = .ok s) :
    listing memory events = .ok hosts.entries := by
  rw [HostMemory.listing, hs]
  exact h.print

/-- The list is kept as long as no timer of a listed vehicle runs out and no vehicle is deleted
from the empty list. -/
theorem keepsHosts_iff (memory : ℕ → HostCell) (events : List HostEvent) :
    KeepsHosts memory events ↔ Guarded HostEvent.hosted HostEvent.spares ∅ events := by
  rw [guarded_iff_lists memory]
  constructor
  · -- Where a list is printed, the step before has gone well.
    intro hkeeps first
    induction first using List.reverseRecOn with
    | nil => exact fun _ => lists_initial memory
    | append_singleton first last ih =>
        intro hfirst
        obtain ⟨s, nodes, hosts, hs, hrep, hnames⟩ := ih ((List.prefix_append _ _).trans hfirst)
        refine (lists_concat ⟨s, nodes, hosts, hs, hrep, hnames⟩ last).mpr ?_
        by_contra hspares
        rw [← hnames] at hspares
        obtain ⟨fault, hfault⟩ := hrep.step_error hspares
        obtain ⟨printed, hprinted, -⟩ := hkeeps.listed _ hfirst
        rw [listing, outcome_concat_of_ok hs, hfault] at hprinted
        cases hprinted
  · intro hlists
    refine ⟨fun first hfirst => ?_, fun first obuName hfirst habsent => ?_,
      fun first event hfirst before after hbefore hafter host hhost host' hhost' hkey => ?_⟩
    · obtain ⟨s, nodes, hosts, hs, hrep, hnames⟩ := hlists first hfirst
      exact ⟨hosts.entries, hrep.listing hs, hosts.distinct, hnames⟩
    · have hlist := hlists first ((List.prefix_append _ _).trans hfirst)
      have hspares := (lists_concat hlist _).mp (hlists _ hfirst)
      obtain ⟨s, nodes, hosts, hs, hrep, hnames⟩ := hlist
      rw [← hnames] at habsent hspares
      rw [outcome_concat_of_ok hs, hs]
      refine hrep.delete_absent (hrep.nodes_ne_nil hspares) ?_
      rw [mem_names, Bool.not_eq_true, Option.isSome_eq_false_iff] at habsent
      exact Option.isNone_iff_eq_none.mp habsent
    · have hlist := hlists first ((List.prefix_append _ _).trans hfirst)
      have hspares := (lists_concat hlist _).mp (hlists _ hfirst)
      obtain ⟨s, nodes, hosts, hs, hrep, hnames⟩ := hlist
      rw [← hnames] at hspares
      obtain ⟨s', nodes', hs', hrep'⟩ := hrep.step hspares
      rw [hrep.listing hs] at hbefore
      rw [hrep'.listing (outcome_concat_of_ok hs event |>.trans hs')] at hafter
      cases hbefore
      cases hafter
      have hsearch' := KeyedList.search_of_mem hhost'
      rw [hkey] at hsearch'
      exact targetPhase_listed (KeyedList.search_of_mem hhost) hsearch'

/-- A vehicle is deleted while none is listed, and the timer of the only vehicle runs out. -/
theorem list_lost :
    let ambulance : HostName := ⟨['A', '1'], by decide⟩
    let memory : ℕ → HostCell := fun _ => ⟨.new ambulance 0 ⟨0, []⟩, none⟩
    let touch : HostEvent := .insert 7 ambulance 3 ⟨1, []⟩ ⟨1, 1⟩
    (initial memory).outcome [.delete ambulance] = .error .null ∧
      ¬ KeepsHosts memory [.delete ambulance] ∧
      (initial memory).outcome [touch, .packetTimeout ambulance] = .error .freed ∧
      ¬ KeepsHosts memory [touch, .packetTimeout ambulance] := by
  intro ambulance memory touch
  have hnull : (initial memory).outcome [.delete ambulance] = .error .null := rfl
  have hfreed : (initial memory).outcome [touch, .packetTimeout ambulance] = .error .freed := rfl
  refine ⟨hnull, fun hkeeps => ?_, hfreed, fun hkeeps => ?_⟩
  · obtain ⟨hosts, hhosts, -⟩ := hkeeps.listed _ List.prefix_rfl
    rw [listing, hnull] at hhosts
    cases hhosts
  · obtain ⟨hosts, hhosts, -⟩ := hkeeps.listed _ List.prefix_rfl
    rw [listing, hfreed] at hhosts
    cases hhosts

end HostMemory

end AdaptiveSignal.Signal
