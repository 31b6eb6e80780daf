import AdaptiveSignal.Foundation.CircularList
import AdaptiveSignal.Foundation.Run
import AdaptiveSignal.Vehicles.Identity
import Mathlib.Data.List.Perm.Subperm

/-! # Lists of vehicles

Vehicles are kept as objects on circular lists: normal ones on the lists of a hash
table, special ones on a list for their type, where the last one heard of is first.
A collection unlinks and frees what has not been heard of for a while.
-/

namespace AdaptiveSignal.Vehicles

open Foundation

abbrev hashTableSize : ℕ := 10
abbrev obuRecordRingCapacity : ℕ := 5
def obuObjectExpireTime : ℤ := 60

/-- `normal_OBU_list[hash]` or `special_OBU_list[type]`. -/
inductive ObuList
  | normal (hash : Fin hashTableSize)
  | special (type : VehicleType) (hspecial : type ≠ .normal)
  deriving DecidableEq

/-- All lists, in the order of the collection. -/
def ObuList.all : List ObuList :=
  (List.finRange hashTableSize).map .normal ++
    [.special .ambulance (by decide), .special .bus (by decide),
      .special .fireTruck (by decide), .special .policeCar (by decide)]

/-- The head of a list, or an object in allocated memory. -/
inductive Node
  | head (list : ObuList)
  | object (address : ℕ)
  deriving DecidableEq

/-! ## Objects -/

inductive ObuObjectStatus
  | unknown
  | processing
  | granted
  | rejected
  deriving DecidableEq

structure ObuRecordRing where
  record : Fin obuRecordRingCapacity → ObuRecord
  firstRecordPointer : Fin obuRecordRingCapacity
  lastRecordPointer : Fin obuRecordRingCapacity
  length : UInt8

namespace ObuRecordRing

def full (ring : ObuRecordRing) : Bool :=
  ring.lastRecordPointer + 1 = ring.firstRecordPointer

/-- The pointer is advanced before and after the length. -/
def push (record : ObuRecord) (ring : ObuRecordRing) : ObuRecordRing :=
  let lastRecordPointer := ring.lastRecordPointer + 1
  let length := ring.length + 1
  let lastRecordPointer := lastRecordPointer + 1
  { ring with
    record := Function.update ring.record lastRecordPointer record
    lastRecordPointer
    length }

def pop (ring : ObuRecordRing) : ObuRecordRing :=
  { ring with
    firstRecordPointer := ring.firstRecordPointer + 1
    length := ring.length - 1 }

/-- A push that discards a record first if there is no room. -/
def pushOver (record : ObuRecord) (ring : ObuRecordRing) : ObuRecordRing :=
  if ring.full then ring.pop.push record else ring.push record

def last (ring : ObuRecordRing) : ObuRecord :=
  ring.record ring.lastRecordPointer

def cleared : ObuRecordRing where
  record _ := ObuRecordCommonField.cleared.toObuRecord
  firstRecordPointer := 0
  lastRecordPointer := 0
  length := 0

@[simp] theorem last_push (record : ObuRecord) (ring : ObuRecordRing) :
    (ring.push record).last = record := by
  simp [last, push]

@[simp] theorem last_pushOver (record : ObuRecord) (ring : ObuRecordRing) :
    (ring.pushOver record).last = record := by
  unfold pushOver
  split_ifs <;> exact last_push record _

end ObuRecordRing

variable {Speed : Type*}

structure ObuObject (Speed : Type*) where
  obuName : ObuName
  vehicleType : VehicleType
  status : ObuObjectStatus
  predictionSpeed : Speed
  recordRing : ObuRecordRing

/-- The predicted speed, a floating-point number: its first value, and the filter. -/
structure SpeedPrediction (Speed : Type*) where
  ofSpeed : UInt8 → Speed
  filter : Speed → UInt8 → Speed

variable (prediction : SpeedPrediction Speed)

def obuObjectNew (record : ObuRecordCommonField) : ObuObject Speed where
  obuName := record.obuName
  vehicleType := record.vehicleType
  status := .processing
  predictionSpeed := prediction.ofSpeed record.speed
  recordRing := .cleared

/-- A `char` as it is added to an `unsigned long`. -/
def charValue (c : UInt8) : UInt64 :=
  if c < 128 then c.toUInt64 else c.toUInt64 - 256

def djb2Hash (name : ObuName) : Fin hashTableSize :=
  Fin.ofNat hashTableSize
    (name.chars.foldl (fun (hash : UInt64) c => (hash <<< 5) + hash + charValue c) 5381).toNat

/-- The list that an object belongs on. -/
def ObuObject.list (object : ObuObject Speed) : ObuList :=
  if h : object.vehicleType = .normal then .normal (djb2Hash object.obuName)
  else .special object.vehicleType h

/-! ## Operations -/

structure ObuLists (Speed : Type*) where
  links : Links Node
  object : Node → ObuObject Speed
  /-- The addresses in use. -/
  allocated : List ℕ
  /-- A walk along a list did not come back to its head. -/
  hangs : Bool

/-- An address that is not in use: the preferred one, if it can be had. -/
def malloc (allocated : List ℕ) (preferred : ℕ) : ℕ :=
  if preferred ∈ allocated then allocated.foldr max 0 + 1 else preferred

/-- Each `preferred` is the choice of the allocator. -/
inductive Call
  | normalInsert (preferred : ℕ) (record : ObuRecordCommonField)
  | specialInsert (preferred : ℕ) (record : ObuRecordCommonField)
  | updateStatus (name : ObuName) (type : VehicleType) (status : ObuObjectStatus)
  | garbageCollection (currentTime : ℤ)

namespace ObuLists

/-- Whatever lies in memory, the heads are linked to themselves. -/
def initial (memory : Node → ObuObject Speed) : ObuLists Speed where
  links := ⟨id, id⟩
  object := memory
  allocated := []
  hangs := false

/-- The loop of `OBU_object_search`: the object found, if any, unless the walk exceeds
the fuel. -/
def searchFrom (s : ObuLists Speed) (head : Node) (name : ObuName) :
    ℕ → Node → Option (Option Node)
  | 0, _ => none
  | fuel + 1, current =>
      if current = head then some none
      else if (s.object current).obuName = name then some (some current)
      else searchFrom s head name fuel (s.links.next current)

/-- No list is longer than there are objects. -/
def obuObjectSearch (s : ObuLists Speed) (list : ObuList) (name : ObuName) :
    Option (Option Node) :=
  s.searchFrom (.head list) name (s.allocated.length + 1) (s.links.next (.head list))

def insertNew (s : ObuLists Speed) (list : ObuList) (address : ℕ) (object : ObuObject Speed) :
    ObuLists Speed :=
  { s with
    links := s.links.insertHead (.head list) (.object address)
    object := Function.update s.object (.object address) object
    allocated := address :: s.allocated }

def setObject (s : ObuLists Speed) (q : Node) (object : ObuObject Speed) : ObuLists Speed :=
  { s with object := Function.update s.object q object }

def moveToHead (s : ObuLists Speed) (list : ObuList) (q : Node) : ObuLists Speed :=
  if s.links.next (.head list) = q then s
  else { s with links := (s.links.unlink q).insertHead (.head list) q }

def normalObuRecordInsert (s : ObuLists Speed) (preferred : ℕ) (record : ObuRecordCommonField) :
    ObuLists Speed :=
  if record.vehicleType = .normal then
    let list := .normal (djb2Hash record.obuName)
    match s.obuObjectSearch list record.obuName with
    | none => { s with hangs := true }
    | some none =>
        let object := obuObjectNew prediction record
        s.insertNew list (malloc s.allocated preferred)
          { object with recordRing := object.recordRing.pushOver record.toObuRecord }
    | some (some q) =>
        let object := s.object q
        s.setObject q { object with
          recordRing := object.recordRing.pushOver record.toObuRecord }
  else s

def specialObuRecordInsert (s : ObuLists Speed) (preferred : ℕ) (record : ObuRecordCommonField) :
    ObuLists Speed :=
  if h : record.vehicleType = .normal then s
  else
    let list := .special record.vehicleType h
    match s.obuObjectSearch list record.obuName with
    | none => { s with hangs := true }
    | some none =>
        let object := obuObjectNew prediction record
        s.insertNew list (malloc s.allocated preferred)
          { object with recordRing := object.recordRing.push record.toObuRecord }
    | some (some q) =>
        let object := s.object q
        (s.setObject q { object with
          recordRing := object.recordRing.pushOver record.toObuRecord
          predictionSpeed := prediction.filter object.predictionSpeed record.speed }).moveToHead
            list q

def specialObuListUpdateStatus (s : ObuLists Speed) (name : ObuName) (type : VehicleType)
    (status : ObuObjectStatus) : ℤ × ObuLists Speed :=
  if h : type = .normal then (-1, s)
  else
    match s.obuObjectSearch (.special type h) name with
    | none => (-1, { s with hangs := true })
    | some none => (-1, s)
    | some (some q) =>
        if status ≠ .granted ∧ status ≠ .rejected then (-1, s)
        else (1, s.setObject q { s.object q with status })

/-- The object has not been heard of for too long. -/
def expired (currentTime : ℤ) (object : ObuObject Speed) : Bool :=
  obuObjectExpireTime < currentTime - object.recordRing.last.timeSecond

/-- The walk of the collection along one list; the next node is read from the object that
has just been unlinked. -/
def collectFrom (currentTime : ℤ) (head : Node) : ℕ → Node → ObuLists Speed → ObuLists Speed
  | 0, _, s => { s with hangs := true }
  | fuel + 1, current, s =>
      if current = head then s
      else
        let s :=
          if expired currentTime (s.object current) then
            { s with
              links := s.links.unlink current
              allocated := s.allocated.filter fun address => .object address ≠ current }
          else s
        collectFrom currentTime head fuel (s.links.next current) s

def collectList (currentTime : ℤ) (s : ObuLists Speed) (list : ObuList) : ObuLists Speed :=
  collectFrom currentTime (.head list) (s.allocated.length + 1) (s.links.next (.head list)) s

def obuObjectGarbageCollection (s : ObuLists Speed) (currentTime : ℤ) : ObuLists Speed :=
  ObuList.all.foldl (collectList currentTime) s

def step (s : ObuLists Speed) : Call → ObuLists Speed
  | .normalInsert preferred record => s.normalObuRecordInsert prediction preferred record
  | .specialInsert preferred record => s.specialObuRecordInsert prediction preferred record
  | .updateStatus name type status => (s.specialObuListUpdateStatus name type status).2
  | .garbageCollection currentTime => s.obuObjectGarbageCollection currentTime

/-! ## The lists that are represented -/

/-- The links thread these objects, each on the list that it belongs on, under different
names. -/
structure Represents (s : ObuLists Speed) (nodes : ObuList → List Node) : Prop where
  threads : ∀ list, s.links.Threads (.head list) (nodes list)
  allocated : ∀ list, ∀ q ∈ nodes list, ∃ address ∈ s.allocated, q = .object address
  names : ∀ list, ((nodes list).map fun q => (s.object q).obuName).Nodup
  list : ∀ list, ∀ q ∈ nodes list, (s.object q).list = list
  ends : s.hangs = false

variable {prediction} {s : ObuLists Speed} {nodes : ObuList → List Node} {list : ObuList}

theorem represents_initial (memory : Node → ObuObject Speed) :
    (initial memory).Represents fun _ => [] where
  threads list := ⟨by simp [initial, Links.Linked], by simp⟩
  allocated list q hq := absurd hq List.not_mem_nil
  names list := List.nodup_nil
  list list q hq := absurd hq List.not_mem_nil
  ends := rfl

theorem le_foldr_max {allocated : List ℕ} {address : ℕ} (haddress : address ∈ allocated) :
    address ≤ allocated.foldr max 0 := by
  induction allocated with
  | nil => exact absurd haddress List.not_mem_nil
  | cons first rest ih =>
      rw [List.foldr_cons]
      rcases List.mem_cons.mp haddress with rfl | hrest
      · exact Nat.le_max_left _ _
      · exact Nat.le_trans (ih hrest) (Nat.le_max_right _ _)

theorem malloc_notMem (allocated : List ℕ) (preferred : ℕ) :
    malloc allocated preferred ∉ allocated := by
  unfold malloc
  split_ifs with hmem
  · exact fun hnew => Nat.not_succ_le_self _ (le_foldr_max hnew)
  · exact hmem

namespace Represents

theorem disjoint (h : s.Represents nodes) {other : ObuList} (hne : other ≠ list) :
    ∀ q ∈ .head other :: nodes other, q ∉ .head list :: nodes list := by
  intro q hq hmem
  rcases List.mem_cons.mp hq with rfl | hq
  · rcases List.mem_cons.mp hmem with heq | hmem
    · exact hne (Node.head.inj heq)
    · obtain ⟨address, -, heq⟩ := h.allocated list _ hmem
      cases heq
  · rcases List.mem_cons.mp hmem with rfl | hmem
    · obtain ⟨address, -, heq⟩ := h.allocated other _ hq
      cases heq
    · exact hne ((h.list other q hq).symm.trans (h.list list q hmem))

theorem length_le (h : s.Represents nodes) (list : ObuList) :
    (nodes list).length ≤ s.allocated.length := by
  have hsub : nodes list ⊆ s.allocated.map Node.object := by
    intro q hq
    obtain ⟨address, haddress, rfl⟩ := h.allocated list q hq
    exact List.mem_map_of_mem haddress
  have hnodup := (List.nodup_cons.mp (h.threads list).nodup).2
  have hle := (hnodup.subperm hsub).length_le
  rwa [List.length_map] at hle

end Represents

/-- The walk of a search goes over the nodes that are left. -/
theorem searchFrom_eq {head : Node} (name : ObuName) {before rest : List Node} {fuel : ℕ}
    (hl : s.links.Threads head (before ++ rest)) (hfuel : rest.length < fuel) :
    s.searchFrom head name fuel (rest.headD head) =
      some (rest.find? fun q => (s.object q).obuName = name) := by
  induction rest generalizing before fuel with
  | nil =>
      obtain ⟨fuel, rfl⟩ := Nat.exists_eq_succ_of_ne_zero (Nat.ne_of_gt hfuel)
      exact if_pos rfl
  | cons first rest ih =>
      obtain ⟨fuel, rfl⟩ := Nat.exists_eq_succ_of_ne_zero (Nat.ne_zero_of_lt hfuel)
      have hfirst : first ≠ head := by
        rintro rfl
        exact (List.nodup_cons.mp hl.nodup).1 (List.mem_append_right before List.mem_cons_self)
      have hnext : s.links.next first = rest.headD head := hl.linked_around.2.1
      rw [List.headD_cons, searchFrom, if_neg hfirst, List.find?_cons]
      by_cases hname : (s.object first).obuName = name
      · simp [hname]
      -- The node just compared joins those passed.
      · have hrest : s.links.Threads head ((before ++ [first]) ++ rest) := by
          rwa [List.append_assoc]
        rw [if_neg hname, hnext, ih hrest (Nat.lt_of_succ_lt_succ hfuel)]
        simp [hname]

theorem Represents.search (h : s.Represents nodes) (list : ObuList) (name : ObuName) :
    s.obuObjectSearch list name =
      some ((nodes list).find? fun q => (s.object q).obuName = name) := by
  have hl : s.links.Threads (.head list) ([] ++ nodes list) := h.threads list
  rw [obuObjectSearch, (h.threads list).next_head]
  exact searchFrom_eq name hl (Nat.lt_succ_of_le (h.length_le list))

/-- A search finds a node of the list with the name, or there is none. -/
theorem Represents.search_cases (h : s.Represents nodes) (list : ObuList) (name : ObuName) :
    (s.obuObjectSearch list name = some none ∧
      ∀ q ∈ nodes list, (s.object q).obuName ≠ name) ∨
      ∃ q ∈ nodes list, s.obuObjectSearch list name = some (some q) ∧
        (s.object q).obuName = name := by
  rw [h.search]
  cases hfind : (nodes list).find? fun q => (s.object q).obuName = name with
  | none => exact Or.inl ⟨rfl, fun q hq => by simpa using List.find?_eq_none.mp hfind q hq⟩
  | some q =>
      have hname : (s.object q).obuName = name := by simpa using List.find?_some hfind
      exact Or.inr ⟨q, List.mem_of_find?_eq_some hfind, rfl, hname⟩

/-! ## What the operations keep -/

namespace Represents

/-- Only the names and the places of the objects matter. -/
theorem congr {s' : ObuLists Speed} (h : s.Represents nodes) (hlinks : s'.links = s.links)
    (hallocated : s'.allocated = s.allocated) (hhangs : s'.hangs = s.hangs)
    (hname : ∀ q, (s'.object q).obuName = (s.object q).obuName)
    (hlist : ∀ q, (s'.object q).list = (s.object q).list) : s'.Represents nodes where
  threads list := hlinks ▸ h.threads list
  allocated list := hallocated ▸ h.allocated list
  names list := by simpa only [hname] using h.names list
  list list q hq := (hlist q).trans (h.list list q hq)
  ends := hhangs.trans h.ends

theorem setObject (h : s.Represents nodes) (q : Node) {object : ObuObject Speed}
    (hname : object.obuName = (s.object q).obuName)
    (htype : object.vehicleType = (s.object q).vehicleType) :
    (s.setObject q object).Represents nodes := by
  have hobject (p : Node) : ((s.setObject q object).object p).obuName = (s.object p).obuName ∧
      ((s.setObject q object).object p).vehicleType = (s.object p).vehicleType := by
    by_cases hp : p = q
    · simp [ObuLists.setObject, hp, hname, htype]
    · simp [ObuLists.setObject, hp]
  refine h.congr rfl rfl rfl (fun p => (hobject p).1) fun p => ?_
  simp only [ObuObject.list, hobject p]

theorem insertNew (h : s.Represents nodes) {address : ℕ} (haddress : address ∉ s.allocated)
    {object : ObuObject Speed} (hlist : object.list = list)
    (hname : ∀ q ∈ nodes list, (s.object q).obuName ≠ object.obuName) :
    (s.insertNew list address object).Represents
      (Function.update nodes list (.object address :: nodes list)) := by
  -- An address that was free is on no list.
  have hfresh (other : ObuList) : Node.object address ∉ nodes other := by
    intro hmem
    obtain ⟨_, hin, heq⟩ := h.allocated other _ hmem
    exact haddress (Node.object.inj heq ▸ hin)
  have hthread (other : ObuList) : Node.object address ∉ .head other :: nodes other :=
    List.not_mem_cons_of_ne_of_not_mem Node.noConfusion (hfresh other)
  have hkeep (other : ObuList) (q : Node) (hq : q ∈ nodes other) :
      (s.insertNew list address object).object q = s.object q :=
    Function.update_of_ne (ne_of_mem_of_not_mem hq (hfresh other)) _ _
  have hnew : (s.insertNew list address object).object (.object address) = object :=
    Function.update_self _ _ _
  refine ⟨fun other => ?_, fun other => ?_, fun other => ?_, fun other => ?_, h.ends⟩
  · by_cases hother : other = list
    · subst hother
      rw [Function.update_self]
      exact (h.threads other).insertHead (hthread other)
    · rw [Function.update_of_ne hother]
      refine (h.threads other).sameOutside
        ((h.threads list).insertHead_sameOutside (hthread list)) fun q hq => ?_
      refine List.not_mem_cons_of_ne_of_not_mem ?_ (h.disjoint hother q hq)
      exact ne_of_mem_of_not_mem hq (hthread other)
  · by_cases hother : other = list
    · subst hother
      rw [Function.update_self]
      intro q hq
      rcases List.mem_cons.mp hq with rfl | hq
      · exact ⟨address, List.mem_cons_self, rfl⟩
      · obtain ⟨known, hknown, heq⟩ := h.allocated other q hq
        exact ⟨known, List.mem_cons_of_mem address hknown, heq⟩
    · rw [Function.update_of_ne hother]
      intro q hq
      obtain ⟨known, hknown, heq⟩ := h.allocated other q hq
      exact ⟨known, List.mem_cons_of_mem address hknown, heq⟩
  · have hold := h.names other
    rw [← List.map_congr_left fun q hq => congrArg ObuObject.obuName (hkeep other q hq)] at hold
    by_cases hother : other = list
    · subst hother
      rw [Function.update_self, List.map_cons, List.nodup_cons]
      refine ⟨fun hmem => ?_, hold⟩
      obtain ⟨q, hq, heq⟩ := List.mem_map.mp hmem
      rw [hnew, hkeep other q hq] at heq
      exact hname q hq heq
    · rwa [Function.update_of_ne hother]
  · by_cases hother : other = list
    · subst hother
      rw [Function.update_self]
      intro q hq
      rcases List.mem_cons.mp hq with rfl | hq
      · rw [hnew, hlist]
      · rw [hkeep other q hq, h.list other q hq]
    · rw [Function.update_of_ne hother]
      intro q hq
      rw [hkeep other q hq, h.list other q hq]

/-- A list may be rearranged, as long as it has only nodes of its own. -/
theorem relink {s' : ObuLists Speed} (h : s.Represents nodes) {rearranged : List Node}
    (hthreads : s'.links.Threads (.head list) rearranged) (hsub : rearranged ⊆ nodes list)
    (hsame : Links.SameOutside (.head list :: nodes list) s.links s'.links)
    (hobject : s'.object = s.object) (hhangs : s'.hangs = s.hangs)
    (hallocated : ∀ address ∈ s.allocated,
      Node.object address ∉ nodes list ∨ .object address ∈ rearranged →
        address ∈ s'.allocated) :
    s'.Represents (Function.update nodes list rearranged) := by
  refine ⟨fun other => ?_, fun other => ?_, fun other => ?_, fun other => ?_, hhangs.trans h.ends⟩
  · by_cases hother : other = list
    · subst hother
      rwa [Function.update_self]
    · rw [Function.update_of_ne hother]
      exact (h.threads other).sameOutside hsame (h.disjoint hother)
  · intro q hq
    by_cases hother : other = list
    · subst hother
      rw [Function.update_self] at hq
      obtain ⟨address, haddress, rfl⟩ := h.allocated other q (hsub hq)
      exact ⟨address, hallocated address haddress (Or.inr hq), rfl⟩
    · rw [Function.update_of_ne hother] at hq
      obtain ⟨address, haddress, rfl⟩ := h.allocated other q hq
      have hout := h.disjoint hother _ (List.mem_cons_of_mem _ hq)
      exact ⟨address, hallocated address haddress
        (Or.inl (List.not_mem_of_not_mem_cons hout)), rfl⟩
  · rw [hobject]
    by_cases hother : other = list
    · subst hother
      rw [Function.update_self]
      refine (List.nodup_cons.mp hthreads.nodup).2.map_on fun p hp q hq heq => ?_
      exact List.inj_on_of_nodup_map (h.names other) (hsub hp) (hsub hq) heq
    · rw [Function.update_of_ne hother]
      exact h.names other
  · intro q hq
    rw [hobject]
    by_cases hother : other = list
    · subst hother
      rw [Function.update_self] at hq
      exact h.list other q (hsub hq)
    · rw [Function.update_of_ne hother] at hq
      exact h.list other q hq

theorem moveToHead (h : s.Represents nodes) {q : Node} (hq : q ∈ nodes list) :
    (s.moveToHead list q).Represents
      (Function.update nodes list (q :: (nodes list).filter (· ≠ q))) := by
  obtain ⟨before, after, hnodes⟩ := List.append_of_mem hq
  have hl := h.threads list
  rw [hnodes] at hl
  have hout : q ∉ before ++ after :=
    (List.nodup_cons.mp (List.nodup_middle.mp (List.nodup_cons.mp hl.nodup).2)).1
  have hothers : (nodes list).filter (· ≠ q) = before ++ after := by
    rw [hnodes, List.filter_append, List.filter_cons_of_neg (by simp), ← List.filter_append]
    exact List.filter_eq_self.mpr fun p hp => by simpa using ne_of_mem_of_not_mem hp hout
  rw [hothers]
  unfold ObuLists.moveToHead
  split_ifs with hfirst
  · have hsame : q :: (before ++ after) = nodes list := by
      rw [(h.threads list).next_head, hnodes] at hfirst
      cases before with
      | nil => exact hnodes.symm
      | cons first rest => exact absurd (hfirst ▸ List.mem_cons_self) hout
    rwa [hsame, Function.update_eq_self]
  · have hremoved := hl.unlink_eq ▸ hl.remove
    have hhead : q ≠ .head list := by
      rintro rfl
      exact (List.nodup_cons.mp (h.threads list).nodup).1 hq
    have hthread : q ∉ .head list :: (before ++ after) :=
      List.not_mem_cons_of_ne_of_not_mem hhead hout
    have hsub : before ++ after ⊆ nodes list := by
      rw [hnodes]
      exact ((List.sublist_cons_self q after).append_left before).subset
    refine h.relink (hremoved.insertHead hthread) (List.cons_subset.mpr ⟨hq, hsub⟩) ?_ rfl rfl
      fun address haddress _ => haddress
    have hunlink := hl.unlink_sameOutside
    rw [← hnodes] at hunlink
    refine hunlink.trans ((hremoved.insertHead_sameOutside hthread).mono ?_)
    exact List.cons_subset.mpr ⟨List.mem_cons_of_mem _ hq, List.cons_subset_cons _ hsub⟩

end Represents

/-! ## The collection -/

/-- The nodes on a list that have not expired. -/
def live (currentTime : ℤ) (s : ObuLists Speed) (nodes : List Node) : List Node :=
  nodes.filter fun q => !expired currentTime (s.object q)

/-- What the walk along the rest of a list does. -/
structure Collected (currentTime : ℤ) (head : Node) (before rest : List Node)
    (s s' : ObuLists Speed) : Prop where
  threads : s'.links.Threads head (before ++ live currentTime s rest)
  same : Links.SameOutside (head :: (before ++ rest)) s.links s'.links
  object : s'.object = s.object
  allocated : ∀ address ∈ s.allocated,
    (Node.object address ∈ rest → expired currentTime (s.object (.object address)) = false) →
      address ∈ s'.allocated
  hangs : s'.hangs = s.hangs

theorem collectFrom_collected (currentTime : ℤ) {head : Node} {before rest : List Node} {fuel : ℕ}
    (hl : s.links.Threads head (before ++ rest)) (hfuel : rest.length < fuel) :
    Collected currentTime head before rest s
      (collectFrom currentTime head fuel (rest.headD head) s) := by
  induction rest generalizing before fuel s with
  | nil =>
      obtain ⟨fuel, rfl⟩ := Nat.exists_eq_succ_of_ne_zero (Nat.ne_of_gt hfuel)
      rw [List.headD_nil, collectFrom, if_pos rfl]
      exact ⟨hl, .refl _ _, rfl, fun address haddress _ => haddress, rfl⟩
  | cons first rest ih =>
      obtain ⟨fuel, rfl⟩ := Nat.exists_eq_succ_of_ne_zero (Nat.ne_zero_of_lt hfuel)
      have hrest := Nat.lt_of_succ_lt_succ hfuel
      have hfirst : first ≠ head := by
        rintro rfl
        exact (List.nodup_cons.mp hl.nodup).1 (List.mem_append_right before List.mem_cons_self)
      rw [List.headD_cons, collectFrom, if_neg hfirst]
      cases hexpired : expired currentTime (s.object first) with
      | true =>
          simp only [if_true]
          -- The object is freed before its link is read; the link still leads on along
          -- the list without it.
          have hremoved := hl.unlink_eq ▸ hl.remove
          rw [hl.unlink_next]
          have hlater := ih (s := { s with
            links := s.links.unlink first
            allocated := s.allocated.filter fun address => .object address ≠ first }) hremoved hrest
          refine ⟨?_, ?_, hlater.object, ?_, hlater.hangs⟩
          · rw [live, List.filter_cons_of_neg (by simp [hexpired])]
            exact hlater.threads
          · refine hl.unlink_sameOutside.trans (hlater.same.mono ?_)
            refine List.cons_subset_cons head ?_
            exact ((List.sublist_cons_self first rest).append_left before).subset
          · intro address haddress hlive
            refine hlater.allocated address (List.mem_filter.mpr ⟨haddress, ?_⟩) fun hmem =>
              hlive (List.mem_cons_of_mem first hmem)
            rw [decide_eq_true_eq]
            rintro rfl
            rw [hlive List.mem_cons_self] at hexpired
            cases hexpired
      | false =>
          simp only [Bool.false_eq_true, if_false]
          -- An object that stays joins the nodes passed.
          have hstays : s.links.Threads head ((before ++ [first]) ++ rest) := by
            rwa [List.append_assoc]
          rw [show s.links.next first = rest.headD head from hl.linked_around.2.1]
          have hlater := ih hstays hrest
          refine ⟨?_, ?_, hlater.object, ?_, hlater.hangs⟩
          · have hthreads := hlater.threads
            rw [List.append_assoc] at hthreads
            rw [live, List.filter_cons_of_pos (by simp [hexpired])]
            exact hthreads
          · have hsame := hlater.same
            rwa [List.append_assoc] at hsame
          · exact fun address haddress hlive => hlater.allocated address haddress fun hmem =>
              hlive (List.mem_cons_of_mem first hmem)

theorem Represents.collectList (h : s.Represents nodes) (currentTime : ℤ) (list : ObuList) :
    (collectList currentTime s list).Represents
        (Function.update nodes list (live currentTime s (nodes list))) ∧
      (collectList currentTime s list).object = s.object := by
  have hl : s.links.Threads (.head list) ([] ++ nodes list) := h.threads list
  have hcollected := collectFrom_collected currentTime hl (Nat.lt_succ_of_le (h.length_le list))
  unfold ObuLists.collectList
  rw [(h.threads list).next_head]
  refine ⟨h.relink hcollected.threads (List.filter_subset_self _) hcollected.same hcollected.object
    hcollected.hangs fun address haddress hkeep => ?_, hcollected.object⟩
  refine hcollected.allocated address haddress fun hmem => ?_
  rcases hkeep with hout | hlive
  · exact absurd hmem hout
  · simpa using (List.mem_filter.mp hlive).2

theorem Represents.foldl_collectList (h : s.Represents nodes) (currentTime : ℤ)
    (lists : List ObuList) (hnodup : lists.Nodup) :
    (lists.foldl (ObuLists.collectList currentTime) s).Represents
        (fun list => if list ∈ lists then live currentTime s (nodes list) else nodes list) ∧
      (lists.foldl (ObuLists.collectList currentTime) s).object = s.object := by
  induction lists generalizing s nodes with
  | nil => exact ⟨by simpa using h, rfl⟩
  | cons first rest ih =>
      obtain ⟨hfirst, hrest⟩ := List.nodup_cons.mp hnodup
      obtain ⟨hrepresents, hobject⟩ := h.collectList currentTime first
      obtain ⟨hlater, hsame⟩ := ih hrepresents hrest
      have hnodes : (fun list => if list ∈ first :: rest then live currentTime s (nodes list)
            else nodes list) =
          fun list =>
            if list ∈ rest then
              live currentTime (ObuLists.collectList currentTime s first)
                (Function.update nodes first (live currentTime s (nodes first)) list)
            else Function.update nodes first (live currentTime s (nodes first)) list := by
        funext list
        by_cases hlist : list = first
        · simp [hlist, hfirst]
        · simp [hlist, live, hobject]
      rw [List.foldl_cons, hnodes]
      exact ⟨hlater, hsame.trans hobject⟩

theorem ObuList.mem_all (list : ObuList) : list ∈ ObuList.all := by
  cases list with
  | normal hash => exact List.mem_append_left _ (List.mem_map_of_mem (List.mem_finRange hash))
  | special type hspecial =>
      refine List.mem_append_right _ ?_
      cases type with
      | normal => exact absurd rfl hspecial
      | ambulance => simp
      | bus => simp
      | fireTruck => simp
      | policeCar => simp

theorem Represents.garbageCollection (h : s.Represents nodes) (currentTime : ℤ) :
    (s.obuObjectGarbageCollection currentTime).Represents
        (fun list => live currentTime s (nodes list)) ∧
      (s.obuObjectGarbageCollection currentTime).object = s.object := by
  have hall := h.foldl_collectList currentTime ObuList.all (by decide)
  simp only [ObuList.mem_all, if_true] at hall
  exact hall

/-! ## What the operations do -/

/-- The record becomes the last one of an object with its name; the order of the other
objects and what they hold is as before. -/
structure Recorded (s s' : ObuLists Speed) (nodes nodes' : ObuList → List Node) (list : ObuList)
    (record : ObuRecordCommonField) (q : Node) : Prop where
  mem : q ∈ nodes' list
  name : (s'.object q).obuName = record.obuName
  last : (s'.object q).recordRing.last = record.toObuRecord
  order : (nodes' list).filter (· ≠ q) = (nodes list).filter (· ≠ q)
  lists : ∀ other, other ≠ list → nodes' other = nodes other
  object : ∀ p, p ≠ q → s'.object p = s.object p

/-- The effect of a call on the lists and the objects. -/
def Effect (s s' : ObuLists Speed) (nodes nodes' : ObuList → List Node) : Call → Prop
  | .normalInsert _ record =>
      if record.vehicleType = .normal then
        ∃ q, Recorded s s' nodes nodes' (.normal (djb2Hash record.obuName)) record q
      else s' = s ∧ nodes' = nodes
  | .specialInsert _ record =>
      if h : record.vehicleType = .normal then s' = s ∧ nodes' = nodes
      else
        ∃ q, Recorded s s' nodes nodes' (.special record.vehicleType h) record q ∧
          (nodes' (.special record.vehicleType h)).head? = some q
  | .updateStatus name type status =>
      nodes' = nodes ∧
        (s' = s ∨
          ∃ h : type ≠ .normal, ∃ q ∈ nodes (.special type h), (s.object q).obuName = name ∧
            (status = .granted ∨ status = .rejected) ∧
              s' = s.setObject q { s.object q with status })
  | .garbageCollection currentTime =>
      s'.object = s.object ∧ ∀ list, nodes' list = (nodes list).filter fun q =>
        currentTime - (s.object q).recordRing.last.timeSecond ≤ obuObjectExpireTime

/-- A new object is recorded at the head of its list. -/
theorem recorded_new {record : ObuRecordCommonField} (address : ℕ) {object : ObuObject Speed}
    (hname : object.obuName = record.obuName)
    (hlast : object.recordRing.last = record.toObuRecord) :
    Recorded s (s.insertNew list address object) nodes
      (Function.update nodes list (.object address :: nodes list)) list record
        (.object address) where
  mem := by simp
  name := by simpa [ObuLists.insertNew] using hname
  last := by simpa [ObuLists.insertNew] using hlast
  order := by simp
  lists other hother := Function.update_of_ne hother _ _
  object p hp := Function.update_of_ne hp _ _

/-- An object that is there is recorded where it is. -/
theorem recorded_known {record : ObuRecordCommonField} {q : Node} (hq : q ∈ nodes list)
    {object : ObuObject Speed} (hname : object.obuName = record.obuName)
    (hlast : object.recordRing.last = record.toObuRecord) :
    Recorded s (s.setObject q object) nodes nodes list record q where
  mem := hq
  name := by simpa [ObuLists.setObject] using hname
  last := by simpa [ObuLists.setObject] using hlast
  order := rfl
  lists _ _ := rfl
  object p hp := Function.update_of_ne hp _ _

theorem moveToHead_object (s : ObuLists Speed) (list : ObuList) (q : Node) :
    (s.moveToHead list q).object = s.object := by
  unfold ObuLists.moveToHead
  split_ifs <;> rfl

theorem Recorded.moveToHead {s' : ObuLists Speed} {record : ObuRecordCommonField} {q : Node}
    (h : Recorded s s' nodes nodes list record q) :
    Recorded s (s'.moveToHead list q) nodes
      (Function.update nodes list (q :: (nodes list).filter (· ≠ q))) list record q where
  mem := by simp
  name := by rw [moveToHead_object, h.name]
  last := by rw [moveToHead_object, h.last]
  order := by simp
  lists other hother := Function.update_of_ne hother _ _
  object p hp := by rw [moveToHead_object, h.object p hp]

theorem Represents.normalInsert (h : s.Represents nodes) (preferred : ℕ)
    (record : ObuRecordCommonField) :
    ∃ nodes', (s.normalObuRecordInsert prediction preferred record).Represents nodes' ∧
      Effect s (s.normalObuRecordInsert prediction preferred record) nodes nodes'
        (.normalInsert preferred record) := by
  unfold normalObuRecordInsert
  simp only [Effect]
  split_ifs with htype
  · rcases h.search_cases (.normal (djb2Hash record.obuName)) record.obuName with
      ⟨hsearch, hnone⟩ | ⟨q, hq, hsearch, hname⟩
    · rw [hsearch]
      refine ⟨_, h.insertNew (malloc_notMem s.allocated preferred) ?_ fun q hq => ?_, _,
        recorded_new _ rfl (by simp)⟩
      · simp [ObuObject.list, obuObjectNew, htype]
      · simpa [obuObjectNew] using hnone q hq
    · rw [hsearch]
      exact ⟨nodes, h.setObject q rfl rfl, q, recorded_known hq hname (by simp)⟩
  · exact ⟨nodes, h, rfl, rfl⟩

theorem Represents.specialInsert (h : s.Represents nodes) (preferred : ℕ)
    (record : ObuRecordCommonField) :
    ∃ nodes', (s.specialObuRecordInsert prediction preferred record).Represents nodes' ∧
      Effect s (s.specialObuRecordInsert prediction preferred record) nodes nodes'
        (.specialInsert preferred record) := by
  unfold specialObuRecordInsert
  simp only [Effect]
  split_ifs with htype
  · exact ⟨nodes, h, rfl, rfl⟩
  · rcases h.search_cases (.special record.vehicleType htype) record.obuName with
      ⟨hsearch, hnone⟩ | ⟨q, hq, hsearch, hname⟩
    · rw [hsearch]
      refine ⟨_, h.insertNew (malloc_notMem s.allocated preferred) ?_ fun q hq => ?_, _,
        recorded_new _ rfl (by simp), by simp⟩
      · simp [ObuObject.list, obuObjectNew, htype]
      · simpa [obuObjectNew] using hnone q hq
    · rw [hsearch]
      refine ⟨_, Represents.moveToHead (h.setObject q ?_ ?_) hq, q,
        Recorded.moveToHead (recorded_known hq ?_ ?_), ?_⟩
      · rfl
      · rfl
      · exact hname
      · simp
      · rw [Function.update_self, List.head?_cons]

theorem Represents.updateStatus (h : s.Represents nodes) (name : ObuName) (type : VehicleType)
    (status : ObuObjectStatus) :
    (s.specialObuListUpdateStatus name type status).2.Represents nodes ∧
      Effect s (s.specialObuListUpdateStatus name type status).2 nodes nodes
        (.updateStatus name type status) := by
  unfold specialObuListUpdateStatus
  by_cases htype : type = .normal
  · rw [dif_pos htype]
    exact ⟨h, rfl, Or.inl rfl⟩
  · rw [dif_neg htype]
    rcases h.search_cases (.special type htype) name with
      ⟨hsearch, -⟩ | ⟨q, hq, hsearch, hname⟩
    · rw [hsearch]
      exact ⟨h, rfl, Or.inl rfl⟩
    · rw [hsearch]
      by_cases hstatus : status ≠ .granted ∧ status ≠ .rejected
      · simp only [if_pos hstatus]
        exact ⟨h, rfl, Or.inl rfl⟩
      · simp only [if_neg hstatus]
        have hallowed : status = .granted ∨ status = .rejected := by
          by_contra hneither
          exact hstatus (not_or.mp hneither)
        exact ⟨h.setObject q rfl rfl, rfl, Or.inr ⟨htype, q, hq, hname, hallowed, rfl⟩⟩

/-- Every call keeps the lists and does what it is for. -/
theorem Represents.step (h : s.Represents nodes) (call : Call) :
    ∃ nodes', (s.step prediction call).Represents nodes' ∧
      Effect s (s.step prediction call) nodes nodes' call := by
  cases call with
  | normalInsert preferred record => exact h.normalInsert preferred record
  | specialInsert preferred record => exact h.specialInsert preferred record
  | updateStatus name type status => exact ⟨nodes, h.updateStatus name type status⟩
  | garbageCollection currentTime =>
      obtain ⟨hrepresents, hobject⟩ := h.garbageCollection currentTime
      refine ⟨_, hrepresents, hobject, fun list => ?_⟩
      apply List.filter_congr
      intro q _
      simp only [expired, ← decide_not, Int.not_lt]

end ObuLists

end AdaptiveSignal.Vehicles
