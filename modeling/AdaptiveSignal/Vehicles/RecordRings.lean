import AdaptiveSignal.Vehicles.Lists

/-! # The records that a ring keeps

The ring of a vehicle is to keep its latest records in consecutive places, the last one at
the last pointer. A push advances that pointer by two places.
-/

namespace AdaptiveSignal.Vehicles

open Foundation

/-- The ring of an object that was made for the first of some records. -/
def ringOf (records : List ObuRecord) : ObuRecordRing :=
  records.foldl (fun ring record => ring.pushOver record) .cleared

theorem ringOf_concat (records : List ObuRecord) (record : ObuRecord) :
    ringOf (records ++ [record]) = (ringOf records).pushOver record := by
  simp [ringOf]

/-- Back from the last pointer lie the latest records, as many as the ring can hold, and it
has their number. -/
structure KeepsLatest (records : List ObuRecord) (ring : ObuRecordRing) : Prop where
  held : ∀ i < min records.length (obuRecordRingCapacity - 1),
    records.reverse[i]? = some (ring.record (ring.lastRecordPointer - Fin.ofNat _ i))
  length : ring.length.toNat = min records.length (obuRecordRingCapacity - 1)

/-- One record, or a second one after one that cannot be told from a place never written. -/
def FewRecords (records : List ObuRecord) : Prop :=
  records.length ≤ 1 ∨
    ∃ record, records = [ObuRecordCommonField.cleared.toObuRecord, record]

theorem lastRecordPointer_singleton (record : ObuRecord) :
    (ringOf [record]).lastRecordPointer = 2 := rfl

theorem lastRecordPointer_pair (first second : ObuRecord) :
    (ringOf [first, second]).lastRecordPointer = 4 := rfl

theorem keepsLatest_singleton (record : ObuRecord) :
    KeepsLatest [record] (ringOf [record]) where
  held i hi := by
    obtain rfl : i = 0 := Nat.lt_one_iff.mp hi
    rw [lastRecordPointer_singleton]
    rfl
  length := rfl

/-- The second record is two places after the first; between them nothing was written. -/
theorem keepsLatest_pair_iff (first second : ObuRecord) :
    KeepsLatest [first, second] (ringOf [first, second]) ↔
      first = ObuRecordCommonField.cleared.toObuRecord := by
  constructor
  · intro h
    have hfirst := h.held 1 (Nat.lt_min.mpr ⟨Nat.one_lt_two, by decide⟩)
    rw [lastRecordPointer_pair] at hfirst
    exact Option.some.inj hfirst
  · rintro rfl
    refine ⟨fun i hi => ?_, rfl⟩
    rw [lastRecordPointer_pair]
    obtain rfl | rfl := Nat.le_one_iff_eq_zero_or_eq_one.mp (Nat.le_of_lt_succ hi)
    · rfl
    · rfl

/-- The third push finds the ring full and discards a record. -/
theorem length_triple (first second third : ObuRecord) :
    (ringOf [first, second, third]).length = 2 := by
  have hfull : (ringOf [first, second]).full = true := rfl
  have hpair : (ringOf [first, second]).length = 2 := rfl
  calc (ringOf [first, second, third]).length
      = ((ringOf [first, second]).pushOver third).length := rfl
    _ = ((ringOf [first, second]).pop.push third).length := by
        rw [ObuRecordRing.pushOver, if_pos hfull]
    _ = (ringOf [first, second]).length - 1 + 1 := rfl
    _ = 2 := by
        rw [hpair]
        rfl

theorem FewRecords.length_le {records : List ObuRecord} (h : FewRecords records) :
    records.length ≤ 2 := by
  obtain hone | ⟨record, rfl⟩ := h
  · exact hone.trans (Nat.le_succ 1)
  · exact le_rfl

theorem keepsLatest_iff {records : List ObuRecord} (hlength : records.length ≤ 3)
    (hne : records ≠ []) : KeepsLatest records (ringOf records) ↔ FewRecords records := by
  match records, hlength with
  | [], _ => exact absurd rfl hne
  | [record], _ => exact iff_of_true (keepsLatest_singleton record) (Or.inl le_rfl)
  | [first, second], _ =>
      rw [keepsLatest_pair_iff]
      simp [FewRecords]
  | [first, second, third], _ =>
      refine iff_of_false (fun h => ?_) (by simp [FewRecords])
      have hlength : (2 : UInt8).toNat = min 3 4 :=
        length_triple first second third ▸ h.length
      exact absurd hlength (by decide)

namespace ObuLists

variable {Speed : Type*} (prediction : SpeedPrediction Speed)

/-- The ring of the object that a search finds. -/
def ringFor (s : ObuLists Speed) (list : ObuList) (name : ObuName) : Option ObuRecordRing :=
  match s.obuObjectSearch list name with
  | some (some q) => some (s.object q).recordRing
  | _ => none

end ObuLists

/-- The record that is inserted, and its list. -/
def Call.inserted : Call → Option (ObuList × ObuRecordCommonField)
  | .normalInsert _ record =>
      if record.vehicleType = .normal then some (.normal (djb2Hash record.obuName), record)
      else none
  | .specialInsert _ record =>
      if h : record.vehicleType = .normal then none
      else some (.special record.vehicleType h, record)
  | .updateStatus _ _ _ => none
  | .garbageCollection _ => none

/-- The record that is inserted, if it is for this vehicle. -/
def Call.recordsFor (call : Call) (list : ObuList) (name : ObuName) : List ObuRecord :=
  match call.inserted with
  | some (other, record) =>
      if list = other ∧ name = record.obuName then [record.toObuRecord] else []
  | none => []

namespace ObuLists

variable {Speed : Type*} {prediction : SpeedPrediction Speed} {s : ObuLists Speed}
  {nodes : ObuList → List Node} {list other : ObuList} {q : Node}

theorem Represents.ringFor_of_mem (h : s.Represents nodes) (hq : q ∈ nodes list) :
    s.ringFor list (s.object q).obuName = some (s.object q).recordRing := by
  rcases h.search_cases list (s.object q).obuName with ⟨-, hnone⟩ | ⟨p, hp, hsearch, hname⟩
  · exact absurd rfl (hnone q hq)
  · -- a name has one node
    obtain rfl : p = q := List.inj_on_of_nodup_map (h.names list) hp hq hname
    rw [ringFor, hsearch]

theorem Represents.ringFor_eq_none (h : s.Represents nodes) {name : ObuName}
    (hname : ∀ q ∈ nodes list, (s.object q).obuName ≠ name) : s.ringFor list name = none := by
  rcases h.search_cases list name with ⟨hsearch, -⟩ | ⟨q, hq, -, hfound⟩
  · rw [ringFor, hsearch]
  · exact absurd hfound (hname q hq)

/-- Where the nodes of a name and what they hold are the same, so is its ring. -/
theorem Represents.ringFor_congr {s' : ObuLists Speed} {nodes' : ObuList → List Node}
    (h : s.Represents nodes) (h' : s'.Represents nodes') {list : ObuList} {name : ObuName}
    (hmem : ∀ q, (q ∈ nodes' list ∧ (s'.object q).obuName = name) ↔
      q ∈ nodes list ∧ (s.object q).obuName = name)
    (hring : ∀ q ∈ nodes list, (s.object q).obuName = name →
      (s'.object q).recordRing = (s.object q).recordRing) :
    s'.ringFor list name = s.ringFor list name := by
  by_cases hlisted : ∃ q ∈ nodes list, (s.object q).obuName = name
  · obtain ⟨q, hq, rfl⟩ := hlisted
    obtain ⟨hq', hname⟩ := (hmem q).mpr ⟨hq, rfl⟩
    rw [h.ringFor_of_mem hq, ← hname, h'.ringFor_of_mem hq', hring q hq rfl]
  · rw [h.ringFor_eq_none, h'.ringFor_eq_none]
    · exact fun q hq hname => hlisted ⟨q, (hmem q).mp ⟨hq, hname⟩⟩
    · exact fun q hq hname => hlisted ⟨q, hq, hname⟩

/-- A new object brings the ring of its name. -/
theorem Represents.ringFor_insertNew (h : s.Represents nodes) {address : ℕ}
    (haddress : address ∉ s.allocated) {object : ObuObject Speed} (hlist : object.list = list)
    (hname : ∀ q ∈ nodes list, (s.object q).obuName ≠ object.obuName) (other : ObuList)
    (name : ObuName) :
    (s.insertNew list address object).ringFor other name =
      if other = list ∧ name = object.obuName then some object.recordRing
      else s.ringFor other name := by
  have h' := h.insertNew haddress hlist hname
  have hnew : (s.insertNew list address object).object (.object address) = object :=
    Function.update_self _ _ _
  have hkeep : ∀ q ∈ nodes other, (s.insertNew list address object).object q = s.object q := by
    intro q hq
    refine Function.update_of_ne ?_ _ _
    rintro rfl
    obtain ⟨_, hin, heq⟩ := h.allocated other _ hq
    exact haddress (Node.object.inj heq ▸ hin)
  split_ifs with hfound
  · obtain ⟨rfl, rfl⟩ := hfound
    have hmem : .object address ∈
        Function.update nodes other (.object address :: nodes other) other := by
      simp
    have hring := h'.ringFor_of_mem hmem
    rwa [hnew] at hring
  · refine h.ringFor_congr h' (fun q => ?_) fun q hq _ => by rw [hkeep q hq]
    by_cases hother : other = list
    · subst hother
      rw [Function.update_self, List.mem_cons]
      constructor
      · rintro ⟨rfl | hq, rfl⟩
        · exact absurd ⟨rfl, congrArg _ hnew⟩ hfound
        · exact ⟨hq, congrArg _ (hkeep q hq).symm⟩
      · rintro ⟨hq, rfl⟩
        exact ⟨Or.inr hq, congrArg _ (hkeep q hq)⟩
    · rw [Function.update_of_ne hother]
      exact and_congr_right fun hq => by rw [hkeep q hq]

/-- An object that is there keeps its name, and has the ring it is given. -/
theorem Represents.ringFor_setObject (h : s.Represents nodes) (hq : q ∈ nodes list)
    {object : ObuObject Speed} (hname : object.obuName = (s.object q).obuName)
    (htype : object.vehicleType = (s.object q).vehicleType) (other : ObuList) (name : ObuName) :
    (s.setObject q object).ringFor other name =
      if other = list ∧ name = object.obuName then some object.recordRing
      else s.ringFor other name := by
  have h' := h.setObject q hname htype
  have hnew : (s.setObject q object).object q = object := Function.update_self _ _ _
  have hkeep : ∀ p, p ≠ q → (s.setObject q object).object p = s.object p :=
    fun p hp => Function.update_of_ne hp _ _
  have hnames : ∀ p, ((s.setObject q object).object p).obuName = (s.object p).obuName := by
    intro p
    by_cases hp : p = q
    · rw [hp, hnew, hname]
    · rw [hkeep p hp]
  split_ifs with hfound
  · obtain ⟨rfl, rfl⟩ := hfound
    have hring := h'.ringFor_of_mem hq
    rwa [hnew] at hring
  · refine h.ringFor_congr h' (fun p => by rw [hnames]) fun p hp hlisted => ?_
    rw [hkeep]
    rintro rfl
    refine hfound ⟨?_, hlisted.symm.trans hname.symm⟩
    exact (h.list other p hp).symm.trans (h.list list p hq)

theorem Represents.ringFor_moveToHead (h : s.Represents nodes) (hq : q ∈ nodes list)
    (other : ObuList) (name : ObuName) :
    (s.moveToHead list q).ringFor other name = s.ringFor other name := by
  refine h.ringFor_congr (h.moveToHead hq) (fun p => ?_) fun p _ _ => by rw [moveToHead_object]
  rw [moveToHead_object]
  refine and_congr_left fun _ => ?_
  by_cases hother : other = list
  · subst hother
    rw [Function.update_self, List.mem_cons, List.mem_filter, decide_eq_true_eq]
    constructor
    · rintro (rfl | ⟨hp, -⟩)
      · exact hq
      · exact hp
    · intro hp
      exact (eq_or_ne p q).imp_right fun hne => ⟨hp, hne⟩
  · rw [Function.update_of_ne hother]

/-! ## What the calls do to a ring -/

/-- The ring of a vehicle, after a record is pushed on it. -/
def ringAfter (s : ObuLists Speed) (list : ObuList) (record : ObuRecordCommonField) :
    ObuRecordRing :=
  ((s.ringFor list record.obuName).getD .cleared).pushOver record.toObuRecord

theorem Represents.ringFor_normalInsert (h : s.Represents nodes) (preferred : ℕ)
    {record : ObuRecordCommonField} (htype : record.vehicleType = .normal) (other : ObuList)
    (name : ObuName) :
    (s.normalObuRecordInsert prediction preferred record).ringFor other name =
      if other = .normal (djb2Hash record.obuName) ∧ name = record.obuName then
        some (s.ringAfter (.normal (djb2Hash record.obuName)) record)
      else s.ringFor other name := by
  simp only [normalObuRecordInsert, if_pos htype, ringAfter]
  rcases h.search_cases (.normal (djb2Hash record.obuName)) record.obuName with
    ⟨hsearch, hnone⟩ | ⟨q, hq, hsearch, hname⟩
  · rw [hsearch, h.ringFor_eq_none hnone]
    exact h.ringFor_insertNew (malloc_notMem _ _)
      (by simp [ObuObject.list, obuObjectNew, htype]) hnone other name
  · have hring := h.ringFor_of_mem hq
    rw [hname] at hring
    rw [hsearch, hring]
    dsimp only
    rw [h.ringFor_setObject hq, hname]
    · rfl
    · rfl
    · rfl

theorem Represents.ringFor_specialInsert (h : s.Represents nodes) (preferred : ℕ)
    {record : ObuRecordCommonField} (htype : record.vehicleType ≠ .normal) (other : ObuList)
    (name : ObuName) :
    (s.specialObuRecordInsert prediction preferred record).ringFor other name =
      if other = .special record.vehicleType htype ∧ name = record.obuName then
        some (s.ringAfter (.special record.vehicleType htype) record)
      else s.ringFor other name := by
  simp only [specialObuRecordInsert, dif_neg htype, ringAfter]
  rcases h.search_cases (.special record.vehicleType htype) record.obuName with
    ⟨hsearch, hnone⟩ | ⟨q, hq, hsearch, hname⟩
  · rw [hsearch, h.ringFor_eq_none hnone]
    exact h.ringFor_insertNew (malloc_notMem _ _)
      (by simp [ObuObject.list, obuObjectNew, htype]) hnone other name
  · have hring := h.ringFor_of_mem hq
    rw [hname] at hring
    rw [hsearch, hring]
    dsimp only
    rw [Represents.ringFor_moveToHead (h.setObject q ?_ ?_) hq, h.ringFor_setObject hq, hname]
    · rfl
    · rfl
    · rfl
    · rfl
    · rfl

/-- An insertion pushes the record on the ring of its vehicle, which is made for it if
there is none; other rings stay. -/
theorem Represents.ringFor_insert (h : s.Represents nodes) (prediction : SpeedPrediction Speed)
    {call : Call} {record : ObuRecordCommonField} (hcall : call.inserted = some (list, record))
    (other : ObuList) (name : ObuName) :
    (s.step prediction call).ringFor other name =
      if other = list ∧ name = record.obuName then some (s.ringAfter list record)
      else s.ringFor other name := by
  cases call with
  | normalInsert preferred inserted =>
      simp only [Call.inserted] at hcall
      split_ifs at hcall with htype
      cases hcall
      exact h.ringFor_normalInsert preferred htype other name
  | specialInsert preferred inserted =>
      simp only [Call.inserted] at hcall
      split_ifs at hcall with htype
      cases hcall
      exact h.ringFor_specialInsert preferred htype other name
  | updateStatus => cases hcall
  | garbageCollection => cases hcall

/-- Other calls leave a ring, or remove it with its object. -/
theorem Represents.ringFor_other (h : s.Represents nodes) (prediction : SpeedPrediction Speed)
    {call : Call} (hcall : call.inserted = none) (list : ObuList) (name : ObuName) :
    (s.step prediction call).ringFor list name = none ∨
      (s.step prediction call).ringFor list name = s.ringFor list name := by
  obtain ⟨nodes', h', heffect⟩ : ∃ nodes', (s.step prediction call).Represents nodes' ∧
      Effect s (s.step prediction call) nodes nodes' call := h.step call
  cases call with
  | normalInsert preferred record =>
      simp only [Call.inserted] at hcall
      split_ifs at hcall with htype
      simp only [Effect, if_neg htype] at heffect
      rw [heffect.1]
      exact Or.inr rfl
  | specialInsert preferred record =>
      simp only [Call.inserted] at hcall
      split_ifs at hcall with htype
      simp only [Effect, dif_pos htype] at heffect
      rw [heffect.1]
      exact Or.inr rfl
  | updateStatus called type status =>
      obtain ⟨rfl, hsame | ⟨htype, q, hq, -, -, hset⟩⟩ := heffect
      · rw [hsame]
        exact Or.inr rfl
      · rw [hset, h.ringFor_setObject hq]
        · refine Or.inr (ite_eq_right_iff.mpr ?_)
          rintro ⟨rfl, rfl⟩
          exact (h.ringFor_of_mem hq).symm
        · rfl
        · rfl
  | garbageCollection currentTime =>
      obtain ⟨hobject, hnodes⟩ := heffect
      by_cases hlisted : ∃ q ∈ nodes' list, (s.object q).obuName = name
      · obtain ⟨q, hq, rfl⟩ := hlisted
        have hbefore : q ∈ nodes list := by
          rw [hnodes] at hq
          exact List.mem_of_mem_filter hq
        have hring := h'.ringFor_of_mem hq
        rw [hobject] at hring
        exact Or.inr (hring.trans (h.ringFor_of_mem hbefore).symm)
      · refine Or.inl (h'.ringFor_eq_none fun q hq hname => hlisted ⟨q, hq, ?_⟩)
        rwa [hobject] at hname

/-! ## The records of a vehicle -/

/-- The lists, and the records inserted for the object that is found under a name. -/
structure Observed (Speed : Type*) where
  lists : ObuLists Speed
  records : List ObuRecord

/-- The records are those of one object: they end with it. -/
def Observed.step (prediction : SpeedPrediction Speed) (list : ObuList) (name : ObuName)
    (s : Observed Speed) (call : Call) : Observed Speed :=
  let lists := s.lists.step prediction call
  { lists
    records :=
      if lists.ringFor list name = none then []
      else s.records ++ call.recordsFor list name }

/-- The ring found, if any, keeps the latest of the records. -/
def Observed.Keeps (list : ObuList) (name : ObuName) (s : Observed Speed) : Prop :=
  ∀ ring ∈ s.lists.ringFor list name, KeepsLatest s.records ring

/-- The ring found is made of the records, and there is one if there are any. -/
def Observed.Found (list : ObuList) (name : ObuName) (s : Observed Speed) : Prop :=
  (∃ nodes, s.lists.Represents nodes) ∧
    s.lists.ringFor list name = if s.records = [] then none else some (ringOf s.records)

theorem found_initial (memory : Node → ObuObject Speed) (list : ObuList) (name : ObuName) :
    Observed.Found list name ⟨initial memory, []⟩ :=
  ⟨⟨_, represents_initial memory⟩,
    (represents_initial memory).ringFor_eq_none fun _ hq => absurd hq List.not_mem_nil⟩

theorem Observed.Found.getD_ringFor {list : ObuList} {name : ObuName} {s : Observed Speed}
    (h : s.Found list name) : (s.lists.ringFor list name).getD .cleared = ringOf s.records := by
  rw [h.2]
  split_ifs with hnil
  · rw [hnil]
    rfl
  · rfl

/-- A call that is not for the vehicle, and leaves its ring. -/
theorem Observed.Found.step_of_same {list : ObuList} {name : ObuName} {s : Observed Speed}
    {call : Call} (h : s.Found list name)
    (hrepresents : ∃ nodes, (s.lists.step prediction call).Represents nodes)
    (hring : (s.lists.step prediction call).ringFor list name = s.lists.ringFor list name)
    (hnone : call.recordsFor list name = []) :
    (s.step prediction list name call).Found list name := by
  have hrecords : (s.step prediction list name call).records = s.records := by
    by_cases hnil : s.records = []
    · simp [Observed.step, hring, h.2, hnil]
    · simp [Observed.step, hring, hnone, h.2, hnil]
  refine ⟨hrepresents, ?_⟩
  rw [hrecords, ← h.2]
  exact hring

theorem Observed.Found.step {list : ObuList} {name : ObuName} {s : Observed Speed}
    (h : s.Found list name) (call : Call) : (s.step prediction list name call).Found list name := by
  obtain ⟨nodes, hnodes⟩ := h.1
  have hrepresents : ∃ nodes', (s.lists.step prediction call).Represents nodes' :=
    (hnodes.step call).imp fun _ hstep => hstep.1
  cases hcall : call.inserted with
  | none =>
      have hnone : call.recordsFor list name = [] := by
        rw [Call.recordsFor, hcall]
      rcases hnodes.ringFor_other prediction hcall list name with hring | hring
      · exact ⟨hrepresents, by simp [Observed.step, hring]⟩
      · exact h.step_of_same hrepresents hring hnone
  | some inserted =>
      obtain ⟨other, record⟩ := inserted
      have hinsert := hnodes.ringFor_insert prediction hcall list name
      by_cases hfor : list = other ∧ name = record.obuName
      · rw [if_pos hfor] at hinsert
        obtain ⟨rfl, rfl⟩ := hfor
        refine ⟨hrepresents, ?_⟩
        have hrecords : (s.step prediction list record.obuName call).records =
            s.records ++ [record.toObuRecord] := by
          simp [Observed.step, hinsert, Call.recordsFor, hcall]
        rw [hrecords, if_neg (by simp), ringOf_concat, ← h.getD_ringFor]
        exact hinsert
      · rw [if_neg hfor] at hinsert
        exact h.step_of_same hrepresents hinsert (by simp [Call.recordsFor, hcall, hfor])

theorem found_run (prediction : SpeedPrediction Speed) (memory : Node → ObuObject Speed)
    (list : ObuList) (name : ObuName) (calls : List Call) :
    (run (Observed.step prediction list name) ⟨initial memory, []⟩ calls).Found list name :=
  run_invariant _ (fun _ call h => h.step call) _ calls (found_initial memory list name)

theorem length_recordsFor_le (call : Call) (list : ObuList) (name : ObuName) :
    (call.recordsFor list name).length ≤ 1 := by
  unfold Call.recordsFor
  split
  · split_ifs <;> simp
  · exact Nat.zero_le 1

theorem Observed.length_step_le (list : ObuList) (name : ObuName) (s : Observed Speed)
    (call : Call) :
    (s.step prediction list name call).records.length ≤ s.records.length + 1 := by
  simp only [Observed.step]
  split_ifs
  · exact Nat.zero_le _
  · rw [List.length_append]
    exact Nat.add_le_add_left (length_recordsFor_le call list name) _

/-- Up to the third record the ring is right for as few records as it ever is. -/
theorem Observed.Found.keeps_iff {list : ObuList} {name : ObuName} {s : Observed Speed}
    (h : s.Found list name) (hlength : s.records.length ≤ 3) :
    s.Keeps list name ↔ FewRecords s.records := by
  unfold Observed.Keeps
  rw [h.2]
  by_cases hnil : s.records = []
  · simp [hnil, FewRecords]
  · rw [if_neg hnil, ← keepsLatest_iff hlength hnil]
    simp

/-- The ring of a vehicle keeps its latest records all along a run if and only if there are
at most one of them, or a second one after a record of zeros. -/
theorem keepsLatest_run_iff (prediction : SpeedPrediction Speed)
    (memory : Node → ObuObject Speed) (list : ObuList) (name : ObuName) (calls : List Call) :
    (∀ done, done <+: calls →
        (run (Observed.step prediction list name) ⟨initial memory, []⟩ done).Keeps list name) ↔
      ∀ done, done <+: calls →
        FewRecords
          (run (Observed.step prediction list name) ⟨initial memory, []⟩ done).records := by
  have hfound := found_run prediction memory list name
  constructor
  · intro hkeeps done
    -- The records before a call are few, so there are not many after it.
    induction done using List.reverseRecOn with
    | nil => exact fun _ => Or.inl (Nat.zero_le 1)
    | append_singleton done call ih =>
        intro hdone
        have hbefore := ih ((List.prefix_append done [call]).trans hdone)
        refine ((hfound _).keeps_iff ?_).mp (hkeeps _ hdone)
        rw [run_concat]
        exact (Observed.length_step_le list name _ call).trans
          (Nat.succ_le_succ hbefore.length_le)
  · intro hfew done hdone
    have hrecords := hfew done hdone
    exact ((hfound done).keeps_iff (hrecords.length_le.trans (Nat.le_succ 2))).mpr hrecords

/-- A bus that is heard of at two times. -/
def busCalls : List Call :=
  [.specialInsert 0 { ObuRecordCommonField.cleared with timeSecond := 7, vehicleType := .bus },
    .specialInsert 0 { ObuRecordCommonField.cleared with timeSecond := 8, vehicleType := .bus }]

/-- The ring of the bus has a place of zeros where its first record should be. -/
theorem bus_ring_skips :
    ¬ (run (Observed.step ⟨id, fun _ speed => speed⟩ (.special .bus (by decide)) .empty)
        ⟨initial fun _ => obuObjectNew ⟨id, fun _ speed => speed⟩ .cleared, []⟩
        busCalls).Keeps (.special .bus (by decide)) .empty := by
  have htimes : (run (Observed.step ⟨id, fun _ speed => speed⟩ (.special .bus (by decide)) .empty)
      ⟨initial fun _ => obuObjectNew ⟨id, fun _ speed => speed⟩ .cleared, []⟩
      busCalls).records.map (fun record => record.timeSecond) = [7, 8] := by decide
  have hlength := congrArg List.length htimes
  rw [List.length_map] at hlength
  rw [(found_run _ _ _ _ busCalls).keeps_iff (hlength.trans_le (Nat.le_succ 2))]
  rintro (hone | ⟨record, hrecords⟩)
  · exact absurd (hlength.symm.trans_le hone) (by decide)
  · rw [hrecords] at htimes
    exact absurd (List.cons.inj htimes).1 (by decide)

end ObuLists

end AdaptiveSignal.Vehicles
