import AdaptiveSignal.Emergency.TableResolution

/-! # References between the tables

After the references are replaced, each leads to the entry with the id that is written in
its place. With the entries this makes the list that a file is accepted with the one the
file says.
-/

namespace AdaptiveSignal.Signal

open Foundation

/-! ## What the stored list should be -/

/-- The index is below the count and that of an entry with the id. -/
def RefersTo {Entry : Type} (id : Entry → UInt32) (entries : List Entry)
    (target index : UInt32) : Prop :=
  ∃ entry, entries[index.toNat]? = some entry ∧ id entry = target

structure TouchingArea.ResolvesTo (areas : List TerminateArea) (written stored : TouchingArea) :
    Prop where
  fields : stored = { written with terminateAreaId := stored.terminateAreaId }
  ids : List.Forall₂ (RefersTo TerminateArea.id areas) written.terminateAreaId
    stored.terminateAreaId

structure PlanSubPhase.ResolvesTo (areas : List TouchingArea) (written stored : PlanSubPhase) :
    Prop where
  subPhaseId : stored.subPhaseId = written.subPhaseId
  ids : List.Forall₂ (RefersTo TouchingArea.id areas) written.touchingAreaId
    stored.touchingAreaId

structure WrittenPlan.ResolvesTo (areas : List TouchingArea) (written stored : WrittenPlan) :
    Prop where
  planId : stored.planId = written.planId
  planSubPhase : List.Forall₂ (PlanSubPhase.ResolvesTo areas) written.planSubPhase
    stored.planSubPhase

/-- All that is written is stored, with references to the entries of the ids, which are
unique, as the plan ids are. -/
structure TableContents.ResolvesTo (written stored : TableContents) : Prop where
  terminateArea : stored.terminateArea = written.terminateArea
  touchingArea : List.Forall₂ (TouchingArea.ResolvesTo stored.terminateArea)
    written.touchingArea stored.touchingArea
  planTable : List.Forall₂ (WrittenPlan.ResolvesTo stored.touchingArea) written.planTable
    stored.planTable
  terminateIds : (stored.terminateArea.map TerminateArea.id).Nodup
  touchingIds : (stored.touchingArea.map TouchingArea.id).Nodup
  planIds : (stored.planTable.flatMap WrittenPlan.planId).Nodup

/-- Every reference is to an entry that there is, and the plan ids are unique. -/
structure TableContents.Accepted (contents : TableContents) : Prop where
  touchingArea : ∀ area ∈ contents.touchingArea, ∀ id ∈ area.terminateAreaId,
    id ∈ contents.terminateArea.map TerminateArea.id
  planTable : ∀ table ∈ contents.planTable, ∀ subPhase ∈ table.planSubPhase,
    ∀ id ∈ subPhase.touchingAreaId, id ∈ contents.touchingArea.map TouchingArea.id
  planIds : (contents.planTable.flatMap WrittenPlan.planId).Nodup

/-! ## The index of an id -/

section IndexOfId

variable {Entry : Type} {id : Entry → UInt32} {entries : List Entry} {target : UInt32}

theorem exists_indexOfId_iff :
    (∃ index, indexOfId id entries target = some index) ↔ target ∈ entries.map id := by
  unfold indexOfId
  rw [List.mem_map]
  cases hfind : entries.findIdx? fun entry => id entry = target with
  | none =>
      rw [List.findIdx?_eq_none_iff] at hfind
      refine iff_of_false (by simp) ?_
      rintro ⟨entry, hmem, heq⟩
      exact absurd heq (of_decide_eq_false (hfind entry hmem))
  | some i =>
      obtain ⟨hi, hfound, -⟩ := List.findIdx?_eq_some_iff_getElem.mp hfind
      exact iff_of_true ⟨_, rfl⟩ ⟨entries[i], List.getElem_mem hi, of_decide_eq_true hfound⟩

theorem refersTo_of_indexOfId (hlength : entries.length < 256) {index : UInt32}
    (hindex : indexOfId id entries target = some index) : RefersTo id entries target index := by
  obtain ⟨i, hfind, rfl⟩ := Option.map_eq_some_iff.mp hindex
  obtain ⟨hi, hfound, -⟩ := List.findIdx?_eq_some_iff_getElem.mp hfind
  refine ⟨entries[i], ?_, of_decide_eq_true hfound⟩
  rw [UInt32.toNat_ofNat', Nat.mod_eq_of_lt (by omega), List.getElem?_eq_getElem hi]

theorem RefersTo.lt {index : UInt32} (h : RefersTo id entries target index) :
    index.toNat < entries.length := by
  obtain ⟨entry, hentry, -⟩ := h
  exact (List.getElem?_eq_some_iff.mp hentry).1

end IndexOfId

/-! ## Linking -/

section Link

variable {list linked : PlanList}

theorem exists_map_iff {α β : Type*} {f : α → β} {o : Option α} :
    (∃ b, o.map f = some b) ↔ ∃ a, o = some a := by
  cases o with
  | none => simp
  | some a => simp

theorem exists_touchingLink_iff (areas : List TerminateArea) (area : TouchingArea) :
    (∃ stored, area.link areas = some stored) ↔
      ∀ id ∈ area.terminateAreaId, id ∈ areas.map TerminateArea.id := by
  simp only [← exists_indexOfId_iff, ← exists_mapM_iff]
  exact exists_map_iff

theorem exists_subPhaseLink_iff (areas : List TouchingArea) (subPhase : PlanSubPhase) :
    (∃ stored, subPhase.link areas = some stored) ↔
      ∀ id ∈ subPhase.touchingAreaId, id ∈ areas.map TouchingArea.id := by
  simp only [← exists_indexOfId_iff, ← exists_mapM_iff]
  exact exists_map_iff

theorem exists_planLink_iff (areas : List TouchingArea) (table : PlanTable) :
    (∃ stored, table.link areas = some stored) ↔
      ∀ subPhase ∈ table.planSubPhase.entries, ∀ id ∈ subPhase.touchingAreaId,
        id ∈ areas.map TouchingArea.id := by
  unfold PlanTable.link
  simp only [← exists_subPhaseLink_iff, ← GrowingArray.exists_mapM_iff]
  constructor
  · rintro ⟨stored, h⟩
    obtain ⟨subPhases, hsubPhases, -⟩ := Option.map_eq_some_iff.mp h
    exact ⟨subPhases, hsubPhases⟩
  · rintro ⟨subPhases, h⟩
    exact ⟨_, by rw [h]; rfl⟩

/-- The references lead somewhere exactly if the list is linked. -/
theorem exists_link_iff :
    (∃ linked, list.link = some linked) ↔
      (∀ area ∈ list.touchingArea.entries, ∀ id ∈ area.terminateAreaId,
          id ∈ list.terminateArea.entries.map TerminateArea.id) ∧
        ∀ table ∈ list.planTable.entries, ∀ subPhase ∈ table.planSubPhase.entries,
          ∀ id ∈ subPhase.touchingAreaId, id ∈ list.touchingArea.entries.map TouchingArea.id := by
  simp only [← exists_touchingLink_iff, ← exists_planLink_iff, ← GrowingArray.exists_mapM_iff]
  unfold PlanList.link
  constructor
  · rintro ⟨linked, h⟩
    obtain ⟨areas, hareas, h⟩ := Option.bind_eq_some_iff.mp h
    obtain ⟨tables, htables, -⟩ := Option.bind_eq_some_iff.mp h
    exact ⟨⟨areas, hareas⟩, tables, htables⟩
  · rintro ⟨⟨areas, hareas⟩, tables, htables⟩
    exact ⟨_, by rw [hareas, Option.bind_eq_bind, Option.bind_some, htables]; rfl⟩

theorem link_cases (h : list.link = some linked) :
    linked.terminateArea = list.terminateArea ∧
      list.touchingArea.mapM (TouchingArea.link list.terminateArea.entries) =
        some linked.touchingArea ∧
      list.planTable.mapM (PlanTable.link list.touchingArea.entries) = some linked.planTable := by
  obtain ⟨areas, hareas, h⟩ := Option.bind_eq_some_iff.mp h
  obtain ⟨tables, htables, h⟩ := Option.bind_eq_some_iff.mp h
  obtain rfl := Option.some.inj h
  exact ⟨rfl, hareas, htables⟩

theorem map_eq_of_forall₂ {α β γ : Type*} {related : α → β → Prop} {f : α → γ} {g : β → γ}
    {xs : List α} {ys : List β} (h : List.Forall₂ related xs ys)
    (heq : ∀ x y, related x y → f x = g y) : xs.map f = ys.map g := by
  induction h with
  | nil => rfl
  | cons hhead _ ih => rw [List.map_cons, List.map_cons, heq _ _ hhead, ih]

theorem exists_of_forall₂ {α β : Type*} {related : α → β → Prop} {xs : List α} {ys : List β}
    (h : List.Forall₂ related xs ys) {y : β} (hy : y ∈ ys) : ∃ x, related x y := by
  induction h with
  | nil => exact absurd hy List.not_mem_nil
  | cons hhead _ ih =>
      rcases List.mem_cons.mp hy with rfl | hy
      · exact ⟨_, hhead⟩
      · exact ih hy

/-- Linking keeps the ids of the entries. -/
theorem link_touchingIds (h : list.link = some linked) :
    list.touchingArea.entries.map TouchingArea.id =
      linked.touchingArea.entries.map TouchingArea.id := by
  obtain ⟨-, hareas, -⟩ := link_cases h
  refine map_eq_of_forall₂
    (mapM_eq_some_iff.mp (GrowingArray.mapM_eq_some_iff.mp hareas).1) fun area stored hstored => ?_
  obtain ⟨indices, -, rfl⟩ := Option.map_eq_some_iff.mp hstored
  rfl

theorem link_planIds (h : list.link = some linked) :
    list.planTable.entries.map (fun table => table.planId.entries) =
      linked.planTable.entries.map fun table => table.planId.entries := by
  obtain ⟨-, -, htables⟩ := link_cases h
  refine map_eq_of_forall₂
    (mapM_eq_some_iff.mp (GrowingArray.mapM_eq_some_iff.mp htables).1) fun table stored hstored => ?_
  obtain ⟨subPhases, -, rfl⟩ := Option.map_eq_some_iff.mp hstored
  rfl

/-- A reference depends on the ids of the entries only. -/
theorem refersTo_iff {Entry : Type} {id : Entry → UInt32} {entries : List Entry}
    {target index : UInt32} :
    RefersTo id entries target index ↔ (entries.map id)[index.toNat]? = some target := by
  rw [List.getElem?_map, Option.map_eq_some_iff]
  rfl

theorem touchingLink_resolves {areas : List TerminateArea} (hlength : areas.length < 256)
    {area stored : TouchingArea} (h : area.link areas = some stored) :
    TouchingArea.ResolvesTo areas area stored := by
  obtain ⟨indices, hindices, rfl⟩ := Option.map_eq_some_iff.mp h
  exact ⟨rfl, (mapM_eq_some_iff.mp hindices).imp fun _ _ => refersTo_of_indexOfId hlength⟩

theorem subPhaseLink_resolves {areas stored : List TouchingArea} (hlength : areas.length < 256)
    (hids : areas.map TouchingArea.id = stored.map TouchingArea.id)
    {subPhase linked : PlanSubPhase} (h : subPhase.link areas = some linked) :
    PlanSubPhase.ResolvesTo stored subPhase linked := by
  obtain ⟨indices, hindices, rfl⟩ := Option.map_eq_some_iff.mp h
  refine ⟨rfl, (mapM_eq_some_iff.mp hindices).imp fun target index hindex => ?_⟩
  rw [refersTo_iff, ← hids, ← refersTo_iff]
  exact refersTo_of_indexOfId hlength hindex

theorem planLink_resolves {areas stored : List TouchingArea} (hlength : areas.length < 256)
    (hids : areas.map TouchingArea.id = stored.map TouchingArea.id)
    {table linked : PlanTable} (h : table.link areas = some linked) :
    WrittenPlan.ResolvesTo stored table.written linked.written := by
  obtain ⟨subPhases, hsubPhases, rfl⟩ := Option.map_eq_some_iff.mp h
  refine ⟨rfl, (mapM_eq_some_iff.mp (GrowingArray.mapM_eq_some_iff.mp hsubPhases).1).imp ?_⟩
  exact fun subPhase linked => subPhaseLink_resolves hlength hids

end Link

/-! ## The check -/

theorem planIdsUnique_iff (planIds : List UInt8) (used : UInt8 → Bool) :
    planIdsUnique used planIds = true ↔
      (∀ planId ∈ planIds, used planId = false) ∧ planIds.Nodup := by
  induction planIds generalizing used with
  | nil => simp [planIdsUnique]
  | cons planId planIds ih =>
      rw [planIdsUnique, Bool.and_eq_true, ih, List.forall_mem_cons, List.nodup_cons]
      simp only [Bool.not_eq_true', Bool.or_eq_false_iff, decide_eq_false_iff_not]
      constructor
      · rintro ⟨hfirst, hrest, hnodup⟩
        refine ⟨⟨hfirst, fun other hother => (hrest other hother).2⟩, fun hmem => ?_, hnodup⟩
        exact (hrest planId hmem).1 rfl
      · rintro ⟨⟨hfirst, hrest⟩, hnew, hnodup⟩
        refine ⟨hfirst, fun other hother => ⟨?_, hrest other hother⟩, hnodup⟩
        rintro rfl
        exact hnew hother

/-- What is linked passes the check exactly if the plan ids are unique. -/
theorem check_iff {list linked : PlanList} (h : list.link = some linked) :
    linked.check = true ↔ (list.contents.planTable.flatMap WrittenPlan.planId).Nodup := by
  have hplanIds : list.contents.planTable.flatMap WrittenPlan.planId =
      linked.planTable.entries.flatMap fun table => table.planId.entries := by
    rw [List.flatMap_def, List.flatMap_def, ← link_planIds h, PlanList.contents, List.map_map]
    rfl
  have hids := link_touchingIds h
  obtain ⟨hterminate, hareas, htables⟩ := link_cases h
  have hareas := mapM_eq_some_iff.mp (GrowingArray.mapM_eq_some_iff.mp hareas).1
  have htables := mapM_eq_some_iff.mp (GrowingArray.mapM_eq_some_iff.mp htables).1
  unfold PlanList.check
  rw [Bool.and_eq_true, Bool.and_eq_true, planIdsUnique_iff, hplanIds]
  simp only [List.all_eq_true, decide_eq_true_eq, GrowingArray.count_toNat, hterminate]
  constructor
  · rintro ⟨⟨-, -, hnodup⟩, -⟩
    exact hnodup
  · intro hnodup
    refine ⟨⟨fun area harea index hindex => ?_, fun _ _ => trivial, hnodup⟩,
      fun table htable subPhase hsubPhase index hindex => ?_⟩
    · obtain ⟨written, hlink⟩ := exists_of_forall₂ hareas harea
      have hresolves := touchingLink_resolves list.terminateArea.length_lt hlink
      obtain ⟨target, hrefers⟩ := exists_of_forall₂ hresolves.ids hindex
      exact hrefers.lt
    · obtain ⟨written, hlink⟩ := exists_of_forall₂ htables htable
      have hresolves := planLink_resolves list.touchingArea.length_lt hids hlink
      obtain ⟨_, hsub⟩ := exists_of_forall₂ hresolves.planSubPhase hsubPhase
      obtain ⟨target, hrefers⟩ := exists_of_forall₂ hsub.ids hindex
      exact hrefers.lt

/-! ## From the file to the list -/

/-- The ids of the areas are distinct while the file is read. -/
theorem readItem_distinct {contents contents' : TableContents} {item : TableItem}
    (hread : contents.readItem item = some contents')
    (hdistinct : (contents.terminateArea.map TerminateArea.id).Nodup ∧
      (contents.touchingArea.map TouchingArea.id).Nodup) :
    (contents'.terminateArea.map TerminateArea.id).Nodup ∧
      (contents'.touchingArea.map TouchingArea.id).Nodup := by
  obtain ⟨hterminate, htouching⟩ := hdistinct
  cases item with
  | terminateTable =>
      obtain rfl := Option.some.inj hread
      exact ⟨List.nodup_nil, htouching⟩
  | touchingTable =>
      obtain rfl := Option.some.inj hread
      exact ⟨hterminate, List.nodup_nil⟩
  | terminateArea area complete =>
      simp only [TableContents.readItem] at hread
      split_ifs at hread with hmem
      obtain rfl := Option.some.inj hread
      rw [List.map_append, List.map_singleton, List.nodup_append_comm]
      exact ⟨List.nodup_cons.mpr ⟨hmem, hterminate⟩, htouching⟩
  | touchingArea area complete =>
      simp only [TableContents.readItem] at hread
      split_ifs at hread with hmem
      obtain rfl := Option.some.inj hread
      rw [List.map_append, List.map_singleton, List.nodup_append_comm]
      exact ⟨hterminate, List.nodup_cons.mpr ⟨hmem, htouching⟩⟩
  | planTable planIds complete =>
      simp only [TableContents.readItem] at hread
      split_ifs at hread
      obtain rfl := Option.some.inj hread
      exact ⟨hterminate, htouching⟩
  | subPhase subPhase complete =>
      simp only [TableContents.readItem] at hread
      split at hread
      · cases hread
      · split_ifs at hread
        obtain rfl := Option.some.inj hread
        exact ⟨hterminate, htouching⟩
  | malformed => cases hread

theorem run_next_distinct (items : List TableItem) {contents contents' : TableContents}
    (hread : run TableContents.next (some contents) items = some contents')
    (hdistinct : (contents.terminateArea.map TerminateArea.id).Nodup ∧
      (contents.touchingArea.map TouchingArea.id).Nodup) :
    (contents'.terminateArea.map TerminateArea.id).Nodup ∧
      (contents'.touchingArea.map TouchingArea.id).Nodup := by
  induction items generalizing contents with
  | nil => exact Option.some.inj hread ▸ hdistinct
  | cons item items ih =>
      rw [run_cons] at hread
      cases hnext : TableContents.next (some contents) item with
      | none =>
          rw [hnext, run_next_none] at hread
          cases hread
      | some next =>
          rw [hnext] at hread
          exact ih hread (readItem_distinct hnext hdistinct)

theorem accepted_iff (list : PlanList) :
    list.contents.Accepted ↔ ∃ linked, list.link = some linked ∧ linked.check = true := by
  have hlink := @exists_link_iff list
  constructor
  · rintro ⟨htouching, hplan, hplanIds⟩
    obtain ⟨linked, h⟩ := hlink.mpr ⟨htouching, fun table htable =>
      hplan table.written (List.mem_map_of_mem htable)⟩
    exact ⟨linked, h, (check_iff h).mpr hplanIds⟩
  · rintro ⟨linked, h, hcheck⟩
    obtain ⟨htouching, hplan⟩ := hlink.mp ⟨linked, h⟩
    refine ⟨htouching, fun table htable => ?_, (check_iff h).mp hcheck⟩
    obtain ⟨stored, hstored, rfl⟩ := List.mem_map.mp htable
    exact hplan stored hstored

/-- What is linked and checked resolves what was read. -/
theorem link_resolves {list linked : PlanList} (h : list.link = some linked)
    (hcheck : linked.check = true)
    (hterminate : (list.contents.terminateArea.map TerminateArea.id).Nodup)
    (htouching : (list.contents.touchingArea.map TouchingArea.id).Nodup) :
    list.contents.ResolvesTo linked.contents := by
  have hids := link_touchingIds h
  have hplanIds := (check_iff h).mp hcheck
  have hsame := link_planIds h
  obtain ⟨hareasSame, hareas, htables⟩ := link_cases h
  have hareas := mapM_eq_some_iff.mp (GrowingArray.mapM_eq_some_iff.mp hareas).1
  have htables := mapM_eq_some_iff.mp (GrowingArray.mapM_eq_some_iff.mp htables).1
  have hterminateSame : linked.contents.terminateArea = list.contents.terminateArea := by
    rw [PlanList.contents, PlanList.contents, hareasSame]
  refine ⟨hterminateSame, ?_, ?_, by rwa [hterminateSame], ?_, ?_⟩
  · rw [hterminateSame]
    exact hareas.imp fun _ _ => touchingLink_resolves list.terminateArea.length_lt
  · refine List.forall₂_map_left_iff.mpr (List.forall₂_map_right_iff.mpr ?_)
    exact htables.imp fun _ _ => planLink_resolves list.touchingArea.length_lt hids
  · change (linked.touchingArea.entries.map TouchingArea.id).Nodup
    rwa [← hids]
  · rw [List.flatMap_def] at hplanIds ⊢
    simp only [PlanList.contents, List.map_map] at hplanIds ⊢
    change (linked.planTable.entries.map fun table => table.planId.entries).flatten.Nodup
    rwa [← hsame]

/-- What a file asks for. -/
def tableFileItems (file : List Char) : List TableItem := tableItems .outside (tableLines file)

/-- All entries of a file, whatever table they stand in. -/
def writtenEntries (file : List Char) : TableContents :=
  run TableContents.write .empty (tableFileItems file)

/-- The entries of the last tables of a file; none if a line is an error. -/
def readEntries (file : List Char) : Option TableContents :=
  run TableContents.next (some .empty) (tableFileItems file)

/-- The configuration stays within its arrays; a list it accepts has the entries of the
file with their references resolved, and otherwise the list is all zero. -/
def TableFileResolves (file : Option (List Char)) : Prop :=
  ∃ ret list, evspTableConfig file = some (ret, list) ∧
    (ret = 1 → ∃ text ∈ file, (writtenEntries text).ResolvesTo list.contents) ∧
    (ret = -1 → list = .zero)

/-- No line brings the 256th entry of a table, and in a file that is accepted no table of
areas starts over once it has entries. -/
def TableFileFits (file : List Char) : Prop :=
  Guarded TableContents.next HasRoom (some .empty) (tableFileItems file) ∧
    ((∃ contents ∈ readEntries file, contents.Accepted) →
      Guarded TableContents.next KeepsEntries (some .empty) (tableFileItems file))

/-- An accepted list resolves the file exactly if no table starts over. -/
theorem accepted_resolves_iff {file : List Char} {list linked : PlanList}
    (hread : readEntries file = some list.contents) (hlink : list.link = some linked)
    (hcheck : linked.check = true) :
    (writtenEntries file).ResolvesTo linked.contents ↔
      Guarded TableContents.next KeepsEntries (some .empty) (tableFileItems file) := by
  obtain ⟨hterminate, htouching⟩ :=
    run_next_distinct (tableFileItems file) hread ⟨List.nodup_nil, List.nodup_nil⟩
  have hlinked := link_resolves hlink hcheck hterminate htouching
  constructor
  · intro hresolves
    by_contra hloses
    have hfewer := (areas_run_next (tableFileItems file) hread le_rfl).2 (Or.inr hloses)
    have htouched := hresolves.touchingArea.length_eq
    rw [← hlinked.touchingArea.length_eq] at htouched
    change list.contents.areas < (writtenEntries file).areas at hfewer
    unfold TableContents.areas at hfewer
    rw [htouched, ← hresolves.terminateArea, hlinked.terminateArea] at hfewer
    exact lt_irrefl _ hfewer
  · intro hkeeps
    have hwritten : writtenEntries file = list.contents :=
      (run_next_eq_write (tableFileItems file) hread hkeeps).symm
    rwa [hwritten]

theorem evspTableConfig_some (text : List Char) :
    evspTableConfig (some text) =
      match run Reading.step (.reading .zero) (tableFileItems text) with
      | .outOfBounds => none
      | .rejected => some (-1, .zero)
      | .reading list =>
          match list.link with
          | none => some (-1, .zero)
          | some list => if list.check then some (1, list) else some (-1, .zero) := rfl

theorem rejected_resolves {file : Option (List Char)}
    (h : evspTableConfig file = some (-1, .zero)) : TableFileResolves file :=
  ⟨-1, .zero, h, fun hone => absurd hone (by decide), fun _ => rfl⟩

/-- A file resolves exactly if it fits. -/
theorem tableFileResolves_iff (file : Option (List Char)) :
    TableFileResolves file ↔ ∀ text ∈ file, TableFileFits text := by
  cases file with
  | none => exact iff_of_true (rejected_resolves rfl) fun text htext => absurd htext (by simp)
  | some text =>
      simp only [Option.mem_some_iff, forall_eq']
      have hagrees := run_agrees (tableFileItems text) .zero
      change (Guarded _ _ (some TableContents.empty) _ ∧ Reading.Agrees _ (readEntries text)) ∨ _
        at hagrees
      unfold TableFileFits
      rcases hagrees with ⟨hroom, hagrees⟩ | ⟨hfull, hout⟩
      · rw [and_iff_right hroom]
        cases hrun : run Reading.step (.reading .zero) (tableFileItems text) with
        | outOfBounds =>
            rw [hrun] at hagrees
            exact hagrees.elim
        | rejected =>
            rw [hrun] at hagrees
            have hread : readEntries text = none := hagrees
            refine iff_of_true (rejected_resolves ?_) ?_
            · rw [evspTableConfig_some, hrun]
            · rintro ⟨contents, hcontents, -⟩
              rw [hread] at hcontents
              cases hcontents
        | reading list =>
            rw [hrun] at hagrees
            have hread : readEntries text = some list.contents := hagrees
            have hconfig : evspTableConfig (some text) =
                match list.link with
                | none => some (-1, .zero)
                | some list => if list.check then some (1, list) else some (-1, .zero) := by
              rw [evspTableConfig_some, hrun]
            rw [hread]
            simp only [Option.mem_some_iff, exists_eq_left', accepted_iff]
            cases hlink : list.link with
            | none =>
                rw [hlink] at hconfig
                exact iff_of_true (rejected_resolves hconfig) (by simp)
            | some linked =>
                rw [hlink] at hconfig
                by_cases hcheck : linked.check = true
                · have hconfig : evspTableConfig (some text) = some (1, linked) :=
                    hconfig.trans (if_pos hcheck)
                  rw [← accepted_resolves_iff hread hlink hcheck]
                  constructor
                  · rintro ⟨ret, other, hother, hone, -⟩ -
                    obtain ⟨rfl, rfl⟩ := Prod.mk.inj (Option.some.inj (hconfig.symm.trans hother))
                    obtain ⟨written, hwritten, hresolves⟩ := hone rfl
                    rwa [Option.mem_some_iff.mp hwritten]
                  · intro hresolves
                    refine ⟨1, linked, hconfig, fun _ => ⟨text, rfl, hresolves ?_⟩, ?_⟩
                    · exact ⟨linked, rfl, hcheck⟩
                    · exact fun h => absurd h (by decide)
                · refine iff_of_true (rejected_resolves ?_) ?_
                  · rw [hconfig]
                    exact if_neg hcheck
                  · rintro ⟨other, hother, hcheckOther⟩
                    exact absurd (Option.some.inj hother ▸ hcheckOther) hcheck
      · refine iff_of_false ?_ fun h => hfull h.1
        rintro ⟨ret, list, hconfig, -⟩
        rw [evspTableConfig] at hconfig
        simp only [← tableFileItems.eq_1, hout] at hconfig
        cases hconfig

/-- A plan with as many phases as there are lines between its first and last line. -/
def subPhaseFile (count : ℕ) : List Char :=
  "plan_table 1\n".toList ++ (List.replicate count "1,0,\n".toList).flatten ++
    "plan_table_end".toList

/-- A file whose second table of terminate areas replaces the first. -/
def replacedAreaFile : List Char :=
  ("terminate_area_table\n7,0,\nterminate_area_table_end\n" ++
    "terminate_area_table\nterminate_area_table_end\n").toList

/-- The 256th phase of a plan is stored behind the array, and an area of an earlier table is
not stored in a list that is accepted. -/
theorem overflowing_and_replaced :
    ((evspTableConfig (some (subPhaseFile 256))).isNone = true ∧
      ¬ TableFileResolves (some (subPhaseFile 256))) ∧
    ((evspTableConfig (some replacedAreaFile)).map
        (fun result => (result.1, result.2.terminateArea.entries)) = some (1, []) ∧
      ¬ TableFileResolves (some replacedAreaFile)) := by
  have hoverflow : (evspTableConfig (some (subPhaseFile 256))).isNone = true := by decide +kernel
  have hreplaced : (evspTableConfig (some replacedAreaFile)).map
      (fun result => (result.1, result.2.terminateArea.entries)) = some (1, []) := by
    decide +kernel
  have hwritten : (writtenEntries replacedAreaFile).terminateArea ≠ [] := by decide +kernel
  refine ⟨⟨hoverflow, ?_⟩, hreplaced, ?_⟩
  · rintro ⟨ret, list, hconfig, -⟩
    rw [hconfig] at hoverflow
    cases hoverflow
  · rintro ⟨ret, list, hconfig, hone, -⟩
    rw [hconfig, Option.map_some, Option.some.injEq, Prod.mk.injEq] at hreplaced
    obtain ⟨written, hmem, hresolves⟩ := hone hreplaced.1
    rw [Option.mem_some_iff] at hmem
    subst hmem
    exact hwritten (hresolves.terminateArea.symm.trans hreplaced.2)

end AdaptiveSignal.Signal
