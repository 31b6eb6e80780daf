import AdaptiveSignal.Emergency.TableConfig

/-! # Whether the tables are what the file says

The entries of the file are collected without counts and capacities. The stored tables
are these entries, with the ids of other entries replaced by indices, unless an array
overflows or a second table of a kind starts over.
-/

namespace AdaptiveSignal.Signal

open Foundation

/-- A plan table as written. -/
structure WrittenPlan where
  planId : List UInt8
  planSubPhase : List PlanSubPhase

/-- Entries of the three kinds. -/
structure TableContents where
  terminateArea : List TerminateArea
  touchingArea : List TouchingArea
  planTable : List WrittenPlan

def PlanTable.written (table : PlanTable) : WrittenPlan :=
  ⟨table.planId.entries, table.planSubPhase.entries⟩

def PlanList.contents (list : PlanList) : TableContents where
  terminateArea := list.terminateArea.entries
  touchingArea := list.touchingArea.entries
  planTable := list.planTable.entries.map PlanTable.written

namespace TableContents

def empty : TableContents := ⟨[], [], []⟩

/-- The entries that count after a line; none if it is an error. -/
def readItem (contents : TableContents) : TableItem → Option TableContents
  | .terminateTable => some { contents with terminateArea := [] }
  | .terminateArea area complete =>
      if area.id ∈ contents.terminateArea.map TerminateArea.id then none
      else if complete then
        some { contents with terminateArea := contents.terminateArea ++ [area] }
      else none
  | .touchingTable => some { contents with touchingArea := [] }
  | .touchingArea area complete =>
      if area.id ∈ contents.touchingArea.map TouchingArea.id then none
      else if complete then
        some { contents with touchingArea := contents.touchingArea ++ [area] }
      else none
  | .planTable planIds complete =>
      if complete then some { contents with planTable := contents.planTable ++ [⟨planIds, []⟩] }
      else none
  | .subPhase subPhase complete =>
      match contents.planTable.getLast? with
      | none => none
      | some table =>
          if complete then
            some { contents with
              planTable := contents.planTable.set (contents.planTable.length - 1)
                { table with planSubPhase := table.planSubPhase ++ [subPhase] } }
          else none
  | .malformed => none

def next (contents : Option TableContents) (item : TableItem) : Option TableContents :=
  contents.bind fun contents => contents.readItem item

/-- There is room for what a line brings: its place is below the 256th. -/
def Room (contents : TableContents) : TableItem → Prop
  | .terminateArea area _ =>
      area.id ∈ contents.terminateArea.map TerminateArea.id ∨ contents.terminateArea.length < 255
  | .touchingArea area _ =>
      area.id ∈ contents.touchingArea.map TouchingArea.id ∨ contents.touchingArea.length < 255
  | .planTable planIds _ => planIds.length ≤ 255 ∧ contents.planTable.length < 255
  | .subPhase _ _ => ∀ table ∈ contents.planTable.getLast?, table.planSubPhase.length < 255
  | _ => True

/-- A table that starts has not had entries before. -/
def Keeps (contents : TableContents) : TableItem → Prop
  | .terminateTable => contents.terminateArea = []
  | .touchingTable => contents.touchingArea = []
  | _ => True

/-- The entries of the file after a line, whatever table they stand in. -/
def write (contents : TableContents) : TableItem → TableContents
  | .terminateArea area _ =>
      { contents with terminateArea := contents.terminateArea ++ [area] }
  | .touchingArea area _ => { contents with touchingArea := contents.touchingArea ++ [area] }
  | .planTable planIds _ => { contents with planTable := contents.planTable ++ [⟨planIds, []⟩] }
  | .subPhase subPhase _ =>
      match contents.planTable.getLast? with
      | some table => { contents with
          planTable := contents.planTable.set (contents.planTable.length - 1)
            { table with planSubPhase := table.planSubPhase ++ [subPhase] } }
      | none => contents
  | _ => contents

end TableContents

/-! ## Storing is reading while there is room -/

section Storing

variable {list : PlanList} {item : TableItem}

theorem pushPlanIds_cases (planIds : List UInt8) (ids : GrowingArray UInt8) :
    (ids.entries.length + planIds.length ≤ 255 ∧ ∃ ids', pushPlanIds ids planIds = some ids' ∧
        ids'.entries = ids.entries ++ planIds) ∨
      (¬ ids.entries.length + planIds.length ≤ 255 ∧ pushPlanIds ids planIds = none) := by
  induction planIds generalizing ids with
  | nil =>
      have hlength := ids.length_lt
      exact Or.inl ⟨by simp only [List.length_nil]; omega, ids, rfl, by rw [List.append_nil]⟩
  | cons planId planIds ih =>
      rw [pushPlanIds, List.length_cons]
      rcases ids.push_cases planId with ⟨hroom, ids', hpush, hentries⟩ | ⟨hfull, hpush⟩
      · rw [hpush]
        have hlength : ids'.entries.length = ids.entries.length + 1 := by
          rw [hentries, List.length_append]
          rfl
        rcases ih ids' with ⟨hfits, rest, hrest, happend⟩ | ⟨hlong, hrest⟩
        · refine Or.inl ⟨by omega, rest, hrest, ?_⟩
          rw [happend, hentries, List.append_assoc]
          rfl
        · exact Or.inr ⟨by omega, hrest⟩
      · rw [hpush]
        exact Or.inr ⟨by omega, rfl⟩

/-- What became of a line agrees with reading it into lists. -/
def Reading.Agrees : Reading → Option TableContents → Prop
  | .reading list, contents => contents = some list.contents
  | .rejected, contents => contents = none
  | .outOfBounds, _ => False

/-- A line that there is room for is stored as it is read, another is stored behind an array. -/
theorem readItem_cases (list : PlanList) (item : TableItem) :
    (list.contents.Room item ∧ (list.readItem item).Agrees (list.contents.readItem item)) ∨
      (¬ list.contents.Room item ∧ list.readItem item = .outOfBounds) := by
  cases item with
  | terminateTable => exact Or.inl ⟨trivial, rfl⟩
  | touchingTable => exact Or.inl ⟨trivial, rfl⟩
  | malformed => exact Or.inl ⟨trivial, rfl⟩
  | terminateArea area complete =>
      simp only [PlanList.readItem, TableContents.readItem, TableContents.Room]
      have hsame : list.contents.terminateArea = list.terminateArea.entries := rfl
      by_cases hmem : area.id ∈ list.terminateArea.entries.map TerminateArea.id
      · rw [if_pos hmem, if_pos (hsame ▸ hmem)]
        exact Or.inl ⟨Or.inl hmem, rfl⟩
      · rw [if_neg hmem, if_neg (hsame ▸ hmem), hsame, or_iff_right hmem]
        rcases list.terminateArea.push_cases area with
          ⟨hroom, areas, hpush, hentries⟩ | ⟨hfull, hpush⟩
        · rw [hpush]
          refine Or.inl ⟨hroom, ?_⟩
          cases complete with
          | false => rfl
          | true =>
              change some _ = some { list with terminateArea := areas }.contents
              simp only [PlanList.contents, hentries]
        · rw [hpush]
          exact Or.inr ⟨hfull, rfl⟩
  | touchingArea area complete =>
      simp only [PlanList.readItem, TableContents.readItem, TableContents.Room]
      have hsame : list.contents.touchingArea = list.touchingArea.entries := rfl
      by_cases hmem : area.id ∈ list.touchingArea.entries.map TouchingArea.id
      · rw [if_pos hmem, if_pos (hsame ▸ hmem)]
        exact Or.inl ⟨Or.inl hmem, rfl⟩
      · rw [if_neg hmem, if_neg (hsame ▸ hmem), hsame, or_iff_right hmem]
        rcases list.touchingArea.push_cases area with
          ⟨hroom, areas, hpush, hentries⟩ | ⟨hfull, hpush⟩
        · rw [hpush]
          refine Or.inl ⟨hroom, ?_⟩
          cases complete with
          | false => rfl
          | true =>
              change some _ = some { list with touchingArea := areas }.contents
              simp only [PlanList.contents, hentries]
        · rw [hpush]
          exact Or.inr ⟨hfull, rfl⟩
  | planTable planIds complete =>
      simp only [PlanList.readItem, TableContents.readItem, TableContents.Room, PlanList.contents,
        List.length_map]
      rcases pushPlanIds_cases planIds .empty with ⟨hfits, ids, hpush, hids⟩ | ⟨hlong, hpush⟩
      · rw [hpush]
        dsimp only
        rcases list.planTable.push_cases ⟨ids, .empty⟩ with
          ⟨hroom, tables, hpushTable, hentries⟩ | ⟨hfull, hpushTable⟩
        · rw [hpushTable]
          refine Or.inl ⟨⟨by simpa [GrowingArray.empty] using hfits, hroom⟩, ?_⟩
          cases complete with
          | false => rfl
          | true =>
              change some _ = some { list with planTable := tables }.contents
              simp only [PlanList.contents, hentries, List.map_append, List.map_cons,
                List.map_nil, PlanTable.written, hids]
              rfl
        · rw [hpushTable]
          exact Or.inr ⟨fun h => hfull h.2, rfl⟩
      · rw [hpush]
        exact Or.inr ⟨fun h => hlong (by simpa [GrowingArray.empty] using h.1), rfl⟩
  | subPhase subPhase complete =>
      simp only [PlanList.readItem, TableContents.readItem, TableContents.Room, PlanList.contents,
        List.getLast?_map, List.length_map]
      cases hlast : list.planTable.entries.getLast? with
      | none => exact Or.inl ⟨by simp, rfl⟩
      | some table =>
          simp only [Option.map_some, Option.mem_some_iff, forall_eq']
          rcases table.planSubPhase.push_cases subPhase with
            ⟨hroom, subPhases, hpush, hentries⟩ | ⟨hfull, hpush⟩
          · rw [hpush]
            refine Or.inl ⟨hroom, ?_⟩
            cases complete with
            | false => rfl
            | true =>
                change some _ = some (PlanList.contents { list with
                  planTable := list.planTable.setLast { table with planSubPhase := subPhases } })
                simp only [PlanList.contents, GrowingArray.setLast, List.map_set,
                  PlanTable.written, hentries]
          · rw [hpush]
            exact Or.inr ⟨hfull, rfl⟩

/-- There is room wherever the file is still read. -/
def HasRoom (contents : Option TableContents) (item : TableItem) : Prop :=
  ∀ c ∈ contents, c.Room item

/-- No table starts over, wherever the file is still read. -/
def KeepsEntries (contents : Option TableContents) (item : TableItem) : Prop :=
  ∀ c ∈ contents, c.Keeps item

theorem run_step_rejected (items : List TableItem) :
    run Reading.step .rejected items = .rejected := by
  induction items with
  | nil => rfl
  | cons item items ih => exact ih

theorem run_step_outOfBounds (items : List TableItem) :
    run Reading.step .outOfBounds items = .outOfBounds := by
  induction items with
  | nil => rfl
  | cons item items ih => exact ih

theorem run_next_none (items : List TableItem) : run TableContents.next none items = none := by
  induction items with
  | nil => rfl
  | cons item items ih => exact ih

theorem guarded_none {ok : Option TableContents → TableItem → Prop}
    (hnone : ∀ item, ok none item) (items : List TableItem) :
    Guarded TableContents.next ok none items := by
  induction items with
  | nil => trivial
  | cons item items ih => exact ⟨hnone item, ih⟩

/-- The lines are stored as they are read, as long as there is room. -/
theorem run_agrees (items : List TableItem) (list : PlanList) :
    (Guarded TableContents.next HasRoom (some list.contents) items ∧
        (run Reading.step (.reading list) items).Agrees
          (run TableContents.next (some list.contents) items)) ∨
      (¬ Guarded TableContents.next HasRoom (some list.contents) items ∧
        run Reading.step (.reading list) items = .outOfBounds) := by
  induction items generalizing list with
  | nil => exact Or.inl ⟨trivial, rfl⟩
  | cons item items ih =>
      rw [run_cons, run_cons]
      change (_ ∧ (run _ (list.readItem item) items).Agrees
        (run _ (list.contents.readItem item) items)) ∨ (_ ∧ run _ (list.readItem item) items = _)
      rcases readItem_cases list item with ⟨hroom, hagrees⟩ | ⟨hfull, hout⟩
      · have hhas : HasRoom (some list.contents) item := fun c hc => by
          rw [Option.mem_some_iff] at hc
          exact hc ▸ hroom
        cases hread : list.readItem item with
        | reading next =>
            rw [hread] at hagrees
            have hnext : list.contents.readItem item = some next.contents := hagrees
            rw [hnext]
            refine (ih next).imp (fun h => ⟨⟨hhas, ?_⟩, h.2⟩) fun h => ⟨fun hguarded => ?_, h.2⟩
            · change Guarded _ _ (list.contents.readItem item) items
              rw [hnext]
              exact h.1
            · have hrest := hguarded.2
              change Guarded _ _ (list.contents.readItem item) items at hrest
              rw [hnext] at hrest
              exact h.1 hrest
        | rejected =>
            rw [hread] at hagrees
            have hnext : list.contents.readItem item = none := hagrees
            rw [hnext, run_step_rejected, run_next_none]
            refine Or.inl ⟨⟨hhas, ?_⟩, rfl⟩
            change Guarded _ _ (list.contents.readItem item) items
            rw [hnext]
            exact guarded_none (fun item c hc => absurd hc (by simp)) items
        | outOfBounds =>
            rw [hread] at hagrees
            exact hagrees.elim
      · rw [hout, run_step_outOfBounds]
        exact Or.inr ⟨fun hguarded => hfull (hguarded.1 _ rfl), rfl⟩

end Storing

/-! ## What is read is what is written while no table starts over -/

section Written

variable {contents contents' : TableContents} {item : TableItem}

namespace TableContents

def areas (contents : TableContents) : ℕ :=
  contents.terminateArea.length + contents.touchingArea.length

/-- A line that keeps the entries adds what it writes. -/
theorem readItem_eq_write (hread : contents.readItem item = some contents')
    (hkeeps : contents.Keeps item) : contents' = contents.write item := by
  cases item with
  | terminateTable =>
      change contents.terminateArea = [] at hkeeps
      rw [← Option.some.inj hread, ← hkeeps]
      rfl
  | touchingTable =>
      change contents.touchingArea = [] at hkeeps
      rw [← Option.some.inj hread, ← hkeeps]
      rfl
  | terminateArea area complete =>
      simp only [readItem] at hread
      split_ifs at hread
      exact (Option.some.inj hread).symm
  | touchingArea area complete =>
      simp only [readItem] at hread
      split_ifs at hread
      exact (Option.some.inj hread).symm
  | planTable planIds complete =>
      simp only [readItem] at hread
      split_ifs at hread
      exact (Option.some.inj hread).symm
  | subPhase subPhase complete =>
      cases hlast : contents.planTable.getLast? with
      | none => simp [readItem, hlast] at hread
      | some table =>
          simp only [readItem, hlast] at hread
          split_ifs at hread
          simp only [write, hlast]
          exact (Option.some.inj hread).symm
  | malformed => simp [readItem] at hread

/-- The areas that a line brings. -/
def brought : TableItem → ℕ
  | .terminateArea _ _ | .touchingArea _ _ => 1
  | _ => 0

theorem areas_write (contents : TableContents) (item : TableItem) :
    (contents.write item).areas = contents.areas + brought item := by
  cases item with
  | terminateArea area complete =>
      simp only [write, areas, brought, List.length_append, List.length_singleton]
      omega
  | touchingArea area complete =>
      simp only [write, areas, brought, List.length_append, List.length_singleton]
      omega
  | subPhase subPhase complete =>
      simp only [write]
      cases contents.planTable.getLast? <;> rfl
  | _ => rfl

/-- A table that starts over loses its entries. -/
theorem areas_readItem_lt (hread : contents.readItem item = some contents')
    (hloses : ¬ contents.Keeps item) : contents'.areas < contents.areas + brought item := by
  cases item with
  | terminateTable =>
      have hpos := List.length_pos_iff.mpr hloses
      rw [← Option.some.inj hread]
      simp only [areas, brought, List.length_nil]
      omega
  | touchingTable =>
      have hpos := List.length_pos_iff.mpr hloses
      rw [← Option.some.inj hread]
      simp only [areas, brought, List.length_nil]
      omega
  | _ => exact absurd trivial hloses

theorem areas_readItem_le (hread : contents.readItem item = some contents') :
    contents'.areas ≤ contents.areas + brought item := by
  by_cases hkeeps : contents.Keeps item
  · rw [readItem_eq_write hread hkeeps, areas_write]
  · exact (areas_readItem_lt hread hkeeps).le

end TableContents

/-- While no table starts over, the entries that count are those written. -/
theorem run_next_eq_write (items : List TableItem) {contents contents' : TableContents}
    (hread : run TableContents.next (some contents) items = some contents')
    (hkeeps : Guarded TableContents.next KeepsEntries (some contents) items) :
    contents' = run TableContents.write contents items := by
  induction items generalizing contents with
  | nil => exact (Option.some.inj hread).symm
  | cons item items ih =>
      rw [run_cons] at hread
      cases hnext : TableContents.next (some contents) item with
      | none =>
          rw [hnext, run_next_none] at hread
          cases hread
      | some next =>
          obtain ⟨hkeep, hkeeps⟩ := hkeeps
          rw [hnext] at hread hkeeps
          rw [ih hread hkeeps, run_cons, TableContents.readItem_eq_write hnext (hkeep _ rfl)]

/-- There are never more areas than written, and fewer once a table has started over. -/
theorem areas_run_next (items : List TableItem) {contents contents' written : TableContents}
    (hread : run TableContents.next (some contents) items = some contents')
    (hwritten : contents.areas ≤ written.areas) :
    contents'.areas ≤ (run TableContents.write written items).areas ∧
      (contents.areas < written.areas ∨
          ¬ Guarded TableContents.next KeepsEntries (some contents) items →
        contents'.areas < (run TableContents.write written items).areas) := by
  induction items generalizing contents written with
  | nil =>
      obtain rfl := Option.some.inj hread
      exact ⟨hwritten, fun h => h.resolve_right fun h => h trivial⟩
  | cons item items ih =>
      rw [run_cons] at hread ⊢
      cases hnext : TableContents.next (some contents) item with
      | none =>
          rw [hnext, run_next_none] at hread
          cases hread
      | some next =>
          rw [hnext] at hread
          have hwrite := TableContents.areas_write written item
          have hle := TableContents.areas_readItem_le hnext
          obtain ⟨hrest, hfewer⟩ := @ih next (written.write item) hread (by omega)
          refine ⟨hrest, fun hlost => hfewer ?_⟩
          rcases hlost with hfewer | hlost
          · exact Or.inl (by omega)
          · by_cases hkeep : contents.Keeps item
            · refine Or.inr fun hkeeps => hlost ⟨fun c hc => ?_, ?_⟩
              · rw [Option.mem_some_iff] at hc
                exact hc ▸ hkeep
              · rwa [hnext]
            · have hlt := TableContents.areas_readItem_lt hnext hkeep
              exact Or.inl (by omega)

end Written

end AdaptiveSignal.Signal
