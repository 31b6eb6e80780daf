import AdaptiveSignal.Emergency.TableFile
import AdaptiveSignal.Foundation.GrowingArray
import AdaptiveSignal.Foundation.Run
import Mathlib.Data.List.Forall2

/-! # The tables of the touching areas

The entries of the file are stored in arrays with counts of a byte. After the last line
the ids by which entries refer to each other are replaced by indices. What is stored is
compared with what is written in the file, of which no count is kept.
-/

namespace AdaptiveSignal.Signal

open Foundation

/-- `EVSP_plan_table_t`. -/
structure PlanTable where
  planId : GrowingArray UInt8
  planSubPhase : GrowingArray PlanSubPhase

/-- `EVSP_plan_list_t`. -/
structure PlanList where
  terminateArea : GrowingArray TerminateArea
  touchingArea : GrowingArray TouchingArea
  planTable : GrowingArray PlanTable

/-- All zero. -/
def PlanList.zero : PlanList := ⟨.empty, .empty, .empty⟩

/-! ## Storing the entries -/

/-- What has become of the lines so far. -/
inductive Reading
  | reading (list : PlanList)
  | rejected
  /-- An entry was stored behind its array. -/
  | outOfBounds

/-- Store the plan ids of a table. -/
def pushPlanIds (ids : GrowingArray UInt8) : List UInt8 → Option (GrowingArray UInt8)
  | [] => some ids
  | planId :: planIds =>
      match ids.push planId with
      | none => none
      | some ids => pushPlanIds ids planIds

namespace PlanList

/-- What a line does to the tables. An entry whose line breaks off has its place already. -/
def readItem (list : PlanList) : TableItem → Reading
  | .terminateTable => .reading { list with terminateArea := list.terminateArea.reset }
  | .terminateArea area complete =>
      if area.id ∈ list.terminateArea.entries.map TerminateArea.id then .rejected
      else
        match list.terminateArea.push area with
        | none => .outOfBounds
        | some areas =>
            if complete then .reading { list with terminateArea := areas } else .rejected
  | .touchingTable => .reading { list with touchingArea := list.touchingArea.reset }
  | .touchingArea area complete =>
      if area.id ∈ list.touchingArea.entries.map TouchingArea.id then .rejected
      else
        match list.touchingArea.push area with
        | none => .outOfBounds
        | some areas =>
            if complete then .reading { list with touchingArea := areas } else .rejected
  | .planTable planIds complete =>
      match pushPlanIds .empty planIds with
      | none => .outOfBounds
      | some planId =>
          match list.planTable.push ⟨planId, .empty⟩ with
          | none => .outOfBounds
          | some tables =>
              if complete then .reading { list with planTable := tables } else .rejected
  | .subPhase subPhase complete =>
      match list.planTable.entries.getLast? with
      | none => .rejected
      | some table =>
          match table.planSubPhase.push subPhase with
          | none => .outOfBounds
          | some subPhases =>
              if complete then
                .reading { list with
                  planTable := list.planTable.setLast { table with planSubPhase := subPhases } }
              else .rejected
  | .malformed => .rejected

end PlanList

/-- After an error the rest of the file is not read. -/
def Reading.step : Reading → TableItem → Reading
  | .reading list, item => list.readItem item
  | .rejected, _ => .rejected
  | .outOfBounds, _ => .outOfBounds

/-! ## Linking them -/

/-- The index of the entry with an id. -/
def indexOfId {Entry : Type} (id : Entry → UInt32) (entries : List Entry) (target : UInt32) :
    Option UInt32 :=
  (entries.findIdx? fun entry => id entry = target).map UInt32.ofNat

def TouchingArea.link (areas : List TerminateArea) (area : TouchingArea) : Option TouchingArea :=
  (area.terminateAreaId.mapM (indexOfId TerminateArea.id areas)).map fun indices =>
    { area with terminateAreaId := indices }

def PlanSubPhase.link (areas : List TouchingArea) (subPhase : PlanSubPhase) :
    Option PlanSubPhase :=
  (subPhase.touchingAreaId.mapM (indexOfId TouchingArea.id areas)).map fun indices =>
    { subPhase with touchingAreaId := indices }

def PlanTable.link (areas : List TouchingArea) (table : PlanTable) : Option PlanTable :=
  (table.planSubPhase.mapM (PlanSubPhase.link areas)).map fun subPhases =>
    { table with planSubPhase := subPhases }

/-- No plan id is one of those used before. -/
def planIdsUnique : (UInt8 → Bool) → List UInt8 → Bool
  | _, [] => true
  | used, planId :: planIds =>
      !used planId && planIdsUnique (fun id => id = planId || used id) planIds

namespace PlanList

/-- The loops over the references, which reject the file if there is no such entry. -/
def link (list : PlanList) : Option PlanList := do
  let touchingArea ← list.touchingArea.mapM (TouchingArea.link list.terminateArea.entries)
  let planTable ← list.planTable.mapM (PlanTable.link list.touchingArea.entries)
  return { list with touchingArea := touchingArea, planTable := planTable }

/-- `EVSP_plan_list_check`. -/
def check (list : PlanList) : Bool :=
  (list.touchingArea.entries.all fun area =>
      area.terminateAreaId.all fun index => index.toNat < list.terminateArea.count.toNat) &&
    planIdsUnique (fun _ => false)
      (list.planTable.entries.flatMap fun table => table.planId.entries) &&
    list.planTable.entries.all fun table =>
      table.planSubPhase.entries.all fun subPhase =>
        subPhase.touchingAreaId.all fun index => index.toNat < list.touchingArea.count.toNat

end PlanList

/-- `EVSP_table_config` on a file, none if there is no such file: what it returns and the
list it leaves; none if it stores behind an array. -/
def evspTableConfig (file : Option (List Char)) : Option (Int × PlanList) :=
  match file with
  | none => some (-1, .zero)
  | some file =>
      match run Reading.step (.reading .zero) (tableItems .outside (tableLines file)) with
      | .outOfBounds => none
      | .rejected => some (-1, .zero)
      | .reading list =>
          match list.link with
          | none => some (-1, .zero)
          | some list => if list.check then some (1, list) else some (-1, .zero)

end AdaptiveSignal.Signal
