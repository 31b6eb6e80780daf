import AdaptiveSignal.Configuration.File

/-! # The file of the touching areas

A file lists terminate areas, touching areas and plans, an entry a line, between lines
that name a table and its end. A line is read into one entry; what a line that breaks
off has before it does is kept, because it is stored before the rest is looked at.
-/

namespace AdaptiveSignal.Signal

open Foundation AdaptiveSignal.Configuration

abbrev maxNodeCount : ℕ := 100
abbrev evspPhaseMax : ℕ := 8

/-- `EVSP_Node_t`. -/
structure EvspNode where
  lon : ℚ
  lat : ℚ
  deriving DecidableEq

/-- `EVSP_terminate_area_t`, as written or as stored. -/
structure TerminateArea where
  id : UInt32
  nodes : List EvspNode
  deriving DecidableEq

/-- `EVSP_touching_area_t`: the terminate areas by their ids as written, by their
indices as stored. -/
structure TouchingArea where
  id : UInt32
  directionStart : UInt8
  directionEnd : UInt8
  nodes : List EvspNode
  terminateAreaId : List UInt32
  deriving DecidableEq

/-- `EVSP_plan_subPhase_t`, with the touching areas by id or by index. -/
structure PlanSubPhase where
  subPhaseId : UInt8
  touchingAreaId : List UInt32
  deriving DecidableEq

/-! ## Lines -/

/-- `trim_space`. -/
def trimSpace (s : List Char) : List Char :=
  (((s.dropWhile isSpace).reverse).dropWhile isSpace).reverse

/-- `trim_comments`; a string ends at its first zero. -/
def trimComments (s : List Char) : List Char :=
  trimSpace (s.takeWhile fun c => c ≠ '#' && c ≠ Char.ofNat 0)

/-- What one `fgets` after the other reads, each up to a line break or a full buffer. -/
def bufferedLines : List Char → List Char → List (List Char)
  | [], [] => []
  | buffer, [] => [buffer]
  | buffer, c :: file =>
      if c = '\n' ∨ buffer.length + 2 = configLineBufferSize then
        (buffer ++ [c]) :: bufferedLines [] file
      else bufferedLines (buffer ++ [c]) file

/-- The lines that `read_line` returns one after the other. -/
def tableLines (file : List Char) : List (List Char) :=
  ((bufferedLines [] file).map trimComments).filter fun line => line ≠ []

/-- What `strsep` at commas returns one after the other. -/
def commaFields : List Char → List (List Char)
  | [] => [[]]
  | c :: s =>
      if c = ',' then [] :: commaFields s
      else
        match commaFields s with
        | [] => [[c]]
        | field :: fields => (c :: field) :: fields

/-- What `strtok_r` at commas returns one after the other. -/
def commaTokens (s : List Char) : List (List Char) :=
  (commaFields s).filter fun field => field ≠ []

/-- `%d` or `%u`. -/
def scanUint32 (field : List Char) : Option UInt32 :=
  (scanInt field).map fun (n, _) => UInt32.ofInt n

/-- `%hhd`. -/
def scanUint8 (field : List Char) : Option UInt8 :=
  (scanInt field).map fun (n, _) => UInt8.ofInt n

/-- `%hhd`, and a bound on the value. -/
def scanAtMost (bound : ℕ) (field : List Char) : Option UInt8 :=
  (scanUint8 field).filter fun n => n.toNat ≤ bound

/-- Both parts of a field that has a space. -/
def spaceFields (field : List Char) : Option (List Char × List Char) :=
  match field.dropWhile (· ≠ ' ') with
  | [] => none
  | _ :: rest => some (field.takeWhile (· ≠ ' '), rest)

/-- `read_node`. -/
def readNode (field : List Char) : Option EvspNode := do
  let (first, second) ← spaceFields field
  let (lon, _) ← scanDecimal (trimComments first)
  let (lat, _) ← scanDecimal (trimComments second)
  if -180 ≤ lon ∧ lon < 180 ∧ -90 ≤ lat ∧ lat ≤ 90 then some ⟨lon, lat⟩ else none

/-! ## Entries -/

/-- So many nodes, and the fields behind them. -/
def readNodes : ℕ → List (List Char) → Option (List EvspNode × List (List Char))
  | 0, fields => some ([], fields)
  | _ + 1, [] => none
  | count + 1, field :: fields => do
      let node ← readNode (trimComments field)
      let (nodes, fields) ← readNodes count fields
      return (node :: nodes, fields)

/-- So many ids. -/
def readIds : ℕ → List (List Char) → Option (List UInt32)
  | 0, _ => some []
  | _ + 1, [] => none
  | count + 1, field :: fields => do
      let id ← scanUint32 (trimComments field)
      let ids ← readIds count fields
      return id :: ids

/-- What the lines of the file ask for, one after the other. An entry whose line breaks off
is not complete, but stored under its id all the same. -/
inductive TableItem
  | terminateTable
  | terminateArea (area : TerminateArea) (complete : Bool)
  | touchingTable
  | touchingArea (area : TouchingArea) (complete : Bool)
  | planTable (planIds : List UInt8) (complete : Bool)
  | subPhase (subPhase : PlanSubPhase) (complete : Bool)
  | malformed

/-- The id in front of an entry, which other fields follow. -/
def readId : List (List Char) → Option (UInt32 × List (List Char))
  | field :: next :: fields => (scanUint32 (trimComments field)).map fun id => (id, next :: fields)
  | _ => none

/-- The nodes of a terminate area: their count has a comma behind it. -/
def readTerminateNodes : List (List Char) → Option (List EvspNode)
  | field :: next :: fields => do
      let count ← scanAtMost maxNodeCount (trimComments field)
      let (nodes, _) ← readNodes count.toNat (next :: fields)
      return nodes
  | _ => none

def terminateItem (line : List Char) : TableItem :=
  match readId (commaFields line) with
  | none => .malformed
  | some (id, fields) =>
      match readTerminateNodes fields with
      | none => .terminateArea ⟨id, []⟩ false
      | some nodes => .terminateArea ⟨id, nodes⟩ true

/-- The directions of a touching area; the second is stored as the one behind it. -/
def readDirections (field : List Char) : Option (UInt8 × UInt8) := do
  let (first, second) ← spaceFields field
  let directionStart ← scanAtMost 7 first
  let directionEnd ← scanAtMost 7 second
  return (directionStart, (directionEnd + 1) % 8)

/-- The fields of a touching area behind its id. Every node has a comma behind it, that is,
another field follows the nodes. -/
def readTouchingArea (id : UInt32) : List (List Char) → Option TouchingArea
  | directions :: nodeCount :: fields => do
      let (directionStart, directionEnd) ← readDirections (trimComments directions)
      let nodeCount ← scanAtMost maxNodeCount (trimComments nodeCount)
      let (nodes, fields) ← readNodes nodeCount.toNat fields
      match fields with
      | [] => none
      | count :: fields =>
          let count ← scanAtMost maxNodeCount (trimComments count)
          let ids ← readIds count.toNat fields
          return ⟨id, directionStart, directionEnd, nodes, ids⟩
  | _ => none

def touchingItem (line : List Char) : TableItem :=
  match readId (commaFields line) with
  | none => .malformed
  | some (id, fields) =>
      match readTouchingArea id fields with
      | none => .touchingArea ⟨id, 0, 0, [], []⟩ false
      | some area => .touchingArea area true

def readSubPhase : List (List Char) → Option PlanSubPhase
  | subPhaseId :: count :: next :: fields => do
      let subPhaseId ← scanAtMost evspPhaseMax (trimComments subPhaseId)
      let count ← scanAtMost maxNodeCount (trimComments count)
      let ids ← readIds count.toNat (next :: fields)
      return ⟨subPhaseId, ids⟩
  | _ => none

def subPhaseItem (line : List Char) : TableItem :=
  match readSubPhase (commaFields line) with
  | none => .subPhase ⟨0, []⟩ false
  | some subPhase => .subPhase subPhase true

/-- The plan ids up to the first that is none, and whether there is none such. -/
def readPlanIds : List (List Char) → List UInt8 × Bool
  | [] => ([], true)
  | token :: tokens =>
      match scanUint8 (trimComments token) with
      | none => ([], false)
      | some planId => (planId :: (readPlanIds tokens).1, (readPlanIds tokens).2)

/-- At least one plan id stands behind the name of the table. -/
def planItem (line : List Char) : TableItem :=
  let tokens := commaTokens (trimComments (line.drop "plan_table".length))
  .planTable (readPlanIds tokens).1 (tokens ≠ [] && (readPlanIds tokens).2)

/-! ## Tables -/

/-- The table that lines are read for. -/
inductive TableSection
  | outside
  | terminateTable
  | touchingTable
  | planTable
  deriving DecidableEq

/-- The last of the tests on a line outside a table. -/
def planLine (line : List Char) : List TableItem × TableSection :=
  if "plan_table".toList.isPrefixOf line then ([planItem line], .planTable) else ([], .outside)

/-- The tests behind the first. They are also made on the line that ends the table of the
terminate areas, which is then in the buffer. -/
def touchingLine (line : List Char) : List TableItem × TableSection :=
  if "touching_area_table".toList.isPrefixOf line then ([.touchingTable], .touchingTable)
  else planLine line

/-- One line of the file. -/
def readTableLine : TableSection → List Char → List TableItem × TableSection
  | .outside, line =>
      if strstr line "terminate_area_table".toList then ([.terminateTable], .terminateTable)
      else touchingLine line
  | .terminateTable, line =>
      if strstr line "terminate_area_table_end".toList then touchingLine line
      else ([terminateItem line], .terminateTable)
  | .touchingTable, line =>
      if strstr line "touching_area_table_end".toList then planLine line
      else ([touchingItem line], .touchingTable)
  | .planTable, line =>
      if strstr line "plan_table_end".toList then ([], .outside)
      else ([subPhaseItem line], .planTable)

/-- What the lines ask for; a table that the file ends in is malformed. -/
def tableItems : TableSection → List (List Char) → List TableItem
  | .outside, [] => []
  | _, [] => [.malformed]
  | table, line :: lines =>
      (readTableLine table line).1 ++ tableItems (readTableLine table line).2 lines

end AdaptiveSignal.Signal
