import AdaptiveSignal.Activation.SupermatrixLookup
import AdaptiveSignal.Configuration.Values
import Mathlib.Tactic.FinCases

/-! # The files of the supermatrix

At its registration the bus application goes through a directory. A file that is
named after the roadside unit and a plan holds the adjustments of the plan, one line
for each entry in the order of the four indices, and the first file of a plan that
can be opened is the one that lookups read.
-/

namespace AdaptiveSignal.Signal

open Foundation AdaptiveSignal.Configuration

/-! ## Reading a file -/

/-- Numbers with a comma behind each, which the last one may lack. -/
def scanAdjustments : ℕ → List Char → Option (List Int8 × List Char)
  | 0, s => some ([], s)
  | n + 1, s => do
      let (value, s) ← scanInt s
      let s ← match s with
        | ',' :: s => some s
        | s => if n = 0 then some s else none
      let (values, s) ← scanAdjustments n s
      return (Int8.ofInt value :: values, s)

/-- The two rows of an entry. -/
def adjustmentOf (values : List Int8) : TspAdjustment :=
  fun i j => values.getD (i.val * tspPhaseMax + j.val) 0

/-- The indices in the order of the loops. -/
def tspIndices : List TspIndex :=
  (List.range tspRemainingDistanceNum).flatMap fun distance =>
    (List.range tspSignalPhaseNum).flatMap fun signalPhase =>
      (List.range tspRemainingTimeNum).flatMap fun time =>
        (List.range tspTargetPhaseNum).map fun targetPhase =>
          ⟨distance, signalPhase, time, targetPhase⟩

def readAdjustments : List TspIndex → (TspIndex → TspAdjustment) → List Char →
    Option (TspIndex → TspAdjustment)
  | [], entry, _ => some entry
  | index :: indices, entry, s => do
      let (values, s) ← scanAdjustments (tspCycleMax * tspPhaseMax) s
      readAdjustments indices (Function.update entry index (adjustmentOf values)) s

/-- `TSP_RSU_matrix_new`, which ends the program at a file that is not a matrix, and has no
matrix where there is no file to open. The first word of a file is skipped. -/
def tspRsuMatrixNew (behind : TspIndex → TspAdjustment) (planId : UInt8) :
    Option (List Char) → Option (Option TspRsuMatrix)
  | none => some none
  | some text => do
      let (_, s) ← scanWord text
      let entry ← readAdjustments tspIndices behind s
      return some ⟨planId, entry⟩

/-- `TSP_RSU_matrix_insert`. -/
def tspRsuMatrixInsert (behind : TspIndex → TspAdjustment) (matrices : List TspRsuMatrix)
    (planId : UInt8) (file : Option (List Char)) : Option (List TspRsuMatrix) :=
  if matrices.any fun matrix => matrix.planId = planId then some matrices
  else (tspRsuMatrixNew behind planId file).map fun matrix => matrices ++ matrix.toList

/-! ## The directory -/

/-- An entry of the directory, with its text where it can be opened. -/
structure DirEntry where
  name : List Char
  regular : Bool
  text : Option (List Char)

/-- What the name of a file was scanned to; it stays where a scan fails. -/
structure ScannedName where
  rsuName : List Char
  planId : UInt8

/-- `sscanf` with `%[^_]_%hhd`. -/
def ScannedName.scan (last : ScannedName) (name : List Char) : ScannedName :=
  let word := name.takeWhile fun c => c ≠ '_'
  if word = [] then last
  else
    match name.dropWhile fun c => c ≠ '_' with
    | [] => { last with rsuName := word }
    | _ :: s =>
        match scanInt s with
        | some (planId, _) => ⟨word, UInt8.ofInt planId⟩
        | none => { last with rsuName := word }

/-- The plans and files that are named after the roadside unit, in the order of the directory. -/
def planFiles (rsuName : RsuName) : ScannedName → List DirEntry →
    List (UInt8 × Option (List Char))
  | _, [] => []
  | last, entry :: entries =>
      if entry.regular then
        let name := last.scan entry.name
        if name.rsuName.take rsuNameMaxLen = rsuName.chars then
          (name.planId, entry.text) :: planFiles rsuName name entries
        else planFiles rsuName name entries
      else planFiles rsuName last entries

/-- The loop of `TSP_on_registration` over the directory. -/
def registerMatrices (behind : TspIndex → TspAdjustment) (rsuName : RsuName) :
    ScannedName → List TspRsuMatrix → List DirEntry → Option (List TspRsuMatrix)
  | _, matrices, [] => some matrices
  | last, matrices, entry :: entries =>
      if entry.regular then do
        let name := last.scan entry.name
        let matrices ←
          if name.rsuName.take rsuNameMaxLen = rsuName.chars then
            tspRsuMatrixInsert behind matrices name.planId entry.text
          else some matrices
        registerMatrices behind rsuName name matrices entries
      else registerMatrices behind rsuName last matrices entries

/-! ## Files that are matrices -/

/-- The numbers of an entry, in the order of its rows. -/
def adjustmentValues (adjustment : TspAdjustment) : List Int8 :=
  (List.finRange tspCycleMax).flatMap fun i => (List.finRange tspPhaseMax).map (adjustment i)

def adjustmentText (adjustment : TspAdjustment) : List Char :=
  '\n' :: (adjustmentValues adjustment).flatMap fun value => formatInt value.toInt ++ [',']

/-- A word and the adjustments of the entries. -/
structure MatrixFile where
  word : List Char
  nonempty : word ≠ []
  noSpace : ∀ c ∈ word, isSpace c = false
  entry : TspIndex → TspAdjustment

def MatrixFile.text (file : MatrixFile) : List Char :=
  file.word ++ tspIndices.flatMap fun index => adjustmentText (file.entry index)

/-- The matrix of the file. -/
def MatrixFile.matrix (file : MatrixFile) (behind : TspIndex → TspAdjustment) (planId : UInt8) :
    TspRsuMatrix where
  planId := planId
  entry index := if index ∈ tspIndices then file.entry index else behind index

theorem mem_tspIndices {index : TspIndex} : index ∈ tspIndices ↔ index.InBounds := by
  simp only [tspIndices, List.mem_flatMap, List.mem_map, List.mem_range, TspIndex.InBounds]
  constructor
  · rintro ⟨distance, hdistance, signalPhase, hsignalPhase, time, htime, targetPhase, htargetPhase,
      rfl⟩
    exact ⟨hdistance, hsignalPhase, htime, htargetPhase⟩
  · rintro ⟨hdistance, hsignalPhase, htime, htargetPhase⟩
    exact ⟨_, hdistance, _, hsignalPhase, _, htime, _, htargetPhase, rfl⟩

theorem scanAdjustments_text (values : List Int8) (rest : List Char) :
    scanAdjustments values.length
        ((values.flatMap fun value => formatInt value.toInt ++ [',']) ++ rest) =
      some (values, rest) := by
  induction values with
  | nil => rfl
  | cons value values ih =>
      have hscan : scanInt (formatInt value.toInt ++ ',' ::
          ((values.flatMap fun value => formatInt value.toInt ++ [',']) ++ rest)) =
          some (value.toInt, ',' ::
            ((values.flatMap fun value => formatInt value.toInt ++ [',']) ++ rest)) :=
        scanInt_formatInt_of_head value.toInt fun c hc => by
          rw [← Option.some.inj hc]
          decide
      rw [List.flatMap_cons, List.append_assoc, List.append_assoc, List.singleton_append,
        List.length_cons, scanAdjustments, hscan]
      simp [ih, Int8.ofInt_toInt]

theorem adjustmentOf_values (adjustment : TspAdjustment) :
    adjustmentOf (adjustmentValues adjustment) = adjustment := by
  funext i j
  fin_cases i <;> fin_cases j <;> rfl

/-- An entry is read back, up to the line of the next. -/
theorem scanAdjustments_adjustment (adjustment : TspAdjustment) (rest : List Char) :
    scanAdjustments (tspCycleMax * tspPhaseMax) (adjustmentText adjustment ++ rest) =
      some (adjustmentValues adjustment, rest) :=
  scanAdjustments_text (adjustmentValues adjustment) rest

theorem readAdjustments_text (indices : List TspIndex) (entry behind : TspIndex → TspAdjustment) :
    readAdjustments indices behind (indices.flatMap fun index => adjustmentText (entry index)) =
      some fun index => if index ∈ indices then entry index else behind index := by
  induction indices generalizing behind with
  | nil => simp [readAdjustments]
  | cons index indices ih =>
      rw [List.flatMap_cons, readAdjustments, scanAdjustments_adjustment]
      dsimp only [Option.bind_eq_bind, Option.bind_some]
      rw [ih, adjustmentOf_values]
      congr 1
      funext other
      by_cases hrest : other ∈ indices
      · simp [hrest]
      · by_cases hfirst : other = index
        · subst hfirst
          simp [hrest]
        · simp [hrest, hfirst]

/-- The file of a matrix is read as that matrix. -/
theorem tspRsuMatrixNew_text (file : MatrixFile) (behind : TspIndex → TspAdjustment)
    (planId : UInt8) :
    tspRsuMatrixNew behind planId (some file.text) = some (some (file.matrix behind planId)) := by
  have hends : Ends (tspIndices.flatMap fun index => adjustmentText (file.entry index)) := by
    cases tspIndices with
    | nil => exact ends_nil
    | cons index indices =>
        intro c hc
        rw [← Option.some.inj hc]
        decide
  rw [tspRsuMatrixNew, MatrixFile.text, scanWord_word file.nonempty file.noSpace hends]
  dsimp only [Option.bind_eq_bind, Option.bind_some]
  rw [readAdjustments_text]
  rfl

/-! ## Registration -/

/-- The first file of a plan that can be opened. -/
def firstFile (planId : UInt8) (files : List (UInt8 × Option (List Char))) :
    Option (List Char) :=
  (files.filter fun file => file.1 = planId).findSome? Prod.snd

/-- The files go into the list of matrices one after the other. -/
theorem registerMatrices_eq (behind : TspIndex → TspAdjustment) (rsuName : RsuName)
    (last : ScannedName) (matrices : List TspRsuMatrix) (entries : List DirEntry) :
    registerMatrices behind rsuName last matrices entries =
      (planFiles rsuName last entries).foldlM
        (fun matrices file => tspRsuMatrixInsert behind matrices file.1 file.2) matrices := by
  induction entries generalizing last matrices with
  | nil => rfl
  | cons entry entries ih =>
      rw [registerMatrices, planFiles]
      dsimp only
      split_ifs with hregular hname
      · rw [List.foldlM_cons]
        exact congrArg _ (funext fun matrices => ih _ matrices)
      · exact ih _ matrices
      · exact ih last matrices

section Insert

variable {behind : TspIndex → TspAdjustment} {matrices : List TspRsuMatrix} {planId : UInt8}

theorem any_planId :
    (matrices.any fun matrix => matrix.planId = planId) =
      (tspRsuMatrixSearch matrices planId).isSome :=
  List.isSome_find?.symm

/-- A plan that has its matrix keeps it. -/
theorem tspRsuMatrixInsert_found {matrix : TspRsuMatrix}
    (hsearch : tspRsuMatrixSearch matrices planId = some matrix) (file : Option (List Char)) :
    tspRsuMatrixInsert behind matrices planId file = some matrices := by
  rw [tspRsuMatrixInsert, if_pos (by rw [any_planId, hsearch]; rfl)]

theorem tspRsuMatrixInsert_text (hsearch : tspRsuMatrixSearch matrices planId = none)
    (file : MatrixFile) :
    tspRsuMatrixInsert behind matrices planId (some file.text) =
      some (matrices ++ [file.matrix behind planId]) := by
  rw [tspRsuMatrixInsert, if_neg (by rw [any_planId, hsearch]; decide), tspRsuMatrixNew_text]
  rfl

/-- A file that cannot be opened brings nothing. -/
theorem tspRsuMatrixInsert_none :
    tspRsuMatrixInsert behind matrices planId none = some matrices := by
  rw [tspRsuMatrixInsert, tspRsuMatrixNew]
  split_ifs
  · rfl
  · simp

theorem tspRsuMatrixSearch_append (matrix : TspRsuMatrix) :
    tspRsuMatrixSearch (matrices ++ [matrix]) planId =
      (tspRsuMatrixSearch matrices planId).or
        (if matrix.planId = planId then some matrix else none) := by
  rw [tspRsuMatrixSearch, List.find?_append, List.find?_singleton]
  simp [tspRsuMatrixSearch]

end Insert

section FirstFile

variable {planId : UInt8} {file : UInt8 × Option (List Char)}
  {files : List (UInt8 × Option (List Char))}

theorem firstFile_cons_of_ne (hplan : file.1 ≠ planId) :
    firstFile planId (file :: files) = firstFile planId files := by
  rw [firstFile, List.filter_cons_of_neg (by simpa using hplan), firstFile]

theorem firstFile_cons_of_none (hclosed : file.2 = none) :
    firstFile planId (file :: files) = firstFile planId files := by
  by_cases hplan : file.1 = planId
  · rw [firstFile, List.filter_cons_of_pos (by simpa using hplan), List.findSome?_cons, hclosed,
      firstFile]
  · exact firstFile_cons_of_ne hplan

theorem firstFile_cons_of_some (hplan : file.1 = planId) {text : List Char}
    (hopen : file.2 = some text) : firstFile planId (file :: files) = some text := by
  rw [firstFile, List.filter_cons_of_pos (by simpa using hplan), List.findSome?_cons, hopen]

end FirstFile

/-- What a plan has after the files: its matrix, or that of its first file. -/
structure Loaded (behind : TspIndex → TspAdjustment)
    (files : List (UInt8 × Option (List Char))) (matrices matrices' : List TspRsuMatrix)
    (planId : UInt8) : Prop where
  kept : ∀ matrix, tspRsuMatrixSearch matrices planId = some matrix →
    tspRsuMatrixSearch matrices' planId = some matrix
  absent : tspRsuMatrixSearch matrices planId = none → firstFile planId files = none →
    tspRsuMatrixSearch matrices' planId = none
  first : tspRsuMatrixSearch matrices planId = none → ∀ file : MatrixFile,
    firstFile planId files = some file.text →
      tspRsuMatrixSearch matrices' planId = some (file.matrix behind planId)

namespace Loaded

variable {behind : TspIndex → TspAdjustment} {files files' : List (UInt8 × Option (List Char))}
  {matrices matrices₁ matrices' : List TspRsuMatrix} {planId : UInt8}

/-- Neither what is searched at first nor the first file has changed. -/
theorem congr (h : Loaded behind files matrices₁ matrices' planId)
    (hsearch : tspRsuMatrixSearch matrices planId = tspRsuMatrixSearch matrices₁ planId)
    (hfirst : firstFile planId files' = firstFile planId files) :
    Loaded behind files' matrices matrices' planId where
  kept matrix hmatrix := h.kept matrix (hsearch ▸ hmatrix)
  absent hnone hfile := h.absent (hsearch ▸ hnone) (hfirst ▸ hfile)
  first hnone file hfile := h.first (hsearch ▸ hnone) file (hfirst ▸ hfile)

theorem of_found {matrix : TspRsuMatrix} (hfound : tspRsuMatrixSearch matrices planId = some matrix)
    (hkept : tspRsuMatrixSearch matrices' planId = some matrix) :
    Loaded behind files matrices matrices' planId where
  kept other hother := by rw [hkept, ← hfound, hother]
  absent hnone := by rw [hfound] at hnone; cases hnone
  first hnone := by rw [hfound] at hnone; cases hnone

end Loaded

/-- Where every file is a matrix, all files are read. -/
theorem exists_loaded (behind : TspIndex → TspAdjustment)
    {files : List (UInt8 × Option (List Char))}
    (hfiles : ∀ file ∈ files, ∀ text ∈ file.2, ∃ matrixFile : MatrixFile, text = matrixFile.text)
    (matrices : List TspRsuMatrix) :
    ∃ matrices', files.foldlM
        (fun matrices file => tspRsuMatrixInsert behind matrices file.1 file.2) matrices =
          some matrices' ∧ ∀ planId, Loaded behind files matrices matrices' planId := by
  induction files generalizing matrices with
  | nil =>
      refine ⟨matrices, rfl, fun planId => ⟨fun _ h => h, fun h _ => h, fun _ _ hfirst => ?_⟩⟩
      cases hfirst
  | cons file files ih =>
      obtain ⟨hfile, hfiles⟩ := List.forall_mem_cons.mp hfiles
      rw [List.foldlM_cons]
      cases hsearch : tspRsuMatrixSearch matrices file.1 with
      | some matrix =>
          obtain ⟨matrices', hrun, hloaded⟩ := ih hfiles matrices
          rw [tspRsuMatrixInsert_found hsearch]
          refine ⟨matrices', hrun, fun planId => ?_⟩
          by_cases hplan : file.1 = planId
          · subst hplan
            exact .of_found hsearch ((hloaded _).kept matrix hsearch)
          · exact (hloaded planId).congr rfl (firstFile_cons_of_ne hplan)
      | none =>
          cases hopen : file.2 with
          | none =>
              obtain ⟨matrices', hrun, hloaded⟩ := ih hfiles matrices
              rw [tspRsuMatrixInsert_none]
              exact ⟨matrices', hrun, fun planId =>
                (hloaded planId).congr rfl (firstFile_cons_of_none hopen)⟩
          | some text =>
              obtain ⟨first, rfl⟩ := hfile text hopen
              obtain ⟨matrices', hrun, hloaded⟩ :=
                ih hfiles (matrices ++ [first.matrix behind file.1])
              rw [tspRsuMatrixInsert_text hsearch]
              refine ⟨matrices', hrun, fun planId => ?_⟩
              have hadded := @tspRsuMatrixSearch_append matrices planId
                (first.matrix behind file.1)
              by_cases hplan : file.1 = planId
              · subst hplan
                rw [hsearch, Option.none_or] at hadded
                have hfound := (hloaded file.1).kept _ (hadded.trans (if_pos rfl))
                refine ⟨fun other hother => ?_, fun _ hfirst => ?_, fun _ other hfirst => ?_⟩
                · rw [hsearch] at hother
                  cases hother
                · rw [firstFile_cons_of_some rfl hopen] at hfirst
                  cases hfirst
                · rw [firstFile_cons_of_some rfl hopen] at hfirst
                  -- the text of a matrix decides what is read from it
                  have hsame := tspRsuMatrixNew_text first behind file.1
                  rw [Option.some.inj hfirst, tspRsuMatrixNew_text] at hsame
                  rw [hfound, Option.some.inj (Option.some.inj hsame)]
              · rw [show (first.matrix behind file.1).planId = file.1 from rfl, if_neg hplan,
                  Option.or_none] at hadded
                exact (hloaded planId).congr hadded.symm (firstFile_cons_of_ne hplan)

/-- A file for a unit `R` whose entries lengthen the first green by 5 seconds. -/
def extendByFive : MatrixFile where
  word := ['R']
  nonempty := List.cons_ne_nil _ _
  noSpace c hc := by rw [List.mem_singleton.mp hc]; rfl
  entry _ i j := if i.val = 0 ∧ j.val = 0 then 5 else 0

end AdaptiveSignal.Signal
