import AdaptiveSignal.Emergency.TableFile
import AdaptiveSignal.Foundation.CutText
import AdaptiveSignal.Foundation.OwnedTable
import AdaptiveSignal.Foundation.Run
import Mathlib.Algebra.Order.Group.Unbundled.Int

/-! # The image database

A file maps the ids of images to their names, a line each. For an update it is read into a
table, whose strings are allocated one by one, and written anew from that.
-/

namespace AdaptiveSignal.Cms

open Foundation
open AdaptiveSignal.Configuration (fgets)
open Signal (trimComments trimSpace)

abbrev bufferSize : ℕ := 120
abbrev filenameCount : ℕ := 256

/-- `filename`. -/
abbrev Filenames : Type := OwnedTable filenameCount (List Char)

abbrev zeroByte : Char := Char.ofNat 0

/-- A string without a line break. -/
structure Name where
  chars : List Char
  noBreak : '\n' ∉ chars
  noZero : zeroByte ∉ chars
  deriving DecidableEq

/-- The arguments of `CMS_update_database`, and which of its calls of `fopen` succeed: for
reading a file that is there, for creating one, and for writing it anew. -/
structure Update where
  imgId : ℤ
  inRange : 0 ≤ imgId ∧ imgId < filenameCount
  imgName : Name
  readable : Bool
  creatable : Bool
  writable : Bool

/-- What a call returns, the file it leaves, how many strings it has allocated and which of
them it has freed. -/
structure Exit where
  ret : ℤ
  file : Option (List Char)
  allocated : ℕ
  freed : List ℕ

/-! ## Reading -/

/-- What `read_string_arr_from_config_line` collects from a line. -/
def readStringArr (line : List Char) : List (List Char) :=
  (tokens ' ' (line.takeWhile (· ≠ zeroByte))).map trimComments

/-- The id and the name in a line that has two strings. -/
def readEntry (line : List Char) : Option (ℤ × List Char) :=
  match readStringArr line with
  | [substr, name] => (scanInt substr).map fun (intVal, _) => (intVal.bmod (2 ^ 32), name)
  | _ => none

/-- The string at the start of the buffer when the strings of a line have been cut out of it. -/
def leftOver (line : List Char) : List Char :=
  line.takeWhile (· = ' ') ++ (readStringArr line).headD []

/-- `filename[id] = strdup(name)`, after what was there is freed. Outside of the table there is
no result. -/
def setFilename (id : ℤ) (name : List Char) (t : Filenames) : Option Filenames :=
  if h : 0 ≤ id ∧ id < filenameCount then
    some (t.put ⟨id.toNat, by omega⟩ name)
  else none

def assign (t : Filenames) (line : List Char) : Option Filenames :=
  match readEntry line with
  | none => some t
  | some (id, name) => setFilename id name t

/-- `feof`, after a line was read. -/
def feof (line rest : List Char) : Bool :=
  rest = [] && line.length < bufferSize - 1 && line.getLast? ≠ some '\n'

/-- The loop over the file. At its end `fgets` leaves the buffer as it is. -/
def readDatabase (buffer file : List Char) (t : Filenames) : Option Filenames :=
  if _ : file = [] then assign t buffer
  else
    let next := fgets (bufferSize - 1) file
    match assign t next.1 with
    | none => none
    | some t =>
        if feof next.1 next.2 then some t else readDatabase (leftOver next.1) next.2 t
termination_by file.length
decreasing_by exact Configuration.fgets_rest_length_lt (by decide) ‹_›

/-! ## Writing -/

/-- What `snprintf` is to print. -/
def entryLine (id : ℤ) (name : List Char) : List Char :=
  formatInt id ++ ' ' :: name ++ ['\n']

/-- What `fwrite` takes from the buffer: as many characters as would have been printed. Those
behind the buffer have no result. -/
def writeEntry (id : ℤ) (name : List Char) : Option (List Char) :=
  let line := entryLine id name
  if line.length < bufferSize then some line
  else if line.length = bufferSize then some (line.take (bufferSize - 1) ++ [zeroByte])
  else none

def writePlace (t : Filenames) (i : Fin filenameCount) : Option (List Char) :=
  match t.content i with
  | none => some []
  | some name => writeEntry i.val name

def writeDatabase (t : Filenames) : List (Fin filenameCount) → Option (List Char)
  | [] => some []
  | i :: later => do
      let line ← writePlace t i
      let text ← writeDatabase t later
      return line ++ text

/-- From `WRITEDATABASE` on. If the file cannot be opened, it is as it was. -/
def Update.write (u : Update) (t : Filenames) (file : List Char) : Option Exit := do
  let t ← setFilename u.imgId u.imgName.chars t
  if u.writable then
    let text ← writeDatabase t (List.finRange filenameCount)
    return ⟨1, some text, t.allocated, t.freeAll.freed⟩
  else return ⟨-1, some file, t.allocated, t.freeAll.freeAll.freed⟩

/-- `CMS_update_database`. A file with nothing in it leaves the buffer as it lies on the stack. -/
def cmsUpdateDatabase (u : Update) (file : Option (List Char)) : Option Exit :=
  match if u.readable then file else none with
  | none =>
      if u.creatable then u.write .empty []
      else some ⟨-1, file, 0, []⟩
  | some [] => none
  | some text => do
      let t ← readDatabase [] text .empty
      u.write t text

/-! ## The map -/

structure Entry where
  id : ℤ
  name : Name
  deriving DecidableEq

def Entry.line (e : Entry) : List Char := entryLine e.id e.name.chars

/-- The file of some entries. -/
def rendered (entries : List Entry) : List Char := entries.flatMap Entry.line

def Update.entry (u : Update) : Entry := ⟨u.imgId, u.imgName⟩

/-- The id maps to the name, and every other id to what it had. -/
def Update.replaced (u : Update) (entries : List Entry) : List Entry :=
  u.entry :: entries.filter fun e => e.id ≠ u.imgId

/-- Each string is freed once, and a call that returns 1 leaves a file that is updated. -/
structure Update.Correct (u : Update) (before : Option (List Entry)) (exit : Exit) : Prop where
  freed : exit.freed.Perm (List.range exit.allocated)
  updated : exit.ret = 1 →
    ∃ after, exit.file = some (rendered after) ∧ after.Perm (u.replaced (before.getD []))

/-- By their ids. -/
def inOrder (entries : List Entry) : List Entry :=
  (List.finRange filenameCount).flatMap fun i => entries.filter fun e => e.id = i.val

/-- The entries of the file after a call. -/
def step : Option (List Entry) → Update → Option (List Entry)
  | none, u => if u.creatable then some (inOrder (u.replaced [])) else none
  | some entries, u =>
      if u.readable then some (inOrder (u.replaced entries))
      else if u.creatable then some (inOrder (u.replaced [])) else some entries

/-! ## The condition -/

/-- What `fgets` reads one after the other. -/
def pieces (file : List Char) : List (List Char) :=
  if _ : file = [] then []
  else (fgets (bufferSize - 1) file).1 :: pieces (fgets (bufferSize - 1) file).2
termination_by file.length
decreasing_by exact Configuration.fgets_rest_length_lt (by decide) ‹_›

/-- The entry is in the table, and its name is one string, which has no comment. -/
structure Entry.Plain (e : Entry) : Prop where
  inRange : 0 ≤ e.id ∧ e.id < filenameCount
  noBlank : ' ' ∉ e.name.chars
  noComment : '#' ∉ e.name.chars
  trimmed : trimSpace e.name.chars = e.name.chars
  fits : e.line.length < bufferSize

/-- Nothing that is read of the line is taken for a line of another id. -/
def Entry.Harmless (e : Entry) : Prop :=
  ∀ piece ∈ pieces e.line, ∀ read ∈ readEntry piece, read.1 = e.id

/-- The entries are read as they are, up to those of the id that is updated. -/
structure Update.Reads (u : Update) (entries : List Entry) : Prop where
  nonempty : entries ≠ []
  plain : ∀ e ∈ entries, e.id ≠ u.imgId → e.Plain
  harmless : ∀ e ∈ entries, e.id = u.imgId → e.Harmless
  distinct : ((entries.filter fun e => e.id ≠ u.imgId).map Entry.id).Nodup

/-- The file can be written, and the new line fits into the buffer. -/
def Update.Writes (u : Update) : Prop :=
  u.writable ∧ u.entry.line.length < bufferSize

def Update.Admitted : Option (List Entry) → Update → Prop
  | none, u => u.creatable → u.Writes
  | some entries, u =>
      if u.readable then u.Reads entries ∧ u.Writes
      else u.creatable → (∀ e ∈ entries, e.id = u.imgId) ∧ u.Writes

end AdaptiveSignal.Cms
