import AdaptiveSignal.Foundation.BigEndian
import Mathlib.Data.UInt
import Mathlib.Tactic.Common

/-! # Fields read out of a buffer

A received packet is read field by field through an index, which every read moves
behind its field. Floating-point fields are their bits.
-/

namespace AdaptiveSignal.Network

open Foundation

def byte2uint16 (input : ℕ → UInt8) : ℕ :=
  (input 0).toNat <<< 8 ||| (input 1).toNat

def byte2uint32 (input : ℕ → UInt8) : ℕ :=
  (input 0).toNat <<< 24 ||| (input 1).toNat <<< 16 ||| (input 2).toNat <<< 8 ||| (input 3).toNat

def byte2float (input : ℕ → UInt8) : ℕ :=
  (input 0).toNat <<< 24 ||| (input 1).toNat <<< 16 ||| (input 2).toNat <<< 8 ||| (input 3).toNat

def byte2double (input : ℕ → UInt8) : ℕ :=
  (input 0).toNat <<< 56 ||| (input 1).toNat <<< 48 ||| (input 2).toNat <<< 40 |||
    (input 3).toNat <<< 32 ||| (input 4).toNat <<< 24 ||| (input 5).toNat <<< 16 |||
      (input 6).toNat <<< 8 ||| (input 7).toNat

/-- Where a field lies, and how many bytes it has. -/
structure Place where
  offset : ℕ
  width : ℕ
  deriving DecidableEq

/-- `msg_buf_t`, and the places that were read so far. -/
structure MsgBuf where
  content : ℕ → UInt8
  index : UInt32
  reads : List Place

namespace MsgBuf

def input (buf : MsgBuf) (i : ℕ) : UInt8 := buf.content (buf.index.toNat + i)

/-- The index behind a field that was read. -/
def advance (buf : MsgBuf) (width : ℕ) : MsgBuf :=
  { buf with
    index := buf.index + .ofNat width
    reads := buf.reads ++ [⟨buf.index.toNat, width⟩] }

/-- Bytes that are not read. -/
def skip (buf : MsgBuf) (width : ℕ) : MsgBuf :=
  { buf with index := buf.index + .ofNat width }

end MsgBuf

def readChar (len : ℕ) : StateM MsgBuf (List UInt8) := fun buf =>
  ((List.range len).map buf.input, buf.advance len)

def readUInt8 : StateM MsgBuf ℕ := fun buf => ((buf.input 0).toNat, buf.advance 1)

def readUInt16 : StateM MsgBuf ℕ := fun buf => (byte2uint16 buf.input, buf.advance 2)

def readUInt32 : StateM MsgBuf ℕ := fun buf => (byte2uint32 buf.input, buf.advance 4)

def readFloat : StateM MsgBuf ℕ := fun buf => (byte2float buf.input, buf.advance 4)

def readDouble : StateM MsgBuf ℕ := fun buf => (byte2double buf.input, buf.advance 8)

/-- `read_buf.index += width` outside the read functions. -/
def skipBytes (width : ℕ) : StateM MsgBuf Unit := fun buf => ((), buf.skip width)

/-! ## What a program reads, from any index on -/

/-- Where the index stands after `n` bytes. -/
def indexAt (n : ℕ) : ℕ := (UInt32.ofNat n).toNat

theorem indexAt_lt (n : ℕ) : indexAt n < 2 ^ 32 := UInt32.toNat_lt _

theorem indexAt_of_lt {n : ℕ} (hn : n < 2 ^ 32) : indexAt n = n := UInt32.toNat_ofNat_of_lt' hn

/-- From the index after `n` bytes a program reads the places `places n`, has the
value `value n` and moves the index by `width`. -/
def Reads {α : Type} (content : ℕ → UInt8) (program : StateM MsgBuf α) (width : ℕ)
    (value : ℕ → α) (places : ℕ → List Place) : Prop :=
  ∀ n reads, program ⟨content, .ofNat n, reads⟩ =
    (value n, ⟨content, .ofNat (n + width), reads ++ places n⟩)

namespace Reads

variable {α β : Type} {content : ℕ → UInt8} {program : StateM MsgBuf α}
  {width : ℕ} {value : ℕ → α} {places : ℕ → List Place}

theorem pure (result : α) :
    Reads content (Pure.pure result) 0 (fun _ => result) fun _ => [] := by
  intro n reads
  rw [List.append_nil]
  rfl

theorem bind (hfirst : Reads content program width value places)
    {next : α → StateM MsgBuf β} {width' : ℕ} {value' : ℕ → α → β} {places' : ℕ → List Place}
    (hnext : ∀ result, Reads content (next result) width' (value' · result) places') :
    Reads content (program >>= next) (width + width') (fun n => value' (n + width) (value n))
      fun n => places n ++ places' (n + width) := by
  intro n reads
  change next (program ⟨content, .ofNat n, reads⟩).1 (program ⟨content, .ofNat n, reads⟩).2 = _
  rw [hfirst n reads, hnext, List.append_assoc, Nat.add_assoc]

/-- A program that is repeated reads one block after the other. -/
theorem repeated (hprogram : Reads content program width value places) (count : ℕ) :
    Reads content ((List.replicate count ()).mapM fun _ => program) (width * count)
      (fun n => (List.range count).map fun i => value (n + width * i))
      fun n => (List.range count).flatMap fun i => places (n + width * i) := by
  induction count with
  | zero => exact pure []
  | succ count ih =>
      rw [List.replicate_succ, List.mapM_cons]
      intro n reads
      have hrun := (hprogram.bind fun first => ih.bind fun rest => pure (first :: rest)) n reads
      rw [hrun, List.range_succ_eq_map]
      simp only [List.map_cons, List.map_map, List.flatMap_cons, List.flatMap_map, List.append_nil,
        Nat.mul_zero, Nat.add_zero, Function.comp_def, Nat.mul_succ, Nat.add_assoc,
        Nat.add_comm width]

end Reads

section Fields

variable (content : ℕ → UInt8)

/-- A field is read at the index. -/
theorem reads_field {α : Type} {content : ℕ → UInt8} (read : (ℕ → UInt8) → α) {width : ℕ}
    {value : List UInt8 → α}
    (hread : ∀ offset,
      read (fun i => content (offset + i)) = value (bytesAt content offset width)) :
    Reads content (fun buf => (read buf.input, buf.advance width)) width
      (fun n => value (bytesAt content (indexAt n) width)) fun n => [⟨indexAt n, width⟩] := by
  intro n reads
  change (read fun i => content (indexAt n + i), _) = (value (bytesAt content (indexAt n) width), _)
  rw [hread, UInt32.ofNat_add]
  rfl

theorem reads_readUInt8 :
    Reads content readUInt8 1 (fun n => ofBigEndian (bytesAt content (indexAt n) 1))
      fun n => [⟨indexAt n, 1⟩] :=
  reads_field (fun input => (input 0).toNat) fun _ => (ofBigEndian_one _).symm

theorem reads_readUInt16 :
    Reads content readUInt16 2 (fun n => ofBigEndian (bytesAt content (indexAt n) 2))
      fun n => [⟨indexAt n, 2⟩] :=
  reads_field byte2uint16 fun _ => (ofBigEndian_two _ _).symm

theorem reads_readUInt32 :
    Reads content readUInt32 4 (fun n => ofBigEndian (bytesAt content (indexAt n) 4))
      fun n => [⟨indexAt n, 4⟩] :=
  reads_field byte2uint32 fun _ => (ofBigEndian_four _ _ _ _).symm

theorem reads_readFloat :
    Reads content readFloat 4 (fun n => ofBigEndian (bytesAt content (indexAt n) 4))
      fun n => [⟨indexAt n, 4⟩] :=
  reads_field byte2float fun _ => (ofBigEndian_four _ _ _ _).symm

theorem reads_readDouble :
    Reads content readDouble 8 (fun n => ofBigEndian (bytesAt content (indexAt n) 8))
      fun n => [⟨indexAt n, 8⟩] :=
  reads_field byte2double fun _ => (ofBigEndian_eight _ _ _ _ _ _ _ _).symm

theorem reads_readChar (len : ℕ) :
    Reads content (readChar len) len (fun n => bytesAt content (indexAt n) len)
      fun n => [⟨indexAt n, len⟩] :=
  @reads_field _ content (fun input => (List.range len).map input) len id fun _ => rfl

theorem reads_skipBytes (width : ℕ) :
    Reads content (skipBytes width) width (fun _ => ()) fun _ => [] := by
  intro n reads
  rw [UInt32.ofNat_add, List.append_nil]
  rfl

end Fields

end AdaptiveSignal.Network
